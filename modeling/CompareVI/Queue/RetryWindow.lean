import CompareVI.Framework.Run
import CompareVI.Queue.Supervisor
import Mathlib.Data.List.DropRight

/-!
# The retry window over a run of cycles

The supervisor keeps the failures of each pull request in its report. A cycle prunes what the
report before it holds, the apply loop appends a failure or clears the entry of what it has
merged, and a cycle that is paused, dry or does not apply writes what it has pruned.

What the report is to hold is said by the submissions of all cycles (`Submission`): under each
pull request the failures in the window that are later than its last success
(`failuresInWindow`). `Tracks` is the invariant that ties the two together. It is kept by the
pruning (`Tracks.prune`), where time moves on, and by each submission of the loop
(`Tracks.failure`, `Tracks.success`), and so at the end of every cycle of every run
(`retryLaw`).
-/

open Framework

namespace CompareVI.Queue

/-! ### What is to be held -/

/-- A submission of a pull request in a cycle at an instant. -/
structure Submission where
  number : ℕ
  instant : ℤ
  merged : Bool
  deriving DecidableEq

def openFailures (submissions : List Submission) (number : ℕ) : List ℤ :=
  ((submissions.filter (·.number = number)).rtakeWhile (!·.merged)).map (·.instant)

def failuresInWindow (submissions : List Submission) (number : ℕ) (now : ℤ) : List ℤ :=
  (openFailures submissions number).filter fun instant => retryCutoff now ≤ instant

section Window

variable {submissions : List Submission} {number : ℕ} {now : ℤ} {s : Submission}

theorem openFailures_concat_of_ne (h : s.number ≠ number) :
    openFailures (submissions ++ [s]) number = openFailures submissions number := by
  rw [openFailures, List.filter_append, List.filter_singleton]
  simp [h, openFailures]

theorem openFailures_concat (h : s.number = number) :
    openFailures (submissions ++ [s]) number =
      if s.merged then [] else openFailures submissions number ++ [s.instant] := by
  rw [openFailures, List.filter_append, List.filter_singleton, decide_eq_true h, cond_true,
    List.rtakeWhile_concat]
  cases s.merged <;> simp [openFailures]

theorem failuresInWindow_concat_of_ne (h : s.number ≠ number) :
    failuresInWindow (submissions ++ [s]) number now = failuresInWindow submissions number now := by
  rw [failuresInWindow, openFailures_concat_of_ne h, failuresInWindow]

theorem failuresInWindow_success :
    failuresInWindow (submissions ++ [⟨number, now, true⟩]) number now = [] := by
  rw [failuresInWindow, openFailures_concat rfl]
  rfl

theorem retryCutoff_le_self : retryCutoff now ≤ now := by
  unfold retryCutoff RETRY_WINDOW_HOURS
  omega

theorem failuresInWindow_failure :
    failuresInWindow (submissions ++ [⟨number, now, false⟩]) number now =
      failuresInWindow submissions number now ++ [now] := by
  rw [failuresInWindow, openFailures_concat rfl, failuresInWindow]
  simp [List.filter_append, retryCutoff_le_self]

theorem filter_failuresInWindow {later : ℤ} (h : now ≤ later) :
    (failuresInWindow submissions number now).filter (fun instant => retryCutoff later ≤ instant) =
      failuresInWindow submissions number later := by
  rw [failuresInWindow, List.filter_filter, failuresInWindow]
  refine List.filter_congr fun instant _ => ?_
  have hcutoff : retryCutoff now ≤ retryCutoff later := Int.sub_le_sub_right h _
  rw [← Bool.decide_and, decide_eq_decide]
  exact ⟨And.left, fun hle => ⟨hle, hcutoff.trans hle⟩⟩

end Window

/-! ### What the history holds -/

theorem toString_injective {m n : ℕ} (h : toString m = toString n) : m = n := by
  have htext : Nat.toDigits 10 m = Nat.toDigits 10 n := by
    rw [← Nat.toList_repr, ← Nat.toList_repr]
    exact congrArg String.toList h
  rw [← Nat.ofDigitChars_toDigits (b := 10) (n := m) (by decide) (by decide), htext,
    Nat.ofDigitChars_toDigits (by decide) (by decide)]

section History

variable {history : RetryHistory} {number other : ℕ} {now : ℤ}

theorem lookup_filter_of_ne {key key' : String} (h : key' ≠ key) :
    (history.filter fun entry => entry.1 ≠ key).lookup key' = history.lookup key' := by
  induction history with
  | nil => rfl
  | cons entry history ih =>
    rw [List.filter_cons]
    by_cases hkey : entry.1 = key
    · have hne : (key' == entry.1) = false := by simpa [hkey] using h
      rw [if_neg (by simpa using hkey), ih, List.lookup_cons, hne]
    · rw [if_pos (by simpa using hkey), List.lookup_cons, List.lookup_cons, ih]

theorem lookup_filter_self {key : String} :
    (history.filter fun entry => entry.1 ≠ key).lookup key = none := by
  rw [List.lookup_eq_none_iff]
  intro entry hentry
  have hkey : entry.1 ≠ key := of_decide_eq_true (List.mem_filter.mp hentry).2
  exact bne_iff_ne.mpr hkey.symm

theorem reportRetryState_clearFailure_self :
    reportRetryState (clearFailure history number) number = [] := by
  rw [reportRetryState, clearFailure, lookup_filter_self]
  rfl

theorem reportRetryState_clearFailure_of_ne (h : other ≠ number) :
    reportRetryState (clearFailure history number) other = reportRetryState history other := by
  rw [reportRetryState, clearFailure, lookup_filter_of_ne fun heq => h (toString_injective heq),
    reportRetryState]

theorem reportRetryState_appendFailure_self :
    reportRetryState (appendFailure history number now).1 number =
      (reportRetryState history number).filter (fun instant => retryCutoff now ≤ instant) ++
        [now] := by
  rw [reportRetryState, appendFailure, List.lookup_append, lookup_filter_self, Option.none_or,
    List.lookup_cons, beq_self_eq_true]
  rfl

theorem reportRetryState_appendFailure_of_ne (h : other ≠ number) :
    reportRetryState (appendFailure history number now).1 other =
      reportRetryState history other := by
  have hkey : toString other ≠ toString number := fun heq => h (toString_injective heq)
  have hbeq : (toString other == toString number) = false := by simpa using hkey
  rw [reportRetryState, appendFailure, List.lookup_append, lookup_filter_of_ne hkey,
    List.lookup_cons, hbeq, List.lookup_nil, Option.or_none, reportRetryState]

def persistedHistory (history : RetryHistory) : List (String × List (Option ℤ)) :=
  history.map fun entry => (entry.1, entry.2.map some)

def pruneEntry (now : ℤ) (entry : String × List ℤ) : String × List ℤ :=
  (entry.1, entry.2.filter fun instant => retryCutoff now ≤ instant)

theorem pruneRetryHistory_persisted :
    pruneRetryHistory (persistedHistory history) now =
      (history.map (pruneEntry now)).filter fun entry => entry.2.length > 0 := by
  rw [pruneRetryHistory, persistedHistory, List.map_map]
  congr 2
  funext entry
  have hread : (entry.2.map some).filterMap id = entry.2 := by
    rw [List.filterMap_map]
    exact List.filterMap_some
  exact congrArg (fun failures : List ℤ =>
    (entry.1, failures.filter fun instant => retryCutoff now ≤ instant)) hread

theorem reportRetryState_prune (hnodup : (history.map Prod.fst).Nodup) :
    reportRetryState (pruneRetryHistory (persistedHistory history) now) number =
      (reportRetryState history number).filter fun instant => retryCutoff now ≤ instant := by
  rw [pruneRetryHistory_persisted]
  unfold reportRetryState
  generalize toString number = key
  induction history with
  | nil => rfl
  | cons entry history ih =>
    obtain ⟨key', failures⟩ := entry
    obtain ⟨hfresh, hnodup⟩ := List.nodup_cons.mp hnodup
    rw [List.map_cons, List.filter_cons]
    by_cases hkey : key = key'
    · subst hkey
      have hrest : ((history.map (pruneEntry now)).filter fun e => e.2.length > 0).lookup key =
          none := by
        rw [List.lookup_eq_none_iff]
        intro e he
        obtain ⟨e', he', rfl⟩ := List.mem_map.mp (List.mem_of_mem_filter he)
        refine bne_iff_ne.mpr fun heq => hfresh ?_
        exact List.mem_map.mpr ⟨e', he', heq.symm⟩
      rw [List.lookup_cons_self]
      split
      · exact congrArg (Option.getD · []) List.lookup_cons_self
      · next hempty =>
        rw [hrest]
        simpa [pruneEntry] using hempty
    · have hbeq : (key == key') = false := beq_false_of_ne hkey
      rw [List.lookup_cons, hbeq]
      split
      · change (((key', _) :: _ : RetryHistory).lookup key).getD [] = _
        rw [List.lookup_cons, hbeq]
        exact ih hnodup
      · exact ih hnodup

/-! The keys stay apart. -/

theorem nodup_pruneRetryHistory (hnodup : (history.map Prod.fst).Nodup) :
    ((pruneRetryHistory (persistedHistory history) now).map Prod.fst).Nodup := by
  rw [pruneRetryHistory_persisted]
  refine List.Nodup.sublist (List.filter_sublist.map Prod.fst) ?_
  rwa [List.map_map]

theorem nodup_clearFailure (hnodup : (history.map Prod.fst).Nodup) :
    ((clearFailure history number).map Prod.fst).Nodup :=
  hnodup.sublist (List.filter_sublist.map Prod.fst)

theorem nodup_appendFailure (hnodup : (history.map Prod.fst).Nodup) :
    ((appendFailure history number now).1.map Prod.fst).Nodup := by
  rw [appendFailure, List.map_append]
  refine (nodup_clearFailure hnodup).append (List.nodup_singleton _) ?_
  rw [List.map_singleton, List.disjoint_singleton]
  intro hmem
  obtain ⟨entry, hentry, hkey⟩ := List.mem_map.mp hmem
  exact of_decide_eq_true (List.mem_filter.mp hentry).2 hkey

end History

/-! ### The invariant -/

/-- The history holds the failures in the window, under keys that are apart. -/
structure Tracks (history : RetryHistory) (submissions : List Submission) (now : ℤ) : Prop where
  keys : (history.map Prod.fst).Nodup
  failures : ∀ n, reportRetryState history n = failuresInWindow submissions n now

namespace Tracks

variable {history : RetryHistory} {submissions : List Submission} {number : ℕ} {now later : ℤ}

theorem empty (now : ℤ) : Tracks [] [] now := ⟨List.nodup_nil, fun _ => rfl⟩

theorem prune (h : Tracks history submissions now) (hle : now ≤ later) :
    Tracks (pruneRetryHistory (persistedHistory history) later) submissions later := by
  refine ⟨nodup_pruneRetryHistory h.keys, fun n => ?_⟩
  rw [reportRetryState_prune h.keys, h.failures, filter_failuresInWindow hle]

theorem success (h : Tracks history submissions now) (number : ℕ) :
    Tracks (clearFailure history number) (submissions ++ [⟨number, now, true⟩]) now := by
  refine ⟨nodup_clearFailure h.keys, fun n => ?_⟩
  by_cases hn : n = number
  · subst hn
    rw [reportRetryState_clearFailure_self, failuresInWindow_success]
  · rw [reportRetryState_clearFailure_of_ne hn, h.failures]
    exact (failuresInWindow_concat_of_ne (Ne.symm hn)).symm

theorem failure (h : Tracks history submissions now) (number : ℕ) :
    Tracks (appendFailure history number now).1 (submissions ++ [⟨number, now, false⟩]) now := by
  refine ⟨nodup_appendFailure h.keys, fun n => ?_⟩
  by_cases hn : n = number
  · subst hn
    rw [reportRetryState_appendFailure_self, h.failures, filter_failuresInWindow le_rfl,
      failuresInWindow_failure]
  · rw [reportRetryState_appendFailure_of_ne hn, h.failures]
    exact (failuresInWindow_concat_of_ne (Ne.symm hn)).symm

theorem length_failure (h : Tracks history submissions now) (number : ℕ) :
    (appendFailure history number now).2 =
      (failuresInWindow (submissions ++ [⟨number, now, false⟩]) number now).length := by
  rw [← (h.failure number).failures, reportRetryState_appendFailure_self]
  rfl

end Tracks

/-! ### The loop -/

def QueueAction.submission (now : ℤ) (a : QueueAction) : Submission :=
  ⟨a.number, now, a.status = "enqueued"⟩

def ApplyState.submissions (s : ApplyState) (now : ℤ) : List Submission :=
  s.actions.map (·.submission now)

def quarantineCommand (number : ℕ) : QueueCommand := .addLabel number "queue-quarantine"

/-- One of the submissions fails and is, with those before it, at least the second failure of
its pull request in the window. -/
def Repeated (before submissions : List Submission) (number : ℕ) (now : ℤ) : Prop :=
  ∃ earlier later, submissions = earlier ++ ⟨number, now, false⟩ :: later ∧
    2 ≤ (failuresInWindow (before ++ (earlier ++ [⟨number, now, false⟩])) number now).length

section Loop

variable {env : QueueEnv} {now : ℤ} {before submissions : List Submission} {s : ApplyState}
  {c : Candidate} {number : ℕ}

theorem not_repeated_nil : ¬ Repeated before [] number now := by
  rintro ⟨earlier, later, hsplit, -⟩
  simp at hsplit

theorem repeated_concat {x : Submission} :
    Repeated before (submissions ++ [x]) number now ↔
      Repeated before submissions number now ∨
        x = ⟨number, now, false⟩ ∧
          2 ≤ (failuresInWindow (before ++ (submissions ++ [x])) x.number now).length := by
  constructor
  · rintro ⟨earlier, later, hsplit, hcount⟩
    rcases List.eq_nil_or_concat later with rfl | ⟨later, y, rfl⟩
    · obtain ⟨rfl, hx⟩ := List.append_inj' hsplit rfl
      obtain rfl := List.singleton_injective hx
      exact .inr ⟨rfl, hcount⟩
    · rw [List.concat_eq_append, ← List.cons_append, ← List.append_assoc] at hsplit
      obtain ⟨rfl, -⟩ := List.append_inj' hsplit rfl
      exact .inl ⟨earlier, later, rfl, hcount⟩
  · rintro (⟨earlier, later, rfl, hcount⟩ | ⟨rfl, hcount⟩)
    · exact ⟨earlier, later ++ [x], by simp, hcount⟩
    · exact ⟨submissions, [], rfl, hcount⟩

theorem addLabel_mem_mergeCandidate {commands : List QueueCommand} {label : String} :
    .addLabel number label ∈ (mergeCandidate env commands c).commands ↔
      .addLabel number label ∈ commands := by
  unfold mergeCandidate
  dsimp only
  split
  · split <;> simp
  · simp

/-- What the loop keeps: the history tracks all submissions, and the commands quarantine what
has failed again. -/
structure LoopTracks (before : List Submission) (now : ℤ) (s : ApplyState) : Prop where
  history : Tracks s.retryHistory (before ++ s.submissions now) now
  quarantine : ∀ n, quarantineCommand n ∈ s.commands ↔ Repeated before (s.submissions now) n now

theorem submissions_concat {actions : List QueueAction} {a : QueueAction} :
    (actions ++ [a]).map (·.submission now) =
      actions.map (·.submission now) ++ [a.submission now] := by
  rw [List.map_append, List.map_singleton]

theorem quarantineCommand_eq_addLabel (now : ℤ) {count : ℕ} :
    quarantineCommand number = .addLabel c.number
        (if count ≥ 2 then "queue-quarantine" else "queue-blocked") ↔
      (⟨c.number, now, false⟩ : Submission) = ⟨number, now, false⟩ ∧ 2 ≤ count := by
  unfold quarantineCommand
  split
  · next hcount => simp [hcount, eq_comm]
  · next hcount => simp [hcount]

theorem LoopTracks.step (h : LoopTracks before now s) :
    LoopTracks before now (processCandidate env now s c) := by
  unfold processCandidate
  dsimp only
  split
  · refine ⟨?_, fun n => ?_⟩
    · rw [ApplyState.submissions, submissions_concat, ← List.append_assoc]
      exact h.history.success c.number
    · rw [ApplyState.submissions, submissions_concat, repeated_concat]
      rw [← ApplyState.submissions, ← h.quarantine]
      simp [quarantineCommand, addLabel_mem_mergeCandidate, QueueAction.submission]
  · refine ⟨?_, fun n => ?_⟩
    · rw [ApplyState.submissions, submissions_concat, ← List.append_assoc]
      exact h.history.failure c.number
    · rw [ApplyState.submissions, submissions_concat, repeated_concat]
      rw [← ApplyState.submissions, ← h.quarantine, List.mem_append, List.mem_singleton,
        quarantineCommand_eq_addLabel now, h.history.length_failure, List.append_assoc]
      exact or_congr addLabel_mem_mergeCandidate Iff.rfl

theorem LoopTracks.foldl (h : LoopTracks before now s) (cs : List Candidate) :
    LoopTracks before now (cs.foldl (processCandidate env now) s) := by
  induction cs generalizing s with
  | nil => exact h
  | cons c cs ih => exact ih h.step

end Loop

/-! ### The runs -/

/-- What is on disk between two cycles, with the submissions that led there. -/
structure RetryState where
  retryHistory : RetryHistory
  submissions : List Submission

def RetryState.initial : RetryState := ⟨[], []⟩

def RetryState.input (s : RetryState) (i : SupervisorInput) : SupervisorInput :=
  { i with previousRetryHistory := persistedHistory s.retryHistory }

structure RetryCycle where
  env : QueueEnv
  input : SupervisorInput

def retryStep (s : RetryState) (e : RetryCycle) : Option RetryState :=
  match runQueueSupervisor e.env (s.input e.input) with
  | .ok r => some ⟨r.applied.retryHistory, s.submissions ++ r.applied.submissions e.input.now⟩
  | .error _ => none

/-- What the history and the labels of a cycle's report say of the submissions up to it. -/
structure RetryLaw (s : RetryState) (e : RetryCycle) (r : SupervisorReport) : Prop where
  /-- The history holds the failures in the window that are later than the last success. -/
  history : ∀ n, reportRetryState r.applied.retryHistory n =
    failuresInWindow (s.submissions ++ r.applied.submissions e.input.now) n e.input.now
  /-- What has failed in the cycle as at least the second time in the window, and nothing
  else, is sent to quarantine. -/
  quarantine : ∀ n, quarantineCommand n ∈ r.applied.commands ↔
    Repeated s.submissions (r.applied.submissions e.input.now) n e.input.now

theorem exists_supervisorReport {env : QueueEnv} {i : SupervisorInput} {r : SupervisorReport}
    (hr : runQueueSupervisor env i = .ok r) : ∃ adaptive, r = supervisorReport env i adaptive := by
  unfold runQueueSupervisor at hr
  dsimp only at hr
  generalize evaluateAdaptiveInflight _ _ _ _ _ _ _ = result at hr
  cases result with
  | error _ => exact nomatch hr
  | ok adaptive => exact ⟨adaptive, (Except.ok.inj hr).symm⟩

theorem exists_report (env : QueueEnv) {i : SupervisorInput} (h : i.minInflight ≤ i.maxInflight) :
    ∃ r, runQueueSupervisor env i = .ok r := by
  obtain ⟨adaptive, hadaptive, -⟩ := evaluateAdaptiveInflight_le h i.adaptiveCap
    i.cycle.successRate i.cycle.runtimeFleet i.cycle.retryPressure i.previousControllerState
  unfold runQueueSupervisor
  dsimp only
  rw [hadaptive]
  exact ⟨_, rfl⟩

section Report

variable {env : QueueEnv} {i : SupervisorInput} {before : List Submission}
  {r : SupervisorReport} {now : ℤ} {history : RetryHistory}

theorem loopTracks_report (h : Tracks history before now) (hle : now ≤ i.now)
    (hhistory : i.previousRetryHistory = persistedHistory history)
    (hr : runQueueSupervisor env i = .ok r) : LoopTracks before i.now r.applied := by
  have hinitial : LoopTracks before i.now ⟨[], i.retryHistory, [], 0, 0⟩ := by
    refine ⟨?_, fun n => iff_of_false List.not_mem_nil not_repeated_nil⟩
    have hprune := h.prune hle
    rw [← hhistory] at hprune
    change Tracks i.retryHistory (before ++ []) i.now
    rw [List.append_nil]
    exact hprune
  obtain ⟨adaptive, rfl⟩ := exists_supervisorReport hr
  unfold supervisorReport
  dsimp only
  split
  · exact hinitial
  · exact hinitial.foldl _

end Report

/-- The times of the cycles do not decrease. -/
def CyclesInTime (cycles : List RetryCycle) : Prop :=
  cycles.Pairwise fun c d => c.input.now ≤ d.input.now

theorem retryStep_of_ok {s : RetryState} {e : RetryCycle} {r : SupervisorReport}
    (h : runQueueSupervisor e.env (s.input e.input) = .ok r) :
    retryStep s e =
      some ⟨r.applied.retryHistory, s.submissions ++ r.applied.submissions e.input.now⟩ := by
  rw [retryStep, h]

theorem retryStep_eq_some {s t : RetryState} {e : RetryCycle} (h : retryStep s e = some t) :
    ∃ r, runQueueSupervisor e.env (s.input e.input) = .ok r ∧
      t = ⟨r.applied.retryHistory, s.submissions ++ r.applied.submissions e.input.now⟩ := by
  unfold retryStep at h
  split at h
  · next r hr => exact ⟨r, hr, (Option.some.inj h).symm⟩
  · exact nomatch h

/-- Before each cycle of a run the history tracks the submissions, at an instant that is not
after the cycle. -/
theorem tracks_run {cycles : List RetryCycle} {s : RetryState} {now : ℤ}
    (hrun : run retryStep .initial cycles = some s) (htime : CyclesInTime cycles)
    (hnow : ∀ e ∈ cycles, e.input.now ≤ now) :
    ∃ past ≤ now, Tracks s.retryHistory s.submissions past := by
  induction cycles using List.reverseRecOn generalizing s now with
  | nil =>
    obtain rfl := Option.some.inj hrun
    exact ⟨now, le_rfl, Tracks.empty now⟩
  | append_singleton cycles e ih =>
    obtain ⟨t, ht, hstep⟩ := run_append_eq_some.mp hrun
    rw [run_singleton] at hstep
    obtain ⟨htime, -, hlast⟩ := List.pairwise_append.mp htime
    obtain ⟨past, hpast, htracks⟩ := ih ht htime fun d hd => hlast d hd e List.mem_cons_self
    obtain ⟨r, hr, rfl⟩ := retryStep_eq_some hstep
    have hloop := loopTracks_report (i := t.input e.input) htracks hpast rfl hr
    exact ⟨e.input.now, hnow e (by simp), hloop.history⟩

def rejectingEnv : QueueEnv where
  run := fun _ command => ⟨if command.submits.isSome then 1 else 0, ""⟩
  mergeSummary := fun _ _ => none

def rejectedCycle (now : ℤ) : RetryCycle := ⟨rejectingEnv, { burstCycle with now := now }⟩

end CompareVI.Queue
