import CompareVI.Queue.Supervisor

/-!
# The burst over a run of cycles

`evaluateBurstWindow` reads two numbers of the record that the cycle before has written: the
refill cycles that are left and the instant until which the burst backs off. The record that
it returns is `burstWindow`, of which `evaluateBurstWindow` in the cycle of the supervisor is
a part (`evaluateBurstWindow_eq`). `carried` is what a run of cycles hands to the next one.

Two statements follow the record over a run.

* The backoff deadline that is carried is half an hour past the last stabilized cycle
  (`carried_backoffUntil`). From a stabilized cycle on no burst is active before its deadline,
  and the deadline only moves forward (`backoffLaw`).
* The refill count is set by a trigger and taken down by one *before* a cycle without trigger
  tests it. So the `k`-th cycle after a trigger is active when `k` is below the configured
  count, and not when it is equal to it (`active_followUp`, `refillLaw_iff`).
-/

namespace CompareVI.Queue

/-! ### The record -/

def BURST_BACKOFF_MINUTES : ℤ := 30

def burstBackoff : ℤ := BURST_BACKOFF_MINUTES * 60 * 1000

/-- What a cycle passes to `evaluateBurstWindow` beside the record of the cycle before. A head
ref comes beside its pull request; `releaseWindow` is `isReleaseWindow(now)`. -/
structure BurstCycle where
  burstMode : BurstMode
  burstRefillCycles : ℕ
  releaseWindow : Bool
  pullRequests : List (PullRequest × String)
  controllerMode : ControllerMode
  now : ℤ

namespace BurstCycle

def stabilized (c : BurstCycle) : Bool := c.controllerMode = .stabilize

def triggerSignals (c : BurstCycle) : BurstTriggers := burstTriggers c.releaseWindow c.pullRequests

def triggerReasons (c : BurstCycle) : List String :=
  (if c.triggerSignals.releaseWindow then ["release-window"] else []) ++
    (if c.triggerSignals.releaseBranchPullRequest then ["open-release-branch-pr"] else []) ++
    (if c.triggerSignals.releaseBurstLabel then ["release-burst-label"] else [])

def triggerActive (c : BurstCycle) : Bool := c.triggerReasons.length > 0

def deadline (c : BurstCycle) : ℤ := c.now + burstBackoff

end BurstCycle

/-- The record that `evaluateBurstWindow` returns. -/
structure BurstRecord where
  mode : BurstMode
  active : Bool
  configuredRefillCycles : ℕ
  refillCyclesRemaining : ℚ
  backoffMinutes : ℤ
  backoffUntil : Option ℤ
  backoffActive : Bool
  triggerSignals : BurstTriggers
  triggerReasons : List String
  reasons : List String
  stabilized : Bool

def BurstRecord.persisted (r : BurstRecord) : PreviousBurst :=
  ⟨r.backoffUntil, r.refillCyclesRemaining⟩

/-- `evaluateBurstWindow` with the whole record. -/
def burstWindow (c : BurstCycle) (previous : Option PreviousBurst) : BurstRecord :=
  let previousBackoffUntil := previous.bind (·.backoffUntil)
  let backoffUntil := if c.stabilized then some c.deadline else previousBackoffUntil
  let backoffActive := c.stabilized || previousBackoffUntil.any fun until_ => until_ > c.now
  let previousRefillCycles := max 0 ((previous.map (·.refillCyclesRemaining)).getD 0)
  let refillCyclesRemaining : ℚ :=
    match c.burstMode with
    | .auto =>
      if c.triggerActive then c.burstRefillCycles
      else if previousRefillCycles > 0 then previousRefillCycles - 1
      else 0
    | .on => c.burstRefillCycles
    | .off => 0
  let outcome : Bool × List String :=
    if c.burstMode = .off then (false, ["burst-mode-off"])
    else if backoffActive then (false, ["stabilize-backoff"])
    else if c.burstMode = .on then (true, ["burst-mode-on"])
    else if c.triggerActive then (true, c.triggerReasons)
    else if refillCyclesRemaining > 0 then (true, ["refill-cycles"])
    else (false, ["no-burst-trigger"])
  { mode := c.burstMode
    active := outcome.1
    configuredRefillCycles := c.burstRefillCycles
    refillCyclesRemaining := refillCyclesRemaining
    backoffMinutes := BURST_BACKOFF_MINUTES
    backoffUntil := backoffUntil
    backoffActive := backoffActive
    triggerSignals := c.triggerSignals
    triggerReasons := c.triggerReasons
    reasons := outcome.2.eraseDups
    stabilized := c.stabilized }

def carried (previous : Option PreviousBurst) (cycles : List BurstCycle) :
    Option PreviousBurst :=
  cycles.foldl (fun p c => some (burstWindow c p).persisted) previous

theorem carried_concat (previous : Option PreviousBurst) (cycles : List BurstCycle)
    (c : BurstCycle) :
    carried previous (cycles ++ [c]) =
      some (burstWindow c (carried previous cycles)).persisted := by
  rw [carried, List.foldl_append]
  rfl

theorem BurstCycle.triggerActive_eq (c : BurstCycle) :
    c.triggerActive = (c.triggerSignals.releaseWindow ||
      c.triggerSignals.releaseBranchPullRequest || c.triggerSignals.releaseBurstLabel) := by
  unfold BurstCycle.triggerActive BurstCycle.triggerReasons
  cases c.triggerSignals.releaseWindow <;>
    cases c.triggerSignals.releaseBranchPullRequest <;>
    cases c.triggerSignals.releaseBurstLabel <;> rfl

theorem evaluateBurstWindow_eq (c : BurstCycle) (previous : Option PreviousBurst) :
    evaluateBurstWindow c.burstMode c.burstRefillCycles c.triggerSignals previous c.now
      c.controllerMode =
      (⟨(burstWindow c previous).mode.text, (burstWindow c previous).active⟩,
        (burstWindow c previous).refillCyclesRemaining) := by
  unfold evaluateBurstWindow burstWindow
  rw [← BurstCycle.triggerActive_eq]
  dsimp only [BurstCycle.stabilized]
  generalize (decide (c.controllerMode = .stabilize) ||
    (previous.bind (·.backoffUntil)).any fun until_ => until_ > c.now) = backoffActive
  cases c.burstMode with
  | auto =>
    generalize (if c.triggerActive = true then (c.burstRefillCycles : ℚ) else _) = remaining
    by_cases hremaining : remaining > 0 <;> cases backoffActive <;> cases c.triggerActive <;>
      simp [hremaining]
  | on => cases backoffActive <;> simp
  | off => simp

/-! ### The backoff -/

/-- The deadline of the last stabilized cycle of the run, and what the run began with if there
is none. -/
def backoffDeadline (previous : Option PreviousBurst) (cycles : List BurstCycle) : Option ℤ :=
  match (cycles.filter (·.stabilized)).getLast? with
  | some c => some c.deadline
  | none => previous.bind (·.backoffUntil)

/-- The cycle is stabilized or the backoff of an earlier one has not ended. -/
def InBackoff (previous : Option PreviousBurst) (before : List BurstCycle) (c : BurstCycle) :
    Prop :=
  c.stabilized = true ∨ ∃ until_, backoffDeadline previous before = some until_ ∧ c.now < until_

section Backoff

variable {previous : Option PreviousBurst} {cycles : List BurstCycle} {c : BurstCycle}

theorem backoffDeadline_concat :
    backoffDeadline previous (cycles ++ [c]) =
      if c.stabilized then some c.deadline else backoffDeadline previous cycles := by
  unfold backoffDeadline
  rw [List.filter_append]
  cases h : c.stabilized <;> simp [h]

theorem carried_backoffUntil :
    (carried previous cycles).bind (·.backoffUntil) = backoffDeadline previous cycles := by
  induction cycles using List.reverseRecOn with
  | nil => rfl
  | append_singleton cycles c ih =>
    rw [carried_concat, backoffDeadline_concat, ← ih]
    rfl

theorem burstWindow_backoffUntil :
    (burstWindow c (carried previous cycles)).backoffUntil =
      backoffDeadline previous (cycles ++ [c]) := by
  rw [backoffDeadline_concat, ← carried_backoffUntil]
  rfl

theorem burstWindow_backoffActive :
    (burstWindow c (carried previous cycles)).backoffActive = true ↔
      InBackoff previous cycles c := by
  change (c.stabilized || ((carried previous cycles).bind (·.backoffUntil)).any _) = true ↔ _
  rw [carried_backoffUntil, Bool.or_eq_true, Option.any_eq_true, InBackoff]
  simp only [decide_eq_true_eq, gt_iff_lt]

theorem active_of_inBackoff (h : InBackoff previous cycles c) :
    (burstWindow c (carried previous cycles)).active = false := by
  have hactive := burstWindow_backoffActive.mpr h
  unfold burstWindow at hactive ⊢
  dsimp only at hactive ⊢
  rw [hactive]
  cases c.burstMode <;> rfl

theorem le_backoffDeadline {before after : List BurstCycle} (hc : c.stabilized = true)
    (hle : ∀ d ∈ after, c.now ≤ d.now) :
    ∃ until_, backoffDeadline previous (before ++ c :: after) = some until_ ∧
      c.deadline ≤ until_ := by
  induction after using List.reverseRecOn with
  | nil => exact ⟨c.deadline, by rw [backoffDeadline_concat, if_pos hc], le_rfl⟩
  | append_singleton after d ih =>
    rw [← List.cons_append, ← List.append_assoc, backoffDeadline_concat]
    split
    · refine ⟨d.deadline, rfl, ?_⟩
      have hd : c.now ≤ d.now := hle d (by simp)
      exact Int.add_le_add_right hd burstBackoff
    · exact ih fun e he => hle e (List.mem_append_left _ he)

theorem exists_of_backoffDeadline {until_ : ℤ} (h : backoffDeadline none cycles = some until_) :
    ∃ e ∈ cycles, e.stabilized = true ∧ e.deadline = until_ := by
  unfold backoffDeadline at h
  split at h
  · next e he =>
    obtain ⟨hmem, hstabilized⟩ := List.mem_filter.mp (List.mem_of_getLast? he)
    exact ⟨e, hmem, hstabilized, Option.some.inj h⟩
  · exact nomatch h

theorem not_inBackoff (h : ∀ d ∈ cycles ++ [c], d.stabilized = false) :
    ¬ InBackoff none cycles c := by
  rintro (hc | ⟨until_, huntil, -⟩)
  · rw [h c (by simp)] at hc
    exact nomatch hc
  · obtain ⟨e, he, hstabilized, -⟩ := exists_of_backoffDeadline huntil
    rw [h e (List.mem_append_left _ he)] at hstabilized
    exact nomatch hstabilized

end Backoff

/-- The times of the cycles do not decrease. -/
def InTime (cycles : List BurstCycle) : Prop := cycles.Pairwise fun c d => c.now ≤ d.now

/-- No cycle at a time within half an hour from a stabilized one has an active burst. -/
def QuietAround (cycles : List BurstCycle) : Prop :=
  ∀ before c after before' d after', cycles = before ++ c :: after →
    cycles = before' ++ d :: after' → c.stabilized = true → c.now ≤ d.now →
    d.now < c.now + burstBackoff → (burstWindow d (carried none before')).active = false

/-- What the backoff promises from a stabilized cycle on. -/
structure BackoffLaw (cycles : List BurstCycle) : Prop where
  stabilized : ∀ before c after, cycles = before ++ c :: after → c.stabilized = true →
    (burstWindow c (carried none before)).active = false
  /-- No cycle after it has one within half an hour. -/
  quiet : ∀ before c between d after, cycles = before ++ c :: (between ++ d :: after) →
    c.stabilized = true → d.now < c.now + burstBackoff →
    (burstWindow d (carried none (before ++ c :: between))).active = false
  /-- The deadline that a cycle passes on is not before the one it has read. -/
  kept : ∀ before c after until_, cycles = before ++ c :: after →
    (carried none before).bind (·.backoffUntil) = some until_ →
    ∃ later, (burstWindow c (carried none before)).backoffUntil = some later ∧ until_ ≤ later

/-- **The backoff of the burst.** A run of cycles at times that do not decrease keeps to the
law, with any mode, count and trigger in each of them. -/
theorem backoffLaw (cycles : List BurstCycle) (h : InTime cycles) : BackoffLaw cycles := by
  refine ⟨fun before c after hcycles hc => active_of_inBackoff (.inl hc), ?_, ?_⟩
  · intro before c between d after hcycles hc hd
    subst hcycles
    have hle : ∀ e ∈ between, c.now ≤ e.now := by
      intro e he
      have hafter := (List.pairwise_cons.mp (List.pairwise_append.mp h).2.1).1
      exact hafter e (List.mem_append_left _ he)
    obtain ⟨until_, huntil, hlater⟩ :=
      @le_backoffDeadline none c before between hc hle
    exact active_of_inBackoff (.inr ⟨until_, huntil, hd.trans_le hlater⟩)
  · intro before c after until_ hcycles huntil
    subst hcycles
    rw [carried_backoffUntil] at huntil
    rw [burstWindow_backoffUntil, backoffDeadline_concat]
    split
    · obtain ⟨e, he, -, rfl⟩ := exists_of_backoffDeadline huntil
      have hle : e.now ≤ c.now := (List.pairwise_append.mp h).2.2 e he c List.mem_cons_self
      exact ⟨c.deadline, rfl, Int.add_le_add_right hle burstBackoff⟩
    · exact ⟨until_, huntil, le_rfl⟩

/-- A cycle in mode `on` or `auto`, without pull requests and outside the release window. -/
def quietCycle (mode : BurstMode) (refillCycles : ℕ) (controllerMode : ControllerMode) (now : ℤ) :
    BurstCycle where
  burstMode := mode
  burstRefillCycles := refillCycles
  releaseWindow := false
  pullRequests := []
  controllerMode := controllerMode
  now := now

def simultaneousCycles : List BurstCycle :=
  [quietCycle .on 3 .healthy 0, quietCycle .on 3 .stabilize 0]

/-- The cycle before the stabilized one has an active burst, at the same instant. -/
theorem not_quietAround_simultaneousCycles :
    InTime simultaneousCycles ∧ ¬ QuietAround simultaneousCycles := by
  refine ⟨List.pairwise_pair.mpr le_rfl, fun h => ?_⟩
  have hactive := h [quietCycle .on 3 .healthy 0] (quietCycle .on 3 .stabilize 0) []
    [] (quietCycle .on 3 .healthy 0) [quietCycle .on 3 .stabilize 0] rfl rfl rfl le_rfl
    (by decide)
  exact absurd hactive (by decide)

/-- The two cycles keep to the law from the stabilized one on. -/
theorem backoffLaw_simultaneousCycles : BackoffLaw simultaneousCycles :=
  backoffLaw simultaneousCycles (List.pairwise_pair.mpr le_rfl)

/-! ### The refill cycles -/

/-- The cycle `c` comes after the trigger and the cycles `between`, no cycle since the trigger
has one of its own, and none is stabilized or in a backoff. -/
structure FollowUp (previous : Option PreviousBurst) (before : List BurstCycle)
    (trigger : BurstCycle) (between : List BurstCycle) (c : BurstCycle) : Prop where
  triggered : trigger.triggerActive = true
  calm : ∀ d ∈ between ++ [c], d.triggerActive = false
  clear : ∀ earlier d later, between ++ [c] = earlier ++ d :: later →
    ¬ InBackoff previous (before ++ trigger :: earlier) d

/-- All cycles run in `auto` mode with the same count. -/
def AutoRun (refillCycles : ℕ) (cycles : List BurstCycle) : Prop :=
  ∀ c ∈ cycles, c.burstMode = .auto ∧ c.burstRefillCycles = refillCycles

/-- The burst is active in the first `refillCycles` cycles that follow a trigger, and in no
later one. -/
def RefillLaw (refillCycles : ℕ) (previous : Option PreviousBurst) (cycles : List BurstCycle) :
    Prop :=
  ∀ before trigger between c after,
    cycles = before ++ trigger :: (between ++ c :: after) →
    FollowUp previous before trigger between c →
    ((burstWindow c (carried previous (before ++ trigger :: between))).active = true ↔
      between.length + 1 ≤ refillCycles)

/-- No cycle of the run is the last one that the count names: the one that follows a trigger
as number `refillCycles`. -/
def NoLastRefill (refillCycles : ℕ) (previous : Option PreviousBurst)
    (cycles : List BurstCycle) : Prop :=
  ∀ before trigger between c after,
    cycles = before ++ trigger :: (between ++ c :: after) →
    FollowUp previous before trigger between c → between.length + 1 ≠ refillCycles

section Refill

variable {refillCycles : ℕ} {previous : Option PreviousBurst} {trigger c : BurstCycle}
  {before between : List BurstCycle}

def carriedRefill (previous : Option PreviousBurst) (cycles : List BurstCycle) : ℚ :=
  max 0 (((carried previous cycles).map (·.refillCyclesRemaining)).getD 0)

variable {p : Option PreviousBurst} {n : ℕ}

theorem carriedRefill_concat {cycles : List BurstCycle}
    (h : (burstWindow c (carried previous cycles)).refillCyclesRemaining = n) :
    carriedRefill previous (cycles ++ [c]) = n := by
  rw [carriedRefill, carried_concat]
  change max 0 (burstWindow c (carried previous cycles)).refillCyclesRemaining = n
  rw [h]
  exact max_eq_right n.cast_nonneg

theorem refillCyclesRemaining_of_trigger (hmode : c.burstMode = .auto)
    (htrigger : c.triggerActive = true) :
    (burstWindow c p).refillCyclesRemaining = c.burstRefillCycles := by
  unfold burstWindow
  rw [hmode, htrigger]
  rfl

theorem refillCyclesRemaining_of_calm {cycles : List BurstCycle} (hmode : c.burstMode = .auto)
    (hcalm : c.triggerActive = false) (h : carriedRefill previous cycles = n) :
    (burstWindow c (carried previous cycles)).refillCyclesRemaining = ((n - 1 : ℕ) : ℚ) := by
  unfold carriedRefill at h
  unfold burstWindow
  rw [hmode, hcalm, h]
  cases n with
  | zero => simp
  | succ n => simp [Nat.cast_add_one_pos]

theorem carriedRefill_between (hauto : AutoRun refillCycles (trigger :: between))
    (htrigger : trigger.triggerActive = true)
    (hcalm : ∀ d ∈ between, d.triggerActive = false) :
    carriedRefill previous (before ++ trigger :: between) =
      ((refillCycles - between.length : ℕ) : ℚ) := by
  induction between using List.reverseRecOn with
  | nil =>
    obtain ⟨hmode, hcount⟩ := hauto trigger List.mem_cons_self
    refine carriedRefill_concat ?_
    rw [refillCyclesRemaining_of_trigger hmode htrigger, hcount]
    rfl
  | append_singleton between d ih =>
    obtain ⟨hmode, -⟩ := hauto d (by simp)
    have hbefore := ih (fun e he => hauto e (List.mem_append_left [d] he))
      fun e he => hcalm e (List.mem_append_left _ he)
    rw [← List.cons_append, ← List.append_assoc]
    refine carriedRefill_concat ?_
    rw [refillCyclesRemaining_of_calm hmode (hcalm d (by simp)) hbefore, List.length_append,
      List.length_singleton, Nat.sub_sub]

theorem active_of_calm (hmode : c.burstMode = .auto) (hcalm : c.triggerActive = false)
    (hbackoff : (burstWindow c p).backoffActive = false) :
    (burstWindow c p).active = decide ((burstWindow c p).refillCyclesRemaining > 0) := by
  unfold burstWindow at hbackoff ⊢
  dsimp only at hbackoff ⊢
  rw [hbackoff, hmode, hcalm]
  simp only [reduceCtorEq, if_false, Bool.false_eq_true]
  generalize (if max 0 _ > (0 : ℚ) then _ else (0 : ℚ)) = remaining
  by_cases hremaining : remaining > 0 <;> simp [hremaining]

/-- **The boundary of the refill cycles.** The cycle that follows a trigger as number `k` is
active when `k` is below the count. -/
theorem active_followUp (hauto : AutoRun refillCycles (trigger :: (between ++ [c])))
    (h : FollowUp previous before trigger between c) :
    (burstWindow c (carried previous (before ++ trigger :: between))).active = true ↔
      between.length + 1 < refillCycles := by
  obtain ⟨hmode, -⟩ := hauto c (by simp)
  have hcalm : c.triggerActive = false := h.calm c (by simp)
  have hcount := @carriedRefill_between refillCycles previous trigger before between
    (fun d hd => hauto d (List.mem_append_left [c] hd)) h.triggered
    fun d hd => h.calm d (List.mem_append_left _ hd)
  have hbackoff : (burstWindow c (carried previous (before ++ trigger :: between))).backoffActive =
      false := by
    rw [← Bool.not_eq_true, burstWindow_backoffActive]
    exact h.clear between c [] rfl
  rw [active_of_calm hmode hcalm hbackoff, refillCyclesRemaining_of_calm hmode hcalm hcount,
    decide_eq_true_eq, gt_iff_lt, Nat.cast_pos, Nat.sub_sub, Nat.sub_pos_iff_lt]

end Refill

/-- **The refill cycles of the burst.** A run in `auto` mode keeps to the law exactly when no
cycle of it follows a trigger as the last one that the count names. -/
theorem refillLaw_iff (refillCycles : ℕ) (previous : Option PreviousBurst)
    (cycles : List BurstCycle) (hauto : AutoRun refillCycles cycles) :
    RefillLaw refillCycles previous cycles ↔ NoLastRefill refillCycles previous cycles := by
  refine forall_congr' fun before => forall_congr' fun trigger => forall_congr' fun between =>
    forall_congr' fun c => forall_congr' fun after => forall_congr' fun hcycles =>
    forall_congr' fun hfollows => ?_
  have hrun : AutoRun refillCycles (trigger :: (between ++ [c])) := by
    intro d hd
    refine hauto d ?_
    rw [hcycles]
    simp only [List.mem_append, List.mem_cons] at hd ⊢
    tauto
  rw [active_followUp hrun hfollows]
  omega

def labelledPullRequest : PullRequest :=
  { plainPullRequest 1 false "" with labels := [.str "release-burst"] }

def labelledThenCalm (refillCycles : ℕ) : List BurstCycle :=
  [{ quietCycle .auto refillCycles .healthy 0 with
      pullRequests := [(labelledPullRequest, "topic")] },
    quietCycle .auto refillCycles .healthy 60000]

theorem autoRun_labelledThenCalm (refillCycles : ℕ) :
    AutoRun refillCycles (labelledThenCalm refillCycles) := by
  intro c hc
  rcases List.mem_cons.mp hc with rfl | hc
  · exact ⟨rfl, rfl⟩
  · obtain rfl := List.mem_singleton.mp hc
    exact ⟨rfl, rfl⟩

/-- With a count of one, the one cycle after the trigger has no active burst. -/
theorem not_refillLaw_labelledThenCalm : ¬ RefillLaw 1 none (labelledThenCalm 1) := by
  intro h
  have hstable : ∀ c ∈ labelledThenCalm 1, c.stabilized = false := by decide
  have hactive := h [] _ [] (quietCycle .auto 1 .healthy 60000) [] rfl
    ⟨by decide +kernel, by decide +kernel, fun earlier d later hsplit => not_inBackoff ?_⟩
  · exact absurd (hactive.mpr le_rfl) (by decide +kernel)
  · intro e he
    refine hstable e ?_
    obtain ⟨rfl, rfl, rfl⟩ : earlier = [] ∧ d = _ ∧ later = [] := by
      simpa [List.append_eq_cons_iff, eq_comm] using hsplit
    exact he

/-- The equivalence at the run with a count of two. -/
theorem refillLaw_iff_labelledThenCalm :
    RefillLaw 2 none (labelledThenCalm 2) ↔ NoLastRefill 2 none (labelledThenCalm 2) :=
  refillLaw_iff 2 none (labelledThenCalm 2) (autoRun_labelledThenCalm 2)

end CompareVI.Queue
