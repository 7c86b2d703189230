import CompareVI.Delivery.Finalize

/-!
# Retrying the reconciliation

The reconciliation of a merged lane takes labels off the standing issue, closes it with a
comment, and goes on with the synchronisation; a failure anywhere makes it fail as a whole.
The turn then says that the standing issue remains open, and the reconciliation is to be run
again.

The issue tracker is a service here (`reconcileService`): every call may fail, and a command
that fails may have had its effect, or a part of it. `Retries` is a sequence of runs of which
all but the last failed. The law is that the issue is still open after a run that failed, and
that a sequence that succeeds leaves it closed, without standing labels and with exactly one
completion comment. It holds of a sequence exactly if no run fails once its closing command
has had an effect (`retryLaw_iff`).
-/

open Framework

namespace CompareVI.Delivery

open Standing

variable {names : LabelNames}

/-! ### The tracker -/

def stateOf (issue : Issue names) : String := if issue.isOpen then "OPEN" else "CLOSED"

/-- The tracker as the reconciliation sees it. A command that fails may have had a part of its
effect: some labels are off, or the comment is there and the issue still open. The
synchronisation, a program of its own, works on open issues. -/
def reconcileService (names : LabelNames) : Service (Tracker names) ReconcileAnswer :=
  fun tracker q => match q with
    | .prepare | .readMergeSummary | .readRouter | .readCache | .writeReceipt _ =>
      fun _ after => after = tracker
    | .viewIssue number => fun a after => after = tracker ∧ ∀ view, a = .ok view →
        ∃ issue, tracker.issue? number = some issue ∧ view = ⟨stateOf issue, issue.labels⟩
    | .removeLabels number labels => fun a after => match a with
        | .ok _ => after = tracker.removeLabels number labels
        | .error _ => ∃ gone, gone ⊆ labels ∧ after = tracker.removeLabels number gone
    | .closeIssue number comment => fun a after => match a with
        | .ok _ => after = tracker.close number comment
        | .error _ => after = tracker ∨ after = tracker.comment number comment ∨
            after = tracker.close number comment
    | .commentIssue number comment => fun a after => match a with
        | .ok _ => after = tracker.comment number comment
        | .error _ => after = tracker ∨ after = tracker.comment number comment
    | .syncStandingPriority => fun _ after => ∀ number issue,
        tracker.issue? number = some issue → issue.isOpen = false →
          after.issue? number = some issue

/-! ### Runs in sequence -/

structure ReconcileRun (names : LabelNames) where
  before : Tracker names
  calls : List (Call (Tracker names) ReconcileAnswer)
  after : Tracker names
  result : Except String ReconcileReceipt

/-- Runs one after the other, of which all but the last failed. -/
inductive Retries (o : ReconcileOptions) :
    Tracker names → List (ReconcileRun names) → Tracker names → Prop where
  | none (tracker : Tracker names) : Retries o tracker [] tracker
  | run {before middle after : Tracker names}
    {calls : List (Call (Tracker names) ReconcileAnswer)} {result : Except String ReconcileReceipt}
    {runs : List (ReconcileRun names)}
    (hrun : Executes (reconcileService names) before (runStandingReconciliation o) calls middle
      result)
    (hfails : runs ≠ [] → reconciliationFails result = true) (hrest : Retries o middle runs after) :
    Retries o before (⟨before, calls, middle, result⟩ :: runs) after

/-- The issue is there and open. -/
def IsOpen (tracker : Tracker names) (number : ℕ) : Prop :=
  ∃ issue, tracker.issue? number = some issue ∧ issue.isOpen = true

def commentsOf (tracker : Tracker names) (number : ℕ) : Option (List String) :=
  (tracker.issue? number).map Issue.comments

/-- The issue is closed and carries no standing label, and one completion comment was added. -/
structure Completed (o : ReconcileOptions) (before after : Issue names) : Prop where
  closed : after.isOpen = false
  unlabelled : ∀ label ∈ after.labels, labelKey label ∉ standingLabelNames
  commented : after.comments = before.comments ++ [buildCloseComment o.pr]

/-- The sequence ends with a run that succeeded. -/
def Succeeds (runs : List (ReconcileRun names)) : Prop :=
  ∃ run, runs.getLast? = some run ∧ reconciliationFails run.result = false

/-- The finalisation takes the issue for open after the run. -/
def SaysOpen (o : ReconcileOptions) (run : ReconcileRun names) : Prop :=
  (standingFinalization o.issue run.result).issueClosed = some false

/-- An issue of which the finalisation says that it is still open is open if it was before,
and a sequence that succeeds completes the issue. -/
structure RetryLaw (o : ReconcileOptions) (before : Tracker names)
    (runs : List (ReconcileRun names)) (after : Tracker names) : Prop where
  stillOpen : ∀ run ∈ runs, SaysOpen o run → IsOpen run.before o.issue → IsOpen run.after o.issue
  completed : Succeeds runs → ∃ issue issue', before.issue? o.issue = some issue ∧
    after.issue? o.issue = some issue' ∧ Completed o issue issue'

/-- A call of the run fails. -/
def ReconcileRun.Fails (run : ReconcileRun names) : Prop :=
  ∃ call ∈ run.calls, ∃ message, call.answer = .error message

/-- The command closes the issue. -/
def IsClose (q : ReconcileQuery) : Prop := ∃ number comment, q = .closeIssue number comment

/-- The command posts the completion comment. -/
def IsCompletion (q : ReconcileQuery) : Prop :=
  IsClose q ∨ ∃ number comment, q = .commentIssue number comment

/-- When the law holds: in a run in which a call fails, a closing command fails and leaves the
issue open; and in a sequence that succeeds, a completion command of such a run leaves no
comment either. -/
structure FailsEarly (o : ReconcileOptions) (runs : List (ReconcileRun names)) : Prop where
  closing : ∀ run ∈ runs, run.Fails → ∀ call ∈ run.calls, IsClose call.query →
    (∃ message, call.answer = .error message) ∧ IsOpen run.after o.issue
  commenting : Succeeds runs → ∀ run ∈ runs, run.Fails → ∀ call ∈ run.calls,
    IsCompletion call.query → (∃ message, call.answer = .error message) ∧
      commentsOf run.after o.issue = commentsOf run.before o.issue

/-! ### What the turn says -/

theorem reconcileFailure_isSome (x : Except String ReconcileReceipt) :
    (reconcileFailure x).isSome = reconciliationFails x := by
  cases x with
  | error message => rfl
  | ok receipt =>
    unfold reconcileFailure reconciliationFails
    dsimp only
    split
    · next h =>
      rw [decide_eq_true h]
      rfl
    · next h =>
      rw [decide_eq_false h]
      rfl

theorem saysOpen_iff {o : ReconcileOptions} {run : ReconcileRun names} :
    SaysOpen o run ↔ reconciliationFails run.result = true := by
  unfold SaysOpen standingFinalization
  rw [← reconcileFailure_isSome]
  cases reconcileFailure run.result with
  | none => exact iff_of_false (by simp) (by simp)
  | some message => exact iff_of_true rfl rfl

/-! ### One run -/

def Failed (e : Exchange ReconcileAnswer) : Prop := ∃ message, e.answer = .error message

/-- What a run may leave of an issue, whatever happens. The exchanges are those so far. -/
structure RunFacts (o : ReconcileOptions) (issue after : Issue names)
    (h : List (Exchange ReconcileAnswer)) : Prop where
  close_open : ∀ e ∈ h, IsClose e.query → issue.isOpen = true
  closed : issue.isOpen = true → after.isOpen = false → ∃ e ∈ h, IsClose e.query
  close_ok : ∀ e ∈ h, IsClose e.query → ¬ Failed e → after.isOpen = false
  comments : after.comments = issue.comments ∨
    after.comments = issue.comments ++ [buildCloseComment o.pr]
  completion_ok : ∀ e ∈ h, IsCompletion e.query → ¬ Failed e →
    after.comments ≠ issue.comments
  commented : after.comments ≠ issue.comments → ∃ e ∈ h, IsCompletion e.query

section Facts

variable {o : ReconcileOptions} {issue after : Issue names} {h : List (Exchange ReconcileAnswer)}
  {e : Exchange ReconcileAnswer}

theorem append_ne_self (comments : List String) (text : String) :
    comments ++ [text] ≠ comments := by
  intro heq
  have hlength := congrArg List.length heq
  rw [List.length_append, List.length_singleton] at hlength
  omega

theorem mem_snoc {a : Exchange ReconcileAnswer} : a ∈ h ++ [e] ↔ a ∈ h ∨ a = e := by
  rw [List.mem_append, List.mem_singleton]

theorem RunFacts.silent (hf : RunFacts o issue after h) (he : ¬ IsCompletion e.query) :
    RunFacts o issue after (h ++ [e]) where
  close_open a ha hclose := by
    rcases mem_snoc.mp ha with ha | rfl
    · exact hf.close_open a ha hclose
    · exact absurd (.inl hclose) he
  closed hopen hclosed := by
    obtain ⟨a, ha, hclose⟩ := hf.closed hopen hclosed
    exact ⟨a, List.mem_append_left _ ha, hclose⟩
  close_ok a ha hclose hok := by
    rcases mem_snoc.mp ha with ha | rfl
    · exact hf.close_ok a ha hclose hok
    · exact absurd (.inl hclose) he
  comments := hf.comments
  completion_ok a ha hcompletion hok := by
    rcases mem_snoc.mp ha with ha | rfl
    · exact hf.completion_ok a ha hcompletion hok
    · exact absurd hcompletion he
  commented hne := by
    obtain ⟨a, ha, hcompletion⟩ := hf.commented hne
    exact ⟨a, List.mem_append_left _ ha, hcompletion⟩

theorem RunFacts.untouched (hopen : after.isOpen = issue.isOpen)
    (hcomments : after.comments = issue.comments) (hh : ∀ e ∈ h, ¬ IsCompletion e.query) :
    RunFacts o issue after h where
  close_open e he hclose := absurd (.inl hclose) (hh e he)
  closed hyes hno := by
    rw [hopen, hyes] at hno
    exact Bool.noConfusion hno
  close_ok e he hclose _ := absurd (.inl hclose) (hh e he)
  comments := .inl hcomments
  completion_ok e he hcompletion _ := absurd hcompletion (hh e he)
  commented hne := absurd hcomments hne

variable {text : String} {number : ℕ}

theorem RunFacts.close (hissue : issue.isOpen = true) (hh : ∀ e ∈ h, ¬ IsCompletion e.query)
    (hquery : e.query = .closeIssue number text) (hcomments : after.comments = issue.comments ∨
      after.comments = issue.comments ++ [buildCloseComment o.pr])
    (hok : ¬ Failed e → after.isOpen = false ∧ after.comments ≠ issue.comments) :
    RunFacts o issue after (h ++ [e]) where
  close_open _ _ _ := hissue
  closed _ _ := ⟨e, List.mem_append_right _ (List.mem_singleton_self e), number, text, hquery⟩
  close_ok a ha hclose hnot := by
    rcases mem_snoc.mp ha with ha | rfl
    · exact absurd (.inl hclose) (hh a ha)
    · exact (hok hnot).1
  comments := hcomments
  completion_ok a ha hcompletion hnot := by
    rcases mem_snoc.mp ha with ha | rfl
    · exact absurd hcompletion (hh a ha)
    · exact (hok hnot).2
  commented _ :=
    ⟨e, List.mem_append_right _ (List.mem_singleton_self e), .inl ⟨number, text, hquery⟩⟩

theorem RunFacts.comment (hissue : issue.isOpen = false) (hafter : after.isOpen = false)
    (hh : ∀ e ∈ h, ¬ IsCompletion e.query) (hquery : e.query = .commentIssue number text)
    (hcomments : after.comments = issue.comments ∨
      after.comments = issue.comments ++ [buildCloseComment o.pr])
    (hok : ¬ Failed e → after.comments ≠ issue.comments) :
    RunFacts o issue after (h ++ [e]) where
  close_open a ha hclose := by
    rcases mem_snoc.mp ha with ha | rfl
    · exact absurd (.inl hclose) (hh a ha)
    · obtain ⟨number', text', heq⟩ := hclose
      exact nomatch hquery.symm.trans heq
  closed hopen _ := by
    rw [hissue] at hopen
    exact Bool.noConfusion hopen
  close_ok _ _ _ _ := hafter
  comments := hcomments
  completion_ok a ha hcompletion hnot := by
    rcases mem_snoc.mp ha with ha | rfl
    · exact absurd hcompletion (hh a ha)
    · exact hok hnot
  commented _ :=
    ⟨e, List.mem_append_right _ (List.mem_singleton_self e), .inr ⟨number, text, hquery⟩⟩

end Facts

section Run

variable {o : ReconcileOptions} {issue : Issue names} {tracker after : Tracker names}
  {h : List (Exchange ReconcileAnswer)} {P : Issue names → Prop}

abbrev Recorded (names : LabelNames) : Type := Tracker names × List (Exchange ReconcileAnswer)

/-- Before the completion command, as long as no call failed. -/
def Early (o : ReconcileOptions) (issue : Issue names) (P : Issue names → Prop)
    (s : Recorded names) : Prop :=
  ∃ now, s.1.issue? o.issue = some now ∧ now.isOpen = issue.isOpen ∧
    now.comments = issue.comments ∧ P now ∧ ∀ e ∈ s.2, ¬ IsCompletion e.query ∧ ¬ Failed e

/-- After a call failed. -/
def Broken (o : ReconcileOptions) (issue : Issue names) (s : Recorded names) : Prop :=
  ∃ now, s.1.issue? o.issue = some now ∧ RunFacts o issue now s.2 ∧ ∃ e ∈ s.2, Failed e

/-- After the completion command, as long as no call failed. -/
def Late (o : ReconcileOptions) (issue : Issue names) (s : Recorded names) : Prop :=
  ∃ now, s.1.issue? o.issue = some now ∧ Completed o issue now ∧ RunFacts o issue now s.2 ∧
    ∀ e ∈ s.2, ¬ Failed e

variable {q : ReconcileQuery} {record : Reconciliation} {repo : String}

theorem not_failed_ok (reply : q.Reply) :
    ¬ Failed (⟨q, .ok reply⟩ : Exchange ReconcileAnswer) :=
  fun ⟨_, heq⟩ => nomatch heq

theorem failed_error (q : ReconcileQuery) (message : String) :
    Failed (⟨q, .error message⟩ : Exchange ReconcileAnswer) :=
  ⟨message, rfl⟩

section

variable (hs : Early o issue P (tracker, h)) (hq : ¬ IsCompletion q)

include hs hq

theorem Early.ok {P' : Issue names → Prop} (reply : q.Reply)
    (hafter : ∀ now, tracker.issue? o.issue = some now → P now → ∃ next,
      after.issue? o.issue = some next ∧ next.isOpen = now.isOpen ∧
        next.comments = now.comments ∧ P' next) :
    Early o issue P' (after, h ++ [⟨q, .ok reply⟩]) := by
  obtain ⟨now, hnow, hopen, hcomments, hP, hh⟩ := hs
  obtain ⟨next, hnext, hopen', hcomments', hP'⟩ := hafter now hnow hP
  refine ⟨next, hnext, hopen'.trans hopen, hcomments'.trans hcomments, hP', fun e he => ?_⟩
  rcases mem_snoc.mp he with he | rfl
  · exact hh e he
  · exact ⟨hq, not_failed_ok reply⟩

theorem Early.error (message : String) (hafter : ∀ now, tracker.issue? o.issue = some now → ∃ next,
      after.issue? o.issue = some next ∧ next.isOpen = now.isOpen ∧
        next.comments = now.comments) : Broken o issue (after, h ++ [⟨q, .error message⟩]) := by
  obtain ⟨now, hnow, hopen, hcomments, -, hh⟩ := hs
  obtain ⟨next, hnext, hopen', hcomments'⟩ := hafter now hnow
  refine ⟨next, hnext, ?_, _, List.mem_append_right _ (List.mem_singleton_self _),
    failed_error q message⟩
  refine RunFacts.untouched (hopen'.trans hopen) (hcomments'.trans hcomments) fun e he => ?_
  rcases mem_snoc.mp he with he | rfl
  · exact (hh e he).1
  · exact hq

theorem Early.keep (reply : q.Reply) : Early o issue P (tracker, h ++ [⟨q, .ok reply⟩]) :=
  hs.ok hq reply fun now hnow hP => ⟨now, hnow, rfl, rfl, hP⟩

theorem Early.fail (message : String) : Broken o issue (tracker, h ++ [⟨q, .error message⟩]) :=
  hs.error hq message fun now hnow => ⟨now, hnow, rfl, rfl⟩

end

theorem Broken.next (hs : Broken o issue (tracker, h)) {e : Exchange ReconcileAnswer}
    (he : ¬ IsCompletion e.query) : Broken o issue (tracker, h ++ [e]) := by
  obtain ⟨now, hnow, hfacts, failed, hfailed, hfails⟩ := hs
  exact ⟨now, hnow, hfacts.silent he, failed, List.mem_append_left _ hfailed, hfails⟩

theorem Late.ok (hs : Late o issue (tracker, h)) (hq : ¬ IsCompletion q) (reply : q.Reply)
    (hafter : ∀ now, tracker.issue? o.issue = some now → now.isOpen = false →
      after.issue? o.issue = some now) :
    Late o issue (after, h ++ [⟨q, .ok reply⟩]) := by
  obtain ⟨now, hnow, hcompleted, hfacts, hh⟩ := hs
  refine ⟨now, hafter now hnow hcompleted.closed, hcompleted, hfacts.silent hq, fun e he => ?_⟩
  rcases mem_snoc.mp he with he | rfl
  · exact hh e he
  · exact not_failed_ok reply

theorem Late.error (hs : Late o issue (tracker, h)) (hq : ¬ IsCompletion q) (message : String)
    (hafter : ∀ now, tracker.issue? o.issue = some now → now.isOpen = false →
      after.issue? o.issue = some now) :
    Broken o issue (after, h ++ [⟨q, .error message⟩]) := by
  obtain ⟨now, hnow, hcompleted, hfacts, -⟩ := hs
  exact ⟨now, hafter now hnow hcompleted.closed, hfacts.silent hq, _,
    List.mem_append_right _ (List.mem_singleton_self _), failed_error q message⟩

/-- The issue carries no standing label. -/
def Unlabelled (issue : Issue names) : Prop :=
  ∀ label ∈ issue.labels, labelKey label ∉ standingLabelNames

def StepsEnd (Post : Recorded names → Prop) (o : ReconcileOptions) (issue : Issue names)
    (s : Recorded names) : Except String (Except String Unit × Reconciliation) → Prop
  | .ok (.ok (), _) => Post s
  | .ok (.error _, _) => Broken o issue s
  | .error _ => False

variable {labels : List String} {mergeSummary : Option Json} {text : String}

theorem ensures_removeStandingLabels
    (hs : Early o issue (fun now => now.labels = labels) (tracker, h)) :
    Ensures (recorded (reconcileService names)) anyQuery
      (StepsEnd (Early o issue Unlabelled) o issue) (tracker, h)
      (removeStandingLabels repo o (standingLabelsOf labels) record) := by
  obtain ⟨now, hnow, hopen, hcomments, rfl, hh⟩ := hs
  have hnormal : normalizeLabels (standingLabelsOf now.labels) = standingLabelsOf now.labels :=
    normalizeLabels_of_sublist now.labelSet List.filter_sublist
  have hearly : Early o issue (fun found => found = now) (tracker, h) :=
    ⟨now, hnow, hopen, hcomments, rfl, hh⟩
  have hremove : ¬ IsCompletion (.removeLabels o.issue (standingLabelsOf now.labels)) := by
    rintro (⟨_, _, heq⟩ | ⟨_, _, heq⟩) <;> exact nomatch heq
  unfold removeStandingLabels
  split
  · next hnone =>
    refine ⟨now, hnow, hopen, hcomments, fun label hlabel hstanding => ?_, hh⟩
    have hmem : label ∈ standingLabelsOf now.labels := by
      refine List.mem_filter.mpr ⟨hlabel, ?_⟩
      rw [toLowerCase_of_mem now.labelSet hlabel]
      exact decide_eq_true hstanding
    rw [hnone] at hmem
    cases hmem
  · rw [hnormal]
    refine Attempt.ensures_recorded_call_bind.mpr ⟨trivial, ?_, ?_⟩
    · rintro reply _ rfl
      refine hearly.ok hremove reply ?_
      rintro found hfound rfl
      exact ⟨_, Tracker.issue?_removeLabels hfound _, rfl, rfl, fun label hlabel =>
        not_standing_of_without found hlabel⟩
    · rintro message _ ⟨gone, -, rfl⟩
      exact hearly.error hremove message fun found hfound =>
        ⟨_, Tracker.issue?_removeLabels hfound gone, rfl, rfl⟩

theorem stateUpper_stateOf (issue : Issue names) :
    stateUpper (stateOf issue) = "OPEN" ↔ issue.isOpen = true := by
  unfold stateOf
  cases issue.isOpen with
  | true => decide
  | false => decide

theorem Early.completed (hs : Early o issue Unlabelled (tracker, h)) (reply : q.Reply)
    (htext : text = buildCloseComment o.pr)
    (hq : issue.isOpen = true ∧ q = .closeIssue o.issue text ∧ after = tracker.close o.issue text ∨
      issue.isOpen = false ∧ q = .commentIssue o.issue text ∧
        after = tracker.comment o.issue text) :
    Late o issue (after, h ++ [⟨q, .ok reply⟩]) := by
  obtain ⟨now, hnow, hopen, hcomments, hlabels, hh⟩ := hs
  have hquiet : ∀ e ∈ h, ¬ IsCompletion e.query := fun e he => (hh e he).1
  have hall : ∀ e ∈ h ++ [(⟨q, .ok reply⟩ : Exchange ReconcileAnswer)], ¬ Failed e := fun e he => by
    rcases mem_snoc.mp he with he | rfl
    · exact (hh e he).2
    · exact not_failed_ok reply
  have hposted : now.comments ++ [text] = issue.comments ++ [buildCloseComment o.pr] := by
    rw [hcomments, htext]
  have hchanged : now.comments ++ [text] ≠ issue.comments := by
    rw [hcomments]
    exact append_ne_self _ _
  rcases hq with ⟨hissue, rfl, rfl⟩ | ⟨hissue, rfl, rfl⟩
  · refine ⟨_, Tracker.issue?_close hnow text, ⟨rfl, hlabels, hposted⟩, ?_, hall⟩
    exact RunFacts.close hissue hquiet rfl (.inr hposted) fun _ => ⟨rfl, hchanged⟩
  · refine ⟨_, Tracker.issue?_comment hnow text, ⟨hopen.trans hissue, hlabels, hposted⟩, ?_, hall⟩
    exact RunFacts.comment hissue (hopen.trans hissue) hquiet rfl (.inr hposted) fun _ => hchanged

theorem Early.broken (hs : Early o issue P (tracker, h)) (message : String)
    (htext : text = buildCloseComment o.pr)
    (hq : issue.isOpen = true ∧ q = .closeIssue o.issue text ∧ (after = tracker ∨
        after = tracker.comment o.issue text ∨ after = tracker.close o.issue text) ∨
      issue.isOpen = false ∧ q = .commentIssue o.issue text ∧
        (after = tracker ∨ after = tracker.comment o.issue text)) :
    Broken o issue (after, h ++ [⟨q, .error message⟩]) := by
  obtain ⟨now, hnow, hopen, hcomments, -, hh⟩ := hs
  have hquiet : ∀ e ∈ h, ¬ IsCompletion e.query := fun e he => (hh e he).1
  have hfailed := failed_error q message
  have hlast := List.mem_append_right h (List.mem_singleton_self
    (⟨q, .error message⟩ : Exchange ReconcileAnswer))
  have hposted : now.comments ++ [text] = issue.comments ++ [buildCloseComment o.pr] := by
    rw [hcomments, htext]
  rcases hq with ⟨hissue, rfl, rfl | rfl | rfl⟩ | ⟨hissue, rfl, rfl | rfl⟩
  · exact ⟨now, hnow, RunFacts.close hissue hquiet rfl (.inl hcomments)
      fun hnot => absurd hfailed hnot, _, hlast, hfailed⟩
  · exact ⟨_, Tracker.issue?_comment hnow text, RunFacts.close hissue hquiet rfl (.inr hposted)
      fun hnot => absurd hfailed hnot, _, hlast, hfailed⟩
  · exact ⟨_, Tracker.issue?_close hnow text, RunFacts.close hissue hquiet rfl (.inr hposted)
      fun hnot => absurd hfailed hnot, _, hlast, hfailed⟩
  · exact ⟨now, hnow, RunFacts.comment hissue (hopen.trans hissue) hquiet rfl (.inl hcomments)
      fun hnot => absurd hfailed hnot, _, hlast, hfailed⟩
  · exact ⟨_, Tracker.issue?_comment hnow text, RunFacts.comment hissue (hopen.trans hissue) hquiet
      rfl (.inr hposted) fun hnot => absurd hfailed hnot, _, hlast, hfailed⟩

theorem ensures_completeIssue (hmerged : o.merged = true)
    (hs : Early o issue Unlabelled (tracker, h)) :
    Ensures (recorded (reconcileService names)) anyQuery (StepsEnd (Late o issue) o issue)
      (tracker, h) (completeIssue repo o (stateUpper (stateOf issue)) record) := by
  have hstate := stateUpper_stateOf issue
  generalize stateUpper (stateOf issue) = state at hstate ⊢
  unfold completeIssue
  rw [if_pos hmerged]
  generalize htext : buildCloseComment o.pr = text
  refine Attempt.ensures_modify_bind.mpr ?_
  unfold closeIssueWithComment
  by_cases hissue : state = "OPEN"
  · rw [if_pos hissue]
    have hopen := hstate.mp hissue
    refine Attempt.ensures_recorded_call_bind.mpr ⟨trivial, ?_, ?_⟩
    · exact fun reply u hclosed => hs.completed reply htext.symm (.inl ⟨hopen, rfl, hclosed⟩)
    · exact fun message u heffect => hs.broken message htext.symm (.inl ⟨hopen, rfl, heffect⟩)
  · rw [if_neg hissue]
    have hclosed : issue.isOpen = false := Bool.eq_false_iff.mpr (mt hstate.mpr hissue)
    refine Attempt.ensures_recorded_call_bind.mpr ⟨trivial, ?_, ?_⟩
    · exact fun reply u hposted => hs.completed reply htext.symm (.inr ⟨hclosed, rfl, hposted⟩)
    · exact fun message u heffect => hs.broken message htext.symm (.inr ⟨hclosed, rfl, heffect⟩)

theorem not_isCompletion_sync : ¬ IsCompletion .syncStandingPriority := by
  rintro (⟨_, _, heq⟩ | ⟨_, _, heq⟩) <;> exact nomatch heq

theorem not_isCompletion_readRouter : ¬ IsCompletion .readRouter := by
  rintro (⟨_, _, heq⟩ | ⟨_, _, heq⟩) <;> exact nomatch heq

theorem not_isCompletion_readCache : ¬ IsCompletion .readCache := by
  rintro (⟨_, _, heq⟩ | ⟨_, _, heq⟩) <;> exact nomatch heq

theorem ensures_advanceStanding (hs : Late o issue (tracker, h)) :
    Ensures (recorded (reconcileService names)) anyQuery (StepsEnd (Late o issue) o issue)
      (tracker, h) (advanceStanding mergeSummary record) := by
  refine Attempt.ensures_recorded_call_bind.mpr ⟨trivial, ?_, ?_⟩
  · rintro reply u hsync
    have hsynced : Late o issue (u, h ++ [⟨.syncStandingPriority, .ok reply⟩]) :=
      hs.ok not_isCompletion_sync reply (hsync o.issue)
    refine Attempt.ensures_recorded_call_bind.mpr ⟨trivial, ?_, ?_⟩
    · rintro router _ rfl
      have hrouter := hsynced.ok not_isCompletion_readRouter router fun _ hnow _ => hnow
      refine Attempt.ensures_recorded_call_bind.mpr ⟨trivial, ?_, ?_⟩
      · rintro cache _ rfl
        exact hrouter.ok not_isCompletion_readCache cache fun _ hnow _ => hnow
      · rintro message _ rfl
        exact hrouter.error not_isCompletion_readCache message fun _ hnow _ => hnow
    · rintro message _ rfl
      exact hsynced.error not_isCompletion_readRouter message fun _ hnow _ => hnow
  · rintro message u hsync
    exact hs.error not_isCompletion_sync message (hsync o.issue)

theorem ensures_reconcileSteps (hmerged : o.merged = true) (hdry : o.dryRun = false)
    (hs : Early o issue (fun now => now.labels = labels) (tracker, h)) :
    Ensures (recorded (reconcileService names)) anyQuery (StepsEnd (Late o issue) o issue)
      (tracker, h) (reconcileSteps repo o (stateUpper (stateOf issue)) (standingLabelsOf labels)
        mergeSummary record) := by
  unfold reconcileSteps
  rw [if_neg (by rw [hdry]; exact Bool.false_ne_true)]
  refine Attempt.ensures_bind.mpr ((ensures_removeStandingLabels hs).mono ?_)
  rintro ⟨u, h'⟩ (message | ⟨message | ⟨⟩, record'⟩) hend
  · exact hend
  · exact hend
  · refine Attempt.ensures_bind.mpr ((ensures_completeIssue hmerged hend).mono ?_)
    rintro ⟨u', h''⟩ (message | ⟨message | ⟨⟩, record''⟩) hend'
    · exact hend'
    · exact hend'
    · exact ensures_advanceStanding hend'

/-- How a run ends. -/
def RunEnd (o : ReconcileOptions) (issue : Issue names) (s : Recorded names)
    (r : Except String ReconcileReceipt) : Prop :=
  reconciliationFails r = true ∧ Broken o issue s ∨
    reconciliationFails r = false ∧ Late o issue s

theorem not_isCompletion_writeReceipt (receipt : ReconcileReceipt) :
    ¬ IsCompletion (.writeReceipt receipt) := by
  rintro (⟨_, _, heq⟩ | ⟨_, _, heq⟩) <;> exact nomatch heq

theorem ensures_writeReceipt (hdry : o.dryRun = false)
    {ended : Except String Unit × Reconciliation}
    (hs : StepsEnd (Late o issue) o issue (tracker, h) (.ok ended)) :
    Ensures (recorded (reconcileService names)) anyQuery (RunEnd o issue) (tracker, h)
      (Standing.writeReceipt (receiptOf repo o ended)) := by
  refine ensures_recorded_call_bind.mpr ⟨trivial, ?_, ?_⟩
  · rintro reply _ rfl
    rcases ended with ⟨message | ⟨⟩, record⟩
    · exact .inl ⟨rfl, hs.next (not_isCompletion_writeReceipt _)⟩
    · refine .inr ⟨?_, hs.ok (not_isCompletion_writeReceipt _) reply fun _ hnow _ => hnow⟩
      unfold receiptOf reconciliationFails
      rw [if_neg (by rw [hdry]; exact Bool.false_ne_true)]
      rfl
  · rintro message _ rfl
    rcases ended with ⟨failure | ⟨⟩, record⟩
    · exact .inl ⟨rfl, hs.next (not_isCompletion_writeReceipt _)⟩
    · exact .inl ⟨rfl, hs.error (not_isCompletion_writeReceipt _) message fun _ hnow _ => hnow⟩

theorem ensures_readMergeSummary (hs : Early o issue P (tracker, h)) :
    Ensures (recorded (reconcileService names)) anyQuery (fun s r => match r with
        | .ok _ => Early o issue P s
        | .error _ => Broken o issue s) (tracker, h) (readMergeSummary o) := by
  have hsummary : ¬ IsCompletion .readMergeSummary := by
    rintro (⟨_, _, heq⟩ | ⟨_, _, heq⟩) <;> exact nomatch heq
  unfold readMergeSummary
  by_cases hpath : o.mergeSummary = true
  · rw [if_pos hpath]
    refine ⟨trivial, ?_⟩
    rintro answer ⟨u, h'⟩ ⟨hsame, rfl⟩
    obtain rfl : u = tracker := hsame
    cases answer with
    | ok mergeSummary => exact hs.keep hsummary mergeSummary
    | error message => exact hs.fail hsummary message
  · rw [if_neg hpath]
    exact hs

/-- **One run.** -/
theorem ensures_runStandingReconciliation (hmerged : o.merged = true) (hdry : o.dryRun = false)
    (hissue : tracker.issue? o.issue = some issue) :
    Ensures (recorded (reconcileService names)) anyQuery (RunEnd o issue) (tracker, [])
      (runStandingReconciliation o) := by
  have hstart : Early o issue (fun now => now = issue) (tracker, []) :=
    ⟨issue, hissue, rfl, rfl, rfl, List.forall_mem_nil _⟩
  have hprepare : ¬ IsCompletion .prepare := by
    rintro (⟨_, _, heq⟩ | ⟨_, _, heq⟩) <;> exact nomatch heq
  have hview : ¬ IsCompletion (.viewIssue o.issue) := by
    rintro (⟨_, _, heq⟩ | ⟨_, _, heq⟩) <;> exact nomatch heq
  refine ensures_recorded_call_bind.mpr ⟨trivial, ?_, ?_⟩
  · rintro repo _ rfl
    have hprepared := hstart.keep hprepare repo
    refine ensures_recorded_call_bind.mpr ⟨trivial, ?_, ?_⟩
    · rintro view current ⟨rfl, hshown⟩
      have hviewed := hprepared.keep hview view
      obtain ⟨found, hfound, rfl⟩ := hshown view rfl
      obtain rfl : found = issue := Option.some.inj (hfound.symm.trans hissue)
      refine ensures_bind.mpr ((ensures_readMergeSummary hviewed).mono ?_)
      rintro ⟨u, h'⟩ (message | mergeSummary) hread
      · exact .inl ⟨rfl, hread⟩
      · have hnormal : normalizeLabels found.labels = found.labels :=
          normalizeLabels_of_sublist found.labelSet (List.Sublist.refl _)
        have hlabels : Early o found (fun now => now.labels = found.labels) (u, h') := by
          obtain ⟨now, hnow, hopen, hcomments, rfl, hh⟩ := hread
          exact ⟨now, hnow, hopen, hcomments, rfl, hh⟩
        dsimp only
        rw [if_pos (by rw [hmerged, Bool.true_or]), hnormal]
        refine ensures_bind.mpr ((ensures_reconcileSteps hmerged hdry hlabels).mono ?_)
        rintro ⟨u, h''⟩ (message | ended) hend
        · exact hend.elim
        · exact ensures_writeReceipt hdry hend
    · rintro message _ ⟨rfl, -⟩
      exact .inl ⟨rfl, hprepared.fail hview message⟩
  · rintro message _ rfl
    exact .inl ⟨rfl, hstart.fail hprepare message⟩

end Run

/-! ### Sequences of runs -/

section Sequence

variable {o : ReconcileOptions} {issue : Issue names} {before after : Tracker names}
  {runs : List (ReconcileRun names)}

/-- What a run left of the issue. -/
structure RunSpec (o : ReconcileOptions) (run : ReconcileRun names) (issue now : Issue names) :
    Prop where
  before : run.before.issue? o.issue = some issue
  after : run.after.issue? o.issue = some now
  facts : RunFacts o issue now (run.calls.map Call.exchange)
  fails : reconciliationFails run.result = true ↔ run.Fails
  completed : reconciliationFails run.result = false → Completed o issue now

/-- **Every run.** -/
theorem exists_runSpec (hmerged : o.merged = true) (hdry : o.dryRun = false)
    {calls : List (Call (Tracker names) ReconcileAnswer)} {result : Except String ReconcileReceipt}
    (hrun : Executes (reconcileService names) before (runStandingReconciliation o) calls after
      result) (hissue : before.issue? o.issue = some issue) :
    ∃ now, RunSpec o ⟨before, calls, after, result⟩ issue now := by
  have hend : RunEnd o issue (after, calls.map Call.exchange) result :=
    ((ensures_runStandingReconciliation hmerged hdry hissue).recorded hrun).2
  rcases hend with ⟨hfails, now, hnow, hfacts, e, he, message, herror⟩ |
    ⟨hfails, now, hnow, hcompleted, hfacts, hall⟩
  · obtain ⟨call, hcall, rfl⟩ := List.mem_map.mp he
    exact ⟨now, hissue, hnow, hfacts, iff_of_true hfails ⟨call, hcall, message, herror⟩,
      fun hok => absurd hfails (by rw [hok]; exact Bool.false_ne_true)⟩
  · refine ⟨now, hissue, hnow, hfacts, iff_of_false ?_ ?_, fun _ => hcompleted⟩
    · rw [hfails]
      exact Bool.false_ne_true
    · rintro ⟨call, hcall, message, herror⟩
      exact hall call.exchange (List.mem_map_of_mem hcall) ⟨message, herror⟩

theorem Retries.runSpec (hmerged : o.merged = true) (hdry : o.dryRun = false)
    (hruns : Retries o before runs after) (hissue : before.issue? o.issue = some issue) :
    ∀ run ∈ runs, ∃ issue now, RunSpec o run issue now := by
  induction hruns generalizing issue with
  | none tracker => exact List.forall_mem_nil _
  | run hrun _ _ ih =>
    obtain ⟨now, hspec⟩ := exists_runSpec hmerged hdry hrun hissue
    intro run hmem
    rcases List.mem_cons.mp hmem with rfl | hmem
    · exact ⟨issue, now, hspec⟩
    · exact ih hspec.after run hmem

variable {run : ReconcileRun names} {now : Issue names}

theorem RunSpec.isOpen_before (hspec : RunSpec o run issue now) :
    IsOpen run.before o.issue ↔ issue.isOpen = true := by
  unfold IsOpen
  rw [hspec.before]
  exact ⟨fun ⟨_, heq, hopen⟩ => Option.some.inj heq ▸ hopen, fun hopen => ⟨issue, rfl, hopen⟩⟩

theorem RunSpec.isOpen_after (hspec : RunSpec o run issue now) :
    IsOpen run.after o.issue ↔ now.isOpen = true := by
  unfold IsOpen
  rw [hspec.after]
  exact ⟨fun ⟨_, heq, hopen⟩ => Option.some.inj heq ▸ hopen, fun hopen => ⟨now, rfl, hopen⟩⟩

theorem RunSpec.stillOpen_iff (hspec : RunSpec o run issue now) :
    (IsOpen run.before o.issue → IsOpen run.after o.issue) ↔
      ∀ call ∈ run.calls, IsClose call.query →
        (∃ message, call.answer = .error message) ∧ IsOpen run.after o.issue := by
  rw [hspec.isOpen_before, hspec.isOpen_after]
  constructor
  · intro hstill call hcall hclose
    have hmem : call.exchange ∈ run.calls.map Call.exchange := List.mem_map_of_mem hcall
    have hopen := hstill (hspec.facts.close_open _ hmem hclose)
    refine ⟨?_, hopen⟩
    by_contra hok
    have hclosed := hspec.facts.close_ok _ hmem hclose hok
    rw [hopen] at hclosed
    exact Bool.noConfusion hclosed
  · intro hcalls hopen
    by_contra hclosed
    obtain ⟨e, he, hclose⟩ := hspec.facts.closed hopen (Bool.eq_false_iff.mpr hclosed)
    obtain ⟨call, hcall, rfl⟩ := List.mem_map.mp he
    exact hclosed (hcalls call hcall hclose).2

theorem RunSpec.commentsOf_eq_iff (hspec : RunSpec o run issue now) :
    commentsOf run.after o.issue = commentsOf run.before o.issue ↔
      now.comments = issue.comments := by
  unfold commentsOf
  rw [hspec.before, hspec.after]
  exact Option.some_inj

theorem RunSpec.silent_iff (hspec : RunSpec o run issue now) :
    now.comments = issue.comments ↔ ∀ call ∈ run.calls, IsCompletion call.query →
      (∃ message, call.answer = .error message) ∧
        commentsOf run.after o.issue = commentsOf run.before o.issue := by
  rw [hspec.commentsOf_eq_iff]
  constructor
  · intro hsame call hcall hcompletion
    refine ⟨?_, hsame⟩
    by_contra hok
    exact hspec.facts.completion_ok _ (List.mem_map_of_mem hcall) hcompletion hok hsame
  · intro hcalls
    by_contra hchanged
    obtain ⟨e, he, hcompletion⟩ := hspec.facts.commented hchanged
    obtain ⟨call, hcall, rfl⟩ := List.mem_map.mp he
    exact hchanged (hcalls call hcall hcompletion).2

theorem succeeds_cons (hne : runs ≠ []) : Succeeds (run :: runs) ↔ Succeeds runs := by
  unfold Succeeds
  rw [List.getLast?_cons_of_ne_nil hne]

section

variable (hmerged : o.merged = true) (hdry : o.dryRun = false) (hruns : Retries o before runs after)
  (hissue : before.issue? o.issue = some issue) (hsucceeds : Succeeds runs)

include hmerged hdry hruns hissue hsucceeds

theorem Retries.length_comments : ∃ last, after.issue? o.issue = some last ∧
      issue.comments.length + 1 ≤ last.comments.length := by
  induction hruns generalizing issue with
  | none tracker =>
    obtain ⟨run, hrun, -⟩ := hsucceeds
    exact nomatch hrun
  | @run before middle after calls result runs hrun _ hrest ih =>
    obtain ⟨now, hspec⟩ := exists_runSpec hmerged hdry hrun hissue
    rcases List.eq_nil_or_concat' runs with rfl | ⟨_, _, hconcat⟩
    · cases hrest
      obtain ⟨run, hlast, hok⟩ := hsucceeds
      obtain rfl := Option.some.inj hlast
      refine ⟨now, hspec.after, ?_⟩
      rw [(hspec.completed hok).commented, List.length_append, List.length_singleton]
    · have hne : runs ≠ [] := by
        rw [hconcat]
        simp
      obtain ⟨last, hlast, hlength⟩ := ih hspec.after ((succeeds_cons hne).mp hsucceeds)
      refine ⟨last, hlast, le_trans ?_ hlength⟩
      rcases hspec.facts.comments with heq | heq
      · rw [heq]
      · rw [heq, List.length_append]
        omega

/-- A sequence that succeeds completes the issue exactly if the runs that failed left its
comments as they were. -/
theorem Retries.completed_iff :
    (∃ last, after.issue? o.issue = some last ∧ Completed o issue last) ↔
      ∀ run ∈ runs, run.Fails →
        commentsOf run.after o.issue = commentsOf run.before o.issue := by
  induction hruns generalizing issue with
  | none tracker =>
    obtain ⟨run, hrun, -⟩ := hsucceeds
    exact nomatch hrun
  | @run before middle after calls result runs hrun hfails hrest ih =>
    obtain ⟨now, hspec⟩ := exists_runSpec hmerged hdry hrun hissue
    rcases List.eq_nil_or_concat' runs with rfl | ⟨_, _, hconcat⟩
    · -- one run, and it succeeded
      cases hrest
      obtain ⟨run, hlast, hok⟩ := hsucceeds
      obtain rfl := Option.some.inj hlast
      refine iff_of_true ⟨now, hspec.after, hspec.completed hok⟩ fun run hrun hrunFails => ?_
      rw [List.mem_singleton.mp hrun] at hrunFails
      have hcontra : true = false := (hspec.fails.mpr hrunFails).symm.trans hok
      exact Bool.noConfusion hcontra
    · have hne : runs ≠ [] := by
        rw [hconcat]
        simp
      have hrunFails := hspec.fails.mp (hfails hne)
      have hrestSucceeds := (succeeds_cons hne).mp hsucceeds
      have htail := ih hspec.after hrestSucceeds
      have hsame : now.comments = issue.comments → ((∃ last, after.issue? o.issue = some last ∧
          Completed o issue last) ↔ ∃ last, after.issue? o.issue = some last ∧
            Completed o now last) := fun heq => by
        refine exists_congr fun last => and_congr_right fun _ => ?_
        exact ⟨fun h => ⟨h.closed, h.unlabelled, heq ▸ h.commented⟩,
          fun h => ⟨h.closed, h.unlabelled, heq ▸ h.commented⟩⟩
      constructor
      · rintro ⟨last, hlast, hcompleted⟩
        -- the run that failed posted no comment, for the rest posts one
        have hsilent : now.comments = issue.comments := by
          obtain ⟨last', hlast', hlength⟩ :=
            hrest.length_comments hmerged hdry hspec.after hrestSucceeds
          obtain rfl := Option.some.inj (hlast.symm.trans hlast')
          rcases hspec.facts.comments with heq | heq
          · exact heq
          · rw [heq, hcompleted.commented, List.length_append, List.length_singleton] at hlength
            omega
        intro run hmem hfailed
        rcases List.mem_cons.mp hmem with rfl | hmem
        · exact hspec.commentsOf_eq_iff.mpr hsilent
        · exact htail.mp ((hsame hsilent).mp ⟨last, hlast, hcompleted⟩) run hmem hfailed
      · intro hall
        have hsilent := hspec.commentsOf_eq_iff.mp (hall _ List.mem_cons_self hrunFails)
        exact (hsame hsilent).mpr (htail.mpr fun run hmem => hall run (List.mem_cons_of_mem _ hmem))

end

end Sequence

/-- **When retrying is safe.** A sequence of runs keeps to the law exactly if no run fails once
its closing command has had an effect. -/
theorem retryLaw_iff (o : ReconcileOptions) (hmerged : o.merged = true) (hdry : o.dryRun = false)
    (before after : Tracker names) (issue : Issue names) (runs : List (ReconcileRun names))
    (hruns : Retries o before runs after) (hissue : before.issue? o.issue = some issue) :
    RetryLaw o before runs after ↔ FailsEarly o runs := by
  have hspecs := hruns.runSpec hmerged hdry hissue
  have hclosing : (∀ run ∈ runs, SaysOpen o run → IsOpen run.before o.issue →
      IsOpen run.after o.issue) ↔ ∀ run ∈ runs, run.Fails → ∀ call ∈ run.calls,
        IsClose call.query → (∃ message, call.answer = .error message) ∧
          IsOpen run.after o.issue := by
    refine forall₂_congr fun run hrun => ?_
    obtain ⟨issue, now, hspec⟩ := hspecs run hrun
    rw [saysOpen_iff, hspec.fails, hspec.stillOpen_iff]
  have hcommenting : (Succeeds runs → ∃ issue issue', before.issue? o.issue = some issue ∧
      after.issue? o.issue = some issue' ∧ Completed o issue issue') ↔
      (Succeeds runs → ∀ run ∈ runs, run.Fails → ∀ call ∈ run.calls, IsCompletion call.query →
        (∃ message, call.answer = .error message) ∧
          commentsOf run.after o.issue = commentsOf run.before o.issue) := by
    refine forall_congr' fun hsucceeds => ?_
    have hcalls : (∀ run ∈ runs, run.Fails →
        commentsOf run.after o.issue = commentsOf run.before o.issue) ↔
        ∀ run ∈ runs, run.Fails → ∀ call ∈ run.calls, IsCompletion call.query →
          (∃ message, call.answer = .error message) ∧
            commentsOf run.after o.issue = commentsOf run.before o.issue := by
      refine forall₂_congr fun run hrun => forall_congr' fun _ => ?_
      obtain ⟨issue, now, hspec⟩ := hspecs run hrun
      exact hspec.commentsOf_eq_iff.trans hspec.silent_iff
    rw [← hcalls, ← hruns.completed_iff hmerged hdry hissue hsucceeds]
    constructor
    · rintro ⟨found, last, hfound, hlast, hcompleted⟩
      obtain rfl := Option.some.inj (hissue.symm.trans hfound)
      exact ⟨last, hlast, hcompleted⟩
    · rintro ⟨last, hlast, hcompleted⟩
      exact ⟨issue, last, hissue, hlast, hcompleted⟩
  exact ⟨fun hlaw => ⟨hclosing.mp hlaw.stillOpen, hcommenting.mp hlaw.completed⟩,
    fun hearly => ⟨hclosing.mpr hearly.closing, hcommenting.mpr hearly.commenting⟩⟩

/-! ### The standing issue of a merged lane -/

/-- The commands of the reconciliation, one of which may fail without effect. -/
def serveReconcile (fails : ReconcileQuery → Bool) (tracker : Tracker names) (q : ReconcileQuery) :
    ReconcileAnswer q × Tracker names :=
  if fails q then (.error "exit status 1", tracker)
  else match q with
    | .prepare => (.ok "octo/demo", tracker)
    | .viewIssue number => match tracker.issue? number with
      | some issue => (.ok ⟨stateOf issue, issue.labels⟩, tracker)
      | none => (.error "not found", tracker)
    | .removeLabels number labels => (.ok (), tracker.removeLabels number labels)
    | .closeIssue number comment => (.ok (), tracker.close number comment)
    | .commentIssue number comment => (.ok (), tracker.comment number comment)
    | .syncStandingPriority | .writeReceipt _ => (.ok (), tracker)
    | .readMergeSummary | .readRouter | .readCache => (.ok none, tracker)

theorem removeLabels_nil (tracker : Tracker names) (number : ℕ) :
    tracker.removeLabels number [] = tracker := by
  have hsame : ∀ issue : Issue names, issue.without [] = issue := fun issue =>
    Issue.ext rfl rfl (LabelSet.ext (List.filter_eq_self.mpr fun _ _ => rfl)) rfl
  refine Tracker.ext ((List.map_congr_left fun issue _ => ?_).trans (List.map_id tracker.issues))
  rw [hsame, ite_self]
  rfl

theorem reconcileService_serveReconcile (fails : ReconcileQuery → Bool) (tracker : Tracker names)
    (q : ReconcileQuery) : reconcileService names tracker q (serveReconcile fails tracker q).1
      (serveReconcile fails tracker q).2 := by
  unfold serveReconcile
  cases fails q with
  | true =>
    rw [if_pos rfl]
    cases q with
    | prepare | readMergeSummary | readRouter | readCache | writeReceipt _ => exact rfl
    | viewIssue number => exact ⟨rfl, fun _ h => nomatch h⟩
    | removeLabels number labels =>
      exact ⟨[], List.nil_subset _, (removeLabels_nil tracker number).symm⟩
    | closeIssue number comment => exact .inl rfl
    | commentIssue number comment => exact .inl rfl
    | syncStandingPriority => exact fun _ _ h _ => h
  | false =>
    rw [if_neg Bool.false_ne_true]
    cases q with
    | prepare | readMergeSummary | readRouter | readCache | writeReceipt _ => exact rfl
    | viewIssue number =>
      dsimp only
      cases hissue : tracker.issue? number with
      | none => exact ⟨rfl, fun _ h => nomatch h⟩
      | some issue => exact ⟨rfl, fun _ h => ⟨issue, hissue, (Except.ok.inj h).symm⟩⟩
    | removeLabels number labels => exact rfl
    | closeIssue number comment => exact rfl
    | commentIssue number comment => exact rfl
    | syncStandingPriority => exact fun _ _ h _ => h

def standingFive : Issue LabelNames.lower :=
  ⟨5, true, LabelSet.of _ ["standing-priority"], []⟩

def oneIssue (issue : Issue LabelNames.lower) : Tracker LabelNames.lower :=
  ⟨[issue], List.nodup_singleton _⟩

/-- `--issue 5 --pr 7 --merged`. -/
def mergedFive : ReconcileOptions := ⟨5, some 7, true, "", false, false⟩

def reconcileOnce (fails : ReconcileQuery → Bool) (tracker : Tracker LabelNames.lower) :
    ReconcileRun LabelNames.lower :=
  let ended := (runStandingReconciliation mergedFive).execute (serveReconcile fails) tracker
  ⟨tracker, ended.1, ended.2.1, ended.2.2⟩

theorem executes_reconcileOnce (fails : ReconcileQuery → Bool)
    (tracker : Tracker LabelNames.lower) :
    Executes (reconcileService LabelNames.lower) tracker (runStandingReconciliation mergedFive)
      (reconcileOnce fails tracker).calls (reconcileOnce fails tracker).after
      (reconcileOnce fails tracker).result := by
  exact executes_execute _ (reconcileService_serveReconcile fails) _ _

def failsLabels : ReconcileQuery → Bool
  | .removeLabels _ _ => true
  | _ => false

def failsSync : ReconcileQuery → Bool
  | .syncStandingPriority => true
  | _ => false

def labelsThenAll : List (ReconcileRun LabelNames.lower) :=
  let first := reconcileOnce failsLabels (oneIssue standingFive)
  [first, reconcileOnce (fun _ => false) first.after]

/-- The retry completes the issue. -/
theorem retryLaw_labelsThenAll :
    RetryLaw mergedFive (oneIssue standingFive) labelsThenAll
      (reconcileOnce (fun _ => false)
        (reconcileOnce failsLabels (oneIssue standingFive)).after).after := by
  refine (retryLaw_iff mergedFive rfl rfl _ _ standingFive labelsThenAll
    (.run (executes_reconcileOnce _ _) (fun _ => rfl)
      (.run (executes_reconcileOnce _ _) (fun h => absurd rfl h) (.none _))) rfl).mpr ?_
  -- the first run does not come to the closing command, and in the second one nothing fails
  have hfirst : ∀ call ∈ (reconcileOnce failsLabels (oneIssue standingFive)).calls,
      ¬ IsCompletion call.query := by
    rintro call hcall (⟨number, comment, hq⟩ | ⟨number, comment, hq⟩)
    all_goals
      have hall : (reconcileOnce failsLabels (oneIssue standingFive)).calls.all (fun call =>
          match call.query with | .closeIssue _ _ | .commentIssue _ _ => false | _ => true) =
            true := rfl
      have hcontra := List.all_eq_true.mp hall call hcall
      rw [hq] at hcontra
      exact Bool.noConfusion hcontra
  have hsecond : ¬ (reconcileOnce (fun _ => false)
      (reconcileOnce failsLabels (oneIssue standingFive)).after).Fails := by
    rintro ⟨call, hcall, message, herror⟩
    have hall : (reconcileOnce (fun _ => false) (reconcileOnce failsLabels
        (oneIssue standingFive)).after).calls.all (fun call =>
          match call.answer with | .ok _ => true | .error _ => false) = true := rfl
    have hcontra := List.all_eq_true.mp hall call hcall
    rw [herror] at hcontra
    exact Bool.noConfusion hcontra
  constructor
  · intro run hrun hfails call hcall hclose
    rcases List.mem_pair.mp hrun with rfl | rfl
    · exact absurd (.inl hclose) (hfirst call hcall)
    · exact absurd hfails hsecond
  · intro _ run hrun hfails call hcall hcompletion
    rcases List.mem_pair.mp hrun with rfl | rfl
    · exact absurd hcompletion (hfirst call hcall)
    · exact absurd hfails hsecond

/-- The issue is closed when the synchronisation fails, and the turn says that it remains
open. -/
theorem not_retryLaw_failsSync :
    ¬ ∀ (o : ReconcileOptions), o.merged = true → o.dryRun = false →
      ∀ (before after : Tracker LabelNames.lower) (issue : Issue LabelNames.lower)
        (runs : List (ReconcileRun LabelNames.lower)), Retries o before runs after →
        before.issue? o.issue = some issue → RetryLaw o before runs after := by
  intro hall
  have hlaw := hall mergedFive rfl rfl (oneIssue standingFive) _ standingFive
    [reconcileOnce failsSync (oneIssue standingFive)]
    (.run (executes_reconcileOnce _ _) (fun h => absurd rfl h) (.none _)) rfl
  have hopenSaid : SaysOpen mergedFive (reconcileOnce failsSync (oneIssue standingFive)) := rfl
  obtain ⟨issue, hissue, hopen⟩ := hlaw.stillOpen _ (List.mem_singleton.mpr rfl) hopenSaid
    ⟨standingFive, rfl, rfl⟩
  have hclosed : ((reconcileOnce failsSync (oneIssue standingFive)).after.issue? 5).map
      Issue.isOpen = some false := rfl
  have hmap := congrArg (Option.map Issue.isOpen) hissue
  rw [Option.map_some, hopen] at hmap
  exact Bool.noConfusion (Option.some.inj (hclosed.symm.trans hmap))

end CompareVI.Delivery
