import CompareVI.Framework.Service
import CompareVI.Standing.Lookup
import CompareVI.Standing.Tracker

/-!
# Handing the standing label on

`handoffStandingPriority` moves the standing label to another issue. It lists the issues
that carry a standing label (`collectStandingIssues`), decides on the target
(`resolveTargetIssue`), and then replaces the labels of one issue after the other: those
that are not the target lose their standing labels, and the target loses all but the
primary one and gets that. Every replacement is read back and compared with what was sent
(`verifyIssueLabels`).

A replacement sends the whole set of labels, and the set is computed from the list made at
the start. That list holds the issues that carry a standing label already. A target that
does not is not in the list, so that the set is the primary label alone, and the write
erases all other labels of the target; reading it back compares the result with the same
set. `handoffLaw_iff` says exactly when the hand-off does what it is for.
-/

open Framework

namespace CompareVI.Standing

/-! ### The labels -/

def FORK_STANDING_PRIORITY_LABEL : String := "fork-standing-priority"

/-- `resolveStandingPriorityLabels`: the labels of the environment, or else the default
ones, which depend on whether the repository has an upstream other than itself. -/
def resolveStandingPriorityLabels (explicit : List String) (hasUpstream : Bool) : List String :=
  let explicitLabels := normalizeStandingPriorityLabels explicit
  if explicitLabels ≠ [] then explicitLabels
  else if hasUpstream then [FORK_STANDING_PRIORITY_LABEL, DEFAULT_STANDING_PRIORITY_LABEL]
  else [DEFAULT_STANDING_PRIORITY_LABEL]

def buildStandingPriorityCleanupLabels (standingPriorityLabels : List String) : List String :=
  (standingPriorityLabels ++
    [DEFAULT_STANDING_PRIORITY_LABEL, FORK_STANDING_PRIORITY_LABEL]).eraseDups

def normalizeIssueLabels (labels : List String) : List String :=
  (labels.map JsString.trim).filter (· ≠ "")

def normalizeLabelSet (labels : List String) : List String :=
  (((normalizeIssueLabels labels).map JsString.toLowerCase).eraseDups).insertionSort (· ≤ ·)

/-! ### The outside -/

/-- An issue as `gh` shows it, with the properties the hand-off reads. -/
structure IssueView where
  number : ℕ
  labels : List String
  deriving DecidableEq, Repr

inductive HandoffQuery where
  /-- `gh issue list --state open --limit 100 --label …`. -/
  | listByLabel (label : String)
  /-- `gh issue list --state open --limit 100`. -/
  | listOpen
  | selectAuto (openIssues : List IssueView) (excludeIssueNumbers : List ℕ)
  /-- `applyIssueLabelsViaApi`: `gh api … -X PATCH` with a set of labels. -/
  | patchLabels (issueNumber : ℕ) (labels : List String)
  /-- `gh issue view`. -/
  | viewIssue (issueNumber : ℕ)
  /-- `syncFn`, which brings the cache up to date. -/
  | sync
  /-- `leaseReleaseFn`. -/
  | releaseLease

def HandoffQuery.Reply : HandoffQuery → Type
  | .listByLabel _ | .listOpen => List IssueView
  | .selectAuto .. => Option ℕ
  | .patchLabels .. => Unit
  | .viewIssue _ => Option IssueView
  | .sync => Unit
  | .releaseLease => Unit

abbrev HandoffM := Prog HandoffQuery fun q => Except String q.Reply

abbrev HandoffQuery.call (q : HandoffQuery) : HandoffM q.Reply := Prog.call q

/-- `parseIssueList`, on what is parsed. -/
def parseIssueList (rows : List IssueView) : List IssueView :=
  rows.map fun row => { row with labels := normalizeIssueLabels row.labels }

/-! ### Planning -/

/-- One round of the inner loop of `collectStandingIssues`. -/
def mergeStandingIssue (issues : List IssueView) (issue : IssueView) : List IssueView :=
  if issues.any (·.number = issue.number) then
    issues.map fun existing =>
      if existing.number = issue.number then
        { issue with labels := (existing.labels ++ issue.labels).eraseDups }
      else existing
  else issues ++ [issue]

/-- The outer loop of `collectStandingIssues`. -/
def collectIssues : List String → List IssueView → HandoffM (List IssueView)
  | [], issues => pure issues
  | label :: labels, issues => do
    let rows ← HandoffQuery.call (.listByLabel label)
    collectIssues labels ((parseIssueList rows).foldl mergeStandingIssue issues)

def collectStandingIssues (standingPriorityLabels : List String) : HandoffM (List IssueView) := do
  let issues ← collectIssues standingPriorityLabels []
  pure (issues.insertionSort fun left right => left.number ≤ right.number)

def parseTarget (target : String) : Except String ℕ :=
  if target.toList.all Char.isDigit then
    match JsString.numberOfDigits target.toList with
    | some (n + 1) => .ok (n + 1)
    | _ => .error ("Issue number must be a positive integer (> 0), received: " ++ target)
  else .error ("Issue number must be digits only (received: " ++ target ++ ")")

/-- `resolveTargetIssue`: an explicit number, or an automatic selection, which may be
empty. -/
def resolveTargetIssue (nextIssue : Option String) (auto : Bool) (openIssues : List IssueView)
    (excludedIssueNumbers : List ℕ) : HandoffM (Option ℕ) :=
  let target := JsString.trim (nextIssue.getD "")
  if target ≠ "" then some <$> Prog.ofExcept (parseTarget target)
  else if !auto then
    .fail "Next standing priority issue number is required unless --auto is specified."
  else HandoffQuery.call (.selectAuto openIssues excludedIssueNumbers)

def removeLabelsOf (cleanupLabels : List String) (issue : IssueView) : List String :=
  cleanupLabels.filter fun label => issue.labels.contains label

def removeTargets (cleanupLabels : List String) (currentIssues : List IssueView)
    (target : Option ℕ) : List IssueView :=
  currentIssues.filter fun issue =>
    some issue.number ≠ target && removeLabelsOf cleanupLabels issue ≠ []

def targetRemoveLabels (cleanupLabels : List String) (primaryLabel : String) :
    Option IssueView → List String
  | some issue => cleanupLabels.filter fun label =>
      label ≠ primaryLabel && issue.labels.contains label
  | none => []

/-- `targetNeedsPrimaryLabel`, for a target that there is. -/
def targetNeedsPrimaryLabel (primaryLabel : String) : Option IssueView → Bool
  | some issue => !issue.labels.contains primaryLabel
  | none => true

/-! ### Writing -/

def verifyIssueLabels (issueNumber : ℕ) (expectedLabels : List String) : HandoffM Unit := do
  let row ← HandoffQuery.call (.viewIssue issueNumber)
  let actual := normalizeLabelSet ((row.map (·.labels)).getD [])
  let expected := normalizeLabelSet expectedLabels
  if actual ≠ expected then
    .fail ("Issue #" ++ toString issueNumber ++ " label verification failed. Expected [" ++
      JsString.join ", " expected ++ "], observed [" ++ JsString.join ", " actual ++ "].")
  else pure ()

def writeLabels (issueNumber : ℕ) (desiredLabels : List String) : HandoffM Unit := do
  HandoffQuery.call (.patchLabels issueNumber desiredLabels)
  verifyIssueLabels issueNumber desiredLabels

def keptLabels (cleanupLabels : List String) (issue : IssueView) : List String :=
  (normalizeIssueLabels issue.labels).filter fun label =>
    !(removeLabelsOf cleanupLabels issue).contains label

/-- The loop over `removeTargets`. -/
def writeRemovals (cleanupLabels : List String) : List IssueView → HandoffM Unit
  | [] => pure ()
  | issue :: issues => do
    writeLabels issue.number (keptLabels cleanupLabels issue)
    writeRemovals cleanupLabels issues

def targetLabels (cleanupLabels : List String) (primaryLabel : String)
    (targetIssue : Option IssueView) : List String :=
  (((normalizeIssueLabels ((targetIssue.map (·.labels)).getD [])).filter fun label =>
      !(targetRemoveLabels cleanupLabels primaryLabel targetIssue).contains label) ++
    (if targetNeedsPrimaryLabel primaryLabel targetIssue then [primaryLabel] else [])).filter
      (· ≠ "")

def writeTarget (cleanupLabels : List String) (primaryLabel : String)
    (currentIssues : List IssueView) : Option ℕ → HandoffM Unit
  | none => pure ()
  | some number =>
    let targetIssue := currentIssues.find? (·.number = number)
    if targetRemoveLabels cleanupLabels primaryLabel targetIssue ≠ [] ∨
        targetNeedsPrimaryLabel primaryLabel targetIssue = true then
      writeLabels number (targetLabels cleanupLabels primaryLabel targetIssue)
    else pure ()

def listCandidates (auto : Bool) : HandoffM (List IssueView) :=
  if auto then parseIssueList <$> HandoffQuery.call .listOpen else pure []

/-- What follows the writes: the synchronisation, and the lease. A lease that cannot be
released is only reported. -/
def finishHandoff (releaseLease : Bool) (target : Option ℕ) : HandoffM (Option ℕ) := do
  HandoffQuery.call .sync
  if releaseLease then Prog.query .releaseLease >>= fun _ => pure target else pure target

structure HandoffOptions where
  /-- `nextIssue`. -/
  nextIssue : Option String
  auto : Bool
  dryRun : Bool
  releaseLease : Bool
  deriving DecidableEq, Repr

/-- `handoffStandingPriority`, with the target it has decided on as its result. -/
def handoffStandingPriority (standingPriorityLabels : List String) (o : HandoffOptions) :
    HandoffM (Option ℕ) := do
  let primaryLabel := standingPriorityLabels.headD ""
  let cleanupLabels := buildStandingPriorityCleanupLabels standingPriorityLabels
  let currentIssues ← collectStandingIssues cleanupLabels
  let openIssues ← listCandidates o.auto
  let target ← resolveTargetIssue o.nextIssue o.auto openIssues (currentIssues.map (·.number))
  if o.dryRun then pure target
  else do
    writeRemovals cleanupLabels (removeTargets cleanupLabels currentIssues target)
    writeTarget cleanupLabels primaryLabel currentIssues target
    finishHandoff o.releaseLease target

/-! ### The repository the hand-off works on -/

variable {names : LabelNames}

/-- An issue as `gh` shows it. -/
def Issue.view (issue : Issue names) : IssueView := ⟨issue.number, issue.labels⟩

@[simp] theorem Issue.view_number (issue : Issue names) : issue.view.number = issue.number := rfl

@[simp] theorem Issue.view_labels (issue : Issue names) : issue.view.labels = issue.labels := rfl

/-- The tracker as a service. Any call may fail, and a replacement of labels may fail after it
was made. The automatic selection may choose any issue, and the synchronisation, a program
of its own, leaves the labels alone. -/
def trackerService (names : LabelNames) :
    Service (Tracker names) fun q => Except String (HandoffQuery.Reply q) :=
  fun tracker q => match q with
    | .listByLabel label => fun a after =>
      after = tracker ∧ ∀ rows, a = .ok rows → rows = (tracker.listByLabel label).map Issue.view
    | .listOpen => fun a after =>
      after = tracker ∧ ∀ rows, a = .ok rows → rows = tracker.listOpen.map Issue.view
    | .selectAuto _ _ => fun _ after => after = tracker
    | .patchLabels number labels => fun a after =>
      match a with
      | .ok _ => (∃ issue ∈ tracker.issues, issue.number = number) ∧
          after = tracker.patchLabels number labels
      | .error _ => after = tracker ∨ after = tracker.patchLabels number labels
    | .viewIssue number => fun a after =>
      after = tracker ∧ ∀ row, a = .ok row → row = (tracker.issue? number).map Issue.view
    | .sync => fun _ after => after = tracker
    | .releaseLease => fun _ after => after = tracker

/-! ### The law of the hand-off -/

def IsStanding (cleanupLabels : List String) (label : String) : Prop :=
  labelKey label ∈ cleanupLabels

instance (cleanupLabels : List String) (label : String) :
    Decidable (IsStanding cleanupLabels label) :=
  inferInstanceAs (Decidable (_ ∈ _))

def carriers (cleanupLabels : List String) (tracker : Tracker names) : ℕ :=
  tracker.issues.countP fun issue => issue.labels.any fun label => IsStanding cleanupLabels label

def HandoffQuery.IsWrite : HandoffQuery → Prop
  | .patchLabels .. => True
  | _ => False

/-- What the hand-off is for: the target carries the primary standing label and no other, no
other open issue carries a standing label, and every other label is where it was. -/
structure HandedOn (cleanupLabels : List String) (primaryLabel : String) (target : Option ℕ)
    (before after : Tracker names) : Prop where
  given : ∀ number, target = some number → ∃ issue ∈ after.issues, issue.number = number ∧
    issue.carries primaryLabel = true ∧
    ∀ label ∈ issue.labels, IsStanding cleanupLabels label → labelKey label = labelKey primaryLabel
  cleared : ∀ issue ∈ after.issues, issue.isOpen = true → target ≠ some issue.number →
    ∀ label ∈ issue.labels, ¬ IsStanding cleanupLabels label
  frame : ∀ label, ¬ IsStanding cleanupLabels label → ∀ number,
    (∃ issue ∈ after.issues, issue.number = number ∧ label ∈ issue.labels) ↔
      ∃ issue ∈ before.issues, issue.number = number ∧ label ∈ issue.labels

/-- The hand-off did what it is for, and at every write no more issues carried a standing
label than before the run. -/
def HandoffLaw (standingPriorityLabels : List String) (target : Option ℕ)
    (calls : List (Call (Tracker names) fun q => Except String (HandoffQuery.Reply q)))
    (before after : Tracker names) : Prop :=
  HandedOn (buildStandingPriorityCleanupLabels standingPriorityLabels)
      (standingPriorityLabels.headD "") target before after ∧
    ∀ call ∈ calls, call.query.IsWrite →
      carriers (buildStandingPriorityCleanupLabels standingPriorityLabels) call.state ≤
        carriers (buildStandingPriorityCleanupLabels standingPriorityLabels) before

/-- The issue is in the list made at the start. -/
def Listed (cleanupLabels : List String) (tracker : Tracker names) (issue : Issue names) : Prop :=
  ∃ label ∈ cleanupLabels, issue ∈ tracker.listByLabel label

/-- When the hand-off does what it is for: every other open issue that carries a standing
label is in the list, and spells it as the labels in use do; a target in the list spells its
other standing labels so; and a target that is not in the list has no label to lose. -/
structure HandoffReady (cleanupLabels : List String) (primaryLabel : String) (target : Option ℕ)
    (before : Tracker names) : Prop where
  others : ∀ issue ∈ before.issues, issue.isOpen = true → target ≠ some issue.number →
    ∀ label ∈ issue.labels, IsStanding cleanupLabels label →
      label ∈ cleanupLabels ∧ Listed cleanupLabels before issue
  listed : ∀ issue ∈ before.issues, target = some issue.number →
    Listed cleanupLabels before issue → ∀ label ∈ issue.labels,
      IsStanding cleanupLabels label → labelKey label ≠ primaryLabel → label ∈ cleanupLabels
  unlisted : ∀ issue ∈ before.issues, target = some issue.number →
    ¬ Listed cleanupLabels before issue → ∀ label ∈ issue.labels, IsStanding cleanupLabels label

/-! ### The labels in use -/

theorem mem_normalizeStandingPriorityLabels {values : List String} {label : String}
    (h : label ∈ normalizeStandingPriorityLabels values) : labelKey label = label ∧ label ≠ "" := by
  unfold normalizeStandingPriorityLabels at h
  rw [List.mem_eraseDups, List.mem_filter, List.mem_map] at h
  obtain ⟨⟨value, -, rfl⟩, hne⟩ := h
  exact ⟨labelKey_labelKey value, by simpa using hne⟩

theorem resolveStandingPriorityLabels_spec (explicit : List String) (hasUpstream : Bool) :
    resolveStandingPriorityLabels explicit hasUpstream ≠ [] ∧
      ∀ label ∈ resolveStandingPriorityLabels explicit hasUpstream,
        labelKey label = label ∧ label ≠ "" := by
  unfold resolveStandingPriorityLabels
  dsimp only
  split
  · next hne => exact ⟨hne, fun label h => mem_normalizeStandingPriorityLabels h⟩
  · cases hasUpstream <;> decide

/-- What the proofs use of the labels in use. -/
structure InUse (cleanupLabels : List String) (primaryLabel : String) : Prop where
  key : ∀ label ∈ cleanupLabels, labelKey label = label
  ne : ∀ label ∈ cleanupLabels, label ≠ ""
  primary : primaryLabel ∈ cleanupLabels

theorem inUse_of_resolve (explicit : List String) (hasUpstream : Bool) :
    InUse (buildStandingPriorityCleanupLabels (resolveStandingPriorityLabels explicit hasUpstream))
      ((resolveStandingPriorityLabels explicit hasUpstream).headD "") := by
  obtain ⟨hne, hlabels⟩ := resolveStandingPriorityLabels_spec explicit hasUpstream
  generalize resolveStandingPriorityLabels explicit hasUpstream = labels at hne hlabels
  have hall : ∀ label ∈ buildStandingPriorityCleanupLabels labels,
      labelKey label = label ∧ label ≠ "" := by
    intro label h
    unfold buildStandingPriorityCleanupLabels at h
    rw [List.mem_eraseDups, List.mem_append] at h
    rcases h with h | h
    · exact hlabels label h
    · exact (by decide : ∀ label ∈ [DEFAULT_STANDING_PRIORITY_LABEL, FORK_STANDING_PRIORITY_LABEL],
        labelKey label = label ∧ label ≠ "") label h
  refine ⟨fun label h => (hall label h).1, fun label h => (hall label h).2, ?_⟩
  unfold buildStandingPriorityCleanupLabels
  rw [List.mem_eraseDups, List.mem_append]
  cases labels with
  | nil => exact absurd rfl hne
  | cons label labels => exact .inl List.mem_cons_self

/-! ### The list made at the start -/

variable {issue : Issue names} {labels : List String}

theorem normalizeIssueLabels_of_sublist (set : LabelSet names) (h : labels.Sublist set.labels) :
    normalizeIssueLabels labels = labels := by
  have htrim : labels.map JsString.trim = labels := by
    refine (List.map_congr_left fun label hlabel => ?_).trans (List.map_id labels)
    exact set.trim_eq (h.subset hlabel)
  unfold normalizeIssueLabels
  rw [htrim]
  refine List.filter_eq_self.mpr fun label hlabel => ?_
  simpa using (set.spelled label (h.subset hlabel)).2

theorem eraseDups_of_nodup (h : labels.Nodup) :
    labels.eraseDups = labels := by
  induction labels with
  | nil => rfl
  | cons label labels ih =>
    obtain ⟨hnot, hrest⟩ := List.nodup_cons.mp h
    have hfilter : labels.filter (fun other => !other == label) = labels := by
      refine List.filter_eq_self.mpr fun other hother => ?_
      have hne : other ≠ label := fun heq => hnot (heq ▸ hother)
      simpa using hne
    rw [List.eraseDups_cons, hfilter, ih hrest]

theorem eraseDups_append_self (h : labels.Nodup) :
    (labels ++ labels).eraseDups = labels := by
  have hnone : labels.removeAll labels = [] := by
    refine List.filter_eq_nil_iff.mpr fun label hlabel => ?_
    simp [hlabel]
  rw [List.eraseDups_append, hnone, List.eraseDups_nil, List.append_nil, eraseDups_of_nodup h]

variable {tracker : Tracker names} {seen : Issue names → Prop} {issues : List IssueView}

/-- A list holds the issues that were seen, each once and as it is. -/
structure Collected (tracker : Tracker names) (seen : Issue names → Prop)
    (issues : List IssueView) : Prop where
  nodup : (issues.map (·.number)).Nodup
  mem : ∀ view, view ∈ issues ↔ ∃ issue ∈ tracker.issues, seen issue ∧ view = issue.view

theorem Collected.merge (h : Collected tracker seen issues) (hissue : issue ∈ tracker.issues) :
    Collected tracker (fun other => seen other ∨ other = issue)
      (mergeStandingIssue issues issue.view) := by
  unfold mergeStandingIssue
  split
  · next hany =>
    obtain ⟨view, hview, hnumber⟩ := List.any_eq_true.mp hany
    rw [decide_eq_true_eq] at hnumber
    obtain ⟨other, hother, hseen, rfl⟩ := (h.mem view).mp hview
    obtain rfl : other = issue := tracker.eq_of_number hother hissue hnumber
    have hkeep : (issues.map fun existing =>
        if existing.number = other.view.number then
          { other.view with labels := (existing.labels ++ other.view.labels).eraseDups }
        else existing) = issues := by
      refine (List.map_congr_left fun existing hexisting => ?_).trans (List.map_id issues)
      split
      · next heq =>
        obtain ⟨old, hold, -, rfl⟩ := (h.mem existing).mp hexisting
        obtain rfl : old = other := tracker.eq_of_number hold hissue heq
        have hlabels : (old.view.labels ++ old.view.labels).eraseDups = old.view.labels :=
          eraseDups_append_self old.labelSet.nodup
        rw [hlabels]
        rfl
      · rfl
    rw [hkeep]
    refine ⟨h.nodup, fun view => (h.mem view).trans ?_⟩
    refine exists_congr fun old => and_congr_right fun _ => and_congr_left fun _ => ?_
    exact ⟨.inl, fun hor => hor.elim id fun heq => heq ▸ hseen⟩
  · next hany =>
    constructor
    · rw [List.map_append]
      refine List.nodup_append.mpr ⟨h.nodup, List.nodup_singleton _, ?_⟩
      intro number hnumber other hother heq
      obtain ⟨view, hview, rfl⟩ := List.mem_map.mp hnumber
      rw [List.mem_singleton.mp hother] at heq
      exact hany (List.any_eq_true.mpr ⟨view, hview, decide_eq_true heq⟩)
    · intro view
      rw [List.mem_append, List.mem_singleton, h.mem]
      constructor
      · rintro (⟨old, hold, hseen, rfl⟩ | rfl)
        · exact ⟨old, hold, .inl hseen, rfl⟩
        · exact ⟨issue, hissue, .inr rfl, rfl⟩
      · rintro ⟨old, hold, hseen | rfl, rfl⟩
        · exact .inl ⟨old, hold, hseen, rfl⟩
        · exact .inr rfl

theorem Collected.congr (h : Collected tracker seen issues) {seen' : Issue names → Prop}
    (hiff : ∀ issue ∈ tracker.issues, seen issue ↔ seen' issue) :
    Collected tracker seen' issues := by
  refine ⟨h.nodup, fun view => (h.mem view).trans ?_⟩
  exact exists_congr fun issue => and_congr_right fun hissue =>
    and_congr_left fun _ => hiff issue hissue

theorem Collected.foldl (rows : List (Issue names)) (hrows : ∀ row ∈ rows, row ∈ tracker.issues)
    (h : Collected tracker seen issues) :
    Collected tracker (fun issue => seen issue ∨ issue ∈ rows)
      ((parseIssueList (rows.map Issue.view)).foldl mergeStandingIssue issues) := by
  induction rows generalizing seen issues with
  | nil => exact h.congr fun issue _ => by simp
  | cons row rows ih =>
    have hrow : { row.view with labels := normalizeIssueLabels row.view.labels } = row.view := by
      rw [IssueView.mk.injEq]
      exact ⟨rfl, normalizeIssueLabels_of_sublist row.labelSet (List.Sublist.refl _)⟩
    have hmerged := h.merge (hrows row List.mem_cons_self)
    have hrest := ih (fun other hother => hrows other (List.mem_cons_of_mem _ hother)) hmerged
    have hstep : (parseIssueList ((row :: rows).map Issue.view)).foldl mergeStandingIssue issues =
        (parseIssueList (rows.map Issue.view)).foldl mergeStandingIssue
          (mergeStandingIssue issues row.view) := by
      unfold parseIssueList
      rw [List.map_cons, List.map_cons, List.foldl_cons, hrow]
    rw [hstep]
    exact hrest.congr fun issue _ => by simp [or_assoc]

theorem Collected.sort (h : Collected tracker seen issues) :
    Collected tracker seen
      (issues.insertionSort fun left right => left.number ≤ right.number) := by
  have hperm := List.perm_insertionSort (fun left right : IssueView => left.number ≤ right.number)
    issues
  refine ⟨(hperm.map _).nodup_iff.mpr h.nodup, fun view => ?_⟩
  rw [hperm.mem_iff]
  exact h.mem view

theorem Collected.find? (h : Collected tracker seen issues) (hissue : issue ∈ tracker.issues) :
    (seen issue → issues.find? (·.number = issue.number) = some issue.view) ∧
      (¬ seen issue → issues.find? (·.number = issue.number) = none) := by
  constructor
  · intro hseen
    have hmem : issue.view ∈ issues := (h.mem _).mpr ⟨issue, hissue, hseen, rfl⟩
    cases hfind : issues.find? (·.number = issue.number) with
    | none =>
      have hnone := List.find?_eq_none.mp hfind issue.view hmem
      exact absurd (decide_eq_true rfl) hnone
    | some view =>
      have hnumber : view.number = issue.number := by simpa using List.find?_some hfind
      obtain ⟨old, hold, -, rfl⟩ := (h.mem view).mp (List.mem_of_find?_eq_some hfind)
      rw [tracker.eq_of_number hold hissue hnumber]
  · intro hnot
    refine List.find?_eq_none.mpr fun view hview hnumber => hnot ?_
    obtain ⟨old, hold, hseen, rfl⟩ := (h.mem view).mp hview
    have heq : old = issue := tracker.eq_of_number hold hissue (of_decide_eq_true hnumber)
    exact heq ▸ hseen

/-- What a program of the hand-off may ask: a replacement of labels only while no more than
so many issues carry a standing label. -/
def WriteGuard (cleanupLabels : List String) (limit : ℕ) (tracker : Tracker names)
    (q : HandoffQuery) : Prop :=
  q.IsWrite → carriers cleanupLabels tracker ≤ limit

theorem returns_collectIssues (limit : ℕ) (cleanupLabels labels : List String)
    (h : Collected tracker seen issues) :
    Returns (trackerService names) (WriteGuard cleanupLabels limit)
      (fun after rows => after = tracker ∧ Collected tracker
        (fun issue => seen issue ∨ ∃ label ∈ labels, issue ∈ tracker.listByLabel label) rows)
      tracker (collectIssues labels issues) := by
  induction labels generalizing seen issues with
  | nil =>
    rw [collectIssues]
    exact returns_pure ⟨rfl, h.congr fun issue _ => by simp⟩
  | cons label labels ih =>
    rw [collectIssues]
    refine (returns_call (fun hwrite => hwrite.elim) fun rows after hserve => hserve).bind ?_
    rintro after rows ⟨rfl, hrows⟩
    obtain rfl := hrows rows rfl
    have hlisted : ∀ row ∈ after.listByLabel label, row ∈ after.issues := fun row hrow =>
      List.mem_of_mem_filter (List.mem_of_mem_take hrow)
    refine (ih (h.foldl _ hlisted)).mono fun last rows ⟨hlast, hcollected⟩ => ?_
    refine ⟨hlast, hcollected.congr fun issue _ => ?_⟩
    simp only [List.mem_cons, exists_eq_or_imp, or_assoc]

/-! ### The writes -/

def paredLabels (cleanupLabels : List String) (issue : Issue names) : LabelSet names :=
  LabelSet.of names (issue.labels.filter fun label => label ∉ cleanupLabels)

theorem labels_paredLabels (cleanupLabels : List String) (issue : Issue names) :
    (paredLabels cleanupLabels issue).labels =
      issue.labels.filter fun label => label ∉ cleanupLabels :=
  issue.labelSet.labels_of_sublist List.filter_sublist

theorem keptLabels_view (cleanupLabels : List String) (issue : Issue names) :
    keptLabels cleanupLabels issue.view =
      issue.labels.filter fun label => label ∉ cleanupLabels := by
  have hlabels : normalizeIssueLabels issue.view.labels = issue.labels :=
    normalizeIssueLabels_of_sublist issue.labelSet (List.Sublist.refl _)
  unfold keptLabels removeLabelsOf
  rw [hlabels]
  refine List.filter_congr fun label hlabel => ?_
  simp [hlabel]

theorem paredLabels_of_removeLabels_nil {cleanupLabels : List String}
    (h : removeLabelsOf cleanupLabels issue.view = []) :
    paredLabels cleanupLabels issue = issue.labelSet := by
  have hkeep : (issue.labels.filter fun label => label ∉ cleanupLabels) = issue.labels := by
    refine List.filter_eq_self.mpr fun label hlabel => ?_
    have hnot := List.filter_eq_nil_iff.mp h
    have hmem : label ∈ issue.view.labels := hlabel
    have hclean : label ∉ cleanupLabels := fun hin => hnot label hin (by simpa using hmem)
    simpa using hclean
  refine LabelSet.ext ?_
  rw [labels_paredLabels, hkeep]
  rfl

theorem carriers_relabel_le (cleanupLabels : List String) (tracker : Tracker names)
    {f : Issue names → LabelSet names} (hf : ∀ issue, (f issue).labels ⊆ issue.labels) :
    carriers cleanupLabels (tracker.relabel f) ≤ carriers cleanupLabels tracker := by
  unfold carriers Tracker.relabel Tracker.change
  rw [List.countP_map]
  refine List.countP_mono_left fun issue _ hany => ?_
  obtain ⟨label, hlabel, hstanding⟩ := List.any_eq_true.mp hany
  exact List.any_eq_true.mpr ⟨label, hf issue hlabel, hstanding⟩

/-- The repository after the labels of the issues with these numbers were replaced. -/
def paredTracker (cleanupLabels : List String) (before : Tracker names) (done : List ℕ) :
    Tracker names :=
  before.relabel fun issue =>
    if issue.number ∈ done then paredLabels cleanupLabels issue else issue.labelSet

theorem carriers_paredTracker_le (cleanupLabels : List String) (before : Tracker names)
    (done : List ℕ) :
    carriers cleanupLabels (paredTracker cleanupLabels before done) ≤
      carriers cleanupLabels before := by
  refine carriers_relabel_le cleanupLabels before fun issue => ?_
  split
  · rw [labels_paredLabels]
    exact List.filter_sublist.subset
  · exact List.Subset.refl _

theorem patchLabels_relabel (before : Tracker names) (f : Issue names → LabelSet names)
    (number : ℕ) (requested : List String) :
    (before.relabel f).patchLabels number requested =
      before.relabel fun issue =>
        if issue.number = number then LabelSet.of names requested else f issue := by
  refine Tracker.ext ?_
  change (before.issues.map _).map _ = before.issues.map _
  rw [List.map_map]
  rfl

theorem patchLabels_paredTracker (cleanupLabels : List String) (before : Tracker names)
    (done : List ℕ) (hissue : issue ∈ before.issues) :
    (paredTracker cleanupLabels before done).patchLabels issue.number
        (keptLabels cleanupLabels issue.view) =
      paredTracker cleanupLabels before (done ++ [issue.number]) := by
  unfold paredTracker
  rw [patchLabels_relabel]
  refine before.relabel_congr fun other hother => ?_
  by_cases heq : other.number = issue.number
  · obtain rfl := before.eq_of_number hother hissue heq
    rw [if_pos rfl, if_pos (List.mem_append_right _ (List.mem_singleton_self _)), keptLabels_view]
    rfl
  · rw [if_neg heq]
    have hmem : other.number ∈ done ++ [issue.number] ↔ other.number ∈ done := by simp [heq]
    simp only [hmem]

variable {limit : ℕ} {cleanupLabels : List String} {before : Tracker names}

theorem returns_writeLabels (tracker : Tracker names) (number : ℕ) (desired : List String)
    (hlimit : carriers cleanupLabels tracker ≤ limit) :
    Returns (trackerService names) (WriteGuard cleanupLabels limit)
      (fun after _ => after = tracker.patchLabels number desired ∧
        ∃ issue ∈ tracker.issues, issue.number = number)
      tracker (writeLabels number desired) := by
  refine (returns_call (fun _ => hlimit) fun _ after hserve => hserve).bind ?_
  rintro after - ⟨hexists, rfl⟩
  refine (returns_call (fun hwrite => hwrite.elim) fun row last hserve => hserve.1).bind ?_
  rintro last row rfl
  dsimp only
  split
  · exact returns_fail _
  · exact returns_pure ⟨rfl, hexists⟩

theorem returns_writeRemovals (done : List ℕ) (issues : List IssueView)
    (hissues : ∀ view ∈ issues, ∃ issue ∈ before.issues, view = issue.view) :
    Returns (trackerService names) (WriteGuard cleanupLabels (carriers cleanupLabels before))
      (fun after _ => after = paredTracker cleanupLabels before (done ++ issues.map (·.number)))
      (paredTracker cleanupLabels before done) (writeRemovals cleanupLabels issues) := by
  induction issues generalizing done with
  | nil =>
    rw [writeRemovals]
    refine returns_pure ?_
    rw [List.map_nil, List.append_nil]
  | cons view views ih =>
    obtain ⟨issue, hissue, rfl⟩ := hissues view List.mem_cons_self
    rw [writeRemovals]
    have hlimit := carriers_paredTracker_le cleanupLabels before done
    refine (returns_writeLabels _ issue.number _ hlimit).bind ?_
    rintro after - ⟨rfl, -⟩
    rw [patchLabels_paredTracker cleanupLabels before done hissue]
    have hrest := ih (done ++ [issue.number]) fun other hother =>
      hissues other (List.mem_cons_of_mem _ hother)
    refine hrest.mono fun last _ hlast => ?_
    rw [hlast, List.map_cons, List.append_assoc]
    rfl

/-! ### The whole run -/

open Classical in
/-- The repository as a hand-off leaves it, from the one it was started on. -/
noncomputable def handedOver (cleanupLabels : List String) (primaryLabel : String)
    (target : Option ℕ) (before : Tracker names) : Tracker names :=
  before.relabel fun issue =>
    if target = some issue.number then
      LabelSet.of names (targetLabels cleanupLabels primaryLabel
        (if Listed cleanupLabels before issue then some issue.view else none))
    else if Listed cleanupLabels before issue then paredLabels cleanupLabels issue
    else issue.labelSet

variable {primaryLabel : String} {target : Option ℕ} {currentIssues : List IssueView}

open Classical in
theorem paredTracker_removeTargets
    (h : Collected before (Listed cleanupLabels before) currentIssues) :
    paredTracker cleanupLabels before
        ((removeTargets cleanupLabels currentIssues target).map (·.number)) =
      before.relabel fun issue =>
        if target ≠ some issue.number ∧ Listed cleanupLabels before issue then
          paredLabels cleanupLabels issue
        else issue.labelSet := by
  refine before.relabel_congr fun issue hissue => ?_
  have hmem : issue.number ∈ (removeTargets cleanupLabels currentIssues target).map (·.number) ↔
      (target ≠ some issue.number ∧ Listed cleanupLabels before issue) ∧
        removeLabelsOf cleanupLabels issue.view ≠ [] := by
    unfold removeTargets
    simp only [List.mem_map, List.mem_filter, Bool.and_eq_true, decide_eq_true_eq]
    constructor
    · rintro ⟨view, ⟨hview, hne, hremove⟩, hnumber⟩
      obtain ⟨old, hold, hlisted, rfl⟩ := (h.mem view).mp hview
      obtain rfl := before.eq_of_number hold hissue hnumber
      exact ⟨⟨fun heq => hne heq.symm, hlisted⟩, hremove⟩
    · rintro ⟨⟨hne, hlisted⟩, hremove⟩
      exact ⟨issue.view, ⟨(h.mem _).mpr ⟨issue, hissue, hlisted, rfl⟩, fun heq => hne heq.symm,
        hremove⟩, rfl⟩
  by_cases hpared : target ≠ some issue.number ∧ Listed cleanupLabels before issue
  · rw [if_pos hpared]
    by_cases hremove : removeLabelsOf cleanupLabels issue.view = []
    · -- nothing to remove, and nothing is written
      rw [if_neg fun hin => (hmem.mp hin).2 hremove, paredLabels_of_removeLabels_nil hremove]
    · rw [if_pos (hmem.mpr ⟨hpared, hremove⟩)]
  · rw [if_neg hpared, if_neg fun hin => hpared (hmem.mp hin).1]

theorem targetLabels_of_settled
    (hremove : targetRemoveLabels cleanupLabels primaryLabel (some issue.view) = [])
    (hneeds : ¬ targetNeedsPrimaryLabel primaryLabel (some issue.view) = true) :
    LabelSet.of names (targetLabels cleanupLabels primaryLabel (some issue.view)) =
      issue.labelSet := by
  have hread : normalizeIssueLabels issue.view.labels = issue.labels :=
    normalizeIssueLabels_of_sublist issue.labelSet (List.Sublist.refl _)
  have hne : issue.labels.filter (· ≠ "") = issue.labels := by
    refine List.filter_eq_self.mpr fun label hlabel => ?_
    simpa using (issue.labelSet.spelled label hlabel).2
  have hlabels : targetLabels cleanupLabels primaryLabel (some issue.view) = issue.labels := by
    unfold targetLabels
    rw [hremove, if_neg hneeds, Option.map_some, Option.getD_some, hread, List.append_nil]
    simpa using hne
  refine LabelSet.ext ?_
  rw [hlabels]
  exact issue.labelSet.labels_of_sublist (List.Sublist.refl _)

theorem returns_writeTarget (h : Collected before (Listed cleanupLabels before) currentIssues) :
    Returns (trackerService names) (WriteGuard cleanupLabels (carriers cleanupLabels before))
      (fun after _ =>
        after = handedOver cleanupLabels primaryLabel target before ∧
        ∀ number, target = some number → ∃ issue ∈ before.issues, issue.number = number)
      (paredTracker cleanupLabels before
        ((removeTargets cleanupLabels currentIssues target).map (·.number)))
      (writeTarget cleanupLabels primaryLabel currentIssues target) := by
  classical
  have hlimit := carriers_paredTracker_le cleanupLabels before
    ((removeTargets cleanupLabels currentIssues target).map (·.number))
  rw [paredTracker_removeTargets h] at hlimit ⊢
  cases target with
  | none =>
    rw [writeTarget]
    refine returns_pure
      ⟨before.relabel_congr fun issue _ => ?_, fun number hnumber => nomatch hnumber⟩
    simp
  | some number =>
    -- what the list says about the target
    have hfind : ∀ issue ∈ before.issues, issue.number = number →
        currentIssues.find? (·.number = number) =
          if Listed cleanupLabels before issue then some issue.view else none := by
      rintro issue hissue rfl
      split
      · next hlisted =>
        exact (h.find? hissue).1 hlisted
      · next hlisted =>
        exact (h.find? hissue).2 hlisted
    unfold writeTarget
    dsimp only
    split
    · refine (returns_writeLabels _ number _ hlimit).mono ?_
      rintro after - ⟨rfl, found, hfound, hnumber⟩
      obtain ⟨issue, hissue, rfl⟩ := Tracker.mem_relabel.mp hfound
      refine ⟨?_, fun other hother => ⟨issue, hissue, hnumber.trans (Option.some.inj hother)⟩⟩
      rw [patchLabels_relabel]
      refine before.relabel_congr fun other hother => ?_
      by_cases heq : other.number = number
      · rw [if_pos heq, if_pos (congrArg some heq.symm), hfind other hother heq]
      · have hne : some number ≠ some other.number := fun hsome =>
          heq (Option.some.inj hsome).symm
        rw [if_neg heq, if_neg hne]
        simp [hne]
    · next hwrite =>
      obtain ⟨hremove, hneeds⟩ := not_or.mp hwrite
      rw [not_not] at hremove
      -- a target that is not in the list needs the primary label
      obtain ⟨view, hview⟩ : ∃ view, currentIssues.find? (·.number = number) = some view := by
        cases hnone : currentIssues.find? (·.number = number) with
        | none =>
          rw [hnone] at hneeds
          exact absurd rfl hneeds
        | some view => exact ⟨view, rfl⟩
      obtain ⟨issue, hissue, hlisted, rfl⟩ :=
        (h.mem view).mp (List.mem_of_find?_eq_some hview)
      have hnumber : issue.number = number := by
        have hfound := List.find?_some hview
        exact of_decide_eq_true hfound
      rw [hview] at hremove hneeds
      refine returns_pure ⟨before.relabel_congr fun other hother => ?_, fun other hother =>
        ⟨issue, hissue, hnumber.trans (Option.some.inj hother)⟩⟩
      by_cases heq : other.number = number
      · obtain rfl := before.eq_of_number hother hissue (heq.trans hnumber.symm)
        rw [if_neg fun hpared => hpared.1 (congrArg some heq.symm),
          if_pos (congrArg some heq.symm), if_pos hlisted]
        exact (targetLabels_of_settled hremove hneeds).symm
      · have hne : some number ≠ some other.number := fun hsome =>
          heq (Option.some.inj hsome).symm
        simp [hne]

theorem returns_listCandidates (auto : Bool) :
    Returns (trackerService names) (WriteGuard cleanupLabels limit) (fun after _ => after = before)
      before (listCandidates auto) := by
  cases auto with
  | false => exact returns_pure rfl
  | true =>
    refine (returns_call (P := fun after _ => after = before) (fun hwrite => hwrite.elim)
      fun _ _ hserve => hserve.1).bind ?_
    exact fun _ _ hafter => returns_pure hafter

section Run

attribute [local irreducible] JsString.trim

theorem returns_resolveTargetIssue (nextIssue : Option String) (auto : Bool)
    (openIssues : List IssueView) (excluded : List ℕ) :
    Returns (trackerService names) (WriteGuard cleanupLabels limit) (fun after _ => after = before)
      before (resolveTargetIssue nextIssue auto openIssues excluded) := by
  unfold resolveTargetIssue
  by_cases hexplicit : JsString.trim (nextIssue.getD "") ≠ ""
  · rw [if_pos hexplicit]
    generalize parseTarget (JsString.trim (nextIssue.getD "")) = parsed
    refine (returns_ofExcept (P := fun after _ => after = before) fun _ _ => rfl).bind ?_
    exact fun _ _ hafter => returns_pure hafter
  rw [if_neg hexplicit]
  cases auto with
  | false => exact returns_fail _
  | true => exact returns_call (fun hwrite => hwrite.elim) fun _ _ hserve => hserve

theorem returns_collectStandingIssues :
    Returns (trackerService names) (WriteGuard cleanupLabels limit)
      (fun after rows => after = before ∧ Collected before (Listed cleanupLabels before) rows)
      before (collectStandingIssues cleanupLabels) := by
  have hstart : Collected before (fun _ => False) [] :=
    ⟨List.nodup_nil, fun view => by simp⟩
  refine (returns_collectIssues limit cleanupLabels cleanupLabels hstart).bind ?_
  rintro after issues ⟨rfl, hcollected⟩
  exact returns_pure ⟨rfl, (hcollected.congr fun issue _ => by simp [Listed]).sort⟩

theorem returns_finishHandoff (releaseLease : Bool) (target : Option ℕ) (tracker : Tracker names) :
    Returns (trackerService names) (WriteGuard cleanupLabels limit)
      (fun after result => after = tracker ∧ result = target) tracker
      (finishHandoff releaseLease target) := by
  refine (returns_call (P := fun after _ => after = tracker) (fun hwrite => hwrite.elim)
    fun _ _ hserve => hserve).bind ?_
  rintro after - rfl
  cases releaseLease with
  | false => exact returns_pure ⟨rfl, rfl⟩
  | true =>
    refine (returns_query (P := fun last _ => last = after) (fun hwrite => hwrite.elim)
      fun _ _ hserve => hserve).bind ?_
    exact fun _ _ hlast => returns_pure ⟨hlast, rfl⟩

/-- **What a hand-off leaves.** A run that returns has handed the repository over. -/
theorem returns_handoffStandingPriority (labels : List String) (o : HandoffOptions)
    (hdry : o.dryRun = false) :
    Returns (trackerService names)
      (WriteGuard (buildStandingPriorityCleanupLabels labels)
        (carriers (buildStandingPriorityCleanupLabels labels) before))
      (fun after target =>
        after = handedOver (buildStandingPriorityCleanupLabels labels) (labels.headD "") target
          before ∧
        ∀ number, target = some number → ∃ issue ∈ before.issues, issue.number = number)
      before (handoffStandingPriority labels o) := by
  unfold handoffStandingPriority
  generalize buildStandingPriorityCleanupLabels labels = cleanupLabels
  generalize labels.headD "" = primaryLabel
  -- up to the writes nothing changes
  refine returns_collectStandingIssues.bind ?_
  rintro after currentIssues ⟨rfl, hlist⟩
  refine (returns_listCandidates o.auto).bind ?_
  rintro last openIssues rfl
  refine (returns_resolveTargetIssue o.nextIssue o.auto openIssues _).bind ?_
  rintro after target rfl
  rw [hdry, if_neg Bool.false_ne_true]
  -- the removals start from the repository as it is
  have hstart : paredTracker cleanupLabels after [] = after := by
    refine (after.relabel_congr fun issue _ => ?_).trans after.relabel_self
    exact if_neg List.not_mem_nil
  have hremovals := @returns_writeRemovals names cleanupLabels after []
    (removeTargets cleanupLabels currentIssues target) fun view hview => by
      obtain ⟨issue, hissue, -, rfl⟩ := (hlist.mem view).mp (List.mem_of_mem_filter hview)
      exact ⟨issue, hissue, rfl⟩
  rw [hstart, List.nil_append] at hremovals
  refine hremovals.bind ?_
  rintro pared - rfl
  refine (returns_writeTarget hlist).bind ?_
  rintro final - ⟨hfinal, hexists⟩
  refine (returns_finishHandoff o.releaseLease target final).mono ?_
  rintro last result ⟨rfl, rfl⟩
  exact ⟨hfinal, hexists⟩

end Run

/-! ### The law and its condition -/

section Law

open Classical in
theorem mem_otherLabels (issue : Issue names) (label : String) :
    label ∈ (if Listed cleanupLabels before issue then paredLabels cleanupLabels issue
        else issue.labelSet).labels ↔
      label ∈ issue.labels ∧ (Listed cleanupLabels before issue → label ∉ cleanupLabels) := by
  split
  · next hlisted => simp [labels_paredLabels, hlisted]
  · next hlisted => exact (and_iff_left fun h => absurd h hlisted).symm

variable (hinUse : InUse cleanupLabels primaryLabel)

include hinUse

theorem InUse.labelKey_spell (names : LabelNames) :
    labelKey (names.spell primaryLabel) = primaryLabel := by
  rw [names.labelKey_spell, hinUse.key _ hinUse.primary]

theorem InUse.spell_ne (names : LabelNames) : names.spell primaryLabel ≠ "" := by
  intro hempty
  have hkey := hinUse.labelKey_spell names
  rw [hempty] at hkey
  exact hinUse.ne _ hinUse.primary hkey.symm

theorem mem_targetLabels_listed (issue : Issue names) (label : String) :
    label ∈ (LabelSet.of names
        (targetLabels cleanupLabels primaryLabel (some issue.view))).labels ↔
      (label ∈ issue.labels ∧ (label ∈ cleanupLabels → label = primaryLabel)) ∨
        (primaryLabel ∉ issue.labels ∧ label = names.spell primaryLabel) := by
  have hread : normalizeIssueLabels issue.view.labels = issue.labels :=
    normalizeIssueLabels_of_sublist issue.labelSet (List.Sublist.refl _)
  have hsent : ∀ name, name ∈ targetLabels cleanupLabels primaryLabel (some issue.view) ↔
      name ≠ "" ∧ ((name ∈ issue.labels ∧ (name ∈ cleanupLabels → name = primaryLabel)) ∨
        (primaryLabel ∉ issue.labels ∧ name = primaryLabel)) := by
    intro name
    unfold targetLabels targetRemoveLabels targetNeedsPrimaryLabel
    rw [Option.map_some, Option.getD_some, hread]
    by_cases hprimary : primaryLabel ∈ issue.labels
    · simp
      tauto
    · simp
      tauto
  rw [LabelSet.mem_of]
  constructor
  · rintro ⟨hne, name, hname, rfl⟩
    obtain ⟨-, ⟨hmem, hkeep⟩ | ⟨hnot, rfl⟩⟩ := (hsent name).mp hname
    · rw [(issue.labelSet.spelled name hmem).1]
      exact .inl ⟨hmem, hkeep⟩
    · exact .inr ⟨hnot, rfl⟩
  · rintro (⟨hmem, hkeep⟩ | ⟨hnot, rfl⟩)
    · obtain ⟨hspell, hne⟩ := issue.labelSet.spelled label hmem
      exact ⟨hne, label, (hsent label).mpr ⟨hne, .inl ⟨hmem, hkeep⟩⟩, hspell⟩
    · exact ⟨hinUse.spell_ne names, primaryLabel,
        (hsent primaryLabel).mpr ⟨hinUse.ne _ hinUse.primary, .inr ⟨hnot, rfl⟩⟩, rfl⟩

theorem mem_targetLabels_unlisted (label : String) :
    label ∈ (LabelSet.of names (targetLabels cleanupLabels primaryLabel none)).labels ↔
      label = names.spell primaryLabel := by
  have hne : primaryLabel ≠ "" := hinUse.ne _ hinUse.primary
  have hsent : targetLabels cleanupLabels primaryLabel none = [primaryLabel] := by
    unfold targetLabels targetRemoveLabels targetNeedsPrimaryLabel normalizeIssueLabels
    simp [hne]
  rw [LabelSet.mem_of, hsent]
  constructor
  · rintro ⟨-, name, hname, rfl⟩
    rw [List.mem_singleton.mp hname]
  · rintro rfl
    exact ⟨hinUse.spell_ne names, primaryLabel, List.mem_singleton_self _, rfl⟩

theorem InUse.not_mem_of_not_isStanding {label : String}
    (h : ¬ IsStanding cleanupLabels label) : label ∉ cleanupLabels :=
  fun hmem => h (by rwa [IsStanding, hinUse.key label hmem])

theorem InUse.isStanding_spell (names : LabelNames) :
    IsStanding cleanupLabels (names.spell primaryLabel) := by
  unfold IsStanding
  rw [hinUse.labelKey_spell names]
  exact hinUse.primary

open Classical in
theorem handedOn_handedOver_iff
    (hexists : ∀ number, target = some number → ∃ issue ∈ before.issues, issue.number = number) :
    HandedOn cleanupLabels primaryLabel target before
        (handedOver cleanupLabels primaryLabel target before) ↔
      HandoffReady cleanupLabels primaryLabel target before := by
  have hkey := hinUse.key _ hinUse.primary
  constructor
  · intro h
    refine ⟨fun issue hissue hopen hne label hlabel hstanding => ?_,
      fun issue hissue htarget hlisted label hlabel hstanding hother => ?_,
      fun issue hissue htarget hunlisted label hlabel => ?_⟩
    · have hclear := h.cleared _ (Tracker.mem_relabel.mpr ⟨issue, hissue, rfl⟩) hopen hne label
      change label ∈ LabelSet.labels _ → _ at hclear
      rw [if_neg hne, mem_otherLabels] at hclear
      by_contra hnot
      exact hclear ⟨hlabel, fun hlisted hin => hnot ⟨hin, hlisted⟩⟩ hstanding
    · obtain ⟨found, hfound, hnumber, -, honly⟩ := h.given issue.number htarget
      obtain ⟨old, hold, rfl⟩ := Tracker.mem_relabel.mp hfound
      obtain rfl := before.eq_of_number hold hissue hnumber
      have honly := honly label
      change label ∈ LabelSet.labels _ → _ at honly
      rw [if_pos htarget, if_pos hlisted, mem_targetLabels_listed hinUse] at honly
      by_contra hnot
      exact hother ((honly (.inl ⟨hlabel, fun hin => absurd hin hnot⟩) hstanding).trans hkey)
    · by_contra hnot
      obtain ⟨found, hfound, hnumber, hmem⟩ :=
        (h.frame label hnot issue.number).mpr ⟨issue, hissue, rfl, hlabel⟩
      obtain ⟨old, hold, rfl⟩ := Tracker.mem_relabel.mp hfound
      obtain rfl := before.eq_of_number hold hissue hnumber
      change label ∈ LabelSet.labels _ at hmem
      rw [if_pos htarget, if_neg hunlisted, mem_targetLabels_unlisted hinUse] at hmem
      rw [hmem] at hnot
      exact hnot (hinUse.isStanding_spell names)
  · intro h
    refine ⟨fun number htarget => ?_, fun found hfound hopen hne label hlabel hstanding => ?_,
      fun label hother number => ⟨?_, ?_⟩⟩
    · obtain ⟨issue, hissue, rfl⟩ := hexists number htarget
      refine ⟨_, Tracker.mem_relabel.mpr ⟨issue, hissue, rfl⟩, rfl, ?_⟩
      rw [Issue.carries, List.any_eq_true]
      change (∃ label ∈ LabelSet.labels _, _) ∧ ∀ label ∈ LabelSet.labels _, _
      rw [if_pos htarget]
      split
      · next hlisted =>
        constructor
        · by_cases hprimary : primaryLabel ∈ issue.labels
          · exact ⟨primaryLabel, (mem_targetLabels_listed hinUse issue _).mpr
              (.inl ⟨hprimary, fun _ => rfl⟩), decide_eq_true rfl⟩
          · exact ⟨names.spell primaryLabel, (mem_targetLabels_listed hinUse issue _).mpr
              (.inr ⟨hprimary, rfl⟩), decide_eq_true (names.labelKey_spell primaryLabel)⟩
        · intro label hlabel hstanding
          rcases (mem_targetLabels_listed hinUse issue label).mp hlabel with
            ⟨hmem, hkeep⟩ | ⟨-, rfl⟩
          · by_contra hne
            rw [hkey] at hne
            have hclean := h.listed issue hissue htarget hlisted label hmem hstanding hne
            rw [hkeep hclean] at hne
            exact hne hkey
          · exact names.labelKey_spell primaryLabel
      · refine ⟨⟨_, (mem_targetLabels_unlisted hinUse _).mpr rfl,
          decide_eq_true (names.labelKey_spell primaryLabel)⟩, fun label hlabel _ => ?_⟩
        rw [(mem_targetLabels_unlisted hinUse label).mp hlabel]
        exact names.labelKey_spell primaryLabel
    · obtain ⟨issue, hissue, rfl⟩ := Tracker.mem_relabel.mp hfound
      change target ≠ some issue.number at hne
      change label ∈ LabelSet.labels _ at hlabel
      rw [if_neg hne, mem_otherLabels] at hlabel
      obtain ⟨hin, hlisted⟩ := h.others issue hissue hopen hne label hlabel.1 hstanding
      exact hlabel.2 hlisted hin
    · rintro ⟨found, hfound, rfl, hmem⟩
      obtain ⟨issue, hissue, rfl⟩ := Tracker.mem_relabel.mp hfound
      refine ⟨issue, hissue, rfl, ?_⟩
      change label ∈ LabelSet.labels _ at hmem
      by_cases htarget : target = some issue.number
      · rw [if_pos htarget] at hmem
        by_cases hlisted : Listed cleanupLabels before issue
        · rw [if_pos hlisted, mem_targetLabels_listed hinUse] at hmem
          rcases hmem with ⟨hmem, -⟩ | ⟨-, rfl⟩
          · exact hmem
          · exact absurd (hinUse.isStanding_spell names) hother
        · rw [if_neg hlisted, mem_targetLabels_unlisted hinUse] at hmem
          rw [hmem] at hother
          exact absurd (hinUse.isStanding_spell names) hother
      · rw [if_neg htarget, mem_otherLabels] at hmem
        exact hmem.1
    · rintro ⟨issue, hissue, rfl, hmem⟩
      refine ⟨_, Tracker.mem_relabel.mpr ⟨issue, hissue, rfl⟩, rfl, ?_⟩
      have hnot := hinUse.not_mem_of_not_isStanding hother
      change label ∈ LabelSet.labels _
      by_cases htarget : target = some issue.number
      · rw [if_pos htarget]
        by_cases hlisted : Listed cleanupLabels before issue
        · rw [if_pos hlisted, mem_targetLabels_listed hinUse]
          exact .inl ⟨hmem, fun hin => absurd hin hnot⟩
        · exact absurd (h.unlisted issue hissue htarget hlisted label hmem) hother
      · rw [if_neg htarget, mem_otherLabels]
        exact ⟨hmem, fun _ => hnot⟩

end Law

/-- **The law of the hand-off.** A run that returns does what a hand-off is for exactly if the
repository was ready for it. -/
theorem handoffLaw_iff (explicit : List String) (hasUpstream : Bool) (o : HandoffOptions)
    (hdry : o.dryRun = false) (before after : Tracker names)
    (calls : List (Call (Tracker names) fun q => Except String (HandoffQuery.Reply q)))
    (hrun : Executes (trackerService names) before
      (handoffStandingPriority (resolveStandingPriorityLabels explicit hasUpstream) o) calls after
      (.ok target)) :
    HandoffLaw (resolveStandingPriorityLabels explicit hasUpstream) target calls before after ↔
      HandoffReady
        (buildStandingPriorityCleanupLabels (resolveStandingPriorityLabels explicit hasUpstream))
        ((resolveStandingPriorityLabels explicit hasUpstream).headD "") target before := by
  obtain ⟨hguard, hend⟩ := (returns_handoffStandingPriority
    (resolveStandingPriorityLabels explicit hasUpstream) o hdry).executes hrun
  obtain ⟨rfl, hexists⟩ := hend target rfl
  rw [← handedOn_handedOver_iff (inUse_of_resolve explicit hasUpstream) hexists]
  exact and_iff_left hguard

/-! ### Two hand-offs -/

/-- The tracker when no call fails and the first open issue is selected. -/
def serveTracker (names : LabelNames) (tracker : Tracker names) :
    (q : HandoffQuery) → Except String q.Reply × Tracker names
  | .listByLabel label => (.ok ((tracker.listByLabel label).map Issue.view), tracker)
  | .listOpen => (.ok (tracker.listOpen.map Issue.view), tracker)
  | .selectAuto _ _ => (.ok (tracker.listOpen.head?.map Issue.number), tracker)
  | .patchLabels number labels =>
    if ∃ issue ∈ tracker.issues, issue.number = number then
      (.ok (), tracker.patchLabels number labels)
    else (.error "HTTP 404", tracker)
  | .viewIssue number => (.ok ((tracker.issue? number).map Issue.view), tracker)
  | .sync => (.ok (), tracker)
  | .releaseLease => (.ok (), tracker)

theorem trackerService_serveTracker (tracker : Tracker names) (q : HandoffQuery) :
    trackerService names tracker q (serveTracker names tracker q).1
      (serveTracker names tracker q).2 := by
  cases q with
  | listByLabel label => exact ⟨rfl, fun rows hrows => (Except.ok.inj hrows).symm⟩
  | listOpen => exact ⟨rfl, fun rows hrows => (Except.ok.inj hrows).symm⟩
  | selectAuto openIssues excludeIssueNumbers => exact rfl
  | patchLabels number labels =>
    dsimp only [serveTracker]
    split
    · next hfound =>
      exact ⟨hfound, rfl⟩
    · exact .inl rfl
  | viewIssue number => exact ⟨rfl, fun row hrow => (Except.ok.inj hrow).symm⟩
  | sync => exact rfl
  | releaseLease => exact rfl

def twoIssues (labels : List String) : Tracker LabelNames.lower where
  issues := [⟨1, true, LabelSet.of _ ["standing-priority"], []⟩,
    ⟨2, true, LabelSet.of _ labels, []⟩]
  nodup := (by decide : [1, 2].Nodup)

/-- `--next 2`. -/
def nextIssueTwo : HandoffOptions := ⟨some "2", false, false, false⟩

def handoffToTwo (labels : List String) :=
  (handoffStandingPriority (resolveStandingPriorityLabels [] false) nextIssueTwo).execute
    (serveTracker LabelNames.lower) (twoIssues labels)

theorem executes_handoffToTwo (labels : List String) :
    Executes (trackerService LabelNames.lower) (twoIssues labels)
      (handoffStandingPriority (resolveStandingPriorityLabels [] false) nextIssueTwo)
      (handoffToTwo labels).1 (handoffToTwo labels).2.1 (handoffToTwo labels).2.2 := by
  exact executes_execute _ trackerService_serveTracker _ _

/-- The hand-off to an issue without labels. -/
theorem handoffLaw_unlabelled :
    HandoffLaw ["standing-priority"] (some 2) (handoffToTwo []).1 (twoIssues [])
      (handoffToTwo []).2.1 := by
  refine (handoffLaw_iff [] false nextIssueTwo rfl _ _ _ (executes_handoffToTwo [])).mpr ?_
  have hlisted : Listed (buildStandingPriorityCleanupLabels ["standing-priority"]) (twoIssues [])
      ⟨1, true, LabelSet.of _ ["standing-priority"], []⟩ :=
    ⟨"standing-priority", List.mem_of_elem_eq_true rfl, List.mem_singleton.mpr rfl⟩
  refine ⟨fun issue hissue _ hne label hlabel _ => ?_,
    fun issue hissue htarget _ label hlabel => ?_, fun issue hissue htarget _ label hlabel => ?_⟩
  all_goals rcases List.mem_pair.mp hissue with rfl | rfl
  · rw [List.mem_singleton.mp hlabel]
    exact ⟨List.mem_of_elem_eq_true rfl, hlisted⟩
  · exact absurd rfl hne
  · exact absurd (Option.some.inj htarget) (by decide)
  · exact absurd hlabel List.not_mem_nil
  · exact absurd (Option.some.inj htarget) (by decide)
  · exact absurd hlabel List.not_mem_nil

/-- The hand-off to an issue with a label of its own erases the label. -/
theorem not_handoffLaw_labelled :
    ¬ ∀ (o : HandoffOptions) (target : Option ℕ) (before after : Tracker LabelNames.lower)
      (calls : List (Call (Tracker LabelNames.lower) fun q =>
        Except String (HandoffQuery.Reply q))),
      o.dryRun = false →
      Executes (trackerService LabelNames.lower) before
        (handoffStandingPriority (resolveStandingPriorityLabels [] false) o) calls after
        (.ok target) →
      HandoffLaw (resolveStandingPriorityLabels [] false) target calls before after := by
  intro h
  have hlaw := h nextIssueTwo (some 2) _ _ _ rfl (executes_handoffToTwo ["bug"])
  have hbug : ¬ IsStanding (buildStandingPriorityCleanupLabels ["standing-priority"]) "bug" :=
    fun hmem => absurd (List.elem_eq_true_of_mem hmem) (by decide)
  obtain ⟨issue, hissue, -, hmem⟩ := (hlaw.1.frame "bug" hbug 2).mpr
    ⟨⟨2, true, LabelSet.of _ ["bug"], []⟩, List.mem_pair.mpr (.inr rfl), rfl,
      List.mem_of_elem_eq_true rfl⟩
  -- The list made at the start does not hold #2, so what was sent is the primary label alone.
  have hgone : (handoffToTwo ["bug"]).2.1.issues.all (fun found => !found.labels.contains "bug") =
      true := rfl
  have hnot := List.all_eq_true.mp hgone issue hissue
  rw [List.contains_iff_mem.mpr hmem] at hnot
  exact Bool.noConfusion hnot

end CompareVI.Standing
