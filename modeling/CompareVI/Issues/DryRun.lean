import CompareVI.Issues.Convergence

/-!
# What a dry run predicts

A dry run of the router names the writes that it leaves out, by a case analysis of its own
(`dryRunAction`). For a decision that opens or updates an issue the applied run makes just
these writes (`writes_of_canonical`): that an issue was reopened does not change what it lacks.

A comment is another matter. The dry run passes without an issue to comment on, where the
applied run fails, and it does not say that a closed issue is reopened. `predicts_iff` says
that nothing else goes wrong.
-/

open Framework

namespace CompareVI.IssueRouter

attribute [local irreducible] JsString.trim

variable {collation : Comparison String} {i : RouterInput} {gh : Tracker} {route : Route}
  {issue : Issue}

def reportOf (collation : Comparison String) (i : RouterInput) (gh : Tracker) (dryRun : Bool) :
    RouterReport :=
  (runIssueRouter collation { i with dryRun := dryRun } gh).1

def namedWrites (action : String) : Option (List WriteAction) :=
  ([("noop", []), ("would-noop", []), ("would-create", [.create]), ("would-update", [.update]),
    ("would-reopen", [.reopen]), ("would-reopen-update", [.reopen, .update]),
    ("would-comment", [.comment])].find? fun entry => entry.1 = action).map (·.2)

/-- Where the dry run passes, the applied run passes and makes the writes that it named. -/
def Predicts (collation : Comparison String) (i : RouterInput) (gh : Tracker) : Prop :=
  (reportOf collation i gh true).pass = true →
    (reportOf collation i gh false).pass = true ∧
      namedWrites (reportOf collation i gh true).action =
        some (reportOf collation i gh false).writeActions

/-! ### Decisions that open or update -/

theorem writes_of_canonical (h : issue ∈ gh.issues)
    (hcanonical : canonicalIssue collation gh route.marker =
      some (normalizeIssue collation issue)) :
    ∃ applied, applyRoute collation route i gh = .ok applied ∧
      applied.writeActions = (if issue.isOpen then [] else [.reopen]) ++
        if needsIssuePatch (normalizeIssue collation issue) (route.desired i.generated) then
          [.update] else [] := by
  by_cases hopen : issue.isOpen = true
  · have hreopen : (if (normalizeIssue collation issue).isOpen then
        pure ⟨normalizeIssue collation issue, [], gh⟩ else
        Applied.send collation ⟨normalizeIssue collation issue, [], gh⟩ .reopen .reopen) =
          Except.ok (⟨normalizeIssue collation issue, [], gh⟩ : Applied) := if_pos hopen
    rw [applyRoute_of_reopened hcanonical hreopen, if_pos hopen]
    split
    · rw [send_eq h]
      exact ⟨_, rfl, rfl⟩
    · exact ⟨_, rfl, rfl⟩
  · have hreopen : (if (normalizeIssue collation issue).isOpen then
        pure ⟨normalizeIssue collation issue, [], gh⟩ else
        Applied.send collation ⟨normalizeIssue collation issue, [], gh⟩ .reopen .reopen) =
          Except.ok (⟨normalizeIssue collation (Patch.reopen.apply issue), [.reopen],
            gh.patched issue.number .reopen⟩ : Applied) :=
      (if_neg hopen).trans (send_eq h [] .reopen .reopen)
    -- the comparison that follows sees the same content as the one before
    rw [applyRoute_of_reopened hcanonical hreopen, if_neg hopen, needsIssuePatch_reopen]
    split
    · rw [send_eq (replaces_patched h .reopen).mem]
      exact ⟨_, rfl, rfl⟩
    · exact ⟨_, rfl, rfl⟩

theorem namedWrites_dryRunAction (htype : route.decision.type ≠ .comment) (generated : String) :
    namedWrites (dryRunAction route generated (some issue)) =
      some ((if issue.isOpen then [] else [.reopen]) ++
        if needsIssuePatch issue (route.desired generated) then [.update] else []) := by
  unfold dryRunAction
  dsimp only
  rw [decide_eq_true htype, Bool.true_and, if_neg htype]
  cases hopen : issue.isOpen with
  | true =>
    rw [if_neg fun h => Bool.false_ne_true h.1]
    cases needsIssuePatch issue (route.desired generated) <;> decide
  | false =>
    rw [if_pos ⟨rfl, htype⟩]
    cases needsIssuePatch issue (route.desired generated) <;> decide

theorem dryRunAction_none (hcomment : route.decision.type ≠ .comment)
    (hnoop : route.decision.type ≠ .noop) (hpause : route.decision.type ≠ .pauseQueue)
    (generated : String) : dryRunAction route generated none = "would-create" := by
  unfold dryRunAction
  refine if_pos ?_
  cases htype : route.decision.type with
  | openIssue => exact .inl rfl
  | updateIssue => exact .inr rfl
  | comment => exact absurd htype hcomment
  | pauseQueue => exact absurd htype hpause
  | noop => exact absurd htype hnoop

/-! ### The law -/

section Law

variable (hroute : routeOf collation i = .ok route)

include hroute

theorem reportOf_dry (gh : Tracker) (hnoop : route.decision.type ≠ .noop)
    (hpause : route.decision.type ≠ .pauseQueue) :
    (reportOf collation i gh true).pass = true ∧ (reportOf collation i gh true).action =
      dryRunAction route i.generated (canonicalIssue collation gh route.marker) := by
  have hroute' : routeOf collation { i with dryRun := true } = .ok route := hroute
  rw [reportOf, runIssueRouter, hroute']
  dsimp only
  rw [if_neg (not_or.mpr ⟨hnoop, hpause⟩), if_pos rfl]
  exact ⟨rfl, rfl⟩

theorem reportOf_applied (gh : Tracker) (hnoop : route.decision.type ≠ .noop)
    (hpause : route.decision.type ≠ .pauseQueue) {applied : Except String Applied}
    (happlied : (if route.decision.type = .comment then applyComment collation route gh
      else applyRoute collation route { i with dryRun := false } gh) = applied) :
    ((reportOf collation i gh false).pass = true ↔ ∃ a, applied = .ok a) ∧
      ∀ a, applied = .ok a → (reportOf collation i gh false).writeActions = a.writeActions := by
  have hroute' : routeOf collation { i with dryRun := false } = .ok route := hroute
  rw [reportOf, runIssueRouter, hroute']
  dsimp only
  rw [if_neg (not_or.mpr ⟨hnoop, hpause⟩), if_neg Bool.false_ne_true, happlied]
  cases applied with
  | error message =>
    refine ⟨iff_of_false Bool.false_ne_true ?_, ?_⟩
    · rintro ⟨a, ha⟩
      cases ha
    · rintro a ⟨⟩
  | ok applied =>
    refine ⟨iff_of_true rfl ⟨applied, rfl⟩, ?_⟩
    rintro a ⟨⟩
    rfl

theorem predicts_comment_iff (htype : route.decision.type = .comment) :
    Predicts collation i gh ↔
      ∃ issue, canonicalIssue collation gh route.marker = some issue ∧ issue.isOpen = true := by
  have hnoop : route.decision.type ≠ .noop := by rw [htype]; decide
  have hpause : route.decision.type ≠ .pauseQueue := by rw [htype]; decide
  obtain ⟨hpass, haction⟩ := reportOf_dry hroute gh hnoop hpause
  obtain ⟨happlied, hwrites⟩ := reportOf_applied hroute gh hnoop hpause (if_pos htype)
  rw [Predicts, haction, happlied]
  cases hcanonical : canonicalIssue collation gh route.marker with
  | none =>
    refine iff_of_false (fun h => ?_) ?_
    · obtain ⟨a, ha⟩ := (h hpass).1
      rw [applyComment, hcanonical] at ha
      cases ha
    · rintro ⟨issue, hsome, -⟩
      cases hsome
  | some found =>
    obtain ⟨issue, hmarked, rfl, -⟩ := canonicalIssue_eq_some_iff.mp hcanonical
    have hdry : namedWrites (dryRunAction route i.generated
        (some (normalizeIssue collation issue))) = some [.comment] := by
      have haction : dryRunAction route i.generated (some (normalizeIssue collation issue)) =
          "would-comment" := by
        unfold dryRunAction
        dsimp only
        rw [if_neg fun h => h.2 htype, if_pos htype]
      rw [haction]
      decide
    rw [hdry]
    cases hopen : (normalizeIssue collation issue).isOpen with
    | true =>
      have hrun : applyComment collation route gh =
          .ok ⟨normalizeIssue collation issue, [.comment], gh⟩ := by
        rw [applyComment, hcanonical]
        dsimp only
        rw [if_pos hopen]
        rfl
      exact iff_of_true (fun _ => ⟨⟨_, hrun⟩, by rw [hwrites _ hrun]⟩)
        ⟨normalizeIssue collation issue, rfl, hopen⟩
    | false =>
      have hrun : applyComment collation route gh =
          .ok ⟨normalizeIssue collation (Patch.reopen.apply issue), [.reopen, .comment],
            gh.patched issue.number .reopen⟩ := by
        rw [applyComment, hcanonical]
        dsimp only
        rw [if_neg (Bool.eq_false_iff.mp hopen), send_eq hmarked.1]
        rfl
      refine iff_of_false (fun h => ?_) ?_
      · have hnamed := (h hpass).2
        rw [hwrites _ hrun] at hnamed
        cases hnamed
      · rintro ⟨other, hsome, hother⟩
        rw [← Option.some.inj hsome, hopen] at hother
        cases hother

theorem predicts_route (hcomment : route.decision.type ≠ .comment)
    (hnoop : route.decision.type ≠ .noop) (hpause : route.decision.type ≠ .pauseQueue) :
    Predicts collation i gh := by
  obtain ⟨hpass, haction⟩ := reportOf_dry hroute gh hnoop hpause
  obtain ⟨happlied, hwrites⟩ := reportOf_applied hroute gh hnoop hpause (if_neg hcomment)
  intro _
  rw [haction, happlied]
  cases hcanonical : canonicalIssue collation gh route.marker with
  | none =>
    have hrun := applyRoute_eq_created (i := { i with dryRun := false })
      (labels_of_routeOf hroute) hcanonical
    refine ⟨⟨_, hrun⟩, ?_⟩
    rw [hwrites _ hrun, dryRunAction_none hcomment hnoop hpause]
    rfl
  | some found =>
    obtain ⟨issue, hmarked, rfl, -⟩ := canonicalIssue_eq_some_iff.mp hcanonical
    obtain ⟨applied, hrun, hactions⟩ :=
      writes_of_canonical (i := { i with dryRun := false }) hmarked.1 hcanonical
    refine ⟨⟨applied, hrun⟩, ?_⟩
    rw [hwrites applied hrun, hactions, namedWrites_dryRunAction hcomment]
    rfl

theorem predicts_silent
    (htype : route.decision.type = .noop ∨ route.decision.type = .pauseQueue) :
    Predicts collation i gh := by
  have hreport : ∀ dryRun, reportOf collation i gh dryRun =
      ⟨true, [], none, "noop", none, false, [], true⟩ := by
    intro dryRun
    have hroute' : routeOf collation { i with dryRun := dryRun } = .ok route := hroute
    rw [reportOf, runIssueRouter, hroute']
    dsimp only
    rw [if_pos htype]
  intro _
  rw [hreport, hreport]
  exact ⟨rfl, rfl⟩

end Law

/-- **A dry run predicts the applied run** exactly if it is not about a comment for which there is
no open issue. -/
theorem predicts_iff (collation : Comparison String) (i : RouterInput) (gh : Tracker) :
    Predicts collation i gh ↔
      ∀ route, routeOf collation i = .ok route → route.decision.type = .comment →
        ∃ issue, canonicalIssue collation gh route.marker = some issue ∧ issue.isOpen = true := by
  cases hroute : routeOf collation i with
  | error message =>
    refine iff_of_true (fun hpass => ?_) (fun _ h => nomatch h)
    have hroute' : routeOf collation { i with dryRun := true } = .error message := hroute
    rw [reportOf, runIssueRouter, hroute'] at hpass
    exact absurd hpass Bool.false_ne_true
  | ok route =>
    have hunique : (∀ route', Except.ok route = (.ok route' : Except String Route) →
        route'.decision.type = .comment → ∃ issue,
          canonicalIssue collation gh route'.marker = some issue ∧ issue.isOpen = true) ↔
        (route.decision.type = .comment → ∃ issue,
          canonicalIssue collation gh route.marker = some issue ∧ issue.isOpen = true) := by
      refine ⟨fun h => h route rfl, ?_⟩
      rintro h route' ⟨⟩
      exact h
    rw [hunique]
    by_cases hcomment : route.decision.type = .comment
    · rw [predicts_comment_iff hroute hcomment]
      exact ⟨fun h _ => h, fun h => h hcomment⟩
    · refine iff_of_true ?_ fun h => absurd h hcomment
      by_cases hsilent : route.decision.type = .noop ∨ route.decision.type = .pauseQueue
      · exact predicts_silent hroute hsilent
      · rw [not_or] at hsilent
        exact predicts_route hroute hcomment hsilent.1 hsilent.2

/-! ### A comment without an issue -/

/-- A decision to comment on the issue of the fingerprint `abc`. -/
def commentInput : RouterInput :=
  { abcInput with
    decisionPayload := some (.obj [
      ("decision", .obj [("type", .str "comment")]),
      ("event", .obj [("fingerprint", .str "abc")])]) }

theorem not_predicts_comment : ¬ Predicts byCharacters commentInput emptyTracker := by
  intro h
  have hpass : (reportOf byCharacters commentInput emptyTracker true).pass = true := by
    decide +kernel
  have hfails : (reportOf byCharacters commentInput emptyTracker false).pass = false := by
    decide +kernel
  exact Bool.false_ne_true (hfails.symm.trans (h hpass).1)

end CompareVI.IssueRouter
