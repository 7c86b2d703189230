import CompareVI.Standing.SelectLaw

/-!
# Whether the queue is empty

When no issue carries a standing label, `classifyNoStandingPriorityCondition` says whether the
queue is empty or a label is missing, and the sync goes on to select an issue only in the second
case. Its predicate `hasOnlyIneligibleOpenIssues` is written apart from the selection.

Without exclusions the two agree but for two things. A list on which nothing can be selected
counts as one on which a label is missing as soon as an issue carries one of the labels
`duplicate`, `invalid` and `wontfix`. And a cadence alert may be selected while issues are blocked
behind parents (`AlertBehindParents`), although the queue counts as empty then.
-/

open Framework

namespace CompareVI.Standing
namespace Select

variable {parseDate : String → Option ℤ} {entries : List OpenIssue} {issue other : Candidate}

/-! ### The classification -/

/-- `hasOnlyIneligibleOpenIssues`, without exclusions. -/
def hasOnlyIneligibleOpenIssues (entries : List OpenIssue) : Bool :=
  let normalizedAll := entries.filterMap normalizeOpenIssueCandidate
  if normalizedAll = [] then false
  else if hasOnlyBlockedConcreteIssuesBehindFallbackParent entries [] then true
  else
    normalizedAll.all fun entry =>
      entry.standingExcluded ||
        (!entry.excluded && (entry.outOfScope || entry.blocked || entry.passiveTracker))

inductive NoStandingReason where
  | queueEmpty
  | labelMissing
  deriving DecidableEq, Repr

/-- What `classifyNoStandingPriorityCondition` says of the open issues it has listed. -/
def classifyOpenIssues (entries : List OpenIssue) : NoStandingReason :=
  if entries = [] then .queueEmpty
  else if hasOnlyIneligibleOpenIssues entries then .queueEmpty
  else .labelMissing

/-- The queue counts as empty exactly when no candidate is found. -/
def Agrees (parseDate : String → Option ℤ) (entries : List OpenIssue) : Prop :=
  classifyOpenIssues entries = .queueEmpty ↔
    selectAutoStandingPriorityCandidate parseDate entries [] = none

/-- Issues are blocked behind parents, and a cadence alert that is concrete comes first: all
that could be selected beside alerts are epics, and if there are any, the alert is sorted ahead
of them. -/
def AlertBehindParents (parseDate : String → Option ℤ) (entries : List OpenIssue) : Prop :=
  hasOnlyBlockedConcreteIssuesBehindFallbackParent entries [] = true ∧
    (∀ other ∈ selectable entries [], other.cadence = false → other.epic = true) ∧
      ∃ alert ∈ selectable entries [], alert.isParent = false ∧
        ((∃ other ∈ selectable entries [], other.cadence = false) →
          ((poolOrder parseDate).sort (selectable entries [])).head? = some alert)

/-! ### Behind parents -/

/-- While issues are blocked behind parents, whatever is concrete and can be selected is an
alert. -/
theorem cadence_of_behind
    (hbehind : hasOnlyBlockedConcreteIssuesBehindFallbackParent entries [] = true)
    (hissue : issue ∈ selectable entries []) (hconcrete : issue.isParent = false) :
    issue.cadence = true := by
  obtain ⟨-, hnone, -⟩ := behind_eq_true_iff.mp hbehind
  have hblocked : issue.blocked = false := (mem_selectable.mp hissue).2.2.2.2.1
  have hscope : issue ∈ inScope entries [] := by
    obtain ⟨hmem, hflags⟩ := List.mem_filter.mp hissue
    refine List.mem_filter.mpr ⟨hmem, ?_⟩
    simp only [Bool.and_eq_true] at hflags
    exact hflags.1.1
  have hnot := hnone issue hscope
  unfold Candidate.isParent at hconcrete
  simp only [Bool.or_eq_false_iff] at hconcrete
  simpa [Candidate.concreteActionable, hblocked, hconcrete.1.1, hconcrete.1.2] using hnot

theorem exists_first (parseDate : String → Option ℤ) {normalized : List Candidate}
    (hne : normalized ≠ []) : ∃ first,
      ((poolOrder parseDate).sort (poolOf normalized)).head? = some first ∧
        first ∈ poolOf normalized := by
  cases hhead : ((poolOrder parseDate).sort (poolOf normalized)).head? with
  | none =>
    have hperm := (poolOrder parseDate).sort_perm (poolOf normalized)
    rw [List.head?_eq_none_iff.mp hhead] at hperm
    exact absurd (poolOf_eq_nil_iff.mp hperm.nil_eq.symm) hne
  | some first => exact ⟨first, rfl, (Comparison.le_of_head?_sort _ hhead).1⟩

/-- **What is selected while issues are blocked behind parents** is an alert. -/
theorem select_of_behind
    (hbehind : hasOnlyBlockedConcreteIssuesBehindFallbackParent entries [] = true) :
    selectAutoStandingPriorityCandidate parseDate entries [] ≠ none ↔
      AlertBehindParents parseDate entries := by
  rw [AlertBehindParents, and_iff_right hbehind, Option.ne_none_iff_exists']
  constructor
  · rintro ⟨issue, hselect⟩
    obtain ⟨hhead, hkept⟩ := select_eq_some_iff.mp hselect
    rw [hbehind, Bool.and_true] at hkept
    have hpool := (Comparison.le_of_head?_sort _ hhead).1
    have hissue := poolOf_subset hpool
    have hcadence := cadence_of_behind hbehind hissue hkept
    by_cases hfalls : FallsBack (selectable entries [])
    · rw [poolOf_of_fallsBack hfalls] at hhead
      exact ⟨hfalls.2, issue, hissue, hkept, fun _ => hhead⟩
    · -- the pool is the first rank, which is one of alerts
      have hall : ∀ other ∈ selectable entries [], other.cadence = true := by
        intro other hother
        by_contra hnot
        have hle := ((mem_poolOf hfalls).mp hpool).2 other hother
        have hrank := (rank_lt_iff other).mpr (Bool.eq_false_of_not_eq_true hnot)
        exact Bool.false_ne_true
          (((rank_lt_iff issue).mp (hle.trans_lt hrank)).symm.trans hcadence)
      refine ⟨fun other hother hnot => ?_, issue, hissue, hkept, ?_⟩
      · exact absurd (hnot.symm.trans (hall other hother)) Bool.false_ne_true
      · rintro ⟨other, hother, hnot⟩
        exact absurd (hnot.symm.trans (hall other hother)) Bool.false_ne_true
  · rintro ⟨hepic, alert, halert, hconcrete, hfirst⟩
    by_cases hsome : ∃ other ∈ selectable entries [], other.cadence = false
    · refine ⟨alert, select_eq_some_iff.mpr ⟨?_, by rw [hconcrete, Bool.false_and]⟩⟩
      rw [poolOf_of_fallsBack ⟨hsome, hepic⟩]
      exact hfirst hsome
    · -- there are only alerts, and a concrete one is among the first rank
      have hnot : ¬ FallsBack (selectable entries []) := fun hfalls => hsome hfalls.1
      have hall : ∀ other ∈ selectable entries [], other.cadence = true := fun other hother =>
        Bool.eq_true_of_not_eq_false fun hfalse => hsome ⟨other, hother, hfalse⟩
      obtain ⟨first, hhead, hpool⟩ := exists_first parseDate (List.ne_nil_of_mem halert)
      obtain ⟨hfirst, hleast⟩ := (mem_poolOf hnot).mp hpool
      have hle := hleast alert halert
      unfold Candidate.rank at hle
      rw [hall first hfirst, hall alert halert, (isParent_eq_false_iff alert).mp hconcrete] at hle
      have hkind : first.isParent = false := (isParent_eq_false_iff first).mpr (by omega)
      exact ⟨first, select_eq_some_iff.mpr ⟨hhead, by rw [hkind, Bool.false_and]⟩⟩

/-! ### The two predicates -/

theorem excluded_of_standingExcluded
    (hissue : issue ∈ entries.filterMap normalizeOpenIssueCandidate)
    (h : issue.standingExcluded = true) : issue.excluded = true := by
  obtain ⟨entry, -, hread⟩ := List.mem_filterMap.mp hissue
  unfold normalizeOpenIssueCandidate at hread
  split_ifs at hread
  rw [← Option.some.inj hread] at h ⊢
  exact List.any_eq_true.mpr ⟨STANDING_EXCLUDED_LABEL, List.contains_iff_mem.mp h, by decide⟩

theorem select_eq_none_iff
    (hbehind : hasOnlyBlockedConcreteIssuesBehindFallbackParent entries [] = false) :
    selectAutoStandingPriorityCandidate parseDate entries [] = none ↔
      ∀ issue ∈ entries.filterMap normalizeOpenIssueCandidate, issue.excluded = true ∨
        issue.outOfScope = true ∨ issue.blocked = true ∨ issue.passiveTracker = true := by
  have hselectable : selectable entries [] = [] ↔
      ∀ issue ∈ entries.filterMap normalizeOpenIssueCandidate, issue.excluded = true ∨
        issue.outOfScope = true ∨ issue.blocked = true ∨ issue.passiveTracker = true := by
    rw [List.eq_nil_iff_forall_not_mem]
    refine forall_congr' fun issue => ?_
    rw [mem_selectable]
    cases issue.excluded <;> cases issue.outOfScope <;> cases issue.blocked <;> simp
  rw [← hselectable]
  constructor
  · intro hnone
    by_contra hne
    obtain ⟨first, hhead, -⟩ := exists_first parseDate hne
    have hselect := select_eq_some_iff.mpr ⟨hhead, by rw [hbehind, Bool.and_false]⟩
    exact Option.some_ne_none first (hselect.symm.trans hnone)
  · intro hnil
    unfold selectAutoStandingPriorityCandidate
    rw [hnil]
    rfl

/-- **What the classification says** but for alerts beside issues that are blocked behind
parents: the queue is empty if no issue is open, or if no candidate is found and, unless issues
are blocked behind parents, only those issues carry an excluded label that are excluded from
standing. -/
theorem classifyOpenIssues_iff (h : ¬ AlertBehindParents parseDate entries) :
    classifyOpenIssues entries = .queueEmpty ↔
      entries = [] ∨ (entries.filterMap normalizeOpenIssueCandidate ≠ [] ∧
        selectAutoStandingPriorityCandidate parseDate entries [] = none ∧
        (hasOnlyBlockedConcreteIssuesBehindFallbackParent entries [] = true ∨
          ∀ issue ∈ entries.filterMap normalizeOpenIssueCandidate, issue.excluded = true →
            issue.standingExcluded = true)) := by
  have hclassify : classifyOpenIssues entries = .queueEmpty ↔
      entries = [] ∨ hasOnlyIneligibleOpenIssues entries = true := by
    unfold classifyOpenIssues
    split_ifs <;> simp_all
  rw [hclassify]
  refine or_congr_right ?_
  unfold hasOnlyIneligibleOpenIssues
  dsimp only
  split_ifs with hnil hbehind
  · exact iff_of_false not_false fun hall => hall.1 hnil
  · have hnone : selectAutoStandingPriorityCandidate parseDate entries [] = none :=
      not_not.mp (mt (select_of_behind hbehind).mp h)
    exact iff_of_true rfl ⟨hnil, hnone, .inl hbehind⟩
  · rw [and_iff_right hnil, select_eq_none_iff (Bool.eq_false_of_not_eq_true hbehind),
      or_iff_right hbehind, List.all_eq_true, ← forall₂_and]
    refine forall₂_congr fun issue hissue => ?_
    have hexcluded := excluded_of_standingExcluded hissue
    simp only [Bool.or_eq_true, Bool.and_eq_true, Bool.not_eq_true', or_assoc]
    cases hflag : issue.excluded with
    | true => simp
    | false =>
      have hstanding : ¬ issue.standingExcluded = true := fun htrue =>
        Bool.false_ne_true (hflag.symm.trans (hexcluded htrue))
      simp [hstanding]

/-! ### Labels that exclude -/

def seedIssue : OpenIssue :=
  { number := 1467, title := some "Add a licensed sample", labels := ["standing-excluded"] }

def duplicateIssue : OpenIssue :=
  { number := 980, title := some "[P1] duplicate backlog item", labels := ["duplicate"] }

/-- The queue is empty if the only issue is excluded from standing. -/
theorem classifyOpenIssues_seedIssue : classifyOpenIssues [seedIssue] = .queueEmpty := by
  have hbehind : hasOnlyBlockedConcreteIssuesBehindFallbackParent [seedIssue] [] = false := by
    decide +kernel
  have halert : ¬ AlertBehindParents (fun _ => none) [seedIssue] := fun h =>
    Bool.false_ne_true (hbehind.symm.trans h.1)
  have hne : ([seedIssue].filterMap normalizeOpenIssueCandidate).isEmpty = false := by
    decide +kernel
  have hstanding : ([seedIssue].filterMap normalizeOpenIssueCandidate).all
      (·.standingExcluded) = true := by decide +kernel
  have hnone : (selectAutoStandingPriorityCandidate (fun _ => none) [seedIssue] []).isNone =
      true := by decide +kernel
  refine (classifyOpenIssues_iff halert).mpr (.inr ⟨?_, Option.isNone_iff_eq_none.mp hnone, ?_⟩)
  · exact List.isEmpty_eq_false_iff.mp hne
  · exact .inr fun issue hissue _ => List.all_eq_true.mp hstanding issue hissue

/-- A label is missing although no issue could receive it. -/
theorem not_agrees_duplicateIssue : ¬ Agrees (fun _ => none) [duplicateIssue] := by
  intro hagrees
  have hmissing : classifyOpenIssues [duplicateIssue] = .labelMissing := by decide +kernel
  have hnone : (selectAutoStandingPriorityCandidate (fun _ => none) [duplicateIssue] []).isNone =
      true := by decide +kernel
  have hempty := hagrees.mpr (Option.isNone_iff_eq_none.mp hnone)
  rw [hmissing] at hempty
  cases hempty

end Select
end CompareVI.Standing
