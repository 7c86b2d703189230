import CompareVI.Standing.Select

/-!
# The law of the selection

The cascade of pools takes the candidates of the first rank (`mem_poolOf`), unless it falls back
to all of them (`FallsBack`), and the sort puts the only least one first. Everything the law says
is read off these two facts (`select_eq_some_iff`).
-/

open Framework

namespace CompareVI.Standing
namespace Select

variable {parseDate : String → Option ℤ} {entries : List OpenIssue} {excludeIssueNumbers : List ℤ}
variable {normalized : List Candidate} {issue other : Candidate}

/-! ### What the selection is for -/

def Candidate.kind (entry : Candidate) : ℕ :=
  if entry.epic then 3 else if entry.umbrella then 2 else if entry.program then 1 else 0

def Candidate.rank (entry : Candidate) : ℕ := (if entry.cadence then 4 else 0) + entry.kind

/-- **The selection law.** -/
structure SelectionLaw (parseDate : String → Option ℤ) (entries : List OpenIssue)
    (excludeIssueNumbers : List ℤ) : Prop where
  orderFree : ∀ entries', entries'.Perm entries →
    selectAutoStandingPriorityCandidate parseDate entries' excludeIssueNumbers =
      selectAutoStandingPriorityCandidate parseDate entries excludeIssueNumbers
  /-- The issue is an open one that may be selected. -/
  eligible : ∀ issue,
    selectAutoStandingPriorityCandidate parseDate entries excludeIssueNumbers = some issue →
    issue ∈ entries.filterMap normalizeOpenIssueCandidate ∧ issue.excluded = false ∧
      (issue.number : ℤ) ∉ excludeIssueNumbers ∧ issue.outOfScope = false ∧
      issue.blocked = false ∧ issue.passiveTracker = false
  /-- It is no alert while there is something else. -/
  nonCadence : ∀ issue,
    selectAutoStandingPriorityCandidate parseDate entries excludeIssueNumbers = some issue →
    (∃ other ∈ selectable entries excludeIssueNumbers, other.cadence = false) →
    issue.cadence = false
  /-- It is no parent while there is concrete work. -/
  concrete : ∀ issue,
    selectAutoStandingPriorityCandidate parseDate entries excludeIssueNumbers = some issue →
    (∃ other ∈ selectable entries excludeIssueNumbers, other.cadence = false ∧
      other.isParent = false) →
    issue.isParent = false
  least : ∀ issue,
    selectAutoStandingPriorityCandidate parseDate entries excludeIssueNumbers = some issue →
    issue ∈ selectable entries excludeIssueNumbers ∧
      ∀ other ∈ selectable entries excludeIssueNumbers, issue.rank ≤ other.rank ∧
        (other.rank = issue.rank → (poolOrder parseDate).le issue other = true)

/-- All that is left beside alerts are epics. -/
def FallsBack (normalized : List Candidate) : Prop :=
  (∃ entry ∈ normalized, entry.cadence = false) ∧
    ∀ entry ∈ normalized, entry.cadence = false → entry.epic = true

/-- An alert is the least of all candidates, beside alerts there are only epics, and the alert
is not given up. -/
def AlertWins (parseDate : String → Option ℤ) (entries : List OpenIssue)
    (excludeIssueNumbers : List ℤ) : Prop :=
  FallsBack (selectable entries excludeIssueNumbers) ∧
    ∃ alert ∈ selectable entries excludeIssueNumbers, alert.cadence = true ∧
      (∀ other ∈ selectable entries excludeIssueNumbers,
        (poolOrder parseDate).le alert other = true) ∧
      (alert.isParent && hasOnlyBlockedConcreteIssuesBehindFallbackParent entries
        excludeIssueNumbers) = false

/-! ### The cascade -/

theorem kind_le (entry : Candidate) : entry.kind ≤ 3 := by
  unfold Candidate.kind
  split_ifs <;> omega

theorem rank_lt_iff (entry : Candidate) : entry.rank < 4 ↔ entry.cadence = false := by
  have hkind := kind_le entry
  unfold Candidate.rank
  cases entry.cadence with
  | true => simp
  | false => exact iff_of_true (by simpa using Nat.lt_succ_of_le hkind) rfl

theorem rank_of_epic {entry : Candidate} (hcadence : entry.cadence = false)
    (hepic : entry.epic = true) : entry.rank = 3 := by
  simp [Candidate.rank, Candidate.kind, hcadence, hepic]

theorem isParent_eq_false_iff (entry : Candidate) : entry.isParent = false ↔ entry.kind = 0 := by
  unfold Candidate.isParent Candidate.kind
  cases entry.epic <;> cases entry.umbrella <;> cases entry.program <;> simp

variable {pool : List Candidate}

theorem mem_level {n : ℕ} (hlow : ∀ entry ∈ pool, n ≤ entry.kind)
    (hsome : ∃ entry ∈ pool, entry.kind ≤ n) :
    (issue ∈ pool ∧ issue.kind ≤ n) ↔
      issue ∈ pool ∧ ∀ entry ∈ pool, issue.kind ≤ entry.kind := by
  refine and_congr_right fun hissue => ⟨fun hkind entry hentry => ?_, fun hleast => ?_⟩
  · exact hkind.trans (hlow entry hentry)
  · obtain ⟨entry, hentry, hkind⟩ := hsome
    exact (hleast entry hentry).trans hkind

theorem mem_filters (pool : List Candidate) (issue : Candidate) :
    (issue ∈ pool.filter (fun entry => !entry.epic) ↔ issue ∈ pool ∧ issue.kind ≤ 2) ∧
    (issue ∈ (pool.filter fun entry => !entry.epic).filter (fun entry => !entry.umbrella) ↔
      issue ∈ pool ∧ issue.kind ≤ 1) ∧
    (issue ∈ ((pool.filter fun entry => !entry.epic).filter
        fun entry => !entry.umbrella).filter (fun entry => !entry.program) ↔
      issue ∈ pool ∧ issue.kind ≤ 0) := by
  simp only [List.mem_filter, and_assoc]
  refine ⟨and_congr_right fun _ => ?_, and_congr_right fun _ => ?_, and_congr_right fun _ => ?_⟩
  all_goals
    unfold Candidate.kind
    cases issue.epic <;> cases issue.umbrella <;> cases issue.program <;> simp

theorem mem_cadencePool : issue ∈ cadencePool normalized ↔
    issue ∈ normalized ∧
      ((∃ entry ∈ normalized, entry.cadence = false) → issue.cadence = false) := by
  unfold cadencePool
  by_cases hsome : ∃ entry ∈ normalized, entry.cadence = false
  · have hne : (normalized.filter fun entry => !entry.cadence) ≠ [] := by
      obtain ⟨entry, hentry, hcadence⟩ := hsome
      exact List.ne_nil_of_mem (List.mem_filter.mpr ⟨hentry, by simp [hcadence]⟩)
    rw [if_pos hne, List.mem_filter, Bool.not_eq_true']
    simp [hsome]
  · have hnil : (normalized.filter fun entry => !entry.cadence) = [] :=
      List.filter_eq_nil_iff.mpr fun entry hentry hcadence =>
        hsome ⟨entry, hentry, Bool.not_eq_true' _ ▸ hcadence⟩
    rw [if_neg (not_not_intro hnil)]
    simp [hsome]

theorem mem_poolOf_kind (h : ¬ FallsBack normalized) : issue ∈ poolOf normalized ↔
    issue ∈ cadencePool normalized ∧
      ∀ entry ∈ cadencePool normalized, issue.kind ≤ entry.kind := by
  have hlevels := mem_filters (cadencePool normalized)
  -- a pool that is not empty is a level, one that is empty pushes all kinds up
  have hlevel : ∀ (n : ℕ) (pool : List Candidate),
      (∀ entry, entry ∈ pool ↔ entry ∈ cadencePool normalized ∧ entry.kind ≤ n) →
      (pool = [] → ∀ entry ∈ cadencePool normalized, n + 1 ≤ entry.kind) ∧
      (pool ≠ [] → ∃ entry ∈ cadencePool normalized, entry.kind ≤ n) := by
    intro n pool hpool
    constructor
    · rintro rfl entry hentry
      by_contra hlt
      exact List.not_mem_nil ((hpool entry).mpr ⟨hentry, by omega⟩)
    · intro hne
      obtain ⟨entry, hentry⟩ := List.exists_mem_of_ne_nil _ hne
      exact ⟨entry, (hpool entry).mp hentry⟩
  obtain ⟨hnil2, hsome2⟩ := hlevel 2 _ fun entry => (hlevels entry).1
  obtain ⟨hnil1, hsome1⟩ := hlevel 1 _ fun entry => (hlevels entry).2.1
  obtain ⟨hnil0, hsome0⟩ := hlevel 0 _ fun entry => (hlevels entry).2.2
  obtain ⟨hmem2, hmem1, hmem0⟩ := hlevels issue
  unfold poolOf
  dsimp only
  split_ifs with h0 h1 h2
  · exact hmem0.trans (mem_level (fun _ _ => Nat.zero_le _) (hsome0 h0))
  · exact hmem1.trans (mem_level (hnil0 (not_not.mp h0)) (hsome1 h1))
  · exact hmem2.trans (mem_level (hnil1 (not_not.mp h1)) (hsome2 h2))
  · -- only epics are left, so there are only alerts
    have hepic := hnil2 (not_not.mp h2)
    have hno : ¬ ∃ entry ∈ normalized, entry.cadence = false := by
      refine fun hsome => h ⟨hsome, fun entry hentry hcadence => ?_⟩
      have hkind := hepic entry (mem_cadencePool.mpr ⟨hentry, fun _ => hcadence⟩)
      unfold Candidate.kind at hkind
      split_ifs at hkind with hepic
      · exact hepic
      all_goals omega
    have hpool : issue ∈ cadencePool normalized ↔ issue ∈ normalized := by
      rw [mem_cadencePool, and_iff_left fun hsome => absurd hsome hno]
    rw [hpool, and_iff_left]
    exact fun entry hentry => (kind_le issue).trans (hepic entry hentry)

/-- **The cascade takes the first rank**, unless it falls back. -/
theorem mem_poolOf (h : ¬ FallsBack normalized) : issue ∈ poolOf normalized ↔
    issue ∈ normalized ∧ ∀ entry ∈ normalized, issue.rank ≤ entry.rank := by
  rw [mem_poolOf_kind h]
  -- within the pool all are alerts, or none is
  have hsame : ∀ entry ∈ cadencePool normalized, ∀ other ∈ cadencePool normalized,
      entry.cadence = other.cadence := by
    intro entry hentry other hother
    obtain ⟨hentry, hentryCadence⟩ := mem_cadencePool.mp hentry
    obtain ⟨hother, hotherCadence⟩ := mem_cadencePool.mp hother
    by_cases hsome : ∃ entry ∈ normalized, entry.cadence = false
    · rw [hentryCadence hsome, hotherCadence hsome]
    · have hall : ∀ entry ∈ normalized, entry.cadence = true := fun entry hentry =>
        Bool.eq_true_of_not_eq_false fun hfalse => hsome ⟨entry, hentry, hfalse⟩
      rw [hall entry hentry, hall other hother]
  have hrank : ∀ entry ∈ cadencePool normalized, ∀ other ∈ cadencePool normalized,
      entry.rank ≤ other.rank ↔ entry.kind ≤ other.kind := by
    intro entry hentry other hother
    unfold Candidate.rank
    rw [hsame entry hentry other hother, Nat.add_le_add_iff_left]
  constructor
  · rintro ⟨hissue, hleast⟩
    refine ⟨(mem_cadencePool.mp hissue).1, fun entry hentry => ?_⟩
    by_cases hpool : entry ∈ cadencePool normalized
    · exact (hrank issue hissue entry hpool).mpr (hleast entry hpool)
    · -- an alert that is left out ranks behind
      rw [mem_cadencePool, not_and, Classical.not_imp] at hpool
      obtain ⟨hsome, hcadence⟩ := hpool hentry
      have hissueRank := (rank_lt_iff issue).mpr ((mem_cadencePool.mp hissue).2 hsome)
      have hentryRank := mt (rank_lt_iff entry).mp hcadence
      omega
  · rintro ⟨hissue, hleast⟩
    have hpool : issue ∈ cadencePool normalized := by
      refine mem_cadencePool.mpr ⟨hissue, ?_⟩
      rintro ⟨entry, hentry, hcadence⟩
      have hrank := (rank_lt_iff entry).mpr hcadence
      exact (rank_lt_iff issue).mp ((hleast entry hentry).trans_lt hrank)
    refine ⟨hpool, fun entry hentry => ?_⟩
    exact (hrank issue hpool entry hentry).mp (hleast entry (mem_cadencePool.mp hentry).1)

theorem poolOf_of_fallsBack (h : FallsBack normalized) : poolOf normalized = normalized := by
  obtain ⟨hsome, hepic⟩ := h
  have hnil : ((cadencePool normalized).filter fun entry => !entry.epic) = [] := by
    refine List.filter_eq_nil_iff.mpr fun entry hentry hnot => ?_
    obtain ⟨hentry, hcadence⟩ := mem_cadencePool.mp hentry
    rw [hepic entry hentry (hcadence hsome)] at hnot
    exact Bool.false_ne_true hnot
  unfold poolOf
  rw [hnil]
  rfl

theorem poolOf_subset (h : issue ∈ poolOf normalized) : issue ∈ normalized := by
  by_cases hfalls : FallsBack normalized
  · rwa [poolOf_of_fallsBack hfalls] at h
  · exact ((mem_poolOf hfalls).mp h).1

theorem poolOf_eq_nil_iff : poolOf normalized = [] ↔ normalized = [] := by
  constructor
  · intro h
    unfold poolOf at h
    dsimp only at h
    split_ifs at h with h0 h1 h2
    · exact absurd h h0
    · exact absurd h h1
    · exact absurd h h2
    · exact h
  · rintro rfl
    rfl

/-! ### What is selected -/

/-- **What is selected**: a first one of the pool that is not given up. -/
theorem select_eq_some_iff :
    selectAutoStandingPriorityCandidate parseDate entries excludeIssueNumbers = some issue ↔
      ((poolOrder parseDate).sort (poolOf (selectable entries excludeIssueNumbers))).head? =
        some issue ∧
      (issue.isParent && hasOnlyBlockedConcreteIssuesBehindFallbackParent entries
        excludeIssueNumbers) = false := by
  unfold selectAutoStandingPriorityCandidate
  dsimp only
  generalize hasOnlyBlockedConcreteIssuesBehindFallbackParent entries excludeIssueNumbers = behind
  generalize selectable entries excludeIssueNumbers = normalized
  by_cases hnil : normalized = []
  · rw [if_pos hnil, hnil]
    exact iff_of_false (by simp) (by simp [poolOf_eq_nil_iff.mpr, Comparison.sort])
  · rw [if_neg hnil]
    cases ((poolOrder parseDate).sort (poolOf normalized)).head? with
    | none => simp
    | some selected =>
      dsimp only
      split_ifs with hgiven
      · refine iff_of_false not_false ?_
        rintro ⟨hselected, hnot⟩
        rw [← Option.some.inj hselected, hgiven] at hnot
        exact Bool.false_ne_true hnot.symm
      · refine ⟨fun hselected => ⟨hselected, ?_⟩, fun h => h.1⟩
        rw [← Option.some.inj hselected]
        exact Bool.eq_false_of_not_eq_true hgiven

theorem number_eq_of_ties (h : (poolOrder parseDate).Ties issue other) :
    issue.number = other.number := by
  unfold poolOrder at h
  rw [Comparison.ties_thenBy, Comparison.ties_thenBy, Comparison.ties_thenBy] at h
  exact Comparison.ties_ofKey.mp h.2.2.2

theorem mem_selectable : issue ∈ selectable entries excludeIssueNumbers ↔
    issue ∈ entries.filterMap normalizeOpenIssueCandidate ∧ issue.excluded = false ∧
      (issue.number : ℤ) ∉ excludeIssueNumbers ∧ issue.outOfScope = false ∧
      issue.blocked = false ∧ issue.passiveTracker = false := by
  unfold selectable normalizeSelectableStandingCandidates
  simp only [List.mem_filter, Bool.and_eq_true, Bool.not_eq_true', List.contains_eq_mem,
    decide_eq_false_iff_not]
  tauto

theorem eq_of_number (hdistinct : (entries.map (·.number)).Nodup)
    (hissue : issue ∈ entries.filterMap normalizeOpenIssueCandidate)
    (hother : other ∈ entries.filterMap normalizeOpenIssueCandidate)
    (hnumber : issue.number = other.number) : issue = other := by
  obtain ⟨entry, hentry, hissue⟩ := List.mem_filterMap.mp hissue
  obtain ⟨entry', hentry', hother⟩ := List.mem_filterMap.mp hother
  have hread : ∀ {entry : OpenIssue} {candidate : Candidate},
      normalizeOpenIssueCandidate entry = some candidate →
      (candidate.number : ℤ) = entry.number := by
    intro entry candidate h
    unfold normalizeOpenIssueCandidate at h
    split_ifs at h with hpos
    rw [← Option.some.inj h]
    exact Int.toNat_of_nonneg (by omega)
  have hsame : entry.number = entry'.number := by rw [← hread hissue, ← hread hother, hnumber]
  have hentries : entry = entry' := List.inj_on_of_nodup_map hdistinct hentry hentry' hsame
  rw [hentries, hother] at hissue
  exact (Option.some.inj hissue).symm

theorem eq_of_isTop (hdistinct : (entries.map (·.number)).Nodup)
    (hpool : ∀ entry ∈ pool, entry ∈ selectable entries excludeIssueNumbers)
    (hissue : (poolOrder parseDate).IsTop pool issue)
    (hother : (poolOrder parseDate).IsTop pool other) : issue = other :=
  eq_of_number hdistinct (mem_selectable.mp (hpool _ hissue.1)).1
    (mem_selectable.mp (hpool _ hother.1)).1
    (number_eq_of_ties ⟨hissue.2 _ hother.1, hother.2 _ hissue.1⟩)

/-! ### The order of the list -/

theorem choose_perm {xs xs' ys ys' : List Candidate} (hxs : xs'.Perm xs) (hys : ys'.Perm ys) :
    (if xs' ≠ [] then xs' else ys').Perm (if xs ≠ [] then xs else ys) := by
  by_cases hnil : xs = []
  · rw [if_neg (not_not_intro hnil), if_neg (not_not_intro (hnil ▸ hxs).eq_nil)]
    exact hys
  · rw [if_pos hnil, if_pos fun hnil' => hnil (hnil' ▸ hxs).nil_eq.symm]
    exact hxs

theorem poolOf_perm {normalized' : List Candidate} (h : normalized'.Perm normalized) :
    (poolOf normalized').Perm (poolOf normalized) := by
  have hcadence : (cadencePool normalized').Perm (cadencePool normalized) :=
    choose_perm (h.filter fun entry => !entry.cadence) h
  have hnonEpic := hcadence.filter fun entry => !entry.epic
  have hnonUmbrella := hnonEpic.filter fun entry => !entry.umbrella
  have hnonProgram := hnonUmbrella.filter fun entry => !entry.program
  exact choose_perm hnonProgram (choose_perm hnonUmbrella (choose_perm hnonEpic h))

variable {entries' : List OpenIssue}

theorem selectable_perm (h : entries'.Perm entries) :
    (selectable entries' excludeIssueNumbers).Perm (selectable entries excludeIssueNumbers) :=
  ((h.filterMap _).filter _).filter _

theorem behind_eq_true_iff :
    hasOnlyBlockedConcreteIssuesBehindFallbackParent entries excludeIssueNumbers = true ↔
      (∃ entry ∈ inScope entries excludeIssueNumbers, entry.concreteBlocked = true) ∧
      (∀ entry ∈ inScope entries excludeIssueNumbers, entry.concreteActionable = false) ∧
      (∃ entry ∈ inScope entries excludeIssueNumbers, entry.fallbackParent = true) ∧
      (∀ entry ∈ inScope entries excludeIssueNumbers, entry.concreteBlocked = true →
        ∃ parentEntry ∈ inScope entries excludeIssueNumbers, parentEntry.fallbackParent = true ∧
          areStandingIssuesLinked parentEntry entry = true) ∧
      ∀ parentEntry ∈ inScope entries excludeIssueNumbers, parentEntry.fallbackParent = true →
        ∃ entry ∈ inScope entries excludeIssueNumbers, entry.concreteBlocked = true ∧
          areStandingIssuesLinked parentEntry entry = true := by
  have hempty : ∀ (normalized : List Candidate) (p : Candidate → Bool),
      normalized.filter p = [] ↔ ¬ ∃ entry ∈ normalized, p entry = true := by
    intro normalized p
    rw [List.filter_eq_nil_iff]
    simp
  unfold hasOnlyBlockedConcreteIssuesBehindFallbackParent
  dsimp only
  generalize inScope entries excludeIssueNumbers = normalized
  split_ifs with hnil hblocked hactionable hparents
  · simp [hnil]
  · exact iff_of_false not_false fun h => (hempty _ _).mp hblocked h.1
  · refine iff_of_false not_false fun h => hactionable ((hempty _ _).mpr ?_)
    rintro ⟨entry, hentry, htrue⟩
    exact Bool.false_ne_true ((h.2.1 entry hentry).symm.trans htrue)
  · exact iff_of_false not_false fun h => (hempty _ _).mp hparents h.2.2.1
  · have hnone : ∀ entry ∈ normalized, entry.concreteActionable = false :=
      fun entry hentry => Bool.eq_false_of_not_eq_true fun htrue =>
        (hempty _ _).mp (not_not.mp hactionable) ⟨entry, hentry, htrue⟩
    rw [and_iff_right (not_not.mp (mt (hempty _ _).mpr hblocked)), and_iff_right hnone,
      and_iff_right (not_not.mp (mt (hempty _ _).mpr hparents)), Bool.and_eq_true]
    simp only [List.all_eq_true, List.any_eq_true, List.mem_filter, and_imp, and_assoc]

theorem behind_perm (h : entries'.Perm entries) :
    hasOnlyBlockedConcreteIssuesBehindFallbackParent entries' excludeIssueNumbers =
      hasOnlyBlockedConcreteIssuesBehindFallbackParent entries excludeIssueNumbers := by
  have hmem : ∀ entry, entry ∈ inScope entries' excludeIssueNumbers ↔
      entry ∈ inScope entries excludeIssueNumbers := fun entry =>
    (((h.filterMap _).filter _).filter _).mem_iff
  rw [Bool.eq_iff_iff, behind_eq_true_iff, behind_eq_true_iff]
  simp only [hmem]

/-! ### The law -/

/-- **The order of the list does not matter** where the numbers differ. -/
theorem select_perm (hdistinct : (entries.map (·.number)).Nodup) (h : entries'.Perm entries) :
    selectAutoStandingPriorityCandidate parseDate entries' excludeIssueNumbers =
      selectAutoStandingPriorityCandidate parseDate entries excludeIssueNumbers := by
  have hhead : ((poolOrder parseDate).sort
      (poolOf (selectable entries excludeIssueNumbers))).head? =
      ((poolOrder parseDate).sort (poolOf (selectable entries' excludeIssueNumbers))).head? :=
    Comparison.head?_sort_eq_of_perm _
      (fun _ _ ha hb => eq_of_isTop hdistinct (fun _ hmem => poolOf_subset hmem) ha hb)
      (poolOf_perm (selectable_perm h)).symm
  refine Option.ext fun issue => ?_
  rw [select_eq_some_iff, select_eq_some_iff, hhead, behind_perm h]

theorem least_of_select (hnot : ¬ AlertWins parseDate entries excludeIssueNumbers)
    (hselect : selectAutoStandingPriorityCandidate parseDate entries excludeIssueNumbers =
      some issue) :
    issue ∈ selectable entries excludeIssueNumbers ∧
      ∀ other ∈ selectable entries excludeIssueNumbers, issue.rank ≤ other.rank ∧
        (other.rank = issue.rank → (poolOrder parseDate).le issue other = true) := by
  obtain ⟨hhead, hkept⟩ := select_eq_some_iff.mp hselect
  obtain ⟨hissue, hleast⟩ := Comparison.le_of_head?_sort _ hhead
  refine ⟨poolOf_subset hissue, fun other hother => ?_⟩
  by_cases hfalls : FallsBack (selectable entries excludeIssueNumbers)
  · rw [poolOf_of_fallsBack hfalls] at hissue hleast
    have hcadence : issue.cadence = false := Bool.eq_false_of_not_eq_true fun halert =>
      hnot ⟨hfalls, issue, hissue, halert, hleast, hkept⟩
    refine ⟨?_, fun _ => hleast other hother⟩
    rw [rank_of_epic hcadence (hfalls.2 issue hissue hcadence)]
    cases hother' : other.cadence with
    | true => exact Nat.le_of_lt (not_lt.mp (mt (rank_lt_iff other).mp (by simp [hother'])))
    | false => exact (rank_of_epic hother' (hfalls.2 other hother hother')).ge
  · have hrank := ((mem_poolOf hfalls).mp hissue).2
    refine ⟨hrank other hother, fun hsame => hleast other ?_⟩
    exact (mem_poolOf hfalls).mpr ⟨hother, fun entry hentry => hsame ▸ hrank entry hentry⟩

theorem select_of_alertWins (hdistinct : (entries.map (·.number)).Nodup)
    (h : AlertWins parseDate entries excludeIssueNumbers) : ∃ alert, alert.cadence = true ∧
      selectAutoStandingPriorityCandidate parseDate entries excludeIssueNumbers = some alert := by
  obtain ⟨hfalls, alert, halert, hcadence, hleast, hkept⟩ := h
  refine ⟨alert, hcadence, select_eq_some_iff.mpr ⟨?_, hkept⟩⟩
  rw [poolOf_of_fallsBack hfalls, Comparison.head?_sort_eq_some_iff]
  · exact ⟨halert, hleast⟩
  · intro a ha b hb hab hba
    exact eq_of_number hdistinct (mem_selectable.mp ha).1 (mem_selectable.mp hb).1
      (number_eq_of_ties ⟨hab, hba⟩)

/-- **The selection law** holds exactly if no alert wins over epics. -/
theorem obeysLaw_iff (hdistinct : (entries.map (·.number)).Nodup) :
    SelectionLaw parseDate entries excludeIssueNumbers ↔
      ¬ AlertWins parseDate entries excludeIssueNumbers := by
  constructor
  · intro hlaw hwins
    obtain ⟨alert, hcadence, hselect⟩ := select_of_alertWins hdistinct hwins
    exact Bool.false_ne_true ((hlaw.nonCadence alert hselect hwins.1.1).symm.trans hcadence)
  · intro hnot
    refine ⟨fun entries' h => select_perm hdistinct h, fun issue hselect => ?_,
      fun issue hselect hsome => ?_, fun issue hselect hsome => ?_,
      fun issue hselect => least_of_select hnot hselect⟩
    · exact mem_selectable.mp (least_of_select hnot hselect).1
    · obtain ⟨other, hother, hcadence⟩ := hsome
      have hrank := ((least_of_select hnot hselect).2 other hother).1
      exact (rank_lt_iff issue).mp (hrank.trans_lt ((rank_lt_iff other).mpr hcadence))
    · obtain ⟨other, hother, hcadence, hconcrete⟩ := hsome
      have hrank := ((least_of_select hnot hselect).2 other hother).1
      have hzero : other.rank = 0 := by
        rw [Candidate.rank, hcadence, (isParent_eq_false_iff other).mp hconcrete]
        rfl
      refine (isParent_eq_false_iff issue).mpr ?_
      unfold Candidate.rank at hrank hzero
      omega

/-! ### An alert beside an epic -/

def epicIssue : OpenIssue := { number := 1, title := some "Epic: portability" }

def alertIssue : OpenIssue :=
  { number := 2
    title := some "[P0] Package stream freshness"
    body := some "<!-- cadence-check:package-staleness -->" }

/-- The law for the epic alone. -/
theorem selectionLaw_epicIssue : SelectionLaw (fun _ => none) [epicIssue] [] := by
  refine (obeysLaw_iff (by decide)).mpr ?_
  rintro ⟨-, alert, halert, hcadence, -⟩
  have hnone : (selectable [epicIssue] []).all (fun entry => !entry.cadence) = true := by
    decide +kernel
  have hnot := List.all_eq_true.mp hnone alert halert
  rw [hcadence] at hnot
  exact Bool.false_ne_true hnot

/-- The alert is selected although there is an issue that is no alert. -/
theorem not_selectionLaw_alertIssue :
    ¬ SelectionLaw (fun _ => none) [epicIssue, alertIssue] [] := by
  intro hlaw
  have hselect : (selectAutoStandingPriorityCandidate (fun _ => none) [epicIssue, alertIssue]
      []).any (·.cadence) = true := by decide +kernel
  have hother : (selectable [epicIssue, alertIssue] []).any (fun entry => !entry.cadence) =
      true := by decide +kernel
  obtain ⟨alert, halert, hcadence⟩ := Option.any_eq_true _ _ |>.mp hselect
  obtain ⟨other, hmem, hnot⟩ := List.any_eq_true.mp hother
  have hfalse := hlaw.nonCadence alert halert ⟨other, hmem, Bool.not_eq_true' _ ▸ hnot⟩
  exact Bool.false_ne_true (hfalse.symm.trans hcadence)

end Select
end CompareVI.Standing
