import CompareVI.Framework.Kahn
import CompareVI.Queue.Classify

/-!
# Planning the merges of a cycle

The eligible candidates are ordered by their dependencies (`toTopoOrder`, Kahn's
algorithm, with the candidates it cannot place appended in sorted order), scored
and sorted again by the readiness report (`readySet`), stripped of the ones that
are queued already, and cut to the free capacity (`toProcess`).

The rank a candidate has in the dependency order decides the readiness order, so
the second sort changes nothing (`planned_eq`), and what stands before what in the
plan is settled by `Kahn.precedes_append_stuck_iff`. Two things can still go wrong
with a dependency: it was dropped by the second pass of the classification, which
its dependent was not told of, or both stand on or behind a cycle.
`dependencySafe_toProcess_iff` says that nothing else can.
-/

open Framework

namespace CompareVI.Queue

/-! ### The dependency order -/

def candidateGraph (candidates : List Candidate) : Kahn.DepGraph Candidate ℕ where
  key := fun c => c.number
  deps := fun c => c.dependsOn
  nodes := candidates

/-- The result of `toTopoOrder`. -/
structure TopoOrder where
  ordered : List Candidate
  cycleDetected : Bool

def toTopoOrder (candidates : List Candidate) : TopoOrder :=
  let order := (candidateGraph candidates).order sortCandidates
  if order.length = candidates.length then { ordered := order, cycleDetected := false }
  else
    let unresolved := sortCandidates
      (candidates.filter fun c => !order.any fun selected => selected.number = c.number)
    { ordered := order ++ unresolved, cycleDetected := true }

/-- `classifyOpenPullRequests`. -/
structure Classification where
  allOpen : List ParsedPullRequest
  candidates : List Candidate
  orderedEligible : List Candidate
  cycleDetected : Bool

def classifyOpenPullRequests (cfg : GateConfig) (pullRequests : List PullRequest) :
    Classification :=
  let normalized := pullRequests.map parsePullRequest
  let candidates := classifyCandidates cfg normalized
  let topo := toTopoOrder (candidates.filter (·.eligible))
  { allOpen := normalized, candidates := candidates
    orderedEligible := topo.ordered, cycleDetected := topo.cycleDetected }

/-! ### The readiness report -/

/-- `RISK_CLASSES`. -/
inductive RiskClass where
  | low
  | medium
  | high
  deriving DecidableEq, Repr

/-- `FLAKY_EXPOSURE_CLASSES`. -/
inductive FlakyExposure where
  | none
  | medium
  | high
  deriving DecidableEq, Repr

def parseLabelNames (labels : List String) : List String :=
  ((labels.map fun l => JsString.toLowerCase (JsString.trim l)).filter (· ≠ "")).dedup

def parseRiskClass (body : String) (labels : List String) : RiskClass :=
  match JsString.firstLineMatch (JsString.choiceFieldAt "risk-class"
      [("low", RiskClass.low), ("medium", .medium), ("high", .high)]) true body.toList with
  | some risk => risk
  | none =>
    let labelNames := parseLabelNames labels
    if labelNames.contains "risk-low" then .low
    else if labelNames.contains "risk-high" then .high
    else .medium

def parseFlakyExposure (body : String) (labels : List String) : FlakyExposure :=
  match JsString.firstLineMatch (JsString.choiceFieldAt "flaky-exposure"
      [("none", FlakyExposure.none), ("medium", .medium), ("high", .high)]) true body.toList with
  | some exposure => exposure
  | Option.none =>
    let labelNames := parseLabelNames labels
    if labelNames.contains "flaky-risk-high" then .high
    else if labelNames.contains "flaky-risk-medium" then .medium
    else .none

/-- The score of `buildScoreComponents`, with the weights of `SCORE_WEIGHTS`. A
candidate carries no description, so its body reads as empty; the age bonus is one
point for each six hours, twelve at most. -/
def readinessScore (candidate : Candidate) (now : ℤ) : ℤ :=
  let ageMs := max 0 (now - candidate.updatedAt)
  let dependencyReady := (candidate.unresolvedOpenDependencies.getD []).length = 0
  (if candidate.eligible then 30 else -30) +
  (if candidate.checks.ok then 20 else -20) +
  (if dependencyReady then 15 else -15) +
  max 0 (40 - (candidate.priority : ℤ) * 8) +
  (match candidate.coupling with
    | .independent => 20
    | .soft => 10
    | .hard => 0) +
  (match parseRiskClass "" candidate.labels with
    | .low => 10
    | .medium => 0
    | .high => -10) +
  (match parseFlakyExposure "" candidate.labels with
    | .none => 0
    | .medium => -10
    | .high => -20) +
  min 12 (ageMs / (6 * 3600000))

def MAX_SAFE_INTEGER : ℕ := 2 ^ 53 - 1

/-- An entry of the readiness report, with the properties the sort reads. -/
structure ReadinessEntry where
  number : ℕ
  updatedAt : ℤ
  eligible : Bool
  priority : ℕ
  dependencyRank : ℕ
  score : ℤ
  deriving DecidableEq

def dependencyRank (orderedEligible : List ℕ) (number : ℕ) : ℕ :=
  if number ∈ orderedEligible then orderedEligible.idxOf number else MAX_SAFE_INTEGER

def readinessEntry (orderedEligible : List ℕ) (now : ℤ) (candidate : Candidate) :
    ReadinessEntry where
  number := candidate.number
  updatedAt := candidate.updatedAt
  eligible := candidate.eligible
  priority := candidate.priority
  dependencyRank := dependencyRank orderedEligible candidate.number
  score := readinessScore candidate now

def compareReadySet (a b : ReadinessEntry) : ℤ :=
  if a.dependencyRank ≠ b.dependencyRank then (a.dependencyRank : ℤ) - b.dependencyRank
  else if a.score ≠ b.score then b.score - a.score
  else if a.priority ≠ b.priority then (a.priority : ℤ) - b.priority
  else if a.updatedAt ≠ b.updatedAt then a.updatedAt - b.updatedAt
  else (a.number : ℤ) - b.number

/-- The `readySet` of `buildQueueReadinessReport`. -/
def readySet (candidates : List Candidate) (orderedEligible : List ℕ) (now : ℤ) :
    List ReadinessEntry :=
  ((candidates.map (readinessEntry orderedEligible now)).filter (·.eligible)).insertionSort
    fun a b => compareReadySet a b ≤ 0

/-! ### The plan -/

/-- `candidateByNumber.get(number)`; the map keeps the last candidate of a number. -/
def candidateByNumber (candidates : List Candidate) (number : ℕ) : Option Candidate :=
  candidates.reverse.find? fun c => c.number = number

/-- `planned`: the ready candidates that are not queued already. -/
def planned (cfg : GateConfig) (now : ℤ) (pullRequests : List PullRequest) : List Candidate :=
  let classified := classifyOpenPullRequests cfg pullRequests
  let ready := readySet classified.candidates (classified.orderedEligible.map (·.number)) now
  (ready.filterMap fun entry => candidateByNumber classified.candidates entry.number).filter
    fun c => !isQueuedCandidate c.toParsedPullRequest

/-- `toProcess`: the plan cut to the free capacity. -/
def toProcess (cfg : GateConfig) (now : ℤ) (capacity : ℕ) (pullRequests : List PullRequest) :
    List Candidate :=
  (planned cfg now pullRequests).take capacity

/-! ### The two passes of the classification -/

section Passes

variable (cfg : GateConfig) (prs : List ParsedPullRequest)

def passesGates (pr : ParsedPullRequest) : Bool := (gateReasons cfg pr).isEmpty

/-- The pull request and every open pull request it depends on pass their gates.
Dependencies of dependencies are not asked for. -/
def finallyEligible (pr : ParsedPullRequest) : Bool :=
  passesGates cfg pr &&
    pr.dependsOn.all fun dep => prs.all fun d => d.number != dep || passesGates cfg d

def finalCandidate (pr : ParsedPullRequest) : Candidate :=
  dependencyPass (prs.map (·.number))
    (((prs.map (gateCandidate cfg)).filter (·.eligible)).map (·.number)) (gateCandidate cfg pr)

/-- The eligible candidates, which `toTopoOrder` is given. -/
def finalEligible : List Candidate := (classifyCandidates cfg prs).filter (·.eligible)

theorem classifyCandidates_eq :
    classifyCandidates cfg prs = prs.map (finalCandidate cfg prs) := by
  simp only [classifyCandidates, List.map_map]
  rfl

variable {cfg prs}

theorem dependencyPass_toParsedPullRequest (allOpen eligibleSet : List ℕ) (c : Candidate) :
    (dependencyPass allOpen eligibleSet c).toParsedPullRequest = c.toParsedPullRequest := by
  unfold dependencyPass
  split
  · dsimp only
    split <;> rfl
  · rfl

theorem dependencyPass_eligible (allOpen eligibleSet : List ℕ) (c : Candidate) :
    (dependencyPass allOpen eligibleSet c).eligible = true ↔
      c.eligible = true ∧ ∀ dep ∈ c.dependsOn, dep ∈ allOpen → dep ∈ eligibleSet := by
  unfold dependencyPass
  by_cases h : c.eligible = true
  · rw [if_pos h]
    dsimp only
    split
    · next hlen =>
      obtain ⟨dep, hdep⟩ := List.exists_mem_of_length_pos hlen
      obtain ⟨hmem, hopen⟩ := List.mem_filter.mp hdep
      simp only [List.contains_eq_mem, Bool.and_eq_true, decide_eq_true_eq,
        Bool.not_eq_true', decide_eq_false_iff_not] at hopen
      simp only [Bool.false_eq_true, false_iff, not_and, not_forall]
      exact fun _ => ⟨dep, hmem, hopen.1, hopen.2⟩
    · next hlen =>
      have hnil := List.eq_nil_of_length_eq_zero (Nat.eq_zero_of_not_pos hlen)
      simp only [List.filter_eq_nil_iff, List.contains_eq_mem, Bool.and_eq_true,
        decide_eq_true_eq, Bool.not_eq_true', decide_eq_false_iff_not, not_and,
        not_not] at hnil
      exact ⟨fun _ => ⟨h, hnil⟩, fun _ => h⟩
  · rw [if_neg h]
    exact ⟨fun h' => absurd h' h, fun h' => absurd h'.1 h⟩

theorem finalCandidate_toParsedPullRequest (pr : ParsedPullRequest) :
    (finalCandidate cfg prs pr).toParsedPullRequest = pr :=
  dependencyPass_toParsedPullRequest _ _ _

theorem mem_eligibleSet {dep : ℕ} :
    dep ∈ ((prs.map (gateCandidate cfg)).filter (·.eligible)).map (·.number) ↔
      ∃ d ∈ prs, passesGates cfg d = true ∧ d.number = dep := by
  simp only [List.mem_map, List.mem_filter]
  constructor
  · rintro ⟨c, ⟨⟨d, hd, rfl⟩, hc⟩, rfl⟩
    exact ⟨d, hd, hc, rfl⟩
  · rintro ⟨d, hd, hpass, rfl⟩
    exact ⟨gateCandidate cfg d, ⟨⟨d, hd, rfl⟩, hpass⟩, rfl⟩

/-- **The two passes.** With distinct numbers, a candidate ends eligible exactly when
it and its open dependencies pass their gates. -/
theorem finalCandidate_eligible (hn : (prs.map (·.number)).Nodup) (pr : ParsedPullRequest) :
    (finalCandidate cfg prs pr).eligible = finallyEligible cfg prs pr := by
  rw [Bool.eq_iff_iff, finalCandidate, dependencyPass_eligible]
  simp only [finallyEligible, Bool.and_eq_true, List.all_eq_true, Bool.or_eq_true, bne_iff_ne]
  refine and_congr Iff.rfl (forall₂_congr fun dep _ => ?_)
  rw [mem_eligibleSet]
  constructor
  · intro h d hd
    by_cases hdep : d.number = dep
    · obtain ⟨d', hd', hpass, hnum⟩ := h (hdep ▸ List.mem_map_of_mem hd)
      right
      rwa [List.inj_on_of_nodup_map hn hd hd' (hdep.trans hnum.symm)]
    · exact .inl hdep
  · intro h hopen
    obtain ⟨d, hd, hnum⟩ := List.mem_map.mp hopen
    exact ⟨d, hd, (h d hd).resolve_left (fun hne => hne hnum), hnum⟩

theorem finalEligible_eq (hn : (prs.map (·.number)).Nodup) :
    finalEligible cfg prs =
      (prs.filter (finallyEligible cfg prs)).map (finalCandidate cfg prs) := by
  rw [finalEligible, classifyCandidates_eq, List.filter_map]
  congr 2
  funext pr
  exact finalCandidate_eligible hn pr

theorem map_number_finalCandidate (l : List ParsedPullRequest) :
    (l.map (finalCandidate cfg prs)).map (·.number) = l.map (·.number) := by
  rw [List.map_map]
  refine List.map_congr_left fun pr _ => ?_
  exact congrArg ParsedPullRequest.number (finalCandidate_toParsedPullRequest pr)

theorem nodup_classifyCandidates (cfg : GateConfig) (hn : (prs.map (·.number)).Nodup) :
    ((classifyCandidates cfg prs).map (·.number)).Nodup := by
  rwa [classifyCandidates_eq, map_number_finalCandidate]

theorem nodup_finalEligible (cfg : GateConfig) (hn : (prs.map (·.number)).Nodup) :
    ((finalEligible cfg prs).map (·.number)).Nodup :=
  (nodup_classifyCandidates cfg hn).sublist (List.filter_sublist.map _)

end Passes

/-! ### The order as a list -/

section Order

variable {E : List Candidate}

def unresolved (E : List Candidate) : List Candidate :=
  sortCandidates (E.filter fun c =>
    !((candidateGraph E).order sortCandidates).any fun selected => selected.number = c.number)

theorem mem_unresolved (hE : (E.map (·.number)).Nodup) {c : Candidate} :
    c ∈ unresolved E ↔ c ∈ E ∧ c ∉ (candidateGraph E).order sortCandidates := by
  rw [unresolved, (sortCandidates_perm _).mem_iff, List.mem_filter]
  refine and_congr_right fun hc => ?_
  simp only [Bool.not_eq_true', List.any_eq_false, decide_eq_true_eq]
  constructor
  · intro h hmem
    exact h c hmem rfl
  · intro h selected hsel hnum
    have hsel' := Kahn.mem_of_mem_order (G := candidateGraph E) hE sortCandidates_perm hsel
    exact h (List.inj_on_of_nodup_map hE hsel' hc hnum ▸ hsel)

theorem nodup_order_unresolved (hE : (E.map (·.number)).Nodup) :
    ((candidateGraph E).order sortCandidates ++ unresolved E).Nodup := by
  refine List.nodup_append.mpr ⟨?_, ?_, ?_⟩
  · exact (Kahn.nodup_order (G := candidateGraph E) hE sortCandidates_perm).of_map _
  · exact (sortCandidates_perm _).nodup_iff.mpr ((hE.of_map _).filter _)
  · rintro c hc d hd rfl
    exact ((mem_unresolved hE).mp hd).2 hc

theorem order_unresolved_perm (hE : (E.map (·.number)).Nodup) :
    ((candidateGraph E).order sortCandidates ++ unresolved E).Perm E := by
  refine (List.perm_ext_iff_of_nodup (nodup_order_unresolved hE) (hE.of_map _)).mpr fun c => ?_
  rw [List.mem_append, mem_unresolved hE]
  constructor
  · rintro (h | h)
    · exact Kahn.mem_of_mem_order (G := candidateGraph E) hE sortCandidates_perm h
    · exact h.1
  · intro h
    by_cases hmem : c ∈ (candidateGraph E).order sortCandidates
    · exact .inl hmem
    · exact .inr ⟨h, hmem⟩

/-- `toTopoOrder` appends the unresolved candidates; where the order is complete
there are none. -/
theorem toTopoOrder_ordered (hE : (E.map (·.number)).Nodup) :
    (toTopoOrder E).ordered = (candidateGraph E).order sortCandidates ++ unresolved E := by
  unfold toTopoOrder
  dsimp only
  split
  · next hlen =>
    have hperm := (order_unresolved_perm hE).length_eq
    rw [List.length_append, hlen] at hperm
    have hnil : unresolved E = [] := List.length_eq_zero_iff.mp (by omega)
    rw [hnil, List.append_nil]
  · rfl

end Order

/-! ### The second sort -/

section ReadySet

/-- The key whose lexicographic order `compareReadySet` decides. -/
def readyKey (a : ReadinessEntry) : ℕ ×ₗ ℤ ×ₗ ℕ ×ₗ ℤ ×ₗ ℕ :=
  toLex (a.dependencyRank, toLex (-a.score, toLex (a.priority, toLex (a.updatedAt, a.number))))

theorem compareReadySet_le_iff (a b : ReadinessEntry) :
    compareReadySet a b ≤ 0 ↔ readyKey a ≤ readyKey b := by
  simp only [compareReadySet, readyKey, Prod.Lex.toLex_le_toLex]
  split_ifs <;> omega

theorem compareReadySet_le_of_rank_lt {a b : ReadinessEntry}
    (h : a.dependencyRank < b.dependencyRank) : compareReadySet a b ≤ 0 := by
  rw [compareReadySet, if_pos (by omega)]
  omega

theorem insertionSort_compareReadySet_pairwise (l : List ReadinessEntry) :
    (l.insertionSort fun a b => compareReadySet a b ≤ 0).Pairwise
      fun a b => compareReadySet a b ≤ 0 := by
  let r : ReadinessEntry → ReadinessEntry → Prop := fun a b => compareReadySet a b ≤ 0
  have : Std.Total r := ⟨fun a b => by
    change _ ≤ _ ∨ _ ≤ _
    rw [compareReadySet_le_iff, compareReadySet_le_iff]
    exact le_total _ _⟩
  have : IsTrans ReadinessEntry r := ⟨fun a b c => by
    change _ ≤ _ → _ ≤ _ → _ ≤ _
    rw [compareReadySet_le_iff, compareReadySet_le_iff, compareReadySet_le_iff]
    exact le_trans⟩
  exact List.pairwise_insertionSort r l

theorem pairwise_dependencyRank {l : List ℕ} (hl : l.Nodup) :
    l.Pairwise fun a b => dependencyRank l a < dependencyRank l b := by
  rw [List.pairwise_iff_getElem]
  intro i j hi hj hij
  simp only [dependencyRank, List.getElem_mem, if_true, hl.idxOf_getElem]
  exact hij

/-- **The readiness order is the dependency order.** -/
theorem readySet_eq {candidates ordered : List Candidate} (now : ℤ)
    (hn : (candidates.map (·.number)).Nodup)
    (hperm : ordered.Perm (candidates.filter (·.eligible))) :
    readySet candidates (ordered.map (·.number)) now =
      ordered.map (readinessEntry (ordered.map (·.number)) now) := by
  let entry := readinessEntry (ordered.map (·.number)) now
  have hnum : (ordered.map (·.number)).Nodup :=
    ((hperm.map _).nodup_iff).mpr (hn.sublist (List.filter_sublist.map _))
  have hranks : (ordered.map entry).Pairwise
      fun a b => a.dependencyRank < b.dependencyRank := by
    rw [List.pairwise_map]
    have h := pairwise_dependencyRank hnum
    rw [List.pairwise_map] at h
    exact h
  have hfilter : (candidates.map entry).filter (·.eligible) =
      (candidates.filter (·.eligible)).map entry := List.filter_map
  refine List.Perm.eq_of_pairwise ?_
    (insertionSort_compareReadySet_pairwise _)
    (hranks.imp fun h => compareReadySet_le_of_rank_lt h) ?_
  · -- entries of the same rank are one entry
    intro a b ha hb hab hba
    have ha' := (List.mem_insertionSort _).mp ha
    rw [hfilter] at ha'
    obtain ⟨c, hc, rfl⟩ := List.mem_map.mp ha'
    obtain ⟨d, hd, rfl⟩ := List.mem_map.mp hb
    rw [compareReadySet_le_iff] at hab hba
    have hkey := le_antisymm hab hba
    simp only [readyKey, toLex_inj, Prod.mk.injEq] at hkey
    have hd' := hperm.mem_iff.mp hd
    rw [List.inj_on_of_nodup_map hn (List.mem_of_mem_filter hc) (List.mem_of_mem_filter hd')
      hkey.2.2.2.2]
  · refine (List.perm_insertionSort _ _).trans ?_
    rw [hfilter]
    exact (hperm.map entry).symm

theorem candidateByNumber_of_mem {candidates : List Candidate}
    (hn : (candidates.map (·.number)).Nodup) {c : Candidate} (hc : c ∈ candidates) :
    candidateByNumber candidates c.number = some c := by
  cases h : candidateByNumber candidates c.number with
  | none => simpa using List.find?_eq_none.mp h c (List.mem_reverse.mpr hc)
  | some d =>
    have hnum : d.number = c.number := by simpa using List.find?_some h
    have hd : d ∈ candidates := List.mem_reverse.mp (List.mem_of_find?_eq_some h)
    rw [List.inj_on_of_nodup_map hn hd hc hnum]

end ReadySet

variable {l : List Candidate} {allOpen : List ParsedPullRequest} {pullRequests : List PullRequest}

/-- **The plan.** It is the dependency order without the queued candidates. -/
theorem planned_eq (cfg : GateConfig) (now : ℤ) (hn : (pullRequests.map (·.number)).Nodup) :
    planned cfg now pullRequests =
      (toTopoOrder (finalEligible cfg (pullRequests.map parsePullRequest))).ordered.filter
        fun c => !isQueuedCandidate c.toParsedPullRequest := by
  have hn' : ((pullRequests.map parsePullRequest).map (·.number)).Nodup := by
    rwa [List.map_map]
  have hcand := nodup_classifyCandidates cfg hn'
  have hE := nodup_finalEligible cfg hn'
  have hperm : (toTopoOrder (finalEligible cfg (pullRequests.map parsePullRequest))).ordered.Perm
      (finalEligible cfg (pullRequests.map parsePullRequest)) := by
    rw [toTopoOrder_ordered hE]
    exact order_unresolved_perm hE
  change ((readySet (classifyCandidates cfg (pullRequests.map parsePullRequest))
    ((toTopoOrder (finalEligible cfg (pullRequests.map parsePullRequest))).ordered.map (·.number))
      now).filterMap _).filter _ = _
  rw [readySet_eq now hcand hperm, List.filterMap_map]
  congr 1
  conv_rhs => rw [← List.filterMap_some (l := (toTopoOrder _).ordered)]
  refine List.filterMap_congr fun c hc => ?_
  exact candidateByNumber_of_mem hcand (List.mem_of_mem_filter (hperm.mem_iff.mp hc))

/-! ### Dependencies in the plan -/

/-- Every open dependency of a processed candidate is queued or processed before
it. -/
def DependencySafe (allOpen : List ParsedPullRequest) (toProcess : List Candidate) : Prop :=
  ∀ pre c post, toProcess = pre ++ c :: post →
    ∀ d ∈ allOpen, d.number ∈ c.dependsOn →
      isQueuedCandidate d = true ∨ ∃ e ∈ pre, e.number = d.number

def eligibleGraph (cfg : GateConfig) (prs : List ParsedPullRequest) :
    Kahn.DepGraph ParsedPullRequest ℕ where
  key := fun pr => pr.number
  deps := fun pr => pr.dependsOn
  nodes := prs.filter (finallyEligible cfg prs)

/-- Every open dependency that is not queued, of an eligible pull request that is
not queued, is eligible too, and the two are not both on or behind a cycle with the
dependency the larger. -/
def SafeDependencies (cfg : GateConfig) (prs : List ParsedPullRequest) : Prop :=
  ∀ c ∈ prs, finallyEligible cfg prs c = true → isQueuedCandidate c = false →
    ∀ d ∈ prs, d.number ∈ c.dependsOn → isQueuedCandidate d = false →
      finallyEligible cfg prs d = true ∧
        (¬ (eligibleGraph cfg prs).Stuck c ∨ ¬ (eligibleGraph cfg prs).Stuck d ∨
          compareCandidates d c < 0)

theorem dependencySafe_take_iff :
    (∀ capacity, DependencySafe allOpen (l.take capacity)) ↔ DependencySafe allOpen l := by
  constructor
  · intro h
    have := h l.length
    rwa [List.take_length] at this
  · intro h capacity pre c post hsplit
    refine h pre c (post ++ l.drop capacity) ?_
    calc l = l.take capacity ++ l.drop capacity := (List.take_append_drop capacity l).symm
      _ = pre ++ c :: (post ++ l.drop capacity) := by rw [hsplit]; simp

theorem dependencySafe_filter_iff (hl : l.Nodup) :
    DependencySafe allOpen (l.filter fun c => !isQueuedCandidate c.toParsedPullRequest) ↔
      ∀ c ∈ l, isQueuedCandidate c.toParsedPullRequest = false →
        ∀ d ∈ allOpen, d.number ∈ c.dependsOn → isQueuedCandidate d = true ∨
          ∃ e, Kahn.Precedes l e c ∧ isQueuedCandidate e.toParsedPullRequest = false ∧
            e.number = d.number := by
  constructor
  · intro h c hc hqueued d hd hdep
    obtain ⟨pre, post, rfl⟩ := List.append_of_mem hc
    have hsplit := List.filter_append (p := fun c => !isQueuedCandidate c.toParsedPullRequest)
      pre (c :: post)
    rw [List.filter_cons_of_pos (by simp [hqueued])] at hsplit
    rcases h _ c _ hsplit d hd hdep with hdq | ⟨e, he, hnum⟩
    · exact .inl hdq
    · right
      obtain ⟨hmem, he⟩ := List.mem_filter.mp he
      exact ⟨e, ⟨pre, post, rfl, hmem⟩, by simpa using he, hnum⟩
  · intro h pre c post hsplit d hd hdep
    obtain ⟨l₁, l₂, hl₁₂, rfl, h₂⟩ := List.filter_eq_append_iff.mp hsplit
    obtain ⟨l₃, l₄, rfl, hskip, hc, -⟩ := List.filter_eq_cons_iff.mp h₂
    have hsplit' : l = (l₁ ++ l₃) ++ c :: l₄ := by rw [hl₁₂, List.append_assoc]
    have hmem : c ∈ l := by simp [hsplit']
    refine (h c hmem (by simpa using hc) d hd hdep).imp_right ?_
    rintro ⟨e, hprec, hqueued, hnum⟩
    refine ⟨e, List.mem_filter.mpr ⟨?_, by simp [hqueued]⟩, hnum⟩
    rcases List.mem_append.mp (hprec.mem_of_split hl hsplit') with he | he
    · exact he
    · exact absurd (by simp [hqueued]) (hskip e he)

theorem renames_finalCandidate (cfg : GateConfig) {prs : List ParsedPullRequest}
    (hn : (prs.map (·.number)).Nodup) :
    Kahn.Renames (finalCandidate cfg prs) (eligibleGraph cfg prs)
      (candidateGraph (finalEligible cfg prs)) where
  nodes := finalEligible_eq hn
  key := fun c => congrArg ParsedPullRequest.number (finalCandidate_toParsedPullRequest c)
  deps := fun c => congrArg ParsedPullRequest.dependsOn (finalCandidate_toParsedPullRequest c)

/-- **Where an eligible dependency stands in the dependency order.** -/
theorem precedes_toTopoOrder_iff {cfg : GateConfig} {prs : List ParsedPullRequest}
    (hn : (prs.map (·.number)).Nodup) {c d : ParsedPullRequest}
    (hc : c ∈ (eligibleGraph cfg prs).nodes) (hd : (eligibleGraph cfg prs).Dep c d) :
    Kahn.Precedes (toTopoOrder (finalEligible cfg prs)).ordered (finalCandidate cfg prs d)
        (finalCandidate cfg prs c) ↔
      ¬ (eligibleGraph cfg prs).Stuck c ∨ ¬ (eligibleGraph cfg prs).Stuck d ∨
        compareCandidates d c < 0 := by
  have hE := nodup_finalEligible cfg hn
  have hren := renames_finalCandidate cfg hn
  have hc' : finalCandidate cfg prs c ∈ finalEligible cfg prs := by
    rw [finalEligible_eq hn]
    exact List.mem_map_of_mem hc
  have hinj : ∀ a ∈ unresolved (finalEligible cfg prs), ∀ b ∈ unresolved (finalEligible cfg prs),
      candidateKey a.toParsedPullRequest = candidateKey b.toParsedPullRequest → a = b := by
    intro a ha b hb h
    exact List.inj_on_of_nodup_map hE ((mem_unresolved hE).mp ha).1 ((mem_unresolved hE).mp hb).1
      (number_eq_of_candidateKey_eq h)
  have h := Kahn.precedes_append_stuck_iff (G := candidateGraph (finalEligible cfg prs))
    (fun c => candidateKey c.toParsedPullRequest) hE sortCandidates_perm
    (fun c => mem_unresolved hE) (nodup_order_unresolved hE)
    (sortCandidates_pairwise _) hinj hc' (hren.dep hd)
  rw [toTopoOrder_ordered hE, h, hren.stuck_iff, hren.stuck_iff,
    finalCandidate_toParsedPullRequest, finalCandidate_toParsedPullRequest,
    compareCandidates_lt_iff]

theorem dependencySafe_planned_iff (cfg : GateConfig) (now : ℤ)
    (hn : (pullRequests.map (·.number)).Nodup) :
    DependencySafe (pullRequests.map parsePullRequest) (planned cfg now pullRequests) ↔
      SafeDependencies cfg (pullRequests.map parsePullRequest) := by
  have hn' : ((pullRequests.map parsePullRequest).map (·.number)).Nodup := by
    rwa [List.map_map]
  rw [planned_eq cfg now hn]
  generalize pullRequests.map parsePullRequest = prs at hn'
  have hE := nodup_finalEligible cfg hn'
  have hperm : (toTopoOrder (finalEligible cfg prs)).ordered.Perm (finalEligible cfg prs) := by
    rw [toTopoOrder_ordered hE]
    exact order_unresolved_perm hE
  have hmem : ∀ {e : Candidate}, e ∈ (toTopoOrder (finalEligible cfg prs)).ordered ↔
      ∃ c ∈ (eligibleGraph cfg prs).nodes, finalCandidate cfg prs c = e := by
    intro e
    rw [hperm.mem_iff, finalEligible_eq hn', List.mem_map]
    rfl
  rw [dependencySafe_filter_iff (hperm.nodup_iff.mpr (hE.of_map _))]
  constructor
  · intro h c hc helig hqueued d hd hdep hdq
    have hcn : c ∈ (eligibleGraph cfg prs).nodes := List.mem_filter.mpr ⟨hc, helig⟩
    have hsafe := h (finalCandidate cfg prs c) (hmem.mpr ⟨c, hcn, rfl⟩)
      (by rwa [finalCandidate_toParsedPullRequest]) d hd
      (by rwa [finalCandidate_toParsedPullRequest])
    obtain ⟨e, hprec, -, hnum⟩ := hsafe.resolve_left (by simp [hdq])
    -- the earlier candidate of that number is the dependency itself
    obtain ⟨d', hd', rfl⟩ := hmem.mp hprec.left_mem
    rw [finalCandidate_toParsedPullRequest] at hnum
    obtain rfl := List.inj_on_of_nodup_map hn' (List.mem_of_mem_filter hd') hd hnum
    exact ⟨(List.mem_filter.mp hd').2, (precedes_toTopoOrder_iff hn' hcn ⟨hd', hdep⟩).mp hprec⟩
  · intro h e he hqueued d hd hdep
    obtain ⟨c, hcn, rfl⟩ := hmem.mp he
    rw [finalCandidate_toParsedPullRequest] at hqueued hdep
    obtain ⟨hc, helig⟩ := List.mem_filter.mp hcn
    cases hdq : isQueuedCandidate d with
    | true => exact .inl rfl
    | false =>
      obtain ⟨hde, hplace⟩ := h c hc helig hqueued d hd hdep hdq
      have hdn : d ∈ (eligibleGraph cfg prs).nodes := List.mem_filter.mpr ⟨hd, hde⟩
      refine .inr ⟨finalCandidate cfg prs d,
        (precedes_toTopoOrder_iff hn' hcn ⟨hdn, hdep⟩).mpr hplace, ?_, ?_⟩
      · rwa [finalCandidate_toParsedPullRequest]
      · rw [finalCandidate_toParsedPullRequest]

/-- **Dependencies of what is processed.** For distinct numbers and whatever the
capacity, no candidate is processed without or ahead of an open dependency exactly
when the dependencies are safe. -/
theorem dependencySafe_toProcess_iff (cfg : GateConfig) (now : ℤ)
    (pullRequests : List PullRequest) (hn : (pullRequests.map (·.number)).Nodup) :
    (∀ capacity, DependencySafe (pullRequests.map parsePullRequest)
        (toProcess cfg now capacity pullRequests)) ↔
      SafeDependencies cfg (pullRequests.map parsePullRequest) :=
  dependencySafe_take_iff.trans (dependencySafe_planned_iff cfg now hn)

/-! ### A chain of three -/

/-- A pull request against `develop` with the given number, draft state and
description. -/
def plainPullRequest (number : ℕ) (isDraft : Bool) (body : String) : PullRequest where
  number := number
  title := "change"
  body := body
  updatedAt := none
  baseRefName := "develop"
  isDraft := isDraft
  mergeStateStatus := "CLEAN"
  mergeable := "MERGEABLE"
  isInMergeQueue := false
  labels := []
  autoMergeRequest := none
  statusCheckRollup := []

/-- `develop` is managed by the queue and requires no checks. -/
def developOnly : GateConfig where
  requiredChecksByBranch := fun _ => []
  queueManagedBranches := ["develop"]
  excludedLabels := EXCLUDED_LABELS

def chainOfThree : List PullRequest :=
  [plainPullRequest 1 true "", plainPullRequest 2 false "Depends-On: #1",
    plainPullRequest 3 false "Depends-On: #2"]

/-- The last of the chain is processed although the middle is not eligible. -/
theorem not_dependencySafe_chainOfThree :
    (chainOfThree.map (·.number)).Nodup ∧
      (toProcess developOnly 0 5 chainOfThree).map (·.number) = [3] ∧
      ¬ DependencySafe (chainOfThree.map parsePullRequest)
        (toProcess developOnly 0 5 chainOfThree) := by
  have hrun : (toProcess developOnly 0 5 chainOfThree).map (·.number) = [3] := by
    decide +kernel
  have hsplit : ∃ c, toProcess developOnly 0 5 chainOfThree = [] ++ c :: [] ∧
      2 ∈ c.dependsOn := by
    refine ⟨finalCandidate developOnly (chainOfThree.map parsePullRequest)
      (parsePullRequest (plainPullRequest 3 false "Depends-On: #2")), ?_, ?_⟩
    · decide +kernel
    · decide +kernel
  refine ⟨by decide, hrun, fun h => ?_⟩
  obtain ⟨c, hsplit, hdep⟩ := hsplit
  have hopen : parsePullRequest (plainPullRequest 2 false "Depends-On: #1") ∈
      chainOfThree.map parsePullRequest := List.mem_map_of_mem (by simp [chainOfThree])
  rcases h [] c [] hsplit _ hopen hdep with hqueued | ⟨e, he, -⟩
  · exact absurd hqueued (by decide)
  · exact absurd he (by simp)

/-- The equivalence at the chain of three. -/
theorem dependencySafe_chainOfThree_iff :
    (∀ capacity, DependencySafe (chainOfThree.map parsePullRequest)
        (toProcess developOnly 0 capacity chainOfThree)) ↔
      SafeDependencies developOnly (chainOfThree.map parsePullRequest) :=
  dependencySafe_toProcess_iff developOnly 0 chainOfThree (by decide)

end CompareVI.Queue
