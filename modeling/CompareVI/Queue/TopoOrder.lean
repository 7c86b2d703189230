import CompareVI.Framework.KahnGreedy
import CompareVI.Queue.Planning

/-!
# The dependency order of the queue

What `toTopoOrder` returns for candidates with distinct numbers, whatever they depend on. The
candidates it places are placed greedily (`Kahn.greedy_order`), the others are on or behind a
cycle and come after them, sorted; so neither part depends on the order of the candidates it is
given.
-/

open Framework

namespace CompareVI.Queue

/-- All the dependencies of the candidate that are candidates have been placed. -/
def Available (candidates placed : List Candidate) (c : Candidate) : Prop :=
  ∀ d ∈ candidates, d.number ∈ c.dependsOn → d ∈ placed

/-- What is wanted of `toTopoOrder`. -/
structure TopoOrderLaw (E : List Candidate) : Prop where
  perm : (toTopoOrder E).ordered.Perm E
  cycle : (toTopoOrder E).cycleDetected = true ↔
    ∃ c ∈ E, Relation.TransGen (candidateGraph E).Dep c c
  /-- Without a cycle a candidate comes after what it depends on. -/
  dependencies : (toTopoOrder E).cycleDetected = false → ∀ c ∈ E, ∀ d ∈ E,
    d.number ∈ c.dependsOn → Kahn.Precedes (toTopoOrder E).ordered d c
  /-- Without a cycle each candidate is the first of those that are available. -/
  least : (toTopoOrder E).cycleDetected = false → ∀ pre c post,
    (toTopoOrder E).ordered = pre ++ c :: post → Available E pre c ∧
      ∀ d ∈ E, d ∉ pre → Available E pre d → d ≠ c →
        compareCandidates c.toParsedPullRequest d.toParsedPullRequest < 0
  stable : ∀ E', E'.Perm E → toTopoOrder E' = toTopoOrder E

/-- The order of candidates. -/
def candidateLe (a b : Candidate) : Prop :=
  candidateKey a.toParsedPullRequest ≤ candidateKey b.toParsedPullRequest

section Order

variable {E : List Candidate}

theorem available_iff (hE : (E.map (·.number)).Nodup) {placed : List Candidate}
    (hplaced : ∀ d ∈ placed, d ∈ E) (c : Candidate) :
    Available E placed c ↔ Kahn.openDeps (candidateGraph E) placed c = 0 := by
  rw [Kahn.openDeps_eq_zero]
  constructor
  · intro h k hk hkeys
    obtain ⟨d, hd, rfl⟩ := List.mem_map.mp hkeys
    exact List.mem_map_of_mem (h d hd hk)
  · intro h d hd hdep
    obtain ⟨e, he, hnumber⟩ := List.mem_map.mp (h d.number hdep (List.mem_map_of_mem hd))
    rwa [← List.inj_on_of_nodup_map hE (hplaced e he) hd hnumber]

theorem candidateLe_antisymm (hE : (E.map (·.number)).Nodup) {a b : Candidate} (ha : a ∈ E)
    (hb : b ∈ E) (hab : candidateLe a b) (hba : candidateLe b a) : a = b :=
  List.inj_on_of_nodup_map hE ha hb (number_eq_of_candidateKey_eq (le_antisymm hab hba))

theorem sortCandidates_eq_of_perm (hE : (E.map (·.number)).Nodup) {l l' : List Candidate}
    (hl : ∀ c ∈ l, c ∈ E) (h : l'.Perm l) : sortCandidates l' = sortCandidates l := by
  have hperm : (sortCandidates l').Perm (sortCandidates l) :=
    (sortCandidates_perm l').trans (h.trans (sortCandidates_perm l).symm)
  refine hperm.eq_of_pairwise (fun a b ha hb hab hba => ?_) (sortCandidates_pairwise l')
    (sortCandidates_pairwise l)
  have ha' := hl a (h.mem_iff.mp ((sortCandidates_perm l').mem_iff.mp ha))
  exact candidateLe_antisymm hE ha' (hl b ((sortCandidates_perm l).mem_iff.mp hb)) hab hba

theorem cycleDetected_eq_false_iff :
    (toTopoOrder E).cycleDetected = false ↔
      ((candidateGraph E).order sortCandidates).length = E.length := by
  rw [toTopoOrder]
  split
  · next h => exact iff_of_true rfl h
  · next h => exact iff_of_false (fun hfalse => Bool.noConfusion hfalse) h

theorem toTopoOrder_of_acyclic (h : (toTopoOrder E).cycleDetected = false) :
    (toTopoOrder E).ordered = (candidateGraph E).order sortCandidates := by
  have hlength := cycleDetected_eq_false_iff.mp h
  rw [toTopoOrder]
  rw [if_pos hlength]

theorem greedy_candidates (hE : (E.map (·.number)).Nodup) :
    Kahn.Greedy (candidateGraph E) candidateLe ((candidateGraph E).order sortCandidates) :=
  Kahn.greedy_order hE sortCandidates_perm sortCandidates_pairwise fun _ => le_refl _

theorem toTopoOrder_eq_of_perm (hE : (E.map (·.number)).Nodup) {E' : List Candidate}
    (h : E'.Perm E) : toTopoOrder E' = toTopoOrder E := by
  have horder : (candidateGraph E').order sortCandidates =
      (candidateGraph E).order sortCandidates :=
    Kahn.order_eq_of_perm (G := candidateGraph E) hE sortCandidates_perm sortCandidates_pairwise
      (fun _ => le_refl _) (fun a ha b hb => candidateLe_antisymm hE ha hb) h
  have hrest : ∀ q : Candidate → Bool, sortCandidates (E'.filter q) = sortCandidates (E.filter q) :=
    fun q => sortCandidates_eq_of_perm hE (fun c hc => List.mem_of_mem_filter hc) (h.filter q)
  rw [toTopoOrder, toTopoOrder, horder, h.length_eq]
  rw [hrest]

end Order

/-- **The dependency order.** -/
theorem topoOrderLaw {E : List Candidate} (hE : (E.map (·.number)).Nodup) : TopoOrderLaw E := by
  refine ⟨?_, ?_, ?_, ?_, fun E' h => toTopoOrder_eq_of_perm hE h⟩
  · rw [toTopoOrder_ordered hE]
    exact order_unresolved_perm hE
  · rw [← Bool.not_eq_false, cycleDetected_eq_false_iff, not_iff_comm]
    exact (Kahn.length_order_eq_iff (G := candidateGraph E) hE sortCandidates_perm).symm
  · intro hacyclic c hc d hd hdep
    rw [toTopoOrder_of_acyclic hacyclic]
    have hplaced : c ∈ (candidateGraph E).order sortCandidates := by
      have hperm := order_unresolved_perm hE
      rw [← toTopoOrder_ordered hE, toTopoOrder_of_acyclic hacyclic] at hperm
      exact hperm.mem_iff.mpr hc
    exact Kahn.precedes_of_mem_order (G := candidateGraph E) hE sortCandidates_perm hplaced
      ⟨hd, hdep⟩
  · intro hacyclic pre c post hsplit
    rw [toTopoOrder_of_acyclic hacyclic] at hsplit
    have hgreedy := greedy_candidates hE
    have hmem : ∀ d ∈ pre, d ∈ E := fun d hd =>
      hgreedy.mem d (hsplit ▸ List.mem_append_left _ hd)
    have hc : c ∈ E := hgreedy.mem c (hsplit ▸ List.mem_append_right _ List.mem_cons_self)
    obtain ⟨hopen, hle⟩ := hgreedy.least pre c post hsplit
    refine ⟨(available_iff hE hmem c).mpr hopen, fun d hd hnot havailable hne => ?_⟩
    rw [compareCandidates_lt_iff]
    have hcd := hle d hd hnot ((available_iff hE hmem d).mp havailable)
    refine lt_of_le_of_ne hcd fun hkey => hne ?_
    exact (candidateLe_antisymm hE hc hd hcd hkey.ge).symm

def pairOfCandidates : List Candidate :=
  finalEligible developOnly
    ([plainPullRequest 2 false "Depends-On: #1", plainPullRequest 1 false ""].map
      parsePullRequest)

theorem topoOrderLaw_pair : TopoOrderLaw pairOfCandidates :=
  topoOrderLaw (nodup_finalEligible developOnly (by decide))

end CompareVI.Queue
