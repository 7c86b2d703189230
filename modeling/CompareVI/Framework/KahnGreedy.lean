import CompareVI.Framework.Kahn

/-!
# Kahn's algorithm is greedy

When the ready list is sorted by an order, each node that Kahn's algorithm places is the least
of the nodes whose dependencies are all placed, and it stops only when there are none left
(`Greedy`). This determines the order of the placed nodes (`Greedy.unique`), so the order does not
depend on the list that the nodes are given in (`order_eq_of_perm`).
-/

namespace Framework

namespace Kahn

variable {α κ : Type*} [DecidableEq κ]

/-- Each node is the least whose dependencies are placed, and none of these is left out. -/
structure Greedy (G : DepGraph α κ) (le : α → α → Prop) (l : List α) : Prop where
  mem : ∀ c ∈ l, c ∈ G.nodes
  nodup : l.Nodup
  least : ∀ pre c post, l = pre ++ c :: post → openDeps G pre c = 0 ∧
    ∀ d ∈ G.nodes, d ∉ pre → openDeps G pre d = 0 → le c d
  maximal : ∀ c ∈ G.nodes, openDeps G l c = 0 → c ∈ l

section Unique

variable {G : DepGraph α κ} {le : α → α → Prop}

/-- **There is one greedy order.** -/
theorem Greedy.unique (hanti : ∀ a ∈ G.nodes, ∀ b ∈ G.nodes, le a b → le b a → a = b)
    {l l' : List α} (h : Greedy G le l) (h' : Greedy G le l') : l = l' := by
  -- by the first place where the two differ
  suffices hsuffix : ∀ pre rest rest' : List α, Greedy G le (pre ++ rest) →
      Greedy G le (pre ++ rest') → rest = rest' from hsuffix [] l l' h h'
  intro pre rest
  induction rest generalizing pre with
  | nil =>
    intro rest' h h'
    rcases rest' with _ | ⟨c, rest'⟩
    · rfl
    · rw [List.append_nil] at h
      have hc := h.maximal c (h'.mem c (by simp)) (h'.least pre c rest' rfl).1
      exact absurd rfl ((List.nodup_append.mp h'.nodup).2.2 c hc c List.mem_cons_self)
  | cons c rest ih =>
    intro rest' h h'
    rcases rest' with _ | ⟨c', rest'⟩
    · rw [List.append_nil] at h'
      have hc := h'.maximal c (h.mem c (by simp)) (h.least pre c rest rfl).1
      exact absurd rfl ((List.nodup_append.mp h.nodup).2.2 c hc c List.mem_cons_self)
    · obtain ⟨hopen, hle⟩ := h.least pre c rest rfl
      obtain ⟨hopen', hle'⟩ := h'.least pre c' rest' rfl
      have hc : c ∈ G.nodes := h.mem c (by simp)
      have hc' : c' ∈ G.nodes := h'.mem c' (by simp)
      have hnot : c ∉ pre := fun hmem =>
        (List.nodup_append.mp h.nodup).2.2 c hmem c List.mem_cons_self rfl
      have hnot' : c' ∉ pre := fun hmem =>
        (List.nodup_append.mp h'.nodup).2.2 c' hmem c' List.mem_cons_self rfl
      obtain rfl := hanti c hc c' hc' (hle c' hc' hnot' hopen') (hle' c hc hnot hopen)
      rw [← List.singleton_append, ← List.append_assoc] at h h'
      exact congrArg (c :: ·) (ih (pre ++ [c]) rest' h h')

def DepGraph.withNodes (G : DepGraph α κ) (nodes : List α) : DepGraph α κ where
  key := G.key
  deps := G.deps
  nodes := nodes

theorem openDeps_withNodes {nodes : List α} (h : nodes.Perm G.nodes) (placed : List α) (c : α) :
    openDeps (G.withNodes nodes) placed c = openDeps G placed c := by
  have hkeys : ∀ k, k ∈ (G.withNodes nodes).keys ↔ k ∈ G.keys := fun k =>
    (h.map G.key).mem_iff
  refine List.countP_congr fun d _ => ?_
  simp only [decide_eq_true_eq, hkeys]
  exact Iff.rfl

theorem Greedy.withNodes {nodes l : List α} (h : nodes.Perm G.nodes)
    (hl : Greedy (G.withNodes nodes) le l) : Greedy G le l where
  mem := fun c hc => h.mem_iff.mp (hl.mem c hc)
  nodup := hl.nodup
  least := by
    intro pre c post hsplit
    obtain ⟨hopen, hle⟩ := hl.least pre c post hsplit
    rw [openDeps_withNodes h] at hopen
    refine ⟨hopen, fun d hd hnot hd0 => hle d (h.mem_iff.mpr hd) hnot ?_⟩
    rwa [openDeps_withNodes h]
  maximal := by
    intro c hc h0
    refine hl.maximal c (h.mem_iff.mpr hc) ?_
    rwa [openDeps_withNodes h]

end Unique

/-! ### The algorithm -/

section Algorithm

variable {G : DepGraph α κ} {sort : List α → List α} {le : α → α → Prop}

/-- What every iteration keeps besides. -/
structure GreedyInv (G : DepGraph α κ) (le : α → α → Prop) (s : State α κ) : Prop where
  inv : Inv G s
  sorted : s.ready.Pairwise le
  least : ∀ pre c post, s.order = pre ++ c :: post →
    ∀ d ∈ G.nodes, d ∉ pre → openDeps G pre d = 0 → le c d

theorem foldl_relax_sorted (hsorted : ∀ l, (sort l).Pairwise le) (ts : List κ)
    {s : (κ → ℤ) × List α} (hs : s.2.Pairwise le) :
    (ts.foldl (G.relax sort) s).2.Pairwise le := by
  induction ts generalizing s with
  | nil => exact hs
  | cons t ts ih =>
    rw [List.foldl_cons]
    refine ih ?_
    unfold DepGraph.relax
    dsimp only
    split
    · exact hsorted _
    · exact hs

section

variable (hG : G.Distinct) (hsort : ∀ l, (sort l).Perm l) (hsorted : ∀ l, (sort l).Pairwise le)

include hG hsort hsorted

theorem GreedyInv.start : GreedyInv G le (G.start sort) where
  inv := Inv.start hG hsort
  sorted := hsorted _
  least := by
    intro pre c post h
    simp [DepGraph.start] at h

/-- **One iteration** places the least of the nodes without an open dependency. -/
theorem GreedyInv.step (hrefl : ∀ a, le a a) {s : State α κ} (hs : GreedyInv G le s) :
    GreedyInv G le (G.step sort s) := by
  cases hready : s.ready with
  | nil => simpa only [DepGraph.step, hready] using hs
  | cons next ready =>
    have hstep : G.step sort s =
        { indegree := ((G.targets (G.key next)).foldl (G.relax sort) (s.indegree, ready)).1
          ready := ((G.targets (G.key next)).foldl (G.relax sort) (s.indegree, ready)).2
          order := s.order ++ [next] } := by
      simp only [DepGraph.step, hready]
    have hpairwise : (next :: ready).Pairwise le := hready ▸ hs.sorted
    obtain ⟨hnext, htail⟩ := List.pairwise_cons.mp hpairwise
    refine ⟨hs.inv.step hG hsort, ?_, ?_⟩
    · rw [hstep]
      exact foldl_relax_sorted hsorted _ htail
    · rw [hstep]
      intro pre c post hsplit d hd hnot hopen
      change s.order ++ [next] = pre ++ c :: post at hsplit
      rcases List.eq_nil_or_concat post with rfl | ⟨post', z, rfl⟩
      · -- the node just placed, against what was ready
        obtain ⟨rfl, hlast⟩ := List.append_inj' hsplit rfl
        obtain rfl : next = c := by simpa using hlast
        have hheld := (hs.inv.held d hd).mpr hopen
        rw [List.mem_append, hready] at hheld
        rcases List.mem_cons.mp (hheld.resolve_left hnot) with rfl | hmem
        · exact hrefl d
        · exact hnext d hmem
      · have hsplit' : s.order ++ [next] = (pre ++ c :: post') ++ [z] := by
          rw [hsplit]
          simp
        exact hs.least pre c post' (List.append_inj' hsplit' rfl).1 d hd hnot hopen

/-- **The order is greedy.** -/
theorem greedy_order (hrefl : ∀ a, le a a) : Greedy G le (G.order sort) := by
  have hloop : ∀ n s, GreedyInv G le s → GreedyInv G le (G.loop sort n s) := by
    intro n
    induction n with
    | zero => exact fun _ hs => hs
    | succ n ih => exact fun _ hs => ih _ (hs.step hG hsort hsorted hrefl)
  have hs := hloop G.nodes.length _ (GreedyInv.start hG hsort hsorted)
  have hready : (G.loop sort G.nodes.length (G.start sort)).ready = [] :=
    ready_loop_eq_nil hG hsort _ (Inv.start hG hsort) (by simp)
  refine ⟨fun c hc => mem_of_mem_order hG hsort hc, (nodup_order hG hsort).of_map _, ?_, ?_⟩
  · intro pre c post hsplit
    refine ⟨openDeps_eq_zero.mpr fun d hd hkeys => ?_, hs.least pre c post hsplit⟩
    exact hs.inv.closed pre c post hsplit d hd hkeys
  · intro c hc hopen
    have hheld := (hs.inv.held c hc).mpr hopen
    rwa [hready, List.append_nil] at hheld

/-- **The order does not depend on the list.** -/
theorem order_eq_of_perm (hrefl : ∀ a, le a a)
    (hanti : ∀ a ∈ G.nodes, ∀ b ∈ G.nodes, le a b → le b a → a = b) {nodes : List α}
    (h : nodes.Perm G.nodes) : (G.withNodes nodes).order sort = G.order sort := by
  have hdistinct : (G.withNodes nodes).Distinct := (h.map G.key).nodup_iff.mpr hG
  have hother := greedy_order hdistinct hsort hsorted hrefl
  exact (hother.withNodes h).unique hanti (greedy_order hG hsort hsorted hrefl)

end

theorem length_order_eq_iff (hG : G.Distinct) (hsort : ∀ l, (sort l).Perm l) :
    (G.order sort).length = G.nodes.length ↔
      ¬ ∃ c ∈ G.nodes, Relation.TransGen G.Dep c c := by
  have hnodup : (G.order sort).Nodup := (nodup_order hG hsort).of_map _
  have hsub : (G.order sort) ⊆ G.nodes := fun c hc => mem_of_mem_order hG hsort hc
  have hall : (G.order sort).length = G.nodes.length ↔ ∀ c ∈ G.nodes, c ∈ G.order sort := by
    constructor
    · intro hlength
      have hperm : (G.order sort).Perm G.nodes :=
        (List.subperm_of_subset hnodup hsub).perm_of_length_le hlength.ge
      exact fun c hc => hperm.mem_iff.mpr hc
    · intro hmem
      refine Nat.le_antisymm (List.subperm_of_subset hnodup hsub).length_le ?_
      exact (List.subperm_of_subset (hG.of_map _) hmem).length_le
  rw [hall]
  constructor
  · rintro h ⟨c, hc, hcycle⟩
    exact (mem_order_iff hG hsort hc).mp (h c hc) ⟨c, .refl, hcycle⟩
  · intro h c hc
    refine (mem_order_iff hG hsort hc).mpr ?_
    rintro ⟨d, -, hcycle⟩
    obtain ⟨e, -, hed⟩ := Relation.TransGen.tail'_iff.mp hcycle
    exact h ⟨d, hed.1, hcycle⟩

end Algorithm

end Kahn

end Framework
