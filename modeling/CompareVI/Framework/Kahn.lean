import Mathlib.Data.Fintype.Card
import Mathlib.Data.List.Nodup
import Mathlib.Data.Set.Finite.Basic
import Mathlib.Logic.Relation
import Mathlib.Tactic.Common

/-!
# Kahn's algorithm on a keyed list

The nodes of a graph are the elements of a list, told apart by a key, and a node
lists the keys it depends on; a dependency that is no key of the list is ignored.
Kahn's algorithm keeps the number of open dependencies of each node
(`indegree`), a list of nodes that have none (`ready`), and the nodes it has
placed (`order`). A step places the first ready node and lowers the count of each
of its dependents; a dependent whose count reaches zero joins the ready list,
which is then sorted again.

The invariant (`Inv`) says that the counts are right, that the placed and the
ready nodes are exactly those of count zero, each of them once, and that every
placed node stands after its dependencies. One pass over the dependents of a
placed node is `foldl_relax`, one step is `Inv.step`.

The results, for a list with distinct keys:

* `precedes_of_mem_order` — a placed node comes after its dependencies;
* `mem_order_iff` — a node is placed exactly when it does not lead to a cycle;
* `precedes_append_stuck_iff` — when the remaining nodes are appended in sorted
  order, what this does to a dependency.
-/

namespace Framework

namespace Kahn

open Relation

variable {α κ : Type*} [DecidableEq κ]

structure DepGraph (α κ : Type*) where
  key : α → κ
  deps : α → List κ
  nodes : List α

structure State (α κ : Type*) where
  indegree : κ → ℤ
  ready : List α
  order : List α

namespace DepGraph

variable (G : DepGraph α κ) (sort : List α → List α)

def keys : List κ := G.nodes.map G.key

/-- The keys tell the nodes apart. -/
def Distinct : Prop := G.keys.Nodup

def node? (k : κ) : Option α := G.nodes.find? fun c => G.key c = k

def targets (k : κ) : List κ :=
  G.nodes.flatMap fun c => ((G.deps c).filter (· = k)).map fun _ => G.key c

def indegree₀ (k : κ) : ℤ :=
  (G.nodes.flatMap fun c =>
    if G.key c = k then (G.deps c).filter (· ∈ G.keys) else []).length

def relax (s : (κ → ℤ) × List α) (t : κ) : (κ → ℤ) × List α :=
  let indegree := Function.update s.1 t (s.1 t - 1)
  if indegree t = 0 then (indegree, sort (s.2 ++ (G.node? t).toList))
  else (indegree, s.2)

def start : State α κ where
  indegree := G.indegree₀
  ready := sort (G.nodes.filter fun c => G.indegree₀ (G.key c) = 0)
  order := []

def step (s : State α κ) : State α κ :=
  match s.ready with
  | [] => s
  | next :: ready =>
    let r := (G.targets (G.key next)).foldl (G.relax sort) (s.indegree, ready)
    { indegree := r.1, ready := r.2, order := s.order ++ [next] }

/-- The loop, cut off after `n` iterations. -/
def loop : ℕ → State α κ → State α κ
  | 0, s => s
  | n + 1, s => loop n (G.step sort s)

/-- The nodes the algorithm places. As many iterations as there are nodes are
enough (`ready_loop_eq_nil`). -/
def order : List α := (G.loop sort G.nodes.length (G.start sort)).order

/-- `c` depends on the node `d`. -/
def Dep (c d : α) : Prop := d ∈ G.nodes ∧ G.key d ∈ G.deps c

/-- `c` is on a cycle of dependencies or leads to one. -/
def Stuck (c : α) : Prop := ∃ d, ReflTransGen G.Dep c d ∧ TransGen G.Dep d d

end DepGraph

/-- `d` stands before `c` in a list. -/
def Precedes (l : List α) (d c : α) : Prop := ∃ pre post, l = pre ++ c :: post ∧ d ∈ pre

variable {G : DepGraph α κ} {sort : List α → List α}

/-! ### Keys -/

omit [DecidableEq κ] in
theorem DepGraph.Distinct.eq_of_key (hG : G.Distinct) {c d : α} (hc : c ∈ G.nodes)
    (hd : d ∈ G.nodes) (h : G.key c = G.key d) : c = d :=
  List.inj_on_of_nodup_map hG hc hd h

omit [DecidableEq κ] in
theorem mem_keys_of_mem {c : α} (hc : c ∈ G.nodes) : G.key c ∈ G.keys :=
  List.mem_map_of_mem hc

theorem mem_node?_toList (hG : G.Distinct) {k : κ} {c : α} :
    c ∈ (G.node? k).toList ↔ c ∈ G.nodes ∧ G.key c = k := by
  rw [Option.mem_toList]
  constructor
  · intro h
    have h' := List.find?_eq_some_iff_append.mp h
    exact ⟨List.mem_of_find?_eq_some h, of_decide_eq_true h'.1⟩
  · rintro ⟨hc, rfl⟩
    cases hfind : G.node? (G.key c) with
    | none =>
      have := List.find?_eq_none.mp hfind c hc
      simp at this
    | some d =>
      have hd : G.key d = G.key c := by simpa using List.find?_some hfind
      rw [hG.eq_of_key (List.mem_of_find?_eq_some hfind) hc hd]

theorem node?_toList_nodup (k : κ) : ((G.node? k).toList.map G.key).Nodup := by
  cases G.node? k <;> simp

theorem mem_targets {k t : κ} :
    t ∈ G.targets k ↔ ∃ c ∈ G.nodes, k ∈ G.deps c ∧ G.key c = t := by
  simp only [DepGraph.targets, List.mem_flatMap, List.mem_map, List.mem_filter, decide_eq_true_eq]
  constructor
  · rintro ⟨c, hc, d, ⟨hd, rfl⟩, rfl⟩
    exact ⟨c, hc, hd, rfl⟩
  · rintro ⟨c, hc, hk, rfl⟩
    exact ⟨c, hc, k, ⟨hk, rfl⟩, rfl⟩

omit [DecidableEq κ] in
theorem length_flatMap_of_key {β : Type*} (hG : G.Distinct) (f : α → List β) {c : α}
    (hc : c ∈ G.nodes) (hf : ∀ d ∈ G.nodes, G.key d ≠ G.key c → f d = []) :
    (G.nodes.flatMap f).length = (f c).length := by
  obtain ⟨pre, post, hsplit⟩ := List.append_of_mem hc
  have hn := hG
  rw [DepGraph.Distinct, DepGraph.keys, hsplit, List.map_append, List.map_cons] at hn
  obtain ⟨-, hpost, hdisj⟩ := List.nodup_append.mp hn
  have hpre : pre.flatMap f = [] := by
    refine List.flatMap_eq_nil_iff.mpr fun d hd => hf d (hsplit ▸ List.mem_append_left _ hd) ?_
    exact hdisj (G.key d) (List.mem_map_of_mem hd) (G.key c) List.mem_cons_self
  have hpost : post.flatMap f = [] := by
    refine List.flatMap_eq_nil_iff.mpr fun d hd =>
      hf d (hsplit ▸ List.mem_append_right _ (List.mem_cons_of_mem _ hd)) fun h => ?_
    exact (List.nodup_cons.mp hpost).1 (h ▸ List.mem_map_of_mem hd)
  rw [hsplit, List.flatMap_append, List.flatMap_cons, hpre, hpost]
  simp

theorem indegree₀_key (hG : G.Distinct) {c : α} (hc : c ∈ G.nodes) :
    G.indegree₀ (G.key c) = ((G.deps c).countP (· ∈ G.keys) : ℕ) := by
  rw [DepGraph.indegree₀, length_flatMap_of_key hG _ hc, if_pos rfl, List.countP_eq_length_filter]
  intro d _ hd
  rw [if_neg hd]

theorem count_targets (hG : G.Distinct) (k : κ) {c : α} (hc : c ∈ G.nodes) :
    (G.targets k).count (G.key c) = (G.deps c).count k := by
  have hcount : (G.targets k).count (G.key c) =
      (G.nodes.flatMap fun d =>
        (((G.deps d).filter (· = k)).map fun _ => G.key d).filter (· = G.key c)).length := by
    rw [DepGraph.targets, List.count_eq_length_filter, List.filter_flatMap]
    simp only [beq_eq_decide]
  rw [hcount, length_flatMap_of_key hG _ hc]
  · simp [List.count_eq_length_filter, beq_eq_decide]
  · intro d _ hd
    simp [hd]

/-! ### One pass over the dependents of a node -/

/-- **The dependents of one node.** A pass over the keys `ts` lowers the count of
each as often as it occurs, and the nodes whose count this brings to zero join the
ready list. -/
theorem foldl_relax (hG : G.Distinct) (hsort : ∀ l, (sort l).Perm l) (ts : List κ)
    (indegree : κ → ℤ) (ready : List α) (hts : ∀ k ∈ ts, (ts.count k : ℤ) ≤ indegree k) :
    (ts.foldl (G.relax sort) (indegree, ready)).1 = (fun k => indegree k - ts.count k) ∧
      ∃ new, ((ts.foldl (G.relax sort) (indegree, ready)).2).Perm (ready ++ new) ∧
        (new.map G.key).Nodup ∧
        ∀ c, c ∈ new ↔ c ∈ G.nodes ∧ G.key c ∈ ts ∧ indegree (G.key c) = ts.count (G.key c) := by
  induction ts generalizing indegree ready with
  | nil => exact ⟨by simp, [], by simp, by simp, by simp⟩
  | cons t ts ih =>
    have hle : ∀ k ∈ ts, (ts.count k : ℤ) ≤ Function.update indegree t (indegree t - 1) k := by
      intro k hk
      have := hts k (List.mem_cons_of_mem _ hk)
      rw [List.count_cons] at this
      by_cases h : t = k
      · subst h
        simp at this ⊢
        omega
      · have h' : k ≠ t := fun e => h e.symm
        simpa [h, h'] using this
    have hfun : (fun k => Function.update indegree t (indegree t - 1) k - (ts.count k : ℤ)) =
        fun k => indegree k - ((t :: ts).count k : ℤ) := by
      funext k
      rw [List.count_cons]
      by_cases h : t = k
      · subst h
        simp
        omega
      · have h' : k ≠ t := fun e => h e.symm
        simp [h, h']
    rw [List.foldl_cons]
    by_cases hzero : Function.update indegree t (indegree t - 1) t = 0
    · -- the count of `t` reaches zero, so `t` is not among the rest
      have hrelax : G.relax sort (indegree, ready) t =
          (Function.update indegree t (indegree t - 1),
            sort (ready ++ (G.node? t).toList)) := by
        simp only [DepGraph.relax, if_pos hzero]
      have hone : indegree t = 1 := by
        rw [Function.update_self] at hzero
        omega
      have hnotin : t ∉ ts := by
        have := hts t List.mem_cons_self
        rw [List.count_cons_self] at this
        exact List.count_eq_zero.mp (by omega)
      obtain ⟨h1, new, hperm, hnodup, hmem⟩ :=
        ih (Function.update indegree t (indegree t - 1)) (sort (ready ++ (G.node? t).toList)) hle
      rw [hrelax]
      refine ⟨h1.trans hfun, (G.node? t).toList ++ new, ?_, ?_, ?_⟩
      · refine hperm.trans ?_
        rw [← List.append_assoc]
        exact (hsort _).append_right new
      · rw [List.map_append, List.nodup_append]
        refine ⟨node?_toList_nodup t, hnodup, ?_⟩
        intro k hk k' hk' e
        obtain ⟨c, hc, rfl⟩ := List.mem_map.mp hk
        obtain ⟨d, hd, rfl⟩ := List.mem_map.mp hk'
        rw [((mem_node?_toList hG).mp hc).2] at e
        exact hnotin (e ▸ ((hmem d).mp hd).2.1)
      · intro c
        rw [List.mem_append, mem_node?_toList hG, hmem]
        by_cases h : G.key c = t
        · simp [h, hnotin, hone, List.count_eq_zero.mpr hnotin]
        · have h' : t ≠ G.key c := fun e => h e.symm
          simp [h, h']
    · have hrelax : G.relax sort (indegree, ready) t =
          (Function.update indegree t (indegree t - 1), ready) := by
        simp only [DepGraph.relax, if_neg hzero]
      obtain ⟨h1, new, hperm, hnodup, hmem⟩ :=
        ih (Function.update indegree t (indegree t - 1)) ready hle
      rw [hrelax]
      refine ⟨h1.trans hfun, new, hperm, hnodup, ?_⟩
      intro c
      rw [hmem]
      by_cases h : G.key c = t
      · rw [Function.update_self] at hzero
        by_cases hin : t ∈ ts
        · simp [h, hin]
          omega
        · have hc0 := List.count_eq_zero.mpr hin
          simp [h, hin, hc0]
          omega
      · have h' : t ≠ G.key c := fun e => h e.symm
        simp [h, h']

/-! ### The invariant -/

/-- The dependencies of `c` that are nodes and not among the placed ones. -/
def openDeps (G : DepGraph α κ) (placed : List α) (c : α) : ℕ :=
  (G.deps c).countP fun d => d ∈ G.keys ∧ d ∉ placed.map G.key

/-- What every iteration keeps. -/
structure Inv (G : DepGraph α κ) (s : State α κ) : Prop where
  nodup : ((s.order ++ s.ready).map G.key).Nodup
  mem : ∀ c ∈ s.order ++ s.ready, c ∈ G.nodes
  indegree : ∀ c ∈ G.nodes, s.indegree (G.key c) = (openDeps G s.order c : ℤ)
  /-- The nodes held are those without an open dependency. -/
  held : ∀ c ∈ G.nodes, c ∈ s.order ++ s.ready ↔ openDeps G s.order c = 0
  /-- A placed node stands after its dependencies. -/
  closed : ∀ pre c post, s.order = pre ++ c :: post →
    ∀ d ∈ G.deps c, d ∈ G.keys → d ∈ pre.map G.key

theorem openDeps_eq_zero {placed : List α} {c : α} :
    openDeps G placed c = 0 ↔ ∀ d ∈ G.deps c, d ∈ G.keys → d ∈ placed.map G.key := by
  simp [openDeps, List.countP_eq_zero, -List.mem_map]

theorem openDeps_append (placed : List α) (next c : α) (hnext : G.key next ∈ G.keys)
    (hnew : G.key next ∉ placed.map G.key) :
    openDeps G (placed ++ [next]) c + (G.deps c).count (G.key next) = openDeps G placed c := by
  unfold openDeps
  induction G.deps c with
  | nil => rfl
  | cons d ds ih =>
    rw [List.countP_cons, List.countP_cons, List.count_cons]
    by_cases h : d = G.key next
    · subst h
      simp only [List.map_append, List.map_cons, List.map_nil, List.mem_append,
        List.mem_singleton, hnext, hnew, or_true, not_true, and_false, decide_false, true_and,
        not_false_eq_true, decide_true, beq_self_eq_true, if_true, Bool.false_eq_true,
        if_false] at ih ⊢
      omega
    · have h' : ¬ G.key next = d := fun e => h e.symm
      simp only [List.map_append, List.map_cons, List.map_nil, List.mem_append,
        List.mem_singleton, h, or_false, beq_iff_eq, if_false, Nat.add_zero] at ih ⊢
      omega

theorem Inv.start (hG : G.Distinct) (hsort : ∀ l, (sort l).Perm l) : Inv G (G.start sort) where
  nodup := by
    refine ((hsort _).map G.key).nodup_iff.mpr ?_
    exact hG.sublist (List.filter_sublist.map G.key)
  mem := fun c hc => (List.mem_filter.mp ((hsort _).mem_iff.mp hc)).1
  indegree := by
    intro c hc
    refine (indegree₀_key hG hc).trans ?_
    simp [openDeps, DepGraph.start]
  held := by
    intro c hc
    have hmem : c ∈ (G.start sort).order ++ (G.start sort).ready ↔ G.indegree₀ (G.key c) = 0 := by
      refine ((hsort _).mem_iff).trans ?_
      simp [hc]
    rw [hmem, indegree₀_key hG hc]
    simp [openDeps, DepGraph.start]
  closed := by
    intro pre c post h
    simp [DepGraph.start] at h

/-- **One iteration keeps the invariant.** The new ready nodes are those whose last
open dependency was the node placed. -/
theorem Inv.step (hG : G.Distinct) (hsort : ∀ l, (sort l).Perm l) {s : State α κ}
    (hs : Inv G s) : Inv G (G.step sort s) := by
  cases hready : s.ready with
  | nil => simpa only [DepGraph.step, hready] using hs
  | cons next ready =>
    have hnext : next ∈ s.order ++ s.ready := by simp [hready]
    have hkey : G.key next ∈ G.keys := mem_keys_of_mem (hs.mem next hnext)
    have hnew : G.key next ∉ s.order.map G.key := by
      have hn := hs.nodup
      rw [hready, List.map_append, List.map_cons] at hn
      exact fun h => (List.nodup_append.mp hn).2.2 _ h _ List.mem_cons_self rfl
    have hopen := fun c => openDeps_append s.order next c hkey hnew
    have hts : ∀ k ∈ G.targets (G.key next),
        ((G.targets (G.key next)).count k : ℤ) ≤ s.indegree k := by
      intro k hk
      obtain ⟨c, hc, -, rfl⟩ := mem_targets.mp hk
      rw [count_targets hG _ hc, hs.indegree c hc]
      have := hopen c
      omega
    obtain ⟨hind, new, hperm, hnodup, hmem⟩ :=
      foldl_relax hG hsort (G.targets (G.key next)) s.indegree ready hts
    have hstep : G.step sort s =
        { indegree := ((G.targets (G.key next)).foldl (G.relax sort) (s.indegree, ready)).1
          ready := ((G.targets (G.key next)).foldl (G.relax sort) (s.indegree, ready)).2
          order := s.order ++ [next] } := by
      simp only [DepGraph.step, hready]
    -- a new ready node has a last open dependency, so it was not held before
    have hnew_iff : ∀ c ∈ G.nodes, (c ∈ new ↔
        openDeps G s.order c ≠ 0 ∧ openDeps G (s.order ++ [next]) c = 0) := by
      intro c hc
      have hc' := hopen c
      rw [hmem, ← List.count_pos_iff (a := G.key c), hs.indegree c hc, count_targets hG _ hc]
      constructor
      · rintro ⟨-, h1, h2⟩
        omega
      · intro h
        exact ⟨hc, by omega, by omega⟩
    have hheld : ((s.order ++ [next]) ++
        ((G.targets (G.key next)).foldl (G.relax sort) (s.indegree, ready)).2).Perm
          ((s.order ++ s.ready) ++ new) := by
      rw [hready, List.append_assoc, List.append_assoc]
      exact (List.perm_append_left_iff _).mpr (hperm.cons next)
    rw [hstep]
    refine ⟨?_, ?_, ?_, ?_, ?_⟩
    · refine (hheld.map G.key).nodup_iff.mpr ?_
      rw [List.map_append, List.nodup_append]
      refine ⟨hs.nodup, hnodup, ?_⟩
      intro k hk k' hk' e
      obtain ⟨c, hc, rfl⟩ := List.mem_map.mp hk
      obtain ⟨d, hd, rfl⟩ := List.mem_map.mp hk'
      have hdn := ((hmem d).mp hd).1
      obtain rfl := hG.eq_of_key (hs.mem c hc) hdn e
      exact ((hnew_iff c hdn).mp hd).1 ((hs.held c hdn).mp hc)
    · intro c hc
      rcases List.mem_append.mp (hheld.mem_iff.mp hc) with h | h
      · exact hs.mem c h
      · exact ((hmem c).mp h).1
    · intro c hc
      rw [hind]
      change s.indegree (G.key c) - _ = _
      rw [hs.indegree c hc, count_targets hG _ hc]
      have := hopen c
      change _ = (openDeps G (s.order ++ [next]) c : ℤ)
      omega
    · intro c hc
      refine hheld.mem_iff.trans ?_
      rw [List.mem_append, hs.held c hc, hnew_iff c hc]
      have := hopen c
      change _ ↔ openDeps G (s.order ++ [next]) c = 0
      omega
    · intro pre c post hsplit d hd hdk
      change s.order ++ [next] = pre ++ c :: post at hsplit
      rcases List.eq_nil_or_concat post with rfl | ⟨post', z, rfl⟩
      · -- the node just placed: it had no open dependency
        obtain ⟨rfl, hlast⟩ := List.append_inj' hsplit rfl
        obtain rfl : next = c := by simpa using hlast
        exact openDeps_eq_zero.mp ((hs.held next (hs.mem next hnext)).mp hnext) d hd hdk
      · have hsplit' : s.order ++ [next] = (pre ++ c :: post') ++ [z] := by
          rw [hsplit]
          simp
        exact hs.closed pre c post' (List.append_inj' hsplit' rfl).1 d hd hdk

theorem Inv.loop (hG : G.Distinct) (hsort : ∀ l, (sort l).Perm l) (n : ℕ) {s : State α κ}
    (hs : Inv G s) : Inv G (G.loop sort n s) := by
  induction n generalizing s with
  | zero => exact hs
  | succ n ih => exact ih (hs.step hG hsort)

/-! ### The loop ends -/

omit [DecidableEq κ] in
theorem length_le_of_mem {l : List α} (hn : (l.map G.key).Nodup)
    (hl : ∀ c ∈ l, c ∈ G.nodes) : l.length ≤ G.nodes.length := by
  have hsub : l.map G.key ⊆ G.keys := by
    intro k hk
    obtain ⟨c, hc, rfl⟩ := List.mem_map.mp hk
    exact mem_keys_of_mem (hl c hc)
  have := (List.subperm_of_subset hn hsub).length_le
  simpa [DepGraph.keys] using this

theorem loop_of_ready_eq_nil {s : State α κ} (h : s.ready = []) (n : ℕ) :
    G.loop sort n s = s := by
  induction n with
  | zero => rfl
  | succ n ih =>
    have hstep : G.step sort s = s := by simp only [DepGraph.step, h]
    rw [DepGraph.loop, hstep, ih]

theorem length_order_step {s : State α κ} (h : s.ready ≠ []) :
    (G.step sort s).order.length = s.order.length + 1 := by
  cases hready : s.ready with
  | nil => exact absurd hready h
  | cons next ready => simp [DepGraph.step, hready]

section

variable (hG : G.Distinct) (hsort : ∀ l, (sort l).Perm l)

include hG hsort

/-- Every iteration places a node, so the ready list is empty after as many
iterations as there are nodes left. -/
theorem ready_loop_eq_nil (n : ℕ) {s : State α κ} (hs : Inv G s)
    (hn : G.nodes.length ≤ s.order.length + n) : (G.loop sort n s).ready = [] := by
  induction n generalizing s with
  | zero =>
    have hle := length_le_of_mem hs.nodup hs.mem
    rw [List.length_append] at hle
    exact List.length_eq_zero_iff.mp (by change s.ready.length = 0; omega)
  | succ n ih =>
    by_cases h : s.ready = []
    · rw [loop_of_ready_eq_nil h, h]
    · refine ih (hs.step hG hsort) ?_
      rw [length_order_step h]
      omega

/-! ### What is placed -/

theorem inv_final : Inv G (G.loop sort G.nodes.length (G.start sort)) :=
  (Inv.start hG hsort).loop hG hsort _

theorem nodup_order : ((G.order sort).map G.key).Nodup := by
  have h := (inv_final hG hsort).nodup
  rw [List.map_append] at h
  exact (List.nodup_append.mp h).1

theorem mem_of_mem_order {c : α} (hc : c ∈ G.order sort) : c ∈ G.nodes :=
  (inv_final hG hsort).mem c (List.mem_append_left _ hc)

theorem mem_order_iff_deps {c : α} (hc : c ∈ G.nodes) :
    c ∈ G.order sort ↔ ∀ d, G.Dep c d → d ∈ G.order sort := by
  have hs := inv_final hG hsort
  have hready : (G.loop sort G.nodes.length (G.start sort)).ready = [] :=
    ready_loop_eq_nil hG hsort _ (Inv.start hG hsort) (by simp)
  have hheld := hs.held c hc
  rw [hready, List.append_nil, openDeps_eq_zero] at hheld
  refine hheld.trans ⟨fun h d hd => ?_, fun h k hk hkeys => ?_⟩
  · obtain ⟨e, he, hkey⟩ := List.mem_map.mp (h _ hd.2 (mem_keys_of_mem hd.1))
    rwa [← hG.eq_of_key (hs.mem e (List.mem_append_left _ he)) hd.1 hkey]
  · obtain ⟨d, hd, rfl⟩ := List.mem_map.mp hkeys
    exact List.mem_map_of_mem (h d ⟨hd, hk⟩)

/-- **The order respects the dependencies.** -/
theorem precedes_of_mem_order {c d : α} (hc : c ∈ G.order sort) (hd : G.Dep c d) :
    Precedes (G.order sort) d c := by
  have hs := inv_final hG hsort
  obtain ⟨pre, post, hsplit⟩ := List.append_of_mem hc
  refine ⟨pre, post, hsplit, ?_⟩
  have hkey := hs.closed pre c post hsplit _ hd.2 (mem_keys_of_mem hd.1)
  obtain ⟨e, he, hek⟩ := List.mem_map.mp hkey
  have hemem : e ∈ G.order sort := by
    rw [hsplit]
    exact List.mem_append_left _ he
  rwa [← hG.eq_of_key (mem_of_mem_order hG hsort hemem) hd.1 hek]

end

/-! ### Cycles -/

section Precedes

variable {l : List α}

theorem not_precedes_self (hl : l.Nodup) (c : α) : ¬ Precedes l c c := by
  rintro ⟨pre, post, rfl, hmem⟩
  exact (List.nodup_append.mp hl).2.2 c hmem c List.mem_cons_self rfl

theorem Precedes.left_mem {a b : α} (h : Precedes l a b) : a ∈ l := by
  obtain ⟨pre, post, rfl, hmem⟩ := h
  exact List.mem_append_left _ hmem

theorem Precedes.append_right {a b : α} (h : Precedes l a b) (m : List α) :
    Precedes (l ++ m) a b := by
  obtain ⟨pre, post, rfl, hmem⟩ := h
  exact ⟨pre, post ++ m, by simp, hmem⟩

theorem precedes_append_of_mem {m : List α} {a b : α} (ha : a ∈ l) (hb : b ∈ m) :
    Precedes (l ++ m) a b := by
  obtain ⟨pre, post, rfl⟩ := List.append_of_mem hb
  exact ⟨l ++ pre, post, by simp, List.mem_append_left _ ha⟩

theorem Precedes.append_left {a b : α} (h : Precedes l a b) (m : List α) :
    Precedes (m ++ l) a b := by
  obtain ⟨pre, post, rfl, hmem⟩ := h
  exact ⟨m ++ pre, post, by simp, List.mem_append_right _ hmem⟩

theorem precedes_or_precedes {a b : α} (ha : a ∈ l) (hb : b ∈ l) (hne : a ≠ b) :
    Precedes l a b ∨ Precedes l b a := by
  obtain ⟨pre, post, rfl⟩ := List.append_of_mem hb
  rcases List.mem_append.mp ha with h | h
  · exact .inl ⟨pre, post, rfl, h⟩
  · refine .inr ?_
    have ha' : a ∈ post := (List.mem_cons.mp h).resolve_left hne
    obtain ⟨u, v, rfl⟩ := List.append_of_mem ha'
    exact ⟨pre ++ b :: u, v, by simp, by simp⟩

theorem Precedes.rel {r : α → α → Prop} (hl : l.Pairwise r) {a b : α} (h : Precedes l a b) :
    r a b := by
  obtain ⟨pre, post, rfl, hmem⟩ := h
  exact (List.pairwise_append.mp hl).2.2 a hmem b List.mem_cons_self

theorem Precedes.mem_of_split (hl : l.Nodup) {a b : α} (h : Precedes l a b) {pre post : List α}
    (hsplit : l = pre ++ b :: post) : a ∈ pre := by
  obtain ⟨pre', post', hsplit', hmem⟩ := h
  rw [hsplit] at hl hsplit'
  obtain ⟨-, htail, hdisj⟩ := List.nodup_append.mp hl
  obtain ⟨rfl, -⟩ := (List.append_cons_inj_of_notMem
    (fun h => hdisj b h b List.mem_cons_self rfl) (List.nodup_cons.mp htail).1).mp hsplit'
  exact hmem

theorem Precedes.trans (hl : l.Nodup) {a b c : α} (hab : Precedes l a b) (hbc : Precedes l b c) :
    Precedes l a c := by
  obtain ⟨pre, post, rfl, hmem⟩ := hbc
  obtain ⟨u, v, rfl⟩ := List.append_of_mem hmem
  have ha : a ∈ u := hab.mem_of_split hl (by simp : _ = u ++ b :: (v ++ c :: post))
  exact ⟨u ++ b :: v, post, rfl, List.mem_append_left _ ha⟩

end Precedes

/-- Along a chain of dependencies from a placed node everything is placed, and
earlier. -/
theorem precedes_of_transGen (hG : G.Distinct) (hsort : ∀ l, (sort l).Perm l) {c d : α}
    (hc : c ∈ G.order sort) (h : TransGen G.Dep c d) :
    d ∈ G.order sort ∧ Precedes (G.order sort) d c := by
  have hnodup : (G.order sort).Nodup := (nodup_order hG hsort).of_map _
  have hstep : ∀ {x y : α}, x ∈ G.order sort → G.Dep x y → y ∈ G.order sort := by
    intro x y hx hxy
    exact (mem_order_iff_deps hG hsort (mem_of_mem_order hG hsort hx)).mp hx y hxy
  induction h with
  | single hcd => exact ⟨hstep hc hcd, precedes_of_mem_order hG hsort hc hcd⟩
  | tail _ hde ih =>
    exact ⟨hstep ih.1 hde, (precedes_of_mem_order hG hsort ih.1 hde).trans hnodup ih.2⟩

/-- A node that leads to no cycle is placed: its dependencies are, by induction
along the finite acyclic relation below it. -/
theorem mem_order_of_not_stuck (hG : G.Distinct) (hsort : ∀ l, (sort l).Perm l) {c : α}
    (hc : c ∈ G.nodes) (hstuck : ¬ G.Stuck c) : c ∈ G.order sort := by
  let Below := {d : α // d ∈ G.nodes ∧ ReflTransGen G.Dep c d}
  have hfin : Finite Below :=
    ((List.finite_toSet G.nodes).subset fun d hd => hd.1).to_subtype
  let r : Below → Below → Prop := fun x y => TransGen G.Dep y.1 x.1
  have : IsTrans Below r := ⟨fun _ _ _ hxy hyz => hyz.trans hxy⟩
  have : Std.Irrefl r := ⟨fun x hx => hstuck ⟨x.1, x.2.2, hx⟩⟩
  have hwf : WellFounded r := Finite.wellFounded_of_trans_of_irrefl r
  have hall : ∀ x : Below, x.1 ∈ G.order sort := by
    intro x
    induction x using hwf.induction with
    | _ x ih =>
      refine (mem_order_iff_deps hG hsort x.2.1).mpr fun d hd => ?_
      exact ih ⟨d, hd.1, x.2.2.tail hd⟩ (TransGen.single hd)
  exact hall ⟨c, hc, ReflTransGen.refl⟩

/-- **What the algorithm places.** A node is placed exactly when it does not lead
to a cycle of dependencies. -/
theorem mem_order_iff (hG : G.Distinct) (hsort : ∀ l, (sort l).Perm l) {c : α}
    (hc : c ∈ G.nodes) : c ∈ G.order sort ↔ ¬ G.Stuck c := by
  constructor
  · rintro hmem ⟨d, hcd, hdd⟩
    have hd : d ∈ G.order sort := by
      rcases reflTransGen_iff_eq_or_transGen.mp hcd with rfl | h
      · exact hmem
      · exact (precedes_of_transGen hG hsort hmem h).1
    exact not_precedes_self ((nodup_order hG hsort).of_map _) d
      (precedes_of_transGen hG hsort hd hdd).2
  · exact mem_order_of_not_stuck hG hsort hc

/-! ### The order with the stuck nodes behind -/

/-- **Where a dependency stands.** Append the stuck nodes, sorted, to the placed
ones. A dependency comes first exactly when its dependent is placed, or it is
placed itself, or both are stuck and it is the smaller. -/
theorem precedes_append_stuck_iff {β : Type*} [LinearOrder β] (rank : α → β)
    (hG : G.Distinct) (hsort : ∀ l, (sort l).Perm l) {rest : List α}
    (hrest : ∀ c, c ∈ rest ↔ c ∈ G.nodes ∧ c ∉ G.order sort)
    (hnodup : (G.order sort ++ rest).Nodup)
    (hsorted : rest.Pairwise fun a b => rank a ≤ rank b)
    (hinj : ∀ a ∈ rest, ∀ b ∈ rest, rank a = rank b → a = b)
    {c d : α} (hc : c ∈ G.nodes) (hd : G.Dep c d) :
    Precedes (G.order sort ++ rest) d c ↔ ¬ G.Stuck c ∨ ¬ G.Stuck d ∨ rank d < rank c := by
  by_cases hcs : c ∈ G.order sort
  · have hplaced := (precedes_of_mem_order hG hsort hcs hd).append_right rest
    exact ⟨fun _ => .inl ((mem_order_iff hG hsort hc).mp hcs), fun _ => hplaced⟩
  · have hcr : c ∈ rest := (hrest c).mpr ⟨hc, hcs⟩
    have hstuck : G.Stuck c := by
      by_contra h
      exact hcs ((mem_order_iff hG hsort hc).mpr h)
    by_cases hds : d ∈ G.order sort
    · exact ⟨fun _ => .inr (.inl ((mem_order_iff hG hsort hd.1).mp hds)),
        fun _ => precedes_append_of_mem hds hcr⟩
    · -- both are stuck: their places are those of the sorted rest
      have hdr : d ∈ rest := (hrest d).mpr ⟨hd.1, hds⟩
      have hdstuck : G.Stuck d := by
        by_contra h
        exact hds ((mem_order_iff hG hsort hd.1).mpr h)
      simp only [hstuck, hdstuck, not_true, false_or]
      constructor
      · intro h
        have hne : d ≠ c := by
          rintro rfl
          exact not_precedes_self hnodup d h
        rcases precedes_or_precedes hdr hcr hne with h' | h'
        · refine lt_of_le_of_ne (h'.rel hsorted) fun e => hne ?_
          exact hinj d hdr c hcr e
        · exact absurd (h.trans hnodup (h'.append_left _)) (not_precedes_self hnodup d)
      · intro h
        have hne : d ≠ c := by
          rintro rfl
          exact lt_irrefl _ h
        rcases precedes_or_precedes hdr hcr hne with h' | h'
        · exact h'.append_left _
        · exact absurd (h'.rel hsorted) (not_le.mpr h)

/-! ### Renaming the nodes -/

section Map

variable {β : Type*} {f : α → β} {H : DepGraph β κ}

/-- `f` carries the nodes of `G` to those of `H`, with their keys and
dependencies. -/
structure Renames (f : α → β) (G : DepGraph α κ) (H : DepGraph β κ) : Prop where
  nodes : H.nodes = G.nodes.map f
  key : ∀ c, H.key (f c) = G.key c
  deps : ∀ c, H.deps (f c) = G.deps c

omit [DecidableEq κ]

theorem Renames.dep (hf : Renames f G H) {c d : α} (h : G.Dep c d) : H.Dep (f c) (f d) := by
  refine ⟨hf.nodes ▸ List.mem_map_of_mem h.1, ?_⟩
  rw [hf.key, hf.deps]
  exact h.2

theorem Renames.exists_dep (hf : Renames f G H) {c : α} {e : β} (h : H.Dep (f c) e) :
    ∃ d, e = f d ∧ G.Dep c d := by
  obtain ⟨hmem, hkey⟩ := h
  rw [hf.nodes] at hmem
  obtain ⟨d, hd, rfl⟩ := List.mem_map.mp hmem
  rw [hf.key, hf.deps] at hkey
  exact ⟨d, rfl, hd, hkey⟩

theorem Renames.exists_reflTransGen (hf : Renames f G H) {c : α} {e : β}
    (h : ReflTransGen H.Dep (f c) e) : ∃ d, e = f d ∧ ReflTransGen G.Dep c d := by
  induction h with
  | refl => exact ⟨c, rfl, .refl⟩
  | tail _ hstep ih =>
    obtain ⟨d, rfl, hcd⟩ := ih
    obtain ⟨d', rfl, hdd⟩ := hf.exists_dep hstep
    exact ⟨d', rfl, hcd.tail hdd⟩

theorem Renames.stuck_iff (hf : Renames f G H) {c : α} : H.Stuck (f c) ↔ G.Stuck c := by
  constructor
  · rintro ⟨e, hce, hee⟩
    obtain ⟨d, rfl, hcd⟩ := hf.exists_reflTransGen hce
    obtain ⟨m, hdm, hmd⟩ := TransGen.head'_iff.mp hee
    obtain ⟨x, rfl, hdx⟩ := hf.exists_dep hdm
    obtain ⟨y, hy, hxy⟩ := hf.exists_reflTransGen hmd
    have hyn : y ∈ G.nodes := by
      rcases reflTransGen_iff_eq_or_transGen.mp hxy with rfl | h
      · exact hdx.1
      · obtain ⟨z, -, hzy⟩ := TransGen.tail'_iff.mp h
        exact hzy.1
    -- `y` is a node that `f` sends where it sends `d`, and it lies on a cycle
    have hkeys : G.key y = G.key d ∧ G.deps y = G.deps d := by
      rw [← hf.key, ← hf.key, ← hf.deps y, ← hf.deps d, hy]
      exact ⟨rfl, rfl⟩
    have hyx : G.Dep y x := ⟨hdx.1, hkeys.2 ▸ hdx.2⟩
    exact ⟨y, hcd.trans ((ReflTransGen.single hdx).trans hxy), (TransGen.single hyx).trans_left hxy⟩
  · rintro ⟨d, hcd, hdd⟩
    refine ⟨f d, ?_, ?_⟩
    · exact hcd.lift f fun _ _ h => hf.dep h
    · exact hdd.lift f fun _ _ h => hf.dep h

end Map

end Kahn

end Framework
