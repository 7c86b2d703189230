import Mathlib.Data.List.Basic
import Mathlib.Data.List.Nodup
import Mathlib.Data.List.Perm.Basic

/-!
# Sweeps through a gate

A sweep goes over its items in turn. Some of them count, and an item passes if the gate is open
at the number of items that have counted so far, itself included (`marked`). A gate that has
opened stays open.

So what passes depends on the order: an item passes most easily at the end, where all have
counted, and least easily at the front. `orderFree_iff` says that the order is of no matter
exactly if every item that may pass at the end may pass at the front.
-/

namespace Framework
namespace Sweep

variable {α : Type} {counts : α → Bool} {gate : ℕ → Bool} {k : ℕ} {as as' : List α} {a : α}

def after (counts : α → Bool) (k : ℕ) (a : α) : ℕ := if counts a then k + 1 else k

def marked (counts : α → Bool) (gate : ℕ → Bool) : ℕ → List α → List (α × Bool)
  | _, [] => []
  | k, a :: as => (a, gate (after counts k a)) :: marked counts gate (after counts k a) as

theorem after_le_after {l : ℕ} (h : k ≤ l) : after counts k a ≤ after counts l a := by
  unfold after
  split
  · exact Nat.succ_le_succ h
  · exact h

theorem after_countP (pre : List α) :
    after counts (pre.countP counts) a = (pre ++ [a]).countP counts := by
  rw [List.countP_append, List.countP_singleton, after]
  split <;> rfl

theorem mem_marked_iff {b : Bool} :
    (a, b) ∈ marked counts gate k as ↔
      ∃ pre post, as = pre ++ a :: post ∧ b = gate (after counts (k + pre.countP counts) a) := by
  induction as generalizing k with
  | nil => simp [marked]
  | cons c as ih =>
    have hcount : ∀ pre : List α, after counts k c + pre.countP counts =
        k + (c :: pre).countP counts := fun pre => by
      rw [List.countP_cons, after]
      split <;> omega
    rw [marked, List.mem_cons, ih]
    constructor
    · rintro (heq | ⟨pre, post, rfl, rfl⟩)
      · obtain ⟨rfl, rfl⟩ := Prod.mk.inj heq
        exact ⟨[], as, rfl, rfl⟩
      · exact ⟨c :: pre, post, rfl, by rw [hcount]⟩
    · rintro ⟨pre, post, hsplit, rfl⟩
      cases pre with
      | nil =>
        obtain ⟨rfl, rfl⟩ := List.cons.inj hsplit
        exact .inl rfl
      | cons d pre =>
        obtain ⟨rfl, rfl⟩ := List.cons.inj hsplit
        exact .inr ⟨pre, post, rfl, by rw [hcount]⟩

theorem mem_of_mem_marked {b : Bool} (h : (a, b) ∈ marked counts gate k as) : a ∈ as := by
  obtain ⟨pre, post, rfl, -⟩ := mem_marked_iff.mp h
  exact List.mem_append_right pre List.mem_cons_self

theorem exists_mem_marked (h : a ∈ as) : ∃ b, (a, b) ∈ marked counts gate k as := by
  obtain ⟨pre, post, rfl⟩ := List.append_of_mem h
  exact ⟨_, mem_marked_iff.mpr ⟨pre, post, rfl, rfl⟩⟩

theorem mark_unique (hnodup : as.Nodup) {b b' : Bool} (h : (a, b) ∈ marked counts gate k as)
    (h' : (a, b') ∈ marked counts gate k as) : b = b' := by
  obtain ⟨pre, post, rfl, rfl⟩ := mem_marked_iff.mp h
  obtain ⟨pre', post', hsplit, rfl⟩ := mem_marked_iff.mp h'
  obtain ⟨-, hpost, hdisjoint⟩ := List.nodup_append.mp hnodup
  have hbefore : a ∉ pre := fun ha => hdisjoint a ha a List.mem_cons_self rfl
  have hbehind : a ∉ post := (List.nodup_cons.mp hpost).1
  obtain ⟨rfl, -⟩ := (List.append_cons_inj_of_notMem hbefore hbehind).mp hsplit
  rfl

section Order

variable {ok : α → Prop}

theorem mem_marked_true_iff (hmono : ∀ m n, m ≤ n → gate m = true → gate n = true)
    (hsame : gate (as.countP counts) = true → gate (after counts 0 a) = true) (ha : a ∈ as) :
    (a, true) ∈ marked counts gate 0 as ↔ gate (after counts 0 a) = true := by
  constructor
  · intro hmark
    obtain ⟨pre, post, rfl, hgate⟩ := mem_marked_iff.mp hmark
    rw [Nat.zero_add, after_countP] at hgate
    refine hsame (hmono _ _ ?_ hgate.symm)
    have hwhole : pre ++ a :: post = (pre ++ [a]) ++ post := List.append_cons pre a post
    rw [hwhole]
    exact (List.sublist_append_left (pre ++ [a]) post).countP_le
  · intro hfront
    obtain ⟨pre, post, rfl⟩ := List.append_of_mem ha
    refine mem_marked_iff.mpr ⟨pre, post, rfl, ?_⟩
    exact (hmono _ _ (after_le_after (Nat.zero_le _)) hfront).symm

/-- **No order matters** for the items that are looked at exactly if each of them that passes at
the end passes at the front. -/
theorem orderFree_iff (hmono : ∀ m n, m ≤ n → gate m = true → gate n = true)
    (hnodup : as.Nodup) :
    (∀ as', as'.Perm as → ∀ a ∈ as, ok a →
        ((a, true) ∈ marked counts gate 0 as' ↔ (a, true) ∈ marked counts gate 0 as)) ↔
      ∀ a ∈ as, ok a → gate (as.countP counts) = true → gate (after counts 0 a) = true := by
  constructor
  · intro hfree a ha hok hlast
    obtain ⟨pre, post, rfl⟩ := List.append_of_mem ha
    have hfront : (a :: (pre ++ post)).Perm (pre ++ a :: post) := List.perm_middle.symm
    have hend : ((pre ++ post) ++ [a]).Perm (pre ++ a :: post) :=
      (List.perm_append_singleton a (pre ++ post)).trans hfront
    have hpasses : (a, true) ∈ marked counts gate 0 ((pre ++ post) ++ [a]) := by
      refine mem_marked_iff.mpr ⟨pre ++ post, [], rfl, ?_⟩
      rw [Nat.zero_add, after_countP, hend.countP_eq]
      exact hlast.symm
    have hmark := (hfree _ hfront a ha hok).mpr ((hfree _ hend a ha hok).mp hpasses)
    have hfirst : (a, gate (after counts 0 a)) ∈ marked counts gate 0 (a :: (pre ++ post)) :=
      List.mem_cons_self
    exact mark_unique (hfront.nodup_iff.mpr hnodup) hfirst hmark
  · intro hsame as' hperm a ha hok
    rw [mem_marked_true_iff hmono (hsame a ha hok) ha]
    refine mem_marked_true_iff hmono ?_ (hperm.mem_iff.mpr ha)
    rw [hperm.countP_eq]
    exact hsame a ha hok

end Order

end Sweep
end Framework
