import CompareVI.Framework.Tokens
import Mathlib.Algebra.BigOperators.Group.List.Basic

/-!
# Tallies

A tally goes over a list and posts each element to the account of its key. The accounts are
kept in an ordered map, a list of keys and values in the order in which the keys came up
(`put`, `valueOf`).

An account holds what posting the elements with its key gives (`valueOf_tally`), the keys are
those of the list (`keys_tally`), and sums by key add up to the sum (`sum_by_key`).
-/

namespace Framework

variable {α β κ : Type*} [DecidableEq κ]

/-! ### Ordered maps -/

def put (k : κ) (v : β) : List (κ × β) → List (κ × β)
  | [] => [(k, v)]
  | (l, w) :: rest => if l = k then (k, v) :: rest else (l, w) :: put k v rest

def entryOf? (k : κ) : List (κ × β) → Option β
  | [] => none
  | (l, w) :: rest => if l = k then some w else entryOf? k rest

def valueOf (start : β) (m : List (κ × β)) (k : κ) : β := (entryOf? k m).getD start

def keysOf (m : List (κ × β)) : List κ := m.map Prod.fst

theorem entryOf?_put (k l : κ) (v : β) (m : List (κ × β)) :
    entryOf? l (put k v m) = if k = l then some v else entryOf? l m := by
  induction m with
  | nil => rfl
  | cons p rest ih =>
    obtain ⟨key, w⟩ := p
    by_cases hkey : key = k
    · subst hkey
      rw [put, if_pos rfl, entryOf?, entryOf?]
      by_cases hl : key = l
      · rw [if_pos hl, if_pos hl]
      · rw [if_neg hl, if_neg hl, if_neg hl]
    · rw [put, if_neg hkey, entryOf?, ih, entryOf?]
      by_cases hl : key = l
      · have hk : ¬ k = l := fun h => hkey (hl.trans h.symm)
        rw [if_pos hl, if_neg hk, if_pos hl]
      · rw [if_neg hl, if_neg hl]

theorem valueOf_put (start : β) (k l : κ) (v : β) (m : List (κ × β)) :
    valueOf start (put k v m) l = if k = l then v else valueOf start m l := by
  rw [valueOf, entryOf?_put]
  by_cases h : k = l
  · rw [if_pos h, if_pos h, Option.getD_some]
  · rw [if_neg h, if_neg h, valueOf]

theorem keysOf_put (k : κ) (v : β) (m : List (κ × β)) :
    keysOf (put k v m) = if k ∈ keysOf m then keysOf m else keysOf m ++ [k] := by
  induction m with
  | nil => rfl
  | cons p rest ih =>
    obtain ⟨key, w⟩ := p
    by_cases hkey : key = k
    · subst hkey
      rw [put, if_pos rfl]
      exact (if_pos List.mem_cons_self).symm
    · rw [put, if_neg hkey]
      change key :: keysOf (put k v rest) = _
      have hmem : k ∈ keysOf ((key, w) :: rest) ↔ k ∈ keysOf rest := by
        rw [keysOf, List.map_cons, List.mem_cons, ← keysOf]
        exact or_iff_right fun h => hkey h.symm
      rw [ih]
      by_cases hk : k ∈ keysOf rest
      · rw [if_pos hk, if_pos (hmem.mpr hk)]
        rfl
      · rw [if_neg hk, if_neg (fun h => hk (hmem.mp h))]
        rfl

/-! ### Posting -/

def tally (key : α → κ) (post : β → α → β) (start : β) (m : List (κ × β)) (xs : List α) :
    List (κ × β) :=
  xs.foldl (fun m x => put (key x) (post (valueOf start m (key x)) x) m) m

variable {key : α → κ} {post : β → α → β} {start : β}

theorem tally_cons (m : List (κ × β)) (x : α) (xs : List α) :
    tally key post start m (x :: xs) =
      tally key post start (put (key x) (post (valueOf start m (key x)) x) m) xs := rfl

/-- **What an account holds**: the elements with its key were posted to it, in order. -/
theorem valueOf_tally (m : List (κ × β)) (xs : List α) (k : κ) :
    valueOf start (tally key post start m xs) k =
      (xs.filter fun x => decide (key x = k)).foldl post (valueOf start m k) := by
  induction xs generalizing m with
  | nil => rfl
  | cons x xs ih =>
    rw [tally_cons, ih, valueOf_put]
    by_cases h : key x = k
    · rw [if_pos h, List.filter_cons_of_pos (by simpa using h), List.foldl_cons, h]
    · rw [if_neg h, List.filter_cons_of_neg (by simpa using h)]

theorem keysOf_tally (xs : List α) :
    keysOf (tally key post start [] xs) = (xs.map key).eraseDups := by
  induction xs using List.reverseRecOn with
  | nil => rfl
  | append_singleton xs x ih =>
    have hstep : tally key post start [] (xs ++ [x]) =
        put (key x) (post (valueOf start (tally key post start [] xs) (key x)) x)
          (tally key post start [] xs) := by
      rw [tally, List.foldl_append]
      rfl
    rw [hstep, keysOf_put, ih, List.map_append, List.eraseDups_append, List.map_singleton]
    generalize xs.map key = ks
    by_cases h : key x ∈ ks
    · rw [if_pos (List.mem_eraseDups.mpr h)]
      simp [List.removeAll, h]
    · rw [if_neg (fun hmem => h (List.mem_eraseDups.mp hmem))]
      simp [List.removeAll, h, List.eraseDups_cons]

theorem eq_map_keysOf (m : List (κ × β)) (hnodup : (keysOf m).Nodup) :
    m = (keysOf m).map fun k => (k, valueOf start m k) := by
  have hget : ∀ p ∈ m, entryOf? p.1 m = some p.2 := by
    intro p hp
    induction m with
    | nil => cases hp
    | cons q rest ih =>
      obtain ⟨hq, hrest⟩ := List.nodup_cons.mp hnodup
      rcases List.mem_cons.mp hp with rfl | hp
      · exact if_pos rfl
      · have hne : ¬ q.1 = p.1 := by
          intro heq
          rw [heq] at hq
          exact hq (List.mem_map_of_mem hp)
        exact (if_neg hne).trans (ih hrest hp)
  rw [keysOf, List.map_map]
  refine (List.map_id m).symm.trans (List.map_congr_left fun p hp => ?_)
  rw [Function.comp_apply, valueOf, hget p hp]
  rfl

/-! ### Sums by key -/

variable {ks : List κ} {M : Type*}

theorem sum_single_key [AddCommMonoid M] {k : κ} (hnodup : ks.Nodup) (hk : k ∈ ks) (w : M) :
    (ks.map fun l => if k = l then w else 0).sum = w := by
  induction ks with
  | nil => cases hk
  | cons l ls ih =>
    obtain ⟨hl, hls⟩ := List.nodup_cons.mp hnodup
    rw [List.map_cons, List.sum_cons]
    by_cases h : k = l
    · subst h
      have hrest : (ls.map fun l => if k = l then w else 0).sum = 0 := by
        refine List.sum_eq_zero fun v hv => ?_
        obtain ⟨l, hmem, rfl⟩ := List.mem_map.mp hv
        refine if_neg fun heq => hl ?_
        rw [heq]
        exact hmem
      rw [if_pos rfl, hrest, add_zero]
    · rw [if_neg h, zero_add, ih hls ((List.mem_cons.mp hk).resolve_left h)]

/-- **Sums by key add up to the sum.** -/
theorem sum_by_key [AddCommMonoid M] (hnodup : ks.Nodup) (w : α → M) (xs : List α)
    (hall : ∀ x ∈ xs, key x ∈ ks) :
    (ks.map fun k => ((xs.filter fun x => decide (key x = k)).map w).sum).sum =
      (xs.map w).sum := by
  induction xs with
  | nil =>
    refine List.sum_eq_zero fun v hv => ?_
    obtain ⟨k, -, rfl⟩ := List.mem_map.mp hv
    rfl
  | cons x xs ih =>
    have hsplit : ∀ k, (((x :: xs).filter fun x => decide (key x = k)).map w).sum =
        (if key x = k then w x else 0) +
          ((xs.filter fun x => decide (key x = k)).map w).sum := by
      intro k
      by_cases h : key x = k
      · rw [List.filter_cons_of_pos (by simpa using h), List.map_cons, List.sum_cons, if_pos h]
      · rw [List.filter_cons_of_neg (by simpa using h), if_neg h, zero_add]
    calc (ks.map fun k => (((x :: xs).filter fun x => decide (key x = k)).map w).sum).sum
        = (ks.map fun k => (if key x = k then w x else 0) +
            ((xs.filter fun x => decide (key x = k)).map w).sum).sum := by
          rw [List.map_congr_left fun k _ => hsplit k]
      _ = (ks.map fun k => if key x = k then w x else 0).sum +
            (ks.map fun k => ((xs.filter fun x => decide (key x = k)).map w).sum).sum :=
          List.sum_map_add
      _ = w x + (xs.map w).sum := by
          rw [sum_single_key hnodup (hall x List.mem_cons_self),
            ih fun y hy => hall y (List.mem_cons_of_mem x hy)]
      _ = ((x :: xs).map w).sum := by rw [List.map_cons, List.sum_cons]

end Framework
