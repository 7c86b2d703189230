import Mathlib.Data.List.Nodup
import Mathlib.Tactic.Common

/-!
# Lists whose elements have keys

A configuration is often a list whose elements carry a key, and what is done to it is
one change for each of some keys: leave the element of the key alone, remove it, or make
sure that it is there and update it (`Change`). Where several elements have the key, the
first one is meant.

`Change.apply` makes one change, `applyAll` a list of them in turn. A change for one key
is not seen at another (`filter_apply_of_ne`), so that after changes for different keys
each key shows its own change (`find?_applyAll`). A change is settled by an element if
making it again does nothing (`apply_of_settled`), and changes that are settled by their
own results can be made again with no effect (`applyAll_idem`). Where no key is there
twice, the elements with a key are one (`filter_eq_singleton_iff_nodup`).
-/

namespace Framework

variable {α κ : Type} [DecidableEq κ]

def ensureFirst (key : α → κ) (k : κ) (fresh : α) (update : α → α) : List α → List α
  | [] => [update fresh]
  | x :: xs => if key x = k then update x :: xs else x :: ensureFirst key k fresh update xs

inductive Change (α : Type) where
  | ignore
  | remove
  | ensure (fresh : α) (update : α → α)

namespace Change

def apply (key : α → κ) (k : κ) : Change α → List α → List α
  | ignore, xs => xs
  | remove, xs => xs.eraseP fun x => key x = k
  | ensure fresh update, xs => ensureFirst key k fresh update xs

def Keeps (key : α → κ) (k : κ) : Change α → Prop
  | ignore | remove => True
  | ensure fresh update => key fresh = k ∧ ∀ x, key (update x) = key x

def result : Change α → Option α → Option α
  | ignore, found => found
  | remove, _ => none
  | ensure fresh update, found => some (update (found.getD fresh))

def Settled : Change α → Option α → Prop
  | ignore, _ => True
  | remove, found => found = none
  | ensure _ update, found => ∃ x, found = some x ∧ update x = x

end Change

def applyAll (key : α → κ) (changes : List (κ × Change α)) (xs : List α) : List α :=
  changes.foldl (fun xs kc => kc.2.apply key kc.1 xs) xs

section OneChange

variable {key : α → κ} {k k' : κ} {c : Change α} {xs : List α}

variable {fresh : α} {update : α → α}

theorem filter_ensureFirst_of_ne (hfresh : key fresh = k) (hupdate : ∀ x, key (update x) = key x)
    (hk : k' ≠ k) :
    (ensureFirst key k fresh update xs).filter (key · = k') = xs.filter (key · = k') := by
  induction xs with
  | nil =>
    have hne : key (update fresh) ≠ k' := by rw [hupdate, hfresh]; exact hk.symm
    rw [ensureFirst, List.filter_singleton, List.filter_nil]
    simp [hne]
  | cons x xs ih =>
    rw [ensureFirst]
    split
    · next hx =>
      have hne : ¬ key x = k' := hx.symm ▸ hk.symm
      have hne' : ¬ key (update x) = k' := by rwa [hupdate]
      rw [List.filter_cons_of_neg (by simpa using hne'),
        List.filter_cons_of_neg (by simpa using hne)]
    · by_cases hx : key x = k'
      · rw [List.filter_cons_of_pos (by simpa using hx),
          List.filter_cons_of_pos (by simpa using hx), ih]
      · rw [List.filter_cons_of_neg (by simpa using hx),
          List.filter_cons_of_neg (by simpa using hx), ih]

theorem filter_eraseP_of_ne (hk : k' ≠ k) :
    (xs.eraseP (key · = k)).filter (key · = k') = xs.filter (key · = k') := by
  induction xs with
  | nil => rfl
  | cons x xs ih =>
    by_cases hx : key x = k
    · have hne : ¬ key x = k' := hx.symm ▸ hk.symm
      rw [List.eraseP_cons_of_pos (by simpa using hx), List.filter_cons_of_neg (by simpa using hne)]
    · rw [List.eraseP_cons_of_neg (by simpa using hx), List.filter_cons, List.filter_cons, ih]

/-- **Frame.** A change for one key keeps the elements of another. -/
theorem filter_apply_of_ne (hc : c.Keeps key k) (hk : k' ≠ k) :
    (c.apply key k xs).filter (key · = k') = xs.filter (key · = k') := by
  cases c with
  | ignore => rfl
  | remove => exact filter_eraseP_of_ne hk
  | ensure fresh update => exact filter_ensureFirst_of_ne hc.1 hc.2 hk

theorem find?_apply_of_ne (hc : c.Keeps key k) (hk : k' ≠ k) :
    (c.apply key k xs).find? (key · = k') = xs.find? (key · = k') := by
  rw [← List.head?_filter, ← List.head?_filter, filter_apply_of_ne hc hk]

theorem find?_ensureFirst (hfresh : key fresh = k) (hupdate : ∀ x, key (update x) = key x) :
    (ensureFirst key k fresh update xs).find? (key · = k) =
      some (update ((xs.find? (key · = k)).getD fresh)) := by
  induction xs with
  | nil =>
    rw [ensureFirst, List.find?_nil, Option.getD_none,
      List.find?_cons_of_pos (by simpa using (hupdate fresh).trans hfresh)]
  | cons x xs ih =>
    rw [ensureFirst]
    split
    · next hx =>
      rw [List.find?_cons_of_pos (by simpa using (hupdate x).trans hx),
        List.find?_cons_of_pos (by simpa using hx), Option.getD_some]
    · next hx =>
      rw [List.find?_cons_of_neg (by simpa using hx), ih,
        List.find?_cons_of_neg (by simpa using hx)]

theorem mem_ensureFirst {y : α} (hfresh : key fresh = k)
    (h : y ∈ ensureFirst key k fresh update xs) : y ∈ xs ∨ ∃ x, key x = k ∧ y = update x := by
  induction xs with
  | nil => exact .inr ⟨fresh, hfresh, List.mem_singleton.mp h⟩
  | cons x xs ih =>
    rw [ensureFirst] at h
    split_ifs at h with hx
    · rcases List.mem_cons.mp h with rfl | hmem
      · exact .inr ⟨x, hx, rfl⟩
      · exact .inl (List.mem_cons_of_mem x hmem)
    · rcases List.mem_cons.mp h with rfl | hmem
      · exact .inl List.mem_cons_self
      · exact (ih hmem).imp_left (List.mem_cons_of_mem x)

theorem map_ensureFirst (hfresh : key fresh = k) (hupdate : ∀ x, key (update x) = key x) :
    (k ∈ xs.map key ∧ (ensureFirst key k fresh update xs).map key = xs.map key) ∨
      (k ∉ xs.map key ∧ (ensureFirst key k fresh update xs).map key = xs.map key ++ [k]) := by
  induction xs with
  | nil =>
    refine .inr ⟨List.not_mem_nil, ?_⟩
    rw [ensureFirst, List.map_singleton, hupdate, hfresh]
    rfl
  | cons x xs ih =>
    rw [ensureFirst, List.map_cons]
    by_cases hx : key x = k
    · rw [if_pos hx, List.map_cons, hupdate]
      exact .inl ⟨List.mem_cons.mpr (.inl hx.symm), rfl⟩
    · rw [if_neg hx, List.map_cons]
      refine ih.imp ?_ ?_
      · rintro ⟨hmem, hkeys⟩
        exact ⟨List.mem_cons_of_mem (key x) hmem, by rw [hkeys]⟩
      · rintro ⟨hmem, hkeys⟩
        refine ⟨fun h => (List.mem_cons.mp h).elim (fun heq => hx heq.symm) hmem, ?_⟩
        rw [hkeys, List.cons_append]

theorem nodup_ensureFirst (hfresh : key fresh = k) (hupdate : ∀ x, key (update x) = key x)
    (h : (xs.map key).Nodup) :
    ((ensureFirst key k fresh update xs).map key).Nodup := by
  rcases @map_ensureFirst _ _ _ key k xs _ _ hfresh hupdate with ⟨-, hkeys⟩ | ⟨hmem, hkeys⟩
  · rw [hkeys]
    exact h
  · rw [hkeys]
    exact List.nodup_append'.mpr ⟨h, List.nodup_singleton k, List.disjoint_singleton.mpr hmem⟩

theorem ensureFirst_of_not_mem (h : k ∉ xs.map key) :
    ensureFirst key k fresh update xs = xs ++ [update fresh] := by
  induction xs with
  | nil => rfl
  | cons x xs ih =>
    rw [List.map_cons, List.mem_cons, not_or] at h
    rw [ensureFirst, if_neg fun hx => h.1 hx.symm, ih h.2, List.cons_append]

theorem map_subset_ensureFirst {β : Type} {f : α → β} (hf : ∀ x, f (update x) = f x) :
    xs.map f ⊆ (ensureFirst key k fresh update xs).map f := by
  induction xs with
  | nil => exact List.nil_subset _
  | cons x xs ih =>
    rw [ensureFirst, List.map_cons]
    split_ifs
    · rw [List.map_cons, hf]
      exact List.Subset.refl _
    · rw [List.map_cons]
      exact List.cons_subset_cons (f x) ih

theorem find?_eraseP (hone : (xs.filter (key · = k)).length ≤ 1) :
    (xs.eraseP (key · = k)).find? (key · = k) = none := by
  induction xs with
  | nil => rfl
  | cons x xs ih =>
    by_cases hx : key x = k
    · rw [List.eraseP_cons_of_pos (by simpa using hx), List.find?_eq_none]
      rw [List.filter_cons_of_pos (by simpa using hx), List.length_cons, Nat.succ_le_succ_iff,
        Nat.le_zero, List.length_eq_zero_iff, List.filter_eq_nil_iff] at hone
      exact hone
    · rw [List.filter_cons_of_neg (by simpa using hx)] at hone
      rw [List.eraseP_cons_of_neg (by simpa using hx), List.find?_cons_of_neg (by simpa using hx)]
      exact ih hone

theorem find?_apply (hc : c.Keeps key k)
    (hone : c = .remove → (xs.filter (key · = k)).length ≤ 1) :
    (c.apply key k xs).find? (key · = k) = c.result (xs.find? (key · = k)) := by
  cases c with
  | ignore => rfl
  | remove => exact find?_eraseP (hone rfl)
  | ensure fresh update => exact find?_ensureFirst hc.1 hc.2

theorem apply_of_settled (hs : c.Settled (xs.find? (key · = k))) : c.apply key k xs = xs := by
  cases c with
  | ignore => rfl
  | remove => exact List.eraseP_of_forall_not (List.find?_eq_none.mp hs)
  | ensure fresh update =>
    obtain ⟨y, hfind, hfix⟩ := hs
    change ensureFirst key k fresh update xs = xs
    induction xs with
    | nil => cases hfind
    | cons x xs ih =>
      rw [ensureFirst]
      split
      · next hx =>
        rw [List.find?_cons_of_pos (by simpa using hx)] at hfind
        rw [Option.some.inj hfind, hfix]
      · next hx =>
        rw [List.find?_cons_of_neg (by simpa using hx)] at hfind
        rw [ih hfind]

end OneChange

section Changes

variable {key : α → κ} {k : κ} {changes : List (κ × Change α)} {xs : List α}

theorem applyAll_cons (kc : κ × Change α) (changes : List (κ × Change α)) (xs : List α) :
    applyAll key (kc :: changes) xs = applyAll key changes (kc.2.apply key kc.1 xs) := rfl

theorem filter_applyAll_of_ignored (hc : ∀ kc ∈ changes, kc.2.Keeps key kc.1)
    (hk : ∀ kc ∈ changes, kc.1 = k → kc.2 = .ignore) :
    (applyAll key changes xs).filter (key · = k) = xs.filter (key · = k) := by
  induction changes generalizing xs with
  | nil => rfl
  | cons kc changes ih =>
    have hfirst : (kc.2.apply key kc.1 xs).filter (key · = k) = xs.filter (key · = k) := by
      by_cases heq : kc.1 = k
      · rw [hk kc List.mem_cons_self heq]
        rfl
      · exact filter_apply_of_ne (hc kc List.mem_cons_self) (Ne.symm heq)
    rw [applyAll_cons, ih (fun kc' h => hc kc' (List.mem_cons_of_mem _ h))
      (fun kc' h => hk kc' (List.mem_cons_of_mem _ h)), hfirst]

/-- **Each key shows its own change.** -/
theorem find?_applyAll (hc : ∀ kc ∈ changes, kc.2.Keeps key kc.1)
    (hn : (changes.map Prod.fst).Nodup) {kc : κ × Change α} (hmem : kc ∈ changes)
    (hone : kc.2 = .remove → (xs.filter (key · = kc.1)).length ≤ 1) :
    (applyAll key changes xs).find? (key · = kc.1) = kc.2.result (xs.find? (key · = kc.1)) := by
  induction changes generalizing xs with
  | nil => cases hmem
  | cons kc' changes ih =>
    rw [List.map_cons, List.nodup_cons] at hn
    have hrest : ∀ kc ∈ changes, kc.2.Keeps key kc.1 := fun kc h => hc kc (List.mem_cons_of_mem _ h)
    have hfirst := hc kc' List.mem_cons_self
    rw [applyAll_cons]
    obtain rfl | hmem := List.mem_cons.mp hmem
    · -- the later changes are for other keys
      have hlater : ∀ kc' ∈ changes, kc'.1 = kc.1 → kc'.2 = .ignore :=
        fun kc' hmem' heq => absurd (heq ▸ List.mem_map_of_mem hmem') hn.1
      rw [← List.head?_filter, filter_applyAll_of_ignored hrest hlater, List.head?_filter,
        find?_apply hfirst hone]
    · -- the first change is for another key, so this one finds what was there before
      have hne : kc.1 ≠ kc'.1 := fun heq => hn.1 (heq ▸ List.mem_map_of_mem hmem)
      rw [ih hrest hn.2 hmem (by rwa [filter_apply_of_ne hfirst hne]),
        find?_apply_of_ne hfirst hne]

/-- **Fixed points.** If every change is settled, making them all does nothing. -/
theorem applyAll_of_settled (hs : ∀ kc ∈ changes, kc.2.Settled (xs.find? (key · = kc.1))) :
    applyAll key changes xs = xs := by
  induction changes with
  | nil => rfl
  | cons kc changes ih =>
    rw [applyAll_cons, apply_of_settled (hs kc List.mem_cons_self)]
    exact ih fun kc' h => hs kc' (List.mem_cons_of_mem _ h)

/-- **Idempotence.** Changes that are settled by their own results can be made again. -/
theorem applyAll_idem (hc : ∀ kc ∈ changes, kc.2.Keeps key kc.1)
    (hn : (changes.map Prod.fst).Nodup)
    (hone : ∀ kc ∈ changes, kc.2 = .remove → (xs.filter (key · = kc.1)).length ≤ 1)
    (hs : ∀ kc ∈ changes, kc.2.Settled (kc.2.result (xs.find? (key · = kc.1)))) :
    applyAll key changes (applyAll key changes xs) = applyAll key changes xs := by
  refine applyAll_of_settled fun kc hmem => ?_
  rw [find?_applyAll hc hn hmem (hone kc hmem)]
  exact hs kc hmem

end Changes

/-- Two lists are the same if what a function gives on them is, and it tells their elements
apart. -/
theorem eq_of_map_eq {β : Type*} {f : α → β} {xs ys : List α}
    (hinj : ∀ a ∈ xs, ∀ b ∈ ys, f a = f b → a = b) (h : xs.map f = ys.map f) : xs = ys := by
  induction xs generalizing ys with
  | nil =>
    rw [List.map_nil] at h
    exact (List.map_eq_nil_iff.mp h.symm).symm
  | cons x xs ih =>
    cases ys with
    | nil => cases h
    | cons y ys =>
      rw [List.map_cons, List.map_cons] at h
      obtain ⟨hhead, htail⟩ := List.cons.inj h
      have hxy : x = y := hinj x List.mem_cons_self y List.mem_cons_self hhead
      have hrest : xs = ys := ih
        (fun a ha b hb => hinj a (List.mem_cons_of_mem x ha) b (List.mem_cons_of_mem y hb)) htail
      rw [hxy, hrest]

theorem filter_eq_singleton_iff_nodup {key : α → κ} {xs : List α} :
    (∀ k ∈ xs.map key, ∃ x, xs.filter (key · = k) = [x]) ↔ (xs.map key).Nodup := by
  have hcount : ∀ k, (xs.map key).count k = (xs.filter (key · = k)).length := by
    intro k
    rw [List.count, List.countP_map, List.countP_eq_length_filter]
    rfl
  rw [List.nodup_iff_count_le_one]
  constructor
  · intro hall k
    by_cases hk : k ∈ xs.map key
    · obtain ⟨x, hx⟩ := hall k hk
      rw [hcount, hx]
      exact Nat.le_refl 1
    · rw [List.count_eq_zero.mpr hk]
      exact Nat.zero_le 1
  · intro hle k hk
    have hone : (xs.filter (key · = k)).length = 1 := by
      rw [← hcount]
      exact Nat.le_antisymm (hle k) (List.count_pos_iff.mpr hk)
    exact List.length_eq_one_iff.mp hone

end Framework
