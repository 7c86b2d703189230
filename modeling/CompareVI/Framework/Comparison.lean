import Mathlib.Data.List.Sort
import Mathlib.Tactic.Common

/-!
# Sorting by a comparison

A comparator of which a sort is made is a total preorder: any two elements compare, and
comparing is transitive, but two elements may tie. `Comparison` is such a comparator,
`Comparison.sort` the stable sort by it. Sorting twice is sorting once (`sort_sort`), and
where no two elements of a list tie, the first of the sorted list is its only least one
(`head?_sort_eq_some_iff`).

A comparator that goes on to another key where the first one ties is `thenBy`. What a sort
gives depends on the order of the list exactly as far as elements tie: `sort_eq_of_perm` and
`eq_of_sort_reverse` are the two directions.
-/

namespace Framework

structure Comparison (α : Type*) where
  le : α → α → Bool
  total : ∀ a b, le a b = true ∨ le b a = true
  trans : ∀ a b c, le a b = true → le b c = true → le a c = true

namespace Comparison

variable {α κ : Type*}

def ofKey [LinearOrder κ] (key : α → κ) : Comparison α where
  le := fun a b => decide (key a ≤ key b)
  total := fun a b => by simpa using le_total (key a) (key b)
  trans := fun a b c => by simpa using @le_trans κ _ (key a) (key b) (key c)

@[simp] theorem ofKey_le [LinearOrder κ] (key : α → κ) (a b : α) :
    (ofKey key).le a b = true ↔ key a ≤ key b := decide_eq_true_iff

theorem ofKey_le_eq [LinearOrder κ] (key : α → κ) (a b : α) :
    (ofKey key).le a b = decide (key a ≤ key b) := rfl

variable (c : Comparison α) {a b : α} {xs : List α}

def sort (xs : List α) : List α := xs.insertionSort fun a b => c.le a b = true

theorem sort_perm (xs : List α) : (c.sort xs).Perm xs := List.perm_insertionSort _ _

@[simp] theorem mem_sort : a ∈ c.sort xs ↔ a ∈ xs := (c.sort_perm xs).mem_iff

theorem sort_pairwise (xs : List α) : (c.sort xs).Pairwise fun a b => c.le a b = true := by
  let r : α → α → Prop := fun a b => c.le a b = true
  have : Std.Total r := ⟨c.total⟩
  have : IsTrans α r := ⟨c.trans⟩
  exact List.pairwise_insertionSort r xs

theorem sort_of_pairwise (h : xs.Pairwise fun a b => c.le a b = true) : c.sort xs = xs :=
  List.Pairwise.insertionSort_eq h

@[simp] theorem sort_sort (xs : List α) : c.sort (c.sort xs) = c.sort xs :=
  c.sort_of_pairwise (c.sort_pairwise xs)

theorem le_of_head?_sort (h : (c.sort xs).head? = some a) :
    a ∈ xs ∧ ∀ b ∈ xs, c.le a b = true := by
  refine ⟨c.mem_sort.mp (List.mem_of_head? h), fun b hb => ?_⟩
  have hb : b ∈ c.sort xs := c.mem_sort.mpr hb
  have hsorted := c.sort_pairwise xs
  cases hs : c.sort xs with
  | nil => rw [hs] at h; cases h
  | cons x rest =>
    rw [hs] at h hb hsorted
    obtain rfl : x = a := Option.some.inj h
    rcases List.mem_cons.mp hb with rfl | hrest
    · exact (c.total b b).elim id id
    · exact (List.pairwise_cons.mp hsorted).1 b hrest

theorem head?_sort_eq_some_iff
    (hanti : ∀ a ∈ xs, ∀ b ∈ xs, c.le a b = true → c.le b a = true → a = b) :
    (c.sort xs).head? = some a ↔ a ∈ xs ∧ ∀ b ∈ xs, c.le a b = true := by
  refine ⟨c.le_of_head?_sort, fun ⟨ha, hleast⟩ => ?_⟩
  cases hs : (c.sort xs).head? with
  | none =>
    have hnil : c.sort xs = [] := List.head?_eq_none_iff.mp hs
    have hmem : a ∈ c.sort xs := c.mem_sort.mpr ha
    rw [hnil] at hmem
    cases hmem
  | some b =>
    obtain ⟨hb, hleast'⟩ := c.le_of_head?_sort hs
    exact congrArg some (hanti b hb a ha (hleast' a ha) (hleast b hb))

/-! ### Several keys -/

def comap {β : Type*} (d : Comparison β) (f : α → β) : Comparison α where
  le := fun a b => d.le (f a) (f b)
  total := fun a b => d.total (f a) (f b)
  trans := fun a b e => d.trans (f a) (f b) (f e)

variable {ys : List α} {β : Type*}

@[simp] theorem comap_le (d : Comparison β) (f : α → β) :
    (d.comap f).le a b = d.le (f a) (f b) := rfl

def reverse (d : Comparison α) : Comparison α where
  le := fun a b => d.le b a
  total := fun a b => d.total b a
  trans := fun a b e hab hbe => d.trans e b a hbe hab

@[simp] theorem reverse_le (d : Comparison α) : d.reverse.le a b = d.le b a := rfl

theorem thenBy_total (d : Comparison α) (a b : α) :
    (c.le a b && (!c.le b a || d.le a b)) = true ∨
      (c.le b a && (!c.le a b || d.le b a)) = true := by
  have hc := c.total a b
  have hd := d.total a b
  cases h1 : c.le a b <;> cases h2 : c.le b a <;> simp_all

theorem thenBy_trans (d : Comparison α) (a b e : α)
    (hab : (c.le a b && (!c.le b a || d.le a b)) = true)
    (hbe : (c.le b e && (!c.le e b || d.le b e)) = true) :
    (c.le a e && (!c.le e a || d.le a e)) = true := by
  rw [Bool.and_eq_true, Bool.or_eq_true, Bool.not_eq_true'] at hab hbe ⊢
  obtain ⟨hab, hab'⟩ := hab
  obtain ⟨hbe, hbe'⟩ := hbe
  refine ⟨c.trans a b e hab hbe, ?_⟩
  cases hea : c.le e a with
  | false => exact Or.inl rfl
  | true =>
    -- all three tie by the first comparison
    have hba : c.le b a = true := c.trans b e a hbe hea
    have heb : c.le e b = true := c.trans e a b hea hab
    rw [hba] at hab'
    rw [heb] at hbe'
    exact Or.inr (d.trans a b e (hab'.resolve_left (by decide)) (hbe'.resolve_left (by decide)))

def thenBy (d : Comparison α) : Comparison α where
  le := fun a b => c.le a b && (!c.le b a || d.le a b)
  total := c.thenBy_total d
  trans := c.thenBy_trans d

theorem thenBy_le_eq (d : Comparison α) :
    (c.thenBy d).le a b = (c.le a b && (!c.le b a || d.le a b)) := rfl

theorem thenBy_le (d : Comparison α) :
    (c.thenBy d).le a b = true ↔ c.le a b = true ∧ (c.le b a = true → d.le a b = true) := by
  rw [thenBy_le_eq]
  cases c.le b a <;> simp

/-- Two elements tie. -/
def Ties (a b : α) : Prop := c.le a b = true ∧ c.le b a = true

theorem ties_thenBy (d : Comparison α) :
    (c.thenBy d).Ties a b ↔ c.Ties a b ∧ d.Ties a b := by
  simp only [Ties, thenBy_le]
  tauto

theorem ties_ofKey [LinearOrder κ] {key : α → κ} :
    (ofKey key).Ties a b ↔ key a = key b := by
  simp only [Ties, ofKey_le]
  exact le_antisymm_iff.symm

theorem thenBy_le_congr {d d' : Comparison α} (h : c.Ties a b → d.le a b = d'.le a b) :
    (c.thenBy d).le a b = (c.thenBy d').le a b := by
  rw [thenBy_le_eq, thenBy_le_eq]
  cases hab : c.le a b with
  | false => rfl
  | true =>
    cases hba : c.le b a with
    | false => rfl
    | true => rw [h ⟨hab, hba⟩]

/-! ### Sorting in another order -/

theorem map_sort {f : α → β} {d : Comparison β}
    (hle : ∀ a ∈ xs, ∀ b ∈ xs, c.le a b = d.le (f a) (f b)) :
    (c.sort xs).map f = d.sort (xs.map f) :=
  List.map_insertionSort _ _ f xs fun a ha b hb => by rw [hle a ha b hb]

theorem head?_sort_cons (h : ∀ b ∈ xs, c.le a b = true) : (c.sort (a :: xs)).head? = some a := by
  have hcons : c.sort (a :: xs) = a :: c.sort xs :=
    List.insertionSort_cons_of_forall_rel (r := fun a b => c.le a b = true) h
  rw [hcons, List.head?_cons]

theorem sort_eq_of_perm (hanti : ∀ a ∈ xs, ∀ b ∈ xs, c.Ties a b → a = b) (hperm : xs.Perm ys) :
    c.sort xs = c.sort ys := by
  have hsorted : (c.sort xs).Perm (c.sort ys) :=
    (c.sort_perm xs).trans (hperm.trans (c.sort_perm ys).symm)
  refine List.Perm.eq_of_pairwise (fun a b ha hb hab hba => ?_) (c.sort_pairwise xs)
    (c.sort_pairwise ys) hsorted
  exact hanti a (c.mem_sort.mp ha) b (hperm.mem_iff.mpr (c.mem_sort.mp hb)) ⟨hab, hba⟩

/-- An element that comes before all others, or ties with them. -/
def IsTop (xs : List α) (a : α) : Prop := a ∈ xs ∧ ∀ b ∈ xs, c.le a b = true

/-- Where there is one top element at most, the order of the list does not change which element
is sorted first. -/
theorem head?_sort_eq_of_perm (htop : ∀ a b, c.IsTop xs a → c.IsTop xs b → a = b)
    (hperm : xs.Perm ys) :
    (c.sort xs).head? = (c.sort ys).head? := by
  have hback : ∀ b, c.IsTop ys b → c.IsTop xs b := fun b hb =>
    ⟨hperm.mem_iff.mpr hb.1, fun e he => hb.2 e (hperm.mem_iff.mp he)⟩
  cases hx : (c.sort xs).head? with
  | none =>
    have hnil : xs = [] := by
      have hsorted := c.sort_perm xs
      rw [List.head?_eq_none_iff.mp hx] at hsorted
      exact List.nil_perm.mp hsorted
    rw [hnil] at hperm
    rw [List.nil_perm.mp hperm]
    rfl
  | some a =>
    cases hy : (c.sort ys).head? with
    | none =>
      have ha : a ∈ c.sort ys :=
        c.mem_sort.mpr (hperm.mem_iff.mp (c.le_of_head?_sort hx).1)
      rw [List.head?_eq_none_iff.mp hy] at ha
      cases ha
    | some b =>
      have hb : c.IsTop xs b := hback b (c.le_of_head?_sort hy)
      exact congrArg some (htop a b (c.le_of_head?_sort hx) hb)

theorem sort_pairwise_of_pairwise {r : α → α → Prop} (hr : xs.Pairwise r) :
    (c.sort xs).Pairwise fun a b => c.le a b = true ∧ (c.le b a = true → r a b) := by
  induction xs with
  | nil => exact List.Pairwise.nil
  | cons x xs ih =>
    obtain ⟨hx, hxs⟩ := List.pairwise_cons.mp hr
    have hrest := ih hxs
    have hx : ∀ b ∈ c.sort xs, r x b := fun b hb => hx b (c.mem_sort.mp hb)
    have hinsert : c.sort (x :: xs) = (c.sort xs).orderedInsert (fun a b => c.le a b = true) x :=
      rfl
    rw [hinsert]
    generalize c.sort xs = sorted at hrest hx
    clear hinsert ih hr hxs
    induction sorted with
    | nil => exact List.pairwise_singleton _ x
    | cons b bs ih =>
      obtain ⟨hb, hbs⟩ := List.pairwise_cons.mp hrest
      rw [List.orderedInsert_cons]
      split
      · next hle =>
        refine List.pairwise_cons.mpr ⟨fun e he => ⟨?_, fun _ => hx e he⟩, hrest⟩
        rcases List.mem_cons.mp he with rfl | he
        · exact hle
        · exact c.trans x b e hle (hb e he).1
      · next hnot =>
        have hbx : c.le b x = true := (c.total b x).resolve_right hnot
        refine List.pairwise_cons.mpr
          ⟨fun e he => ?_, ih hbs fun e he => hx e (List.mem_cons_of_mem b he)⟩
        rcases (List.mem_orderedInsert _).mp he with rfl | he
        · exact ⟨hbx, fun hle => absurd hle hnot⟩
        · exact hb e he

/-- **Sorting by one comparison after another.** -/
theorem sort_sort_pairwise (d : Comparison α) (xs : List α) :
    (c.sort (d.sort xs)).Pairwise fun a b => (c.thenBy d).le a b = true :=
  (c.sort_pairwise_of_pairwise (d.sort_pairwise xs)).imp fun h => (c.thenBy_le d).mpr h

theorem pair_sublist_sort (hab : c.le a b = true) (h : [a, b].Sublist xs) :
    [a, b].Sublist (c.sort xs) := by
  let r : α → α → Prop := fun a b => c.le a b = true
  have : Std.Total r := ⟨c.total⟩
  have : IsTrans α r := ⟨c.trans⟩
  exact List.pair_sublist_insertionSort (r := r) hab h

theorem pair_sublist_or (ha : a ∈ xs) (hb : b ∈ xs) (hne : a ≠ b) :
    [a, b].Sublist xs ∨ [b, a].Sublist xs := by
  induction xs with
  | nil => cases ha
  | cons x xs ih =>
    rcases List.mem_cons.mp ha with rfl | ha'
    · have hb' : b ∈ xs := (List.mem_cons.mp hb).resolve_left hne.symm
      exact Or.inl (List.cons_sublist_cons.mpr (List.singleton_sublist.mpr hb'))
    rcases List.mem_cons.mp hb with rfl | hb'
    · exact Or.inr (List.cons_sublist_cons.mpr (List.singleton_sublist.mpr ha'))
    · exact (ih ha' hb').imp (List.Sublist.cons x) (List.Sublist.cons x)

theorem not_pair_sublist_both (hnodup : xs.Nodup) (hab : [a, b].Sublist xs) :
    ¬ [b, a].Sublist xs := by
  intro hba
  induction xs with
  | nil => cases hab
  | cons x xs ih =>
    obtain ⟨hx, hxs⟩ := List.nodup_cons.mp hnodup
    rcases List.sublist_cons_iff.mp hab with hab' | ⟨rest, heq, hrest⟩
    · rcases List.sublist_cons_iff.mp hba with hba' | ⟨rest', heq', -⟩
      · exact ih hxs hab' hba'
      · obtain ⟨rfl, -⟩ := List.cons.inj heq'
        exact hx (hab'.subset (by simp))
    · obtain ⟨rfl, rfl⟩ := List.cons.inj heq
      rcases List.sublist_cons_iff.mp hba with hba' | ⟨rest', heq', -⟩
      · exact hx (hba'.subset (by simp))
      · obtain ⟨rfl, -⟩ := List.cons.inj heq'
        exact hx (hrest.subset (by simp))

theorem eq_of_sort_reverse (hnodup : xs.Nodup) (hsame : c.sort xs = c.sort xs.reverse)
    (ha : a ∈ xs) (hb : b ∈ xs) (hties : c.Ties a b) : a = b := by
  by_contra hne
  have hnodup' : (c.sort xs).Nodup := (c.sort_perm xs).nodup_iff.mpr hnodup
  rcases pair_sublist_or ha hb hne with hab | hba
  · have h1 : [a, b].Sublist (c.sort xs) := c.pair_sublist_sort hties.1 hab
    have h2 : [b, a].Sublist (c.sort xs) := by
      rw [hsame]
      exact c.pair_sublist_sort hties.2 hab.reverse
    exact not_pair_sublist_both hnodup' h1 h2
  · have h1 : [b, a].Sublist (c.sort xs) := c.pair_sublist_sort hties.2 hba
    have h2 : [a, b].Sublist (c.sort xs) := by
      rw [hsame]
      exact c.pair_sublist_sort hties.1 hba.reverse
    exact not_pair_sublist_both hnodup' h1 h2

end Comparison

end Framework
