import Mathlib.Data.List.DropRight
import Mathlib.Tactic.Common

/-!
# Lists of tokens

General facts about lists that are texts or lists of texts: trimming by a predicate, and
rewriting a list by rewriting each of its elements. A rewriting of the elements that loses
weight wherever it changes something leaves a list unchanged exactly when it leaves each
of its elements unchanged (`flatMap_eq_self_iff`). Without its duplicates a list keeps two
elements side by side exactly when the second is the first new one after the first
(`pair_infix_eraseDups_iff`).
-/

namespace Framework

namespace Tokens

variable {α : Type*} {p : α → Bool}

/-! ### Trimming -/

def trim (p : α → Bool) (xs : List α) : List α :=
  ((xs.dropWhile p).reverse.dropWhile p).reverse

/-- Neither end of the list satisfies `p`. -/
def Trimmed (p : α → Bool) (xs : List α) : Prop :=
  (∀ x ∈ xs.head?, p x = false) ∧ ∀ x ∈ xs.getLast?, p x = false

theorem trim_eq_rdropWhile (xs : List α) : trim p xs = (xs.dropWhile p).rdropWhile p := rfl

variable {xs ys : List α} {β : Type*} {a : α}

theorem trim_of_trimmed (h : Trimmed p xs) : trim p xs = xs := by
  have hleft : xs.dropWhile p = xs := by
    cases xs with
    | nil => rfl
    | cons x xs => rw [List.dropWhile_cons_of_neg (by simp [h.1 x rfl])]
  rw [trim_eq_rdropWhile, hleft, List.rdropWhile_eq_self_iff]
  intro hne
  simp [h.2 _ (List.getLast?_eq_some_getLast hne)]

theorem trimmed_trim (xs : List α) : Trimmed p (trim p xs) := by
  rw [trim_eq_rdropWhile]
  constructor
  · -- dropping at the end leaves the first element, if any is left
    intro x hx
    obtain ⟨rest, hrest⟩ := List.rdropWhile_prefix p (xs.dropWhile p)
    have hhead : (xs.dropWhile p).head? = some x := by
      rw [← hrest, List.head?_append, Option.mem_def.mp hx, Option.some_or]
    have hnot := List.head?_dropWhile_not p xs
    rw [hhead] at hnot
    simpa using hnot
  · intro x hx
    have hne : (xs.dropWhile p).rdropWhile p ≠ [] := by
      intro hnil
      rw [hnil] at hx
      cases hx
    rw [List.getLast?_eq_some_getLast hne, Option.mem_some_iff] at hx
    have hnot := List.rdropWhile_last_not p _ hne
    rw [hx] at hnot
    simpa using hnot

theorem length_trim_le (xs : List α) : (trim p xs).length ≤ xs.length := by
  rw [trim_eq_rdropWhile]
  exact (List.rdropWhile_prefix p _).length_le.trans (List.dropWhile_sublist p).length_le

theorem length_trim_lt (h : trim p xs ≠ xs) : (trim p xs).length < xs.length := by
  refine lt_of_le_of_ne (length_trim_le xs) fun hlen => h ?_
  have hdrop : xs.dropWhile p = xs := by
    refine (List.dropWhile_sublist p).eq_of_length_le ?_
    rw [← hlen, trim_eq_rdropWhile]
    exact (List.rdropWhile_prefix p _).length_le
  rw [trim_eq_rdropWhile, hdrop] at hlen ⊢
  exact (List.rdropWhile_prefix p xs).eq_of_length hlen

theorem trim_eq_nil_iff : trim p xs = [] ↔ ∀ x ∈ xs, p x = true := by
  rw [trim, List.reverse_eq_nil_iff, List.dropWhile_eq_nil_iff]
  simp only [List.mem_reverse]
  constructor
  · intro h
    have hnil : xs.dropWhile p = [] := by
      by_contra hne
      have hhead := List.head_dropWhile_not p hne
      rw [h _ (List.head_mem hne)] at hhead
      cases hhead
    exact List.dropWhile_eq_nil_iff.mp hnil
  · intro h x hx
    exact h x ((List.dropWhile_sublist p).subset hx)

theorem Trimmed.getLast_of_suffix (h : Trimmed p xs) (hs : ys <:+ xs) :
    ∀ y ∈ ys.getLast?, p y = false := by
  obtain ⟨init, rfl⟩ := hs
  intro y hy
  refine h.2 y ?_
  rw [List.getLast?_append, Option.mem_def.mp hy, Option.some_or]
  rfl

theorem trim_append (h : ∀ y ∈ ys, p y = true) (xs : List α) :
    trim p (xs ++ ys) = trim p xs := by
  rw [trim_eq_rdropWhile, trim_eq_rdropWhile, List.dropWhile_append]
  split
  · next hxs =>
    rw [List.isEmpty_iff] at hxs
    rw [List.dropWhile_eq_nil_iff.mpr h, hxs]
  · rw [List.rdropWhile, List.rdropWhile, List.reverse_append, List.dropWhile_append_of_pos]
    exact fun y hy => h y (List.mem_reverse.mp hy)

theorem dropWhile_map_congr {f : α → β} {q : β → Bool} (h : ∀ x ∈ xs, q (f x) = p x) :
    (xs.map f).dropWhile q = (xs.dropWhile p).map f := by
  induction xs with
  | nil => rfl
  | cons x xs ih =>
    obtain ⟨hx, hxs⟩ := List.forall_mem_cons.mp h
    rw [List.map_cons, List.dropWhile_cons, List.dropWhile_cons, hx, ih hxs]
    split <;> rfl

theorem trim_map {f : α → β} {q : β → Bool} (h : ∀ x ∈ xs, q (f x) = p x) :
    trim q (xs.map f) = (trim p xs).map f := by
  rw [trim, trim, dropWhile_map_congr h, ← List.map_reverse, dropWhile_map_congr, List.map_reverse]
  exact fun x hx => h x ((List.dropWhile_sublist p).subset (List.mem_reverse.mp hx))

theorem trim_append_of_forall_not (h : ∀ y ∈ ys, p y = false) (hys : ys ≠ []) (xs : List α) :
    trim p (xs ++ ys) = xs.dropWhile p ++ ys := by
  have hdrop : (xs ++ ys).dropWhile p = xs.dropWhile p ++ ys := by
    rw [List.dropWhile_append]
    split
    · next hxs =>
      rw [List.isEmpty_iff.mp hxs, List.nil_append, List.dropWhile_eq_self_iff]
      exact fun hlen => by simp [h _ (List.getElem_mem hlen)]
    · rfl
  rw [trim_eq_rdropWhile, hdrop, List.rdropWhile_eq_self_iff]
  intro hne
  rw [List.getLast_append_of_ne_nil _ hys, h _ (List.getLast_mem hys)]
  exact Bool.false_ne_true

theorem trim_dropWhile (xs : List α) : trim p (xs.dropWhile p) = trim p xs := by
  rw [trim, trim, List.dropWhile_idempotent]

theorem Trimmed.append (hx : Trimmed p xs) (hy : Trimmed p ys) (hxs : xs ≠ []) (hys : ys ≠ [])
    (zs : List α) : Trimmed p (xs ++ zs ++ ys) := by
  constructor
  · rw [List.append_assoc, List.head?_append_of_ne_nil _ hxs]
    exact hx.1
  · rw [List.getLast?_append_of_ne_nil _ hys]
    exact hy.2

theorem Trimmed.map (h : Trimmed p xs) {g : α → α} (hg : ∀ x, p (g x) = p x) :
    Trimmed p (xs.map g) := by
  constructor
  · intro x hx
    rw [List.head?_map] at hx
    obtain ⟨y, hy, rfl⟩ := Option.map_eq_some_iff.mp hx
    exact (hg y).trans (h.1 y hy)
  · intro x hx
    rw [List.getLast?_map] at hx
    obtain ⟨y, hy, rfl⟩ := Option.map_eq_some_iff.mp hx
    exact (hg y).trans (h.2 y hy)

/-! ### Rewriting the elements -/

theorem flatMap_filter_of {q : α → Bool} {f : α → List β} (h : ∀ x, q x = false → f x = [])
    (xs : List α) :
    (xs.filter q).flatMap f = xs.flatMap f := by
  induction xs with
  | nil => rfl
  | cons x xs ih =>
    rw [List.filter_cons, List.flatMap_cons, ← ih]
    cases hq : q x with
    | false => rw [h x hq]; rfl
    | true => rfl

def weight (w : α → ℕ) : List α → ℕ
  | [] => 0
  | x :: xs => w x + weight w xs

@[simp] theorem weight_nil (w : α → ℕ) : weight w [] = 0 := rfl

@[simp] theorem weight_cons (w : α → ℕ) (x : α) (xs : List α) :
    weight w (x :: xs) = w x + weight w xs := rfl

@[simp] theorem weight_append (w : α → ℕ) (xs ys : List α) :
    weight w (xs ++ ys) = weight w xs + weight w ys := by
  induction xs with
  | nil => exact (Nat.zero_add _).symm
  | cons x xs ih => rw [List.cons_append, weight_cons, ih, weight_cons, Nat.add_assoc]

theorem weight_map (w : β → ℕ) (g : α → β) (xs : List α) :
    weight w (xs.map g) = weight (fun x => w (g x)) xs := by
  induction xs with
  | nil => rfl
  | cons x xs ih => rw [List.map_cons, weight_cons, ih, weight_cons]

variable {b x : α} {g h : α → List β} {v : β → ℕ}

theorem weight_flatMap_mono (hle : ∀ x ∈ xs, weight v (g x) ≤ weight v (h x)) :
    weight v (xs.flatMap g) ≤ weight v (xs.flatMap h) := by
  induction xs with
  | nil => exact Nat.le_refl _
  | cons x xs ih =>
    obtain ⟨hx, hrest⟩ := List.forall_mem_cons.mp hle
    rw [List.flatMap_cons, List.flatMap_cons, weight_append, weight_append]
    exact Nat.add_le_add hx (ih hrest)

theorem weight_flatMap_eq (hle : ∀ x ∈ xs, weight v (g x) ≤ weight v (h x))
    (heq : weight v (xs.flatMap h) ≤ weight v (xs.flatMap g)) :
    ∀ x ∈ xs, weight v (g x) = weight v (h x) := by
  induction xs with
  | nil => exact List.forall_mem_nil _
  | cons x xs ih =>
    obtain ⟨hx, hrest⟩ := List.forall_mem_cons.mp hle
    have hmono := weight_flatMap_mono hrest
    rw [List.flatMap_cons, List.flatMap_cons, weight_append, weight_append] at heq
    exact List.forall_mem_cons.mpr ⟨by omega, ih hrest (by omega)⟩

theorem exists_eq_trim (p : α → Bool) (xs : List α) :
    ∃ a b, (∀ x ∈ a, p x = true) ∧ (∀ x ∈ b, p x = true) ∧ xs = a ++ (trim p xs ++ b) := by
  refine ⟨xs.takeWhile p, (xs.dropWhile p).rtakeWhile p, fun x hx => List.mem_takeWhile_imp hx,
    fun x hx => List.mem_rtakeWhile_imp hx, ?_⟩
  rw [trim_eq_rdropWhile, List.rdropWhile_append_rtakeWhile, List.takeWhile_append_dropWhile]

variable {w : α → ℕ} {f : α → List α}

theorem weight_eq_zero_iff (h : ∀ x, p x = true → 0 < w x) (hxs : ∀ x ∈ xs, p x = true) :
    weight w xs = 0 ↔ xs = [] := by
  cases xs with
  | nil => simp
  | cons x xs =>
    have hpos := h x (hxs x List.mem_cons_self)
    simp only [weight_cons, reduceCtorEq, iff_false]
    omega

theorem weight_trim_le (xs : List α) : weight w (trim p xs) ≤ weight w xs := by
  obtain ⟨a, b, -, -, heq⟩ := exists_eq_trim p xs
  have hweight := congrArg (weight w) heq
  rw [weight_append, weight_append] at hweight
  omega

theorem weight_trim_lt (h : ∀ x, p x = true → 0 < w x) (hne : trim p xs ≠ xs) :
    weight w (trim p xs) < weight w xs := by
  obtain ⟨a, b, ha, hb, heq⟩ := exists_eq_trim p xs
  refine lt_of_le_of_ne (weight_trim_le xs) fun hsame => hne ?_
  have hweight := congrArg (weight w) heq
  rw [weight_append, weight_append] at hweight
  obtain rfl := (weight_eq_zero_iff h ha).mp (by omega)
  obtain rfl := (weight_eq_zero_iff h hb).mp (by omega)
  rw [List.nil_append, List.append_nil] at heq
  exact heq.symm

theorem weight_flatMap_le (h : ∀ x, f x = [x] ∨ weight w (f x) < w x) (xs : List α) :
    weight w (xs.flatMap f) ≤ weight w xs := by
  induction xs with
  | nil => exact Nat.le_refl _
  | cons x xs ih =>
    rw [List.flatMap_cons, weight_append, weight_cons]
    refine Nat.add_le_add ?_ ih
    obtain hx | hx := h x
    · rw [hx, weight_cons, weight_nil]
      exact Nat.le_refl _
    · exact Nat.le_of_lt hx

/-- **Fixed lists.** If a rewriting keeps an element or loses weight on it, a list is
unchanged exactly when each of its elements is. -/
theorem flatMap_eq_self_iff (h : ∀ x, f x = [x] ∨ weight w (f x) < w x) (xs : List α) :
    xs.flatMap f = xs ↔ ∀ x ∈ xs, f x = [x] := by
  induction xs with
  | nil => simp
  | cons x xs ih =>
    rw [List.flatMap_cons, List.forall_mem_cons, ← ih]
    constructor
    · intro heq
      obtain hx | hx := h x
      · rw [hx] at heq
        exact ⟨hx, List.tail_eq_of_cons_eq heq⟩
      · -- what is lost on the first element is not gained on the others
        have hweight := congrArg (weight w) heq
        rw [weight_append, weight_cons] at hweight
        have hrest := weight_flatMap_le h xs
        omega
    · rintro ⟨hx, hrest⟩
      rw [hx, hrest]
      rfl

/-! ### Duplicates -/

variable [BEq α] [LawfulBEq α]

theorem nodup_eraseDups (xs : List α) : xs.eraseDups.Nodup := by
  -- by the length: the tail loses the copies of the head before it is deduplicated
  generalize hn : xs.length = n
  induction n using Nat.strong_induction_on generalizing xs with
  | _ n ih =>
    cases xs with
    | nil => exact List.nodup_nil
    | cons x xs =>
      rw [List.eraseDups_cons, List.nodup_cons]
      constructor
      · intro hx
        have := (List.mem_filter.mp (List.mem_eraseDups.mp hx)).2
        simp at this
      · refine ih _ ?_ _ rfl
        rw [← hn]
        exact Nat.lt_succ_of_le (List.length_filter_le _ xs)

theorem eraseDups_of_nodup (h : xs.Nodup) : xs.eraseDups = xs := by
  induction xs with
  | nil => rfl
  | cons x xs ih =>
    obtain ⟨hx, hxs⟩ := List.nodup_cons.mp h
    have hkept : xs.filter (fun b => !b == x) = xs := by
      refine List.filter_eq_self.mpr fun b hb => ?_
      have hne : b ≠ x := fun heq => hx (heq ▸ hb)
      simpa using hne
    rw [List.eraseDups_cons, hkept, ih hxs]

theorem eraseDups_eraseDups (xs : List α) : xs.eraseDups.eraseDups = xs.eraseDups :=
  eraseDups_of_nodup (nodup_eraseDups xs)

theorem eraseDups_append_of_subset (h : ys ⊆ xs) :
    (xs ++ ys).eraseDups = xs.eraseDups := by
  have hnone : ys.removeAll xs = [] := by
    refine List.filter_eq_nil_iff.mpr fun y hy => ?_
    simp [h hy]
  rw [List.eraseDups_append, hnone, List.eraseDups_nil, List.append_nil]

/-- The first element after the first `a` that has not come before. -/
def nextNew (a : α) (xs : List α) : Option α :=
  (xs.drop (xs.idxOf a + 1)).find? fun x => !(xs.take (xs.idxOf a + 1)).contains x

theorem nextNew_of_not_mem (h : a ∉ xs) : nextNew a xs = none := by
  rw [nextNew, List.idxOf_eq_length h, List.drop_eq_nil_of_le (Nat.le_succ _), List.find?_nil]

theorem nextNew_append_cons {us : List α} (h : a ∉ us) (vs : List α) :
    nextNew a (us ++ a :: vs) = vs.find? fun x => !(us ++ [a]).contains x := by
  have hidx : (us ++ a :: vs).idxOf a = us.length := by
    rw [List.idxOf_append, if_neg h, List.idxOf_cons_self, Nat.zero_add]
  have hsplit : us ++ a :: vs = (us ++ [a]) ++ vs := by rw [List.append_assoc]; rfl
  have hlength : (us ++ [a]).length = us.length + 1 := List.length_append
  rw [nextNew, hidx, hsplit, ← hlength, List.drop_left, List.take_left]

theorem nextNew_cons_of_ne (hx : x ≠ a) (xs : List α) :
    nextNew a (x :: xs) = nextNew a (xs.filter fun b => !b == x) := by
  have hax : (!a == x) = true := by simpa using Ne.symm hx
  by_cases ha : a ∈ xs
  · obtain ⟨us, vs, rfl, hus⟩ := List.eq_append_cons_of_mem ha
    have hcons : a ∉ x :: us := fun h => (List.mem_cons.mp h).elim (Ne.symm hx) hus
    have hfilter : a ∉ us.filter fun b => !b == x := fun h => hus (List.mem_filter.mp h).1
    rw [← List.cons_append, nextNew_append_cons hcons, List.filter_append, List.filter_cons,
      if_pos hax, nextNew_append_cons hfilter, List.find?_filter]
    congr 1
    funext y
    rw [Bool.eq_iff_iff]
    by_cases hyx : y = x <;> simp [hyx]
  · have hcons : a ∉ x :: xs := fun h => (List.mem_cons.mp h).elim (Ne.symm hx) ha
    rw [nextNew_of_not_mem hcons, nextNew_of_not_mem fun h => ha (List.mem_filter.mp h).1]

omit [BEq α] [LawfulBEq α] in
theorem pair_infix_cons_iff :
    [a, b] <:+: x :: xs ↔ (a = x ∧ xs.head? = some b) ∨ [a, b] <:+: xs := by
  rw [List.infix_cons_iff]
  refine or_congr_left ?_
  rw [List.cons_prefix_cons]
  refine and_congr_right fun _ => ?_
  cases xs with
  | nil => simp
  | cons y ys => simp [eq_comm]

omit [LawfulBEq α] in
theorem head?_eraseDups (xs : List α) : xs.eraseDups.head? = xs.head? := by
  cases xs with
  | nil => rfl
  | cons x xs => rw [List.eraseDups_cons, List.head?_cons, List.head?_cons]

/-- **Neighbours among the first occurrences.** After the duplicates are removed `b` stands right
after `a` exactly when it is the first new element after the first `a`. -/
theorem pair_infix_eraseDups_iff (xs : List α) :
    [a, b] <:+: xs.eraseDups ↔ nextNew a xs = some b := by
  -- by the length: the tail loses the copies of the head before it is deduplicated
  generalize hn : xs.length = n
  induction n using Nat.strong_induction_on generalizing xs with
  | _ n ih =>
    cases xs with
    | nil => simp [nextNew]
    | cons x xs =>
      have hlt : (xs.filter fun b => !b == x).length < n := by
        rw [← hn]
        exact Nat.lt_succ_of_le (List.length_filter_le _ xs)
      rw [List.eraseDups_cons, pair_infix_cons_iff, ih _ hlt _ rfl]
      by_cases hx : x = a
      · subst hx
        have hnone : nextNew x (xs.filter fun b => !b == x) = none :=
          nextNew_of_not_mem fun h => absurd (List.mem_filter.mp h).2 (by simp)
        have hhead : nextNew x (x :: xs) = xs.find? fun y => !([x] : List α).contains y :=
          nextNew_append_cons List.not_mem_nil xs
        have hcontains : (fun y => !([x] : List α).contains y) = fun y => !y == x := by
          funext y
          rw [List.contains_cons, List.contains_nil, Bool.or_false]
        rw [hnone, hhead, hcontains, head?_eraseDups, List.head?_filter]
        simp
      · rw [nextNew_cons_of_ne hx]
        refine or_iff_right ?_
        rintro ⟨rfl, -⟩
        exact hx rfl

end Tokens

end Framework
