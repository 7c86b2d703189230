import Mathlib.Data.List.Basic
import Mathlib.Tactic.Common

/-!
# Replacing every occurrence of a word

`replaceAll needle replacement` goes through a list from left to right and puts the replacement
for every occurrence of the word, without looking at what it has put there.

Such a pass is used to carry markers through a text: a list of tokens is written down, some of
them as a word that cannot come about by accident, and the passes put something else for that
word. `replaceAll_flatMap` is the rule for it. A pass turns one way of writing the tokens into
another one if every token is either the word itself or no place for it to begin.
-/

namespace Framework

variable {α τ : Type*} [DecidableEq α]

/-- The pass, where this many elements of an occurrence are still to be left out. -/
def replaceFrom (needle replacement : List α) : ℕ → List α → List α
  | _, [] => []
  | n + 1, _ :: rest => replaceFrom needle replacement n rest
  | 0, c :: rest =>
    if needle <+: c :: rest then
      replacement ++ replaceFrom needle replacement (needle.length - 1) rest
    else c :: replaceFrom needle replacement 0 rest

/-- `s.replace(/needle/g, replacement)`, for a word that is not empty. -/
def replaceAll (needle replacement text : List α) : List α := replaceFrom needle replacement 0 text

section Replace

variable {needle replacement : List α}

theorem replaceFrom_append (u rest : List α) :
    replaceFrom needle replacement u.length (u ++ rest) = replaceAll needle replacement rest := by
  induction u with
  | nil => rfl
  | cons c u ih => exact ih

theorem replaceAll_needle (hneedle : needle ≠ []) (rest : List α) :
    replaceAll needle replacement (needle ++ rest) =
      replacement ++ replaceAll needle replacement rest := by
  cases hcons : needle with
  | nil => exact absurd hcons hneedle
  | cons c word =>
    have hprefix : c :: word <+: c :: (word ++ rest) := List.prefix_append (c :: word) rest
    rw [replaceAll, List.cons_append, replaceFrom, if_pos hprefix, List.length_cons,
      Nat.add_sub_cancel, replaceFrom_append]

theorem replaceAll_append (word : List α) {rest : List α}
    (h : ∀ u v, word = u ++ v → v ≠ [] → ¬ needle <+: v ++ rest) :
    replaceAll needle replacement (word ++ rest) =
      word ++ replaceAll needle replacement rest := by
  induction word with
  | nil => rfl
  | cons c word ih =>
    have hnot : ¬ needle <+: c :: (word ++ rest) := h [] (c :: word) rfl (List.cons_ne_nil c word)
    rw [List.cons_append, replaceAll, replaceFrom, if_neg hnot]
    exact congrArg (c :: ·) (ih fun u v huv => h (c :: u) v (congrArg (c :: ·) huv))

/-- **The rule of markers.** Every token is written as the word that is replaced, or in a way in
which no occurrence begins, and then it is kept. -/
theorem replaceAll_flatMap {f g : τ → List α} {xs : List τ} (hneedle : needle ≠ [])
    (h : ∀ x rest, x :: rest <:+ xs →
      (f x = needle ∧ g x = replacement) ∨
        (g x = f x ∧ ∀ u v, f x = u ++ v → v ≠ [] → ¬ needle <+: v ++ rest.flatMap f)) :
    replaceAll needle replacement (xs.flatMap f) = xs.flatMap g := by
  induction xs with
  | nil => rfl
  | cons x xs ih =>
    have hrest : replaceAll needle replacement (xs.flatMap f) = xs.flatMap g :=
      ih fun y rest hy => h y rest (hy.trans (List.suffix_cons x xs))
    rw [List.flatMap_cons, List.flatMap_cons]
    rcases h x xs List.suffix_rfl with ⟨hword, hput⟩ | ⟨hkept, hnot⟩
    · rw [hword, hput, replaceAll_needle hneedle, hrest]
    · rw [hkept, replaceAll_append _ hnot, hrest]

end Replace

end Framework
