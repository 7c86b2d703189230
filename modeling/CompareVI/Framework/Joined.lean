import Mathlib.Tactic.Common

/-!
# Joined texts

Texts that are joined by a separator which they may contain themselves. What the joined text
shows is the list of the pieces between separators (`intercalate_eq_iff`); where the texts
begin and end in it shows in the number of separators that each of them contains
(`eq_iff_pieces`).

So two lists of texts are told apart by their joined texts, unless they have the same pieces
and share out the separators in another way (`joined_iff`).
-/

namespace Framework
namespace Joined

variable {α : Type} [DecidableEq α] {sep : α} {xs ys : List (List α)}

def pieces (sep : α) (xs : List (List α)) : List (List α) := xs.flatMap fun x => x.splitOn sep

def counts (sep : α) (xs : List (List α)) : List ℕ := xs.map (List.count sep)

theorem splitOn_intercalate (hne : xs ≠ []) :
    ([sep].intercalate xs).splitOn sep = pieces sep xs := by
  induction xs with
  | nil => exact absurd rfl hne
  | cons x xs ih =>
    cases xs with
    | nil => rw [List.intercalate_singleton, pieces, List.flatMap_singleton]
    | cons y ys =>
      rw [List.intercalate_cons_cons, List.append_assoc, List.singleton_append,
        List.splitOn_append_cons_self, ih (List.cons_ne_nil y ys)]
      rfl

/-- **Joined texts are equal where the pieces are.** -/
theorem intercalate_eq_iff (hxs : xs ≠ []) (hys : ys ≠ []) :
    [sep].intercalate xs = [sep].intercalate ys ↔ pieces sep xs = pieces sep ys := by
  rw [← splitOn_intercalate hxs, ← splitOn_intercalate hys]
  constructor
  · intro h
    rw [h]
  · intro h
    have hjoined := congrArg ([sep].intercalate ·) h
    simpa using hjoined

theorem length_splitOn (x : List α) : (x.splitOn sep).length = x.count sep + 1 := by
  induction x with
  | nil => rfl
  | cons a x ih =>
    rw [List.splitOn_cons_eq_if_modifyHead]
    by_cases ha : a = sep
    · subst ha
      rw [if_pos (beq_self_eq_true a), List.length_cons, ih, List.count_cons_self]
    · rw [if_neg (by simpa using ha), List.length_modifyHead, ih, List.count_cons_of_ne ha]

theorem eq_iff_pieces (sep : α) :
    xs = ys ↔ pieces sep xs = pieces sep ys ∧ counts sep xs = counts sep ys := by
  constructor
  · rintro rfl
    exact ⟨rfl, rfl⟩
  · rintro ⟨hpieces, hcounts⟩
    induction xs generalizing ys with
    | nil => exact (List.map_eq_nil_iff.mp hcounts.symm).symm
    | cons x xs ih =>
      cases ys with
      | nil => cases hcounts
      | cons y ys =>
        obtain ⟨hcount, hcounts⟩ := List.cons.inj hcounts
        rw [pieces, pieces, List.flatMap_cons, List.flatMap_cons] at hpieces
        have hlength : (x.splitOn sep).length = (y.splitOn sep).length := by
          rw [length_splitOn, length_splitOn, hcount]
        obtain ⟨hfirst, hrest⟩ := List.append_inj hpieces hlength
        have hxy : x = y :=
          calc x = [sep].intercalate (x.splitOn sep) := (List.intercalate_splitOn sep).symm
            _ = [sep].intercalate (y.splitOn sep) := by rw [hfirst]
            _ = y := List.intercalate_splitOn sep
        rw [hxy, ih hrest hcounts]

/-- **What joining loses.** -/
theorem joined_iff (hxs : xs ≠ []) (hys : ys ≠ []) :
    ([sep].intercalate xs = [sep].intercalate ys ↔ xs = ys) ↔
      (pieces sep xs = pieces sep ys → counts sep xs = counts sep ys) := by
  rw [intercalate_eq_iff hxs hys]
  constructor
  · intro h hpieces
    exact ((eq_iff_pieces sep).mp (h.mp hpieces)).2
  · intro h
    refine ⟨fun hpieces => (eq_iff_pieces sep).mpr ⟨hpieces, h hpieces⟩, ?_⟩
    rintro rfl
    rfl

end Joined
end Framework
