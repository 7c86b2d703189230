import Mathlib.Algebra.Order.Field.Basic
import Mathlib.Data.Int.ConditionallyCompleteOrder
import Mathlib.Data.Rat.Floor
import Mathlib.Data.List.Sort
import Mathlib.Tactic.FieldSimp
import Mathlib.Tactic.Linarith
import Mathlib.Tactic.Positivity
import Mathlib.Tactic.Ring

/-!
# Describing samples

Three ways in which a program describes a list of samples by a bounded amount of data, over
any ordered field with a floor.

* `interpolate f r` reads a sequence between its members: on the segment from `f ⌊r⌋` to
  `f ⌈r⌉`. Where the sequence is monotone so is the reading (`interpolate_mono`), and it
  stays between the two members next to it.
* `binOf` puts a sample into one of `bins` intervals of equal width, the last one closed
  (`binOf_eq_iff`), and a list of counters that is bumped at the bin of every sample counts
  them (`foldl_modify_getElem?`).
* `stride n k i` is the place of the `i`-th of `k` samples spread over `n`: with `k ≤ n` the
  places are distinct and in range (`stride_strictMono`, `stride_lt`).
-/

namespace Framework

variable {K : Type*} [Field K] [LinearOrder K] [IsStrictOrderedRing K] [FloorRing K]

/-! ## Reading between the members of a sequence -/

section Interpolate

variable {f : ℤ → K} {r s : K} {m : ℤ}

/-- The sequence at `r`, linear between the two members next to it. -/
def interpolate (f : ℤ → K) (r : K) : K := f ⌊r⌋ * (1 - (r - ⌊r⌋)) + f ⌈r⌉ * (r - ⌊r⌋)

@[simp] theorem interpolate_intCast : interpolate f (m : K) = f m := by
  rw [interpolate, Int.floor_intCast, Int.ceil_intCast]
  ring

theorem interpolate_eq (hlower : (m : K) ≤ r) (hupper : r ≤ m + 1) :
    interpolate f r = f m + (r - m) * (f (m + 1) - f m) := by
  rcases eq_or_lt_of_le hlower with rfl | hlower
  · rw [interpolate_intCast, sub_self, zero_mul, add_zero]
  · rcases eq_or_lt_of_le hupper with rfl | hupper
    · have hcast : (m : K) + 1 = ((m + 1 : ℤ) : K) := by push_cast; rfl
      rw [hcast, interpolate_intCast]
      push_cast
      ring
    · have hfloor : ⌊r⌋ = m := Int.floor_eq_iff.mpr ⟨hlower.le, hupper⟩
      have hceil : ⌈r⌉ = m + 1 := by
        refine Int.ceil_eq_iff.mpr ⟨?_, ?_⟩
        · push_cast
          linarith
        · push_cast
          exact hupper.le
      rw [interpolate, hfloor, hceil]
      ring

theorem le_interpolate (hf : Monotone f) : f ⌊r⌋ ≤ interpolate f r := by
  rw [interpolate_eq (Int.floor_le r) (Int.lt_floor_add_one r).le]
  have hweight : 0 ≤ r - ⌊r⌋ := sub_nonneg.mpr (Int.floor_le r)
  have hrise : 0 ≤ f (⌊r⌋ + 1) - f ⌊r⌋ := sub_nonneg.mpr (hf (by omega))
  exact le_add_of_nonneg_right (mul_nonneg hweight hrise)

theorem interpolate_le (hf : Monotone f) (hr : r ≤ m) : interpolate f r ≤ f m := by
  rcases eq_or_lt_of_le hr with rfl | hr
  · exact interpolate_intCast.le
  · have hfloor : ⌊r⌋ + 1 ≤ m := Int.add_one_le_of_lt (Int.floor_lt.mpr hr)
    rw [interpolate_eq (Int.floor_le r) (Int.lt_floor_add_one r).le]
    have hweight : r - ⌊r⌋ ≤ 1 := by linarith [Int.lt_floor_add_one r]
    have hrise : 0 ≤ f (⌊r⌋ + 1) - f ⌊r⌋ := sub_nonneg.mpr (hf (by omega))
    calc f ⌊r⌋ + (r - ⌊r⌋) * (f (⌊r⌋ + 1) - f ⌊r⌋)
        ≤ f ⌊r⌋ + 1 * (f (⌊r⌋ + 1) - f ⌊r⌋) :=
          add_le_add_right (mul_le_mul_of_nonneg_right hweight hrise) _
      _ = f (⌊r⌋ + 1) := by ring
      _ ≤ f m := hf hfloor

/-- **Reading a monotone sequence is monotone.** -/
theorem interpolate_mono (hf : Monotone f) (h : r ≤ s) : interpolate f r ≤ interpolate f s := by
  rcases eq_or_lt_of_le (Int.floor_mono h) with hsame | hnext
  · -- on one segment the slope decides
    have hs : ((⌊r⌋ : ℤ) : K) ≤ s := (Int.floor_le r).trans h
    have hs' : s ≤ ⌊r⌋ + 1 := by
      rw [hsame]
      exact (Int.lt_floor_add_one s).le
    rw [interpolate_eq (Int.floor_le r) (Int.lt_floor_add_one r).le, interpolate_eq hs hs']
    have hrise : 0 ≤ f (⌊r⌋ + 1) - f ⌊r⌋ := sub_nonneg.mpr (hf (by omega))
    exact add_le_add_right (mul_le_mul_of_nonneg_right (sub_le_sub_right h _) hrise) _
  · -- otherwise a member of the sequence lies between the two readings
    have hr : r ≤ (⌊r⌋ + 1 : ℤ) := by
      push_cast
      exact (Int.lt_floor_add_one r).le
    calc interpolate f r ≤ f (⌊r⌋ + 1) := interpolate_le hf hr
      _ ≤ f ⌊s⌋ := hf hnext
      _ ≤ interpolate f s := le_interpolate hf

end Interpolate

/-! ## Bins of equal width -/

section Bins

variable {bins : ℕ} {low width v : K} {i : ℕ}

def binOf (bins : ℕ) (low width v : K) : ℤ :=
  if (bins : ℤ) ≤ ⌊(v - low) / width⌋ then bins - 1 else ⌊(v - low) / width⌋

theorem binOf_nonneg (hbins : 0 < bins) (hwidth : 0 < width) (hlow : low ≤ v) :
    0 ≤ binOf bins low width v := by
  have hfloor : 0 ≤ ⌊(v - low) / width⌋ :=
    Int.floor_nonneg.mpr (div_nonneg (sub_nonneg.mpr hlow) hwidth.le)
  rw [binOf]
  split <;> omega

omit [IsStrictOrderedRing K] in
theorem binOf_lt : binOf bins low width v < bins := by
  rw [binOf]
  split <;> omega

/-- **A sample is in the bin whose interval contains it**, the last interval being closed. -/
theorem binOf_eq_iff (hwidth : 0 < width) (hhigh : v ≤ low + bins * width) (hi : i < bins) :
    binOf bins low width v = i ↔
      low + i * width ≤ v ∧ (v < low + (i + 1) * width ∨ i + 1 = bins) := by
  have hfloor : ∀ j : ℤ, j ≤ ⌊(v - low) / width⌋ ↔ low + j * width ≤ v := by
    intro j
    rw [Int.le_floor, le_div_iff₀ hwidth]
    constructor <;> intro h <;> linarith
  have hstart : (i : ℤ) ≤ ⌊(v - low) / width⌋ ↔ low + i * width ≤ v := by
    rw [hfloor, Int.cast_natCast]
  have hend : ⌊(v - low) / width⌋ < (i + 1 : ℤ) ↔ v < low + (i + 1) * width := by
    rw [← not_le, hfloor, not_le]
    push_cast
    rfl
  have hbound : ((bins + 1 : ℕ) : ℤ) ≤ ⌊(v - low) / width⌋ → False := by
    intro hle
    have hge := (hfloor _).mp hle
    push_cast at hge
    linarith
  rw [← hstart, ← hend, binOf]
  split <;> omega

theorem foldl_modify_getElem? {α β : Type*} (key : α → ℕ) (bump : β → β) (xs : List α)
    (start : List β) (i : ℕ) :
    (xs.foldl (fun counters x => counters.modify (key x) bump) start)[i]? =
      start[i]?.map (bump^[xs.countP fun x => key x = i]) := by
  induction xs generalizing start with
  | nil => simp
  | cons x xs ih =>
    rw [List.foldl_cons, ih, List.getElem?_modify, List.countP_cons]
    by_cases hkey : key x = i
    · simp [hkey, Function.iterate_succ]
    · simp [hkey]

end Bins

/-! ## Places spread over a list -/

section Stride

variable {n k i j : ℕ}

/-- The place of the `i`-th of `k` samples that are spread over `n`. -/
def stride (n k i : ℕ) : ℤ := ⌊(i : ℚ) * ((n : ℚ) / k)⌋

@[simp] theorem stride_zero : stride n k 0 = 0 := by simp [stride]

theorem stride_nonneg : 0 ≤ stride n k i := Int.floor_nonneg.mpr (by positivity)

theorem stride_lt (hn : 0 < n) (hi : i < k) : stride n k i < n := by
  have hk : (0 : ℚ) < k := by exact_mod_cast (Nat.zero_le i).trans_lt hi
  have hik : (i : ℚ) < k := by exact_mod_cast hi
  have hn' : (0 : ℚ) < n := by exact_mod_cast hn
  rw [stride, Int.floor_lt, mul_div_assoc', div_lt_iff₀ hk]
  push_cast
  rw [mul_comm]
  exact mul_lt_mul_of_pos_left hik hn'

/-- **Spread samples are distinct**: a step of at least one place moves on. -/
theorem stride_strictMono (hk : 0 < k) (hkn : k ≤ n) (hij : i < j) :
    stride n k i < stride n k j := by
  have hk' : (0 : ℚ) < k := by exact_mod_cast hk
  have hstep : (1 : ℚ) ≤ (n : ℚ) / k := by
    rw [le_div_iff₀ hk', one_mul]
    exact_mod_cast hkn
  have hnext : (i : ℚ) + 1 ≤ j := by exact_mod_cast hij
  rw [Int.lt_iff_add_one_le, stride, stride, ← Int.floor_add_one]
  apply Int.floor_mono
  calc (i : ℚ) * ((n : ℚ) / k) + 1 ≤ i * ((n : ℚ) / k) + (n : ℚ) / k :=
        add_le_add_right hstep _
    _ = (i + 1) * ((n : ℚ) / k) := by ring
    _ ≤ j * ((n : ℚ) / k) := mul_le_mul_of_nonneg_right hnext (by linarith)

end Stride

end Framework
