import Mathlib.Data.Set.Card
import Mathlib.Data.String.Basic
import Mathlib.Order.Interval.Finset.Nat
import Mathlib.Tactic.Common

/-!
# Dates of the Gregorian calendar

A date is a year of four digits, a month and a day of that month (`CivilDate`). Dates are
ordered by year, month and day (`Before`). The day number counts the days from the beginning
of the year zero. It is a computation with years and months, and this file says what it has
to do with the calendar:

* it grows with the date (`before_iff_dayNumber_lt`), so that different dates have different
  numbers (`dayNumber_injective`);
* it skips no day (`exists_dayNumber_eq`), so that the difference of two numbers counts the
  dates in between (`ncard_between`);
* the text `YYYY-MM-DD` is ordered as the date is (`text_lt_iff`).
-/

namespace Framework

/-! ### Years and months -/

def isLeapYear (y : ℕ) : Bool :=
  decide (y % 4 = 0) && (decide (y % 100 ≠ 0) || decide (y % 400 = 0))

def daysInMonth (y m : ℕ) : ℕ :=
  if m = 2 then (if isLeapYear y then 29 else 28)
  else if m = 4 ∨ m = 6 ∨ m = 9 ∨ m = 11 then 30
  else 31

def daysBeforeMonth (y : ℕ) : ℕ → ℕ
  | 0 | 1 => 0
  | m + 2 => daysBeforeMonth y (m + 1) + daysInMonth y (m + 1)

def daysBeforeYear (y : ℕ) : ℕ := 365 * y + (y + 3) / 4 - (y + 99) / 100 + (y + 399) / 400

def dayOf (y m d : ℕ) : ℕ := daysBeforeYear y + daysBeforeMonth y m + d

theorem daysBeforeMonth_succ {y m : ℕ} (hm : 1 ≤ m) :
    daysBeforeMonth y (m + 1) = daysBeforeMonth y m + daysInMonth y m := by
  obtain ⟨m, rfl⟩ := Nat.exists_eq_succ_of_ne_zero (Nat.one_le_iff_ne_zero.mp hm)
  rfl

theorem daysBeforeMonth_lt {y m n : ℕ} (hm : 1 ≤ m) (hmn : m < n) :
    daysBeforeMonth y m + daysInMonth y m ≤ daysBeforeMonth y n := by
  induction n, hmn using Nat.le_induction with
  | base => rw [daysBeforeMonth_succ hm]
  | succ n hn ih =>
    rw [daysBeforeMonth_succ (hm.trans (Nat.le_of_succ_le hn))]
    exact ih.trans (Nat.le_add_right _ _)

theorem daysBeforeMonth_year (y : ℕ) :
    daysBeforeMonth y 13 = if isLeapYear y then 366 else 365 := by
  simp only [daysBeforeMonth, daysInMonth]
  cases isLeapYear y <;> rfl

theorem daysBeforeYear_succ (y : ℕ) :
    daysBeforeYear (y + 1) = daysBeforeYear y + daysBeforeMonth y 13 := by
  rw [daysBeforeMonth_year]
  have hfour : (y + 1 + 3) / 4 = (y + 3) / 4 + if y % 4 = 0 then 1 else 0 := by
    split <;> omega
  have hcentury : (y + 1 + 99) / 100 = (y + 99) / 100 + if y % 100 = 0 then 1 else 0 := by
    split <;> omega
  have hcycle : (y + 1 + 399) / 400 = (y + 399) / 400 + if y % 400 = 0 then 1 else 0 := by
    split <;> omega
  have hle : (y + 99) / 100 ≤ 365 * y + (y + 3) / 4 := by omega
  have hcenturyFour : y % 100 = 0 → y % 4 = 0 := by omega
  have hcycleCentury : y % 400 = 0 → y % 100 = 0 := by omega
  rw [daysBeforeYear, daysBeforeYear, hfour, hcentury, hcycle, isLeapYear]
  generalize (y + 3) / 4 = fours at *
  generalize (y + 99) / 100 = centuries at *
  generalize (y + 399) / 400 = cycles at *
  by_cases h4 : y % 4 = 0 <;> by_cases h100 : y % 100 = 0 <;> by_cases h400 : y % 400 = 0 <;>
    simp only [h4, h100, h400, if_true, if_false, decide_true, decide_false, Bool.and_true,
      Bool.true_and, Bool.false_and, Bool.or_true, Bool.or_false, ne_eq, not_true,
      not_false_eq_true, Bool.false_eq_true] <;> omega

theorem daysBeforeYear_lt {y z : ℕ} (h : y < z) :
    daysBeforeYear y + daysBeforeMonth y 13 ≤ daysBeforeYear z := by
  induction z, h using Nat.le_induction with
  | base => rw [daysBeforeYear_succ]
  | succ z _ ih =>
    rw [daysBeforeYear_succ z]
    exact ih.trans (Nat.le_add_right _ _)

/-! ### Dates -/

@[ext] structure CivilDate where
  year : ℕ
  month : ℕ
  day : ℕ
  year_lt : year < 10000
  month_pos : 1 ≤ month
  month_le : month ≤ 12
  day_pos : 1 ≤ day
  day_le : day ≤ daysInMonth year month

namespace CivilDate

variable {a b : CivilDate}

/-- The date is an earlier one. -/
def Before (a b : CivilDate) : Prop :=
  a.year < b.year ∨ a.year = b.year ∧ (a.month < b.month ∨ a.month = b.month ∧ a.day < b.day)

instance : DecidableRel Before := fun a b =>
  inferInstanceAs (Decidable (a.year < b.year ∨ a.year = b.year ∧
    (a.month < b.month ∨ a.month = b.month ∧ a.day < b.day)))

def dayNumber (a : CivilDate) : ℕ := dayOf a.year a.month a.day

theorem before_trichotomy (a b : CivilDate) : a.Before b ∨ a = b ∨ b.Before a := by
  rcases lt_trichotomy a.year b.year with hy | hy | hy
  · exact .inl (.inl hy)
  · rcases lt_trichotomy a.month b.month with hm | hm | hm
    · exact .inl (.inr ⟨hy, .inl hm⟩)
    · rcases lt_trichotomy a.day b.day with hd | hd | hd
      · exact .inl (.inr ⟨hy, .inr ⟨hm, hd⟩⟩)
      · exact .inr (.inl (CivilDate.ext hy hm hd))
      · exact .inr (.inr (.inr ⟨hy.symm, .inr ⟨hm.symm, hd⟩⟩))
    · exact .inr (.inr (.inr ⟨hy.symm, .inl hm⟩))
  · exact .inr (.inr (.inl hy))

theorem dayNumber_lt (h : a.Before b) : a.dayNumber < b.dayNumber := by
  unfold dayNumber dayOf
  have hday := a.day_le
  have hpos := b.day_pos
  rcases h with hy | ⟨hy, hm | ⟨hm, hd⟩⟩
  · have hyear := daysBeforeYear_lt hy
    have hmonth := @daysBeforeMonth_lt a.year a.month 13 a.month_pos (Nat.lt_succ_of_le a.month_le)
    omega
  · have hmonth := daysBeforeMonth_lt (y := a.year) a.month_pos hm
    rw [← hy]
    omega
  · rw [← hy, ← hm]
    omega

theorem before_iff_dayNumber_lt : a.Before b ↔ a.dayNumber < b.dayNumber := by
  refine ⟨dayNumber_lt, fun h => ?_⟩
  rcases before_trichotomy a b with hab | rfl | hba
  · exact hab
  · exact absurd h (Nat.lt_irrefl _)
  · exact absurd h (Nat.lt_asymm (dayNumber_lt hba))

theorem dayNumber_injective : Function.Injective dayNumber := by
  intro a b h
  rcases before_trichotomy a b with hab | hab | hba
  · exact absurd h (dayNumber_lt hab).ne
  · exact hab
  · exact absurd h (dayNumber_lt hba).ne'

theorem exists_next (h : a.Before b) : ∃ c : CivilDate, c.dayNumber = a.dayNumber + 1 := by
  by_cases hday : a.day < daysInMonth a.year a.month
  · exact ⟨⟨a.year, a.month, a.day + 1, a.year_lt, a.month_pos, a.month_le, Nat.succ_pos _, hday⟩,
      rfl⟩
  · have hlast : a.day = daysInMonth a.year a.month := le_antisymm a.day_le (not_lt.mp hday)
    by_cases hmonth : a.month < 12
    · -- the first of the next month
      have hlong : 1 ≤ daysInMonth a.year (a.month + 1) := by
        unfold daysInMonth
        split <;> (try split) <;> omega
      refine ⟨⟨a.year, a.month + 1, 1, a.year_lt, Nat.succ_pos _, hmonth, le_rfl, hlong⟩, ?_⟩
      change dayOf a.year (a.month + 1) 1 = dayOf a.year a.month a.day + 1
      rw [dayOf, dayOf, daysBeforeMonth_succ a.month_pos, hlast]
      omega
    · -- the first of January of the next year
      have hdecember : a.month = 12 := le_antisymm a.month_le (not_lt.mp hmonth)
      have hyear : a.year + 1 < 10000 := by
        rcases h with hy | ⟨hy, hm | ⟨hm, hd⟩⟩
        · exact lt_of_le_of_lt hy b.year_lt
        · have := b.month_le
          omega
        · have := b.day_le
          rw [← hy, ← hm] at this
          omega
      refine ⟨⟨a.year + 1, 1, 1, hyear, le_rfl, by decide, le_rfl, ?_⟩, ?_⟩
      · rw [daysInMonth, if_neg (by decide), if_neg (by decide)]
        decide
      · change dayOf (a.year + 1) 1 1 = dayOf a.year a.month a.day + 1
        rw [dayOf, dayOf, daysBeforeYear_succ, daysBeforeMonth_succ (by decide : 1 ≤ 12), hlast,
          hdecember, daysBeforeMonth]
        omega

theorem exists_dayNumber_eq {n : ℕ} (ha : a.dayNumber ≤ n) (hb : n ≤ b.dayNumber) :
    ∃ c : CivilDate, c.dayNumber = n := by
  induction n, ha using Nat.le_induction with
  | base => exact ⟨a, rfl⟩
  | succ n _ ih =>
    obtain ⟨c, rfl⟩ := ih (Nat.le_of_succ_le hb)
    exact exists_next (before_iff_dayNumber_lt.mpr hb)

def between (a b : CivilDate) : Set CivilDate := {c | a.Before c ∧ c.Before b}

theorem ncard_between (a b : CivilDate) :
    (between a b).ncard = b.dayNumber - a.dayNumber - 1 := by
  have himage : dayNumber '' between a b = Set.Ioo a.dayNumber b.dayNumber := by
    ext n
    simp only [between, Set.mem_image, Set.mem_ofPred_eq, before_iff_dayNumber_lt, Set.mem_Ioo]
    constructor
    · rintro ⟨c, hc, rfl⟩
      exact hc
    · rintro ⟨ha, hb⟩
      obtain ⟨c, rfl⟩ := exists_dayNumber_eq ha.le hb.le
      exact ⟨c, ⟨ha, hb⟩, rfl⟩
  rw [← Set.ncard_image_of_injective _ dayNumber_injective, himage, ← Finset.coe_Ioo,
    Set.ncard_coe_finset, Nat.card_Ioo]

end CivilDate

/-! ### Texts -/

def digit (n : ℕ) : Char := Char.ofNat (48 + n)

def twoDigits (n : ℕ) : List Char := [digit (n / 10), digit (n % 10)]

variable {m n : ℕ}

theorem digit_lt_iff (hm : m < 10) (hn : n < 10) : digit m < digit n ↔ m < n := by
  have hall : ∀ i j : Fin 10, digit i < digit j ↔ i < j := by decide
  exact hall ⟨m, hm⟩ ⟨n, hn⟩

theorem digit_inj (hm : m < 10) (hn : n < 10) : digit m = digit n ↔ m = n := by
  rw [← not_iff_not, ← ne_eq, ← ne_eq, ne_iff_lt_or_gt, ne_iff_lt_or_gt]
  exact or_congr (digit_lt_iff hm hn) (digit_lt_iff hn hm)

theorem twoDigits_append_lt (hm : m < 100) (hn : n < 100) {xs ys : List Char} :
    twoDigits m ++ xs < twoDigits n ++ ys ↔ m < n ∨ m = n ∧ xs < ys := by
  unfold twoDigits
  simp only [List.cons_append, List.nil_append, List.cons_lt_cons_iff]
  rw [digit_lt_iff (by omega) (by omega), digit_lt_iff (by omega) (by omega),
    digit_inj (by omega) (by omega), digit_inj (by omega) (by omega)]
  generalize (xs < ys) = rest
  have hsplit : m / 10 < n / 10 ∨ m / 10 = n / 10 ∧ m % 10 < n % 10 ↔ m < n := by omega
  have heq : m / 10 = n / 10 ∧ m % 10 = n % 10 ↔ m = n := by omega
  rw [← hsplit, ← heq]
  tauto

namespace CivilDate

/-- The characters of `YYYY-MM-DD`. -/
def chars (a : CivilDate) : List Char :=
  twoDigits (a.year / 100) ++ (twoDigits (a.year % 100) ++
    '-' :: (twoDigits a.month ++ '-' :: (twoDigits a.day ++ [])))

/-- The text `YYYY-MM-DD`. -/
def text (a : CivilDate) : String := String.ofList a.chars

theorem day_lt (a : CivilDate) : a.day < 100 := by
  have hday := a.day_le
  unfold daysInMonth at hday
  split at hday
  · split at hday <;> omega
  · split at hday <;> omega

theorem text_lt_iff (a b : CivilDate) : a.text < b.text ↔ a.Before b := by
  have hyear := a.year_lt
  have hyear' := b.year_lt
  have hmonth := a.month_le
  have hmonth' := b.month_le
  rw [String.lt_iff_toList_lt, text, text, String.toList_ofList, String.toList_ofList, chars, chars,
    twoDigits_append_lt (by omega) (by omega), twoDigits_append_lt (by omega) (by omega),
    List.cons_lt_cons_iff, twoDigits_append_lt (by omega) (by omega), List.cons_lt_cons_iff,
    twoDigits_append_lt a.day_lt b.day_lt, Before]
  have hsplit : a.year / 100 < b.year / 100 ∨ a.year / 100 = b.year / 100 ∧
      a.year % 100 < b.year % 100 ↔ a.year < b.year := by omega
  have heq : a.year / 100 = b.year / 100 ∧ a.year % 100 = b.year % 100 ↔ a.year = b.year := by
    omega
  rw [← hsplit, ← heq]
  tauto

theorem text_injective : Function.Injective text := by
  intro a b h
  rcases before_trichotomy a b with hab | hab | hba
  · exact absurd h ((text_lt_iff a b).mpr hab).ne
  · exact hab
  · exact absurd h ((text_lt_iff b a).mpr hba).ne'

end CivilDate
end Framework
