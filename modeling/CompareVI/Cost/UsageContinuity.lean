import CompareVI.Framework.CivilDate
import CompareVI.Framework.Comparison
import CompareVI.Framework.JsString
import Mathlib.Data.Rat.Floor

/-!
# The continuity of the usage exports

Each usage export covers a window of days. `decorateContinuity` sorts the receipts by the first
day of their windows, refuses two neighbours that overlap, and tells every receipt its
neighbours and the gaps to them. The dates are texts: they are sorted as texts and subtracted
as milliseconds.

Behind the sort, that each window ends before the next one begins (`Precedes`) is checked for
neighbours only. It passes on from one window to the next (`Precedes.trans`), so it holds for
all pairs, and on a sorted list it is the same as sharing no day
(`pairwise_precedes_iff`). The list that is returned (`decorated`) can then be read off
neighbour by neighbour (`isChain_decorated`). `continuityLaw` puts the two together.
-/

open Framework

namespace CompareVI.Cost

/-! ### Date partitions -/

/-- `/^\d{4}-\d{2}-\d{2}$/` on the trimmed value: the year, the month and the day. -/
def partitionFields (value : String) : Option (ℕ × ℕ × ℕ) :=
  match (JsString.trim value).toList with
  | [a, b, c, d, '-', e, f, '-', g, h] =>
    if [a, b, c, d, e, f, g, h].all Char.isDigit then
      some (JsString.digitsToNat [a, b, c, d], JsString.digitsToNat [e, f],
        JsString.digitsToNat [g, h])
    else none
  | _ => none

/-- `Date.parse` of midnight on a day of a month of a year. A day past the end of its month is
counted into the next month. -/
def midnight (year month day : ℕ) : Option ℤ :=
  if 1 ≤ month ∧ month ≤ 12 ∧ 1 ≤ day ∧ day ≤ 31 then
    some (((dayOf year month day : ℤ) - dayOf 1970 1 1) * 86400000)
  else none

def parseDatePartition (value : String) : Option ℤ :=
  (partitionFields value).bind fun fields => midnight fields.1 fields.2.1 fields.2.2

def mathRound (q : ℚ) : ℤ := ⌊q + 1 / 2⌋

def daysBetweenDates (leftDate rightDate : String) : Option ℤ :=
  (parseDatePartition leftDate).bind fun left =>
    (parseDatePartition rightDate).map fun right => mathRound (((right - left : ℤ) : ℚ) / 86400000)

/-! ### The receipts -/

/-- A usage-export receipt, with the properties that are read of it, and the rest of it. -/
structure UsageReceipt where
  startDate : String
  endDate : String
  sourcePathEvidence : Option String
  windowId : String
  rest : Json

/-- `continuity` of a receipt. -/
structure Continuity where
  windowIndex : ℕ
  windowCount : ℕ
  previousWindowId : Option String
  nextWindowId : Option String
  previousReportWindowEndDate : Option String
  nextReportWindowStartDate : Option String
  gapDaysFromPrevious : Option ℤ
  gapDaysToNext : Option ℤ
  isContiguousWithPrevious : Option Bool
  isContiguousWithNext : Option Bool
  isFirstWindow : Bool
  isLastWindow : Bool

/-- A receipt with its continuity. The index and the count stand in its provenance, too. -/
structure DecoratedReceipt where
  receipt : UsageReceipt
  continuity : Continuity

def receiptOrder (collation : Comparison String) : Comparison UsageReceipt :=
  (collation.comap UsageReceipt.startDate).thenBy
    (collation.comap fun r => JsString.trim (r.sourcePathEvidence.getD ""))

/-- `text || null`. -/
def textOrNull (text : String) : Option String := if text = "" then none else some text

def gapDays (left right : UsageReceipt) : ℤ :=
  max ((daysBetweenDates left.endDate right.startDate).getD 0 - 1) 0

def neighbourError (previous receipt : UsageReceipt) : Option String :=
  let receipts := previous.windowId ++ " and " ++ receipt.windowId
  match daysBetweenDates previous.endDate receipt.startDate with
  | none => some ("Usage export receipts " ++ receipts ++ " contain invalid dates.")
  | some dayDifference =>
    if dayDifference ≤ 0 then some ("Usage export receipts overlap between " ++ receipts ++ ".")
    else none

def continuityOf (windowCount index : ℕ) (previous : Option UsageReceipt)
    (receipt : UsageReceipt) (next : Option UsageReceipt) : Continuity :=
  let previousGapDays := previous.map fun p => gapDays p receipt
  let nextGapDays := next.map fun n => gapDays receipt n
  { windowIndex := index + 1
    windowCount := windowCount
    previousWindowId := previous.bind fun p => textOrNull p.windowId
    nextWindowId := next.bind fun n => textOrNull n.windowId
    previousReportWindowEndDate := previous.bind fun p => textOrNull p.endDate
    nextReportWindowStartDate := next.bind fun n => textOrNull n.startDate
    gapDaysFromPrevious := previousGapDays
    gapDaysToNext := nextGapDays
    isContiguousWithPrevious := previousGapDays.map fun gap => decide (gap = 0)
    isContiguousWithNext := nextGapDays.map fun gap => decide (gap = 0)
    isFirstWindow := index = 0
    isLastWindow := index + 1 = windowCount }

/-- `ordered.map` from an index on. -/
def decorateFrom (windowCount : ℕ) :
    ℕ → Option UsageReceipt → List UsageReceipt → Except String (List DecoratedReceipt)
  | _, _, [] => .ok []
  | index, previous, receipt :: rest =>
    match previous.bind fun p => neighbourError p receipt with
    | some message => .error message
    | none =>
      (decorateFrom windowCount (index + 1) (some receipt) rest).map fun later =>
        ⟨receipt, continuityOf windowCount index previous receipt rest.head?⟩ :: later

def decorateContinuity (collation : Comparison String) (receipts : List UsageReceipt) :
    Except String (List DecoratedReceipt) :=
  let ordered := (receiptOrder collation).sort receipts
  decorateFrom ordered.length 0 none ordered

/-! ### Dates as texts -/

variable {n : ℕ}

theorem isDigit_digit (h : n < 10) : (digit n).isDigit = true := by
  have hall : ∀ i : Fin 10, (digit i).isDigit = true := by decide
  exact hall ⟨n, h⟩

theorem toNat_digit (h : n < 10) : (digit n).toNat - '0'.toNat = n := by
  have hall : ∀ i : Fin 10, (digit i).toNat - '0'.toNat = i := by decide
  exact hall ⟨n, h⟩

theorem digitsToNat_twoDigits (h : n < 100) : JsString.digitsToNat (twoDigits n) = n := by
  unfold JsString.digitsToNat twoDigits
  simp only [List.foldl_cons, List.foldl_nil]
  rw [toNat_digit (by omega), toNat_digit (by omega)]
  omega

theorem digitsToNat_fourDigits {m : ℕ} (hm : m < 100) (hn : n < 100) :
    JsString.digitsToNat (twoDigits m ++ twoDigits n) = 100 * m + n := by
  unfold JsString.digitsToNat twoDigits
  simp only [List.cons_append, List.nil_append, List.foldl_cons, List.foldl_nil]
  rw [toNat_digit (by omega), toNat_digit (by omega), toNat_digit (by omega),
    toNat_digit (by omega)]
  omega

theorem isWhitespace_digit (h : n < 10) : JsString.isWhitespace (digit n) = false := by
  have hall : ∀ i : Fin 10, JsString.isWhitespace (digit i) = false := by decide
  exact hall ⟨n, h⟩

section Dates

variable (a b : CivilDate)

theorem year_div_lt : a.year / 100 < 100 := by
  have := a.year_lt
  omega

theorem trim_text : JsString.trim a.text = a.text := by
  have htrimmed : JsString.Trimmed a.chars := by
    have hfirst := year_div_lt a
    have hlast := a.day_lt
    constructor
    · intro c hc
      obtain rfl : digit (a.year / 100 / 10) = c := Option.some.inj hc
      exact isWhitespace_digit (by omega)
    · intro c hc
      obtain rfl : digit (a.day % 10) = c := Option.some.inj hc
      exact isWhitespace_digit (by omega)
  rw [JsString.trim, CivilDate.text, String.toList_ofList, JsString.trimList_of_trimmed htrimmed]

theorem partitionFields_text : partitionFields a.text = some (a.year, a.month, a.day) := by
  have hcentury := year_div_lt a
  have hmonth := a.month_le
  have hday := a.day_lt
  have hdigits : [digit (a.year / 100 / 10), digit (a.year / 100 % 10),
      digit (a.year % 100 / 10), digit (a.year % 100 % 10), digit (a.month / 10),
      digit (a.month % 10), digit (a.day / 10), digit (a.day % 10)].all Char.isDigit = true := by
    simp only [List.all_cons, List.all_nil, Bool.and_true, Bool.and_eq_true]
    refine ⟨?_, ?_, ?_, ?_, ?_, ?_, ?_, ?_⟩ <;> exact isDigit_digit (by omega)
  rw [partitionFields, trim_text, CivilDate.text, String.toList_ofList]
  refine (if_pos hdigits).trans ?_
  have hyear := digitsToNat_fourDigits hcentury (Nat.mod_lt a.year (by decide : 100 > 0))
  rw [Nat.div_add_mod] at hyear
  exact congrArg some (Prod.ext hyear (Prod.ext (digitsToNat_twoDigits (by omega))
    (digitsToNat_twoDigits hday)))

theorem parseDatePartition_text :
    parseDatePartition a.text = some (((a.dayNumber : ℤ) - dayOf 1970 1 1) * 86400000) := by
  have hday : a.day ≤ 31 := by
    have := a.day_le
    unfold daysInMonth at this
    split at this
    · split at this <;> omega
    · split at this <;> omega
  rw [parseDatePartition, partitionFields_text]
  exact if_pos ⟨a.month_pos, a.month_le, a.day_pos, hday⟩

theorem daysBetweenDates_text :
    daysBetweenDates a.text b.text = some ((b.dayNumber : ℤ) - a.dayNumber) := by
  rw [daysBetweenDates, parseDatePartition_text, parseDatePartition_text]
  refine congrArg some ?_
  dsimp only
  have hquotient : ((((b.dayNumber : ℤ) - dayOf 1970 1 1) * 86400000 -
      ((a.dayNumber : ℤ) - dayOf 1970 1 1) * 86400000 : ℤ) : ℚ) / 86400000 =
      (((b.dayNumber : ℤ) - a.dayNumber : ℤ) : ℚ) := by
    push_cast
    ring
  rw [hquotient, mathRound, Int.floor_intCast_add]
  norm_num

end Dates

/-! ### Windows -/

/-- The window of the receipt is made of dates, and does not end before it begins. -/
def HasWindow (r : UsageReceipt) : Prop :=
  ∃ s e : CivilDate, r.startDate = s.text ∧ r.endDate = e.text ∧ ¬ e.Before s

/-- The day lies in the window of the receipt. -/
def Covers (r : UsageReceipt) (d : CivilDate) : Prop :=
  ∃ s e : CivilDate, r.startDate = s.text ∧ r.endDate = e.text ∧ ¬ d.Before s ∧ ¬ e.Before d

/-- No day lies in both windows. -/
def Apart (q r : UsageReceipt) : Prop := ¬ ∃ d, Covers q d ∧ Covers r d

/-- Every day of the one window is before every day of the other one. -/
def Precedes (q r : UsageReceipt) : Prop := ∀ c d, Covers q c → Covers r d → c.Before d

def uncovered (q r : UsageReceipt) : Set CivilDate :=
  {d | (∀ c, Covers q c → c.Before d) ∧ ∀ c, Covers r c → d.Before c}

section Windows

variable {p q r : UsageReceipt} {s e d : CivilDate}

theorem covers_iff (hs : r.startDate = s.text) (he : r.endDate = e.text) :
    Covers r d ↔ ¬ d.Before s ∧ ¬ e.Before d := by
  constructor
  · rintro ⟨s', e', hs', he', hcovers⟩
    obtain rfl := CivilDate.text_injective (hs.symm.trans hs')
    obtain rfl := CivilDate.text_injective (he.symm.trans he')
    exact hcovers
  · exact fun h => ⟨s, e, hs, he, h⟩

theorem covers_ends (hs : r.startDate = s.text) (he : r.endDate = e.text) (hse : ¬ e.Before s) :
    Covers r s ∧ Covers r e := by
  simp only [covers_iff hs he, CivilDate.before_iff_dayNumber_lt] at hse ⊢
  omega

theorem precedes_iff {e' s' : CivilDate} (hs : q.startDate = s.text) (he : q.endDate = e.text)
    (hse : ¬ e.Before s) (hs' : r.startDate = s'.text) (he' : r.endDate = e'.text)
    (hse' : ¬ e'.Before s') : Precedes q r ↔ e.Before s' := by
  constructor
  · exact fun h => h e s' (covers_ends hs he hse).2 (covers_ends hs' he' hse').1
  · intro h c d hc hd
    rw [covers_iff hs he] at hc
    rw [covers_iff hs' he'] at hd
    simp only [CivilDate.before_iff_dayNumber_lt] at *
    omega

theorem Precedes.trans (h : Precedes p q) (h' : Precedes q r) (hq : HasWindow q) :
    Precedes p r := by
  obtain ⟨s, e, hs, he, hse⟩ := hq
  have hcovers := (covers_ends hs he hse).1
  intro c d hc hd
  have hfirst := h c s hc hcovers
  have hsecond := h' s d hcovers hd
  rw [CivilDate.before_iff_dayNumber_lt] at *
  exact hfirst.trans hsecond

theorem Precedes.apart (h : Precedes q r) : Apart q r := by
  rintro ⟨d, hq, hr⟩
  have hbefore := h d d hq hr
  rw [CivilDate.before_iff_dayNumber_lt] at hbefore
  exact Nat.lt_irrefl _ hbefore

theorem Apart.symm (h : Apart q r) : Apart r q := fun ⟨d, hr, hq⟩ => h ⟨d, hq, hr⟩

instance : Std.Symm Apart := ⟨fun _ _ => Apart.symm⟩

theorem neighbourError_eq_none_iff (hq : HasWindow q) (hr : HasWindow r) :
    neighbourError q r = none ↔ Precedes q r := by
  obtain ⟨s, e, hs, he, hse⟩ := hq
  obtain ⟨s', e', hs', he', hse'⟩ := hr
  rw [precedes_iff hs he hse hs' he' hse', CivilDate.before_iff_dayNumber_lt, neighbourError]
  rw [he, hs', daysBetweenDates_text]
  dsimp only
  split
  · next hle =>
    refine iff_of_false nofun ?_
    omega
  · next hlt =>
    refine iff_of_true rfl ?_
    omega

theorem gapDays_eq_ncard (hq : HasWindow q) (hr : HasWindow r) :
    gapDays q r = (uncovered q r).ncard := by
  obtain ⟨s, e, hs, he, hse⟩ := hq
  obtain ⟨s', e', hs', he', hse'⟩ := hr
  have hbetween : uncovered q r = CivilDate.between e s' := by
    ext d
    constructor
    · exact fun h => ⟨h.1 e (covers_ends hs he hse).2, h.2 s' (covers_ends hs' he' hse').1⟩
    · rintro ⟨hafter, hbefore⟩
      refine ⟨fun c hc => ?_, fun c hc => ?_⟩
      · rw [covers_iff hs he] at hc
        simp only [CivilDate.before_iff_dayNumber_lt] at *
        omega
      · rw [covers_iff hs' he'] at hc
        simp only [CivilDate.before_iff_dayNumber_lt] at *
        omega
  rw [hbetween, CivilDate.ncard_between, gapDays, he, hs', daysBetweenDates_text,
    Option.getD_some]
  omega

end Windows

/-! ### The sorted list -/

/-- On the texts of dates the collation is the order of the characters. -/
def CollatesDates (collation : Comparison String) : Prop :=
  ∀ a b : CivilDate, collation.le a.text b.text = decide (a.text ≤ b.text)

section Sorted

variable {collation : Comparison String} {receipts xs : List UsageReceipt} {q r : UsageReceipt}

theorem precedes_of_le (hcollation : CollatesDates collation) (hq : HasWindow q)
    (hr : HasWindow r) (hle : (receiptOrder collation).le q r = true) (h : Apart q r) :
    Precedes q r := by
  obtain ⟨s, e, hs, he, hse⟩ := hq
  obtain ⟨s', e', hs', he', hse'⟩ := hr
  have hstart : ¬ s'.Before s := by
    have hdates := ((Comparison.thenBy_le _ _).mp hle).1
    rw [Comparison.comap_le, hs, hs', hcollation, decide_eq_true_eq] at hdates
    rw [← CivilDate.text_lt_iff]
    exact not_lt.mpr hdates
  rw [precedes_iff hs he hse hs' he' hse']
  -- otherwise the begin of the second window lies in both
  by_contra hoverlap
  refine h ⟨s', (covers_iff hs he).mpr ⟨hstart, hoverlap⟩, (covers_ends hs' he' hse').1⟩

theorem pairwise_precedes_iff (hcollation : CollatesDates collation)
    (hwindows : ∀ r ∈ xs, HasWindow r)
    (hsorted : xs.Pairwise fun q r => (receiptOrder collation).le q r = true) :
    xs.Pairwise Precedes ↔ xs.Pairwise Apart := by
  refine ⟨fun h => h.imp Precedes.apart, fun h => ?_⟩
  refine (hsorted.and h).imp_of_mem fun hq hr hboth => ?_
  exact precedes_of_le hcollation (hwindows _ hq) (hwindows _ hr) hboth.1 hboth.2

theorem isChain_precedes_iff (hwindows : ∀ r ∈ xs, HasWindow r) :
    xs.IsChain Precedes ↔ xs.Pairwise Precedes := by
  refine ⟨fun h => ?_, fun h => h.isChain⟩
  let R : UsageReceipt → UsageReceipt → Prop := fun q r => HasWindow q ∧ HasWindow r ∧ Precedes q r
  have htrans : Trans R R R := ⟨fun hpq hqr => ⟨hpq.1, hqr.2.1, hpq.2.2.trans hqr.2.2 hqr.1⟩⟩
  have hchain : xs.IsChain R :=
    h.imp_of_mem_imp fun q r hq hr hqr => ⟨hwindows q hq, hwindows r hr, hqr⟩
  exact hchain.pairwise.imp fun h => h.2.2

end Sorted

/-! ### The list that is returned -/

def decorated (windowCount : ℕ) :
    ℕ → Option UsageReceipt → List UsageReceipt → List DecoratedReceipt
  | _, _, [] => []
  | index, previous, receipt :: rest =>
    ⟨receipt, continuityOf windowCount index previous receipt rest.head?⟩ ::
      decorated windowCount (index + 1) (some receipt) rest

/-- What two neighbours of the list say of each other. -/
structure Linked (x y : DecoratedReceipt) : Prop where
  index : y.continuity.windowIndex = x.continuity.windowIndex + 1
  nextWindowId : x.continuity.nextWindowId = textOrNull y.receipt.windowId
  previousWindowId : y.continuity.previousWindowId = textOrNull x.receipt.windowId
  nextStart : x.continuity.nextReportWindowStartDate = textOrNull y.receipt.startDate
  previousEnd : y.continuity.previousReportWindowEndDate = textOrNull x.receipt.endDate
  gapDaysToNext : x.continuity.gapDaysToNext = some ((uncovered x.receipt y.receipt).ncard : ℤ)
  gapDaysFromPrevious : y.continuity.gapDaysFromPrevious = x.continuity.gapDaysToNext
  contiguous : y.continuity.isContiguousWithPrevious = x.continuity.isContiguousWithNext

/-- The receipt has nothing before it. -/
def IsFirst (c : Continuity) : Prop :=
  c.windowIndex = 1 ∧ c.isFirstWindow = true ∧ c.previousWindowId = none ∧
    c.previousReportWindowEndDate = none ∧ c.gapDaysFromPrevious = none ∧
    c.isContiguousWithPrevious = none

/-- The receipt has nothing behind it. -/
def IsLast (c : Continuity) : Prop :=
  c.windowIndex = c.windowCount ∧ c.isLastWindow = true ∧ c.nextWindowId = none ∧
    c.nextReportWindowStartDate = none ∧ c.gapDaysToNext = none ∧ c.isContiguousWithNext = none

section Decorated

variable {windowCount index : ℕ} {previous : Option UsageReceipt} {xs : List UsageReceipt}

@[simp] theorem map_receipt_decorated :
    (decorated windowCount index previous xs).map (·.receipt) = xs := by
  induction xs generalizing index previous with
  | nil => rfl
  | cons r rest ih => rw [decorated, List.map_cons, ih]

theorem decorateFrom_eq_ok_iff {out : List DecoratedReceipt} :
    decorateFrom windowCount index previous xs = .ok out ↔
      (∀ p ∈ previous, ∀ r ∈ xs.head?, neighbourError p r = none) ∧
        xs.IsChain (fun q r => neighbourError q r = none) ∧
        out = decorated windowCount index previous xs := by
  induction xs generalizing index previous out with
  | nil =>
    rw [decorateFrom, decorated, Except.ok.injEq]
    constructor
    · exact fun h => ⟨(fun _ _ _ hr => nomatch hr), List.isChain_nil, h.symm⟩
    · exact fun h => h.2.2.symm
  | cons r rest ih =>
    have hprevious : (∀ p ∈ previous, ∀ r' ∈ (r :: rest).head?, neighbourError p r' = none) ↔
        (previous.bind fun p => neighbourError p r) = none := by
      rw [Option.bind_eq_none_iff]
      exact ⟨fun h p hp => h p hp r rfl, fun h p hp r' hr' => Option.some.inj hr' ▸ h p hp⟩
    rw [hprevious, decorateFrom, decorated, List.isChain_cons]
    cases previous.bind fun p => neighbourError p r with
    | some message => simp
    | none =>
      constructor
      · intro h
        cases hrest : decorateFrom windowCount (index + 1) (some r) rest with
        | error message =>
          rw [hrest] at h
          exact nomatch h
        | ok later =>
          rw [hrest] at h
          obtain ⟨hhead, hchain, rfl⟩ := ih.mp hrest
          refine ⟨rfl, ⟨fun y hy => hhead r rfl y hy, hchain⟩, (Except.ok.inj h).symm⟩
      · rintro ⟨-, ⟨hhead, hchain⟩, rfl⟩
        have hrest := (@ih (index + 1) (some r) _).mpr
          ⟨fun p hp y hy => Option.some.inj hp ▸ hhead y hy, hchain, rfl⟩
        rw [hrest]
        rfl

theorem linked_continuityOf {q r : UsageReceipt} {next : Option UsageReceipt} (hq : HasWindow q)
    (hr : HasWindow r) :
    Linked ⟨q, continuityOf windowCount index previous q (some r)⟩
      ⟨r, continuityOf windowCount (index + 1) (some q) r next⟩ where
  index := rfl
  nextWindowId := rfl
  previousWindowId := rfl
  nextStart := rfl
  previousEnd := rfl
  gapDaysToNext := by
    rw [← gapDays_eq_ncard hq hr]
    simp only [continuityOf, Option.map_some]
  gapDaysFromPrevious := by simp only [continuityOf, Option.map_some]
  contiguous := by simp only [continuityOf, Option.map_some]

theorem isChain_decorated (hwindows : ∀ r ∈ xs, HasWindow r) :
    (decorated windowCount index previous xs).IsChain Linked := by
  induction xs generalizing index previous with
  | nil => exact List.isChain_nil
  | cons q rest ih =>
    have hrest := @ih (index + 1) (some q) fun r hr => hwindows r (List.mem_cons_of_mem _ hr)
    cases rest with
    | nil => exact List.isChain_singleton _
    | cons r rest =>
      refine List.isChain_cons_cons.mpr ⟨linked_continuityOf ?_ ?_, hrest⟩
      · exact hwindows q List.mem_cons_self
      · exact hwindows r (List.mem_cons_of_mem _ List.mem_cons_self)

theorem isFirst_decorated :
    ∀ x ∈ (decorated windowCount 0 none xs).head?, IsFirst x.continuity := by
  intro x hx
  cases xs with
  | nil => exact nomatch hx
  | cons r rest =>
    obtain rfl := Option.some.inj hx
    exact ⟨rfl, rfl, rfl, rfl, rfl, rfl⟩

theorem isLast_decorated (hcount : windowCount = index + xs.length) :
    ∀ x ∈ (decorated windowCount index previous xs).getLast?, IsLast x.continuity := by
  induction xs generalizing index previous with
  | nil => exact fun x hx => nomatch hx
  | cons r rest ih =>
    intro x hx
    cases rest with
    | nil =>
      obtain rfl := Option.some.inj hx
      exact ⟨hcount.symm, decide_eq_true hcount.symm, rfl, rfl, rfl, rfl⟩
    | cons r' rest =>
      rw [decorated, decorated, List.getLast?_cons_cons, ← decorated] at hx
      exact ih (by rw [hcount, List.length_cons, List.length_cons]; omega) x hx

end Decorated

/-! ### The law -/

/-- The returned list is the receipts in the order of their windows, with consistent links. -/
structure IsContinuity (receipts : List UsageReceipt) (out : List DecoratedReceipt) : Prop where
  perm : (out.map (·.receipt)).Perm receipts
  /-- Each window ends before every later one begins. -/
  increasing : (out.map (·.receipt)).Pairwise Precedes
  /-- Neighbours name each other and agree on the uncovered days between them. -/
  linked : out.IsChain Linked
  first : ∀ x ∈ out.head?, IsFirst x.continuity
  last : ∀ x ∈ out.getLast?, IsLast x.continuity

/-- What `decorateContinuity` promises of a list of receipts. -/
structure ContinuityLaw (collation : Comparison String) (receipts : List UsageReceipt) : Prop where
  /-- It throws exactly when two of the windows share a day. -/
  throws : (∃ message, decorateContinuity collation receipts = .error message) ↔
    ¬ receipts.Pairwise Apart
  /-- What it returns is in order, and the same for every order of the receipts. -/
  returns : ∀ out, decorateContinuity collation receipts = .ok out →
    IsContinuity receipts out ∧
      ∀ receipts' : List UsageReceipt, receipts'.Perm receipts →
        decorateContinuity collation receipts' = .ok out

section Law

variable {collation : Comparison String} {receipts : List UsageReceipt}

/-- The loop over the sorted receipts finds nothing wrong exactly if no two windows share a
day. -/
theorem decorateContinuity_eq_ok_iff (hcollation : CollatesDates collation)
    (hwindows : ∀ r ∈ receipts, HasWindow r) {out : List DecoratedReceipt} :
    decorateContinuity collation receipts = .ok out ↔
      receipts.Pairwise Apart ∧
        out = decorated receipts.length 0 none ((receiptOrder collation).sort receipts) := by
  let c := receiptOrder collation
  have hperm := c.sort_perm receipts
  have hwindows' : ∀ r ∈ c.sort receipts, HasWindow r := fun r hr =>
    hwindows r (c.mem_sort.mp hr)
  have hchain : (c.sort receipts).IsChain (fun q r => neighbourError q r = none) ↔
      (c.sort receipts).IsChain Precedes :=
    List.IsChain.iff_of_mem_imp fun q r hq hr =>
      neighbourError_eq_none_iff (hwindows' q hq) (hwindows' r hr)
  have hpairwise : (c.sort receipts).IsChain Precedes ↔ receipts.Pairwise Apart := by
    rw [isChain_precedes_iff hwindows',
      pairwise_precedes_iff hcollation hwindows' (c.sort_pairwise receipts)]
    exact hperm.pairwise_iff fun h => h.symm
  have hlength : (c.sort receipts).length = receipts.length := hperm.length_eq
  rw [decorateContinuity, decorateFrom_eq_ok_iff, hchain, hpairwise, hlength]
  exact ⟨fun h => h.2, fun h => ⟨(fun p hp => nomatch hp), h⟩⟩

theorem eq_of_ties (hcollation : CollatesDates collation)
    (hwindows : ∀ r ∈ receipts, HasWindow r) (hapart : receipts.Pairwise Apart)
    {q r : UsageReceipt} (hq : q ∈ receipts) (hr : r ∈ receipts)
    (hties : (receiptOrder collation).Ties q r) : q = r := by
  by_contra hne
  have hqr : Apart q r := hapart.forall hq hr hne
  have hprecedes := precedes_of_le hcollation (hwindows q hq) (hwindows r hr) hties.1 hqr
  have hprecedes' := precedes_of_le hcollation (hwindows r hr) (hwindows q hq) hties.2 hqr.symm
  have hself : Precedes q q := hprecedes.trans hprecedes' (hwindows r hr)
  obtain ⟨s, e, hs, he, hse⟩ := hwindows q hq
  have hcovers := (covers_ends hs he hse).1
  exact hself.apart ⟨s, hcovers, hcovers⟩

/-- **The continuity of the usage exports.** For receipts whose windows are made of dates, in
any order, `decorateContinuity` keeps to the law. -/
theorem continuityLaw (collation : Comparison String) (hcollation : CollatesDates collation)
    (receipts : List UsageReceipt) (hwindows : ∀ r ∈ receipts, HasWindow r) :
    ContinuityLaw collation receipts := by
  constructor
  · constructor
    · rintro ⟨message, hmessage⟩ hapart
      have hok := (decorateContinuity_eq_ok_iff hcollation hwindows).mpr ⟨hapart, rfl⟩
      rw [hmessage] at hok
      exact nomatch hok
    · intro hshared
      cases hresult : decorateContinuity collation receipts with
      | error message => exact ⟨message, rfl⟩
      | ok out =>
        have hok := (decorateContinuity_eq_ok_iff hcollation hwindows).mp hresult
        exact absurd hok.1 hshared
  · intro out hout
    obtain ⟨hapart, rfl⟩ := (decorateContinuity_eq_ok_iff hcollation hwindows).mp hout
    let c := receiptOrder collation
    have hperm := c.sort_perm receipts
    have hwindows' : ∀ r ∈ c.sort receipts, HasWindow r := fun r hr =>
      hwindows r (c.mem_sort.mp hr)
    refine ⟨⟨?_, ?_, isChain_decorated hwindows', ?_, ?_⟩, fun receipts' hperm' => ?_⟩
    · rw [map_receipt_decorated]
      exact hperm
    · rw [map_receipt_decorated,
        pairwise_precedes_iff hcollation hwindows' (c.sort_pairwise receipts)]
      exact (hperm.pairwise_iff fun h => h.symm).mpr hapart
    · exact isFirst_decorated
    · exact isLast_decorated (by rw [hperm.length_eq, Nat.zero_add])
    · have hsort : c.sort receipts' = c.sort receipts :=
        (c.sort_eq_of_perm (fun q hq r hr => eq_of_ties hcollation hwindows hapart hq hr)
          hperm'.symm).symm
      rw [decorateContinuity, ← hout, decorateContinuity]
      exact congrArg (fun ordered : List UsageReceipt =>
        decorateFrom ordered.length 0 none ordered) hsort

end Law

def receiptOf (s e : CivilDate) : UsageReceipt where
  startDate := s.text
  endDate := e.text
  sourcePathEvidence := none
  windowId := s.text ++ ".." ++ e.text
  rest := .null

def earlyDate (month day : ℕ) (hmonth : 1 ≤ month ∧ month ≤ 12) (hday : 1 ≤ day ∧ day ≤ 28) :
    CivilDate where
  year := 2026
  month := month
  day := day
  year_lt := by decide
  month_pos := hmonth.1
  month_le := hmonth.2
  day_pos := hday.1
  day_le := by
    refine hday.2.trans ?_
    unfold daysInMonth
    split
    · split <;> decide
    · split <;> decide

/-- The export of February and the one of the first days of January, in this order. -/
def twoExports : List UsageReceipt :=
  [receiptOf (earlyDate 2 1 (by decide) (by decide)) (earlyDate 2 28 (by decide) (by decide)),
    receiptOf (earlyDate 1 1 (by decide) (by decide)) (earlyDate 1 9 (by decide) (by decide))]

/-- The two exports keep to the law. -/
theorem continuityLaw_twoExports :
    ContinuityLaw (Comparison.ofKey fun text : String => text) twoExports := by
  refine continuityLaw _ (fun a b => rfl) twoExports fun r hr => ?_
  rcases List.mem_cons.mp hr with rfl | hr
  · exact ⟨_, _, rfl, rfl, by decide⟩
  · obtain rfl := List.mem_singleton.mp hr
    exact ⟨_, _, rfl, rfl, by decide⟩

end CompareVI.Cost
