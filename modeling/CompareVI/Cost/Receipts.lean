import CompareVI.Framework.Comparison
import CompareVI.Framework.JsString

/-!
# The receipts of the agent cost rollup

The rollup reads turn reports, what one turn of an agent cost, and invoice turns, the funding
windows that the credits were bought in. A receipt that cannot be used gives blockers instead
(`normalizeInvoiceTurnReceipt`).

Reading a date, printing one, and the collation of texts are parameters (`CostEnv`).
-/

open Framework

namespace CompareVI.Cost

/-! ### Texts and numbers -/

structure CostEnv where
  /-- `Date.parse`, in milliseconds, where it gives a number. -/
  dateParse : String → Option ℤ
  /-- `new Date(timestamp).toISOString()`. -/
  isoString : ℤ → String
  /-- `Date.now()`. -/
  now : ℤ
  /-- `localeCompare`. -/
  collation : Comparison String
  /-- `path.relative` to the working directory. -/
  safeRelative : String → String

def normalizeText (value : Option Json) : String := JsString.trim (Json.stringOrEmpty value)

def digits? (ds : List Char) : Option ℕ :=
  if ds ≠ [] ∧ ds.all Char.isDigit = true then some (JsString.digitsToNat ds) else none

/-- A number after its sign, without an exponent: digits, with a point before, after or among
them. -/
def unsignedDecimal? (cs : List Char) : Option ℚ :=
  let whole := cs.takeWhile (· ≠ '.')
  match cs.drop whole.length with
  | [] => (digits? whole).map fun n => (n : ℚ)
  | _ :: fraction =>
    if (whole ++ fraction).all Char.isDigit = true ∧ whole ++ fraction ≠ [] then
      some ((JsString.digitsToNat (whole ++ fraction) : ℚ) / 10 ^ fraction.length)
    else none

def signOf : List Char → ℤ × List Char
  | '-' :: cs => (-1, cs)
  | '+' :: cs => (1, cs)
  | cs => (1, cs)

/-- `Number(text)` on decimal texts. -/
def decimal? (text : String) : Option ℚ :=
  let cs := (JsString.trim text).toList
  if cs = [] then some 0
  else
    let (sign, unsigned) := signOf cs
    let mantissa := unsigned.takeWhile fun c => c ≠ 'e' ∧ c ≠ 'E'
    match unsigned.drop mantissa.length with
    | [] => (unsignedDecimal? mantissa).map fun q => sign * q
    | _ :: exponent => do
      let q ← unsignedDecimal? mantissa
      let n ← digits? (signOf exponent).2
      return sign * q * (10 : ℚ) ^ ((signOf exponent).1 * n)

/-- `Number(value)`, where it is finite. -/
def toNumber? : Json → Option ℚ
  | .null => some 0
  | .bool b => some (if b then 1 else 0)
  | .num q => some q
  | .str s => decimal? s
  | .arr xs => decimal? (Json.toJsString (.arr xs))
  | .obj _ => none

def normalizeSelectionMode (value : Option Json) : Option String :=
  let normalized := JsString.toLowerCase (normalizeText value)
  if normalized ∈ ["hold", "sticky-calibration", "ended"] then some normalized else none

def normalizeDateTime (env : CostEnv) (value : Option String) : Option String :=
  (optionText value).filter fun normalized => (env.dateParse normalized).isSome

def toTimestamp (env : CostEnv) (value : Option String) : Option ℤ :=
  (normalizeDateTime env value).bind env.dateParse

/-! ### Turns -/

/-- `exact` or `estimated`. -/
inductive Exactness where
  | exact
  | estimated
  deriving DecidableEq

/-- A turn report that can be used. No amount is negative. -/
structure Turn where
  generatedAt : Option String
  /-- `provenance.usageObservedAt`. -/
  usageObservedAt : Option String
  repository : Option String
  issueNumber : Option ℕ
  laneId : Option String
  agentRole : Option String
  providerId : String
  effectiveModel : String
  effectiveReasoningEffort : Option String
  elapsedSeconds : Option ℚ
  operatorLaborUsd : Option ℚ
  operatorIntervened : Bool
  usageUnitCount : Option ℚ
  inputTokens : ℕ
  cachedInputTokens : ℕ
  outputTokens : ℕ
  totalTokens : ℕ
  exactness : Exactness
  amountUsd : ℚ
  elapsedSeconds_nonneg : ∀ q ∈ elapsedSeconds, 0 ≤ q
  operatorLaborUsd_nonneg : ∀ q ∈ operatorLaborUsd, 0 ≤ q
  usageUnitCount_nonneg : ∀ q ∈ usageUnitCount, 0 ≤ q
  amountUsd_nonneg : 0 ≤ amountUsd

/-! ### Invoice turns -/

structure InvoiceSelection where
  mode : String
  calibrationWindowId : Option String
  reason : Option String

structure InvoiceTurn where
  sourcePath : String
  invoiceTurnId : Option String
  invoiceId : Option String
  openedAt : Option String
  closedAt : Option String
  creditsPurchased : ℚ
  unitPriceUsd : ℚ
  prepaidUsd : ℚ
  pricingBasis : Option String
  activationState : String
  fundingPurpose : String
  reconciliationStatus : String
  actualUsdConsumed : Option ℚ
  actualCreditsConsumed : Option ℚ
  reconciledAt : Option String
  reconciliationSourceKind : Option String
  reconciliationNote : Option String
  sourceKind : Option String
  sourcePathEvidence : Option String
  operatorNote : Option String
  selection : InvoiceSelection

structure Blocker where
  code : String
  message : String
  inputPath : String

inductive InvoiceReceipt where
  | missing
  | invalid (blockers : List Blocker)
  | valid (invoiceTurn : InvoiceTurn)

def InvoiceReceipt.invoiceTurn? : InvoiceReceipt → Option InvoiceTurn
  | .valid invoiceTurn => some invoiceTurn
  | _ => none

end CompareVI.Cost
