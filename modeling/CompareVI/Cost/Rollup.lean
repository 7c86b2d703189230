import CompareVI.Cost.Selection
import CompareVI.Framework.Tally

/-!
# The rollup of the agent cost

`runAgentCostRollup` adds up the turns of a session. The metrics are sums over all turns,
rounded once at the end. The breakdowns are tallies by provider, model and so on, rounded
after every addition.
-/

open Framework

namespace CompareVI.Cost

/-! ### Adding up -/

def roundUsd (q : ℚ) : ℚ := if q < 0 then -toFixed 6 (-q) else toFixed 6 q

def sum (values : List ℚ) : ℚ := roundUsd values.sum

def normalizeKey (key : Option String) : String := (optionText key).getD "unknown"

def incrementCount (map : List (String × ℕ)) (key : Option String) : List (String × ℕ) :=
  put (normalizeKey key) (valueOf 0 map (normalizeKey key) + 1) map

def addUsd (map : List (String × ℚ)) (key : Option String) (amountUsd : ℚ) : List (String × ℚ) :=
  put (normalizeKey key) (roundUsd (valueOf 0 map (normalizeKey key) + amountUsd)) map

def addNullableUsd (map : List (String × ℚ)) (key : Option String) :
    Option ℚ → List (String × ℚ)
  | none => map
  | some amountUsd => addUsd map key amountUsd

def incrementNullableCount (map : List (String × ℕ)) (key : Option String) (count : ℕ) :
    List (String × ℕ) :=
  put (normalizeKey key) (valueOf 0 map (normalizeKey key) + count) map

/-! ### Breakdowns -/

inductive Dimension where
  | provider
  | model
  | reasoningEffort
  | issue
  | lane
  | agentRole
  | repository
  | steering

def Dimension.keyOf (turn : Turn) : Dimension → Option String
  | .provider => some turn.providerId
  | .model => some turn.effectiveModel
  | .reasoningEffort =>
    some (orText (turn.effectiveReasoningEffort.getD "") "unspecified")
  | .issue => some ((turn.issueNumber.map toString).getD "unknown")
  | .lane => turn.laneId
  | .agentRole => turn.agentRole
  | .repository => turn.repository
  | .steering => some (if turn.operatorIntervened then "steered" else "unsteered")

structure BreakdownMaps where
  count : List (String × ℕ)
  usd : List (String × ℚ)
  operatorLaborUsd : List (String × ℚ)
  operatorLaborMissingTurnCount : List (String × ℕ)

def BreakdownMaps.empty : BreakdownMaps := ⟨[], [], [], []⟩

/-- One turn of the loop of `runAgentCostRollup`, for one breakdown. -/
def postTurn (dimension : Dimension) (maps : BreakdownMaps) (turn : Turn) : BreakdownMaps where
  count := incrementCount maps.count (dimension.keyOf turn)
  usd := addUsd maps.usd (dimension.keyOf turn) turn.amountUsd
  operatorLaborUsd :=
    addNullableUsd maps.operatorLaborUsd (dimension.keyOf turn) turn.operatorLaborUsd
  operatorLaborMissingTurnCount :=
    incrementNullableCount maps.operatorLaborMissingTurnCount (dimension.keyOf turn)
      (if turn.operatorLaborUsd.isNone then 1 else 0)

structure BreakdownRow where
  key : String
  turnCount : ℕ
  totalUsd : ℚ
  operatorLaborUsd : ℚ
  operatorLaborMissingTurnCount : ℕ
  blendedTotalUsd : Option ℚ

def breakdownRow (maps : BreakdownMaps) (entry : String × ℕ) : BreakdownRow :=
  let totalUsd := valueOf 0 maps.usd entry.1
  let operatorLaborUsd := valueOf 0 maps.operatorLaborUsd entry.1
  let missing := valueOf 0 maps.operatorLaborMissingTurnCount entry.1
  { key := entry.1
    turnCount := entry.2
    totalUsd := totalUsd
    operatorLaborUsd := operatorLaborUsd
    operatorLaborMissingTurnCount := missing
    blendedTotalUsd := if missing = 0 then some (roundUsd (totalUsd + operatorLaborUsd)) else none }

def materializeBreakdown (env : CostEnv) (maps : BreakdownMaps) : List BreakdownRow :=
  ((env.collation.comap Prod.fst).sort maps.count).map (breakdownRow maps)

def breakdown (env : CostEnv) (turns : List Turn) (dimension : Dimension) : List BreakdownRow :=
  materializeBreakdown env (turns.foldl (postTurn dimension) .empty)

/-! ### Metrics -/

structure UsageExport where
  usageCredits : ℚ
  usageQuantity : ℚ

structure OperatorSteeringEvent where
  invoiceTurnId : Option String
  issueNumber : Option ℕ

structure AccountBalance where
  totalCredits : ℚ
  usedCredits : ℚ
  remainingCredits : ℚ

structure RollupInputs where
  receipts : List InvoiceReceipt
  explicitInvoiceTurnId : Option String
  usageExports : List UsageExport
  operatorSteeringEvents : List OperatorSteeringEvent
  accountBalance : Option AccountBalance

/-- `summary.metrics`. -/
structure RollupMetrics where
  totalTurns : ℕ
  exactTurnCount : ℕ
  estimatedTurnCount : ℕ
  totalUsd : ℚ
  exactUsd : ℚ
  estimatedUsd : ℚ
  operatorLaborSeconds : ℚ
  operatorLaborUsd : ℚ
  operatorLaborMissingTurnCount : ℕ
  blendedTotalUsd : Option ℚ
  totalInputTokens : ℕ
  totalCachedInputTokens : ℕ
  totalOutputTokens : ℕ
  totalTokens : ℕ
  totalUsageUnits : ℚ
  steeredTurnCount : ℕ
  unsteeredTurnCount : ℕ
  steeredUsd : ℚ
  unsteeredUsd : ℚ
  estimatedCreditsConsumed : Option ℚ
  creditsRemaining : Option ℚ
  estimatedPrepaidUsdRemaining : Option ℚ
  prepaidUsdConsumedRatio : Option ℚ
  actualUsdConsumed : Option ℚ
  actualCreditsConsumed : Option ℚ
  heuristicUsdDelta : Option ℚ
  heuristicUsdDeltaRatio : Option ℚ
  heuristicCreditsDelta : Option ℚ
  usageExportWindowCount : ℕ
  usageExportCreditsReported : ℚ
  usageExportQuantityReported : ℚ
  operatorSteeringEventCount : ℕ
  operatorSteeringFundingWindowMatchedCount : ℕ
  operatorSteeringFundingWindowUnmatchedCount : ℕ
  operatorSteeringIssueCount : ℕ
  accountBalanceTotalCredits : Option ℚ
  accountBalanceUsedCredits : Option ℚ
  accountBalanceRemainingCredits : Option ℚ

def exactTurns (turns : List Turn) : List Turn := turns.filter (·.exactness = .exact)

def estimatedTurns (turns : List Turn) : List Turn := turns.filter (·.exactness = .estimated)

def steeredTurns (turns : List Turn) : List Turn := turns.filter (·.operatorIntervened)

def unsteeredTurns (turns : List Turn) : List Turn := turns.filter (!·.operatorIntervened)

def amounts (turns : List Turn) : List ℚ := turns.map (·.amountUsd)

def matchedEvents (events : List OperatorSteeringEvent) (invoiceTurn : Option InvoiceTurn) :
    List OperatorSteeringEvent :=
  match invoiceTurn with
  | none => []
  | some t => events.filter fun event =>
      optionText event.invoiceTurnId = optionText t.invoiceTurnId

def unmatchedEvents (events : List OperatorSteeringEvent) (invoiceTurn : Option InvoiceTurn) :
    List OperatorSteeringEvent :=
  events.filter fun event => (optionText event.invoiceTurnId).isNone ||
    optionText event.invoiceTurnId ≠ optionText (invoiceTurn.bind (·.invoiceTurnId))

def quotient (a b : ℚ) : Option ℚ := if 0 < b then some (roundUsd (a / b)) else none

/-- `summary.metrics` of `runAgentCostRollup`. -/
def rollupMetrics (env : CostEnv) (inputs : RollupInputs) (turns : List Turn) : RollupMetrics :=
  let invoiceTurn := (selectInvoiceTurn env inputs.receipts turns
    inputs.explicitInvoiceTurnId).selectedInvoiceTurn
  let totalUsd := sum (amounts turns)
  let operatorLaborUsd := sum (turns.map fun turn => turn.operatorLaborUsd.getD 0)
  let missing := (turns.filter (·.operatorLaborUsd.isNone)).length
  let estimatedCreditsConsumed := invoiceTurn.bind fun t => quotient totalUsd t.unitPriceUsd
  let actualUsdConsumed := invoiceTurn.bind (·.actualUsdConsumed)
  let actualCreditsConsumed := invoiceTurn.bind (·.actualCreditsConsumed)
  { totalTurns := turns.length
    exactTurnCount := (exactTurns turns).length
    estimatedTurnCount := (estimatedTurns turns).length
    totalUsd := totalUsd
    exactUsd := sum (amounts (exactTurns turns))
    estimatedUsd := sum (amounts (estimatedTurns turns))
    operatorLaborSeconds := roundUsd (turns.map fun turn => turn.elapsedSeconds.getD 0).sum
    operatorLaborUsd := operatorLaborUsd
    operatorLaborMissingTurnCount := missing
    blendedTotalUsd := if missing = 0 then some (roundUsd (totalUsd + operatorLaborUsd)) else none
    totalInputTokens := (turns.map (·.inputTokens)).sum
    totalCachedInputTokens := (turns.map (·.cachedInputTokens)).sum
    totalOutputTokens := (turns.map (·.outputTokens)).sum
    totalTokens := (turns.map (·.totalTokens)).sum
    totalUsageUnits := roundUsd (turns.map fun turn => turn.usageUnitCount.getD 0).sum
    steeredTurnCount := (steeredTurns turns).length
    unsteeredTurnCount := (unsteeredTurns turns).length
    steeredUsd := sum (amounts (steeredTurns turns))
    unsteeredUsd := sum (amounts (unsteeredTurns turns))
    estimatedCreditsConsumed := estimatedCreditsConsumed
    creditsRemaining := invoiceTurn.bind fun t => estimatedCreditsConsumed.map fun consumed =>
      roundUsd (max (t.creditsPurchased - consumed) 0)
    estimatedPrepaidUsdRemaining := invoiceTurn.map fun t =>
      roundUsd (max (t.prepaidUsd - totalUsd) 0)
    prepaidUsdConsumedRatio := invoiceTurn.bind fun t => quotient totalUsd t.prepaidUsd
    actualUsdConsumed := actualUsdConsumed
    actualCreditsConsumed := actualCreditsConsumed
    heuristicUsdDelta := actualUsdConsumed.map fun actual => roundUsd (totalUsd - actual)
    heuristicUsdDeltaRatio := actualUsdConsumed.bind fun actual =>
      quotient (totalUsd - actual) actual
    heuristicCreditsDelta := actualCreditsConsumed.bind fun actual =>
      estimatedCreditsConsumed.map fun consumed => roundUsd (consumed - actual)
    usageExportWindowCount := inputs.usageExports.length
    usageExportCreditsReported := sum (inputs.usageExports.map (·.usageCredits))
    usageExportQuantityReported := sum (inputs.usageExports.map (·.usageQuantity))
    operatorSteeringEventCount := inputs.operatorSteeringEvents.length
    operatorSteeringFundingWindowMatchedCount :=
      (matchedEvents inputs.operatorSteeringEvents invoiceTurn).length
    operatorSteeringFundingWindowUnmatchedCount :=
      (unmatchedEvents inputs.operatorSteeringEvents invoiceTurn).length
    operatorSteeringIssueCount :=
      (inputs.operatorSteeringEvents.filterMap (·.issueNumber)).eraseDups.length
    accountBalanceTotalCredits := inputs.accountBalance.map (·.totalCredits)
    accountBalanceUsedCredits := inputs.accountBalance.map (·.usedCredits)
    accountBalanceRemainingCredits := inputs.accountBalance.map (·.remainingCredits) }

/-- What `runAgentCostRollup` reports of the cost. -/
structure Rollup where
  metrics : RollupMetrics
  breakdown : Dimension → List BreakdownRow

/-- `runAgentCostRollup`, from the receipts on. -/
def runAgentCostRollup (env : CostEnv) (inputs : RollupInputs) (turns : List Turn) : Rollup :=
  ⟨rollupMetrics env inputs turns, breakdown env turns⟩

end CompareVI.Cost
