import CompareVI.Framework.Comparison
import CompareVI.Framework.JsString
import CompareVI.Framework.Tally

/-!
# The local collaboration KPI rollup

`rollupLocalCollaborationKpi` goes over the receipts of the local review ledger. It posts each
receipt to the plane of its fork and to the combined plane, and then an event for each of its
providers to the accumulator of the provider and to the planes again (`rollupReceipt`,
`addProviderEvent`).

The duration and the findings of a receipt are split among its providers (`allocateEvenly`), and
the rest of it goes to every one of them.
-/

open Framework

namespace CompareVI.LocalCollab

/-! ### Receipts -/

structure LedgerReceipt where
  schema : String
  receiptId : String
  phase : String
  forkPlane : String
  persona : String
  executionPlane : String
  providerRuntime : Option String
  headSha : String
  baseSha : String
  providerId : String
  providers : List String
  requestedModel : Option String
  effectiveModel : Option String
  inputTokens : ℤ
  cachedInputTokens : ℤ
  outputTokens : ℤ
  startedAt : Option String
  finishedAt : Option String
  durationMs : ℤ
  findingCount : ℤ
  status : String
  outcome : String
  selectionSource : Option String
  sourceReceiptIds : List String
  deriving DecidableEq

/-- `normalizeText(value) || fallback`. -/
def textOr (value : Option Json) (fallback : String) : String :=
  (Json.optionText value).getD fallback

/-! ### Metrics -/

abbrev Counts : Type := List (String × ℕ)

def bumpCount (counts : Counts) (key : String) : Counts :=
  let normalizedKey := (optionalTrim key).getD "unknown"
  put normalizedKey (valueOf 0 counts normalizedKey + 1) counts

def addOptionalCount (counts : Counts) (key : Option String) : Counts :=
  (optionText key).elim counts (bumpCount counts)

/-- `createMetricsAccumulator`. -/
structure MetricsAccumulator where
  receiptCount : ℕ := 0
  durationMs : ℤ := 0
  findingCount : ℤ := 0
  inputTokens : ℤ := 0
  cachedInputTokens : ℤ := 0
  outputTokens : ℤ := 0
  headShas : List String := []
  phases : Counts := []
  statuses : Counts := []
  outcomes : Counts := []
  executionPlanes : Counts := []
  providerRuntimes : Counts := []
  requestedModels : Counts := []
  effectiveModels : Counts := []
  providerIds : Counts := []

def addMetricsEvent (accumulator : MetricsAccumulator) (event : LedgerReceipt) :
    MetricsAccumulator where
  receiptCount := accumulator.receiptCount + 1
  durationMs := accumulator.durationMs + event.durationMs
  findingCount := accumulator.findingCount + event.findingCount
  inputTokens := accumulator.inputTokens + event.inputTokens
  cachedInputTokens := accumulator.cachedInputTokens + event.cachedInputTokens
  outputTokens := accumulator.outputTokens + event.outputTokens
  headShas :=
    (optionalTrim event.headSha).elim accumulator.headShas fun headSha =>
      if headSha ∈ accumulator.headShas then accumulator.headShas
      else accumulator.headShas ++ [headSha]
  phases := addOptionalCount accumulator.phases (some event.phase)
  statuses := addOptionalCount accumulator.statuses (some event.status)
  outcomes := addOptionalCount accumulator.outcomes (some event.outcome)
  executionPlanes := addOptionalCount accumulator.executionPlanes (some event.executionPlane)
  providerRuntimes := addOptionalCount accumulator.providerRuntimes event.providerRuntime
  requestedModels := addOptionalCount accumulator.requestedModels event.requestedModel
  effectiveModels := addOptionalCount accumulator.effectiveModels event.effectiveModel
  providerIds := addOptionalCount accumulator.providerIds (some event.providerId)

structure Metrics where
  receiptCount : ℕ
  uniqueHeadCount : ℕ
  durationMs : ℤ
  findingCount : ℤ
  inputTokens : ℤ
  cachedInputTokens : ℤ
  outputTokens : ℤ
  phases : Counts
  statuses : Counts
  outcomes : Counts
  executionPlanes : Counts
  providerRuntimes : Counts
  requestedModels : Counts
  effectiveModels : Counts
  providers : Counts

def byKey {α : Type} (collation : Comparison String) : Comparison (String × α) :=
  collation.comap Prod.fst

/-- `finalizeMetrics`, with `toSerializableCounts`. -/
def finalizeMetrics (collation : Comparison String) (accumulator : MetricsAccumulator) :
    Metrics where
  receiptCount := accumulator.receiptCount
  uniqueHeadCount := accumulator.headShas.length
  durationMs := accumulator.durationMs
  findingCount := accumulator.findingCount
  inputTokens := accumulator.inputTokens
  cachedInputTokens := accumulator.cachedInputTokens
  outputTokens := accumulator.outputTokens
  phases := (byKey collation).sort accumulator.phases
  statuses := (byKey collation).sort accumulator.statuses
  outcomes := (byKey collation).sort accumulator.outcomes
  executionPlanes := (byKey collation).sort accumulator.executionPlanes
  providerRuntimes := (byKey collation).sort accumulator.providerRuntimes
  requestedModels := (byKey collation).sort accumulator.requestedModels
  effectiveModels := (byKey collation).sort accumulator.effectiveModels
  providers := (byKey collation).sort accumulator.providerIds

/-! ### Planes -/

inductive EffortKind where
  | receipt
  | provider
  deriving DecidableEq

/-- `receiptEffort` and `providerEffort`. -/
structure Effort where
  receiptEffort : MetricsAccumulator := {}
  providerEffort : MetricsAccumulator := {}

def Effort.of (effort : Effort) : EffortKind → MetricsAccumulator
  | .receipt => effort.receiptEffort
  | .provider => effort.providerEffort

def Effort.post (kind : EffortKind) (event : LedgerReceipt) (effort : Effort) : Effort :=
  match kind with
  | .receipt => { effort with receiptEffort := addMetricsEvent effort.receiptEffort event }
  | .provider => { effort with providerEffort := addMetricsEvent effort.providerEffort event }

/-- `createPlaneAccumulator`. -/
structure PlaneAccumulator where
  plane : String
  effort : Effort := {}
  personas : List (String × Effort) := []

/-- An event of a plane, and of a persona of it (`getPersonaAccumulator`). -/
def PlaneAccumulator.post (kind : EffortKind) (persona : String) (event : LedgerReceipt)
    (plane : PlaneAccumulator) : PlaneAccumulator :=
  let normalizedPersona := (optionalTrim persona).getD "unknown"
  { plane with
    effort := plane.effort.post kind event
    personas := put normalizedPersona
      ((valueOf {} plane.personas normalizedPersona).post kind event) plane.personas }

def postPlane (plane : String) (kind : EffortKind) (persona : String) (event : LedgerReceipt)
    (planes : List (String × PlaneAccumulator)) : List (String × PlaneAccumulator) :=
  (entryOf? plane planes).elim planes fun accumulator =>
    put plane (accumulator.post kind persona event) planes

/-! ### Providers -/

def SUPPORTED_LOCAL_REVIEW_PROVIDERS : List String :=
  ["copilot-cli", "codex-cli", "simulation", "ollama"]

def EXECUTABLE_LOCAL_REVIEW_PROVIDERS : List String := ["copilot-cli", "codex-cli", "simulation"]

def SUPPORTED_LOCAL_COLLAB_PLANES : List String := ["personal", "origin", "upstream"]

structure ProviderAssignment where
  plane : String
  persona : String
  effortType : String
  executionPlane : String
  providerRuntime : String

/-- `copilotPolicy.collaboration`. -/
structure Collaboration where
  reviewRemote : Option Json
  reviewPersona : Option Json
  authoringRemote : Option Json
  authoringPersona : Option Json

def buildProviderAssignments (collaboration : Collaboration) : List (String × ProviderAssignment) :=
  let reviewPlane := textOr collaboration.reviewRemote "origin"
  let reviewPersona := textOr collaboration.reviewPersona "copilot-cli"
  let authoringPlane := textOr collaboration.authoringRemote "personal"
  let authoringPersona := textOr collaboration.authoringPersona "codex"
  [("copilot-cli", ⟨reviewPlane, reviewPersona, "review", "windows-host", "copilot-cli"⟩),
    ("simulation", ⟨reviewPlane, "simulation", "review", "windows-host", "simulation"⟩),
    ("codex-cli", ⟨authoringPlane, authoringPersona, "authoring", "wsl2", "codex-cli"⟩),
    ("ollama", ⟨reviewPlane, "ollama", "review", "docker", "ollama"⟩)]

def assignmentOf (collaboration : Collaboration) (providerId : String) : ProviderAssignment :=
  (entryOf? providerId (buildProviderAssignments collaboration)).getD
    ⟨"origin", providerId, "review", "windows-host", providerId⟩

/-- `createProviderAccumulator`. -/
structure ProviderAccumulator where
  providerId : String
  executable : Bool
  reserved : Bool
  assignment : ProviderAssignment
  totals : MetricsAccumulator := {}

/-- `allocateEvenly`, with the rest that is left at each place. -/
def allocateFrom (base : ℤ) : (count : ℕ) → (remainder : ℤ) → List ℤ
  | 0, _ => []
  | n + 1, remainder =>
    if 0 < remainder then (base + 1) :: allocateFrom base n (remainder - 1)
    else base :: allocateFrom base n remainder

def allocateEvenly (total : ℤ) (count : ℕ) : List ℤ :=
  allocateFrom (total / count) count (total - total / count * count)

def shouldRecordModelForProvider (receiptProviders : List String) (providerId : String)
    (receiptProviderId : String) : Bool :=
  match receiptProviders with
  | [provider] => provider = providerId
  | _ => JsString.trim receiptProviderId = providerId

def providerEvent (assignment : ProviderAssignment) (receipt : LedgerReceipt)
    (uniqueProviders : List String) (index : ℕ) (providerId : String) : LedgerReceipt :=
  let recorded := shouldRecordModelForProvider uniqueProviders providerId receipt.providerId
  { receipt with
    forkPlane := assignment.plane
    persona := assignment.persona
    executionPlane := ((optionalTrim receipt.executionPlane).or
      (optionalTrim assignment.executionPlane)).getD "unknown"
    providerRuntime := some ((optionalTrim assignment.providerRuntime).getD providerId)
    providerId := providerId
    durationMs := ((allocateEvenly receipt.durationMs uniqueProviders.length)[index]?).getD 0
    findingCount := ((allocateEvenly receipt.findingCount uniqueProviders.length)[index]?).getD 0
    requestedModel := if recorded then receipt.requestedModel else none
    effectiveModel := if recorded then receipt.effectiveModel else none }

/-! ### The rollup -/

structure Rollup where
  planes : List (String × PlaneAccumulator)
  combinedPlane : PlaneAccumulator
  providers : List (String × ProviderAccumulator)
  phaseCounts : Counts := []
  actorCounts : Counts := []
  selectionSources : Counts := []
  headShas : List String := []

def Rollup.start (collaboration : Collaboration) : Rollup where
  planes := SUPPORTED_LOCAL_COLLAB_PLANES.map fun plane => (plane, { plane := plane })
  combinedPlane := { plane := "local" }
  providers := SUPPORTED_LOCAL_REVIEW_PROVIDERS.map fun providerId =>
    (providerId,
      { providerId := providerId
        executable := providerId ∈ EXECUTABLE_LOCAL_REVIEW_PROVIDERS
        reserved := providerId ∉ EXECUTABLE_LOCAL_REVIEW_PROVIDERS
        assignment := assignmentOf collaboration providerId })

/-- The event of one provider. A provider without an accumulator is `undefined`. -/
def addProviderEvent (collaboration : Collaboration) (receipt : LedgerReceipt)
    (uniqueProviders : List String) (state : Rollup) (provider : String × ℕ) :
    Except String Rollup :=
  let assignment := assignmentOf collaboration provider.1
  let event := providerEvent assignment receipt uniqueProviders provider.2 provider.1
  match entryOf? provider.1 state.providers with
  | none => .error "Cannot read properties of undefined (reading 'totals')"
  | some accumulator =>
    .ok { state with
      providers := put provider.1
        { accumulator with totals := addMetricsEvent accumulator.totals event } state.providers
      planes := postPlane assignment.plane .provider assignment.persona event state.planes
      combinedPlane := state.combinedPlane.post .provider assignment.persona event }

def addReceipt (receipt : LedgerReceipt) (state : Rollup) : Rollup :=
  { state with
    headShas :=
      if receipt.headSha ∈ state.headShas then state.headShas
      else state.headShas ++ [receipt.headSha]
    phaseCounts := bumpCount state.phaseCounts receipt.phase
    actorCounts := bumpCount state.actorCounts (receipt.forkPlane ++ ":" ++ receipt.persona)
    selectionSources := addOptionalCount state.selectionSources receipt.selectionSource
    planes := postPlane receipt.forkPlane .receipt receipt.persona receipt state.planes
    combinedPlane := state.combinedPlane.post .receipt receipt.persona receipt }

def LedgerReceipt.uniqueProviders (receipt : LedgerReceipt) : List String :=
  receipt.providers.eraseDups

def rollupReceipt (collaboration : Collaboration) (state : Rollup) (receipt : LedgerReceipt) :
    Except String Rollup :=
  receipt.uniqueProviders.zipIdx.foldlM
    (addProviderEvent collaboration receipt receipt.uniqueProviders) (addReceipt receipt state)

structure EffortMetrics where
  receiptEffort : Metrics
  providerEffort : Metrics

structure PlaneSummary where
  plane : String
  effort : EffortMetrics
  personas : List (String × EffortMetrics)

structure ProviderSummary where
  providerId : String
  executable : Bool
  reserved : Bool
  assignment : ProviderAssignment
  placeholderOnly : Bool
  totals : Metrics

structure KpiSummary where
  receiptCount : ℕ
  uniqueHeadCount : ℕ
  phases : Counts
  actors : Counts
  selectionSources : Counts
  combinedLocalPlane : PlaneSummary
  planes : List (String × PlaneSummary)
  providers : List (String × ProviderSummary)

def Effort.finalize (collation : Comparison String) (effort : Effort) : EffortMetrics :=
  ⟨finalizeMetrics collation effort.receiptEffort, finalizeMetrics collation effort.providerEffort⟩

def finalizePlaneAccumulator (collation : Comparison String) (plane : PlaneAccumulator) :
    PlaneSummary where
  plane := plane.plane
  effort := plane.effort.finalize collation
  personas := ((byKey collation).sort plane.personas).map fun entry =>
    (entry.1, entry.2.finalize collation)

def finalizeProvider (collation : Comparison String) (provider : ProviderAccumulator) :
    ProviderSummary where
  providerId := provider.providerId
  executable := provider.executable
  reserved := provider.reserved
  assignment := provider.assignment
  placeholderOnly := provider.totals.receiptCount = 0
  totals := finalizeMetrics collation provider.totals

def finalizeRollup (collation : Comparison String) (receiptCount : ℕ) (state : Rollup) :
    KpiSummary where
  receiptCount := receiptCount
  uniqueHeadCount := state.headShas.length
  phases := (byKey collation).sort state.phaseCounts
  actors := (byKey collation).sort state.actorCounts
  selectionSources := (byKey collation).sort state.selectionSources
  combinedLocalPlane := finalizePlaneAccumulator collation state.combinedPlane
  planes := ((byKey collation).sort state.planes).map fun entry =>
    (entry.1, finalizePlaneAccumulator collation entry.2)
  providers := ((byKey collation).sort state.providers).map fun entry =>
    (entry.1, finalizeProvider collation entry.2)

/-- `rollupLocalCollaborationKpi`, with the receipts of the ledger. -/
def rollupLocalCollaborationKpi (collation : Comparison String) (collaboration : Collaboration)
    (receipts : List LedgerReceipt) : Except String KpiSummary :=
  (receipts.foldlM (rollupReceipt collaboration) (Rollup.start collaboration)).map
    (finalizeRollup collation receipts.length)

end CompareVI.LocalCollab
