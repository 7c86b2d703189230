import CompareVI.Delivery.Readiness

/-!
# The worker pool

`normalizeWorkerPoolPolicy` makes a policy of the providers of worker slots, and
`buildWorkerPoolRuntimeState` lays out the slots that the host has room for: those of the enabled
providers first, then slots without a provider. A lane that is worked on occupies one of them, and
a lane that waits releases it.

The slot is chosen twice. The slot that a lane occupies is the preferred one, or the first one where
that is not laid out (`occupySlot`); the slot that it releases is the preferred one either way, and
none without a preference (`selectedSlotId`).
-/

open Framework

namespace CompareVI.Delivery

/-! ### The policy -/

structure WorkerCapabilities where
  executionPlane : String
  assignmentMode : String
  dispatchSurface : String
  completionMode : String
  requiresLocalCheckout : Bool
  deriving DecidableEq, Inhabited

/-- An entry of `DEFAULT_WORKER_PROVIDER_BLUEPRINTS`. -/
structure WorkerBlueprint extends WorkerCapabilities where
  id : String
  kind : String
  deriving Inhabited

def DEFAULT_WORKER_PROVIDER_BLUEPRINTS : List WorkerBlueprint :=
  [{ id := "local-codex", kind := "local-codex", executionPlane := "local"
     assignmentMode := "interactive-coding", dispatchSurface := "runtime-harness"
     completionMode := "sync", requiresLocalCheckout := true },
    { id := "hosted-github-workflow", kind := "hosted-github-workflow", executionPlane := "hosted"
      assignmentMode := "async-validation", dispatchSurface := "github-actions"
      completionMode := "async", requiresLocalCheckout := false },
    { id := "remote-copilot-lane", kind := "remote-copilot-lane", executionPlane := "remote"
      assignmentMode := "remote-implementation", dispatchSurface := "remote-copilot"
      completionMode := "async", requiresLocalCheckout := false },
    { id := "local-shadow-native", kind := "local-shadow-native", executionPlane := "local-shadow"
      assignmentMode := "shadow-validation", dispatchSurface := "native-shadow"
      completionMode := "sync", requiresLocalCheckout := false }]

def DEFAULT_WORKER_RELEASE_WAITING_STATES : List String :=
  ["waiting-ci", "waiting-review", "ready-merge"]

def DELIVERY_AGENT_LIFECYCLE_STATES : List String :=
  ["planning", "reshaping-backlog", "coding", "waiting-ci", "waiting-review", "ready-merge",
    "blocked", "complete", "idle"]

/-- `DEFAULT_POLICY.maxActiveCodingLanes`. -/
def DEFAULT_MAX_ACTIVE_CODING_LANES : ℕ := 20

def normalizeAllowedString (value : Option Json) (allowedValues : List String)
    (fallbackValue : String) : String :=
  if normalizeText value ∈ allowedValues then normalizeText value else fallbackValue

structure WorkerProvider extends WorkerCapabilities where
  id : String
  kind : String
  enabled : Bool
  slotCount : ℕ
  deriving DecidableEq

/-- `source?.capabilities` where it is an object, else `{}`. -/
def capabilitiesSource (source : Json) : Json :=
  ((source.get? "capabilities").filter isObject).getD (.obj [])

/-- A capability that is a text: one of the texts that some blueprint has, else that of the
blueprint. -/
def capabilityText (source : Json) (key : String) (read : WorkerBlueprint → String)
    (fallbackBlueprint : WorkerBlueprint) : String :=
  normalizeAllowedString
    (Json.nullishOr ((capabilitiesSource source).get? key) (source.get? key))
    (DEFAULT_WORKER_PROVIDER_BLUEPRINTS.map read) (read fallbackBlueprint)

def boolField (source : Json) (key : String) : Option Bool :=
  match source.get? key with
  | some (.bool b) => some b
  | _ => none

def buildWorkerProviderCapabilities (source : Json) (fallbackBlueprint : WorkerBlueprint) :
    WorkerCapabilities where
  executionPlane := capabilityText source "executionPlane" (·.executionPlane) fallbackBlueprint
  assignmentMode := capabilityText source "assignmentMode" (·.assignmentMode) fallbackBlueprint
  dispatchSurface := capabilityText source "dispatchSurface" (·.dispatchSurface) fallbackBlueprint
  completionMode := capabilityText source "completionMode" (·.completionMode) fallbackBlueprint
  requiresLocalCheckout :=
    ((boolField (capabilitiesSource source) "requiresLocalCheckout").or
      (boolField source "requiresLocalCheckout")).getD fallbackBlueprint.requiresLocalCheckout

def buildWorkerProviderPolicyEntry (source : Json) (fallbackBlueprint : WorkerBlueprint) :
    WorkerProvider where
  toWorkerCapabilities := buildWorkerProviderCapabilities source fallbackBlueprint
  id := (optionText (source.get? "id")).getD fallbackBlueprint.id
  kind := normalizeAllowedString (source.get? "kind")
    (DEFAULT_WORKER_PROVIDER_BLUEPRINTS.map (·.kind)) fallbackBlueprint.kind
  enabled := source.get? "enabled" ≠ some (.bool false)
  slotCount := (coercePositiveInteger (source.get? "slotCount")).getD 1

/-- `buildDefaultWorkerPoolProviders`: each blueprint is its own entry. -/
def buildDefaultWorkerPoolProviders : List WorkerProvider :=
  DEFAULT_WORKER_PROVIDER_BLUEPRINTS.map fun blueprint =>
    { toWorkerCapabilities := blueprint.toWorkerCapabilities
      id := blueprint.id, kind := blueprint.kind, enabled := true, slotCount := 1 }

def normalizeWorkerProviderPolicy (value : Json) (fallbackIndex : ℕ) : WorkerProvider :=
  let provider := if isObject value then value else .obj []
  buildWorkerProviderPolicyEntry provider
    (DEFAULT_WORKER_PROVIDER_BLUEPRINTS.getD
      (fallbackIndex % DEFAULT_WORKER_PROVIDER_BLUEPRINTS.length) default)

def normalizeLifecycle (value : String) (fallback : String) : String :=
  let normalized := JsString.toLowerCase (JsString.trim value)
  if normalized ∈ DELIVERY_AGENT_LIFECYCLE_STATES then normalized else fallback

structure WorkerPoolPolicy where
  targetSlotCount : ℕ
  prewarmSlotCount : ℕ
  releaseWaitingStates : List String
  providers : List WorkerProvider
  deriving DecidableEq

def duplicateProvider : List String → List WorkerProvider → Option WorkerProvider
  | _, [] => none
  | providerIds, provider :: providers =>
    let providerKey := JsString.toLowerCase provider.id
    if providerKey ∈ providerIds then some provider
    else duplicateProvider (providerKey :: providerIds) providers

/-- The entries of `workerPool.providers`, or the default ones. -/
def poolProviders (workerPool : Json) : List WorkerProvider :=
  match workerPool.get? "providers" with
  | some (.arr (entry :: entries)) =>
    (entry :: entries).zipIdx.map fun entry => normalizeWorkerProviderPolicy entry.1 entry.2
  | _ => buildDefaultWorkerPoolProviders

/-- The texts of `workerPool.releaseWaitingStates`, or the default ones. -/
def releaseWaitingTexts (workerPool : Json) : List String :=
  match workerPool.get? "releaseWaitingStates" with
  | some (.arr entries) => entries.map fun entry => normalizeText (some entry)
  | _ => DEFAULT_WORKER_RELEASE_WAITING_STATES

/-- The states in which a slot is released: the known ones of the texts, or all of them. -/
def poolReleaseWaitingStates (workerPool : Json) : List String :=
  let releaseWaitingStates :=
    ((((releaseWaitingTexts workerPool).filter (· ≠ "")).reverse.dedup.reverse).map
      (normalizeLifecycle · "idle")).filter (· ∈ DEFAULT_WORKER_RELEASE_WAITING_STATES)
  if 0 < releaseWaitingStates.length then releaseWaitingStates
  else DEFAULT_WORKER_RELEASE_WAITING_STATES

def normalizeWorkerPoolPolicy (value : Option Json) (maxActiveCodingLanes : ℕ) :
    Except String WorkerPoolPolicy :=
  let workerPool := (value.filter isObject).getD (.obj [])
  let providers := poolProviders workerPool
  match duplicateProvider [] providers with
  | some provider => .error ("Duplicate workerPool provider id: " ++ provider.id)
  | none =>
    let enabledSlotCount := ((providers.filter (·.enabled)).map (·.slotCount)).sum
    let targetSlotCount :=
      max (max ((coercePositiveInteger (workerPool.get? "targetSlotCount")).getD
        maxActiveCodingLanes) enabledSlotCount) 1
    .ok
      { targetSlotCount := targetSlotCount
        prewarmSlotCount :=
          min ((coercePositiveInteger (workerPool.get? "prewarmSlotCount")).getD
            (min 1 targetSlotCount)) targetSlotCount
        releaseWaitingStates := poolReleaseWaitingStates workerPool
        providers := providers }

def buildWorkerPoolPolicySnapshot (policy : Option Json) : Except String WorkerPoolPolicy :=
  normalizeWorkerPoolPolicy (policy.bind (·.get? "workerPool"))
    ((coercePositiveInteger (policy.bind (·.get? "maxActiveCodingLanes"))).getD
      DEFAULT_MAX_ACTIVE_CODING_LANES)

/-! ### The slots -/

inductive SlotStatus where
  | available
  | occupied
  deriving DecidableEq

structure SlotLane where
  laneId : Json
  issue : Json
  laneLifecycle : String
  deriving DecidableEq

structure WorkerSlot where
  slotId : String
  provider : Option WorkerProvider
  status : SlotStatus
  lane : Option SlotLane
  deriving DecidableEq

/-- The id of the `n`-th slot. -/
def slotIdOf (n : ℕ) : String := "worker-slot-" ++ toString n

def pushSlot (provider : Option WorkerProvider) (slots : List WorkerSlot) : List WorkerSlot :=
  slots ++ [⟨slotIdOf (slots.length + 1), provider, .available, none⟩]

def pushProviderSlots (runtimeTargetSlotCount : ℕ) (provider : WorkerProvider) :
    (slotCount : ℕ) → List WorkerSlot → List WorkerSlot
  | 0, slots => slots
  | n + 1, slots =>
    if slots.length < runtimeTargetSlotCount then
      pushProviderSlots runtimeTargetSlotCount provider n (pushSlot (some provider) slots)
    else slots

def fillSlots (runtimeTargetSlotCount : ℕ) (slots : List WorkerSlot) : List WorkerSlot :=
  if slots.length < runtimeTargetSlotCount then
    fillSlots runtimeTargetSlotCount (pushSlot none slots)
  else slots
termination_by runtimeTargetSlotCount - slots.length
decreasing_by
  rw [pushSlot, List.length_append, List.length_singleton]
  omega

def layOutSlots (runtimeTargetSlotCount : ℕ) (providers : List WorkerProvider) : List WorkerSlot :=
  fillSlots runtimeTargetSlotCount
    ((providers.filter (·.enabled)).foldl
      (fun slots provider =>
        pushProviderSlots runtimeTargetSlotCount provider provider.slotCount slots) [])

/-! ### The runtime state -/

structure ReleasedLane where
  slotId : String
  lane : SlotLane
  releaseReason : String
  deriving DecidableEq

def laneLifecycleConsumesWorkerSlot (lifecycle : String) (releaseWaitingStates : List String) :
    Bool :=
  let normalizedLifecycle := normalizeLifecycle lifecycle "idle"
  if normalizedLifecycle ∈ releaseWaitingStates then false
  else normalizedLifecycle ∈ ["planning", "reshaping-backlog", "coding"]

def runtimeTargetSlotCount (configuredTargetSlotCount : ℕ)
    (effectiveTargetSlotCount : Option Json) : ℕ :=
  max 1 (min configuredTargetSlotCount
    ((coercePositiveInteger effectiveTargetSlotCount).getD configuredTargetSlotCount))

structure WorkerPoolState where
  targetSlotCount : ℕ
  configuredTargetSlotCount : ℕ
  prewarmSlotCount : ℕ
  releaseWaitingStates : List String
  providers : List WorkerProvider
  liveOrchestratorLane : String
  slots : List WorkerSlot
  occupiedSlotCount : ℕ
  availableSlotCount : ℕ
  releasedLaneCount : ℕ
  releasedLanes : List ReleasedLane
  utilizationRatio : ℚ
  deriving DecidableEq

/-- `preferredSlotIndex`, where it is not negative. -/
def preferredSlotIndex (slots : List WorkerSlot) (preferredSlotId : Option Json) : Option ℕ :=
  slots.findIdx? (·.slotId = normalizeText preferredSlotId)

/-- `selectedSlotId`: the slot that a waiting lane releases. -/
def selectedSlotId (slots : List WorkerSlot) (preferredSlotId : Option Json) : Option String :=
  match preferredSlotIndex slots preferredSlotId with
  | some index => (slots[index]?).map (·.slotId)
  | none => optionText preferredSlotId

/-- `slots[selectedSlotIndex]` becomes occupied. -/
def occupySlot (slots : List WorkerSlot) (preferredSlotId : Option Json) (lane : SlotLane) :
    List WorkerSlot :=
  slots.modify ((preferredSlotIndex slots preferredSlotId).getD 0) fun slot =>
    { slot with status := .occupied, lane := some lane }

def assignSlots (releaseWaitingStates : List String) (slots : List WorkerSlot)
    (preferredSlotId : Option Json) (lane : SlotLane) : List WorkerSlot × List ReleasedLane :=
  match (selectedSlotId slots preferredSlotId).filter fun _ =>
      lane.laneLifecycle ∈ releaseWaitingStates with
  | some slotId => (slots, [⟨slotId, lane, "waiting-state-released"⟩])
  | none =>
    if laneLifecycleConsumesWorkerSlot lane.laneLifecycle releaseWaitingStates ∧
        0 < slots.length then
      (occupySlot slots preferredSlotId lane, [])
    else (slots, [])

def countStatus (status : SlotStatus) (slots : List WorkerSlot) : ℕ :=
  slots.countP (·.status = status)

def workerPoolRuntimeState (pool : WorkerPoolPolicy) (lane : SlotLane)
    (preferredSlotId effectiveTargetSlotCount : Option Json) : WorkerPoolState :=
  let target := runtimeTargetSlotCount pool.targetSlotCount effectiveTargetSlotCount
  let assigned := assignSlots pool.releaseWaitingStates (layOutSlots target pool.providers)
    preferredSlotId lane
  { targetSlotCount := target
    configuredTargetSlotCount := pool.targetSlotCount
    prewarmSlotCount := pool.prewarmSlotCount
    releaseWaitingStates := pool.releaseWaitingStates
    providers := pool.providers
    liveOrchestratorLane := "Sagan"
    slots := assigned.1
    occupiedSlotCount := countStatus .occupied assigned.1
    availableSlotCount := countStatus .available assigned.1
    releasedLaneCount := assigned.2.length
    releasedLanes := assigned.2
    utilizationRatio :=
      if 0 < target then toFixed 4 ((countStatus .occupied assigned.1 : ℚ) / target) else 0 }

def buildWorkerPoolRuntimeState (policy : Option Json) (lane : SlotLane)
    (preferredSlotId effectiveTargetSlotCount : Option Json) : Except String WorkerPoolState :=
  (buildWorkerPoolPolicySnapshot policy).map fun pool =>
    workerPoolRuntimeState pool lane preferredSlotId effectiveTargetSlotCount

end CompareVI.Delivery
