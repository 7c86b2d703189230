import CompareVI.Framework.JsString
import CompareVI.Framework.Run

/-!
# The throughput controller of the queue supervisor

Every cycle of the queue supervisor derives a controller mode from the health of
the trunk, the load of the runners and the retry pressure
(`evaluateDesiredControllerMode`), damps it against the mode of the cycle before
(`applyControllerHysteresis`), and writes the outcome as one object, the
throughput controller state, which the next cycle reads back.

A cycle (`runCycle`) is what `runQueueSupervisor` does with the controller: it
reads the previous object, evaluates the adaptive cap and builds the object that
is written. The object is modelled as the JavaScript object it is
(`throughputControllerState`), field by field, and the reader as the property
accesses it makes, so that a field the writer puts elsewhere reads as
`undefined`.
-/

open Framework

namespace CompareVI.Queue

/-! ### Modes -/

/-- The controller modes. `fixed` is written by a cycle whose adaptive cap is
off. -/
inductive ControllerMode where
  | healthy
  | guarded
  | stabilize
  | fixed
  deriving DecidableEq, Repr

namespace ControllerMode

def text : ControllerMode → String
  | healthy => "healthy"
  | guarded => "guarded"
  | stabilize => "stabilize"
  | fixed => "fixed"

end ControllerMode

/-- `normalizeControllerMode`: the mode a property value spells, if it is one. -/
def normalizeControllerMode (value : Option Json) : Option ControllerMode :=
  let normalized := JsString.toLowerCase (JsString.trim (Json.stringOrEmpty value))
  if normalized = "healthy" then some .healthy
  else if normalized = "guarded" then some .guarded
  else if normalized = "stabilize" then some .stabilize
  else if normalized = "fixed" then some .fixed
  else none

/-- `modeRank`: `stabilize < guarded < healthy`, and `-1` for `fixed`. -/
def modeRank : ControllerMode → ℤ
  | .stabilize => 0
  | .guarded => 1
  | .healthy => 2
  | .fixed => -1

def modeFromRank (rank : ℤ) : ControllerMode :=
  if rank ≤ 0 then .stabilize
  else if rank = 1 then .guarded
  else .healthy

def CONTROLLER_REQUIRED_UPGRADE_STREAK : ℕ := 2

/-! ### The wanted mode -/

structure ControllerThresholds where
  severeSuccessRate : ℚ
  warningSuccessRate : ℚ
  warningSaturation : ℚ
  severeSaturation : ℚ
  warningRetryRatio : ℚ
  severeRetryRatio : ℚ
  warningQuarantineRatio : ℚ
  severeQuarantineRatio : ℚ

def CONTROLLER_THRESHOLDS : ControllerThresholds where
  severeSuccessRate := 8 / 10
  warningSuccessRate := 9 / 10
  warningSaturation := 75 / 100
  severeSaturation := 1
  warningRetryRatio := 2 / 10
  severeRetryRatio := 35 / 100
  warningQuarantineRatio := 1 / 10
  severeQuarantineRatio := 2 / 10

structure ControllerMetrics where
  successRate : ℚ
  saturation : ℚ
  queued : ℚ
  inProgress : ℚ
  stalled : ℚ
  retryRatio : ℚ
  quarantineRatio : ℚ

def reasonsOf (tests : List (Bool × String)) : List String :=
  (tests.filter Prod.fst).map Prod.snd

/-- `evaluateDesiredControllerMode`: a severe reason wants `stabilize`, a warning
wants `guarded`, and neither wants `healthy`. -/
def evaluateDesiredControllerMode (m : ControllerMetrics)
    (thresholds : ControllerThresholds := CONTROLLER_THRESHOLDS) :
    ControllerMode × List String :=
  let severeReasons := reasonsOf
    [(m.successRate < thresholds.severeSuccessRate, "success-rate-severe"),
      (m.saturation ≥ thresholds.severeSaturation, "runtime-saturation-severe"),
      (m.stalled > 0, "stalled-runs-detected"),
      (m.retryRatio ≥ thresholds.severeRetryRatio, "retry-ratio-severe"),
      (m.quarantineRatio ≥ thresholds.severeQuarantineRatio, "quarantine-ratio-severe")]
  if severeReasons.length > 0 then (.stabilize, severeReasons)
  else
    let warningReasons := reasonsOf
      [(m.successRate < thresholds.warningSuccessRate, "success-rate-warning"),
        (m.saturation ≥ thresholds.warningSaturation, "runtime-saturation-warning"),
        (m.retryRatio ≥ thresholds.warningRetryRatio, "retry-ratio-warning"),
        (m.quarantineRatio ≥ thresholds.warningQuarantineRatio, "quarantine-ratio-warning")]
    (if warningReasons.length > 0 then .guarded else .healthy, warningReasons)

/-! ### Hysteresis -/

/-- The outcome of damping a wanted mode against the previous one. -/
structure Hysteresis where
  mode : ControllerMode
  desiredMode : ControllerMode
  transition : String
  upgradeStreak : ℚ
  deriving DecidableEq, Repr

/-- `applyControllerHysteresis`. The previous mode and streak are property values
of the previous state and may be `undefined`. -/
def applyControllerHysteresis (desiredMode : ControllerMode) (previousMode : Option Json)
    (previousUpgradeStreak : Option Json)
    (requiredUpgradeStreak : ℕ := CONTROLLER_REQUIRED_UPGRADE_STREAK) : Hysteresis :=
  match normalizeControllerMode previousMode with
  | none | some .fixed =>
    { mode := desiredMode, desiredMode := desiredMode, transition := "initialized",
      upgradeStreak := 0 }
  | some normalizedPreviousMode =>
    let previousRank := modeRank normalizedPreviousMode
    -- a two-rank upgrade is cut to one
    let desiredRank :=
      if modeRank desiredMode > previousRank + 1 then previousRank + 1 else modeRank desiredMode
    let cappedDesiredMode := modeFromRank desiredRank
    if desiredRank < previousRank then
      { mode := cappedDesiredMode, desiredMode := cappedDesiredMode,
        transition := "downgrade-applied", upgradeStreak := 0 }
    else if desiredRank = previousRank then
      { mode := cappedDesiredMode, desiredMode := cappedDesiredMode,
        transition := "unchanged", upgradeStreak := 0 }
    else
      -- `Math.max(0, Number(previousUpgradeStreak) || 0) + 1`
      let streak := max 0 ((Json.toNumber? previousUpgradeStreak).getD 0) + 1
      if streak ≥ requiredUpgradeStreak then
        { mode := cappedDesiredMode, desiredMode := cappedDesiredMode,
          transition := "upgrade-applied", upgradeStreak := 0 }
      else
        { mode := normalizedPreviousMode, desiredMode := cappedDesiredMode,
          transition := "upgrade-pending", upgradeStreak := streak }

/-! ### The adaptive cap -/

/-- `toFiniteNumber`: a value that is not a finite number reads as the fallback. -/
def toFiniteNumber (value : Option ℚ) (fallback : ℚ) : ℚ := value.getD fallback

def normalizeRatio (value : Option ℚ) : ℚ :=
  let numeric := toFiniteNumber value 0
  if numeric < 0 then 0 else toFixed 3 numeric

/-- The counts and thresholds of the runner fleet that the controller reads. -/
structure RuntimeFleet where
  queued : Option ℚ
  inProgress : Option ℚ
  stalled : Option ℚ
  maxQueuedRuns : Option ℚ
  maxInProgressRuns : Option ℚ

/-- The retry pressure of `computeRetryPressure`. -/
structure RetryPressure where
  failureEvents : ℕ
  activeFailurePrs : ℕ
  quarantinedPrs : ℕ
  retryRatio : ℚ
  quarantineRatio : ℚ

/-- The caps `deriveModeCaps` gives the three modes. -/
structure ModeCaps where
  healthy : ℕ
  guarded : ℕ
  stabilize : ℕ

/-- `deriveModeCaps`. The middle cap is computed on integers, as
`Math.min(healthy, healthy - 2)` may be negative. -/
def deriveModeCaps (configuredMax configuredMin : ℕ) : ModeCaps where
  healthy := configuredMax
  guarded := (max (configuredMin : ℤ) (min (configuredMax : ℤ) (configuredMax - 2))).toNat
  stabilize := configuredMin

/-- `caps[mode] ?? configuredMin`. -/
def ModeCaps.of (caps : ModeCaps) (configuredMin : ℕ) : ControllerMode → ℕ
  | .healthy => caps.healthy
  | .guarded => caps.guarded
  | .stabilize => caps.stabilize
  | .fixed => configuredMin

def DEFAULT_MAX_QUEUED_RUNS : ℚ := 6

def DEFAULT_MAX_IN_PROGRESS_RUNS : ℚ := 8

/-- The result of `evaluateAdaptiveInflight`. -/
structure AdaptiveInflight where
  enabled : Bool
  configuredMaxInflight : ℕ
  minInflight : ℕ
  effectiveMaxInflight : ℕ
  mode : ControllerMode
  desiredMode : ControllerMode
  capByMode : ModeCaps
  reasons : List String
  metrics : ControllerMetrics
  thresholds : ControllerThresholds
  previousMode : Option ControllerMode
  transition : String
  upgradeStreak : ℚ
  requiredUpgradeStreak : ℕ

/-- The figures of one cycle, as `evaluateAdaptiveInflight` reads them from the
health report, the fleet report and the retry pressure. -/
def controllerMetrics (successRate : Option ℚ) (fleet : RuntimeFleet)
    (retryPressure : RetryPressure) : ControllerMetrics :=
  let queued := toFiniteNumber fleet.queued 0
  let inProgress := toFiniteNumber fleet.inProgress 0
  let maxQueued := max 1 (toFiniteNumber fleet.maxQueuedRuns DEFAULT_MAX_QUEUED_RUNS)
  let maxInProgress := max 1 (toFiniteNumber fleet.maxInProgressRuns DEFAULT_MAX_IN_PROGRESS_RUNS)
  { successRate := toFiniteNumber successRate 0
    saturation := max (queued / maxQueued) (inProgress / maxInProgress)
    queued := queued
    inProgress := inProgress
    stalled := toFiniteNumber fleet.stalled 0
    retryRatio := normalizeRatio (some retryPressure.retryRatio)
    quarantineRatio := normalizeRatio (some retryPressure.quarantineRatio) }

/-- `previousControllerState?.key`. -/
def readState (previousControllerState : Option JsObject) (key : String) : Option Json :=
  previousControllerState.bind fun o => o.get? key

def inflightBoundsError (configuredMin configuredMax : ℕ) : String :=
  "Adaptive inflight floor (" ++ toString configuredMin ++ ") cannot exceed max inflight (" ++
    toString configuredMax ++ ")."

/-- `evaluateAdaptiveInflight`. The streak is read as the property
`upgradeStreak` of the previous state. -/
def evaluateAdaptiveInflight (maxInflight minInflight : ℕ) (adaptiveCap : Bool)
    (successRate : Option ℚ) (runtimeFleet : RuntimeFleet) (retryPressure : RetryPressure)
    (previousControllerState : Option JsObject) : Except String AdaptiveInflight :=
  if minInflight > maxInflight then
    .error (inflightBoundsError minInflight maxInflight)
  else
    let caps := deriveModeCaps maxInflight minInflight
    let metrics := controllerMetrics successRate runtimeFleet retryPressure
    -- the written metrics are rounded, the decision reads the raw ones
    let rounded := { metrics with
      successRate := normalizeRatio (some metrics.successRate)
      saturation := normalizeRatio (some metrics.saturation) }
    let previousMode := normalizeControllerMode (readState previousControllerState "mode")
    if adaptiveCap = false then
      .ok {
        enabled := false, configuredMaxInflight := maxInflight, minInflight := minInflight
        effectiveMaxInflight := maxInflight, mode := .fixed, desiredMode := .fixed
        capByMode := caps, reasons := [], metrics := rounded
        thresholds := CONTROLLER_THRESHOLDS, previousMode := previousMode
        transition := "fixed-cap-disabled", upgradeStreak := 0
        requiredUpgradeStreak := CONTROLLER_REQUIRED_UPGRADE_STREAK }
    else
      let desired := evaluateDesiredControllerMode metrics
      let hysteresis := applyControllerHysteresis desired.1
        (readState previousControllerState "mode")
        (readState previousControllerState "upgradeStreak")
      .ok {
        enabled := true, configuredMaxInflight := maxInflight, minInflight := minInflight
        effectiveMaxInflight := caps.of minInflight hysteresis.mode, mode := hysteresis.mode
        desiredMode := hysteresis.desiredMode, capByMode := caps, reasons := desired.2.eraseDups
        metrics := rounded, thresholds := CONTROLLER_THRESHOLDS, previousMode := previousMode
        transition := hysteresis.transition, upgradeStreak := hysteresis.upgradeStreak
        requiredUpgradeStreak := CONTROLLER_REQUIRED_UPGRADE_STREAK }

/-! ### The written object -/

/-- The governor modes of `normalizeGovernorMode`. -/
inductive GovernorMode where
  | normal
  | stabilize
  | pause
  deriving DecidableEq, Repr

def GovernorMode.text : GovernorMode → String
  | normal => "normal"
  | stabilize => "stabilize"
  | pause => "pause"

structure BurstDecision where
  mode : String
  active : Bool

/-- The inputs of one supervisor cycle that reach the controller. The burst
window is evaluated on the mode of the same cycle. -/
structure CycleInput where
  nowIso : String
  repository : String
  maxInflight : ℕ
  minInflight : ℕ
  adaptiveCap : Bool
  successRate : Option ℚ
  runtimeFleet : RuntimeFleet
  retryPressure : RetryPressure
  burst : ControllerMode → BurstDecision
  governorMode : GovernorMode
  governorDesiredMode : GovernorMode
  pausedReasons : List String

/-- The effective cap of a cycle, with the burst and the governor applied. -/
structure EffectiveCap where
  effectiveMaxInflight : ℕ
  burstCapApplied : Bool
  governorCapApplied : Bool
  governorCapLimit : Option ℕ

/-- The burst raises the cap to the configured maximum, the governor lowers it. -/
def effectiveCap (c : CycleInput) (adaptive : AdaptiveInflight) : EffectiveCap :=
  let burstCapApplied :=
    (c.burst adaptive.mode).active && decide (c.maxInflight > adaptive.effectiveMaxInflight)
  let effective := if burstCapApplied then c.maxInflight else adaptive.effectiveMaxInflight
  match c.governorMode with
  | .normal => ⟨effective, burstCapApplied, false, none⟩
  | .stabilize =>
    let stabilizeCap := min c.minInflight effective
    if stabilizeCap < effective then ⟨stabilizeCap, burstCapApplied, true, some stabilizeCap⟩
    else ⟨effective, burstCapApplied, false, none⟩
  | .pause => ⟨0, burstCapApplied, true, some 0⟩

section ToJson

/-- A JSON number that may be `null`. -/
def numOrNull (n : Option ℕ) : Json := n.elim .null fun k => .num k

def jsonTexts (xs : List String) : Json := .arr (xs.map .str)

def ModeCaps.toJson (caps : ModeCaps) : Json :=
  .obj [("healthy", .num caps.healthy), ("guarded", .num caps.guarded),
    ("stabilize", .num caps.stabilize)]

def ControllerMetrics.toJson (m : ControllerMetrics) : Json :=
  .obj [("successRate", .num m.successRate), ("saturation", .num m.saturation),
    ("queued", .num m.queued), ("inProgress", .num m.inProgress), ("stalled", .num m.stalled),
    ("retryRatio", .num m.retryRatio), ("quarantineRatio", .num m.quarantineRatio)]

def ControllerThresholds.toJson (t : ControllerThresholds) : Json :=
  .obj [("severeSuccessRate", .num t.severeSuccessRate),
    ("warningSuccessRate", .num t.warningSuccessRate),
    ("warningSaturation", .num t.warningSaturation),
    ("severeSaturation", .num t.severeSaturation),
    ("warningRetryRatio", .num t.warningRetryRatio),
    ("severeRetryRatio", .num t.severeRetryRatio),
    ("warningQuarantineRatio", .num t.warningQuarantineRatio),
    ("severeQuarantineRatio", .num t.severeQuarantineRatio)]

def RetryPressure.toJson (r : RetryPressure) : Json :=
  .obj [("failureEvents", .num r.failureEvents), ("activeFailurePrs", .num r.activeFailurePrs),
    ("quarantinedPrs", .num r.quarantinedPrs), ("retryRatio", .num r.retryRatio),
    ("quarantineRatio", .num r.quarantineRatio)]

/-- The `hysteresis` property of the adaptive cap, where the streak is written. -/
def AdaptiveInflight.hysteresisJson (a : AdaptiveInflight) : Json :=
  .obj [("previousMode", a.previousMode.elim .null fun m => .str m.text),
    ("transition", .str a.transition), ("upgradeStreak", .num a.upgradeStreak),
    ("requiredUpgradeStreak", .num a.requiredUpgradeStreak)]

end ToJson

/-- The properties of `throughputControllerState`, in the order of the source. -/
def throughputControllerFields (c : CycleInput) (adaptive : AdaptiveInflight) :
    List (String × Json) :=
  let cap := effectiveCap c adaptive
  let burst := c.burst adaptive.mode
  [("schema", .str "ops-throughput-controller-state@v1"),
    ("generatedAt", .str c.nowIso),
    ("repository", .str c.repository),
    ("mode", .str adaptive.mode.text),
    ("desiredMode", .str adaptive.desiredMode.text),
    ("targetCap", .num cap.effectiveMaxInflight),
    ("capByMode", adaptive.capByMode.toJson),
    ("adaptiveEnabled", .bool adaptive.enabled),
    ("burstMode", .str burst.mode),
    ("burstActive", .bool burst.active),
    ("burstCapApplied", .bool cap.burstCapApplied),
    ("governorMode", .str c.governorMode.text),
    ("governorDesiredMode", .str c.governorDesiredMode.text),
    ("governorCapApplied", .bool cap.governorCapApplied),
    ("governorCapLimit", numOrNull cap.governorCapLimit),
    ("reasons", jsonTexts adaptive.reasons),
    ("metrics", adaptive.metrics.toJson),
    ("thresholds", adaptive.thresholds.toJson),
    ("hysteresis", adaptive.hysteresisJson),
    ("retryPressure", c.retryPressure.toJson),
    ("paused", .bool (c.pausedReasons.length > 0)),
    ("pausedReasons", jsonTexts c.pausedReasons)]

/-- `throughputControllerState`: the object a cycle builds and writes. -/
def throughputControllerState (c : CycleInput) (adaptive : AdaptiveInflight) : JsObject where
  fields := throughputControllerFields c adaptive
  nodup := by
    change ["schema", "generatedAt", "repository", "mode", "desiredMode", "targetCap",
      "capByMode", "adaptiveEnabled", "burstMode", "burstActive", "burstCapApplied",
      "governorMode", "governorDesiredMode", "governorCapApplied", "governorCapLimit",
      "reasons", "metrics", "thresholds", "hysteresis", "retryPressure", "paused",
      "pausedReasons"].Nodup
    decide

/-- One cycle: read the previous object, evaluate the cap, build the object that
is written. -/
def runCycle (previousControllerState : Option JsObject) (c : CycleInput) :
    Except String JsObject :=
  (evaluateAdaptiveInflight c.maxInflight c.minInflight c.adaptiveCap c.successRate
    c.runtimeFleet c.retryPressure previousControllerState).map (throughputControllerState c)

/-- The step of the supervisor as it is run again and again: the state is the
object on disk, and a cycle that throws writes none. -/
def cycleStep (previousControllerState : Option JsObject) (c : CycleInput) :
    Option (Option JsObject) :=
  match runCycle previousControllerState c with
  | .ok written => some (some written)
  | .error _ => none

/-! ### What a cycle reads and writes -/

def wantedMode (c : CycleInput) : ControllerMode :=
  (evaluateDesiredControllerMode
    (controllerMetrics c.successRate c.runtimeFleet c.retryPressure)).1

def persistedMode (s : Option JsObject) : Option ControllerMode :=
  normalizeControllerMode (readState s "mode")

/-- The object on disk is one that a cycle wrote, or there is none yet. -/
def Written (s : Option JsObject) : Prop :=
  ∀ o, s = some o → ∃ c adaptive, o = throughputControllerState c adaptive

theorem normalizeControllerMode_text (m : ControllerMode) :
    normalizeControllerMode (some (.str m.text)) = some m := by
  cases m <;> decide

@[simp] theorem throughputControllerState_mode (c : CycleInput) (adaptive : AdaptiveInflight) :
    (throughputControllerState c adaptive).get? "mode" = some (.str adaptive.mode.text) := rfl

@[simp] theorem throughputControllerState_upgradeStreak (c : CycleInput)
    (adaptive : AdaptiveInflight) :
    (throughputControllerState c adaptive).get? "upgradeStreak" = none := rfl

theorem persistedMode_written (c : CycleInput) (adaptive : AdaptiveInflight) :
    persistedMode (some (throughputControllerState c adaptive)) = some adaptive.mode := by
  change normalizeControllerMode ((throughputControllerState c adaptive).get? "mode") = _
  rw [throughputControllerState_mode, normalizeControllerMode_text]

variable {p : ControllerMode} {cs : List CycleInput} {s t : Option JsObject}

theorem Written.upgradeStreak (h : Written s) :
    readState s "upgradeStreak" = none := by
  cases s with
  | none => rfl
  | some o =>
    obtain ⟨c, adaptive, rfl⟩ := h o rfl
    exact throughputControllerState_upgradeStreak c adaptive

theorem wantedMode_ne_fixed (c : CycleInput) : wantedMode c ≠ .fixed := by
  unfold wantedMode evaluateDesiredControllerMode
  dsimp only
  split
  · simp
  · split <;> simp

/-- The less healthy of a mode and a wanted mode; a mode outside the order gives
way. -/
def lessHealthy (mode : Option ControllerMode) (wanted : ControllerMode) : ControllerMode :=
  match mode with
  | none | some .fixed => wanted
  | some m => if modeRank wanted < modeRank m then wanted else m

theorem not_requiredUpgradeStreak_of_none :
    ¬ max 0 ((Json.toNumber? none).getD 0) + 1 ≥ (CONTROLLER_REQUIRED_UPGRADE_STREAK : ℚ) := by
  norm_num [CONTROLLER_REQUIRED_UPGRADE_STREAK]

/-- With no streak to read, the damped mode is the less healthy of the two: a
downgrade is applied at once and an upgrade stays pending. -/
theorem applyControllerHysteresis_mode (wanted : ControllerMode) (previousMode : Option Json)
    (hw : wanted ≠ .fixed) :
    (applyControllerHysteresis wanted previousMode none).mode =
      lessHealthy (normalizeControllerMode previousMode) wanted := by
  unfold applyControllerHysteresis
  simp only [not_requiredUpgradeStreak_of_none, if_false]
  cases normalizeControllerMode previousMode with
  | none => rfl
  | some m =>
    cases m <;> cases wanted <;>
      simp [lessHealthy, modeRank, modeFromRank] at hw ⊢

variable {w : ControllerMode} {c : CycleInput}

/-- **What a cycle does to the mode.** The next mode is the less healthy of the
persisted one and the wanted one. -/
theorem cycleStep_mode (hs : Written s) (hc : c.adaptiveCap = true) (h : cycleStep s c = some t) :
    Written t ∧ persistedMode t = some (lessHealthy (persistedMode s) (wantedMode c)) := by
  unfold cycleStep runCycle at h
  rw [hc] at h
  cases he : evaluateAdaptiveInflight c.maxInflight c.minInflight true c.successRate
      c.runtimeFleet c.retryPressure s with
  | error e => simp [he, Except.map] at h
  | ok adaptive =>
    simp only [he, Except.map, Option.some.injEq] at h
    subst h
    have hmode : adaptive.mode = (applyControllerHysteresis (wantedMode c)
        (readState s "mode") (readState s "upgradeStreak")).mode := by
      unfold evaluateAdaptiveInflight at he
      split at he
      · cases he
      · simp only [Bool.true_eq_false, if_false, Except.ok.injEq] at he
        rw [← he, wantedMode]
    rw [hs.upgradeStreak, applyControllerHysteresis_mode _ _ (wantedMode_ne_fixed c)] at hmode
    refine ⟨fun o ho => ⟨c, adaptive, (Option.some.inj ho).symm⟩, ?_⟩
    rw [persistedMode_written, hmode]
    rfl

/-! ### The law of the modes -/

/-- The least healthy among a starting mode and the modes that a list of cycles
wants. -/
def floorMode (start : Option ControllerMode) (cs : List CycleInput) : Option ControllerMode :=
  cs.foldl (fun m c => some (lessHealthy m (wantedMode c))) start

@[simp] theorem floorMode_nil (start : Option ControllerMode) : floorMode start [] = start := rfl

theorem floorMode_cons (start : Option ControllerMode) (c : CycleInput) (cs : List CycleInput) :
    floorMode start (c :: cs) = floorMode (some (lessHealthy start (wantedMode c))) cs := rfl

/-- What the damping of the modes promises over a run from `s`. -/
structure ControllerLaw (s : Option JsObject) (cs : List CycleInput) : Prop where
  /-- Two cycles in a row that want a healthier mode raise the mode by one rank. -/
  recovers : ∀ pre c d post t u v, cs = pre ++ c :: d :: post →
    run cycleStep s pre = some t → cycleStep t c = some u → cycleStep u d = some v →
    ∀ p q, persistedMode t = some p → p ≠ .fixed → modeRank p < modeRank (wantedMode c) →
      persistedMode u = some q → modeRank q < modeRank (wantedMode d) →
      ∃ r, persistedMode v = some r ∧ modeRank r = modeRank p + 1
  /-- A less healthy wanted mode takes effect at once. -/
  downgrades : ∀ pre c post t u, cs = pre ++ c :: post →
    run cycleStep s pre = some t → cycleStep t c = some u →
    ∀ p, persistedMode t = some p → p ≠ .fixed → modeRank (wantedMode c) < modeRank p →
      persistedMode u = some (wantedMode c)
  /-- No cycle raises the mode by more than one rank. -/
  gradual : ∀ pre c post t u, cs = pre ++ c :: post →
    run cycleStep s pre = some t → cycleStep t c = some u →
    ∀ p q, persistedMode t = some p → p ≠ .fixed → persistedMode u = some q →
      modeRank q ≤ modeRank p + 1

/-- No two cycles in a row want a mode healthier than the least healthy mode seen
before them. -/
def NoRecoveryDue (start : Option ControllerMode) (cs : List CycleInput) : Prop :=
  ∀ pre c d post, cs = pre ++ c :: d :: post →
    ∀ p, floorMode start pre = some p → p ≠ .fixed →
      ¬ (modeRank p < modeRank (wantedMode c) ∧ modeRank p < modeRank (wantedMode d))

theorem run_cycleStep_mode (hs : Written s) (hcs : ∀ c ∈ cs, c.adaptiveCap = true)
    (h : run cycleStep s cs = some t) :
    Written t ∧ persistedMode t = floorMode (persistedMode s) cs := by
  induction cs generalizing s with
  | nil =>
    obtain rfl : s = t := Option.some.inj h
    exact ⟨hs, (floorMode_nil _).symm⟩
  | cons c cs ih =>
    obtain ⟨u, hu, hrun⟩ := run_cons_eq_some.mp h
    obtain ⟨hwu, hmu⟩ := cycleStep_mode hs (hcs c List.mem_cons_self) hu
    have := ih hwu (fun d hd => hcs d (List.mem_cons_of_mem c hd)) hrun
    rwa [hmu, ← floorMode_cons] at this

theorem lessHealthy_of_lt (hp : p ≠ .fixed) (h : modeRank p < modeRank w) :
    lessHealthy (some p) w = p := by
  cases p <;> cases w <;> first | exact absurd rfl hp | rfl | exact absurd h (by decide)

theorem lessHealthy_of_gt (hp : p ≠ .fixed) (h : modeRank w < modeRank p) :
    lessHealthy (some p) w = w := by
  cases p with
  | fixed => exact absurd rfl hp
  | healthy | guarded | stabilize => exact if_pos h

theorem modeRank_lessHealthy_le (hp : p ≠ .fixed) (w : ControllerMode) :
    modeRank (lessHealthy (some p) w) ≤ modeRank p := by
  cases p <;> cases w <;> first | exact absurd rfl hp | decide

theorem cycleStep_mode_of_ranked {u : Option JsObject} (ht : Written t)
    (hc : c.adaptiveCap = true) (hu : cycleStep t c = some u) (hp : persistedMode t = some p) :
    Written u ∧ persistedMode u = some (lessHealthy (some p) (wantedMode c)) := by
  have h := cycleStep_mode ht hc hu
  rwa [hp] at h

theorem adaptiveCap_of_split {pre post : List CycleInput} (hcs : ∀ c ∈ cs, c.adaptiveCap = true)
    (hsplit : cs = pre ++ post) :
    (∀ c ∈ pre, c.adaptiveCap = true) ∧ ∀ c ∈ post, c.adaptiveCap = true := by
  subst hsplit
  exact ⟨fun c hc => hcs c (List.mem_append_left _ hc),
    fun c hc => hcs c (List.mem_append_right _ hc)⟩

/-- Under the law no recovery is due: two cycles that want a healthier mode leave
the mode where it was. -/
theorem ControllerLaw.noRecoveryDue (law : ControllerLaw s cs) (hs : Written s)
    (hcs : ∀ c ∈ cs, c.adaptiveCap = true) (hrun : (run cycleStep s cs).isSome) :
    NoRecoveryDue (persistedMode s) cs := by
  intro pre c d post hsplit p hp hfixed ⟨hwc, hwd⟩
  -- the run passes through the two cycles, with the mode `p` before, between and after
  obtain ⟨w, hw⟩ := Option.isSome_iff_exists.mp hrun
  rw [hsplit] at hw
  obtain ⟨t, ht, hw⟩ := run_append_eq_some.mp hw
  obtain ⟨u, hu, hw⟩ := run_cons_eq_some.mp hw
  obtain ⟨v, hv, -⟩ := run_cons_eq_some.mp hw
  obtain ⟨hpre, hpost⟩ := adaptiveCap_of_split hcs hsplit
  obtain ⟨hwt, hmt⟩ := run_cycleStep_mode hs hpre ht
  rw [hp] at hmt
  obtain ⟨hwu, hmu⟩ := cycleStep_mode_of_ranked hwt (hpost c (by simp)) hu hmt
  rw [lessHealthy_of_lt hfixed hwc] at hmu
  obtain ⟨-, hmv⟩ := cycleStep_mode_of_ranked hwu (hpost d (by simp)) hv hmu
  rw [lessHealthy_of_lt hfixed hwd] at hmv
  obtain ⟨r, hr, hrank⟩ := law.recovers pre c d post t u v hsplit ht hu hv p p hmt hfixed hwc
    hmu hwd
  rw [hmv, Option.some.injEq] at hr
  subst hr
  omega

/-- Where no recovery is due, the law holds: downgrades are applied at once, and
the mode is never raised. -/
theorem NoRecoveryDue.controllerLaw (due : NoRecoveryDue (persistedMode s) cs) (hs : Written s)
    (hcs : ∀ c ∈ cs, c.adaptiveCap = true) : ControllerLaw s cs where
  recovers := by
    intro pre c d post t u v hsplit ht hu hv p q hp hfixed hwc hq hwd
    obtain ⟨hpre, hpost⟩ := adaptiveCap_of_split hcs hsplit
    obtain ⟨hwt, hmt⟩ := run_cycleStep_mode hs hpre ht
    obtain ⟨-, hmu⟩ := cycleStep_mode_of_ranked hwt (hpost c (by simp)) hu hp
    rw [lessHealthy_of_lt hfixed hwc, hq, Option.some.injEq] at hmu
    subst hmu
    exact absurd ⟨hwc, hwd⟩ (due pre c d post hsplit q (hmt ▸ hp) hfixed)
  downgrades := by
    intro pre c post t u hsplit ht hu p hp hfixed hwc
    obtain ⟨hpre, hpost⟩ := adaptiveCap_of_split hcs hsplit
    have hwt := (run_cycleStep_mode hs hpre ht).1
    have hmu := (cycleStep_mode_of_ranked hwt (hpost c (by simp)) hu hp).2
    rwa [lessHealthy_of_gt hfixed hwc] at hmu
  gradual := by
    intro pre c post t u hsplit ht hu p q hp hfixed hq
    obtain ⟨hpre, hpost⟩ := adaptiveCap_of_split hcs hsplit
    have hwt := (run_cycleStep_mode hs hpre ht).1
    have hmu := (cycleStep_mode_of_ranked hwt (hpost c (by simp)) hu hp).2
    rw [hq, Option.some.injEq] at hmu
    have := modeRank_lessHealthy_le hfixed (wantedMode c)
    rw [← hmu] at this
    omega

/-- **The modes of a run.** With the cap on in every cycle, the modes obey the law
exactly when no recovery is ever due. -/
theorem controllerLaw_iff_noRecoveryDue (s : Option JsObject) (cs : List CycleInput)
    (hs : Written s) (hcs : ∀ c ∈ cs, c.adaptiveCap = true)
    (hrun : (run cycleStep s cs).isSome) :
    ControllerLaw s cs ↔ NoRecoveryDue (persistedMode s) cs :=
  ⟨fun law => law.noRecoveryDue hs hcs hrun, fun due => due.controllerLaw hs hcs⟩

def idleCycle (successRate : ℚ) : CycleInput where
  nowIso := "2026-01-01T00:00:00.000Z"
  repository := "owner/repo"
  maxInflight := 4
  minInflight := 1
  adaptiveCap := true
  successRate := some successRate
  runtimeFleet := ⟨some 0, some 0, some 0, none, none⟩
  retryPressure := ⟨0, 0, 0, 0, 0⟩
  burst := fun _ => ⟨"off", false⟩
  governorMode := .normal
  governorDesiredMode := .normal
  pausedReasons := []

theorem wantedMode_idleCycle_half : wantedMode (idleCycle (1 / 2)) = .stabilize := by
  decide +kernel

theorem wantedMode_idleCycle_one : wantedMode (idleCycle 1) = .healthy := by
  decide +kernel

theorem idleCycle_run_isSome (s : Option JsObject) (rates : List ℚ) :
    (run cycleStep s (rates.map idleCycle)).isSome := by
  induction rates generalizing s with
  | nil => rfl
  | cons r rates ih =>
    obtain ⟨t, ht⟩ : ∃ t, cycleStep s (idleCycle r) = some t := ⟨_, rfl⟩
    rw [List.map_cons, run_cons, ht]
    exact ih t

theorem adaptiveCap_idleCycle (rates : List ℚ) :
    ∀ c ∈ rates.map idleCycle, c.adaptiveCap = true := by
  intro c hc
  obtain ⟨r, -, rfl⟩ := List.mem_map.mp hc
  rfl

theorem written_none : Written none := fun _ h => nomatch h
/-- Two healthy cycles after a severe one: the mode stays at `stabilize`. -/
theorem not_controllerLaw_idleCycles :
    (∀ c ∈ [1 / 2, 1, 1].map idleCycle, c.adaptiveCap = true) ∧
      (run cycleStep none ([1 / 2, 1, 1].map idleCycle)).isSome ∧
      ¬ ControllerLaw none ([1 / 2, 1, 1].map idleCycle) := by
  have hcap := adaptiveCap_idleCycle [1 / 2, 1, 1]
  have hrun := idleCycle_run_isSome none [1 / 2, 1, 1]
  refine ⟨hcap, hrun, fun law => ?_⟩
  refine law.noRecoveryDue written_none hcap hrun [idleCycle (1 / 2)] (idleCycle 1) (idleCycle 1)
    [] rfl .stabilize ?_ (by decide) ?_
  · rw [floorMode_cons, wantedMode_idleCycle_half]
    rfl
  · rw [wantedMode_idleCycle_one]
    decide

/-- The law at one severe cycle and one healthy cycle. -/
theorem controllerLaw_iff_idleCycles :
    ControllerLaw none ([1 / 2, 1].map idleCycle) ↔
      NoRecoveryDue (persistedMode none) ([1 / 2, 1].map idleCycle) :=
  controllerLaw_iff_noRecoveryDue none _ written_none (adaptiveCap_idleCycle _)
    (idleCycle_run_isSome none _)

end CompareVI.Queue
