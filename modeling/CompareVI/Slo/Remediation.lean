import CompareVI.Cost.Receipts

/-!
# Remediation service levels

The remediation evaluator reads incident events and the reports of other tools, and measures
them against thresholds: `summarizeIncidentMetrics` and `summarizeOperationalMetrics` give the
figures, `evaluateRemediationSlo` a status for each of them and the worst of these.

A figure that is not there, or is no finite number, is `none` and passes.
-/

open Framework

namespace CompareVI.Slo

structure SloEnv where
  /-- `Date.parse`, in milliseconds, where it gives a number. -/
  dateParse : String → Option ℤ
  /-- `new Date(timestamp).toISOString()`. -/
  isoString : ℤ → String

/-! ### Incident events -/

inductive Priority where
  | P0
  | P1
  | P2
  deriving DecidableEq

namespace Priority

def text : Priority → String
  | P0 => "P0"
  | P1 => "P1"
  | P2 => "P2"

def all : List Priority := [P0, P1, P2]

end Priority

def normalizePriority (value : Option Json) : Priority :=
  let normalized := JsString.toUpperCase (JsString.trim (Json.stringOrEmpty value))
  if normalized = "P0" then .P0
  else if normalized = "P1" then .P1
  else .P2

structure IncidentEvent where
  id : String
  priority : Priority
  occurredAtMs : Option ℤ
  detectedAtMs : Option ℤ
  routedAtMs : Option ℤ
  resolvedAtMs : Option ℤ
  reopenedCount : ℚ
  source : Option String

def IncidentEvent.referenceMs (event : IncidentEvent) : Option ℤ :=
  event.detectedAtMs.or event.occurredAtMs

def toTimestamp (env : SloEnv) (value : Option Json) : Option ℤ :=
  env.dateParse (Json.stringOrEmpty value)

/-- `entry?.name ?? entry?.otherName`. -/
def eitherField (entry : Json) (name otherName : String) : Option Json :=
  Json.nullishOr (entry.get? name) (entry.get? otherName)

/-- One entry of the event list: an event, if it says when it came up. -/
def normalizeIncidentEvent (env : SloEnv) (index : ℕ) (entry : Json) : Option IncidentEvent :=
  let event : IncidentEvent :=
    { id := (Json.optionText (entry.get? "id")).getD s!"event-{index + 1}"
      priority := normalizePriority (entry.get? "priority")
      occurredAtMs := toTimestamp env (eitherField entry "occurredAt" "occurred_at")
      detectedAtMs := toTimestamp env (eitherField entry "detectedAt" "detected_at")
      routedAtMs := toTimestamp env (eitherField entry "routedAt" "routed_at")
      resolvedAtMs := toTimestamp env (eitherField entry "resolvedAt" "resolved_at")
      reopenedCount := max 0
        (((Json.nullishOr (eitherField entry "reopenedCount" "reopened_count")
          (some (.num 0))).bind Cost.toNumber?).getD 0)
      source := Json.optionText (entry.get? "source") }
  if event.referenceMs.isSome then some event else none

def normalizeIncidentEvents (env : SloEnv) : Option Json → List IncidentEvent
  | some (.arr entries) =>
    (entries.zipIdx.map fun entry => normalizeIncidentEvent env entry.2 entry.1).filterMap id
  | _ => []

/-! ### Incident metrics -/

def average (values : List ℚ) : Option ℚ :=
  if values = [] then none else some (values.sum / values.length)

/-- The hours from one time to a later one; `none` where a time is missing or they are the
other way round. -/
def hoursBetween (start stop : Option ℤ) : Option ℚ := do
  let start ← start
  let stop ← stop
  if stop < start then none else some ((stop - start : ℤ) / 3600000)

structure SampleCounts where
  mttd : ℕ
  routeLatency : ℕ
  mttr : Priority → ℕ

structure IncidentMetrics where
  lookbackDays : ℕ
  totalIncidents : ℕ
  reopenedIncidents : ℕ
  reopenRate : ℚ
  mttdHours : Option ℚ
  routeLatencyHours : Option ℚ
  mttrByPriorityHours : Priority → Option ℚ
  sampleCounts : SampleCounts

def summarizeIncidentMetrics (events : List IncidentEvent) (now : ℤ) (lookbackDays : ℕ) :
    IncidentMetrics :=
  let cutoffMs := now - lookbackDays * 24 * 60 * 60 * 1000
  let inWindow := events.filter fun event => event.referenceMs.any (cutoffMs ≤ ·)
  let mttdHours := inWindow.filterMap fun event =>
    hoursBetween event.occurredAtMs event.detectedAtMs
  let routeLatencyHours := inWindow.filterMap fun event =>
    hoursBetween event.detectedAtMs event.routedAtMs
  let mttrByPriority (priority : Priority) := (inWindow.filter (·.priority = priority)).filterMap
    fun event => hoursBetween event.detectedAtMs event.resolvedAtMs
  let totalIncidents := inWindow.length
  let reopenedIncidents := (inWindow.filter (0 < ·.reopenedCount)).length
  { lookbackDays := lookbackDays
    totalIncidents := totalIncidents
    reopenedIncidents := reopenedIncidents
    reopenRate := if 0 < totalIncidents then (reopenedIncidents : ℚ) / totalIncidents else 0
    mttdHours := average mttdHours
    routeLatencyHours := average routeLatencyHours
    mttrByPriorityHours := fun priority => average (mttrByPriority priority)
    sampleCounts :=
      { mttd := mttdHours.length
        routeLatency := routeLatencyHours.length
        mttr := fun priority => (mttrByPriority priority).length } }

/-! ### Operational metrics -/

structure OperationalMetrics where
  queueRetryRatio : Option ℚ
  queueQuarantineRatio : Option ℚ
  trunkRedMinutes : Option ℚ
  trunkFailureRate : Option ℚ
  releaseBlockerCount : Option ℚ
  releaseStatus : Option String

/-- `Number(report?.a?.b…)`, where it is finite. -/
def figure (report : Option Json) (keys : List String) : Option ℚ :=
  (Json.path report keys).bind Cost.toNumber?

def summarizeOperationalMetrics (queueReport sloMetrics releaseScorecard : Option Json) :
    OperationalMetrics where
  queueRetryRatio := figure queueReport ["throughputController", "retryPressure", "retryRatio"]
  queueQuarantineRatio :=
    figure queueReport ["throughputController", "retryPressure", "quarantineRatio"]
  trunkRedMinutes := figure queueReport ["health", "redMinutes"]
  trunkFailureRate := figure sloMetrics ["summary", "metrics", "failureRate"]
  releaseBlockerCount := figure releaseScorecard ["summary", "blockerCount"]
  releaseStatus := Json.optionText (Json.path releaseScorecard ["summary", "status"])

/-! ### Checks -/

structure Threshold where
  warn : ℚ
  fail : ℚ

structure Thresholds where
  mttdHours : Threshold
  routeLatencyHours : Threshold
  mttrByPriorityHours : Priority → Threshold
  reopenRate : Threshold
  queueRetryRatio : Threshold
  trunkRedMinutes : Threshold
  releaseBlockerCount : Threshold

def DEFAULT_THRESHOLDS : Thresholds where
  mttdHours := ⟨2, 8⟩
  routeLatencyHours := ⟨4, 24⟩
  mttrByPriorityHours
    | .P0 => ⟨24, 72⟩
    | .P1 => ⟨48, 120⟩
    | .P2 => ⟨96, 240⟩
  reopenRate := ⟨2 / 10, 35 / 100⟩
  queueRetryRatio := ⟨2 / 10, 35 / 100⟩
  trunkRedMinutes := ⟨30, 60⟩
  releaseBlockerCount := ⟨1, 3⟩

inductive CheckStatus where
  | notAvailable
  | pass
  | warn
  | fail
  deriving DecidableEq

def CheckStatus.text : CheckStatus → String
  | notAvailable => "n/a"
  | pass => "pass"
  | warn => "warn"
  | fail => "fail"

def severityRank : CheckStatus → ℕ
  | .fail => 2
  | .warn => 1
  | .notAvailable | .pass => 0

def classifySeverity (value : Option ℚ) (threshold : Threshold) : CheckStatus :=
  value.elim .notAvailable fun q =>
    if threshold.fail ≤ q then .fail
    else if threshold.warn ≤ q then .warn
    else .pass

structure Check where
  key : String
  value : Option ℚ
  thresholds : Threshold
  status : CheckStatus
  priority : Option Priority

/-- `addCheck`. -/
def checkOf (key : String) (value : Option ℚ) (threshold : Threshold)
    (priority : Option Priority) : Check :=
  ⟨key, value, threshold, classifySeverity value threshold, priority⟩

structure Evaluated where
  status : CheckStatus
  checks : List Check
  breaches : List Check

def evaluateRemediationSlo (incidentMetrics : IncidentMetrics)
    (operationalMetrics : OperationalMetrics) (thresholds : Thresholds) : Evaluated :=
  let checks :=
    [checkOf "mttd-hours" incidentMetrics.mttdHours thresholds.mttdHours none,
      checkOf "route-latency-hours" incidentMetrics.routeLatencyHours
        thresholds.routeLatencyHours none,
      checkOf "reopen-rate" (some incidentMetrics.reopenRate) thresholds.reopenRate none,
      checkOf "queue-retry-ratio" operationalMetrics.queueRetryRatio
        thresholds.queueRetryRatio none,
      checkOf "trunk-red-minutes" operationalMetrics.trunkRedMinutes
        thresholds.trunkRedMinutes none,
      checkOf "release-blocker-count" operationalMetrics.releaseBlockerCount
        thresholds.releaseBlockerCount none] ++
    Priority.all.map fun priority =>
      checkOf s!"mttr-{JsString.toLowerCase priority.text}-hours"
        (incidentMetrics.mttrByPriorityHours priority)
        (thresholds.mttrByPriorityHours priority) (some priority)
  { status := checks.foldl (fun overall check =>
      if severityRank overall < severityRank check.status then check.status else overall) .pass
    checks := checks
    breaches := checks.filter fun check => check.status = .warn ∨ check.status = .fail }

end CompareVI.Slo
