import CompareVI.Queue.Controller
import CompareVI.Queue.Planning

/-!
# A cycle of the queue supervisor

`runQueueSupervisor` reads the open pull requests, the workflow runs and what the cycles
before have written, derives the cap of the cycle from them, and, when it applies, submits
the planned pull requests to `merge-sync-pr.mjs` one after another.

The cap is the adaptive one, raised to the configured maximum by a burst and lowered by
the governor (`effectiveCap`). The plan is cut to what the cap leaves free, and the apply
loop runs over the cut plan. A command of the loop (`QueueCommand`) is answered by the
surroundings (`QueueEnv`), which may answer by everything that was run before.

`supervisor_bounded` says what follows for every cycle: the caps hold, the submissions are
bounded by the free capacity, what is submitted is ready and not queued, and a cycle that
does not apply runs no command.
-/

open Framework

namespace CompareVI.Queue

/-! ### The health of the trunk and of the runners -/

/-- A workflow run, with the properties the supervisor reads. -/
structure WorkflowRun where
  status : String
  conclusion : String
  createdAt : Option ℤ
  updatedAt : Option ℤ

/-- The result of `evaluateHealthGate`. -/
structure HealthGate where
  reasons : List String
  sampleSize : ℕ
  successful : ℕ
  successRate : ℚ

def DEFAULT_HEALTH_MIN_SUCCESS_RATE : ℚ := 8 / 10

def DEFAULT_HEALTH_MAX_RED_MINUTES : ℚ := 30

/-- `evaluateHealthGate`. A run without an instant sorts by `Date.parse(0)`, which is
`parsedZero`. The red window is without end (`none`) if no run that succeeded has an
instant. -/
def evaluateHealthGate (parsedZero : ℤ) (workflowRuns : List WorkflowRun) (now : ℤ) :
    HealthGate :=
  let instant := fun run : WorkflowRun => run.createdAt.getD parsedZero
  let runs := workflowRuns.insertionSort fun a b => instant b ≤ instant a
  let succeeded := fun run : WorkflowRun => JsString.toLowerCase run.conclusion = "success"
  let sampleSize := runs.length
  let successful := (runs.filter (succeeded ·)).length
  let successRate : ℚ := if sampleSize = 0 then 0 else successful / sampleSize
  let redWindowExceeded : Bool :=
    match runs.head? with
    | none => false
    | some latest =>
      if succeeded latest then false
      else
        match (runs.find? (succeeded ·)).bind (·.updatedAt) with
        | none => true
        | some updatedAt => ((now - updatedAt : ℚ) / 60000) > DEFAULT_HEALTH_MAX_RED_MINUTES
  { reasons :=
      (if sampleSize = 0 then ["insufficient-health-data"] else []) ++
      (if successRate < DEFAULT_HEALTH_MIN_SUCCESS_RATE then ["success-rate-below-threshold"]
        else []) ++
      (if redWindowExceeded then ["trunk-red-window-exceeded"] else [])
    sampleSize := sampleSize
    successful := successful
    successRate := successRate }

structure FleetThresholds where
  maxQueuedRuns : ℕ
  maxInProgressRuns : ℕ
  stallThresholdMinutes : ℕ

def isStalled (thresholds : FleetThresholds) (now : ℤ) (run : WorkflowRun) : Bool :=
  match run.updatedAt.or run.createdAt with
  | none => true
  | some instant => max 0 ((now - instant : ℚ) / 60000) > thresholds.stallThresholdMinutes

/-- `evaluateRuntimeFleetHealth`: the totals that the controller reads, and the reasons to
pause. -/
def evaluateRuntimeFleetHealth (thresholds : FleetThresholds) (workflowRuns : List WorkflowRun)
    (now : ℤ) : RuntimeFleet × List String :=
  let status := fun run : WorkflowRun => JsString.toLowerCase (JsString.trim run.status)
  let queuedRuns := workflowRuns.filter fun run =>
    ["queued", "requested", "waiting", "pending"].contains (status run)
  let inProgressRuns := workflowRuns.filter fun run => status run = "in_progress"
  let stalledRuns := (queuedRuns ++ inProgressRuns).filter (isStalled thresholds now)
  ({ queued := some queuedRuns.length
     inProgress := some inProgressRuns.length
     stalled := some stalledRuns.length
     maxQueuedRuns := some thresholds.maxQueuedRuns
     maxInProgressRuns := some thresholds.maxInProgressRuns },
    (if queuedRuns.length > thresholds.maxQueuedRuns then ["queued-runs-threshold-exceeded"]
      else []) ++
    (if inProgressRuns.length > thresholds.maxInProgressRuns then
      ["in-progress-runs-threshold-exceeded"] else []) ++
    (if stalledRuns.length > 0 then ["stalled-runs-detected"] else []))

/-! ### The retry history -/

def RETRY_WINDOW_HOURS : ℤ := 24

abbrev RetryHistory := List (String × List ℤ)

def retryCutoff (now : ℤ) : ℤ := now - RETRY_WINDOW_HOURS * 60 * 60 * 1000

/-- `pruneRetryHistory` on the entries of the previous report, where an instant that does
not parse is `none`. -/
def pruneRetryHistory (entries : List (String × List (Option ℤ))) (now : ℤ) : RetryHistory :=
  (entries.map fun entry =>
    (entry.1, (entry.2.filterMap id).filter fun instant => retryCutoff now ≤ instant)).filter
      fun entry => entry.2.length > 0

def computeRetryPressure (retryHistory : RetryHistory) (candidateCount : ℕ) : RetryPressure :=
  let active := (retryHistory.map Prod.snd).filter fun failures => failures.length > 0
  let failureEvents := (active.map List.length).sum
  let quarantinedPrs := (active.filter fun failures => failures.length ≥ 2).length
  { failureEvents := failureEvents
    activeFailurePrs := active.length
    quarantinedPrs := quarantinedPrs
    retryRatio := normalizeRatio (some (failureEvents / (max 1 candidateCount : ℕ)))
    quarantineRatio := normalizeRatio (some (quarantinedPrs / (max 1 active.length : ℕ))) }

def reportRetryState (history : RetryHistory) (number : ℕ) : List ℤ :=
  (history.lookup (toString number)).getD []

/-- `appendFailure`: the history with the failure, and the number of failures in the
window. -/
def appendFailure (history : RetryHistory) (number : ℕ) (now : ℤ) : RetryHistory × ℕ :=
  let retained :=
    (reportRetryState history number).filter (fun instant => retryCutoff now ≤ instant) ++ [now]
  ((history.filter fun entry => entry.1 ≠ toString number) ++ [(toString number, retained)],
    retained.length)

def clearFailure (history : RetryHistory) (number : ℕ) : RetryHistory :=
  history.filter fun entry => entry.1 ≠ toString number

/-! ### The burst window -/

/-- `BURST_MODES`. -/
inductive BurstMode where
  | auto
  | on
  | off
  deriving DecidableEq, Repr

def BurstMode.text : BurstMode → String
  | auto => "auto"
  | on => "on"
  | off => "off"

/-- The burst of the previous report: until when it backs off, and the cycles left. -/
structure PreviousBurst where
  backoffUntil : Option ℤ
  refillCyclesRemaining : ℚ

/-- What triggers a burst in `auto` mode. -/
structure BurstTriggers where
  releaseWindow : Bool
  releaseBranchPullRequest : Bool
  releaseBurstLabel : Bool

/-- The trigger signals of `evaluateBurstWindow`. A head ref comes beside its pull
request; `releaseWindow` is `isReleaseWindow(now)`. -/
def burstTriggers (releaseWindow : Bool) (pullRequests : List (PullRequest × String)) :
    BurstTriggers where
  releaseWindow := releaseWindow
  releaseBranchPullRequest := pullRequests.any fun pr =>
    JsString.startsWith (JsString.toLowerCase (JsString.trim pr.2)) "release/" ||
      JsString.startsWith (normalizeBaseBranch pr.1.baseRefName) "release/"
  releaseBurstLabel := pullRequests.any fun pr =>
    pr.1.labels.any fun label => normalizeLabelName label = "release-burst"

/-- `evaluateBurstWindow`: the mode and whether the burst is active, as the cycle reads
them, and the cycles that are left. -/
def evaluateBurstWindow (mode : BurstMode) (configuredRefillCycles : ℕ)
    (triggers : BurstTriggers) (previous : Option PreviousBurst) (now : ℤ)
    (controllerMode : ControllerMode) : BurstDecision × ℚ :=
  let previousBackoff := (previous.bind (·.backoffUntil)).any fun until_ => until_ > now
  let backoffActive := controllerMode = .stabilize || previousBackoff
  let triggerActive := triggers.releaseWindow || triggers.releaseBranchPullRequest ||
    triggers.releaseBurstLabel
  let previousRefillCycles := max 0 ((previous.map (·.refillCyclesRemaining)).getD 0)
  let refillCyclesRemaining : ℚ :=
    match mode with
    | .auto =>
      if triggerActive then configuredRefillCycles
      else if previousRefillCycles > 0 then previousRefillCycles - 1
      else 0
    | .on => configuredRefillCycles
    | .off => 0
  let active :=
    match mode with
    | .off => false
    | .on => !backoffActive
    | .auto => !backoffActive && (triggerActive || decide (refillCyclesRemaining > 0))
  (⟨mode.text, active⟩, refillCyclesRemaining)

/-! ### The governor -/

def normalizeGovernorMode (value : Option Json) : GovernorMode :=
  let normalized := JsString.toLowerCase (JsString.trim (Json.stringOrEmpty value))
  if normalized = "stabilize" then .stabilize
  else if normalized = "pause" then .pause
  else .normal

def governorStatePayload (envelope : Option Json) : Option Json :=
  match envelope with
  | some (.obj fields) =>
    if (fields.map Prod.fst).contains "payload" then fields.lookup "payload" else envelope
  | _ => envelope

/-- `governorState.mode`. -/
def governorMode (envelope : Option Json) : GovernorMode :=
  let payload := governorStatePayload envelope
  normalizeGovernorMode (Json.nullishOr (Json.path payload ["mode"]) (Json.path payload ["intent"]))

/-- `governorState.desiredMode`. -/
def governorDesiredMode (envelope : Option Json) : GovernorMode :=
  let payload := governorStatePayload envelope
  normalizeGovernorMode
    (Json.nullishOr (Json.path payload ["desiredMode"]) (Json.path payload ["mode"]))

/-! ### The input of a cycle -/

/-- The queue state of a pull request that `readPullRequestQueueStates` has read. -/
structure QueueState where
  mergeStateStatus : Option String
  isInMergeQueue : Bool
  autoMergeRequest : Option Json

/-- The input of a cycle: the arguments, what the repository answers and what the cycles
before have written. `queueStates` gives the queue states that were read, and `headRefs`
the head ref of each pull request. -/
structure SupervisorInput where
  repository : String
  apply : Bool
  dryRun : Bool
  maxInflight : ℕ
  minInflight : ℕ
  adaptiveCap : Bool
  fleetThresholds : FleetThresholds
  burstMode : BurstMode
  burstRefillCycles : ℕ
  gates : GateConfig
  pausedByVariable : Bool
  now : ℤ
  nowIso : String
  parsedZero : ℤ
  releaseWindow : Bool
  pullRequests : List PullRequest
  headRefs : ℕ → String
  queueStates : ℕ → Option QueueState
  workflowRuns : List WorkflowRun
  workflowFetchErrors : ℕ
  previousRetryHistory : List (String × List (Option ℤ))
  previousBurst : Option PreviousBurst
  previousControllerState : Option JsObject
  governorStateEnvelope : Option Json

namespace SupervisorInput

variable (i : SupervisorInput)

def enrichedOpenPrs : List PullRequest :=
  i.pullRequests.map fun pr =>
    match i.queueStates pr.number with
    | none => pr
    | some state =>
      { pr with
        mergeStateStatus := state.mergeStateStatus.getD pr.mergeStateStatus
        isInMergeQueue := state.isInMergeQueue
        autoMergeRequest := Json.nullishOr state.autoMergeRequest pr.autoMergeRequest }

def classified : Classification := classifyOpenPullRequests i.gates i.enrichedOpenPrs

def retryHistory : RetryHistory := pruneRetryHistory i.previousRetryHistory i.now

def health : HealthGate := evaluateHealthGate i.parsedZero i.workflowRuns i.now

def runtimeFleet : RuntimeFleet × List String :=
  evaluateRuntimeFleetHealth i.fleetThresholds i.workflowRuns i.now

/-- `uniquePausedReasons`. -/
def pausedReasons : List String :=
  ((if i.pausedByVariable then ["paused-by-variable"] else []) ++
    (if governorMode i.governorStateEnvelope = .pause then ["governor-pause"] else []) ++
    i.health.reasons ++ i.runtimeFleet.2 ++
    (if i.workflowFetchErrors > 0 then ["health-workflow-fetch-errors"] else [])).eraseDups

def cycle : CycleInput where
  nowIso := i.nowIso
  repository := i.repository
  maxInflight := i.maxInflight
  minInflight := i.minInflight
  adaptiveCap := i.adaptiveCap
  successRate := some i.health.successRate
  runtimeFleet := i.runtimeFleet.1
  retryPressure := computeRetryPressure i.retryHistory i.classified.candidates.length
  burst := fun mode => (evaluateBurstWindow i.burstMode i.burstRefillCycles
    (burstTriggers i.releaseWindow (i.enrichedOpenPrs.map fun pr => (pr, i.headRefs pr.number)))
    i.previousBurst i.now mode).1
  governorMode := governorMode i.governorStateEnvelope
  governorDesiredMode := governorDesiredMode i.governorStateEnvelope
  pausedReasons := i.pausedReasons

/-- `countInflight` on the queue-managed candidates. -/
def inflight : ℕ :=
  (i.classified.candidates.filter fun c =>
    i.gates.queueManagedBranches.contains c.baseRefName &&
      isQueuedCandidate c.toParsedPullRequest).length

end SupervisorInput

/-! ### The apply loop -/

inductive QueueCommand where
  | mergeSync (number : ℕ)
  | updateBranch (number : ℕ)
  | addLabel (number : ℕ) (label : String)
  | removeLabel (number : ℕ) (label : String)
  deriving DecidableEq, Repr

def QueueCommand.line (repository : String) : QueueCommand → List String
  | mergeSync number =>
    ["node", "tools/priority/merge-sync-pr.mjs", "--pr", toString number, "--repo", repository,
      "--summary-path",
      "tests/results/_agent/queue/merge-sync-" ++ toString number ++ ".json"]
  | updateBranch number => ["gh", "pr", "update-branch", toString number, "--repo", repository]
  | addLabel number label =>
    ["gh", "pr", "edit", toString number, "--repo", repository, "--add-label", label]
  | removeLabel number label =>
    ["gh", "pr", "edit", toString number, "--repo", repository, "--remove-label", label]

def QueueCommand.submits : QueueCommand → Option ℕ
  | mergeSync number => some number
  | _ => none

structure CommandResult where
  status : ℤ
  stderr : String
  deriving DecidableEq

/-- The surroundings: how a command ends after the commands before it, and the merge
summary of a pull request on disk after these commands. -/
structure QueueEnv where
  run : List QueueCommand → QueueCommand → CommandResult
  mergeSummary : List QueueCommand → ℕ → Option Json

def isMaterializedMergeSyncSummary (summary : Option Json) : Bool :=
  Json.truthy (Json.path summary ["promotion", "materialized"])

structure QueueAttempt where
  type : String
  result : CommandResult
  deriving DecidableEq

structure QueueAction where
  number : ℕ
  status : String
  attempts : List QueueAttempt
  retriedUpdateBranch : Bool
  failureCount24h : Option ℕ
  quarantined : Bool
  deriving DecidableEq

structure ApplyState where
  commands : List QueueCommand
  retryHistory : RetryHistory
  actions : List QueueAction
  enqueuedCount : ℕ
  quarantinedCount : ℕ

/-- One merge attempt after the given commands: its outcome, and whether the merge
materialized. -/
def mergeAttempt (env : QueueEnv) (commands : List QueueCommand) (number : ℕ) :
    CommandResult × Bool :=
  let result := env.run commands (.mergeSync number)
  let summary := env.mergeSummary (commands ++ [.mergeSync number]) number
  (result, decide (result.status = 0) && isMaterializedMergeSyncSummary summary)

/-- The attempts on a candidate: whether it is merged, the attempts and the commands. -/
structure MergeOutcome where
  merged : Bool
  attempts : List QueueAttempt
  retriedUpdateBranch : Bool
  commands : List QueueCommand

/-- The merge of a candidate: one that is behind gets its branch updated and a second
attempt. -/
def mergeCandidate (env : QueueEnv) (commands : List QueueCommand) (candidate : Candidate) :
    MergeOutcome :=
  let number := candidate.number
  let first := mergeAttempt env commands number
  let afterFirst := commands ++ [.mergeSync number]
  let firstAttempt : QueueAttempt := ⟨"merge-sync", first.1⟩
  if !first.2 && candidate.mergeStateStatus = "BEHIND" then
    let updateResult := env.run afterFirst (.updateBranch number)
    let afterUpdate := afterFirst ++ [.updateBranch number]
    let updateAttempt : QueueAttempt := ⟨"update-branch", updateResult⟩
    if updateResult.status = 0 then
      let retry := mergeAttempt env afterUpdate number
      { merged := retry.2
        attempts := [firstAttempt, updateAttempt, ⟨"merge-sync-retry", retry.1⟩]
        retriedUpdateBranch := true
        commands := afterUpdate ++ [.mergeSync number] }
    else
      { merged := false, attempts := [firstAttempt, updateAttempt]
        retriedUpdateBranch := true, commands := afterUpdate }
  else
    { merged := first.2, attempts := [firstAttempt], retriedUpdateBranch := false
      commands := afterFirst }

def processCandidate (env : QueueEnv) (now : ℤ) (s : ApplyState) (candidate : Candidate) :
    ApplyState :=
  let number := candidate.number
  let outcome := mergeCandidate env s.commands candidate
  if outcome.merged then
    { commands := outcome.commands ++ [.removeLabel number "queue-blocked"]
      retryHistory := clearFailure s.retryHistory number
      actions := s.actions ++ [{
        number := number, status := "enqueued", attempts := outcome.attempts
        retriedUpdateBranch := outcome.retriedUpdateBranch, failureCount24h := none
        quarantined := false }]
      enqueuedCount := s.enqueuedCount + 1
      quarantinedCount := s.quarantinedCount }
  else
    let failure := appendFailure s.retryHistory number now
    let label := if failure.2 ≥ 2 then "queue-quarantine" else "queue-blocked"
    let labelled := env.run outcome.commands (.addLabel number label)
    let quarantined := decide (failure.2 ≥ 2) && decide (labelled.status = 0)
    { commands := outcome.commands ++ [.addLabel number label]
      retryHistory := failure.1
      actions := s.actions ++ [{
        number := number, status := "failed", attempts := outcome.attempts
        retriedUpdateBranch := outcome.retriedUpdateBranch, failureCount24h := some failure.2
        quarantined := quarantined }]
      enqueuedCount := s.enqueuedCount
      quarantinedCount := if quarantined then s.quarantinedCount + 1 else s.quarantinedCount }

/-! ### The cycle -/

/-- The report of a cycle, with the commands that it has run. -/
structure SupervisorReport where
  effectiveMaxInflight : ℕ
  inflight : ℕ
  capacity : ℕ
  paused : Bool
  pausedReasons : List String
  controllerState : JsObject
  plannedCount : ℕ
  applied : ApplyState

def supervisorReport (env : QueueEnv) (i : SupervisorInput) (adaptive : AdaptiveInflight) :
    SupervisorReport :=
  let effectiveMaxInflight := (effectiveCap i.cycle adaptive).effectiveMaxInflight
  let capacity := effectiveMaxInflight - i.inflight
  let toProcess := toProcess i.gates i.now capacity i.enrichedOpenPrs
  let paused := decide (i.pausedReasons.length > 0)
  let initial : ApplyState := ⟨[], i.retryHistory, [], 0, 0⟩
  { effectiveMaxInflight := effectiveMaxInflight
    inflight := i.inflight
    capacity := capacity
    paused := paused
    pausedReasons := i.pausedReasons
    controllerState := throughputControllerState i.cycle adaptive
    plannedCount := toProcess.length
    applied :=
      if paused || i.dryRun || !i.apply then initial
      else toProcess.foldl (processCandidate env i.now) initial }

/-- `runQueueSupervisor`. The reconciliation of deferred branch deletions, which runs no
command of the loop, and the parts of the report that only describe are left out. -/
def runQueueSupervisor (env : QueueEnv) (i : SupervisorInput) :
    Except String SupervisorReport :=
  let c := i.cycle
  (evaluateAdaptiveInflight i.maxInflight i.minInflight i.adaptiveCap c.successRate
    c.runtimeFleet c.retryPressure i.previousControllerState).map (supervisorReport env i)

def SupervisorReport.submitted (r : SupervisorReport) : List ℕ :=
  (r.applied.commands.filterMap QueueCommand.submits).dedup

/-! ### The law -/

/-- What a cycle promises about its caps and submissions. -/
structure SupervisorLaw (i : SupervisorInput) (r : SupervisorReport) : Prop where
  /-- Neither a burst nor a persisted mode lifts the cap over the maximum. -/
  cap : r.effectiveMaxInflight ≤ i.maxInflight
  /-- A stabilizing governor holds the cap at the floor. -/
  stabilize : governorMode i.governorStateEnvelope = .stabilize →
    r.effectiveMaxInflight ≤ i.minInflight
  pause : governorMode i.governorStateEnvelope = .pause → r.effectiveMaxInflight = 0
  /-- The submissions fit into what the cap leaves free. -/
  submissions : r.submitted.length ≤ r.effectiveMaxInflight - i.inflight
  /-- In flight are at most as many as before or as the maximum allows. -/
  total : i.inflight + r.submitted.length ≤ max i.inflight i.maxInflight
  /-- What is submitted is a candidate that is not queued, and an eligible one. -/
  ready : ∀ n ∈ r.submitted,
    (∃ c ∈ i.classified.candidates,
      c.number = n ∧ isQueuedCandidate c.toParsedPullRequest = false) ∧
    ∃ c ∈ i.classified.candidates, c.number = n ∧ c.eligible = true
  /-- If the numbers tell the pull requests apart, no queued and no ineligible one is
  submitted. -/
  onlyReady : (i.pullRequests.map (·.number)).Nodup → ∀ c ∈ i.classified.candidates,
    c.number ∈ r.submitted →
      isQueuedCandidate c.toParsedPullRequest = false ∧ c.eligible = true
  /-- A cycle that is paused, dry or does not apply runs no command. -/
  silent : r.paused = true ∨ i.dryRun = true ∨ i.apply = false → r.applied.commands = []

/-! ### The caps -/

theorem ModeCaps.of_le {configuredMax configuredMin : ℕ} (h : configuredMin ≤ configuredMax)
    (mode : ControllerMode) :
    (deriveModeCaps configuredMax configuredMin).of configuredMin mode ≤ configuredMax := by
  cases mode with
  | healthy => exact Nat.le_refl _
  | guarded =>
    change (max (configuredMin : ℤ) (min (configuredMax : ℤ) (configuredMax - 2))).toNat ≤ _
    omega
  | stabilize => exact h
  | fixed => exact h

/-- With the floor below the maximum the adaptive cap is evaluated, and is at most the
maximum. -/
theorem evaluateAdaptiveInflight_le {maxInflight minInflight : ℕ}
    (h : minInflight ≤ maxInflight) (adaptiveCap : Bool) (successRate : Option ℚ)
    (fleet : RuntimeFleet) (retryPressure : RetryPressure) (s : Option JsObject) :
    ∃ adaptive, evaluateAdaptiveInflight maxInflight minInflight adaptiveCap successRate fleet
      retryPressure s = .ok adaptive ∧ adaptive.effectiveMaxInflight ≤ maxInflight := by
  unfold evaluateAdaptiveInflight
  rw [if_neg (Nat.not_lt.mpr h)]
  dsimp only
  split
  · exact ⟨_, rfl, Nat.le_refl maxInflight⟩
  · generalize applyControllerHysteresis _ _ _ = hysteresis
    exact ⟨_, rfl, ModeCaps.of_le h hysteresis.mode⟩

theorem effectiveCap_le {c : CycleInput} {adaptive : AdaptiveInflight}
    (h : adaptive.effectiveMaxInflight ≤ c.maxInflight) :
    (effectiveCap c adaptive).effectiveMaxInflight ≤ c.maxInflight ∧
      (c.governorMode = .stabilize →
        (effectiveCap c adaptive).effectiveMaxInflight ≤ c.minInflight) ∧
      (c.governorMode = .pause → (effectiveCap c adaptive).effectiveMaxInflight = 0) := by
  have hburst : (if (c.burst adaptive.mode).active &&
      decide (c.maxInflight > adaptive.effectiveMaxInflight) then c.maxInflight
      else adaptive.effectiveMaxInflight) ≤ c.maxInflight := by
    split
    · exact Nat.le_refl _
    · exact h
  unfold effectiveCap
  dsimp only
  generalize (if (c.burst adaptive.mode).active &&
    decide (c.maxInflight > adaptive.effectiveMaxInflight) then c.maxInflight
    else adaptive.effectiveMaxInflight) = effective at hburst ⊢
  cases hmode : c.governorMode with
  | normal => exact ⟨hburst, nofun, nofun⟩
  | stabilize =>
    dsimp only
    split
    · exact ⟨(Nat.min_le_right _ _).trans hburst, fun _ => Nat.min_le_left _ _, nofun⟩
    · next hfloor =>
      refine ⟨hburst, fun _ => ?_, nofun⟩
      change effective ≤ c.minInflight
      omega
  | pause => exact ⟨Nat.zero_le _, nofun, fun _ => rfl⟩

/-! ### The submissions -/

section Submissions

variable {env : QueueEnv} {now : ℤ}

def submittedBy (commands : List QueueCommand) : List ℕ :=
  commands.filterMap QueueCommand.submits

@[simp] theorem submittedBy_append (xs ys : List QueueCommand) :
    submittedBy (xs ++ ys) = submittedBy xs ++ submittedBy ys := List.filterMap_append

@[simp] theorem submittedBy_nil : submittedBy [] = [] := rfl

@[simp] theorem submittedBy_cons (command : QueueCommand) (commands : List QueueCommand) :
    submittedBy (command :: commands) = command.submits.toList ++ submittedBy commands := by
  unfold submittedBy
  cases h : command.submits with
  | none => rw [List.filterMap_cons_none h]; rfl
  | some n => rw [List.filterMap_cons_some h]; rfl

variable {s : ApplyState} {c : Candidate} {n : ℕ}

theorem submittedBy_mergeCandidate {commands : List QueueCommand}
    (h : n ∈ submittedBy (mergeCandidate env commands c).commands) :
    n ∈ submittedBy commands ∨ n = c.number := by
  unfold mergeCandidate at h
  dsimp only at h
  split at h
  · split at h <;> simpa [QueueCommand.submits] using h
  · simpa [QueueCommand.submits] using h

theorem submittedBy_processCandidate (h : n ∈ submittedBy (processCandidate env now s c).commands) :
    n ∈ submittedBy s.commands ∨ n = c.number := by
  unfold processCandidate at h
  dsimp only at h
  split at h <;>
    exact submittedBy_mergeCandidate (by simpa [QueueCommand.submits] using h)

theorem submittedBy_foldl {cs : List Candidate}
    (h : n ∈ submittedBy (cs.foldl (processCandidate env now) s).commands) :
    n ∈ submittedBy s.commands ∨ n ∈ cs.map (·.number) := by
  induction cs generalizing s with
  | nil => exact .inl h
  | cons c cs ih =>
    rw [List.map_cons, List.mem_cons]
    rcases ih h with h | h
    · exact (submittedBy_processCandidate h).imp_right .inl
    · exact .inr (.inr h)

end Submissions

/-- What the plan holds: candidates that are not queued, under the number of an eligible
one. -/
theorem mem_planned {cfg : GateConfig} {now : ℤ} {pullRequests : List PullRequest}
    {c : Candidate} (h : c ∈ planned cfg now pullRequests) :
    c ∈ (classifyOpenPullRequests cfg pullRequests).candidates ∧
      isQueuedCandidate c.toParsedPullRequest = false ∧
      ∃ e ∈ (classifyOpenPullRequests cfg pullRequests).candidates,
        e.number = c.number ∧ e.eligible = true := by
  obtain ⟨hfound, hqueued⟩ := List.mem_filter.mp h
  obtain ⟨entry, hentry, hc⟩ := List.mem_filterMap.mp hfound
  obtain ⟨hentry, heligible⟩ := List.mem_filter.mp ((List.mem_insertionSort _).mp hentry)
  obtain ⟨e, he, rfl⟩ := List.mem_map.mp hentry
  rw [candidateByNumber] at hc
  have hnumber := List.find?_some hc
  simp only [decide_eq_true_eq] at hnumber
  exact ⟨List.mem_reverse.mp (List.mem_of_find?_eq_some hc), by simpa using hqueued,
    e, he, hnumber.symm, heligible⟩

section Report

variable {env : QueueEnv} {i : SupervisorInput} {adaptive : AdaptiveInflight}

theorem supervisorReport_paused :
    (supervisorReport env i adaptive).paused = decide (i.pausedReasons.length > 0) := by
  rw [supervisorReport]

theorem submitted_subset_toProcess {n : ℕ} (hn : n ∈ (supervisorReport env i adaptive).submitted) :
    ∃ c ∈ toProcess i.gates i.now (supervisorReport env i adaptive).capacity i.enrichedOpenPrs,
      c.number = n := by
  have hn : n ∈ submittedBy (supervisorReport env i adaptive).applied.commands :=
    List.mem_dedup.mp hn
  unfold supervisorReport at hn
  dsimp only at hn
  split at hn
  · simp at hn
  · exact List.mem_map.mp ((submittedBy_foldl hn).resolve_left (by simp))

theorem length_submitted_le :
    (supervisorReport env i adaptive).submitted.length ≤
      (supervisorReport env i adaptive).capacity := by
  have hsubset : (supervisorReport env i adaptive).submitted ⊆
      (toProcess i.gates i.now (supervisorReport env i adaptive).capacity
        i.enrichedOpenPrs).map (·.number) :=
    fun n hn => List.mem_map.mpr (submitted_subset_toProcess hn)
  have hsubperm := (List.nodup_dedup _).subperm hsubset
  refine hsubperm.length_le.trans ?_
  rw [List.length_map]
  exact List.length_take_le _ _

theorem ready_of_submitted {n : ℕ} (hn : n ∈ (supervisorReport env i adaptive).submitted) :
    (∃ c ∈ i.classified.candidates,
      c.number = n ∧ isQueuedCandidate c.toParsedPullRequest = false) ∧
    ∃ c ∈ i.classified.candidates, c.number = n ∧ c.eligible = true := by
  obtain ⟨c, hc, rfl⟩ := submitted_subset_toProcess hn
  obtain ⟨hmem, hqueued, e, he, hnumber, heligible⟩ := mem_planned (List.mem_of_mem_take hc)
  exact ⟨⟨c, hmem, rfl, hqueued⟩, e, he, hnumber, heligible⟩

theorem nodup_candidates (hn : (i.pullRequests.map (·.number)).Nodup) :
    (i.classified.candidates.map (·.number)).Nodup := by
  refine nodup_classifyCandidates i.gates ?_
  have hnumbers : (i.enrichedOpenPrs.map parsePullRequest).map (·.number) =
      i.pullRequests.map (·.number) := by
    rw [SupervisorInput.enrichedOpenPrs, List.map_map, List.map_map]
    refine List.map_congr_left fun pr _ => ?_
    simp only [Function.comp_apply, parsePullRequest]
    split <;> rfl
  rwa [hnumbers]

theorem supervisorLaw_of_le (hle : adaptive.effectiveMaxInflight ≤ i.maxInflight) :
    SupervisorLaw i (supervisorReport env i adaptive) := by
  have hmax : i.cycle.maxInflight = i.maxInflight := rfl
  have hmin : i.cycle.minInflight = i.minInflight := rfl
  have hmode : i.cycle.governorMode = governorMode i.governorStateEnvelope := by
    rw [SupervisorInput.cycle]
  rw [← hmax] at hle
  obtain ⟨hcap, hstabilize, hpause⟩ := effectiveCap_le hle
  have heffective : (supervisorReport env i adaptive).effectiveMaxInflight =
      (effectiveCap i.cycle adaptive).effectiveMaxInflight := by rw [supervisorReport]
  rw [hmax, ← heffective] at hcap
  rw [hmode, hmin, ← heffective] at hstabilize
  rw [hmode, ← heffective] at hpause
  have hlength := @length_submitted_le env i adaptive
  have hcapacity : (supervisorReport env i adaptive).capacity =
      (supervisorReport env i adaptive).effectiveMaxInflight - i.inflight := by
    rw [supervisorReport]
  rw [hcapacity] at hlength
  have htotal : i.inflight + (supervisorReport env i adaptive).submitted.length ≤
      max i.inflight i.maxInflight := by
    generalize (supervisorReport env i adaptive).submitted.length = n at hlength ⊢
    generalize i.inflight = inflight at hlength ⊢
    omega
  refine ⟨hcap, hstabilize, hpause, hlength, htotal, fun n hn => ready_of_submitted hn, ?_, ?_⟩
  · intro hn c hc hsubmitted
    obtain ⟨⟨d, hd, hdnumber, hqueued⟩, e, he, henumber, heligible⟩ :=
      ready_of_submitted hsubmitted
    have hinj := List.inj_on_of_nodup_map (nodup_candidates hn)
    obtain rfl := hinj hd hc hdnumber
    obtain rfl := hinj he hc henumber
    exact ⟨hqueued, heligible⟩
  · intro hidle
    have hcondition : (decide (i.pausedReasons.length > 0) || i.dryRun || !i.apply) = true := by
      rw [supervisorReport_paused] at hidle
      rcases hidle with h | h | h <;> simp only [h, Bool.true_or, Bool.or_true, Bool.not_false]
    unfold supervisorReport
    dsimp only
    rw [if_pos hcondition]

end Report

/-- **A cycle of the queue supervisor.** Whatever it reads and however its commands are
answered, its caps and submissions keep to the law. -/
theorem supervisor_bounded (env : QueueEnv) (i : SupervisorInput)
    (h : i.minInflight ≤ i.maxInflight) :
    ∃ r, runQueueSupervisor env i = .ok r ∧ SupervisorLaw i r := by
  obtain ⟨adaptive, hadaptive, hle⟩ := evaluateAdaptiveInflight_le h i.adaptiveCap
    i.cycle.successRate i.cycle.runtimeFleet i.cycle.retryPressure i.previousControllerState
  unfold runQueueSupervisor
  dsimp only
  rw [hadaptive]
  exact ⟨_, rfl, supervisorLaw_of_le hle⟩

def promptEnv : QueueEnv where
  run := fun _ _ => ⟨0, ""⟩
  mergeSummary := fun _ _ => some (.obj [("promotion", .obj [("materialized", .bool true)])])

/-- A cycle over three pull requests with a burst, a maximum of two and nothing in
flight. -/
def burstCycle : SupervisorInput where
  repository := "owner/repo"
  apply := true
  dryRun := false
  maxInflight := 2
  minInflight := 1
  adaptiveCap := true
  fleetThresholds := ⟨6, 8, 45⟩
  burstMode := .on
  burstRefillCycles := 3
  gates := developOnly
  pausedByVariable := false
  now := 0
  nowIso := "1970-01-01T00:00:00.000Z"
  parsedZero := 946684800000
  releaseWindow := false
  pullRequests := [plainPullRequest 1 false "", plainPullRequest 2 false "",
    plainPullRequest 3 false ""]
  headRefs := fun _ => ""
  queueStates := fun _ => none
  workflowRuns := [⟨"completed", "success", some 0, some 0⟩]
  workflowFetchErrors := 0
  previousRetryHistory := []
  previousBurst := none
  previousControllerState := none
  governorStateEnvelope := none

/-- The cycle with the burst keeps to the law. -/
theorem supervisor_bounded_burstCycle :
    ∃ r, runQueueSupervisor promptEnv burstCycle = .ok r ∧ SupervisorLaw burstCycle r :=
  supervisor_bounded promptEnv burstCycle (by decide)

end CompareVI.Queue
