import CompareVI.Framework.JsString
import Mathlib.Data.List.Infix

/-!
# Applying a plan of concurrent lanes and observing it

`concurrent-lane-apply` takes the recommended bundle of a plan, dispatches the Validate
workflow if a hosted lane is in it, and writes a receipt (`applyConcurrentLanePlan`).
`concurrent-lane-status` reads that receipt, asks GitHub about the run and about a pull
request, and says what the orchestrator may do with the worker slot
(`observeConcurrentLaneStatus`).

The projection of the execution bundle, the classification of idle lanes and what the
receipts copy of the run and of the pull request (titles, dates, urls) are left out: no
decision depends on them.
-/

open Framework

namespace CompareVI.Lanes

/-! ### The plan -/

structure Lane where
  id : String
  laneClass : String
  executionPlane : String
  resourceGroup : String
  availability : String
  reasons : List String
  metadata : Json

structure Bundle where
  id : String
  classification : String
  laneIds : List String
  reasons : List String

structure Plan where
  schema : Option String
  repository : Option String
  /-- `summary.recommendedBundleId`. -/
  recommendedBundleId : Option String
  recommendedBundle : Option Bundle
  lanes : List Lane
  observations : List String

def CONCURRENT_LANE_PLAN_SCHEMA : String := "priority/concurrent-lane-plan@v1"

/-- The lane runs on a hosted runner. -/
def Lane.Hosted (lane : Lane) : Prop := lane.executionPlane = "hosted"

instance : DecidablePred Lane.Hosted := fun _ => inferInstanceAs (Decidable (_ = _))

/-! ### The input of an application -/

structure ApplyOptions where
  ref : Option String
  sampleId : Option String
  historyScenarioSet : Option String
  allowFork : Bool
  pushMissing : Bool
  forcePushOk : Bool
  allowNonCanonicalViHistory : Bool
  allowNonCanonicalHistoryCore : Bool
  dryRun : Bool
  recomputePlan : Bool

/-- What `dispatchValidate` returns. -/
structure DispatchResult where
  repo : Option String
  remote : Option String
  ref : Option String
  sampleId : Option String
  historyScenarioSet : Option String
  /-- `run?.databaseId`. -/
  databaseId : Option Json

/-- How `dispatchValidate` ends: it throws, before or after GitHub took the request for a
run, or it returns after GitHub took it. -/
inductive ValidateOutcome where
  | threw (dispatched : Bool) (message : String)
  | returned (result : DispatchResult)

def ValidateOutcome.Dispatched : ValidateOutcome → Prop
  | threw dispatched _ => dispatched = true
  | returned _ => True

inductive PlanFile where
  | missing (isDefault : Bool)
  | unreadable (message : String)
  | read (plan : Plan)

structure ApplyInput where
  options : ApplyOptions
  planFile : PlanFile
  recomputed : Except String Plan
  dispatchValidate : List String → ValidateOutcome
  /-- `writeValidateDispatchReport`: the path of the report. -/
  writeReport : DispatchResult → Except String (Option String)
  writeReceipt : Except String Unit

/-! ### The receipt of an application -/

inductive Decision where
  | dispatched
  | plannedDispatch
  | blocked
  | deferred
  deriving DecidableEq, Repr

structure SelectedLane extends Lane where
  decision : Decision

inductive DispatchStatus where
  | notRequired
  | dryRun
  | dispatched
  | failed
  deriving DecidableEq, Repr

/-- The `validateDispatch` of a receipt. -/
structure ValidateDispatch where
  status : DispatchStatus
  command : List String
  repository : Option String
  remote : Option String
  ref : Option String
  sampleIdStrategy : String
  sampleId : Option String
  historyScenarioSet : String
  allowFork : Bool
  pushMissing : Bool
  forcePushOk : Bool
  allowNonCanonicalViHistory : Bool
  allowNonCanonicalHistoryCore : Bool
  reportPath : Option String
  runDatabaseId : Option Json
  error : Option String

inductive ApplyStatus where
  | noop
  | succeeded
  | failed
  deriving DecidableEq, Repr

structure ApplySummary where
  selectedBundleId : Option String
  selectedLaneCount : ℕ
  hostedDispatchCount : ℕ
  hostedLaneIds : List String
  deferredLaneIds : List String
  manualLaneIds : List String
  shadowLaneIds : List String

structure ApplyReceipt where
  repository : Option String
  status : ApplyStatus
  planSource : String
  planSchema : Option String
  recommendedBundleId : Option String
  selectedBundle : Option Bundle
  validateDispatch : ValidateDispatch
  selectedLanes : List SelectedLane
  observations : List String
  summary : ApplySummary

/-! ### The application -/

/-- `value || 'smoke'` on the scenario set. -/
def scenarioSet (options : ApplyOptions) : String :=
  orText (JsString.trim (options.historyScenarioSet.getD "")) "smoke"

def dispatchArgs (options : ApplyOptions) : List String :=
  (match options.ref with
    | some ref => if ref = "" then [] else ["--ref", ref]
    | none => []) ++
  (match optionText options.sampleId with
    | some sampleId => ["--sample-id", sampleId]
    | none => []) ++
  ["--history-scenario-set", scenarioSet options] ++
  (if options.allowFork then ["--allow-fork"] else []) ++
  (if options.pushMissing then ["--push-missing"] else []) ++
  (if options.forcePushOk then ["--force-push-ok"] else []) ++
  (if options.allowNonCanonicalViHistory then ["--allow-noncanonical-vi-history"] else []) ++
  (if options.allowNonCanonicalHistoryCore then ["--allow-noncanonical-history-core"] else [])

def buildValidateDispatchArgv (options : ApplyOptions) : List String :=
  ["node", "dispatch-validate.mjs"] ++ dispatchArgs options

def buildValidateHelperCommand (options : ApplyOptions) : List String :=
  ["node", "tools/npm/run-script.mjs", "priority:validate", "--"] ++ dispatchArgs options

/-- `loadOrBuildPlan`, with the source of the plan. -/
def loadOrBuildPlan (i : ApplyInput) : Except String (Plan × String) :=
  let recomputed := i.recomputed.map fun plan => (plan, "recomputed")
  if i.options.recomputePlan then recomputed
  else
    match i.planFile with
    | .missing isDefault => if isDefault then recomputed else .error "ENOENT"
    | .unreadable message => .error message
    | .read plan =>
      if plan.schema = some CONCURRENT_LANE_PLAN_SCHEMA then .ok (plan, "file")
      else .error ("Concurrent lane plan has schema '" ++ plan.schema.getD "unknown" ++
        "'; expected '" ++ CONCURRENT_LANE_PLAN_SCHEMA ++ "'.")

/-- The dispatch of a receipt before anything is tried. -/
def initialDispatch (options : ApplyOptions) : ValidateDispatch where
  status := .notRequired
  command := buildValidateHelperCommand options
  repository := none
  remote := none
  ref := optionText options.ref
  sampleIdStrategy := if (optionText options.sampleId).isSome then "explicit" else "auto"
  sampleId := optionText options.sampleId
  historyScenarioSet := scenarioSet options
  allowFork := options.allowFork
  pushMissing := options.pushMissing
  forcePushOk := options.forcePushOk
  allowNonCanonicalViHistory := options.allowNonCanonicalViHistory
  allowNonCanonicalHistoryCore := options.allowNonCanonicalHistoryCore
  reportPath := none
  runDatabaseId := none
  error := none

/-- `laneMap.get(laneId)`: the last lane of the plan with the id. -/
def Plan.lane? (plan : Plan) (laneId : String) : Option Lane :=
  plan.lanes.reverse.find? (·.id = laneId)

def selectRawLane (plan : Plan) (bundle : Bundle) (laneId : String) : Except String Lane :=
  match plan.lane? laneId with
  | some lane => .ok lane
  | none =>
    .error ("Concurrent lane plan bundle '" ++ bundle.id ++ "' references unknown lane '" ++
      laneId ++ "'.")

def selectRawLanes (plan : Plan) (bundle : Bundle) : Except String (List Lane) :=
  bundle.laneIds.mapM (selectRawLane plan bundle)

def errorText (message : String) : String := orText message "Error"

def ValidateDispatch.fail (before : ValidateDispatch) (message : String) : ValidateDispatch :=
  { before with status := .failed, error := some (errorText message) }

/-- The dispatch of the hosted lanes: `dispatchValidate`, then its report. -/
def dispatchHosted (i : ApplyInput) : ValidateDispatch :=
  let before := initialDispatch i.options
  match i.dispatchValidate (buildValidateDispatchArgv i.options) with
  | .threw _ message => before.fail message
  | .returned result =>
    match i.writeReport result with
    | .error message => before.fail message
    | .ok reportPath =>
      { before with
        status := .dispatched
        repository := result.repo
        remote := result.remote
        ref := result.ref.or before.ref
        sampleId := result.sampleId.or before.sampleId
        historyScenarioSet := result.historyScenarioSet.getD before.historyScenarioSet
        reportPath := reportPath
        runDatabaseId := result.databaseId }

def validateDispatch (i : ApplyInput) (lanes : List Lane) : ValidateDispatch :=
  if lanes.filter (·.Hosted) = [] then initialDispatch i.options
  else if i.options.dryRun then { initialDispatch i.options with status := .dryRun }
  else dispatchHosted i

def laneDecision (dispatch : DispatchStatus) (lane : Lane) : Decision :=
  if lane.Hosted then
    match dispatch with
    | .dispatched => .dispatched
    | .dryRun => .plannedDispatch
    | _ => .blocked
  else .deferred

def cloneLaneForReceipt (lane : Lane) (decision : Decision) : SelectedLane :=
  { lane with decision := decision }

def buildConcurrentLaneApplyReceipt (plan : Plan) (planSource : String)
    (selectedBundle : Option Bundle) (selectedLanes : List SelectedLane)
    (dispatch : ValidateDispatch) (status : ApplyStatus) : ApplyReceipt :=
  let ids := fun (lanes : List SelectedLane) => lanes.map (·.id)
  let hosted := selectedLanes.filter fun lane => lane.toLane.Hosted
  let deferred := selectedLanes.filter fun lane => lane.decision = .deferred
  { repository := optionText plan.repository
    status := status
    planSource := planSource
    planSchema := optionText plan.schema
    recommendedBundleId := (optionText plan.recommendedBundleId).or
      ((plan.recommendedBundle.map (·.id)).bind optionalTrim)
    selectedBundle := selectedBundle
    validateDispatch := dispatch
    selectedLanes := selectedLanes
    observations := plan.observations
    summary :=
      { selectedBundleId := selectedBundle.map (·.id)
        selectedLaneCount := selectedLanes.length
        hostedDispatchCount := if dispatch.status = .dispatched then hosted.length else 0
        hostedLaneIds := ids hosted
        deferredLaneIds := ids deferred
        manualLaneIds := ids (deferred.filter fun lane => lane.executionPlane = "local")
        shadowLaneIds := ids (deferred.filter fun lane => lane.executionPlane = "local-shadow") } }

def applyPlan (i : ApplyInput) (plan : Plan) (planSource : String) : Except String ApplyReceipt :=
  match plan.recommendedBundle with
  | none =>
    .ok (buildConcurrentLaneApplyReceipt plan planSource none [] (initialDispatch i.options) .noop)
  | some bundle =>
    (selectRawLanes plan bundle).map fun lanes =>
      let dispatch := validateDispatch i lanes
      buildConcurrentLaneApplyReceipt plan planSource (some bundle)
        (lanes.map fun lane => cloneLaneForReceipt lane (laneDecision dispatch.status lane))
        dispatch (if dispatch.status = .failed then .failed else .succeeded)

/-- `applyConcurrentLanePlan`: the receipt that is written. -/
def applyConcurrentLanePlan (i : ApplyInput) : Except String ApplyReceipt := do
  let (plan, planSource) ← loadOrBuildPlan i
  let receipt ← applyPlan i plan planSource
  i.writeReceipt
  pure receipt

/-! ### The input of an observation -/

/-- The input of an observation: its options, and how GitHub answers. -/
structure StatusInput where
  repo : Option String
  pr : Option String
  ref : Option String
  ghCli : Except String Unit
  /-- `resolveUpstream`: the owner and the name. -/
  upstream : Except String (Option (String × String))
  /-- `repos/<repository>/actions/runs/<id>`. -/
  run : String → ℕ → Except String Json
  /-- `pr view <number or ref> --repo <repository>`. -/
  pullRequest : String → Option String → Except String Json
  /-- The query for the entry of the merge queue. -/
  mergeQueue : String → ℕ → Except String Json
  writes : Except String Unit

/-! ### The hosted run -/

def coercePositiveInteger (value : Option Json) : Option ℕ :=
  (Json.toNumber? value).bind fun q => if q.den = 1 ∧ 0 < q.num then some q.num.toNat else none

def normalizeLower (value : Option String) : String :=
  JsString.toLowerCase (JsString.trim (value.getD ""))

def ACTIVE_RUN_STATUSES : List String :=
  ["queued", "in_progress", "pending", "requested", "waiting"]

def SUCCESSFUL_CONCLUSIONS : List String := ["success", "neutral", "skipped"]

inductive HostedStatus where
  | notObserved
  | notRequired
  | planned
  | active
  | completed
  | failed
  | unknown
  deriving DecidableEq, Repr

structure HostedRun where
  observationStatus : HostedStatus
  runId : Option ℕ
  status : Option String
  conclusion : Option String
  error : Option String

def classifyRun (status conclusion : Option String) : HostedStatus :=
  if normalizeLower status ∈ ACTIVE_RUN_STATUSES then .active
  else if normalizeLower status = "completed" then
    if normalizeLower conclusion ∈ SUCCESSFUL_CONCLUSIONS then .completed else .failed
  else .unknown

def classifyHostedRunObservation (run : Option HostedRun) (observationError : Option String)
    (dispatch : DispatchStatus) : HostedStatus :=
  match dispatch with
  | .dryRun => .planned
  | .failed => .failed
  | .notRequired => .notRequired
  | .dispatched =>
    if observationError.any (· ≠ "") then .failed
    else
      match run with
      | none => .unknown
      | some run => classifyRun run.status run.conclusion

def HostedRun.notObserved (runId : Option ℕ) : HostedRun := ⟨.notObserved, runId, none, none, none⟩

def observeHostedRun (o : StatusInput) (repository : Option String) (runId : Option Json) :
    HostedRun :=
  match coercePositiveInteger runId, optionText repository with
  | some id, some _ =>
    match o.run (repository.getD "") id with
    | .error message => ⟨.failed, some id, none, none, some (errorText message)⟩
    | .ok payload =>
      let status := Json.optionText (Json.path (some payload) ["status"])
      let conclusion := Json.optionText (Json.path (some payload) ["conclusion"])
      ⟨classifyRun status conclusion, some id, status, conclusion, none⟩
  | id, _ => .notObserved id

/-! ### The pull request -/

inductive PullRequestStatus where
  | notRequested
  | notFound
  | isOpen
  | queued
  | merged
  | closed
  | error
  deriving DecidableEq, Repr

structure PullRequest where
  observationStatus : PullRequestStatus
  number : Option ℕ
  error : Option String

structure Selector where
  number : Option ℕ
  ref : Option String

def buildPullRequestSelector (o : StatusInput) (applied : ApplyReceipt) : Selector :=
  match coercePositiveInteger (o.pr.map Json.str) with
  | some number => ⟨some number, none⟩
  | none => ⟨none, (optionText o.ref).or (optionText applied.validateDispatch.ref)⟩

def isNotFoundError (message : String) : Bool :=
  let message := JsString.toLowerCase (JsString.trim message)
  decide ("not found".toList <:+: message.toList) ||
    decide ("could not resolve to a pull request".toList <:+: message.toList)

def lookupPullRequestByRef (o : StatusInput) (repository ref : Option String) :
    Except String (Option Json) :=
  match optionText ref, optionText repository with
  | some ref, some _ =>
    match o.pullRequest ref repository with
    | .ok payload => .ok (some payload)
    | .error message => if isNotFoundError message then .ok none else .error message
  | _, _ => .ok none

def lookupPullRequest (o : StatusInput) (repository : Option String) (selector : Selector) :
    Except String (Option (Json × ℕ)) :=
  match selector.number with
  | some number =>
    (o.pullRequest (toString number) repository).map fun payload =>
      if payload.isTruthy then some (payload, number) else none
  | none =>
    (lookupPullRequestByRef o repository selector.ref).map fun payload =>
      (payload.filter Json.isTruthy).bind fun payload =>
        (coercePositiveInteger (Json.path (some payload) ["number"])).map fun number =>
          (payload, number)

def classifyPullRequest (mergeQueueEntry state : Option Json) : PullRequestStatus :=
  let state := normalizeLower (Json.optionText state)
  if Json.truthy mergeQueueEntry then .queued
  else if state = "merged" then .merged
  else if state = "closed" then .closed
  else .isOpen

/-- The body of `observePullRequest`, which may throw. -/
def requestPullRequest (o : StatusInput) (repository : Option String) (selector : Selector) :
    Except String PullRequest := do
  match ← lookupPullRequest o repository selector with
  | none => pure ⟨.notFound, none, none⟩
  | some (payload, number) =>
    match repository with
    | none => .error "Cannot read properties of null (reading 'split')"
    | some repository =>
      let queue ← o.mergeQueue repository number
      pure ⟨classifyPullRequest
        (Json.path (some queue) ["data", "repository", "pullRequest", "mergeQueueEntry"])
        (Json.path (some payload) ["state"]), some number, none⟩

def observePullRequest (o : StatusInput) (repository : Option String) (selector : Selector) :
    PullRequest :=
  if selector.number = none ∧ optionText selector.ref = none then ⟨.notRequested, none, none⟩
  else
    match requestPullRequest o repository selector with
    | .ok pullRequest => pullRequest
    | .error message => ⟨.error, selector.number, some (errorText message)⟩

/-! ### The receipt of an observation -/

inductive RuntimeStatus where
  | planned
  | active
  | completed
  | failed
  | blocked
  | deferred
  | unknown
  deriving DecidableEq, Repr

def projectHostedLaneStatus (lane : SelectedLane) (hosted : HostedStatus) : RuntimeStatus :=
  if lane.Hosted then
    match lane.decision with
    | .blocked => .blocked
    | .plannedDispatch => .planned
    | .deferred => .unknown
    | .dispatched =>
      match hosted with
      | .active => .active
      | .completed => .completed
      | .failed => .failed
      | .planned => .planned
      | _ => .unknown
  else
    match lane.decision with
    | .deferred => .deferred
    | .blocked => .blocked
    | _ => .unknown

structure LaneStatus extends SelectedLane where
  runtimeStatus : RuntimeStatus

inductive ReceiptStatus where
  | active
  | settled
  | failed
  deriving DecidableEq, Repr

def determineReceiptStatus (applied : ApplyStatus) (hosted : HostedStatus)
    (pullRequest : PullRequestStatus) (observationErrors : List String) : ReceiptStatus :=
  if applied = .failed then .failed
  else if hosted = .failed then .failed
  else if pullRequest = .error then .failed
  else if observationErrors.length > 0 then .failed
  else if hosted = .active then .active
  else .settled

inductive Disposition where
  | holdInvestigate
  | waitHostedRun
  | releaseMergeQueue
  | releaseWithDeferredLocal
  | releaseComplete
  deriving DecidableEq, Repr

def determineOrchestratorDisposition (receipt : ReceiptStatus) (hosted : HostedStatus)
    (pullRequest : PullRequestStatus) (deferredLaneCount : ℕ) : Disposition :=
  if receipt = .failed then .holdInvestigate
  else if hosted = .active then .waitHostedRun
  else if pullRequest = .queued then .releaseMergeQueue
  else if deferredLaneCount > 0 then .releaseWithDeferredLocal
  else .releaseComplete

def laneCount (lanes : List LaneStatus) (status : RuntimeStatus) : ℕ :=
  (lanes.filter (·.runtimeStatus = status)).length

structure StatusSummary where
  laneCount : ℕ
  activeLaneCount : ℕ
  completedLaneCount : ℕ
  failedLaneCount : ℕ
  blockedLaneCount : ℕ
  plannedLaneCount : ℕ
  deferredLaneCount : ℕ
  orchestratorDisposition : Disposition

structure StatusReceipt where
  repository : Option String
  status : ReceiptStatus
  hostedRun : HostedRun
  pullRequest : PullRequest
  laneStatuses : List LaneStatus
  observationErrors : List String
  summary : StatusSummary

def buildConcurrentLaneStatusReceipt (applied : ApplyReceipt) (hostedRun : HostedRun)
    (pullRequest : PullRequest) (laneStatuses : List LaneStatus)
    (observationErrors : List String) (status : ReceiptStatus) : StatusReceipt where
  repository := (optionText applied.repository).or (optionText applied.validateDispatch.repository)
  status := status
  hostedRun := hostedRun
  pullRequest := pullRequest
  laneStatuses := laneStatuses
  observationErrors := observationErrors
  summary :=
    { laneCount := laneStatuses.length
      activeLaneCount := laneCount laneStatuses .active
      completedLaneCount := laneCount laneStatuses .completed
      failedLaneCount := laneCount laneStatuses .failed
      blockedLaneCount := laneCount laneStatuses .blocked
      plannedLaneCount := laneCount laneStatuses .planned
      deferredLaneCount := laneCount laneStatuses .deferred
      orchestratorDisposition := determineOrchestratorDisposition status
        hostedRun.observationStatus pullRequest.observationStatus
        (laneCount laneStatuses .deferred) }

/-! ### The observation -/

def resolveRepository (o : StatusInput) (applied : ApplyReceipt) : Except String (Option String) :=
  match (optionText o.repo).or ((optionText applied.repository).or
      (optionText applied.validateDispatch.repository)) with
  | some repository => .ok (some repository)
  | none => o.upstream.map fun upstream => upstream.bind fun (owner, repo) =>
    if owner = "" ∨ repo = "" then none else some (owner ++ "/" ++ repo)

def hostedRunOf (o : StatusInput) (repository : Option String) (applied : ApplyReceipt) :
    HostedRun :=
  let raw := observeHostedRun o repository applied.validateDispatch.runDatabaseId
  { raw with
    observationStatus :=
      classifyHostedRunObservation (some raw) raw.error applied.validateDispatch.status }

def laneStatusesOf (applied : ApplyReceipt) (hosted : HostedStatus) : List LaneStatus :=
  applied.selectedLanes.map fun lane =>
    { lane with runtimeStatus := projectHostedLaneStatus lane hosted }

def observeLanes (o : StatusInput) (repository : Option String) (applied : ApplyReceipt) :
    StatusReceipt :=
  let hostedRun := hostedRunOf o repository applied
  let pullRequest := observePullRequest o repository (buildPullRequestSelector o applied)
  let observationErrors := ([hostedRun.error, pullRequest.error].filterMap id).filter (· ≠ "")
  buildConcurrentLaneStatusReceipt applied hostedRun pullRequest
    (laneStatusesOf applied hostedRun.observationStatus) observationErrors
    (determineReceiptStatus applied.status hostedRun.observationStatus
      pullRequest.observationStatus observationErrors)

def usesGitHub (o : StatusInput) (applied : ApplyReceipt) : Bool :=
  (coercePositiveInteger applied.validateDispatch.runDatabaseId).isSome ||
    (buildPullRequestSelector o applied).number.isSome ||
    (buildPullRequestSelector o applied).ref.isSome

/-- `ensureGhCli`, where GitHub is asked. -/
def ensureGhCli (o : StatusInput) (applied : ApplyReceipt) : Except String Unit :=
  if usesGitHub o applied then o.ghCli else .ok ()

/-- `observeConcurrentLaneStatus`, on the receipt of an application. -/
def observeConcurrentLaneStatus (o : StatusInput) (applied : ApplyReceipt) :
    Except String StatusReceipt := do
  let repository ← resolveRepository o applied
  ensureGhCli o applied
  o.writes
  pure (observeLanes o repository applied)

end CompareVI.Lanes
