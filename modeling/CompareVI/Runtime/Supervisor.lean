import CompareVI.Framework.Ends
import CompareVI.Framework.Stored
import CompareVI.Runtime.Overlap

/-!
# The runtime supervisor as a program

`runRuntimeSupervisor` with everything it asks of its surroundings: the files of the runtime
directory, any operation on which may fail, and the two functions of the lease. `Harness` has
what the actions make of the loaded copy; here is the order in which an action asks, and what
it writes.

A file is named by its part in the directory, and the file of a turn by the turn. The worker
records are given as normalised, so that their summaries are the records.
-/

open Framework

namespace CompareVI.Runtime

/-! ### The lease -/

structure LeaseOptions where
  scope : String
  owner : String
  leaseRoot : Option String
  deriving DecidableEq

/-- An answer of the lease functions. The `leaseId` is in `lease` or beside it. -/
structure LeaseResult where
  action : Option String
  status : Option String
  scope : Option String
  owner : Option String
  lease : Option (Option String)
  leaseId : Option String
  checkedAt : Option String
  deriving DecidableEq

structure LeaseSummary where
  action : Option String
  status : Option String
  scope : Option String
  owner : Option String
  leaseId : Option String
  checkedAt : Option String
  deriving DecidableEq

/-- `result.lease?.leaseId ?? result.leaseId`. -/
def LeaseResult.acquiredId (result : LeaseResult) : Option String :=
  result.lease.join.or result.leaseId

def summarizeLease (result : Option LeaseResult) : Option LeaseSummary :=
  result.map fun result => {
    action := result.action
    status := result.status
    scope := result.scope
    owner := result.owner
    leaseId := result.acquiredId
    checkedAt := result.checkedAt }

def isLeaseSuccess (result : Option LeaseResult) : Bool :=
  (result.bind (·.status)).any fun status => status ∈ ["acquired", "renewed", "takeover"]

/-! ### What is written and reported -/

/-- The options of a run that the lease needs, beside those of `RunContext`. `leaseRoot` is
resolved. -/
structure SupervisorContext extends RunContext where
  leaseScope : Option String
  leaseRoot : Option String
  deriving DecidableEq

def leaseOptions (ctx : SupervisorContext) : LeaseOptions where
  scope := orText (ctx.leaseScope.getD "") "workspace"
  owner := ctx.owner
  leaseRoot := ctx.leaseRoot.bind fun root => if root = "" then none else some root

structure TurnArtifacts where
  lanePath : Option String
  blockerPath : Option String
  workerPath : Option Json
  workerArtifactPath : Option Json
  workerReadyPath : Option Json
  workerReadyArtifactPath : Option Json
  workerBranchPath : Option Json
  workerBranchArtifactPath : Option Json
  taskPacketPath : Option Json
  taskPacketHistoryPath : Option Json
  deriving DecidableEq

structure Turn where
  generatedAt : ℤ
  cycle : ℕ
  repository : String
  runtimeAdapter : String
  outcome : StepOutcome
  stopRequested : Bool
  acquire : Option LeaseSummary
  activeLane : Option ActiveLane
  artifacts : TurnArtifacts
  deriving DecidableEq

inductive RuntimeEvent where
  | stop (timestamp : ℤ) (owner reason : String)
  | resume (timestamp : ℤ) (owner : String)
  | leaseBlocked (timestamp : ℤ) (leaseStatus : Option String)
  | step (timestamp : ℤ) (outcome : StepOutcome) (cycle : ℕ) (laneId : Option String)
      (issue epic : Option ℤ) (blockerClass : String) (stopRequested : Bool)
  deriving DecidableEq

inductive ReportOutcome where
  | status
  | stopRequested
  | resumed
  | step (outcome : StepOutcome)
  deriving DecidableEq

/-- What an action returns. A lease is reported by what its two functions answered. -/
structure SupervisorReport where
  exitCode : ℕ
  blocked : Bool
  outcome : ReportOutcome
  stopRequest : Option StopRequest
  acquire : Option LeaseSummary
  release : Option LeaseSummary
  turn : Option Turn
  lane : Option LaneRecord
  state : RuntimeState
  deriving DecidableEq

def buildBlockerPayload (lane : LaneRecord) (blocker : LaneBlocker) (now : ℤ) :
    BlockerPayload where
  generatedAt := now
  laneId := lane.laneId
  issue := lane.issue
  epic := lane.epic
  forkRemote := lane.forkRemote
  branch := lane.branch
  blockerClass := blocker.blockerClass
  reason := blocker.reason

def laneFile (lane : LaneRecord) : String := sanitizeSegment lane.laneId ++ ".json"

def buildTurn (ctx : SupervisorContext) (acquire : Option LeaseResult) (stopRequested : Bool)
    (lane : Option LaneRecord) (paths : Option String × Option String) (outcome : StepOutcome)
    (state : RuntimeState) : Turn where
  generatedAt := ctx.now
  cycle := state.lifecycle.cycle
  repository := state.repository
  runtimeAdapter := state.runtimeAdapter
  outcome := outcome
  stopRequested := stopRequested
  acquire := summarizeLease acquire
  activeLane := lane.map buildActiveLaneSummary
  artifacts := {
    lanePath := paths.1
    blockerPath := paths.2
    workerPath := Json.path (lane.bind (·.worker)) ["checkoutPath"]
    workerArtifactPath := Json.path (lane.bind (·.worker)) ["artifacts", "lanePath"]
    workerReadyPath := Json.path (lane.bind (·.workerReady)) ["artifacts", "latestPath"]
    workerReadyArtifactPath := Json.path (lane.bind (·.workerReady)) ["artifacts", "lanePath"]
    workerBranchPath := Json.path (lane.bind (·.workerBranch)) ["artifacts", "latestPath"]
    workerBranchArtifactPath := Json.path (lane.bind (·.workerBranch)) ["artifacts", "lanePath"]
    taskPacketPath := Json.path (lane.bind (·.taskPacket)) ["artifacts", "latestPath"]
    taskPacketHistoryPath := Json.path (lane.bind (·.taskPacket)) ["artifacts", "historyPath"] }

def stepEvent (ctx : SupervisorContext) (stopRequested : Bool) (lane : Option LaneRecord)
    (outcome : StepOutcome) (state : RuntimeState) : RuntimeEvent :=
  .step ctx.now outcome state.lifecycle.cycle (lane.map (·.laneId)) (lane.bind (·.issue))
    (lane.bind (·.epic)) (((lane.bind (·.blocker)).map (·.blockerClass)).getD "none")
    stopRequested

/-! ### The programs -/

inductive SupervisorQuery where
  | ensureRuntimeLayout
  | readState
  | readLegacyState
  | writeState (state : RuntimeState)
  | readStopRequest
  | writeStopRequest (request : StopRequest)
  | removeStopRequest
  | acquireWriterLease (options : LeaseOptions)
  | releaseWriterLease (options : LeaseOptions) (leaseId : Option String)
  | writeLane (lane : LaneRecord)
  | lastBlockerExists
  | writeLastBlocker (payload : BlockerPayload)
  | removeLastBlocker
  | countLanes
  | writeTurn (turn : Turn)
  | recordEvent (event : RuntimeEvent)
  deriving DecidableEq

def SupervisorQuery.Reply : SupervisorQuery → Type
  | readState | readLegacyState => Option RuntimeState
  | readStopRequest => Option StopRequest
  | acquireWriterLease _ | releaseWriterLease _ _ => Option LeaseResult
  | lastBlockerExists => Bool
  | countLanes => ℕ
  | ensureRuntimeLayout | writeState _ | writeStopRequest _ | removeStopRequest | writeLane _
  | writeLastBlocker _ | removeLastBlocker | writeTurn _ | recordEvent _ => Unit

abbrev Supervised (α : Type) : Type :=
  Prog SupervisorQuery (fun q => Except String q.Reply) α

abbrev askRuntime (q : SupervisorQuery) : Supervised q.Reply := Prog.call q

/-- `loadState`. -/
def load (ctx : SupervisorContext) : Supervised RuntimeState := do
  let existing ← askRuntime .readState
  match existing with
  | some persisted => pure (loadState ctx.toRunContext (some persisted))
  | none => do
    let legacy ← askRuntime .readLegacyState
    pure (loadState ctx.toRunContext legacy)

/-- `finalizeState`. -/
def finalize (ctx : SupervisorContext) (state : RuntimeState) : Supervised RuntimeState := do
  let trackedLaneCount ← askRuntime .countLanes
  let blockerPresent ← askRuntime .lastBlockerExists
  let final := finalizeState ctx.toRunContext ⟨trackedLaneCount, blockerPresent⟩ state
  askRuntime (.writeState final)
  pure final

def removeBlocker (present : Bool) : Supervised Unit :=
  if present then askRuntime .removeLastBlocker else pure ()

def writeLastBlocker (lane : Option LaneRecord) (now : ℤ) : Supervised (Option String) :=
  match lane.bind fun lane => lane.blocker.map fun blocker => buildBlockerPayload lane blocker now
    with
  | some payload => do
    askRuntime (.writeLastBlocker payload)
    pure (some "last-blocker.json")
  | none => do
    let present ← askRuntime .lastBlockerExists
    removeBlocker present
    pure none

def runStatusAction (ctx : SupervisorContext) (state : RuntimeState) :
    Supervised SupervisorReport := do
  let stopRequest ← askRuntime .readStopRequest
  let final ← finalize ctx (applyStatus ctx.toRunContext stopRequest state)
  pure ⟨0, false, .status, none, none, none, none, none, final⟩

def runStopAction (ctx : SupervisorContext) (state : RuntimeState) :
    Supervised SupervisorReport := do
  let stopRequest := buildStopRequest ctx.toRunContext
  askRuntime (.writeStopRequest stopRequest)
  let final ← finalize ctx (applyStop ctx.toRunContext state)
  askRuntime (.recordEvent (.stop ctx.now ctx.owner stopRequest.reason))
  pure ⟨0, false, .stopRequested, some stopRequest, none, none, none, none, final⟩

def runResumeAction (ctx : SupervisorContext) (state : RuntimeState) :
    Supervised SupervisorReport := do
  askRuntime .removeStopRequest
  let final ← finalize ctx (applyResume ctx.toRunContext state)
  askRuntime (.recordEvent (.resume ctx.now ctx.owner))
  pure ⟨0, false, .resumed, none, none, none, none, none, final⟩

def blockedStep (ctx : SupervisorContext) (acquire : Option LeaseResult) (state : RuntimeState) :
    Supervised SupervisorReport := do
  let stopRequest ← askRuntime .readStopRequest
  let final ← finalize ctx (applyBlocked ctx.toRunContext stopRequest state)
  askRuntime (.recordEvent (.leaseBlocked ctx.now (acquire.bind (·.status))))
  pure ⟨10, true, .step .leaseBlocked, none, summarizeLease acquire, none, none, none, final⟩

/-- What a step that holds the lease does with its lane, and the files it has written. -/
def trackLane (ctx : SupervisorContext) :
    Option StopRequest → Option LaneRecord → Supervised (Option String × Option String)
  | some _, _ => pure (none, none)
  | none, some lane => do
    askRuntime (.writeLane lane)
    let blockerPath ← writeLastBlocker (some lane) ctx.now
    pure (some (laneFile lane), blockerPath)
  | none, none => do
    let _ ← writeLastBlocker none ctx.now
    pure (none, none)

/-- The `try` block of a step. -/
def heldStep (ctx : SupervisorContext) (acquire : Option LeaseResult) (state : RuntimeState) :
    Supervised SupervisorReport := do
  let stopRequest ← askRuntime .readStopRequest
  let lane := buildLaneRecord ctx.laneOptions ctx.now
  let applied := applyStep ctx.toRunContext stopRequest lane state
  let paths ← trackLane ctx stopRequest lane
  let turn := buildTurn ctx acquire stopRequest.isSome lane paths applied.2 applied.1
  let final ← finalize ctx applied.1
  askRuntime (.writeTurn turn)
  askRuntime (.recordEvent (stepEvent ctx stopRequest.isSome lane applied.2 final))
  pure ⟨0, false, .step applied.2, none, summarizeLease acquire, none, some turn, lane, final⟩

/-- The `finally` block of a step. -/
def releaseLease (ctx : SupervisorContext) (acquire : Option LeaseResult) :
    Supervised (Option LeaseResult) :=
  askRuntime (.releaseWriterLease (leaseOptions ctx) (acquire.bind (·.acquiredId)))

def stepWith (ctx : SupervisorContext) (state : RuntimeState) (acquire : Option LeaseResult) :
    Supervised SupervisorReport :=
  if isLeaseSuccess acquire then do
    let ended ← (heldStep ctx acquire state).tryFinally (releaseLease ctx acquire)
    pure { ended.1 with release := summarizeLease ended.2 }
  else blockedStep ctx acquire state

def runStepAction (ctx : SupervisorContext) (state : RuntimeState) :
    Supervised SupervisorReport := do
  let acquire ← askRuntime (.acquireWriterLease (leaseOptions ctx))
  stepWith ctx state acquire

def runAction (ctx : SupervisorContext) (state : RuntimeState) : Supervised SupervisorReport :=
  match ctx.action with
  | .status => runStatusAction ctx state
  | .stop => runStopAction ctx state
  | .resume => runResumeAction ctx state
  | .step => runStepAction ctx state

def runRuntimeSupervisor (ctx : SupervisorContext) : Supervised SupervisorReport := do
  askRuntime .ensureRuntimeLayout
  let state ← load ctx
  runAction ctx state

/-! ### The surroundings -/

/-- The files of the runtime directory that the actions read. `legacy` is the predecessor of
the state file; there is none where a path for the state file is given. -/
structure Files where
  state : Stored RuntimeState
  legacy : Stored RuntimeState
  stopRequest : Stored StopRequest
  lanes : List (String × Stored LaneRecord)
  lastBlocker : Stored BlockerPayload

namespace Files

def lane (files : Files) (name : String) : Stored LaneRecord :=
  ((files.lanes.find? fun kv => kv.1 = name).map (·.2)).getD .missing

def activeLane (files : Files) : Option ActiveLane :=
  match files.state with
  | .holds state => state.activeLane
  | .missing => files.legacy.value.bind (·.activeLane)
  | .damaged => none

end Files

/-- The lane artifacts after one of them was written. -/
def WritesLane (files after : Files) (lane : LaneRecord) (answer : Except String Unit) : Prop :=
  ∃ new, (files.lane (laneFile lane)).Writes lane new answer ∧
    after = { files with
      lanes := (laneFile lane, new) :: files.lanes.filter fun kv => kv.1 ≠ laneFile lane }

/-- The surroundings of the supervisor. The lease functions may answer anything, and any
operation but `existsSync` may fail. -/
def runtimeService : Service Files (fun q : SupervisorQuery => Except String q.Reply)
  | files, .readState, answer, after => files.state.Reads answer ∧ after = files
  | files, .readLegacyState, answer, after => files.legacy.Reads answer ∧ after = files
  | files, .writeState state, answer, after =>
    ∃ new, files.state.Writes state new answer ∧ after = { files with state := new }
  | files, .readStopRequest, answer, after => files.stopRequest.Reads answer ∧ after = files
  | files, .writeStopRequest request, answer, after =>
    ∃ new, files.stopRequest.Writes request new answer ∧ after = { files with stopRequest := new }
  | files, .removeStopRequest, answer, after =>
    ∃ new, files.stopRequest.Removes new answer ∧ after = { files with stopRequest := new }
  | files, .writeLane lane, answer, after => WritesLane files after lane answer
  | files, .lastBlockerExists, answer, after =>
    answer = .ok files.lastBlocker.present ∧ after = files
  | files, .writeLastBlocker payload, answer, after =>
    ∃ new, files.lastBlocker.Writes payload new answer ∧ after = { files with lastBlocker := new }
  | files, .removeLastBlocker, answer, after =>
    ∃ new, files.lastBlocker.Removes new answer ∧ after = { files with lastBlocker := new }
  | files, .countLanes, answer, after =>
    (∀ count, answer = .ok count → count = files.lanes.length) ∧ after = files
  | files, .ensureRuntimeLayout, _, after => after = files
  | files, .acquireWriterLease _, _, after => after = files
  | files, .releaseWriterLease _ _, _, after => after = files
  | files, .writeTurn _, _, after => after = files
  | files, .recordEvent _, _, after => after = files

end CompareVI.Runtime
