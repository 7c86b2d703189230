import CompareVI.Framework.JsString

/-!
# The actions of the runtime harness

`runRuntimeSupervisor` loads the persisted state of the runtime directory, runs one
action on the loaded copy, and writes the copy back. This file has the state and what
the actions make of the copy: `loadState`, the updates of `stop`, `resume`, `status`
and `step`, and `finalizeState`. Which file operation runs when is the subject of
`CompareVI.Runtime.Overlap`.
-/

open Framework

namespace CompareVI.Runtime

/-! ### Lanes -/

/-- The lane options of a step. The worker records are given as normalised. -/
structure LaneOptions where
  lane : Option String
  issue : Option ℤ
  epic : Option ℤ
  forkRemote : Option String
  branch : Option String
  prUrl : Option String
  blockerClass : Option String
  reason : Option String
  worker : Option Json
  workerReady : Option Json
  workerBranch : Option Json
  taskPacket : Option Json
  deriving DecidableEq

structure LaneBlocker where
  blockerClass : String
  reason : Option String
  observedAt : ℤ
  deriving DecidableEq, Repr

structure LaneRecord where
  laneId : String
  issue : Option ℤ
  epic : Option ℤ
  forkRemote : Option String
  branch : Option String
  prUrl : Option String
  blocker : Option LaneBlocker
  worker : Option Json
  workerReady : Option Json
  workerBranch : Option Json
  taskPacket : Option Json
  createdAt : ℤ
  updatedAt : ℤ
  deriving DecidableEq

structure ActiveLane where
  laneId : String
  issue : Option ℤ
  epic : Option ℤ
  forkRemote : Option String
  branch : Option String
  prUrl : Option String
  blockerClass : String
  worker : Option Json
  workerReady : Option Json
  workerBranch : Option Json
  taskPacket : Option Json
  updatedAt : ℤ
  deriving DecidableEq

/-- `Boolean(value)` on a text option. -/
def truthyText (value : Option String) : Bool := value.any (· ≠ "")

/-- The characters `sanitizeSegment` keeps. -/
def isSegmentChar (c : Char) : Bool :=
  c.isAlphanum || c = '.' || c = '_' || c = '-'

def sanitizeSegment (value : String) : String :=
  let dashed := JsString.replaceRuns isSegmentChar ['-'] false (JsString.trim value).toList
  let stripped := ((dashed.dropWhile (· = '-')).reverse.dropWhile (· = '-')).reverse
  orText (String.ofList stripped) "runtime"

def buildLaneRecord (o : LaneOptions) (now : ℤ) : Option LaneRecord :=
  if truthyText o.lane || o.issue.isSome || o.epic.isSome || truthyText o.forkRemote ||
      truthyText o.branch || truthyText o.prUrl then
    let parts := (if truthyText o.forkRemote then [o.forkRemote.getD ""] else []) ++
      (match o.issue with
        | some n => if n = 0 then [] else [toString n]
        | none => [])
    let blockerClass := orText (o.blockerClass.getD "") "none"
    some {
      laneId := orText (o.lane.getD "") (orText (JsString.join "-" parts)
        ("lane-" ++ sanitizeSegment (orText (o.branch.getD "") "active")))
      issue := o.issue
      epic := o.epic
      forkRemote := optionText o.forkRemote
      branch := optionText o.branch
      prUrl := optionText o.prUrl
      blocker :=
        if blockerClass = "none" then none
        else some {
          blockerClass := blockerClass, reason := optionText o.reason, observedAt := now }
      worker := o.worker
      workerReady := o.workerReady
      workerBranch := o.workerBranch
      taskPacket := o.taskPacket
      createdAt := now
      updatedAt := now }
  else none

def buildActiveLaneSummary (lane : LaneRecord) : ActiveLane where
  laneId := lane.laneId
  issue := lane.issue
  epic := lane.epic
  forkRemote := lane.forkRemote
  branch := lane.branch
  prUrl := lane.prUrl
  blockerClass := (lane.blocker.map (·.blockerClass)).getD "none"
  worker := lane.worker
  workerReady := lane.workerReady
  workerBranch := lane.workerBranch
  taskPacket := lane.taskPacket
  updatedAt := lane.updatedAt

/-! ### The state -/

/-- `ACTIONS`. -/
inductive Action where
  | status
  | step
  | stop
  | resume
  deriving DecidableEq, Repr

/-- The values of `lifecycle.status`. -/
inductive LifecycleStatus where
  | idle
  | running
  | paused
  | blocked
  deriving DecidableEq, Repr

/-- The `lifecycle` part of the state. -/
structure Lifecycle where
  status : LifecycleStatus
  cycle : ℕ
  startedAt : ℤ
  updatedAt : ℤ
  lastAction : Option Action
  stopRequested : Bool
  deriving DecidableEq, Repr

/-- The `summary` part of the state. -/
structure StateSummary where
  trackedLaneCount : ℕ
  blockerPresent : Bool
  deriving DecidableEq, Repr

/-- The state of the runtime; the paths of its artifacts are constant and left
out. -/
structure RuntimeState where
  generatedAt : ℤ
  repository : String
  repoRoot : String
  runtimeDir : String
  runtimeAdapter : String
  lifecycle : Lifecycle
  owner : String
  activeLane : Option ActiveLane
  summary : StateSummary
  deriving DecidableEq

structure StopRequest where
  requestedAt : ℤ
  requestedBy : String
  reason : String
  deriving DecidableEq, Repr

structure RunContext where
  action : Action
  now : ℤ
  owner : String
  repository : String
  repoRoot : String
  runtimeDir : String
  adapterName : String
  reason : Option String
  laneOptions : LaneOptions
  deriving DecidableEq

def buildEmptyState (ctx : RunContext) : RuntimeState where
  generatedAt := ctx.now
  repository := ctx.repository
  repoRoot := ctx.repoRoot
  runtimeDir := ctx.runtimeDir
  runtimeAdapter := ctx.adapterName
  lifecycle := {
    status := .idle, cycle := 0, startedAt := ctx.now, updatedAt := ctx.now
    lastAction := none, stopRequested := false }
  owner := ctx.owner
  activeLane := none
  summary := { trackedLaneCount := 0, blockerPresent := false }

/-- `loadState`, given what the state file or its legacy predecessor holds. -/
def loadState (ctx : RunContext) : Option RuntimeState → RuntimeState
  | none => buildEmptyState ctx
  | some persisted =>
    { persisted with
      repository := orText persisted.repository ctx.repository
      repoRoot := orText persisted.repoRoot ctx.repoRoot
      runtimeDir := orText persisted.runtimeDir ctx.runtimeDir
      runtimeAdapter := orText persisted.runtimeAdapter ctx.adapterName
      owner := orText persisted.owner ctx.owner }

/-! ### The actions on a loaded copy -/

/-- The update of `runStatusAction`. -/
def applyStatus (ctx : RunContext) (stopRequest : Option StopRequest) (state : RuntimeState) :
    RuntimeState :=
  { state with lifecycle := { state.lifecycle with
      stopRequested := stopRequest.isSome, updatedAt := ctx.now, lastAction := some .status } }

/-- The stop request that `runStopAction` writes. -/
def buildStopRequest (ctx : RunContext) : StopRequest where
  requestedAt := ctx.now
  requestedBy := ctx.owner
  reason := (optionText ctx.reason).getD "operator-request"

/-- The update of `runStopAction`. -/
def applyStop (ctx : RunContext) (state : RuntimeState) : RuntimeState :=
  { state with lifecycle := { state.lifecycle with
      stopRequested := true, status := .paused, updatedAt := ctx.now, lastAction := some .stop } }

/-- The update of `runResumeAction`. -/
def applyResume (ctx : RunContext) (state : RuntimeState) : RuntimeState :=
  { state with lifecycle := { state.lifecycle with
      stopRequested := false, status := .idle, updatedAt := ctx.now, lastAction := some .resume } }

def applyBlocked (ctx : RunContext) (stopRequest : Option StopRequest) (state : RuntimeState) :
    RuntimeState :=
  { state with lifecycle := { state.lifecycle with
      status := .blocked, updatedAt := ctx.now, lastAction := some .step
      stopRequested := stopRequest.isSome } }

inductive StepOutcome where
  | idle
  | stopRequested
  | laneTracked
  | leaseBlocked
  deriving DecidableEq, Repr

/-- The update of a step that holds the lease, and its outcome. -/
def applyStep (ctx : RunContext) (stopRequest : Option StopRequest) (lane : Option LaneRecord)
    (state : RuntimeState) : RuntimeState × StepOutcome :=
  let lifecycle := { state.lifecycle with
    cycle := state.lifecycle.cycle + 1, updatedAt := ctx.now, lastAction := some .step
    stopRequested := stopRequest.isSome }
  match stopRequest, lane with
  | some _, _ =>
    ({ state with lifecycle := { lifecycle with status := .paused } }, .stopRequested)
  | none, some lane =>
    ({ state with
      lifecycle := { lifecycle with status := .running }
      activeLane := some (buildActiveLaneSummary lane) }, .laneTracked)
  | none, none =>
    ({ state with lifecycle := { lifecycle with status := .idle }, activeLane := none }, .idle)

/-- `finalizeState`, given what it finds in the directory. -/
def finalizeState (ctx : RunContext) (summary : StateSummary) (state : RuntimeState) :
    RuntimeState :=
  { state with generatedAt := ctx.now, summary := summary }

/-! ### The cycle counter -/

section Cycle

variable (ctx : RunContext) (stopRequest : Option StopRequest) (lane : Option LaneRecord)
  (state : RuntimeState)

def persistedCycle (persisted : Option RuntimeState) : ℕ :=
  (persisted.map fun s => s.lifecycle.cycle).getD 0

@[simp] theorem loadState_cycle (persisted : Option RuntimeState) :
    (loadState ctx persisted).lifecycle.cycle = persistedCycle persisted := by
  cases persisted <;> rfl

@[simp] theorem applyStep_cycle :
    (applyStep ctx stopRequest lane state).1.lifecycle.cycle = state.lifecycle.cycle + 1 := by
  cases stopRequest <;> cases lane <;> rfl

end Cycle

end CompareVI.Runtime
