import CompareVI.Framework.Monitor
import CompareVI.Runtime.Supervisor

/-!
# The observer loop

`runRuntimeObserverLoop`, one cycle as a program. The hooks of the adapter, the worker step and
the writes of the artifacts are queries; any of them may throw. A cycle goes on with the next
one, or it ends the loop with a report (`Cycle`), and the cycles of a run are those of
`Cycles`.

Of the records that the hooks return the loop reads the status only; the rest of a record is
kept as it came. The paths of the artifacts and the times in them are left out.
-/

open Framework

namespace CompareVI.Runtime

/-! ### Decisions -/

/-- The step options of a decision, as `normalizeStepOptions` leaves them. -/
structure StepOptions where
  lane : Option String
  issue : Option ℤ
  epic : Option ℤ
  forkRemote : Option String
  branch : Option String
  prUrl : Option String
  blockerClass : Option String
  reason : Option String
  deriving DecidableEq

def hasStepContext (o : StepOptions) : Bool :=
  truthyText o.lane || o.issue.isSome || o.epic.isSome || truthyText o.forkRemote ||
    truthyText o.branch || truthyText o.prUrl

/-- `SCHEDULER_DECISION_OUTCOMES`. -/
inductive DecisionOutcome where
  | selected
  | idle
  | blocked
  deriving DecidableEq, Repr

structure PlannedStep where
  source : Option String
  outcome : Option String
  reason : Option String
  stepOptions : StepOptions
  deriving DecidableEq

structure SchedulerDecision where
  cycle : ℕ
  source : String
  outcome : DecisionOutcome
  reason : Option String
  stepOptions : Option StepOptions
  deriving DecidableEq

def parseOutcome (outcome : Option String) : Option DecisionOutcome :=
  match JsString.toLowerCase (JsString.trim (outcome.getD "")) with
  | "selected" => some .selected
  | "idle" => some .idle
  | "blocked" => some .blocked
  | _ => none

def decisionOutcome (raw : PlannedStep) : DecisionOutcome :=
  let outcome := (parseOutcome raw.outcome).getD
    (if hasStepContext raw.stepOptions then .selected else .idle)
  if outcome = .selected && !hasStepContext raw.stepOptions then .idle else outcome

def buildSchedulerDecision (raw : PlannedStep) (cycle : ℕ) : SchedulerDecision where
  cycle := cycle
  source := (optionText raw.source).getD "runtime-harness"
  outcome := decisionOutcome raw
  reason := optionText raw.reason
  stepOptions := if hasStepContext raw.stepOptions then some raw.stepOptions else none

theorem buildSchedulerDecision_outcome (raw : PlannedStep) (cycle : ℕ) :
    (buildSchedulerDecision raw cycle).outcome = decisionOutcome raw := by
  rw [buildSchedulerDecision]

/-! ### Records -/

structure StageRecord where
  status : String
  record : Json
  deriving DecidableEq

/-- An object that a hook has returned, with its status or the default one. -/
def normalizeStage (default : String) (raw : Option Json) : Option StageRecord :=
  raw.bind fun raw => match raw with
    | .obj _ | .arr _ => some {
        status := orText (JsString.toLowerCase (JsString.trim
          (Json.stringOrEmpty (raw.get? "status")))) default
        record := raw }
    | _ => none

def normalizeWorkerCheckout (raw : Option Json) : Option StageRecord :=
  normalizeStage "prepared" raw

def normalizeWorkerReady (raw : Option Json) : Option StageRecord := normalizeStage "ready" raw

def normalizeWorkerBranch (raw : Option Json) : Option StageRecord := normalizeStage "attached" raw

/-- `record?.status === 'blocked'`. -/
def isBlocked (record : Option StageRecord) : Bool := record.any fun r => r.status = "blocked"

/-- `record?.status && record.status !== 'blocked'`. -/
def isReady (record : Option StageRecord) : Bool :=
  record.any fun r => r.status ≠ "" && r.status ≠ "blocked"

structure TaskPacket where
  cycle : ℕ
  status : String
  recentEvents : List Json
  deriving DecidableEq

def determineTaskPacketStatus (outcome : DecisionOutcome)
    (worker ready branch : Option StageRecord) : String :=
  if isBlocked worker || isBlocked ready || isBlocked branch || outcome = .blocked then "blocked"
  else if outcome = .idle then "idle"
  else if branch.any (·.status ≠ "") then "ready"
  else if ready.any (·.status ≠ "") then "prepared"
  else "selected"

def mergeTaskPacket (packet : TaskPacket) (raw : Option Json) : TaskPacket :=
  match normalizeStage packet.status raw with
  | none => packet
  | some adapterPacket => { packet with
      status := adapterPacket.status
      recentEvents := match adapterPacket.record.get? "recentEvents" with
        | some (.arr events) => events
        | _ => packet.recentEvents }

structure ExecutionReceipt where
  status : String
  outcome : String
  reason : Option String
  stopLoop : Bool
  pollIntervalSecondsHint : Option Json
  deriving DecidableEq

def normalizeExecutionReceipt (raw : Option Json) : Option ExecutionReceipt :=
  (normalizeStage "completed" raw).map fun r => {
    status := r.status
    outcome := (Json.optionText (r.record.get? "outcome")).getD "completed"
    reason := Json.optionText (r.record.get? "reason")
    stopLoop := r.record.get? "stopLoop" = some (.bool true)
    pollIntervalSecondsHint := Json.path (some r.record) ["details", "pollIntervalSecondsHint"] }

def failedReceipt (message : String) : ExecutionReceipt where
  status := "blocked"
  outcome := "execution-failed"
  reason := optionalTrim message
  stopLoop := false
  pollIntervalSecondsHint := none

def ReportOutcome.text : ReportOutcome → String
  | status => "status"
  | stopRequested => "stop-requested"
  | resumed => "resumed"
  | step .idle => "idle"
  | step .stopRequested => "stop-requested"
  | step .laneTracked => "lane-tracked"
  | step .leaseBlocked => "lease-blocked"

def SupervisorReport.stops (report : SupervisorReport) : Bool :=
  report.state.lifecycle.stopRequested

/-- `report.lastStep`. -/
structure StepSummary where
  exitCode : ℕ
  outcome : String
  execution : Option ExecutionReceipt
  deriving DecidableEq

structure Heartbeat where
  cyclesCompleted : ℕ
  outcome : String
  stopRequested : Bool
  deriving DecidableEq

inductive Artifact where
  | schedulerDecision (decision : SchedulerDecision)
  | workerCheckout (record : StageRecord)
  | workerReady (record : StageRecord)
  | workerBranch (record : StageRecord)
  | taskPacket (packet : TaskPacket)
  | executionReceipt (receipt : ExecutionReceipt)
  | heartbeat (heartbeat : Heartbeat)
  deriving DecidableEq

structure ObserverReport where
  exitCode : ℕ
  blocked : Bool
  outcome : String
  message : Option String
  cyclesCompleted : ℕ
  lastStep : Option StepSummary
  deriving DecidableEq

structure LoopState where
  cyclesCompleted : ℕ
  previousDecision : Option SchedulerDecision
  lastStep : Option StepSummary
  deriving DecidableEq

/-! ### The cycle -/

structure ObserverHooks where
  planStep : Bool
  prepareWorker : Bool
  bootstrapWorker : Bool
  activateWorker : Bool
  buildTaskPacket : Bool
  executeTurn : Bool
  deriving DecidableEq

structure ObserverOptions where
  explicit : StepOptions
  stopOnIdle : Bool
  executeTurn : Bool
  maxCycles : ℕ
  pollIntervalSeconds : ℤ
  hooks : ObserverHooks
  deriving DecidableEq

inductive ObserverQuery where
  | planStep (cycle : ℕ) (previousDecision : Option SchedulerDecision)
      (previousStep : Option StepSummary)
  | prepareWorker (decision : SchedulerDecision)
  | bootstrapWorker (decision : SchedulerDecision) (worker : Option StageRecord)
  | activateWorker (decision : SchedulerDecision) (worker ready : Option StageRecord)
  | readRecentEvents
  | buildTaskPacket (packet : TaskPacket)
  | runRuntimeWorkerStep (stepOptions : Option StepOptions)
      (worker ready branch : Option StageRecord) (packet : TaskPacket)
  | executeTurn (decision : SchedulerDecision) (packet : TaskPacket) (report : SupervisorReport)
  | write (artifact : Artifact)
  | sleep (seconds : ℤ)
  deriving DecidableEq

abbrev ObserverQuery.Reply : ObserverQuery → Type
  | planStep .. => PlannedStep
  | prepareWorker _ | bootstrapWorker .. | activateWorker .. | buildTaskPacket _
  | executeTurn .. => Option Json
  | readRecentEvents => List Json
  | runRuntimeWorkerStep .. => SupervisorReport
  | write _ | sleep _ => Unit

abbrev ObserverExchange : Type := Exchange fun q : ObserverQuery => Except String q.Reply

abbrev Observed (α : Type) : Type := Prog ObserverQuery (fun q => Except String q.Reply) α

abbrev Cycle (α : Type) : Type :=
  ExceptT ObserverReport (Prog ObserverQuery fun q => Except String q.Reply) α

abbrev askObserver (q : ObserverQuery) : Observed q.Reply := Prog.call q

/-- Ask one query inside of a `try` block. -/
abbrev tryObserver (q : ObserverQuery) : Observed (Except String q.Reply) :=
  (askObserver q).caught

def ObserverReport.blockedWith (exitCode : ℕ) (outcome : String) (message : Option String)
    (cyclesCompleted : ℕ) (lastStep : Option StepSummary) : ObserverReport :=
  ⟨exitCode, true, outcome, message, cyclesCompleted, lastStep⟩

def endStage (s : LoopState) (exitCode : ℕ) (outcome : String) {α : Type} : Cycle α := do
  ExceptT.lift (askObserver (.write (.heartbeat ⟨s.cyclesCompleted, outcome, false⟩)))
  throw (.blockedWith exitCode outcome none s.cyclesCompleted (some ⟨exitCode, outcome, none⟩))

def planStep (o : ObserverOptions) (s : LoopState) : Observed PlannedStep :=
  if o.hooks.planStep then
    askObserver (.planStep (s.cyclesCompleted + 1) s.previousDecision s.lastStep)
  else
    pure {
      source := some "manual"
      outcome := some (if hasStepContext o.explicit then "selected" else "idle")
      reason := some (if hasStepContext o.explicit then "using explicit observer lane input"
        else "no scheduler hook and no explicit observer lane input")
      stepOptions := o.explicit }

/-- `resolveSchedulerDecision` and `writeSchedulerDecision`. -/
def planned (o : ObserverOptions) (s : LoopState) : Cycle SchedulerDecision := do
  let answer ← ExceptT.lift (planStep o s).caught
  match answer with
  | .error message =>
    throw (.blockedWith 11 "scheduler-failed" (some message) s.cyclesCompleted s.lastStep)
  | .ok raw => do
    let decision := buildSchedulerDecision raw (s.cyclesCompleted + 1)
    ExceptT.lift (askObserver (.write (.schedulerDecision decision)))
    pure decision

def adapterPacket (o : ObserverOptions) (packet : TaskPacket) : Observed (Option Json) :=
  if o.hooks.buildTaskPacket then askObserver (.buildTaskPacket packet) else pure none

/-- `buildTaskPacket` and `writeTaskPacket`. -/
def buildTaskPacket (o : ObserverOptions) (decision : SchedulerDecision)
    (worker ready branch : Option StageRecord) : Observed TaskPacket := do
  let recentEvents ← askObserver .readRecentEvents
  let packet : TaskPacket :=
    ⟨decision.cycle, determineTaskPacketStatus decision.outcome worker ready branch, recentEvents⟩
  let raw ← adapterPacket o packet
  let merged := mergeTaskPacket packet raw
  askObserver (.write (.taskPacket merged))
  pure merged

def idleStop (s : LoopState) {α : Type} : Cycle α := do
  ExceptT.lift (askObserver (.write (.heartbeat ⟨s.cyclesCompleted, "idle-stop", false⟩)))
  throw ⟨0, false, "idle-stop", none, s.cyclesCompleted, some ⟨0, "idle", none⟩⟩

def unselected (o : ObserverOptions) (s : LoopState) (decision : SchedulerDecision) :
    Cycle TaskPacket := do
  let packet ← ExceptT.lift (buildTaskPacket o decision none none none)
  if o.stopOnIdle && decision.outcome = .idle then idleStop s
  else if decision.outcome = .blocked then endStage s 12 "scheduler-blocked"
  else pure packet

def askStage (runs : Bool) (q : ObserverQuery) (read : q.Reply → Option StageRecord) :
    Observed (Except String (Option StageRecord)) :=
  if runs then do
    let answer ← tryObserver q
    pure (answer.map read)
  else pure (.ok none)

def writeStage (artifact : StageRecord → Artifact) : Option StageRecord → Observed Unit
  | some record => askObserver (.write (artifact record))
  | none => pure ()

/-- `prepareWorker`. -/
def prepared (o : ObserverOptions) (s : LoopState) (decision : SchedulerDecision) :
    Cycle (Option StageRecord) := do
  let answer ← ExceptT.lift (askStage (o.hooks.prepareWorker && decision.outcome = .selected)
    (.prepareWorker decision) normalizeWorkerCheckout)
  match answer with
  | .error message =>
    throw (.blockedWith 13 "worker-prepare-failed" (some message) s.cyclesCompleted s.lastStep)
  | .ok worker => do
    ExceptT.lift (writeStage .workerCheckout worker)
    if isBlocked worker then endStage s 13 "worker-blocked" else pure worker

def bootstrapFailed (s : LoopState) (message : String) {α : Type} : Cycle α := do
  ExceptT.lift (askObserver
    (.write (.heartbeat ⟨s.cyclesCompleted, "worker-bootstrap-failed", false⟩)))
  throw (.blockedWith 14 "worker-bootstrap-failed" (some message) s.cyclesCompleted
    (some ⟨14, "worker-bootstrap-failed", none⟩))

/-- `bootstrapWorker`. -/
def bootstrapped (o : ObserverOptions) (s : LoopState) (decision : SchedulerDecision)
    (worker : Option StageRecord) : Cycle (Option StageRecord) := do
  let answer ← ExceptT.lift (askStage (o.hooks.bootstrapWorker && isReady worker)
    (.bootstrapWorker decision worker) normalizeWorkerReady)
  match answer with
  | .error message => bootstrapFailed s message
  | .ok ready => do
    ExceptT.lift (writeStage .workerReady ready)
    if isBlocked ready then endStage s 14 "worker-ready-blocked" else pure ready

/-- `activateWorker`. A branch that is blocked ends the loop later, after the task packet. -/
def activated (o : ObserverOptions) (s : LoopState) (decision : SchedulerDecision)
    (worker ready : Option StageRecord) : Cycle (Option StageRecord) := do
  let answer ← ExceptT.lift (askStage (o.hooks.activateWorker && isReady ready)
    (.activateWorker decision worker ready) normalizeWorkerBranch)
  match answer with
  | .error message =>
    throw (.blockedWith 15 "worker-activate-failed" (some message) s.cyclesCompleted s.lastStep)
  | .ok branch => do
    ExceptT.lift (writeStage .workerBranch branch)
    pure branch

def stagesOf (o : ObserverOptions) (s : LoopState) (decision : SchedulerDecision)
    (packet : Option TaskPacket) :
    Cycle (Option StageRecord × Option StageRecord × Option StageRecord × TaskPacket) := do
  let worker ← prepared o s decision
  let ready ← bootstrapped o s decision worker
  let branch ← activated o s decision worker ready
  let packet ← ExceptT.lift (match packet with
    | some packet => pure packet
    | none => buildTaskPacket o decision worker ready branch)
  if isBlocked branch then endStage s 15 "worker-branch-blocked"
  else pure (worker, ready, branch, packet)

def stepHeartbeat (s : LoopState) (report : SupervisorReport)
    (receipt : Option ExecutionReceipt) : Artifact :=
  .heartbeat {
    cyclesCompleted := s.cyclesCompleted + 1
    outcome := orText ((receipt.map (·.outcome)).getD "") report.outcome.text
    stopRequested := report.stops }

def summarizeStep (report : SupervisorReport) (receipt : Option ExecutionReceipt) : StepSummary :=
  ⟨report.exitCode, report.outcome.text, receipt⟩

/-- An execution that has thrown. Its receipt and its heartbeat may fail to be written. -/
def executionFailed (s : LoopState) (report : SupervisorReport) (message : String) {α : Type} :
    Cycle α := do
  let receipt := failedReceipt message
  let written ← ExceptT.lift (tryObserver (.write (.executionReceipt receipt)))
  let _ ← ExceptT.lift (tryObserver (.write (stepHeartbeat s report (some receipt))))
  throw (.blockedWith 16 "execution-failed" (some message) (s.cyclesCompleted + 1)
    (some (summarizeStep report (if written.isOk then some receipt else none))))

def writeReceipt : Option ExecutionReceipt → Observed Unit
  | some receipt => askObserver (.write (.executionReceipt receipt))
  | none => pure ()

/-- The answer of `executeTurn`, if it was called. -/
def receiptOf (s : LoopState) (report : SupervisorReport) :
    Except String (Option Json) → Cycle (Option ExecutionReceipt)
  | .error message => executionFailed s report message
  | .ok raw => do
    ExceptT.lift (writeReceipt (normalizeExecutionReceipt raw))
    pure (normalizeExecutionReceipt raw)

/-- `executeTurn`, after a worker step that has ended with 0. -/
def executed (o : ObserverOptions) (s : LoopState) (decision : SchedulerDecision)
    (packet : TaskPacket) (report : SupervisorReport) : Cycle (Option ExecutionReceipt) :=
  if report.exitCode = 0 && (o.executeTurn && o.hooks.executeTurn) then do
    let answer ← ExceptT.lift (tryObserver (.executeTurn decision packet report))
    receiptOf s report answer
  else pure none

def resolvePollIntervalSeconds (o : ObserverOptions) (receipt : Option ExecutionReceipt) : ℤ :=
  let defaultSeconds := if 0 < o.pollIntervalSeconds then o.pollIntervalSeconds else 60
  match Json.toNumber? (receipt.bind (·.pollIntervalSecondsHint)) with
  | some hint => if 0 < hint then min defaultSeconds (max 1 hint.floor) else defaultSeconds
  | none => defaultSeconds

/-- How a cycle ends that was not left before: the report of the loop, if it ends. -/
def endOfCycle (o : ObserverOptions) (s : LoopState) (report : SupervisorReport)
    (receipt : Option ExecutionReceipt) : Option ObserverReport :=
  let completed := s.cyclesCompleted + 1
  let lastStep := some (summarizeStep report receipt)
  let outcome := (receipt.map (·.outcome)).getD ""
  if report.exitCode ≠ 0 then
    some (.blockedWith report.exitCode "worker-failed" none completed lastStep)
  else if report.stops then some ⟨0, false, "stop-requested", none, completed, lastStep⟩
  else if receipt.any fun r => r.status = "blocked" then
    some (.blockedWith 16 (orText outcome "execution-blocked") none completed lastStep)
  else if receipt.any (·.stopLoop) then
    some ⟨0, false, orText outcome "execution-stop", none, completed, lastStep⟩
  else if 0 < o.maxCycles && o.maxCycles ≤ completed then
    some ⟨0, false, "max-cycles-reached", none, completed, lastStep⟩
  else none

def concluded (o : ObserverOptions) (s : LoopState) (decision : SchedulerDecision)
    (report : SupervisorReport) (receipt : Option ExecutionReceipt) : Cycle LoopState := do
  ExceptT.lift (askObserver (.write (stepHeartbeat s report receipt)))
  match endOfCycle o s report receipt with
  | some ended => throw ended
  | none => do
    ExceptT.lift (askObserver (.sleep (resolvePollIntervalSeconds o receipt)))
    pure ⟨s.cyclesCompleted + 1, some decision, some (summarizeStep report receipt)⟩

def packetOf (o : ObserverOptions) (s : LoopState) (decision : SchedulerDecision) :
    Cycle (Option TaskPacket) :=
  if decision.outcome = .selected then pure none
  else do
    let packet ← unselected o s decision
    pure (some packet)

def observeCycle (o : ObserverOptions) (s : LoopState) : Cycle LoopState := do
  let decision ← planned o s
  let packet ← packetOf o s decision
  let (worker, ready, branch, packet) ← stagesOf o s decision packet
  let report ← ExceptT.lift (askObserver
    (.runRuntimeWorkerStep decision.stepOptions worker ready branch packet))
  let receipt ← executed o s decision packet report
  concluded o s decision report receipt

def observerStart (platform : String) : Except ObserverReport LoopState :=
  if platform = "linux" then .ok ⟨0, none, none⟩
  else .error (.blockedWith 2 "linux-only"
    (some "Observer daemon mode is supported only on Linux.") 0 none)

/-- A cycle that has run: its exchanges and how it ended. -/
structure CycleRun where
  history : List ObserverExchange
  result : Except String (Except ObserverReport LoopState)

/-- The cycles of the loop, one after another. The last of them may go on. -/
inductive Cycles (o : ObserverOptions) : LoopState → List CycleRun → Prop where
  | nil (s : LoopState) : Cycles o s []
  | next {s t : LoopState} {history : List ObserverExchange} {rest : List CycleRun}
    (hrun : Runs (observeCycle o s).run history (.ok (.ok t))) (hrest : Cycles o t rest) :
    Cycles o s (⟨history, .ok (.ok t)⟩ :: rest)
  | last {s : LoopState} {c : CycleRun} (hrun : Runs (observeCycle o s).run c.history c.result)
    (hend : ∀ t, c.result ≠ .ok (.ok t)) : Cycles o s [c]

/-- The cycles of `runRuntimeObserverLoop`. -/
def ObserverRuns (platform : String) (o : ObserverOptions) (cycles : List CycleRun) : Prop :=
  match observerStart platform with
  | .ok s => Cycles o s cycles
  | .error _ => cycles = []

end CompareVI.Runtime
