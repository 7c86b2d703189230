import CompareVI.Lease.Lifecycle

/-!
# The docker-lane handshake

The handshake of a docker lane is one record. `runDockerLaneHandshake` reads it and,
unless it refuses the action, writes the next one. An action goes through the guards in
this order: the lane is named and the action known; a request meets no handshake that is
not released; every other action meets a handshake, and its agent is the one that
requested it; the id, where one is given, is that of the grant; the handshake is in the
state that the action starts from.

`dockerLane_law` is what these guards give over every run: the handshake moves along the
lifecycle of a lease, and only a released one is requested over (`moves`); another agent
changes nothing, stale or not (`exclusive`); what is rejected writes nothing (`rejected`);
and the sequence number counts the accepted operations of a request (`sequence`).
-/

open Framework

namespace CompareVI.Lease

/-! ### The record -/

/-- The `request` part of a handshake. -/
structure LaneRequest where
  requestId : String
  requestedAt : ℤ
  agentId : String
  agentClass : AgentClass
  capabilities : List String
  premiumDualLaneRequested : Bool
  operatorId : Option String
  operatorAuthorizationRef : Option String
  deriving DecidableEq

/-- The `grant` part of a handshake. -/
structure LaneGrant where
  grantedAt : ℤ
  grantor : String
  leaseId : String
  ttlSeconds : ℤ
  grantedCapabilities : List String
  billableRateMultiplier : ℚ
  billableRateUsdPerHour : Option ℚ
  premiumSaganMode : Bool
  policyDecision : String
  operatorAuthorizationRef : Option String
  deriving DecidableEq

/-- The `commit` part of a handshake. -/
structure LaneCommit where
  committedAt : ℤ
  executionCellId : Option String
  executionCellLeaseId : Option String
  deriving DecidableEq

/-- The `release` part of a handshake. -/
structure LaneRelease where
  releasedAt : ℤ
  finalStatus : String
  artifactPaths : List String
  deriving DecidableEq

/-- The handshake of a lane. Its states are those of an execution-cell lease. -/
structure Handshake where
  generatedAt : ℤ
  laneId : String
  state : CellState
  sequence : ℕ
  heartbeatAt : ℤ
  host : Option HostContext
  request : LaneRequest
  grant : Option LaneGrant
  commit : Option LaneCommit
  release : Option LaneRelease
  deriving DecidableEq

/-- `resolveTtlSeconds`. -/
def Handshake.ttlSeconds (handshake : Handshake) : ℤ :=
  (handshake.grant.map (·.ttlSeconds)).getD DEFAULT_TTL_SECONDS

/-- `handshakeAgeSeconds`. -/
def Handshake.ageSeconds (handshake : Handshake) (nowMs : ℤ) : ℚ :=
  max 0 ((nowMs - handshake.heartbeatAt : ℚ) / 1000)

def isHandshakeStale (handshake : Handshake) (nowMs : ℤ) : Bool :=
  if handshake.state = .released then false
  else handshake.ageSeconds nowMs > handshake.ttlSeconds

/-! ### The operation -/

/-- The options of one operation, with the reports it loads: the host plane report, the
operator cost profile and, if its path is given, the execution cell report. `defaultOwner`
is the owner that the environment names and `freshId` the id that the operation
generates. -/
structure LaneOptions where
  action : CellAction
  laneId : Option String
  agentId : Option String
  defaultOwner : String
  agentClass : Option String
  capabilities : List String
  operatorId : Option String
  operatorAuthorizationRef : Option String
  requestId : Option String
  grantor : Option String
  leaseId : Option String
  ttlSeconds : Option ℤ
  finalStatus : Option String
  artifactPaths : List String
  hostPlaneReport : Option Json
  operatorCostProfile : Option Json
  executionCellReport : Option (Option Json)
  now : ℤ
  freshId : String

def LaneOptions.agent (o : LaneOptions) : String := (optionText o.agentId).getD o.defaultOwner

def LaneOptions.operatorProfile (o : LaneOptions) : OperatorProfile :=
  resolveOperatorProfile o.operatorCostProfile o.operatorId

/-- `value || fallback`, where the empty text gives the fallback. -/
def textOr (value fallback : Option String) : Option String :=
  if (value.getD "") = "" then fallback else value

/-- `buildRequestRecord`. -/
def buildLaneRequest (laneId : String) (o : LaneOptions) : Handshake :=
  let requestedCapabilities := normalizeCapabilities o.capabilities
  { generatedAt := o.now
    laneId := laneId
    state := .requested
    sequence := 1
    heartbeatAt := o.now
    host := (buildHostContext o.hostPlaneReport).1
    request := {
      requestId := (textOr o.requestId (some o.freshId)).getD ""
      requestedAt := o.now
      agentId := o.agent
      agentClass := normalizeAgentClass o.agentClass
      capabilities := requestedCapabilities
      premiumDualLaneRequested := isPremiumDualLaneRequest requestedCapabilities
      operatorId := optionText (textOr o.operatorId o.operatorProfile.operatorId)
      operatorAuthorizationRef := optionText o.operatorAuthorizationRef }
    grant := none
    commit := none
    release := none }

def cloneForTransition (handshake : Handshake) (now : ℤ) : Handshake :=
  { handshake with generatedAt := now, sequence := handshake.sequence + 1 }

/-! ### The grant decision -/

/-- The result of `buildGrantDecision`. -/
structure LaneDecision where
  allowed : Bool
  reasons : List String
  premiumDualLaneRequested : Bool
  premiumSaganMode : Bool
  policyDecision : String
  grantedCapabilities : List String
  billableRateMultiplier : ℚ
  billableRateUsdPerHour : Option ℚ

/-- The reasons of `buildGrantDecision`, in the order they are tested. -/
def laneGrantReasons (handshake : Handshake) (operatorProfile : OperatorProfile) : List String :=
  let premium := handshake.request.premiumDualLaneRequested
  (if (normalizeCapabilities handshake.request.capabilities).contains DOCKER_LANE_CAPABILITY then []
    else ["docker-lane-capability-required"]) ++
  (if premium && handshake.request.agentClass ≠ .sagan then ["premium-sagan-only"] else []) ++
  (if premium && (optionText handshake.request.operatorAuthorizationRef).isNone then
    ["operator-authorization-required"] else []) ++
  (if operatorProfile.laborRateUsdPerHour.isNone then ["operator-cost-rate-unavailable"] else [])

/-- `buildGrantDecision`. -/
def buildLaneDecision (handshake : Handshake) (operatorProfile : OperatorProfile) :
    LaneDecision :=
  let reasons := laneGrantReasons handshake operatorProfile
  let premium := handshake.request.premiumDualLaneRequested
  let multiplier := if premium then PREMIUM_RATE_MULTIPLIER else ORDINARY_RATE_MULTIPLIER
  { allowed := reasons.length = 0
    reasons := reasons
    premiumDualLaneRequested := premium
    premiumSaganMode := premium
    policyDecision := if premium then "sagan-premium-dual-lane" else "ordinary-docker-lane"
    grantedCapabilities := normalizeCapabilities handshake.request.capabilities
    billableRateMultiplier := multiplier
    billableRateUsdPerHour :=
      operatorProfile.laborRateUsdPerHour.map fun rate => toFixed 3 (rate * multiplier) }

/-! ### The execution cell of a commit -/

/-- The result of `resolveExecutionCellLinkContext`. -/
structure ExecutionCellLink where
  cellId : Option String
  leaseId : Option String
  holder : Option String
  isolatedLaneGroupId : Option String
  fingerprintSha256 : Option String
  planeBinding : Option String
  harnessKind : Option String
  deriving DecidableEq

def resolveExecutionCellLinkContext (report : Option Json) : Option ExecutionCellLink :=
  let text := fun path => toOptionalText (Json.path report path)
  if isObject report && isObject (Json.path report ["lease"]) then
    some {
      cellId := (text ["cellId"]).or (text ["lease", "cellId"])
      leaseId := (text ["summary", "leaseId"]).or (text ["lease", "grant", "leaseId"])
      holder := (text ["summary", "holder"]).or (text ["lease", "request", "agentId"])
      isolatedLaneGroupId := (text ["summary", "isolatedLaneGroupId"]).or
        (text ["lease", "host", "isolatedLaneGroupId"])
      fingerprintSha256 := (text ["summary", "fingerprintSha256"]).or
        (text ["lease", "host", "fingerprintSha256"])
      planeBinding := (text ["summary", "planeBinding"]).or
        (text ["lease", "request", "planeBinding"])
      harnessKind := (text ["summary", "harnessKind"]).or
        (text ["lease", "request", "harnessKind"]) }
  else none

def isWindowsNativeExecutionCellLink (linkedExecutionCell : ExecutionCellLink) : Bool :=
  JsString.trim (linkedExecutionCell.harnessKind.getD "") = DEFAULT_HARNESS_KIND &&
    isWindowsNativeTestStandPlaneBinding linkedExecutionCell.planeBinding

def validateExecutionCellLink (handshake : Handshake) : Option ExecutionCellLink → List String
  | none => ["execution-cell-report-invalid"]
  | some cell =>
    (if cell.cellId.isNone then ["execution-cell-id-missing"] else []) ++
    (if cell.leaseId.isNone then ["execution-cell-lease-id-missing"] else []) ++
    (if cell.holder.isNone then ["execution-cell-holder-missing"] else []) ++
    (if cell.isolatedLaneGroupId.isNone || cell.fingerprintSha256.isNone then
      ["execution-cell-host-fingerprint-missing"] else []) ++
    (if isWindowsNativeExecutionCellLink cell then []
      else ["execution-cell-not-windows-native-teststand"]) ++
    (if textsDiffer (optionText (some handshake.request.agentId)) cell.holder then
      ["execution-cell-owner-mismatch"] else []) ++
    (if textsDiffer (handshake.host.bind fun h => optionText h.isolatedLaneGroupId)
        cell.isolatedLaneGroupId then
      ["execution-cell-isolated-lane-group-mismatch"] else []) ++
    (if textsDiffer (handshake.host.bind fun h => optionText h.fingerprintSha256)
        cell.fingerprintSha256 then
      ["execution-cell-host-fingerprint-mismatch"] else [])

/-! ### The actions -/

/-- The report of an operation; the rest of the summary is read off the handshake. -/
structure LaneReport where
  status : CellStatus
  handshake : Option Handshake
  denialReasons : List String
  observations : List String

/-- What an operation leaves on disk, and what it reports. -/
structure LaneResult where
  stored : Option Handshake
  report : LaneReport

def LaneOptions.hostObservations (o : LaneOptions) : List String :=
  (buildHostContext o.hostPlaneReport).2

def refuseLane (o : LaneOptions) (current : Option Handshake) (status : CellStatus)
    (denialReasons : List String) : LaneResult :=
  ⟨current, ⟨status, current, denialReasons, o.hostObservations⟩⟩

def acceptLane (o : LaneOptions) (next : Handshake) (status : CellStatus)
    (observations : List String) : LaneResult :=
  ⟨some next, ⟨status, some next, [], o.hostObservations ++ observations⟩⟩

/-- The `request` action. -/
def requestLane (laneId : String) (o : LaneOptions) (current : Option Handshake) : LaneResult :=
  let next :=
    if (normalizeCapabilities o.capabilities).length = 0 then
      refuseLane o current .denied ["capabilities-required"]
    else acceptLane o (buildLaneRequest laneId o) .requested []
  match current with
  | none => next
  | some handshake =>
    if handshake.state ≠ .released then
      if isHandshakeStale handshake o.now then
        refuseLane o current .stale ["stale-handshake-present"]
      else refuseLane o current .busy ["lane-already-held"]
    else next

/-- The `grant` action. -/
def grantLane (o : LaneOptions) (current : Handshake) : LaneResult :=
  if current.state ≠ .requested then
    refuseLane o (some current) .invalidState ["grant-requires-requested-state"]
  else
    let decision := buildLaneDecision current o.operatorProfile
    if !decision.allowed then refuseLane o (some current) .denied decision.reasons
    else
      acceptLane o
        { cloneForTransition current o.now with
          state := .granted
          heartbeatAt := o.now
          host := (buildHostContext o.hostPlaneReport).1.or current.host
          grant := some {
            grantedAt := o.now
            grantor := (optionText o.grantor).getD "sagan-governor"
            leaseId := (textOr o.leaseId (some o.freshId)).getD ""
            ttlSeconds := o.ttlSeconds.getD DEFAULT_TTL_SECONDS
            grantedCapabilities := decision.grantedCapabilities
            billableRateMultiplier := decision.billableRateMultiplier
            billableRateUsdPerHour := decision.billableRateUsdPerHour
            premiumSaganMode := decision.premiumSaganMode
            policyDecision := decision.policyDecision
            operatorAuthorizationRef := optionText current.request.operatorAuthorizationRef } }
        .granted []

/-- The `commit` action. -/
def commitLane (o : LaneOptions) (current : Handshake) : LaneResult :=
  if current.state ≠ .granted then
    refuseLane o (some current) .invalidState ["commit-requires-granted-state"]
  else
    let linkReasons := o.executionCellReport.elim [] fun report =>
      validateExecutionCellLink current (resolveExecutionCellLinkContext report)
    if linkReasons.length > 0 then refuseLane o (some current) .mismatch linkReasons
    else
      let linked := o.executionCellReport.bind resolveExecutionCellLinkContext
      acceptLane o
        { cloneForTransition current o.now with
          state := .active
          heartbeatAt := o.now
          commit := some {
            committedAt := o.now
            executionCellId := (linked.bind (·.cellId)).or
              (current.commit.bind fun c => optionText c.executionCellId)
            executionCellLeaseId := (linked.bind (·.leaseId)).or
              (current.commit.bind fun c => optionText c.executionCellLeaseId) } }
        .committed
        (if (linked.bind (·.cellId)).isSome then ["linked-execution-cell-commit"] else [])

/-- The `heartbeat` action. -/
def heartbeatLane (o : LaneOptions) (current : Handshake) : LaneResult :=
  if current.state ≠ .active then
    refuseLane o (some current) .invalidState ["heartbeat-requires-active-state"]
  else acceptLane o { cloneForTransition current o.now with heartbeatAt := o.now } .renewed []

/-- The `release` action. -/
def releaseLane (o : LaneOptions) (current : Handshake) : LaneResult :=
  if current.state ≠ .requested ∧ current.state ≠ .granted ∧ current.state ≠ .active then
    refuseLane o (some current) .invalidState ["release-requires-live-state"]
  else
    acceptLane o
      { cloneForTransition current o.now with
        state := .released
        heartbeatAt := o.now
        release := some {
          releasedAt := o.now
          finalStatus := (optionText o.finalStatus).getD "succeeded"
          artifactPaths := normalizeCapabilities o.artifactPaths } }
      .released []

/-- `normalizeText(current?.request?.agentId) === agentId`. -/
def sameAgent (o : LaneOptions) (current : Handshake) : Bool :=
  JsString.trim current.request.agentId = o.agent

/-- `!leaseId || normalizeText(current?.grant?.leaseId) === leaseId`. -/
def leaseIdMatches (o : LaneOptions) (current : Handshake) : Bool :=
  match optionText o.leaseId with
  | none => true
  | some leaseId => JsString.trim ((current.grant.map (·.leaseId)).getD "") = leaseId

def withLeaseId (o : LaneOptions) (current : Handshake)
    (act : LaneOptions → Handshake → LaneResult) : LaneResult :=
  if leaseIdMatches o current then act o current
  else refuseLane o (some current) .mismatch ["lease-id-mismatch"]

def withHandshake (o : LaneOptions) (current : Option Handshake)
    (act : LaneOptions → Handshake → LaneResult) : LaneResult :=
  match current with
  | none => refuseLane o none .notFound []
  | some handshake =>
    if sameAgent o handshake then act o handshake
    else refuseLane o current .mismatch ["request-owner-mismatch"]

/-- `runDockerLaneHandshake` on a lane whose handshake is `current`. -/
def runDockerLaneHandshake (current : Option Handshake) (o : LaneOptions) : LaneResult :=
  match optionText o.laneId with
  | none => refuseLane o current .invalidState ["lane-id-required"]
  | some laneId =>
    match o.action with
    | .other _ => refuseLane o current .invalidState ["action-invalid"]
    | .inspect =>
      match current with
      | none => refuseLane o none .notFound []
      | some handshake =>
        refuseLane o current (if isHandshakeStale handshake o.now then .stale else .active) []
    | .request => requestLane laneId o current
    | .grant => withHandshake o current grantLane
    | .commit => withHandshake o current fun o current => withLeaseId o current commitLane
    | .heartbeat => withHandshake o current fun o current => withLeaseId o current heartbeatLane
    | .release => withHandshake o current fun o current => withLeaseId o current releaseLane

def laneStep (current : Option Handshake) (o : LaneOptions) : Option (Option Handshake) :=
  some (runDockerLaneHandshake current o).stored

/-! ### The law -/

def acceptedStatuses : List CellStatus := [.requested, .granted, .committed, .renewed, .released]

def LaneResult.accepted (result : LaneResult) : Bool :=
  decide (result.report.status ∈ acceptedStatuses)

/-- The operation is one of another agent than the one that requested the handshake. Ids
of agents count up to surrounding blanks. -/
def LaneOptions.isOther (o : LaneOptions) (handshake : Handshake) : Prop :=
  JsString.trim o.agent ≠ JsString.trim handshake.request.agentId

/-- A request starts over a missing or a released handshake. -/
def laneRestart (state : Option CellState) : Prop := state = none ∨ state = some .released

def handshakeState (current : Option Handshake) : Option CellState := current.map (·.state)

def acceptedCount : Option Handshake → List LaneOptions → ℕ
  | _, [] => 0
  | current, o :: os =>
    (if (runDockerLaneHandshake current o).accepted then 1 else 0) +
      acceptedCount (runDockerLaneHandshake current o).stored os

/-- The operation starts no new request. -/
def WithinRequest (current : Option Handshake) (o : LaneOptions) : Prop :=
  o.action = .request → (runDockerLaneHandshake current o).accepted = false

/-- What the handshake of a lane promises over a run of operations. -/
structure DockerLaneLaw (current : Option Handshake) (os : List LaneOptions) : Prop where
  /-- Every operation leaves the handshake as it is or moves it along the lifecycle. -/
  moves : Steps laneStep (fun s o t => t = s ∨
    ∃ h, t = some h ∧ LeaseMove laneRestart (handshakeState s) o.action h.state) current os
  /-- An operation of another agent on a handshake that is not released changes nothing. -/
  exclusive : Steps laneStep (fun s o t => ∀ h, s = some h → h.state ≠ .released →
    o.isOther h → t = s) current os
  /-- An operation that is not accepted changes nothing. -/
  rejected : Steps laneStep (fun s o t => (runDockerLaneHandshake s o).accepted = false →
    t = s) current os
  start : Steps laneStep (fun s o t => o.action = .request →
    (runDockerLaneHandshake s o).accepted = true → ∃ h, t = some h ∧ h.sequence = 1) current os
  /-- Within one request the sequence number counts the accepted operations. -/
  sequence : ∀ pre mid post h t, os = pre ++ (mid ++ post) →
    run laneStep current pre = some (some h) → Guarded laneStep WithinRequest (some h) mid →
      run laneStep (some h) mid = some t →
        ∃ h', t = some h' ∧ h'.request = h.request ∧
          h'.sequence = h.sequence + acceptedCount (some h) mid

/-! ### What an operation does -/

/-- The grant that `grantLane` gives a handshake. -/
structure Granted (handshake : Handshake) (profile : OperatorProfile) (grant : LaneGrant) :
    Prop where
  allowed : laneGrantReasons handshake profile = []
  capabilities : grant.grantedCapabilities = normalizeCapabilities handshake.request.capabilities
  multiplier : grant.billableRateMultiplier =
    if handshake.request.premiumDualLaneRequested then PREMIUM_RATE_MULTIPLIER
    else ORDINARY_RATE_MULTIPLIER
  premium : grant.premiumSaganMode = handshake.request.premiumDualLaneRequested

/-- The next handshake of an accepted operation on a handshake. -/
structure Continues (o : LaneOptions) (h h' : Handshake) : Prop where
  move : LeaseMove laneRestart (some h.state) o.action h'.state
  action : o.action ≠ .request
  request : h'.request = h.request
  sequence : h'.sequence = h.sequence + 1
  grant : (o.action ≠ .grant ∧ h'.grant = h.grant) ∨
    ∃ g, h'.grant = some g ∧ Granted h o.operatorProfile g

variable {o : LaneOptions} {h : Handshake} {s t : Option Handshake}

/-- An operation on a handshake is refused or goes on with it. -/
def Advances (o : LaneOptions) (h : Handshake) (result : LaneResult) : Prop :=
  (result.accepted = false ∧ result.stored = some h) ∨
    result.accepted = true ∧ ∃ h', result.stored = some h' ∧ Continues o h h'

theorem Continues.of_kept {h' : Handshake}
    (hmove : LeaseMove laneRestart (some h.state) o.action h'.state)
    (haction : o.action ≠ .request ∧ o.action ≠ .grant) (hrequest : h'.request = h.request)
    (hsequence : h'.sequence = h.sequence + 1) (hgrant : h'.grant = h.grant) :
    Continues o h h' :=
  ⟨hmove, haction.1, hrequest, hsequence, .inl ⟨haction.2, hgrant⟩⟩

theorem grantLane_advances (ha : o.action = .grant) : Advances o h (grantLane o h) := by
  unfold grantLane
  split
  · exact .inl ⟨rfl, rfl⟩
  · next hstate =>
    rw [not_not] at hstate
    dsimp only
    split
    · exact .inl ⟨rfl, rfl⟩
    · next hallowed =>
      refine .inr ⟨rfl, _, rfl, ?_⟩
      constructor
      · rw [ha, hstate]
        exact .grant
      · simp [ha]
      · rfl
      · rfl
      · refine .inr ⟨_, rfl, ?_, rfl, rfl, rfl⟩
        simpa [buildLaneDecision] using hallowed

theorem commitLane_advances (ha : o.action = .commit) : Advances o h (commitLane o h) := by
  unfold commitLane
  split
  · exact .inl ⟨rfl, rfl⟩
  · next hstate =>
    rw [not_not] at hstate
    dsimp only
    split
    · exact .inl ⟨rfl, rfl⟩
    · refine .inr ⟨rfl, _, rfl, .of_kept ?_ (by simp [ha]) rfl rfl rfl⟩
      rw [ha, hstate]
      exact .commit

theorem heartbeatLane_advances (ha : o.action = .heartbeat) :
    Advances o h (heartbeatLane o h) := by
  unfold heartbeatLane
  split
  · exact .inl ⟨rfl, rfl⟩
  · next hstate =>
    rw [not_not] at hstate
    refine .inr ⟨rfl, _, rfl, .of_kept ?_ (by simp [ha]) rfl rfl rfl⟩
    rw [ha, cloneForTransition, hstate]
    exact .heartbeat

theorem releaseLane_advances (ha : o.action = .release) : Advances o h (releaseLane o h) := by
  unfold releaseLane
  split
  · exact .inl ⟨rfl, rfl⟩
  · next hstate =>
    refine .inr ⟨rfl, _, rfl, .of_kept ?_ (by simp [ha]) rfl rfl rfl⟩
    rw [ha]
    exact .release fun hreleased => hstate (by simp [hreleased])

variable {act : LaneOptions → Handshake → LaneResult}

theorem withLeaseId_advances (hact : Advances o h (act o h)) :
    Advances o h (withLeaseId o h act) := by
  unfold withLeaseId
  split
  · exact hact
  · exact .inl ⟨rfl, rfl⟩

/-- An operation is refused, starts a request, or goes on with the handshake of its
agent. -/
def LaneEffect (o : LaneOptions) (s : Option Handshake) (result : LaneResult) : Prop :=
  (result.accepted = false ∧ result.stored = s) ∨
  (result.accepted = true ∧ o.action = .request ∧ laneRestart (handshakeState s) ∧
    ∃ laneId, result.stored = some (buildLaneRequest laneId o)) ∨
  (result.accepted = true ∧ ∃ h h', s = some h ∧ sameAgent o h = true ∧
    result.stored = some h' ∧ Continues o h h')

theorem requestLane_effect {laneId : String} (ha : o.action = .request) :
    LaneEffect o s (requestLane laneId o s) := by
  have hnext : ∀ s, laneRestart (handshakeState s) → LaneEffect o s
      (if (normalizeCapabilities o.capabilities).length = 0 then
        refuseLane o s .denied ["capabilities-required"]
      else acceptLane o (buildLaneRequest laneId o) .requested []) := by
    intro s hs
    split
    · exact .inl ⟨rfl, rfl⟩
    · exact .inr (.inl ⟨rfl, ha, hs, laneId, rfl⟩)
  unfold requestLane
  cases s with
  | none => exact hnext none (.inl rfl)
  | some h =>
    dsimp only
    split
    · split <;> exact .inl ⟨rfl, rfl⟩
    · next hstate => exact hnext (some h) (.inr (congrArg some (not_not.mp hstate)))

theorem withHandshake_effect (hact : ∀ h, Advances o h (act o h)) :
    LaneEffect o s (withHandshake o s act) := by
  unfold withHandshake
  split
  · exact .inl ⟨rfl, rfl⟩
  · next h =>
    split
    · next hagent =>
      rcases hact h with hrefused | ⟨haccepted, h', hstored, hnext⟩
      · exact .inl hrefused
      · exact .inr (.inr ⟨haccepted, h, h', rfl, hagent, hstored, hnext⟩)
    · exact .inl ⟨rfl, rfl⟩

/-- **One operation** on a lane. -/
theorem runDockerLaneHandshake_effect : LaneEffect o s (runDockerLaneHandshake s o) := by
  unfold runDockerLaneHandshake
  split
  · exact .inl ⟨rfl, rfl⟩
  · cases ha : o.action with
    | request => exact requestLane_effect ha
    | grant => exact withHandshake_effect fun h => grantLane_advances ha
    | commit => exact withHandshake_effect fun h => withLeaseId_advances (commitLane_advances ha)
    | heartbeat =>
      exact withHandshake_effect fun h => withLeaseId_advances (heartbeatLane_advances ha)
    | release => exact withHandshake_effect fun h => withLeaseId_advances (releaseLane_advances ha)
    | inspect =>
      refine .inl ?_
      dsimp only
      split
      · exact ⟨rfl, rfl⟩
      · split <;> exact ⟨rfl, rfl⟩
    | other text => exact .inl ⟨rfl, rfl⟩

/-! ### Runs -/

theorem laneStep_eq_some_iff : laneStep s o = some t ↔ (runDockerLaneHandshake s o).stored = t := by
  rw [laneStep, Option.some.injEq]

theorem not_isOther_of_sameAgent (hagent : sameAgent o h = true) : ¬ o.isOther h := by
  have heq : JsString.trim h.request.agentId = o.agent := of_decide_eq_true hagent
  rw [LaneOptions.isOther, not_not, ← heq, JsString.trim_trim]

theorem laneStep_moves (ht : (runDockerLaneHandshake s o).stored = t) :
    t = s ∨ ∃ h, t = some h ∧ LeaseMove laneRestart (handshakeState s) o.action h.state := by
  subst ht
  rcases runDockerLaneHandshake_effect (o := o) (s := s) with
    ⟨-, hsame⟩ | ⟨-, ha, hrestart, laneId, hstored⟩ | ⟨-, h, h', rfl, -, hstored, hnext⟩
  · exact .inl hsame
  · exact .inr ⟨_, hstored, ha ▸ .request hrestart⟩
  · exact .inr ⟨h', hstored, hnext.move⟩

theorem laneStep_exclusive (hlive : h.state ≠ .released) (hother : o.isOther h) :
    (runDockerLaneHandshake (some h) o).stored = some h := by
  rcases runDockerLaneHandshake_effect (o := o) (s := some h) with
    ⟨-, hsame⟩ | ⟨-, -, hrestart, -⟩ | ⟨-, h₀, -, hh, hagent, -⟩
  · exact hsame
  · -- a request meets a missing or a released handshake
    rcases hrestart with hs | hs
    · exact absurd hs (Option.some_ne_none _)
    · exact absurd (Option.some.inj hs) hlive
  · obtain rfl := Option.some.inj hh
    exact absurd hother (not_isOther_of_sameAgent hagent)

theorem laneStep_rejected (hrejected : (runDockerLaneHandshake s o).accepted = false) :
    (runDockerLaneHandshake s o).stored = s := by
  rcases runDockerLaneHandshake_effect (o := o) (s := s) with
    ⟨-, hsame⟩ | ⟨haccepted, -⟩ | ⟨haccepted, -⟩
  · exact hsame
  · exact absurd (haccepted.symm.trans hrejected) (by decide)
  · exact absurd (haccepted.symm.trans hrejected) (by decide)

theorem laneStep_start (ha : o.action = .request)
    (haccepted : (runDockerLaneHandshake s o).accepted = true) :
    ∃ h, (runDockerLaneHandshake s o).stored = some h ∧ h.sequence = 1 := by
  rcases runDockerLaneHandshake_effect (o := o) (s := s) with
    ⟨hrejected, -⟩ | ⟨-, -, -, laneId, hstored⟩ | ⟨-, h, h', -, -, -, hnext⟩
  · exact absurd (haccepted.symm.trans hrejected) (by decide)
  · exact ⟨_, hstored, rfl⟩
  · exact absurd ha hnext.action

/-- Within a request an operation adds one to the sequence number if it is accepted, and
nothing otherwise. -/
theorem laneStep_sequence (hwithin : WithinRequest (some h) o) :
    ∃ h', (runDockerLaneHandshake (some h) o).stored = some h' ∧ h'.request = h.request ∧
      h'.sequence =
        h.sequence + if (runDockerLaneHandshake (some h) o).accepted then 1 else 0 := by
  rcases runDockerLaneHandshake_effect (o := o) (s := some h) with
    ⟨hrejected, hsame⟩ | ⟨haccepted, ha, -⟩ | ⟨haccepted, h₀, h', hh, -, hstored, hnext⟩
  · exact ⟨h, hsame, rfl, by rw [hrejected]; rfl⟩
  · exact absurd (haccepted.symm.trans (hwithin ha)) (by decide)
  · obtain rfl := Option.some.inj hh
    exact ⟨h', hstored, hnext.request, by rw [haccepted]; exact hnext.sequence⟩

theorem sequence_of_run {os : List LaneOptions} (hG : Guarded laneStep WithinRequest (some h) os)
    (hrun : run laneStep (some h) os = some t) :
    ∃ h', t = some h' ∧ h'.request = h.request ∧
      h'.sequence = h.sequence + acceptedCount (some h) os := by
  induction os generalizing h with
  | nil =>
    obtain rfl := Option.some.inj hrun
    exact ⟨h, rfl, rfl, rfl⟩
  | cons o os ih =>
    obtain ⟨u, hu, hrun⟩ := run_cons_eq_some.mp hrun
    obtain ⟨h', hstored, hrequest, hsequence⟩ := laneStep_sequence hG.1
    obtain rfl : u = some h' := (laneStep_eq_some_iff.mp hu).symm.trans hstored
    obtain ⟨h'', rfl, hrequest', hsequence'⟩ := ih (hG.2 _ hu) hrun
    refine ⟨h'', rfl, hrequest'.trans hrequest, ?_⟩
    rw [hsequence', hsequence, acceptedCount, hstored, Nat.add_assoc]

/-- **The docker-lane handshake.** Every run of operations on a lane, by whichever
agents and from whatever handshake, keeps to the law. -/
theorem dockerLane_law (current : Option Handshake) (os : List LaneOptions) :
    DockerLaneLaw current os where
  moves := fun _ _ _ _ _ _ _ hstep => laneStep_moves (laneStep_eq_some_iff.mp hstep)
  exclusive := by
    rintro pre o post s t - - hstep h rfl hlive hother
    exact (laneStep_eq_some_iff.mp hstep).symm.trans (laneStep_exclusive hlive hother)
  rejected := by
    intro pre o post s t _ _ hstep hrejected
    exact (laneStep_eq_some_iff.mp hstep).symm.trans (laneStep_rejected hrejected)
  start := by
    intro pre o post s t _ _ hstep ha haccepted
    rw [← laneStep_eq_some_iff.mp hstep]
    exact laneStep_start ha haccepted
  sequence := fun _ _ _ _ _ _ _ hG hrun => sequence_of_run hG hrun

end CompareVI.Lease
