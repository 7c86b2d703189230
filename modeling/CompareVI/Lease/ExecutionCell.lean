import CompareVI.Framework.JsString
import CompareVI.Framework.Run

/-!
# The execution-cell lease

The lease of an execution cell is one record. `runExecutionCellLease` reads it,
and depending on the action writes a new one: `request` starts a record over,
`grant`, `commit`, `heartbeat` and `release` change the one that is there, and
`inspect` writes nothing. Operations run one after another.

A lease is live when it is granted or active and its last heartbeat is not older
than its time to live. `executionCell_exclusive` says when a live lease stays with
its holder: as long as no request meets a live lease, and no grant of another agent
meets a live lease that is granted but not committed. The step lemma behind it
(`cellStep_follows`) says what an operation on a record can do: only a request
replaces its request part, and only a grant issues a new lease id.
-/

open Framework

namespace CompareVI.Lease

/-! ### The record -/

/-- `toOptionalText` on a property of a JSON report. -/
def toOptionalText (value : Option Json) : Option String := Json.optionText value

/-- The agent classes of `normalizeAgentClass`. -/
inductive AgentClass where
  | sagan
  | subagent
  | other
  deriving DecidableEq, Repr

def normalizeAgentClass (value : Option String) : AgentClass :=
  let normalized := JsString.toLowerCase (JsString.trim (value.getD ""))
  if normalized = "sagan" then .sagan
  else if normalized = "other" then .other
  else .subagent

/-- `CELL_CLASS`. -/
inductive CellClass where
  | worker
  | coordinator
  | kernelCoordinator
  deriving DecidableEq, Repr

def normalizeCellClass (value : Option String) : CellClass :=
  let normalized := JsString.toLowerCase (JsString.trim (value.getD ""))
  if normalized = "coordinator" then .coordinator
  else if normalized = "kernel-coordinator" then .kernelCoordinator
  else .worker

/-- The `canonical` part of a host fingerprint. -/
structure HostCanonical where
  version : Option String
  buildNumber : Option String
  ubr : Option ℚ
  deriving DecidableEq

/-- The host context of `buildHostContext`. -/
structure HostContext where
  isolatedLaneGroupId : Option String
  fingerprintSha256 : Option String
  platform : Option String
  computerName : Option String
  canonical : HostCanonical
  deriving DecidableEq

inductive CellState where
  | requested
  | granted
  | active
  | released
  deriving DecidableEq, Repr

/-- The `request` part of a lease. -/
structure CellRequest where
  requestId : String
  requestedAt : ℤ
  agentId : Option String
  agentClass : AgentClass
  cellClass : CellClass
  suiteClass : Option String
  planeBinding : Option String
  harnessKind : String
  capabilities : List String
  premiumDualLaneRequested : Bool
  operatorId : Option String
  operatorAuthorizationRef : Option String
  workingRoot : Option String
  artifactRoot : Option String
  deriving DecidableEq

/-- The `grant` part of a lease. -/
structure CellGrant where
  grantedAt : ℤ
  grantor : String
  leaseId : String
  ttlSeconds : ℤ
  premiumDualLaneRequested : Bool
  premiumSaganMode : Bool
  policyDecision : String
  grantedCapabilities : List String
  billableRateMultiplier : ℚ
  billableRateUsdPerHour : Option ℚ
  deriving DecidableEq

/-- The `commit` part of a lease. -/
structure CellCommit where
  committedAt : ℤ
  harnessInstanceId : Option String
  dockerLaneId : Option String
  dockerLaneLeaseId : Option String
  workingRoot : Option String
  artifactRoot : Option String
  deriving DecidableEq

/-- The `release` part of a lease. -/
structure CellRelease where
  releasedAt : ℤ
  artifactPaths : List String
  deriving DecidableEq

/-- The record of a cell. Instants are in milliseconds; every write sets
`heartbeatAt`. -/
structure CellLease where
  generatedAt : ℤ
  cellId : String
  state : CellState
  sequence : ℕ
  heartbeatAt : ℤ
  host : Option HostContext
  request : CellRequest
  grant : Option CellGrant
  commit : Option CellCommit
  release : Option CellRelease
  deriving DecidableEq

def CellLease.holder (lease : CellLease) : Option String := lease.request.agentId

def CellLease.grantLeaseId (lease : CellLease) : Option String := lease.grant.map (·.leaseId)

/-! ### Staleness -/

def DEFAULT_TTL_SECONDS : ℤ := 1800

/-- `leaseAgeSeconds`. -/
def CellLease.ageSeconds (lease : CellLease) (nowMs : ℤ) : ℚ :=
  max 0 ((nowMs - lease.heartbeatAt : ℚ) / 1000)

def resolveTtlSeconds (lease : CellLease) : ℤ :=
  (lease.grant.map (·.ttlSeconds)).getD DEFAULT_TTL_SECONDS

def isExecutionCellLeaseStale (lease : CellLease) (nowMs : ℤ) : Bool :=
  if lease.state = .released then false
  else lease.ageSeconds nowMs > resolveTtlSeconds lease

/-! ### Requests and grants -/

def DEFAULT_HARNESS_KIND : String := "teststand-compare-harness"

def DOCKER_LANE_CAPABILITY : String := "docker-lane"

def NATIVE_LV32_CAPABILITY : String := "native-labview-2026-32"

def PREMIUM_RATE_MULTIPLIER : ℚ := 3 / 2

def ORDINARY_RATE_MULTIPLIER : ℚ := 1

def normalizeCapabilities (capabilities : List String) : List String :=
  ((capabilities.map JsString.trim).filter (· ≠ "")).eraseDups

def isPremiumDualLaneRequest (capabilities : List String) : Bool :=
  let set := normalizeCapabilities capabilities
  set.contains DOCKER_LANE_CAPABILITY && set.contains NATIVE_LV32_CAPABILITY

def isWindowsNativeTestStandPlaneBinding (planeBinding : Option String) : Bool :=
  let normalized := JsString.toLowerCase (JsString.trim (planeBinding.getD ""))
  normalized = "" || normalized = "dual-plane-parity" ||
    JsString.startsWith normalized "native-labview-"

/-- `buildHostContext`, with the observations. -/
def buildHostContext (hostPlaneReport : Option Json) : Option HostContext × List String :=
  let fingerprint := Json.path hostPlaneReport ["host", "osFingerprint"]
  match fingerprint with
  | some (.obj _) | some (.arr _) =>
    (some {
      isolatedLaneGroupId := toOptionalText (Json.path fingerprint ["isolatedLaneGroupId"])
      fingerprintSha256 := toOptionalText (Json.path fingerprint ["fingerprintSha256"])
      platform := toOptionalText (Json.path fingerprint ["platform"])
      computerName := toOptionalText (Json.path hostPlaneReport ["host", "computerName"])
      canonical := {
        version := toOptionalText (Json.path fingerprint ["canonical", "version"])
        buildNumber := toOptionalText (Json.path fingerprint ["canonical", "buildNumber"])
        ubr :=
          match Json.path fingerprint ["canonical", "ubr"] with
          | some (.num q) => if q.isInt then some q else none
          | _ => none } }, [])
  | _ => (none, ["host-os-fingerprint-missing"])

/-- The result of `resolveOperatorProfile`. -/
structure OperatorProfile where
  operatorId : Option String
  currency : String
  laborRateUsdPerHour : Option ℚ
  deriving DecidableEq

def resolveOperatorProfile (profile : Option Json) (explicitOperatorId : Option String) :
    OperatorProfile :=
  let operators :=
    match Json.path profile ["operators"] with
    | some (.arr xs) => xs
    | _ => []
  let desiredId :=
    (optionText explicitOperatorId).or (toOptionalText (Json.path profile ["defaultOperatorId"]))
  let activeOperators := operators.filter fun entry => entry.get? "active" ≠ some (.bool false)
  let idOf := fun entry : Json => JsString.trim (Json.stringOrEmpty (entry.get? "id"))
  let resolved :=
    (activeOperators.find? fun entry => idOf entry = desiredId.getD "").or activeOperators.head?
  { operatorId := (toOptionalText (Json.path resolved ["id"])).or desiredId
    currency := (toOptionalText (Json.path profile ["currency"])).getD "USD"
    laborRateUsdPerHour :=
      match Json.path resolved ["laborRateUsdPerHour"] with
      | some (.num q) => some q
      | _ => none }

/-- The actions; `other` is an unknown one. -/
inductive CellAction where
  | request
  | grant
  | commit
  | heartbeat
  | release
  | inspect
  | other (text : String)
  deriving DecidableEq, Repr

/-- The options of one operation, with the reports it loads: the host plane report,
the operator cost profile and, if its path is given, the docker lane report.
`freshId` is the id that the operation generates. -/
structure CellOptions where
  action : CellAction
  agentId : Option String
  agentClass : Option String
  cellClass : Option String
  suiteClass : Option String
  planeBinding : Option String
  harnessKind : Option String
  capabilities : List String
  operatorId : Option String
  operatorAuthorizationRef : Option String
  workingRoot : Option String
  artifactRoot : Option String
  grantor : Option String
  leaseId : Option String
  ttlSeconds : Option ℤ
  harnessInstanceId : Option String
  artifactPaths : List String
  hostPlaneReport : Option Json
  operatorCostProfile : Option Json
  dockerLaneReport : Option (Option Json)
  now : ℤ
  freshId : String

def CellOptions.agent (o : CellOptions) : Option String := optionText o.agentId

def buildRequestRecord (cellId : String) (o : CellOptions) (operatorId : Option String)
    (hostContext : Option HostContext) : CellLease :=
  let requestedCapabilities := normalizeCapabilities (normalizeCapabilities o.capabilities)
  { generatedAt := o.now
    cellId := cellId
    state := .requested
    sequence := 1
    heartbeatAt := o.now
    host := hostContext
    request := {
      requestId := o.freshId
      requestedAt := o.now
      agentId := optionText o.agentId
      agentClass := normalizeAgentClass o.agentClass
      cellClass := normalizeCellClass o.cellClass
      suiteClass := optionText o.suiteClass
      planeBinding := optionText o.planeBinding
      harnessKind := (optionText o.harnessKind).getD DEFAULT_HARNESS_KIND
      capabilities := requestedCapabilities
      premiumDualLaneRequested := isPremiumDualLaneRequest requestedCapabilities
      operatorId := optionText operatorId
      operatorAuthorizationRef := optionText o.operatorAuthorizationRef
      workingRoot := optionText o.workingRoot
      artifactRoot := optionText o.artifactRoot }
    grant := none
    commit := none
    release := none }

/-- The result of `buildGrantDecision`. -/
structure GrantDecision where
  allowed : Bool
  reasons : List String
  premiumDualLaneRequested : Bool
  policyDecision : String
  grantedCapabilities : List String
  billableRateMultiplier : ℚ
  billableRateUsdPerHour : Option ℚ

/-- The reasons of `buildGrantDecision`, in the order they are tested. -/
def grantReasons (lease : CellLease) (operatorProfile : OperatorProfile) (nowMs : ℤ) :
    List String :=
  let stale := isExecutionCellLeaseStale lease nowMs
  let premium := lease.request.premiumDualLaneRequested
  (if lease.state = .active && !stale then ["execution-cell-already-active"] else []) ++
  (if lease.request.harnessKind = DEFAULT_HARNESS_KIND &&
      !isWindowsNativeTestStandPlaneBinding lease.request.planeBinding then
    ["teststand-windows-native-only"] else []) ++
  (if lease.request.cellClass = .kernelCoordinator && lease.request.agentClass ≠ .sagan then
    ["kernel-cell-sagan-only"] else []) ++
  (if premium && lease.request.agentClass ≠ .sagan then ["premium-sagan-only"] else []) ++
  (if premium && lease.request.cellClass ≠ .kernelCoordinator then
    ["premium-kernel-cell-required"] else []) ++
  (if premium && (optionText lease.request.operatorAuthorizationRef).isNone then
    ["operator-authorization-required"] else []) ++
  (if operatorProfile.laborRateUsdPerHour.isNone then ["operator-cost-rate-unavailable"] else [])

def buildGrantDecision (lease : CellLease) (operatorProfile : OperatorProfile) (nowMs : ℤ) :
    GrantDecision :=
  let reasons := grantReasons lease operatorProfile nowMs
  let premium := lease.request.premiumDualLaneRequested
  let multiplier := if premium then PREMIUM_RATE_MULTIPLIER else ORDINARY_RATE_MULTIPLIER
  { allowed := reasons.length = 0
    reasons := reasons
    premiumDualLaneRequested := premium
    policyDecision := if premium then "sagan-premium-dual-lane" else "ordinary-execution-cell"
    grantedCapabilities := normalizeCapabilities lease.request.capabilities
    billableRateMultiplier := multiplier
    billableRateUsdPerHour :=
      operatorProfile.laborRateUsdPerHour.map fun rate => toFixed 3 (rate * multiplier) }

/-! ### The docker lane of a commit -/

/-- The result of `resolveDockerLaneLinkContext`. -/
structure DockerLaneLink where
  laneId : Option String
  leaseId : Option String
  holder : Option String
  isolatedLaneGroupId : Option String
  fingerprintSha256 : Option String
  deriving DecidableEq

/-- A value that counts as an object in a `typeof` test. -/
def isObject : Option Json → Bool
  | some (.obj _) | some (.arr _) => true
  | _ => false

def resolveDockerLaneLinkContext (report : Option Json) : Option DockerLaneLink :=
  let text := fun path => toOptionalText (Json.path report path)
  if isObject report && isObject (Json.path report ["handshake"]) then
    some {
      laneId := (text ["laneId"]).or (text ["handshake", "laneId"])
      leaseId := (text ["summary", "leaseId"]).or (text ["handshake", "grant", "leaseId"])
      holder := (text ["summary", "holder"]).or (text ["handshake", "request", "agentId"])
      isolatedLaneGroupId := (text ["summary", "isolatedLaneGroupId"]).or
        (text ["handshake", "host", "isolatedLaneGroupId"])
      fingerprintSha256 := (text ["summary", "fingerprintSha256"]).or
        (text ["handshake", "host", "fingerprintSha256"]) }
  else none

def textsDiffer : Option String → Option String → Bool
  | some a, some b => a ≠ b
  | _, _ => false

def validateDockerLaneLink (lease : CellLease) : Option DockerLaneLink → List String
  | none => ["docker-lane-report-invalid"]
  | some lane =>
    (if lane.laneId.isNone then ["docker-lane-id-missing"] else []) ++
    (if lane.leaseId.isNone then ["docker-lane-lease-id-missing"] else []) ++
    (if lane.holder.isNone then ["docker-lane-holder-missing"] else []) ++
    (if lane.isolatedLaneGroupId.isNone || lane.fingerprintSha256.isNone then
      ["docker-lane-host-fingerprint-missing"] else []) ++
    (if textsDiffer (optionText lease.request.agentId) lane.holder then
      ["docker-lane-owner-mismatch"] else []) ++
    (if textsDiffer (lease.host.bind fun h => optionText h.isolatedLaneGroupId)
        lane.isolatedLaneGroupId then
      ["docker-lane-isolated-lane-group-mismatch"] else []) ++
    (if textsDiffer (lease.host.bind fun h => optionText h.fingerprintSha256)
        lane.fingerprintSha256 then
      ["docker-lane-host-fingerprint-mismatch"] else [])

/-! ### The operations -/

/-- `STATUS`. -/
inductive CellStatus where
  | requested
  | granted
  | committed
  | renewed
  | released
  | active
  | busy
  | denied
  | notFound
  | mismatch
  | invalidState
  | stale
  deriving DecidableEq, Repr

/-- The report of an operation; the rest of the summary is read off the lease. -/
structure CellReport where
  status : CellStatus
  lease : Option CellLease
  denialReasons : List String
  observations : List String

/-- What an operation leaves on disk, and what it reports. -/
structure CellResult where
  stored : Option CellLease
  report : CellReport

def CellResult.refuse (existing : Option CellLease) (status : CellStatus)
    (denialReasons observations : List String) : CellResult :=
  ⟨existing, ⟨status, existing, denialReasons, observations⟩⟩

def CellResult.accept (lease : CellLease) (status : CellStatus) (observations : List String) :
    CellResult :=
  ⟨some lease, ⟨status, some lease, [], observations⟩⟩

/-- `leaseId && leaseId !== toOptionalText(existing?.grant?.leaseId)`. -/
def leaseIdMismatch (o : CellOptions) (existing : CellLease) : Bool :=
  match optionText o.leaseId with
  | none => false
  | some leaseId => optionText existing.grantLeaseId ≠ some leaseId

/-- The `grant` action. -/
def grantCell (o : CellOptions) (existing : CellLease) : CellResult :=
  let host := buildHostContext o.hostPlaneReport
  let operatorProfile := resolveOperatorProfile o.operatorCostProfile o.operatorId
  let decision := buildGrantDecision existing operatorProfile o.now
  if decision.allowed then
    .accept
      { existing with
        generatedAt := o.now
        state := .granted
        sequence := existing.sequence + 1
        heartbeatAt := o.now
        host := host.1.or existing.host
        grant := some {
          grantedAt := o.now
          grantor := (optionText o.grantor).getD "execution-cell-governor"
          leaseId := o.freshId
          ttlSeconds := o.ttlSeconds.getD DEFAULT_TTL_SECONDS
          premiumDualLaneRequested := decision.premiumDualLaneRequested
          premiumSaganMode := decision.premiumDualLaneRequested
          policyDecision := decision.policyDecision
          grantedCapabilities := decision.grantedCapabilities
          billableRateMultiplier := decision.billableRateMultiplier
          billableRateUsdPerHour := decision.billableRateUsdPerHour } }
      .granted host.2
  else
    .refuse (some existing)
      (if decision.reasons.contains "execution-cell-already-active" then .busy else .denied)
      decision.reasons []

/-- The `commit` and `heartbeat` actions. -/
def commitCell (o : CellOptions) (existing : CellLease) : CellResult :=
  let host := buildHostContext o.hostPlaneReport
  if leaseIdMismatch o existing then
    .refuse (some existing) .mismatch ["lease-id-mismatch"] []
  else if existing.state ≠ .granted ∧ existing.state ≠ .active then
    .refuse (some existing) .invalidState ["execution-cell-not-granted"] []
  else
    -- a heartbeat links no docker lane
    let linked? := if o.action = .commit then o.dockerLaneReport else none
    let linkReasons := linked?.elim [] fun report =>
      validateDockerLaneLink existing (resolveDockerLaneLinkContext report)
    if linkReasons.length > 0 then .refuse (some existing) .mismatch linkReasons []
    else
      let linked := linked?.bind resolveDockerLaneLinkContext
      .accept
        { existing with
          generatedAt := o.now
          state := .active
          sequence := existing.sequence + 1
          heartbeatAt := o.now
          host := host.1.or existing.host
          commit := some {
            committedAt := o.now
            harnessInstanceId := (optionText o.harnessInstanceId).or
              (existing.commit.bind fun c => optionText c.harnessInstanceId)
            dockerLaneId := (linked.bind (·.laneId)).or
              (existing.commit.bind fun c => optionText c.dockerLaneId)
            dockerLaneLeaseId := (linked.bind (·.leaseId)).or
              (existing.commit.bind fun c => optionText c.dockerLaneLeaseId)
            workingRoot := (optionText o.workingRoot).or (optionText existing.request.workingRoot)
            artifactRoot :=
              (optionText o.artifactRoot).or (optionText existing.request.artifactRoot) } }
        (if o.action = .commit then .committed else .renewed)
        (host.2 ++ if (linked.bind (·.laneId)).isSome then ["linked-docker-lane-commit"] else [])

/-- The `release` action. -/
def releaseCell (o : CellOptions) (existing : CellLease) : CellResult :=
  if leaseIdMismatch o existing then
    .refuse (some existing) .mismatch ["lease-id-mismatch"] []
  else
    .accept
      { existing with
        generatedAt := o.now
        state := .released
        sequence := existing.sequence + 1
        heartbeatAt := o.now
        release := some {
          releasedAt := o.now
          artifactPaths := (o.artifactPaths.map JsString.trim).filter (· ≠ "") } }
      .released []

/-- The status `inspect` reports. -/
def inspectStatus (existing : CellLease) (nowMs : ℤ) : CellStatus :=
  if isExecutionCellLeaseStale existing nowMs then .stale
  else if existing.state = .released then .released
  else .active

/-- `runExecutionCellLease` on the cell `cellId`, whose record is `existing`. -/
def runExecutionCellLease (cellId : String) (existing : Option CellLease) (o : CellOptions) :
    Except String CellResult :=
  let host := buildHostContext o.hostPlaneReport
  let operatorProfile := resolveOperatorProfile o.operatorCostProfile o.operatorId
  match o.action, existing with
  | .request, _ =>
    .ok (.accept (buildRequestRecord cellId o operatorProfile.operatorId host.1) .requested host.2)
  | _, none => .ok (.refuse none .notFound [] ["execution-cell-lease-missing"])
  | .grant, some existing => .ok (grantCell o existing)
  | .commit, some existing => .ok (commitCell o existing)
  | .heartbeat, some existing => .ok (commitCell o existing)
  | .release, some existing => .ok (releaseCell o existing)
  | .inspect, some existing =>
    .ok (.refuse (some existing) (inspectStatus existing o.now) [] [])
  | .other text, some _ => .error ("Unsupported action '" ++ text ++ "'")

/-- One operation on the record of a cell; an operation that throws writes
nothing. -/
def cellStep (cellId : String) (stored : Option CellLease) (o : CellOptions) :
    Option (Option CellLease) :=
  match runExecutionCellLease cellId stored o with
  | .ok result => some result.stored
  | .error _ => some stored

/-! ### Exclusivity -/

def CellLease.isLive (lease : CellLease) (nowMs : ℤ) : Bool :=
  (lease.state = .granted || lease.state = .active) && !isExecutionCellLeaseStale lease nowMs

/-- The operation finds no stale lease and does not release one. -/
def NotFreed (cellId : String) (stored : Option CellLease) (o : CellOptions) : Prop :=
  (∀ l, stored = some l → isExecutionCellLeaseStale l o.now = false) ∧
    ∀ l, cellStep cellId stored o = some (some l) → l.state ≠ .released

/-- What a live lease promises its holder over a run of operations. -/
structure CellExclusive (cellId : String) (stored : Option CellLease) (os : List CellOptions) :
    Prop where
  /-- An operation of another agent leaves the holder and the lease id of a live
  lease as they are. -/
  undisturbed : ∀ pre o post s l t, os = pre ++ o :: post →
    run (cellStep cellId) stored pre = some s → s = some l → l.isLive o.now = true →
      o.agent ≠ l.holder → cellStep cellId s o = some t →
        ∃ l', t = some l' ∧ l'.holder = l.holder ∧ l'.grantLeaseId = l.grantLeaseId
  /-- As long as a granted or active lease is neither released nor found stale, its
  holder stays. -/
  succession : ∀ pre mid post s l t, os = pre ++ (mid ++ post) →
    run (cellStep cellId) stored pre = some s → s = some l →
      (l.state = .granted ∨ l.state = .active) →
        Guarded (cellStep cellId) (NotFreed cellId) s mid →
          run (cellStep cellId) s mid = some t → ∃ l', t = some l' ∧ l'.holder = l.holder

/-- The condition on an operation: a live lease is not requested over, and while it
is granted but not committed only its holder has it granted again. -/
def NoOverride (stored : Option CellLease) (o : CellOptions) : Prop :=
  ∀ l, stored = some l → l.isLive o.now = true →
    o.action ≠ .request ∧ (o.action = .grant → l.state = .granted → o.agent = l.holder)

instance (stored : Option CellLease) (o : CellOptions) : Decidable (NoOverride stored o) := by
  unfold NoOverride
  infer_instance

variable {cellId : String} {o : CellOptions} {l : CellLease} {s t : Option CellLease}

theorem isLive_iff {now : ℤ} :
    l.isLive now = true ↔
      (l.state = .granted ∨ l.state = .active) ∧ isExecutionCellLeaseStale l now = false := by
  simp [CellLease.isLive]

/-- What an operation on a record may change, a request apart: the request part
stays, a requested record stays one or is taken further, and only a grant that does
not meet a live active lease changes the grant. -/
def Follows (o : CellOptions) (l : CellLease) (t : Option CellLease) : Prop :=
  ∃ l', t = some l' ∧ l'.request = l.request ∧
    (l'.state = .requested → l.state = .requested) ∧
    (l'.grant = l.grant ∨
      o.action = .grant ∧ (l.state = .active → isExecutionCellLeaseStale l o.now = true))

theorem Follows.refl : Follows o l (some l) := ⟨l, rfl, rfl, id, .inl rfl⟩

theorem Follows.of_grant {l' : CellLease} (hrequest : l'.request = l.request)
    (hstate : l'.state ≠ .requested) (hgrant : l'.grant = l.grant) : Follows o l (some l') :=
  ⟨l', rfl, hrequest, fun h => absurd h hstate, .inl hgrant⟩

theorem stale_of_allowed {profile : OperatorProfile} {now : ℤ}
    (h : (buildGrantDecision l profile now).allowed = true) (hactive : l.state = .active) :
    isExecutionCellLeaseStale l now = true := by
  have hnil : grantReasons l profile now = [] :=
    List.length_eq_zero_iff.mp (of_decide_eq_true h)
  by_contra hstale
  simp only [grantReasons, hactive, decide_true, Bool.eq_false_iff.mpr hstale, Bool.not_false,
    Bool.and_self, if_true, List.append_assoc, List.cons_append] at hnil
  cases hnil

theorem follows_grantCell (ha : o.action = .grant) : Follows o l (grantCell o l).stored := by
  unfold grantCell
  dsimp only
  split
  · next h =>
    refine ⟨_, rfl, rfl, fun hstate => ?_, .inr ⟨ha, stale_of_allowed h⟩⟩
    cases hstate
  · exact Follows.refl

theorem follows_commitCell : Follows o l (commitCell o l).stored := by
  unfold commitCell
  dsimp only
  generalize (if o.action = .commit then o.dockerLaneReport else none) = linked?
  split
  · exact Follows.refl
  · split
    · exact Follows.refl
    · split
      · exact Follows.refl
      · exact Follows.of_grant rfl (fun h => nomatch h) rfl

theorem follows_releaseCell : Follows o l (releaseCell o l).stored := by
  unfold releaseCell
  split
  · exact Follows.refl
  · exact Follows.of_grant rfl (fun h => nomatch h) rfl

/-- **One operation on a record.** Every action but a request follows it. -/
theorem cellStep_follows (ha : o.action ≠ .request) (h : cellStep cellId (some l) o = some t) :
    Follows o l t := by
  unfold cellStep runExecutionCellLease at h
  cases haction : o.action with
  | request => exact absurd haction ha
  | grant =>
    simp only [haction, Option.some.injEq] at h
    exact h ▸ follows_grantCell haction
  | commit =>
    simp only [haction, Option.some.injEq] at h
    exact h ▸ follows_commitCell
  | heartbeat =>
    simp only [haction, Option.some.injEq] at h
    exact h ▸ follows_commitCell
  | release =>
    simp only [haction, Option.some.injEq] at h
    exact h ▸ follows_releaseCell
  | inspect =>
    simp only [haction, CellResult.refuse, Option.some.injEq] at h
    exact h ▸ Follows.refl
  | other text =>
    simp only [haction, Option.some.injEq] at h
    exact h ▸ Follows.refl

theorem cellStep_keeps_holder (hG : NoOverride (some l) o) (hlive : l.isLive o.now = true)
    (h : cellStep cellId (some l) o = some t) :
    ∃ l', t = some l' ∧ l'.holder = l.holder ∧ l'.state ≠ .requested := by
  obtain ⟨l', rfl, hrequest, hstate, -⟩ := cellStep_follows (hG l rfl hlive).1 h
  refine ⟨l', rfl, congrArg CellRequest.agentId hrequest, fun hreq => ?_⟩
  have := hstate hreq
  rcases (isLive_iff.mp hlive).1 with h | h <;> simp [h] at this

theorem cellStep_keeps_leaseId (hG : NoOverride (some l) o) (hlive : l.isLive o.now = true)
    (hagent : o.agent ≠ l.holder) (h : cellStep cellId (some l) o = some t) :
    ∃ l', t = some l' ∧ l'.holder = l.holder ∧ l'.grantLeaseId = l.grantLeaseId := by
  obtain ⟨hreq, hgrant⟩ := hG l rfl hlive
  obtain ⟨hstate, hfresh⟩ := isLive_iff.mp hlive
  obtain ⟨l', rfl, hrequest, -, hg | ⟨ha, hactive⟩⟩ := cellStep_follows hreq h
  · exact ⟨l', rfl, congrArg CellRequest.agentId hrequest,
      congrArg (Option.map CellGrant.leaseId) hg⟩
  · -- a grant: the lease is not active, so it is granted and the agent is its holder
    rcases hstate with h | h
    · exact absurd (hgrant ha h) hagent
    · rw [hactive h] at hfresh
      cases hfresh

/-- **Execution-cell exclusivity.** In every run in which no operation overrides a
live lease, whatever record it starts from, a live lease stays with its holder under
its id until it is released or stale. -/
theorem executionCell_exclusive (cellId : String) (stored : Option CellLease)
    (os : List CellOptions) (hG : Guarded (cellStep cellId) NoOverride stored os) :
    CellExclusive cellId stored os where
  undisturbed := by
    rintro pre o post s l t hsplit hpre rfl hlive hagent h
    exact cellStep_keeps_leaseId (guarded_iff_split.mp hG pre o post _ hsplit hpre) hlive hagent h
  succession := by
    rintro pre mid post s l t hsplit hpre rfl hstate hfreed hrun
    have hG' : Guarded (cellStep cellId) NoOverride (some l) mid :=
      (guarded_append.mp ((guarded_append.mp (hsplit ▸ hG)).2 _ hpre)).1
    -- along the run the record is granted or active and has the same holder
    have hinv : ∃ l', t = some l' ∧ l'.holder = l.holder ∧
        (l'.state = .granted ∨ l'.state = .active) := by
      refine run_invariant (I := fun s => ∃ l', s = some l' ∧ l'.holder = l.holder ∧
        (l'.state = .granted ∨ l'.state = .active)) ?_ ⟨l, rfl, rfl, hstate⟩ (hG'.and hfreed) hrun
      rintro s o t ⟨l', rfl, hholder, hstate'⟩ ⟨hno, hstale, hreleased⟩ hstep
      have hlive := isLive_iff.mpr ⟨hstate', hstale l' rfl⟩
      obtain ⟨l'', rfl, hkeep, hreq⟩ := cellStep_keeps_holder hno hlive hstep
      refine ⟨l'', rfl, hkeep.trans hholder, ?_⟩
      have hrel := hreleased l'' hstep
      cases hs : l''.state with
      | requested => exact absurd hs hreq
      | released => exact absurd hs hrel
      | granted => exact .inl rfl
      | active => exact .inr rfl
    obtain ⟨l', ht, hholder, -⟩ := hinv
    exact ⟨l', ht, hholder⟩

/-! ### A request over a live lease -/

/-- An operation of an agent at an instant, with a cost profile that lets grants
pass. -/
def plainOperation (action : CellAction) (agentId : String) (now : ℤ) (freshId : String) :
    CellOptions where
  action := action
  agentId := some agentId
  agentClass := none
  cellClass := none
  suiteClass := none
  planeBinding := none
  harnessKind := none
  capabilities := []
  operatorId := none
  operatorAuthorizationRef := none
  workingRoot := none
  artifactRoot := none
  grantor := none
  leaseId := none
  ttlSeconds := none
  harnessInstanceId := none
  artifactPaths := []
  hostPlaneReport := none
  operatorCostProfile := some (.obj [("operators", .arr [.obj
    [("id", .str "operator"), ("laborRateUsdPerHour", .num 250)]])])
  dockerLaneReport := none
  now := now
  freshId := freshId

/-- Agent `a` requests the cell, has it granted and commits. -/
def holderOperations : List CellOptions :=
  [plainOperation .request "a" 0 "request-1", plainOperation .grant "a" 1000 "lease-1",
    plainOperation .commit "a" 2000 ""]

/-- A second later agent `b` requests the cell. -/
def requestOver : CellOptions := plainOperation .request "b" 3000 "request-2"

/-- The request of `b` takes the active lease of `a` away. -/
theorem not_cellExclusive_requestOver :
    ¬ CellExclusive "cell" none (holderOperations ++ [requestOver]) := by
  intro h
  have hrun : ((run (cellStep "cell") none holderOperations).bind id).all
      (fun l => l.isLive 3000 && decide (l.holder = some "a")) = true := by
    decide +kernel
  have hsome : ((run (cellStep "cell") none holderOperations).bind id).isSome = true := by
    decide +kernel
  obtain ⟨l, hl⟩ := Option.isSome_iff_exists.mp hsome
  rw [hl, Option.all_some, Bool.and_eq_true, decide_eq_true_eq] at hrun
  obtain ⟨s, hs, rfl⟩ := Option.bind_eq_some_iff.mp hl
  obtain ⟨l', ht, hholder, -⟩ := h.undisturbed holderOperations requestOver [] (some l) l
    _ rfl hs rfl hrun.1 (by rw [hrun.2]; decide) rfl
  have hb : (some l').all (fun l => decide (l.holder = some "b")) = true := by
    rw [← ht]
    decide
  rw [Option.all_some, decide_eq_true_eq, hholder, hrun.2] at hb
  exact absurd hb (by decide)

/-- The holder's own operations override nothing. -/
theorem executionCell_exclusive_holderOperations :
    CellExclusive "cell" none holderOperations :=
  executionCell_exclusive "cell" none holderOperations (by decide +kernel)

end CompareVI.Lease
