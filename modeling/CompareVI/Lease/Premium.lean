import CompareVI.Lease.DockerLane

/-!
# The premium rate of a lease

A request for both the docker lane and the native LabVIEW plane is a premium one. Only a
Sagan agent with an operator authorization is granted it, on an execution cell only as the
kernel coordinator, and its grant carries the premium multiplier.

Both lane machines compute the premium flag at the request, decide the grant on the flag
and hand both parts on to the next record. `premium_gated` says that the parts of a stored
record always belong together: a request replaces all of them, a grant reads the request
of the record that it is written to (`CellGranted`, `LaneGranted`), and every other
operation keeps both (`cellGate_step`, `laneGate_step`).
-/

open Framework

namespace CompareVI.Lease

/-! ### The law -/

/-- Both capabilities of a premium request. -/
def IsDualLane (capabilities : List String) : Prop :=
  DOCKER_LANE_CAPABILITY ∈ capabilities ∧ NATIVE_LV32_CAPABILITY ∈ capabilities

/-- A reference that is there and not blank. -/
def IsAuthorized (operatorAuthorizationRef : Option String) : Prop :=
  ∃ ref, operatorAuthorizationRef = some ref ∧ JsString.trim ref ≠ ""

/-- The premium rate of an execution cell. -/
structure CellPremium (l : CellLease) : Prop where
  /-- A premium lease is one of an authorized Sagan kernel coordinator, and its grant is
  marked and rated premium for what was requested. -/
  premium : (l.state = .granted ∨ l.state = .active) → IsDualLane l.request.capabilities →
    l.request.agentClass = .sagan ∧ IsAuthorized l.request.operatorAuthorizationRef ∧
      l.request.cellClass = .kernelCoordinator ∧
        ∃ g, l.grant = some g ∧ g.premiumDualLaneRequested = true ∧ g.premiumSaganMode = true ∧
          g.billableRateMultiplier = 3 / 2 ∧ g.grantedCapabilities = l.request.capabilities
  ordinary : ∀ g, l.grant = some g → g.billableRateMultiplier = 3 / 2 →
    IsDualLane l.request.capabilities

/-- The premium rate of a docker lane. -/
structure LanePremium (h : Handshake) : Prop where
  /-- A premium handshake is one of an authorized Sagan agent, and its grant is marked and
  rated premium for what was requested. -/
  premium : (h.state = .granted ∨ h.state = .active) → IsDualLane h.request.capabilities →
    h.request.agentClass = .sagan ∧ IsAuthorized h.request.operatorAuthorizationRef ∧
      ∃ g, h.grant = some g ∧ g.premiumSaganMode = true ∧
        g.billableRateMultiplier = 3 / 2 ∧ g.grantedCapabilities = h.request.capabilities
  ordinary : ∀ g, h.grant = some g → g.billableRateMultiplier = 3 / 2 →
    IsDualLane h.request.capabilities

/-! ### Capabilities and rates -/

@[simp] theorem normalizeCapabilities_idem (capabilities : List String) :
    normalizeCapabilities (normalizeCapabilities capabilities) =
      normalizeCapabilities capabilities := by
  have hmem : ∀ c ∈ normalizeCapabilities capabilities, JsString.trim c = c ∧ c ≠ "" := by
    intro c hc
    obtain ⟨hc, hne⟩ := List.mem_filter.mp (List.mem_eraseDups.mp hc)
    obtain ⟨d, -, rfl⟩ := List.mem_map.mp hc
    exact ⟨JsString.trim_trim d, of_decide_eq_true hne⟩
  have hmap : (normalizeCapabilities capabilities).map JsString.trim =
      normalizeCapabilities capabilities :=
    (List.map_congr_left fun c hc => (hmem c hc).1).trans (List.map_id _)
  have hfilter : (normalizeCapabilities capabilities).filter (· ≠ "") =
      normalizeCapabilities capabilities :=
    List.filter_eq_self.mpr fun c hc => decide_eq_true (hmem c hc).2
  rw [normalizeCapabilities, hmap, hfilter]
  exact Tokens.eraseDups_eraseDups _

theorem isPremiumDualLaneRequest_iff {capabilities : List String}
    (h : normalizeCapabilities capabilities = capabilities) :
    isPremiumDualLaneRequest capabilities = true ↔ IsDualLane capabilities := by
  simp only [isPremiumDualLaneRequest, h, Bool.and_eq_true, List.contains_iff_mem, IsDualLane]

def multiplierOf (premium : Bool) : ℚ :=
  if premium then PREMIUM_RATE_MULTIPLIER else ORDINARY_RATE_MULTIPLIER

theorem multiplierOf_eq_iff (premium : Bool) : multiplierOf premium = 3 / 2 ↔ premium = true := by
  cases premium
  · exact iff_of_false (by decide +kernel) (by decide)
  · exact iff_of_true rfl rfl

theorem isAuthorized_of_optionText {ref : Option String} (h : (optionText ref).isNone = false) :
    IsAuthorized ref := by
  cases ref with
  | none => exact absurd h (by simp [optionText])
  | some ref =>
    refine ⟨ref, rfl, fun hblank => ?_⟩
    simp [optionText, optionalTrim, hblank] at h

/-! ### The execution cell -/

/-- The grant that a request was given. -/
structure CellGranted (request : CellRequest) (grant : CellGrant) : Prop where
  capabilities : grant.grantedCapabilities = normalizeCapabilities request.capabilities
  multiplier : grant.billableRateMultiplier = multiplierOf request.premiumDualLaneRequested
  premium : grant.premiumDualLaneRequested = request.premiumDualLaneRequested
  saganMode : grant.premiumSaganMode = request.premiumDualLaneRequested
  gated : request.premiumDualLaneRequested = true →
    request.agentClass = .sagan ∧ IsAuthorized request.operatorAuthorizationRef ∧
      request.cellClass = .kernelCoordinator

/-- The invariant of a stored lease. -/
structure CellGate (l : CellLease) : Prop where
  normalized : normalizeCapabilities l.request.capabilities = l.request.capabilities
  flag : l.request.premiumDualLaneRequested = isPremiumDualLaneRequest l.request.capabilities
  grant : ∀ g, l.grant = some g → CellGranted l.request g
  held : l.state = .granted ∨ l.state = .active → ∃ g, l.grant = some g

variable {cellId : String} {o : CellOptions} {l : CellLease} {s t : Option CellLease}

theorem CellGate.cellPremium (hl : CellGate l) : CellPremium l where
  premium := by
    intro hstate hdual
    have hflag : l.request.premiumDualLaneRequested = true :=
      hl.flag.trans ((isPremiumDualLaneRequest_iff hl.normalized).mpr hdual)
    obtain ⟨g, hg⟩ := hl.held hstate
    have hgranted := hl.grant g hg
    obtain ⟨hagent, hauthorized, hcell⟩ := hgranted.gated hflag
    refine ⟨hagent, hauthorized, hcell, g, hg, hgranted.premium.trans hflag,
      hgranted.saganMode.trans hflag, ?_, hgranted.capabilities.trans hl.normalized⟩
    exact hgranted.multiplier.trans ((multiplierOf_eq_iff _).mpr hflag)
  ordinary := by
    intro g hg hmultiplier
    rw [(hl.grant g hg).multiplier, multiplierOf_eq_iff, hl.flag] at hmultiplier
    exact (isPremiumDualLaneRequest_iff hl.normalized).mp hmultiplier

theorem gated_of_not_denied (h : ¬ grantDenied o l)
    (hpremium : l.request.premiumDualLaneRequested = true) :
    l.request.agentClass = .sagan ∧ IsAuthorized l.request.operatorAuthorizationRef ∧
      l.request.cellClass = .kernelCoordinator := by
  have hnil := not_not.mp h
  simp only [grantReasons, hpremium, List.append_eq_nil_iff, Bool.true_and] at hnil
  obtain ⟨⟨⟨⟨-, hagent⟩, hcell⟩, hauthorized⟩, -⟩ := hnil
  refine ⟨?_, isAuthorized_of_optionText ?_, ?_⟩
  · by_contra hne
    simp [hne] at hagent
  · by_contra hne
    simp at hne
    simp [hne] at hauthorized
  · by_contra hne
    simp [hne] at hcell

theorem CellGate.of_kept {l' : CellLease} (hl : CellGate l) (hrequest : l'.request = l.request)
    (hgrant : l'.grant = l.grant)
    (hheld : l'.state = .granted ∨ l'.state = .active → l.state = .granted ∨ l.state = .active) :
    CellGate l' where
  normalized := hrequest ▸ hl.normalized
  flag := hrequest ▸ hl.flag
  grant := by
    rw [hgrant, hrequest]
    exact hl.grant
  held := by
    rw [hgrant]
    exact fun h => hl.held (hheld h)

/-- What a stored record has, if there is one. -/
def Holds {α : Type*} (P : α → Prop) (stored : Option α) : Prop := ∀ x, stored = some x → P x

theorem Holds.none {α : Type*} {P : α → Prop} : Holds P none :=
  fun x hx => absurd hx.symm (Option.some_ne_none x)

theorem Holds.some {α : Type*} {P : α → Prop} {x : α} (h : P x) : Holds P (some x) :=
  fun _ hx => Option.some.inj hx ▸ h

theorem grantCell_cellGranted (hdenied : ¬ grantDenied o l) :
    ∃ l' g, (grantCell o l).stored = some l' ∧ l'.request = l.request ∧ l'.grant = some g ∧
      CellGranted l.request g := by
  unfold grantCell
  have hreasons := not_not.mp hdenied
  rw [if_pos (by simp [buildGrantDecision, hreasons])]
  exact ⟨_, _, rfl, rfl, rfl, rfl, rfl, rfl, rfl, gated_of_not_denied hdenied⟩

theorem cellGate_grant (hl : CellGate l) : Holds CellGate (grantCell o l).stored := by
  by_cases hdenied : grantDenied o l
  · rw [grantCell_denied hdenied]
    exact .some hl
  · obtain ⟨l', g, hstored, hrequest, hg, hgranted⟩ := grantCell_cellGranted hdenied
    rw [hstored]
    refine .some ⟨hrequest ▸ hl.normalized, hrequest ▸ hl.flag, ?_, fun _ => ⟨g, hg⟩⟩
    rw [hg, hrequest]
    rintro g' hg'
    obtain rfl := Option.some.inj hg'
    exact hgranted

theorem cellGate_commit (hl : CellGate l) : Holds CellGate (commitCell o l).stored := by
  unfold commitCell
  dsimp only
  generalize (if o.action = .commit then o.dockerLaneReport else none) = linked?
  split
  · exact .some hl
  · split
    · exact .some hl
    · next hstate =>
      split
      · exact .some hl
      · refine .some (hl.of_kept rfl rfl fun _ => ?_)
        by_contra h
        exact hstate (not_or.mp h)

theorem cellGate_release (hl : CellGate l) : Holds CellGate (releaseCell o l).stored := by
  unfold releaseCell
  split
  · exact .some hl
  · refine .some (hl.of_kept rfl rfl ?_)
    rintro (h | h) <;> cases h

/-- **One operation** keeps the parts of a lease together. -/
theorem cellGate_step (hs : Holds CellGate s) (h : cellStep cellId s o = some t) :
    Holds CellGate t := by
  obtain rfl : cellStored cellId s o = t := Option.some.inj (cellStep_eq.symm.trans h)
  by_cases hrequest : o.action = .request
  · simp only [cellStored, hrequest]
    exact .some ⟨normalizeCapabilities_idem _, rfl, by rintro _ ⟨⟩, by rintro (h | h) <;> cases h⟩
  · cases s with
    | none =>
      rw [cellStored_none hrequest]
      exact .none
    | some l =>
      have hl := hs l rfl
      cases ha : o.action with
      | request => exact absurd ha hrequest
      | grant => simpa only [cellStored, ha] using cellGate_grant hl
      | commit => simpa only [cellStored, ha] using cellGate_commit hl
      | heartbeat => simpa only [cellStored, ha] using cellGate_commit hl
      | release => simpa only [cellStored, ha] using cellGate_release hl
      | inspect => simpa only [cellStored, ha] using Holds.some hl
      | other text => simpa only [cellStored, ha] using Holds.some hl

/-! ### The docker lane -/

/-- The grant that a request was given. -/
structure LaneGranted (request : LaneRequest) (grant : LaneGrant) : Prop where
  capabilities : grant.grantedCapabilities = normalizeCapabilities request.capabilities
  multiplier : grant.billableRateMultiplier = multiplierOf request.premiumDualLaneRequested
  saganMode : grant.premiumSaganMode = request.premiumDualLaneRequested
  gated : request.premiumDualLaneRequested = true →
    request.agentClass = .sagan ∧ IsAuthorized request.operatorAuthorizationRef

/-- The invariant of a stored handshake. -/
structure LaneGate (h : Handshake) : Prop where
  normalized : normalizeCapabilities h.request.capabilities = h.request.capabilities
  flag : h.request.premiumDualLaneRequested = isPremiumDualLaneRequest h.request.capabilities
  grant : ∀ g, h.grant = some g → LaneGranted h.request g
  held : h.state = .granted ∨ h.state = .active → ∃ g, h.grant = some g

section Lane

variable {o : LaneOptions} {h h' : Handshake} {s t : Option Handshake}

theorem LaneGate.lanePremium (hh : LaneGate h) : LanePremium h where
  premium := by
    intro hstate hdual
    have hflag : h.request.premiumDualLaneRequested = true :=
      hh.flag.trans ((isPremiumDualLaneRequest_iff hh.normalized).mpr hdual)
    obtain ⟨g, hg⟩ := hh.held hstate
    have hgranted := hh.grant g hg
    obtain ⟨hagent, hauthorized⟩ := hgranted.gated hflag
    refine ⟨hagent, hauthorized, g, hg, hgranted.saganMode.trans hflag, ?_,
      hgranted.capabilities.trans hh.normalized⟩
    exact hgranted.multiplier.trans ((multiplierOf_eq_iff _).mpr hflag)
  ordinary := by
    intro g hg hmultiplier
    rw [(hh.grant g hg).multiplier, multiplierOf_eq_iff, hh.flag] at hmultiplier
    exact (isPremiumDualLaneRequest_iff hh.normalized).mp hmultiplier

theorem Granted.laneGranted {profile : OperatorProfile} {g : LaneGrant}
    (hg : Granted h profile g) : LaneGranted h.request g where
  capabilities := hg.capabilities
  multiplier := hg.multiplier
  saganMode := hg.premium
  gated := by
    intro hpremium
    have hnil := hg.allowed
    simp only [laneGrantReasons, hpremium, List.append_eq_nil_iff, Bool.true_and] at hnil
    obtain ⟨⟨⟨-, hagent⟩, hauthorized⟩, -⟩ := hnil
    refine ⟨?_, isAuthorized_of_optionText ?_⟩
    · by_contra hne
      simp [hne] at hagent
    · by_contra hne
      simp at hne
      simp [hne] at hauthorized

theorem LaneGate.continues (hh : LaneGate h) (hnext : Continues o h h') : LaneGate h' where
  normalized := hnext.request ▸ hh.normalized
  flag := hnext.request ▸ hh.flag
  grant := by
    rw [hnext.request]
    rcases hnext.grant with ⟨-, hkept⟩ | ⟨g, hg, hgranted⟩
    · rw [hkept]
      exact hh.grant
    · rw [hg]
      rintro g' hg'
      obtain rfl := Option.some.inj hg'
      exact hgranted.laneGranted
  held := by
    intro hstate
    rcases hnext.grant with ⟨ha, hkept⟩ | ⟨g, hg, -⟩
    · -- a held handshake comes from a held one, unless it is granted now
      rw [hkept]
      refine hh.held ?_
      have hmove := hnext.move
      generalize o.action = a at hmove ha
      generalize h'.state = y at hmove hstate
      generalize h.state = x at hmove
      cases hmove with
      | request => rcases hstate with hs | hs <;> cases hs
      | grant => exact absurd rfl ha
      | commit => exact .inl rfl
      | recommit => exact .inr rfl
      | heartbeat => exact .inr rfl
      | release => rcases hstate with hs | hs <;> cases hs
    · exact ⟨g, hg⟩

/-- **One operation** keeps the parts of a handshake together. -/
theorem laneGate_step (hs : Holds LaneGate s) (hstep : laneStep s o = some t) :
    Holds LaneGate t := by
  rw [← laneStep_eq_some_iff.mp hstep]
  rcases runDockerLaneHandshake_effect (o := o) (s := s) with
    ⟨-, hsame⟩ | ⟨-, -, -, laneId, hstored⟩ | ⟨-, h, h', rfl, -, hstored, hnext⟩
  · rw [hsame]
    exact hs
  · rw [hstored]
    exact .some ⟨normalizeCapabilities_idem _, rfl, by rintro _ ⟨⟩, by rintro (h | h) <;> cases h⟩
  · rw [hstored]
    exact .some ((hs h rfl).continues hnext)

end Lane

/-! ### Runs -/

/-- **Premium gating.** In every record that a run of operations stores, on an execution
cell or a docker lane, the premium rate goes with a premium request of an authorized Sagan
agent. -/
theorem premium_gated :
    (∀ cellId os l, run (cellStep cellId) none os = some (some l) → CellPremium l) ∧
      ∀ os h, run laneStep none os = some (some h) → LanePremium h := by
  constructor
  · intro cellId os l hrun
    have hgate : Holds CellGate (some l) :=
      run_invariant_of_step (fun _ _ _ => cellGate_step) .none hrun
    exact (hgate l rfl).cellPremium
  · intro os h hrun
    have hgate : Holds LaneGate (some h) :=
      run_invariant_of_step (fun _ _ _ => laneGate_step) .none hrun
    exact (hgate h rfl).lanePremium

/-- A Sagan kernel coordinator requests the premium mode of a cell and has it granted. -/
def premiumCellOperations : List CellOptions :=
  [{ plainOperation .request "a" 0 "request-1" with
      agentClass := some "sagan"
      cellClass := some "kernel-coordinator"
      capabilities := [DOCKER_LANE_CAPABILITY, NATIVE_LV32_CAPABILITY]
      operatorAuthorizationRef := some "receipt" },
    plainOperation .grant "a" 1000 "lease-1"]

/-- An operation of agent `a` on a docker lane, with a cost profile that lets grants
pass. -/
def laneOperation (action : CellAction) (now : ℤ) (freshId : String) : LaneOptions where
  action := action
  laneId := some "lane"
  agentId := some "a"
  defaultOwner := "owner"
  agentClass := some "sagan"
  capabilities := [DOCKER_LANE_CAPABILITY, NATIVE_LV32_CAPABILITY]
  operatorId := none
  operatorAuthorizationRef := some "receipt"
  requestId := none
  grantor := none
  leaseId := none
  ttlSeconds := none
  finalStatus := none
  artifactPaths := []
  hostPlaneReport := none
  operatorCostProfile := (plainOperation .grant "a" now freshId).operatorCostProfile
  executionCellReport := none
  now := now
  freshId := freshId

def premiumLaneOperations : List LaneOptions :=
  [laneOperation .request 0 "request-1", laneOperation .grant 1000 "lease-1"]

/-- Both machines grant a premium request. -/
theorem premium_gated_premiumOperations :
    (∃ l, run (cellStep "cell") none premiumCellOperations = some (some l) ∧
      l.state = .granted ∧ CellPremium l) ∧
    ∃ h, run laneStep none premiumLaneOperations = some (some h) ∧
      h.state = .granted ∧ LanePremium h := by
  have hcell : ((run (cellStep "cell") none premiumCellOperations).bind id).any
      (fun l => decide (l.state = .granted)) = true := by
    decide +kernel
  have hlane : ((run laneStep none premiumLaneOperations).bind id).any
      (fun h => decide (h.state = .granted)) = true := by
    decide +kernel
  obtain ⟨l, hl, hcell⟩ := (Option.any_eq_true _ _).mp hcell
  obtain ⟨h, hh, hlane⟩ := (Option.any_eq_true _ _).mp hlane
  obtain ⟨s, hs, rfl⟩ := Option.bind_eq_some_iff.mp hl
  obtain ⟨s', hs', rfl⟩ := Option.bind_eq_some_iff.mp hh
  exact ⟨⟨l, hs, of_decide_eq_true hcell, premium_gated.1 "cell" premiumCellOperations l hs⟩,
    ⟨h, hs', of_decide_eq_true hlane, premium_gated.2 premiumLaneOperations h hs'⟩⟩

end CompareVI.Lease
