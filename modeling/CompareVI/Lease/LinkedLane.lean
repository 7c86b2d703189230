import CompareVI.Lease.Lifecycle

/-!
# The docker lane that an execution cell is committed with

A commit may come with the report of a docker lane. `validateDockerLaneLink` compares the lane
with the lease, and the commit record names the lane from then on: every later commit and
heartbeat hands its id on. `LinkAgrees` is what this link is for. The lane of an active lease
is one of the lease's host and of its agent. The lease does not store the lane's report, so
the state of a run is the record together with the lane that was accepted last
(`LinkedCell`).

The lane is compared with the host that the lease has stored *before* the operation, while
the operation itself, and every heartbeat after it, stores the host that its own report of
the host plane names. Neither is the lane compared where the lease has no value of its own.
`linkedLaneLaw_iff` says which operations keep the link: those that store a host with the
fingerprint and the group of the lane, on a lease whose request names an agent.
-/

open Framework

namespace CompareVI.Lease

/-! ### The law -/

/-- The record of a cell, with the docker lane that a commit was last accepted with. -/
structure LinkedCell where
  stored : Option CellLease
  lane : Option DockerLaneLink

def LinkedCell.empty : LinkedCell := ⟨none, none⟩

def acceptedLane (cellId : String) (stored : Option CellLease) (o : CellOptions) :
    Option DockerLaneLink :=
  match runExecutionCellLease cellId stored o with
  | .ok result =>
    if result.report.status = .committed then
      o.dockerLaneReport.bind resolveDockerLaneLinkContext
    else none
  | .error _ => none

def linkStep (cellId : String) (s : LinkedCell) (o : CellOptions) : Option LinkedCell :=
  (cellStep cellId s.stored o).map fun stored =>
    ⟨stored, (acceptedLane cellId s.stored o).or s.lane⟩

/-- The docker lane of an active lease whose host has a fingerprint is one of that host and
of the agent of the lease. -/
def LinkAgrees (s : LinkedCell) : Prop :=
  ∀ l c id host fingerprint, s.stored = some l → l.state = .active → l.commit = some c →
    c.dockerLaneId = some id → l.host = some host → host.fingerprintSha256 = some fingerprint →
    ∃ lane, s.lane = some lane ∧ lane.fingerprintSha256 = some fingerprint ∧
      lane.isolatedLaneGroupId = host.isolatedLaneGroupId ∧ lane.holder = l.request.agentId

/-- In every state of the run the link agrees. -/
def LinkedLaneLaw (cellId : String) (os : List CellOptions) : Prop :=
  ∀ pre post t, os = pre ++ post → run (linkStep cellId) .empty pre = some t → LinkAgrees t

/-! ### The condition -/

def CellOptions.laneReport (o : CellOptions) : Option (Option Json) :=
  if o.action = .commit then o.dockerLaneReport else none

/-- A commit or a heartbeat that is not refused. -/
structure Renews (o : CellOptions) (l : CellLease) : Prop where
  action : o.action = .commit ∨ o.action = .heartbeat
  leaseId : leaseIdMismatch o l = false
  held : l.state = .granted ∨ l.state = .active
  lane : ∀ report, o.laneReport = some report →
    validateDockerLaneLink l (resolveDockerLaneLinkContext report) = []

/-- The lane that a commit or a heartbeat leaves the lease with: the one it reads, or the
accepted one if the lease names a lane. -/
def laneAfter (lane : Option DockerLaneLink) (o : CellOptions) (l : CellLease) :
    Option DockerLaneLink :=
  match o.laneReport with
  | some report => resolveDockerLaneLinkContext report
  | none => if (l.commit.bind fun c => optionText c.dockerLaneId).isSome then lane else none

def hostAfter (o : CellOptions) (l : CellLease) : Option HostContext :=
  (buildHostContext o.hostPlaneReport).1.or l.host

/-- The condition on an operation: where it renews a lease with a docker lane, the host that
it reads (the stored one if it reads none) has the fingerprint and the group of the lane, if
it has a fingerprint at all, and the request names an agent. -/
def KeepsHost (s : LinkedCell) (o : CellOptions) : Prop :=
  ∀ l lane host fingerprint, s.stored = some l → Renews o l →
    laneAfter s.lane o l = some lane → hostAfter o l = some host →
    host.fingerprintSha256 = some fingerprint →
    lane.fingerprintSha256 = some fingerprint ∧
      lane.isolatedLaneGroupId = host.isolatedLaneGroupId ∧ l.request.agentId.isSome

/-! ### The accepted lane -/

variable {cellId : String} {o : CellOptions} {l : CellLease} {s t : LinkedCell}

/-- The lane has a holder, and it is the agent of the request if there is one. -/
structure HeldFor (lane : DockerLaneLink) (request : CellRequest) : Prop where
  holder : lane.holder.isSome
  agent : ∀ a, request.agentId = some a → lane.holder = some a

theorem HeldFor.holder_eq_iff {lane : DockerLaneLink} {request : CellRequest}
    (h : HeldFor lane request) : lane.holder = request.agentId ↔ request.agentId.isSome := by
  refine ⟨fun heq => heq ▸ h.holder, fun hsome => ?_⟩
  obtain ⟨a, ha⟩ := Option.isSome_iff_exists.mp hsome
  rw [ha, h.agent a ha]

theorem heldFor_of_validate (hagent : optionText l.request.agentId = l.request.agentId)
    {link : Option DockerLaneLink} (h : validateDockerLaneLink l link = []) :
    ∃ lane, link = some lane ∧ lane.laneId.isSome ∧ HeldFor lane l.request := by
  cases link with
  | none => exact nomatch h
  | some lane =>
    simp only [validateDockerLaneLink, List.append_eq_nil_iff] at h
    obtain ⟨⟨⟨⟨⟨⟨hid, -⟩, hholder⟩, -⟩, howner⟩, -⟩, -⟩ := h
    have hsome : lane.holder.isSome := by
      cases hl : lane.holder with
      | none => simp [hl] at hholder
      | some a => rfl
    refine ⟨lane, rfl, ?_, hsome, fun a ha => ?_⟩
    · cases hl : lane.laneId with
      | none => simp [hl] at hid
      | some a => rfl
    · obtain ⟨b, hb⟩ := Option.isSome_iff_exists.mp hsome
      rw [hagent, ha, hb] at howner
      by_contra hne
      refine absurd howner ?_
      rw [if_pos]
      · exact List.cons_ne_nil _ _
      · simp only [textsDiffer, ne_eq, decide_eq_true_eq]
        rintro rfl
        exact hne hb

/-! ### One operation -/

/-- What a commit or a heartbeat that is not refused writes. -/
structure Renewed (o : CellOptions) (l l' : CellLease) : Prop where
  state : l'.state = .active
  host : l'.host = hostAfter o l
  request : l'.request = l.request
  commit : ∃ c, l'.commit = some c ∧
    c.dockerLaneId = ((o.laneReport.bind resolveDockerLaneLinkContext).bind (·.laneId)).or
      (l.commit.bind fun c => optionText c.dockerLaneId)

theorem commitCell_renews (h : Renews o l) :
    (∃ l', (commitCell o l).stored = some l' ∧ Renewed o l l') ∧
      ((commitCell o l).report.status = .committed ↔ o.action = .commit) := by
  have hlane : ¬ (o.laneReport.elim [] fun report =>
      validateDockerLaneLink l (resolveDockerLaneLinkContext report)).length > 0 := by
    cases hreport : o.laneReport with
    | none => simp
    | some report => simp [h.lane report hreport]
  have hheld : ¬ (l.state ≠ .granted ∧ l.state ≠ .active) := by
    rintro ⟨hgranted, hactive⟩
    exact h.held.elim hgranted hactive
  unfold commitCell
  generalize hread : (if o.action = .commit then o.dockerLaneReport else none) = linked?
  obtain rfl : o.laneReport = linked? := hread
  rw [if_neg (Bool.eq_false_iff.mp h.leaseId), if_neg hheld, if_neg hlane]
  refine ⟨⟨_, rfl, rfl, rfl, rfl, _, rfl, rfl⟩, ?_⟩
  change (if o.action = .commit then CellStatus.committed else .renewed) = .committed ↔ _
  split
  · next ha => exact iff_of_true rfl ha
  · next ha => exact iff_of_false (fun h => nomatch h) ha

theorem commitCell_refused (ha : o.action = .commit ∨ o.action = .heartbeat) (h : ¬ Renews o l) :
    (commitCell o l).stored = some l ∧ (commitCell o l).report.status ≠ .committed := by
  unfold commitCell
  dsimp only
  generalize hread : (if o.action = .commit then o.dockerLaneReport else none) = linked?
  obtain rfl : o.laneReport = linked? := hread
  split
  · exact ⟨rfl, fun h => nomatch h⟩
  · next hid =>
    split
    · exact ⟨rfl, fun h => nomatch h⟩
    · next hheld =>
      split
      · exact ⟨rfl, fun h => nomatch h⟩
      · next hlane =>
        refine absurd ⟨ha, Bool.eq_false_iff.mpr hid, ?_, fun report hreport => ?_⟩ h
        · by_contra hstate
          exact hheld (not_or.mp hstate)
        · rw [hreport, Option.elim_some] at hlane
          exact List.length_eq_zero_iff.mp (Nat.eq_zero_of_not_pos hlane)

/-- An operation that does not renew: the record stays, or it is written with a state that is
not active, on the request and commit that were there or on a new request. -/
structure Rests (s t : LinkedCell) : Prop where
  lane : t.lane = s.lane
  stored : t.stored = s.stored ∨ ∃ l', t.stored = some l' ∧ l'.state ≠ .active ∧
    (l'.commit = none ∧ optionText l'.request.agentId = l'.request.agentId ∨
      ∃ l, s.stored = some l ∧ l'.request = l.request ∧ l'.commit = l.commit)

/-- The result of an operation that lets the link rest. -/
def RestsWith (s : LinkedCell) (result : CellResult) : Prop :=
  Rests s ⟨result.stored, s.lane⟩ ∧ result.report.status ≠ .committed

variable {status : CellStatus}

theorem restsWith_refuse {stored : Option CellLease} (hs : s.stored = stored)
    (h : status ≠ .committed) (reasons observations : List String) :
    RestsWith s (.refuse stored status reasons observations) :=
  ⟨⟨rfl, .inl hs.symm⟩, h⟩

variable {l' : CellLease} {result : CellResult}

theorem restsWith_accept {observations : List String}
    (h : l'.state ≠ .active ∧ status ≠ .committed) (hs : s.stored = some l)
    (hrequest : l'.request = l.request) (hcommit : l'.commit = l.commit) :
    RestsWith s (.accept l' status observations) :=
  ⟨⟨rfl, .inr ⟨l', rfl, h.1, .inr ⟨l, hs, hrequest, hcommit⟩⟩⟩, h.2⟩

theorem restsWith_request (operatorId : Option String) (host : Option HostContext)
    (observations : List String) :
    RestsWith s (.accept (buildRequestRecord cellId o operatorId host) .requested observations) :=
  have hagent := optionText_optionText o.agentId
  ⟨⟨rfl, .inr ⟨_, rfl, (fun h => nomatch h), .inl ⟨rfl, hagent⟩⟩⟩, (fun h => nomatch h)⟩

theorem restsWith_grantCell (hs : s.stored = some l) : RestsWith s (grantCell o l) := by
  unfold grantCell
  dsimp only
  split
  · apply restsWith_accept ?_ hs
    · rfl
    · rfl
    · exact ⟨(fun h => nomatch h), fun h => nomatch h⟩
  · refine restsWith_refuse hs ?_ _ _
    split <;> exact fun h => nomatch h

theorem restsWith_releaseCell (hs : s.stored = some l) : RestsWith s (releaseCell o l) := by
  unfold releaseCell
  split
  · refine restsWith_refuse hs ?_ _ _
    exact fun h => nomatch h
  · apply restsWith_accept ?_ hs
    · rfl
    · rfl
    · exact ⟨(fun h => nomatch h), fun h => nomatch h⟩

theorem restsWith_inspect (hs : s.stored = some l) (now : ℤ) :
    RestsWith s (.refuse (some l) (inspectStatus l now) [] []) := by
  refine restsWith_refuse hs ?_ _ _
  unfold inspectStatus
  split
  · exact fun h => nomatch h
  · split <;> exact fun h => nomatch h

theorem linkStep_eq (hrun : runExecutionCellLease cellId s.stored o = .ok result) :
    linkStep cellId s o = some ⟨result.stored,
      (if result.report.status = .committed then
        o.dockerLaneReport.bind resolveDockerLaneLinkContext else none).or s.lane⟩ := by
  rw [linkStep, cellStep, acceptedLane, hrun]
  rfl

theorem linkStep_of_not_committed (hrun : runExecutionCellLease cellId s.stored o = .ok result)
    (hstatus : result.report.status ≠ .committed) :
    linkStep cellId s o = some ⟨result.stored, s.lane⟩ := by
  rw [linkStep_eq hrun, if_neg hstatus, Option.none_or]

inductive LinkMove (o : CellOptions) (s t : LinkedCell) : Prop
  | renewed {l l' : CellLease} (hs : s.stored = some l) (h : Renews o l)
      (ht : t.stored = some l') (hl' : Renewed o l l')
      (hlane : t.lane = (o.laneReport.bind resolveDockerLaneLinkContext).or s.lane)
  | rested (hs : ∀ l, s.stored = some l → ¬ Renews o l) (h : Rests s t)

theorem commitCell_move (hs : s.stored = some l) (ha : o.action = .commit ∨ o.action = .heartbeat)
    (hrun : runExecutionCellLease cellId s.stored o = .ok (commitCell o l))
    (h : linkStep cellId s o = some t) : LinkMove o s t := by
  by_cases hrenews : Renews o l
  · obtain ⟨⟨l', hstored, hrenewed⟩, hstatus⟩ := commitCell_renews hrenews
    obtain rfl := Option.some.inj ((linkStep_eq hrun).symm.trans h)
    refine .renewed hs hrenews hstored hrenewed (congrArg (Option.or · s.lane) ?_)
    by_cases hcommit : o.action = .commit
    · rw [if_pos (hstatus.mpr hcommit), CellOptions.laneReport, if_pos hcommit]
    · rw [if_neg (mt hstatus.mp hcommit), CellOptions.laneReport, if_neg hcommit, Option.bind_none]
  · obtain ⟨hstored, hstatus⟩ := commitCell_refused ha hrenews
    obtain rfl := Option.some.inj ((linkStep_of_not_committed hrun hstatus).symm.trans h)
    refine .rested (fun l₁ hl₁ => ?_) ⟨rfl, .inl (hstored.trans hs.symm)⟩
    obtain rfl := Option.some.inj (hs.symm.trans hl₁)
    exact hrenews

theorem linkMove_rested (ha : ¬ (o.action = .commit ∨ o.action = .heartbeat)) (h : Rests s t) :
    LinkMove o s t :=
  .rested (fun _ _ hrenews => ha hrenews.action) h

theorem rests_of_restsWith (hrun : runExecutionCellLease cellId s.stored o = .ok result)
    (hresult : RestsWith s result) (h : linkStep cellId s o = some t) : Rests s t := by
  obtain rfl := Option.some.inj ((linkStep_of_not_committed hrun hresult.2).symm.trans h)
  exact hresult.1

theorem runExecutionCellLease_missing (ha : o.action ≠ .request) :
    runExecutionCellLease cellId none o =
      .ok (.refuse none .notFound [] ["execution-cell-lease-missing"]) := by
  unfold runExecutionCellLease
  cases h : o.action <;> first | exact absurd h ha | rfl

theorem linkStep_other {text : String} {lane : Option DockerLaneLink}
    (ha : o.action = .other text) :
    linkStep cellId ⟨some l, lane⟩ o = some ⟨some l, lane⟩ := by
  have hrun : runExecutionCellLease cellId (some l) o =
      .error ("Unsupported action '" ++ text ++ "'") := by
    unfold runExecutionCellLease
    rw [ha]
  rw [linkStep, cellStep, acceptedLane, hrun]
  rfl

/-- **One operation** renews the lease or lets the link rest. -/
theorem linkStep_move (h : linkStep cellId s o = some t) : LinkMove o s t := by
  obtain ⟨stored, lane⟩ := s
  have hrests : ∀ result, runExecutionCellLease cellId stored o = .ok result →
      RestsWith ⟨stored, lane⟩ result → Rests ⟨stored, lane⟩ t :=
    fun result hrun hresult => rests_of_restsWith hrun hresult h
  by_cases hrequest : o.action = .request
  · have hrun := hrests _ (by unfold runExecutionCellLease; rw [hrequest])
      (restsWith_request _ _ _)
    exact linkMove_rested (by simp [hrequest]) hrun
  cases stored with
  | none =>
    refine .rested (fun l hl => nomatch hl)
      (hrests _ (runExecutionCellLease_missing hrequest) (restsWith_refuse rfl ?_ _ _))
    exact fun h => nomatch h
  | some l =>
    cases ha : o.action with
    | request => exact absurd ha hrequest
    | grant =>
      have hrun := hrests _ (by unfold runExecutionCellLease; rw [ha]) (restsWith_grantCell rfl)
      exact linkMove_rested (by simp [ha]) hrun
    | commit =>
      exact commitCell_move rfl (.inl ha) (by unfold runExecutionCellLease; rw [ha]) h
    | heartbeat =>
      exact commitCell_move rfl (.inr ha) (by unfold runExecutionCellLease; rw [ha]) h
    | release =>
      have hrun := hrests _ (by unfold runExecutionCellLease; rw [ha]) (restsWith_releaseCell rfl)
      exact linkMove_rested (by simp [ha]) hrun
    | inspect =>
      have hrun := hrests _ (by unfold runExecutionCellLease; rw [ha])
        (restsWith_inspect rfl o.now)
      exact linkMove_rested (by simp [ha]) hrun
    | other text =>
      obtain rfl := Option.some.inj ((linkStep_other ha).symm.trans h)
      exact linkMove_rested (by simp [ha]) ⟨rfl, .inl rfl⟩

/-! ### Runs -/

/-- The invariant of a run: the agent of the stored request is trimmed, and the lane that
the lease names is held for its request. -/
structure LinkHeld (s : LinkedCell) : Prop where
  agent : ∀ l, s.stored = some l → optionText l.request.agentId = l.request.agentId
  lane : ∀ l c, s.stored = some l → l.commit = some c → c.dockerLaneId.isSome →
    ∃ lane, s.lane = some lane ∧ HeldFor lane l.request

theorem isSome_of_optionText {value : Option String} (h : (optionText value).isSome) :
    value.isSome := by
  cases value with
  | none => exact absurd h (by simp [optionText])
  | some text => rfl

theorem Renewed.lane (hI : LinkHeld s) (hs : s.stored = some l) (h : Renews o l)
    (hl' : Renewed o l l')
    (hlane : t.lane = (o.laneReport.bind resolveDockerLaneLinkContext).or s.lane) :
    (∀ c, l'.commit = some c → c.dockerLaneId.isSome →
      ∃ lane, laneAfter s.lane o l = some lane) ∧
    ∀ lane, laneAfter s.lane o l = some lane → t.lane = some lane ∧ HeldFor lane l'.request ∧
      ∃ c, l'.commit = some c ∧ c.dockerLaneId.isSome := by
  obtain ⟨c, hc, hid⟩ := hl'.commit
  rw [hl'.request]
  unfold laneAfter
  cases hreport : o.laneReport with
  | some report =>
    obtain ⟨lane, hresolve, hlaneId, hheld⟩ :=
      heldFor_of_validate (hI.agent l hs) (h.lane report hreport)
    rw [hreport, Option.bind_some, hresolve] at hid hlane
    refine ⟨fun _ _ _ => ⟨lane, hresolve⟩, fun lane' hlane' => ?_⟩
    obtain rfl := Option.some.inj (hresolve.symm.trans hlane')
    refine ⟨hlane, hheld, c, hc, ?_⟩
    rw [hid, Option.bind_some, Option.isSome_or, hlaneId, Bool.true_or]
  | none =>
    rw [hreport, Option.bind_none, Option.none_or] at hlane
    rw [hreport, Option.bind_none, Option.bind_none, Option.none_or] at hid
    have hheld : (l.commit.bind fun c => optionText c.dockerLaneId).isSome →
        ∃ lane, s.lane = some lane ∧ HeldFor lane l.request := by
      intro hsome
      obtain ⟨id, hid⟩ := Option.isSome_iff_exists.mp hsome
      obtain ⟨c₀, hc₀, hid₀⟩ := Option.bind_eq_some_iff.mp hid
      exact hI.lane l c₀ hs hc₀ (isSome_of_optionText (by rw [hid₀]; rfl))
    constructor
    · intro c' hc' hsome
      obtain rfl := Option.some.inj (hc.symm.trans hc')
      rw [hid] at hsome
      rw [if_pos hsome]
      obtain ⟨lane, hs, -⟩ := hheld hsome
      exact ⟨lane, hs⟩
    · intro lane hlane'
      obtain ⟨hsome, hs⟩ := Option.ite_none_right_eq_some.mp hlane'
      obtain ⟨lane₀, hlane₀, hheld⟩ := hheld hsome
      obtain rfl := Option.some.inj (hs.symm.trans hlane₀)
      exact ⟨hlane.trans hs, hheld, c, hc, hid ▸ hsome⟩

theorem linkHeld_step (hI : LinkHeld s) (h : linkStep cellId s o = some t) : LinkHeld t := by
  cases linkStep_move h with
  | renewed hs hrenews ht hl' hlane =>
    obtain ⟨hnamed, hkept⟩ := Renewed.lane hI hs hrenews hl' hlane
    constructor
    · intro l₁ hl₁
      obtain rfl := Option.some.inj (ht.symm.trans hl₁)
      rw [hl'.request]
      exact hI.agent _ hs
    · intro l₁ c hl₁ hc hsome
      obtain rfl := Option.some.inj (ht.symm.trans hl₁)
      obtain ⟨lane, hlane⟩ := hnamed c hc hsome
      obtain ⟨htlane, hheld, -⟩ := hkept lane hlane
      exact ⟨lane, htlane, hheld⟩
  | rested _ hrests =>
    rcases hrests.stored with ht | ⟨l', ht, -, hnew⟩
    · refine ⟨fun l hl => hI.agent l (ht ▸ hl), fun l c hl => ?_⟩
      rw [hrests.lane]
      exact hI.lane l c (ht ▸ hl)
    · refine ⟨fun l₁ hl₁ => ?_, fun l₁ c hl₁ hc hsome => ?_⟩ <;>
        obtain rfl := Option.some.inj (ht.symm.trans hl₁)
      · rcases hnew with ⟨-, hagent⟩ | ⟨l, hs, hrequest, -⟩
        · exact hagent
        · rw [hrequest]
          exact hI.agent l hs
      · rcases hnew with ⟨hnone, -⟩ | ⟨l, hs, hrequest, hcommit⟩
        · exact nomatch hnone.symm.trans hc
        · rw [hrests.lane, hrequest]
          exact hI.lane l c hs (hcommit ▸ hc) hsome

theorem Renewed.linkAgrees_iff (hI : LinkHeld s) (hs : s.stored = some l) (h : Renews o l)
    (ht : t.stored = some l') (hl' : Renewed o l l')
    (hlane : t.lane = (o.laneReport.bind resolveDockerLaneLinkContext).or s.lane) :
    LinkAgrees t ↔ KeepsHost s o := by
  obtain ⟨hnamed, hkept⟩ := Renewed.lane hI hs h hl' hlane
  constructor
  · intro hagrees l₁ lane host fingerprint hl₁ _ hafter hhost hfingerprint
    obtain rfl := Option.some.inj (hs.symm.trans hl₁)
    obtain ⟨htlane, hheld, c, hc, hsome⟩ := hkept lane hafter
    obtain ⟨id, hid⟩ := Option.isSome_iff_exists.mp hsome
    obtain ⟨lane₁, hlane₁, hsame, hgroup, hholder⟩ := hagrees l' c id host fingerprint ht
      hl'.state hc hid (hl'.host.trans hhost) hfingerprint
    obtain rfl := Option.some.inj (htlane.symm.trans hlane₁)
    exact ⟨hsame, hgroup, hl'.request ▸ hheld.holder_eq_iff.mp hholder⟩
  · intro hkeeps l₁ c id host fingerprint hl₁ _ hc hid hhost hfingerprint
    obtain rfl := Option.some.inj (ht.symm.trans hl₁)
    obtain ⟨lane, hafter⟩ := hnamed c hc (by rw [hid]; rfl)
    obtain ⟨htlane, hheld, -⟩ := hkept lane hafter
    obtain ⟨hsame, hgroup, hagent⟩ := hkeeps l lane host fingerprint hs h hafter
      (hl'.host.symm.trans hhost) hfingerprint
    exact ⟨lane, htlane, hsame, hgroup, hheld.holder_eq_iff.mpr (hl'.request ▸ hagent)⟩

/-- **One operation** on a link that agrees leaves one exactly when it keeps the host. -/
theorem linkAgrees_step_iff (hI : LinkHeld s) (hs : LinkAgrees s)
    (h : linkStep cellId s o = some t) : LinkAgrees t ↔ KeepsHost s o := by
  cases linkStep_move h with
  | renewed hs' hrenews ht hl' hlane => exact hl'.linkAgrees_iff hI hs' hrenews ht hlane
  | rested hnot hrests =>
    refine iff_of_true ?_ fun l _ _ _ hl hrenews => absurd hrenews (hnot l hl)
    intro l c id host fingerprint hl hactive
    rw [hrests.lane]
    rcases hrests.stored with ht | ⟨l', ht, hstate, -⟩
    · exact hs l c id host fingerprint (ht ▸ hl) hactive
    · obtain rfl := Option.some.inj (ht.symm.trans hl)
      exact absurd hactive hstate

/-- **The linked docker lane.** In a run of operations from a cell that was never requested
the link agrees in every state exactly when every operation keeps the host. -/
theorem linkedLaneLaw_iff (cellId : String) (os : List CellOptions) :
    LinkedLaneLaw cellId os ↔ Guarded (linkStep cellId) KeepsHost .empty os := by
  have hheld : LinkHeld .empty :=
    ⟨fun _ h => absurd h.symm (Option.some_ne_none _),
      fun _ _ h => absurd h.symm (Option.some_ne_none _)⟩
  have hagrees : LinkAgrees .empty := fun _ _ _ _ _ h => absurd h.symm (Option.some_ne_none _)
  have hinv : ∀ s o t, LinkHeld s → linkStep cellId s o = some t → LinkHeld t :=
    fun s o t => linkHeld_step
  have htotal : ∀ s o, ∃ t, linkStep cellId s o = some t := fun s o => by
    rw [linkStep, cellStep_eq]
    exact ⟨_, rfl⟩
  rw [← always_iff_guarded (P := fun s => LinkHeld s ∧ LinkAgrees s) htotal ?_ ⟨hheld, hagrees⟩]
  · constructor
    · intro hlaw pre post t hes hrun
      exact ⟨run_invariant_of_step hinv hheld hrun, hlaw pre post t hes hrun⟩
    · exact fun hboth pre post t hes hrun => (hboth pre post t hes hrun).2
  · rintro s o t ⟨hI, hs⟩ h
    rw [← linkAgrees_step_iff hI hs h]
    exact and_iff_right (linkHeld_step hI h)

/-! ### A heartbeat from another host -/

def hostPlane (fingerprint : String) : Json :=
  .obj [("host", .obj [("osFingerprint", .obj
    [("isolatedLaneGroupId", .str "group"), ("fingerprintSha256", .str fingerprint)])])]

/-- The report of a docker lane of agent `a` on the host with fingerprint `f1`. -/
def dockerLane : Json :=
  .obj [("laneId", .str "docker-a"), ("handshake", .obj []), ("summary", .obj
    [("leaseId", .str "docker-lease"), ("holder", .str "a"),
      ("isolatedLaneGroupId", .str "group"), ("fingerprintSha256", .str "f1")])]

/-- Agent `a` has a cell granted and commits it with its docker lane on one host; a heartbeat
then reads the report of another host. -/
def movedHost : List CellOptions :=
  [{ plainOperation .request "a" 0 "request-1" with hostPlaneReport := some (hostPlane "f1") },
    { plainOperation .grant "a" 1000 "lease-1" with hostPlaneReport := some (hostPlane "f1") },
    { plainOperation .commit "a" 2000 "" with
      hostPlaneReport := some (hostPlane "f1")
      dockerLaneReport := some (some dockerLane) },
    { plainOperation .heartbeat "a" 3000 "" with hostPlaneReport := some (hostPlane "f2") }]

/-- After the heartbeat the lease names the lane of the one host and stores the other. -/
theorem not_linkedLaneLaw_movedHost : ¬ LinkedLaneLaw "cell" movedHost := by
  intro h
  have hend : (run (linkStep "cell") .empty movedHost).any (fun t =>
      t.lane.any (fun lane => lane.fingerprintSha256 = some "f1") && t.stored.any fun l =>
        l.state = .active && l.commit.any (fun c => c.dockerLaneId = some "docker-a") &&
          l.host.any fun host => host.fingerprintSha256 = some "f2") = true := by
    decide +kernel
  simp only [Option.any_eq_true, Bool.and_eq_true, decide_eq_true_eq] at hend
  obtain ⟨t, ht, ⟨lane, hlane, hf1⟩, l, hl, ⟨hactive, c, hc, hid⟩, host, hhost, hf2⟩ := hend
  obtain ⟨lane', hlane', hsame, -⟩ :=
    h movedHost [] t (List.append_nil _).symm ht l c _ host _ hl hactive hc hid hhost hf2
  obtain rfl := Option.some.inj (hlane.symm.trans hlane')
  exact absurd (hf1.symm.trans hsame) (by decide)

end CompareVI.Lease
