import CompareVI.Lease.ExecutionCell

/-!
# The lifecycle of a lease

A lease is requested, granted, committed and released, in this order; an active
lease may be committed again or renewed, and a lease may be released before it is
active. `LeaseMove` is that lifecycle, an edge for each action that moves a lease.
From which states a new request may start a lease over is its parameter `restart`.

`runExecutionCellLease` follows the lifecycle in its commits only. A grant asks
whether the lease is live and active, not whether it is requested, so a released lease
can be granted again; a heartbeat on a granted lease makes it active; a release takes a
released lease. `cellLifecycle_iff` says exactly which operations break the lifecycle,
and apart from that which heartbeats write a commit record: all that are accepted,
unless they would write the record that is there.
-/

open Framework

namespace CompareVI.Lease

/-! ### The lifecycle -/

/-- The moves of a lease, each with the action that makes it. -/
inductive LeaseMove (restart : Option CellState → Prop) :
    Option CellState → CellAction → CellState → Prop
  | request {s : Option CellState} (h : restart s) : LeaseMove restart s .request .requested
  | grant : LeaseMove restart (some .requested) .grant .granted
  | commit : LeaseMove restart (some .granted) .commit .active
  | recommit : LeaseMove restart (some .active) .commit .active
  | heartbeat : LeaseMove restart (some .active) .heartbeat .active
  | release {s : CellState} (h : s ≠ .released) : LeaseMove restart (some s) .release .released

def storedState (stored : Option CellLease) : Option CellState := stored.map (·.state)

/-- One operation leaves the stored lease as it is or moves it along the lifecycle. -/
def MovesLease (restart : Option CellState → Prop) (s : Option CellLease) (o : CellOptions)
    (t : Option CellLease) : Prop :=
  (o.action ≠ .request ∧ t = s) ∨
    ∃ l, t = some l ∧ LeaseMove restart (storedState s) o.action l.state

/-- The lifecycle of the lease of a cell over a run of operations. -/
structure CellLifecycle (restart : Option CellState → Prop) (cellId : String)
    (stored : Option CellLease) (os : List CellOptions) : Prop where
  /-- Every operation moves the lease along the lifecycle. -/
  moves : Steps (cellStep cellId) (MovesLease restart) stored os
  /-- A released lease stays released until a new request. -/
  final : ∀ pre mid post l t, os = pre ++ (mid ++ post) →
    run (cellStep cellId) stored pre = some (some l) → l.state = .released →
      (∀ o ∈ mid, o.action ≠ .request) → run (cellStep cellId) (some l) mid = some t →
        ∃ l', t = some l' ∧ l'.state = .released

/-- A heartbeat makes no lease active that was not and leaves the commit record as it
is. -/
def OnlyRenews (s : Option CellLease) (o : CellOptions) (t : Option CellLease) : Prop :=
  o.action = .heartbeat → ∀ l l', s = some l → t = some l' →
    (l'.state = .active → l.state = .active) ∧ l'.commit = l.commit

/-! ### The conditions -/

/-- The grant of an operation would be denied. -/
def grantDenied (o : CellOptions) (l : CellLease) : Prop :=
  grantReasons l (resolveOperatorProfile o.operatorCostProfile o.operatorId) o.now ≠ []

instance (o : CellOptions) (l : CellLease) : Decidable (grantDenied o l) := by
  unfold grantDenied
  infer_instance

/-- The condition on an operation: a request comes where it may start a lease over, a
grant that is not denied meets a requested lease, a heartbeat of the lease's id meets no
granted lease, and a release of the lease's id no released one. -/
structure InOrder (restart : Option CellState → Prop) (stored : Option CellLease)
    (o : CellOptions) : Prop where
  request : o.action = .request → restart (storedState stored)
  grant : o.action = .grant → ∀ l, stored = some l → l.state = .requested ∨ grantDenied o l
  heartbeat : o.action = .heartbeat → ∀ l, stored = some l → l.state = .granted →
    leaseIdMismatch o l = true
  release : o.action = .release → ∀ l, stored = some l → l.state = .released →
    leaseIdMismatch o l = true

instance (restart : Option CellState → Prop) [DecidablePred restart] (stored : Option CellLease)
    (o : CellOptions) : Decidable (InOrder restart stored o) :=
  decidable_of_iff
    ((o.action = .request → restart (storedState stored)) ∧
      (o.action = .grant → ∀ l, stored = some l → l.state = .requested ∨ grantDenied o l) ∧
      (o.action = .heartbeat → ∀ l, stored = some l → l.state = .granted →
        leaseIdMismatch o l = true) ∧
      (o.action = .release → ∀ l, stored = some l → l.state = .released →
        leaseIdMismatch o l = true))
    ⟨fun h => ⟨h.1, h.2.1, h.2.2.1, h.2.2.2⟩, fun h => ⟨h.1, h.2, h.3, h.4⟩⟩

/-- The commit record of a lease, if it holds what a heartbeat would write: the instant
of the heartbeat, the harness and the roots it names, the docker lane as it is. -/
def SameCommit (o : CellOptions) (l : CellLease) (c : CellCommit) : Prop :=
  c.committedAt = o.now ∧
    (optionText o.harnessInstanceId).or (optionText c.harnessInstanceId) = c.harnessInstanceId ∧
    optionText c.dockerLaneId = c.dockerLaneId ∧
    optionText c.dockerLaneLeaseId = c.dockerLaneLeaseId ∧
    (optionText o.workingRoot).or (optionText l.request.workingRoot) = c.workingRoot ∧
    (optionText o.artifactRoot).or (optionText l.request.artifactRoot) = c.artifactRoot

/-- The condition on a heartbeat: it is refused, or it meets an active lease with the
commit record that it would write. -/
def KeepsCommit (stored : Option CellLease) (o : CellOptions) : Prop :=
  o.action = .heartbeat → ∀ l, stored = some l →
    leaseIdMismatch o l = true ∨ (l.state ≠ .granted ∧ l.state ≠ .active) ∨
      l.state = .active ∧ ∃ c, l.commit = some c ∧ SameCommit o l c

/-! ### What an operation does -/

variable {restart : Option CellState → Prop} {cellId : String} {o : CellOptions}
  {l : CellLease} {s t : Option CellLease}

section Edges

variable {x : Option CellState} {y : CellState}

theorem leaseMove_request_iff : LeaseMove restart x .request y ↔ restart x ∧ y = .requested := by
  refine ⟨fun h => ?_, fun ⟨h, hy⟩ => hy ▸ .request h⟩
  cases h with
  | request h => exact ⟨h, rfl⟩

theorem leaseMove_grant_iff :
    LeaseMove restart x .grant y ↔ x = some .requested ∧ y = .granted := by
  refine ⟨fun h => ?_, fun ⟨hx, hy⟩ => hx ▸ hy ▸ .grant⟩
  cases h
  exact ⟨rfl, rfl⟩

theorem leaseMove_commit_iff :
    LeaseMove restart x .commit y ↔ (x = some .granted ∨ x = some .active) ∧ y = .active := by
  constructor
  · intro h
    cases h
    · exact ⟨.inl rfl, rfl⟩
    · exact ⟨.inr rfl, rfl⟩
  · rintro ⟨rfl | rfl, rfl⟩
    · exact .commit
    · exact .recommit

theorem leaseMove_heartbeat_iff :
    LeaseMove restart x .heartbeat y ↔ x = some .active ∧ y = .active := by
  constructor
  · intro h
    cases h
    exact ⟨rfl, rfl⟩
  · rintro ⟨rfl, rfl⟩
    exact .heartbeat

theorem leaseMove_release_iff :
    LeaseMove restart x .release y ↔ (∃ z, x = some z ∧ z ≠ .released) ∧ y = .released := by
  constructor
  · intro h
    cases h with
    | release h => exact ⟨⟨_, rfl, h⟩, rfl⟩
  · rintro ⟨⟨z, rfl, hz⟩, rfl⟩
    exact .release hz

end Edges

theorem movesLease_refl (h : o.action ≠ .request) : MovesLease restart s o s := .inl ⟨h, rfl⟩

theorem movesLease_same_iff (h : o.action ≠ .request) : MovesLease restart s o s ↔ True :=
  iff_true_intro (movesLease_refl h)

theorem movesLease_next_iff {l' : CellLease} (hsequence : l'.sequence = l.sequence + 1) :
    MovesLease restart (some l) o (some l') ↔
      LeaseMove restart (some l.state) o.action l'.state := by
  constructor
  · rintro (⟨-, h⟩ | ⟨l'', h, hmove⟩)
    · rw [Option.some.inj h] at hsequence
      omega
    · rw [Option.some.inj h]
      exact hmove
  · exact fun h => .inr ⟨l', rfl, h⟩

theorem grantCell_granted (h : ¬ grantDenied o l) :
    ∃ l', (grantCell o l).stored = some l' ∧ l'.sequence = l.sequence + 1 ∧
      l'.state = .granted := by
  unfold grantCell
  have hreasons := not_not.mp h
  rw [if_pos (by simp [buildGrantDecision, hreasons])]
  exact ⟨_, rfl, rfl, rfl⟩

theorem grantCell_denied (h : grantDenied o l) : (grantCell o l).stored = some l := by
  unfold grantCell
  have hreasons : grantReasons l (resolveOperatorProfile o.operatorCostProfile o.operatorId)
    o.now ≠ [] := h
  rw [if_neg (by simpa [buildGrantDecision] using hreasons)]
  rfl

theorem grant_moves_iff (ha : o.action = .grant) :
    MovesLease restart (some l) o (grantCell o l).stored ↔
      l.state = .requested ∨ grantDenied o l := by
  by_cases h : grantDenied o l
  · rw [grantCell_denied h]
    exact iff_of_true (movesLease_refl (by simp [ha])) (.inr h)
  · obtain ⟨l', hl', hsequence, hstate⟩ := grantCell_granted h
    rw [hl', movesLease_next_iff hsequence, ha, hstate, or_iff_left h, leaseMove_grant_iff,
      and_iff_left rfl, Option.some.injEq]

theorem commitCell_cases :
    (commitCell o l).stored = some l ∨
      leaseIdMismatch o l = false ∧ (l.state = .granted ∨ l.state = .active) ∧
        ∃ l', (commitCell o l).stored = some l' ∧ l'.sequence = l.sequence + 1 ∧
          l'.state = .active := by
  unfold commitCell
  dsimp only
  generalize (if o.action = .commit then o.dockerLaneReport else none) = linked?
  split
  · exact .inl rfl
  · next hid =>
    split
    · exact .inl rfl
    · next hstate =>
      split
      · exact .inl rfl
      · refine .inr ⟨Bool.eq_false_iff.mpr hid, ?_, _, rfl, rfl, rfl⟩
        by_contra h
        exact hstate (not_or.mp h)

theorem commit_moves (ha : o.action = .commit) :
    MovesLease restart (some l) o (commitCell o l).stored := by
  rcases commitCell_cases (o := o) (l := l) with h | ⟨-, hstate, l', h, hsequence, hactive⟩
  · rw [h]
    exact movesLease_refl (by simp [ha])
  · rw [h, movesLease_next_iff hsequence, ha, hactive, leaseMove_commit_iff]
    exact ⟨hstate.imp (congrArg some) (congrArg some), rfl⟩

def heartbeatCommit (o : CellOptions) (l : CellLease) : CellCommit where
  committedAt := o.now
  harnessInstanceId := (optionText o.harnessInstanceId).or
    (l.commit.bind fun c => optionText c.harnessInstanceId)
  dockerLaneId := l.commit.bind fun c => optionText c.dockerLaneId
  dockerLaneLeaseId := l.commit.bind fun c => optionText c.dockerLaneLeaseId
  workingRoot := (optionText o.workingRoot).or (optionText l.request.workingRoot)
  artifactRoot := (optionText o.artifactRoot).or (optionText l.request.artifactRoot)

theorem heartbeatCommit_eq_iff {c : CellCommit} (h : l.commit = some c) :
    heartbeatCommit o l = c ↔ SameCommit o l c := by
  obtain ⟨committedAt, harness, laneId, laneLeaseId, working, artifact⟩ := c
  simp only [heartbeatCommit, h, Option.bind_some, SameCommit, CellCommit.mk.injEq]
  constructor
  · rintro ⟨h1, h2⟩
    exact ⟨h1.symm, h2⟩
  · rintro ⟨h1, h2⟩
    exact ⟨h1.symm, h2⟩

/-- The lease takes a heartbeat: it is granted or active, and the id is its own. -/
def TakesHeartbeat (o : CellOptions) (l : CellLease) : Prop :=
  leaseIdMismatch o l = false ∧ (l.state = .granted ∨ l.state = .active)

theorem not_takesHeartbeat_iff :
    ¬ TakesHeartbeat o l ↔
      leaseIdMismatch o l = true ∨ (l.state ≠ .granted ∧ l.state ≠ .active) := by
  rw [TakesHeartbeat, not_and_or, Bool.not_eq_false, not_or]

theorem heartbeat_refused (h : ¬ TakesHeartbeat o l) : (commitCell o l).stored = some l := by
  rcases commitCell_cases (o := o) (l := l) with hsame | ⟨hid, hstate, -⟩
  · exact hsame
  · exact absurd ⟨hid, hstate⟩ h

theorem heartbeat_accepted (ha : o.action = .heartbeat) (h : TakesHeartbeat o l) :
    ∃ l', (commitCell o l).stored = some l' ∧ l'.sequence = l.sequence + 1 ∧
      l'.state = .active ∧ l'.commit = some (heartbeatCommit o l) := by
  obtain ⟨hid, hstate⟩ := h
  have hnot : ¬ (l.state ≠ .granted ∧ l.state ≠ .active) := fun hn => hstate.elim hn.1 hn.2
  unfold commitCell
  rw [if_neg (by simp [hid]), if_neg hnot, if_neg (by simp [ha]), if_neg (by simp [ha])]
  exact ⟨_, rfl, rfl, rfl, rfl⟩

theorem heartbeat_moves_iff (ha : o.action = .heartbeat) :
    MovesLease restart (some l) o (commitCell o l).stored ↔
      (l.state = .granted → leaseIdMismatch o l = true) := by
  by_cases h : TakesHeartbeat o l
  · obtain ⟨l', hl', hsequence, hactive, -⟩ := heartbeat_accepted ha h
    rw [hl', movesLease_next_iff hsequence, ha, hactive, h.1, leaseMove_heartbeat_iff,
      and_iff_left rfl, Option.some.injEq]
    refine ⟨fun hs hgranted => absurd (hs.symm.trans hgranted) (by decide), fun hgranted => ?_⟩
    exact h.2.resolve_left fun hs => Bool.false_ne_true (hgranted hs)
  · rw [heartbeat_refused h, movesLease_same_iff (by simp [ha]), true_iff]
    rcases not_takesHeartbeat_iff.mp h with hid | hstate
    · exact fun _ => hid
    · exact fun hs => absurd hs hstate.1

theorem heartbeat_renews_iff (ha : o.action = .heartbeat) :
    OnlyRenews (some l) o (commitCell o l).stored ↔
      leaseIdMismatch o l = true ∨ (l.state ≠ .granted ∧ l.state ≠ .active) ∨
        l.state = .active ∧ ∃ c, l.commit = some c ∧ SameCommit o l c := by
  rw [← or_assoc, ← not_takesHeartbeat_iff]
  by_cases h : TakesHeartbeat o l
  · obtain ⟨l', hl', -, hactive, hcommit⟩ := heartbeat_accepted ha h
    rw [hl', or_iff_right (not_not_intro h)]
    constructor
    · intro hrenews
      obtain ⟨hstate, hsame⟩ := hrenews ha l l' rfl rfl
      refine ⟨hstate hactive, _, hsame.symm.trans hcommit, ?_⟩
      exact (heartbeatCommit_eq_iff (hsame.symm.trans hcommit)).mp rfl
    · rintro ⟨hstate, c, hc, hsame⟩ - m m' hm hm'
      obtain rfl := Option.some.inj hm
      obtain rfl := Option.some.inj hm'
      refine ⟨fun _ => hstate, ?_⟩
      rw [hcommit, hc, (heartbeatCommit_eq_iff hc).mpr hsame]
  · rw [heartbeat_refused h]
    refine iff_of_true (fun _ m m' hm hm' => ?_) (.inl h)
    obtain rfl := Option.some.inj (hm.symm.trans hm')
    exact ⟨id, rfl⟩

theorem release_moves_iff (ha : o.action = .release) :
    MovesLease restart (some l) o (releaseCell o l).stored ↔
      (l.state = .released → leaseIdMismatch o l = true) := by
  unfold releaseCell
  split
  · next hid =>
    exact iff_of_true (movesLease_refl (by simp [ha])) fun _ => hid
  · next hid =>
    refine (movesLease_next_iff rfl).trans ?_
    rw [ha, leaseMove_release_iff, and_iff_left rfl]
    constructor
    · rintro ⟨z, hz, hreleased⟩ hs
      exact absurd (Option.some.inj hz ▸ hs) hreleased
    · exact fun h => ⟨l.state, rfl, fun hs => hid (h hs)⟩

theorem request_moves_iff (ha : o.action = .request) {r : CellLease} (hr : r.state = .requested) :
    MovesLease restart s o (some r) ↔ restart (storedState s) := by
  constructor
  · rintro (⟨hne, -⟩ | ⟨l, hl, hmove⟩)
    · exact absurd ha hne
    · rw [ha, leaseMove_request_iff] at hmove
      exact hmove.1
  · exact fun h => .inr ⟨r, rfl, by rw [ha, hr]; exact .request h⟩

def cellStored (cellId : String) (s : Option CellLease) (o : CellOptions) : Option CellLease :=
  match o.action, s with
  | .request, _ =>
    some (buildRequestRecord cellId o
      (resolveOperatorProfile o.operatorCostProfile o.operatorId).operatorId
      (buildHostContext o.hostPlaneReport).1)
  | _, none => none
  | .grant, some l => (grantCell o l).stored
  | .commit, some l => (commitCell o l).stored
  | .heartbeat, some l => (commitCell o l).stored
  | .release, some l => (releaseCell o l).stored
  | .inspect, some l => some l
  | .other _, some l => some l

theorem cellStep_eq : cellStep cellId s o = some (cellStored cellId s o) := by
  unfold cellStep runExecutionCellLease cellStored
  cases o.action <;> cases s <;> rfl

theorem forall_cellStep_iff {P : Option CellLease → Prop} :
    (∀ t, cellStep cellId s o = some t → P t) ↔ P (cellStored cellId s o) := by
  simp only [cellStep_eq, Option.some.injEq, forall_eq']

theorem cellStored_none (ha : o.action ≠ .request) : cellStored cellId none o = none := by
  unfold cellStored
  cases h : o.action <;> first | exact absurd h ha | rfl

theorem inOrder_none (ha : o.action ≠ .request) : InOrder restart none o where
  request h := absurd h ha
  grant _ _ h := absurd h (Option.some_ne_none _).symm
  heartbeat _ _ h := absurd h (Option.some_ne_none _).symm
  release _ _ h := absurd h (Option.some_ne_none _).symm

theorem inOrder_some_iff :
    InOrder restart (some l) o ↔
      (o.action = .request → restart (some l.state)) ∧
      (o.action = .grant → l.state = .requested ∨ grantDenied o l) ∧
      (o.action = .heartbeat → l.state = .granted → leaseIdMismatch o l = true) ∧
      (o.action = .release → l.state = .released → leaseIdMismatch o l = true) := by
  constructor
  · exact fun h => ⟨h.request, fun ha => h.grant ha l rfl, fun ha => h.heartbeat ha l rfl,
      fun ha => h.release ha l rfl⟩
  · rintro ⟨h1, h2, h3, h4⟩
    refine ⟨h1, fun ha m hm => ?_, fun ha m hm => ?_, fun ha m hm => ?_⟩ <;>
      obtain rfl := Option.some.inj hm
    · exact h2 ha
    · exact h3 ha
    · exact h4 ha

/-- **One operation** moves the lease along the lifecycle exactly when it comes in
order. -/
theorem movesLease_iff_inOrder :
    MovesLease restart s o (cellStored cellId s o) ↔ InOrder restart s o := by
  by_cases hrequest : o.action = .request
  · have hstored : ∃ r : CellLease, cellStored cellId s o = some r ∧ r.state = .requested := by
      simp only [cellStored, hrequest]
      exact ⟨_, rfl, rfl⟩
    obtain ⟨r, hr, hstate⟩ := hstored
    rw [hr, request_moves_iff hrequest hstate]
    refine ⟨fun h => ⟨fun _ => h, ?_, ?_, ?_⟩, fun h => h.request hrequest⟩ <;> simp [hrequest]
  · cases s with
    | none =>
      rw [cellStored_none hrequest]
      exact iff_of_true (movesLease_refl hrequest) (inOrder_none hrequest)
    | some l =>
      rw [inOrder_some_iff]
      cases ha : o.action with
      | request => exact absurd ha hrequest
      | grant => simp [cellStored, ha, grant_moves_iff ha]
      | commit => simp [cellStored, ha, commit_moves ha]
      | heartbeat => simp [cellStored, ha, heartbeat_moves_iff ha]
      | release => simp [cellStored, ha, release_moves_iff ha]
      | inspect => simp [cellStored, ha, movesLease_refl hrequest]
      | other text => simp [cellStored, ha, movesLease_refl hrequest]

/-- **One operation** renews at most exactly when it keeps the commit record. -/
theorem onlyRenews_iff_keepsCommit :
    OnlyRenews s o (cellStored cellId s o) ↔ KeepsCommit s o := by
  by_cases ha : o.action = .heartbeat
  · cases s with
    | none =>
      refine iff_of_true (fun _ l _ h => ?_) fun _ l h => ?_ <;>
        exact absurd h (Option.some_ne_none _).symm
    | some l =>
      have hstored : cellStored cellId (some l) o = (commitCell o l).stored := by
        simp only [cellStored, ha]
      rw [hstored, heartbeat_renews_iff ha]
      simp only [KeepsCommit, ha, forall_const, Option.some.injEq, forall_eq']
  · exact iff_of_true (fun h => absurd h ha) fun h => absurd h ha

/-! ### Runs -/

variable {os : List CellOptions} {stored : Option CellLease}

/-- In a run along the lifecycle a released lease stays released until a new
request. -/
theorem released_of_moves {pre mid post : List CellOptions}
    (h : Steps (cellStep cellId) (MovesLease restart) stored os)
    (hsplit : os = pre ++ (mid ++ post)) (hpre : run (cellStep cellId) stored pre = some (some l))
    (hl : l.state = .released) (hmid : ∀ o ∈ mid, o.action ≠ .request)
    (hrun : run (cellStep cellId) (some l) mid = some t) :
    ∃ l', t = some l' ∧ l'.state = .released := by
  refine Steps.run_invariant (I := fun s => ∃ l', s = some l' ∧ l'.state = .released) ?_
    ((hsplit ▸ h).middle hpre) ⟨l, rfl, hl⟩ hrun
  rintro s o t ho ⟨m, rfl, hm⟩ (⟨-, rfl⟩ | ⟨m', rfl, hmove⟩)
  · exact ⟨m, rfl, hm⟩
  · -- no edge but a request leaves a released lease
    rw [storedState, Option.map_some, hm] at hmove
    generalize ha : o.action = a at hmove
    generalize m'.state = y at hmove
    cases hmove with
    | request h => exact absurd ha (hmid o ho)
    | release h => exact absurd rfl h

/-- The steps of a run move the lease along the lifecycle exactly when every operation
comes in order. -/
theorem steps_movesLease_iff :
    Steps (cellStep cellId) (MovesLease restart) stored os ↔
      Guarded (cellStep cellId) (InOrder restart) stored os :=
  steps_iff_guarded fun _ _ => forall_cellStep_iff.trans movesLease_iff_inOrder

/-- **The lifecycle of an execution-cell lease.** In every run, from whatever record, the
lease moves along the lifecycle exactly when every operation comes in order, and
heartbeats only renew exactly when they keep the commit record. -/
theorem cellLifecycle_iff (restart : Option CellState → Prop) (cellId : String)
    (stored : Option CellLease) (os : List CellOptions) :
    (CellLifecycle restart cellId stored os ↔
      Guarded (cellStep cellId) (InOrder restart) stored os) ∧
    (Steps (cellStep cellId) OnlyRenews stored os ↔
      Guarded (cellStep cellId) KeepsCommit stored os) := by
  refine ⟨⟨fun h => steps_movesLease_iff.mp h.moves, fun hG => ?_⟩, ?_⟩
  · have hmoves := steps_movesLease_iff.mpr hG
    exact ⟨hmoves, fun pre mid post l t hsplit hpre hl hmid hrun =>
      released_of_moves hmoves hsplit hpre hl hmid hrun⟩
  · exact steps_iff_guarded fun _ _ => forall_cellStep_iff.trans onlyRenews_iff_keepsCommit

/-! ### Operations out of order -/

/-- After `holderOperations` the lease is released and granted again. -/
def regrantOperations : List CellOptions :=
  holderOperations ++
    [plainOperation .release "a" 3000 "", plainOperation .grant "a" 4000 "lease-2"]

def earlyHeartbeatOperations : List CellOptions :=
  [plainOperation .request "a" 0 "request-1", plainOperation .grant "a" 1000 "lease-1",
    plainOperation .heartbeat "a" 2000 ""]

/-- Wherever requests are taken, a released lease is granted again, and a heartbeat makes
a lease active that was not committed. -/
theorem not_cellLifecycle_regrant :
    ¬ CellLifecycle (fun _ => True) "cell" none regrantOperations ∧
      ¬ CellLifecycle (fun _ => True) "cell" none earlyHeartbeatOperations := by
  refine ⟨fun h => ?_, fun h => ?_⟩ <;>
    exact absurd (steps_movesLease_iff.mp h.moves) (by decide +kernel)

end CompareVI.Lease
