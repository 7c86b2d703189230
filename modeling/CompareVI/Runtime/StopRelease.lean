import CompareVI.Runtime.Supervisor

/-!
# Stop requests and leases

What holds of the actions of the supervisor, taken one after another. While there is a stop
request a step leaves the lanes alone, until a resume; the persisted state says whether there
is one; and a step releases the lease it has acquired, once, whatever fails (`SupervisorLaw`).

For the files there is one spec lemma for each action, of both its ends. For the lease only
the exchanges count: nothing but the step itself asks about the lease, so a step that has
acquired it makes one release after its `try` block, and that is all (`releases_of_step`).
-/

open Framework

namespace CompareVI.Runtime

/-! ### The law -/

/-- An action that was performed, from its files to its files. -/
structure Performed where
  ctx : SupervisorContext
  before : Files
  calls : List (Call Files fun q : SupervisorQuery => Except String q.Reply)
  after : Files
  result : Except String SupervisorReport

/-- The action has not thrown. -/
def Performed.Returned (p : Performed) : Prop := ∃ report, p.result = .ok report

/-- Actions performed one after another. -/
inductive Sequence : Files → List Performed → Prop where
  | nil (files : Files) : Sequence files []
  | cons {p : Performed} {rest : List Performed}
    (hrun : Executes runtimeService p.before (runRuntimeSupervisor p.ctx) p.calls p.after p.result)
    (hrest : Sequence p.after rest) : Sequence p.before (p :: rest)

/-- The query writes a lane artifact or the last blocker, or removes the last blocker. -/
def SupervisorQuery.tracks : SupervisorQuery → Bool
  | writeLane _ | writeLastBlocker _ | removeLastBlocker => true
  | _ => false

/-- The step has left the lanes alone. -/
structure LeavesLanes (p : Performed) : Prop where
  calls : ∀ call ∈ p.calls, call.query.tracks = false
  lanes : p.after.lanes = p.before.lanes
  lastBlocker : p.after.lastBlocker = p.before.lastBlocker
  activeLane : ∀ state, p.after.state = .holds state → state.activeLane = p.before.activeLane

/-- What is persisted says whether there is a stop request. -/
def Files.Agrees (files : Files) : Prop :=
  ∀ state, files.state = .holds state →
    state.lifecycle.stopRequested = files.stopRequest.present

/-- A state is persisted that says whether there is a stop request. -/
def Files.Records (files : Files) : Prop :=
  ∃ state, files.state = .holds state ∧
    state.lifecycle.stopRequested = files.stopRequest.present

def SupervisorQuery.released : SupervisorQuery → Option (LeaseOptions × Option String)
  | releaseWriterLease options leaseId => some (options, leaseId)
  | _ => none

def releases (h : List (Exchange fun q : SupervisorQuery => Except String q.Reply)) :
    List (LeaseOptions × Option String) :=
  h.filterMap fun e => e.query.released

def granted : Exchange (fun q : SupervisorQuery => Except String q.Reply) →
    Option (LeaseOptions × Option LeaseResult)
  | ⟨.acquireWriterLease options, .ok result⟩ =>
    if isLeaseSuccess result then some (options, result) else none
  | _ => none

/-- A granted lease is released once, by its id, and no other is. -/
def ReleaseLaw (h : List (Exchange fun q : SupervisorQuery => Except String q.Reply)) : Prop :=
  (h.filterMap granted = [] ∧ releases h = []) ∨
    ∃ options result, h.filterMap granted = [(options, result)] ∧
      releases h = [(options, result.bind (·.acquiredId))]

/-- What holds of actions performed one after another. -/
structure SupervisorLaw (files : Files) (performed : List Performed) : Prop where
  /-- From a stop request until a resume every step leaves the lanes alone. -/
  stopped : ∀ pre first seg post, performed = pre ++ first :: seg ++ post →
    first.before.stopRequest.present = true → (∀ p ∈ first :: seg, p.ctx.action ≠ .resume) →
    ∀ p ∈ first :: seg, p.after.stopRequest.present = true ∧
      (p.ctx.action = .step → LeavesLanes p)
  records : ∀ p ∈ performed, p.Returned → p.after.Records
  /-- After every action, as long as no stop or resume has thrown. -/
  agrees : ∀ pre p post, performed = pre ++ p :: post → files.Agrees →
    (∀ e ∈ pre ++ [p], e.ctx.action = .stop ∨ e.ctx.action = .resume → e.Returned) →
    p.after.Agrees
  releases : ∀ p ∈ performed, p.ctx.action = .step → ReleaseLaw (p.calls.map Call.exchange)

/-! ### The files -/

section Specs

variable {I : Files → SupervisorQuery → Prop} {E : Files → Prop} {files : Files}
  {ctx : SupervisorContext} {state : RuntimeState}

theorem ends_load (hI : ∀ q, q.tracks = false → I files q) (hE : E files) :
    Ends runtimeService I E
      (fun after loaded => after = files ∧ loaded.activeLane = files.activeLane) files
      (load ctx) := by
  refine ends_call_bind (hI _ rfl) ?_ (fun _ after hserve => hserve.2 ▸ hE)
  rintro existing after ⟨hread, rfl⟩
  cases existing with
  | some persisted =>
    have hstate : after.state = .holds persisted := hread
    refine ends_pure ⟨rfl, ?_⟩
    rw [Files.activeLane, hstate]
    rfl
  | none =>
    have hstate : after.state = .missing := hread
    refine ends_call_bind (hI _ rfl) ?_ (fun _ u hserve => hserve.2 ▸ hE)
    rintro legacy u ⟨hlegacy, rfl⟩
    refine ends_pure ⟨rfl, ?_⟩
    rw [Files.activeLane, hstate]
    rw [hlegacy.value]
    cases legacy <;> rfl

theorem ends_finalize {P : Files → RuntimeState → Prop} (hI : ∀ t q, q.tracks = false → I t q)
    (hE : ∀ new, (new = files.state ∨ new = .damaged ∨
      ∃ summary, new = .holds (finalizeState ctx.toRunContext summary state)) →
      E { files with state := new })
    (hP : ∀ summary, P { files with state := .holds (finalizeState ctx.toRunContext summary state) }
      (finalizeState ctx.toRunContext summary state)) :
    Ends runtimeService I E P files (finalize ctx state) := by
  have hstart : E files := hE files.state (.inl rfl)
  refine ends_call_bind (hI _ _ rfl) ?_ (fun _ after hserve => hserve.2 ▸ hstart)
  rintro count _ ⟨-, rfl⟩
  refine ends_call_bind (hI _ _ rfl) ?_ (fun _ after hserve => hserve.2 ▸ hstart)
  rintro present _ ⟨-, rfl⟩
  refine ends_call_bind (hI _ _ rfl) ?_ ?_
  · rintro _ _ ⟨new, hnew, rfl⟩
    obtain rfl : new = _ := hnew
    exact ends_pure (hP _)
  · rintro message _ ⟨new, hnew, rfl⟩
    rcases hnew with hold | hdamaged | hheld
    · exact hE new (.inl hold)
    · exact hE new (.inr (.inl hdamaged))
    · exact hE new (.inr (.inr ⟨_, hheld⟩))

theorem ends_quiet_bind {α : Type} {P : Files → α → Prop} {q : SupervisorQuery}
    {f : q.Reply → Supervised α} (hI : I files q)
    (hquiet : ∀ answer after, runtimeService files q answer after → after = files) (hE : E files)
    (hf : ∀ reply, Ends runtimeService I E P files (f reply)) :
    Ends runtimeService I E P files (askRuntime q >>= f) :=
  ends_call_bind hI (fun reply _ hserve => hquiet _ _ hserve ▸ hf reply)
    fun _ _ hserve => hquiet _ _ hserve ▸ hE

/-- A state that says whether there is a stop request in the files, and has their active lane if
there is. -/
structure Told (files : Files) (state : RuntimeState) : Prop where
  stopRequested : state.lifecycle.stopRequested = files.stopRequest.present
  activeLane : files.stopRequest.present = true → state.activeLane = files.activeLane

/-- Only the lanes may have changed, and those only if there is no stop request. -/
structure Tracked (files after : Files) : Prop where
  stopRequest : after.stopRequest = files.stopRequest
  state : after.state = files.state
  lanes : files.stopRequest.present = true → after.lanes = files.lanes
  lastBlocker : files.stopRequest.present = true → after.lastBlocker = files.lastBlocker

/-- What a step or a status may have made of the files when it ends. -/
structure StepEnd (files after : Files) : Prop where
  stopRequest : after.stopRequest = files.stopRequest
  state : after.state = files.state ∨ after.state = .damaged ∨
    ∃ state, after.state = .holds state ∧ Told files state
  lanes : files.stopRequest.present = true → after.lanes = files.lanes
  lastBlocker : files.stopRequest.present = true → after.lastBlocker = files.lastBlocker

theorem Tracked.refl (files : Files) : Tracked files files := ⟨rfl, rfl, fun _ => rfl, fun _ => rfl⟩

variable {after : Files} {lane : Option LaneRecord}

theorem Tracked.stepEnd {new : Stored RuntimeState} (h : Tracked files after)
    (hnew : new = after.state ∨ new = .damaged ∨ ∃ state, new = .holds state ∧ Told files state) :
    StepEnd files { after with state := new } := by
  refine ⟨h.stopRequest, ?_, h.lanes, h.lastBlocker⟩
  rcases hnew with hold | hnew
  · exact .inl (hold.trans h.state)
  · exact .inr hnew

/-- The queries of a step or a status. -/
def SparesLanes (files : Files) (_ : Files) (q : SupervisorQuery) : Prop :=
  files.stopRequest.present = true → q.tracks = false

variable {t : Files} {stopRequest : Option StopRequest}

theorem sparesLanes_of_not_tracks {q : SupervisorQuery} (h : q.tracks = false) :
    SparesLanes files t q := fun _ => h

theorem ends_finalize_told (h : Tracked files after) (htold : Told files state) :
    Ends runtimeService (SparesLanes files) (StepEnd files)
      (fun t _ => StepEnd files t ∧ t.Records) after (finalize ctx state) := by
  have hfinal : ∀ summary, Told files (finalizeState ctx.toRunContext summary state) :=
    fun _ => ⟨htold.stopRequested, htold.activeLane⟩
  refine ends_finalize (fun _ _ => sparesLanes_of_not_tracks) ?_ fun summary => ?_
  · intro new hnew
    refine h.stepEnd ?_
    rcases hnew with hold | hdamaged | ⟨summary, hheld⟩
    · exact .inl hold
    · exact .inr (.inl hdamaged)
    · exact .inr (.inr ⟨_, hheld, hfinal summary⟩)
  · refine ⟨h.stepEnd (.inr (.inr ⟨_, rfl, hfinal summary⟩)), _, rfl, ?_⟩
    rw [(hfinal summary).stopRequested, ← h.stopRequest]

theorem Tracked.end (h : Tracked files after) : StepEnd files after :=
  h.stepEnd (.inl rfl)

theorem Tracked.of_missing (hnone : files.stopRequest.present = false)
    (hstop : after.stopRequest = files.stopRequest) (hstate : after.state = files.state) :
    Tracked files after := by
  refine ⟨hstop, hstate, fun hpresent => ?_, fun hpresent => ?_⟩ <;>
    exact absurd hpresent (hnone ▸ Bool.false_ne_true)

theorem ends_writeLastBlocker {now : ℤ} (hnone : files.stopRequest.present = false)
    (ht : Tracked files t) :
    Ends runtimeService (SparesLanes files) (StepEnd files) (fun u _ => Tracked files u) t
      (writeLastBlocker lane now) := by
  have hspares : ∀ u q, SparesLanes files u q :=
    fun _ _ hpresent => absurd hpresent (hnone ▸ Bool.false_ne_true)
  have htracked : ∀ new, Tracked files { t with lastBlocker := new } :=
    fun _ => .of_missing hnone ht.stopRequest ht.state
  unfold writeLastBlocker
  split
  · refine ends_call_bind (hspares _ _) ?_ ?_
    · rintro _ _ ⟨new, -, rfl⟩
      exact ends_pure (htracked new)
    · rintro _ _ ⟨new, -, rfl⟩
      exact (htracked new).end
  · refine ends_call_bind (hspares _ _) ?_ (fun _ _ hserve => hserve.2 ▸ ht.end)
    rintro present u ⟨-, hu⟩
    rw [hu]
    have hremove : ∀ there : Bool, Ends runtimeService (SparesLanes files) (StepEnd files)
        (fun u _ => Tracked files u) t (removeBlocker there) := by
      intro there
      cases there with
      | false => exact ends_pure ht
      | true =>
        refine ends_call (hspares _ _) ?_ ?_
        · rintro _ _ ⟨new, -, rfl⟩
          exact htracked new
        · rintro _ _ ⟨new, -, rfl⟩
          exact (htracked new).end
    exact (hremove present).bind fun u _ hu => ends_pure hu

theorem ends_trackLane (hstop : files.stopRequest.present = stopRequest.isSome) :
    Ends runtimeService (SparesLanes files) (StepEnd files) (fun t _ => Tracked files t) files
      (trackLane ctx stopRequest lane) := by
  cases stopRequest with
  | some request => exact ends_pure (.refl files)
  | none =>
    have hspares : ∀ u q, SparesLanes files u q :=
      fun _ _ hpresent => absurd hpresent (hstop ▸ Bool.false_ne_true)
    cases lane with
    | none => exact (ends_writeLastBlocker hstop (.refl files)).bind fun t _ ht => ends_pure ht
    | some lane =>
      have htracked : ∀ lanes, Tracked files { files with lanes := lanes } :=
        fun _ => .of_missing hstop rfl rfl
      refine ends_call_bind (hspares _ _) ?_ ?_
      · rintro _ _ ⟨new, -, rfl⟩
        exact (ends_writeLastBlocker hstop (htracked _)).bind fun t _ ht => ends_pure ht
      · rintro _ _ ⟨new, -, rfl⟩
        exact (htracked _).end

theorem told_applyStep (hstop : files.stopRequest.present = stopRequest.isSome)
    (hstate : state.activeLane = files.activeLane) :
    Told files (applyStep ctx.toRunContext stopRequest lane state).1 := by
  cases stopRequest with
  | some request => exact ⟨hstop.symm, fun _ => hstate⟩
  | none =>
    refine ⟨?_, fun hpresent => absurd hpresent (hstop ▸ Bool.false_ne_true)⟩
    rw [hstop]
    cases lane <;> rfl

theorem ends_heldStep {acquire : Option LeaseResult}
    (hstate : state.activeLane = files.activeLane) :
    Ends runtimeService (SparesLanes files) (StepEnd files)
      (fun t _ => StepEnd files t ∧ t.Records) files (heldStep ctx acquire state) := by
  have hquiet : ∀ q : SupervisorQuery, q.tracks = false → ∀ t, SparesLanes files t q :=
    fun _ hq _ _ => hq
  refine ends_call_bind (hquiet _ rfl _) ?_ (fun _ _ hserve => hserve.2 ▸ (Tracked.refl _).end)
  rintro stopRequest after ⟨hread, rfl⟩
  refine (ends_trackLane hread.present).bind fun t paths ht => ?_
  refine (ends_finalize_told ht (told_applyStep hread.present hstate)).bind fun u final hu => ?_
  refine ends_quiet_bind (hquiet _ rfl _) (fun _ _ h => h) hu.1 fun _ => ?_
  exact ends_quiet_bind (hquiet _ rfl _) (fun _ _ h => h) hu.1 fun _ => ends_pure hu

/-- **A step.** -/
theorem ends_runStepAction (hstate : state.activeLane = files.activeLane) :
    Ends runtimeService (SparesLanes files) (StepEnd files)
      (fun t _ => StepEnd files t ∧ t.Records) files (runStepAction ctx state) := by
  have hquiet : ∀ q : SupervisorQuery, q.tracks = false → ∀ t, SparesLanes files t q :=
    fun _ hq _ _ => hq
  have hstart : StepEnd files files := (Tracked.refl files).end
  refine ends_quiet_bind (hquiet _ rfl _) (fun _ _ h => h) hstart fun acquire => ?_
  unfold stepWith
  split
  · refine Ends.bind (ends_tryFinally (R := fun t _ => StepEnd files t ∧ t.Records) ?_)
      fun t _ ht => ends_pure ht
    refine Ensures.mono (ends_heldStep hstate) fun t r hr => ?_
    cases r with
    | ok report =>
      exact ends_call (hquiet _ rfl _) (fun _ _ h => h ▸ hr) (fun _ _ h => h ▸ hr.1)
    | error message =>
      exact ends_call (hquiet _ rfl _) (fun _ _ h => h ▸ hr) (fun _ _ h => h ▸ hr)
  · refine ends_call_bind (hquiet _ rfl _) ?_ (fun _ _ hserve => hserve.2 ▸ (Tracked.refl _).end)
    rintro stopRequest after ⟨hread, rfl⟩
    have htold : Told after (applyBlocked ctx.toRunContext stopRequest state) :=
      ⟨hread.present.symm, fun _ => hstate⟩
    refine (ends_finalize_told (.refl after) htold).bind fun t final ht => ?_
    exact ends_quiet_bind (hquiet _ rfl _) (fun _ _ h => h) ht.1 fun _ => ends_pure ht

/-- **A status.** -/
theorem ends_runStatusAction (hstate : state.activeLane = files.activeLane) :
    Ends runtimeService (SparesLanes files) (StepEnd files)
      (fun t _ => StepEnd files t ∧ t.Records) files (runStatusAction ctx state) := by
  refine ends_call_bind (fun _ => rfl) ?_ (fun _ _ hserve => hserve.2 ▸ (Tracked.refl _).end)
  rintro stopRequest after ⟨hread, rfl⟩
  have htold : Told after (applyStatus ctx.toRunContext stopRequest state) :=
    ⟨hread.present.symm, fun _ => hstate⟩
  exact (ends_finalize_told (.refl after) htold).bind fun t final ht => ends_pure ht

/-- **A stop.** -/
theorem ends_runStopAction :
    Ends runtimeService anyQuery
      (fun t => files.stopRequest.present = true → t.stopRequest.present = true)
      (fun t _ => t.stopRequest.present = true ∧ t.Records) files (runStopAction ctx state) := by
  refine ends_call_bind trivial ?_ ?_
  · rintro _ _ ⟨new, rfl, rfl⟩
    refine (ends_finalize (P := fun t _ => t.stopRequest.present = true ∧ t.Records)
      (fun _ _ _ => trivial) (fun _ _ _ => rfl) fun summary => ⟨rfl, _, rfl, rfl⟩).bind ?_
    intro t final ht
    exact ends_quiet_bind trivial (fun _ _ h => h) (fun _ => ht.1) fun _ => ends_pure ht
  · rintro message _ ⟨new, hnew, rfl⟩
    exact fun hpresent => hnew.present hpresent

/-- **A resume.** -/
theorem ends_runResumeAction :
    Ends runtimeService anyQuery (fun _ => True) (fun t _ => t.Records) files
      (runResumeAction ctx state) := by
  refine ends_call_bind trivial ?_ (fun _ _ _ => trivial)
  rintro _ _ ⟨new, rfl, rfl⟩
  refine (ends_finalize (P := fun t _ => t.Records) (fun _ _ _ => trivial) (fun _ _ => trivial)
    fun summary => ⟨_, rfl, rfl⟩).bind fun t final ht => ?_
  exact ends_quiet_bind trivial (fun _ _ h => h) trivial fun _ => ends_pure ht

theorem ends_spare (haction : ctx.action = .step ∨ ctx.action = .status) :
    Ends runtimeService (SparesLanes files) (StepEnd files)
      (fun t _ => StepEnd files t ∧ t.Records) files (runRuntimeSupervisor ctx) := by
  refine ends_quiet_bind (fun _ => rfl) (fun _ _ h => h) (Tracked.refl _).end fun _ => ?_
  refine (ends_load (fun _ hq _ => hq) (Tracked.refl _).end).bind fun t state ht => ?_
  obtain ⟨rfl, hstate⟩ := ht
  unfold runAction
  rcases haction with haction | haction
  · rw [haction]
    exact ends_runStepAction hstate
  · rw [haction]
    exact ends_runStatusAction hstate

theorem ends_stop (haction : ctx.action = .stop) :
    Ends runtimeService anyQuery
      (fun t => files.stopRequest.present = true → t.stopRequest.present = true)
      (fun t _ => t.stopRequest.present = true ∧ t.Records) files (runRuntimeSupervisor ctx) := by
  refine ends_quiet_bind trivial (fun _ _ h => h) id fun _ => ?_
  refine (ends_load (fun _ _ => trivial) id).bind fun t state ht => ?_
  obtain ⟨rfl, -⟩ := ht
  unfold runAction
  rw [haction]
  exact ends_runStopAction

theorem ends_resume (haction : ctx.action = .resume) :
    Ends runtimeService anyQuery (fun _ => True) (fun t _ => t.Records) files
      (runRuntimeSupervisor ctx) := by
  refine ends_quiet_bind trivial (fun _ _ h => h) trivial fun _ => ?_
  refine (ends_load (fun _ _ => trivial) trivial).bind fun t state _ => ?_
  unfold runAction
  rw [haction]
  exact ends_runResumeAction

end Specs

/-! ### One action -/

theorem Files.Records.agrees {files : Files} (h : files.Records) : files.Agrees := by
  obtain ⟨state, hstate, htold⟩ := h
  intro state' hstate'
  rw [hstate] at hstate'
  obtain rfl := Stored.holds.inj hstate'
  exact htold

section Action

variable {p : Performed}
  (hrun : Executes runtimeService p.before (runRuntimeSupervisor p.ctx) p.calls p.after p.result)
include hrun

theorem stepEnd_of_run (haction : p.ctx.action = .step ∨ p.ctx.action = .status) :
    (p.before.stopRequest.present = true → ∀ call ∈ p.calls, call.query.tracks = false) ∧
      StepEnd p.before p.after ∧ (p.Returned → p.after.Records) := by
  obtain ⟨hcalls, hend⟩ := (ends_spare haction).executes hrun
  refine ⟨fun hpresent call hcall => hcalls call hcall hpresent, ?_⟩
  cases hresult : p.result with
  | ok report =>
    rw [hresult] at hend
    exact ⟨hend.1, fun _ => hend.2⟩
  | error message =>
    rw [hresult] at hend
    refine ⟨hend, fun ⟨report, hreport⟩ => ?_⟩
    rw [hresult] at hreport
    cases hreport

/-- **A step beside a stop request.** -/
theorem leavesLanes_of_run (haction : p.ctx.action = .step)
    (hpresent : p.before.stopRequest.present = true) : LeavesLanes p := by
  obtain ⟨hcalls, hend, -⟩ := stepEnd_of_run hrun (.inl haction)
  refine ⟨hcalls hpresent, hend.lanes hpresent, hend.lastBlocker hpresent, fun state hstate => ?_⟩
  rcases hend.state with hold | hdamaged | ⟨told, htold, h⟩
  · rw [hstate] at hold
    rw [Files.activeLane, ← hold]
  · rw [hstate] at hdamaged
    cases hdamaged
  · rw [hstate] at htold
    obtain rfl := Stored.holds.inj htold
    exact h.activeLane hpresent

/-- **Every action that returns** has recorded whether there is a stop request. -/
theorem records_of_run (hreturned : p.Returned) : p.after.Records := by
  obtain ⟨report, hreport⟩ := hreturned
  cases haction : p.ctx.action with
  | step => exact (stepEnd_of_run hrun (.inl haction)).2.2 ⟨report, hreport⟩
  | status => exact (stepEnd_of_run hrun (.inr haction)).2.2 ⟨report, hreport⟩
  | stop =>
    have hend := ((ends_stop haction).executes hrun).2
    rw [hreport] at hend
    exact hend.2
  | resume =>
    have hend := ((ends_resume haction).executes hrun).2
    rw [hreport] at hend
    exact hend

theorem present_of_run (haction : p.ctx.action ≠ .resume)
    (hpresent : p.before.stopRequest.present = true) : p.after.stopRequest.present = true := by
  cases hcase : p.ctx.action with
  | step => rwa [(stepEnd_of_run hrun (.inl hcase)).2.1.stopRequest]
  | status => rwa [(stepEnd_of_run hrun (.inr hcase)).2.1.stopRequest]
  | stop =>
    have hend := ((ends_stop hcase).executes hrun).2
    cases hresult : p.result with
    | ok report =>
      rw [hresult] at hend
      exact hend.1
    | error message =>
      rw [hresult] at hend
      exact hend hpresent
  | resume => exact absurd hcase haction

theorem agrees_of_run (hagrees : p.before.Agrees)
    (hreturned : p.ctx.action = .stop ∨ p.ctx.action = .resume → p.Returned) :
    p.after.Agrees := by
  have hspare : p.ctx.action = .step ∨ p.ctx.action = .status → p.after.Agrees := by
    intro haction
    obtain ⟨-, hend, -⟩ := stepEnd_of_run hrun haction
    intro state hstate
    rw [hend.stopRequest]
    rcases hend.state with hold | hdamaged | ⟨told, htold, h⟩
    · exact hagrees state (hold ▸ hstate)
    · rw [hstate] at hdamaged
      cases hdamaged
    · rw [hstate] at htold
      obtain rfl := Stored.holds.inj htold
      exact h.stopRequested
  cases haction : p.ctx.action with
  | step => exact hspare (.inl haction)
  | status => exact hspare (.inr haction)
  | stop => exact (records_of_run hrun (hreturned (.inl haction))).agrees
  | resume => exact (records_of_run hrun (hreturned (.inr haction))).agrees

end Action

/-! ### The lease -/

section Lease

def SupervisorQuery.leases : SupervisorQuery → Bool
  | acquireWriterLease _ | releaseWriterLease _ _ => true
  | _ => false

variable {α β : Type} {p : Supervised α}
  {h : List (Exchange fun q : SupervisorQuery => Except String q.Reply)}

abbrev SparesLease (p : Supervised α) : Prop :=
  Asks (fun q : SupervisorQuery => q.leases = false) (fun _ => True) p

theorem sparesLease_ask {q : SupervisorQuery} (hq : q.leases = false) :
    SparesLease (askRuntime q) := asks_call hq fun _ => trivial

theorem sparesLease_load (ctx : SupervisorContext) : SparesLease (load ctx) := by
  refine (sparesLease_ask rfl).bind fun existing _ => ?_
  cases existing with
  | some persisted => trivial
  | none => exact (sparesLease_ask rfl).bind fun _ _ => trivial

theorem sparesLease_finalize (ctx : SupervisorContext) (state : RuntimeState) :
    SparesLease (finalize ctx state) := by
  refine (sparesLease_ask rfl).bind fun _ _ => ?_
  refine (sparesLease_ask rfl).bind fun _ _ => ?_
  exact (sparesLease_ask rfl).bind fun _ _ => trivial

theorem sparesLease_writeLastBlocker (lane : Option LaneRecord) (now : ℤ) :
    SparesLease (writeLastBlocker lane now) := by
  unfold writeLastBlocker
  split
  · exact (sparesLease_ask rfl).bind fun _ _ => trivial
  · have hremove : ∀ there : Bool, SparesLease (removeBlocker there) := by
      intro there
      cases there with
      | false => trivial
      | true => exact sparesLease_ask rfl
    exact (sparesLease_ask rfl).bind fun there _ => (hremove there).bind fun _ _ => trivial

theorem sparesLease_trackLane (ctx : SupervisorContext) (stopRequest : Option StopRequest)
    (lane : Option LaneRecord) : SparesLease (trackLane ctx stopRequest lane) := by
  cases stopRequest with
  | some request => trivial
  | none =>
    cases lane with
    | none => exact (sparesLease_writeLastBlocker none _).bind fun _ _ => trivial
    | some lane =>
      refine (sparesLease_ask rfl).bind fun _ _ => ?_
      exact (sparesLease_writeLastBlocker (some lane) _).bind fun _ _ => trivial

theorem sparesLease_heldStep (ctx : SupervisorContext) (acquire : Option LeaseResult)
    (state : RuntimeState) : SparesLease (heldStep ctx acquire state) := by
  refine (sparesLease_ask rfl).bind fun stopRequest _ => ?_
  refine (sparesLease_trackLane ctx stopRequest _).bind fun _ _ => ?_
  refine (sparesLease_finalize ctx _).bind fun _ _ => ?_
  refine (sparesLease_ask rfl).bind fun _ _ => ?_
  exact (sparesLease_ask rfl).bind fun _ _ => trivial

theorem sparesLease_blockedStep (ctx : SupervisorContext) (acquire : Option LeaseResult)
    (state : RuntimeState) : SparesLease (blockedStep ctx acquire state) := by
  refine (sparesLease_ask rfl).bind fun _ _ => ?_
  refine (sparesLease_finalize ctx _).bind fun _ _ => ?_
  exact (sparesLease_ask rfl).bind fun _ _ => trivial

/-- A history without a word about the lease. -/
def Unleased (h : List (Exchange fun q : SupervisorQuery => Except String q.Reply)) : Prop :=
  h.filterMap granted = [] ∧ releases h = []

theorem unleased_of_spares {x : Except String α} (hp : SparesLease p) (hr : Runs p h x) :
    Unleased h := by
  obtain ⟨hasked, -⟩ := hp.runs hr
  rw [Unleased, releases, List.filterMap_eq_nil_iff, List.filterMap_eq_nil_iff]
  refine ⟨fun e he => ?_, fun e he => ?_⟩
  · obtain ⟨q, answer⟩ := e
    have hq : q.leases = false := hasked _ he
    cases q <;> first | rfl | cases hq
  · have hq : e.query.leases = false := hasked e he
    cases hquery : e.query <;> first | rfl | (rw [hquery] at hq; cases hq)

theorem Unleased.append
    {first rest : List (Exchange fun q : SupervisorQuery => Except String q.Reply)}
    (h : Unleased first) (hrest : ReleaseLaw rest) : ReleaseLaw (first ++ rest) := by
  have hreleases : releases (first ++ rest) = releases rest := by
    rw [releases, List.filterMap_append]
    exact congrArg (· ++ releases rest) h.2
  rw [ReleaseLaw, List.filterMap_append, h.1, hreleases]
  exact hrest

theorem releaseLaw_bind {f : α → Supervised β} {x : Except String β} (hp : SparesLease p)
    (hf : ∀ a rest y, Runs (f a) rest y → ReleaseLaw rest) (hr : Runs (p >>= f) h x) :
    ReleaseLaw h := by
  rcases Runs.bind_inv hr with ⟨first, rest, a, rfl, hfirst, hrest⟩ | ⟨message, hthrown, -⟩
  · exact (unleased_of_spares hp hfirst).append (hf a rest x hrest)
  · exact .inl (unleased_of_spares hp hthrown)

theorem runs_ask {q : SupervisorQuery} {x : Except String q.Reply} (hr : Runs (askRuntime q) h x) :
    h = [⟨q, x⟩] := by
  obtain ⟨a, rest, rfl, hrest⟩ := Runs.ask_inv hr
  obtain ⟨rfl, rfl⟩ := Runs.end_inv hrest
  rfl

variable {x : Except String SupervisorReport}

/-- **A step that has the lease** releases it once, however its `try` block ends. -/
theorem releases_stepWith {ctx : SupervisorContext} {state : RuntimeState}
    {acquire : Option LeaseResult} (hsuccess : isLeaseSuccess acquire = true)
    (hr : Runs (stepWith ctx state acquire) h x) :
    h.filterMap granted = [] ∧
      releases h = [(leaseOptions ctx, acquire.bind (·.acquiredId))] := by
  unfold stepWith at hr
  rw [if_pos hsuccess] at hr
  obtain ⟨y, hended⟩ : ∃ y, Runs ((heldStep ctx acquire state).tryFinally
      (releaseLease ctx acquire)) h y := by
    rcases Runs.bind_inv hr with ⟨first, rest, ended, rfl, hfirst, hrest⟩ | ⟨message, hthrown, -⟩
    · obtain ⟨rfl, -⟩ := Runs.done_inv hrest
      exact ⟨_, by rwa [List.append_nil]⟩
    · exact ⟨_, hthrown⟩
  obtain ⟨first, last, _, _, rfl, hfirst, hlast⟩ := Runs.tryFinally_inv hended
  obtain ⟨hgranted, hreleases⟩ := unleased_of_spares (sparesLease_heldStep ctx acquire state) hfirst
  obtain rfl := runs_ask hlast
  constructor
  · rw [List.filterMap_append, hgranted]
    rfl
  · rw [releases, List.filterMap_append]
    exact congrArg (· ++ _) hreleases

/-- **A step** asks for the lease once. -/
theorem releaseLaw_runStepAction {ctx : SupervisorContext} {state : RuntimeState}
    (hr : Runs (runStepAction ctx state) h x) :
    ReleaseLaw h := by
  rcases Runs.bind_inv hr with ⟨first, rest, acquire, rfl, hfirst, hrest⟩ | ⟨message, hthrown, -⟩
  · obtain rfl := runs_ask hfirst
    by_cases hsuccess : isLeaseSuccess acquire = true
    · obtain ⟨hgranted, hreleases⟩ := releases_stepWith hsuccess hrest
      refine .inr ⟨leaseOptions ctx, acquire, ?_, hreleases⟩
      rw [List.singleton_append, List.filterMap_cons, hgranted]
      dsimp only [granted]
      rw [if_pos hsuccess]
    · unfold stepWith at hrest
      rw [if_neg hsuccess] at hrest
      obtain ⟨hgranted, hreleases⟩ :=
        unleased_of_spares (sparesLease_blockedStep ctx acquire state) hrest
      refine .inl ⟨?_, hreleases⟩
      rw [List.singleton_append, List.filterMap_cons, hgranted]
      dsimp only [granted]
      rw [if_neg hsuccess]
  · -- the request for the lease has failed
    obtain rfl := runs_ask hthrown
    exact .inl ⟨rfl, rfl⟩

theorem releaseLaw_of_runs {ctx : SupervisorContext} (haction : ctx.action = .step)
    (hr : Runs (runRuntimeSupervisor ctx) h x) : ReleaseLaw h := by
  refine releaseLaw_bind (sparesLease_ask rfl) (fun _ rest y hrest => ?_) hr
  refine releaseLaw_bind (sparesLease_load ctx) (fun state rest y hrest => ?_) hrest
  unfold runAction at hrest
  rw [haction] at hrest
  exact releaseLaw_runStepAction hrest

end Lease

/-! ### Sequences -/

section Sequences

variable {files : Files} {performed : List Performed}

variable {post pre rest : List Performed}

theorem Sequence.drop (h : Sequence files (pre ++ rest)) :
    ∃ middle, Sequence middle rest := by
  induction pre generalizing files with
  | nil => exact ⟨files, h⟩
  | cons p pre ih =>
    cases h with
    | cons hrun hrest => exact ih hrest

theorem Sequence.start {p : Performed} (h : Sequence files (p :: rest)) : files = p.before := by
  cases h
  rfl

theorem Sequence.runs (h : Sequence files performed) : ∀ p ∈ performed,
    Executes runtimeService p.before (runRuntimeSupervisor p.ctx) p.calls p.after p.result := by
  intro p hp
  obtain ⟨pre, post, rfl⟩ := List.append_of_mem hp
  obtain ⟨middle, hmiddle⟩ := h.drop
  cases hmiddle with
  | cons hrun hrest => exact hrun

theorem Sequence.stopped {seg : List Performed} {first : Performed}
    (h : Sequence files (first :: seg ++ post))
    (hpresent : first.before.stopRequest.present = true)
    (hresume : ∀ p ∈ first :: seg, p.ctx.action ≠ .resume) :
    ∀ p ∈ first :: seg, p.after.stopRequest.present = true ∧
      (p.ctx.action = .step → LeavesLanes p) := by
  induction seg generalizing first files with
  | nil =>
    cases h with
    | cons hrun hrest =>
      intro p hp
      obtain rfl := List.mem_singleton.mp hp
      exact ⟨present_of_run hrun (hresume p hp) hpresent,
        fun haction => leavesLanes_of_run hrun haction hpresent⟩
  | cons second seg ih =>
    cases h with
    | cons hrun hrest =>
      have hafter := present_of_run hrun (hresume first List.mem_cons_self) hpresent
      intro p hp
      rcases List.mem_cons.mp hp with rfl | hp
      · exact ⟨hafter, fun haction => leavesLanes_of_run hrun haction hpresent⟩
      · have hsecond : first.after = second.before := hrest.start
        refine ih hrest (hsecond ▸ hafter) (fun e he => hresume e ?_) p hp
        exact List.mem_cons_of_mem _ he

theorem Sequence.agrees {p : Performed} (h : Sequence files (pre ++ p :: post))
    (hagrees : files.Agrees) (hreturned : ∀ e ∈ pre ++ [p],
      e.ctx.action = .stop ∨ e.ctx.action = .resume → e.Returned) : p.after.Agrees := by
  induction pre generalizing files with
  | nil =>
    cases h with
    | cons hrun hrest => exact agrees_of_run hrun hagrees (hreturned p List.mem_cons_self)
  | cons first pre ih =>
    cases h with
    | cons hrun hrest =>
      refine ih hrest (agrees_of_run hrun hagrees (hreturned first List.mem_cons_self)) ?_
      exact fun e he => hreturned e (List.mem_cons_of_mem _ he)

/-- **Actions one after another.** -/
theorem supervisorLaw (h : Sequence files performed) : SupervisorLaw files performed := by
  refine ⟨?_, ?_, ?_, ?_⟩
  · rintro pre first seg post rfl hpresent hresume
    rw [List.append_assoc] at h
    obtain ⟨middle, hmiddle⟩ := h.drop
    exact hmiddle.stopped hpresent hresume
  · exact fun p hp hreturned => records_of_run (h.runs p hp) hreturned
  · rintro pre p post rfl hagrees hreturned
    exact h.agrees hagrees hreturned
  · exact fun p hp haction => releaseLaw_of_runs haction (h.runs p hp).runs

end Sequences

/-! ### A stop and a step -/

/-- A runtime directory on which nothing fails, with a lease that is always granted. -/
def Files.serve (files : Files) : (q : SupervisorQuery) → Except String q.Reply × Files
  | .readState => (files.state.read, files)
  | .readLegacyState => (files.legacy.read, files)
  | .writeState state => (.ok (), { files with state := .holds state })
  | .readStopRequest => (files.stopRequest.read, files)
  | .writeStopRequest request => (.ok (), { files with stopRequest := .holds request })
  | .removeStopRequest => (.ok (), { files with stopRequest := .missing })
  | .acquireWriterLease options =>
    (.ok (some ⟨some "acquire", some "acquired", some options.scope, some options.owner,
      some (some "lease-1"), none, none⟩), files)
  | .releaseWriterLease options leaseId =>
    (.ok (some ⟨some "release", some "released", some options.scope, some options.owner, none,
      leaseId, none⟩), files)
  | .writeLane lane => (.ok (), { files with
      lanes := (laneFile lane, .holds lane) :: files.lanes.filter fun kv => kv.1 ≠ laneFile lane })
  | .lastBlockerExists => (.ok files.lastBlocker.present, files)
  | .writeLastBlocker payload => (.ok (), { files with lastBlocker := .holds payload })
  | .removeLastBlocker => (.ok (), { files with lastBlocker := .missing })
  | .countLanes => (.ok files.lanes.length, files)
  | .ensureRuntimeLayout => (.ok (), files)
  | .writeTurn _ => (.ok (), files)
  | .recordEvent _ => (.ok (), files)

theorem Files.serve_serves (files : Files) (q : SupervisorQuery) :
    runtimeService files q (files.serve q).1 (files.serve q).2 := by
  cases q with
  | readState => exact ⟨Stored.reads_read _, rfl⟩
  | readLegacyState => exact ⟨Stored.reads_read _, rfl⟩
  | readStopRequest => exact ⟨Stored.reads_read _, rfl⟩
  | countLanes => exact ⟨fun count h => (Except.ok.inj h).symm, rfl⟩
  | lastBlockerExists => exact ⟨rfl, rfl⟩
  | writeState | writeStopRequest | removeStopRequest | writeLane | writeLastBlocker
  | removeLastBlocker => exact ⟨_, rfl, rfl⟩
  | ensureRuntimeLayout | acquireWriterLease | releaseWriterLease | writeTurn | recordEvent =>
    exact rfl

def performAll : Files → List SupervisorContext → List Performed
  | _, [] => []
  | files, ctx :: rest =>
    let (calls, after, result) := (runRuntimeSupervisor ctx).execute Files.serve files
    ⟨ctx, files, calls, after, result⟩ :: performAll after rest

theorem sequence_performAll (files : Files) (ctxs : List SupervisorContext) :
    Sequence files (performAll files ctxs) := by
  induction ctxs generalizing files with
  | nil => exact .nil files
  | cons ctx rest ih =>
    have hrun := executes_execute Files.serve Files.serve_serves files (runRuntimeSupervisor ctx)
    exact .cons (p := ⟨ctx, files, _, _, _⟩) hrun (ih _)

def actionOfIssue (action : Action) : SupervisorContext where
  action := action
  now := 0
  owner := "agent"
  repository := "owner/repo"
  repoRoot := "/repo"
  runtimeDir := "/repo/runtime"
  adapterName := "runtime-adapter"
  reason := none
  laneOptions := {
    lane := none
    issue := some 12
    epic := none
    forkRemote := some "origin"
    branch := none
    prUrl := none
    blockerClass := none
    reason := none
    worker := none
    workerReady := none
    workerBranch := none
    taskPacket := none }
  leaseScope := none
  leaseRoot := none

theorem supervisorLaw_stopStep : SupervisorLaw ⟨.missing, .missing, .missing, [], .missing⟩
    (performAll ⟨.missing, .missing, .missing, [], .missing⟩
      [actionOfIssue .stop, actionOfIssue .step]) :=
  supervisorLaw (sequence_performAll _ _)

end CompareVI.Runtime
