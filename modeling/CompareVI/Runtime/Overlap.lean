import CompareVI.Framework.Run
import CompareVI.Runtime.Harness
import Mathlib.Logic.Function.Basic

/-!
# Overlapping runs of the runtime supervisor

Any number of runs share one runtime directory. A run loads the state, takes the
lease if it is a step, and writes the state at the end; stop and resume write it
without the lease. The model interleaves the file operations of the runs, one a
step, and the lease is granted only while no other owner has it.

The system keeps a log of the writes of the state file: what wrote, how many writes
had been made when it loaded its copy, and the cycle before and after. No update is
lost (`NoLostUpdate`) when every write raises the persisted cycle by one if it
completes a step and keeps it otherwise, and no copy loaded before a stop or resume
is written after it.

`guarded_freshCopy_iff_noLostUpdate` says exactly when: at each write, nothing has
completed a step, stopped or resumed since the writer loaded its copy. That the lease is
held does not matter, as the copy is loaded before the lease is asked for. The
invariant (`Inv`) ties each copy to the cycle persisted when it was loaded; the rest
is about logs (`noLostUpdate_iff_fresh`).
-/

open Framework

namespace CompareVI.Runtime

/-! ### The directory and the runs -/

structure BlockerPayload where
  generatedAt : ℤ
  laneId : String
  issue : Option ℤ
  epic : Option ℤ
  forkRemote : Option String
  branch : Option String
  blockerClass : String
  reason : Option String
  deriving DecidableEq, Repr

/-- The files of a runtime directory that the runs read. `legacy` is the predecessor
of the state file, which is read when there is no state file and never written. -/
structure Directory where
  state : Option RuntimeState
  legacy : Option RuntimeState
  stopRequest : Option StopRequest
  lanes : List (String × LaneRecord)
  lastBlocker : Option BlockerPayload
  deriving DecidableEq

/-- `writeLaneArtifact`. -/
def Directory.writeLane (d : Directory) (lane : LaneRecord) : Directory :=
  let name := sanitizeSegment lane.laneId ++ ".json"
  { d with lanes := (name, lane) :: d.lanes.filter fun kv => kv.1 ≠ name }

def Directory.writeLastBlocker (d : Directory) (lane : Option LaneRecord) (now : ℤ) : Directory :=
  { d with
    lastBlocker := lane.bind fun lane => lane.blocker.map fun blocker => {
      generatedAt := now
      laneId := lane.laneId
      issue := lane.issue
      epic := lane.epic
      forkRemote := lane.forkRemote
      branch := lane.branch
      blockerClass := blocker.blockerClass
      reason := blocker.reason } }

/-- The summary that `finalizeState` takes of the directory. -/
def Directory.summary (d : Directory) : StateSummary where
  trackedLaneCount := d.lanes.length
  blockerPresent := d.lastBlocker.isSome

def Directory.cycle (d : Directory) : ℕ := persistedCycle (d.state.or d.legacy)

/-- What a write of the state file completes. A step that was granted the lease
completes with some outcome other than `lease-blocked`. -/
inductive WriteKind where
  | status
  | stop
  | resume
  | blockedStep
  | step
  deriving DecidableEq, Repr

namespace WriteKind

def increment : WriteKind → ℕ
  | step => 1
  | status | stop | resume | blockedStep => 0

def isStopOrResume : WriteKind → Bool
  | stop | resume => true
  | status | blockedStep | step => false

def settles (kind : WriteKind) : Bool := kind = step || kind.isStopOrResume

end WriteKind

/-- A write of the state file: the number of writes made when its copy was loaded,
and the cycle before and after. -/
structure WriteEntry where
  run : ℕ
  kind : WriteKind
  seen : ℕ
  before : ℕ
  cycle : ℕ
  deriving DecidableEq, Repr

/-- The copy a run works on, and the number of writes made when it was loaded. -/
structure Loaded where
  copy : RuntimeState
  seen : ℕ
  deriving DecidableEq

/-- Where a run is: the next file operation, or the lease operation. -/
inductive Phase where
  | loading
  | loadingLegacy (seen : ℕ)
  | acting (l : Loaded)
  | blocked (l : Loaded)
  | critical (l : Loaded)
  | laneWrite (l : Loaded) (lane : LaneRecord)
  | blockerWrite (l : Loaded) (lane : Option LaneRecord)
  | summarizing (l : Loaded) (kind : WriteKind)
  | writing (l : Loaded) (kind : WriteKind)
  | releasing
  | done
  deriving DecidableEq

def Phase.toWrite : Phase → Option Loaded
  | .writing l _ => some l
  | _ => none

/-- The directory, the lease, the runs and the log of writes. -/
structure System where
  dir : Directory
  lease : Option String
  runs : ℕ → Option (RunContext × Phase)
  log : List WriteEntry

namespace System

def initial (dir : Directory) : System := ⟨dir, none, fun _ => none, []⟩

def goto (s : System) (r : ℕ) (ctx : RunContext) (phase : Phase) : System :=
  { s with runs := Function.update s.runs r (some (ctx, phase)) }

def writeState (s : System) (r : ℕ) (l : Loaded) (kind : WriteKind) : System :=
  { s with
    dir := { s.dir with state := some l.copy }
    log := s.log ++ [{
      run := r, kind := kind, seen := l.seen, before := s.dir.cycle
      cycle := l.copy.lifecycle.cycle }] }

@[simp] theorem goto_runs_self (s : System) (r : ℕ) (ctx : RunContext) (phase : Phase) :
    (s.goto r ctx phase).runs r = some (ctx, phase) :=
  Function.update_self ..

theorem goto_runs_of_ne (s : System) {r r' : ℕ} (h : r' ≠ r) (ctx : RunContext)
    (phase : Phase) : (s.goto r ctx phase).runs r' = s.runs r' :=
  Function.update_of_ne h ..

end System

/-- The next operation of a run. `granted` is the answer of the lease backend where
it is asked; it grants the lease only while no other owner has it. -/
def advance (s : System) (r : ℕ) (ctx : RunContext) (granted : Bool) : Phase → Option System
  | .loading =>
    match s.dir.state with
    | some persisted =>
      some (s.goto r ctx (.acting ⟨loadState ctx (some persisted), s.log.length⟩))
    | none => some (s.goto r ctx (.loadingLegacy s.log.length))
  | .loadingLegacy seen =>
    some (s.goto r ctx (.acting ⟨loadState ctx s.dir.legacy, seen⟩))
  | .acting l =>
    match ctx.action with
    | .stop =>
      some ({ s with dir := { s.dir with stopRequest := some (buildStopRequest ctx) } }.goto r ctx
        (.summarizing { l with copy := applyStop ctx l.copy } .stop))
    | .resume =>
      some ({ s with dir := { s.dir with stopRequest := none } }.goto r ctx
        (.summarizing { l with copy := applyResume ctx l.copy } .resume))
    | .status =>
      some (s.goto r ctx
        (.summarizing { l with copy := applyStatus ctx s.dir.stopRequest l.copy } .status))
    | .step =>
      if granted then
        if s.lease = none ∨ s.lease = some ctx.owner then
          some ({ s with lease := some ctx.owner }.goto r ctx (.critical l))
        else none
      else some (s.goto r ctx (.blocked l))
  | .blocked l =>
    some (s.goto r ctx
      (.summarizing { l with copy := applyBlocked ctx s.dir.stopRequest l.copy } .blockedStep))
  | .critical l =>
    let lane := buildLaneRecord ctx.laneOptions ctx.now
    let l' := { l with copy := (applyStep ctx s.dir.stopRequest lane l.copy).1 }
    match s.dir.stopRequest, lane with
    | some _, _ => some (s.goto r ctx (.summarizing l' .step))
    | none, some lane => some (s.goto r ctx (.laneWrite l' lane))
    | none, none => some (s.goto r ctx (.blockerWrite l' none))
  | .laneWrite l lane =>
    some ({ s with dir := s.dir.writeLane lane }.goto r ctx (.blockerWrite l (some lane)))
  | .blockerWrite l lane =>
    some ({ s with dir := s.dir.writeLastBlocker lane ctx.now }.goto r ctx (.summarizing l .step))
  | .summarizing l kind =>
    some (s.goto r ctx
      (.writing { l with copy := finalizeState ctx s.dir.summary l.copy } kind))
  | .writing l kind =>
    some ((s.writeState r l kind).goto r ctx (if kind = .step then .releasing else .done))
  | .releasing =>
    some ({ s with lease := if granted ∧ s.lease = some ctx.owner then none else s.lease }.goto r
      ctx .done)
  | .done => none

/-- A run starts, does its next operation, or the lease expires. -/
inductive Event where
  | start (r : ℕ) (ctx : RunContext)
  | advance (r : ℕ) (granted : Bool)
  | expire
  deriving DecidableEq

def step (s : System) : Event → Option System
  | .start r ctx =>
    match s.runs r with
    | none => some (s.goto r ctx .loading)
    | some _ => none
  | .advance r granted =>
    match s.runs r with
    | none => none
    | some (ctx, phase) => advance s r ctx granted phase
  | .expire => some { s with lease := none }

/-! ### Lost updates -/

/-- No write of the log has lost an update. -/
structure NoLostUpdate (log : List WriteEntry) : Prop where
  /-- A completed step raises the persisted cycle by one; no other write changes
  it. -/
  cycles : ∀ w ∈ log, w.cycle = w.before + w.kind.increment
  /-- Two completed steps never write the same cycle. -/
  distinct : ∀ (i j : ℕ) (w v : WriteEntry), i < j → log[i]? = some w → log[j]? = some v →
    w.kind = .step → v.kind = .step → w.cycle < v.cycle
  /-- What is written after a stop or resume was loaded after it. -/
  stops : ∀ (i j : ℕ) (w v : WriteEntry), i < j → log[i]? = some w → log[j]? = some v →
    w.kind.isStopOrResume = true → i < v.seen

/-- The condition on a step: when a run writes the state file, no step, stop or
resume has completed since it loaded its copy. -/
def FreshCopy (s : System) : Event → Prop
  | .advance r _ => ∀ run, s.runs r = some run → ∀ l, run.2.toWrite = some l →
      ∀ w ∈ s.log.drop l.seen, w.kind.settles = false
  | .start _ _ | .expire => True

instance (s : System) (e : Event) : Decidable (FreshCopy s e) := by
  cases e <;> unfold FreshCopy <;> infer_instance

def FreshLog (log : List WriteEntry) : Prop :=
  ∀ (i j : ℕ) (w v : WriteEntry), i < j → log[i]? = some w → log[j]? = some v → v.seen ≤ i →
    w.kind.settles = false

/-- The cycle persisted after `n` writes, when it was `c` at the start. -/
def cycleAt (c : ℕ) (log : List WriteEntry) : ℕ → ℕ
  | 0 => c
  | n + 1 => (log[n]?.map (·.cycle)).getD c

/-- The log is that of a system which started at cycle `c`: each entry knows the
cycle before it, and its cycle is the one its copy was loaded with, raised if it
completes a step. -/
structure WellFormedLog (c : ℕ) (log : List WriteEntry) : Prop where
  before : ∀ (j : ℕ) (w : WriteEntry), log[j]? = some w → w.before = cycleAt c log j
  seen : ∀ (j : ℕ) (w : WriteEntry), log[j]? = some w → w.seen ≤ j
  cycle : ∀ (j : ℕ) (w : WriteEntry), log[j]? = some w →
    w.cycle = cycleAt c log w.seen + w.kind.increment

section Log

variable {c : ℕ} {log : List WriteEntry}

variable {w : WriteEntry} {m n : ℕ}

theorem cycleAt_succ {j : ℕ} (h : log[j]? = some w) :
    cycleAt c log (j + 1) = w.cycle := by
  simp [cycleAt, h]

theorem cycleAt_append (hn : n ≤ log.length) (w : WriteEntry) :
    cycleAt c (log ++ [w]) n = cycleAt c log n := by
  cases n with
  | zero => rfl
  | succ n => rw [cycleAt, cycleAt, List.getElem?_append_left (by omega)]

theorem increment_of_not_settles {kind : WriteKind} (h : kind.settles = false) :
    kind.increment = 0 := by
  cases kind <;> first | rfl | cases h

/-- Between two counts of a fresh log with only unsettling writes in between, the
cycle stays. -/
theorem cycleAt_eq_of_unsettled (hwf : WellFormedLog c log) (hmn : m ≤ n) (hn : n ≤ log.length)
    (hbetween : ∀ i w, m ≤ i → i < n → log[i]? = some w →
      w.cycle = w.before + w.kind.increment ∧ w.kind.settles = false) :
    cycleAt c log n = cycleAt c log m := by
  induction n with
  | zero =>
    obtain rfl : m = 0 := by omega
    rfl
  | succ n ih =>
    by_cases hm : m = n + 1
    · rw [hm]
    · obtain ⟨w, hw⟩ : ∃ w, log[n]? = some w := ⟨log[n], List.getElem?_eq_getElem (by omega)⟩
      obtain ⟨hcycle, hunsettled⟩ := hbetween n w (by omega) (by omega) hw
      rw [cycleAt_succ hw, hcycle, increment_of_not_settles hunsettled, Nat.add_zero,
        hwf.before n w hw]
      exact ih (by omega) (by omega) fun i w hi hin => hbetween i w hi (by omega)

/-- In a fresh log every write raises the cycle by its increment, by induction on its
place: the writes since its copy was loaded have not changed it. -/
theorem cycle_of_fresh (hwf : WellFormedLog c log) (hfresh : FreshLog log) (j : ℕ) :
    ∀ w, log[j]? = some w → w.cycle = w.before + w.kind.increment := by
  induction j using Nat.strong_induction_on with
  | _ j ih =>
    intro w hw
    have hj : j < log.length := (List.getElem?_eq_some_iff.mp hw).1
    rw [hwf.cycle j w hw, hwf.before j w hw]
    congr 1
    refine (cycleAt_eq_of_unsettled hwf (hwf.seen j w hw) hj.le fun i v hi hij hv => ?_).symm
    exact ⟨ih i hij v hv, hfresh i j v w hij hv hw hi⟩

theorem cycleAt_mono (hwf : WellFormedLog c log)
    (h : ∀ w ∈ log, w.cycle = w.before + w.kind.increment) (hmn : m ≤ n) (hn : n ≤ log.length) :
    cycleAt c log m ≤ cycleAt c log n := by
  induction n with
  | zero =>
    obtain rfl : m = 0 := by omega
    exact le_refl _
  | succ n ih =>
    by_cases hm : m = n + 1
    · rw [hm]
    · obtain ⟨w, hw⟩ : ∃ w, log[n]? = some w := ⟨log[n], List.getElem?_eq_getElem (by omega)⟩
      have hmn' := ih (by omega) (by omega)
      rw [cycleAt_succ hw, h w (List.mem_of_getElem? hw), hwf.before n w hw]
      omega

/-- **Lost updates of a log.** No update is lost exactly when every write was
fresh. -/
theorem noLostUpdate_iff_fresh (hwf : WellFormedLog c log) : NoLostUpdate log ↔ FreshLog log := by
  constructor
  · intro h i j w v hij hw hv hseen
    have hj : j < log.length := (List.getElem?_eq_some_iff.mp hv).1
    by_contra hsettles
    rw [Bool.not_eq_false, WriteKind.settles, Bool.or_eq_true, decide_eq_true_eq] at hsettles
    rcases hsettles with hstep | hstop
    · -- a completed step since the load: the cycle written is one behind
      have h1 := cycleAt_mono hwf h.cycles hseen (by omega : i ≤ log.length)
      have h2 := cycleAt_mono hwf h.cycles (by omega : i + 1 ≤ j) hj.le
      rw [cycleAt_succ hw, h.cycles w (List.mem_of_getElem? hw), hwf.before i w hw, hstep] at h2
      have h3 := h.cycles v (List.mem_of_getElem? hv)
      rw [hwf.cycle j v hv, hwf.before j v hv] at h3
      simp only [WriteKind.increment] at h2
      omega
    · have := h.stops i j w v hij hw hv hstop
      omega
  · intro hfresh
    have hcycles : ∀ w ∈ log, w.cycle = w.before + w.kind.increment := fun w hw =>
      (List.getElem?_of_mem hw).elim fun j hj => cycle_of_fresh hwf hfresh j w hj
    refine ⟨hcycles, fun i j w v hij hw hv _ hstep => ?_, fun i j w v hij hw hv hstop => ?_⟩
    · have hj : j < log.length := (List.getElem?_eq_some_iff.mp hv).1
      have hmono := cycleAt_mono hwf hcycles (by omega : i + 1 ≤ j) hj.le
      have hv' := hcycles v (List.mem_of_getElem? hv)
      rw [hwf.before j v hv, hstep, WriteKind.increment] at hv'
      rw [cycleAt_succ hw] at hmono
      omega
    · by_contra hle
      have := hfresh i j w v hij hw hv (by omega)
      rw [WriteKind.settles, hstop, Bool.or_true] at this
      cases this

theorem freshLog_append :
    FreshLog (log ++ [w]) ↔ FreshLog log ∧ ∀ v ∈ log.drop w.seen, v.kind.settles = false := by
  constructor
  · intro h
    refine ⟨fun i j v u hij hv hu hseen => ?_, fun v hv => ?_⟩
    · have hj : j < log.length := (List.getElem?_eq_some_iff.mp hu).1
      refine h i j v u hij ?_ ?_ hseen
      · rwa [List.getElem?_append_left (by omega)]
      · rwa [List.getElem?_append_left hj]
    · obtain ⟨k, hk⟩ := List.getElem?_of_mem hv
      rw [List.getElem?_drop] at hk
      have hlt : w.seen + k < log.length := (List.getElem?_eq_some_iff.mp hk).1
      refine h (w.seen + k) log.length v w hlt ?_ ?_ (by omega)
      · rwa [List.getElem?_append_left hlt]
      · simp
  · rintro ⟨hlog, hw⟩ i j v u hij hv hu hseen
    have hlt : j < (log ++ [w]).length := (List.getElem?_eq_some_iff.mp hu).1
    rw [List.length_append, List.length_singleton] at hlt
    have hi : i < log.length := by omega
    rw [List.getElem?_append_left hi] at hv
    by_cases hj : j < log.length
    · rw [List.getElem?_append_left hj] at hu
      exact hlog i j v u hij hv hu hseen
    · obtain rfl : j = log.length := by omega
      obtain rfl : w = u := by simpa using hu
      refine hw v (List.mem_of_getElem? (i := i - w.seen) ?_)
      rwa [List.getElem?_drop, Nat.add_sub_cancel' hseen]

end Log

/-! ### The invariant of the system -/

/-- The copy was loaded after `l.seen` of the writes, and is `n` cycles ahead of what
was persisted then. -/
def LoadedAt (c : ℕ) (log : List WriteEntry) (l : Loaded) (n : ℕ) : Prop :=
  l.seen ≤ log.length ∧ l.copy.lifecycle.cycle = cycleAt c log l.seen + n

def PhaseInv (d : Directory) (log : List WriteEntry) : Phase → Prop
  | .loading | .releasing | .done => True
  | .loadingLegacy seen =>
    seen ≤ log.length ∧ persistedCycle d.legacy = cycleAt d.cycle log seen
  | .acting l | .blocked l | .critical l => LoadedAt d.cycle log l 0
  | .laneWrite l _ | .blockerWrite l _ => LoadedAt d.cycle log l 1
  | .summarizing l kind | .writing l kind => LoadedAt d.cycle log l kind.increment

/-- The invariant of a system that started in the directory `d`. -/
structure Inv (d : Directory) (s : System) : Prop where
  legacy : s.dir.legacy = d.legacy
  unwritten : s.dir.state = none → s.log = []
  cycle : s.dir.cycle = cycleAt d.cycle s.log s.log.length
  log : WellFormedLog d.cycle s.log
  runs : ∀ r ctx phase, s.runs r = some (ctx, phase) → PhaseInv d s.log phase

section Invariant

variable {d : Directory} {s t : System} {r : ℕ} {ctx : RunContext}

theorem inv_initial (d : Directory) : Inv d (System.initial d) where
  legacy := rfl
  unwritten _ := rfl
  cycle := rfl
  log := ⟨fun _ _ h => (nomatch h), fun _ _ h => (nomatch h), fun _ _ h => (nomatch h)⟩
  runs := fun _ _ _ h => nomatch h

variable {phase : Phase}

theorem Inv.goto (h : Inv d s) (hphase : PhaseInv d s.log phase) :
    Inv d (s.goto r ctx phase) where
  legacy := h.legacy
  unwritten := h.unwritten
  cycle := h.cycle
  log := h.log
  runs := by
    intro r' ctx' phase' hr'
    by_cases hr : r' = r
    · subst hr
      rw [System.goto_runs_self, Option.some.injEq, Prod.mk.injEq] at hr'
      exact hr'.2 ▸ hphase
    · rw [System.goto_runs_of_ne s hr] at hr'
      exact h.runs r' ctx' phase' hr'

theorem Inv.of_files (h : Inv d s) (hstate : t.dir.state = s.dir.state)
    (hlegacy : t.dir.legacy = s.dir.legacy) (hlog : t.log = s.log) (hruns : t.runs = s.runs) :
    Inv d t where
  legacy := hlegacy.trans h.legacy
  unwritten := by
    rw [hstate, hlog]
    exact h.unwritten
  cycle := by
    rw [Directory.cycle, hstate, hlegacy, hlog]
    exact h.cycle
  log := hlog ▸ h.log
  runs := by
    rw [hruns, hlog]
    exact h.runs

theorem Inv.goto_of_files (h : Inv d s) (hstate : t.dir.state = s.dir.state)
    (hlegacy : t.dir.legacy = s.dir.legacy) (hlog : t.log = s.log) (hruns : t.runs = s.runs)
    (hphase : PhaseInv d s.log phase) : Inv d (t.goto r ctx phase) :=
  (h.of_files hstate hlegacy hlog hruns).goto (hlog ▸ hphase)

variable {granted : Bool} {e : Event} {l : Loaded}

theorem LoadedAt.append {c n : ℕ} {log : List WriteEntry} (h : LoadedAt c log l n)
    (w : WriteEntry) : LoadedAt c (log ++ [w]) l n := by
  refine ⟨h.1.trans (by simp), ?_⟩
  rw [cycleAt_append h.1, h.2]

theorem PhaseInv.append {log : List WriteEntry} (h : PhaseInv d log phase) (w : WriteEntry) :
    PhaseInv d (log ++ [w]) phase := by
  cases phase with
  | loading | releasing | done => trivial
  | loadingLegacy seen =>
    obtain ⟨hseen, hcycle⟩ := h
    exact ⟨hseen.trans (by simp), by rw [cycleAt_append hseen, hcycle]⟩
  | acting l | blocked l | critical l | laneWrite l | blockerWrite l | summarizing l
  | writing l => exact LoadedAt.append h w

theorem Inv.writeState (h : Inv d s) {kind : WriteKind}
    (hl : LoadedAt d.cycle s.log l kind.increment) : Inv d (s.writeState r l kind) where
  legacy := h.legacy
  unwritten := fun hnone => by cases hnone
  cycle := by
    change l.copy.lifecycle.cycle = cycleAt d.cycle (s.log ++ [_]) (s.log ++ [_]).length
    rw [List.length_append, List.length_singleton, cycleAt_succ List.getElem?_concat_length]
  log := by
    have hnew : ∀ {P : ℕ → WriteEntry → Prop},
        (∀ j w, s.log[j]? = some w → P j w) →
        P s.log.length ⟨r, kind, l.seen, s.dir.cycle, l.copy.lifecycle.cycle⟩ →
        ∀ j w, (s.writeState r l kind).log[j]? = some w → P j w := by
      intro P hold hlast j w hw
      rw [System.writeState, List.getElem?_append] at hw
      split at hw
      · exact hold j w hw
      · next hj =>
        have hlt : j - s.log.length < 1 := (List.getElem?_eq_some_iff.mp hw).1
        obtain rfl : j = s.log.length := by omega
        rw [Nat.sub_self, List.getElem?_cons_zero, Option.some.injEq] at hw
        exact hw ▸ hlast
    refine ⟨hnew (fun j w hw => ?_) ?_, hnew h.log.seen hl.1, hnew (fun j w hw => ?_) ?_⟩
    · have hj : j < s.log.length := (List.getElem?_eq_some_iff.mp hw).1
      rw [System.writeState, cycleAt_append hj.le]
      exact h.log.before j w hw
    · rw [System.writeState, cycleAt_append le_rfl]
      exact h.cycle
    · have hj : j < s.log.length := (List.getElem?_eq_some_iff.mp hw).1
      rw [System.writeState, cycleAt_append ((h.log.seen j w hw).trans hj.le)]
      exact h.log.cycle j w hw
    · rw [System.writeState, cycleAt_append hl.1]
      exact hl.2
  runs := fun r' ctx' phase' hr' => (h.runs r' ctx' phase' hr').append _

/-- **One operation of a run.** It keeps the invariant. -/
theorem inv_advance (h : Inv d s) (hphase : PhaseInv d s.log phase)
    (hstep : advance s r ctx granted phase = some t) :
    Inv d t := by
  cases phase with
  | loading =>
    rw [advance] at hstep
    split at hstep
    · next persisted hstate =>
      obtain rfl := Option.some.inj hstep
      refine h.goto ⟨le_refl _, ?_⟩
      rw [← h.cycle, Directory.cycle, hstate, loadState_cycle]
      rfl
    · next hnone =>
      obtain rfl := Option.some.inj hstep
      refine h.goto ⟨le_refl _, ?_⟩
      rw [← h.cycle, Directory.cycle, hnone, h.legacy]
      rfl
  | loadingLegacy seen =>
    obtain rfl := Option.some.inj hstep
    refine h.goto ⟨hphase.1, ?_⟩
    rw [loadState_cycle, h.legacy, hphase.2, Nat.add_zero]
  | acting l =>
    rw [advance] at hstep
    split at hstep
    · obtain rfl := Option.some.inj hstep
      apply Inv.goto_of_files h
      exacts [rfl, rfl, rfl, rfl, hphase]
    · obtain rfl := Option.some.inj hstep
      apply Inv.goto_of_files h
      exacts [rfl, rfl, rfl, rfl, hphase]
    · obtain rfl := Option.some.inj hstep
      exact h.goto hphase
    · split at hstep
      · split at hstep
        · obtain rfl := Option.some.inj hstep
          apply Inv.goto_of_files h
          exacts [rfl, rfl, rfl, rfl, hphase]
        · cases hstep
      · obtain rfl := Option.some.inj hstep
        exact h.goto hphase
  | blocked l =>
    obtain rfl := Option.some.inj hstep
    exact h.goto hphase
  | critical l =>
    -- the copy moves one cycle ahead
    have hnext : ∀ lane, LoadedAt d.cycle s.log
        { l with copy := (applyStep ctx s.dir.stopRequest lane l.copy).1 } 1 := fun lane =>
      ⟨hphase.1, by rw [applyStep_cycle, hphase.2]⟩
    simp only [advance] at hstep
    split at hstep
    · obtain rfl := Option.some.inj hstep
      exact h.goto (hnext _)
    · obtain rfl := Option.some.inj hstep
      exact h.goto (hnext _)
    · obtain rfl := Option.some.inj hstep
      exact h.goto (hnext _)
  | laneWrite l lane =>
    obtain rfl := Option.some.inj hstep
    apply Inv.goto_of_files h
    exacts [rfl, rfl, rfl, rfl, hphase]
  | blockerWrite l lane =>
    obtain rfl := Option.some.inj hstep
    apply Inv.goto_of_files h
    exacts [rfl, rfl, rfl, rfl, hphase]
  | summarizing l kind =>
    obtain rfl := Option.some.inj hstep
    exact h.goto hphase
  | writing l kind =>
    obtain rfl := Option.some.inj hstep
    refine (h.writeState hphase).goto ?_
    split <;> trivial
  | releasing =>
    obtain rfl := Option.some.inj hstep
    apply Inv.goto_of_files h
    exacts [rfl, rfl, rfl, rfl, trivial]
  | done => cases hstep

theorem inv_step (h : Inv d s) (hstep : step s e = some t) : Inv d t := by
  cases e with
  | start r ctx =>
    rw [step] at hstep
    split at hstep
    · obtain rfl := Option.some.inj hstep
      exact h.goto trivial
    · cases hstep
  | advance r granted =>
    rw [step] at hstep
    split at hstep
    · cases hstep
    · next ctx phase hr => exact inv_advance h (h.runs r ctx phase hr) hstep
  | expire =>
    obtain rfl := Option.some.inj hstep
    exact h.of_files rfl rfl rfl rfl

/-! ### Fresh copies and fresh logs -/

theorem log_advance (hstep : advance s r ctx granted phase = some t) :
    (∃ l kind, phase = .writing l kind ∧
      t.log = s.log ++ [⟨r, kind, l.seen, s.dir.cycle, l.copy.lifecycle.cycle⟩]) ∨
    (phase.toWrite = none ∧ t.log = s.log) := by
  cases phase with
  | writing l kind =>
    obtain rfl := Option.some.inj hstep
    exact .inl ⟨l, kind, rfl, rfl⟩
  | loading | loadingLegacy | acting | blocked | critical | laneWrite | blockerWrite
  | summarizing | releasing | done =>
    refine .inr ⟨rfl, ?_⟩
    simp only [advance] at hstep
    repeat' split at hstep
    all_goals first | cases hstep; rfl | cases hstep

/-- **One step.** The log stays fresh exactly when the step meets the condition. -/
theorem freshLog_step (hstep : step s e = some t) :
    FreshLog t.log ↔ FreshLog s.log ∧ FreshCopy s e := by
  cases e with
  | start r ctx =>
    rw [step] at hstep
    split at hstep
    · obtain rfl := Option.some.inj hstep
      exact (and_iff_left trivial).symm
    · cases hstep
  | expire =>
    obtain rfl := Option.some.inj hstep
    exact (and_iff_left trivial).symm
  | advance r granted =>
    rw [step] at hstep
    split at hstep
    · cases hstep
    · next ctx phase hr =>
      rcases log_advance hstep with ⟨l, kind, rfl, hlog⟩ | ⟨hnone, hlog⟩
      · rw [hlog, freshLog_append]
        refine and_congr_right fun _ => ⟨fun hfresh run hr' l' hl' => ?_, fun hfresh => ?_⟩
        · rw [hr] at hr'
          cases hr'
          cases hl'
          exact hfresh
        · exact hfresh _ hr l rfl
      · rw [hlog]
        refine ⟨fun hfresh => ⟨hfresh, fun run hr' l hl => ?_⟩, And.left⟩
        rw [hr] at hr'
        cases hr'
        cases hnone.symm.trans hl

end Invariant

def plainStep (owner : String) (now : ℤ) : RunContext where
  action := .step
  now := now
  owner := owner
  repository := "owner/repo"
  repoRoot := "/work"
  runtimeDir := "/work/tests/results/_agent/runtime"
  adapterName := "default"
  reason := none
  laneOptions := {
    lane := none, issue := none, epic := none, forkRemote := none, branch := none, prUrl := none
    blockerClass := none, reason := none, worker := none, workerReady := none
    workerBranch := none, taskPacket := none }

def emptyDirectory : Directory := ⟨none, none, none, [], none⟩

/-- A step of run `r` from the lease to its release. -/
def leasedPart (r : ℕ) : List Event := List.replicate 6 (.advance r true)

/-- Run `0` of owner `a` and run `1` of owner `b` both load the state, then take the
lease one after the other. -/
def overlappingSteps : List Event :=
  [.start 0 (plainStep "a" 1000), .start 1 (plainStep "b" 2000),
    .advance 0 true, .advance 0 true, .advance 1 true, .advance 1 true] ++
  leasedPart 0 ++ leasedPart 1

def successiveSteps : List Event :=
  [.start 0 (plainStep "a" 1000), .advance 0 true, .advance 0 true] ++ leasedPart 0 ++
  [.start 1 (plainStep "b" 2000), .advance 1 true] ++ leasedPart 1

end CompareVI.Runtime
