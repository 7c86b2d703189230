import CompareVI.Framework.Run
import Mathlib.Logic.Function.Basic
import Mathlib.Data.Int.Basic

/-!
# The session lock

`Session-Lock.ps1` keeps the lock of a group in one file, `lock.json`. Acquire
creates the file exclusively, or reads it and queues, gives up or takes over;
Heartbeat reads it and replaces it; Release reads it and removes it. Only the
creation is exclusive: what the other actions decide on a read they carry out later,
whatever the file has become.

The model interleaves any number of invocations of any processes, one file operation
a step. A file operation may fail, which includes meeting the file while another
invocation has it open: `Read-Lock` then finds no lock, an exclusive creation goes on
to its second read, an overwriting write throws and a removal is silently left out.
The readings of the clock are arbitrary. Times are in ticks of 100 ns, as in
`DateTime`.

`issued` and `holders` are not in the program. `issued` says to which process a lock id
was given. `holders` records, for each process, the record behind its last acquired or
takeover result with the heartbeats since, until the process releases the lock or a
takeover succeeds whose reading of the clock finds it left for too long.

`lockLaw_of_uncontested` says when the lock does its work: as long as every write and
removal finds the file as its invocation read it, a takeover is one of a lock that is
really stale, and a release without a lock id meets a record of its own process. The
invariant behind it (`Inv`) is that the record of a holder is in the file.
-/

open Framework

namespace CompareVI.SessionLock

/-! ### Lock records -/

def ticksPerSecond : ℤ := 10000000

/-- A lock record. A lock id is the text of a guid, in lower case, so that the comparison of
PowerShell is equality. `heartbeatAt` is `none` where it is empty or no date. -/
structure LockRecord where
  lockId : String
  queueWaitSeconds : ℤ
  acquiredAt : ℤ
  heartbeatAt : Option ℤ
  takeover : Bool
  deriving DecidableEq, Repr

def newLockRecord (lockId : String) (acquiredAt queueWaitSeconds : ℤ) (takeover : Bool) :
    LockRecord where
  lockId := lockId
  queueWaitSeconds := queueWaitSeconds
  acquiredAt := acquiredAt
  heartbeatAt := some acquiredAt
  takeover := takeover

/-- A time stamp after its way through the file: `ConvertFrom-Json` turns it into a
`DateTime`, and the text of this that `[DateTime]::Parse` is given has no fraction of a
second. -/
def wholeSeconds (ticks : ℤ) : ℤ := ticks - ticks % ticksPerSecond

/-- `Get-HeartbeatAgeSeconds`, in ticks and with `none` for infinity. -/
def getHeartbeatAge (record : Option LockRecord) (utcNow : ℤ) : Option ℤ :=
  (record.bind (·.heartbeatAt)).map fun heartbeat => utcNow - wholeSeconds heartbeat

/-- `$age -gt $StaleSeconds`. -/
def isStale (staleSeconds : ℤ) (record : Option LockRecord) (utcNow : ℤ) : Bool :=
  match getHeartbeatAge record utcNow with
  | none => true
  | some age => age > staleSeconds * ticksPerSecond

/-- At the reading of the clock the last heartbeat is more than `staleSeconds` ago. -/
def LockRecord.isLeft (record : LockRecord) (staleSeconds utcNow : ℤ) : Bool :=
  match record.heartbeatAt with
  | none => true
  | some heartbeat => utcNow - heartbeat > staleSeconds * ticksPerSecond

def LockRecord.beat (lock : LockRecord) (utcNow : ℤ) : LockRecord :=
  { lock with heartbeatAt := some utcNow }

@[simp] theorem LockRecord.beat_lockId (lock : LockRecord) (utcNow : ℤ) :
    (lock.beat utcNow).lockId = lock.lockId := rfl

/-! ### Invocations -/

structure AcquireOptions where
  queueWaitSeconds : ℤ
  queueMaxAttempts : ℤ
  staleSeconds : ℤ
  forceTakeover : Bool
  deriving DecidableEq, Repr

/-- The `status` output. -/
inductive Status where
  | acquired
  | takeover
  | stale
  | timeout
  | released
  | mismatch
  | heartbeat
  deriving DecidableEq, Repr

def Status.exitCode : Status → ℕ
  | stale => 10
  | timeout => 11
  | acquired | takeover | released | mismatch | heartbeat => 0

/-- An invocation at its next file operation, or ended with its status if it wrote
one. -/
inductive Call where
  | acquireRead (o : AcquireOptions) (attempt : ℕ) (queueWait : ℤ)
  | acquireCreate (o : AcquireOptions) (attempt : ℕ) (queueWait now : ℤ)
  | acquireReread (o : AcquireOptions) (attempt : ℕ) (queueWait now : ℤ)
  | acquireOverwrite (o : AcquireOptions) (queueWait now : ℤ) (lock : Option LockRecord)
      (utcNow : ℤ)
  | releaseRead (lockId : String)
  | releaseRemove (lockId : String) (lock : LockRecord)
  | heartbeatRead (lockId : String)
  | heartbeatWrite (lock : LockRecord) (utcNow : ℤ)
  | ended (status : Option Status)
  deriving DecidableEq, Repr

def Call.isReleaseOrHeartbeat : Call → Bool
  | releaseRead _ | releaseRemove _ _ | heartbeatRead _ | heartbeatWrite _ _ => true
  | acquireRead _ _ _ | acquireCreate _ _ _ _ | acquireReread _ _ _ _
  | acquireOverwrite _ _ _ _ _ | ended _ => false

/-- An action with its parameters. `lockId` is the value of `SESSION_LOCK_ID`, empty if
it is not set. -/
inductive Operation where
  | acquire (o : AcquireOptions)
  | release (lockId : String)
  | heartbeat (lockId : String)
  deriving DecidableEq, Repr

def Operation.begin : Operation → Call
  | acquire o => .acquireRead o 0 0
  | release lockId => .releaseRead lockId
  | heartbeat lockId => if lockId = "" then .ended none else .heartbeatRead lockId

def Operation.lockId : Operation → String
  | acquire _ => ""
  | release lockId => lockId
  | heartbeat lockId => lockId

def decideAcquire (o : AcquireOptions) (attempt : ℕ) (queueWait now : ℤ)
    (lock : Option LockRecord) (utcNow : ℤ) : Call :=
  if isStale o.staleSeconds lock utcNow then
    if o.forceTakeover then .acquireOverwrite o queueWait now lock utcNow
    else .ended (some .stale)
  else if (attempt : ℤ) ≥ o.queueMaxAttempts then .ended (some .timeout)
  else .acquireRead o (attempt + 1) (queueWait + o.queueWaitSeconds)

/-! ### Steps -/

structure Invocation where
  process : ℕ
  call : Call
  deriving DecidableEq, Repr

/-- The file, the invocations, and the two records of the past. -/
structure State where
  file : Option LockRecord
  calls : ℕ → Option Invocation
  issued : String → Option ℕ
  holders : ℕ → Option LockRecord

/-- What a file operation meets: two readings of the clock, a new guid, and whether the
operation fails. -/
structure Surroundings where
  now : ℤ
  utcNow : ℤ
  guid : String
  fails : Bool
  deriving DecidableEq, Repr

/-- One step of the system: an invocation starts, does its next file operation, or is
killed. -/
inductive Event where
  | start (c process : ℕ) (op : Operation)
  | next (c : ℕ) (x : Surroundings)
  | abort (c : ℕ)
  deriving DecidableEq, Repr

def Event.index : Event → ℕ
  | start c _ _ => c
  | next c _ => c
  | abort c => c

namespace State

def initial (left : Option (ℕ × LockRecord)) : State where
  file := left.map (·.2)
  calls := fun _ => none
  issued := fun id => left.bind fun l => if l.2.lockId = id then some l.1 else none
  holders := fun _ => none

def moveOn (s : State) (c process : ℕ) (call : Call) : State :=
  { s with calls := Function.update s.calls c (some ⟨process, call⟩) }

def readLock (s : State) (x : Surroundings) : Option LockRecord :=
  if x.fails then none else s.file

def grant (s : State) (process : ℕ) (record : LockRecord) : State :=
  { s with
    file := some record
    issued := Function.update s.issued record.lockId (some process)
    holders := Function.update s.holders process (some record) }

/-- The locks left for too long at the reading of a takeover are not held any more. -/
def dropLeft (s : State) (staleSeconds utcNow : ℤ) : State :=
  { s with holders := fun p => (s.holders p).filter fun r => !r.isLeft staleSeconds utcNow }

def drop (s : State) (process : ℕ) : State :=
  { s with holders := Function.update s.holders process none }

/-- The file is written with a new heartbeat, which counts for the lock of the process if
it holds one. -/
def beat (s : State) (process : ℕ) (record : LockRecord) : State :=
  { s with
    file := some record
    holders := Function.update s.holders process ((s.holders process).map fun _ => record) }

end State

def stepCall (s : State) (c p : ℕ) (x : Surroundings) : Call → State
  | .acquireRead o attempt queueWait =>
    match s.readLock x with
    | none => s.moveOn c p (.acquireCreate o attempt queueWait x.now)
    | some lock => s.moveOn c p (decideAcquire o attempt queueWait x.now (some lock) x.utcNow)
  | .acquireCreate o attempt queueWait now =>
    if x.fails || s.file.isSome then s.moveOn c p (.acquireReread o attempt queueWait now)
    else (s.grant p (newLockRecord x.guid now queueWait false)).moveOn c p
      (.ended (some .acquired))
  | .acquireReread o attempt queueWait now =>
    s.moveOn c p (decideAcquire o attempt queueWait now (s.readLock x) x.utcNow)
  | .acquireOverwrite o queueWait now _ utcNow =>
    if x.fails then s.moveOn c p (.ended none)
    else ((s.dropLeft o.staleSeconds utcNow).grant p
      (newLockRecord x.guid now queueWait true)).moveOn c p (.ended (some .takeover))
  | .releaseRead lockId =>
    match s.readLock x with
    | none => (s.drop p).moveOn c p (.ended (some .released))
    | some lock =>
      if lockId ≠ "" ∧ lock.lockId ≠ lockId then s.moveOn c p (.ended (some .mismatch))
      else s.moveOn c p (.releaseRemove lockId lock)
  | .releaseRemove _ _ =>
    (({ s with file := if x.fails then s.file else none } : State).drop p).moveOn c p
      (.ended (some .released))
  | .heartbeatRead lockId =>
    match s.readLock x with
    | none => s.moveOn c p (.ended none)
    | some lock =>
      if lock.lockId ≠ lockId then s.moveOn c p (.ended none)
      else s.moveOn c p (.heartbeatWrite lock x.utcNow)
  | .heartbeatWrite lock utcNow =>
    if x.fails then s.moveOn c p (.ended none)
    else (s.beat p (lock.beat utcNow)).moveOn c p (.ended (some .heartbeat))
  | .ended status => s.moveOn c p (.ended status)

/-- One step of the system. A process uses no lock id but its own, and a new guid has
not been issued before. -/
def step (s : State) : Event → Option State
  | .start c p op =>
    if s.calls c = none ∧ (op.lockId = "" ∨ s.issued op.lockId = some p) then
      some (s.moveOn c p op.begin)
    else none
  | .next c x =>
    if s.issued x.guid = none then
      (s.calls c).map fun i => stepCall s c i.process x i.call
    else none
  | .abort c => (s.calls c).map fun i => s.moveOn c i.process (.ended none)

/-! ### What the lock promises, and when -/

/-- At most one process holds the lock. -/
def Exclusive (s : State) : Prop :=
  ∀ p q r r', s.holders p = some r → s.holders q = some r' → p = q

/-- A step of a Release or Heartbeat leaves the record of another process where it
is. -/
def Harmless (s : State) (e : Event) (t : State) : Prop :=
  ∀ i, s.calls e.index = some i → i.call.isReleaseOrHeartbeat = true →
    ∀ r q, s.file = some r → s.issued r.lockId = some q → q ≠ i.process → t.file = some r

/-- Along the run at most one process holds the lock at any time, and no Release or
Heartbeat touches the record of another process. -/
def LockLaw (left : Option (ℕ × LockRecord)) (es : List Event) : Prop :=
  (∀ pre post s, es = pre ++ post → run step (State.initial left) pre = some s →
    Exclusive s) ∧
  ∀ pre e post s t, es = pre ++ e :: post → run step (State.initial left) pre = some s →
    step s e = some t → Harmless s e t

/-- The file is as the call has read it where the call writes or removes it: a takeover
finds the record it read and this is really stale, a removal or heartbeat finds a record
with the lock id it read, and a Release that was given no lock id finds a record of its own
process. A file that is missing is nobody's. -/
def Call.uncontested (s : State) (p : ℕ) : Call → Bool
  | acquireOverwrite o _ _ lock utcNow =>
    s.file.all fun r => lock = some r && r.isLeft o.staleSeconds utcNow
  | releaseRemove lockId lock =>
    s.file.all fun r =>
      r.lockId = lock.lockId && (lockId ≠ "" || s.issued r.lockId = some p)
  | heartbeatWrite lock _ => s.file.all fun r => r.lockId = lock.lockId
  | acquireRead _ _ _ | acquireCreate _ _ _ _ | acquireReread _ _ _ _ | releaseRead _
  | heartbeatRead _ | ended _ => true

def Uncontested (s : State) : Event → Prop
  | .next c x => x.fails = false → (s.calls c).all (fun i => i.call.uncontested s i.process) = true
  | .start _ _ _ | .abort _ => True

instance (s : State) (e : Event) : Decidable (Uncontested s e) := by
  cases e <;> unfold Uncontested <;> infer_instance

/-! ### The invariant -/

/-- The lock id that a Release or Heartbeat goes by is one of its own process. -/
def CallOk (issued : String → Option ℕ) (p : ℕ) : Call → Prop
  | .releaseRead lockId => lockId ≠ "" → issued lockId = some p
  | .releaseRemove lockId lock => lockId ≠ "" → issued lock.lockId = some p
  | .heartbeatRead lockId => issued lockId = some p
  | .heartbeatWrite lock _ => issued lock.lockId = some p
  | .acquireRead _ _ _ | .acquireCreate _ _ _ _ | .acquireReread _ _ _ _
  | .acquireOverwrite _ _ _ _ _ | .ended _ => True

/-- The invariant of the uncontested runs. -/
structure Inv (s : State) : Prop where
  /-- The record of a holder is in the file, and its lock id is the holder's. -/
  held : ∀ p r, s.holders p = some r → s.file = some r ∧ s.issued r.lockId = some p
  calls : ∀ c i, s.calls c = some i → CallOk s.issued i.process i.call

variable {s t : State} {c p : ℕ} {x : Surroundings}

theorem Inv.initial (left : Option (ℕ × LockRecord)) : Inv (State.initial left) where
  held := fun _ _ h => nomatch h
  calls := fun _ _ h => nomatch h

theorem Inv.exclusive (hs : Inv s) : Exclusive s := by
  intro p q r r' h h'
  obtain ⟨hfile, hissued⟩ := hs.held p r h
  obtain ⟨hfile', hissued'⟩ := hs.held q r' h'
  rw [hfile, Option.some.injEq] at hfile'
  subst hfile'
  exact Option.some.inj (hissued.symm.trans hissued')

variable {call : Call} {e : Event} {r record : LockRecord} {issued : String → Option ℕ}

theorem Inv.no_holder (hs : Inv s) (hfile : s.file = none) (q : ℕ) : s.holders q = none := by
  cases h : s.holders q with
  | none => rfl
  | some r =>
    have := (hs.held q r h).1
    rw [hfile] at this
    cases this

theorem CallOk.mono {issued' : String → Option ℕ}
    (hmono : ∀ id q, issued id = some q → issued' id = some q) (h : CallOk issued p call) :
    CallOk issued' p call := by
  cases call with
  | releaseRead | releaseRemove => exact fun hne => hmono _ _ (h hne)
  | heartbeatRead | heartbeatWrite => exact hmono _ _ h
  | acquireRead | acquireCreate | acquireReread | acquireOverwrite | ended => trivial

theorem CallOk.decideAcquire (o : AcquireOptions) (attempt : ℕ) (queueWait now : ℤ)
    (lock : Option LockRecord) (utcNow : ℤ) :
    CallOk issued p (decideAcquire o attempt queueWait now lock utcNow) := by
  unfold SessionLock.decideAcquire
  split_ifs <;> trivial

theorem Inv.moveOn (hs : Inv s) (hcall : CallOk s.issued p call) :
    Inv (s.moveOn c p call) where
  held := hs.held
  calls := by
    intro c' i h
    by_cases hc : c' = c
    · subst hc
      obtain rfl : (⟨p, call⟩ : Invocation) = i := by simpa [State.moveOn] using h
      exact hcall
    · have h' : s.calls c' = some i := by simpa [State.moveOn, hc] using h
      exact hs.calls c' i h'

theorem Inv.drop (hs : Inv s) (p : ℕ) : Inv (s.drop p) where
  held := by
    intro q r h
    by_cases hq : q = p
    · simp [State.drop, hq] at h
    · exact hs.held q r (by simpa [State.drop, hq] using h)
  calls := hs.calls

/-- **A grant keeps the invariant** if nobody else holds the lock and the lock id is
new. -/
theorem Inv.grant (hs : Inv s) (hfresh : s.issued record.lockId = none)
    (hothers : ∀ q, s.holders q = none) : Inv (s.grant p record) where
  held := by
    intro q r h
    by_cases hq : q = p
    · subst hq
      obtain rfl : record = r := by simpa [State.grant] using h
      exact ⟨rfl, Function.update_self ..⟩
    · have h' : s.holders q = some r := by simpa [State.grant, hq] using h
      rw [hothers q] at h'
      cases h'
  calls := by
    intro c i h
    refine (hs.calls c i h).mono fun id q hid => ?_
    have hne : id ≠ record.lockId := by
      rintro rfl
      rw [hfresh] at hid
      cases hid
    simpa [State.grant, hne] using hid

theorem Inv.beat (hs : Inv s) (hown : s.issued record.lockId = some p)
    (hfile : ∀ r, s.file = some r → r.lockId = record.lockId) : Inv (s.beat p record) where
  held := by
    intro q r h
    by_cases hq : q = p
    · subst hq
      obtain ⟨-, -, rfl⟩ : ∃ r', s.holders q = some r' ∧ record = r := by
        simpa [State.beat] using h
      exact ⟨rfl, hown⟩
    · have h' : s.holders q = some r := by simpa [State.beat, hq] using h
      obtain ⟨hr, hissued⟩ := hs.held q r h'
      rw [hfile r hr, hown] at hissued
      exact absurd (Option.some.inj hissued).symm hq
  calls := hs.calls

/-! ### One step -/

theorem Inv.dropLeft_holders (hs : Inv s) {o : AcquireOptions} {queueWait now utcNow : ℤ}
    {lock : Option LockRecord}
    (hu : (Call.acquireOverwrite o queueWait now lock utcNow).uncontested s p = true) (q : ℕ) :
    (s.dropLeft o.staleSeconds utcNow).holders q = none := by
  cases h : s.holders q with
  | none => simp [State.dropLeft, h]
  | some r =>
    have hleft : r.isLeft o.staleSeconds utcNow = true := by
      rw [Call.uncontested, (hs.held q r h).1, Option.all_some, Bool.and_eq_true] at hu
      exact hu.2
    simp [State.dropLeft, h, hleft]

theorem Inv.dropLeft (hs : Inv s) (staleSeconds utcNow : ℤ) :
    Inv (s.dropLeft staleSeconds utcNow) where
  held := by
    intro q r h
    obtain ⟨h', -⟩ := Option.filter_eq_some_iff.mp h
    exact hs.held q r h'
  calls := hs.calls

theorem issued_of_uncontested_remove {lockId : String} {lock : LockRecord}
    (hok : CallOk s.issued p (.releaseRemove lockId lock))
    (hu : (Call.releaseRemove lockId lock).uncontested s p = true) (hfile : s.file = some r) :
    s.issued r.lockId = some p := by
  simp only [Call.uncontested, hfile, Option.all_some, Bool.and_eq_true, Bool.or_eq_true,
    decide_eq_true_eq] at hu
  obtain ⟨hid, hne | hown⟩ := hu
  · rw [hid]
    exact hok hne
  · exact hown

/-- **One file operation without a contest keeps the invariant.** -/
theorem Inv.stepCall (hs : Inv s) (hfresh : s.issued x.guid = none) (hok : CallOk s.issued p call)
    (hu : x.fails = false → call.uncontested s p = true) :
    Inv (stepCall s c p x call) := by
  cases call with
  | acquireRead o attempt queueWait =>
    simp only [SessionLock.stepCall]
    split
    · exact hs.moveOn trivial
    · exact hs.moveOn (CallOk.decideAcquire ..)
  | acquireCreate o attempt queueWait now =>
    simp only [SessionLock.stepCall]
    split
    · exact hs.moveOn trivial
    · next hcond =>
      have hfile : s.file = none := by
        cases hf : s.file with
        | none => rfl
        | some r => simp [hf] at hcond
      exact (hs.grant hfresh (hs.no_holder hfile)).moveOn trivial
  | acquireReread o attempt queueWait now =>
    exact hs.moveOn (CallOk.decideAcquire ..)
  | acquireOverwrite o queueWait now lock utcNow =>
    simp only [SessionLock.stepCall]
    split
    · exact hs.moveOn trivial
    · next hfails =>
      have hu := hu (Bool.eq_false_iff.mpr hfails)
      have hdrop := hs.dropLeft o.staleSeconds utcNow
      have hfresh' : (s.dropLeft o.staleSeconds utcNow).issued
          (newLockRecord x.guid now queueWait true).lockId = none := hfresh
      exact (hdrop.grant hfresh' (hs.dropLeft_holders hu)).moveOn trivial
  | releaseRead lockId =>
    simp only [SessionLock.stepCall]
    split
    · exact (hs.drop p).moveOn trivial
    · split
      · exact hs.moveOn trivial
      · next lock _ hcond =>
        refine hs.moveOn fun hne => ?_
        have hid : lock.lockId = lockId := by
          by_contra h
          exact hcond ⟨hne, h⟩
        rw [hid]
        exact hok hne
  | releaseRemove lockId lock =>
    refine Inv.moveOn ?_ trivial
    cases hfails : x.fails with
    | true => exact hs.drop p
    | false =>
      refine ⟨fun q r h => ?_, hs.calls⟩
      -- the record that is removed is of the process, which drops its lock
      by_cases hq : q = p
      · simp [State.drop, hq] at h
      · have h' : s.holders q = some r := by simpa [State.drop, hq] using h
        obtain ⟨hfile, hissued⟩ := hs.held q r h'
        rw [issued_of_uncontested_remove hok (hu hfails) hfile] at hissued
        exact absurd (Option.some.inj hissued).symm hq
  | heartbeatRead lockId =>
    simp only [SessionLock.stepCall]
    split
    · exact hs.moveOn trivial
    · split
      · exact hs.moveOn trivial
      · next hcond =>
        refine hs.moveOn ?_
        rw [not_not.mp hcond |>.symm] at hok
        exact hok
  | heartbeatWrite lock utcNow =>
    simp only [SessionLock.stepCall]
    split
    · exact hs.moveOn trivial
    · next hfails =>
      have hu := hu (Bool.eq_false_iff.mpr hfails)
      have hown : s.issued (lock.beat utcNow).lockId = some p := hok
      refine (hs.beat hown fun r hfile => ?_).moveOn trivial
      simpa [Call.uncontested, hfile] using hu
  | ended status => exact hs.moveOn trivial

/-- **One step without a contest keeps the invariant.** -/
theorem Inv.of_step (hs : Inv s) (hG : Uncontested s e) (hstep : step s e = some t) :
    Inv t := by
  cases e with
  | start c p op =>
    simp only [SessionLock.step] at hstep
    split_ifs at hstep with hcond
    rw [← Option.some.inj hstep]
    refine hs.moveOn ?_
    cases op with
    | acquire o => trivial
    | release lockId => exact fun hne => hcond.2.resolve_left hne
    | heartbeat lockId =>
      simp only [Operation.begin]
      split
      · trivial
      · next hne => exact hcond.2.resolve_left hne
  | next c x =>
    simp only [SessionLock.step] at hstep
    split_ifs at hstep with hfresh
    obtain ⟨i, hi, rfl⟩ := Option.map_eq_some_iff.mp hstep
    refine hs.stepCall hfresh (hs.calls c i hi) fun hfails => ?_
    simpa [hi] using hG hfails
  | abort c =>
    obtain ⟨i, hi, rfl⟩ := Option.map_eq_some_iff.mp hstep
    exact hs.moveOn trivial

/-- The file after a file operation of a Release or Heartbeat, if it is not as before: the
operation is a removal or a heartbeat and has not failed. -/
theorem stepCall_file (hkind : call.isReleaseOrHeartbeat = true) :
    (stepCall s c p x call).file = s.file ∨ x.fails = false ∧
      ((∃ lockId lock, call = .releaseRemove lockId lock) ∨
        ∃ lock utcNow, call = .heartbeatWrite lock utcNow) := by
  cases call with
  | acquireRead | acquireCreate | acquireReread | acquireOverwrite | ended => cases hkind
  | releaseRead lockId =>
    left
    simp only [stepCall]
    split
    · rfl
    · split <;> rfl
  | heartbeatRead lockId =>
    left
    simp only [stepCall]
    split
    · rfl
    · split <;> rfl
  | releaseRemove lockId lock =>
    cases hfails : x.fails with
    | true => exact .inl (by simp [stepCall, hfails, State.drop, State.moveOn])
    | false => exact .inr ⟨rfl, .inl ⟨lockId, lock, rfl⟩⟩
  | heartbeatWrite lock utcNow =>
    cases hfails : x.fails with
    | true => exact .inl (by simp [stepCall, hfails, State.moveOn])
    | false => exact .inr ⟨rfl, .inr ⟨lock, utcNow, rfl⟩⟩

/-- **One step of a Release or Heartbeat without a contest.** A record of another process
is none that its removal or heartbeat meets. -/
theorem Inv.harmless (hs : Inv s) (hG : Uncontested s e) (hstep : step s e = some t) :
    Harmless s e t := by
  intro i hi hkind r q hfile hissued hne
  cases e with
  | start c p op =>
    simp only [SessionLock.step] at hstep
    split_ifs at hstep with hcond
    rw [Event.index, hcond.1] at hi
    cases hi
  | abort c =>
    obtain ⟨j, -, rfl⟩ := Option.map_eq_some_iff.mp hstep
    exact hfile
  | next c x =>
    simp only [SessionLock.step] at hstep
    split_ifs at hstep with hfresh
    rw [Event.index] at hi
    rw [hi, Option.map_some, Option.some.injEq] at hstep
    subst hstep
    have hok := hs.calls c i hi
    have hu : x.fails = false → i.call.uncontested s i.process = true := fun hfails => by
      simpa [hi] using hG hfails
    obtain hsame | ⟨hfails, ⟨lockId, lock, hcall⟩ | ⟨lock, utcNow, hcall⟩⟩ :=
      stepCall_file (s := s) (c := c) (p := i.process) (x := x) hkind
    · rw [hsame, hfile]
    · -- a removal meets a record of its own process
      rw [hcall] at hok hu
      rw [issued_of_uncontested_remove hok (hu hfails) hfile] at hissued
      exact absurd (Option.some.inj hissued).symm hne
    · -- and so does a heartbeat
      rw [hcall] at hok hu
      have hid : r.lockId = lock.lockId := by
        simpa [Call.uncontested, hfile] using hu hfails
      have hown : s.issued lock.lockId = some i.process := hok
      rw [hid, hown] at hissued
      exact absurd (Option.some.inj hissued).symm hne

/-! ### Runs -/

theorem Inv.of_run {es : List Event} (hs : Inv s) (hG : Guarded step Uncontested s es)
    (hrun : run step s es = some t) : Inv t :=
  run_invariant (fun _ _ _ hs hG hstep => hs.of_step hG hstep) hs hG hrun

/-- **The session lock excludes.** In every run in which no file operation is contested,
whatever file it starts from, at most one process holds the lock at any time, and no
Release or Heartbeat touches the record of another process. -/
theorem lockLaw_of_uncontested (left : Option (ℕ × LockRecord)) (es : List Event)
    (hG : Guarded step Uncontested (State.initial left) es) : LockLaw left es := by
  constructor
  · rintro pre post s rfl hpre
    exact ((Inv.initial left).of_run (guarded_append.mp hG).1 hpre).exclusive
  · intro pre e post s t hsplit hpre hstep
    have hs : Inv s := (Inv.initial left).of_run (guarded_append.mp (hsplit ▸ hG)).1 hpre
    exact hs.harmless (guarded_iff_split.mp hG pre e post s hsplit hpre) hstep

/-! ### Two takeovers -/

def abandonedLock : LockRecord := newLockRecord "gone" 0 0 false

def forcedAcquire : AcquireOptions where
  queueWaitSeconds := 15
  queueMaxAttempts := 40
  staleSeconds := 180
  forceTakeover := true

def later (guid : String) : Surroundings := ⟨6000000000, 6000000000, guid, false⟩

def twoTakeovers : List Event :=
  [.start 0 1 (.acquire forcedAcquire), .start 1 2 (.acquire forcedAcquire),
    .next 0 (later "a"), .next 1 (later "b"), .next 0 (later "a"), .next 1 (later "b")]

/-- Both takeovers succeed, and both processes hold the lock. -/
theorem not_lockLaw_twoTakeovers : ¬ LockLaw (some (0, abandonedLock)) twoTakeovers := by
  intro h
  have hholders : (run step (State.initial (some (0, abandonedLock))) twoTakeovers).any
      (fun t => (t.holders 1).isSome && (t.holders 2).isSome) = true := by
    decide +kernel
  obtain ⟨t, ht, hboth⟩ := (Option.any_eq_true ..).mp hholders
  simp only [Bool.and_eq_true] at hboth
  obtain ⟨r, hr⟩ := Option.isSome_iff_exists.mp hboth.1
  obtain ⟨r', hr'⟩ := Option.isSome_iff_exists.mp hboth.2
  exact absurd (h.1 twoTakeovers [] t (List.append_nil _).symm ht 1 2 r r' hr hr') (by decide)

/-- One process takes over and renews, and another finds the lock taken; then the first
releases it. -/
def takeoverAndRelease : List Event :=
  [.start 0 1 (.acquire forcedAcquire), .next 0 (later "a"), .next 0 (later "a"),
    .start 1 1 (.heartbeat "a"), .next 1 (later "b"), .next 1 (later "b"),
    .start 2 2 (.acquire forcedAcquire), .next 2 (later "b"),
    .start 3 1 (.release "a"), .next 3 (later "b"), .next 3 (later "b")]

theorem lockLaw_takeoverAndRelease : LockLaw (some (0, abandonedLock)) takeoverAndRelease :=
  lockLaw_of_uncontested (some (0, abandonedLock)) takeoverAndRelease (by decide +kernel)

end CompareVI.SessionLock
