import CompareVI.Framework.Run
import Mathlib.Data.Rat.Defs
import Mathlib.Algebra.Order.Field.Rat
import Mathlib.Logic.Function.Basic

/-!
# The writer lease

The writer lease of a scope is one file. `acquireWriterLease` creates it
exclusively, or reads it and then renews, takes over or gives up;
`releaseWriterLease` and `heartbeatWriterLease` read it and then remove or replace
it. Only the creation is exclusive: between the read of a call and its replacing or
removing step other calls may run. A replacement whose rename fails removes the
target and tries again (`replaceFileWithRetry`), which leaves the scope without a
file in between.

The model interleaves any number of calls of any owners, one file operation a
step. A step reads the clock once, and the readings are arbitrary.

Two components of the state are not in the program. `holders` records, for each
owner, the lease that its last successful acquire call returned, with the
heartbeats since, until the owner releases it or a call finds it stale. `changes`
records who changed the file and how.

`writerLease_exclusive` says when the lease does its work: as long as no call
replaces or removes the file after another owner has changed it since the call's
read, none acts on a lease of another owner by its id, and none creates the file
while a retry has it removed, at most one owner holds the lease and no release or
heartbeat touches the lease of another. The invariant (`Inv`) behind it: a holder's
lease is in the file, or was just removed by a retry of the holder; and a pending
replacement or removal that no other owner has interfered with is the only holder's.
-/

open Framework

namespace CompareVI.Lease

/-! ### Lease records -/

/-- A time stamp: an instant in milliseconds, or a text that is no date. -/
inductive Stamp where
  | instant (ms : ℤ)
  | invalid
  deriving DecidableEq, Repr

/-- The `takeover` property of a record. -/
structure Takeover where
  fromOwner : String
  reason : String
  deriving DecidableEq, Repr

structure WriterLease where
  scope : String
  leaseId : String
  owner : String
  acquiredAt : Option Stamp
  heartbeatAt : Option Stamp
  takeover : Option Takeover
  deriving DecidableEq, Repr

def createLeaseRecord (scope owner leaseId : String) (now : ℤ) (takeover : Option Takeover) :
    WriterLease where
  scope := scope
  leaseId := leaseId
  owner := owner
  acquiredAt := some (.instant now)
  heartbeatAt := some (.instant now)
  takeover := takeover

/-- `leaseAgeSeconds`, `none` for infinity. -/
def leaseAgeSeconds (lease : WriterLease) (nowMs : ℤ) : Option ℚ :=
  match lease.heartbeatAt.or lease.acquiredAt with
  | some (.instant parsed) => some (max 0 ((nowMs - parsed : ℚ) / 1000))
  | some .invalid | none => none

/-- `leaseAgeSeconds(lease) > staleSeconds`. -/
def isStale (staleSeconds : ℚ) (nowMs : ℤ) (lease : WriterLease) : Bool :=
  match leaseAgeSeconds lease nowMs with
  | none => true
  | some age => age > staleSeconds

def WriterLease.beat (current : WriterLease) (now : ℤ) : WriterLease :=
  { current with heartbeatAt := some (.instant now) }

/-! ### Decisions -/

/-- The options of `acquireWriterLease`; an empty `leaseId` is an absent one. -/
structure AcquireOptions where
  scope : String
  owner : String
  leaseId : String
  staleSeconds : ℚ
  maxAttempts : ℤ
  forceTakeover : Bool
  deriving DecidableEq

/-- The options of `releaseWriterLease` and `heartbeatWriterLease`. -/
structure ReleaseOptions where
  owner : String
  leaseId : String
  deriving DecidableEq

/-- What `acquireWriterLease` does once it has read the file. -/
inductive AcquireDecision where
  | busy
  | retry
  | stale
  | renew (next : WriterLease)
  | takeover (next : WriterLease)
  deriving DecidableEq

/-- The body of the loop of `acquireWriterLease` after the read. -/
def decideAcquire (o : AcquireOptions) (attempt : ℕ) (leaseId : String) (now : ℤ) :
    Option WriterLease → AcquireDecision
  | none => if (attempt : ℤ) ≥ o.maxAttempts then .busy else .retry
  | some current =>
    if current.owner = o.owner then .renew (current.beat now)
    else if isStale o.staleSeconds now current then
      if o.forceTakeover then
        .takeover (createLeaseRecord o.scope o.owner leaseId now
          (some ⟨current.owner, "stale>" ++ toString o.staleSeconds ++ "s"⟩))
      else .stale
    else if (attempt : ℤ) ≥ o.maxAttempts then .busy
    else .retry

/-- `ownerMatches || leaseIdMatches`. -/
def leaseMatches (o : ReleaseOptions) (current : WriterLease) : Bool :=
  current.owner = o.owner || (o.leaseId ≠ "" && current.leaseId = o.leaseId)

/-! ### Calls and their steps -/

def DEFAULT_RENAME_RETRY_ATTEMPTS : ℕ := 5

inductive Purpose where
  | renew
  | takeover
  | heartbeat
  deriving DecidableEq, Repr

/-- A replacement of the file that is under way: the record read, the record to
write, and how many changes the file had seen at the read. -/
structure Replacement where
  owner : String
  purpose : Purpose
  current : WriterLease
  next : WriterLease
  seen : ℕ
  deriving DecidableEq

inductive Call where
  | acquireCreate (o : AcquireOptions) (attempt : ℕ)
  | acquireRead (o : AcquireOptions) (attempt : ℕ) (leaseId : String)
  | releaseRead (o : ReleaseOptions)
  | releaseRemove (o : ReleaseOptions) (current : WriterLease) (seen : ℕ)
  | heartbeatRead (o : ReleaseOptions)
  | rename (w : Replacement) (attempt : ℕ)
  | retryRemove (w : Replacement) (attempt : ℕ)
  deriving DecidableEq

def Call.owner : Call → String
  | acquireCreate o _ => o.owner
  | acquireRead o _ _ => o.owner
  | releaseRead o => o.owner
  | releaseRemove o _ _ => o.owner
  | heartbeatRead o => o.owner
  | rename w _ => w.owner
  | retryRemove w _ => w.owner

def Call.isReleaseOrHeartbeat : Call → Bool
  | acquireCreate _ _ => false
  | acquireRead _ _ _ => false
  | releaseRead _ => true
  | releaseRemove _ _ _ => true
  | heartbeatRead _ => true
  | rename w _ => w.purpose = .heartbeat
  | retryRemove w _ => w.purpose = .heartbeat

inductive ChangeKind where
  | write
  | release
  | retryRemoval
  deriving DecidableEq, Repr

/-- A change of the file and the owner whose call made it. -/
structure Change where
  owner : String
  kind : ChangeKind
  deriving DecidableEq, Repr

/-- The file, the calls under way, and the two records of the past. -/
structure State where
  file : Option WriterLease
  calls : ℕ → Option Call
  holders : String → Option WriterLease
  changes : List Change

namespace State

def initial (file : Option WriterLease) : State := ⟨file, fun _ => none, fun _ => none, []⟩

def setCall (s : State) (c : ℕ) (call : Call) : State :=
  { s with calls := Function.update s.calls c (some call) }

def endCall (s : State) (c : ℕ) : State := { s with calls := Function.update s.calls c none }

def write (s : State) (owner : String) (lease : WriterLease) : State :=
  { s with file := some lease, changes := s.changes ++ [⟨owner, .write⟩] }

def remove (s : State) (owner : String) (kind : ChangeKind) : State :=
  { s with file := none, changes := s.changes ++ [⟨owner, kind⟩] }

def hold (s : State) (owner : String) (lease : WriterLease) : State :=
  { s with holders := Function.update s.holders owner (some lease) }

def beat (s : State) (owner : String) (lease : WriterLease) : State :=
  { s with holders := Function.update s.holders owner ((s.holders owner).map fun _ => lease) }

def drop (s : State) (owner : String) : State :=
  { s with holders := Function.update s.holders owner none }

def dropStale (s : State) (staleSeconds : ℚ) (now : ℤ) : State :=
  { s with holders := fun o => (s.holders o).filter fun l => !isStale staleSeconds now l }

end State

inductive Operation where
  | acquire (o : AcquireOptions)
  | release (o : ReleaseOptions)
  | heartbeat (o : ReleaseOptions)
  deriving DecidableEq

def Operation.begin : Operation → Call
  | acquire o => .acquireCreate o 0
  | release o => .releaseRead o
  | heartbeat o => .heartbeatRead o

/-- How a rename ends: well, or with an error that is retried. -/
inductive RenameOutcome where
  | ok
  | retryable
  deriving DecidableEq, Repr

/-- One step of the system: a call starts, does its next file operation, or throws.
The clock reading and the generated lease id are whatever they are. -/
inductive Event where
  | start (c : ℕ) (op : Operation)
  | create (c : ℕ) (now : ℤ) (generatedId : String)
  | read (c : ℕ) (now : ℤ)
  | rename (c : ℕ) (outcome : RenameOutcome)
  | remove (c : ℕ)
  | abort (c : ℕ)
  deriving DecidableEq

def Event.call : Event → ℕ
  | start c _ => c
  | create c _ _ => c
  | read c _ => c
  | rename c _ => c
  | remove c => c
  | abort c => c

def stepCreate (s : State) (c : ℕ) (o : AcquireOptions) (attempt : ℕ) (now : ℤ)
    (generatedId : String) : State :=
  let leaseId := if o.leaseId = "" then generatedId else o.leaseId
  match s.file with
  | none =>
    let freshLease := createLeaseRecord o.scope o.owner leaseId now none
    ((s.write o.owner freshLease).hold o.owner freshLease).endCall c
  | some _ => s.setCall c (.acquireRead o attempt leaseId)

def stepAcquireRead (s : State) (c : ℕ) (o : AcquireOptions) (attempt : ℕ) (leaseId : String)
    (now : ℤ) : State :=
  match s.file with
  | none =>
    match decideAcquire o attempt leaseId now none with
    | .retry => s.setCall c (.acquireCreate o (attempt + 1))
    | _ => s.endCall c
  | some current =>
    let s := s.dropStale o.staleSeconds now
    match decideAcquire o attempt leaseId now (some current) with
    | .busy => s.endCall c
    | .stale => s.endCall c
    | .retry => s.setCall c (.acquireCreate o (attempt + 1))
    | .renew next =>
      s.setCall c (.rename ⟨o.owner, .renew, current, next, s.changes.length⟩ 0)
    | .takeover next =>
      s.setCall c (.rename ⟨o.owner, .takeover, current, next, s.changes.length⟩ 0)

def stepReleaseRead (s : State) (c : ℕ) (o : ReleaseOptions) : State :=
  match s.file with
  | none => s.endCall c
  | some current =>
    if leaseMatches o current then s.setCall c (.releaseRemove o current s.changes.length)
    else s.endCall c

def stepHeartbeatRead (s : State) (c : ℕ) (o : ReleaseOptions) (now : ℤ) : State :=
  match s.file with
  | none => s.endCall c
  | some current =>
    if leaseMatches o current then
      s.setCall c (.rename ⟨o.owner, .heartbeat, current, current.beat now, s.changes.length⟩ 0)
    else s.endCall c

/-- The rename of `replaceFileWithRetry`. A retryable error leads to the removal of
the target, unless the attempts are used up. -/
def stepRename (s : State) (c : ℕ) (w : Replacement) (attempt : ℕ) : RenameOutcome → State
  | .ok =>
    let s := s.write w.owner w.next
    (match w.purpose with
      | .renew => s.hold w.owner w.next
      | .takeover => s.hold w.owner w.next
      | .heartbeat => s.beat w.next.owner w.next).endCall c
  | .retryable =>
    if attempt ≥ DEFAULT_RENAME_RETRY_ATTEMPTS then s.endCall c
    else s.setCall c (.retryRemove w attempt)

def step (s : State) (e : Event) : Option State :=
  match e, s.calls e.call with
  | .start c op, none => some (s.setCall c op.begin)
  | .create c now generatedId, some (.acquireCreate o attempt) =>
    some (stepCreate s c o attempt now generatedId)
  | .read c now, some (.acquireRead o attempt leaseId) =>
    some (stepAcquireRead s c o attempt leaseId now)
  | .read c _, some (.releaseRead o) => some (stepReleaseRead s c o)
  | .read c now, some (.heartbeatRead o) => some (stepHeartbeatRead s c o now)
  | .rename c outcome, some (.rename w attempt) => some (stepRename s c w attempt outcome)
  | .remove c, some (.retryRemove w attempt) =>
    some ((s.remove w.owner .retryRemoval).setCall c (.rename w (attempt + 1)))
  | .remove c, some (.releaseRemove o _ _) =>
    some (((s.remove o.owner .release).drop o.owner).endCall c)
  | .abort c, some _ => some (s.endCall c)
  | _, _ => none

/-! ### What the lease promises, and when -/

/-- At most one owner holds the lease. -/
def Exclusive (s : State) : Prop :=
  ∀ o o' l l', s.holders o = some l → s.holders o' = some l' → o = o'

/-- A step of a release or heartbeat leaves the lease of another owner where it
is. -/
def Harmless (s : State) (e : Event) (t : State) : Prop :=
  ∀ call, s.calls e.call = some call → call.isReleaseOrHeartbeat = true →
    ∀ o l, o ≠ call.owner → s.holders o = some l → s.file = some l → t.file = some l

def Replacement.rightful (w : Replacement) : Bool :=
  w.purpose = .takeover || w.current.owner = w.owner

/-- For a call about to replace or remove the file: how many changes the file had
seen at its read, and whether it acts on a lease of its own owner or takes over. -/
def Call.pending? : Call → Option (ℕ × Bool)
  | rename w _ => some (w.seen, w.rightful)
  | retryRemove w _ => some (w.seen, w.rightful)
  | releaseRemove o current seen => some (seen, current.owner = o.owner)
  | acquireCreate _ _ | acquireRead _ _ _ | releaseRead _ | heartbeatRead _ => none

/-- The call acts rightfully, and no other owner has changed the file since its
read. -/
def Undisturbed (s : State) (call : Call) : Prop :=
  ∀ seen rightful, call.pending? = some (seen, rightful) →
    rightful = true ∧ ∀ ch ∈ s.changes.drop seen, ch.owner = call.owner

instance (s : State) (call : Call) : Decidable (Undisturbed s call) :=
  decidable_of_iff
    (∀ p, call.pending? = some p →
      p.2 = true ∧ ∀ ch ∈ s.changes.drop p.1, ch.owner = call.owner)
    ⟨fun h seen rightful hp => h (seen, rightful) hp, fun h p hp => h p.1 p.2 hp⟩

/-- The condition on a step. A call that replaces or removes the file is
undisturbed, and a call that creates the file does not find it missing because a
retry of the present holder has removed it. -/
def NoInterference (s : State) : Event → Prop
  | .create c _ _ => ∀ call, s.calls c = some call → ∀ ch, s.changes.getLast? = some ch →
      ch.kind = .retryRemoval → (s.holders ch.owner).isSome → ch.owner = call.owner
  | .rename c .ok => ∀ call, s.calls c = some call → Undisturbed s call
  | .remove c => ∀ call, s.calls c = some call → Undisturbed s call
  | .start _ _ | .read _ _ | .rename _ .retryable | .abort _ => True

instance (s : State) (e : Event) : Decidable (NoInterference s e) := by
  cases e with
  | rename c outcome => cases outcome <;> unfold NoInterference <;> infer_instance
  | start | create | read | remove | abort => unfold NoInterference; infer_instance

/-! ### The invariant -/

/-- What holds of a call under way. -/
structure CallOk (s : State) (call : Call) : Prop where
  /-- The file had not seen more changes at the read. -/
  seen : ∀ seen rightful, call.pending? = some (seen, rightful) → seen ≤ s.changes.length
  /-- While no other owner interferes, no other owner holds the lease. -/
  sole : call.pending?.isSome → Undisturbed s call →
    ∀ o l, s.holders o = some l → o = call.owner
  /-- What is written in the owner's name is a record of the owner. -/
  record : ∀ w n, call = .rename w n ∨ call = .retryRemove w n → w.rightful = true →
    w.next.owner = w.owner

/-- The invariant of the runs without interference. -/
structure Inv (s : State) : Prop where
  /-- A holder's lease is in the file, or a retry of the holder has just removed
  it. -/
  held : ∀ o l, s.holders o = some l → l.owner = o ∧
    (s.file = some l ∨ (s.file = none ∧ s.changes.getLast? = some ⟨o, .retryRemoval⟩))
  calls : ∀ c call, s.calls c = some call → CallOk s call

variable {s t : State} {c : ℕ}

theorem Inv.initial (file : Option WriterLease) : Inv (State.initial file) where
  held := fun _ _ h => nomatch h
  calls := fun _ _ h => nomatch h

/-- At most one owner holds the lease: the file holds one record, and the last
change has one owner. -/
theorem Inv.exclusive (hs : Inv s) : Exclusive s := by
  intro o o' l l' h h'
  obtain ⟨rfl, hfile⟩ := hs.held o l h
  obtain ⟨rfl, hfile'⟩ := hs.held o' l' h'
  rcases hfile with hf | ⟨hf, hlast⟩
  · rcases hfile' with hf' | ⟨hf', -⟩
    · rw [hf, Option.some.injEq] at hf'
      rw [hf']
    · rw [hf] at hf'
      cases hf'
  · rcases hfile' with hf' | ⟨-, hlast'⟩
    · rw [hf] at hf'
      cases hf'
    · rw [hlast] at hlast'
      simpa using hlast'

variable {o : AcquireOptions} {call : Call} {current next : WriterLease} {attempt : ℕ} {now : ℤ}

variable {e : Event} {w : Replacement} {leaseId : String} {l : WriterLease} {n : ℕ}

theorem Inv.eq_of_file (hs : Inv s) {o : String} (hfile : s.file = some current)
    (h : s.holders o = some l) :
    l = current ∧ current.owner = o := by
  obtain ⟨rfl, hf | ⟨hf, -⟩⟩ := hs.held o l h
  · rw [hfile, Option.some.injEq] at hf
    exact ⟨hf.symm, by rw [hf]⟩
  · rw [hfile] at hf
    cases hf

theorem CallOk.of_not_pending (h : call.pending? = none) : CallOk s call where
  seen := by simp [h]
  sole := by simp [h]
  record := by
    rintro w n (rfl | rfl) <;> cases h

theorem Inv.setCall (hs : Inv s) (hcall : CallOk s call) :
    Inv (s.setCall c call) where
  held := hs.held
  calls := by
    intro c' call' h
    by_cases hc : c' = c
    · subst hc
      obtain rfl : call = call' := by simpa [State.setCall] using h
      exact ⟨hcall.seen, hcall.sole, hcall.record⟩
    · have h' : s.calls c' = some call' := by simpa [State.setCall, hc] using h
      obtain ⟨h₁, h₂, h₃⟩ := hs.calls c' call' h'
      exact ⟨h₁, h₂, h₃⟩

theorem Inv.endCall (hs : Inv s) : Inv (s.endCall c) where
  held := hs.held
  calls := by
    intro c' call' h
    by_cases hc : c' = c
    · simp [State.endCall, hc] at h
    · have h' : s.calls c' = some call' := by simpa [State.endCall, hc] using h
      obtain ⟨h₁, h₂, h₃⟩ := hs.calls c' call' h'
      exact ⟨h₁, h₂, h₃⟩

theorem dropStale_holders {k : ℚ} {o : String} (h : (s.dropStale k now).holders o = some l) :
    s.holders o = some l ∧ isStale k now l = false := by
  simpa [State.dropStale, Option.filter_eq_some_iff] using h

theorem Inv.dropStale (hs : Inv s) (k : ℚ) (now : ℤ) : Inv (s.dropStale k now) where
  held := fun o l h => hs.held o l (dropStale_holders h).1
  calls := by
    intro c call h
    obtain ⟨h₁, h₂, h₃⟩ := hs.calls c call h
    exact ⟨h₁, fun hp hu o l hl => h₂ hp hu o l (dropStale_holders hl).1, h₃⟩

/-- **A change of the file.** It keeps the invariant if no other owner holds the
lease and the lease of its own owner, if any, is what is written or is removed by a
retry. -/
theorem Inv.change (hs : Inv s) (owner : String) (kind : ChangeKind)
    (hchanges : t.changes = s.changes ++ [⟨owner, kind⟩]) (hcalls : t.calls = s.calls)
    (hothers : ∀ o l, t.holders o = some l → o = owner)
    (hown : ∀ l, t.holders owner = some l → l.owner = owner ∧
      (t.file = some l ∨ (t.file = none ∧ kind = .retryRemoval))) : Inv t where
  held := by
    intro o l h
    obtain rfl := hothers o l h
    obtain ⟨howner, hfile⟩ := hown l h
    refine ⟨howner, hfile.imp_right ?_⟩
    rintro ⟨hnone, rfl⟩
    exact ⟨hnone, by rw [hchanges, List.getLast?_concat]⟩
  calls := by
    intro c call h
    rw [hcalls] at h
    obtain ⟨hseen, -, hrecord⟩ := hs.calls c call h
    refine ⟨?_, ?_, hrecord⟩
    · intro seen rightful hp
      have := hseen seen rightful hp
      rw [hchanges, List.length_append]
      omega
    · intro hp hu o l hl
      -- the new change is one of those since the read, so it is the call's own
      obtain ⟨⟨seen, rightful⟩, hp⟩ := Option.isSome_iff_exists.mp hp
      have hle := hseen seen rightful hp
      have hnew : (⟨owner, kind⟩ : Change) ∈ t.changes.drop seen := by
        rw [hchanges, List.drop_append_of_le_length hle]
        exact List.mem_append_right _ List.mem_cons_self
      rw [hothers o l hl]
      exact (hu seen rightful hp).2 _ hnew

/-! ### One step -/

theorem decideAcquire_renew (h : decideAcquire o n leaseId now (some current) = .renew next) :
    current.owner = o.owner ∧ next = current.beat now := by
  simp only [decideAcquire] at h
  split_ifs at h with h₁
  exact ⟨h₁, (AcquireDecision.renew.inj h).symm⟩

theorem decideAcquire_takeover (h : decideAcquire o n leaseId now (some current) = .takeover next) :
    isStale o.staleSeconds now current = true ∧ next.owner = o.owner := by
  simp only [decideAcquire] at h
  split_ifs at h with h₁ h₂
  exact ⟨h₂, by rw [← AcquireDecision.takeover.inj h]; rfl⟩

/-- A pending replacement or removal after the read, when the record read is the
only holder's. -/
theorem CallOk.of_read {rightful : Bool}
    (hpending : call.pending? = some (s.changes.length, rightful))
    (hsole : rightful = true → ∀ o l, s.holders o = some l → o = call.owner)
    (hrecord : ∀ w n, call = .rename w n ∨ call = .retryRemove w n → w.rightful = true →
      w.next.owner = w.owner) : CallOk s call where
  seen := by
    intro seen r h
    rw [hpending] at h
    obtain ⟨rfl, -⟩ := Prod.mk.inj (Option.some.inj h)
    exact le_refl _
  sole := fun _ hu => hsole (hu _ _ hpending).1
  record := hrecord

theorem Inv.stepCreate (hs : Inv s) {generatedId : String}
    (hguard : ∀ owner l, s.holders owner = some l →
      s.changes.getLast? = some ⟨owner, .retryRemoval⟩ → owner = o.owner) :
    Inv (stepCreate s c o attempt now generatedId) := by
  unfold Lease.stepCreate
  dsimp only
  split
  · next hnone =>
    refine Inv.endCall (hs.change o.owner .write rfl rfl ?_ ?_)
    · intro owner l h
      by_contra hne
      have h' : s.holders owner = some l := by
        simpa [State.hold, State.write, Function.update_of_ne hne] using h
      obtain ⟨-, hf | ⟨-, hlast⟩⟩ := hs.held owner l h'
      · rw [hnone] at hf
        cases hf
      · exact hne (hguard owner l h' hlast)
    · intro l h
      obtain rfl : createLeaseRecord o.scope o.owner
          (if o.leaseId = "" then generatedId else o.leaseId) now none = l := by
        simpa [State.hold] using h
      exact ⟨rfl, .inl rfl⟩
  · exact hs.setCall (CallOk.of_not_pending rfl)

theorem Inv.stepAcquireRead (hs : Inv s) (o : AcquireOptions) (attempt : ℕ) (leaseId : String)
    (now : ℤ) : Inv (stepAcquireRead s c o attempt leaseId now) := by
  unfold Lease.stepAcquireRead
  split
  · split
    · exact hs.setCall (CallOk.of_not_pending rfl)
    · exact hs.endCall
  · next current hfile =>
    have hs' := hs.dropStale o.staleSeconds now
    have hfile' : (s.dropStale o.staleSeconds now).file = some current := hfile
    split
    · exact hs'.endCall
    · exact hs'.endCall
    · exact hs'.setCall (CallOk.of_not_pending rfl)
    · next next h =>
      obtain ⟨howner, rfl⟩ := decideAcquire_renew h
      refine hs'.setCall (CallOk.of_read rfl ?_ ?_)
      · intro _ owner l hl
        exact (hs'.eq_of_file hfile' hl).2.symm.trans howner
      · rintro w n (h | h) _
        · obtain ⟨rfl, -⟩ := Call.rename.inj h
          exact howner
        · cases h
    · next next h =>
      obtain ⟨hstale, hnext⟩ := decideAcquire_takeover h
      refine hs'.setCall (CallOk.of_read rfl ?_ ?_)
      · -- the lease read is stale at this reading, so nobody holds it any more
        intro _ owner l hl
        obtain ⟨rfl, -⟩ := hs'.eq_of_file hfile' hl
        rw [(dropStale_holders hl).2] at hstale
        cases hstale
      · rintro w n (h | h) _
        · obtain ⟨rfl, -⟩ := Call.rename.inj h
          exact hnext
        · cases h

theorem Inv.stepReleaseRead (hs : Inv s) (o : ReleaseOptions) : Inv (stepReleaseRead s c o) := by
  unfold Lease.stepReleaseRead
  split
  · exact hs.endCall
  · next current hfile =>
    split
    · refine hs.setCall (CallOk.of_read rfl ?_ ?_)
      · intro hown owner l hl
        exact (hs.eq_of_file hfile hl).2.symm.trans (of_decide_eq_true hown)
      · rintro w n (h | h) <;> cases h
    · exact hs.endCall

theorem Inv.stepHeartbeatRead (hs : Inv s) (o : ReleaseOptions) (now : ℤ) :
    Inv (stepHeartbeatRead s c o now) := by
  unfold Lease.stepHeartbeatRead
  split
  · exact hs.endCall
  · next current hfile =>
    split
    · refine hs.setCall (CallOk.of_read rfl ?_ ?_)
      · intro hown owner l hl
        have hown' : current.owner = o.owner := by simpa [Replacement.rightful] using hown
        exact (hs.eq_of_file hfile hl).2.symm.trans hown'
      · rintro w n (h | h) hown
        · obtain ⟨rfl, -⟩ := Call.rename.inj h
          have hown' : current.owner = o.owner := by simpa [Replacement.rightful] using hown
          exact hown'
        · cases h
    · exact hs.endCall

theorem Inv.write (hs : Inv s) {owner : String} (hnext : next.owner = owner)
    (hsole : ∀ o l, s.holders o = some l → o = owner) (hfile : t.file = some next)
    (hchanges : t.changes = s.changes ++ [⟨owner, .write⟩]) (hcalls : t.calls = s.calls)
    (hothers : ∀ o, o ≠ owner → t.holders o = s.holders o)
    (hown : ∀ l, t.holders owner = some l → l = next) : Inv t := by
  refine hs.change _ _ hchanges hcalls ?_ ?_
  · intro o l h
    by_contra hne
    rw [hothers o hne] at h
    exact hne (hsole o l h)
  · intro l h
    rw [hown l h]
    exact ⟨hnext, .inl hfile⟩

theorem Inv.stepRename (hs : Inv s) {outcome : RenameOutcome}
    (hcall : s.calls c = some (.rename w attempt))
    (hguard : outcome = .ok → Undisturbed s (.rename w attempt)) :
    Inv (stepRename s c w attempt outcome) := by
  have hok := hs.calls c _ hcall
  cases outcome with
  | retryable =>
    simp only [Lease.stepRename]
    split
    · exact hs.endCall
    · refine hs.setCall ⟨hok.seen, hok.sole, ?_⟩
      rintro w' n (h | h)
      · cases h
      · obtain ⟨rfl, -⟩ := Call.retryRemove.inj h
        exact hok.record w attempt (.inl rfl)
  | ok =>
    have hu := hguard rfl
    have hsole : ∀ o l, s.holders o = some l → o = w.owner := hok.sole rfl hu
    have hnext : w.next.owner = w.owner := hok.record w attempt (.inl rfl) (hu _ _ rfl).1
    refine Inv.endCall ?_
    cases w.purpose with
    | renew | takeover =>
      refine hs.write hnext hsole rfl rfl rfl (fun o hne => Function.update_of_ne hne _ _) ?_
      intro l h
      simpa [State.hold] using h.symm
    | heartbeat =>
      rw [hnext]
      refine hs.write hnext hsole rfl rfl rfl (fun o hne => Function.update_of_ne hne _ _) ?_
      intro l h
      simp only [State.beat, Function.update_self, Option.map_eq_some_iff] at h
      obtain ⟨-, -, rfl⟩ := h
      rfl

theorem Inv.stepRetryRemove (hs : Inv s) (hcall : s.calls c = some (.retryRemove w attempt))
    (hu : Undisturbed s (.retryRemove w attempt)) :
    Inv ((s.remove w.owner .retryRemoval).setCall c (.rename w (attempt + 1))) := by
  have hok := hs.calls c _ hcall
  have hsole : ∀ o l, s.holders o = some l → o = w.owner := hok.sole rfl hu
  have ht : Inv (s.remove w.owner .retryRemoval) :=
    hs.change _ _ rfl rfl hsole fun l h => ⟨(hs.held _ l h).1, .inr ⟨rfl, rfl⟩⟩
  refine ht.setCall ⟨?_, fun _ _ => hsole, ?_⟩
  · intro seen rightful hp
    have := hok.seen seen rightful hp
    simp only [State.remove, List.length_append]
    omega
  · rintro w' n (h | h)
    · obtain ⟨rfl, -⟩ := Call.rename.inj h
      exact hok.record w attempt (.inr rfl)
    · cases h

theorem Inv.stepReleaseRemove (hs : Inv s) {o : ReleaseOptions} {seen : ℕ}
    (hcall : s.calls c = some (.releaseRemove o current seen))
    (hu : Undisturbed s (.releaseRemove o current seen)) :
    Inv (((s.remove o.owner .release).drop o.owner).endCall c) := by
  have hsole : ∀ owner l, s.holders owner = some l → owner = o.owner :=
    (hs.calls c _ hcall).sole rfl hu
  refine Inv.endCall (hs.change o.owner .release rfl rfl ?_ ?_)
  · intro owner l h
    by_contra hne
    have h' : s.holders owner = some l := by
      simpa [State.drop, State.remove, Function.update_of_ne hne] using h
    exact hne (hsole owner l h')
  · intro l h
    simp [State.drop] at h

/-- **One step without interference keeps the invariant.** -/
theorem Inv.of_step (hs : Inv s) (hG : NoInterference s e) (hstep : step s e = some t) : Inv t := by
  unfold Lease.step at hstep
  split at hstep
  · next c op _ =>
    rw [← Option.some.inj hstep]
    exact hs.setCall (CallOk.of_not_pending (by cases op <;> rfl))
  · next c now generatedId o attempt hcall =>
    rw [← Option.some.inj hstep]
    refine hs.stepCreate fun owner l hl hlast => ?_
    exact hG _ hcall ⟨owner, .retryRemoval⟩ hlast rfl (by simp [hl])
  · next c now o attempt leaseId _ =>
    rw [← Option.some.inj hstep]
    exact hs.stepAcquireRead o attempt leaseId now
  · next c now o _ =>
    rw [← Option.some.inj hstep]
    exact hs.stepReleaseRead o
  · next c now o _ =>
    rw [← Option.some.inj hstep]
    exact hs.stepHeartbeatRead o now
  · next c outcome w attempt hcall =>
    rw [← Option.some.inj hstep]
    refine hs.stepRename hcall ?_
    rintro rfl
    exact hG _ hcall
  · next c w attempt hcall =>
    rw [← Option.some.inj hstep]
    exact hs.stepRetryRemove hcall (hG _ hcall)
  · next c o current seen hcall =>
    rw [← Option.some.inj hstep]
    exact hs.stepReleaseRemove hcall (hG _ hcall)
  · rw [← Option.some.inj hstep]
    exact hs.endCall
  · cases hstep

/-- **One step of a release or heartbeat without interference.** Only its replacing
and removing steps change the file, and at those no other owner holds the lease. -/
theorem Inv.harmless (hs : Inv s) (hG : NoInterference s e) (hstep : step s e = some t) :
    Harmless s e t := by
  intro call hcall hkind o l hne hl hfile
  have hchange : ∀ {call' : Call}, call' = call → call'.pending?.isSome →
      Undisturbed s call' → False := by
    rintro _ rfl hp hu
    exact hne ((hs.calls _ _ hcall).sole hp hu o l hl)
  unfold Lease.step at hstep
  split at hstep
  · next c op hnone =>
    rw [hcall] at hnone
    cases hnone
  · next c now generatedId o' attempt hcall' =>
    obtain rfl := Option.some.inj (hcall.symm.trans hcall')
    cases hkind
  · next c now o' attempt leaseId hcall' =>
    obtain rfl := Option.some.inj (hcall.symm.trans hcall')
    cases hkind
  · next c now o' hcall' =>
    rw [← Option.some.inj hstep, Lease.stepReleaseRead, hfile]
    dsimp only
    split <;> exact hfile
  · next c now o' hcall' =>
    rw [← Option.some.inj hstep, Lease.stepHeartbeatRead, hfile]
    dsimp only
    split <;> exact hfile
  · next c outcome w attempt hcall' =>
    cases outcome with
    | ok =>
      have hcall' := Option.some.inj (hcall'.symm.trans hcall)
      exact absurd (hG _ (hcall' ▸ hcall)) fun hu => hchange hcall' rfl hu
    | retryable =>
      rw [← Option.some.inj hstep, Lease.stepRename]
      split <;> exact hfile
  · next c w attempt hcall' =>
    have hcall' := Option.some.inj (hcall'.symm.trans hcall)
    exact absurd (hG _ (hcall' ▸ hcall)) fun hu => hchange hcall' rfl hu
  · next c o' current seen hcall' =>
    have hcall' := Option.some.inj (hcall'.symm.trans hcall)
    exact absurd (hG _ (hcall' ▸ hcall)) fun hu => hchange hcall' rfl hu
  · rw [← Option.some.inj hstep]
    exact hfile
  · cases hstep

/-! ### Runs -/

theorem Inv.of_run {es : List Event} (hs : Inv s) (hG : Guarded step NoInterference s es)
    (hrun : run step s es = some t) : Inv t :=
  run_invariant (fun _ _ _ hs hG hstep => hs.of_step hG hstep) hs hG hrun

/-- **The writer lease excludes.** In every run without interference, whatever file
it starts from, at most one owner holds the lease at the end, and no step of a
release or heartbeat has touched the lease of another owner. Every state of a run
is the end of one. -/
theorem writerLease_exclusive (file : Option WriterLease) (es : List Event) (t : State)
    (hG : Guarded step NoInterference (State.initial file) es)
    (hrun : run step (State.initial file) es = some t) :
    Exclusive t ∧ ∀ pre e post s u, es = pre ++ e :: post →
      run step (State.initial file) pre = some s → step s e = some u → Harmless s e u := by
  refine ⟨((Inv.initial file).of_run hG hrun).exclusive, ?_⟩
  intro pre e post s u hsplit hpre hstep
  have hs : Inv s := (Inv.initial file).of_run (guarded_append.mp (hsplit ▸ hG)).1 hpre
  exact hs.harmless (guarded_iff_split.mp hG pre e post s hsplit hpre) hstep

/-! ### Two takeovers -/

def abandonedLease : WriterLease := createLeaseRecord "workspace" "gone" "gone-1" 0 none

def forcedAcquire (owner : String) : AcquireOptions where
  scope := "workspace"
  owner := owner
  leaseId := ""
  staleSeconds := 60
  maxAttempts := 0
  forceTakeover := true

/-- Two agents find the lease of a third stale and take it over, one after the
other. -/
def twoTakeovers : List Event :=
  [.start 0 (.acquire (forcedAcquire "a")), .start 1 (.acquire (forcedAcquire "b")),
    .create 0 100000 "a-1", .create 1 100000 "b-1",
    .read 0 100000, .read 1 100000, .rename 0 .ok, .rename 1 .ok]

/-- Both takeovers succeed, and both owners hold the lease. -/
theorem not_exclusive_twoTakeovers :
    ∃ t, run step (State.initial (some abandonedLease)) twoTakeovers = some t ∧
      (t.holders "a").isSome ∧ (t.holders "b").isSome ∧ ¬ Exclusive t := by
  have hsome : (run step (State.initial (some abandonedLease)) twoTakeovers).isSome = true := by
    decide +kernel
  have hholders : (run step (State.initial (some abandonedLease)) twoTakeovers).all
      (fun t => (t.holders "a").isSome && (t.holders "b").isSome) = true := by
    decide +kernel
  obtain ⟨t, ht⟩ := Option.isSome_iff_exists.mp hsome
  rw [ht] at hholders
  simp only [Option.all_some, Bool.and_eq_true] at hholders
  refine ⟨t, ht, hholders.1, hholders.2, fun h => ?_⟩
  obtain ⟨l, hl⟩ := Option.isSome_iff_exists.mp hholders.1
  obtain ⟨l', hl'⟩ := Option.isSome_iff_exists.mp hholders.2
  exact absurd (h "a" "b" l l' hl hl') (by decide)

def takeoverThenBusy : List Event :=
  [.start 0 (.acquire (forcedAcquire "a")), .create 0 100000 "a-1", .read 0 100000,
    .rename 0 .ok, .start 1 (.acquire (forcedAcquire "b")), .create 1 100000 "b-1",
    .read 1 100000]

theorem writerLease_exclusive_takeoverThenBusy :
    ∃ t, run step (State.initial (some abandonedLease)) takeoverThenBusy = some t ∧
      Exclusive t := by
  have hsome : (run step (State.initial (some abandonedLease)) takeoverThenBusy).isSome = true := by
    decide +kernel
  obtain ⟨t, ht⟩ := Option.isSome_iff_exists.mp hsome
  exact ⟨t, ht, (writerLease_exclusive (some abandonedLease) takeoverThenBusy t
    (by decide +kernel) ht).1⟩

end CompareVI.Lease
