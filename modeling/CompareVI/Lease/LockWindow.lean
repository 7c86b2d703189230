import CompareVI.Lease.SessionLock

/-!
# The windows of Acquire

`SessionLock` takes each file operation for one step. Here the file is seen more closely. It is
opened for writing in one step and written and closed in another, and in between nobody can read
it; a writer that dies leaves a file without a complete record. One Acquire is interleaved with
such steps of other processes.

`Read-Lock` gives the same answer where the file is absent, open or incomplete, and
`Get-HeartbeatAgeSeconds` an infinite age for it. So an Acquire that loses the race for the
creation calls the lock stale unless its second read finds a complete record. The lock should be
called stale only by a record whose heartbeat is old (`WindowLaw`), and `windowLaw_iff` says
for which runs it is.

`deciding` is not in the program. It is what the last reading that Acquire went by has found,
and when.
-/

open Framework

namespace CompareVI.SessionLock

/-! ### The file -/

/-- The file `lock.json`. -/
inductive LockFile where
  | absent
  | opened (byAcquire : Bool)
  /-- Closed; `none` where there is no complete record in it. -/
  | closed (content : Option LockRecord)
  deriving DecidableEq

/-- `Read-Lock`. -/
def LockFile.read : LockFile → Option LockRecord
  | .absent => none
  | .opened _ => none
  | .closed content => content

/-- A step of another process. A heartbeat opens the file and writes it. -/
inductive OtherStep where
  | openExclusive
  | write (record : LockRecord)
  | abandon
  | delete
  deriving DecidableEq

def OtherStep.apply : OtherStep → LockFile → LockFile
  | .openExclusive, .opened byAcquire => .opened byAcquire
  | .openExclusive, _ => .opened false
  | .write record, .opened false => .closed (some record)
  | .write _, file => file
  | .abandon, .opened false => .closed none
  | .abandon, file => file
  | .delete, _ => .absent

/-! ### Acquire -/

/-- An Acquire at its next file operation. It ends with its `status` output, if it wrote one, and
may throw. -/
inductive AcquireCall where
  | read (attempt : ℕ) (queueWait : ℤ)
  | create (attempt : ℕ) (queueWait now : ℤ)
  | writeCreated (queueWait now : ℤ)
  | reread (attempt : ℕ) (queueWait now : ℤ)
  | overwrite (queueWait now : ℤ)
  | writeOverwritten (queueWait now : ℤ)
  | ended (status : Option Status) (throws : Bool)
  deriving DecidableEq

structure Reading where
  lock : Option LockRecord
  utcNow : ℤ
  deriving DecidableEq

structure Window where
  file : LockFile
  call : AcquireCall
  deciding : Option Reading
  deriving DecidableEq

/-- The body of the loop of Acquire once the lock is known. Without a lock the text about a stale
one cannot be made, and Acquire throws after it has written its status. -/
def Window.decide (o : AcquireOptions) (s : Window) (attempt : ℕ) (queueWait now : ℤ)
    (lock : Option LockRecord) (utcNow : ℤ) : Window :=
  { s with
    deciding := some ⟨lock, utcNow⟩
    call :=
      if isStale o.staleSeconds lock utcNow then
        if o.forceTakeover then .overwrite queueWait now
        else .ended (some .stale) lock.isNone
      else if (attempt : ℤ) ≥ o.queueMaxAttempts then .ended (some .timeout) false
      else .read (attempt + 1) (queueWait + o.queueWaitSeconds) }

/-- The Acquire writes the file that it has opened; if the file was deleted since, what it writes
is lost. -/
def Window.writeOpened (s : Window) (record : LockRecord) (status : Status) : Window :=
  { s with
    file := if s.file = .opened true then .closed (some record) else s.file
    call := .ended (some status) false }

def acquireStep (o : AcquireOptions) (s : Window) (now utcNow : ℤ) (guid : String) : Window :=
  match s.call with
  | .read attempt queueWait =>
    match s.file.read with
    | none => { s with call := .create attempt queueWait now }
    | some lock => s.decide o attempt queueWait now (some lock) utcNow
  | .create attempt queueWait now =>
    if s.file = .absent then
      { s with file := .opened true, call := .writeCreated queueWait now }
    else { s with call := .reread attempt queueWait now }
  | .writeCreated queueWait now =>
    s.writeOpened (newLockRecord guid now queueWait false) .acquired
  | .reread attempt queueWait now => s.decide o attempt queueWait now s.file.read utcNow
  | .overwrite queueWait now =>
    match s.file with
    | .opened _ => { s with call := .ended none true }
    | _ => { s with file := .opened true, call := .writeOverwritten queueWait now }
  | .writeOverwritten queueWait now =>
    s.writeOpened (newLockRecord guid now queueWait true) .takeover
  | .ended _ _ => s

inductive WindowEvent where
  | other (step : OtherStep)
  | acquire (now utcNow : ℤ) (guid : String)
  deriving DecidableEq

def windowStep (o : AcquireOptions) (s : Window) : WindowEvent → Option Window
  | .other step => some { s with file := step.apply s.file }
  | .acquire now utcNow guid => some (acquireStep o s now utcNow guid)

def Window.start (file : LockFile) : Window := ⟨file, .read 0 0, none⟩

/-! ### The law -/

def AcquireCall.callsStale : AcquireCall → Bool
  | .overwrite _ _ | .writeOverwritten _ _ => true
  | .ended (some .takeover) _ | .ended (some .stale) _ => true
  | _ => false

/-- The heartbeat of the record is more than `staleSeconds` ago. -/
def HeartbeatOld (o : AcquireOptions) (record : LockRecord) (utcNow : ℤ) : Prop :=
  ∃ heartbeat, record.heartbeatAt = some heartbeat ∧
    o.staleSeconds * ticksPerSecond < utcNow - heartbeat

/-- The Acquire calls the lock stale only by a complete record whose heartbeat was old. -/
def Justified (o : AcquireOptions) (s : Window) : Prop :=
  s.call.callsStale = true →
    ∃ record utcNow, s.deciding = some ⟨some record, utcNow⟩ ∧ HeartbeatOld o record utcNow

def AcquireCall.waits : AcquireCall → Bool
  | .read _ _ | .ended (some .timeout) _ => true
  | _ => false

/-- A second read that finds no complete record makes the Acquire wait. -/
def RereadWaits (s : Window) (_ : WindowEvent) (t : Window) : Prop :=
  ∀ attempt queueWait now, s.call = .reread attempt queueWait now → s.file.read = none →
    t.call ≠ s.call → t.call.waits = true

/-- What is wanted of every run. -/
structure WindowLaw (o : AcquireOptions) (file : LockFile) (es : List WindowEvent) : Prop where
  justified : ∀ pre post s, es = pre ++ post → run (windowStep o) (.start file) pre = some s →
    Justified o s
  waits : Steps (windowStep o) RereadWaits (.start file) es

/-- The record has a heartbeat, and the fraction of a second that is lost on its way through the
file does not make it old. -/
def Dated (o : AcquireOptions) (record : LockRecord) (utcNow : ℤ) : Prop :=
  ∃ heartbeat, record.heartbeatAt = some heartbeat ∧
    (o.staleSeconds * ticksPerSecond < utcNow - wholeSeconds heartbeat →
      o.staleSeconds * ticksPerSecond < utcNow - heartbeat)

/-- A second read finds a complete record, and every record that is found is dated. -/
def Clear (o : AcquireOptions) (s : Window) : WindowEvent → Prop
  | .other _ => True
  | .acquire _ utcNow _ =>
    match s.call with
    | .read _ _ => ∀ record, s.file.read = some record → Dated o record utcNow
    | .reread _ _ _ => ∃ record, s.file.read = some record ∧ Dated o record utcNow
    | _ => True

/-! ### One step -/

section Step

variable {o : AcquireOptions} {s t : Window} {attempt : ℕ} {queueWait now utcNow : ℤ}

theorem dated_iff {record : LockRecord} :
    Dated o record utcNow ↔
      (isStale o.staleSeconds (some record) utcNow = true → HeartbeatOld o record utcNow) := by
  cases hbeat : record.heartbeatAt with
  | none =>
    have hstale : isStale o.staleSeconds (some record) utcNow = true := by
      rw [isStale, getHeartbeatAge, Option.bind_some, hbeat, Option.map_none]
    constructor
    · rintro ⟨heartbeat, h, -⟩
      rw [hbeat] at h
      cases h
    · intro h
      obtain ⟨heartbeat, hsome, -⟩ := h hstale
      rw [hbeat] at hsome
      cases hsome
  | some heartbeat =>
    have hstale : isStale o.staleSeconds (some record) utcNow = true ↔
        o.staleSeconds * ticksPerSecond < utcNow - wholeSeconds heartbeat := by
      rw [isStale, getHeartbeatAge, Option.bind_some, hbeat, Option.map_some]
      exact decide_eq_true_iff
    rw [hstale]
    constructor
    · rintro ⟨h', hsome, himp⟩ hlt
      rw [hbeat] at hsome
      obtain rfl := Option.some.inj hsome
      exact ⟨heartbeat, hbeat, himp hlt⟩
    · intro himp
      refine ⟨heartbeat, hbeat, fun hlt => ?_⟩
      obtain ⟨h', hsome, hold⟩ := himp hlt
      rw [hbeat] at hsome
      obtain rfl := Option.some.inj hsome
      exact hold

theorem callsStale_decide (lock : Option LockRecord) :
    (s.decide o attempt queueWait now lock utcNow).call.callsStale =
      isStale o.staleSeconds lock utcNow := by
  rw [Window.decide]
  cases isStale o.staleSeconds lock utcNow with
  | true => cases o.forceTakeover <;> rfl
  | false =>
    by_cases hattempt : (attempt : ℤ) ≥ o.queueMaxAttempts
    · simp only [if_pos hattempt]
      rfl
    · simp only [if_neg hattempt]
      rfl

theorem justified_decide_some (record : LockRecord) :
    Justified o (s.decide o attempt queueWait now (some record) utcNow) ↔
      Dated o record utcNow := by
  rw [dated_iff, Justified, callsStale_decide]
  refine imp_congr_right fun _ => ⟨?_, fun hold => ⟨record, utcNow, rfl, hold⟩⟩
  rintro ⟨record', utcNow', hreading, hold⟩
  obtain ⟨hrecord, rfl⟩ := Reading.mk.inj (Option.some.inj hreading)
  obtain rfl := Option.some.inj hrecord
  exact hold

theorem not_justified_decide_none :
    ¬ Justified o (s.decide o attempt queueWait now none utcNow) := by
  intro hjustified
  have hstale : (s.decide o attempt queueWait now none utcNow).call.callsStale = true := by
    rw [callsStale_decide]
    rfl
  obtain ⟨record, utcNow', hreading, -⟩ := hjustified hstale
  obtain ⟨hrecord, -⟩ := Reading.mk.inj (Option.some.inj hreading)
  cases hrecord

theorem justified_of_same (hs : Justified o s)
    (hcall : t.call.callsStale = true → s.call.callsStale = true)
    (hdeciding : t.deciding = s.deciding) : Justified o t := by
  intro hstale
  rw [hdeciding]
  exact hs (hcall hstale)

/-- **One step** leads to a justified state exactly if it is clear. -/
theorem justified_step_iff {e : WindowEvent} (hs : Justified o s)
    (hstep : windowStep o s e = some t) : Justified o t ↔ Clear o s e := by
  cases e with
  | other step =>
    obtain rfl := Option.some.inj hstep
    exact ⟨fun _ => trivial, fun _ => justified_of_same hs id rfl⟩
  | acquire now utcNow guid =>
    obtain rfl := Option.some.inj hstep
    rw [acquireStep, Clear]
    cases hcall : s.call with
    | read attempt queueWait =>
      cases hread : s.file.read with
      | none =>
        constructor
        · intro _ record hrecord
          cases hrecord
        · intro _ hstale
          cases hstale
      | some record =>
        refine (justified_decide_some record).trans ⟨fun hdated record' hrecord => ?_,
          fun hall => hall record rfl⟩
        obtain rfl := Option.some.inj hrecord
        exact hdated
    | create attempt queueWait now =>
      refine ⟨fun _ => trivial, fun _ hstale => ?_⟩
      dsimp only at hstale
      split at hstale <;> cases hstale
    | writeCreated queueWait now =>
      exact ⟨fun _ => trivial, fun _ hstale => nomatch hstale⟩
    | reread attempt queueWait now =>
      cases hread : s.file.read with
      | none =>
        constructor
        · intro hjustified
          exact absurd hjustified not_justified_decide_none
        · rintro ⟨record, hrecord, -⟩
          cases hrecord
      | some record =>
        refine (justified_decide_some record).trans ⟨fun hdated => ⟨record, rfl, hdated⟩, ?_⟩
        rintro ⟨record', hrecord, hdated⟩
        obtain rfl := Option.some.inj hrecord
        exact hdated
    | overwrite queueWait now =>
      refine ⟨fun _ => trivial, fun _ => ?_⟩
      have hstale : s.call.callsStale = true := by rw [hcall]; rfl
      cases hfile : s.file with
      | opened byAcquire => exact justified_of_same hs (fun _ => hstale) rfl
      | absent => exact justified_of_same hs (fun _ => hstale) rfl
      | closed content => exact justified_of_same hs (fun _ => hstale) rfl
    | writeOverwritten queueWait now =>
      refine ⟨fun _ => trivial, fun _ => ?_⟩
      have hstale : s.call.callsStale = true := by rw [hcall]; rfl
      exact justified_of_same hs (fun _ => hstale) rfl
    | ended status throws =>
      exact ⟨fun _ => trivial, fun _ => hs⟩

theorem rereadWaits_of_clear {e : WindowEvent} (hclear : Clear o s e)
    (hstep : windowStep o s e = some t) : RereadWaits s e t := by
  intro attempt queueWait now hcall hread hmoved
  cases e with
  | other step =>
    obtain rfl := Option.some.inj hstep
    exact absurd rfl hmoved
  | acquire now utcNow guid =>
    rw [Clear, hcall] at hclear
    obtain ⟨record, hrecord, -⟩ := hclear
    rw [hread] at hrecord
    cases hrecord

end Step

/-- **A lock is called stale only when it is.** A run is as wanted exactly if every second read
finds a complete record and every record that is found is dated. -/
theorem windowLaw_iff (o : AcquireOptions) (file : LockFile) (es : List WindowEvent) :
    WindowLaw o file es ↔ Guarded (windowStep o) (Clear o) (.start file) es := by
  have hstart : Justified o (.start file) := fun hstale => nomatch hstale
  have htotal : ∀ s e, ∃ t, windowStep o s e = some t := by
    intro s e
    cases e <;> exact ⟨_, rfl⟩
  have hjustified : (∀ pre post t, es = pre ++ post →
      run (windowStep o) (.start file) pre = some t → Justified o t) ↔
      Guarded (windowStep o) (Clear o) (.start file) es :=
    always_iff_guarded htotal (fun s e t hs hstep => justified_step_iff hs hstep) hstart
  refine ⟨fun hlaw => hjustified.mp hlaw.justified, fun hguarded => ?_⟩
  refine ⟨hjustified.mpr hguarded, fun pre e post s t hes hrun hstep => ?_⟩
  exact rereadWaits_of_clear (guarded_iff_split.mp hguarded pre e post s hes hrun) hstep

/-! ### A lock that is just being created -/

def forcedOptions : AcquireOptions where
  queueWaitSeconds := 15
  queueMaxAttempts := 40
  staleSeconds := 180
  forceTakeover := true

/-- Another process opens the file between the first read and the creation, and writes its fresh
record after the second read. -/
def createRace : List WindowEvent :=
  [.acquire 0 0 "", .other .openExclusive, .acquire 0 0 "", .acquire 0 0 "",
    .other (.write (newLockRecord "other" 0 0 false)), .acquire 0 0 "", .acquire 0 0 "own"]

/-- The Acquire takes the lock over. -/
theorem not_windowLaw_createRace : ¬ WindowLaw forcedOptions .absent createRace := by
  intro hlaw
  have hrun : run (windowStep forcedOptions) (.start .absent) createRace =
      some ⟨.closed (some (newLockRecord "own" 0 0 true)), .ended (some .takeover) false,
        some ⟨none, 0⟩⟩ := by decide +kernel
  obtain ⟨record, utcNow, hreading, -⟩ := hlaw.justified createRace [] _ rfl hrun rfl
  obtain ⟨hrecord, -⟩ := Reading.mk.inj (Option.some.inj hreading)
  cases hrecord

end CompareVI.SessionLock
