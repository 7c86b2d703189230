import CompareVI.Framework.Watch
import CompareVI.SafeGit.Program

/-!
# The telemetry of a run

`runGitWithSafety` keeps a record of a run that changes the repository: its events, counters of
some of them, and how it ended. At every exit the record is finalized, which appends it to the
telemetry file, and a flag keeps that from happening twice. Here the program of `Program` is
written out with its record, and every query may throw.

* `mirrors_runTried`: the record changes nothing in what is asked and returned.
* `Open` and `Closed` are the record before and after it is finalized, and every part of the
  program either leaves it open or closes it with a status that fits its end.
* `runRecorded_telemetry`: whatever the outside does, one record is appended, its counters are those
  of its events and of the attempts, and it says `success` exactly if the command succeeded.

The times in the record and the form in which paths are shown are left out.
-/

open Framework

namespace CompareVI.SafeGit

/-! ### The record -/

/-- `lockDetailsForTelemetry`, for one lock. -/
structure LockDetails where
  path : String
  ageMs : ℕ
  stale : Bool
  deriving DecidableEq

/-- The events of `pushTelemetryEvent`. A `repair-result` is a killed process, a success or a
failure, and a `command-result` a success or a failure. -/
inductive TelemetryEvent where
  | gitDirUnresolved (message : String)
  | attemptStart (attempt : ℕ)
  | stateDetected (attempt : ℕ) (states : List String)
  | lockDetected (attempt lockCount : ℕ) (locks : List LockDetails)
  | repairAttempt (attempt : ℕ) (allowProcessKill : Bool) (staleLockAgeMs : ℕ)
  | killedProcess (attempt pid : ℕ)
  | repairSuccess (attempt : ℕ) (lockPath : String) (ageMs : ℕ)
  | repairFailure (attempt : ℕ) (lockPath : String) (ageMs : ℕ) (reason : String)
  | retryScheduled (attempt : ℕ) (reason : String) (retryDelayMs : ℕ)
  | commandSuccess (attempt : ℕ)
  | commandFailure (attempt : ℕ) (reason : String) (exitCode : Option ℤ)
  | runtimeLockConflict (attempt : ℕ) (exitCode : Option ℤ) (retryDelayMs : ℕ)
  deriving DecidableEq

namespace TelemetryEvent

/-- An `attempt-start` event. -/
def isAttemptStart : TelemetryEvent → Bool
  | attemptStart _ => true
  | _ => false

/-- A `repair-attempt` event. -/
def isRepairAttempt : TelemetryEvent → Bool
  | repairAttempt _ _ _ => true
  | _ => false

/-- A `repair-result` with the outcome `success`. -/
def isRepairSuccess : TelemetryEvent → Bool
  | repairSuccess _ _ _ => true
  | _ => false

/-- A `repair-result` with the outcome `failure`. -/
def isRepairFailure : TelemetryEvent → Bool
  | repairFailure _ _ _ _ => true
  | _ => false

/-- A `repair-result` with the outcome `killed-process`. -/
def isKilledProcess : TelemetryEvent → Bool
  | killedProcess _ _ => true
  | _ => false

/-- A `runtime-lock-conflict` event. -/
def isRuntimeLockConflict : TelemetryEvent → Bool
  | runtimeLockConflict _ _ _ => true
  | _ => false

/-- The locks of a `lock-detected` event. -/
def lockCount : TelemetryEvent → ℕ
  | lockDetected _ lockCount _ => lockCount
  | _ => 0

end TelemetryEvent

/-- The `counters` of a record. -/
structure Counters where
  lockDetections : ℕ
  repairAttempts : ℕ
  repairSuccesses : ℕ
  repairFailures : ℕ
  killedProcessCount : ℕ
  runtimeLockConflicts : ℕ
  deriving DecidableEq

/-- The `status` of a record. -/
inductive RunStatus where
  | running
  | success
  | failFast
  | blocked
  | commandError
  | error
  deriving DecidableEq

structure TelemetryRun where
  status : RunStatus
  reason : Option String
  message : Option String
  command : List String
  cwd : String
  gitDir : Option String
  maxAttempts : ℕ
  maxRetries : ℕ
  retryDelayMs : ℕ
  staleLockAgeMs : ℕ
  allowProcessKill : Bool
  attemptCount : ℕ
  counters : Counters
  events : List TelemetryEvent
  deriving DecidableEq

/-- The input of a recorded run; `telemetryPath` is what `resolveTelemetryPath` gives. -/
structure TelemetryInput extends SafeGitInput where
  cwd : String
  delay : Option Json
  telemetryPath : Option String

def TelemetryInput.retryDelayMs (i : TelemetryInput) : ℕ :=
  parseNumberEnv (Json.nullishOr i.delay (i.env "SAFE_GIT_RETRY_DELAY_MS")) 350

def buildTelemetryRun (i : TelemetryInput) : TelemetryRun where
  status := .running
  reason := none
  message := none
  command := i.args
  cwd := i.cwd
  gitDir := none
  maxAttempts := i.maxAttempts
  maxRetries := i.retries
  retryDelayMs := i.retryDelayMs
  staleLockAgeMs := i.staleAgeMs
  allowProcessKill := i.mayKill
  attemptCount := 0
  counters := ⟨0, 0, 0, 0, 0, 0⟩
  events := []

structure RunState where
  telemetry : TelemetryRun
  attemptCount : ℕ
  lastResult : Option GitResult
  telemetryFinalized : Bool

def startState (i : TelemetryInput) : RunState := ⟨buildTelemetryRun i, 0, none, false⟩

/-! ### Queries -/

/-- What a recorded run asks: what the run asks, and that a record is appended to a file. -/
inductive SafeQuery where
  | git (query : GitQuery)
  | append (path : String) (telemetry : TelemetryRun)

abbrev SafeReply : SafeQuery → Type
  | .git query => GitAnswer query
  | .append _ _ => Unit

abbrev SafeExchange : Type := Exchange fun q => Except String (SafeReply q)

abbrev Telemetered (α : Type) : Type := Attempt SafeQuery SafeReply RunState α

def plainExchange : SafeExchange → Option (Exchange GitAnswer)
  | ⟨.git query, .ok answer⟩ => some ⟨query, answer⟩
  | _ => none

def gitWatch : Watch GitAnswer SafeReply where
  query := .git
  read := fun _ answer => answer
  plain := plainExchange
  plain_query := fun _ _ => rfl

def observed {α : Type} (p : GitProg α) : Telemetered α := Attempt.observe gitWatch p

/-! ### Keeping the record -/

/-- `pushTelemetryEvent`. -/
def RunState.push (s : RunState) (event : TelemetryEvent) : RunState :=
  { s with telemetry := { s.telemetry with events := s.telemetry.events ++ [event] } }

def RunState.count (s : RunState) (change : Counters → Counters) : RunState :=
  { s with telemetry := { s.telemetry with counters := change s.telemetry.counters } }

/-- `pushTelemetryEvent`, as a step of the run. -/
def pushTelemetryEvent (event : TelemetryEvent) : Telemetered Unit := Attempt.modify (·.push event)

/-- `finalizeTelemetry`. An empty message is not noted. -/
def finalizeTelemetry (telemetry : TelemetryRun) (status : RunStatus) (reason : String)
    (message : Option String) : TelemetryRun :=
  { telemetry with
    status := status
    reason := some reason
    message := (message.filter (· ≠ "")).or telemetry.message }

/-- `persistTelemetry`. An append that fails is only reported on the console. -/
def persistTelemetry (telemetryPath : Option String) (telemetry : TelemetryRun) :
    Telemetered Unit :=
  match telemetryPath with
  | none => pure ()
  | some path => fun s => .ask (.append path telemetry) fun _ => .done (.ok (), s)

def finalize (i : TelemetryInput) (status : RunStatus) (reason : String)
    (message : Option String) : Telemetered Unit := do
  let s ← Attempt.get
  if s.telemetryFinalized then pure ()
  else do
    let telemetry :=
      finalizeTelemetry { s.telemetry with attemptCount := s.attemptCount } status reason message
    persistTelemetry i.telemetryPath telemetry
    Attempt.modify fun s => { s with telemetry := telemetry, telemetryFinalized := true }

def failWith {α : Type} (i : TelemetryInput) (status : RunStatus) (reason message : String) :
    Telemetered α := do
  finalize i status reason (some message)
  Attempt.throw message

/-! ### The run -/

def resolveGitDirRecorded (i : TelemetryInput) : Telemetered Unit :=
  (do
    let gitDir ← observed resolveGitDir
    Attempt.modify fun s => { s with telemetry := { s.telemetry with gitDir := some gitDir } }
    : Telemetered Unit).onError fun message => do
      pushTelemetryEvent (.gitDirUnresolved message)
      finalize i .error "git-dir-unresolved" (some message)

def RunState.noteLocks (s : RunState) (i : TelemetryInput) (attempt : ℕ) (nowMs : ℤ)
    (locks : List Lock) : RunState :=
  let lockDetails := locks.map fun lock =>
    LockDetails.mk lock.path (lock.ageMs nowMs) (decide (lock.ageMs nowMs ≥ i.staleAgeMs))
  (((s.count fun c =>
      { c with lockDetections := c.lockDetections + lockDetails.length }).push
        (.lockDetected attempt lockDetails.length lockDetails)).count fun c =>
          { c with repairAttempts := c.repairAttempts + 1 }).push
            (.repairAttempt attempt i.mayKill i.staleAgeMs)

def ageOf (nowMs : ℤ) (locks : List Lock) (path : String) : ℕ :=
  ((locks.find? fun lock => lock.path = path).map (·.ageMs nowMs)).getD 0

def RunState.noteKilled (s : RunState) (attempt : ℕ) (killedPids : List ℕ) : RunState :=
  killedPids.foldl (fun s pid => s.push (.killedProcess attempt pid))
    (s.count fun c => { c with killedProcessCount := c.killedProcessCount + killedPids.length })

def RunState.noteRemoved (s : RunState) (attempt : ℕ) (nowMs : ℤ) (locks : List Lock)
    (removed : List String) : RunState :=
  removed.foldl (fun s path =>
    (s.count fun c => { c with repairSuccesses := c.repairSuccesses + 1 }).push
      (.repairSuccess attempt path (ageOf nowMs locks path))) s

def RunState.noteBlocked (s : RunState) (attempt : ℕ) (blocked : List Blocked) : RunState :=
  blocked.foldl (fun s entry =>
    (s.count fun c => { c with repairFailures := c.repairFailures + 1 }).push
      (.repairFailure attempt entry.path entry.ageMs entry.reason)) s

def RunState.noteRepair (s : RunState) (attempt : ℕ) (nowMs : ℤ) (locks : List Lock)
    (repair : Repair) : RunState :=
  ((s.noteKilled attempt repair.killedPids).noteRemoved attempt nowMs locks
    repair.removed).noteBlocked attempt repair.blocked

def repairRecorded (i : TelemetryInput) (attempt : ℕ) (nowMs : ℤ) (locks : List Lock) :
    Telemetered Repair :=
  if locks.length > 0 then do
    Attempt.modify (·.noteLocks i attempt nowMs locks)
    let repair ← observed (repairLocks i.toSafeGitInput nowMs locks)
    Attempt.modify (·.noteRepair attempt nowMs locks repair)
    pure repair
  else pure ⟨[], [], []⟩

def settleRecorded (i : TelemetryInput) (attempt : ℕ) (result : GitResult) :
    Telemetered AttemptEnd :=
  if result.status = some 0 then do
    pushTelemetryEvent (.commandSuccess attempt)
    finalize i .success "ok" none
    pure (.returned result)
  else if looksLikeInProgressFailure result then do
    let states ← observed collectInProgressStates
    pushTelemetryEvent (.commandFailure attempt "operation-in-progress" result.status)
    failWith i .failFast "operation-in-progress"
      (inProgressError i.args (evaluateBlockedStates i.args states))
  else if looksLikeLockConflict result = true ∧ attempt < i.maxAttempts then do
    Attempt.modify fun s => s.count fun c =>
      { c with runtimeLockConflicts := c.runtimeLockConflicts + 1 }
    pushTelemetryEvent (.runtimeLockConflict attempt result.status i.retryDelayMs)
    pure .again
  else do
    pushTelemetryEvent (.commandFailure attempt "non-zero" result.status)
    finalize i .commandError "git-nonzero" (optionText (some result.stderr))
    pure (.returned result)

def spawnRecorded (i : TelemetryInput) (attempt : ℕ) : Telemetered AttemptEnd := do
  let result ← observed (Prog.query (.spawn i.args))
  Attempt.modify fun s => { s with lastResult := some result }
  settleRecorded i attempt result

def afterRepairRecorded (i : TelemetryInput) (attempt : ℕ) (repair : Repair) :
    Telemetered AttemptEnd :=
  if repair.blocked.length > 0 then
    if attempt ≥ i.maxAttempts then
      failWith i .blocked "lock-conflict" (buildLockError i.args repair.blocked attempt)
    else do
      pushTelemetryEvent (.retryScheduled attempt "lock-repair-incomplete" i.retryDelayMs)
      pure .again
  else spawnRecorded i attempt

def afterStatesRecorded (i : TelemetryInput) (attempt : ℕ) (nowMs : ℤ) (locks : List Lock)
    (states : List StateKey) : Telemetered AttemptEnd :=
  let blockedStates := evaluateBlockedStates i.args states
  if blockedStates.length > 0 then do
    pushTelemetryEvent (.stateDetected attempt (blockedStates.map StateKey.description))
    failWith i .failFast "operation-in-progress" (buildStateError i.args blockedStates)
  else do
    let repair ← repairRecorded i attempt nowMs locks
    afterRepairRecorded i attempt repair

def runAttemptRecorded (i : TelemetryInput) (attempt : ℕ) : Telemetered AttemptEnd := do
  Attempt.modify fun s => { s with attemptCount := attempt }
  pushTelemetryEvent (.attemptStart attempt)
  let nowMs ← observed (Prog.query .now)
  let locks ← observed (collectLockFiles nowMs)
  let states ← observed collectInProgressStates
  afterStatesRecorded i attempt nowMs locks states

def returnLast (i : TelemetryInput) : Option GitResult → Telemetered GitResult
  | some lastResult => do
    finalize i .commandError "last-result-nonzero" (optionText (some lastResult.stderr))
    pure lastResult
  | none => failWith i .error "pre-execution" (messageHead i.args ++ " failed before execution.")

def afterLoop (i : TelemetryInput) : Telemetered GitResult := do
  let s ← Attempt.get
  returnLast i s.lastResult

def runAttemptsRecorded (i : TelemetryInput) : ℕ → ℕ → Telemetered GitResult
  | 0, _ => afterLoop i
  | left + 1, attempt => do
    let ended ← runAttemptRecorded i attempt
    match ended with
    | .returned result => pure result
    | .again => runAttemptsRecorded i left (attempt + 1)

/-- The outer `try` block of `runGitWithSafety`. -/
def runTried (i : TelemetryInput) : Telemetered GitResult :=
  (do
    resolveGitDirRecorded i
    runAttemptsRecorded i i.maxAttempts 1
    : Telemetered GitResult).onError fun message => finalize i .error "exception" (some message)

/-- `runGitWithSafety`, with its record. -/
def runRecorded (i : TelemetryInput) :
    Prog SafeQuery (fun q => Except String (SafeReply q)) GitResult :=
  if i.args = [] then .fail "runGitWithSafety requires at least one git argument."
  else if !isMutatingGitCommand i.args then Prog.call (SafeQuery.git (.spawn i.args))
  else runTried i (startState i) >>= fun out => Prog.ofExcept out.1

/-! ### The law -/

def SafeExchange.append (e : SafeExchange) : Option (String × TelemetryRun) :=
  match e.query with
  | .append path telemetry => some (path, telemetry)
  | .git _ => none

def appended (h : List SafeExchange) : List (String × TelemetryRun) := h.filterMap (·.append)

def SafeExchange.startsAttempt (e : SafeExchange) : Bool :=
  match e.query with
  | .git .now => true
  | _ => false

def attemptsStarted (h : List SafeExchange) : ℕ := h.countP (·.startsAttempt)

/-- The counts of a record are those of its events, and of the attempts of its run. -/
structure FittingCounts (telemetry : TelemetryRun) (h : List SafeExchange) : Prop where
  attempts : telemetry.attemptCount = attemptsStarted h
  attemptEvents : telemetry.attemptCount = telemetry.events.countP (·.isAttemptStart)
  lockDetections :
    telemetry.counters.lockDetections = (telemetry.events.map (·.lockCount)).sum
  repairAttempts :
    telemetry.counters.repairAttempts = telemetry.events.countP (·.isRepairAttempt)
  repairSuccesses :
    telemetry.counters.repairSuccesses = telemetry.events.countP (·.isRepairSuccess)
  repairFailures :
    telemetry.counters.repairFailures = telemetry.events.countP (·.isRepairFailure)
  killedProcesses :
    telemetry.counters.killedProcessCount = telemetry.events.countP (·.isKilledProcess)
  lockConflicts :
    telemetry.counters.runtimeLockConflicts = telemetry.events.countP (·.isRuntimeLockConflict)

structure Accurate (telemetry : TelemetryRun) (h : List SafeExchange)
    (r : Except String GitResult) : Prop extends FittingCounts telemetry h where
  /-- The status is `success` exactly if the command succeeded. -/
  success : telemetry.status = .success ↔ ∃ result, r = .ok result ∧ result.status = some 0

/-- One record is appended, to the telemetry file, and it fits the run. -/
def TelemetryLaw (path : String) (h : List SafeExchange) (r : Except String GitResult) : Prop :=
  ∃ telemetry, appended h = [(path, telemetry)] ∧ Accurate telemetry h r

/-! ### Counters and events -/

section Counters

variable {s s' s'' : RunState} {events more : List TelemetryEvent}

instance : Add Counters where
  add c d :=
    ⟨c.lockDetections + d.lockDetections, c.repairAttempts + d.repairAttempts,
      c.repairSuccesses + d.repairSuccesses, c.repairFailures + d.repairFailures,
      c.killedProcessCount + d.killedProcessCount,
      c.runtimeLockConflicts + d.runtimeLockConflicts⟩

def countersOf (events : List TelemetryEvent) : Counters where
  lockDetections := (events.map (·.lockCount)).sum
  repairAttempts := events.countP (·.isRepairAttempt)
  repairSuccesses := events.countP (·.isRepairSuccess)
  repairFailures := events.countP (·.isRepairFailure)
  killedProcessCount := events.countP (·.isKilledProcess)
  runtimeLockConflicts := events.countP (·.isRuntimeLockConflict)

theorem Counters.add_assoc (c d e : Counters) : c + d + e = c + (d + e) := by
  change Counters.mk _ _ _ _ _ _ = Counters.mk _ _ _ _ _ _
  simp only [Counters.mk.injEq]
  exact ⟨Nat.add_assoc _ _ _, Nat.add_assoc _ _ _, Nat.add_assoc _ _ _, Nat.add_assoc _ _ _,
    Nat.add_assoc _ _ _, Nat.add_assoc _ _ _⟩

theorem countersOf_append (events more : List TelemetryEvent) :
    countersOf (events ++ more) = countersOf events + countersOf more := by
  simp only [countersOf, List.map_append, List.sum_append, List.countP_append]
  rfl

/-- Events are noted, with their counters; nothing else changes. -/
structure Noted (s s' : RunState) (more : List TelemetryEvent) : Prop where
  counters : s'.telemetry.counters = s.telemetry.counters + countersOf more
  events : s'.telemetry.events = s.telemetry.events ++ more
  starts : more.countP (·.isAttemptStart) = 0
  attemptCount : s'.attemptCount = s.attemptCount
  lastResult : s'.lastResult = s.lastResult
  finalized : s'.telemetryFinalized = s.telemetryFinalized

theorem Noted.refl (s : RunState) : Noted s s [] :=
  ⟨rfl, (List.append_nil _).symm, rfl, rfl, rfl, rfl⟩

theorem Noted.trans {first rest : List TelemetryEvent} (h : Noted s s' first)
    (h' : Noted s' s'' rest) : Noted s s'' (first ++ rest) where
  counters := by rw [h'.counters, h.counters, countersOf_append, Counters.add_assoc]
  events := by rw [h'.events, h.events, List.append_assoc]
  starts := by rw [List.countP_append, h.starts, h'.starts]
  attemptCount := h'.attemptCount.trans h.attemptCount
  lastResult := h'.lastResult.trans h.lastResult
  finalized := h'.finalized.trans h.finalized

variable {event : TelemetryEvent} {β : Type}

theorem noted_push (hcounters : countersOf [event] = countersOf [])
    (hstart : event.isAttemptStart = false) : Noted s (s.push event) [event] where
  counters := by
    rw [hcounters]
    rfl
  events := rfl
  starts := by
    rw [List.countP_singleton, hstart]
    rfl
  attemptCount := rfl
  lastResult := rfl
  finalized := rfl

theorem noted_count_push {change : Counters → Counters}
    (hcounters : ∀ c, change c = c + countersOf [event]) (hstart : event.isAttemptStart = false) :
    Noted s ((s.count change).push event) [event] where
  counters := hcounters _
  events := rfl
  starts := by
    rw [List.countP_singleton, hstart]
    rfl
  attemptCount := rfl
  lastResult := rfl
  finalized := rfl

theorem noted_noteLocks (i : TelemetryInput) (attempt : ℕ) (nowMs : ℤ) (locks : List Lock) :
    ∃ more, Noted s (s.noteLocks i attempt nowMs locks) more := by
  unfold RunState.noteLocks
  generalize locks.map _ = lockDetails
  have hdetected : Noted s ((s.count fun c =>
      { c with lockDetections := c.lockDetections + lockDetails.length }).push
        (.lockDetected attempt lockDetails.length lockDetails))
      [.lockDetected attempt lockDetails.length lockDetails] :=
    noted_count_push (fun c => rfl) rfl
  have hattempt : ∀ s : RunState, Noted s ((s.count fun c =>
      { c with repairAttempts := c.repairAttempts + 1 }).push
        (.repairAttempt attempt i.mayKill i.staleAgeMs))
      [.repairAttempt attempt i.mayKill i.staleAgeMs] :=
    fun s => noted_count_push (fun c => rfl) rfl
  exact ⟨_, hdetected.trans (hattempt _)⟩

theorem noted_foldl {note : RunState → β → RunState}
    (hnote : ∀ s b, ∃ more, Noted s (note s b) more) (bs : List β) (s : RunState) :
    ∃ more, Noted s (bs.foldl note s) more := by
  induction bs generalizing s with
  | nil => exact ⟨[], .refl s⟩
  | cons b bs ih =>
    obtain ⟨first, hfirst⟩ := hnote s b
    obtain ⟨rest, hrest⟩ := ih (note s b)
    exact ⟨first ++ rest, hfirst.trans hrest⟩

theorem foldl_push (event : β → TelemetryEvent) (bs : List β) (s : RunState) :
    bs.foldl (fun s b => s.push (event b)) s =
      { s with telemetry := { s.telemetry with
        events := s.telemetry.events ++ bs.map event } } := by
  induction bs generalizing s with
  | nil => rw [List.map_nil, List.append_nil]; rfl
  | cons b bs ih =>
    rw [List.foldl_cons, ih]
    simp only [RunState.push, List.map_cons, List.append_assoc, List.singleton_append]

theorem countersOf_killed (attempt : ℕ) (pids : List ℕ) :
    countersOf (pids.map (TelemetryEvent.killedProcess attempt)) =
      ⟨0, 0, 0, 0, pids.length, 0⟩ := by
  induction pids with
  | nil => rfl
  | cons pid pids ih =>
    rw [List.map_cons, ← List.singleton_append, countersOf_append, ih]
    exact congrArg (Counters.mk 0 0 0 0 · 0) (Nat.add_comm 1 _)

theorem noted_noteKilled (attempt : ℕ) (pids : List ℕ) :
    Noted s (s.noteKilled attempt pids) (pids.map (.killedProcess attempt)) := by
  unfold RunState.noteKilled
  rw [foldl_push]
  refine ⟨?_, rfl, ?_, rfl, rfl, rfl⟩
  · rw [countersOf_killed]
    rfl
  · rw [List.countP_eq_zero]
    intro event hevent
    obtain ⟨pid, -, rfl⟩ := List.mem_map.mp hevent
    exact Bool.false_ne_true

theorem noted_noteRemoved (attempt : ℕ) (nowMs : ℤ) (locks : List Lock) (removed : List String) :
    ∃ more, Noted s (s.noteRemoved attempt nowMs locks removed) more := by
  refine noted_foldl (fun s path => ?_) removed s
  exact ⟨[.repairSuccess attempt path (ageOf nowMs locks path)],
    noted_count_push (fun c => rfl) rfl⟩

theorem noted_noteBlocked (attempt : ℕ) (blocked : List Blocked) :
    ∃ more, Noted s (s.noteBlocked attempt blocked) more := by
  refine noted_foldl (fun s entry => ?_) blocked s
  exact ⟨[.repairFailure attempt entry.path entry.ageMs entry.reason],
    noted_count_push (fun c => rfl) rfl⟩

theorem noted_noteRepair (attempt : ℕ) (nowMs : ℤ) (locks : List Lock) (repair : Repair) :
    ∃ more, Noted s (s.noteRepair attempt nowMs locks repair) more := by
  obtain ⟨removed, hremoved⟩ := noted_noteRemoved attempt nowMs locks repair.removed
  obtain ⟨blocked, hblocked⟩ := noted_noteBlocked attempt repair.blocked
  exact ⟨_, ((noted_noteKilled attempt repair.killedPids).trans hremoved).trans hblocked⟩

end Counters

/-! ### Open and closed records -/

section Ends

variable {i : TelemetryInput} {path : String} {h : List SafeExchange} {s s' : RunState} {n : ℕ}

/-- The record in the midst of a run, after so many attempts were started. -/
structure Open (n : ℕ) (h : List SafeExchange) (s : RunState) : Prop where
  notFinalized : s.telemetryFinalized = false
  appended : appended h = []
  started : attemptsStarted h = n
  attemptCount : s.attemptCount = n
  counters : s.telemetry.counters = countersOf s.telemetry.events
  starts : s.telemetry.events.countP (·.isAttemptStart) = n

/-- No command has succeeded. -/
def Unsuccessful (s : RunState) : Prop :=
  ∀ result, s.lastResult = some result → result.status ≠ some 0

/-- The record has been finalized, with a status that fits. -/
structure Closed (path : String) (fits : RunStatus → Prop) (h : List SafeExchange)
    (s : RunState) : Prop where
  finalized : s.telemetryFinalized = true
  record : ∃ telemetry, appended h = [(path, telemetry)] ∧ FittingCounts telemetry h ∧
    fits telemetry.status

/-- The end of a part that throws. -/
def Thrown (path : String) (h : List SafeExchange) (s : RunState) : Prop :=
  (∃ n, Open n h s) ∨ Closed path (· ≠ .success) h s

/-- The end of a part that returns the result of a command. -/
def Returned (path : String) (h : List SafeExchange) (s : RunState) (result : GitResult) : Prop :=
  Closed path (fun status => status = .success ↔ result.status = some 0) h s

def AttemptEnded (path : String) (n : ℕ) (h : List SafeExchange) (s : RunState) :
    AttemptEnd → Prop
  | .again => Open n h s ∧ Unsuccessful s
  | .returned result => Returned path h s result

theorem open_start (i : TelemetryInput) : Open 0 [] (startState i) := ⟨rfl, rfl, rfl, rfl, rfl, rfl⟩

theorem Closed.mono {fits fits' : RunStatus → Prop} (hclosed : Closed path fits h s)
    (hfits : ∀ status, fits status → fits' status) : Closed path fits' h s := by
  obtain ⟨telemetry, hone, hcounts, hstatus⟩ := hclosed.record
  exact ⟨hclosed.finalized, telemetry, hone, hcounts, hfits _ hstatus⟩

theorem Open.noted {more : List TelemetryEvent} (hopen : Open n h s) (hnoted : Noted s s' more) :
    Open n h s' where
  notFinalized := hnoted.finalized.trans hopen.notFinalized
  appended := hopen.appended
  started := hopen.started
  attemptCount := hnoted.attemptCount.trans hopen.attemptCount
  counters := by rw [hnoted.counters, hnoted.events, hopen.counters, countersOf_append]
  starts := by rw [hnoted.events, List.countP_append, hopen.starts, hnoted.starts]; rfl

theorem Unsuccessful.noted {more : List TelemetryEvent} (hlast : Unsuccessful s)
    (hnoted : Noted s s' more) : Unsuccessful s' := by
  unfold Unsuccessful
  rw [hnoted.lastResult]
  exact hlast

theorem appended_git (h : List SafeExchange) (q : GitQuery) (answer : Except String (GitAnswer q)) :
    appended (h ++ [⟨.git q, answer⟩]) = appended h := by
  unfold appended
  rw [List.filterMap_append]
  exact List.append_nil _

theorem attemptsStarted_git (h : List SafeExchange) {q : GitQuery} (hq : q ≠ .now)
    (answer : Except String (GitAnswer q)) :
    attemptsStarted (h ++ [⟨.git q, answer⟩]) = attemptsStarted h := by
  have hnone : SafeExchange.startsAttempt ⟨.git q, answer⟩ = false := by
    cases q <;> first | rfl | exact absurd rfl hq
  unfold attemptsStarted
  rw [List.countP_append, List.countP_singleton, hnone]
  rfl

variable {E : List SafeExchange → RunState → Prop} {status : RunStatus} {α : Type}

theorem meets_observed {p : GitProg α} (hopen : Open n h s)
    (hp : Asks (· ≠ GitQuery.now) (fun _ => True) p) :
    Attempt.Meets (fun h s' _ => Open n h s' ∧ s' = s) (Thrown path) h s (observed p) := by
  have hpart : Attempt.Meets _ _ h s (observed p) := Attempt.meets_observe hp
    (fun h => appended h = [] ∧ attemptsStarted h = n) ⟨hopen.appended, hopen.started⟩
    fun h q answer hq hinv =>
      ⟨(appended_git h q answer).trans hinv.1, (attemptsStarted_git h hq answer).trans hinv.2⟩
  have hreopen : ∀ h, appended h = [] ∧ attemptsStarted h = n → Open n h s := fun h hinv =>
    { hopen with appended := hinv.1, started := hinv.2 }
  refine hpart.mono ?_ ?_
  · rintro h s' a ⟨hinv, rfl, -⟩
    exact ⟨hreopen h hinv, rfl⟩
  · rintro h s' ⟨hinv, rfl⟩
    exact .inl ⟨n, hreopen h hinv⟩

def finalRecord (s : RunState) (status : RunStatus) (reason : String) (message : Option String) :
    TelemetryRun :=
  finalizeTelemetry { s.telemetry with attemptCount := s.attemptCount } status reason message

theorem finalize_of_open (hnot : s.telemetryFinalized = false)
    (hpath : i.telemetryPath = some path) (status : RunStatus) (reason : String)
    (message : Option String) :
    finalize i status reason message s =
      .ask (.append path (finalRecord s status reason message)) fun _ =>
        .done (.ok (), { s with
          telemetry := finalRecord s status reason message, telemetryFinalized := true }) := by
  change (if s.telemetryFinalized then pure () else _ : Telemetered Unit) s = _
  rw [if_neg (by rw [hnot]; exact Bool.false_ne_true), hpath]
  rfl

theorem Open.finalRecord (hopen : Open n h s) (status : RunStatus) (reason : String)
    (message : Option String) :
    FittingCounts (finalRecord s status reason message) h where
  attempts := hopen.attemptCount.trans hopen.started.symm
  attemptEvents := hopen.attemptCount.trans hopen.starts.symm
  lockDetections := congrArg Counters.lockDetections hopen.counters
  repairAttempts := congrArg Counters.repairAttempts hopen.counters
  repairSuccesses := congrArg Counters.repairSuccesses hopen.counters
  repairFailures := congrArg Counters.repairFailures hopen.counters
  killedProcesses := congrArg Counters.killedProcessCount hopen.counters
  lockConflicts := congrArg Counters.runtimeLockConflicts hopen.counters

theorem FittingCounts.append {telemetry : TelemetryRun} (hcounts : FittingCounts telemetry h)
    (record : TelemetryRun) (answer : Except String Unit) :
    FittingCounts telemetry (h ++ [⟨.append path record, answer⟩]) where
  attempts := by
    rw [hcounts.attempts, attemptsStarted, attemptsStarted, List.countP_append]
    rfl
  attemptEvents := hcounts.attemptEvents
  lockDetections := hcounts.lockDetections
  repairAttempts := hcounts.repairAttempts
  repairSuccesses := hcounts.repairSuccesses
  repairFailures := hcounts.repairFailures
  killedProcesses := hcounts.killedProcesses
  lockConflicts := hcounts.lockConflicts

/-- **Finalizing closes an open record.** -/
theorem meets_finalize (hopen : Open n h s) (hpath : i.telemetryPath = some path)
    (status : RunStatus) (reason : String) (message : Option String) :
    Attempt.Meets (fun h s _ => Closed path (· = status) h s) E h s
      (finalize i status reason message) := by
  unfold Attempt.Meets
  rw [finalize_of_open hopen.notFinalized hpath]
  refine ⟨trivial, fun answer => ⟨rfl, SafeGit.finalRecord s status reason message, ?_, ?_, rfl⟩⟩
  · rw [SafeGit.appended, List.filterMap_append]
    exact congrArg (· ++ [(path, SafeGit.finalRecord s status reason message)]) hopen.appended
  · exact (hopen.finalRecord status reason message).append _ answer

theorem meets_finalize_again (hfinalized : s.telemetryFinalized = true) (status : RunStatus)
    (reason : String) (message : Option String) {P : List SafeExchange → RunState → Prop}
    (hP : P h s) :
    Attempt.Meets (fun h s _ => P h s) E h s (finalize i status reason message) := by
  have hnothing : finalize i status reason message s = .done (.ok (), s) := by
    change (if s.telemetryFinalized then pure () else _ : Telemetered Unit) s = _
    rw [if_pos hfinalized]
    rfl
  unfold Attempt.Meets
  rw [hnothing]
  exact hP

theorem meets_failWith (hopen : Open n h s) (hpath : i.telemetryPath = some path)
    (hstatus : status ≠ .success) (reason message : String)
    {P : List SafeExchange → RunState → α → Prop} :
    Attempt.Meets P (Thrown path) h s (failWith i status reason message) := by
  refine (meets_finalize hopen hpath status reason (some message)).bind fun h' s' _ hclosed => ?_
  exact Attempt.meets_throw (.inr (hclosed.mono fun _ heq => by rw [heq]; exact hstatus))

theorem meets_return (hopen : Open n h s) (hpath : i.telemetryPath = some path)
    {result : GitResult} (hstatus : status = .success ↔ result.status = some 0) (reason : String)
    (message : Option String) :
    Attempt.Meets (AttemptEnded path n) (Thrown path) h s (do
      finalize i status reason message
      pure (.returned result)) := by
  refine (meets_finalize hopen hpath status reason message).bind fun h' s' _ hclosed => ?_
  exact Attempt.meets_pure (hclosed.mono fun _ heq => by rw [heq]; exact hstatus)

end Ends

/-! ### The parts of a run -/

section Parts

variable {i : TelemetryInput} {path : String} {h : List SafeExchange} {s : RunState} {n : ℕ}

theorem asks_existingMarkers (ms : List Marker) :
    Asks (· ≠ GitQuery.now) (fun _ => True) (existingMarkers ms) := by
  induction ms with
  | nil => trivial
  | cons marker ms ih => exact ⟨GitQuery.noConfusion, fun _ => ih.bind fun _ _ => trivial⟩

theorem asks_collectInProgressStates :
    Asks (· ≠ GitQuery.now) (fun _ => True) collectInProgressStates :=
  (asks_existingMarkers markers).bind fun _ _ => trivial

theorem asks_statLocks_now (nowMs : ℤ) (paths : List String) :
    Asks (· ≠ GitQuery.now) (fun _ => True) (statLocks nowMs paths) := by
  induction paths with
  | nil => trivial
  | cons path paths ih => exact ⟨GitQuery.noConfusion, fun _ => ih.bind fun _ _ => trivial⟩

theorem asks_killAll (repairing : String) (pids : List ℕ) :
    Asks (· ≠ GitQuery.now) (fun _ => True) (killAll repairing pids) := by
  induction pids with
  | nil => trivial
  | cons pid pids ih =>
    have hone : Asks (· ≠ GitQuery.now) (fun _ => True) (killGitProcess repairing pid) := by
      unfold killGitProcess
      split
      · trivial
      · exact ⟨GitQuery.noConfusion, fun _ => trivial⟩
    exact hone.bind fun _ _ => ih.bind fun _ _ => trivial

theorem asks_repairEach (i : SafeGitInput) (nowMs : ℤ) (activePids : List ℕ) (locks : List Lock) :
    Asks (· ≠ GitQuery.now) (fun _ => True) (repairEach i nowMs activePids locks) := by
  induction locks generalizing activePids with
  | nil => trivial
  | cons lock locks ih =>
    have hkill : Asks (· ≠ GitQuery.now) (fun _ => True) (killStale i lock nowMs activePids) := by
      unfold killStale
      split
      · exact (asks_killAll lock.path activePids).bind fun _ _ =>
          ⟨GitQuery.noConfusion, fun _ => trivial⟩
      · trivial
    have hremove : ∀ left, Asks (· ≠ GitQuery.now) (fun _ => True)
        (removeLock i lock nowMs (decide (activePids.length > 0)) left) := fun left => by
      simp only [removeLock]
      split
      · trivial
      · exact ⟨GitQuery.noConfusion, fun _ => trivial⟩
    exact hkill.bind fun result _ => (hremove result.2).bind fun _ _ =>
      (ih result.2).bind fun _ _ => trivial

theorem asks_repairLocks (i : SafeGitInput) (nowMs : ℤ) (locks : List Lock) :
    Asks (· ≠ GitQuery.now) (fun _ => True) (repairLocks i nowMs locks) :=
  ⟨GitQuery.noConfusion, fun activePids => asks_repairEach i nowMs activePids locks⟩

section

variable (hopen : Open n h s)

include hopen

theorem meets_repairRecorded (hlast : Unsuccessful s) (nowMs : ℤ) (locks : List Lock) :
    Attempt.Meets (fun h s _ => Open n h s ∧ Unsuccessful s) (Thrown path) h s
      (repairRecorded i n nowMs locks) := by
  unfold repairRecorded
  split
  · obtain ⟨noted, hnoted⟩ := noted_noteLocks (s := s) i n nowMs locks
    refine Attempt.meets_modify_bind ?_
    refine (meets_observed (hopen.noted hnoted) (asks_repairLocks _ nowMs locks)).bind ?_
    rintro h' s' repair ⟨hopen', rfl⟩
    obtain ⟨more, hmore⟩ := noted_noteRepair (s := s.noteLocks i n nowMs locks) n nowMs locks repair
    refine Attempt.meets_modify_bind (Attempt.meets_pure ⟨hopen'.noted hmore, ?_⟩)
    exact (hlast.noted hnoted).noted hmore
  · exact Attempt.meets_pure ⟨hopen, hlast⟩

theorem meets_settleRecorded (hpath : i.telemetryPath = some path) {result : GitResult}
    (hlast : s.lastResult = some result) :
    Attempt.Meets (AttemptEnded path n) (Thrown path) h s (settleRecorded i n result) := by
  unfold settleRecorded
  split
  · -- the command succeeded
    rename_i hzero
    refine Attempt.meets_modify_bind ?_
    have hnoted : Noted s (s.push (.commandSuccess n)) _ := noted_push rfl rfl
    exact meets_return (hopen.noted hnoted) hpath (iff_of_true rfl hzero) _ _
  · rename_i hnonzero
    have hunsuccessful : Unsuccessful s := fun other hother => by
      obtain rfl := Option.some.inj (hlast.symm.trans hother)
      exact hnonzero
    split
    · -- an operation is in progress after all
      refine (meets_observed hopen asks_collectInProgressStates).bind ?_
      rintro h' s' states ⟨hopen', rfl⟩
      refine Attempt.meets_modify_bind ?_
      have hnoted : Noted s'
          (s'.push (.commandFailure n "operation-in-progress" result.status)) _ :=
        noted_push rfl rfl
      exact meets_failWith (hopen'.noted hnoted) hpath (by decide) _ _
    · split
      · -- the command met a lock
        have hnoted : Noted s ((s.count fun c =>
            { c with runtimeLockConflicts := c.runtimeLockConflicts + 1 }).push
              (.runtimeLockConflict n result.status i.retryDelayMs))
            [.runtimeLockConflict n result.status i.retryDelayMs] :=
          noted_count_push (fun c => rfl) rfl
        refine Attempt.meets_modify_bind (Attempt.meets_modify_bind (Attempt.meets_pure ?_))
        exact ⟨hopen.noted hnoted, hunsuccessful.noted hnoted⟩
      · refine Attempt.meets_modify_bind ?_
        have hnoted : Noted s (s.push (.commandFailure n "non-zero" result.status)) _ :=
          noted_push rfl rfl
        exact meets_return (hopen.noted hnoted) hpath (iff_of_false (by decide) hnonzero) _ _

theorem meets_spawnRecorded (hpath : i.telemetryPath = some path) :
    Attempt.Meets (AttemptEnded path n) (Thrown path) h s (spawnRecorded i n) := by
  have hspawn : Asks (· ≠ GitQuery.now) (fun _ => True) (Prog.query (A := GitAnswer)
      (GitQuery.spawn i.args)) := ⟨GitQuery.noConfusion, fun _ => trivial⟩
  refine (meets_observed hopen hspawn).bind ?_
  rintro h' s' result ⟨hopen', rfl⟩
  refine Attempt.meets_modify_bind (meets_settleRecorded ?_ hpath rfl)
  exact ⟨hopen'.notFinalized, hopen'.appended, hopen'.started, hopen'.attemptCount,
    hopen'.counters, hopen'.starts⟩

theorem meets_afterRepairRecorded (hlast : Unsuccessful s) (hpath : i.telemetryPath = some path)
    (repair : Repair) :
    Attempt.Meets (AttemptEnded path n) (Thrown path) h s (afterRepairRecorded i n repair) := by
  unfold afterRepairRecorded
  split
  · split
    · exact meets_failWith hopen hpath (by decide) _ _
    · have hnoted : Noted s (s.push
          (.retryScheduled n "lock-repair-incomplete" i.retryDelayMs)) _ := noted_push rfl rfl
      refine Attempt.meets_modify_bind (Attempt.meets_pure ?_)
      exact ⟨hopen.noted hnoted, hlast.noted hnoted⟩
  · exact meets_spawnRecorded hopen hpath

theorem meets_afterStatesRecorded (hlast : Unsuccessful s) (hpath : i.telemetryPath = some path)
    (nowMs : ℤ) (locks : List Lock) (states : List StateKey) :
    Attempt.Meets (AttemptEnded path n) (Thrown path) h s
      (afterStatesRecorded i n nowMs locks states) := by
  simp only [afterStatesRecorded]
  split
  · refine Attempt.meets_modify_bind ?_
    have hnoted : Noted s (s.push (.stateDetected n
        ((evaluateBlockedStates i.args states).map StateKey.description))) _ := noted_push rfl rfl
    exact meets_failWith (hopen.noted hnoted) hpath (by decide) _ _
  · refine (meets_repairRecorded hopen hlast nowMs locks).bind ?_
    exact fun h' s' repair hrepair => meets_afterRepairRecorded hrepair.1 hrepair.2 hpath repair

theorem Open.start (answer : Except String ℤ) : Open (n + 1) (h ++ [⟨.git .now, answer⟩])
      (RunState.push { s with attemptCount := n + 1 } (.attemptStart (n + 1))) where
  notFinalized := hopen.notFinalized
  appended := (appended_git h .now answer).trans hopen.appended
  started := by
    rw [attemptsStarted, List.countP_append, ← attemptsStarted, hopen.started]
    rfl
  attemptCount := rfl
  counters := by
    change s.telemetry.counters =
      countersOf (s.telemetry.events ++ [TelemetryEvent.attemptStart (n + 1)])
    rw [countersOf_append, hopen.counters]
    rfl
  starts := by
    change (s.telemetry.events ++ [TelemetryEvent.attemptStart (n + 1)]).countP _ = n + 1
    rw [List.countP_append, hopen.starts]
    rfl

theorem meets_readClock :
    Attempt.Meets (fun h s' _ => Open (n + 1) h s' ∧ s'.lastResult = s.lastResult) (Thrown path) h
      (RunState.push { s with attemptCount := n + 1 } (.attemptStart (n + 1)))
      (observed (Prog.query .now)) :=
  Attempt.meets_call_bind (fun _ => Attempt.meets_pure ⟨hopen.start _, rfl⟩)
    fun _ => Or.inl ⟨_, hopen.start _⟩

/-- **An attempt** leaves the record open if another one is to follow, and closes it otherwise. -/
theorem meets_runAttemptRecorded (hlast : Unsuccessful s) (hpath : i.telemetryPath = some path) :
    Attempt.Meets (AttemptEnded path (n + 1)) (Thrown path) h s (runAttemptRecorded i (n + 1)) := by
  refine Attempt.meets_modify_bind (Attempt.meets_modify_bind ?_)
  refine (meets_readClock hopen).bind ?_
  rintro h₁ s₁ nowMs ⟨hopen₁, hsame⟩
  have hcollect : Asks (· ≠ GitQuery.now) (fun _ => True) (collectLockFiles nowMs) :=
    ⟨GitQuery.noConfusion, fun candidates => asks_statLocks_now nowMs _⟩
  refine (meets_observed hopen₁ hcollect).bind ?_
  rintro h₂ s₂ locks ⟨hopen₂, rfl⟩
  refine (meets_observed hopen₂ asks_collectInProgressStates).bind ?_
  rintro h₃ s₃ states ⟨hopen₃, rfl⟩
  have hlast₃ : Unsuccessful s₃ := by
    unfold Unsuccessful
    rw [hsame]
    exact hlast
  exact meets_afterStatesRecorded hopen₃ hlast₃ hpath nowMs locks states

theorem meets_afterLoop (hlast : Unsuccessful s) (hpath : i.telemetryPath = some path) :
    Attempt.Meets (Returned path) (Thrown path) h s (afterLoop i) := by
  change Attempt.Meets _ _ h s (returnLast i s.lastResult)
  cases hresult : s.lastResult with
  | none => exact meets_failWith hopen hpath (by decide) _ _
  | some lastResult =>
    refine (meets_finalize hopen hpath _ _ _).bind fun h' s' _ hclosed => ?_
    refine Attempt.meets_pure (hclosed.mono fun _ heq => ?_)
    rw [heq]
    exact iff_of_false (by decide) (hlast lastResult hresult)

end

theorem meets_runAttemptsRecorded (hpath : i.telemetryPath = some path) (left : ℕ)
    (hopen : Open n h s) (hlast : Unsuccessful s) :
    Attempt.Meets (Returned path) (Thrown path) h s (runAttemptsRecorded i left (n + 1)) := by
  induction left generalizing n h s with
  | zero => exact meets_afterLoop hopen hlast hpath
  | succ left ih =>
    refine (meets_runAttemptRecorded hopen hlast hpath).bind fun h' s' ended hended => ?_
    cases ended with
    | again => exact ih hended.1 hended.2
    | returned result => exact Attempt.meets_pure hended

theorem Thrown.push (hthrown : Thrown path h s) {event : TelemetryEvent}
    (hcounters : countersOf [event] = countersOf []) (hstart : event.isAttemptStart = false) :
    Thrown path h (s.push event) := by
  rcases hthrown with ⟨n, hopen⟩ | hclosed
  · exact .inl ⟨n, hopen.noted (noted_push hcounters hstart)⟩
  · exact .inr ⟨hclosed.finalized, hclosed.record⟩

/-- **Where an error is caught** the record is closed, if that has not been done. -/
theorem meets_close (hthrown : Thrown path h s) (hpath : i.telemetryPath = some path)
    {status : RunStatus} (hstatus : status ≠ .success) (reason : String) (message : Option String)
    {E : List SafeExchange → RunState → Prop} :
    Attempt.Meets (fun h s _ => Closed path (· ≠ .success) h s) E h s
      (finalize i status reason message) := by
  rcases hthrown with ⟨n, hopen⟩ | hclosed
  · refine (meets_finalize hopen hpath status reason message).mono ?_ fun _ _ hE => hE
    exact fun h s _ hclosed => hclosed.mono fun _ heq => by rw [heq]; exact hstatus
  · exact meets_finalize_again hclosed.finalized status reason message hclosed

theorem asks_resolveGitDir : Asks (· ≠ GitQuery.now) (fun _ => True) resolveGitDir :=
  ⟨GitQuery.noConfusion, fun _ => asks_ofExcept fun _ => trivial⟩

theorem meets_resolveGitDirRecorded (hopen : Open n h s) (hlast : Unsuccessful s)
    (hpath : i.telemetryPath = some path) :
    Attempt.Meets (fun h s _ => Open n h s ∧ Unsuccessful s)
      (Closed path (· ≠ .success)) h s (resolveGitDirRecorded i) := by
  have hresolve : Attempt.Meets (fun h s (_ : Unit) => Open n h s ∧ Unsuccessful s) (Thrown path)
      h s (do
        let gitDir ← observed resolveGitDir
        Attempt.modify fun s =>
          { s with telemetry := { s.telemetry with gitDir := some gitDir } }) := by
    refine (meets_observed hopen asks_resolveGitDir).bind ?_
    rintro h' s' gitDir ⟨hopen', rfl⟩
    exact Attempt.meets_pure (a := ()) ⟨⟨hopen'.notFinalized, hopen'.appended, hopen'.started,
      hopen'.attemptCount, hopen'.counters, hopen'.starts⟩, hlast⟩
  refine hresolve.onError fun h' s' message hthrown => Attempt.meets_modify_bind ?_
  exact meets_close (hthrown.push rfl rfl) hpath (by decide) _ _

theorem meets_runTried (hpath : i.telemetryPath = some path) :
    Attempt.Meets (Returned path) (Closed path (· ≠ .success)) [] (startState i) (runTried i) := by
  have hlast : Unsuccessful (startState i) := fun _ hresult => nomatch hresult
  have hbody : Attempt.Meets (Returned path) (Thrown path) [] (startState i) (do
      resolveGitDirRecorded i
      runAttemptsRecorded i i.maxAttempts 1) := by
    have hresolve : Attempt.Meets _ (Thrown path) [] (startState i) (resolveGitDirRecorded i) :=
      (meets_resolveGitDirRecorded (open_start i) hlast hpath).mono (fun _ _ _ hopen => hopen)
        fun _ _ hclosed => .inr hclosed
    exact hresolve.bind fun h s _ hopen => meets_runAttemptsRecorded hpath _ hopen.1 hopen.2
  exact hbody.onError fun h s message hthrown => meets_close hthrown hpath (by decide) _ _

end Parts

/-! ### The run without its record -/

section Plain

variable {i : TelemetryInput}

theorem silent_finalize (status : RunStatus) (reason : String) (message : Option String) :
    Silent gitWatch (finalize i status reason message) := by
  intro s h x s' hr
  change Runs ((if s.telemetryFinalized then pure () else _ : Telemetered Unit) s) h _ at hr
  by_cases hfinalized : s.telemetryFinalized = true
  · rw [if_pos hfinalized] at hr
    obtain ⟨rfl, hx⟩ := Runs.done_inv hr
    cases hx
    exact ⟨⟨(), rfl⟩, rfl⟩
  · rw [if_neg hfinalized] at hr
    cases hpath : i.telemetryPath with
    | none =>
      rw [hpath] at hr
      obtain ⟨rfl, hx⟩ := Runs.done_inv hr
      cases hx
      exact ⟨⟨(), rfl⟩, rfl⟩
    | some path =>
      rw [hpath] at hr
      obtain ⟨answer, rest, rfl, hrest⟩ := Runs.ask_inv hr
      obtain ⟨rfl, hx⟩ := Runs.done_inv hrest
      cases hx
      exact ⟨⟨(), rfl⟩, rfl⟩

theorem mirrors_failWith {α : Type} (status : RunStatus) (reason message : String) :
    Mirrors gitWatch (failWith i status reason message : Telemetered α) (.fail message) :=
  (silent_finalize status reason (some message)).bind fun _ => mirrors_throw message

theorem mirrors_resolveGitDir :
    Mirrors gitWatch (resolveGitDirRecorded i) (resolveGitDir >>= fun _ => pure ()) := by
  refine Mirrors.onError ?_ fun message => ?_
  · exact (mirrors_observe resolveGitDir).bind fun gitDir => (silent_modify _).mirrors
  · exact (silent_modify _).then fun _ => silent_finalize _ _ _

theorem mirrors_repairRecorded (attempt : ℕ) (nowMs : ℤ) (locks : List Lock) :
    Mirrors gitWatch (repairRecorded i attempt nowMs locks)
      (repairFound i.toSafeGitInput nowMs locks) := by
  unfold repairRecorded repairFound
  split
  · refine (silent_modify _).bind fun _ => ?_
    exact (mirrors_observe _).noting fun repair => silent_modify _
  · exact mirrors_pure _

theorem mirrors_settleRecorded (attempt : ℕ) (result : GitResult) :
    Mirrors gitWatch (settleRecorded i attempt result)
      (settleResult i.toSafeGitInput attempt result) := by
  unfold settleRecorded settleResult
  split
  · exact (silent_modify _).bind fun _ => (silent_finalize _ _ _).bind fun _ => mirrors_pure _
  · split
    · refine (mirrors_observe _).bind fun states => ?_
      exact (silent_modify _).bind fun _ => mirrors_failWith _ _ _
    · split
      · exact (silent_modify _).bind fun _ => (silent_modify _).bind fun _ => mirrors_pure _
      · exact (silent_modify _).bind fun _ => (silent_finalize _ _ _).bind fun _ => mirrors_pure _

theorem mirrors_afterRepairRecorded (attempt : ℕ) (repair : Repair) :
    Mirrors gitWatch (afterRepairRecorded i attempt repair)
      (afterRepair i.toSafeGitInput attempt repair) := by
  unfold afterRepairRecorded afterRepair
  split
  · split
    · exact mirrors_failWith _ _ _
    · exact (silent_modify _).bind fun _ => mirrors_pure _
  · exact (mirrors_observe _).bind fun result =>
      (silent_modify _).bind fun _ => mirrors_settleRecorded attempt result

theorem mirrors_runAttemptRecorded (attempt : ℕ) :
    Mirrors gitWatch (runAttemptRecorded i attempt) (runAttempt i.toSafeGitInput attempt) := by
  refine (silent_modify _).bind fun _ => (silent_modify _).bind fun _ => ?_
  refine (mirrors_observe _).bind fun nowMs => (mirrors_observe _).bind fun locks =>
    (mirrors_observe _).bind fun states => ?_
  simp only [afterStatesRecorded, afterStates]
  split
  · exact (silent_modify _).bind fun _ => mirrors_failWith _ _ _
  · exact (mirrors_repairRecorded attempt nowMs locks).bind fun repair =>
      mirrors_afterRepairRecorded attempt repair

theorem asks_runAttempt (attempt : ℕ) :
    Asks (fun _ => True) (fun ended => ended = .again → attempt < i.maxAttempts)
      (runAttempt i.toSafeGitInput attempt) := by
  refine ⟨trivial, fun nowMs => ?_⟩
  change Asks _ _ (collectLockFiles nowMs >>= _)
  refine (asks_any _).bind fun locks _ => (asks_any collectInProgressStates).bind fun states _ => ?_
  simp only [afterStates]
  split
  · trivial
  · refine (asks_any (repairFound i.toSafeGitInput nowMs locks)).bind fun repair _ => ?_
    unfold afterRepair
    split
    · split
      · trivial
      · rename_i hattempt
        exact fun _ => Nat.lt_of_not_le hattempt
    · refine ⟨trivial, fun result => ?_⟩
      change Asks _ _ (settleResult i.toSafeGitInput attempt result)
      unfold settleResult
      split
      · exact fun heq => nomatch heq
      · split
        · exact (asks_any collectInProgressStates).bind fun _ _ => trivial
        · split
          · rename_i hconflict
            exact fun _ => hconflict.2
          · exact fun heq => nomatch heq

/-- **The record changes nothing**: the attempts with their record ask and return what those
without it do. -/
theorem mirrors_runAttempts (left attempt : ℕ) (hleft : attempt + left = i.maxAttempts) :
    Mirrors gitWatch (runAttemptsRecorded i (left + 1) attempt)
      (runAttempts i.toSafeGitInput (left + 1) attempt) := by
  induction left generalizing attempt with
  | zero =>
    refine (mirrors_runAttemptRecorded attempt).bind_of (asks_runAttempt attempt) ?_
    intro ended hended
    cases ended with
    | again => exact absurd (hended rfl) (by omega)
    | returned result => exact mirrors_pure result
  | succ left ih =>
    refine (mirrors_runAttemptRecorded attempt).bind fun ended => ?_
    cases ended with
    | again => exact ih (attempt + 1) (by omega)
    | returned result => exact mirrors_pure result

/-- **The whole run.** -/
theorem mirrors_runTried (hmutating : isMutatingGitCommand i.args = true) :
    Mirrors gitWatch (runTried i) (runGitWithSafety i.toSafeGitInput) := by
  have hargs : i.args ≠ [] := fun hnil => by
    rw [hnil] at hmutating
    cases hmutating
  have hnot : ¬ (!isMutatingGitCommand i.args) = true := by
    rw [hmutating]
    exact Bool.false_ne_true
  have hassoc : (resolveGitDir >>= fun _ => runAttempts i.toSafeGitInput i.maxAttempts 1) =
      (resolveGitDir >>= fun _ => pure ()) >>= fun _ =>
        runAttempts i.toSafeGitInput i.maxAttempts 1 :=
    (Prog.bind_assoc resolveGitDir (fun _ => pure ())
      fun _ => runAttempts i.toSafeGitInput i.maxAttempts 1).symm
  rw [runGitWithSafety, if_neg hargs, if_neg hnot, hassoc]
  refine Mirrors.onError ?_ fun message => silent_finalize _ _ _
  refine mirrors_resolveGitDir.bind fun _ => ?_
  obtain ⟨left, hleft⟩ : ∃ left, i.maxAttempts = left + 1 :=
    Nat.exists_eq_succ_of_ne_zero (Nat.one_le_iff_ne_zero.mp (Nat.le_max_left _ _))
  rw [hleft]
  exact mirrors_runAttempts left 1 (by omega)

end Plain

/-! ### The law of the telemetry -/

theorem Closed.law {path : String} {fits : RunStatus → Prop} {h : List SafeExchange} {s : RunState}
    {r : Except String GitResult} (hclosed : Closed path fits h s)
    (hfits : ∀ status, fits status →
      (status = .success ↔ ∃ result, r = .ok result ∧ result.status = some 0)) :
    TelemetryLaw path h r := by
  obtain ⟨telemetry, hone, hcounts, hstatus⟩ := hclosed.record
  exact ⟨telemetry, hone, hcounts, hfits _ hstatus⟩

/-- **The telemetry of a run.** In every run of a command that changes the repository, whatever
the outside answers and wherever it throws, one record is appended to the telemetry file: it counts
the attempts that were started, its counters are those of its events, and its status is `success`
exactly if the run returns a result with exit status 0. -/
theorem runRecorded_telemetry (i : TelemetryInput) (path : String)
    (hmutating : isMutatingGitCommand i.args = true) (hpath : i.telemetryPath = some path)
    (h : List SafeExchange) (r : Except String GitResult) (hr : Runs (runRecorded i) h r) :
    TelemetryLaw path h r := by
  have hsafe : Safe (fun _ _ => True) (TelemetryLaw path) [] (runRecorded i) := by
    have hargs : i.args ≠ [] := fun hnil => by
      rw [hnil] at hmutating
      cases hmutating
    have hnot : ¬ (!isMutatingGitCommand i.args) = true := by
      rw [hmutating]
      exact Bool.false_ne_true
    rw [runRecorded, if_neg hargs, if_neg hnot]
    refine safe_bind.mpr (Safe.mono (meets_runTried hpath) fun new out hout => ?_)
    match out, hout with
    | .ok (.ok result, s), hreturned =>
      refine Closed.law hreturned fun status hstatus => hstatus.trans ?_
      exact ⟨fun hzero => ⟨result, rfl, hzero⟩, fun ⟨_, heq, hzero⟩ => Except.ok.inj heq ▸ hzero⟩
    | .ok (.error message, s), hclosed =>
      refine Closed.law hclosed fun status hstatus => iff_of_false hstatus ?_
      exact fun ⟨_, heq, _⟩ => nomatch heq
  exact hsafe.result hr

/-! ### A stale lock and a commit -/

def recordedCommit : TelemetryInput where
  args := ["commit"]
  maxRetries := none
  staleLockAgeMs := none
  allowProcessKill := none
  env := fun _ => none
  cwd := "/repo"
  delay := none
  telemetryPath := some "/repo/events.jsonl"

def answerStale : Unit → (q : SafeQuery) → Except String (SafeReply q) × Unit
  | _, .git .resolveGitDir => (.ok (.ok "/repo/.git"), ())
  | _, .git .now => (.ok (60000 : ℤ), ())
  | _, .git .lockCandidates => (.ok ["/repo/.git/index.lock"], ())
  | _, .git (.stat _) => (.ok (some (0 : ℚ)), ())
  | _, .git (.existsMarker _) => (.ok false, ())
  | _, .git .listGitProcesses => (.ok [], ())
  | _, .git (.kill _ _) => (.ok true, ())
  | _, .git (.remove _) => (.ok (.ok ()), ())
  | _, .git (.spawn _) => (.ok ⟨some 0, "", ""⟩, ())
  | _, .append _ _ => (.ok (), ())

/-- The run that removes the lock and commits. -/
theorem runRecorded_telemetry_stale :
    TelemetryLaw "/repo/events.jsonl" ((runRecorded recordedCommit).runWith answerStale ()).1
      ((runRecorded recordedCommit).runWith answerStale ()).2 :=
  runRecorded_telemetry recordedCommit "/repo/events.jsonl" (by decide) rfl _ _
    (runs_runWith answerStale () _)

end CompareVI.SafeGit
