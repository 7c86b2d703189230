import CompareVI.Framework.Interact
import CompareVI.Framework.JsString
import Mathlib.Data.List.Infix
import Mathlib.Data.Rat.Floor

/-!
# Running git commands that change the repository

`runGitWithSafety` runs a command that changes the repository in a bounded number of
attempts. Each attempt looks for lock files and for operations in progress, repairs the locks
(`repairLocks`), and runs the command if that left none; a command that met a lock is tried
again.

The file system, the process list and git itself are the outside (`GitQuery`). The telemetry,
the messages on the console and the pauses between attempts are left out: nothing is read
from them.
-/

open Framework

namespace CompareVI.SafeGit

/-! ### Which commands change the repository -/

def MUTATING_GIT_COMMANDS : List String :=
  ["add", "am", "apply", "branch", "checkout", "cherry-pick", "clean", "commit", "merge", "mv",
    "pull", "push", "rebase", "reset", "restore", "revert", "rm", "switch", "tag", "worktree"]

def BRANCH_MUTATING_FLAGS : List String :=
  ["-c", "-C", "-d", "-D", "-m", "-M", "--copy", "--delete", "--move", "--set-upstream-to",
    "--unset-upstream"]

def TAG_READONLY_FLAGS : List String :=
  ["-l", "--list", "--contains", "--merged", "--no-merged", "--points-at", "--sort", "--column",
    "-n", "--format"]

/-- `value.startsWith(text)`. -/
def startsWith (value text : String) : Bool := text.toList.isPrefixOf value.toList

def shouldMutateTag (args : List String) : Bool :=
  let flags := args.drop 1
  if flags = [] then false
  else if flags.any fun flag => flag = "-d" || flag = "--delete" then true
  else if flags.any fun flag => TAG_READONLY_FLAGS.contains flag || startsWith flag "--sort=" then
    false
  else true

def commandName (args : List String) : String := JsString.toLowerCase (args.headD "")

def isMutatingGitCommand (args : List String) : Bool :=
  if args = [] then false
  else if !MUTATING_GIT_COMMANDS.contains (commandName args) then false
  else if commandName args = "branch" then
    (args.drop 1).any fun value =>
      BRANCH_MUTATING_FLAGS.contains value || startsWith value "--set-upstream-to="
  else if commandName args = "tag" then shouldMutateTag args
  else true

/-! ### Settings -/

def parseNumberEnv (value : Option Json) (fallback : ℕ) : ℕ :=
  if value = none ∨ value = some .null ∨ value = some (.str "") then fallback
  else
    match Json.toNumber? value with
    | some parsed => ⌊parsed⌋.toNat
    | none => fallback

def parseBooleanEnv (value : Option Json) (fallback : Bool) : Bool :=
  if value = none ∨ value = some .null then fallback
  else
    let normalized := JsString.toLowerCase (JsString.trim (Json.stringOrEmpty value))
    if ["", "0", "false", "no"].contains normalized then false
    else if ["1", "true", "yes"].contains normalized then true
    else fallback

/-- The input of a run: the command, the options and the environment variables that stand
for them. -/
structure SafeGitInput where
  args : List String
  maxRetries : Option Json
  staleLockAgeMs : Option Json
  allowProcessKill : Option Json
  env : String → Option Json

namespace SafeGitInput

variable (i : SafeGitInput)

/-- `maxRetries`. -/
def retries : ℕ :=
  parseNumberEnv (Json.nullishOr i.maxRetries (i.env "SAFE_GIT_MAX_RETRIES")) 2

def maxAttempts : ℕ := max 1 (i.retries + 1)

/-- `staleLockAgeMs`. -/
def staleAgeMs : ℕ :=
  parseNumberEnv (Json.nullishOr i.staleLockAgeMs (i.env "SAFE_GIT_STALE_LOCK_AGE_MS")) 30000

/-- `allowProcessKill`. -/
def mayKill : Bool :=
  parseBooleanEnv (Json.nullishOr i.allowProcessKill (i.env "SAFE_GIT_ALLOW_PROCESS_KILL")) true

end SafeGitInput

/-! ### The outside -/

inductive Marker where
  | mergeHead
  | cherryPickHead
  | revertHead
  | rebaseApply
  | rebaseMerge
  deriving DecidableEq, Repr

inductive StateKey where
  | merge
  | cherryPick
  | revert
  | rebase
  deriving DecidableEq, Repr

structure GitResult where
  status : Option ℤ
  stdout : String
  stderr : String
  deriving DecidableEq

inductive GitQuery where
  | resolveGitDir
  | now
  /-- The lock files: those of `LOCK_FILENAMES` that exist, then those under `refs`. -/
  | lockCandidates
  /-- `statSync(path).mtimeMs`, where it is a number. -/
  | stat (path : String)
  | existsMarker (marker : Marker)
  | listGitProcesses
  /-- Kill a process. The lock that is being repaired is a label that the outside does not
  see. -/
  | kill (repairing : String) (pid : ℕ)
  | remove (path : String)
  | spawn (args : List String)
  deriving DecidableEq

abbrev GitAnswer : GitQuery → Type
  | .resolveGitDir => Except String String
  | .now => ℤ
  | .lockCandidates => List String
  | .stat _ => Option ℚ
  | .existsMarker _ => Bool
  | .listGitProcesses => List ℕ
  | .kill _ _ => Bool
  | .remove _ => Except String Unit
  | .spawn _ => GitResult

abbrev GitProg (α : Type) : Type := Prog GitQuery GitAnswer α

/-! ### Locks -/

structure Lock where
  path : String
  mtimeMs : ℚ

def Lock.ageMs (lock : Lock) (nowMs : ℤ) : ℕ := ⌊(nowMs : ℚ) - lock.mtimeMs⌋.toNat

/-- `safeStatMtimeMs`, for each path. -/
def statLocks (nowMs : ℤ) : List String → GitProg (List Lock)
  | [] => pure []
  | path :: paths => do
    let mtimeMs ← Prog.query (.stat path)
    let locks ← statLocks nowMs paths
    pure (⟨path, Option.getD mtimeMs (nowMs : ℚ)⟩ :: locks)

def collectLockFiles (nowMs : ℤ) : GitProg (List Lock) := do
  let candidates ← Prog.query .lockCandidates
  statLocks nowMs (List.eraseDups candidates)

structure Blocked where
  path : String
  ageMs : ℕ
  reason : String

/-- The result of `repairLocks`. -/
structure Repair where
  removed : List String
  blocked : List Blocked
  killedPids : List ℕ

def Repair.append (first rest : Repair) : Repair :=
  ⟨first.removed ++ rest.removed, first.blocked ++ rest.blocked,
    first.killedPids ++ rest.killedPids⟩

def killGitProcess (repairing : String) (pid : ℕ) : GitProg Bool :=
  if pid = 0 then pure false else Prog.query (GitQuery.kill repairing pid)

def killAll (repairing : String) : List ℕ → GitProg (List ℕ)
  | [] => pure []
  | pid :: pids => do
    let killed ← killGitProcess repairing pid
    let rest ← killAll repairing pids
    pure (if killed = true then pid :: rest else rest)

/-- Kill the processes and list those that are left, if that is called for. -/
def killStale (i : SafeGitInput) (lock : Lock) (nowMs : ℤ) (activePids : List ℕ) :
    GitProg (List ℕ × List ℕ) :=
  if activePids.length > 0 ∧ lock.ageMs nowMs ≥ i.staleAgeMs ∧ i.mayKill = true then do
    let killedPids ← killAll lock.path activePids
    let left ← Prog.query .listGitProcesses
    pure (killedPids, left)
  else pure ([], activePids)

def blockedReason (hasActivePids staleByAge allowProcessKill : Bool) : String :=
  if hasActivePids && !staleByAge then "active-git-process"
  else if hasActivePids && staleByAge && !allowProcessKill then "stale-lock-process-kill-disabled"
  else "git-process-still-active"

/-- The end of the repair of one lock. `hasActivePids` is from before the kills, `left` lists
the processes after them. -/
def removeLock (i : SafeGitInput) (lock : Lock) (nowMs : ℤ) (hasActivePids : Bool)
    (left : List ℕ) : GitProg Repair :=
  let ageMs := lock.ageMs nowMs
  let staleByAge := decide (ageMs ≥ i.staleAgeMs)
  let mayRemove := !hasActivePids || staleByAge
  if mayRemove = false ∨ left.length > 0 then
    pure ⟨[], [⟨lock.path, ageMs, blockedReason hasActivePids staleByAge i.mayKill⟩], []⟩
  else do
    let removed ← Prog.query (.remove lock.path)
    pure (match (removed : Except String Unit) with
      | .ok _ => ⟨[lock.path], [], []⟩
      | .error message => ⟨[], [⟨lock.path, ageMs, "remove-failed:" ++ message⟩], []⟩)

/-- The loop of `repairLocks`. -/
def repairEach (i : SafeGitInput) (nowMs : ℤ) : List ℕ → List Lock → GitProg Repair
  | _, [] => pure ⟨[], [], []⟩
  | activePids, lock :: locks => do
    let (killedPids, left) ← killStale i lock nowMs activePids
    let repair ← removeLock i lock nowMs (activePids.length > 0) left
    let rest ← repairEach i nowMs left locks
    pure ((Repair.mk [] [] killedPids).append (repair.append rest))

def repairLocks (i : SafeGitInput) (nowMs : ℤ) (locks : List Lock) : GitProg Repair := do
  let activePids ← Prog.query .listGitProcesses
  repairEach i nowMs activePids locks

def repairFound (i : SafeGitInput) (nowMs : ℤ) (locks : List Lock) : GitProg Repair :=
  if locks.length > 0 then repairLocks i nowMs locks else pure ⟨[], [], []⟩

/-! ### Operations in progress -/

def markers : List Marker := [.mergeHead, .cherryPickHead, .revertHead, .rebaseApply, .rebaseMerge]

def Marker.key : Marker → StateKey
  | mergeHead => .merge
  | cherryPickHead => .cherryPick
  | revertHead => .revert
  | rebaseApply | rebaseMerge => .rebase

def StateKey.name : StateKey → String
  | merge => "merge"
  | cherryPick => "cherry-pick"
  | revert => "revert"
  | rebase => "rebase"

def StateKey.description (key : StateKey) : String := key.name ++ " in progress"

def existingMarkers : List Marker → GitProg (List Marker)
  | [] => pure []
  | marker :: rest => do
    let found ← Prog.query (.existsMarker marker)
    let others ← existingMarkers rest
    pure (if found = true then marker :: others else others)

def collectInProgressStates : GitProg (List StateKey) := do
  let found ← existingMarkers markers
  pure ((found.map Marker.key).eraseDups)

def continueFlags : StateKey → List String
  | .merge => ["--abort", "--continue", "--quit"]
  | .rebase => ["--abort", "--continue", "--skip", "--quit", "--edit-todo"]
  | .cherryPick | .revert => ["--abort", "--continue", "--skip", "--quit"]

def commandAllowsState (args : List String) (key : StateKey) : Bool :=
  commandName args = key.name && (args.drop 1).any ((continueFlags key).contains ·)

def evaluateBlockedStates (args : List String) (states : List StateKey) : List StateKey :=
  states.filter fun key => !commandAllowsState args key

/-! ### What a command says -/

def containsText (text pattern : List Char) : Bool := decide (pattern <:+: text.map Char.toLower)

def containsBoth (text first second : List Char) : Bool :=
  (text.map Char.toLower).tails.any fun rest =>
    first.isPrefixOf rest && decide (second <:+:
      (rest.drop first.length).takeWhile fun c => !JsString.isLineTerminator c)

def GitResult.combined (result : GitResult) : List Char :=
  result.stderr.toList ++ '\n' :: result.stdout.toList

/-- `looksLikeLockConflict`: `LOCK_CONFLICT_PATTERNS`. -/
def looksLikeLockConflict (result : GitResult) : Bool :=
  containsText result.combined "another git process seems to be running".toList ||
    containsBoth result.combined "unable to create '".toList ".lock'".toList ||
    containsText result.combined "cannot lock ref".toList ||
    containsText result.combined "could not lock".toList ||
    containsText result.combined "index.lock".toList

/-- `looksLikeInProgressFailure`: `IN_PROGRESS_PATTERNS`. -/
def looksLikeInProgressFailure (result : GitResult) : Bool :=
  containsText result.combined "you have not concluded your merge".toList ||
    containsText result.combined "rebase in progress".toList ||
    containsText result.combined "cherry-pick is already in progress".toList ||
    containsText result.combined "revert is already in progress".toList

/-! ### The attempts -/

def messageHead (args : List String) : String := "[safe-git] git " ++ JsString.join " " args

def buildStateError (args : List String) (states : List StateKey) : String :=
  messageHead args ++ " blocked: " ++ JsString.join ", " (states.map StateKey.description) ++
    ". Resolve operation state (for example git status + --abort/--continue) and retry."

def buildLockError (args : List String) (blocked : List Blocked) (attemptCount : ℕ) : String :=
  messageHead args ++ " blocked by lock(s) after " ++ toString attemptCount ++ " attempt(s): " ++
    JsString.join ", " (blocked.map fun entry => entry.path ++ " (" ++ entry.reason ++ ", age=" ++
      toString entry.ageMs ++ "ms)") ++
    ". Auto-repair is bounded; ensure no git process is running, clear stale lock(s), and retry."

def inProgressError (args : List String) (refreshed : List StateKey) : String :=
  if refreshed.length > 0 then buildStateError args refreshed
  else messageHead args ++
    " failed due to an in-progress operation state. Resolve the state and retry."

inductive AttemptEnd where
  | again
  | returned (result : GitResult)

def settleResult (i : SafeGitInput) (attempt : ℕ) (result : GitResult) : GitProg AttemptEnd :=
  if result.status = some 0 then pure (.returned result)
  else if looksLikeInProgressFailure result then do
    let states ← collectInProgressStates
    Prog.fail (inProgressError i.args (evaluateBlockedStates i.args states))
  else if looksLikeLockConflict result = true ∧ attempt < i.maxAttempts then pure .again
  else pure (.returned result)

def spawnGit (i : SafeGitInput) (attempt : ℕ) : GitProg AttemptEnd := do
  let result ← Prog.query (.spawn i.args)
  settleResult i attempt result

def afterRepair (i : SafeGitInput) (attempt : ℕ) (repair : Repair) : GitProg AttemptEnd :=
  if repair.blocked.length > 0 then
    if attempt ≥ i.maxAttempts then Prog.fail (buildLockError i.args repair.blocked attempt)
    else pure .again
  else spawnGit i attempt

def afterStates (i : SafeGitInput) (attempt : ℕ) (nowMs : ℤ) (locks : List Lock)
    (states : List StateKey) : GitProg AttemptEnd :=
  let blockedStates := evaluateBlockedStates i.args states
  if blockedStates.length > 0 then Prog.fail (buildStateError i.args blockedStates)
  else do
    let repair ← repairFound i nowMs locks
    afterRepair i attempt repair

def runAttempt (i : SafeGitInput) (attempt : ℕ) : GitProg AttemptEnd := do
  let nowMs ← Prog.query .now
  let locks ← collectLockFiles nowMs
  let states ← collectInProgressStates
  afterStates i attempt nowMs locks states

/-- The attempts, with the number of those that are left. The last attempt does not ask for
another one. -/
def runAttempts (i : SafeGitInput) : ℕ → ℕ → GitProg GitResult
  | 0, _ => Prog.fail (messageHead i.args ++ " failed before execution.")
  | left + 1, attempt => do
    let ended ← runAttempt i attempt
    match ended with
    | .returned result => pure result
    | .again => runAttempts i left (attempt + 1)

def resolveGitDir : GitProg String := do
  let gitDir ← Prog.query .resolveGitDir
  Prog.ofExcept gitDir

def runGitWithSafety (i : SafeGitInput) : GitProg GitResult :=
  if i.args = [] then Prog.fail "runGitWithSafety requires at least one git argument."
  else if !isMutatingGitCommand i.args then Prog.query (GitQuery.spawn i.args)
  else do
    let _ ← resolveGitDir
    runAttempts i i.maxAttempts 1

end CompareVI.SafeGit
