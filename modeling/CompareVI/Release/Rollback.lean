import CompareVI.Framework.Ends
import CompareVI.Framework.GitRepo
import CompareVI.Framework.JsString
import Mathlib.Data.List.Sort

/-!
# Rolling a release back

`rollback-release` chooses an earlier release of a stream and, with `--apply`, moves the
mainline and the develop branch of the rollback remote to the commit of its tag, by pushes
with a lease. With `--sync-origin` the same branches of `origin` follow. The report names
every branch with the commit it had before. Where a step throws, the script writes another
report, which holds the error only.

The program asks `RollbackQuery`. Commits are named by texts. What stands outside
(`rollbackService`) is git on the refs of the remotes, where other parties may move any
branch at any time, and any step may throw; it also keeps account of what the pushes did.
-/

open Framework

namespace CompareVI.Release

/-! ### Options and releases -/

/-- The options of `parseArgs` that `runRollback` reads. -/
structure RollbackOptions where
  stream : String
  repo : Option String
  targetTag : Option String
  remote : Option String
  mainBranch : String
  developBranch : String
  maxReleases : ℕ
  apply : Bool
  syncOrigin : Bool
  skipPolicySync : Bool
  deriving DecidableEq

/-- `getReleaseRollbackStreamPolicy`. -/
structure StreamPolicy where
  tagPattern : String
  minimumHistory : ℕ

structure RollbackPolicy where
  remote : String
  streams : String → Option StreamPolicy

/-- The input of a run: the options, the policy if it loads, `GITHUB_REPOSITORY`, and the
owner and the name that the address of a configured remote denotes. `pattern` compiles a
tag pattern, and `parseDate` is `Date.parse`, which may not be a number. -/
structure RollbackInput where
  options : RollbackOptions
  policy : Except String RollbackPolicy
  githubRepository : String
  remotes : String → Option (String × String)
  pattern : String → Except String (String → Bool)
  parseDate : Json → Option ℤ

/-- A release, as `normalizeReleaseRecord` reads it. -/
structure ReleaseRecord where
  tag : String
  isDraft : Bool
  publishedAt : Option Json
  deriving DecidableEq

def normalizeReleaseRecord (raw : Json) : ReleaseRecord :=
  let field := fun key => Json.path (some raw) [key]
  { tag := JsString.trim
      (Json.stringOrEmpty (Json.nullishOr (field "tag_name") (field "tagName")))
    isDraft := Json.truthy (Json.nullishOr (field "draft") (field "isDraft"))
    publishedAt := Json.nullishOr (field "published_at") (field "publishedAt") }

def ReleaseRecord.time (parseDate : Json → Option ℤ) (release : ReleaseRecord) : Option ℤ :=
  if Json.truthy release.publishedAt then release.publishedAt.bind parseDate else some 0

/-- The comparator of `filterReleasesForStream` leaves the two releases in their order: the
right one is not newer. A difference that is not a number counts as none. -/
def keepsOrder (parseDate : Json → Option ℤ) (left right : ReleaseRecord) : Prop :=
  ∀ l ∈ left.time parseDate, ∀ r ∈ right.time parseDate, r ≤ l

instance (parseDate : Json → Option ℤ) (left right : ReleaseRecord) :
    Decidable (keepsOrder parseDate left right) :=
  inferInstanceAs (Decidable (∀ l ∈ left.time parseDate, ∀ r ∈ right.time parseDate, r ≤ l))

def filterReleasesForStream (i : RollbackInput) (releases : List Json)
    (streamPolicy : StreamPolicy) : Except String (List ReleaseRecord) :=
  (i.pattern streamPolicy.tagPattern).map fun matcher =>
    ((releases.map normalizeReleaseRecord).filter fun release =>
      release.tag ≠ "" && !release.isDraft && matcher release.tag).insertionSort
        (keepsOrder i.parseDate)

/-- The result of `resolveRollbackPointer`. -/
structure RollbackPointer where
  strategy : String
  current : Option ReleaseRecord
  target : ReleaseRecord
  deriving DecidableEq

/-- `resolveRollbackPointer`. A stream has a minimum history of two, so that the last case
does not come up. -/
def resolveRollbackPointer (streamReleases : List ReleaseRecord) (streamPolicy : StreamPolicy)
    (targetTag : Option String) : Except String RollbackPointer :=
  match targetTag.filter (· ≠ "") with
  | some tag =>
    match streamReleases.find? fun release => release.tag = tag with
    | none =>
      .error ("Explicit target tag " ++ tag ++ " not found in stream release set.")
    | some explicit => .ok ⟨"explicit-tag", streamReleases.head?, explicit⟩
  | none =>
    if streamReleases.length < streamPolicy.minimumHistory then
      .error ("Insufficient release history for stream (required=" ++
        toString streamPolicy.minimumHistory ++ ", found=" ++
        toString streamReleases.length ++ ").")
    else
      match streamReleases with
      | current :: target :: _ => .ok ⟨"previous-good-release-tag", some current, target⟩
      | _ => .error "Cannot read properties of undefined (reading 'tag')"

def repositorySlug (remote : String × String) : String := remote.1 ++ "/" ++ remote.2

/-- `resolveRepositorySlug`. `resolveUpstream` falls back on the environment once more, which
has no slug here. -/
def resolveRepositorySlug (i : RollbackInput) : Except String String :=
  let envRepo := JsString.trim i.githubRepository
  match i.options.repo.filter fun repo => repo.toList.contains '/' with
  | some repo => .ok repo
  | none =>
    if envRepo.toList.contains '/' then .ok envRepo
    else
      match i.remotes "upstream" with
      | some upstream => .ok (repositorySlug upstream)
      | none =>
        .error ("Unable to determine upstream repository. Configure a remote named " ++
          "\"upstream\" or set GITHUB_REPOSITORY.")

/-- `resolveRollbackRemoteName`: the effective remote. -/
def resolveRollbackRemoteName (i : RollbackInput) (policy : RollbackPolicy)
    (repository : String) : Except String String :=
  let preferredRemote := orText ((i.options.remote).getD "") (orText policy.remote "upstream")
  let configuredRemote := orText (JsString.trim preferredRemote) "upstream"
  let repositorySlug' := JsString.toLowerCase (JsString.trim repository)
  let originSlug := (i.remotes "origin").map fun origin =>
    JsString.toLowerCase (repositorySlug origin)
  if (i.remotes configuredRemote).isSome then .ok configuredRemote
  else if originSlug = some repositorySlug' then .ok "origin"
  else
    .error ("Rollback remote '" ++ configuredRemote ++
      "' is not configured and origin does not match repository '" ++ repository ++ "'.")

/-! ### The steps -/

inductive RollbackQuery where
  | ensureCleanWorkingTree
  | ensureGhCli
  | fetchReleaseRecords (repository : String) (maxReleases : ℕ)
  | fetchRemoteRefs (remote : String) (branches : List String)
  | resolveTagCommit (tag : String)
  | tryResolveRef (remote branch : String)
  | push (remote branch targetCommit leaseCommit : String)
  | policySync
  deriving DecidableEq

/-- What a step gives that does not throw. The policy sync gives its exit status, `none`
where it was killed. -/
def RollbackQuery.Reply : RollbackQuery → Type
  | fetchReleaseRecords .. => List Json
  | resolveTagCommit _ => String
  | tryResolveRef .. => Option String
  | policySync => Option ℤ
  | _ => Unit

abbrev RollbackProg (α : Type) : Type :=
  Prog RollbackQuery (fun q => Except String q.Reply) α

abbrev ask (q : RollbackQuery) : RollbackProg q.Reply := Prog.call q

/-- `fetchReleaseRecords`. -/
abbrev fetchReleaseRecords (repository : String) (maxReleases : ℕ) : RollbackProg (List Json) :=
  ask (.fetchReleaseRecords repository maxReleases)

/-- `fetchRemoteRefs`. -/
abbrev fetchRemoteRefs (remote : String) (branches : List String) : RollbackProg Unit :=
  ask (.fetchRemoteRefs remote branches)

/-- `resolveTagCommit`. -/
abbrev resolveTagCommit (tag : String) : RollbackProg String := ask (.resolveTagCommit tag)

/-- `tryResolveRef`. -/
abbrev tryResolveRef (remote branch : String) : RollbackProg (Option String) :=
  ask (.tryResolveRef remote branch)

/-- `ensureCleanWorkingTree`. -/
abbrev ensureCleanWorkingTree : RollbackProg Unit := ask .ensureCleanWorkingTree

/-- `ensureGhCli`. -/
abbrev ensureGhCli : RollbackProg Unit := ask .ensureGhCli

abbrev policySyncStatus : RollbackProg (Option ℤ) := ask .policySync

structure BranchRollback where
  name : String
  remote : String
  before : Option String
  after : Option String
  pushed : Bool
  matchesTarget : Bool
  deriving DecidableEq

structure RollbackFailure where
  code : String
  message : String
  deriving DecidableEq

structure PolicySyncResult where
  executed : Bool
  status : String
  exitCode : ℤ
  deriving DecidableEq

inductive RollbackMode where
  | apply
  | dryRun
  | error
  deriving DecidableEq, Repr

/-- The report of a run. The parts that repeat the options, the pointer's texts and the
summary that counts the failures are left out. -/
structure RollbackReport where
  mode : RollbackMode
  remote : Option String
  target : Option (String × String)
  branches : List BranchRollback
  originSync : Option (List BranchRollback)
  policySync : Option PolicySyncResult
  failures : List RollbackFailure
  deriving DecidableEq

/-- `summary.status` is `pass`. -/
def RollbackReport.Passed (report : RollbackReport) : Prop := report.failures = []

def forcePushBranch (remote branch targetCommit : String) :
    Option String → RollbackProg Unit
  | none => .fail ("Unable to resolve remote lease commit for " ++ remote ++ "/" ++ branch ++ ".")
  | some leaseCommit => ask (.push remote branch targetCommit leaseCommit)

def resolveBefore (remote name : String) : RollbackProg BranchRollback := do
  let before ← tryResolveRef remote name
  pure ⟨name, remote, before, none, false, false⟩

def pushBranch (remote targetCommit : String) (branch : BranchRollback) :
    RollbackProg BranchRollback := do
  forcePushBranch remote branch.name targetCommit branch.before
  pure { branch with pushed := true }

/-- Push one branch of `origin`, unless it does not exist there. -/
def pushOriginBranch (targetCommit : String) (branch : BranchRollback) :
    RollbackProg BranchRollback :=
  if branch.before.isSome then pushBranch "origin" targetCommit branch else pure branch

def resolveAfter (apply : Bool) (targetCommit : String) (branch : BranchRollback) :
    RollbackProg BranchRollback := do
  let after ← tryResolveRef branch.remote branch.name
  pure { branch with after := after, matchesTarget := apply && decide (after = some targetCommit) }

/-- `expected … but found …`. -/
def mismatchMessage (targetCommit : String) (branch : BranchRollback) : String :=
  branch.remote ++ "/" ++ branch.name ++ " expected " ++ targetCommit ++ " but found " ++
    branch.after.getD "<missing>" ++ "."

/-- `runPolicySync`, from the exit status. -/
def policySyncResult (status : Option ℤ) : PolicySyncResult where
  executed := true
  status := if status = some 0 then "pass" else "fail"
  exitCode := status.getD 1

def policySyncSkipped : PolicySyncResult := ⟨false, "skipped", 0⟩

/-- `evaluateRollbackValidation`: the failures. -/
def evaluateRollbackValidation (branches : List BranchRollback) (targetCommit : String)
    (policySync : PolicySyncResult) : List RollbackFailure :=
  ((branches.filter fun branch => !branch.matchesTarget).map fun branch =>
    ⟨"branch-not-at-target", mismatchMessage targetCommit branch⟩) ++
  if policySync.executed && policySync.status ≠ "pass" then
    [⟨"policy-sync-failed",
      "priority:policy:sync exited with code " ++ toString policySync.exitCode ++ "."⟩]
  else []

/-- The failures of `origin` branches that are missing. -/
def originMissing (branches : List BranchRollback) : List RollbackFailure :=
  (branches.filter fun branch => branch.before.isNone).map fun branch =>
    ⟨"origin-branch-missing", "origin/" ++ branch.name ++ " does not exist for sync-origin."⟩

/-- The failures of `origin` branches that were pushed and are not at the target. -/
def originMismatch (branches : List BranchRollback) (targetCommit : String) :
    List RollbackFailure :=
  (branches.filter fun branch => branch.pushed && !branch.matchesTarget).map fun branch =>
    ⟨"origin-sync-mismatch", mismatchMessage targetCommit branch⟩

def applyBranches (remote targetCommit : String) (targetBranches : List String)
    (branches : List BranchRollback) : RollbackProg (List BranchRollback) := do
  let pushed ← Prog.mapList (pushBranch remote targetCommit) branches
  fetchRemoteRefs remote targetBranches
  pure pushed

/-- Move the branches of `origin`. -/
def syncOrigin (targetCommit : String) (targetBranches : List String) :
    RollbackProg (List BranchRollback) := do
  let branches ← Prog.mapList (resolveBefore "origin") targetBranches
  let pushed ← Prog.mapList (pushOriginBranch targetCommit) branches
  fetchRemoteRefs "origin" targetBranches
  Prog.mapList (resolveAfter true targetCommit) pushed

def RollbackOptions.targetBranches (options : RollbackOptions) : List String :=
  [options.mainBranch, options.developBranch]

def rollBranches (options : RollbackOptions) (rollbackRemote targetCommit : String)
    (branches : List BranchRollback) : RollbackProg (List BranchRollback) := do
  let pushed ← if options.apply then
      applyBranches rollbackRemote targetCommit options.targetBranches branches
    else pure branches
  Prog.mapList (resolveAfter options.apply targetCommit) pushed

/-- The branches of `origin`, if they are to follow. -/
def rollOrigin (options : RollbackOptions) (targetCommit : String) :
    RollbackProg (Option (List BranchRollback)) :=
  if options.apply && options.syncOrigin then do
    let synced ← syncOrigin targetCommit options.targetBranches
    pure (some synced)
  else pure none

def rollPolicy (options : RollbackOptions) : RollbackProg PolicySyncResult :=
  if options.apply && !options.skipPolicySync then do
    let status ← policySyncStatus
    pure (policySyncResult status)
  else pure policySyncSkipped

def rollbackReport (options : RollbackOptions) (rollbackRemote tag targetCommit : String)
    (branches : List BranchRollback) (originSync : Option (List BranchRollback))
    (policySync : PolicySyncResult) : RollbackReport where
  mode := if options.apply then .apply else .dryRun
  remote := some rollbackRemote
  target := some (tag, targetCommit)
  branches := branches
  originSync := originSync
  policySync := some policySync
  failures :=
    originMissing (originSync.getD []) ++
    (if options.apply then evaluateRollbackValidation branches targetCommit policySync else []) ++
    originMismatch (originSync.getD []) targetCommit

/-- The rollback itself, once the remote and the target release are known. -/
def rollbackTo (options : RollbackOptions) (rollbackRemote tag : String) :
    RollbackProg RollbackReport := do
  fetchRemoteRefs rollbackRemote options.targetBranches
  let targetCommit ← resolveTagCommit tag
  let before ← Prog.mapList (resolveBefore rollbackRemote) options.targetBranches
  let branches ← rollBranches options rollbackRemote targetCommit before
  let originSync ← rollOrigin options targetCommit
  let policySync ← rollPolicy options
  pure (rollbackReport options rollbackRemote tag targetCommit branches originSync policySync)

/-- What a run knows before it reaches outside: the stream, the repository and the remote. -/
def rollbackPlan (i : RollbackInput) : Except String (StreamPolicy × String × String) := do
  let policy ← i.policy
  let streamPolicy ← match policy.streams (JsString.trim i.options.stream) with
    | some streamPolicy => pure streamPolicy
    | none => throw ("Unsupported rollback stream: " ++ JsString.trim i.options.stream)
  let repository ← resolveRepositorySlug i
  let rollbackRemote ← resolveRollbackRemoteName i policy repository
  pure (streamPolicy, repository, rollbackRemote)

def rollbackTarget (i : RollbackInput) (streamPolicy : StreamPolicy) (releases : List Json) :
    Except String RollbackPointer := do
  let streamReleases ← filterReleasesForStream i releases streamPolicy
  resolveRollbackPointer streamReleases streamPolicy i.options.targetTag

def runRollback (i : RollbackInput) : RollbackProg RollbackReport := do
  let plan ← Prog.ofExcept (rollbackPlan i)
  let releases ← fetchReleaseRecords plan.2.1 i.options.maxReleases
  let pointer ← Prog.ofExcept (rollbackTarget i plan.1 releases)
  rollbackTo i.options plan.2.2 pointer.target.tag

/-- The streams that `main` takes. -/
def ensureStream (options : RollbackOptions) : RollbackProg Unit :=
  if ["stable", "rc", "lts"].contains options.stream then pure ()
  else .fail ("Unsupported stream: " ++ options.stream)

/-- `main` asks for a clean working tree before it applies anything. -/
def ensureClean (options : RollbackOptions) : RollbackProg Unit :=
  if options.apply then ensureCleanWorkingTree else pure ()

/-- `main`, up to the report. -/
def main (i : RollbackInput) : RollbackProg RollbackReport := do
  ensureStream i.options
  ensureClean i.options
  ensureGhCli
  runRollback i

/-- The report that the script writes where `main` throws. -/
def executionError (message : String) : RollbackReport :=
  ⟨.error, none, none, [], none, none, [⟨"execution-error", message⟩]⟩

/-- The report of a run, from how `main` ends. -/
def finalReport : Except String RollbackReport → RollbackReport
  | .ok report => report
  | .error message => executionError message

def rollbackRelease (i : RollbackInput) : RollbackProg RollbackReport := do
  let result ← (main i).caught
  pure (finalReport result)

/-! ### The outside -/

/-- A branch that a push moved: the commit it was at just before, the commit it was moved
to, and the commit it was at when the run fetched it last. -/
structure Landed where
  remote : String
  branch : String
  replaced : Option String
  commit : String
  fetched : Option String
  deriving DecidableEq

/-- The branches of the remotes, the remote-tracking branches and the tags, and the account
of what the run did. -/
structure RollbackWorld where
  branches : String → String → Option String
  tracking : String → String → Option String
  tags : String → Option String
  fetched : String → String → Option String
  landed : List Landed
  pushing : Bool
  failed : Bool
  /-- Before any push was asked for, a branch could not be resolved. -/
  missing : Bool

namespace RollbackWorld

/-- The world in which a run starts: it has not done anything. -/
structure Starts (world : RollbackWorld) : Prop where
  fetched : world.fetched = fun _ _ => none
  landed : world.landed = []
  pushing : world.pushing = false
  failed : world.failed = false
  missing : world.missing = false

def land (world : RollbackWorld) (remote branch commit : String) : RollbackWorld :=
  { world with
    branches := Function.update world.branches remote
      (Function.update (world.branches remote) branch (some commit))
    tracking := Function.update world.tracking remote
      (Function.update (world.tracking remote) branch (some commit))
    landed := world.landed ++
      [⟨remote, branch, world.branches remote branch, commit, world.fetched remote branch⟩]
    pushing := true }

/-- A push with a lease is accepted where the branch is at the lease, and where there is
nothing to push. -/
def Accepts (world : RollbackWorld) (remote branch targetCommit leaseCommit : String) : Prop :=
  world.branches remote branch = some leaseCommit ∨
    world.branches remote branch = some targetCommit

/-- A fetch brings the branches that are named; what it does to the other remote-tracking
branches of the remote is left open. -/
structure Fetches (world after : RollbackWorld) (remote : String) (names : List String) :
    Prop where
  branches : after.branches = world.branches
  tags : after.tags = world.tags
  landed : after.landed = world.landed
  pushing : after.pushing = world.pushing
  failed : after.failed = world.failed
  missing : after.missing = world.missing
  tracking : ∀ name ∈ names, after.tracking remote name = world.branches remote name
  fetched : ∀ name ∈ names, after.fetched remote name = world.branches remote name
  otherTracking : ∀ other ≠ remote, after.tracking other = world.tracking other
  otherFetched : ∀ other ≠ remote, after.fetched other = world.fetched other

end RollbackWorld

def RollbackSucceeds (world after : RollbackWorld) : (q : RollbackQuery) → q.Reply → Prop
  | .fetchRemoteRefs remote names => fun _ => world.Fetches after remote names
  | .resolveTagCommit tag => fun commit => after = world ∧ world.tags tag = some commit
  | .tryResolveRef remote branch => fun commit =>
    (commit = world.tracking remote branch ∨ commit = none) ∧
      after = { world with missing := world.missing || (commit.isNone && !world.pushing) }
  | .push remote branch targetCommit leaseCommit => fun _ =>
    world.Accepts remote branch targetCommit leaseCommit ∧
      after = world.land remote branch targetCommit
  | _ => fun _ => after = world

def RollbackThrows (world after : RollbackWorld) : RollbackQuery → Prop
  | .push remote branch targetCommit leaseCommit =>
    after = { world with failed := true } ∨
      world.Accepts remote branch targetCommit leaseCommit ∧
        after = { world.land remote branch targetCommit with failed := true }
  | _ => after = { world with failed := true }

def RollbackAnswers (world after : RollbackWorld) :
    (q : RollbackQuery) → Except String q.Reply → Prop
  | q, .ok reply => RollbackSucceeds world after q reply
  | q, .error _ => RollbackThrows world after q

def rollbackService : Service RollbackWorld fun q : RollbackQuery => Except String q.Reply :=
  fun world q answer after =>
    ∃ branches, RollbackAnswers { world with branches := branches } after q answer

end CompareVI.Release
