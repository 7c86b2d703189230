import CompareVI.Delivery.Clearance
import CompareVI.Framework.Trace
import CompareVI.Refresh.Commits

/-!
# Synchronising the branch of a pull request

`updatePullRequestBranch` asks GitHub to update the branch of a pull request. If that fails
for a reason that is no conflict, and the working tree is clean, it fetches the base and the
branch, checks the branch out, rebases it and force-pushes the result.

`gitSync` is git as its commands are documented, on the refs of the working repository, on
whether the working tree is clean and whether a rebase is in progress; other parties may
push to the remotes at any time. As in the queue refresh, a checkout lands on the local
branch, where there is one, and the lease of the push compares with what was just fetched.

A rebase that stops is aborted only if its message speaks of a conflict.
-/

open Framework

namespace CompareVI.Delivery

/-! ### Input and results -/

structure SyncPullRequest where
  number : Option Json
  url : Option Json
  headRefName : Option Json
  baseRefName : Option Json
  deriving DecidableEq

structure SyncInput where
  repository : Option Json
  pullRequest : Option SyncPullRequest
  /-- `branch.name`. -/
  branchName : Option Json
  /-- `evidence.lane.branch`. -/
  laneBranch : Option Json
  deriving DecidableEq

/-- The values of a result's `outcome`. -/
inductive SyncOutcome where
  | branchUpdated
  | rateLimit
  | branchSyncFailed
  | branchSyncBlocked
  deriving DecidableEq, Repr

/-- The values of `nextWakeCondition`. -/
inductive SyncWake where
  | checksGreen
  | githubRateLimitReset
  | branchSyncRetry
  | manualConflictResolution
  deriving DecidableEq, Repr

/-- The values of `blockerClass`. -/
inductive SyncBlocker where
  | ci
  | rateLimit
  | merge
  deriving DecidableEq, Repr

structure SyncResult where
  status : TurnStatus
  outcome : SyncOutcome
  reason : String
  /-- The lane's lifecycle is `blocked`, and not `waiting-ci`. -/
  laneBlocked : Bool
  blockerClass : SyncBlocker
  retryable : Bool
  nextWakeCondition : SyncWake
  helperCallsExecuted : List String
  deriving DecidableEq, Repr

/-! ### The outside -/

inductive SyncQuery where
  /-- `gh pr update-branch`. -/
  | updateBranch (number : ℕ) (repository : String)
  /-- `git status --porcelain`. -/
  | status
  | fetch (remote ref : String)
  /-- `git fetch upstream +base:refs/remotes/upstream/base`. -/
  | forceFetch (base : String)
  | checkout (branch : String)
  /-- `git rebase upstream/base`. -/
  | rebase (base : String)
  | rebaseAbort
  /-- `git push --force-with-lease origin HEAD:branch`. -/
  | push (branch : String)
  deriving DecidableEq, Repr

abbrev SyncAnswer (_ : SyncQuery) : Type := CommandResult

abbrev SyncM := Prog SyncQuery SyncAnswer

abbrev SyncQuery.run (q : SyncQuery) : SyncM CommandResult := Prog.query q

/-! ### What is computed -/

def extractGitResultMessage (result : CommandResult) : String := result.complaint ""

def isUpstreamRefRaceMessage (message : String) : Bool :=
  let cs := (JsString.trim message).toList
  Merge.occurs "incorrect old value provided" cs ||
    ["", "'", "\""].any fun quote =>
      Merge.occurs ("cannot lock ref " ++ quote ++ "refs/remotes/upstream/develop") cs

/-- The message of `gh` that speaks of a conflict, a rebase or a merge. -/
def isMergeBlocked (message : String) : Bool :=
  ["conflict", "rebase", "merge"].any fun literal => Merge.occurs literal message.toList

/-- The message of `git rebase` that speaks of a conflict. -/
def isRebaseConflict (message : String) : Bool :=
  ["conflict", "could not apply", "resolve all conflicts"].any fun literal =>
    Merge.occurs literal message.toList

def failureMessage (result : CommandResult) (command : String) : String :=
  result.complaint (command ++ " failed (" ++ toString result.status ++ ")")

def rebaseMessage (result : CommandResult) : String := failureMessage result "git rebase"

namespace SyncInput

def prNumber (input : SyncInput) : Option ℕ :=
  PullRequestRef.resolve (input.pullRequest.map fun pr => ⟨pr.number, pr.url⟩)

/-- `branchName`. -/
def branch (input : SyncInput) : Option String :=
  ((optionText (input.pullRequest.bind (·.headRefName))).or
    (optionText input.branchName)).or (optionText input.laneBranch)

/-- `baseRefName`. -/
def base (input : SyncInput) : String :=
  (optionText (input.pullRequest.bind (·.baseRefName))).getD "develop"

end SyncInput

def branchUpdated (number : ℕ) (calls : List String) : SyncResult where
  status := .completed
  outcome := .branchUpdated
  reason := "Updated PR #" ++ toString number ++ " with the latest base branch."
  laneBlocked := false
  blockerClass := .ci
  retryable := true
  nextWakeCondition := .checksGreen
  helperCallsExecuted := calls

def retryLater (message : String) (calls : List String) : SyncResult where
  status := .blocked
  outcome := if isRateLimitMessage message then .rateLimit else .branchSyncFailed
  reason := message
  laneBlocked := false
  blockerClass := if isRateLimitMessage message then .rateLimit else .ci
  retryable := true
  nextWakeCondition :=
    if isRateLimitMessage message then .githubRateLimitReset else .branchSyncRetry
  helperCallsExecuted := calls

def rebaseBlocked (message : String) (calls : List String) : SyncResult :=
  let conflict := isRebaseConflict message
  { status := .blocked
    outcome := if conflict then .branchSyncBlocked else .branchSyncFailed
    reason := message
    laneBlocked := conflict
    blockerClass := if conflict then .merge else .ci
    retryable := !conflict
    nextWakeCondition := if conflict then .manualConflictResolution else .branchSyncRetry
    helperCallsExecuted := calls }

/-- The result when GitHub did not update the branch, and git is not tried. -/
def updateBlocked (message : String) : SyncResult :=
  let limited := isRateLimitMessage message
  let mergeBlocked := isMergeBlocked message
  { status := .blocked
    outcome :=
      if limited then .rateLimit else if mergeBlocked then .branchSyncBlocked
      else .branchSyncFailed
    reason := message
    laneBlocked := mergeBlocked
    blockerClass := if limited then .rateLimit else if mergeBlocked then .merge else .ci
    retryable := limited || !mergeBlocked
    nextWakeCondition :=
      if limited then .githubRateLimitReset else if mergeBlocked then .manualConflictResolution
      else .branchSyncRetry
    helperCallsExecuted := ["gh pr update-branch"] }

/-! ### The synchronisation -/

/-- What `refreshUpstreamTrackingRef` returns. -/
structure UpstreamRefresh where
  result : CommandResult
  attempts : List String
  initialMessage : String
  deriving DecidableEq, Repr

/-- `refreshUpstreamTrackingRef`: a fetch that lost a race for the ref is forced. -/
def refreshUpstreamTrackingRef (base : String) : SyncM UpstreamRefresh := do
  let initial ← SyncQuery.run (.fetch "upstream" base)
  let attempt := JsString.trim ("git fetch upstream " ++ base)
  if initial.status = 0 then pure ⟨initial, [attempt], ""⟩
  else if isUpstreamRefRaceMessage (extractGitResultMessage initial) then do
    let forced ← SyncQuery.run (.forceFetch base)
    pure ⟨forced, [attempt, JsString.trim ("git fetch upstream +" ++ base ++
      ":refs/remotes/upstream/" ++ base)], extractGitResultMessage initial⟩
  else pure ⟨initial, [attempt], extractGitResultMessage initial⟩

def UpstreamRefresh.message (refresh : UpstreamRefresh) : String :=
  orText (JsString.trim refresh.initialMessage)
    (failureMessage refresh.result "git fetch upstream")

def pushRebased (number : ℕ) (branch : String) (calls : List String) : SyncM SyncResult := do
  let push ← SyncQuery.run (.push branch)
  let calls := calls ++ ["git push --force-with-lease origin HEAD:" ++ branch]
  if push.status = 0 then pure (branchUpdated number calls)
  else pure (retryLater (failureMessage push "git push") calls)

def abortRebase (rebase : CommandResult) (calls : List String) : SyncM SyncResult :=
  if isRebaseConflict (rebaseMessage rebase) then do
    let abort ← SyncQuery.run .rebaseAbort
    pure (rebaseBlocked (rebaseMessage rebase)
      (calls ++ if abort.status = 0 then ["git rebase --abort"] else []))
  else pure (rebaseBlocked (rebaseMessage rebase) calls)

def rebaseBranch (number : ℕ) (base branch : String) (calls : List String) :
    SyncM SyncResult := do
  let rebase ← SyncQuery.run (.rebase base)
  let calls := calls ++ ["git rebase upstream/" ++ base]
  if rebase.status = 0 then pushRebased number branch calls
  else abortRebase rebase calls

def checkoutBranch (number : ℕ) (base branch : String) (calls : List String) :
    SyncM SyncResult := do
  let checkout ← SyncQuery.run (.checkout branch)
  let calls := calls ++ ["git checkout " ++ branch]
  if checkout.status = 0 then rebaseBranch number base branch calls
  else pure (retryLater (failureMessage checkout "git checkout") calls)

def fetchBranch (number : ℕ) (base branch : String) (calls : List String) :
    SyncM SyncResult := do
  let fetch ← SyncQuery.run (.fetch "origin" branch)
  let calls := calls ++ ["git fetch origin " ++ branch]
  if fetch.status = 0 then checkoutBranch number base branch calls
  else pure (retryLater (failureMessage fetch "git fetch origin") calls)

def rebaseLocally (number : ℕ) (base branch : String) : SyncM SyncResult := do
  let refresh ← refreshUpstreamTrackingRef base
  let calls := "gh pr update-branch" :: refresh.attempts
  if refresh.result.status = 0 then fetchBranch number base branch calls
  else pure (retryLater refresh.message calls)

/-- What follows a `gh pr update-branch` that failed: the rebase is tried if the message names
neither a limit nor a conflict, and the working tree is clean. -/
def fallBack (number : ℕ) (base : String) (branch : Option String) (message : String) :
    SyncM SyncResult :=
  if isRateLimitMessage message || isMergeBlocked message then pure (updateBlocked message)
  else
    match branch with
    | none => pure (updateBlocked message)
    | some name => do
      let workspace ← SyncQuery.run .status
      if workspace.status = 0 ∧ JsString.trim workspace.stdout = "" then
        rebaseLocally number base name
      else pure (updateBlocked message)

def updatePullRequestBranch (input : SyncInput) : SyncM SyncResult :=
  match input.prNumber with
  | none => .fail "Branch sync action requires repository and pull request number."
  | some number =>
    if normalizeText input.repository = "" then
      .fail "Branch sync action requires repository and pull request number."
    else do
      let update ← SyncQuery.run (.updateBranch number (normalizeText input.repository))
      if update.status = 0 then pure (branchUpdated number ["gh pr update-branch"])
      else fallBack number input.base input.branch (failureMessage update "pr update-branch")

/-! ### Git -/

variable {C Δ : Type}

/-- The working repository, and the branches of the remotes. -/
structure SyncWorld (C : Type) where
  repo : LocalRepo C
  clean : Bool
  /-- Where `HEAD` was when the rebase in progress was started. -/
  rebasing : Option (Head C)
  remotes : String → String → Option C

/-- What a command does that exits with status 0.

* A plain checkout of a name that is no local branch creates the branch from the only
  remote-tracking branch of that name.
* An abort goes back to where the rebase was started.
* A push with a lease needs the branch of the remote to be where the remote-tracking branch is. -/
def SyncSucceeds (G : CommitGraph C Δ) (world : SyncWorld C) (stdout : String)
    (after : SyncWorld C) : SyncQuery → Prop
  | .updateBranch _ _ => after = world
  | .status => after = world ∧ (JsString.trim stdout = "" ↔ world.clean = true)
  | .fetch remote ref => ∃ commit, world.remotes remote ref = some commit ∧
      after = { world with repo := world.repo.fetch remote ref commit }
  | .forceFetch base => ∃ commit, world.remotes "upstream" base = some commit ∧
      after = { world with repo := world.repo.fetch "upstream" base commit }
  | .checkout branch =>
      (world.repo.heads branch ≠ none ∧ after = { world with repo := world.repo.switch branch }) ∨
      world.repo.heads branch = none ∧ ∃ remote commit,
        world.repo.tracking remote branch = some commit ∧
        (∀ other, world.repo.tracking other branch ≠ none → other = remote) ∧
        after = { world with repo := world.repo.create branch commit }
  | .rebase base => world.rebasing = none ∧ ∃ upstream own result,
      world.repo.tracking "upstream" base = some upstream ∧ world.repo.current = some own ∧
      G.Rebased upstream own result ∧ after = { world with repo := world.repo.move result }
  | .rebaseAbort => ∃ head clean, world.rebasing = some head ∧
      after = { world with
        repo := { world.repo with head := head }
        clean := clean
        rebasing := none }
  | .push branch => ∃ commit lease, world.repo.current = some commit ∧
      world.repo.tracking "origin" branch = some lease ∧
      world.remotes "origin" branch = some lease ∧
      after = { world with
        repo := world.repo.track "origin" branch commit
        remotes := Function.update world.remotes "origin"
          (Function.update (world.remotes "origin") branch (some commit)) }

/-- What a command does that fails: a rebase may stop on the way, and everything else leaves the
repository alone. -/
def SyncFails (world after : SyncWorld C) : SyncQuery → Prop
  | .rebase _ => after = world ∨ world.rebasing = none ∧ ∃ stopped clean,
      after = { world with
        repo := { world.repo with head := .detached stopped }
        clean := clean
        rebasing := some world.repo.head }
  | _ => after = world

def gitSync (G : CommitGraph C Δ) : Service (SyncWorld C) SyncAnswer :=
  fun world q answer after => ∃ remotes,
    if answer.status = 0 then
      SyncSucceeds G { world with remotes := remotes } answer.stdout after q
    else SyncFails { world with remotes := remotes } after q

/-! ### The law -/

abbrev SyncStep (C : Type) := Step (SyncWorld C) SyncAnswer

/-- Every commit of the head that was fetched is contained, up to rebasing, in the head that is
pushed. -/
def KeepsFetched (G : CommitGraph C Δ) (step : SyncStep C) : Prop :=
  ∀ fetched pushed, step.before.repo.fetchHead = some fetched →
    step.before.repo.current = some pushed →
      ∀ commit, G.Reaches fetched commit → G.Contains pushed commit

/-- The working tree was clean, and a rebase succeeded. -/
def PushAllowed (pre : List (SyncStep C)) : Prop :=
  (∃ step ∈ pre, step.query = .status ∧ step.answer.status = 0 ∧ step.before.clean = true) ∧
    ∃ step ∈ pre, ∃ base, step.query = .rebase base ∧ step.answer.status = 0

/-- A branch that is updated by a push loses no commit, nothing is pushed without need, and a
result that is blocked leaves no rebase in progress. -/
structure SyncLaw (G : CommitGraph C Δ) (start : SyncWorld C) (steps : List (SyncStep C))
    (after : SyncWorld C) (r : Except String SyncResult) : Prop where
  kept : ∀ result, r = .ok result → result.outcome = .branchUpdated →
    ∀ step ∈ steps, ∀ branch, step.query = .push branch → KeepsFetched G step
  guarded : ∀ pre step post, steps = pre ++ step :: post →
    ∀ branch, step.query = .push branch → PushAllowed pre
  settled : start.rebasing = none → ∀ result, r = .ok result → result.status = .blocked →
    after.rebasing = none

/-- Whenever a push succeeds: if there was a local branch of that name at the start, it had all
changes of the fetched head that the base branch does not have. -/
def LocalCurrent (G : CommitGraph C Δ) (base : String) (start : SyncWorld C)
    (steps : List (SyncStep C)) : Prop :=
  ∀ step ∈ steps, ∀ branch, step.query = .push branch → step.answer.status = 0 →
    ∀ fetched own upstream, step.before.repo.fetchHead = some fetched →
      start.repo.heads branch = some own →
      step.before.repo.tracking "upstream" base = some upstream →
        G.changes fetched ⊆ G.changes upstream ∪ G.changes own

/-- A rebase that stops speaks of a conflict, and its abort succeeds. -/
def StopsAborted (start : SyncWorld C) (steps : List (SyncStep C)) : Prop :=
  start.rebasing = none → ∀ step ∈ steps, ∀ base, step.query = .rebase base →
    step.after.rebasing ≠ none → isRebaseConflict (rebaseMessage step.answer) = true ∧
      ∃ abort ∈ steps, abort.query = .rebaseAbort ∧ abort.answer.status = 0

/-! ### The stages of a run -/

section Stages

attribute [local irreducible] isRateLimitMessage isRebaseConflict isMergeBlocked
  isUpstreamRefRaceMessage extractGitResultMessage failureMessage normalizeText JsString.trim

variable {G : CommitGraph C Δ} {base branch : String} {start world : SyncWorld C}
  {h : List (SyncStep C)} {step : SyncStep C} {number : ℕ} {calls : List String}

def SyncQuery.quiet : SyncQuery → Bool
  | .rebase _ | .rebaseAbort | .push _ => false
  | _ => true

/-- Nothing was rebased or pushed so far. -/
def SyncQuiet (h : List (SyncStep C)) : Prop := ∀ step ∈ h, step.query.quiet = true

/-- The working tree was found clean. -/
def FoundClean (h : List (SyncStep C)) : Prop :=
  ∃ step ∈ h, step.query = .status ∧ step.answer.status = 0 ∧ step.before.clean = true

theorem SyncQuiet.snoc (hquiet : SyncQuiet h) (hq : step.query.quiet = true) :
    SyncQuiet (h ++ [step]) := by
  intro other hother
  rcases List.mem_append.mp hother with hother | hother
  · exact hquiet other hother
  · rw [List.mem_singleton.mp hother]
    exact hq

variable {q : SyncQuery} {after : SyncWorld C}

theorem SyncQuiet.query_ne (hquiet : SyncQuiet h) (hstep : step ∈ h) (hq : q.quiet = false) :
    step.query ≠ q := by
  intro heq
  have hcontra := hquiet step hstep
  rw [heq, hq] at hcontra
  exact Bool.noConfusion hcontra

theorem FoundClean.append {new : List (SyncStep C)} (hclean : FoundClean h) :
    FoundClean (h ++ new) := by
  obtain ⟨step, hstep, hrest⟩ := hclean
  exact ⟨step, List.mem_append_left _ hstep, hrest⟩

/-- Before the checkout: the local branches are those of the start. -/
structure Untouched (start world : SyncWorld C) (h : List (SyncStep C)) : Prop where
  quiet : SyncQuiet h
  clean : FoundClean h
  heads : world.repo.heads = start.repo.heads
  rebasing : world.rebasing = start.rebasing

structure BranchFetched (start world : SyncWorld C) (branch : String) (h : List (SyncStep C)) :
    Prop extends Untouched start world h where
  fetched : ∃ commit, world.repo.fetchHead = some commit ∧
    world.repo.tracking "origin" branch = some commit

/-- The branch is checked out: the local one, where there is one. -/
structure CheckedOut (start world : SyncWorld C) (branch : String) (h : List (SyncStep C)) :
    Prop where
  quiet : SyncQuiet h
  clean : FoundClean h
  rebasing : world.rebasing = start.rebasing
  current : ∃ commit, world.repo.fetchHead = some commit ∧
    world.repo.current = some ((start.repo.heads branch).getD commit)

/-- What is checked out has the changes of the base, and those of the local branch, or else of
the head that was fetched. -/
def ReadyForPush (G : CommitGraph C Δ) (start : SyncWorld C) (base branch : String)
    (repo : LocalRepo C) : Prop :=
  ∃ fetched upstream pushed, repo.fetchHead = some fetched ∧
    repo.tracking "upstream" base = some upstream ∧ repo.current = some pushed ∧
    G.changes pushed = G.changes upstream ∪ G.changes ((start.repo.heads branch).getD fetched)

/-- The branch is rebased. -/
structure RebaseDone (G : CommitGraph C Δ) (start world : SyncWorld C) (base branch : String)
    (h : List (SyncStep C)) : Prop where
  ready : ReadyForPush G start base branch world.repo
  clean : FoundClean h
  rebased : ∃ step ∈ h, step.query = .rebase base ∧ step.answer.status = 0
  rebases : ∀ step ∈ h, ∀ base, step.query = .rebase base → step.after.rebasing = none
  unpushed : ∀ step ∈ h, ∀ branch, step.query ≠ .push branch
  rebasing : world.rebasing = none

/-- What a push is asked after. -/
def SyncGuard (G : CommitGraph C Δ) (start : SyncWorld C) (base : String)
    (s : SyncWorld C × List (SyncStep C)) (q : SyncQuery) : Prop :=
  ∀ branch, q = .push branch → ReadyForPush G start base branch s.1.repo ∧ PushAllowed s.2

/-- How a run ends. -/
structure SyncEnd (start world : SyncWorld C) (h : List (SyncStep C))
    (r : Except String SyncResult) : Prop where
  updated : ∀ step ∈ h, ∀ branch, step.query = .push branch →
    (step.answer.status = 0 ↔ ∃ result, r = .ok result ∧ result.outcome = .branchUpdated)
  settled : start.rebasing = none →
    ((∀ result, r = .ok result → result.status = .blocked → world.rebasing = none) ↔
      StopsAborted start h)

/-- The programs of a run, as the law looks at them. -/
abbrev SyncEnsures (G : CommitGraph C Δ) (start : SyncWorld C) (base : String) (world : SyncWorld C)
    (h : List (SyncStep C)) (p : SyncM SyncResult) : Prop :=
  Ensures (traced (gitSync G)) (SyncGuard G start base) (fun s r => SyncEnd start s.1 s.2 r)
    (world, h) p

theorem syncGuard_of_ne {s : SyncWorld C × List (SyncStep C)} (hq : ∀ branch, q ≠ .push branch) :
    SyncGuard G start base s q :=
  fun branch heq => absurd heq (hq branch)

theorem SyncQuiet.syncEnd (hquiet : SyncQuiet h) (hrebasing : world.rebasing = start.rebasing)
    (r : Except String SyncResult) : SyncEnd start world h r := by
  refine ⟨fun step hstep branch hq => absurd hq (hquiet.query_ne hstep rfl), fun hnone => ?_⟩
  exact iff_of_true (fun _ _ _ => hrebasing.trans hnone)
    fun _ step hstep base hq => absurd hq (hquiet.query_ne hstep rfl)

variable {answer rebase : CommandResult} {r : Except String SyncResult}
   {remotes : String → String → Option C} {stopped : SyncWorld C}

theorem RebaseDone.syncEnd (hdone : RebaseDone G start world base branch h)
    (hafter : after.rebasing = none)
    (hr : answer.status = 0 ↔ ∃ result, r = .ok result ∧ result.outcome = .branchUpdated) :
    SyncEnd start after (h ++ [⟨world, .push branch, answer, after⟩]) r := by
  constructor
  · intro step hstep other hq
    rcases List.mem_append.mp hstep with hstep | hstep
    · exact absurd hq (hdone.unpushed step hstep other)
    · rw [List.mem_singleton.mp hstep]
      exact hr
  · refine fun _ => iff_of_true (fun _ _ _ => hafter) fun _ step hstep other hq hstop => ?_
    rcases List.mem_append.mp hstep with hstep | hstep
    · exact absurd (hdone.rebases step hstep other hq) hstop
    · rw [List.mem_singleton.mp hstep] at hq
      exact nomatch hq

theorem ensures_pushRebased (hdone : RebaseDone G start world base branch h) :
    SyncEnsures G start base world h (pushRebased number branch calls) := by
  refine ensures_traced_query_bind.mpr ⟨?_, fun push after hserve => ?_⟩
  · intro other heq
    obtain rfl : branch = other := SyncQuery.push.inj heq
    refine ⟨hdone.ready, hdone.clean, ?_⟩
    obtain ⟨step, hstep, hq, hstatus⟩ := hdone.rebased
    exact ⟨step, hstep, base, hq, hstatus⟩
  · obtain ⟨remotes, hserve⟩ := hserve
    by_cases hstatus : push.status = 0
    · rw [if_pos hstatus] at hserve ⊢
      obtain ⟨commit, lease, -, -, -, heq⟩ := hserve
      have hafter : after.rebasing = none := (congrArg SyncWorld.rebasing heq).trans hdone.rebasing
      exact (ensures_pure _).mpr (hdone.syncEnd hafter (iff_of_true hstatus ⟨_, rfl, rfl⟩))
    · rw [if_neg hstatus] at hserve ⊢
      have hafter : after.rebasing = none :=
        (congrArg SyncWorld.rebasing hserve).trans hdone.rebasing
      refine (ensures_pure _).mpr (hdone.syncEnd hafter (iff_of_false hstatus ?_))
      rintro ⟨result, heq, houtcome⟩
      obtain rfl := Except.ok.inj heq
      unfold retryLater at houtcome
      generalize isRateLimitMessage (failureMessage push "git push") = limited at houtcome
      cases limited <;> exact nomatch houtcome

theorem SyncQuiet.syncEnd_stopped (hquiet : SyncQuiet h) {aborts : List (SyncStep C)}
    (haborts : ∀ step ∈ aborts, step.query = .rebaseAbort)
    (hblocked : ∃ result, r = .ok result ∧ result.status = .blocked)
    (hafter : after.rebasing = none ↔ stopped.rebasing = none ∨
      isRebaseConflict (rebaseMessage answer) = true ∧
        ∃ abort ∈ aborts, abort.answer.status = 0) :
    SyncEnd start after (h ++ ([⟨world, .rebase base, answer, stopped⟩] ++ aborts)) r := by
  obtain ⟨result, rfl, hstatus⟩ := hblocked
  have hmem : ∀ step ∈ h ++ ([⟨world, .rebase base, answer, stopped⟩] ++ aborts),
      step ∈ h ∨ step = ⟨world, .rebase base, answer, stopped⟩ ∨ step ∈ aborts := by
    intro step hstep
    rcases List.mem_append.mp hstep with hstep | hstep
    · exact .inl hstep
    · rcases List.mem_append.mp hstep with hstep | hstep
      · exact .inr (.inl (List.mem_singleton.mp hstep))
      · exact .inr (.inr hstep)
  constructor
  · intro step hstep branch hq
    rcases hmem step hstep with hstep | rfl | hstep
    · exact absurd hq (hquiet.query_ne hstep rfl)
    · exact nomatch hq
    · exact nomatch (haborts step hstep).symm.trans hq
  · intro hnone
    have hsettled : (∀ result', (Except.ok result : Except String SyncResult) = .ok result' →
        result'.status = .blocked → after.rebasing = none) ↔ after.rebasing = none :=
      ⟨fun hall => hall result rfl hstatus, fun hafter _ _ _ => hafter⟩
    refine hsettled.trans (hafter.trans ⟨?_, fun hall => ?_⟩)
    · rintro hor - step hstep other hq hstop
      rcases hmem step hstep with hstep | rfl | hstep
      · exact absurd hq (hquiet.query_ne hstep rfl)
      · obtain ⟨hconflict, abort, habort, hok⟩ := hor.resolve_left hstop
        exact ⟨hconflict, abort, List.mem_append_right _ (List.mem_append_right _ habort),
          haborts abort habort, hok⟩
      · exact nomatch (haborts step hstep).symm.trans hq
    · refine or_iff_not_imp_left.mpr fun hstop => ?_
      obtain ⟨hconflict, abort, habort, hq, hok⟩ := hall hnone _ (List.mem_append_right _
        (List.mem_append_left _ (List.mem_singleton.mpr rfl))) base rfl hstop
      refine ⟨hconflict, ?_⟩
      rcases hmem abort habort with habort | rfl | habort
      · exact absurd hq (hquiet.query_ne habort rfl)
      · exact nomatch hq
      · exact ⟨abort, habort, hok⟩

theorem ensures_abortRebase (hquiet : SyncQuiet h) :
    SyncEnsures G start base stopped (h ++ [⟨world, .rebase base, rebase, stopped⟩])
      (abortRebase rebase calls) := by
  unfold abortRebase
  cases hconflict : isRebaseConflict (rebaseMessage rebase) with
  | false =>
    rw [if_neg Bool.false_ne_true]
    refine (ensures_pure _).mpr ?_
    have haborts : ∀ step ∈ ([] : List (SyncStep C)), step.query = .rebaseAbort :=
      List.forall_mem_nil _
    refine hquiet.syncEnd_stopped haborts ⟨_, rfl, rfl⟩ ?_
    rw [hconflict]
    exact ⟨.inl, fun hor => hor.resolve_right fun hcontra => Bool.noConfusion hcontra.1⟩
  | true =>
    rw [if_pos rfl]
    refine ensures_traced_query_bind.mpr ⟨syncGuard_of_ne fun _ => (nomatch ·),
      fun abort after hserve => (ensures_pure _).mpr ?_⟩
    rw [List.append_assoc]
    refine hquiet.syncEnd_stopped (fun step hstep => by rw [List.mem_singleton.mp hstep])
      ⟨_, rfl, rfl⟩ ?_
    have haborted : (∃ step ∈ [(⟨stopped, .rebaseAbort, abort, after⟩ : SyncStep C)],
        step.answer.status = 0) ↔ abort.status = 0 :=
      ⟨fun ⟨step, hstep, hok⟩ => by
          rw [List.mem_singleton.mp hstep] at hok
          exact hok,
        fun hok => ⟨_, List.mem_singleton.mpr rfl, hok⟩⟩
    rw [haborted, hconflict]
    obtain ⟨remotes, hserve⟩ := hserve
    by_cases hok : abort.status = 0
    · rw [if_pos hok] at hserve
      obtain ⟨head, clean, -, rfl⟩ := hserve
      exact iff_of_true rfl (.inr ⟨rfl, hok⟩)
    · rw [if_neg hok] at hserve
      rw [congrArg SyncWorld.rebasing hserve]
      exact ⟨.inl, fun hor => hor.resolve_right fun hcontra => hok hcontra.2⟩

theorem CheckedOut.rebaseDone (hout : CheckedOut start world branch h)
    (hstatus : rebase.status = 0)
    (hserve : SyncSucceeds G { world with remotes := remotes } rebase.stdout after (.rebase base)) :
    RebaseDone G start after base branch (h ++ [⟨world, .rebase base, rebase, after⟩]) := by
  obtain ⟨hnone, upstream, own, result, hupstream, hown, hrebased, heq⟩ := hserve
  obtain ⟨fetched, hfetched, hcurrent⟩ := hout.current
  have hsame : own = (start.repo.heads branch).getD fetched :=
    Option.some.inj (hown.symm.trans hcurrent)
  have hnone' : after.rebasing = none := (congrArg SyncWorld.rebasing heq).trans hnone
  refine ⟨⟨fetched, upstream, result, ?_, ?_, ?_, ?_⟩, hout.clean.append, ?_, ?_, ?_, hnone'⟩
  · rw [heq]
    exact (LocalRepo.move_fetchHead result).trans hfetched
  · rw [heq]
    exact (congrFun (congrFun (LocalRepo.move_tracking result) "upstream") base).trans hupstream
  · rw [heq]
    exact LocalRepo.move_current result
  · rw [hrebased.changes_eq, hsame]
  · exact ⟨_, List.mem_append_right _ (List.mem_singleton.mpr rfl), rfl, hstatus⟩
  · intro step hstep other hq
    rcases List.mem_append.mp hstep with hstep | hstep
    · exact absurd hq (hout.quiet.query_ne hstep rfl)
    · rw [List.mem_singleton.mp hstep]
      exact hnone'
  · intro step hstep other hq
    rcases List.mem_append.mp hstep with hstep | hstep
    · exact absurd hq (hout.quiet.query_ne hstep rfl)
    · rw [List.mem_singleton.mp hstep] at hq
      exact nomatch hq

theorem ensures_rebaseBranch (hout : CheckedOut start world branch h) :
    SyncEnsures G start base world h (rebaseBranch number base branch calls) := by
  refine ensures_traced_query_bind.mpr ⟨syncGuard_of_ne fun _ => (nomatch ·),
    fun rebase after hserve => ?_⟩
  obtain ⟨remotes, hserve⟩ := hserve
  by_cases hstatus : rebase.status = 0
  · rw [if_pos hstatus] at hserve ⊢
    exact ensures_pushRebased (hout.rebaseDone hstatus hserve)
  · rw [if_neg hstatus]
    exact ensures_abortRebase hout.quiet

theorem BranchFetched.checkedOut (hfetched : BranchFetched start world branch h)
    {checkout : CommandResult}
    (hserve : SyncSucceeds G { world with remotes := remotes } checkout.stdout after
      (.checkout branch)) :
    CheckedOut start after branch (h ++ [⟨world, .checkout branch, checkout, after⟩]) := by
  have hheads := congrFun hfetched.heads branch
  obtain ⟨fetched, hhead, htracking⟩ := hfetched.fetched
  have hquiet : SyncQuiet (h ++ [⟨world, .checkout branch, checkout, after⟩]) :=
    hfetched.quiet.snoc rfl
  rcases hserve with ⟨hlocal, heq⟩ | ⟨hlocal, remote, commit, hcommit, honly, heq⟩
  · obtain ⟨own, hown⟩ := Option.ne_none_iff_exists'.mp hlocal
    refine ⟨hquiet, hfetched.clean.append, ?_, fetched, ?_, ?_⟩
    · rw [heq]
      exact hfetched.rebasing
    · rw [heq]
      exact hhead
    · rw [← hheads, heq]
      exact hown.trans (congrArg some (congrArg (Option.getD · fetched) hown).symm)
  · -- the branch of `origin` was fetched, so it is the only one of that name
    obtain rfl : "origin" = remote := honly "origin" (by
      rw [htracking]
      exact Option.some_ne_none fetched)
    have hsame : commit = fetched := Option.some.inj (hcommit.symm.trans htracking)
    refine ⟨hquiet, hfetched.clean.append, ?_, fetched, ?_, ?_⟩
    · rw [heq]
      exact hfetched.rebasing
    · rw [heq]
      exact hhead
    · rw [← hheads, heq]
      refine (LocalRepo.create_current branch commit).trans ?_
      rw [show world.repo.heads branch = none from hlocal, hsame]
      rfl

theorem ensures_checkoutBranch (hfetched : BranchFetched start world branch h) :
    SyncEnsures G start base world h (checkoutBranch number base branch calls) := by
  refine ensures_traced_query_bind.mpr ⟨syncGuard_of_ne fun _ => (nomatch ·),
    fun checkout after hserve => ?_⟩
  obtain ⟨remotes, hserve⟩ := hserve
  by_cases hstatus : checkout.status = 0
  · rw [if_pos hstatus] at hserve ⊢
    exact ensures_rebaseBranch (hfetched.checkedOut hserve)
  · rw [if_neg hstatus] at hserve ⊢
    have hquiet : SyncQuiet (h ++ [⟨world, .checkout branch, checkout, after⟩]) :=
      hfetched.quiet.snoc rfl
    exact (ensures_pure _).mpr (hquiet.syncEnd
      ((congrArg SyncWorld.rebasing hserve).trans hfetched.rebasing) _)

theorem ensures_fetchBranch (hstill : Untouched start world h) :
    SyncEnsures G start base world h (fetchBranch number base branch calls) := by
  refine ensures_traced_query_bind.mpr ⟨syncGuard_of_ne fun _ => (nomatch ·),
    fun fetch after hserve => ?_⟩
  obtain ⟨remotes, hserve⟩ := hserve
  have hquiet : SyncQuiet (h ++ [⟨world, .fetch "origin" branch, fetch, after⟩]) :=
    hstill.quiet.snoc rfl
  by_cases hstatus : fetch.status = 0
  · rw [if_pos hstatus] at hserve ⊢
    obtain ⟨commit, -, rfl⟩ := hserve
    exact ensures_checkoutBranch ⟨⟨hquiet, hstill.clean.append, hstill.heads, hstill.rebasing⟩,
      commit, rfl, LocalRepo.fetch_tracking "origin" branch commit⟩
  · rw [if_neg hstatus] at hserve ⊢
    exact (ensures_pure _).mpr (hquiet.syncEnd
      ((congrArg SyncWorld.rebasing hserve).trans hstill.rebasing) _)

theorem Untouched.fetch (hstill : Untouched start world h)
    (hq : (∃ remote ref, q = .fetch remote ref) ∨ ∃ base, q = .forceFetch base)
    {fetch : CommandResult} (hserve : gitSync G world q fetch after) :
    Untouched start after (h ++ [⟨world, q, fetch, after⟩]) := by
  have hquiet : q.quiet = true := by
    rcases hq with ⟨_, _, rfl⟩ | ⟨_, rfl⟩ <;> rfl
  have hsame : after.repo.heads = world.repo.heads ∧ after.rebasing = world.rebasing := by
    obtain ⟨remotes, hserve⟩ := hserve
    by_cases hstatus : fetch.status = 0
    · rw [if_pos hstatus] at hserve
      rcases hq with ⟨_, _, rfl⟩ | ⟨_, rfl⟩
      all_goals
        obtain ⟨commit, -, rfl⟩ := hserve
        exact ⟨rfl, rfl⟩
    · rw [if_neg hstatus] at hserve
      rcases hq with ⟨_, _, rfl⟩ | ⟨_, rfl⟩
      all_goals
        obtain rfl := hserve
        exact ⟨rfl, rfl⟩
  exact ⟨hstill.quiet.snoc hquiet, hstill.clean.append, hsame.1.trans hstill.heads,
    hsame.2.trans hstill.rebasing⟩

theorem ensures_refreshUpstream (hstill : Untouched start world h)
    {f : UpstreamRefresh → SyncM SyncResult}
    (hf : ∀ refresh world' h', Untouched start world' h' →
      SyncEnsures G start base world' h' (f refresh)) :
    SyncEnsures G start base world h (refreshUpstreamTrackingRef base >>= f) := by
  refine ensures_bind.mpr (ensures_traced_query_bind.mpr ⟨syncGuard_of_ne fun _ => (nomatch ·),
    fun initial after hserve => ?_⟩)
  have hfetched := hstill.fetch (.inl ⟨"upstream", base, rfl⟩) hserve
  by_cases hstatus : initial.status = 0
  · rw [if_pos hstatus]
    exact hf _ _ _ hfetched
  · rw [if_neg hstatus]
    cases isUpstreamRefRaceMessage (extractGitResultMessage initial) with
    | false =>
      rw [if_neg Bool.false_ne_true]
      exact hf _ _ _ hfetched
    | true =>
      rw [if_pos rfl]
      refine ensures_traced_query_bind.mpr ⟨syncGuard_of_ne fun _ => (nomatch ·),
        fun forced after' hserve' => ?_⟩
      exact hf _ _ _ (hfetched.fetch (.inr ⟨base, rfl⟩) hserve')

theorem ensures_rebaseLocally (hstill : Untouched start world h) :
    SyncEnsures G start base world h (rebaseLocally number base branch) := by
  refine ensures_refreshUpstream hstill fun refresh world' h' hstill' => ?_
  by_cases hstatus : refresh.result.status = 0
  · rw [if_pos hstatus]
    exact ensures_fetchBranch hstill'
  · rw [if_neg hstatus]
    exact (ensures_pure _).mpr (hstill'.quiet.syncEnd hstill'.rebasing _)

theorem ensures_fallBack (hquiet : SyncQuiet h) (hheads : world.repo.heads = start.repo.heads)
    (hrebasing : world.rebasing = start.rebasing) {name : Option String} {message : String} :
    SyncEnsures G start base world h (fallBack number base name message) := by
  unfold fallBack
  cases isRateLimitMessage message || isMergeBlocked message with
  | true =>
    rw [if_pos rfl]
    exact (ensures_pure _).mpr (hquiet.syncEnd hrebasing _)
  | false =>
    rw [if_neg Bool.false_ne_true]
    cases name with
    | none => exact (ensures_pure _).mpr (hquiet.syncEnd hrebasing _)
    | some name =>
      refine ensures_traced_query_bind.mpr ⟨syncGuard_of_ne fun _ => (nomatch ·),
        fun workspace after hserve => ?_⟩
      obtain ⟨remotes, hserve⟩ := hserve
      have hquiet' : SyncQuiet (h ++ [⟨world, .status, workspace, after⟩]) := hquiet.snoc rfl
      by_cases hclean : workspace.status = 0 ∧ JsString.trim workspace.stdout = ""
      · rw [if_pos hclean.1] at hserve
        obtain ⟨rfl, hblank⟩ := hserve
        rw [if_pos hclean]
        exact ensures_rebaseLocally ⟨hquiet', ⟨_, List.mem_append_right _
          (List.mem_singleton.mpr rfl), rfl, hclean.1, hblank.mp hclean.2⟩, hheads, hrebasing⟩
      · rw [if_neg hclean]
        have hsame : after.rebasing = world.rebasing := by
          by_cases hstatus : workspace.status = 0
          · rw [if_pos hstatus] at hserve
            rw [hserve.1]
          · rw [if_neg hstatus] at hserve
            have heq : after = { world with remotes := remotes } := hserve
            rw [heq]
        exact (ensures_pure _).mpr (hquiet'.syncEnd (hsame.trans hrebasing) _)

/-- **Every run.** -/
theorem ensures_updatePullRequestBranch (input : SyncInput) :
    SyncEnsures G start input.base start [] (updatePullRequestBranch input) := by
  have hnil : SyncQuiet ([] : List (SyncStep C)) := List.forall_mem_nil _
  unfold updatePullRequestBranch
  cases input.prNumber with
  | none => exact hnil.syncEnd rfl _
  | some number =>
    dsimp only
    generalize normalizeText input.repository = repository
    by_cases hblank : repository = ""
    · rw [if_pos hblank]
      exact hnil.syncEnd rfl _
    · rw [if_neg hblank]
      refine ensures_traced_query_bind.mpr ⟨syncGuard_of_ne fun _ => (nomatch ·),
        fun update after hserve => ?_⟩
      have hquiet : SyncQuiet [(⟨start, .updateBranch number repository, update, after⟩ :
          SyncStep C)] := hnil.snoc rfl
      have hsame : after.repo = start.repo ∧ after.rebasing = start.rebasing := by
        obtain ⟨remotes, hserve⟩ := hserve
        by_cases hstatus : update.status = 0
        · rw [if_pos hstatus] at hserve
          obtain rfl := hserve
          exact ⟨rfl, rfl⟩
        · rw [if_neg hstatus] at hserve
          obtain rfl := hserve
          exact ⟨rfl, rfl⟩
      by_cases hstatus : update.status = 0
      · rw [if_pos hstatus]
        exact (ensures_pure _).mpr (hquiet.syncEnd hsame.2 _)
      · rw [if_neg hstatus]
        exact ensures_fallBack hquiet (congrArg LocalRepo.heads hsame.1) hsame.2

end Stages

/-- **The law of the synchronised branch.** A run keeps to it exactly if the local branch, where
there is one, is current whenever a push succeeds, and a rebase that stops speaks of a conflict
and is aborted. -/
theorem syncLaw_iff (G : CommitGraph C Δ) (input : SyncInput) (start after : SyncWorld C)
    (steps : List (SyncStep C)) (r : Except String SyncResult)
    (hrun : Traces (gitSync G) start (updatePullRequestBranch input) steps after r) :
    SyncLaw G start steps after r ↔
      LocalCurrent G input.base start steps ∧ StopsAborted start steps := by
  obtain ⟨hguard, hend⟩ := (ensures_updatePullRequestBranch input).traced hrun
  rw [List.nil_append] at hend
  have hpush : ∀ step ∈ steps, ∀ branch, step.query = .push branch →
      ReadyForPush G start input.base branch step.before.repo := by
    intro step hstep branch hq
    obtain ⟨pre, post, hsplit⟩ := List.append_of_mem hstep
    exact (hguard pre step post hsplit branch hq).1
  have hkeeps : ∀ step ∈ steps, ∀ branch, step.query = .push branch →
      (KeepsFetched G step ↔ ∀ fetched own upstream,
        step.before.repo.fetchHead = some fetched → start.repo.heads branch = some own →
        step.before.repo.tracking "upstream" input.base = some upstream →
          G.changes fetched ⊆ G.changes upstream ∪ G.changes own) := by
    intro step hstep branch hq
    obtain ⟨fetched, upstream, pushed, hfetched, hupstream, hpushed, hchanges⟩ :=
      hpush step hstep branch hq
    have hall : KeepsFetched G step ↔ G.changes fetched ⊆ G.changes pushed := by
      rw [← CommitGraph.contains_iff_changes_subset]
      exact ⟨fun hkept => hkept fetched pushed hfetched hpushed, fun hkept f p hf hp => by
        rw [← Option.some.inj (hfetched.symm.trans hf), ← Option.some.inj (hpushed.symm.trans hp)]
        exact hkept⟩
    rw [hall, hchanges]
    constructor
    · intro hsub f own u hf hown hu
      rw [hown] at hsub
      rw [← Option.some.inj (hfetched.symm.trans hf), ← Option.some.inj (hupstream.symm.trans hu)]
      exact hsub
    · intro hcurrent
      cases hown : start.repo.heads branch with
      | none => exact Set.subset_union_right
      | some own => exact hcurrent fetched own upstream hfetched hown hupstream
  constructor
  · intro hlaw
    refine ⟨fun step hstep branch hq hstatus => ?_, fun hnone => ?_⟩
    · obtain ⟨result, hr, houtcome⟩ := (hend.updated step hstep branch hq).mp hstatus
      exact (hkeeps step hstep branch hq).mp (hlaw.kept result hr houtcome step hstep branch hq)
    · exact (hend.settled hnone).mp (hlaw.settled hnone) hnone
  · rintro ⟨hcurrent, hstops⟩
    refine ⟨fun result hr houtcome step hstep branch hq => ?_, fun pre step post hsplit branch hq =>
      (hguard pre step post hsplit branch hq).2, fun hnone => (hend.settled hnone).mpr hstops⟩
    have hstatus := (hend.updated step hstep branch hq).mpr ⟨result, hr, houtcome⟩
    exact (hkeeps step hstep branch hq).mpr (hcurrent step hstep branch hq hstatus)

/-! ### Commits in a row -/

def exited (status : ℤ) : CommandResult := ⟨status, "", ""⟩

/-- Git on commits in a row, where GitHub does not update the branch: a command is done where that
is simple, and fails elsewhere. -/
def chainSync (world : SyncWorld ℕ) : SyncQuery → CommandResult × SyncWorld ℕ
  | .updateBranch _ _ => (exited 1, world)
  | .status => if world.clean then (exited 0, world) else (exited 1, world)
  | .fetch remote ref =>
    match world.remotes remote ref with
    | some commit => (exited 0, { world with repo := world.repo.fetch remote ref commit })
    | none => (exited 1, world)
  | .forceFetch _ => (exited 1, world)
  | .checkout branch =>
    if world.repo.heads branch = none then (exited 1, world)
    else (exited 0, { world with repo := world.repo.switch branch })
  | .rebase base =>
    match world.rebasing, world.repo.tracking "upstream" base, world.repo.current with
    | none, some upstream, some own =>
      if upstream ≤ own then (exited 0, { world with repo := world.repo.move own })
      else (exited 1, world)
    | _, _, _ => (exited 1, world)
  | .rebaseAbort => (exited 1, world)
  | .push branch =>
    match world.repo.current, world.repo.tracking "origin" branch with
    | some commit, some lease =>
      if world.remotes "origin" branch = some lease then
        (exited 0, { world with
          repo := world.repo.track "origin" branch commit
          remotes := Function.update world.remotes "origin"
            (Function.update (world.remotes "origin") branch (some commit)) })
      else (exited 1, world)
    | _, _ => (exited 1, world)

theorem gitSync_fail (world : SyncWorld ℕ) (q : SyncQuery) :
    gitSync Refresh.chain world q (exited 1) world := by
  have hstatus : (exited 1).status ≠ 0 := by decide
  refine ⟨world.remotes, ?_⟩
  rw [if_neg hstatus]
  cases q with
  | rebase base => exact .inl rfl
  | _ => exact rfl

theorem gitSync_done {world after : SyncWorld ℕ} {q : SyncQuery}
    (h : SyncSucceeds Refresh.chain world "" after q) :
    gitSync Refresh.chain world q (exited 0) after := by
  refine ⟨world.remotes, ?_⟩
  rw [if_pos (show (exited 0).status = 0 from rfl)]
  exact h

theorem gitSync_chainSync (world : SyncWorld ℕ) (q : SyncQuery) :
    gitSync Refresh.chain world q (chainSync world q).1 (chainSync world q).2 := by
  have hfail := gitSync_fail world q
  cases q with
  | updateBranch number repository => exact hfail
  | status =>
    rw [chainSync]
    split
    · next hclean => exact gitSync_done ⟨rfl, iff_of_true (by decide) hclean⟩
    · exact hfail
  | fetch remote ref =>
    rw [chainSync]
    split
    · next commit hremote => exact gitSync_done ⟨commit, hremote, rfl⟩
    · exact hfail
  | forceFetch base => exact hfail
  | checkout branch =>
    rw [chainSync]
    split
    · exact hfail
    · next hbranch => exact gitSync_done (.inl ⟨hbranch, rfl⟩)
  | rebase base =>
    rw [chainSync]
    split
    · next upstream own hrebasing hupstream hown =>
      split
      · next hle =>
        exact gitSync_done ⟨hrebasing, upstream, own, own, hupstream, hown,
          Refresh.chain_rebased hle, by rw [hrebasing]⟩
      · exact hfail
    · exact hfail
  | rebaseAbort => exact hfail
  | push branch =>
    rw [chainSync]
    split
    · next commit lease hcurrent htracking =>
      split
      · next hlease => exact gitSync_done ⟨commit, lease, hcurrent, htracking, hlease, rfl⟩
      · exact hfail
    · exact hfail

/-- The pull request #7 of the branch `feature`. -/
def featureInput : SyncInput where
  repository := some (.str "octo/demo")
  pullRequest := some ⟨some (.num 7), none, some (.str "feature"), none⟩
  branchName := none
  laneBranch := none

/-- The head of the pull request is commit 2, the base is commit 0, and the local branch is at the
given commit. -/
def featureWorld (own : ℕ) : SyncWorld ℕ where
  repo := {
    heads := fun name =>
      if name = "feature" then some own else if name = "develop" then some 0 else none
    tracking := fun _ _ => none
    head := .branch "develop"
    fetchHead := none }
  clean := true
  rebasing := none
  remotes := fun remote name =>
    if remote = "origin" ∧ name = "feature" then some 2
    else if remote = "upstream" ∧ name = "develop" then some 0
    else none

def featureSync (own : ℕ) : List (SyncStep ℕ) × SyncWorld ℕ × Except String SyncResult :=
  (updatePullRequestBranch featureInput).trace chainSync (featureWorld own)

theorem traces_featureSync (own : ℕ) :
    Traces (gitSync Refresh.chain) (featureWorld own) (updatePullRequestBranch featureInput)
      (featureSync own).1 (featureSync own).2.1 (featureSync own).2.2 := by
  unfold featureSync
  generalize updatePullRequestBranch featureInput = p
  exact traces_trace chainSync gitSync_chainSync (featureWorld own) p

def pushesFeature (step : SyncStep ℕ) : Bool :=
  match step.query with
  | .push branch => branch = "feature" && step.before.repo.fetchHead = some 2
  | _ => true

/-- A local branch that is where the head is. -/
theorem syncLaw_equal :
    SyncLaw Refresh.chain (featureWorld 2) (featureSync 2).1 (featureSync 2).2.1
      (featureSync 2).2.2 := by
  refine (syncLaw_iff Refresh.chain featureInput (featureWorld 2) _ _ _
    (traces_featureSync 2)).mpr ⟨fun step hstep branch hq _ f own u hf hown _ => ?_,
      fun _ step hstep base _ hstop => ?_⟩
  · have hpushes : (featureSync 2).1.all pushesFeature = true := rfl
    have hpush := List.all_eq_true.mp hpushes step hstep
    unfold pushesFeature at hpush
    rw [hq] at hpush
    obtain ⟨hbranch, hfetched⟩ := Bool.and_eq_true_iff.mp hpush
    rw [of_decide_eq_true hbranch] at hown
    obtain rfl : 2 = f := Option.some.inj ((of_decide_eq_true hfetched).symm.trans hf)
    obtain rfl : 2 = own := Option.some.inj hown
    exact Set.subset_union_right
  · have hsettled : (featureSync 2).1.all (fun step => step.after.rebasing.isNone) = true := rfl
    exact absurd (Option.isNone_iff_eq_none.mp (List.all_eq_true.mp hsettled step hstep)) hstop

/-- A local branch that is behind the head takes a commit off it. -/
theorem not_syncLaw_behind :
    ¬ ∀ (input : SyncInput) (start after : SyncWorld ℕ) (steps : List (SyncStep ℕ))
      (r : Except String SyncResult),
      Traces (gitSync Refresh.chain) start (updatePullRequestBranch input) steps after r →
        SyncLaw Refresh.chain start steps after r := by
  intro hall
  have hlaw := hall featureInput (featureWorld 1) _ _ _ (traces_featureSync 1)
  have hupdated : ∃ result, (featureSync 1).2.2 = .ok result ∧ result.outcome = .branchUpdated :=
    ⟨_, rfl, rfl⟩
  obtain ⟨result, hr, houtcome⟩ := hupdated
  have hstep : (featureSync 1).1[6] ∈ (featureSync 1).1 := List.getElem_mem _
  have hkept := hlaw.kept result hr houtcome _ hstep "feature" rfl 2 1 rfl rfl 2 .refl
  -- commit 2 is not among the commits up to commit 1
  obtain ⟨d, hreach, hchange⟩ := hkept 2 rfl
  have hle := Refresh.le_of_chain_reaches hreach
  rw [Option.some.inj hchange] at hle
  exact absurd hle (by decide)

end CompareVI.Delivery
