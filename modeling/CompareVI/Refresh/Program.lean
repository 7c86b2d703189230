import CompareVI.Framework.JsString
import CompareVI.Framework.Attempt

/-!
# Refreshing a queued pull request

`runQueueRefresh` takes a pull request out of the merge queue, rebases and force-pushes its
head (or pushes the checked-out branch as it is), and has `runMergeSync` queue it again.
These are its three steps (`RefreshStep`). Before them it reads what it needs and creates a
receipt, and it stops without a step if the pull request is not open and queued.

The part that works on the receipt is an `Attempt`, since the handler of its `try` block marks the
step that threw in the receipt as it is by then, and writes it. An error before the receipt
is created goes through that handler unchanged, so that part is an ordinary program.
-/

open Framework

namespace CompareVI.Refresh

/-! ### Options -/

/-- The options of `parseArgs`. -/
structure RefreshArgs where
  pr : ℕ
  repo : Option String
  headRemote : Option String
  skipRebase : Bool
  summaryPath : Option String
  mergeSummaryPath : Option String
  dryRun : Bool
  deriving DecidableEq, Repr

def DEQUEUE_POLL_ATTEMPTS : ℕ := 5

def DEQUEUE_POLL_DELAY_MS : ℕ := 1500

def DEFAULT_RECEIPT_DIR : String := "tests/results/_agent/queue"

def buildDefaultReceiptPath (pr : ℕ) : String :=
  DEFAULT_RECEIPT_DIR ++ "/queue-refresh-" ++ toString pr ++ ".json"

def buildDefaultMergeSummaryPath (pr : ℕ) : String :=
  DEFAULT_RECEIPT_DIR ++ "/merge-sync-" ++ toString pr ++ ".json"

/-- `normalizeText`, where the value may be missing. -/
def normalizeText (value : Option String) : String := (value.map JsString.trim).getD ""

def normalizeOwner (value : Option String) : String := JsString.toLowerCase (normalizeText value)

/-- `normalizeText(value) || null`. -/
def textOrNull (value : Option String) : Option String :=
  if normalizeText value = "" then none else some (normalizeText value)

/-- `first || second`. -/
def firstText (first second : Option String) : Option String :=
  if first.getD "" = "" then second else first

/-- `normalizeText(first || second).toUpperCase() || null`. -/
def upperOrNull (first second : Option String) : Option String :=
  let text := JsString.toUpperCase (normalizeText (firstText first second))
  if text = "" then none else some text

/-! ### The outside -/

structure RemoteSlug where
  owner : String
  repo : String
  deriving DecidableEq, Repr

/-- `${owner}/${repo}`, unless a part is empty. -/
def RemoteSlug.slug (remote : RemoteSlug) : Option String :=
  if remote.owner = "" ∨ remote.repo = "" then none else some (remote.owner ++ "/" ++ remote.repo)

/-- A pull request as `readPullRequestView` reads it. -/
structure PrView where
  id : Option String
  state : Option String
  mergeStateStatus : Option String
  baseRefName : Option String
  headRefName : Option String
  headRefOid : Option String
  /-- `headRepository.name`. -/
  headRepositoryName : Option String
  /-- `headRepositoryOwner.login`, or the owner itself. -/
  headRepositoryOwner : Option String
  isCrossRepository : Bool
  autoMergeRequest : Bool
  deriving DecidableEq, Repr

/-- A pull request as `readPullRequestQueueState` reads it. -/
structure QueueState where
  state : Option String
  mergeStateStatus : Option String
  isInMergeQueue : Bool
  mergedAt : Option String
  autoMergeRequest : Bool
  deriving DecidableEq, Repr

inductive GitCommand where
  | currentBranch
  | trackingRemote (branchName : String)
  | status
  | fetch (remote ref : String)
  | checkout (branch : String)
  | checkoutTrack (branch remote : String)
  | rebase (base : String)
  | rebaseAbort
  | revParseHead
  | push (remote branch : String)
  deriving DecidableEq, Repr

def GitCommand.args : GitCommand → List String
  | .currentBranch => ["rev-parse", "--abbrev-ref", "HEAD"]
  | .trackingRemote branchName => ["config", "branch." ++ branchName ++ ".remote"]
  | .status => ["status", "--porcelain"]
  | .fetch remote ref => ["fetch", remote, ref]
  | .checkout branch => ["checkout", branch]
  | .checkoutTrack branch remote =>
    ["checkout", "-b", branch, "--track", remote ++ "/" ++ branch]
  | .rebase base => ["rebase", "upstream/" ++ base]
  | .rebaseAbort => ["rebase", "--abort"]
  | .revParseHead => ["rev-parse", "HEAD"]
  | .push remote branch => ["push", "--force-with-lease", remote, "HEAD:" ++ branch]

def GitCommand.text (command : GitCommand) : String := "git " ++ JsString.join " " command.args

/-- What `spawnSync` returns. The status is missing if the process did not exit by itself. -/
structure GitResult where
  status : Option ℤ
  stdout : String
  stderr : String
  deriving DecidableEq, Repr

/-- `formatCommandError('git', …)`. -/
def formatCommandError (command : GitCommand) (result : GitResult) : String :=
  command.text ++ " failed: " ++
    orText (JsString.trim result.stderr) (orText (JsString.trim result.stdout)
      ("exit " ++ toString (result.status.getD 1)))

/-- What is read of the payload of `runMergeSync`. -/
structure MergePayload where
  /-- `promotion.status`. -/
  promotionStatus : Option String
  /-- `promotion.materialized`. -/
  materialized : Option Bool
  finalMode : Option String
  finalReason : Option String
  deriving DecidableEq, Repr

/-! ### The receipt -/

inductive StepStatus where
  | skipped
  | dryRun
  | completed
  | failed
  deriving DecidableEq, Repr

structure StepReport where
  attempted : Bool
  status : StepStatus
  reason : Option String
  helperCallsExecuted : List String
  deriving DecidableEq, Repr

def StepReport.skipped : StepReport := ⟨false, .skipped, none, []⟩

/-- `receipt.dequeue`. -/
structure DequeueReport extends StepReport where
  pullRequestId : Option String
  pollAttemptsUsed : ℕ
  finalIsInMergeQueue : Bool
  deriving DecidableEq, Repr

/-- `receipt.refresh`. -/
structure RefreshReport extends StepReport where
  mode : Option String
  baseRemoteRef : Option String
  forcePushTarget : Option String
  rebasedHeadSha : Option String
  deriving DecidableEq, Repr

/-- `receipt.requeue`. -/
structure RequeueReport extends StepReport where
  mergeSummaryPath : Option String
  promotionStatus : Option String
  materialized : Option Bool
  finalMode : Option String
  finalReason : Option String
  deriving DecidableEq, Repr

/-- The state of the pull request at the start, as `normalizeQueueState` has it. -/
structure InitialState where
  state : Option String
  mergeStateStatus : Option String
  isInMergeQueue : Bool
  autoMergeEnabled : Bool
  mergedAt : Option String
  headRefOid : Option String
  deriving DecidableEq, Repr

structure RefreshReceipt where
  repo : String
  pr : ℕ
  dryRun : Bool
  baseRefName : String
  headRefName : String
  headRepositorySlug : Option String
  headRemote : String
  queueManagedBase : Bool
  initialState : InitialState
  /-- `initial.currentBranch`. -/
  currentBranch : String
  dequeue : DequeueReport
  refresh : RefreshReport
  requeue : RequeueReport
  /-- `summary.status`. -/
  summaryStatus : StepStatus
  /-- `summary.reason`. -/
  summaryReason : Option String
  deriving DecidableEq, Repr

inductive RefreshStep where
  | dequeue
  | refresh
  | requeue
  deriving DecidableEq, Repr

def RefreshReceipt.report (receipt : RefreshReceipt) : RefreshStep → StepReport
  | .dequeue => receipt.dequeue.toStepReport
  | .refresh => receipt.refresh.toStepReport
  | .requeue => receipt.requeue.toStepReport

def RefreshReceipt.setReport (receipt : RefreshReceipt) (f : StepReport → StepReport) :
    RefreshStep → RefreshReceipt
  | .dequeue =>
    { receipt with
      dequeue := { receipt.dequeue with toStepReport := f receipt.dequeue.toStepReport } }
  | .refresh =>
    { receipt with
      refresh := { receipt.refresh with toStepReport := f receipt.refresh.toStepReport } }
  | .requeue =>
    { receipt with
      requeue := { receipt.requeue with toStepReport := f receipt.requeue.toStepReport } }

def markStepFailed (receipt : RefreshReceipt) (step : RefreshStep) (message : String) :
    RefreshReceipt :=
  receipt.setReport (fun report => { report with
    attempted := true
    status := .failed
    reason := some (orText (JsString.trim message) "step-failed") }) step

/-! ### Queries -/

inductive RefreshQuery where
  | ensureGhCli
  | resolveRemote (remoteName : String)
  | readPolicy
  | readPullRequestView (repo : String) (pr : ℕ)
  | readQueueState (pullRequestId : Option String)
  | dequeue (pullRequestId : Option String)
  | git (command : GitCommand)
  | sleep (milliseconds : ℕ)
  | runMergeSync (argv : List String)
  | writeReceipt (filePath : String) (receipt : RefreshReceipt)

def RefreshQuery.Reply : RefreshQuery → Type
  | .ensureGhCli => Unit
  | .resolveRemote _ => Option RemoteSlug
  | .readPolicy => Json
  | .readPullRequestView .. => PrView
  | .readQueueState _ => QueueState
  | .dequeue _ => Unit
  | .git _ => GitResult
  | .sleep _ => Unit
  | .runMergeSync _ => MergePayload
  | .writeReceipt .. => String

abbrev RefreshM := Prog RefreshQuery fun q => Except String q.Reply

abbrev RefreshQuery.call (q : RefreshQuery) : RefreshM q.Reply := Prog.call q

/-- The variables of the `try` block: the receipt, and the step the run is at. -/
structure Progress where
  receipt : RefreshReceipt
  currentStep : Option RefreshStep
  deriving DecidableEq, Repr

abbrev RefreshAttempt := Attempt RefreshQuery RefreshQuery.Reply Progress

abbrev RefreshExchange := Exchange fun q : RefreshQuery => Except String q.Reply

/-! ### What the run reads -/

/-- `parseRepoSlug`, which only checks. -/
def parseRepoSlug (repo : String) : Except String Unit :=
  let parts := ((JsString.splitList '/' repo.toList).map JsString.trimList).filter (· ≠ [])
  if parts.length = 2 then .ok ()
  else .error ("Invalid repo slug '" ++ repo ++ "'. Expected owner/repo.")

/-- The loop of `resolveRepositorySlug` over the remotes. -/
def resolveSlugFrom : List String → RefreshM String
  | [] => .fail "Unable to resolve target repository. Pass --repo owner/repo."
  | remoteName :: remoteNames => do
    let remote ← RefreshQuery.call (.resolveRemote remoteName)
    match remote.bind RemoteSlug.slug with
    | some slug => pure slug
    | none => resolveSlugFrom remoteNames

/-- `resolveRepositorySlug`, from the option, the variable `GITHUB_REPOSITORY` or a remote. -/
def resolveRepositorySlug (githubRepository : Option String) (explicitRepo : Option String) :
    RefreshM String :=
  if explicitRepo.getD "" ≠ "" then
    Prog.ofExcept (parseRepoSlug (explicitRepo.getD "")) >>= fun _ => pure (explicitRepo.getD "")
  else if (githubRepository.getD "").toList.contains '/' then
    pure (JsString.trim (githubRepository.getD ""))
  else resolveSlugFrom ["upstream", "origin"]

/-- The branch a ref of `includes` names: `/^refs\/heads\/(.+)$/i`, without a `*`. -/
def includedBranch (ref : String) : Option String :=
  if JsString.startsWith (JsString.toLowerCase ref) "refs/heads/" then
    let branch := JsString.slice ref 11
    if branch = "" ∨ branch.toList.any JsString.isLineTerminator ∨ branch.toList.contains '*' then
      none
    else some (JsString.toLowerCase branch)
  else none

/-- The values of an object or an array, as `Object.values` lists them. -/
def objectValues : Json → List Json
  | .obj fields => fields.map Prod.snd
  | .arr values => values
  | _ => []

def rulesetBranches (ruleset : Json) : List String :=
  if Json.truthy (ruleset.get? "merge_queue") then
    match ruleset.get? "includes" with
    | some (.arr refs) => refs.filterMap fun ref =>
        match ref with
        | .str text => includedBranch text
        | _ => none
    | _ => []
  else []

def getMergeQueueBranches (policy : Json) : List String :=
  match policy.get? "rulesets" with
  | some rulesets => (objectValues rulesets).flatMap rulesetBranches
  | none => []

def gitOrThrow (command : GitCommand) : RefreshM GitResult := do
  let result ← RefreshQuery.call (.git command)
  if result.status = some 0 then pure result else .fail (formatCommandError command result)

def getTrackingRemote (branchName : String) : RefreshM (Option String) := do
  let result ← RefreshQuery.call (.git (.trackingRemote branchName))
  pure (if result.status = some 0 then textOrNull (some result.stdout) else none)

def readTrackingRemote (currentBranch : String) : RefreshM (Option String) :=
  if currentBranch ≠ "" ∧ currentBranch ≠ "HEAD" then getTrackingRemote currentBranch
  else pure none

def normalizeQueueState (prView : PrView) (queueState : QueueState) : InitialState where
  state := upperOrNull queueState.state prView.state
  mergeStateStatus := upperOrNull queueState.mergeStateStatus prView.mergeStateStatus
  isInMergeQueue := queueState.isInMergeQueue
  autoMergeEnabled := queueState.autoMergeRequest || prView.autoMergeRequest
  mergedAt := textOrNull queueState.mergedAt
  headRefOid := textOrNull prView.headRefOid

def resolveHeadRepositorySlug (prInfo : PrView) : Option String :=
  let owner := normalizeOwner prInfo.headRepositoryOwner
  let repoName := normalizeText prInfo.headRepositoryName
  if owner = "" ∨ repoName = "" then none else some (owner ++ "/" ++ repoName)

def sameSlug (remote : Option RemoteSlug) (expected : String) : Bool :=
  match remote.bind RemoteSlug.slug with
  | some slug => JsString.toLowerCase slug = JsString.toLowerCase expected
  | none => false

/-- The last resort of `resolveHeadRemoteName`: a pull request from the target repository. -/
def resolveTargetRemote (prInfo : PrView) (targetRepository : String) : RefreshM String :=
  let unresolved : RefreshM String := .fail ("Unable to infer head remote for '" ++
    orText (normalizeText prInfo.headRefName) "unknown-head" ++
    "'. Pass --head-remote explicitly from the PR checkout.")
  if prInfo.isCrossRepository = false ∧ JsString.trim targetRepository ≠ "" then do
    let remote ← RefreshQuery.call (.resolveRemote "upstream")
    if sameSlug remote (JsString.trim targetRepository) then pure "upstream" else unresolved
  else unresolved

/-- The loop of `resolveHeadRemoteName` over the remotes. -/
def resolveHeadRemoteFrom (prInfo : PrView) (targetRepository : String) :
    List String → RefreshM String
  | [] => resolveTargetRemote prInfo targetRepository
  | remoteName :: remoteNames => do
    let remote ← RefreshQuery.call (.resolveRemote remoteName)
    if (resolveHeadRepositorySlug prInfo).any (sameSlug remote) then pure remoteName
    else resolveHeadRemoteFrom prInfo targetRepository remoteNames

/-- The tracking remote of the checked-out branch, if that is the head branch. -/
def resolveTrackingRemote (prInfo : PrView) (currentBranch : String)
    (trackingRemote : Option String) : RefreshM (Option String) :=
  match trackingRemote with
  | some remoteName =>
    if normalizeText prInfo.headRefName ≠ "" ∧
        currentBranch = normalizeText prInfo.headRefName then do
      let remote ← RefreshQuery.call (.resolveRemote remoteName)
      pure (remote.map fun _ => remoteName)
    else pure none
  | none => pure none

def resolveHeadRemoteName (explicitHeadRemote : Option String) (prInfo : PrView)
    (currentBranch : String) (trackingRemote : Option String) (targetRepository : String) :
    RefreshM String :=
  if normalizeText explicitHeadRemote ≠ "" then do
    let remote ← RefreshQuery.call (.resolveRemote (explicitHeadRemote.getD ""))
    match remote with
    | some _ => pure (explicitHeadRemote.getD "")
    | none =>
      .fail ("Unable to resolve explicit head remote '" ++ explicitHeadRemote.getD "" ++ "'.")
  else do
    let tracked ← resolveTrackingRemote prInfo currentBranch trackingRemote
    match tracked with
    | some remoteName => pure remoteName
    | none => resolveHeadRemoteFrom prInfo targetRepository ["origin", "personal", "upstream"]

/-! ### The receipt at the start -/

structure RefreshContext where
  repo : String
  prView : PrView
  currentBranch : String
  headRemote : String
  baseRefName : String
  headRefName : String
  queueManagedBase : Bool
  initialState : InitialState
  deriving DecidableEq, Repr

def createReceipt (args : RefreshArgs) (ctx : RefreshContext) : RefreshReceipt where
  repo := ctx.repo
  pr := args.pr
  dryRun := args.dryRun
  baseRefName := ctx.baseRefName
  headRefName := ctx.headRefName
  headRepositorySlug := resolveHeadRepositorySlug ctx.prView
  headRemote := ctx.headRemote
  queueManagedBase := ctx.queueManagedBase
  initialState := ctx.initialState
  currentBranch := ctx.currentBranch
  dequeue :=
    { StepReport.skipped with
      pullRequestId := none
      pollAttemptsUsed := 0
      finalIsInMergeQueue := ctx.initialState.isInMergeQueue }
  refresh :=
    { StepReport.skipped with
      mode := none
      baseRemoteRef := if ctx.baseRefName = "" then none else some ("upstream/" ++ ctx.baseRefName)
      forcePushTarget :=
        if ctx.headRemote = "" ∨ ctx.headRefName = "" then none
        else some (ctx.headRemote ++ ":" ++ ctx.headRefName)
      rebasedHeadSha := none }
  requeue :=
    { StepReport.skipped with
      mergeSummaryPath := none
      promotionStatus := none
      materialized := none
      finalMode := none
      finalReason := none }
  summaryStatus := .skipped
  summaryReason := none

def createContext (repo : String) (policy : Json) (prView : PrView) (queueState : QueueState)
    (currentBranch headRemote : String) : RefreshContext where
  repo := repo
  prView := prView
  currentBranch := currentBranch
  headRemote := headRemote
  baseRefName := JsString.toLowerCase (normalizeText prView.baseRefName)
  headRefName := normalizeText prView.headRefName
  queueManagedBase := (getMergeQueueBranches policy).contains
    (JsString.toLowerCase (normalizeText prView.baseRefName))
  initialState := normalizeQueueState prView queueState

def getCurrentBranch : RefreshM String := do
  let result ← gitOrThrow .currentBranch
  pure (JsString.trim result.stdout)

/-- The part of the `try` block before there is a receipt. -/
def readContext (args : RefreshArgs) (repo : String) : RefreshM RefreshContext := do
  let policy ← RefreshQuery.call .readPolicy
  let prView ← RefreshQuery.call (.readPullRequestView repo args.pr)
  let queueState ← RefreshQuery.call (.readQueueState prView.id)
  let currentBranch ← getCurrentBranch
  let trackingRemote ← readTrackingRemote currentBranch
  let headRemote ← resolveHeadRemoteName args.headRemote prView currentBranch trackingRemote repo
  pure (createContext repo policy prView queueState currentBranch headRemote)

/-- What a run does before its `try` block has a receipt. -/
def prepareRefresh (githubRepository : Option String) (args : RefreshArgs) :
    RefreshM RefreshContext := do
  RefreshQuery.call .ensureGhCli
  let repo ← resolveRepositorySlug githubRepository args.repo
  readContext args repo

/-! ### Working on the receipt -/

abbrev ask (q : RefreshQuery) : RefreshAttempt q.Reply := Attempt.call q

def Progress.update (f : RefreshReceipt → RefreshReceipt) (progress : Progress) : Progress where
  receipt := f progress.receipt
  currentStep := progress.currentStep

def modifyReceipt (f : RefreshReceipt → RefreshReceipt) : RefreshAttempt Unit :=
  Attempt.modify (Progress.update f)

/-- `currentStep = step`, and the step is attempted. -/
def Progress.enter (step : RefreshStep) (progress : Progress) : Progress where
  receipt := progress.receipt.setReport (fun report => { report with attempted := true }) step
  currentStep := some step

def enterStep (step : RefreshStep) : RefreshAttempt Unit := Attempt.modify (Progress.enter step)

/-- `receipt[step].helperCallsExecuted.push(…)`. -/
def RefreshReceipt.listCall (step : RefreshStep) (helperCall : String) (receipt : RefreshReceipt) :
    RefreshReceipt :=
  receipt.setReport (fun report =>
    { report with helperCallsExecuted := report.helperCallsExecuted ++ [helperCall] }) step

/-- `receipt[step].status = 'completed'`, with a reason. -/
def RefreshReceipt.complete (step : RefreshStep) (reason : String) (receipt : RefreshReceipt) :
    RefreshReceipt :=
  receipt.setReport (fun report =>
    { report with status := .completed, reason := some reason }) step

def pushHelperCall (step : RefreshStep) (helperCall : String) : RefreshAttempt Unit :=
  modifyReceipt (RefreshReceipt.listCall step helperCall)

def completeStep (step : RefreshStep) (reason : String) : RefreshAttempt Unit :=
  modifyReceipt (RefreshReceipt.complete step reason)

def git (command : GitCommand) : RefreshAttempt GitResult := ask (.git command)

def requireSuccess (command : GitCommand) (result : GitResult) : RefreshAttempt Unit :=
  Attempt.require (result.status = some 0) (formatCommandError command result)

def runGit (command : GitCommand) : RefreshAttempt GitResult := do
  let result ← git command
  requireSuccess command result
  pure result

def runListedGit (command : GitCommand) : RefreshAttempt Unit := do
  pushHelperCall .refresh command.text
  let result ← git command
  requireSuccess command result

/-! ### The first step -/

/-- `normalizeText(state).toUpperCase() === 'OPEN'`. -/
def QueueState.isOpen (queueState : QueueState) : Bool :=
  JsString.toUpperCase (normalizeText queueState.state) = "OPEN"

/-- `sleepFn(DEQUEUE_POLL_DELAY_MS)`. -/
def pollDelay : RefreshAttempt Unit := ask (.sleep DEQUEUE_POLL_DELAY_MS)

def pollPause (attempt : ℕ) : RefreshAttempt Unit :=
  if attempt < DEQUEUE_POLL_ATTEMPTS then pollDelay else pure ()

/-- The loop of `pollForDequeuedState`, with the attempts that are left. -/
def pollFrom (pullRequestId : Option String) : ℕ → ℕ → RefreshAttempt (QueueState × ℕ)
  | _, 0 => Attempt.throw ("PR remained queued after " ++ toString DEQUEUE_POLL_ATTEMPTS ++
      " dequeue poll attempts.")
  | attempt, left + 1 => do
    let finalState ← ask (.readQueueState pullRequestId)
    if finalState.isInMergeQueue = false ∨ finalState.isOpen = false then
      pure (finalState, attempt)
    else do
      pollPause attempt
      pollFrom pullRequestId (attempt + 1) left

def pollForDequeuedState (pullRequestId : Option String) : RefreshAttempt (QueueState × ℕ) :=
  pollFrom pullRequestId 1 DEQUEUE_POLL_ATTEMPTS

/-- `receipt.dequeue.pullRequestId`. -/
def RefreshReceipt.setPullRequestId (prView : PrView) (receipt : RefreshReceipt) :
    RefreshReceipt :=
  { receipt with dequeue := { receipt.dequeue with pullRequestId := textOrNull prView.id } }

def RefreshReceipt.setPoll (poll : QueueState × ℕ) (receipt : RefreshReceipt) : RefreshReceipt :=
  { receipt with
    dequeue := { receipt.dequeue with
      pollAttemptsUsed := poll.2
      finalIsInMergeQueue := poll.1.isInMergeQueue } }

def dequeueStep (ctx : RefreshContext) : RefreshAttempt Unit := do
  enterStep .dequeue
  modifyReceipt (RefreshReceipt.setPullRequestId ctx.prView)
  pushHelperCall .dequeue "gh api graphql dequeuePullRequest"
  ask (.dequeue ctx.prView.id)
  let poll ← pollForDequeuedState ctx.prView.id
  modifyReceipt (RefreshReceipt.setPoll poll)
  completeStep .dequeue "dequeued"

/-! ### The second step -/

/-- The checkout of the head branch that creates it from the tracking branch, after the plain
one has failed. -/
def checkoutTracking (ctx : RefreshContext) : RefreshAttempt Unit := do
  pushHelperCall .refresh (GitCommand.checkoutTrack ctx.headRefName ctx.headRemote).text
  let checkout ← git (.checkoutTrack ctx.headRefName ctx.headRemote)
  requireSuccess (.checkout ctx.headRefName) checkout

def checkoutHead (ctx : RefreshContext) : RefreshAttempt Unit := do
  pushHelperCall .refresh (GitCommand.checkout ctx.headRefName).text
  let checkout ← git (.checkout ctx.headRefName)
  if checkout.status = some 0 then pure () else checkoutTracking ctx

def abortRebase (command : GitCommand) (rebase : GitResult) : RefreshAttempt Unit := do
  pushHelperCall .refresh GitCommand.rebaseAbort.text
  let _ ← git .rebaseAbort
  Attempt.throw (formatCommandError command rebase)

def rebaseOntoBase (ctx : RefreshContext) : RefreshAttempt Unit := do
  pushHelperCall .refresh (GitCommand.rebase ctx.baseRefName).text
  let rebase ← git (.rebase ctx.baseRefName)
  if rebase.status = some 0 then pure () else abortRebase (.rebase ctx.baseRefName) rebase

def switchToHead (ctx : RefreshContext) : RefreshAttempt Unit :=
  if ctx.currentBranch ≠ ctx.headRefName then checkoutHead ctx else pure ()

def rebaseHead (ctx : RefreshContext) : RefreshAttempt Unit := do
  runListedGit (.fetch "upstream" ctx.baseRefName)
  runListedGit (.fetch ctx.headRemote ctx.headRefName)
  switchToHead ctx
  rebaseOntoBase ctx

/-- `!args.skipRebase`: the commands that come before the push. -/
def rebaseUnlessAmend (args : RefreshArgs) (ctx : RefreshContext) : RefreshAttempt Unit :=
  if args.skipRebase then pure () else rebaseHead ctx

def refreshMode (args : RefreshArgs) : String := if args.skipRebase then "amend" else "rebase"

/-- `receipt.refresh.mode`. -/
def RefreshReceipt.setMode (args : RefreshArgs) (receipt : RefreshReceipt) : RefreshReceipt :=
  { receipt with refresh := { receipt.refresh with mode := some (refreshMode args) } }

/-- `receipt.refresh.rebasedHeadSha`. -/
def RefreshReceipt.setRebasedHead (rebasedHead : GitResult) (receipt : RefreshReceipt) :
    RefreshReceipt :=
  { receipt with
    refresh := { receipt.refresh with rebasedHeadSha := textOrNull (some rebasedHead.stdout) } }

def refreshStep (args : RefreshArgs) (ctx : RefreshContext) : RefreshAttempt Unit := do
  enterStep .refresh
  modifyReceipt (RefreshReceipt.setMode args)
  rebaseUnlessAmend args ctx
  let rebasedHead ← runGit .revParseHead
  runListedGit (.push ctx.headRemote ctx.headRefName)
  completeStep .refresh (if args.skipRebase then "amended-and-pushed" else "rebased-and-pushed")
  modifyReceipt (RefreshReceipt.setRebasedHead rebasedHead)

/-! ### The third step -/

def mergeSummaryPath (args : RefreshArgs) : String :=
  args.mergeSummaryPath.getD (buildDefaultMergeSummaryPath args.pr)

def mergeSyncArgv (args : RefreshArgs) (ctx : RefreshContext) : List String :=
  ["node", "tools/priority/merge-sync-pr.mjs", "--pr", toString args.pr, "--repo", ctx.repo,
    "--summary-path", mergeSummaryPath args]

/-- `receipt.requeue.mergeSummaryPath`. -/
def RefreshReceipt.setMergeSummaryPath (args : RefreshArgs) (receipt : RefreshReceipt) :
    RefreshReceipt :=
  { receipt with
    requeue := { receipt.requeue with mergeSummaryPath := some (mergeSummaryPath args) } }

def RefreshReceipt.setMergePayload (payload : MergePayload) (receipt : RefreshReceipt) :
    RefreshReceipt :=
  { receipt with
    requeue := { receipt.requeue with
      promotionStatus := textOrNull payload.promotionStatus
      materialized := payload.materialized
      finalMode := textOrNull payload.finalMode
      finalReason := textOrNull payload.finalReason } }

def requeueStep (args : RefreshArgs) (ctx : RefreshContext) : RefreshAttempt Unit := do
  enterStep .requeue
  modifyReceipt (RefreshReceipt.setMergeSummaryPath args)
  pushHelperCall .requeue "node tools/priority/merge-sync-pr.mjs"
  let mergePayload ← ask (.runMergeSync (mergeSyncArgv args ctx))
  completeStep .requeue "merge-sync-rearmed"
  modifyReceipt (RefreshReceipt.setMergePayload mergePayload)

/-! ### The run -/

def receiptPath (args : RefreshArgs) : String :=
  args.summaryPath.getD (buildDefaultReceiptPath args.pr)

/-- `receipt.summary`. -/
def RefreshReceipt.setSummary (status : StepStatus) (reason : String) (receipt : RefreshReceipt) :
    RefreshReceipt :=
  { receipt with summaryStatus := status, summaryReason := some reason }

def skipReason (ctx : RefreshContext) : Option String :=
  if ctx.queueManagedBase = false then some "base-not-queue-managed"
  else if ctx.initialState.state ≠ some "OPEN" then some "pull-request-not-open"
  else if ctx.initialState.isInMergeQueue = false then some "not-in-merge-queue"
  else none

def ensureCleanWorkingTree : RefreshAttempt Unit := do
  let result ← runGit .status
  Attempt.require (JsString.trim result.stdout = "") "Queue refresh requires a clean working tree."

def ensureAmendBranch (args : RefreshArgs) (ctx : RefreshContext) : RefreshAttempt Unit :=
  Attempt.require (!(args.skipRebase && ctx.currentBranch ≠ ctx.headRefName))
    ("Queue amend mode requires the checked-out branch '" ++ ctx.headRefName ++ "', but found '" ++
      orText ctx.currentBranch "HEAD" ++ "'.")

def StepReport.dryRun (report : StepReport) : StepReport :=
  { report with attempted := true, status := .dryRun, reason := some "dry-run" }

def dryRunReceipt (args : RefreshArgs) (ctx : RefreshContext) (receipt : RefreshReceipt) :
    RefreshReceipt :=
  { receipt with
    dequeue := { receipt.dequeue with
      toStepReport := receipt.dequeue.toStepReport.dryRun
      pullRequestId := textOrNull ctx.prView.id
      finalIsInMergeQueue := true }
    refresh := { receipt.refresh with
      toStepReport := receipt.refresh.toStepReport.dryRun
      mode := some (refreshMode args) }
    requeue := { receipt.requeue with
      toStepReport := receipt.requeue.toStepReport.dryRun
      mergeSummaryPath := some (mergeSummaryPath args) }
    summaryStatus := .dryRun
    summaryReason := some "dry-run" }

/-- `receipt.summary.reason`. -/
def RefreshReceipt.setSummaryReason (reason : String) (receipt : RefreshReceipt) :
    RefreshReceipt :=
  { receipt with summaryReason := some reason }

/-- The checks before the first step; `false` if the run is not to make any step. -/
def enterSteps (args : RefreshArgs) (ctx : RefreshContext) : RefreshAttempt Bool :=
  match skipReason ctx with
  | some reason => do
    modifyReceipt (RefreshReceipt.setSummaryReason reason)
    pure false
  | none => do
    ensureCleanWorkingTree
    ensureAmendBranch args ctx
    if args.dryRun then do
      modifyReceipt (dryRunReceipt args ctx)
      pure false
    else pure true

def finishRefresh (args : RefreshArgs) : RefreshAttempt (RefreshReceipt × String) := do
  let progress ← Attempt.get
  let path ← ask (.writeReceipt (receiptPath args) progress.receipt)
  pure (progress.receipt, path)

def runSteps (args : RefreshArgs) (ctx : RefreshContext) :
    RefreshAttempt (RefreshReceipt × String) := do
  dequeueStep ctx
  refreshStep args ctx
  requeueStep args ctx
  modifyReceipt (RefreshReceipt.setSummary .completed "queue-refresh-completed")
  finishRefresh args

/-- The part of the `try` block that has a receipt. -/
def refreshWithReceipt (args : RefreshArgs) (ctx : RefreshContext) :
    RefreshAttempt (RefreshReceipt × String) := do
  let entered ← enterSteps args ctx
  if entered then runSteps args ctx else finishRefresh args

/-- The receipt that the handler of the `try` block writes. -/
def failedReceipt (progress : Progress) (message : String) : RefreshReceipt :=
  let receipt := match progress.currentStep with
    | some step => markStepFailed progress.receipt step message
    | none => progress.receipt
  { receipt with
    summaryStatus := .failed
    summaryReason := some (orText (JsString.trim message) "queue-refresh-failed") }

/-- The end of the run: the result, or the handler of the `try` block. -/
def endRefresh (args : RefreshArgs) :
    Except String (RefreshReceipt × String) × Progress → RefreshM (RefreshReceipt × String)
  | (.ok result, _) => pure result
  | (.error message, progress) => do
    let _ ← RefreshQuery.call (.writeReceipt (receiptPath args) (failedReceipt progress message))
    .fail message

def runQueueRefresh (githubRepository : Option String) (args : RefreshArgs) :
    RefreshM (RefreshReceipt × String) :=
  prepareRefresh githubRepository args >>= fun ctx =>
    refreshWithReceipt args ctx ⟨createReceipt args ctx, none⟩ >>= endRefresh args

end CompareVI.Refresh
