import CompareVI.Framework.Interact
import CompareVI.Framework.JsString

/-!
# Merging a pull request

`runMergeSync` reads a pull request, selects a merge mode, has the review of the
current head cleared, issues one or two `gh pr merge` commands, verifies that the
promotion became visible, and cleans up the head branch. It is a program that talks to
GitHub (`MergeQuery`); everything it computes in between is a pure function of the
answers.

What it loads before it reads the pull request is `MergeSetup`, or an error. The branch
class contract is a function in it that resolves the class of the base branch and the
plane transition, or refuses the pull request.
-/

open Framework

namespace CompareVI.Merge

/-! ### Options and setup -/

/-- `MERGE_METHODS`. -/
inductive MergeMethod where
  | merge
  | squash
  | rebase
  deriving DecidableEq, Repr

def MergeMethod.text : MergeMethod → String
  | .merge => "merge"
  | .squash => "squash"
  | .rebase => "rebase"

def mergeMethodFallbackOrder : List MergeMethod := [.squash, .rebase, .merge]

/-- The options of `parseArgs`; the repository is resolved in the setup. -/
structure MergeOptions where
  pr : ℕ
  method : MergeMethod
  methodExplicit : Bool
  admin : Bool
  keepBranch : Bool
  dryRun : Bool
  summaryPath : Option String
  deriving DecidableEq, Repr

structure BranchClass where
  id : String
  mergePolicy : String
  matchedPattern : String
  deriving DecidableEq, Repr

/-- What the branch class contract says about a pull request. -/
structure BranchContext where
  targetRepositoryRole : String
  baseBranchClass : Option BranchClass
  planeTransition : Option Json
  deriving DecidableEq

/-- A pull request as `gh pr view` reports it. -/
structure PrInfo where
  state : Option String
  isDraft : Bool
  mergeStateStatus : Option String
  mergeable : Option String
  baseRefName : Option String
  url : Option String
  headRefName : Option String
  headRefOid : Option String
  headRepositoryName : Option String
  headRepositoryOwner : Option String
  isCrossRepository : Bool
  deriving DecidableEq, Repr

/-- What `runMergeSync` has loaded when it reads the pull request. -/
structure MergeSetup where
  repo : String
  supportedMethods : List MergeMethod
  mergeQueueBranches : List String
  copilotReviewStrategy : String
  branchContext : PrInfo → Except String BranchContext

def normalizeUpper (value : Option String) : String := (value.map JsString.toUpperCase).getD ""

def normalizeLower (value : Option String) : String := (value.map JsString.toLowerCase).getD ""

def normalizeText (value : Option String) : String := (value.map JsString.trim).getD ""

def normalizeOwner (value : Option String) : String :=
  (value.map fun v => JsString.toLowerCase (JsString.trim v)).getD ""

def normalizeBaseRefName (value : Option String) : String :=
  let lowered := JsString.trim (normalizeLower value)
  if JsString.startsWith lowered "refs/heads/" then JsString.slice lowered 11 else lowered

/-- `selectMergeMethod`: the requested method, why it was selected, the method. -/
structure MergeMethodSelection where
  requestedMethod : MergeMethod
  requestedSource : String
  effectiveMethod : MergeMethod
  reason : String
  deriving DecidableEq, Repr

def selectMergeMethod (repo : String) (o : MergeOptions) (supportedMethods : List MergeMethod) :
    Except String MergeMethodSelection :=
  if supportedMethods.isEmpty then
    .error ("Repository '" ++ repo ++ "' does not allow merge, squash, or rebase merges.")
  else if o.methodExplicit then
    if supportedMethods.contains o.method then
      .ok ⟨o.method, "cli", o.method, "requested-supported"⟩
    else
      .error ("Repository '" ++ repo ++ "' does not allow requested merge method '" ++
        o.method.text ++ "'. Supported methods: " ++
        JsString.join ", " (supportedMethods.map (·.text)) ++ ".")
  else if supportedMethods.contains o.method then
    .ok ⟨o.method, "default", o.method, "default-preferred-supported"⟩
  else
    match mergeMethodFallbackOrder.find? supportedMethods.contains with
    | some method => .ok ⟨o.method, "default", method, "default-fallback-" ++ method.text⟩
    | none =>
      .error ("Repository '" ++ repo ++ "' does not allow a fallback merge method for '" ++
        o.method.text ++ "'.")

/-! ### Mode and branch cleanup -/

inductive MergeMode where
  /-- `none`: the pull request is merged already. -/
  | none
  | auto
  | direct
  | admin
  deriving DecidableEq, Repr

def selectMergeMode (prInfo : PrInfo) (admin : Bool) (mergeQueueBranches : List String)
    (baseBranchClass : Option BranchClass) : Except String (MergeMode × String) :=
  let state := normalizeUpper prInfo.state
  let mergeState := normalizeUpper prInfo.mergeStateStatus
  let mergeable := normalizeUpper prInfo.mergeable
  let baseRefName := normalizeBaseRefName prInfo.baseRefName
  if state = "MERGED" then .ok (.none, "already-merged")
  else if state ≠ "" ∧ state ≠ "OPEN" then .error ("PR state " ++ state ++ " is not mergeable.")
  else if admin then .ok (.admin, "explicit-admin-override")
  else if prInfo.isDraft ∨ mergeState = "DRAFT" then .ok (.auto, "draft-pr")
  else if mergeState = "DIRTY" ∨ mergeable = "CONFLICTING" then
    .error ("PR has merge conflicts (DIRTY/CONFLICTING). Resolve conflicts before merge " ++
      "automation.")
  else if mergeable = "UNMERGEABLE" then
    .error "PR is UNMERGEABLE. Resolve branch/ruleset blockers before merge automation."
  else if baseBranchClass.any (·.mergePolicy = "merge-queue-squash") then
    .ok (.auto, "merge-queue-branch-" ++
      orText baseRefName ((baseBranchClass.map (·.id)).getD ""))
  else if baseBranchClass.isNone ∧ baseRefName ≠ "" ∧ mergeQueueBranches.contains baseRefName then
    .ok (.auto, "merge-queue-branch-" ++ baseRefName)
  else if mergeState = "CLEAN" ∧ (mergeable = "MERGEABLE" ∨ mergeable = "") then
    .ok (.direct, "clean-mergeable")
  else if mergeState = "UNKNOWN" then .ok (.auto, "unknown-merge-state")
  else if mergeState ≠ "" then .ok (.auto, "merge-state-" ++ JsString.toLowerCase mergeState)
  else .ok (.auto, "merge-state-unspecified")

def isQueueManagedBaseBranch (baseRefName : Option String) (mergeQueueBranches : List String)
    (baseBranchClass : Option BranchClass) : Bool :=
  if baseBranchClass.any (·.mergePolicy = "merge-queue-squash") then true
  else
    let normalized := normalizeBaseRefName baseRefName
    normalized ≠ "" && mergeQueueBranches.contains normalized

structure BranchCleanupPlan where
  requested : Bool
  inlineDeleteBranch : Bool
  postMergeDelete : Bool
  reason : String
  deriving DecidableEq, Repr

def resolveBranchCleanupPlan (keepBranch : Bool) (mode : MergeMode) (queueManaged : Bool) :
    BranchCleanupPlan :=
  if keepBranch then ⟨false, false, false, "keep-branch"⟩
  else if mode = .auto then ⟨true, false, true, "post-merge-api-delete"⟩
  else if queueManaged then ⟨true, false, true, "post-merge-api-delete"⟩
  else ⟨true, true, false, "inline-gh-delete-branch"⟩

/-! ### Merge commands -/

def buildMergeArgs (pr : ℕ) (repo : String) (method : MergeMethod) (mode : MergeMode)
    (inlineDeleteBranch : Bool) : List String :=
  ["pr", "merge", toString pr, "--repo", repo, "--" ++ method.text] ++
  -- the merge queue rejects the deletion of a branch on the auto path
  (if inlineDeleteBranch && mode ≠ .auto then ["--delete-branch"] else []) ++
  match mode with
  | .auto => ["--auto"]
  | .admin => ["--admin"]
  | .none | .direct => []

structure CommandResult where
  status : Option ℤ
  stdout : String
  stderr : String
  deriving DecidableEq, Repr

def occurs (literal : String) (cs : List Char) : Bool :=
  (JsString.firstMatch (JsString.stripLiteral literal.toList) cs).isSome

def occursBefore (first : String) (seconds : List String) (cs : List Char) : Bool :=
  (JsString.firstMatch (fun cs => (JsString.stripLiteral first.toList cs).bind fun rest =>
    let line := rest.takeWhile fun c => !JsString.isLineTerminator c
    if seconds.any (occurs · line) then some () else none) cs).isSome

/-- `POLICY_BLOCK_PATTERNS`. The `s?` of `checks?` is part of what may stand between. -/
def isPolicyBlocked (output : String) : Bool :=
  let cs := output.toList
  occurs "merge queue" cs ||
  occursBefore "required check" ["not passing", "not successful", "not complete"] cs ||
  occursBefore "required status check" ["pending"] cs ||
  occurs "base branch policy" cs ||
  occurs "protected branch" cs ||
  occurs "cannot be merged automatically" cs

def shouldRetryWithAuto (mode : MergeMode) (result : CommandResult) : Bool :=
  mode = .direct && isPolicyBlocked (result.stdout ++ "\n" ++ result.stderr)

/-- An entry of `attempts`. -/
structure MergeAttempt where
  mode : MergeMode
  args : List String
  exitCode : ℤ
  deriving DecidableEq, Repr

/-! ### Review clearance -/

structure ClearanceReport where
  status : Option String
  gateState : Option String
  reasons : List String
  actionableCommentCount : ℤ
  actionableThreadCount : ℤ
  hasCurrentHeadReview : Bool
  latestReviewIsCurrentHead : Bool
  reviewRunCompletedClean : Bool
  source : Option String
  receiptPath : Option String
  readyHeadSha : Option String
  currentHeadSha : Option String
  staleForCurrentHead : Option Bool
  deriving DecidableEq, Repr

structure ReviewClearance where
  ok : Bool
  report : Option ClearanceReport
  deriving DecidableEq, Repr

structure ReadyReceipt where
  status : Option String
  readyHeadSha : Option String
  currentHeadSha : Option String
  deriving DecidableEq, Repr

/-- What `loadReadyValidationClearance` returns. -/
structure ReadyClearance where
  receiptPath : String
  receipt : Option ReadyReceipt
  deriving DecidableEq, Repr

structure GateReport where
  status : Option String
  gateState : Option String
  reasons : List String
  actionableCommentCount : ℤ
  actionableThreadCount : ℤ
  hasCurrentHeadReview : Bool
  latestReviewIsCurrentHead : Bool
  reviewRunCompletedClean : Bool
  deriving DecidableEq, Repr

/-- What `runCopilotReviewGate` returns. -/
structure GateResult where
  exitCode : Option ℤ
  report : Option GateReport
  deriving DecidableEq, Repr

/-- What the review gate is called with, as far as it depends on the pull request. -/
structure GateArguments where
  headSha : String
  baseRef : String
  draft : Bool
  strategy : String
  deriving DecidableEq, Repr

def storedReport (ok : Bool) (reason : String) (receiptPath : String)
    (readyHeadSha currentHeadSha : Option String) (stale : Option Bool) : ReviewClearance :=
  { ok := ok
    report := some {
      status := some (if ok then "pass" else "fail")
      gateState := some (if ok then "ready" else "blocked")
      reasons := [reason]
      actionableCommentCount := 0
      actionableThreadCount := 0
      hasCurrentHeadReview := false
      latestReviewIsCurrentHead := false
      reviewRunCompletedClean := false
      source := some "stored-ready-validation-clearance"
      receiptPath := some receiptPath
      readyHeadSha := readyHeadSha
      currentHeadSha := currentHeadSha
      staleForCurrentHead := stale } }

/-- The part of `evaluatePromotionReviewClearance` that decides by the receipt. -/
def storedClearance (prInfo : PrInfo) (ready : ReadyClearance) : Option ReviewClearance :=
  let currentHeadSha := normalizeText prInfo.headRefOid
  ready.receipt.bind fun stored =>
    let storedStatus := normalizeLower stored.status
    let storedReadyHeadSha := normalizeText stored.readyHeadSha
    let storedCurrentHeadSha := normalizeText stored.currentHeadSha
    if storedReadyHeadSha ≠ "" ∧ storedStatus = "current" ∧ currentHeadSha ≠ "" ∧
        storedReadyHeadSha = currentHeadSha then
      some (storedReport true "stored-ready-validation-clearance-current-head" ready.receiptPath
        (some storedReadyHeadSha) (some currentHeadSha) (some false))
    else if storedReadyHeadSha ≠ "" ∧ currentHeadSha ≠ "" ∧ storedReadyHeadSha ≠ currentHeadSha then
      some (storedReport false "stored-ready-validation-clearance-stale-head" ready.receiptPath
        (some storedReadyHeadSha) (some currentHeadSha) (some true))
    else if storedStatus ≠ "" ∧ storedStatus ≠ "current" then
      some (storedReport false "stored-ready-validation-clearance-invalidated" ready.receiptPath
        (optionText (some storedReadyHeadSha))
        (optionText (some (orText currentHeadSha storedCurrentHeadSha)))
        (if storedReadyHeadSha ≠ "" ∧ currentHeadSha ≠ "" then
          some (decide (storedReadyHeadSha ≠ currentHeadSha)) else none))
    else none

def gateClearance (prInfo : PrInfo) (result : GateResult) : ReviewClearance where
  ok := result.exitCode = some 0
  report := result.report.map fun report => {
    status := report.status
    gateState := report.gateState
    reasons := report.reasons
    actionableCommentCount := report.actionableCommentCount
    actionableThreadCount := report.actionableThreadCount
    hasCurrentHeadReview := report.hasCurrentHeadReview
    latestReviewIsCurrentHead := report.latestReviewIsCurrentHead
    reviewRunCompletedClean := report.reviewRunCompletedClean
    source := some "copilot-review-gate"
    receiptPath := none
    readyHeadSha := none
    currentHeadSha := optionText prInfo.headRefOid
    staleForCurrentHead := none }

/-- The clearance of a pull request that is merged already. -/
def skippedClearance : ReviewClearance where
  ok := true
  report := some {
    status := some "skipped"
    gateState := some "skipped"
    reasons := ["already-merged"]
    actionableCommentCount := 0
    actionableThreadCount := 0
    hasCurrentHeadReview := false
    latestReviewIsCurrentHead := false
    reviewRunCompletedClean := false
    source := none
    receiptPath := none
    readyHeadSha := none
    currentHeadSha := none
    staleForCurrentHead := none }

/-! ### Promotion -/

structure PromotionState where
  state : Option String
  mergeStateStatus : Option String
  isInMergeQueue : Bool
  /-- There is an `autoMergeRequest`. -/
  autoMergeRequest : Bool
  mergedAt : Option String
  deriving DecidableEq, Repr

/-- The values of a promotion's `status`. -/
inductive PromotionStatus where
  | unchanged
  | alreadyMerged
  | merged
  | alreadyQueued
  | queued
  | alreadyAutoMergeEnabled
  | autoMergeEnabled
  | dryRun
  deriving DecidableEq, Repr

def PromotionStatus.text : PromotionStatus → String
  | .unchanged => "unchanged"
  | .alreadyMerged => "already-merged"
  | .merged => "merged"
  | .alreadyQueued => "already-queued"
  | .queued => "queued"
  | .alreadyAutoMergeEnabled => "already-auto-merge-enabled"
  | .autoMergeEnabled => "auto-merge-enabled"
  | .dryRun => "dry-run"

/-- A promotion: the states before and after, and what became of it. -/
structure Promotion where
  status : PromotionStatus
  materialized : Bool
  finalMode : MergeMode
  initial : PromotionState
  final : Option PromotionState
  pollAttemptsUsed : ℕ
  deriving DecidableEq, Repr

/-- The state is `MERGED`. -/
def PromotionState.isMerged (s : PromotionState) : Bool := normalizeUpper s.state = "MERGED"

/-- The status of `classifyPromotionState`, which is material unless it is unchanged. -/
def promotionStatus (initial final : PromotionState) (finalMode : MergeMode) : PromotionStatus :=
  if final.isMerged then if initial.isMerged then .alreadyMerged else .merged
  else if final.isInMergeQueue then if initial.isInMergeQueue then .alreadyQueued else .queued
  else if final.autoMergeRequest then
    if initial.autoMergeRequest then .alreadyAutoMergeEnabled else .autoMergeEnabled
  else if finalMode = .none ∧ initial.isMerged then .alreadyMerged
  else .unchanged

def classifyPromotionState (initial final : PromotionState) (finalMode : MergeMode) : Promotion :=
  let status := promotionStatus initial final finalMode
  { status := status
    materialized := status ≠ .unchanged
    finalMode := finalMode
    initial := initial
    final := some final
    pollAttemptsUsed := 0 }

/-! ### The report -/

/-- The values of a branch cleanup's `status`. -/
inductive CleanupStatus where
  | deferred
  | kept
  | dryRunInline
  | inlineRequested
  | skipped
  | dryRun
  | deleted
  | alreadyAbsent
  deriving DecidableEq, Repr

/-- The `branchCleanup` part of the summary. The result of the API deletion has no
`inlineDeleteBranch` and `postMergeDelete`. -/
structure BranchCleanup where
  requested : Bool
  attempted : Bool
  status : CleanupStatus
  reason : String
  inlineDeleteBranch : Option Bool
  postMergeDelete : Option Bool
  repository : Option String
  headRefName : Option String
  detail : Option String
  deriving DecidableEq, Repr

/-- The summary payload, its time stamps and constant traces apart. -/
structure MergeSummary where
  repo : String
  pr : ℕ
  mergeMethodSelection : MergeMethodSelection
  selectedMode : MergeMode
  selectedReason : String
  finalMode : MergeMode
  finalReason : String
  dryRun : Bool
  mergeQueueBranches : List String
  attempts : List MergeAttempt
  prInfo : PrInfo
  branchContext : BranchContext
  reviewClearance : Option ClearanceReport
  branchCleanup : BranchCleanup
  promotion : Promotion
  deriving DecidableEq

/-! ### The program -/

/-- What `runMergeSync` asks of the outside. -/
inductive MergeQuery where
  | readPrInfo
  /-- `loadReadyValidationClearance`. -/
  | readClearance
  | reviewGate (arguments : GateArguments)
  | readPromotionState
  /-- `gh` with the arguments of a merge. -/
  | merge (args : List String)
  | sleep (milliseconds : ℕ)
  /-- `gh api -X DELETE` of the branch. -/
  | deleteRef (repository headRefName : String)
  | writeSummary (path : String) (payload : MergeSummary)
  deriving DecidableEq

abbrev MergeAnswer : MergeQuery → Type
  | .readPrInfo => Except String PrInfo
  | .readClearance => Except String ReadyClearance
  | .reviewGate _ => Except String GateResult
  | .readPromotionState => Except String PromotionState
  | .merge _ => CommandResult
  | .sleep _ => Unit
  | .deleteRef _ _ => CommandResult
  | .writeSummary _ _ => Unit

abbrev MergeProg := Prog MergeQuery MergeAnswer

def ask (q : MergeQuery) : MergeProg (MergeAnswer q) := Prog.query q

def readPrInfo : MergeProg PrInfo := ask .readPrInfo >>= Prog.ofExcept

def readPromotionState : MergeProg PromotionState := ask .readPromotionState >>= Prog.ofExcept

def loadReadyValidationClearance : MergeProg ReadyClearance := ask .readClearance >>= Prog.ofExcept

def runCopilotReviewGate (arguments : GateArguments) : MergeProg GateResult :=
  ask (.reviewGate arguments) >>= Prog.ofExcept

def gateArguments (strategy : String) (prInfo : PrInfo) : GateArguments where
  headSha := normalizeText prInfo.headRefOid
  baseRef := normalizeBaseRefName prInfo.baseRefName
  draft := prInfo.isDraft
  strategy := strategy

def evaluatePromotionReviewClearance (strategy : String) (prInfo : PrInfo) :
    MergeProg ReviewClearance := do
  let ready ← loadReadyValidationClearance
  match storedClearance prInfo ready with
  | some clearance => pure clearance
  | none => do
    let result ← runCopilotReviewGate (gateArguments strategy prInfo)
    pure (gateClearance prInfo result)

/-- `runMergeAttempt`: a dry run only prints the command. -/
def runMergeAttempt (dryRun : Bool) (args : List String) : MergeProg CommandResult :=
  if dryRun then pure ⟨some 0, "", ""⟩ else ask (.merge args)

structure Issued where
  attempts : List MergeAttempt
  finalMode : MergeMode
  finalReason : String
  plan : BranchCleanupPlan
  deriving DecidableEq, Repr

/-- The attempts of `runMergeSync` for a mode other than `none`. -/
def issueMergeCommands (o : MergeOptions) (repo : String) (method : MergeMethod)
    (mode : MergeMode) (reason : String) (queueManaged : Bool) (plan : BranchCleanupPlan) :
    MergeProg Issued := do
  let initialArgs := buildMergeArgs o.pr repo method mode plan.inlineDeleteBranch
  let initialResult ← runMergeAttempt o.dryRun initialArgs
  let initialAttempt : MergeAttempt := ⟨mode, initialArgs, initialResult.status.getD 1⟩
  if initialResult.status = some 0 then
    pure ⟨[initialAttempt], mode, reason, plan⟩
  else if shouldRetryWithAuto mode initialResult && !o.admin then do
    let retryArgs := buildMergeArgs o.pr repo method .auto false
    let retryResult ← runMergeAttempt o.dryRun retryArgs
    if retryResult.status = some 0 then
      pure ⟨[initialAttempt, ⟨.auto, retryArgs, retryResult.status.getD 1⟩], .auto,
        "direct-merge-policy-block-retry-auto",
        resolveBranchCleanupPlan o.keepBranch .auto queueManaged⟩
    else
      .fail ("[priority:merge-sync] auto-merge retry failed. Use --admin only when explicitly " ++
        "required for policy exception.")
  else if o.admin then
    .fail ("[priority:merge-sync] merge failed in admin mode. Resolve policy or branch state " ++
      "and retry.")
  else
    .fail ("[priority:merge-sync] merge failed. Re-run with --admin only if privileged " ++
      "override is required.")

def mergeActivationPollAttempts : ℕ := 5

def mergeActivationPollDelayMs : ℕ := 1500

/-- The poll loop of `verifyPromotionActivation`, with the attempts that are left. -/
def pollPromotion (initial : PromotionState) (finalMode : MergeMode) :
    ℕ → Promotion → MergeProg Promotion
  | 0, activation => pure { activation with pollAttemptsUsed := mergeActivationPollAttempts }
  | left + 1, _ => do
    let final ← readPromotionState
    let activation := classifyPromotionState initial final finalMode
    if activation.materialized then
      pure { activation with pollAttemptsUsed := mergeActivationPollAttempts - left }
    else if left = 0 then pollPromotion initial finalMode left activation
    else do
      ask (.sleep mergeActivationPollDelayMs)
      pollPromotion initial finalMode left activation

def verifyPromotionActivation (initial : PromotionState) (finalMode : MergeMode) :
    MergeProg Promotion :=
  let activation := classifyPromotionState initial initial finalMode
  if activation.materialized || finalMode = .none then pure activation
  else pollPromotion initial finalMode mergeActivationPollAttempts activation

def resolveHeadRepositoryOwner (prInfo : PrInfo) : String :=
  normalizeOwner prInfo.headRepositoryOwner

def resolveHeadRepositorySlug (prInfo : PrInfo) : String :=
  let owner := resolveHeadRepositoryOwner prInfo
  let repoName := normalizeText prInfo.headRepositoryName
  if owner = "" ∨ repoName = "" then "" else owner ++ "/" ++ repoName

/-- `/reference does not exist|not found|http 404/i`. -/
def isMissingReference (detail : String) : Bool :=
  occurs "reference does not exist" detail.toList || occurs "not found" detail.toList ||
    occurs "http 404" detail.toList

def deleteHeadBranchRef (headRepositorySlug headRefName : String) (dryRun : Bool) :
    MergeProg BranchCleanup :=
  if headRefName = "" ∨ headRepositorySlug = "" then
    pure ⟨true, false, .skipped, "missing-head-branch-metadata", none, none,
      optionText (some headRepositorySlug), optionText (some headRefName), none⟩
  else if dryRun then
    pure ⟨true, false, .dryRun, "post-merge-api-delete", none, none, some headRepositorySlug,
      some headRefName, none⟩
  else do
    let result ← ask (.deleteRef headRepositorySlug headRefName)
    let detail := JsString.trim (result.stderr ++ result.stdout)
    if result.status = some 0 then
      pure ⟨true, true, .deleted, "post-merge-api-delete", none, none, some headRepositorySlug,
        some headRefName, none⟩
    else if isMissingReference detail then
      pure ⟨true, true, .alreadyAbsent, "post-merge-api-delete", none, none,
        some headRepositorySlug, some headRefName, some detail⟩
    else
      .fail ("[priority:merge-sync] post-merge branch cleanup failed for " ++
        headRepositorySlug ++ ":" ++ headRefName ++ ": " ++
        orText detail ("exit " ++ (result.status.map toString).getD "null"))

def deleteMergedHeadBranch (prInfo : PrInfo) (dryRun : Bool) : MergeProg BranchCleanup :=
  deleteHeadBranchRef (resolveHeadRepositorySlug prInfo) (normalizeText prInfo.headRefName) dryRun

/-- The branch cleanup of `runMergeSync`. -/
def cleanUpBranch (o : MergeOptions) (prInfo : PrInfo) (plan : BranchCleanupPlan)
    (promotion : Promotion) : MergeProg BranchCleanup :=
  let planned : BranchCleanup := {
    requested := plan.requested
    attempted := false
    status := if plan.requested then .deferred else .kept
    reason := plan.reason
    inlineDeleteBranch := some plan.inlineDeleteBranch
    postMergeDelete := some plan.postMergeDelete
    repository := optionText (some (resolveHeadRepositorySlug prInfo))
    headRefName := optionText (some (normalizeText prInfo.headRefName))
    detail := none }
  if plan.inlineDeleteBranch then
    pure { planned with status := if o.dryRun then .dryRunInline else .inlineRequested }
  else if plan.postMergeDelete then
    if o.dryRun then deleteMergedHeadBranch prInfo true
    else if promotion.materialized &&
        (promotion.status = .merged || promotion.status = .alreadyMerged) then
      deleteMergedHeadBranch prInfo false
    else pure { planned with status := .deferred, reason := "promotion-not-yet-merged" }
  else pure planned

/-- The review clearance that `runMergeSync` works with. -/
def reviewClearance (ctx : MergeSetup) (prInfo : PrInfo) (mode : MergeMode) :
    MergeProg ReviewClearance :=
  if mode = .none then pure skippedClearance
  else evaluatePromotionReviewClearance ctx.copilotReviewStrategy prInfo

def initialPromotionState (prInfo : PrInfo) (mode : MergeMode) : MergeProg PromotionState :=
  if mode = .none then pure ⟨prInfo.state, prInfo.mergeStateStatus, false, false, none⟩
  else readPromotionState

def observePromotion (o : MergeOptions) (initial : PromotionState) (finalMode : MergeMode) :
    MergeProg Promotion :=
  if o.dryRun then
    pure ⟨.dryRun, false, finalMode, initial, none, 0⟩
  else verifyPromotionActivation initial finalMode

def maybeWriteSummary (summaryPath : Option String) (payload : MergeSummary) : MergeProg Unit :=
  match summaryPath with
  | some path => ask (.writeSummary path payload)
  | none => pure ()

/-- What becomes of an issued merge: promotion, cleanup and report. -/
def reportMerge (ctx : MergeSetup) (o : MergeOptions) (method : MergeMethodSelection)
    (prInfo : PrInfo) (branch : BranchContext) (mode : MergeMode) (reason : String)
    (clearance : ReviewClearance) (initial : PromotionState) (issued : Issued) :
    MergeProg MergeSummary := do
  let promotion ← observePromotion o initial issued.finalMode
  let branchCleanup ← cleanUpBranch o prInfo issued.plan promotion
  let payload : MergeSummary := {
    repo := ctx.repo
    pr := o.pr
    mergeMethodSelection := method
    selectedMode := mode
    selectedReason := reason
    finalMode := issued.finalMode
    finalReason := issued.finalReason
    dryRun := o.dryRun
    mergeQueueBranches := ctx.mergeQueueBranches
    attempts := issued.attempts
    prInfo := prInfo
    branchContext := branch
    reviewClearance := clearance.report
    branchCleanup := branchCleanup
    promotion := promotion }
  maybeWriteSummary o.summaryPath payload
  if !o.dryRun && mode ≠ .none && !promotion.materialized then
    .fail ("[priority:merge-sync] merge command completed but no durable promotion state was " ++
      "observed (status=" ++ promotion.status.text ++ ").")
  else pure payload

/-- `runMergeSync` once the mode is selected. -/
def promote (ctx : MergeSetup) (o : MergeOptions) (method : MergeMethodSelection)
    (prInfo : PrInfo) (branch : BranchContext) (mode : MergeMode) (reason : String) :
    MergeProg MergeSummary := do
  let clearance ← reviewClearance ctx prInfo mode
  let initial ← initialPromotionState prInfo mode
  let queueManaged :=
    isQueueManagedBaseBranch prInfo.baseRefName ctx.mergeQueueBranches branch.baseBranchClass
  let plan := resolveBranchCleanupPlan o.keepBranch mode queueManaged
  if clearance.ok then do
    let issued ←
      if mode = .none then pure ⟨[], mode, reason, plan⟩
      else
        issueMergeCommands o ctx.repo method.effectiveMethod mode reason queueManaged plan
    reportMerge ctx o method prInfo branch mode reason clearance initial issued
  else
    .fail ("[priority:merge-sync] current-head Copilot review clearance failed: " ++
      orText (JsString.join ", " ((clearance.report.map (·.reasons)).getD []))
        "review-clearance-failed")

def runMergeSync (setup : Except String MergeSetup) (o : MergeOptions) :
    MergeProg MergeSummary := do
  let ctx ← Prog.ofExcept setup
  let method ← Prog.ofExcept (selectMergeMethod ctx.repo o ctx.supportedMethods)
  let prInfo ← readPrInfo
  let branch ← Prog.ofExcept (ctx.branchContext prInfo)
  let (mode, reason) ← Prog.ofExcept
    (selectMergeMode prInfo o.admin ctx.mergeQueueBranches branch.baseBranchClass)
  promote ctx o method prInfo branch mode reason

end CompareVI.Merge
