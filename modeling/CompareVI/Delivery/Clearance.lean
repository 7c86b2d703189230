import CompareVI.Delivery.Finalize

/-!
# The draft-only review contract

`enforceDraftOnlyReviewContract` keeps a pull request a draft until the review of its
current head is clean and, if it is asked for, a local review is satisfied; it marks the
pull request ready then, and returns it to draft when this no longer holds. A receipt
remembers the head that was cleared, and the promotion trusts the receipt
(`Merge.storedClearance`).

The local review is a program of its own; here it is a query with any answer. The receipt is
a file that only this function writes, one for each pull request.
-/

open Framework

namespace CompareVI.Delivery

/-! ### Receipts and results -/

/-- The values of the receipt's `status`. -/
inductive ClearanceStatus where
  | current
  | invalidated
  | invalidatedHeadMismatch
  deriving DecidableEq, Repr

def ClearanceStatus.text : ClearanceStatus → String
  | .current => "current"
  | .invalidated => "invalidated"
  | .invalidatedHeadMismatch => "invalidated-head-mismatch"

structure LocalReviewReceipt where
  /-- `git.dirtyTracked === true`. -/
  dirtyTracked : Bool
  /-- `overall.status`. -/
  overallStatus : Option Json
  deriving DecidableEq

/-- The `localReviewLoop` part of a result. -/
structure LocalReviewLoop where
  status : Option Json
  receiptPath : Option Json
  currentHeadSha : Option Json
  receiptHeadSha : Option Json
  receiptFreshForHead : Option Bool
  requestedCoverageSatisfied : Option Bool
  receipt : Option LocalReviewReceipt
  deriving DecidableEq

structure LocalReviewNote where
  receiptPath : Option String
  receiptHeadSha : Option String
  currentHeadSha : Option String
  receiptFreshForHead : Option Bool
  requestedCoverageSatisfied : Option Bool
  deriving DecidableEq, Repr

/-- The ready-validation receipt, its schema and time stamp apart. -/
structure ReadyValidationReceipt where
  repository : Option String
  pullRequestNumber : ℕ
  pullRequestUrl : Option String
  readyHeadSha : Option String
  currentHeadSha : Option String
  status : ClearanceStatus
  reason : Option String
  localReviewLoop : Option LocalReviewNote
  deriving DecidableEq, Repr

/-- The `readyValidationClearance` part of a result. -/
structure ClearanceView where
  status : Option ClearanceStatus
  readyHeadSha : Option String
  currentHeadSha : Option String
  staleForCurrentHead : Option Bool
  reason : Option String
  deriving DecidableEq, Repr

/-- The values of a result's `outcome`. -/
inductive ContractOutcome where
  | draftReviewAssessment
  | localReviewLoopFailed
  | draftTransitionFailed
  | readyTransitionFailed
  | waitingCi
  | waitingReview
  deriving DecidableEq, Repr

/-- The values of `nextWakeCondition`. -/
inductive ContractWake where
  | localReviewLoopGreen
  | localReviewLoopPolicyFixed
  | draftTransitionFixed
  | readyTransitionFixed
  | checksGreen
  | reviewCommentsAddressed
  | copilotReviewWorkflowCompleted
  | copilotReviewPostExpected
  | reviewDispositionUpdated
  deriving DecidableEq, Repr

/-- The values of `reviewPhase`. -/
inductive ReviewPhase where
  | draftReview
  | readyValidation
  deriving DecidableEq, Repr

/-- A result of the contract, or of the local review. The lane's lifecycle and blocker class
go with the outcome. -/
structure ContractResult where
  status : TurnStatus
  outcome : ContractOutcome
  reason : String
  retryable : Bool
  nextWakeCondition : ContractWake
  pollIntervalSecondsHint : Option ℕ
  reviewMonitor : Option ReviewWorkflow
  reviewPhase : Option ReviewPhase
  helperCallsExecuted : List String
  filesTouched : List String
  localReviewLoop : Option LocalReviewLoop
  readyValidationClearance : Option ClearanceView
  deriving DecidableEq

/-- What the contract reads of the plan, the task packet and the policy. -/
structure ContractInput where
  /-- `planned.pullRequest`. -/
  pullRequest : Option PullRequest
  repository : Option Json
  /-- `copilotReviewStrategy` of the packet's mutation envelope. -/
  envelopeStrategy : Option Json
  /-- `copilotReviewStrategy` of the policy. -/
  policyStrategy : Option Json
  /-- `localReviewLoop.requested === true`. -/
  localReviewRequested : Bool
  deriving DecidableEq

/-! ### The outside -/

structure CommandResult where
  status : ℤ
  stdout : String
  stderr : String
  deriving DecidableEq, Repr

inductive ContractQuery where
  /-- `loadReadyValidationClearance`; a file that is not JSON counts as none. -/
  | loadClearance
  /-- `maybeRunLocalReviewLoop`. -/
  | localReview
  /-- `gh pr ready`, with `--undo` for a draft. -/
  | setReadyState (repository : String) (number : ℕ) (ready : Bool)
  /-- `writeJsonAtomically` of the receipt. -/
  | writeClearance (receipt : ReadyValidationReceipt)
  deriving DecidableEq

abbrev ContractQuery.Reply : ContractQuery → Type
  | .loadClearance => Option ReadyValidationReceipt
  | .localReview => ContractResult
  | .setReadyState _ _ _ => CommandResult
  | .writeClearance _ => Unit

abbrev ContractAnswer (q : ContractQuery) : Type := Except String q.Reply

abbrev ContractM := Prog ContractQuery ContractAnswer

abbrev ContractQuery.call (q : ContractQuery) : ContractM q.Reply := Prog.call q

/-! ### What is computed -/

/-- `uniqueStrings`: trimmed, without blanks, the first of each. -/
def uniqueStrings (values : List String) : List String :=
  ((values.map JsString.trim).filter (· ≠ "")).reverse.dedup.reverse

def normalizeCopilotReviewStrategy (value : Option Json) : Except String String :=
  let normalized := normalizeText value
  if normalized = "" ∨ normalized = "draft-only-explicit" then .ok "draft-only-explicit"
  else .error ("Unsupported copilotReviewStrategy: " ++ normalized)

def ContractInput.strategy (input : ContractInput) : Option Json :=
  if Json.truthy input.envelopeStrategy then input.envelopeStrategy else input.policyStrategy

def ContractInput.target (input : ContractInput) : Option PullRequest :=
  input.pullRequest.filter fun pr => pr.url.any (· ≠ "") && 0 < pr.number

def currentHead (pr : PullRequest) : Option String :=
  pr.headRefOid.bind fun sha => if JsString.trim sha = "" then none else some (JsString.trim sha)

/-- What `evaluateDraftPhaseCopilotClearance` returns, as far as the contract reads it. -/
structure DraftClearance where
  ok : Bool
  nextWakeCondition : ContractWake
  pollIntervalSecondsHint : Option ℕ
  workflow : Option ReviewWorkflow
  deriving DecidableEq, Repr

def evaluateDraftPhaseCopilotClearance (pr : PullRequest) : DraftClearance :=
  let comments := (pr.copilotReviewSignal.bind (·.actionableCommentCount)).getD 0
  let threads := (pr.copilotReviewSignal.bind (·.actionableThreadCount)).getD 0
  let pending := pr.copilotReviewWorkflow.any (·.isPending)
  let success := pr.copilotReviewWorkflow.any (·.isSuccess)
  { ok := comments = 0 && threads = 0 && pr.copilotReviewSignal.any (·.hasCurrentHeadReview)
    nextWakeCondition :=
      if 0 < comments ∨ 0 < threads then .reviewCommentsAddressed
      else if pending then .copilotReviewWorkflowCompleted
      else if success then .copilotReviewPostExpected
      else .reviewDispositionUpdated
    pollIntervalSecondsHint :=
      if pending then some COPILOT_REVIEW_ACTIVE_POLL_HINT_SECONDS
      else if success then some COPILOT_REVIEW_POST_POLL_HINT_SECONDS
      else none
    workflow := pr.copilotReviewWorkflow }

/-- `localReviewLoopSatisfied`; a loop that is missing is satisfied. -/
def localReviewLoopSatisfied : Option LocalReviewLoop → Bool
  | none => true
  | some loop =>
    JsString.toLowerCase (normalizeText loop.status) = "passed" &&
      loop.receiptFreshForHead = some true && loop.requestedCoverageSatisfied = some true &&
      JsString.toLowerCase (normalizeText (loop.receipt.bind (·.overallStatus))) = "passed" &&
      !loop.receipt.any (·.dirtyTracked)

def LocalReviewLoop.note (loop : LocalReviewLoop) : LocalReviewNote where
  receiptPath := optionText loop.receiptPath
  receiptHeadSha := optionText loop.receiptHeadSha
  currentHeadSha := optionText loop.currentHeadSha
  receiptFreshForHead := loop.receiptFreshForHead
  requestedCoverageSatisfied := loop.requestedCoverageSatisfied

/-- The receipt that `persistReadyValidationClearance` writes. -/
def clearanceReceipt (repository : String) (pr : PullRequest) (loop : Option LocalReviewLoop)
    (readyHeadShaOverride currentHeadShaOverride : Option String) (status : ClearanceStatus)
    (reason : String) : ReadyValidationReceipt where
  repository := optionText (some (.str repository))
  pullRequestNumber := pr.number
  pullRequestUrl := pr.url.bind fun url => optionText (some (.str url))
  readyHeadSha := readyHeadShaOverride.or (currentHead pr)
  currentHeadSha := currentHeadShaOverride.or (currentHead pr)
  status := status
  reason := optionText (some (.str reason))
  localReviewLoop := loop.map LocalReviewLoop.note

/-- The arguments of `buildPrReadyArgs`. -/
def buildPrReadyArgs (repository : String) (number : ℕ) (ready : Bool) : List String :=
  ["pr", "ready", toString number, "--repo", repository] ++ (if ready then [] else ["--undo"])

/-- What `setPullRequestReadyState` returns. -/
structure ReadyTransition where
  ok : Bool
  helperCall : Option String
  result : CommandResult
  deriving DecidableEq, Repr

def missingTransition : ReadyTransition :=
  ⟨false, none, ⟨1, "", "Pull request number or repository is missing."⟩⟩

def commandTransition (repository : String) (number : ℕ) (ready : Bool) (result : CommandResult) :
    ReadyTransition :=
  ⟨result.status = 0,
    some ("gh " ++ JsString.join " " (buildPrReadyArgs repository number ready)), result⟩

def CommandResult.complaint (result : CommandResult) (text : String) : String :=
  orText (JsString.trim result.stderr) (orText (JsString.trim result.stdout) text)

def withHelperCall (calls : List String) (transition : ReadyTransition) : List String :=
  uniqueStrings (calls ++ transition.helperCall.toList)

/-! ### What the contract knows of a call -/

structure Assessment where
  pr : PullRequest
  repository : String
  stored : Option ReadyValidationReceipt
  localReviewRequested : Bool
  localReviewLoop : Option LocalReviewLoop
  helperCalls : List String
  filesTouched : List String
  deriving DecidableEq

namespace Assessment

/-- `localReviewSatisfiedFlag`. -/
def localSatisfied (a : Assessment) : Bool :=
  !a.localReviewRequested || localReviewLoopSatisfied a.localReviewLoop

def storedReadyHeadSha (a : Assessment) : Option String := a.stored.bind (·.readyHeadSha)

def readyHeadMismatch (a : Assessment) : Bool :=
  !a.pr.isDraft && (currentHead a.pr).isSome && a.storedReadyHeadSha.isSome &&
    currentHead a.pr ≠ a.storedReadyHeadSha

def cleared (a : Assessment) : Bool :=
  (evaluateDraftPhaseCopilotClearance a.pr).ok && a.localSatisfied

def localMissing (a : Assessment) : Bool := a.localReviewRequested && !a.localSatisfied

def currentReceipt (a : Assessment) (reason : String) : ReadyValidationReceipt :=
  clearanceReceipt a.repository a.pr a.localReviewLoop none none .current reason

def mismatchReason (a : Assessment) (verb : String) : String :=
  "Ready-validation clearance head " ++ a.storedReadyHeadSha.getD "null" ++ " " ++ verb ++
    " current head " ++ (currentHead a.pr).getD "null" ++ "."

def revokedReceipt (a : Assessment) : ReadyValidationReceipt :=
  clearanceReceipt a.repository a.pr a.localReviewLoop a.storedReadyHeadSha (currentHead a.pr)
    (if a.readyHeadMismatch then .invalidatedHeadMismatch else .invalidated)
    (if a.readyHeadMismatch then a.mismatchReason "no longer matches"
      else if a.localMissing then
        "Ready-validation clearance invalidated because local Docker/Desktop review clearance " ++
          "no longer matches the current head."
      else
        "Ready-validation clearance invalidated because current-head draft-phase Copilot review " ++
          "clearance is missing or unresolved.")

def transitionFailed (a : Assessment) (ready : Bool) (transition : ReadyTransition) (text : String)
    (view : Option ClearanceView) : ContractResult where
  status := .blocked
  outcome := if ready then .readyTransitionFailed else .draftTransitionFailed
  reason := transition.result.complaint text
  retryable := false
  nextWakeCondition := if ready then .readyTransitionFixed else .draftTransitionFixed
  pollIntervalSecondsHint := none
  reviewMonitor := none
  reviewPhase := some (if ready then .readyValidation else .draftReview)
  helperCallsExecuted := withHelperCall a.helperCalls transition
  filesTouched := a.filesTouched
  localReviewLoop := a.localReviewLoop
  readyValidationClearance := view

/-- The result of a pull request that was marked ready. -/
def markedReady (a : Assessment) (transition : ReadyTransition)
    (receipt : ReadyValidationReceipt) : ContractResult where
  status := .completed
  outcome := .waitingCi
  reason := "Marked the PR ready for review after clean draft-phase Copilot review and local " ++
    "validation."
  retryable := true
  nextWakeCondition := .checksGreen
  pollIntervalSecondsHint := none
  reviewMonitor := none
  reviewPhase := some .readyValidation
  helperCallsExecuted := withHelperCall a.helperCalls transition
  filesTouched := a.filesTouched
  localReviewLoop := a.localReviewLoop
  readyValidationClearance := some ⟨some .current, receipt.readyHeadSha.or (currentHead a.pr),
    currentHead a.pr, some false, receipt.reason⟩

/-- A result of a pull request that is a draft and waits for its review. -/
def waitingReview (a : Assessment) (reason : String) (helperCalls : List String)
    (view : Option ClearanceView) : ContractResult :=
  let clearance := evaluateDraftPhaseCopilotClearance a.pr
  { status := .completed
    outcome := .waitingReview
    reason
    retryable := true
    nextWakeCondition :=
      if a.localMissing then .localReviewLoopGreen else clearance.nextWakeCondition
    pollIntervalSecondsHint := if a.localMissing then none else clearance.pollIntervalSecondsHint
    reviewMonitor := clearance.workflow
    reviewPhase := some .draftReview
    helperCallsExecuted := helperCalls
    filesTouched := a.filesTouched
    localReviewLoop := a.localReviewLoop
    readyValidationClearance := view }

def staysDraft (a : Assessment) : ContractResult :=
  a.waitingReview
    (if a.localMissing then "Pull request remains draft until the local Docker/Desktop review " ++
      "receipt is current-head, clean, and request-complete."
    else "Pull request remains draft until draft-phase Copilot review clearance exists on the " ++
      "current head.")
    a.helperCalls
    (a.stored.bind fun receipt => a.storedReadyHeadSha.map fun sha =>
      ⟨some receipt.status, some sha, currentHead a.pr,
        (currentHead a.pr).map fun head => decide (head ≠ sha), receipt.reason⟩)

def returnedToDraft (a : Assessment) (transition : ReadyTransition)
    (receipt : ReadyValidationReceipt) : ContractResult :=
  a.waitingReview
    (if a.readyHeadMismatch then "PR was returned to draft because the current head changed " ++
      "after ready-validation clearance was recorded."
    else if a.localMissing then "PR was returned to draft because local Docker/Desktop review " ++
      "clearance no longer matches the current head."
    else "PR was returned to draft because current-head draft-phase Copilot review clearance is " ++
      "missing or unresolved.")
    (withHelperCall a.helperCalls transition)
    (some ⟨some receipt.status, receipt.readyHeadSha.or a.storedReadyHeadSha, currentHead a.pr,
      some a.readyHeadMismatch, receipt.reason⟩)

def storedView (a : Assessment) : ClearanceView :=
  ⟨a.stored.map (·.status), a.storedReadyHeadSha, currentHead a.pr, some a.readyHeadMismatch,
    if a.readyHeadMismatch then some (a.mismatchReason "does not match")
    else a.stored.bind (·.reason)⟩

end Assessment

/-! ### The contract -/

def setPullRequestReadyState (repository : String) (pr : PullRequest) (ready : Bool) :
    ContractM ReadyTransition :=
  if repository = "" then pure missingTransition
  else do
    let result ← ContractQuery.call (.setReadyState repository pr.number ready)
    pure (commandTransition repository pr.number ready result)

def draftPhase (a : Assessment) : ContractM (Option ContractResult) :=
  if a.cleared then do
    let toReady ← setPullRequestReadyState a.repository a.pr true
    if toReady.ok then do
      let receipt := a.currentReceipt
        "PR entered ready-validation on the current head after clean draft-phase review clearance."
      ContractQuery.call (.writeClearance receipt)
      pure (some (a.markedReady toReady receipt))
    else
      pure (some (a.transitionFailed true toReady
        ("Failed to mark PR #" ++ toString a.pr.number ++ " ready for review.") none))
  else pure (some a.staysDraft)

/-- A pull request that is ready: it stays so if it is cleared and its head is the one that was
cleared. -/
def readyPhase (a : Assessment) : ContractM (Option ContractResult) :=
  if a.readyHeadMismatch || !a.cleared then do
    let toDraft ← setPullRequestReadyState a.repository a.pr false
    if toDraft.ok then do
      ContractQuery.call (.writeClearance a.revokedReceipt)
      pure (some (a.returnedToDraft toDraft a.revokedReceipt))
    else
      pure (some (a.transitionFailed false toDraft
        ("Failed to mark PR #" ++ toString a.pr.number ++ " as draft.") (some a.storedView)))
  else do
    ContractQuery.call (.writeClearance
      (a.currentReceipt "PR remains in ready-validation on the same cleared head."))
    pure none

def assess (a : Assessment) : ContractM (Option ContractResult) :=
  if a.pr.isDraft then draftPhase a else readyPhase a

def reviewFailed (review : ContractResult) (helperCalls : List String) : ContractResult :=
  { review with helperCallsExecuted := helperCalls, reviewPhase := some .draftReview }

def reviewDraftFailed (pr : PullRequest) (review : ContractResult) (transition : ReadyTransition) :
    ContractResult where
  status := .blocked
  outcome := .draftTransitionFailed
  reason := transition.result.complaint
    ("Failed to mark PR #" ++ toString pr.number ++
      " as draft after local review clearance failed.")
  retryable := false
  nextWakeCondition := .draftTransitionFixed
  pollIntervalSecondsHint := none
  reviewMonitor := none
  reviewPhase := some .draftReview
  helperCallsExecuted := withHelperCall review.helperCallsExecuted transition
  filesTouched := review.filesTouched
  localReviewLoop := review.localReviewLoop
  readyValidationClearance := none

/-- A local review that failed: a pull request that is ready is returned to draft. The receipt
is not looked at. -/
def failReview (pr : PullRequest) (repository : String) (review : ContractResult) :
    ContractM (Option ContractResult) :=
  if pr.isDraft then pure (some (reviewFailed review review.helperCallsExecuted))
  else do
    let toDraft ← setPullRequestReadyState repository pr false
    if toDraft.ok then
      pure (some (reviewFailed review (withHelperCall review.helperCallsExecuted toDraft)))
    else pure (some (reviewDraftFailed pr review toDraft))

def checkStrategy (strategy : Option Json) : ContractM String :=
  Prog.ofExcept (normalizeCopilotReviewStrategy strategy)

def enforceFor (input : ContractInput) (pr : PullRequest) : ContractM (Option ContractResult) := do
  let _ ← checkStrategy input.strategy
  let stored ← ContractQuery.call .loadClearance
  let repository := normalizeText input.repository
  if input.localReviewRequested then do
    let review ← ContractQuery.call .localReview
    if review.status = .completed then
      assess ⟨pr, repository, stored, true, review.localReviewLoop,
        uniqueStrings review.helperCallsExecuted, uniqueStrings review.filesTouched⟩
    else failReview pr repository review
  else assess ⟨pr, repository, stored, false, none, [], []⟩

def enforceDraftOnlyReviewContract (input : ContractInput) : ContractM (Option ContractResult) :=
  input.target.elim (pure none) (enforceFor input)

/-! ### The law -/

/-- The store of the receipt and the outside, as the contract sees them. A write that fails
leaves the receipt as it was or removes it, and the local review always says what it found. -/
def contractService : Service (Option ReadyValidationReceipt) ContractAnswer :=
  fun stored q => match q with
    | .loadClearance => fun a after => after = stored ∧ ∀ reply, a = .ok reply → reply = stored
    | .localReview => fun a after => after = stored ∧
        ∀ review, a = .ok review → review.localReviewLoop.isSome
    | .setReadyState _ _ _ => fun _ after => after = stored
    | .writeClearance receipt => fun a after => match a with
        | .ok _ => after = some receipt
        | .error _ => after = stored ∨ after = none

structure ContractRun where
  input : ContractInput
  before : Option ReadyValidationReceipt
  calls : List (Call (Option ReadyValidationReceipt) ContractAnswer)
  after : Option ReadyValidationReceipt

def ContractRun.history (run : ContractRun) : List (Exchange ContractAnswer) :=
  run.calls.map Call.exchange

/-- The input is about the pull request of that number. -/
def ContractInput.IsAbout (input : ContractInput) (repository : String) (number : ℕ) : Prop :=
  normalizeText input.repository = repository ∧
    ∀ pr, input.pullRequest = some pr → pr.number = number

/-- Calls for one pull request, one after the other. -/
inductive Contracts (repository : String) (number : ℕ) :
    Option ReadyValidationReceipt → List ContractRun → Option ReadyValidationReceipt → Prop where
  | none (stored : Option ReadyValidationReceipt) : Contracts repository number stored [] stored
  | call {before middle after : Option ReadyValidationReceipt} {input : ContractInput}
    {calls : List (Call (Option ReadyValidationReceipt) ContractAnswer)}
    {result : Except String (Option ContractResult)} {runs : List ContractRun}
    (hinput : input.IsAbout repository number)
    (hcall : Executes contractService before (enforceDraftOnlyReviewContract input) calls middle
      result)
    (hrest : Contracts repository number middle runs after) :
    Contracts repository number before (⟨input, before, calls, middle⟩ :: runs) after

def IsCurrent (stored : Option ReadyValidationReceipt) : Prop :=
  ∃ receipt, stored = some receipt ∧ receipt.status = .current

/-- The snapshot shows a review of the current head, and nothing to act on. -/
structure ShowsCleanReview (pr : PullRequest) : Prop where
  reviewed : ∃ signal, pr.copilotReviewSignal = some signal ∧ signal.hasCurrentHeadReview = true
  comments : ∀ signal, pr.copilotReviewSignal = some signal →
    signal.actionableCommentCount.getD 0 = 0
  threads : ∀ signal, pr.copilotReviewSignal = some signal →
    signal.actionableThreadCount.getD 0 = 0

/-- The local review passed for the current head, as it was requested. -/
structure LocalReviewLoop.Satisfied (loop : LocalReviewLoop) : Prop where
  passed : JsString.toLowerCase (normalizeText loop.status) = "passed"
  fresh : loop.receiptFreshForHead = some true
  covered : loop.requestedCoverageSatisfied = some true
  overall : ∃ receipt, loop.receipt = some receipt ∧
    JsString.toLowerCase (normalizeText receipt.overallStatus) = "passed" ∧
    receipt.dirtyTracked = false

/-- A local review ended well. -/
def LocallyReviewed (h : List (Exchange ContractAnswer)) : Prop :=
  ∃ review loop, (⟨.localReview, .ok review⟩ : Exchange ContractAnswer) ∈ h ∧
    review.status = .completed ∧ review.localReviewLoop = some loop ∧ loop.Satisfied

/-- The conditions of a clearance held in a call. -/
def Cleared (input : ContractInput) (h : List (Exchange ContractAnswer)) : Prop :=
  ∃ pr, input.target = some pr ∧ ShowsCleanReview pr ∧
    (input.localReviewRequested = true → LocallyReviewed h)

/-- The pull request is to be marked ready. -/
def MarksReady (h : List (Exchange ContractAnswer)) : Prop :=
  ∃ e ∈ h, ∃ repository number, e.query = .setReadyState repository number true

/-- The pull request was returned to draft. -/
def ReturnsToDraft (h : List (Exchange ContractAnswer)) : Prop :=
  ∃ repository number result, (⟨.setReadyState repository number false, .ok result⟩ :
    Exchange ContractAnswer) ∈ h ∧ result.status = 0

/-- The local review failed. -/
def ReviewFails (h : List (Exchange ContractAnswer)) : Prop :=
  ∃ review, (⟨.localReview, .ok review⟩ : Exchange ContractAnswer) ∈ h ∧
    review.status ≠ .completed

/-- The receipt could not be written. -/
def WriteFails (h : List (Exchange ContractAnswer)) : Prop :=
  ∃ receipt message, (⟨.writeClearance receipt, .error message⟩ : Exchange ContractAnswer) ∈ h

/-- A pull request is marked ready only when it is cleared; a current receipt names a head that
was cleared in some call; and a pull request that was returned to draft has no current
receipt. -/
structure ClearanceLaw (runs : List ContractRun) : Prop where
  marked : ∀ run ∈ runs, MarksReady run.history → Cleared run.input run.history
  stored : ∀ before run rest, runs = before ++ run :: rest → ∀ receipt,
    run.after = some receipt → receipt.status = .current →
      ∃ earlier ∈ before ++ [run], Cleared earlier.input earlier.history ∧
        receipt.readyHeadSha = earlier.input.target.bind currentHead
  revoked : ∀ run ∈ runs, ReturnsToDraft run.history → ¬ IsCurrent run.after

/-- When a call that returns a pull request to draft finds a current receipt, the local review
did not fail, and if the receipt could not be written, it is gone. -/
def Revokes (run : ContractRun) : Prop :=
  ReturnsToDraft run.history → IsCurrent run.before →
    ¬ ReviewFails run.history ∧ (WriteFails run.history → run.after = none)

/-! ### One call -/

section Call

attribute [local irreducible] checkStrategy

variable {input : ContractInput} {stored after : Option ReadyValidationReceipt} {pr : PullRequest}
  {a : Assessment} {h new : List (Exchange ContractAnswer)} {e : Exchange ContractAnswer}

theorem showsCleanReview_iff :
    ShowsCleanReview pr ↔ (evaluateDraftPhaseCopilotClearance pr).ok = true := by
  unfold evaluateDraftPhaseCopilotClearance
  rw [Bool.and_eq_true, Bool.and_eq_true, decide_eq_true_iff, decide_eq_true_iff]
  cases hsignal : pr.copilotReviewSignal with
  | none =>
    refine iff_of_false (fun hclean => ?_) (fun hall => Bool.false_ne_true hall.2)
    obtain ⟨signal, hsome, -⟩ := hclean.reviewed
    exact nomatch hsignal.symm.trans hsome
  | some signal =>
    have heq : ∀ signal', pr.copilotReviewSignal = some signal' → signal' = signal :=
      fun signal' h' => Option.some.inj (h'.symm.trans hsignal)
    constructor
    · rintro ⟨⟨signal', hsome, hreviewed⟩, hcomments, hthreads⟩
      obtain rfl := heq signal' hsome
      exact ⟨⟨hcomments _ hsome, hthreads _ hsome⟩, hreviewed⟩
    · rintro ⟨⟨hcomments, hthreads⟩, hreviewed⟩
      refine ⟨⟨signal, hsignal, hreviewed⟩, fun signal' h' => ?_, fun signal' h' => ?_⟩
      · rw [heq signal' h']
        exact hcomments
      · rw [heq signal' h']
        exact hthreads

theorem LocalReviewLoop.satisfied_of {loop : LocalReviewLoop}
    (hloop : localReviewLoopSatisfied (some loop) = true) : loop.Satisfied := by
  unfold localReviewLoopSatisfied at hloop
  simp only [Bool.and_eq_true, decide_eq_true_iff] at hloop
  obtain ⟨⟨⟨⟨hpassed, hfresh⟩, hcovered⟩, hoverall⟩, hclean⟩ := hloop
  refine ⟨hpassed, hfresh, hcovered, ?_⟩
  cases hreceipt : loop.receipt with
  | none =>
    rw [hreceipt] at hoverall
    exact absurd hoverall (by decide)
  | some receipt =>
    rw [hreceipt] at hoverall hclean
    exact ⟨receipt, rfl, hoverall, by simpa using hclean⟩

/-- So far nothing was changed, and the local review did not fail. -/
structure Quiet (h : List (Exchange ContractAnswer)) : Prop where
  asked : ∀ e ∈ h, e.query = .loadClearance ∨ e.query = .localReview
  reviewed : ¬ ReviewFails h

variable {ready : Bool} {receipt : ReadyValidationReceipt}

theorem Quiet.not_setReadyState (hquiet : Quiet h) {repository : String} {number : ℕ} (he : e ∈ h) :
    e.query ≠ .setReadyState repository number ready := by
  intro heq
  rcases hquiet.asked e he with hq | hq <;> exact nomatch heq.symm.trans hq

theorem Quiet.not_writeClearance (hquiet : Quiet h) (he : e ∈ h) :
    e.query ≠ .writeClearance receipt := by
  intro heq
  rcases hquiet.asked e he with hq | hq <;> exact nomatch heq.symm.trans hq

theorem Quiet.marksReady_iff (hquiet : Quiet h) : MarksReady (h ++ new) ↔ MarksReady new := by
  refine ⟨fun ⟨e, he, repository, number, hq⟩ => ?_, fun ⟨e, he, hq⟩ =>
    ⟨e, List.mem_append_right _ he, hq⟩⟩
  rcases List.mem_append.mp he with he | he
  · exact absurd hq (hquiet.not_setReadyState he)
  · exact ⟨e, he, repository, number, hq⟩

theorem Quiet.returnsToDraft_iff (hquiet : Quiet h) :
    ReturnsToDraft (h ++ new) ↔ ReturnsToDraft new := by
  refine ⟨fun ⟨repository, number, result, he, hresult⟩ => ?_,
    fun ⟨repository, number, result, he, hresult⟩ =>
      ⟨repository, number, result, List.mem_append_right _ he, hresult⟩⟩
  rcases List.mem_append.mp he with he | he
  · exact absurd rfl (hquiet.not_setReadyState he)
  · exact ⟨repository, number, result, he, hresult⟩

theorem Quiet.writeFails_iff (hquiet : Quiet h) : WriteFails (h ++ new) ↔ WriteFails new := by
  refine ⟨fun ⟨receipt, message, he⟩ => ?_, fun ⟨receipt, message, he⟩ =>
    ⟨receipt, message, List.mem_append_right _ he⟩⟩
  rcases List.mem_append.mp he with he | he
  · exact absurd rfl (hquiet.not_writeClearance he)
  · exact ⟨receipt, message, he⟩

theorem LocallyReviewed.append (hreviewed : LocallyReviewed h) : LocallyReviewed (h ++ new) := by
  obtain ⟨review, loop, he, hrest⟩ := hreviewed
  exact ⟨review, loop, List.mem_append_left _ he, hrest⟩

theorem Cleared.append (hcleared : Cleared input h) : Cleared input (h ++ new) := by
  obtain ⟨pr, hpr, hclean, hlocal⟩ := hcleared
  exact ⟨pr, hpr, hclean, fun hrequested => (hlocal hrequested).append⟩

theorem reviewFails_append (hreview : ∀ e ∈ new, e.query ≠ .localReview) :
    ReviewFails (h ++ new) ↔ ReviewFails h := by
  refine ⟨fun ⟨review, he, hstatus⟩ => ?_, fun ⟨review, he, hstatus⟩ =>
    ⟨review, List.mem_append_left _ he, hstatus⟩⟩
  rcases List.mem_append.mp he with he | he
  · exact ⟨review, he, hstatus⟩
  · exact absurd rfl (hreview _ he)

/-- How a call ends. -/
structure CallEnd (input : ContractInput) (stored after : Option ReadyValidationReceipt)
    (h : List (Exchange ContractAnswer)) : Prop where
  marked : MarksReady h → Cleared input h
  kept : ∀ receipt, after = some receipt → receipt.status = .current →
    stored = some receipt ∨
      Cleared input h ∧ receipt.readyHeadSha = input.target.bind currentHead
  revoked : ReturnsToDraft h →
    (IsCurrent after ↔ IsCurrent stored ∧ (ReviewFails h ∨ WriteFails h ∧ after ≠ none))

theorem not_marksReady_nil : ¬ MarksReady [] := by
  rintro ⟨e, he, -⟩
  cases he

theorem not_returnsToDraft_nil : ¬ ReturnsToDraft [] := by
  rintro ⟨_, _, _, he, -⟩
  cases he

theorem Quiet.callEnd (hquiet : Quiet h) : CallEnd input stored stored h := by
  rw [← List.append_nil h]
  exact ⟨fun hmarks => absurd (hquiet.marksReady_iff.mp hmarks) not_marksReady_nil,
    fun receipt hstored _ => .inl hstored,
    fun hreturns => absurd (hquiet.returnsToDraft_iff.mp hreturns) not_returnsToDraft_nil⟩

theorem Quiet.load (hquiet : Quiet h) (answer : ContractAnswer .loadClearance) :
    Quiet (h ++ [⟨.loadClearance, answer⟩]) := by
  refine ⟨fun e he => ?_, ?_⟩
  · rcases List.mem_append.mp he with he | he
    · exact hquiet.asked e he
    · rw [List.mem_singleton.mp he]
      exact .inl rfl
  · rw [reviewFails_append fun e he => by rw [List.mem_singleton.mp he]; exact (nomatch ·)]
    exact hquiet.reviewed

theorem Quiet.review (hquiet : Quiet h) {answer : ContractAnswer .localReview}
    (hanswer : ∀ review, answer = .ok review → review.status = .completed) :
    Quiet (h ++ [⟨.localReview, answer⟩]) := by
  refine ⟨fun e he => ?_, ?_⟩
  · rcases List.mem_append.mp he with he | he
    · exact hquiet.asked e he
    · rw [List.mem_singleton.mp he]
      exact .inr rfl
  · rintro ⟨review, he, hstatus⟩
    rcases List.mem_append.mp he with he | he
    · exact hquiet.reviewed ⟨review, he, hstatus⟩
    · cases List.mem_singleton.mp he
      exact hstatus (hanswer review rfl)

theorem Quiet.callEnd_append (hquiet : Quiet h) (hasked : ∀ e ∈ new, e.query ≠ .localReview)
    (hmarks : MarksReady new → Cleared input h)
    (hkept : ∀ receipt, after = some receipt → receipt.status = .current →
      stored = some receipt ∨
        Cleared input h ∧ receipt.readyHeadSha = input.target.bind currentHead)
    (hrevoked : ReturnsToDraft new →
      (IsCurrent after ↔ IsCurrent stored ∧ WriteFails new ∧ after ≠ none)) :
    CallEnd input stored after (h ++ new) := by
  refine ⟨fun h' => (hmarks (hquiet.marksReady_iff.mp h')).append, fun receipt hsome hcurrent => ?_,
    fun h' => ?_⟩
  · rcases hkept receipt hsome hcurrent with hsame | ⟨hcleared, hhead⟩
    · exact .inl hsame
    · exact .inr ⟨hcleared.append, hhead⟩
  · rw [hrevoked (hquiet.returnsToDraft_iff.mp h'), reviewFails_append hasked,
      hquiet.writeFails_iff]
    exact and_congr_right fun _ => ⟨.inr, fun hor => hor.resolve_left hquiet.reviewed⟩

theorem Quiet.callEnd_ready (hquiet : Quiet h) (hcleared : Cleared input h) {repository : String}
    {number : ℕ} (answer : ContractAnswer (.setReadyState repository number true)) :
    CallEnd input stored stored (h ++ [⟨.setReadyState repository number true, answer⟩]) := by
  refine hquiet.callEnd_append (fun e he => ?_) (fun _ => hcleared) (fun _ hsome _ => .inl hsome) ?_
  · rw [List.mem_singleton.mp he]
    exact (nomatch ·)
  · rintro ⟨_, _, _, he, -⟩
    exact nomatch List.mem_singleton.mp he

theorem Quiet.callEnd_draft (hquiet : Quiet h) {repository : String} {number : ℕ}
    {answer : ContractAnswer (.setReadyState repository number false)}
    (hfails : ∀ result, answer = .ok result → result.status ≠ 0) :
    CallEnd input stored stored (h ++ [⟨.setReadyState repository number false, answer⟩]) := by
  refine hquiet.callEnd_append (fun e he => ?_) ?_ (fun _ hsome _ => .inl hsome) ?_
  · rw [List.mem_singleton.mp he]
    exact (nomatch ·)
  · rintro ⟨e, he, _, _, hq⟩
    rw [List.mem_singleton.mp he] at hq
    exact nomatch hq
  · rintro ⟨_, _, result, he, hstatus⟩
    cases List.mem_singleton.mp he
    exact absurd hstatus (hfails result rfl)

variable {result : CommandResult} {answer : ContractAnswer (.writeClearance receipt)}
   {review : ContractResult}

theorem writeClearance_cases
    (hserve : contractService stored (.writeClearance receipt) answer after) :
    answer = .ok () ∧ after = some receipt ∨
      (∃ message, answer = .error message) ∧ (after = stored ∨ after = none) := by
  cases answer with
  | ok u => exact .inl ⟨rfl, hserve⟩
  | error message => exact .inr ⟨⟨message, rfl⟩, hserve⟩

theorem kept_of_write (hserve : contractService stored (.writeClearance receipt) answer after)
    (hreceipt : receipt.status = .current →
      Cleared input h ∧ receipt.readyHeadSha = input.target.bind currentHead)
    (found : ReadyValidationReceipt) (hfound : after = some found)
    (hcurrent : found.status = .current) :
    stored = some found ∨ Cleared input h ∧ found.readyHeadSha = input.target.bind currentHead := by
  rcases writeClearance_cases hserve with ⟨-, rfl⟩ | ⟨-, rfl | rfl⟩
  · obtain rfl := Option.some.inj hfound
    exact .inr (hreceipt hcurrent)
  · exact .inl hfound
  · exact nomatch hfound

theorem Quiet.callEnd_current (hquiet : Quiet h) (hcleared : Cleared input h)
    (hhead : receipt.readyHeadSha = input.target.bind currentHead)
    (hserve : contractService stored (.writeClearance receipt) answer after)
    {new : List (Exchange ContractAnswer)} (hnew : new = [] ∨ ∃ repository number transition,
      new = [⟨.setReadyState repository number true, transition⟩]) :
    CallEnd input stored after (h ++ (new ++ [⟨.writeClearance receipt, answer⟩])) := by
  have hmem : ∀ e ∈ new ++ [⟨.writeClearance receipt, answer⟩],
      (∃ repository number, e.query = .setReadyState repository number true) ∨
        e.query = .writeClearance receipt := by
    intro e he
    rcases List.mem_append.mp he with he | he
    · rcases hnew with rfl | ⟨repository, number, transition, rfl⟩
      · cases he
      · rw [List.mem_singleton.mp he]
        exact .inl ⟨repository, number, rfl⟩
    · rw [List.mem_singleton.mp he]
      exact .inr rfl
  refine hquiet.callEnd_append (fun e he heq => ?_) (fun _ => hcleared)
    (kept_of_write hserve fun _ => ⟨hcleared, hhead⟩) ?_
  · rcases hmem e he with ⟨_, _, hq⟩ | hq <;> exact nomatch heq.symm.trans hq
  · rintro ⟨_, _, _, he, -⟩
    rcases hmem _ he with ⟨_, _, hq⟩ | hq <;> exact nomatch hq

theorem Quiet.callEnd_revoked (hquiet : Quiet h) (hreceipt : receipt.status ≠ .current)
    (hserve : contractService stored (.writeClearance receipt) answer after) {repository : String}
    {number : ℕ} :
    CallEnd input stored after (h ++ ([⟨.setReadyState repository number false, .ok result⟩] ++
      [⟨.writeClearance receipt, answer⟩])) := by
  refine hquiet.callEnd_append (fun e he heq => ?_) ?_
    (kept_of_write hserve fun hcurrent => absurd hcurrent hreceipt) fun _ => ?_
  · rcases List.mem_pair.mp he with rfl | rfl <;> exact nomatch heq
  · rintro ⟨e, he, _, _, hq⟩
    rcases List.mem_pair.mp he with rfl | rfl <;> exact nomatch hq
  · rcases writeClearance_cases hserve with ⟨rfl, rfl⟩ | ⟨⟨message, rfl⟩, rfl | rfl⟩
    · refine iff_of_false ?_ ?_
      · rintro ⟨found, hfound, hcurrent⟩
        exact hreceipt (Option.some.inj hfound ▸ hcurrent)
      · rintro ⟨-, ⟨found, message, he⟩, -⟩
        rcases List.mem_pair.mp he with heq | heq <;> exact nomatch heq
    · refine ⟨fun hcurrent => ⟨hcurrent, ⟨receipt, message, List.mem_pair.mpr (.inr rfl)⟩, ?_⟩,
        fun hall => hall.1⟩
      obtain ⟨found, hfound, -⟩ := hcurrent
      rw [hfound]
      exact Option.some_ne_none found
    · refine iff_of_false ?_ (fun hall => hall.2.2 rfl)
      rintro ⟨found, hfound, -⟩
      exact nomatch hfound

theorem Quiet.callEnd_reviewFailed (hquiet : Quiet h) (hreview : review.status ≠ .completed)
    (hnew : ∀ e ∈ new, ∃ repository number, e.query = .setReadyState repository number false) :
    CallEnd input stored stored (h ++ ([⟨.localReview, .ok review⟩] ++ new)) := by
  have hfails : ReviewFails (h ++ ([⟨.localReview, .ok review⟩] ++ new)) :=
    ⟨review, List.mem_append_right _ (List.mem_append_left _ (List.mem_singleton.mpr rfl)), hreview⟩
  refine ⟨fun hmarks => ?_, fun _ hsome _ => .inl hsome,
    fun _ => ⟨fun hcurrent => ⟨hcurrent, .inl hfails⟩, fun hall => hall.1⟩⟩
  obtain ⟨e, he, _, _, hq⟩ := hquiet.marksReady_iff.mp hmarks
  rcases List.mem_append.mp he with he | he
  · rw [List.mem_singleton.mp he] at hq
    exact nomatch hq
  · obtain ⟨_, _, hdraft⟩ := hnew e he
    exact nomatch hq.symm.trans hdraft

abbrev Ends (input : ContractInput) (stored : Option ReadyValidationReceipt)
    (s : Option ReadyValidationReceipt × List (Exchange ContractAnswer))
    (_ : Except String (Option ContractResult)) : Prop :=
  CallEnd input stored s.1 s.2

/-- **A transition.** -/
theorem ensures_setPullRequestReadyState {repository : String}
    {f : ReadyTransition → ContractM (Option ContractResult)}
    (hmissing : Ensures (recorded contractService) anyQuery (Ends input stored) (stored, h)
      (f missingTransition))
    (hok : ∀ result, Ensures (recorded contractService) anyQuery (Ends input stored)
      (stored, h ++ [⟨.setReadyState repository pr.number ready, .ok result⟩])
      (f (commandTransition repository pr.number ready result)))
    (herror : ∀ message, CallEnd input stored stored
      (h ++ [⟨.setReadyState repository pr.number ready, .error message⟩])) :
    Ensures (recorded contractService) anyQuery (Ends input stored) (stored, h)
      (setPullRequestReadyState repository pr ready >>= f) := by
  unfold setPullRequestReadyState
  by_cases hblank : repository = ""
  · rw [if_pos hblank]
    exact hmissing
  · rw [if_neg hblank]
    refine ensures_bind.mpr (ensures_recorded_call_bind.mpr ⟨trivial, ?_, ?_⟩)
    · rintro result _ rfl
      exact hok result
    · rintro message _ rfl
      exact herror message

theorem ensures_draftPhase (hquiet : Quiet h) (htarget : input.target = some a.pr)
    (hcleared : a.cleared = true → Cleared input h) :
    Ensures (recorded contractService) anyQuery (Ends input stored) (stored, h)
      (draftPhase a) := by
  unfold draftPhase
  cases hclear : a.cleared with
  | false =>
    rw [if_neg Bool.false_ne_true]
    exact hquiet.callEnd
  | true =>
    rw [if_pos rfl]
    refine ensures_setPullRequestReadyState ?_ (fun result => ?_)
      fun message => hquiet.callEnd_ready (hcleared hclear) _
    · rw [if_neg (by decide : ¬ missingTransition.ok = true)]
      exact hquiet.callEnd
    · cases hok : (commandTransition a.repository a.pr.number true result).ok with
      | false =>
        rw [if_neg Bool.false_ne_true]
        exact hquiet.callEnd_ready (hcleared hclear) _
      | true =>
        rw [if_pos rfl]
        have hhead : ∀ reason, (a.currentReceipt reason).readyHeadSha =
            input.target.bind currentHead := fun reason => by
          rw [htarget]
          rfl
        refine ensures_recorded_call_bind.mpr ⟨trivial, fun _ after hserve => ?_,
          fun _ after hserve => ?_⟩
        all_goals
          have hend := hquiet.callEnd_current (hcleared hclear) (hhead _) hserve
            (.inr ⟨a.repository, a.pr.number, .ok result, rfl⟩)
          rw [← List.append_assoc] at hend
          exact hend

theorem ensures_readyPhase (hquiet : Quiet h) (htarget : input.target = some a.pr)
    (hcleared : a.cleared = true → Cleared input h) :
    Ensures (recorded contractService) anyQuery (Ends input stored) (stored, h)
      (readyPhase a) := by
  unfold readyPhase
  cases hback : a.readyHeadMismatch || !a.cleared with
  | false =>
    rw [if_neg Bool.false_ne_true]
    have hclear : a.cleared = true := by
      have hnot := (Bool.or_eq_false_iff.mp hback).2
      simpa using hnot
    have hhead : ∀ reason, (a.currentReceipt reason).readyHeadSha =
        input.target.bind currentHead := fun reason => by
      rw [htarget]
      rfl
    exact ensures_recorded_call_bind.mpr ⟨trivial,
      fun _ _ hserve => hquiet.callEnd_current (hcleared hclear) (hhead _) hserve (.inl rfl),
      fun _ _ hserve => hquiet.callEnd_current (hcleared hclear) (hhead _) hserve (.inl rfl)⟩
  | true =>
    rw [if_pos rfl]
    refine ensures_setPullRequestReadyState ?_ (fun result => ?_)
      fun message => hquiet.callEnd_draft fun _ h => nomatch h
    · rw [if_neg (by decide : ¬ missingTransition.ok = true)]
      exact hquiet.callEnd
    · cases hok : (commandTransition a.repository a.pr.number false result).ok with
      | false =>
        rw [if_neg Bool.false_ne_true]
        exact hquiet.callEnd_draft fun _ heq => Except.ok.inj heq ▸ of_decide_eq_false hok
      | true =>
        rw [if_pos rfl]
        have hstatus : a.revokedReceipt.status ≠ .current := by
          unfold Assessment.revokedReceipt clearanceReceipt
          cases a.readyHeadMismatch <;> exact (nomatch ·)
        refine ensures_recorded_call_bind.mpr ⟨trivial, fun _ after hserve => ?_,
          fun _ after hserve => ?_⟩
        all_goals
          have hend : CallEnd input stored after
              (h ++ ([⟨.setReadyState a.repository a.pr.number false, .ok result⟩] ++ _)) :=
            hquiet.callEnd_revoked hstatus hserve
          rw [← List.append_assoc] at hend
          exact hend

theorem ensures_assess (hquiet : Quiet h) (htarget : input.target = some a.pr)
    (hcleared : a.cleared = true → Cleared input h) :
    Ensures (recorded contractService) anyQuery (Ends input stored) (stored, h) (assess a) := by
  unfold assess
  cases a.pr.isDraft with
  | true => exact ensures_draftPhase hquiet htarget hcleared
  | false => exact ensures_readyPhase hquiet htarget hcleared

theorem ensures_failReview (hquiet : Quiet h) {repository : String}
    (hreview : review.status ≠ .completed) :
    Ensures (recorded contractService) anyQuery (Ends input stored)
      (stored, h ++ [⟨.localReview, .ok review⟩]) (failReview pr repository review) := by
  have hsilent : CallEnd input stored stored (h ++ [⟨.localReview, .ok review⟩]) := by
    have hend : CallEnd input stored stored (h ++ ([⟨.localReview, .ok review⟩] ++ [])) :=
      hquiet.callEnd_reviewFailed hreview fun _ he => absurd he List.not_mem_nil
    rwa [List.append_nil] at hend
  have hdraft : ∀ answer, CallEnd input stored stored ((h ++ [⟨.localReview, .ok review⟩]) ++
      [⟨.setReadyState repository pr.number false, answer⟩]) := fun answer => by
    rw [List.append_assoc]
    refine hquiet.callEnd_reviewFailed hreview fun _ he => ?_
    rw [List.mem_singleton.mp he]
    exact ⟨repository, pr.number, rfl⟩
  unfold failReview
  cases pr.isDraft with
  | true => exact hsilent
  | false =>
    rw [if_neg Bool.false_ne_true]
    refine ensures_setPullRequestReadyState ?_ (fun result => ?_) fun message => hdraft _
    · rw [if_neg (by decide : ¬ missingTransition.ok = true)]
      exact hsilent
    · cases (commandTransition repository pr.number false result).ok with
      | true =>
        rw [if_pos rfl]
        exact hdraft _
      | false =>
        rw [if_neg Bool.false_ne_true]
        exact hdraft _

theorem quiet_nil : Quiet [] :=
  ⟨List.forall_mem_nil _, fun ⟨_, he, _⟩ => absurd he List.not_mem_nil⟩

theorem ensures_enforceFor (htarget : input.target = some pr) :
    Ensures (recorded contractService) anyQuery (Ends input stored) (stored, [])
      (enforceFor input pr) := by
  unfold enforceFor checkStrategy
  generalize normalizeCopilotReviewStrategy input.strategy = strategy
  generalize normalizeText input.repository = repository
  refine ensures_ofExcept_bind.mpr ⟨fun _ _ => ?_, fun _ _ => quiet_nil.callEnd⟩
  refine ensures_recorded_call_bind.mpr ⟨trivial, ?_, ?_⟩
  · rintro found after ⟨rfl, -⟩
    have hquiet := quiet_nil.load (.ok found)
    cases hrequested : input.localReviewRequested with
    | false =>
      rw [if_neg Bool.false_ne_true]
      refine ensures_assess hquiet htarget fun hclear => ?_
      exact ⟨pr, htarget, showsCleanReview_iff.mpr (Bool.and_eq_true_iff.mp hclear).1,
        fun h => absurd (hrequested.symm.trans h) Bool.false_ne_true⟩
    | true =>
      rw [if_pos rfl]
      refine ensures_recorded_call_bind.mpr ⟨trivial, ?_, ?_⟩
      · rintro review _ ⟨rfl, hloop⟩
        by_cases hstatus : review.status = .completed
        · rw [if_pos hstatus]
          refine ensures_assess (hquiet.review fun _ heq => Except.ok.inj heq ▸ hstatus) htarget
            fun hclear => ?_
          obtain ⟨hclean, hlocal⟩ := Bool.and_eq_true_iff.mp hclear
          obtain ⟨loop, hsome⟩ := Option.isSome_iff_exists.mp (hloop review rfl)
          have hsatisfied : localReviewLoopSatisfied (some loop) = true := by
            rw [← hsome]
            exact hlocal
          exact ⟨pr, htarget, showsCleanReview_iff.mpr hclean, fun _ => ⟨review, loop,
            List.mem_append_right _ (List.mem_singleton.mpr rfl), hstatus, hsome,
            LocalReviewLoop.satisfied_of hsatisfied⟩⟩
        · rw [if_neg hstatus]
          exact ensures_failReview hquiet hstatus
      · rintro message _ ⟨rfl, -⟩
        have hlooked : Quiet (_ ++ [⟨.localReview, .error message⟩]) :=
          hquiet.review (by rintro _ ⟨⟩)
        exact hlooked.callEnd
  · rintro message _ ⟨rfl, -⟩
    exact (quiet_nil.load (.error message)).callEnd

/-- **One call.** -/
theorem callEnd_of_executes {calls : List (Call (Option ReadyValidationReceipt) ContractAnswer)}
    {result : Except String (Option ContractResult)}
    (hcall : Executes contractService stored (enforceDraftOnlyReviewContract input) calls after
      result) : CallEnd input stored after (calls.map Call.exchange) := by
  have hends : Ensures (recorded contractService) anyQuery (Ends input stored) (stored, [])
      (enforceDraftOnlyReviewContract input) := by
    unfold enforceDraftOnlyReviewContract
    cases htarget : input.target with
    | none =>
      rw [Option.elim_none]
      exact quiet_nil.callEnd
    | some pr =>
      rw [Option.elim_some]
      exact ensures_enforceFor htarget
  exact (hends.recorded hcall).2

end Call

/-! ### Sequences of calls -/

section Sequence

variable {repository : String} {number : ℕ} {before after : Option ReadyValidationReceipt}
  {runs : List ContractRun}

theorem Contracts.callEnd (hruns : Contracts repository number before runs after) :
    ∀ run ∈ runs, CallEnd run.input run.before run.after run.history := by
  induction hruns with
  | none stored => exact List.forall_mem_nil _
  | call _ hcall _ ih =>
    intro run hmem
    rcases List.mem_cons.mp hmem with rfl | hmem
    · exact callEnd_of_executes hcall
    · exact ih run hmem

theorem Contracts.stored (hruns : Contracts repository number before runs after)
    (prior : List ContractRun)
    (hbefore : ∀ receipt, before = some receipt → receipt.status = .current →
      ∃ earlier ∈ prior, Cleared earlier.input earlier.history ∧
        receipt.readyHeadSha = earlier.input.target.bind currentHead) :
    ∀ pre run rest, runs = pre ++ run :: rest → ∀ receipt, run.after = some receipt →
      receipt.status = .current → ∃ earlier ∈ prior ++ (pre ++ [run]),
        Cleared earlier.input earlier.history ∧
          receipt.readyHeadSha = earlier.input.target.bind currentHead := by
  induction hruns generalizing prior with
  | none stored => exact fun pre run rest hsplit => absurd hsplit (by simp)
  | @call before middle after input calls result runs _ hcall _ ih =>
    have hend := callEnd_of_executes hcall
    have hmiddle : ∀ receipt, middle = some receipt → receipt.status = .current →
        ∃ earlier ∈ prior ++ [⟨input, before, calls, middle⟩],
          Cleared earlier.input earlier.history ∧
            receipt.readyHeadSha = earlier.input.target.bind currentHead := by
      intro receipt hsome hcurrent
      rcases hend.kept receipt hsome hcurrent with hsame | ⟨hcleared, hhead⟩
      · obtain ⟨earlier, hmem, hrest⟩ := hbefore receipt hsame hcurrent
        exact ⟨earlier, List.mem_append_left _ hmem, hrest⟩
      · exact ⟨_, List.mem_append_right _ (List.mem_singleton.mpr rfl), hcleared, hhead⟩
    intro pre run rest hsplit receipt hsome hcurrent
    rcases pre with _ | ⟨first, pre⟩
    · obtain ⟨rfl, -⟩ := List.cons.inj hsplit
      exact hmiddle receipt hsome hcurrent
    · obtain ⟨rfl, htail⟩ := List.cons.inj hsplit
      have hlater := ih _ hmiddle pre run rest htail receipt hsome hcurrent
      rwa [List.append_assoc] at hlater

end Sequence

def ReadyValidationReceipt.ready (receipt : ReadyValidationReceipt) : Merge.ReadyReceipt :=
  ⟨some receipt.status.text, receipt.readyHeadSha, receipt.currentHeadSha⟩

theorem ClearanceStatus.eq_current_of_text {status : ClearanceStatus}
    (htext : Merge.normalizeLower (some status.text) = "current") : status = .current := by
  cases status with
  | current => rfl
  | invalidated => exact absurd htext (by decide)
  | invalidatedHeadMismatch => exact absurd htext (by decide)

variable {prInfo : Merge.PrInfo} {clearance : Merge.ReviewClearance} {path : String}

theorem storedClearance_ok {receipt : ReadyValidationReceipt}
    (hclearance : Merge.storedClearance prInfo ⟨path, some receipt.ready⟩ = some clearance)
    (hok : clearance.ok = true) : receipt.status = .current ∧
      Merge.normalizeText receipt.readyHeadSha = Merge.normalizeText prInfo.headRefOid := by
  unfold Merge.storedClearance at hclearance
  rw [Option.bind_some] at hclearance
  dsimp only at hclearance
  split_ifs at hclearance with hcurrent hstale hinvalid
  · obtain ⟨-, hstatus, -, hhead⟩ := hcurrent
    exact ⟨ClearanceStatus.eq_current_of_text hstatus, hhead⟩
  all_goals
    obtain rfl := Option.some.inj hclearance
    exact absurd hok Bool.false_ne_true

/-- **What the promotion trusts.** A promotion that passes by the receipt left by a call is of a
head that was cleared in that call or an earlier one. -/
theorem Contracts.promoted {repository : String} {number : ℕ}
    {before after : Option ReadyValidationReceipt} {runs pre rest : List ContractRun}
    {run : ContractRun} (hruns : Contracts repository number before runs after)
    (hbefore : ¬ IsCurrent before) (hsplit : runs = pre ++ run :: rest)
    {receipt : ReadyValidationReceipt} (hreceipt : run.after = some receipt)
    (hclearance : Merge.storedClearance prInfo ⟨path, some receipt.ready⟩ = some clearance)
    (hok : clearance.ok = true) :
    ∃ earlier ∈ pre ++ [run], Cleared earlier.input earlier.history ∧
      Merge.normalizeText (earlier.input.target.bind currentHead) =
        Merge.normalizeText prInfo.headRefOid := by
  obtain ⟨hcurrent, hhead⟩ := storedClearance_ok hclearance hok
  have hstart : ∀ receipt, before = some receipt → receipt.status = .current →
      ∃ earlier ∈ ([] : List ContractRun), Cleared earlier.input earlier.history ∧
        receipt.readyHeadSha = earlier.input.target.bind currentHead :=
    fun found hsome hcurrent => absurd ⟨found, hsome, hcurrent⟩ hbefore
  obtain ⟨earlier, hmem, hcleared, hsha⟩ :=
    hruns.stored [] hstart pre run rest hsplit receipt hreceipt hcurrent
  exact ⟨earlier, hmem, hcleared, by rw [← hsha, hhead]⟩

/-- **When a clearance is revoked.** Calls for one pull request that start without a current
receipt keep to the law exactly if every call that returns the pull request to draft comes to
its receipt. -/
theorem clearanceLaw_iff (repository : String) (number : ℕ)
    (before after : Option ReadyValidationReceipt) (runs : List ContractRun)
    (hruns : Contracts repository number before runs after) (hbefore : ¬ IsCurrent before) :
    ClearanceLaw runs ↔ ∀ run ∈ runs, Revokes run := by
  have hends := hruns.callEnd
  have hrevokes : ∀ run ∈ runs,
      (ReturnsToDraft run.history → ¬ IsCurrent run.after) ↔ Revokes run := by
    intro run hrun
    refine forall_congr' fun hreturns => ?_
    rw [(hends run hrun).revoked hreturns]
    constructor
    · intro hnot hcurrent
      refine ⟨fun hfails => hnot ⟨hcurrent, .inl hfails⟩, fun hfails => ?_⟩
      by_contra hsome
      exact hnot ⟨hcurrent, .inr ⟨hfails, hsome⟩⟩
    · rintro hcomes ⟨hcurrent, hfails | ⟨hfails, hsome⟩⟩
      · exact (hcomes hcurrent).1 hfails
      · exact hsome ((hcomes hcurrent).2 hfails)
  constructor
  · intro hlaw run hrun
    exact (hrevokes run hrun).mp (hlaw.revoked run hrun)
  · intro hcomes
    refine ⟨fun run hrun => (hends run hrun).marked, ?_,
      fun run hrun => (hrevokes run hrun).mpr (hcomes run hrun)⟩
    exact hruns.stored [] fun receipt hsome hcurrent => absurd ⟨receipt, hsome, hcurrent⟩ hbefore

/-! ### A clearance and its end -/

def serveContract (review : ContractResult) (stored : Option ReadyValidationReceipt) :
    (q : ContractQuery) → ContractAnswer q × Option ReadyValidationReceipt
  | .loadClearance => (.ok stored, stored)
  | .localReview => (.ok review, stored)
  | .setReadyState _ _ _ => (.ok ⟨0, "", ""⟩, stored)
  | .writeClearance receipt => (.ok (), some receipt)

theorem contractService_serveContract {review : ContractResult}
    (hreview : review.localReviewLoop.isSome) (stored : Option ReadyValidationReceipt)
    (q : ContractQuery) : contractService stored q (serveContract review stored q).1
      (serveContract review stored q).2 := by
  cases q with
  | loadClearance => exact ⟨rfl, fun _ h => (Except.ok.inj h).symm⟩
  | localReview => exact ⟨rfl, fun _ h => Except.ok.inj h ▸ hreview⟩
  | setReadyState repository number ready => exact rfl
  | writeClearance receipt => exact rfl

def failedReview : ContractResult where
  status := .blocked
  outcome := .localReviewLoopFailed
  reason := "The review loop failed."
  retryable := true
  nextWakeCondition := .localReviewLoopGreen
  pollIntervalSecondsHint := none
  reviewMonitor := none
  reviewPhase := none
  helperCallsExecuted := []
  filesTouched := []
  localReviewLoop := some ⟨some (.str "failed"), none, none, none, none, none, none⟩
  readyValidationClearance := none

def snapshotSeven (draft reviewed : Bool) : PullRequest where
  id := none
  number := 7
  title := none
  url := some "https://example.invalid/pull/7"
  state := "OPEN"
  isDraft := draft
  createdAt := none
  updatedAt := none
  baseRefName := none
  headRefName := none
  headRefOid := some "abc"
  mergeStateStatus := none
  mergeable := none
  reviewDecision := none
  statusCheckRollup := []
  repository := none
  headRepositoryOwner := none
  isCrossRepository := false
  copilotReviewWorkflow := none
  copilotReviewSignal := some ⟨reviewed, some 0, some 0⟩

def inputSeven (draft reviewed localReview : Bool) : ContractInput :=
  ⟨some (snapshotSeven draft reviewed), some (.str "octo/demo"), none, none, localReview⟩

def contractOnce (input : ContractInput) (before : Option ReadyValidationReceipt) : ContractRun :=
  let ended := (enforceDraftOnlyReviewContract input).execute (serveContract failedReview) before
  ⟨input, before, ended.1, ended.2.1⟩

def contractTwice (first second : ContractInput) : List ContractRun :=
  [contractOnce first none, contractOnce second (contractOnce first none).after]

theorem contracts_contractTwice (first second : ContractInput)
    (hfirst : first.IsAbout "octo/demo" 7) (hsecond : second.IsAbout "octo/demo" 7) :
    Contracts "octo/demo" 7 none (contractTwice first second)
      (contractOnce second (contractOnce first none).after).after :=
  .call hfirst (executes_execute _ (contractService_serveContract rfl) _ _)
    (.call hsecond (executes_execute _ (contractService_serveContract rfl) _ _) (.none _))

theorem isAbout_inputSeven (draft reviewed localReview : Bool) :
    (inputSeven draft reviewed localReview).IsAbout "octo/demo" 7 :=
  ⟨(by decide : normalizeText (some (.str "octo/demo")) = "octo/demo"),
    fun _ h => Option.some.inj h ▸ rfl⟩

theorem not_isCurrent_none : ¬ IsCurrent none := fun ⟨_, h, _⟩ => nomatch h

def undisturbed : Exchange ContractAnswer → Bool
  | ⟨.localReview, _⟩ | ⟨.writeClearance _, .error _⟩ => false
  | _ => true

/-- A draft is marked ready, and returned to draft when its review is gone. -/
theorem clearanceLaw_reviewGone :
    ClearanceLaw (contractTwice (inputSeven true true false) (inputSeven false false false)) := by
  refine (clearanceLaw_iff "octo/demo" 7 none _ _ (contracts_contractTwice _ _
    (isAbout_inputSeven ..) (isAbout_inputSeven ..)) not_isCurrent_none).mpr ?_
  -- in neither call is a local review asked for, or a write that fails
  have hcalls : (contractTwice (inputSeven true true false) (inputSeven false false false)).all
      (fun run => run.history.all undisturbed) = true := rfl
  intro run hrun _ _
  have hall := List.all_eq_true.mp (List.all_eq_true.mp hcalls run hrun)
  exact ⟨fun ⟨_, he, _⟩ => Bool.false_ne_true (hall _ he),
    fun ⟨_, _, he⟩ => absurd (hall _ he) Bool.false_ne_true⟩

/-- A ready pull request is returned to draft because its local review fails; its receipt stays
current. -/
theorem not_clearanceLaw_reviewFails :
    ¬ ∀ (repository : String) (number : ℕ) (before after : Option ReadyValidationReceipt)
      (runs : List ContractRun), Contracts repository number before runs after →
        ¬ IsCurrent before → ClearanceLaw runs := by
  intro hall
  have hlaw := hall "octo/demo" 7 none _ _ (contracts_contractTwice (inputSeven false true false)
    (inputSeven false true true) (isAbout_inputSeven ..) (isAbout_inputSeven ..))
    not_isCurrent_none
  refine hlaw.revoked _ (List.mem_pair.mpr (.inr rfl)) ?_ ?_
  · exact ⟨"octo/demo", 7, ⟨0, "", ""⟩, List.mem_of_getElem? (i := 2) rfl, rfl⟩
  · exact ⟨_, rfl, rfl⟩

end CompareVI.Delivery
