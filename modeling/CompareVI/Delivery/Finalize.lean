import CompareVI.Delivery.Readiness
import CompareVI.Framework.Child
import CompareVI.Merge.MergeSync
import CompareVI.Standing.Reconcile

/-!
# The delivery turn that merges

When the planned action is `merge-pr`, `runDeliveryTurnBroker` runs merge-sync as a child
process (`mergePullRequest`), and if that exits with status 0, finalises the issue the lane
was about (`finalizeMergedPullRequest`): the standing issue through the reconciliation
script, as a second child, another issue by closing it here. The turn reports what became
of both.

All the turn learns of merge-sync is its exit status; the summary that it writes is handed
to the reconciliation as a path.
-/

open Framework

namespace CompareVI.Delivery

/-! ### The task packet -/

structure IssueRef where
  number : Option Json
  labels : Option Json
  deriving DecidableEq

structure PullRequestRef where
  number : Option Json
  url : Option Json
  deriving DecidableEq

structure TaskPacket where
  repository : Option Json
  /-- `evidence.delivery.selectedIssue`. -/
  selectedIssue : Option IssueRef
  /-- `evidence.delivery.standingIssue`. -/
  standingIssue : Option IssueRef
  /-- `evidence.delivery.pullRequest`. -/
  deliveryPullRequest : Option PullRequestRef
  /-- `pullRequest` of the packet itself. -/
  packetPullRequest : Option PullRequestRef
  /-- `evidence.lane.workerSlotId`. -/
  workerSlotId : Option Json
  deriving DecidableEq

/-- `extractPullRequestNumberFromUrl`: the digits behind the last `/pull/`, if the text ends
there. -/
def extractPullRequestNumberFromUrl (url : Option Json) : Option ℕ :=
  let reversed := (normalizeText url).toList.reverse
  let digits := reversed.takeWhile Char.isDigit
  let front := (reversed.dropWhile Char.isDigit).take 6
  if digits ≠ [] ∧ (front.map JsString.lowerChar).reverse = "/pull/".toList then
    coercePositiveInteger (some (.str (String.ofList digits.reverse)))
  else none

def PullRequestRef.resolve (pr : Option PullRequestRef) : Option ℕ :=
  (coercePositiveInteger (pr.bind (·.number))).or
    (extractPullRequestNumberFromUrl (pr.bind (·.url)))

def TaskPacket.selected (packet : TaskPacket) : Option IssueRef :=
  packet.selectedIssue.or packet.standingIssue

def TaskPacket.selectedIssueNumber (packet : TaskPacket) : Option ℕ :=
  coercePositiveInteger (packet.selected.bind (·.number))

def TaskPacket.standingIssueNumber (packet : TaskPacket) : Option ℕ :=
  coercePositiveInteger (packet.standingIssue.bind (·.number))

def TaskPacket.pullRequest (packet : TaskPacket) : Option PullRequestRef :=
  packet.deliveryPullRequest.or packet.packetPullRequest

/-! ### Results -/

/-- The values of the result's `outcome`. -/
inductive TurnOutcome where
  | merged
  | mergedFinalizationBlocked
  | mergeBlocked
  | rateLimit
  deriving DecidableEq, Repr

/-- The values of the result's `status`. -/
inductive TurnStatus where
  | completed
  | blocked
  deriving DecidableEq, Repr

/-- The values of `blockerClass`. -/
inductive TurnBlocker where
  | none
  | merge
  | rateLimit
  | helper
  | helperbug
  deriving DecidableEq, Repr

/-- The values of `nextWakeCondition`. -/
inductive TurnWake where
  | nextSchedulerCycle
  | mergedLaneFinalizationRetry
  | githubRateLimitReset
  | mergeablePr
  deriving DecidableEq, Repr

/-- The issues that a result's `details` name. -/
structure FinalizedIssues where
  finalizedIssueNumber : Option ℕ
  pendingIssueNumber : Option ℕ
  standingIssueNumber : Option ℕ
  nextStandingIssueNumber : Option ℕ
  standingSelectionWarning : String
  deriving DecidableEq, Repr

/-- A result of the turn. The lane is blocked or complete as the status says. -/
structure TurnResult where
  status : TurnStatus
  outcome : TurnOutcome
  reason : String
  blockerClass : TurnBlocker
  retryable : Bool
  nextWakeCondition : TurnWake
  helperCallsExecuted : List String
  issues : Option FinalizedIssues
  deriving DecidableEq, Repr

/-- What `finalizeMergedPullRequest` returns. -/
structure Finalization where
  selectedIssueNumber : Option ℕ
  standingIssueNumber : Option ℕ
  nextStandingIssueNumber : Option ℕ
  standingSelectionWarning : String
  issueClosed : Option Bool
  helperCallsExecuted : List String
  deriving DecidableEq, Repr

/-! ### The outside -/

/-- What the turn asks of the outside, its child processes included. -/
inductive TurnQuery where
  | mergeSync (q : Merge.MergeQuery)
  | reconcile (q : Standing.ReconcileQuery)
  /-- The labels of `fetchIssue`. -/
  | fetchIssue (issue : ℕ)
  /-- `closeIssueWithComment`. -/
  | closeIssue (issue : ℕ) (comment : String)
  /-- `editIssueLabels`. -/
  | editIssueLabels (issue : ℕ) (removeLabels : List String)

abbrev TurnAnswer : TurnQuery → Type
  | .mergeSync q => Merge.MergeAnswer q
  | .reconcile q => Standing.ReconcileAnswer q
  | .fetchIssue _ => Except String (Option Json)
  | .closeIssue _ _ => Except String Unit
  | .editIssueLabels _ _ => Except String Unit

abbrev TurnM := Prog TurnQuery TurnAnswer

def turnCall {α : Type} (q : TurnQuery) (read : TurnAnswer q → Except String α) : TurnM α :=
  Prog.query q >>= fun answer => Prog.ofExcept (read answer)

def mergePart : Part Merge.MergeAnswer TurnAnswer where
  query := .mergeSync
  read := fun _ a => a
  write := fun _ a => a
  read_write := fun _ _ => rfl
  exchange := fun e => match e with
    | ⟨.mergeSync q, a⟩ => some ⟨q, a⟩
    | _ => none
  exchange_query := fun _ _ => rfl

def reconcilePart : Part Standing.ReconcileAnswer TurnAnswer where
  query := .reconcile
  read := fun _ a => a
  write := fun _ a => a
  read_write := fun _ _ => rfl
  exchange := fun e => match e with
    | ⟨.reconcile q, a⟩ => some ⟨q, a⟩
    | _ => none
  exchange_query := fun _ _ => rfl

/-! ### Merging -/

def isRateLimitMessage (message : String) : Bool :=
  Merge.occurs "rate limit" (JsString.trim message).toList

def mergeSummaryPath (number : ℕ) : String :=
  "tests/results/_agent/queue/merge-sync-" ++ toString number ++ ".json"

def mergeSyncOptions (number : ℕ) : Merge.MergeOptions where
  pr := number
  method := .squash
  methodExplicit := false
  admin := false
  keepBranch := false
  dryRun := false
  summaryPath := some (mergeSummaryPath number)

def mergeBlocked (stderr : String) : TurnResult :=
  let message := orText (JsString.trim stderr) "merge-sync failed (1)"
  let limited := isRateLimitMessage message
  { status := .blocked
    outcome := if limited then .rateLimit else .mergeBlocked
    reason := message
    blockerClass := if limited then .rateLimit else .merge
    retryable := limited
    nextWakeCondition := if limited then .githubRateLimitReset else .mergeablePr
    helperCallsExecuted := []
    issues := none }

def mergeCompleted (number : ℕ) : TurnResult where
  status := .completed
  outcome := .merged
  reason := "Merged PR #" ++ toString number ++ "."
  blockerClass := .none
  retryable := false
  nextWakeCondition := .nextSchedulerCycle
  helperCallsExecuted := ["node tools/priority/merge-sync-pr.mjs"]
  issues := none

/-- The result of `mergePullRequest`, from what became of merge-sync. -/
def mergeResult (number : ℕ) : Except String Merge.MergeSummary → TurnResult
  | .ok _ => mergeCompleted number
  | .error stderr => mergeBlocked stderr

def mergePullRequest (setup : Except String Merge.MergeSetup) (packet : TaskPacket) :
    TurnM TurnResult :=
  match PullRequestRef.resolve packet.deliveryPullRequest with
  | some number =>
    if normalizeText packet.repository = "" then
      .fail "Merge action requires repository and pull request number."
    else do
      let ended ← (Merge.runMergeSync setup (mergeSyncOptions number)).child mergePart
      pure (mergeResult number ended)
  | none => .fail "Merge action requires repository and pull request number."

/-! ### Finalising -/

def labelEntryName : Json → Option Json
  | .str text => some (.str text)
  | .obj fields => fields.lookup "name"
  | _ => none

def normalizeLabelEntries : Option Json → List String
  | some (.arr labels) => (labels.map fun label =>
      JsString.toLowerCase (normalizeText (labelEntryName label))).filter (· ≠ "")
  | _ => []

def mergedStandingLabels (standingPriorityLabels : List String) (labels : Option Json) :
    List String :=
  ((normalizeLabelEntries labels).filter standingPriorityLabels.contains).eraseDups

def shellEscapeHelperValue (text : String) : String :=
  let plain := fun c : Char => c.isAlphanum || "._-/:".toList.contains c
  if text = "" then "''"
  else if text.toList.all plain then text
  else "'" ++ String.ofList (text.toList.flatMap fun c =>
    if c = '\'' then "'\\''".toList else [c]) ++ "'"

def buildRemoveLabelHelperCall (issue : ℕ) (repository : String) (labels : List String) : String :=
  JsString.join " " (["gh issue edit " ++ toString issue,
    "--repo " ++ shellEscapeHelperValue repository,
    JsString.join " " (((labels.map JsString.trim).filter (· ≠ "")).map
      ("--remove-label " ++ shellEscapeHelperValue ·))].filter (· ≠ ""))

/-- `buildCloseIssueHelperCall`, with a comment. -/
def buildCloseIssueHelperCall (issue : ℕ) (repository : String) : String :=
  "gh issue close " ++ toString issue ++ " --repo " ++ shellEscapeHelperValue repository ++
    " --comment <omitted>"

def buildMergedIssueCloseComment (issue : ℕ) (pullRequest : Option ℕ) (url : Option String)
    (nextStandingIssue : Option ℕ) (standingSelectionWarning : String) : String :=
  let prReference := match url, pullRequest with
    | some url, some number => "PR #" ++ toString number ++ " (" ++ url ++ ")"
    | some url, none => "PR " ++ url
    | none, some number => "PR #" ++ toString number
    | none, none => "the merged pull request"
  "Completed by " ++ prReference ++ match nextStandingIssue with
    | some next => ". Standing priority has advanced from #" ++ toString issue ++ " to #" ++
        toString next ++ "."
    | none =>
      if JsString.trim standingSelectionWarning ≠ "" then
        ". Automatic standing-priority reconciliation is still pending because the next " ++
          "eligible issue could not be resolved cleanly."
      else
        ". No next standing-priority issue is currently labeled, so the queue is now idle " ++
          "until a new issue is promoted."

def reconcileOptions (packet : TaskPacket) (issue : ℕ) : Standing.ReconcileOptions where
  issue := issue
  pr := PullRequestRef.resolve packet.pullRequest
  merged := true
  workerSlotId := normalizeText packet.workerSlotId
  mergeSummary := true
  dryRun := false

/-- What `reconcileStandingAfterMergeForRepo` throws, from what became of the script. A receipt
that says `failed` sets the exit status and prints nothing. -/
def reconcileFailure : Except String Standing.ReconcileReceipt → Option String
  | .ok receipt =>
    if receipt.summary.status = .failed then
      some "standing reconciliation failed after merge finalization"
    else none
  | .error stderr =>
    some (orText (JsString.trim stderr) "standing reconciliation failed after merge finalization")

/-- The finalisation of the standing issue, from what became of the script. -/
def standingFinalization (issue : ℕ) (ended : Except String Standing.ReconcileReceipt) :
    Finalization :=
  match reconcileFailure ended with
  | some message =>
    ⟨some issue, some issue, none, orText (JsString.trim message) "unknown error", some false, []⟩
  | none =>
    ⟨some issue, some issue, none, "", some true,
      ["node tools/priority/reconcile-standing-after-merge.mjs --issue " ++ toString issue]⟩

/-- The standing labels of a selected issue that is not the standing one: those of the packet,
or else those of the live issue, if it can be read. -/
def hydrateStandingLabels (standingPriorityLabels : List String) (packet : TaskPacket)
    (issue : ℕ) : TurnM (List String) :=
  let labels := mergedStandingLabels standingPriorityLabels (packet.selected.bind (·.labels))
  if packet.standingIssueNumber ≠ some issue ∧ labels = [] then do
    let fetched ← (turnCall (.fetchIssue issue) id).caught
    pure (fetched.toOption.elim labels (mergedStandingLabels standingPriorityLabels))
  else pure labels

/-- `editIssueLabels`, if there are labels to remove, and its helper call. -/
def removeMergedLabels (repository : String) (issue : ℕ) (labels : List String) :
    TurnM (List String) :=
  if labels = [] then pure []
  else do
    turnCall (.editIssueLabels issue ((labels.map JsString.trim).filter (· ≠ ""))) id
    pure [buildRemoveLabelHelperCall issue repository labels]

def finalizeSelectedIssue (packet : TaskPacket) (issue : ℕ) (labels : List String) :
    TurnM Finalization := do
  let comment := buildMergedIssueCloseComment issue (PullRequestRef.resolve packet.pullRequest)
    (optionText (packet.pullRequest.bind (·.url))) none ""
  turnCall (.closeIssue issue (JsString.trim comment)) id
  let removed ← removeMergedLabels (normalizeText packet.repository) issue labels
  pure ⟨some issue, packet.standingIssueNumber, none, "", some true,
    buildCloseIssueHelperCall issue (normalizeText packet.repository) :: removed⟩

def finalizeMergedPullRequest (standingPriorityLabels : List String) (packet : TaskPacket) :
    TurnM Finalization :=
  match packet.selectedIssueNumber with
  | some issue =>
    if normalizeText packet.repository = "" then
      pure ⟨none, packet.standingIssueNumber, none, "", none, []⟩
    else do
      let labels ← hydrateStandingLabels standingPriorityLabels packet issue
      if packet.standingIssueNumber = some issue then do
        let ended ← (Standing.runStandingReconciliation (reconcileOptions packet issue)).child
          reconcilePart
        pure (standingFinalization issue ended)
      else finalizeSelectedIssue packet issue labels
  | none => pure ⟨none, packet.standingIssueNumber, none, "", none, []⟩

/-! ### The turn -/

/-- The number in a text, `null` without one. -/
def numberText (number : Option ℕ) : String := (number.map toString).getD "null"

def finalizationPending (merge : TurnResult) (finalization : Finalization) : TurnResult :=
  { status := .blocked
    outcome := .mergedFinalizationBlocked
    reason := "Merged PR for issue #" ++ numberText finalization.selectedIssueNumber ++
      ", but automatic standing-priority reconciliation is still pending: " ++
      finalization.standingSelectionWarning ++
      ". The standing issue remains open for deterministic retry."
    blockerClass := .helper
    retryable := true
    nextWakeCondition := .mergedLaneFinalizationRetry
    helperCallsExecuted := merge.helperCallsExecuted ++ finalization.helperCallsExecuted
    issues := some ⟨none, finalization.selectedIssueNumber, finalization.standingIssueNumber,
      finalization.nextStandingIssueNumber,
      JsString.trim finalization.standingSelectionWarning⟩ }

def mergedReason (merge : TurnResult) (finalization : Finalization) : String :=
  match finalization.selectedIssueNumber, finalization.nextStandingIssueNumber with
  | some issue, some next => "Merged PR and closed issue #" ++ toString issue ++
      "; standing priority advanced to #" ++ toString next ++ "."
  | some issue, none => "Merged PR and closed issue #" ++ toString issue ++ "."
  | none, _ => merge.reason

def finalizationDone (merge : TurnResult) (finalization : Finalization) : TurnResult :=
  { merge with
    reason := mergedReason merge finalization
    helperCallsExecuted := merge.helperCallsExecuted ++ finalization.helperCallsExecuted
    issues := some ⟨finalization.selectedIssueNumber, none, finalization.standingIssueNumber,
      finalization.nextStandingIssueNumber,
      JsString.trim finalization.standingSelectionWarning⟩ }

def finalizationThrew (merge : TurnResult) (message : String) : TurnResult :=
  { status := .blocked
    outcome := .mergedFinalizationBlocked
    reason := merge.reason ++ " Finalization failed: " ++ message
    blockerClass := .helperbug
    retryable := true
    nextWakeCondition := .mergedLaneFinalizationRetry
    helperCallsExecuted := merge.helperCallsExecuted
    issues := none }

def turnResult (merge : TurnResult) : Except String Finalization → TurnResult
  | .ok finalization =>
    if JsString.trim finalization.standingSelectionWarning ≠ "" then
      finalizationPending merge finalization
    else finalizationDone merge finalization
  | .error message => finalizationThrew merge message

/-- `runDeliveryTurnBroker`, when the planned action is `merge-pr`. -/
def mergePrTurn (setup : Except String Merge.MergeSetup) (standingPriorityLabels : List String)
    (packet : TaskPacket) : TurnM TurnResult := do
  let merge ← mergePullRequest setup packet
  if merge.status ≠ .completed ∨ merge.outcome ≠ .merged then pure merge
  else do
    let ended ← (finalizeMergedPullRequest standingPriorityLabels packet).caught
    pure (turnResult merge ended)

end CompareVI.Delivery
