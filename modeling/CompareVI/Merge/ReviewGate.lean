import CompareVI.Framework.JsString

/-!
# The Copilot queue gate

`copilot-review-gate.mjs`: the gate reads a signal report or asks the service, builds the
same records from either, and decides (`evaluateGateOutcome`). Texts that are only copied
to the report (paths, addresses, snippets) are left out.

There are three notions of the current head. The records of a signal say themselves what is
current; the records of the service are compared with the head of the pull request, which is
the live one for a merge group; and a workflow run is compared with `--head-sha`.
-/

open Framework

namespace CompareVI.ReviewGate

/-! ### Normal forms -/

/-- `value ?? …`: `null` and `undefined` are passed over. -/
def nullish (value : Option Json) : Option Json := value.filter (· ≠ .null)

def normalizeSha (value : Option Json) : Option String :=
  (Json.optionText value).map JsString.toLowerCase

/-- `normalizeSha` of an option. -/
def normalizeShaText (value : Option String) : Option String :=
  (optionText value).map JsString.toLowerCase

/-- `normalizeText(value)?.toUpperCase() || null`. -/
def upperText (value : Option Json) : Option String :=
  (Json.optionText value).map JsString.toUpperCase

def normalizeBoolean : Option Json → Option Bool
  | some (.bool b) => some b
  | some (.str s) =>
    let normalized := JsString.toLowerCase (JsString.trim s)
    if normalized = "true" then some true else if normalized = "false" then some false else none
  | _ => none

/-- `Number.parseInt(text, 10)`, `none` where it is not an integer. -/
def parseInt (text : List Char) : Option ℤ :=
  let digits (cs : List Char) : Option ℕ :=
    if cs.takeWhile Char.isDigit = [] then none
    else JsString.numberOfDigits (cs.takeWhile Char.isDigit)
  match text with
  | '-' :: cs => (digits cs).map fun n => -(n : ℤ)
  | '+' :: cs => (digits cs).map fun n => (n : ℤ)
  | cs => (digits cs).map fun n => (n : ℤ)

def normalizeInteger : Option Json → Option ℤ
  | some (.num q) => if q.den = 1 then some q.num else none
  | some (.str s) => parseInt (JsString.trim s).toList
  | _ => none

/-- A ref without `refs/heads/`. -/
def stripHeads (ref : String) : String :=
  if JsString.startsWith (JsString.toLowerCase ref) "refs/heads/" then JsString.slice ref 11
  else ref

def normalizeBaseRef (value : Option Json) : Option String :=
  (Json.optionText value).map stripHeads

def isCanonicalRepository (repo : Option String) : Bool :=
  (optionText repo).map JsString.toLowerCase =
    some (JsString.toLowerCase "LabVIEW-Community-CI-CD/compare-vi-cli-action")

def copilotLogins : List String :=
  ["copilot", "copilot-pull-request-reviewer", "copilot-pull-request-reviewer[bot]"]

def isCopilotLogin (login : Option Json) : Bool :=
  ((Json.optionText login).map JsString.toLowerCase).any copilotLogins.contains

/-- The parts of the runtime that depend on its locale data. -/
structure Runtime where
  /-- `new Date(text).toISOString()`, `none` for an invalid date. -/
  toISOString : String → Option String
  localeCompare : String → String → Ordering
  /-- `localeCompare` with the option `numeric`. -/
  numericCompare : String → String → Ordering

variable (rt : Runtime)

def normalizeIso (value : Option Json) : Option String :=
  (nullish value).bind fun v => rt.toISOString (Json.toJsString v)

def compareIsoDescending : Option String → Option String → Ordering
  | some left, some right => rt.localeCompare right left
  | some _, none => .lt
  | none, some _ => .gt
  | none, none => .eq

def compareIdDescending (left right : String) : Ordering := rt.numericCompare right left

/-- `sort`, the newest first and by id where the times agree. -/
def newestFirst {α : Type} (time : α → Option String) (id : α → String) (xs : List α) : List α :=
  xs.mergeSort fun left right =>
    (compareIsoDescending rt (time left) (time right)).then
      (compareIdDescending rt (id left) (id right)) ≠ .gt

/-! ### Options and pull request -/

inductive Strategy where
  | githubReviewRequired
  | draftOnlyExplicit
  deriving DecidableEq, Repr

/-- What `parseCliArgs` returns. -/
structure Options where
  eventName : String
  repo : Option String
  prNumber : Option ℤ
  headSha : Option String
  headBranch : Option String
  baseRef : Option String
  draft : Option Bool
  reviewRunId : Option ℤ
  reviewRunStatus : Option String
  reviewRunConclusion : Option String
  copilotReviewStrategy : Strategy
  pollAttempts : ℕ
  gatedBaseRefs : List String
  deriving DecidableEq, Repr

structure MergeGroupSource where
  headBranch : String
  baseRef : Option String
  prNumber : ℕ
  queueRefToken : Option String
  deriving DecidableEq, Repr

/-- `[0-9a-f]` with the flag `i`. -/
def isHexDigit (c : Char) : Bool :=
  c.isDigit || ('a' ≤ c && c ≤ 'f') || ('A' ≤ c && c ≤ 'F')

/-- `pr-(\d+)-([0-9a-f]{40})$`. -/
def parseQueueEntry (cs : List Char) : Option (ℕ × String) :=
  (JsString.stripLiteral "pr-".toList cs).bind fun rest =>
    match rest.takeWhile Char.isDigit, rest.dropWhile Char.isDigit with
    | [], _ => none
    | digits, '-' :: sha =>
      if sha.length = 40 && sha.all isHexDigit then
        some (JsString.digitsToNat digits, String.ofList sha)
      else none
    | _, _ => none

/-- `parseMergeGroupHeadBranch`. The entry holds no slash, so it follows the last one. -/
def parseMergeGroupHeadBranch (headBranch : Option String) : Option MergeGroupSource :=
  (optionText headBranch).bind fun normalized =>
    let queueBranch := stripHeads normalized
    (JsString.stripLiteral "gh-readonly-queue/".toList queueBranch.toList).bind fun rest =>
      let entry := (rest.reverse.takeWhile (· ≠ '/')).reverse
      let baseRef := (rest.reverse.dropWhile (· ≠ '/')).tail.reverse
      if baseRef = [] || baseRef.any JsString.isLineTerminator then none
      else (parseQueueEntry entry).map fun (prNumber, sha) =>
        { headBranch := queueBranch
          baseRef := normalizeBaseRef (some (.str (String.ofList baseRef)))
          prNumber := prNumber
          queueRefToken := normalizeShaText (some sha) }

structure LivePull where
  number : Option ℤ
  baseRef : Option String
  draft : Option Bool
  headSha : Option String
  deriving DecidableEq, Repr

structure PullRequest where
  number : Option ℤ
  baseRef : Option String
  draft : Bool
  headSha : Option String
  liveHeadSha : Option String
  mergeGroupSource : Option MergeGroupSource
  deriving DecidableEq, Repr

def buildPullRequest (o : Options) (signal : Option Json) (live : Option LivePull)
    (source : Option MergeGroupSource) : PullRequest :=
  let signalPull (key : String) : Option Json := nullish (Json.path signal ["pullRequest", key])
  { number := (normalizeInteger (signalPull "number")).or (o.prNumber.or
      ((live.bind LivePull.number).or (source.map fun s => (s.prNumber : ℤ))))
    baseRef := normalizeBaseRef ((signalPull "baseRef").or
      (((live.bind LivePull.baseRef).or ((source.bind MergeGroupSource.baseRef).or
        o.baseRef)).map Json.str))
    draft := ((normalizeBoolean (signalPull "draft")).or
      ((live.bind LivePull.draft).or o.draft)).getD false
    headSha := normalizeSha ((signalPull "headSha").or
      (((live.bind LivePull.headSha).or o.headSha).map Json.str))
    liveHeadSha := normalizeShaText (live.bind LivePull.headSha)
    mergeGroupSource := source }

def resolveLiveHeadOptions (o : Options) (live : Option LivePull) : Options :=
  if o.eventName = "merge_group" then
    match live.bind LivePull.headSha with
    | some sha => if sha = "" then o else { o with headSha := normalizeShaText (some sha) }
    | none => o
  else o

/-! ### The review run -/

structure ReviewRun where
  runId : Option ℤ
  status : Option String
  conclusion : Option String
  headSha : Option String
  isCurrentHead : Bool
  observationState : String
  deriving DecidableEq, Repr

def pendingWorkflowRunStatuses : List String :=
  ["QUEUED", "IN_PROGRESS", "PENDING", "REQUESTED", "WAITING"]

/-- `observationState` of a run. -/
def observationState (runId : Option ℤ) (status conclusion : Option String) : String :=
  if runId = none then "unobserved"
  else if status.any pendingWorkflowRunStatuses.contains then "in_progress"
  else if status = some "COMPLETED" && conclusion = some "SUCCESS" then "completed-clean"
  else if status = some "COMPLETED" then "completed-failure"
  else "unobserved"

def buildReviewRunFromOptions (o : Options) : ReviewRun :=
  let status := upperText (o.reviewRunStatus.map Json.str)
  let conclusion := upperText (o.reviewRunConclusion.map Json.str)
  { runId := o.reviewRunId
    status := status
    conclusion := conclusion
    headSha := normalizeShaText o.headSha
    isCurrentHead := o.headSha.any (· ≠ "")
    observationState := observationState o.reviewRunId status conclusion }

def isObject : Option Json → Bool
  | some (.obj _) | some (.arr _) => true
  | _ => false

def buildReviewRunFromSignal (signal : Option Json) (o : Options) : ReviewRun :=
  let optionRun := buildReviewRunFromOptions o
  let signalRun (key : String) : Option Json := Json.path signal ["reviewRun", key]
  if isObject (Json.path signal ["reviewRun"]) && optionRun.runId = none &&
      optionRun.status = none && optionRun.conclusion = none then
    { runId := normalizeInteger (signalRun "runId")
      status := upperText (signalRun "status")
      conclusion := upperText (signalRun "conclusion")
      headSha := normalizeSha ((nullish (signalRun "headSha")).or (o.headSha.map Json.str))
      isCurrentHead := signalRun "isCurrentHead" = some (.bool true) ||
        ((normalizeSha (signalRun "headSha")).isSome &&
          normalizeSha (signalRun "headSha") = normalizeShaText o.headSha)
      observationState :=
        (Json.optionText (signalRun "observationState")).getD "unobserved" }
  else optionRun

def buildReviewRunFromLiveRun (run : Option Json) (o : Options) : ReviewRun :=
  if isObject run then
    let field (key : String) : Option Json := Json.path run [key]
    let status := upperText (field "status")
    let conclusion := upperText (field "conclusion")
    let headSha := normalizeSha ((nullish (field "head_sha")).or (o.headSha.map Json.str))
    { runId := normalizeInteger (field "id")
      status := status
      conclusion := conclusion
      headSha := headSha
      isCurrentHead := headSha.isSome && headSha = normalizeShaText o.headSha
      observationState := observationState (normalizeInteger (field "id")) status conclusion }
  else buildReviewRunFromOptions o

def selectCopilotWorkflowRun (runs : List Json) (headSha : Option String) : Option Json :=
  let named := runs.filter fun run =>
    Json.optionText (Json.path (some run) ["name"]) = some "Copilot code review"
  let candidates := named.filter fun run =>
    normalizeShaText headSha = none ||
      normalizeSha (Json.path (some run) ["head_sha"]) = normalizeShaText headSha
  (newestFirst rt (fun run => normalizeIso rt (Json.path (some run) ["updated_at"]))
    (fun run => ((normalizeInteger (Json.path (some run) ["id"])).map toString).getD "0")
    candidates).head?

/-- `loadLiveReviewRun`, given the runs that the service lists. -/
def loadLiveReviewRun (o : Options) (runs : List Json) : Option Json :=
  if o.repo.any (· ≠ "") && o.headSha.any (· ≠ "") then
    selectCopilotWorkflowRun rt runs o.headSha
  else none

/-! ### Reviews and threads -/

structure Review where
  id : String
  commitId : Option String
  submittedAt : Option String
  isCurrentHead : Bool
  deriving DecidableEq, Repr

structure Comment where
  id : String
  publishedAt : Option String
  commitId : Option String
  isCurrentHead : Bool
  deriving DecidableEq, Repr

structure Thread where
  threadId : String
  copilotCommentCount : ℤ
  currentHeadCommentCount : ℤ
  staleCommentCount : ℤ
  actionable : Bool
  latestComment : Option Comment
  actionableComments : List Comment
  deriving DecidableEq, Repr

/-- `normalizeText(value) ?? unknown`. -/
def textOr (unknown : String) (value : Option Json) : String :=
  (Json.optionText value).getD unknown

/-- `Array.isArray(value) ? value : []`. -/
def arrayOrNil : Option Json → List Json
  | some (.arr xs) => xs
  | _ => []

/-- `Boolean(headSha && commitId && commitId === headSha)`. -/
def isHead (headSha commitId : Option String) : Bool := headSha.isSome && commitId = headSha

def normalizeComment (comment : Json) (headSha : Option String) : Option Comment :=
  let field (keys : List String) : Option Json := nullish (Json.path (some comment) keys)
  if isCopilotLogin ((field ["author", "login"]).or
      (field ["pullRequestReview", "author", "login"])) then
    let commitId := normalizeSha ((field ["pullRequestReview", "commit", "oid"]).or
      (field ["originalCommit", "oid"]))
    some
      { id := textOr "comment:unknown" (field ["id"])
        publishedAt := normalizeIso rt ((field ["publishedAt"]).or (field ["createdAt"]))
        commitId := commitId
        isCurrentHead := isHead headSha commitId }
  else none

def copilotComments (thread : Json) (headSha : Option String) : List Comment :=
  (arrayOrNil (Json.path (some thread) ["comments", "nodes"])).filterMap fun comment =>
    normalizeComment rt comment headSha

def isOpen (thread : Json) : Bool :=
  !Json.truthy (thread.get? "isResolved") && !Json.truthy (thread.get? "isOutdated")

def normalizeThread (thread : Json) (headSha : Option String) : Option Thread :=
  let comments := copilotComments rt thread headSha
  let actionableComments := comments.filter Comment.isCurrentHead
  if comments = [] then none
  else some
    { threadId := textOr "thread:unknown" (thread.get? "id")
      copilotCommentCount := comments.length
      currentHeadCommentCount := actionableComments.length
      staleCommentCount := (comments.filter fun comment => !comment.isCurrentHead).length
      actionable := isOpen thread && actionableComments ≠ []
      latestComment := (newestFirst rt Comment.publishedAt Comment.id comments).head?
      actionableComments := actionableComments }

def normalizeReviews (reviews : List Json) (headSha : Option String) : List Review :=
  newestFirst rt Review.submittedAt Review.id
    ((reviews.filter fun review =>
      isCopilotLogin (Json.path (some review) ["user", "login"])).map fun review =>
        { id := ((normalizeInteger (review.get? "id")).map toString).getD
            (textOr "review:unknown" (review.get? "id"))
          commitId := normalizeSha (review.get? "commit_id")
          submittedAt := normalizeIso rt (review.get? "submitted_at")
          isCurrentHead := isHead headSha (normalizeSha (review.get? "commit_id")) })

def reviewThreads : List String := ["data", "repository", "pullRequest", "reviewThreads"]

def extractThreadNodes : Json → List Json
  | .arr threads => threads
  | payload => arrayOrNil (Json.path (some payload) (reviewThreads ++ ["nodes"]))

def detectThreadPaginationErrors : Json → List String
  | .arr _ => []
  | payload =>
    (if Json.truthy (Json.path (some payload) (reviewThreads ++ ["pageInfo", "hasNextPage"])) then
      ["Review-thread payload exceeded the first 100 threads. Pagination is required before " ++
        "this queue gate can be trusted."]
    else []) ++
    ((arrayOrNil (Json.path (some payload) (reviewThreads ++ ["nodes"]))).filter fun thread =>
      Json.truthy (Json.path (some thread) ["comments", "pageInfo", "hasNextPage"])).map
        fun thread =>
          "Review-thread comments for " ++ textOr "thread:unknown" (thread.get? "id") ++
            " exceeded the first 100 comments. Pagination is required before this queue gate " ++
            "can be trusted."

/-! ### The decision -/

/-- What `evaluateGateOutcome` is given. -/
structure Evaluation where
  eventName : String
  repository : Option String
  copilotReviewStrategy : Strategy
  pullRequest : PullRequest
  reviews : List Review
  threads : List Thread
  reviewRun : ReviewRun
  errors : List String
  gatedBaseRefs : List String
  deriving DecidableEq, Repr

namespace Evaluation

def normalizedBaseRef (e : Evaluation) : Option String :=
  (normalizeBaseRef (e.pullRequest.baseRef.map Json.str)).map JsString.toLowerCase

def isGated (e : Evaluation) : Bool :=
  e.normalizedBaseRef.any fun ref => ref ≠ "" && e.gatedBaseRefs.contains ref

def mergeGroupSourceResolved (e : Evaluation) : Bool :=
  e.eventName ≠ "merge_group" || e.pullRequest.mergeGroupSource.isSome

/-- `gateApplies`: a pull request of the canonical repository that is not a draft, with a
gated base. -/
def gateApplies (e : Evaluation) : Bool :=
  !e.pullRequest.draft && e.mergeGroupSourceResolved && e.isGated &&
    isCanonicalRepository e.repository

def actionableThreadCount (e : Evaluation) : ℕ := (e.threads.filter Thread.actionable).length

def actionableCommentCount (e : Evaluation) : ℕ :=
  (e.threads.map fun thread => thread.actionableComments.length).sum

def currentHeadReviewCount (e : Evaluation) : ℕ := (e.reviews.filter Review.isCurrentHead).length

def staleReviewCount (e : Evaluation) : ℕ :=
  (e.reviews.filter fun review => !review.isCurrentHead).length

def latestCopilotReview (e : Evaluation) : Option Review := e.reviews.head?

def latestIsCurrentHead (e : Evaluation) : Bool := e.latestCopilotReview.any Review.isCurrentHead

def staleReviewCleanFollowup (e : Evaluation) : Bool :=
  e.latestCopilotReview.isSome && e.eventName ≠ "pull_request_target" &&
    e.eventName ≠ "merge_group" && !e.latestIsCurrentHead && e.currentHeadReviewCount = 0 &&
    0 < e.staleReviewCount && e.actionableThreadCount = 0 && e.actionableCommentCount = 0

def reviewRunState (e : Evaluation) : String :=
  (optionText (some e.reviewRun.observationState)).getD "unobserved"

def reviewRunCompletedClean (e : Evaluation) : Bool := e.reviewRunState = "completed-clean"

end Evaluation

inductive GateStatus where
  | pass
  | fail
  deriving DecidableEq, Repr

inductive GateState where
  | ready
  | skipped
  | blocked
  | error
  deriving DecidableEq, Repr

inductive Reason where
  | mergeGroupSourceUnresolved
  | draftPrSkip
  | baseRefNotGated
  | throughputForkSkip
  | dataError
  | authUnavailable
  | actionableCommentsPresent
  | reviewRunActive
  | reviewRunFailed
  | reviewRunCompletedClean
  | localReviewMode
  | reviewRunUnobserved
  | reviewMissing
  | staleReviewCleanFollowup
  | currentHeadReviewMissing
  | latestReviewStale
  | currentHeadReviewClean
  deriving DecidableEq, Repr

structure Verdict where
  status : GateStatus
  gateState : GateState
  reasons : List Reason
  deriving DecidableEq, Repr

def Evaluation.verdictWithoutReview (e : Evaluation) : Verdict :=
  if e.reviewRunCompletedClean && e.actionableThreadCount = 0 && e.actionableCommentCount = 0 then
    ⟨.pass, .ready, [.reviewRunCompletedClean]⟩
  else if e.copilotReviewStrategy = .draftOnlyExplicit then ⟨.pass, .ready, [.localReviewMode]⟩
  else if e.reviewRunState = "unobserved" then ⟨.fail, .blocked, [.reviewRunUnobserved]⟩
  else ⟨.fail, .blocked, [.reviewMissing]⟩

/-- The verdict where the latest review is not one of the current head. -/
def Evaluation.verdictWithStaleReview (e : Evaluation) : Verdict :=
  if e.reviewRunCompletedClean && e.actionableThreadCount = 0 && e.actionableCommentCount = 0 then
    ⟨.pass, .ready, [.reviewRunCompletedClean]⟩
  else if e.staleReviewCleanFollowup then ⟨.pass, .ready, [.staleReviewCleanFollowup]⟩
  else if e.copilotReviewStrategy = .draftOnlyExplicit then ⟨.pass, .ready, [.localReviewMode]⟩
  else ⟨.fail, .blocked, .currentHeadReviewMissing ::
    if e.latestIsCurrentHead then [] else [.latestReviewStale]⟩

/-- `evaluateGateOutcome`, its status, state and reasons. -/
def Evaluation.verdict (e : Evaluation) : Verdict :=
  if e.eventName = "merge_group" && !e.mergeGroupSourceResolved then
    ⟨.fail, .error, [.mergeGroupSourceUnresolved]⟩
  else if e.pullRequest.draft then ⟨.pass, .skipped, [.draftPrSkip]⟩
  else if !e.isGated then ⟨.pass, .skipped, [.baseRefNotGated]⟩
  else if !isCanonicalRepository e.repository then ⟨.pass, .skipped, [.throughputForkSkip]⟩
  else if e.errors ≠ [] then ⟨.fail, .error, [.dataError]⟩
  else if 0 < e.actionableThreadCount || 0 < e.actionableCommentCount then
    ⟨.fail, .blocked, [.actionableCommentsPresent]⟩
  else if e.reviewRunState = "in_progress" && e.copilotReviewStrategy ≠ .draftOnlyExplicit then
    ⟨.fail, .blocked, [.reviewRunActive]⟩
  else if e.reviewRunState = "completed-failure" &&
      e.copilotReviewStrategy ≠ .draftOnlyExplicit then
    ⟨.fail, .blocked, [.reviewRunFailed]⟩
  else if e.latestCopilotReview = none then e.verdictWithoutReview
  else if !e.latestIsCurrentHead || e.currentHeadReviewCount = 0 then e.verdictWithStaleReview
  else ⟨.pass, .ready, [.currentHeadReviewClean]⟩

structure Report where
  verdict : Verdict
  repository : Option String
  pullRequest : PullRequest
  reviewRun : ReviewRun
  latestCopilotReview : Option Review
  actionableThreads : List Thread
  gateApplies : Bool
  staleReviewCleanFollowup : Bool
  errors : List String
  deriving DecidableEq, Repr

def evaluateGateOutcome (e : Evaluation) : Report where
  verdict := e.verdict
  repository := e.repository
  pullRequest := e.pullRequest
  reviewRun := e.reviewRun
  latestCopilotReview := e.latestCopilotReview
  actionableThreads := e.threads.filter Thread.actionable
  gateApplies := e.gateApplies
  staleReviewCleanFollowup := e.staleReviewCleanFollowup
  errors := e.errors

/-! ### The signal report -/

def signalLatestReview (signal : Json) : List Review :=
  let field (key : String) : Option Json := Json.path (some signal) ["latestCopilotReview", key]
  if Json.truthy (signal.get? "latestCopilotReview") then
    [{ id := textOr "review:unknown" (field "id")
       commitId := normalizeSha (field "commitId")
       submittedAt := normalizeIso rt (field "submittedAt")
       isCurrentHead := Json.truthy (field "isCurrentHead") }]
  else []

def signalStaleReviews (signal : Json) : List Review :=
  (arrayOrNil (signal.get? "staleReviews")).map fun review =>
    { id := textOr "review:unknown" (review.get? "id")
      commitId := normalizeSha (review.get? "commitId")
      submittedAt := normalizeIso rt (review.get? "submittedAt")
      isCurrentHead := false }

def signalComment (comment : Json) (isCurrentHead : Bool) : Comment where
  id := textOr "comment:unknown" (comment.get? "id")
  publishedAt := normalizeIso rt (comment.get? "publishedAt")
  commitId := normalizeSha (comment.get? "commitId")
  isCurrentHead := isCurrentHead

def signalThread (signal thread : Json) : Thread where
  threadId := textOr "thread:unknown" (thread.get? "threadId")
  copilotCommentCount := (normalizeInteger (thread.get? "copilotCommentCount")).getD 0
  currentHeadCommentCount := (normalizeInteger (thread.get? "currentHeadCommentCount")).getD 0
  staleCommentCount := (normalizeInteger (thread.get? "staleCommentCount")).getD 0
  actionable := true
  latestComment := ((thread.get? "latestComment").filter Json.isTruthy).map fun comment =>
    signalComment rt comment (Json.truthy (comment.get? "isCurrentHead"))
  actionableComments :=
    ((arrayOrNil (signal.get? "actionableComments")).filter fun comment =>
      Json.optionText (comment.get? "threadId") = Json.optionText (thread.get? "threadId")).map
        fun comment => signalComment rt comment true

def signalActionableThreads (signal : Json) : List Json :=
  (arrayOrNil (signal.get? "unresolvedThreads")).filter fun thread =>
    Json.truthy (thread.get? "actionable")

def signalErrors (signal : Json) : List String :=
  (arrayOrNil (signal.get? "errors")).filterMap fun entry => Json.optionText (some entry)

/-- The review run of a signal: a clean one is not clean if the signal counts something
actionable. -/
def signalReviewRun (o : Options) (signal : Json) : ReviewRun :=
  let reviewRun := buildReviewRunFromSignal (some signal) o
  let count (key : String) : ℤ :=
    (normalizeInteger (Json.path (some signal) ["summary", key])).getD 0
  if reviewRun.observationState = "completed-clean" &&
      0 < count "actionableThreadCount" + count "actionableCommentCount" then
    { reviewRun with observationState := "completed-attention" }
  else reviewRun

/-- What `buildReportFromSignal` evaluates. -/
def signalEvaluation (o : Options) (signal : Json) : Evaluation where
  eventName := o.eventName
  repository := (Json.optionText (signal.get? "repository")).or (optionText o.repo)
  copilotReviewStrategy := o.copilotReviewStrategy
  pullRequest := buildPullRequest o (some signal) none none
  reviews := newestFirst rt Review.submittedAt Review.id
    (signalLatestReview rt signal ++ signalStaleReviews rt signal)
  threads := (signalActionableThreads signal).map (signalThread rt signal)
  reviewRun := signalReviewRun o signal
  errors := signalErrors signal
  gatedBaseRefs := o.gatedBaseRefs

/-! ### The answer of the service -/

/-- What the service answers: the live pull request of a merge group, the reviews, the
review threads, and the workflow runs. -/
structure LiveAnswer where
  pull : LivePull
  reviews : List Json
  threads : Json
  runs : List Json

structure LookupError where
  message : String
  authUnavailable : Bool
  deriving DecidableEq, Repr

def livePullRequest (o : Options) (answer : LiveAnswer) : Option LivePull :=
  if o.eventName = "merge_group" then some answer.pull else none

def liveOptions (o : Options) (answer : LiveAnswer) : Options :=
  resolveLiveHeadOptions o (livePullRequest o answer)

def liveHeadSha (o : Options) (source : Option MergeGroupSource) (answer : LiveAnswer) :
    Option String :=
  (buildPullRequest (liveOptions o answer) none (livePullRequest o answer) source).headSha

/-- What `buildReportFromLiveData` evaluates. -/
def liveEvaluation (o : Options) (source : Option MergeGroupSource) (answer : LiveAnswer) :
    Evaluation where
  eventName := o.eventName
  repository := optionText o.repo
  copilotReviewStrategy := o.copilotReviewStrategy
  pullRequest := buildPullRequest (liveOptions o answer) none (livePullRequest o answer) source
  reviews := normalizeReviews rt answer.reviews (liveHeadSha o source answer)
  threads := (extractThreadNodes answer.threads).filterMap fun thread =>
    normalizeThread rt thread (liveHeadSha o source answer)
  reviewRun := buildReviewRunFromLiveRun
    (loadLiveReviewRun rt (liveOptions o answer) answer.runs) (liveOptions o answer)
  errors := detectThreadPaginationErrors answer.threads
  gatedBaseRefs := o.gatedBaseRefs

def lookUp (o : Options) (answer : Except LookupError LiveAnswer) :
    Except LookupError LiveAnswer :=
  if o.repo.any (· ≠ "") && o.prNumber.isSome then answer
  else .error ⟨"Live review lookups require both --repo and --pr.", false⟩

/-! ### The run -/

inductive Basis where
  | metadata (signal : Option Json) (source : Option MergeGroupSource)
  | signal (report : Json)
  | live (source : Option MergeGroupSource) (answer : LiveAnswer)

def resolvedOptions (o : Options) (source : Option MergeGroupSource) : Options :=
  match source with
  | some source =>
    { o with
      prNumber := some source.prNumber
      baseRef := source.baseRef.or o.baseRef }
  | none => o

/-- What is evaluated without a lookup. The strategy is the default one. -/
def metadataEvaluation (o : Options) (signal : Option Json) (source : Option MergeGroupSource)
    (errors : List String) : Evaluation where
  eventName := o.eventName
  repository := (signal.bind fun s => Json.optionText (s.get? "repository")).or
    (optionText o.repo)
  copilotReviewStrategy := .githubReviewRequired
  pullRequest := buildPullRequest o signal none source
  reviews := []
  threads := []
  reviewRun := buildReviewRunFromSignal signal o
  errors := errors
  gatedBaseRefs := o.gatedBaseRefs

/-- What is evaluated where the branch of a merge group does not parse. -/
def unresolvedEvaluation (o : Options) (signal : Option Json) : Evaluation where
  eventName := o.eventName
  repository := optionText o.repo
  copilotReviewStrategy := .githubReviewRequired
  pullRequest := buildPullRequest o signal none none
  reviews := []
  threads := []
  reviewRun := buildReviewRunFromSignal signal o
  errors := ["Merge-group head branch '" ++ o.headBranch.getD "unknown" ++
    "' did not match the expected gh-readonly-queue/<base>/pr-<number>-<sha> pattern."]
  gatedBaseRefs := o.gatedBaseRefs

def mergeGroupSource (o : Options) : Option MergeGroupSource :=
  if o.eventName = "merge_group" then parseMergeGroupHeadBranch o.headBranch else none

def isUnresolved (o : Options) : Bool :=
  o.eventName = "merge_group" && (mergeGroupSource o).isNone

def Basis.evaluation (o : Options) : Basis → Evaluation
  | metadata known source =>
    if isUnresolved o then unresolvedEvaluation o known
    else metadataEvaluation (resolvedOptions o source) known source []
  | signal report => signalEvaluation rt (resolvedOptions o (mergeGroupSource o)) report
  | live source answer => liveEvaluation rt (resolvedOptions o source) source answer

def shouldSkipWithoutLookup (o : Options) (signal : Option Json) : Bool :=
  let e := metadataEvaluation (resolvedOptions o (mergeGroupSource o)) signal
    (mergeGroupSource o) []
  e.pullRequest.draft || !e.isGated ||
    (e.repository.isSome && !isCanonicalRepository e.repository)

def isMissingInitialCopilotReview (report : Report) : Bool :=
  report.verdict.status = .fail &&
    [[.reviewMissing], [.reviewRunUnobserved], [.reviewRunActive]].contains report.verdict.reasons

def isWaitingForCurrentHeadCopilotReview (report : Report) : Bool :=
  report.verdict.status = .fail && report.verdict.reasons.contains .currentHeadReviewMissing

def shouldContinuePolling (report : Report) : Bool :=
  isMissingInitialCopilotReview report || isWaitingForCurrentHeadCopilotReview report

def shouldPollForInitialCopilotReview (report : Report) (o : Options) : Bool :=
  o.copilotReviewStrategy ≠ .draftOnlyExplicit && o.eventName = "pull_request_target" &&
    1 < o.pollAttempts && shouldContinuePolling report

/-- The polling loop with so many attempts left, each with its own answer. -/
def pollLoop (o : Options) (answers : ℕ → Except LookupError LiveAnswer) :
    ℕ → ℕ → Basis → Except LookupError Basis
  | 0, _, basis => .ok basis
  | left + 1, attempt, _ =>
    match lookUp (resolvedOptions o (mergeGroupSource o)) (answers attempt) with
    | .error e => .error e
    | .ok answer =>
      let basis := Basis.live (mergeGroupSource o) answer
      if shouldContinuePolling (evaluateGateOutcome (basis.evaluation rt o)) then
        pollLoop o answers left (attempt + 1) basis
      else .ok basis

/-- What the gate meets: the signal report, if there is one, and the answers of the service
to each attempt. -/
structure GateRun where
  options : Options
  signal : Option Json
  answers : ℕ → Except LookupError LiveAnswer

def firstBasis (i : GateRun) : Except LookupError Basis :=
  if isUnresolved i.options then .ok (.metadata i.signal none)
  else if shouldSkipWithoutLookup i.options i.signal then
    .ok (.metadata i.signal (mergeGroupSource i.options))
  else
    match i.signal.filter Json.isTruthy with
    | some report =>
      if report.get? "schema" = some (.str "priority/copilot-review-signal@v1") then
        .ok (.signal report)
      else .error ⟨"Unsupported Copilot review signal schema '" ++
        ((nullish (report.get? "schema")).map Json.toJsString).getD "unknown" ++ "'.", false⟩
    | none =>
      match lookUp (resolvedOptions i.options (mergeGroupSource i.options)) (i.answers 0) with
      | .error e => .error e
      | .ok answer => .ok (.live (mergeGroupSource i.options) answer)

def lastBasis (i : GateRun) : Except LookupError Basis :=
  match firstBasis i with
  | .error e => .error e
  | .ok basis =>
    if !isUnresolved i.options && shouldPollForInitialCopilotReview
        (evaluateGateOutcome (basis.evaluation rt i.options)) i.options then
      pollLoop rt i.options i.answers (i.options.pollAttempts - 1) 1 basis
    else .ok basis

def buildFailureReport (o : Options) (e : LookupError) : Report where
  verdict := ⟨.fail, .error, [if e.authUnavailable then .authUnavailable else .dataError]⟩
  repository := optionText o.repo
  pullRequest := buildPullRequest o none none (mergeGroupSource o)
  reviewRun := buildReviewRunFromOptions o
  latestCopilotReview := none
  actionableThreads := []
  gateApplies := false
  staleReviewCleanFollowup := false
  errors := [e.message]

structure GateResult where
  exitCode : ℤ
  report : Report
  deriving DecidableEq, Repr

def runCopilotReviewGate (i : GateRun) : GateResult :=
  match lastBasis rt i with
  | .error e => ⟨1, buildFailureReport i.options e⟩
  | .ok basis =>
    let report := evaluateGateOutcome (basis.evaluation rt i.options)
    ⟨if report.verdict.status = .pass then 0 else 1, report⟩

end CompareVI.ReviewGate
