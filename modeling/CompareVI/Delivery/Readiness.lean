import CompareVI.Framework.JsString
import Mathlib.Tactic.SplitIfs

/-!
# Which pull requests are ready to merge

`normalizePullRequest` turns what GitHub says about a pull request into a record,
and `classifyPullRequestWork` reads off it what the delivery agent does next. A
pull request that is `readyToMerge` is merged unattended.

The checks of the rollup are told apart by three lists of words
(`PENDING_CHECK_STATES`, `BLOCKING_CHECK_STATES`, `SUCCESSFUL_CHECK_CONCLUSIONS`). The
lists do not cover what a check may say: a check run that was only requested, or
that says nothing, is in none of them, and the loop of `classifyChecks` goes on
(`Unlisted`). A record is truthful about its readiness exactly when no such check
decides it (`readyLaw_iff`).
-/

open Framework

namespace CompareVI.Delivery

/-! ### The records -/

def normalizeText (value : Option Json) : String := JsString.trim (Json.stringOrEmpty value)

/-- `normalizeText(value) || null`. -/
def optionText (value : Option Json) : Option String :=
  let text := normalizeText value
  if text = "" then none else some text

/-- `normalizeText(value).toUpperCase()`. -/
def stateText (value : Option Json) : String := JsString.toUpperCase (normalizeText value)

/-- `normalizeText(value).toUpperCase() || null`. -/
def optionState (value : Option Json) : Option String :=
  let text := stateText value
  if text = "" then none else some text

def coercePositiveInteger (value : Option Json) : Option ℕ :=
  if value = none ∨ value = some .null ∨ value = some (.str "") then none
  else
    match Json.toNumber? value with
    | some q => if q.den = 1 ∧ 0 < q.num then some q.num.toNat else none
    | none => none

def SUCCESSFUL_CHECK_CONCLUSIONS : List String := ["SUCCESS", "NEUTRAL", "SKIPPED"]

def PENDING_CHECK_STATES : List String :=
  ["QUEUED", "IN_PROGRESS", "PENDING", "EXPECTED", "WAITING"]

def BLOCKING_CHECK_STATES : List String :=
  ["FAILURE", "FAILED", "TIMED_OUT", "ERROR", "ACTION_REQUIRED", "CANCELLED"]

def PENDING_WORKFLOW_RUN_STATUSES : List String :=
  ["QUEUED", "IN_PROGRESS", "PENDING", "REQUESTED", "WAITING"]

/-- A check as `summarizeCheckRollup` gives it. -/
structure Check where
  name : Option String
  status : Option String
  conclusion : Option String
  url : Option String
  deriving DecidableEq, Repr

/-- A text that may be `null`, as a JSON value. -/
def textJson (text : Option String) : Json := text.elim .null .str

/-- A check as a JSON value: `classifyPullRequestWork` summarises it once more. -/
def Check.toJson (check : Check) : Json :=
  .obj [("name", textJson check.name), ("status", textJson check.status),
    ("conclusion", textJson check.conclusion), ("url", textJson check.url)]

/-- `typeof entry === 'object'`, and not `null`. -/
def isObject : Json → Bool
  | .obj _ | .arr _ => true
  | _ => false

/-- One entry of the rollup. A status context has a state in place of a status and a
conclusion. -/
def summarizeCheck (entry : Json) : Check :=
  if normalizeText (entry.get? "__typename") = "StatusContext" then
    { name := optionText (entry.get? "context")
      status := optionState (entry.get? "state")
      conclusion := optionState (entry.get? "state")
      url := optionText (entry.get? "targetUrl") }
  else
    { name := optionText (entry.get? "name")
      status := optionState (entry.get? "status")
      conclusion := optionState (entry.get? "conclusion")
      url := optionText (entry.get? "detailsUrl") }

def rollupEntries : Option Json → List Json
  | some (.arr entries) => entries.filter isObject
  | _ => []

def summarizeCheckRollup (rollup : Option Json) : List Check :=
  (rollupEntries rollup).map summarizeCheck

structure ReviewWorkflow where
  status : Option String
  conclusion : Option String
  deriving DecidableEq, Repr

structure ReviewSignal where
  hasCurrentHeadReview : Bool
  actionableCommentCount : Option ℚ
  actionableThreadCount : Option ℚ
  deriving DecidableEq, Repr

/-- A pull request as `normalizePullRequest` gives it; the two review properties are
attached later, if there is anything to attach. -/
structure PullRequest where
  id : Option String
  number : ℕ
  title : Option String
  url : Option String
  state : String
  isDraft : Bool
  createdAt : Option String
  updatedAt : Option String
  baseRefName : Option String
  headRefName : Option String
  headRefOid : Option String
  mergeStateStatus : Option String
  mergeable : Option String
  reviewDecision : Option String
  statusCheckRollup : List Check
  repository : Option String
  headRepositoryOwner : Option String
  isCrossRepository : Bool
  copilotReviewWorkflow : Option ReviewWorkflow
  copilotReviewSignal : Option ReviewSignal
  deriving DecidableEq, Repr

/-- `pr.statusCheckRollup?.contexts?.nodes`, or the rollup itself. -/
def statusCheckRollupNodes (pr : Json) : Option Json :=
  match Json.path (some pr) ["statusCheckRollup", "contexts", "nodes"] with
  | some (.arr nodes) => some (.arr nodes)
  | _ => pr.get? "statusCheckRollup"

def normalizePullRequest (pr : Json) (fallbackRepository : Option String) : Option PullRequest :=
  if isObject pr then
    (coercePositiveInteger (pr.get? "number")).map fun number =>
      { id := optionText (pr.get? "id")
        number
        title := optionText (pr.get? "title")
        url := optionText (pr.get? "url")
        state :=
          (optionState (if Json.truthy (pr.get? "state") then pr.get? "state"
            else some (.str "OPEN"))).getD "OPEN"
        isDraft := pr.get? "isDraft" = some (.bool true)
        createdAt := optionText (pr.get? "createdAt")
        updatedAt := optionText (pr.get? "updatedAt")
        baseRefName := optionText (pr.get? "baseRefName")
        headRefName := optionText (pr.get? "headRefName")
        headRefOid := optionText (pr.get? "headRefOid")
        mergeStateStatus := optionText (pr.get? "mergeStateStatus")
        mergeable := optionText (pr.get? "mergeable")
        reviewDecision := optionText (pr.get? "reviewDecision")
        statusCheckRollup := summarizeCheckRollup (statusCheckRollupNodes pr)
        repository :=
          ((optionText (Json.path (some pr) ["repository", "nameWithOwner"])).or
            (optionText (pr.get? "repository"))).or (fallbackRepository.filter (· ≠ ""))
        headRepositoryOwner :=
          (optionText (Json.path (some pr) ["headRepositoryOwner", "login"])).or
            (optionText (pr.get? "headRepositoryOwner"))
        isCrossRepository := pr.get? "isCrossRepository" = some (.bool true)
        copilotReviewWorkflow := none
        copilotReviewSignal := none }
  else none

/-! ### What to do with a pull request -/

inductive LaneLifecycle where
  | coding
  | waitingCi
  | waitingReview
  | blocked
  | readyMerge
  deriving DecidableEq, Repr

inductive BlockerClass where
  | none
  | ci
  | review
  | merge
  deriving DecidableEq, Repr

inductive ChecksStatus where
  | notLinked
  | failed
  | pending
  | success
  deriving DecidableEq, Repr

inductive WakeCondition where
  | reviewDispositionUpdated
  | branchSynced
  | copilotReviewWorkflowCompleted
  | copilotReviewPostExpected
  | copilotReviewWorkflowRerunOrFixed
  | reviewCommentsAddressed
  | manualConflictResolution
  | checksGreen
  | mergeAttempt
  deriving DecidableEq, Repr

/-- The two marks the loop of `classifyChecks` sets. -/
structure CheckMarks where
  hasPending : Bool
  hasFailure : Bool
  deriving DecidableEq, Repr

/-- A check says by its status or by its conclusion that it is in one of the states. -/
def Check.says (check : Check) (states : List String) : Prop :=
  stateText (textJson check.status) ∈ states ∨ stateText (textJson check.conclusion) ∈ states

instance (check : Check) (states : List String) : Decidable <| check.says states :=
  inferInstanceAs (Decidable (_ ∨ _))

/-- One round of the loop of `classifyChecks`. -/
def CheckMarks.add (marks : CheckMarks) (check : Check) : CheckMarks :=
  if check.says PENDING_CHECK_STATES then { marks with hasPending := true }
  else if check.says BLOCKING_CHECK_STATES then { marks with hasFailure := true }
  else
    let conclusion := stateText (textJson check.conclusion)
    if stateText (textJson check.status) = "COMPLETED" ∧ conclusion ≠ "" ∧
        conclusion ∉ SUCCESSFUL_CHECK_CONCLUSIONS then
      { marks with hasFailure := true }
    else marks

def classifyChecks (rollup : Option Json) : ChecksStatus × BlockerClass :=
  let checks := summarizeCheckRollup rollup
  if checks = [] then (.notLinked, .none)
  else
    let marks := checks.foldl CheckMarks.add ⟨false, false⟩
    if marks.hasFailure then (.failed, .ci)
    else if marks.hasPending then (.pending, .ci)
    else (.success, .none)

/-- `hasActionableCurrentHeadItems`. -/
def ReviewSignal.hasActionableItems (signal : ReviewSignal) : Bool :=
  0 < signal.actionableCommentCount.getD 0 || 0 < signal.actionableThreadCount.getD 0

def ReviewWorkflow.isPending (workflow : ReviewWorkflow) : Bool :=
  PENDING_WORKFLOW_RUN_STATUSES.contains (stateText (textJson workflow.status))

def ReviewWorkflow.isSuccess (workflow : ReviewWorkflow) : Bool :=
  stateText (textJson workflow.status) = "COMPLETED" &&
    stateText (textJson workflow.conclusion) = "SUCCESS"

/-- `reviewPendingFromSignal`, for a review that is still required. -/
def reviewPending (workflow : Option ReviewWorkflow) : Option ReviewSignal → Bool
  | some signal => !signal.hasCurrentHeadReview || signal.hasActionableItems
  | none => workflow.any fun w => w.isPending || w.isSuccess

/-- What `classifyPullRequestWork` returns. -/
structure WorkStatus where
  laneLifecycle : LaneLifecycle
  blockerClass : BlockerClass
  checksStatus : ChecksStatus
  readyToMerge : Bool
  retryable : Bool
  nextWakeCondition : WakeCondition
  pollIntervalSecondsHint : Option ℕ
  reviewMonitor : Option (Option ReviewWorkflow × Option ReviewSignal)
  syncRequired : Bool
  deriving DecidableEq, Repr

def COPILOT_REVIEW_ACTIVE_POLL_HINT_SECONDS : ℕ := 10

def COPILOT_REVIEW_POST_POLL_HINT_SECONDS : ℕ := 5

def reviewWake : Option ReviewWorkflow → WakeCondition × Option ℕ
  | none => (.reviewDispositionUpdated, none)
  | some workflow =>
    if workflow.isPending then
      (.copilotReviewWorkflowCompleted, some COPILOT_REVIEW_ACTIVE_POLL_HINT_SECONDS)
    else if workflow.isSuccess then
      (.copilotReviewPostExpected, some COPILOT_REVIEW_POST_POLL_HINT_SECONDS)
    else if stateText (textJson workflow.status) = "COMPLETED" ∧
        stateText (textJson workflow.conclusion) ≠ "" then
      (.copilotReviewWorkflowRerunOrFixed, none)
    else (.reviewDispositionUpdated, none)

def classifyPullRequestWork (pr : PullRequest) : WorkStatus :=
  let checks := classifyChecks (some (.arr (pr.statusCheckRollup.map Check.toJson)))
  let mergeStateStatus := stateText (textJson pr.mergeStateStatus)
  let mergeable := stateText (textJson pr.mergeable)
  let reviewDecision := stateText (textJson pr.reviewDecision)
  let signal := pr.copilotReviewSignal
  let workflow := pr.copilotReviewWorkflow
  let hasActionableCurrentHeadItems := signal.any ReviewSignal.hasActionableItems
  let reviewDemanded := reviewDecision = "REVIEW_REQUIRED" ∨ reviewDecision = "CHANGES_REQUESTED"
  let reviewPendingFromSignal :=
    (reviewDecision = "" ∨ reviewDemanded) ∧ reviewPending workflow signal = true
  if mergeStateStatus = "BEHIND" then
    { laneLifecycle := .waitingCi
      blockerClass := .ci
      checksStatus := checks.1
      readyToMerge := false
      retryable := true
      nextWakeCondition := .branchSynced
      pollIntervalSecondsHint := none
      reviewMonitor := none
      syncRequired := true }
  else if hasActionableCurrentHeadItems then
    { laneLifecycle := .coding
      blockerClass := .review
      checksStatus := checks.1
      readyToMerge := false
      retryable := true
      nextWakeCondition := .reviewCommentsAddressed
      pollIntervalSecondsHint := none
      reviewMonitor := some (workflow, signal)
      syncRequired := false }
  else if pr.isDraft ∨ reviewDemanded ∨ reviewPendingFromSignal then
    { laneLifecycle := .waitingReview
      blockerClass := .review
      checksStatus := checks.1
      readyToMerge := false
      retryable := true
      nextWakeCondition := (reviewWake workflow).1
      pollIntervalSecondsHint := (reviewWake workflow).2
      reviewMonitor := some (workflow, signal)
      syncRequired := false }
  else if mergeStateStatus = "DIRTY" ∨ mergeable = "CONFLICTING" ∨ mergeable = "UNMERGEABLE" then
    { laneLifecycle := .blocked
      blockerClass := .merge
      checksStatus := checks.1
      readyToMerge := false
      retryable := false
      nextWakeCondition := .manualConflictResolution
      pollIntervalSecondsHint := none
      reviewMonitor := none
      syncRequired := false }
  else if checks.2 = .ci then
    { laneLifecycle := .waitingCi
      blockerClass := .ci
      checksStatus := checks.1
      readyToMerge := false
      retryable := true
      nextWakeCondition := .checksGreen
      pollIntervalSecondsHint := none
      reviewMonitor := none
      syncRequired := false }
  else
    { laneLifecycle := .readyMerge
      blockerClass := .none
      checksStatus := checks.1
      readyToMerge := true
      retryable := false
      nextWakeCondition := .mergeAttempt
      pollIntervalSecondsHint := none
      reviewMonitor := none
      syncRequired := false }

/-! ### The law of readiness -/

def entryConclusion (entry : Json) : String :=
  if normalizeText (entry.get? "__typename") = "StatusContext" then stateText (entry.get? "state")
  else stateText (entry.get? "conclusion")

def entryStatus (entry : Json) : String :=
  if normalizeText (entry.get? "__typename") = "StatusContext" then stateText (entry.get? "state")
  else stateText (entry.get? "status")

/-- The check is over: a check run is completed, a status context has succeeded. -/
def Finished (entry : Json) : Prop :=
  entryStatus entry =
    if normalizeText (entry.get? "__typename") = "StatusContext" then "SUCCESS" else "COMPLETED"

instance (entry : Json) : Decidable (Finished entry) := inferInstanceAs (Decidable (_ = _))

/-- The check is over and nothing is wrong. -/
def Green (entry : Json) : Prop :=
  Finished entry ∧ entryConclusion entry ∈ SUCCESSFUL_CHECK_CONCLUSIONS

/-- Only a pull request in order is ready. -/
structure ReadyLaw (pr : Json) (signal : Option ReviewSignal) : Prop where
  notDraft : pr.get? "isDraft" ≠ some (.bool true)
  mergeStateStatus : stateText (pr.get? "mergeStateStatus") ∉ ["BEHIND", "DIRTY"]
  mergeable : stateText (pr.get? "mergeable") ∉ ["CONFLICTING", "UNMERGEABLE"]
  noActionableItem : ∀ s ∈ signal, s.hasActionableItems = false
  reviewDecision : stateText (pr.get? "reviewDecision") ∉ ["REVIEW_REQUIRED", "CHANGES_REQUESTED"]
  checks : ∀ entry ∈ rollupEntries (statusCheckRollupNodes pr), Green entry

/-- The check says one of the words that hold a pull request back. -/
def HoldsBack (entry : Json) : Prop :=
  (∃ word ∈ PENDING_CHECK_STATES ++ BLOCKING_CHECK_STATES,
    entryStatus entry = word ∨ entryConclusion entry = word) ∨
  entryStatus entry = "COMPLETED" ∧ entryConclusion entry ≠ "" ∧
    entryConclusion entry ∉ SUCCESSFUL_CHECK_CONCLUSIONS

/-- The check says nothing that any of the word lists knows: it does not hold a pull
request back, it is not completed with a conclusion, and it is not a status context that
succeeded. -/
def Unlisted (entry : Json) : Prop :=
  (∀ word ∈ PENDING_CHECK_STATES ++ BLOCKING_CHECK_STATES,
    entryStatus entry ≠ word ∧ entryConclusion entry ≠ word) ∧
  (entryStatus entry = "COMPLETED" → entryConclusion entry = "") ∧
  (normalizeText (entry.get? "__typename") = "StatusContext" → entryStatus entry ≠ "SUCCESS")

/-- Something other than an unlisted check holds the pull request back. -/
inductive HeldBack (pr : Json) (workflow : Option ReviewWorkflow) (signal : Option ReviewSignal) :
    Prop where
  | draft (h : pr.get? "isDraft" = some (.bool true))
  | mergeStateStatus (h : stateText (pr.get? "mergeStateStatus") ∈ ["BEHIND", "DIRTY"])
  | mergeable (h : stateText (pr.get? "mergeable") ∈ ["CONFLICTING", "UNMERGEABLE"])
  | actionableItem (h : signal.any ReviewSignal.hasActionableItems = true)
  | reviewDecision
    (h : stateText (pr.get? "reviewDecision") ∈ ["REVIEW_REQUIRED", "CHANGES_REQUESTED"])
  | reviewPending (h : stateText (pr.get? "reviewDecision") = "")
    (hpending : reviewPending workflow signal = true)
  | check (entry : Json) (h : entry ∈ rollupEntries (statusCheckRollupNodes pr))
    (hholds : HoldsBack entry)

/-! ### Reading a check twice -/

@[simp] theorem stateText_optionState (value : Option Json) :
    stateText (textJson (optionState value)) = stateText value := by
  have hidem : stateText (some (.str (stateText value))) = stateText value := by
    unfold stateText normalizeText
    rw [Json.stringOrEmpty_str, JsString.toUpperCase_trim_idem]
  unfold optionState
  dsimp only
  split
  · next hnil =>
    rw [hnil]
    rfl
  · exact hidem

@[simp] theorem stateText_optionText (value : Option Json) :
    stateText (textJson (optionText value)) = stateText value := by
  unfold optionText
  dsimp only
  split
  · next hnil =>
    unfold stateText
    rw [hnil]
    rfl
  · unfold stateText normalizeText
    rw [textJson, Option.elim_some, Json.stringOrEmpty_str, JsString.trim_trim]

theorem entryStatus_eq (entry : Json) :
    stateText (textJson (summarizeCheck entry).status) = entryStatus entry := by
  unfold summarizeCheck entryStatus
  by_cases h : normalizeText (entry.get? "__typename") = "StatusContext"
  · rw [if_pos h, if_pos h]
    dsimp only
    exact stateText_optionState _
  · rw [if_neg h, if_neg h]
    dsimp only
    exact stateText_optionState _

theorem entryConclusion_eq (entry : Json) :
    stateText (textJson (summarizeCheck entry).conclusion) = entryConclusion entry := by
  unfold summarizeCheck entryConclusion
  by_cases h : normalizeText (entry.get? "__typename") = "StatusContext"
  · rw [if_pos h, if_pos h]
    dsimp only
    exact stateText_optionState _
  · rw [if_neg h, if_neg h]
    dsimp only
    exact stateText_optionState _

/-- What the second summary makes of an entry: the first one left no type name, so it is
read as a check run. -/
def secondSummary (entry : Json) : Check := summarizeCheck (summarizeCheck entry).toJson

theorem secondSummary_eq (entry : Json) :
    (secondSummary entry).status = optionState (textJson (summarizeCheck entry).status) ∧
      (secondSummary entry).conclusion =
        optionState (textJson (summarizeCheck entry).conclusion) := by
  unfold secondSummary
  generalize summarizeCheck entry = check
  have htypename : check.toJson.get? "__typename" = none := rfl
  have hother : normalizeText none ≠ "StatusContext" := by decide
  have hstatus : check.toJson.get? "status" = some (textJson check.status) := rfl
  have hconclusion : check.toJson.get? "conclusion" = some (textJson check.conclusion) := rfl
  unfold summarizeCheck
  rw [htypename, if_neg hother]
  dsimp only
  rw [hstatus, hconclusion]
  exact ⟨rfl, rfl⟩

theorem secondSummary_status (entry : Json) :
    stateText (textJson (secondSummary entry).status) = entryStatus entry := by
  rw [(secondSummary_eq entry).1, stateText_optionState, entryStatus_eq]

theorem secondSummary_conclusion (entry : Json) :
    stateText (textJson (secondSummary entry).conclusion) = entryConclusion entry := by
  rw [(secondSummary_eq entry).2, stateText_optionState, entryConclusion_eq]

theorem summarizeCheckRollup_toJson (rollup : Option Json) :
    summarizeCheckRollup (some (.arr ((summarizeCheckRollup rollup).map Check.toJson))) =
      (rollupEntries rollup).map secondSummary := by
  have hobject : ∀ entry ∈ (summarizeCheckRollup rollup).map Check.toJson,
      isObject entry = true := by
    intro entry hentry
    obtain ⟨check, -, rfl⟩ := List.mem_map.mp hentry
    rfl
  have hkeep : rollupEntries (some (.arr ((summarizeCheckRollup rollup).map Check.toJson))) =
      (summarizeCheckRollup rollup).map Check.toJson := List.filter_eq_self.mpr hobject
  rw [summarizeCheckRollup, hkeep, summarizeCheckRollup, List.map_map, List.map_map]
  rfl

/-! ### The outcome of the checks -/

theorem exists_word_iff (entry : Json) :
    (∃ word ∈ PENDING_CHECK_STATES ++ BLOCKING_CHECK_STATES,
      entryStatus entry = word ∨ entryConclusion entry = word) ↔
    (entryStatus entry ∈ PENDING_CHECK_STATES ∨ entryConclusion entry ∈ PENDING_CHECK_STATES) ∨
      entryStatus entry ∈ BLOCKING_CHECK_STATES ∨
        entryConclusion entry ∈ BLOCKING_CHECK_STATES := by
  constructor
  · rintro ⟨word, hword, rfl | rfl⟩ <;> rcases List.mem_append.mp hword with h | h <;> simp [h]
  · rintro ((h | h) | h | h)
    · exact ⟨_, List.mem_append_left _ h, .inl rfl⟩
    · exact ⟨_, List.mem_append_left _ h, .inr rfl⟩
    · exact ⟨_, List.mem_append_right _ h, .inl rfl⟩
    · exact ⟨_, List.mem_append_right _ h, .inr rfl⟩

/-- A mark is set. -/
def CheckMarks.Marked (marks : CheckMarks) : Prop :=
  marks.hasFailure = true ∨ marks.hasPending = true

theorem marked_add (marks : CheckMarks) (entry : Json) :
    (marks.add (secondSummary entry)).Marked ↔ marks.Marked ∨ HoldsBack entry := by
  have hstatus := secondSummary_status entry
  have hconclusion := secondSummary_conclusion entry
  unfold HoldsBack
  rw [exists_word_iff, ← hstatus, ← hconclusion]
  generalize secondSummary entry = check
  change _ ↔ marks.Marked ∨
    ( check.says PENDING_CHECK_STATES ∨ check.says BLOCKING_CHECK_STATES) ∨ _
  unfold CheckMarks.add
  by_cases hpending : check.says PENDING_CHECK_STATES
  · rw [if_pos hpending]
    simp [hpending, CheckMarks.Marked]
  rw [if_neg hpending]
  by_cases hblocking : check.says BLOCKING_CHECK_STATES
  · rw [if_pos hblocking]
    simp [hblocking, CheckMarks.Marked]
  rw [if_neg hblocking]
  generalize stateText (some (textJson check.status)) = status
  generalize stateText (some (textJson check.conclusion)) = conclusion
  by_cases hfailed : status = "COMPLETED" ∧ conclusion ≠ "" ∧
      conclusion ∉ SUCCESSFUL_CHECK_CONCLUSIONS
  · rw [if_pos hfailed]
    simp [hfailed, CheckMarks.Marked]
  · rw [if_neg hfailed]
    simp [hpending, hblocking, hfailed]

theorem marked_foldl (entries : List Json) (marks : CheckMarks) :
    ((entries.map secondSummary).foldl CheckMarks.add marks).Marked ↔
      marks.Marked ∨ ∃ entry ∈ entries, HoldsBack entry := by
  induction entries generalizing marks with
  | nil => simp
  | cons entry entries ih =>
    rw [List.map_cons, List.foldl_cons, ih, marked_add]
    simp only [List.mem_cons, exists_eq_or_imp, or_assoc]

theorem classifyChecks_eq_ci_iff (rollup : Option Json) :
    (classifyChecks (some (.arr ((summarizeCheckRollup rollup).map Check.toJson)))).2 = .ci ↔
      ∃ entry ∈ rollupEntries rollup, HoldsBack entry := by
  have hmarked := marked_foldl (rollupEntries rollup) ⟨false, false⟩
  unfold classifyChecks
  rw [summarizeCheckRollup_toJson]
  cases hentries : rollupEntries rollup with
  | nil => simp
  | cons entry entries =>
    have hfresh : ¬ CheckMarks.Marked ⟨false, false⟩ := by simp [CheckMarks.Marked]
    rw [hentries, or_iff_right hfresh] at hmarked
    have hne : (entry :: entries).map secondSummary ≠ [] := List.cons_ne_nil _ _
    rw [← hmarked, if_neg hne]
    generalize List.foldl CheckMarks.add _ _ = last
    obtain ⟨hasPending, hasFailure⟩ := last
    unfold CheckMarks.Marked
    cases hasPending <;> cases hasFailure <;> decide

/-! ### Readiness -/

section Readiness

variable {pr : Json} {fallbackRepository : Option String} {normalized : PullRequest}
  {workflow : Option ReviewWorkflow} {signal : Option ReviewSignal}

/-- What `buildCanonicalDeliveryDecision` classifies: a normalised pull request with what
is known about its review. -/
def PullRequest.withReview (pr : PullRequest) (workflow : Option ReviewWorkflow)
    (signal : Option ReviewSignal) : PullRequest :=
  { pr with copilotReviewWorkflow := workflow, copilotReviewSignal := signal }

theorem normalizePullRequest_eq (h : normalizePullRequest pr fallbackRepository = some normalized) :
    normalized.isDraft = decide (pr.get? "isDraft" = some (.bool true)) ∧
      normalized.mergeStateStatus = optionText (pr.get? "mergeStateStatus") ∧
      normalized.mergeable = optionText (pr.get? "mergeable") ∧
      normalized.reviewDecision = optionText (pr.get? "reviewDecision") ∧
      normalized.statusCheckRollup = summarizeCheckRollup (statusCheckRollupNodes pr) := by
  unfold normalizePullRequest at h
  cases hobject : isObject pr with
  | false => simp [hobject] at h
  | true =>
    rw [hobject, if_pos rfl, Option.map_eq_some_iff] at h
    obtain ⟨number, -, rfl⟩ := h
    dsimp only
    exact ⟨rfl, rfl, rfl, rfl, rfl⟩

theorem heldBack_iff :
    HeldBack pr workflow signal ↔
      stateText (pr.get? "mergeStateStatus") = "BEHIND" ∨
      signal.any ReviewSignal.hasActionableItems = true ∨
      (pr.get? "isDraft" = some (.bool true) ∨
        stateText (pr.get? "reviewDecision") ∈ ["REVIEW_REQUIRED", "CHANGES_REQUESTED"] ∨
        (stateText (pr.get? "reviewDecision") = "" ∧ reviewPending workflow signal = true)) ∨
      (stateText (pr.get? "mergeStateStatus") = "DIRTY" ∨
        stateText (pr.get? "mergeable") ∈ ["CONFLICTING", "UNMERGEABLE"]) ∨
      ∃ entry ∈ rollupEntries (statusCheckRollupNodes pr), HoldsBack entry := by
  constructor
  · intro hheld
    cases hheld with
    | draft h => exact .inr (.inr (.inl (.inl h)))
    | mergeStateStatus h =>
      rcases List.mem_pair.mp h with h | h
      · exact .inl h
      · exact .inr (.inr (.inr (.inl (.inl h))))
    | mergeable h => exact .inr (.inr (.inr (.inl (.inr h))))
    | actionableItem h => exact .inr (.inl h)
    | reviewDecision h => exact .inr (.inr (.inl (.inr (.inl h))))
    | reviewPending h hpending => exact .inr (.inr (.inl (.inr (.inr ⟨h, hpending⟩))))
    | check entry h hholds => exact .inr (.inr (.inr (.inr ⟨entry, h, hholds⟩)))
  · rintro (h | h | (h | h | ⟨h, hpending⟩) | (h | h) | ⟨entry, h, hholds⟩)
    · exact .mergeStateStatus (List.mem_pair.mpr (.inl h))
    · exact .actionableItem h
    · exact .draft h
    · exact .reviewDecision h
    · exact .reviewPending h hpending
    · exact .mergeStateStatus (List.mem_pair.mpr (.inr h))
    · exact .mergeable h
    · exact .check entry h hholds

/-- **When a pull request is ready.** Nothing holds it back. -/
theorem readyToMerge_iff (h : normalizePullRequest pr fallbackRepository = some normalized) :
    (classifyPullRequestWork (normalized.withReview workflow signal)).readyToMerge = true ↔
      ¬ HeldBack pr workflow signal := by
  obtain ⟨hdraft, hstate, hmergeable, hdecision, hrollup⟩ := normalizePullRequest_eq h
  have hchecks := classifyChecks_eq_ci_iff (statusCheckRollupNodes pr)
  rw [heldBack_iff, ← hchecks]
  unfold classifyPullRequestWork PullRequest.withReview
  rw [hdraft, hstate, hmergeable, hdecision, hrollup, stateText_optionText, stateText_optionText,
    stateText_optionText]
  generalize classifyChecks _ = checks
  generalize stateText (pr.get? "mergeStateStatus") = mergeStateStatus
  generalize stateText (pr.get? "mergeable") = mergeable
  generalize stateText (pr.get? "reviewDecision") = reviewDecision
  -- a review that is demanded is waited for anyway, whatever the signal says
  have hguard : (decide (pr.get? "isDraft" = some (.bool true)) = true ∨
      (reviewDecision = "REVIEW_REQUIRED" ∨ reviewDecision = "CHANGES_REQUESTED") ∨
      (reviewDecision = "" ∨ reviewDecision = "REVIEW_REQUIRED" ∨
        reviewDecision = "CHANGES_REQUESTED") ∧ reviewPending workflow signal = true) ↔
      (pr.get? "isDraft" = some (.bool true) ∨
        reviewDecision ∈ ["REVIEW_REQUIRED", "CHANGES_REQUESTED"] ∨
        (reviewDecision = "" ∧ reviewPending workflow signal = true)) := by
    rw [decide_eq_true_iff, List.mem_pair]
    by_cases hdemand : reviewDecision = "REVIEW_REQUIRED" ∨ reviewDecision = "CHANGES_REQUESTED"
    · simp only [hdemand, true_or, or_true]
    · rw [or_iff_left hdemand]
  -- each guard in turn ends the classification
  by_cases hbehind : mergeStateStatus = "BEHIND"
  · rw [if_pos hbehind]
    simp [hbehind]
  rw [if_neg hbehind]
  by_cases hactionable : signal.any ReviewSignal.hasActionableItems = true
  · rw [if_pos hactionable]
    simp [hactionable]
  rw [if_neg hactionable]
  by_cases hreview : pr.get? "isDraft" = some (.bool true) ∨
      reviewDecision ∈ ["REVIEW_REQUIRED", "CHANGES_REQUESTED"] ∨
      (reviewDecision = "" ∧ reviewPending workflow signal = true)
  · rw [if_pos (hguard.mpr hreview)]
    exact iff_of_false Bool.false_ne_true fun hnot => hnot (.inr (.inr (.inl hreview)))
  rw [if_neg (fun hpos => hreview (hguard.mp hpos))]
  by_cases hconflict : mergeStateStatus = "DIRTY" ∨ mergeable = "CONFLICTING" ∨
      mergeable = "UNMERGEABLE"
  · rw [if_pos hconflict]
    simp [hconflict]
  rw [if_neg hconflict]
  by_cases hci : checks.2 = .ci
  · rw [if_pos hci]
    simp [hci]
  · rw [if_neg hci]
    refine iff_of_true rfl ?_
    rintro (h | h | h | (h | h) | h)
    · exact hbehind h
    · exact hactionable h
    · exact hreview h
    · exact hconflict (.inl h)
    · exact hconflict (.inr (List.mem_pair.mp h))
    · exact hci h

theorem green_or_unlisted {entry : Json} (hholds : ¬ HoldsBack entry) :
    Green entry ↔ ¬ Unlisted entry := by
  have hcontext : normalizeText (entry.get? "__typename") = "StatusContext" →
      entryConclusion entry = entryStatus entry := by
    intro hname
    rw [entryConclusion, entryStatus, if_pos hname, if_pos hname]
  unfold HoldsBack at hholds
  unfold Green Finished Unlisted
  generalize entryStatus entry = status at *
  generalize entryConclusion entry = conclusion at *
  generalize normalizeText (entry.get? "__typename") = name at *
  push Not at hholds
  obtain ⟨hwords, hcompleted⟩ := hholds
  constructor
  · rintro ⟨hfinished, hconclusion⟩ ⟨-, hempty, hsuccess⟩
    by_cases hname : name = "StatusContext"
    · rw [if_pos hname] at hfinished
      exact hsuccess hname hfinished
    · rw [if_neg hname] at hfinished
      rw [hempty hfinished] at hconclusion
      exact absurd hconclusion (by decide)
  · intro hlisted
    by_cases hname : name = "StatusContext"
    · rw [if_pos hname, hcontext hname]
      by_cases hsuccess : status = "SUCCESS"
      · exact ⟨hsuccess, hsuccess ▸ List.mem_cons_self⟩
      · -- a context that did not succeed is in no list
        refine absurd ⟨hwords, fun hstatus => ?_, fun _ => hsuccess⟩ hlisted
        by_contra hne
        have hmem := hcompleted hstatus hne
        rw [hcontext hname, hstatus] at hmem
        exact absurd hmem (by decide)
    · rw [if_neg hname]
      have hpair : status = "COMPLETED" ∧ conclusion ≠ "" := by
        by_contra hnot
        exact hlisted ⟨hwords, fun hstatus => not_not.mp fun hne => hnot ⟨hstatus, hne⟩,
          fun hcontext => absurd hcontext hname⟩
      exact ⟨hpair.1, hcompleted hpair.1 hpair.2⟩

/-- **Readiness is truthful** exactly when no check outside the word lists decides it. -/
theorem readyLaw_iff_listed (h : normalizePullRequest pr fallbackRepository = some normalized) :
    ((classifyPullRequestWork (normalized.withReview workflow signal)).readyToMerge = true →
        ReadyLaw pr signal) ↔
      HeldBack pr workflow signal ∨
        ∀ entry ∈ rollupEntries (statusCheckRollupNodes pr), ¬ Unlisted entry := by
  rw [readyToMerge_iff h]
  constructor
  · intro hlaw
    by_cases hheld : HeldBack pr workflow signal
    · exact .inl hheld
    refine .inr fun entry hentry => ?_
    have hholds : ¬ HoldsBack entry := fun hholds => hheld (.check entry hentry hholds)
    exact (green_or_unlisted hholds).mp ((hlaw hheld).checks entry hentry)
  · intro hcond hheld
    have hlisted := hcond.resolve_left hheld
    exact
      { notDraft := fun hdraft => hheld (.draft hdraft)
        mergeStateStatus := fun hstate => hheld (.mergeStateStatus hstate)
        mergeable := fun hmergeable => hheld (.mergeable hmergeable)
        noActionableItem := by
          intro s hs
          rw [Option.mem_def.mp hs] at hheld
          exact Bool.eq_false_iff.mpr fun hactionable => hheld (.actionableItem hactionable)
        reviewDecision := fun hdecision => hheld (.reviewDecision hdecision)
        checks := fun entry hentry =>
          (green_or_unlisted fun hholds => hheld (.check entry hentry hholds)).mpr
            (hlisted entry hentry) }

end Readiness

/-! ### A check that was only requested -/

/-- A pull request whose only check is a check run with the given status and no
conclusion. -/
def pullRequestWithCheck (status : String) : Json :=
  .obj [("number", .num 7), ("state", .str "OPEN"), ("mergeStateStatus", .str "CLEAN"),
    ("mergeable", .str "MERGEABLE"), ("reviewDecision", .str "APPROVED"),
    ("statusCheckRollup", .arr [.obj [("__typename", .str "CheckRun"), ("name", .str "lint"),
      ("status", .str status), ("conclusion", .null)]])]

/-- A check run that is only requested is taken for a success. -/
theorem not_readyLaw_requested :
    ∃ normalized, normalizePullRequest (pullRequestWithCheck "REQUESTED") none = some normalized ∧
      (classifyPullRequestWork (normalized.withReview none none)).readyToMerge = true ∧
      ¬ ReadyLaw (pullRequestWithCheck "REQUESTED") none := by
  refine ⟨_, rfl, by decide, fun hlaw => ?_⟩
  have hgreen := hlaw.checks _ (List.mem_singleton_self _)
  exact absurd hgreen.1 (by decide)

/-- A check run that is queued holds the pull request back. -/
theorem readyLaw_queued :
    ∃ normalized, normalizePullRequest (pullRequestWithCheck "QUEUED") none = some normalized ∧
      ((classifyPullRequestWork (normalized.withReview none none)).readyToMerge = true →
        ReadyLaw (pullRequestWithCheck "QUEUED") none) := by
  refine ⟨_, rfl, (readyLaw_iff_listed rfl).mpr (.inl (.check _ (List.mem_singleton_self _) ?_))⟩
  exact .inl ⟨"QUEUED", by decide, .inl (by decide)⟩

end CompareVI.Delivery
