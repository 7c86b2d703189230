import CompareVI.Framework.Attempt
import CompareVI.Standing.Tracker

/-!
# Reconciling the standing issue after a merge

`runStandingReconciliation` looks at the standing issue, takes its standing labels off,
closes it with a comment, has the standing priority synchronised, and reads which issue is
next. The steps are one `try` block: the record they work on outlives an error, and the
receipt is made of it either way.

A helper that throws answers with the error it throws. What precedes the first look at the
issue, options, `gh` and the repository, is the query `prepare`.
-/

open Framework

namespace CompareVI.Standing

/-! ### Options and receipt -/

/-- The options of `parseArgs`. -/
structure ReconcileOptions where
  issue : ℕ
  pr : Option ℕ
  merged : Bool
  workerSlotId : String
  /-- A `--merge-summary-path` is given. -/
  mergeSummary : Bool
  dryRun : Bool
  deriving DecidableEq, Repr

/-- The issue as `gh issue view` shows it. -/
structure ReconcileView where
  state : String
  labels : List String
  deriving DecidableEq, Repr

/-- The values of `closeStatus`. -/
inductive CloseStatus where
  | dryRun
  | skipped
  | completed
  | commented
  deriving DecidableEq, Repr

/-- The `standingIssue` part of the receipt. -/
structure StandingIssue where
  number : ℕ
  state : String
  labelsBefore : List String
  labelsRemoved : List String
  closeStatus : Option CloseStatus
  closeComment : Option String
  deriving DecidableEq, Repr

/-- The values of the release's `status`. -/
inductive ReleaseStatus where
  | skipped
  | dryRun
  | released
  | failed
  deriving DecidableEq, Repr

/-- The `workerSlotRelease` part of the receipt. -/
structure WorkerSlotRelease where
  attempted : Bool
  status : ReleaseStatus
  workerSlotId : Option String
  laneId : Option String
  laneLifecycle : Option String
  helperCallsExecuted : List String
  deriving DecidableEq, Repr

/-- The values of the summary's `status`, and of the router refresh's. -/
inductive ReconcileStatus where
  | completed
  | dryRun
  | skipped
  | failed
  deriving DecidableEq, Repr

/-- The `routerRefresh` part of the receipt. -/
structure RouterRefresh where
  attempted : Bool
  status : ReconcileStatus
  nextStandingIssueNumber : Option ℕ
  helperCallsExecuted : List String
  deriving DecidableEq, Repr

/-- The `summary` part of the receipt. -/
structure ReconcileSummary where
  status : ReconcileStatus
  reason : String
  nextStandingIssueNumber : Option ℕ
  deriving DecidableEq, Repr

/-- `buildStandingLaneReconciliationReceipt`, its time stamp, schema and paths apart. -/
structure ReconcileReceipt where
  repo : String
  issue : ℕ
  pr : Option ℕ
  merged : Bool
  dryRun : Bool
  standingIssue : StandingIssue
  routerRefresh : RouterRefresh
  workerSlotRelease : WorkerSlotRelease
  summary : ReconcileSummary
  deriving DecidableEq, Repr

structure Reconciliation where
  standingIssue : StandingIssue
  workerSlotRelease : WorkerSlotRelease
  helperCallsExecuted : List String
  nextStandingIssueNumber : Option ℕ
  reason : String
  deriving DecidableEq, Repr

/-! ### The outside -/

/-- What `runStandingReconciliation` asks of the outside. -/
inductive ReconcileQuery where
  /-- The options are parsed, `gh` is found, and the repository is resolved. -/
  | prepare
  /-- `readIssueView`. -/
  | viewIssue (issue : ℕ)
  /-- `readJsonIfPresent` of the merge summary. -/
  | readMergeSummary
  /-- `gh issue edit` with `--remove-label` for each label. -/
  | removeLabels (issue : ℕ) (labels : List String)
  /-- `gh issue close` with `--comment`. -/
  | closeIssue (issue : ℕ) (comment : String)
  /-- `gh issue comment`. -/
  | commentIssue (issue : ℕ) (comment : String)
  /-- `syncStandingPriority`. -/
  | syncStandingPriority
  | readRouter
  | readCache
  /-- `writeJson` of the receipt. -/
  | writeReceipt (receipt : ReconcileReceipt)
  deriving DecidableEq

abbrev ReconcileQuery.Reply : ReconcileQuery → Type
  | .prepare => String
  | .viewIssue _ => ReconcileView
  | .readMergeSummary => Option Json
  | .removeLabels _ _ => Unit
  | .closeIssue _ _ => Unit
  | .commentIssue _ _ => Unit
  | .syncStandingPriority => Unit
  | .readRouter => Option Json
  | .readCache => Option Json
  | .writeReceipt _ => Unit

abbrev ReconcileAnswer (q : ReconcileQuery) : Type := Except String q.Reply

abbrev ReconcileM := Prog ReconcileQuery ReconcileAnswer

abbrev ReconcileQuery.call (q : ReconcileQuery) : ReconcileM q.Reply := Prog.call q

/-- Ask one query inside the `try` block. -/
abbrev ReconcileQuery.attempt (q : ReconcileQuery) :
    Attempt ReconcileQuery ReconcileQuery.Reply Reconciliation q.Reply := Attempt.call q

/-- The steps inside the `try` block. -/
abbrev ReconcileStep := Attempt ReconcileQuery ReconcileQuery.Reply Reconciliation Unit

/-! ### What is computed -/

/-- `normalizeText` on a property of a JSON value. -/
def jsonText : Option Json → String
  | some (.str text) => JsString.trim text
  | _ => ""

/-- `normalizeText(value) || null`. -/
def jsonTextOrNull (value : Option Json) : Option String :=
  if jsonText value = "" then none else some (jsonText value)

def coercePositiveInteger (value : Option Json) : Option ℕ :=
  (Json.toNumber? value).bind fun q => if q.den = 1 ∧ 0 < q.num then some q.num.toNat else none

/-- The loop of `normalizeLabels`: labels without white space around them, the first of each
spelling up to case. -/
def normalizeLabelsFrom (seen : List String) : List String → List String
  | [] => []
  | value :: values =>
    let label := JsString.trim value
    if label = "" ∨ JsString.toLowerCase label ∈ seen then normalizeLabelsFrom seen values
    else label :: normalizeLabelsFrom (JsString.toLowerCase label :: seen) values

def normalizeLabels (values : List String) : List String := normalizeLabelsFrom [] values

def standingLabelNames : List String := ["standing-priority", "fork-standing-priority"]

/-- `standingLabels`. -/
def standingLabelsOf (labels : List String) : List String :=
  labels.filter fun label => JsString.toLowerCase label ∈ standingLabelNames

/-- `buildCloseComment`, before the next issue is known. -/
def buildCloseComment (pr : Option ℕ) : String :=
  let prReference := match pr with
    | some number => if 0 < number then "PR #" ++ toString number else "the merged pull request"
    | none => "the merged pull request"
  "Completed by " ++ prReference ++ ". No next standing-priority issue is currently labeled, " ++
    "so the queue is now idle until a new issue is promoted."

/-- `normalizeUpper`. -/
def stateUpper (state : String) : String := JsString.toUpperCase (JsString.trim state)

def initialRelease (o : ReconcileOptions) : WorkerSlotRelease where
  attempted := o.workerSlotId ≠ ""
  status := .skipped
  workerSlotId := if o.workerSlotId = "" then none else some o.workerSlotId
  laneId := none
  laneLifecycle := none
  helperCallsExecuted := []

def initialReconciliation (o : ReconcileOptions) (view : ReconcileView) : Reconciliation where
  standingIssue := {
    number := o.issue
    state := view.state
    labelsBefore := normalizeLabels view.labels
    labelsRemoved := []
    closeStatus := none
    closeComment := none }
  workerSlotRelease := initialRelease o
  helperCallsExecuted := []
  nextStandingIssueNumber := none
  reason := "standing lane reconciled after merge completion"

/-! ### Changes of the record -/

namespace Reconciliation

def labelsRemoved (record : Reconciliation) (labels : List String) : Reconciliation :=
  { record with standingIssue := { record.standingIssue with labelsRemoved := labels } }

def closeStatus (record : Reconciliation) (status : CloseStatus) : Reconciliation :=
  { record with standingIssue := { record.standingIssue with closeStatus := some status } }

def closeComment (record : Reconciliation) (comment : Option String) : Reconciliation :=
  { record with standingIssue := { record.standingIssue with closeComment := comment } }

def helperCall (record : Reconciliation) (text : String) : Reconciliation :=
  { record with helperCallsExecuted := record.helperCallsExecuted ++ [text] }

def releaseStatus (record : Reconciliation) (status : ReleaseStatus) : Reconciliation :=
  { record with workerSlotRelease := { record.workerSlotRelease with status := status } }

def advanced (record : Reconciliation) (mergeSummary router cache : Option Json) :
    Reconciliation :=
  let release := record.workerSlotRelease
  let status := jsonText (Json.path mergeSummary ["promotion", "status"])
  { record with
    nextStandingIssueNumber :=
      (coercePositiveInteger (Json.path router ["issue"])).or
        (coercePositiveInteger (Json.path cache ["number"]))
    workerSlotRelease := { release with
      status := if release.attempted then .released else .skipped
      helperCallsExecuted :=
        if release.attempted then
          ["worker-slot " ++ release.workerSlotId.getD "null" ++ " released"]
        else []
      laneId := jsonTextOrNull (Json.path mergeSummary ["laneId"])
      laneLifecycle := jsonTextOrNull (Json.path mergeSummary ["laneLifecycle"]) }
    reason :=
      if status = "" then record.reason
      else "standing lane reconciled after merge completion (" ++ status ++ ")" }

def planned (record : Reconciliation) (o : ReconcileOptions) (standingLabels : List String) :
    Reconciliation :=
  let record := (record.labelsRemoved standingLabels).closeStatus
    (if o.merged then .dryRun else .skipped)
  let record := record.closeComment (if o.merged then some (buildCloseComment o.pr) else none)
  let record := (record.helperCall "gh issue edit <omitted>").helperCall
    "node tools/priority/sync-standing-priority.mjs"
  record.releaseStatus (if record.workerSlotRelease.attempted then .dryRun else .skipped)

end Reconciliation

/-! ### The steps -/

/-- `removeStandingLabels`, if there are any. -/
def removeStandingLabels (repo : String) (o : ReconcileOptions) (standingLabels : List String) :
    ReconcileStep :=
  if standingLabels = [] then pure ()
  else do
    ReconcileQuery.attempt (.removeLabels o.issue (normalizeLabels standingLabels))
    Attempt.modify fun record => (record.labelsRemoved standingLabels).helperCall
      ("gh issue edit " ++ toString o.issue ++ " --repo " ++ repo ++ " " ++
        JsString.join " " (standingLabels.map ("--remove-label " ++ ·)))

/-- `closeIssueWithComment`: an open issue is closed, another one is commented. -/
def closeIssueWithComment (issue : ℕ) (state comment : String) : ReconcileStep :=
  if state = "OPEN" then ReconcileQuery.attempt (.closeIssue issue comment)
  else ReconcileQuery.attempt (.commentIssue issue comment)

def closeHelperCall (repo : String) (o : ReconcileOptions) (state : String) : String :=
  "gh issue " ++ (if state = "OPEN" then "close" else "comment") ++ " " ++ toString o.issue ++
    " --repo " ++ repo ++ " " ++ (if state = "OPEN" then "--comment" else "--body") ++ " <omitted>"

def completeIssue (repo : String) (o : ReconcileOptions) (state : String) : ReconcileStep :=
  if o.merged then do
    Attempt.modify (·.closeComment (some (buildCloseComment o.pr)))
    closeIssueWithComment o.issue state (buildCloseComment o.pr)
    Attempt.modify fun record =>
      (record.closeStatus .completed).helperCall (closeHelperCall repo o state)
  else Attempt.modify (·.closeStatus (if state = "OPEN" then .skipped else .commented))

def advanceStanding (mergeSummary : Option Json) : ReconcileStep := do
  ReconcileQuery.attempt .syncStandingPriority
  Attempt.modify (·.helperCall ("node tools/priority/sync-standing-priority.mjs " ++
    "--fail-on-missing --fail-on-multiple --auto-select-next --materialize-cache"))
  let router ← ReconcileQuery.attempt .readRouter
  let cache ← ReconcileQuery.attempt .readCache
  Attempt.modify (·.advanced mergeSummary router cache)

/-- The body of the `try` block. -/
def reconcileSteps (repo : String) (o : ReconcileOptions) (state : String)
    (standingLabels : List String) (mergeSummary : Option Json) : ReconcileStep :=
  if o.dryRun then Attempt.modify (·.planned o standingLabels)
  else do
    removeStandingLabels repo o standingLabels
    completeIssue repo o state
    advanceStanding mergeSummary

/-- The receipt of the steps, from the way they ended. -/
def receiptOf (repo : String) (o : ReconcileOptions) :
    Except String Unit × Reconciliation → ReconcileReceipt
  | (.ok _, record) =>
    let status := if o.dryRun then ReconcileStatus.dryRun else .completed
    ⟨repo, o.issue, o.pr, o.merged, o.dryRun, record.standingIssue,
      ⟨true, status, record.nextStandingIssueNumber, record.helperCallsExecuted⟩,
      record.workerSlotRelease, ⟨status, record.reason, record.nextStandingIssueNumber⟩⟩
  | (.error message, record) =>
    ⟨repo, o.issue, o.pr, o.merged, o.dryRun, record.standingIssue,
      ⟨true, .failed, record.nextStandingIssueNumber, record.helperCallsExecuted⟩,
      (record.releaseStatus .failed).workerSlotRelease,
      ⟨.failed, orText (JsString.trim message) "standing reconciliation failed",
        record.nextStandingIssueNumber⟩⟩

def skippedReceipt (repo : String) (o : ReconcileOptions) (view : ReconcileView) :
    ReconcileReceipt :=
  ⟨repo, o.issue, o.pr, o.merged, o.dryRun, (initialReconciliation o view).standingIssue,
    ⟨false, .skipped, none, []⟩, initialRelease o, ⟨.skipped, "issue-still-open", none⟩⟩

def writeReceipt (receipt : ReconcileReceipt) : ReconcileM ReconcileReceipt := do
  ReconcileQuery.call (.writeReceipt receipt)
  pure receipt

def readMergeSummary (o : ReconcileOptions) : ReconcileM (Option Json) :=
  if o.mergeSummary then ReconcileQuery.call .readMergeSummary else pure none

def runStandingReconciliation (o : ReconcileOptions) : ReconcileM ReconcileReceipt := do
  let repo ← ReconcileQuery.call .prepare
  let view ← ReconcileQuery.call (.viewIssue o.issue)
  let mergeSummary ← readMergeSummary o
  let state := stateUpper view.state
  if o.merged || state ≠ "OPEN" then do
    let ended ← reconcileSteps repo o state (standingLabelsOf (normalizeLabels view.labels))
      mergeSummary (initialReconciliation o view)
    writeReceipt (receiptOf repo o ended)
  else writeReceipt (skippedReceipt repo o view)

/-- `main` exits with a status other than 0. -/
def reconciliationFails : Except String ReconcileReceipt → Bool
  | .ok receipt => receipt.summary.status = .failed
  | .error _ => true

/-! ### The labels of an issue -/

variable {names : LabelNames}

variable {labels : List String} {label : String}

theorem toLowerCase_of_mem (set : LabelSet names) (h : label ∈ set.labels) :
    JsString.toLowerCase label = labelKey label := by
  unfold labelKey
  rw [set.trim_eq h]

theorem normalizeLabelsFrom_of_sublist (set : LabelSet names) (hsub : labels.Sublist set.labels)
    (seen : List String) (hseen : ∀ label ∈ labels, labelKey label ∉ seen) :
    normalizeLabelsFrom seen labels = labels := by
  induction labels generalizing seen with
  | nil => rfl
  | cons label labels ih =>
    have hmem : label ∈ set.labels := hsub.subset List.mem_cons_self
    have hkey := toLowerCase_of_mem set hmem
    have hnot : ¬ (label = "" ∨ JsString.toLowerCase label ∈ seen) := by
      rintro (hblank | hin)
      · exact (set.spelled label hmem).2 hblank
      · rw [hkey] at hin
        exact hseen label List.mem_cons_self hin
    unfold normalizeLabelsFrom
    rw [set.trim_eq hmem, if_neg hnot, hkey]
    refine congrArg (label :: ·) (ih ((List.sublist_cons_self _ _).trans hsub) _ ?_)
    intro other hother hin
    rcases List.mem_cons.mp hin with heq | hin
    · -- two labels of one key are one label, and no label comes twice
      have hsame := set.eq_of_labelKey (hsub.subset (List.mem_cons_of_mem _ hother)) hmem heq
      have hnodup := set.nodup.sublist hsub
      rw [hsame] at hother
      exact (List.nodup_cons.mp hnodup).1 hother
    · exact hseen other (List.mem_cons_of_mem _ hother) hin

theorem normalizeLabels_of_sublist (set : LabelSet names) (hsub : labels.Sublist set.labels) :
    normalizeLabels labels = labels :=
  normalizeLabelsFrom_of_sublist set hsub [] fun _ _ => List.not_mem_nil

theorem not_standing_of_without (issue : Issue names)
    (hlabel : label ∈ (issue.without (standingLabelsOf issue.labels)).labels) :
    labelKey label ∉ standingLabelNames := by
  obtain ⟨hmem, hgone⟩ := List.mem_filter.mp hlabel
  intro hstanding
  refine of_decide_eq_true hgone (List.mem_map.mpr ⟨label, List.mem_filter.mpr ⟨hmem, ?_⟩, rfl⟩)
  rw [toLowerCase_of_mem issue.labelSet hmem]
  exact decide_eq_true hstanding

end CompareVI.Standing
