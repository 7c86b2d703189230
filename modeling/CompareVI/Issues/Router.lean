import CompareVI.Framework.Comparison
import CompareVI.Framework.JsString
import Mathlib.Data.List.Infix
import Mathlib.Data.Prod.Lex
import Mathlib.Order.WithBot

/-!
# Routing a policy decision to an issue

`runIssueRouter` turns a policy decision about an incident event into one issue of the
repository. It searches the issues whose body contains the marker of the event's
fingerprint, takes the canonical one of them (an open one first, then the oldest), and
creates, reopens or updates it until it is open with the title, the labels and the body
that the decision asks for.

The repository is a `Tracker`: it stores what it is sent, and its search answers with
exactly the issues whose body contains the text that is searched. Collation of labels is a
parameter (`Comparison`).
-/

open Framework

namespace CompareVI.IssueRouter

/-! ### The tracker -/

/-- An issue, as the repository stores it and, normalized, as the router reads it.
`createdAt` is the instant its creation date denotes, if it denotes one. -/
structure Issue where
  number : ℕ
  isOpen : Bool
  title : String
  body : String
  labels : List String
  createdAt : Option ℤ
  deriving DecidableEq

structure Content where
  title : String
  body : String
  labels : List String
  deriving DecidableEq

inductive Patch where
  | reopen
  | update (content : Content)
  deriving DecidableEq

def Patch.apply (issue : Issue) : Patch → Issue
  | reopen => { issue with isOpen := true }
  | update content =>
    { issue with title := content.title, body := content.body, labels := content.labels }

@[simp] theorem Patch.apply_number (p : Patch) (issue : Issue) :
    (p.apply issue).number = issue.number := by
  cases p <;> rfl

/-- The issues of a repository; their numbers are positive and tell them apart. -/
structure Tracker where
  issues : List Issue
  nodup : (issues.map (·.number)).Nodup
  positive : ∀ issue ∈ issues, 0 < issue.number

namespace Tracker

variable (gh : Tracker)

def containsText (body text : String) : Bool := decide (text.toList <:+: body.toList)

def nextNumber : ℕ := (gh.issues.map (·.number)).foldr max 0 + 1

theorem number_lt_nextNumber {issue : Issue} (h : issue ∈ gh.issues) :
    issue.number < gh.nextNumber := by
  have hle : ∀ xs : List ℕ, ∀ n ∈ xs, n ≤ xs.foldr max 0 := by
    intro xs
    induction xs with
    | nil => nofun
    | cons x xs ih =>
      intro n hn
      rcases List.mem_cons.mp hn with rfl | hn
      · exact Nat.le_max_left _ _
      · exact (ih n hn).trans (Nat.le_max_right _ _)
  exact Nat.lt_succ_of_le (hle _ _ (List.mem_map_of_mem h))

def created (content : Content) (createdAt : ℤ) : Issue where
  number := gh.nextNumber
  isOpen := true
  title := content.title
  body := content.body
  labels := content.labels
  createdAt := some createdAt

/-- `POST /issues`. -/
def create (content : Content) (createdAt : ℤ) : Tracker where
  issues := gh.issues ++ [gh.created content createdAt]
  nodup := by
    rw [List.map_append, List.nodup_append']
    refine ⟨gh.nodup, List.nodup_singleton _, ?_⟩
    rw [List.disjoint_left]
    intro n hn hnew
    obtain ⟨issue, hissue, rfl⟩ := List.mem_map.mp hn
    have := gh.number_lt_nextNumber hissue
    rw [List.mem_singleton.mp hnew] at this
    exact Nat.lt_irrefl _ this
  positive := by
    intro issue hissue
    rcases List.mem_append.mp hissue with h | h
    · exact gh.positive issue h
    · rw [List.mem_singleton.mp h]
      exact Nat.succ_pos _

/-- `GET /issues/number`. -/
def find (number : ℕ) : Option Issue := gh.issues.find? fun issue => issue.number = number

def patched (number : ℕ) (p : Patch) : Tracker where
  issues := gh.issues.map fun issue => if issue.number = number then p.apply issue else issue
  nodup := by
    have hnumbers : (gh.issues.map fun issue =>
        if issue.number = number then p.apply issue else issue).map (·.number) =
          gh.issues.map (·.number) := by
      rw [List.map_map]
      refine List.map_congr_left fun issue _ => ?_
      simp only [Function.comp_apply]
      split
      · exact p.apply_number issue
      · rfl
    rw [hnumbers]
    exact gh.nodup
  positive := by
    intro issue hissue
    obtain ⟨before, hbefore, rfl⟩ := List.mem_map.mp hissue
    split
    · rw [p.apply_number]
      exact gh.positive before hbefore
    · exact gh.positive before hbefore

/-- `PATCH /issues/number`: the issue it answers with, and the tracker. -/
def patch (number : ℕ) (p : Patch) : Except String (Issue × Tracker) :=
  match gh.find number with
  | none => .error ("GitHub API PATCH /issues/" ++ toString number ++ " failed (404)")
  | some issue => .ok (p.apply issue, gh.patched number p)

end Tracker

/-! ### Normalizing -/

def normalizeLower (value : Option String) : Option String :=
  (optionText value).map JsString.toLowerCase

def normalizeLabels (collation : Comparison String) (values : List String) : List String :=
  collation.sort ((values.filterMap fun value => normalizeLower (some value)).eraseDups)

def labelTexts : Option Json → List String
  | some (.arr values) => values.map fun value => Json.stringOrEmpty (some value)
  | _ => []

def normalizeIssue (collation : Comparison String) (issue : Issue) : Issue :=
  { issue with
    title := JsString.trim issue.title
    body := JsString.trim issue.body
    labels := normalizeLabels collation issue.labels }

/-- The event of `normalizeIncidentEvent`, with the properties a route reads. -/
structure IncidentEvent where
  sourceType : String
  incidentClass : String
  severity : String
  branch : Option String
  sha : Option String
  signature : String
  fingerprint : Option String
  suggestedLabels : List String
  deriving DecidableEq

def normalizeIncidentEvent (collation : Comparison String) (payload : Option Json) :
    IncidentEvent :=
  let field := fun key => Json.path payload [key]
  let text := fun key => Json.optionText (field key)
  let lower := fun value : Option Json => (Json.optionText value).map JsString.toLowerCase
  let incidentClass := (lower (Json.nullishOr (field "incidentClass")
    (Json.nullishOr (field "class") (field "type")))).getD "incident-unknown"
  { sourceType := (lower (field "sourceType")).getD "incident-event"
    incidentClass := incidentClass
    severity := (lower (field "severity")).getD "medium"
    branch := lower (field "branch")
    sha := lower (field "sha")
    signature := (text "signature").getD incidentClass
    fingerprint := text "fingerprint"
    suggestedLabels := normalizeLabels collation
      (labelTexts (Json.nullishOr (field "suggestedLabels") (field "labels"))) }

/-- `VALID_ACTION_TYPES`. -/
inductive DecisionType where
  | openIssue
  | updateIssue
  | comment
  | pauseQueue
  | noop
  deriving DecidableEq, Repr

def DecisionType.text : DecisionType → String
  | openIssue => "open-issue"
  | updateIssue => "update-issue"
  | comment => "comment"
  | pauseQueue => "pause-queue"
  | noop => "noop"

def DecisionType.ofText (value : String) : Option DecisionType :=
  [openIssue, updateIssue, comment, pauseQueue, noop].find? fun type => type.text = value

def normalizePriority (value : Option Json) : String :=
  let normalized := ((Json.optionText value).map JsString.toUpperCase).getD "P2"
  if ["P0", "P1", "P2"].contains normalized then normalized else "P2"

/-- The decision of `normalizeDecision`, with the properties a route reads. -/
structure Decision where
  type : DecisionType
  priority : String
  labels : List String
  titlePrefix : String
  reason : String
  deriving DecidableEq

def normalizeDecision (collation : Comparison String) (payload : Option Json) :
    Except String Decision :=
  let field := fun key => Json.path payload [key]
  let type := ((Json.optionText (field "type")).map JsString.toLowerCase).getD "noop"
  match DecisionType.ofText type with
  | none =>
    .error ("Invalid decision action type '" ++ Json.stringOrEmpty (field "type") ++ "'.")
  | some type =>
    .ok {
      type := type
      priority := normalizePriority (field "priority")
      labels := normalizeLabels collation (labelTexts (field "labels"))
      titlePrefix := (Json.optionText (field "titlePrefix")).getD "[Ops Signal]"
      reason := (Json.optionText (field "reason")).getD "unspecified" }

/-! ### The route -/

def FINGERPRINT_MARKER_PREFIX : String := "priority-fingerprint:"

def buildFingerprintMarker (fingerprint : String) : String :=
  FINGERPRINT_MARKER_PREFIX ++ fingerprint

def buildRouteTitle (event : IncidentEvent) (decision : Decision) : String :=
  let summary :=
    JsString.join " " ([decision.titlePrefix, event.incidentClass].filter (· ≠ ""))
  let branchSuffix := event.branch.elim "" fun branch => " @ " ++ branch
  JsString.trim ("[" ++ decision.priority ++ "] " ++ summary ++ branchSuffix)

/-- The comment that `buildIssueBody` ends a body with. -/
def markerComment (fingerprint : String) : String :=
  "<!-- " ++ buildFingerprintMarker fingerprint ++ " -->"

/-- The lines of `buildIssueBody` between the instant and the marker. -/
def bodyLines (event : IncidentEvent) (decision : Decision) (ruleId : Option String)
    (reportPath fingerprint : String) : List String :=
  ["Source Type: " ++ event.sourceType,
    "Incident Class: " ++ event.incidentClass,
    "Severity: " ++ event.severity,
    "Fingerprint: " ++ fingerprint,
    "Signature: " ++ event.signature,
    "Branch: " ++ event.branch.getD "n/a",
    "SHA: " ++ event.sha.getD "n/a",
    "Decision Action: " ++ decision.type.text,
    "Decision Priority: " ++ decision.priority,
    "Decision Reason: " ++ decision.reason,
    "Decision Rule: " ++ ruleId.getD "default",
    "",
    "Suggested labels:"] ++
  (if event.suggestedLabels.length > 0 then event.suggestedLabels.map ("- " ++ ·)
    else ["- none"]) ++
  ["", "Router report path: \x60" ++ reportPath ++ "\x60", ""]

/-- The route of a decision: what the router derives from its input before it reads the
repository. -/
structure Route where
  event : IncidentEvent
  decision : Decision
  fingerprint : String
  ruleId : Option String
  reportPath : String
  labels : List String
  deriving DecidableEq

namespace Route

def marker (route : Route) : String := buildFingerprintMarker route.fingerprint

/-- `buildIssueBody`, at the instant `generated`. -/
def body (route : Route) (generated : String) : String :=
  JsString.join "\n" (["## Routed Incident", "", "Generated: " ++ generated] ++
    (bodyLines route.event route.decision route.ruleId route.reportPath route.fingerprint ++
      [markerComment route.fingerprint]))

/-- `desiredIssue`. -/
def desired (route : Route) (generated : String) : Content where
  title := buildRouteTitle route.event route.decision
  body := route.body generated
  labels := route.labels

end Route

/-- The input of a run. `generated` is the text of its instant, and `createdAt` the instant
that the repository gives a new issue. -/
structure RouterInput where
  decisionPayload : Option Json
  eventOverride : Option Json
  reportPath : String
  dryRun : Bool
  generated : String
  createdAt : ℤ

/-- The route of an input. The repository and the token are taken as resolved. -/
def routeOf (collation : Comparison String) (i : RouterInput) : Except String Route :=
  let event := normalizeIncidentEvent collation
    (i.eventOverride.or (Json.path i.decisionPayload ["event"]))
  match event.fingerprint with
  | none => .error "Event fingerprint is required for deterministic issue routing."
  | some fingerprint =>
    (normalizeDecision collation (Json.path i.decisionPayload ["decision"])).map fun decision =>
      { event := event
        decision := decision
        fingerprint := fingerprint
        ruleId := Json.optionText (Json.path i.decisionPayload ["evaluation", "selectedRuleId"])
        reportPath := i.reportPath
        labels := normalizeLabels collation (decision.labels ++ event.suggestedLabels) }

/-! ### The canonical issue -/

def searchIssueNumbersByMarker (gh : Tracker) (marker : String) : List ℕ :=
  (Comparison.ofKey (id : ℕ → ℕ)).sort
    ((gh.issues.filter fun issue => Tracker.containsText issue.body marker).map
      (·.number)).eraseDups

/-- The key by which `selectCanonicalIssue` compares: an open issue first, then the older
one (one without a date is the youngest), then the smaller number. -/
def canonicalKey (issue : Issue) : ℕ ×ₗ WithTop ℤ ×ₗ ℕ :=
  toLex (if issue.isOpen then 0 else 1, toLex (issue.createdAt.elim ⊤ fun instant => ↑instant,
    issue.number))

def selectCanonicalIssue (issues : List Issue) : Option Issue :=
  ((Comparison.ofKey canonicalKey).sort issues).head?

def candidateIssues (collation : Comparison String) (gh : Tracker) (marker : String) :
    List Issue :=
  (searchIssueNumbersByMarker gh marker).filterMap fun number =>
    (gh.find number).map (normalizeIssue collation)

def canonicalIssue (collation : Comparison String) (gh : Tracker) (marker : String) :
    Option Issue :=
  selectCanonicalIssue (candidateIssues collation gh marker)

/-- `needsIssuePatch`, on an issue as the router reads it. -/
def needsIssuePatch (currentIssue : Issue) (desired : Content) : Bool :=
  currentIssue.title ≠ desired.title || currentIssue.body ≠ desired.body ||
    currentIssue.labels ≠ desired.labels

/-! ### The run -/

inductive WriteAction where
  | create
  | reopen
  | update
  | comment
  deriving DecidableEq, Repr

def WriteAction.text : WriteAction → String
  | create => "create"
  | reopen => "reopen"
  | update => "update"
  | comment => "comment"

/-- The state of an applied run: the issue it is about, the writes and the tracker. -/
structure Applied where
  activeIssue : Issue
  writeActions : List WriteAction
  gh : Tracker

def Applied.send (collation : Comparison String) (s : Applied) (p : Patch)
    (action : WriteAction) : Except String Applied :=
  (s.gh.patch s.activeIssue.number p).map fun answer =>
    ⟨normalizeIssue collation answer.1, s.writeActions ++ [action], answer.2⟩

/-- An applied run on a route that opens or updates an issue. -/
def applyRoute (collation : Comparison String) (route : Route) (i : RouterInput)
    (gh : Tracker) : Except String Applied := do
  let desired := route.desired i.generated
  let found : Applied :=
    match canonicalIssue collation gh route.marker with
    | some issue => ⟨issue, [], gh⟩
    | none =>
      ⟨normalizeIssue collation (gh.created desired i.createdAt), [.create],
        gh.create desired i.createdAt⟩
  let reopened ← if found.activeIssue.isOpen then pure found
    else found.send collation .reopen .reopen
  if needsIssuePatch reopened.activeIssue desired then
    reopened.send collation (.update desired) .update
  else pure reopened

/-- An applied run on a route that comments. Without a candidate the number of the issue is
read off `null`. -/
def applyComment (collation : Comparison String) (route : Route) (gh : Tracker) :
    Except String Applied :=
  match canonicalIssue collation gh route.marker with
  | none => .error "Cannot read properties of null (reading 'number')"
  | some issue => do
    let found : Applied := ⟨issue, [], gh⟩
    let reopened ← if issue.isOpen then pure found else found.send collation .reopen .reopen
    pure { reopened with writeActions := reopened.writeActions ++ [.comment] }

/-- The report of a run. The digest of the body, the difference of the labels and the parts
that repeat the input are left out. -/
structure RouterReport where
  pass : Bool
  errors : List String
  canonicalIssueNumber : Option ℕ
  action : String
  issueNumber : Option ℕ
  wrote : Bool
  writeActions : List WriteAction
  noOp : Bool

def dryRunAction (route : Route) (generated : String) : Option Issue → String
  | none =>
    if route.decision.type = .openIssue ∨ route.decision.type = .updateIssue then "would-create"
    else "would-noop"
  | some issue =>
    let patchNeeded := decide (route.decision.type ≠ .comment) &&
      needsIssuePatch issue (route.desired generated)
    if !issue.isOpen ∧ route.decision.type ≠ .comment then
      if patchNeeded then "would-reopen-update" else "would-reopen"
    else if route.decision.type = .comment then "would-comment"
    else if patchNeeded then "would-update"
    else "would-noop"

def appliedReport (canonical : Option Issue) (applied : Applied) : RouterReport where
  pass := true
  errors := []
  canonicalIssueNumber := canonical.map (·.number)
  action :=
    if applied.writeActions.length = 0 then "noop"
    else JsString.join "-" (applied.writeActions.map WriteAction.text)
  issueNumber := some applied.activeIssue.number
  wrote := applied.writeActions.length > 0
  writeActions := applied.writeActions
  noOp := applied.writeActions.length = 0

def failedReport (message : String) : RouterReport :=
  ⟨false, [message], none, "none", none, false, [], false⟩

/-- `runIssueRouter`: the report, and the tracker it leaves. -/
def runIssueRouter (collation : Comparison String) (i : RouterInput) (gh : Tracker) :
    RouterReport × Tracker :=
  match routeOf collation i with
  | .error message => (failedReport message, gh)
  | .ok route =>
    if route.decision.type = .noop ∨ route.decision.type = .pauseQueue then
      (⟨true, [], none, "noop", none, false, [], true⟩, gh)
    else
      let canonical := canonicalIssue collation gh route.marker
      if i.dryRun then
        let action := dryRunAction route i.generated canonical
        (⟨true, [], canonical.map (·.number), action, canonical.map (·.number), false, [],
          action = "would-noop"⟩, gh)
      else
        let applied :=
          if route.decision.type = .comment then applyComment collation route gh
          else applyRoute collation route i gh
        match applied with
        | .error message => (failedReport message, gh)
        | .ok applied => (appliedReport canonical applied, applied.gh)

end CompareVI.IssueRouter
