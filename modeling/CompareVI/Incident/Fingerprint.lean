import CompareVI.Framework.Joined
import CompareVI.Framework.JsString

/-!
# The fingerprint of an incident event

`event-ingest` reads a payload by one of four adapters, applies the overrides of the command
line and joins five fields of the event by bars: source type, incident class, branch, sha and
signature, each trimmed, in lower case and `unknown` where it is absent. What is hashed is the
joined text, and the router takes two events with one fingerprint for one incident.

The class, the branch and the signature are free texts, which may contain bars themselves.
`fingerprintLaw_iff` says which pairs of events the fingerprint gets right: those that do not
have the same texts between bars with the bars in other fields.

The hash is a parameter.
-/

open Framework

namespace CompareVI.Incident

/-! ### Events -/

/-- The fields of an event that its fingerprint is made of. -/
structure FingerprintInput where
  sourceType : Option String
  incidentClass : Option String
  branch : Option String
  sha : Option String
  signature : Option String
deriving DecidableEq

def toLowerOrUnknown (value : Option String) : String :=
  ((optionText value).map JsString.toLowerCase).getD "unknown"

/-- `toLowerOrUnknown` of a property. -/
def lowerOrUnknown (value : Option Json) : String :=
  ((Json.optionText value).map JsString.toLowerCase).getD "unknown"

/-- `raw?.a ?? raw?.b ?? …`. -/
def firstOf (raw : Json) : List String → Option Json
  | [] => none
  | key :: keys => Json.nullishOr (raw.get? key) (firstOf raw keys)

structure Adapter where
  sourceType : String
  incidentClass : Option String
  branch : Option Json
  sha : Option Json
  signature : Option String

/-- `buildBaseEvent`, with `ensureIncidentClass`. -/
def buildBaseEvent (adapter : Adapter) : Except String FingerprintInput :=
  match optionText adapter.incidentClass with
  | none => .error "Incident class is required (class/incidentClass/type)."
  | some incidentClass =>
    .ok { sourceType := some adapter.sourceType
          incidentClass := some incidentClass
          branch := Json.optionText adapter.branch
          sha := (Json.optionText adapter.sha).map JsString.toLowerCase
          signature := some ((optionText adapter.signature).getD incidentClass) }

def normalizeIncidentEvent (raw : Json) : Except String FingerprintInput :=
  buildBaseEvent
    { sourceType := "incident-event"
      incidentClass := Json.optionText (firstOf raw ["incidentClass", "class", "type"])
      branch := firstOf raw ["branch", "ref", "head_branch", "headBranch"]
      sha := firstOf raw ["sha", "head_sha", "headSha"]
      signature := Json.optionText (firstOf raw ["signature", "key"]) }

def conclusionToClass (conclusion status : Option String) : String :=
  if toLowerOrUnknown status ≠ "completed" then "workflow-run-active"
  else if toLowerOrUnknown conclusion ∈
      ["failure", "timed_out", "action_required", "startup_failure"] then "workflow-run-failure"
  else if toLowerOrUnknown conclusion = "cancelled" then "workflow-run-cancelled"
  else if toLowerOrUnknown conclusion = "skipped" then "workflow-run-skipped"
  else if toLowerOrUnknown conclusion = "success" then "workflow-run-success"
  else "workflow-run-anomaly"

def normalizeWorkflowRunEvent (raw : Json) : Except String FingerprintInput :=
  let workflowName :=
    (Json.optionText (firstOf raw ["name", "workflow", "workflowName"])).getD "workflow"
  let conclusion := Json.optionText (raw.get? "conclusion")
  let status := Json.optionText (raw.get? "status")
  buildBaseEvent
    { sourceType := "workflow-run"
      incidentClass := some (conclusionToClass conclusion status)
      branch := firstOf raw ["head_branch", "headBranch", "branch", "ref_name", "refName"]
      sha := firstOf raw ["head_sha", "headSha", "sha"]
      signature := some (workflowName ++ ":" ++ toLowerOrUnknown (conclusion.or status)) }

/-- `Number(summary?.key ?? 0) || 0`. -/
def summaryCount (raw : Json) (key : String) : ℚ :=
  (Json.toNumber? (Json.nullishOr (Json.path (some raw) ["summary", key]) (some (.num 0)))).getD 0

def normalizeRequiredCheckDriftEvent (raw : Json) : Except String FingerprintInput :=
  let totalDiffCount := summaryCount raw "totalDiffCount"
  let result := lowerOrUnknown (raw.get? "result")
  let hasDrift := 0 < totalDiffCount ∨ result = "fail" ∨ result = "error"
  buildBaseEvent
    { sourceType := "required-check-drift"
      incidentClass :=
        some (if hasDrift then "required-check-drift" else "required-check-drift-clear")
      branch := firstOf raw ["branch", "targetBranch"]
      sha := firstOf raw ["sha", "headSha"]
      signature := some (JsString.join ":" [result, toString totalDiffCount,
        toString (summaryCount raw "branchDiffCount"),
        toString (summaryCount raw "rulesetDiffCount")]) }

/-- The texts in `raw?.issues`. -/
def issueTexts (raw : Json) : List String :=
  match raw.get? "issues" with
  | some (.arr items) => items.filterMap fun item =>
    match item with
    | .str text => some text
    | _ => none
  | _ => []

def normalizeDeploymentStateEvent (raw : Json) : Except String FingerprintInput :=
  let result := lowerOrUnknown (raw.get? "result")
  let issues := JsString.join "," (issueTexts raw)
  buildBaseEvent
    { sourceType := "deployment-state"
      incidentClass := some (if issueTexts raw ≠ [] ∨ result ≠ "pass" then
        "deployment-state-anomaly" else "deployment-state-healthy")
      branch := firstOf raw ["branch", "ref"]
      sha := raw.get? "sha"
      signature := some (JsString.join ":" [lowerOrUnknown (raw.get? "environment"), result,
        if issues = "" then "none" else issues]) }

def normalizeBySourceType (sourceType : String) (raw : Json) : Except String FingerprintInput :=
  if sourceType = "incident-event" then normalizeIncidentEvent raw
  else if sourceType = "workflow-run" then normalizeWorkflowRunEvent raw
  else if sourceType = "required-check-drift" then normalizeRequiredCheckDriftEvent raw
  else if sourceType = "deployment-state" then normalizeDeploymentStateEvent raw
  else .error ("Unsupported source type '" ++ sourceType ++ "'.")

structure IngestOptions where
  classOverride : Option String
  signatureOverride : Option String

def overridden (override : Option String) (value : Option String) : Option String :=
  (override.filter (· ≠ "")).or value

def applyOverrides (event : FingerprintInput) (options : IngestOptions) : FingerprintInput :=
  { event with
    incidentClass := overridden options.classOverride event.incidentClass
    signature := overridden options.signatureOverride event.signature }

/-! ### Fingerprints -/

structure Fingerprint where
  key : String
  sha256 : String
deriving DecidableEq

def fingerprintFields (event : FingerprintInput) : List String :=
  [toLowerOrUnknown event.sourceType, toLowerOrUnknown event.incidentClass,
    toLowerOrUnknown event.branch, toLowerOrUnknown event.sha, toLowerOrUnknown event.signature]

def computeIncidentFingerprint (sha256 : String → String) (event : FingerprintInput) :
    Fingerprint :=
  let payload := JsString.join "|" (fingerprintFields event)
  { key := payload, sha256 := sha256 payload }

/-- `buildNormalizedEvent`: the fields of the event and its fingerprint. -/
def buildNormalizedEvent (sha256 : String → String) (sourceType : String) (rawInput : Json)
    (options : IngestOptions) : Except String (FingerprintInput × Fingerprint) :=
  (normalizeBySourceType sourceType rawInput).map fun event =>
    let normalized := applyOverrides event options
    (normalized, computeIncidentFingerprint sha256 normalized)

/-! ### The law -/

/-- Two events have one key, and one fingerprint if the hash has no collisions, exactly if
their fields are equal. -/
structure FingerprintLaw (e f : FingerprintInput) : Prop where
  key : ∀ sha256, (computeIncidentFingerprint sha256 e).key =
    (computeIncidentFingerprint sha256 f).key ↔ fingerprintFields e = fingerprintFields f
  sha256 : ∀ sha256 : String → String, Function.Injective sha256 →
    ((computeIncidentFingerprint sha256 e).sha256 = (computeIncidentFingerprint sha256 f).sha256 ↔
      fingerprintFields e = fingerprintFields f)

def textsBetweenBars (event : FingerprintInput) : List (List Char) :=
  Joined.pieces '|' ((fingerprintFields event).map String.toList)

def barsInFields (event : FingerprintInput) : List ℕ :=
  Joined.counts '|' ((fingerprintFields event).map String.toList)

theorem toList_join (texts : List String) :
    (JsString.join "|" texts).toList = ['|'].intercalate (texts.map String.toList) := by
  induction texts with
  | nil => rfl
  | cons text texts ih =>
    cases texts with
    | nil => rw [JsString.join, List.map_singleton, List.intercalate_singleton]
    | cons other texts =>
      rw [JsString.join, String.toList_append, String.toList_append, ih]
      · simp only [List.map_cons, List.intercalate_cons_cons]
        rfl
      · exact List.cons_ne_nil other texts

theorem map_toList_inj {xs ys : List String} : xs.map String.toList = ys.map String.toList ↔
    xs = ys :=
  (List.map_injective_iff.mpr fun _ _ h => String.toList_inj.mp h).eq_iff

theorem fingerprintLaw_iff_key (e f : FingerprintInput) : FingerprintLaw e f ↔
    (JsString.join "|" (fingerprintFields e) = JsString.join "|" (fingerprintFields f) ↔
      fingerprintFields e = fingerprintFields f) := by
  constructor
  · intro h
    exact h.key id
  · intro h
    exact ⟨fun _ => h, fun sha256 hsha256 => hsha256.eq_iff.trans h⟩

/-- **Which incidents a fingerprint tells apart.** -/
theorem fingerprintLaw_iff (e f : FingerprintInput) : FingerprintLaw e f ↔
    (textsBetweenBars e = textsBetweenBars f → barsInFields e = barsInFields f) := by
  have hjoined : (['|'].intercalate ((fingerprintFields e).map String.toList) =
        ['|'].intercalate ((fingerprintFields f).map String.toList) ↔
      (fingerprintFields e).map String.toList = (fingerprintFields f).map String.toList) ↔ _ :=
    Joined.joined_iff (List.cons_ne_nil _ _) (List.cons_ne_nil _ _)
  rw [map_toList_inj, ← toList_join, ← toList_join, String.toList_inj] at hjoined
  rw [fingerprintLaw_iff_key, hjoined]
  rfl

def incident (incidentClass branch : String) : Json :=
  .obj [("class", .str incidentClass), ("branch", .str branch), ("sha", .str "c0ffee"),
    ("signature", .str "nightly")]

/-- A bar at the end of the class and one at the start of the branch. -/
theorem not_fingerprintLaw_bar :
    ∃ e f : FingerprintInput,
      (buildNormalizedEvent id "incident-event" (incident "a|b" "c") ⟨none, none⟩).map Prod.fst =
        .ok e ∧
      (buildNormalizedEvent id "incident-event" (incident "a" "b|c") ⟨none, none⟩).map Prod.fst =
        .ok f ∧
      ¬ FingerprintLaw e f := by
  refine ⟨⟨"incident-event", "a|b", "c", "c0ffee", "nightly"⟩,
    ⟨"incident-event", "a", "b|c", "c0ffee", "nightly"⟩, ?_, ?_, ?_⟩
  · decide +kernel
  · decide +kernel
  · intro h
    have hfields := (h.key id).mp (by decide +kernel)
    revert hfields
    decide +kernel

end CompareVI.Incident
