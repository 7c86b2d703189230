import CompareVI.Framework.JsString
import CompareVI.Framework.Keyed

/-!
# Rulesets

The policy manifest says what a ruleset of the repository should be. `compareRuleset`
lists the differences of a ruleset from its expectation, and `buildRulesetPayload`
computes the ruleset that is sent to GitHub to remove them.

The builder treats the rules one type at a time, and each time it leaves the rule of the
type alone, removes it, or makes sure that it is there and assigns its parameters. It is
a list of changes by rule type (`rulesetChanges`, `updateRules_eq`), which is how the
proofs see it.
-/

open Framework

namespace CompareVI.Policy

/-! ### Rulesets and expectations -/

structure Rule where
  type : String
  parameters : Option JsObject
  deriving DecidableEq

structure RefName where
  /-- `include`. -/
  included : Option (List String)
  /-- `exclude`. -/
  excluded : Option (List String)
  deriving DecidableEq, Repr

/-- `conditions`; `rest` has the conditions other than `ref_name`. -/
structure Conditions where
  refName : Option RefName
  rest : JsObject
  deriving DecidableEq

/-- An entry of `bypass_actors`. -/
structure BypassActor where
  actorId : Option ℤ
  actorType : Option String
  bypassMode : Option String
  deriving DecidableEq, Repr

structure Ruleset where
  name : Option String
  target : Option String
  enforcement : Option String
  conditions : Option Conditions
  bypassActors : Option (List BypassActor)
  rules : Option (List Rule)
  deriving DecidableEq

/-- What the manifest expects of a ruleset. A property that is not there is `none`. -/
structure RulesetExpectation where
  name : Option String
  target : Option String
  includes : Option (List String)
  requiredLinearHistory : Bool
  mergeQueue : Option JsObject
  requiredStatusChecks : Option (List String)
  pullRequest : Option JsObject
  codeQuality : Option Json
  codeScanning : Option Json
  copilotCodeReview : Option Json
  deriving DecidableEq

def RulesetExpectation.empty : RulesetExpectation :=
  ⟨none, none, none, false, none, none, none, none, none, none⟩

/-- An entry of `rulesets` in the manifest. -/
inductive RulesetEntry where
  /-- `undefined`, or a value that is not an object. -/
  | other
  /-- `null` or `false`. -/
  | off
  | object (enabled : Option Json) (expectations : RulesetExpectation)

/-- `mode`. -/
inductive RulesetMode where
  | present
  | disabled
  deriving DecidableEq, Repr

def normalizeRulesetExpectation : RulesetEntry → RulesetMode × RulesetExpectation
  | .other => (.present, .empty)
  | .off => (.disabled, .empty)
  | .object enabled expectations =>
    (if (enabled.map Json.isTruthy).getD true then .present else .disabled, expectations)

/-- `mode` of an optional rule, with the parameters that are expected. -/
inductive OptionalRule where
  | ignore
  | absent
  | present (parameters : JsObject)

def objectOf? : Json → Option JsObject
  | .obj fields => some (.ofList fields)
  | _ => none

def normalizeOptionalRuleExpectation : Option Json → OptionalRule
  | none => .ignore
  | some .null | some (.bool false) => .absent
  | some (.obj fields) =>
    let expected := JsObject.ofList fields
    if ((expected.get? "enabled").map Json.isTruthy).getD true then
      let rawParams := ((expected.get? "parameters").bind objectOf?).getD expected
      .present ((rawParams.erase "enabled").erase "parameters")
    else .absent
  | some _ => .present .empty

/-! ### The comparison -/

/-- `a !== b` is false: equal, and not objects, of which each is its own. -/
def strictlyEqual (actual : Option Json) (expected : Json) : Bool :=
  match expected with
  | .arr _ | .obj _ => false
  | _ => actual = some expected

/-- `String(value)` on a property. -/
def propertyText (value : Option Json) : String := (value.map Json.toJsString).getD "undefined"

def stringifyForDiff : Option Json → String
  | some (.arr xs) => Json.stringify (.arr xs)
  | some (.obj fields) => Json.stringify (.obj fields)
  | value => propertyText value

def itemsOf : Option Json → List Json
  | some (.arr xs) => xs
  | _ => []

/-- `compareSets`: what is missing and what is extra, without repetitions. -/
def compareSets (expected actual : List Json) : List Json × List Json :=
  (expected.eraseDups.filter (· ∉ actual), actual.eraseDups.filter (· ∉ expected))

def setDiffs (what : String) (expected actual : List Json) : List String :=
  let (missing, extra) := compareSets expected actual
  (if missing.isEmpty then []
    else [what ++ ": missing [" ++ JsString.join ", " (missing.map Json.toJsString) ++ "]"]) ++
  (if extra.isEmpty then []
    else [what ++ ": unexpected [" ++ JsString.join ", " (extra.map Json.toJsString) ++ "]"])

def findRule (rules : List Rule) (type : String) : Option Rule := rules.find? (·.type = type)

/-- `rule.parameters ?? {}`. -/
def Rule.params (rule : Rule) : JsObject := rule.parameters.getD .empty

def compareMergeQueue (expected : Option JsObject) (actualRule : Option Rule) : List String :=
  match expected, actualRule with
  | none, none => []
  | none, some _ => ["merge_queue: unexpected merge queue rule present"]
  | some _, none => ["merge_queue: rule missing"]
  | some expected, some rule =>
    expected.fields.flatMap fun (key, value) =>
      if strictlyEqual (rule.params.get? key) value then []
      else ["merge_queue." ++ key ++ ": expected " ++ value.toJsString ++ ", actual " ++
        propertyText (rule.params.get? key)]

def Rule.contexts (rule : Rule) : List Json :=
  (itemsOf (rule.params.get? "required_status_checks")).filterMap (Json.get? "context")

def compareRulesetStatusChecks (expected : List String) (actualRule : Option Rule) :
    List String :=
  if expected.isEmpty then []
  else
    match actualRule with
    | none => ["required_status_checks: rule missing"]
    | some rule =>
      setDiffs "required_status_checks" (expected.map .str) (rule.contexts.filter Json.isTruthy)

def comparePullRequestRule (expected : Option JsObject) (actualRule : Option Rule) :
    List String :=
  match expected, actualRule with
  | none, _ => []
  | some _, none => ["pull_request: rule missing"]
  | some expected, some rule =>
    expected.fields.flatMap fun (key, value) =>
      if key = "allowed_merge_methods" then
        setDiffs "pull_request.allowed_merge_methods" (itemsOf (some value))
          (itemsOf (rule.params.get? "allowed_merge_methods"))
      else if strictlyEqual (rule.params.get? key) value then []
      else ["pull_request." ++ key ++ ": expected " ++ value.toJsString ++ ", actual " ++
        propertyText (rule.params.get? key)]

def compareOptionalParameterizedRule (type : String) (expected : Option Json)
    (actualRule : Option Rule) : List String :=
  match normalizeOptionalRuleExpectation expected, actualRule with
  | .ignore, _ => []
  | .absent, none => []
  | .absent, some _ => [type ++ ": unexpected rule present"]
  | .present _, none => [type ++ ": rule missing"]
  | .present parameters, some rule =>
    parameters.fields.flatMap fun (key, value) =>
      if rule.params.get? key = some value then []
      else [type ++ "." ++ key ++ ": expected " ++ stringifyForDiff (some value) ++ ", actual " ++
        stringifyForDiff (rule.params.get? key)]

def compareRulesetIncludes (expected actual : List String) : List String :=
  setDiffs "conditions.ref_name.include" (expected.map .str) (actual.map .str)

def Ruleset.included (actual : Ruleset) : List String :=
  ((actual.conditions.bind (·.refName)).bind (·.included)).getD []

def Ruleset.ruleList (actual : Ruleset) : List Rule := actual.rules.getD []

def compareText (id what : String) (expected actual : Option String) : List String :=
  match expected with
  | none | some "" => []
  | some text =>
    if actual = some text then []
    else ["ruleset " ++ id ++ ": " ++ what ++ " mismatch (expected " ++ text ++ ", actual " ++
      actual.getD "undefined" ++ ")"]

def comparePresentRuleset (id : String) (expected : RulesetExpectation) (actual : Ruleset) :
    List String :=
  let rules := actual.ruleList
  compareText id "name" expected.name actual.name ++
  compareText id "target" expected.target actual.target ++
  ((expected.includes.map (compareRulesetIncludes · actual.included)).getD []) ++
  (if expected.requiredLinearHistory && (findRule rules "required_linear_history").isNone then
    ["required_linear_history: rule missing"] else []) ++
  compareMergeQueue expected.mergeQueue (findRule rules "merge_queue") ++
  compareRulesetStatusChecks (expected.requiredStatusChecks.getD [])
    (findRule rules "required_status_checks") ++
  comparePullRequestRule expected.pullRequest (findRule rules "pull_request") ++
  compareOptionalParameterizedRule "code_quality" expected.codeQuality
    (findRule rules "code_quality") ++
  compareOptionalParameterizedRule "code_scanning" expected.codeScanning
    (findRule rules "code_scanning") ++
  compareOptionalParameterizedRule "copilot_code_review" expected.copilotCodeReview
    (findRule rules "copilot_code_review")

def compareRuleset (id : String) (expected : RulesetEntry) (actual : Option Ruleset) :
    List String :=
  match normalizeRulesetExpectation expected, actual with
  | (.disabled, _), none => []
  | (.disabled, _), some actual =>
    let actualEnforcement := actual.enforcement.getD "active"
    if actualEnforcement = "disabled" then []
    else ["ruleset " ++ id ++ ": expected disabled, actual enforcement " ++ actualEnforcement]
  | (.present, _), none => ["ruleset " ++ id ++ ": not found"]
  | (.present, expected), some actual => comparePresentRuleset id expected actual

variable {expected : RulesetExpectation}

theorem compareRuleset_present {entry : RulesetEntry} (id : String)
    (hentry : normalizeRulesetExpectation entry = (.present, expected)) (actual : Ruleset) :
    compareRuleset id entry (some actual) = comparePresentRuleset id expected actual := by
  unfold compareRuleset
  rw [hentry]

theorem comparePresentRuleset_eq_nil {id : String} {actual : Ruleset} :
    comparePresentRuleset id expected actual = [] ↔
      compareText id "name" expected.name actual.name = [] ∧
      compareText id "target" expected.target actual.target = [] ∧
      (∀ refs, expected.includes = some refs → compareRulesetIncludes refs actual.included = []) ∧
      (expected.requiredLinearHistory →
        (findRule actual.ruleList "required_linear_history").isSome) ∧
      compareMergeQueue expected.mergeQueue (findRule actual.ruleList "merge_queue") = [] ∧
      compareRulesetStatusChecks (expected.requiredStatusChecks.getD [])
        (findRule actual.ruleList "required_status_checks") = [] ∧
      comparePullRequestRule expected.pullRequest
        (findRule actual.ruleList "pull_request") = [] ∧
      compareOptionalParameterizedRule "code_quality" expected.codeQuality
        (findRule actual.ruleList "code_quality") = [] ∧
      compareOptionalParameterizedRule "code_scanning" expected.codeScanning
        (findRule actual.ruleList "code_scanning") = [] ∧
      compareOptionalParameterizedRule "copilot_code_review" expected.copilotCodeReview
        (findRule actual.ruleList "copilot_code_review") = [] := by
  have hincludes :
      ((expected.includes.map (compareRulesetIncludes · actual.included)).getD []) = [] ↔
      ∀ refs, expected.includes = some refs → compareRulesetIncludes refs actual.included = [] := by
    cases expected.includes <;> simp
  have hlinear : (if expected.requiredLinearHistory &&
      (findRule actual.ruleList "required_linear_history").isNone then
        ["required_linear_history: rule missing"] else []) = [] ↔
      (expected.requiredLinearHistory →
        (findRule actual.ruleList "required_linear_history").isSome) := by
    cases expected.requiredLinearHistory <;>
      cases findRule actual.ruleList "required_linear_history" <;> simp
  simp only [comparePresentRuleset, List.append_eq_nil_iff, hincludes, hlinear, and_assoc]

/-! ### The payload -/

def sanitizeBypassActors (actors : Option (List BypassActor)) : List BypassActor :=
  (actors.getD []).map fun actor =>
    { actor with bypassMode := some (actor.bypassMode.getD "always") }

/-- `ensureRule` and the assignment to the parameters of the rule that follows. -/
def ensureRule (rules : List Rule) (type : String) (assign : JsObject → JsObject) : List Rule :=
  ensureFirst Rule.type type ⟨type, none⟩
    (fun rule => { rule with parameters := some (assign rule.params) }) rules

def removeRule (rules : List Rule) (type : String) : List Rule := rules.eraseP (·.type = type)

def updateMergeQueueRule (rules : List Rule) (expected : Option JsObject) : List Rule :=
  match expected with
  | none => removeRule rules "merge_queue"
  | some expected => ensureRule rules "merge_queue" (·.spread expected)

def updateLinearHistoryRule (rules : List Rule) (expected : Bool) : List Rule :=
  if expected then
    ensureFirst Rule.type "required_linear_history" ⟨"required_linear_history", none⟩ id rules
  else removeRule rules "required_linear_history"

/-- `integration_id` of the last check with the context, if it has one. -/
def integrationId (checks : List Json) (context : String) : Option Json :=
  ((checks.reverse.find? fun check => check.get? "context" = some (.str context)).bind
    (Json.get? "integration_id")).filter (· ≠ .null)

def statusCheck (checks : List Json) (context : String) : Json :=
  match integrationId checks context with
  | none => .obj [("context", .str context)]
  | some id => .obj [("context", .str context), ("integration_id", id)]

/-- `value ?? fallback`. -/
def orDefault : Option Json → Json → Json
  | none, fallback => fallback
  | some .null, fallback => fallback
  | some value, _ => value

def statusParameters (expected : List String) (actual : JsObject) : JsObject :=
  .ofList [
    ("strict_required_status_checks_policy",
      orDefault (actual.get? "strict_required_status_checks_policy") (.bool true)),
    ("do_not_enforce_on_create", orDefault (actual.get? "do_not_enforce_on_create") (.bool false)),
    ("required_status_checks",
      .arr (expected.map (statusCheck (itemsOf (actual.get? "required_status_checks")))))]

def updateStatusRule (rules : List Rule) (expected : List String) : List Rule :=
  if expected.isEmpty then rules
  else ensureRule rules "required_status_checks" (statusParameters expected)

def pullRequestKeys : List String :=
  ["required_approving_review_count", "dismiss_stale_reviews_on_push",
    "require_code_owner_review", "require_last_push_approval", "required_review_thread_resolution"]

def assignKey (expected : JsObject) (parameters : JsObject) (key : String) : JsObject :=
  match expected.get? key with
  | some value => parameters.set key value
  | none => parameters

def pullRequestParameters (expected actual : JsObject) : JsObject :=
  let parameters := pullRequestKeys.foldl (assignKey expected) actual
  match expected.get? "allowed_merge_methods" with
  | some (.arr methods) => parameters.set "allowed_merge_methods" (.arr methods)
  | _ => parameters

def updatePullRequestRule (rules : List Rule) (expected : Option JsObject) : List Rule :=
  match expected with
  | none => rules
  | some expected => ensureRule rules "pull_request" (pullRequestParameters expected)

/-- `updateOptionalParameterizedRule`. Spreading no parameters is keeping them. -/
def updateOptionalParameterizedRule (rules : List Rule) (type : String) (expected : Option Json) :
    List Rule :=
  match normalizeOptionalRuleExpectation expected with
  | .ignore => rules
  | .absent => removeRule rules type
  | .present parameters => ensureRule rules type (·.spread parameters)

def updateRules (expected : RulesetExpectation) (rules : List Rule) : List Rule :=
  let rules := updateMergeQueueRule rules expected.mergeQueue
  let rules := updateLinearHistoryRule rules expected.requiredLinearHistory
  let rules := updateStatusRule rules (expected.requiredStatusChecks.getD [])
  let rules := updatePullRequestRule rules expected.pullRequest
  let rules := updateOptionalParameterizedRule rules "code_quality" expected.codeQuality
  let rules := updateOptionalParameterizedRule rules "code_scanning" expected.codeScanning
  updateOptionalParameterizedRule rules "copilot_code_review" expected.copilotCodeReview

def updateConditions (includes : Option (List String)) (conditions : Conditions) : Conditions :=
  match includes with
  | none => conditions
  | some refs =>
    { conditions with
      refName := some { conditions.refName.getD ⟨some [], some []⟩ with included := some refs } }

def buildRulesetPayload (expectations : RulesetEntry) (actual : Option Ruleset) : Ruleset :=
  let (mode, expected) := normalizeRulesetExpectation expectations
  let rules := ((actual.bind (·.rules)).getD [])
  { name := some (((actual.bind (·.name)).or expected.name).getD "ruleset")
    target := some (((actual.bind (·.target)).or expected.target).getD "branch")
    enforcement := some (if mode = .disabled then "disabled"
      else (actual.bind (·.enforcement)).getD "active")
    conditions := some (updateConditions expected.includes
      ((actual.bind (·.conditions)).getD ⟨none, .empty⟩))
    bypassActors := some (sanitizeBypassActors (actual.bind (·.bypassActors)))
    rules := some (if mode = .disabled then rules else updateRules expected rules) }

/-! ### The updates as changes -/

def assignRule (type : String) (assign : JsObject → JsObject) : Change Rule :=
  .ensure ⟨type, none⟩ fun rule => { rule with parameters := some (assign rule.params) }

/-- The change of `updateMergeQueueRule`. -/
def mergeQueueChange : Option JsObject → Change Rule
  | none => .remove
  | some expected => assignRule "merge_queue" (·.spread expected)

/-- The change of `updateLinearHistoryRule`. -/
def linearHistoryChange (expected : Bool) : Change Rule :=
  if expected then .ensure ⟨"required_linear_history", none⟩ id else .remove

/-- The change of `updateStatusRule`. -/
def statusChange (expected : List String) : Change Rule :=
  if expected.isEmpty then .ignore
  else assignRule "required_status_checks" (statusParameters expected)

/-- The change of `updatePullRequestRule`. -/
def pullRequestChange : Option JsObject → Change Rule
  | none => .ignore
  | some expected => assignRule "pull_request" (pullRequestParameters expected)

/-- The change of `updateOptionalParameterizedRule`. -/
def optionalChange (type : String) (expected : Option Json) : Change Rule :=
  match normalizeOptionalRuleExpectation expected with
  | .ignore => .ignore
  | .absent => .remove
  | .present parameters => assignRule type (·.spread parameters)

/-- The changes of `updateRules`. -/
def rulesetChanges (expected : RulesetExpectation) : List (String × Change Rule) :=
  [("merge_queue", mergeQueueChange expected.mergeQueue),
    ("required_linear_history", linearHistoryChange expected.requiredLinearHistory),
    ("required_status_checks", statusChange (expected.requiredStatusChecks.getD [])),
    ("pull_request", pullRequestChange expected.pullRequest),
    ("code_quality", optionalChange "code_quality" expected.codeQuality),
    ("code_scanning", optionalChange "code_scanning" expected.codeScanning),
    ("copilot_code_review", optionalChange "copilot_code_review" expected.copilotCodeReview)]

theorem updateMergeQueueRule_eq (rules : List Rule) (expected : Option JsObject) :
    updateMergeQueueRule rules expected =
      (mergeQueueChange expected).apply Rule.type "merge_queue" rules := by
  cases expected <;> rfl

theorem updateLinearHistoryRule_eq (rules : List Rule) (expected : Bool) :
    updateLinearHistoryRule rules expected =
      (linearHistoryChange expected).apply Rule.type "required_linear_history" rules := by
  cases expected <;> rfl

theorem updateStatusRule_eq (rules : List Rule) (expected : List String) :
    updateStatusRule rules expected =
      (statusChange expected).apply Rule.type "required_status_checks" rules := by
  cases expected <;> rfl

theorem updatePullRequestRule_eq (rules : List Rule) (expected : Option JsObject) :
    updatePullRequestRule rules expected =
      (pullRequestChange expected).apply Rule.type "pull_request" rules := by
  cases expected <;> rfl

theorem updateOptionalParameterizedRule_eq (rules : List Rule) (type : String)
    (expected : Option Json) :
    updateOptionalParameterizedRule rules type expected =
      (optionalChange type expected).apply Rule.type type rules := by
  unfold updateOptionalParameterizedRule optionalChange
  cases normalizeOptionalRuleExpectation expected <;> rfl

theorem updateRules_eq (expected : RulesetExpectation) (rules : List Rule) :
    updateRules expected rules = applyAll Rule.type (rulesetChanges expected) rules := by
  simp only [updateRules, updateMergeQueueRule_eq, updateLinearHistoryRule_eq,
    updateStatusRule_eq, updatePullRequestRule_eq, updateOptionalParameterizedRule_eq]
  rfl

theorem nodup_rulesetChanges (expected : RulesetExpectation) :
    ((rulesetChanges expected).map Prod.fst).Nodup := by
  simp [rulesetChanges]

end CompareVI.Policy
