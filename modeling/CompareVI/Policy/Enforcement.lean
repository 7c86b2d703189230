import CompareVI.Policy.Convergence

/-!
# What a ruleset without differences enforces

A ruleset passes the policy check when `compareRuleset` finds no difference. `Enforces`
is what one would conclude from that: the ruleset is active, its name, target and refs
are the expected ones, the expected rules are there with the expected parameters, and
the required checks and allowed merge methods are exactly the expected ones.

The comparison establishes `Compared`, and nothing about what it does not look at
(`Unseen`), first of all the enforcement of the ruleset. A ruleset that passes enforces
the expectation exactly when the unseen parts happen to be right
(`compareRuleset_sound_iff`).
-/

open Framework

namespace CompareVI.Policy

/-! ### Enforcement -/

def requiredContexts (actual : Ruleset) : List Json :=
  (actual.ruleList.filter (·.type = "required_status_checks")).flatMap Rule.contexts

def Rule.mergeMethods (rule : Rule) : List Json :=
  itemsOf (rule.params.get? "allowed_merge_methods")

def HasRule (actual : Ruleset) (type : String) (parameters : List (String × Json)) : Prop :=
  ∃ rule ∈ actual.ruleList, rule.type = type ∧
    ∀ kv ∈ parameters, rule.params.get? kv.1 = some kv.2

def plainParameters (parameters : JsObject) : List (String × Json) :=
  parameters.fields.filter (·.1 ≠ "allowed_merge_methods")

/-- The ruleset enforces the expectation. -/
structure Enforces (expected : RulesetExpectation) (actual : Ruleset) : Prop where
  enforcement : actual.enforcement.getD "active" = "active"
  name : ∀ name, expected.name = some name → actual.name = some name
  target : ∀ target, expected.target = some target → actual.target = some target
  includes : ∀ refs, expected.includes = some refs → ∀ ref, ref ∈ refs ↔ ref ∈ actual.included
  linearHistory : expected.requiredLinearHistory → HasRule actual "required_linear_history" []
  mergeQueue : ∀ queue, expected.mergeQueue = some queue →
    HasRule actual "merge_queue" queue.fields
  statusChecks : expected.requiredStatusChecks.getD [] ≠ [] →
    HasRule actual "required_status_checks" [] ∧
    ∀ context, context ∈ (expected.requiredStatusChecks.getD []).map Json.str ↔
      context ∈ requiredContexts actual
  pullRequest : ∀ parameters, expected.pullRequest = some parameters →
    HasRule actual "pull_request" (plainParameters parameters)
  mergeMethods : ∀ parameters value, expected.pullRequest = some parameters →
    parameters.get? "allowed_merge_methods" = some value →
      ∀ rule ∈ actual.ruleList, rule.type = "pull_request" →
        ∀ method, method ∈ itemsOf (some value) ↔ method ∈ rule.mergeMethods
  codeQuality : ∀ parameters,
    normalizeOptionalRuleExpectation expected.codeQuality = .present parameters →
      HasRule actual "code_quality" parameters.fields
  codeScanning : ∀ parameters,
    normalizeOptionalRuleExpectation expected.codeScanning = .present parameters →
      HasRule actual "code_scanning" parameters.fields
  copilotCodeReview : ∀ parameters,
    normalizeOptionalRuleExpectation expected.copilotCodeReview = .present parameters →
      HasRule actual "copilot_code_review" parameters.fields

/-! ### What is compared -/

/-- An expected text is there, if it is not empty. -/
def TextCompared (expected actual : Option String) : Prop :=
  ∀ text, expected = some text → text ≠ "" → actual = some text

/-- The first rule of the type has the parameters, as far as one is expected; otherwise there
is none. -/
def OptionalCompared (actual : Ruleset) (type : String) (expected : Option Json) : Prop :=
  match normalizeOptionalRuleExpectation expected with
  | .ignore => True
  | .absent => findRule actual.ruleList type = none
  | .present parameters => ∃ rule, findRule actual.ruleList type = some rule ∧
      ∀ kv ∈ parameters.fields, rule.params.get? kv.1 = some kv.2

/-- The expectation and the ruleset agree in what is compared: texts that are not empty, the
refs, and the first rule of each type. -/
structure Compared (expected : RulesetExpectation) (actual : Ruleset) : Prop where
  name : TextCompared expected.name actual.name
  target : TextCompared expected.target actual.target
  includes : ∀ refs, expected.includes = some refs → ∀ ref, ref ∈ refs ↔ ref ∈ actual.included
  linearHistory : expected.requiredLinearHistory →
    (findRule actual.ruleList "required_linear_history").isSome
  mergeQueue : match expected.mergeQueue with
    | none => findRule actual.ruleList "merge_queue" = none
    | some queue => ∃ rule, findRule actual.ruleList "merge_queue" = some rule ∧
        ∀ kv ∈ queue.fields, IsPrimitive kv.2 ∧ rule.params.get? kv.1 = some kv.2
  statusChecks : expected.requiredStatusChecks.getD [] ≠ [] →
    ∃ rule, findRule actual.ruleList "required_status_checks" = some rule ∧
      ∀ context, context ∈ (expected.requiredStatusChecks.getD []).map Json.str ↔
        context ∈ rule.contexts.filter Json.isTruthy
  pullRequest : ∀ parameters, expected.pullRequest = some parameters →
    ∃ rule, findRule actual.ruleList "pull_request" = some rule ∧
      ∀ kv ∈ parameters.fields,
        if kv.1 = "allowed_merge_methods" then
          ∀ method, method ∈ itemsOf (some kv.2) ↔ method ∈ rule.mergeMethods
        else IsPrimitive kv.2 ∧ rule.params.get? kv.1 = some kv.2
  codeQuality : OptionalCompared actual "code_quality" expected.codeQuality
  codeScanning : OptionalCompared actual "code_scanning" expected.codeScanning
  copilotCodeReview : OptionalCompared actual "copilot_code_review" expected.copilotCodeReview

def laterRules (actual : Ruleset) (type : String) : List Rule :=
  (actual.ruleList.filter (·.type = type)).tail

/-- What is not compared is right: the ruleset is active, an empty name or target that is
expected is the actual one, the checks without a context to compare and those of a further
rule are expected, and a further pull request rule allows the expected methods. -/
structure Unseen (expected : RulesetExpectation) (actual : Ruleset) : Prop where
  enforcement : actual.enforcement.getD "active" = "active"
  name : expected.name = some "" → actual.name = some ""
  target : expected.target = some "" → actual.target = some ""
  emptyChecks : expected.requiredStatusChecks.getD [] ≠ [] →
    ∀ rule, findRule actual.ruleList "required_status_checks" = some rule →
      ∀ context ∈ rule.contexts, context.isTruthy = false →
        context ∈ (expected.requiredStatusChecks.getD []).map Json.str
  laterChecks : expected.requiredStatusChecks.getD [] ≠ [] →
    ∀ rule ∈ laterRules actual "required_status_checks", ∀ context ∈ rule.contexts,
      context ∈ (expected.requiredStatusChecks.getD []).map Json.str
  laterMethods : ∀ parameters value, expected.pullRequest = some parameters →
    parameters.get? "allowed_merge_methods" = some value →
      ∀ rule ∈ laterRules actual "pull_request",
        ∀ method, method ∈ itemsOf (some value) ↔ method ∈ rule.mergeMethods

section Differences

variable {found : Option Rule} {id what : String}

theorem setDiffs_eq_nil {expected actual : List Json} :
    setDiffs what expected actual = [] ↔ ∀ x, x ∈ expected ↔ x ∈ actual := by
  have hmissing : expected.eraseDups.filter (· ∉ actual) = [] ↔ ∀ x ∈ expected, x ∈ actual := by
    simp [List.filter_eq_nil_iff, List.mem_eraseDups]
  have hextra : actual.eraseDups.filter (· ∉ expected) = [] ↔ ∀ x ∈ actual, x ∈ expected := by
    simp [List.filter_eq_nil_iff, List.mem_eraseDups]
  have hdiffs : setDiffs what expected actual = [] ↔
      expected.eraseDups.filter (· ∉ actual) = [] ∧
        actual.eraseDups.filter (· ∉ expected) = [] := by
    unfold setDiffs compareSets
    rw [List.append_eq_nil_iff]
    cases expected.eraseDups.filter (· ∉ actual) <;>
      cases actual.eraseDups.filter (· ∉ expected) <;> simp
  rw [hdiffs, hmissing, hextra]
  exact ⟨fun h x => ⟨h.1 x, h.2 x⟩, fun h => ⟨fun x => (h x).mp, fun x => (h x).mpr⟩⟩

theorem strictlyEqual_eq_true {actual : Option Json} {expected : Json} :
    strictlyEqual actual expected = true ↔ IsPrimitive expected ∧ actual = some expected := by
  cases expected <;> simp [strictlyEqual, IsPrimitive]

theorem compareText_eq_nil {expected actual : Option String} :
    compareText id what expected actual = [] ↔ TextCompared expected actual := by
  unfold compareText TextCompared
  split
  · simp
  · simp
  · next text hne =>
    have hne : text ≠ "" := fun heq => hne (by rw [heq])
    by_cases hactual : actual = some text <;> simp [hactual, hne]

theorem compareRulesetIncludes_eq_nil {expected actual : List String} :
    compareRulesetIncludes expected actual = [] ↔ ∀ ref, ref ∈ expected ↔ ref ∈ actual := by
  have hmem : ∀ (refs : List String) (ref : String), Json.str ref ∈ refs.map .str ↔ ref ∈ refs := by
    intro refs ref
    simp
  rw [compareRulesetIncludes, setDiffs_eq_nil]
  constructor
  · intro h ref
    rw [← hmem expected, ← hmem actual]
    exact h _
  · intro h x
    simp only [List.mem_map, h]

theorem compareMergeQueue_eq_nil {expected : Option JsObject} :
    compareMergeQueue expected found = [] ↔
      match expected with
      | none => found = none
      | some queue => ∃ rule, found = some rule ∧
          ∀ kv ∈ queue.fields, IsPrimitive kv.2 ∧ rule.params.get? kv.1 = some kv.2 := by
  cases expected with
  | none => cases found <;> simp [compareMergeQueue]
  | some queue =>
    cases found with
    | none => simp [compareMergeQueue]
    | some rule =>
      simp only [compareMergeQueue, List.flatMap_eq_nil_iff, Option.some.injEq, exists_eq_left']
      refine forall₂_congr fun kv _ => ?_
      rw [← strictlyEqual_eq_true]
      cases strictlyEqual (rule.params.get? kv.1) kv.2 <;> simp

theorem compareRulesetStatusChecks_eq_nil {expected : List String} :
    compareRulesetStatusChecks expected found = [] ↔
      (expected ≠ [] → ∃ rule, found = some rule ∧
        ∀ context, context ∈ expected.map Json.str ↔
          context ∈ rule.contexts.filter Json.isTruthy) := by
  unfold compareRulesetStatusChecks
  cases expected with
  | nil => simp
  | cons context contexts =>
    cases found with
    | none => simp
    | some rule => simp [setDiffs_eq_nil]

theorem comparePullRequestRule_eq_nil {expected : Option JsObject} :
    comparePullRequestRule expected found = [] ↔
      ∀ parameters, expected = some parameters → ∃ rule, found = some rule ∧
        ∀ kv ∈ parameters.fields,
          if kv.1 = "allowed_merge_methods" then
            ∀ method, method ∈ itemsOf (some kv.2) ↔ method ∈ rule.mergeMethods
          else IsPrimitive kv.2 ∧ rule.params.get? kv.1 = some kv.2 := by
  cases expected with
  | none => simp [comparePullRequestRule]
  | some parameters =>
    cases found with
    | none => simp [comparePullRequestRule]
    | some rule =>
      simp only [comparePullRequestRule, List.flatMap_eq_nil_iff, Option.some.injEq,
        exists_eq_left', forall_eq']
      refine forall₂_congr fun kv _ => ?_
      by_cases hkey : kv.1 = "allowed_merge_methods"
      · rw [if_pos hkey, if_pos hkey]
        exact setDiffs_eq_nil
      · rw [if_neg hkey, if_neg hkey, ← strictlyEqual_eq_true]
        cases strictlyEqual (rule.params.get? kv.1) kv.2 <;> simp

theorem compareOptionalParameterizedRule_eq_nil {actual : Ruleset} {type : String}
    {expected : Option Json} :
    compareOptionalParameterizedRule type expected (findRule actual.ruleList type) = [] ↔
      OptionalCompared actual type expected := by
  unfold compareOptionalParameterizedRule OptionalCompared
  cases normalizeOptionalRuleExpectation expected with
  | ignore => simp
  | absent => cases findRule actual.ruleList type <;> simp
  | present parameters =>
    cases findRule actual.ruleList type with
    | none => simp
    | some rule =>
      simp only [List.flatMap_eq_nil_iff, Option.some.injEq, exists_eq_left']
      refine forall₂_congr fun kv _ => ?_
      by_cases hget : rule.params.get? kv.1 = some kv.2
      · exact iff_of_true (if_pos hget) hget
      · rw [if_neg hget]
        exact iff_of_false (List.cons_ne_nil _ _) hget

/-- **What the comparison establishes.** -/
theorem comparePresentRuleset_eq_nil_iff {expected : RulesetExpectation} {actual : Ruleset} :
    comparePresentRuleset id expected actual = [] ↔ Compared expected actual := by
  rw [comparePresentRuleset_eq_nil, compareText_eq_nil, compareText_eq_nil,
    compareMergeQueue_eq_nil, compareRulesetStatusChecks_eq_nil, comparePullRequestRule_eq_nil,
    compareOptionalParameterizedRule_eq_nil, compareOptionalParameterizedRule_eq_nil,
    compareOptionalParameterizedRule_eq_nil]
  simp only [compareRulesetIncludes_eq_nil]
  constructor
  · rintro ⟨name, target, includes, linear, queue, checks, pull, quality, scanning, copilot⟩
    exact ⟨name, target, includes, linear, queue, checks, pull, quality, scanning, copilot⟩
  · exact fun h => ⟨h.name, h.target, h.includes, h.linearHistory, h.mergeQueue, h.statusChecks,
      h.pullRequest, h.codeQuality, h.codeScanning, h.copilotCodeReview⟩

end Differences

/-! ### From the comparison to enforcement -/

section Soundness

variable {expected : RulesetExpectation} {actual : Ruleset} {type : String} {rule : Rule}

theorem filter_eq_cons_laterRules (hfind : findRule actual.ruleList type = some rule) :
    actual.ruleList.filter (·.type = type) = rule :: laterRules actual type := by
  have hhead : (actual.ruleList.filter (·.type = type)).head? = some rule := by
    rw [List.head?_filter]
    exact hfind
  rw [laterRules]
  cases hrules : actual.ruleList.filter (·.type = type) with
  | nil => rw [hrules] at hhead; cases hhead
  | cons first rest =>
    rw [hrules] at hhead
    rw [Option.some.inj hhead, List.tail_cons]

theorem hasRule_of_findRule {parameters : List (String × Json)}
    (hfind : findRule actual.ruleList type = some rule)
    (hget : ∀ kv ∈ parameters, rule.params.get? kv.1 = some kv.2) :
    HasRule actual type parameters :=
  ⟨rule, List.mem_of_find?_eq_some hfind, by simpa using List.find?_some hfind, hget⟩

theorem hasRule_of_optionalCompared {value : Option Json} {parameters : JsObject}
    (h : OptionalCompared actual type value)
    (hpresent : normalizeOptionalRuleExpectation value = .present parameters) :
    HasRule actual type parameters.fields := by
  rw [OptionalCompared, hpresent] at h
  obtain ⟨rule, hfind, hget⟩ := h
  exact hasRule_of_findRule hfind hget

theorem text_iff_of_compared {expected actual : Option String} (h : TextCompared expected actual) :
    (∀ text, expected = some text → actual = some text) ↔
      (expected = some "" → actual = some "") := by
  refine ⟨fun hall => hall "", fun hempty text htext => ?_⟩
  by_cases hne : text = ""
  · rw [hne] at htext ⊢
    exact hempty htext
  · exact h text htext hne

theorem requiredContexts_iff_of_compared {contexts : List Json}
    (hfind : findRule actual.ruleList "required_status_checks" = some rule)
    (hseen : ∀ context, context ∈ contexts ↔ context ∈ rule.contexts.filter Json.isTruthy) :
    (∀ context, context ∈ contexts ↔ context ∈ requiredContexts actual) ↔
      (∀ context ∈ rule.contexts, context.isTruthy = false → context ∈ contexts) ∧
      ∀ later ∈ laterRules actual "required_status_checks", ∀ context ∈ later.contexts,
        context ∈ contexts := by
  have hall : ∀ context, context ∈ requiredContexts actual ↔ context ∈ rule.contexts ∨
      ∃ later ∈ laterRules actual "required_status_checks", context ∈ later.contexts := by
    intro context
    rw [requiredContexts, filter_eq_cons_laterRules hfind, List.flatMap_cons, List.mem_append,
      List.mem_flatMap]
  constructor
  · intro h
    refine ⟨fun context hmem _ => (h context).mpr ((hall context).mpr (.inl hmem)), ?_⟩
    intro later hlater context hmem
    exact (h context).mpr ((hall context).mpr (.inr ⟨later, hlater, hmem⟩))
  · rintro ⟨hempty, hlater⟩ context
    rw [hall]
    constructor
    · exact fun hmem => .inl (List.mem_filter.mp ((hseen context).mp hmem)).1
    · rintro (hmem | ⟨later, hmem, hcontext⟩)
      · cases htruthy : context.isTruthy with
        | true => exact (hseen context).mpr (List.mem_filter.mpr ⟨hmem, htruthy⟩)
        | false => exact hempty context hmem htruthy
      · exact hlater later hmem context hcontext

/-- **What is left.** Where the comparison finds nothing, the ruleset enforces the
expectation exactly when the unseen parts are right. -/
theorem enforces_iff_unseen (h : Compared expected actual) :
    Enforces expected actual ↔ Unseen expected actual := by
  constructor
  · intro he
    exact {
      enforcement := he.enforcement
      name := (text_iff_of_compared h.name).mp he.name
      target := (text_iff_of_compared h.target).mp he.target
      emptyChecks := fun hne rule hfind => by
        obtain ⟨found, hfound, hseen⟩ := h.statusChecks hne
        obtain rfl := Option.some.inj (hfind.symm.trans hfound)
        exact ((requiredContexts_iff_of_compared hfind hseen).mp (he.statusChecks hne).2).1
      laterChecks := fun hne => by
        obtain ⟨rule, hfind, hseen⟩ := h.statusChecks hne
        exact ((requiredContexts_iff_of_compared hfind hseen).mp (he.statusChecks hne).2).2
      laterMethods := fun parameters value hp hvalue rule hrule => by
        have hmem := List.mem_filter.mp (List.mem_of_mem_tail hrule)
        exact he.mergeMethods parameters value hp hvalue rule hmem.1 (by simpa using hmem.2) }
  · intro hu
    exact {
      enforcement := hu.enforcement
      name := (text_iff_of_compared h.name).mpr hu.name
      target := (text_iff_of_compared h.target).mpr hu.target
      includes := h.includes
      linearHistory := fun hexp => by
        obtain ⟨rule, hfind⟩ := Option.isSome_iff_exists.mp (h.linearHistory hexp)
        exact hasRule_of_findRule hfind (List.forall_mem_nil _)
      mergeQueue := fun queue hqueue => by
        have hm := h.mergeQueue
        rw [hqueue] at hm
        obtain ⟨rule, hfind, hget⟩ := hm
        exact hasRule_of_findRule hfind fun kv hkv => (hget kv hkv).2
      statusChecks := fun hne => by
        obtain ⟨rule, hfind, hseen⟩ := h.statusChecks hne
        exact ⟨hasRule_of_findRule hfind (List.forall_mem_nil _),
          (requiredContexts_iff_of_compared hfind hseen).mpr
            ⟨hu.emptyChecks hne rule hfind, hu.laterChecks hne⟩⟩
      pullRequest := fun parameters hp => by
        obtain ⟨rule, hfind, hget⟩ := h.pullRequest parameters hp
        refine hasRule_of_findRule hfind fun kv hkv => ?_
        obtain ⟨hmem, hkey⟩ := List.mem_filter.mp hkv
        have hone := hget kv hmem
        rw [if_neg (by simpa using hkey)] at hone
        exact hone.2
      mergeMethods := fun parameters value hp hvalue rule hrule htype => by
        obtain ⟨first, hfind, hget⟩ := h.pullRequest parameters hp
        have hmem : rule ∈ first :: laterRules actual "pull_request" := by
          rw [← filter_eq_cons_laterRules hfind]
          exact List.mem_filter.mpr ⟨hrule, by simpa using htype⟩
        obtain rfl | hlater := List.mem_cons.mp hmem
        · have hone := hget ("allowed_merge_methods", value) (JsObject.mem_of_get? hvalue)
          rwa [if_pos rfl] at hone
        · exact hu.laterMethods parameters value hp hvalue rule hlater
      codeQuality := fun parameters hp => hasRule_of_optionalCompared h.codeQuality hp
      codeScanning := fun parameters hp => hasRule_of_optionalCompared h.codeScanning hp
      copilotCodeReview := fun parameters hp => hasRule_of_optionalCompared h.copilotCodeReview hp }

end Soundness

/-- **When the policy check is sound.** A ruleset without differences enforces the
expectation exactly when it has a difference that is compared, or what is not compared is
right: its enforcement is active, and the rest of `Unseen`. -/
theorem compareRuleset_sound_iff (id : String) (entry : RulesetEntry)
    (expected : RulesetExpectation) (actual : Ruleset)
    (hentry : normalizeRulesetExpectation entry = (.present, expected)) :
    (compareRuleset id entry (some actual) = [] → Enforces expected actual) ↔
      (Compared expected actual → Unseen expected actual) := by
  rw [compareRuleset_present id hentry, comparePresentRuleset_eq_nil_iff]
  exact forall_congr' fun h => enforces_iff_unseen h

/-! ### A disabled ruleset -/

def approvingRuleset (enforcement : String) : Ruleset :=
  { namedRuleset "main"
      [⟨"pull_request", some (.ofList [("required_approving_review_count", .num 0)])⟩] with
    enforcement := some enforcement }

/-- A disabled ruleset passes the check and enforces nothing. -/
theorem not_compareRuleset_sound :
    compareRuleset "1" (.object none (namedExpectation "main"))
        (some (approvingRuleset "disabled")) =
      [] ∧ ¬ Enforces (namedExpectation "main") (approvingRuleset "disabled") :=
  ⟨by decide, fun h => absurd h.enforcement (by decide)⟩

/-- The active ruleset passes the check, and enforces the expectation. -/
theorem compareRuleset_sound_active :
    Enforces (namedExpectation "main") (approvingRuleset "active") := by
  refine (compareRuleset_sound_iff "1" (.object none (namedExpectation "main"))
    (namedExpectation "main") (approvingRuleset "active") rfl).mpr (fun _ => ?_) (by decide)
  exact {
    enforcement := rfl
    name := fun h => absurd h (by decide)
    target := fun h => nomatch h
    emptyChecks := fun hne => absurd rfl hne
    laterChecks := fun hne => absurd rfl hne
    laterMethods := fun _ _ _ _ _ hrule => absurd hrule (by
      have : laterRules (approvingRuleset "active") "pull_request" = [] := by decide
      rw [this]
      exact List.not_mem_nil) }

end CompareVI.Policy
