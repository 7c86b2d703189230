import CompareVI.Policy.Ruleset

/-!
# Applying a ruleset expectation

What `buildRulesetPayload` sends is meant to be a fixed point: GitHub stores it, the
comparison finds no difference, building it again changes nothing, and the rules that
the expectation is not about are as they were.

The rules are a list of changes by type, so the fixed point and the frame are those of
`applyAll`, and what is left is one lemma for each type: the rule that the change leaves
behind has no difference (`compare…_result`), and making the change again does nothing
(`settled_…`). Two rules are removed when they are not mentioned, `merge_queue` and
`required_linear_history`. The comparison also looks at things that the payload does not
change: a name or target that differs already, and parameters of the pull request rule
that the builder does not know (`Assigned`).
-/

open Framework

namespace CompareVI.Policy

def IsPrimitive : Json → Prop
  | .arr _ | .obj _ => False
  | .null | .bool _ | .num _ | .str _ => True

def mentioned (expected : RulesetExpectation) : List String :=
  (if expected.mergeQueue.isSome then ["merge_queue"] else []) ++
  (if expected.requiredLinearHistory then ["required_linear_history"] else []) ++
  (if expected.requiredStatusChecks.isSome then ["required_status_checks"] else []) ++
  (if expected.pullRequest.isSome then ["pull_request"] else []) ++
  (if expected.codeQuality.isSome then ["code_quality"] else []) ++
  (if expected.codeScanning.isSome then ["code_scanning"] else []) ++
  (if expected.copilotCodeReview.isSome then ["copilot_code_review"] else [])

def actualRules (actual : Option Ruleset) : List Rule := (actual.bind (·.rules)).getD []

/-- A rule that is to be removed is there at most once. -/
def RemovedOnce (expected : RulesetExpectation) (rules : List Rule) : Prop :=
  ∀ kc ∈ rulesetChanges expected, kc.2 = .remove → (rules.filter (·.type = kc.1)).length ≤ 1

/-- An expected text, if it is not empty, is not contradicted by the actual one. -/
def TextAgrees (expected actual : Option String) : Prop :=
  ∀ text, expected = some text → text ≠ "" → ∀ found, actual = some found → found = text

/-- The builder assigns the expected parameter of the pull request rule, or it is there
already. -/
def Assigned (found : JsObject) (key : String) (value : Json) : Prop :=
  if key = "allowed_merge_methods" then ∃ methods, value = .arr methods
  else IsPrimitive value ∧ (key ∈ pullRequestKeys ∨ found.get? key = some value)

/-- What the comparison looks at is in the hands of the builder. -/
structure Applicable (expected : RulesetExpectation) (actual : Option Ruleset) : Prop where
  name : TextAgrees expected.name (actual.bind (·.name))
  target : TextAgrees expected.target (actual.bind (·.target))
  mergeQueue : ∀ queue, expected.mergeQueue = some queue → ∀ kv ∈ queue.fields, IsPrimitive kv.2
  statusChecks : "" ∉ expected.requiredStatusChecks.getD []
  pullRequest : ∀ parameters, expected.pullRequest = some parameters →
    ∀ kv ∈ parameters.fields,
      Assigned (((findRule (actualRules actual) "pull_request").map Rule.params).getD .empty)
        kv.1 kv.2

/-! ### Parameters -/

section Parameters

variable {expected actual : JsObject}

theorem strictlyEqual_of_isPrimitive {value : Json} (hv : IsPrimitive value) :
    strictlyEqual (some value) value = true := by
  cases value with
  | arr _ => exact hv.elim
  | obj _ => exact hv.elim
  | null | bool _ | num _ | str _ => simp [strictlyEqual]

theorem get?_spread_of_mem {key : String} {value : Json} (h : (key, value) ∈ expected.fields) :
    (actual.spread expected).get? key = some value := by
  rw [JsObject.get?_spread, JsObject.get?_eq_some_of_mem h, Option.some_or]

theorem get?_foldl_assignKey (keys : List String) (k : String) :
    (keys.foldl (assignKey expected) actual).get? k =
      if k ∈ keys then (expected.get? k).or (actual.get? k) else actual.get? k := by
  induction keys generalizing actual with
  | nil => rfl
  | cons key keys ih =>
    have hone : (assignKey expected actual key).get? k =
        if k = key then (expected.get? k).or (actual.get? k) else actual.get? k := by
      rw [assignKey]
      cases hkey : expected.get? key with
      | none =>
        by_cases hk : k = key
        · rw [if_pos hk, hk, hkey, Option.none_or]
        · rw [if_neg hk]
      | some value =>
        by_cases hk : k = key
        · rw [if_pos hk, hk, hkey, JsObject.get?_set_self, Option.some_or]
        · rw [if_neg hk, JsObject.get?_set_of_ne _ _ hk]
    rw [List.foldl_cons, ih, hone]
    by_cases hk : k = key
    · subst hk
      cases expected.get? k <;> simp
    · simp [hk]

theorem get?_pullRequestParameters (k : String) :
    (pullRequestParameters expected actual).get? k =
      if k = "allowed_merge_methods" then
        match expected.get? k with
        | some (.arr methods) => some (.arr methods)
        | _ => actual.get? k
      else if k ∈ pullRequestKeys then (expected.get? k).or (actual.get? k)
      else actual.get? k := by
  rw [pullRequestParameters]
  by_cases hk : k = "allowed_merge_methods"
  · subst hk
    have hnot : "allowed_merge_methods" ∉ pullRequestKeys := by decide
    rw [if_pos rfl]
    cases expected.get? "allowed_merge_methods" with
    | none => simp only [get?_foldl_assignKey, if_neg hnot]
    | some value =>
      cases value <;> simp only [JsObject.get?_set_self, get?_foldl_assignKey, if_neg hnot]
  · rw [if_neg hk]
    split
    · rw [JsObject.get?_set_of_ne _ _ hk, get?_foldl_assignKey]
    · rw [get?_foldl_assignKey]

theorem statusParameters_checks (contexts : List String) :
    (statusParameters contexts actual).get? "required_status_checks" =
      some (.arr (contexts.map
        (statusCheck (itemsOf (actual.get? "required_status_checks"))))) := by
  simp [statusParameters, JsObject.ofList]

theorem get?_context_statusCheck (checks : List Json) (context : String) :
    (statusCheck checks context).get? "context" = some (.str context) := by
  unfold statusCheck
  cases integrationId checks context <;> rfl

theorem contexts_statusParameters (contexts : List String) (rule : Rule)
    (hrule : rule.params = statusParameters contexts actual) :
    rule.contexts = contexts.map .str := by
  rw [Rule.contexts, hrule, statusParameters_checks, itemsOf, List.filterMap_map]
  have hget : (Json.get? "context") ∘ statusCheck (itemsOf (actual.get? "required_status_checks")) =
      fun context => some (.str context) :=
    funext fun context => get?_context_statusCheck _ context
  rw [hget]
  exact List.filterMap_eq_map (f := fun context => Json.str context) ▸ rfl

end Parameters

/-! ### No difference -/

section Differences

theorem setDiffs_self (what : String) (xs : List Json) : setDiffs what xs xs = [] := by
  have hnone : xs.eraseDups.filter (· ∉ xs) = [] := by
    rw [List.filter_eq_nil_iff]
    intro x hx
    simpa using List.mem_eraseDups.mp hx
  rw [setDiffs, compareSets, hnone]
  rfl

theorem flatMap_eq_nil {fields : List (String × Json)} {f : String × Json → List String}
    (h : ∀ kv ∈ fields, f kv = []) : fields.flatMap f = [] :=
  List.flatMap_eq_nil_iff.mpr h

theorem compareMergeQueue_result {expected : Option JsObject} (found : Option Rule)
    (hprim : ∀ queue, expected = some queue → ∀ kv ∈ queue.fields, IsPrimitive kv.2) :
    compareMergeQueue expected ((mergeQueueChange expected).result found) = [] := by
  cases expected with
  | none => rfl
  | some queue =>
    refine flatMap_eq_nil fun kv hkv => if_pos ?_
    rw [Rule.params, Option.getD_some, get?_spread_of_mem hkv]
    exact strictlyEqual_of_isPrimitive (hprim queue rfl kv hkv)

theorem compareRulesetStatusChecks_result {expected : List String} (found : Option Rule)
    (hempty : "" ∉ expected) :
    compareRulesetStatusChecks expected ((statusChange expected).result found) = [] := by
  cases expected with
  | nil => rfl
  | cons context contexts =>
    have htruthy : ((context :: contexts).map Json.str).filter Json.isTruthy =
        (context :: contexts).map Json.str := by
      rw [List.filter_eq_self]
      intro value hvalue
      obtain ⟨text, htext, rfl⟩ := List.mem_map.mp hvalue
      have hne : text ≠ "" := fun heq => hempty (heq ▸ htext)
      simpa [Json.isTruthy] using hne
    change setDiffs _ _ _ = []
    rw [contexts_statusParameters (context :: contexts) _ rfl, htruthy, setDiffs_self]

theorem comparePullRequestRule_result {expected : Option JsObject} (found : Option Rule)
    (hassigned : ∀ parameters, expected = some parameters → ∀ kv ∈ parameters.fields,
      Assigned ((found.map Rule.params).getD .empty) kv.1 kv.2) :
    comparePullRequestRule expected ((pullRequestChange expected).result found) = [] := by
  cases expected with
  | none => rfl
  | some parameters =>
    refine flatMap_eq_nil fun kv hkv => ?_
    obtain ⟨key, value⟩ := kv
    have hget := JsObject.get?_eq_some_of_mem hkv
    have hone := hassigned parameters rfl _ hkv
    have hfound : (found.getD ⟨"pull_request", none⟩).params =
        (found.map Rule.params).getD .empty := by
      cases found <;> rfl
    dsimp only [Assigned] at hone
    rw [Rule.params, Option.getD_some, hfound]
    dsimp only
    by_cases hkey : key = "allowed_merge_methods"
    · subst hkey
      rw [if_pos rfl] at hone
      obtain ⟨methods, rfl⟩ := hone
      rw [if_pos rfl, get?_pullRequestParameters, if_pos rfl, hget, setDiffs_self]
    · rw [if_neg hkey] at hone
      rw [if_neg hkey, get?_pullRequestParameters, if_neg hkey, hget, Option.some_or]
      obtain ⟨hprim, hmem | hsame⟩ := hone
      · rw [if_pos hmem, if_pos (strictlyEqual_of_isPrimitive hprim)]
      · rw [hsame, ite_self, if_pos (strictlyEqual_of_isPrimitive hprim)]

theorem compareOptionalParameterizedRule_result (type : String) (expected : Option Json)
    (found : Option Rule) :
    compareOptionalParameterizedRule type expected ((optionalChange type expected).result found) =
      [] := by
  unfold compareOptionalParameterizedRule optionalChange
  cases normalizeOptionalRuleExpectation expected with
  | ignore => rfl
  | absent => rfl
  | present parameters =>
    refine flatMap_eq_nil fun kv hkv => if_pos ?_
    rw [Rule.params, Option.getD_some, get?_spread_of_mem hkv]

end Differences

/-! ### Nothing to do a second time -/

section Settled

/-- The change keeps the types, and a second one changes nothing. -/
def Regular (type : String) (change : Change Rule) : Prop :=
  change.Keeps Rule.type type ∧ ∀ found, change.Settled (change.result found)

theorem regular_assignRule (type : String) {assign : JsObject → JsObject}
    (hidem : ∀ p, assign (assign p) = assign p) : Regular type (assignRule type assign) := by
  refine ⟨⟨rfl, fun _ => rfl⟩, fun found => ⟨_, rfl, ?_⟩⟩
  dsimp only [Rule.params, Option.getD_some]
  rw [hidem]

theorem orDefault_orDefault (value : Option Json) (fallback : Json) :
    orDefault (some (orDefault value fallback)) fallback = orDefault value fallback := by
  rcases value with _ | _ | _ | _ | _ | _ | _
  -- what is there is not `null`, or the fallback is taken, which may be `null` itself
  all_goals first | rfl | (cases fallback <;> rfl)

theorem integrationId_map_statusCheck (checks : List Json) {contexts : List String}
    {context : String} (hmem : context ∈ contexts) :
    integrationId (contexts.map (statusCheck checks)) context = integrationId checks context := by
  have hfind : (contexts.map (statusCheck checks)).reverse.find?
      (fun check => check.get? "context" = some (.str context)) =
        some (statusCheck checks context) := by
    have hpred : (fun check : Json => decide (check.get? "context" = some (.str context))) ∘
        statusCheck checks = fun c => decide (c = context) := by
      funext c
      rw [Function.comp_apply, get?_context_statusCheck]
      simp
    rw [← List.map_reverse, List.find?_map, hpred]
    have hself : contexts.reverse.find? (fun c => c = context) = some context := by
      cases hf : contexts.reverse.find? (fun c => decide (c = context)) with
      | none =>
        rw [List.find?_eq_none] at hf
        exact absurd (by simp) (hf context (List.mem_reverse.mpr hmem))
      | some c =>
        have heq : c = context := by simpa using List.find?_some hf
        rw [heq]
    rw [hself]
    rfl
  rw [integrationId, hfind, Option.bind_some, statusCheck]
  cases hid : integrationId checks context with
  | none => rfl
  | some id =>
    have hne : id ≠ .null := by
      have := Option.filter_eq_some_iff.mp hid
      simpa using this.2
    change Option.filter _ (some id) = some id
    simpa using hne

theorem statusParameters_idem (contexts : List String) (p : JsObject) :
    statusParameters contexts (statusParameters contexts p) = statusParameters contexts p := by
  have hstrict : (statusParameters contexts p).get? "strict_required_status_checks_policy" =
      some (orDefault (p.get? "strict_required_status_checks_policy") (.bool true)) := by
    simp [statusParameters, JsObject.ofList, JsObject.get?_set]
  have hcreate : (statusParameters contexts p).get? "do_not_enforce_on_create" =
      some (orDefault (p.get? "do_not_enforce_on_create") (.bool false)) := by
    simp [statusParameters, JsObject.ofList, JsObject.get?_set]
  have hchecks : contexts.map (statusCheck (itemsOf ((statusParameters contexts p).get?
      "required_status_checks"))) =
        contexts.map (statusCheck (itemsOf (p.get? "required_status_checks"))) := by
    rw [statusParameters_checks]
    refine List.map_congr_left fun context hmem => ?_
    rw [statusCheck, itemsOf, integrationId_map_statusCheck _ hmem]
    rfl
  rw [statusParameters, hstrict, hcreate, orDefault_orDefault, orDefault_orDefault, hchecks]
  rfl

theorem foldl_assignKey_of_get? {expected q : JsObject} {keys : List String}
    (h : ∀ key ∈ keys, ∀ value, expected.get? key = some value → q.get? key = some value) :
    keys.foldl (assignKey expected) q = q := by
  induction keys with
  | nil => rfl
  | cons key keys ih =>
    have hone : assignKey expected q key = q := by
      rw [assignKey]
      cases hkey : expected.get? key with
      | none => rfl
      | some value => exact JsObject.set_of_get? (h key List.mem_cons_self value hkey)
    rw [List.foldl_cons, hone]
    exact ih fun key' hmem => h key' (List.mem_cons_of_mem _ hmem)

theorem pullRequestParameters_idem (expected p : JsObject) :
    pullRequestParameters expected (pullRequestParameters expected p) =
      pullRequestParameters expected p := by
  have hkeys : pullRequestKeys.foldl (assignKey expected) (pullRequestParameters expected p) =
      pullRequestParameters expected p := by
    refine foldl_assignKey_of_get? fun key hmem value hvalue => ?_
    have hne : key ≠ "allowed_merge_methods" := by
      rintro rfl
      exact absurd hmem (by decide)
    rw [get?_pullRequestParameters, if_neg hne, if_pos hmem, hvalue, Option.some_or]
  rw [pullRequestParameters, hkeys]
  split
  · next methods hm =>
    refine JsObject.set_of_get? ?_
    rw [get?_pullRequestParameters, if_pos rfl, hm]
  · rfl

theorem regular_spread (type : String) (p : JsObject) :
    Regular type (assignRule type (·.spread p)) :=
  regular_assignRule type fun q => JsObject.spread_spread_self q p

theorem regular_optionalChange (type : String) (expected : Option Json) :
    Regular type (optionalChange type expected) := by
  unfold optionalChange
  cases normalizeOptionalRuleExpectation expected with
  | ignore => exact ⟨trivial, fun _ => trivial⟩
  | absent => exact ⟨trivial, fun _ => rfl⟩
  | present parameters => exact regular_spread type parameters

theorem regular_rulesetChanges (expected : RulesetExpectation) :
    ∀ kc ∈ rulesetChanges expected, Regular kc.1 kc.2 := by
  simp only [rulesetChanges, List.forall_mem_cons, List.not_mem_nil, false_implies, implies_true,
    and_true]
  refine ⟨?_, ?_, ?_, ?_, regular_optionalChange _ _, regular_optionalChange _ _,
    regular_optionalChange _ _⟩
  · cases expected.mergeQueue with
    | none => exact ⟨trivial, fun _ => rfl⟩
    | some queue => exact regular_spread _ queue
  · cases expected.requiredLinearHistory with
    | false => exact ⟨trivial, fun _ => rfl⟩
    | true => exact ⟨⟨rfl, fun _ => rfl⟩, fun _ => ⟨_, rfl, rfl⟩⟩
  · cases expected.requiredStatusChecks.getD [] with
    | nil => exact ⟨trivial, fun _ => trivial⟩
    | cons context contexts => exact regular_assignRule _ (statusParameters_idem _)
  · cases expected.pullRequest with
    | none => exact ⟨trivial, fun _ => trivial⟩
    | some pullRequest => exact regular_assignRule _ (pullRequestParameters_idem pullRequest)

theorem keeps_rulesetChanges (expected : RulesetExpectation) :
    ∀ kc ∈ rulesetChanges expected, kc.2.Keeps Rule.type kc.1 :=
  fun kc hkc => (regular_rulesetChanges expected kc hkc).1

end Settled

/-! ### The payload -/

section Payload

variable {entry : RulesetEntry} {expected : RulesetExpectation} {actual : Option Ruleset}

theorem buildRulesetPayload_present
    (hentry : normalizeRulesetExpectation entry = (.present, expected)) (actual : Option Ruleset) :
    buildRulesetPayload entry actual =
      { name := some (((actual.bind (·.name)).or expected.name).getD "ruleset")
        target := some (((actual.bind (·.target)).or expected.target).getD "branch")
        enforcement := some ((actual.bind (·.enforcement)).getD "active")
        conditions := some (updateConditions expected.includes
          ((actual.bind (·.conditions)).getD ⟨none, .empty⟩))
        bypassActors := some (sanitizeBypassActors (actual.bind (·.bypassActors)))
        rules := some (updateRules expected (actualRules actual)) } := by
  unfold buildRulesetPayload
  rw [hentry]
  rfl

variable {type : String}

theorem findRule_updateRules {rules : List Rule} (hone : RemovedOnce expected rules)
    {change : Change Rule} (hmem : (type, change) ∈ rulesetChanges expected) :
    findRule (updateRules expected rules) type = change.result (findRule rules type) := by
  rw [findRule, updateRules_eq]
  exact find?_applyAll (keeps_rulesetChanges expected) (nodup_rulesetChanges expected) hmem
    (hone _ hmem)

theorem compareText_payload (id what : String) {expected found : Option String} {fallback : String}
    (hagrees : TextAgrees expected found) :
    compareText id what expected (some ((found.or expected).getD fallback)) = [] := by
  unfold compareText
  split
  · rfl
  · rfl
  · next text hne =>
    refine if_pos ?_
    cases found with
    | none => rfl
    | some actual =>
      have := hagrees text rfl (fun hempty => hne (by rw [hempty])) actual rfl
      rw [this]
      rfl

/-- **No difference.** -/
theorem compareRuleset_payload (id : String)
    (hentry : normalizeRulesetExpectation entry = (.present, expected))
    (hone : RemovedOnce expected (actualRules actual)) (happ : Applicable expected actual) :
    compareRuleset id entry (some (buildRulesetPayload entry actual)) = [] := by
  have hfind : ∀ kc ∈ rulesetChanges expected,
      findRule (updateRules expected (actualRules actual)) kc.1 =
        kc.2.result (findRule (actualRules actual) kc.1) :=
    fun kc hmem => findRule_updateRules hone hmem
  simp only [rulesetChanges, List.forall_mem_cons, List.not_mem_nil, false_implies, implies_true,
    and_true] at hfind
  obtain ⟨hqueue, hlinear, hstatus, hpull, hquality, hscanning, hcopilot⟩ := hfind
  rw [buildRulesetPayload_present hentry, compareRuleset_present id hentry,
    comparePresentRuleset_eq_nil]
  refine ⟨compareText_payload id "name" happ.name, compareText_payload id "target" happ.target,
    fun refs hrefs => ?_, fun hexp => ?_, ?_, ?_, ?_, ?_, ?_, ?_⟩
  · rw [hrefs]
    exact setDiffs_self _ _
  · exact (congrArg Option.isSome hlinear).trans (by rw [linearHistoryChange, if_pos hexp]; rfl)
  · exact (congrArg _ hqueue).trans (compareMergeQueue_result _ happ.mergeQueue)
  · exact (congrArg _ hstatus).trans (compareRulesetStatusChecks_result _ happ.statusChecks)
  · exact (congrArg _ hpull).trans (comparePullRequestRule_result _ happ.pullRequest)
  · exact (congrArg _ hquality).trans (compareOptionalParameterizedRule_result _ _ _)
  · exact (congrArg _ hscanning).trans (compareOptionalParameterizedRule_result _ _ _)
  · exact (congrArg _ hcopilot).trans (compareOptionalParameterizedRule_result _ _ _)

theorem sanitizeBypassActors_idem (actors : Option (List BypassActor)) :
    sanitizeBypassActors (some (sanitizeBypassActors actors)) = sanitizeBypassActors actors := by
  simp [sanitizeBypassActors]

theorem updateConditions_idem (includes : Option (List String)) (conditions : Conditions) :
    updateConditions includes (updateConditions includes conditions) =
      updateConditions includes conditions := by
  cases includes <;> rfl

/-- **A fixed point.** -/
theorem buildRulesetPayload_idem
    (hentry : normalizeRulesetExpectation entry = (.present, expected))
    (hone : RemovedOnce expected (actualRules actual)) :
    buildRulesetPayload entry (some (buildRulesetPayload entry actual)) =
      buildRulesetPayload entry actual := by
  have hrules : updateRules expected (updateRules expected (actualRules actual)) =
      updateRules expected (actualRules actual) := by
    rw [updateRules_eq, updateRules_eq]
    exact applyAll_idem (keeps_rulesetChanges expected) (nodup_rulesetChanges expected) hone
      fun kc hkc => (regular_rulesetChanges expected kc hkc).2 _
  rw [buildRulesetPayload_present hentry actual, buildRulesetPayload_present hentry (some _)]
  simp only [Option.bind_some, Option.some_or, Option.getD_some, actualRules, updateConditions_idem,
    sanitizeBypassActors_idem]
  exact congrArg (fun rules => Ruleset.mk _ _ _ _ _ (some rules)) hrules

theorem ignored_of_not_mentioned (hnot : type ∉ mentioned expected)
    (hqueue : type ≠ "merge_queue") (hlinear : type ≠ "required_linear_history") :
    ∀ kc ∈ rulesetChanges expected, kc.1 = type → kc.2 = .ignore := by
  have hoptional : ∀ (type : String) (value : Option Json), value = none →
      optionalChange type value = .ignore := by
    rintro type _ rfl
    rfl
  simp only [rulesetChanges, List.forall_mem_cons, List.not_mem_nil, false_implies, implies_true,
    and_true]
  simp only [mentioned, List.mem_append, not_or] at hnot
  obtain ⟨⟨⟨⟨⟨⟨-, -⟩, hstatus⟩, hpull⟩, hquality⟩, hscanning⟩, hcopilot⟩ := hnot
  refine ⟨fun h => absurd h.symm hqueue, fun h => absurd h.symm hlinear, ?_, ?_, ?_, ?_, ?_⟩
  · rintro rfl
    cases hs : expected.requiredStatusChecks with
    | none => rfl
    | some checks => simp [hs] at hstatus
  · rintro rfl
    cases hs : expected.pullRequest with
    | none => rfl
    | some parameters => simp [hs] at hpull
  all_goals
    rintro rfl
    refine hoptional _ _ (Option.not_isSome_iff_eq_none.mp fun hs => ?_)
    simp_all

/-- **Frame.** -/
theorem filter_rules_payload (hentry : normalizeRulesetExpectation entry = (.present, expected))
    (hnot : type ∉ mentioned expected) (hqueue : type ≠ "merge_queue")
    (hlinear : type ≠ "required_linear_history") :
    (buildRulesetPayload entry actual).ruleList.filter (·.type = type) =
      (actualRules actual).filter (·.type = type) := by
  rw [buildRulesetPayload_present hentry]
  change (updateRules expected (actualRules actual)).filter _ = _
  rw [updateRules_eq]
  exact filter_applyAll_of_ignored (keeps_rulesetChanges expected)
    (ignored_of_not_mentioned hnot hqueue hlinear)

end Payload

/-- **Applying an expectation converges**, as far as the comparison looks at what the builder
sets, and keeps the rules that are not mentioned, `merge_queue` and
`required_linear_history` apart. -/
theorem rulesetPayload_converges (id : String) (entry : RulesetEntry)
    (expected : RulesetExpectation) (actual : Option Ruleset)
    (hentry : normalizeRulesetExpectation entry = (.present, expected)) :
    (RemovedOnce expected (actualRules actual) → Applicable expected actual →
      compareRuleset id entry (some (buildRulesetPayload entry actual)) = []) ∧
    (RemovedOnce expected (actualRules actual) →
      buildRulesetPayload entry (some (buildRulesetPayload entry actual)) =
        buildRulesetPayload entry actual) ∧
    (∀ type, type ∉ mentioned expected → type ≠ "merge_queue" →
      type ≠ "required_linear_history" →
        (buildRulesetPayload entry actual).ruleList.filter (·.type = type) =
          (actualRules actual).filter (·.type = type)) :=
  ⟨compareRuleset_payload id hentry, buildRulesetPayload_idem hentry,
    fun _ => filter_rules_payload hentry⟩

/-! ### Two rulesets -/

def namedRuleset (name : String) (rules : List Rule) : Ruleset :=
  ⟨some name, some "branch", some "active", none, none, some rules⟩

def namedExpectation (name : String) : RulesetExpectation :=
  { RulesetExpectation.empty with
    name := some name
    pullRequest := some (.ofList [("required_approving_review_count", .num 0)]) }

/-- The claim of a fixed point and a frame fails: a rule that is not mentioned is removed, a
name that differs stays as it is, and so does a parameter that the builder does not know. -/
theorem not_rulesetPayload_converges :
    (buildRulesetPayload (.object none .empty)
      (some (namedRuleset "main" [⟨"required_linear_history", none⟩]))).ruleList = [] ∧
    compareRuleset "1" (.object none (namedExpectation "main"))
      (some (buildRulesetPayload (.object none (namedExpectation "main"))
        (some (namedRuleset "old" [])))) =
      ["ruleset 1: name mismatch (expected main, actual old)"] ∧
    compareRuleset "1"
      (.object none { RulesetExpectation.empty with
        pullRequest := some (.ofList [("automatic_copilot_code_review_enabled", .bool true)]) })
      (some (buildRulesetPayload
        (.object none { RulesetExpectation.empty with
          pullRequest := some (.ofList [("automatic_copilot_code_review_enabled", .bool true)]) })
        none)) =
      ["pull_request.automatic_copilot_code_review_enabled: expected true, actual undefined"] :=
  ⟨by decide, by decide, by decide⟩

/-- A ruleset with the expected name, and the pull request rule to be added. -/
theorem rulesetPayload_converges_named :
    compareRuleset "1" (.object none (namedExpectation "main"))
      (some (buildRulesetPayload (.object none (namedExpectation "main"))
        (some (namedRuleset "main" [⟨"deletion", none⟩])))) = [] := by
  refine (rulesetPayload_converges "1" _ (namedExpectation "main")
    (some (namedRuleset "main" [⟨"deletion", none⟩])) rfl).1 ?_ ?_
  · exact fun kc _ _ => List.length_filter_le _ _
  · exact {
      name := fun text htext _ found hfound =>
        (Option.some.inj hfound).symm.trans (Option.some.inj htext)
      target := fun text h => nomatch h
      mergeQueue := fun queue h => nomatch h
      statusChecks := List.not_mem_nil
      pullRequest := fun parameters hp kv hkv => by
        obtain rfl := Option.some.inj hp
        obtain rfl : kv = ("required_approving_review_count", .num 0) := List.mem_singleton.mp hkv
        exact ⟨trivial, .inl List.mem_cons_self⟩ }

end CompareVI.Policy
