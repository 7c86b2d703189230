import CompareVI.Framework.JsString

/-!
# Branch protection

The manifest may give any part of a branch's protection. `compareBranchSettings` lists
the differences of the actual protection, and `buildBranchProtectionPayload` completes
the expectation with what is there, since GitHub replaces the whole protection.

GitHub returns protection in another shape than it takes: flags are wrapped, and checks
are listed twice. `storeProtection` is what the tests take it to do.

Applying an expectation converges and keeps what is not mentioned, but for one setting:
where the required checks are not mentioned, the payload has none
(`applied_iff_checksMentioned`).
-/

open Framework

namespace CompareVI.Policy

/-! ### Settings -/

/-- `BRANCH_PROTECTION_BOOLEAN_SETTINGS`. -/
inductive FlagSetting where
  | enforceAdmins
  | requiredLinearHistory
  | allowForcePushes
  | allowDeletions
  | blockCreations
  | requiredConversationResolution
  | lockBranch
  | allowForkSyncing
  deriving DecidableEq, Repr

/-- `BRANCH_PROTECTION_NULLABLE_SETTINGS`. -/
inductive NullableSetting where
  | requiredPullRequestReviews
  | restrictions
  deriving DecidableEq, Repr

def FlagSetting.text : FlagSetting → String
  | .enforceAdmins => "enforce_admins"
  | .requiredLinearHistory => "required_linear_history"
  | .allowForcePushes => "allow_force_pushes"
  | .allowDeletions => "allow_deletions"
  | .blockCreations => "block_creations"
  | .requiredConversationResolution => "required_conversation_resolution"
  | .lockBranch => "lock_branch"
  | .allowForkSyncing => "allow_fork_syncing"

def NullableSetting.text : NullableSetting → String
  | .requiredPullRequestReviews => "required_pull_request_reviews"
  | .restrictions => "restrictions"

def flagSettings : List FlagSetting :=
  [.enforceAdmins, .requiredLinearHistory, .allowForcePushes, .allowDeletions, .blockCreations,
    .requiredConversationResolution, .lockBranch, .allowForkSyncing]

def nullableSettings : List NullableSetting := [.requiredPullRequestReviews, .restrictions]

/-- What the manifest expects of a branch; `none` for a setting that is not mentioned. -/
structure BranchExpectation where
  requiredStatusChecksStrict : Option Json
  requiredStatusChecks : Option (List String)
  flag : FlagSetting → Option Json
  nullable : NullableSetting → Option Json

/-- `required_status_checks` as GitHub returns it; `checks` has the context of each check. -/
structure StatusChecks where
  strict : Option Bool
  contexts : Option (List String)
  checks : Option (List (Option String))
  deriving DecidableEq, Repr

structure Protection where
  requiredStatusChecks : Option StatusChecks
  flag : FlagSetting → Option Json
  nullable : NullableSetting → Option Json

structure ProtectionPayload where
  strict : Bool
  contexts : List String
  flag : FlagSetting → Bool
  nullable : NullableSetting → Json

/-! ### Reading a protection -/

def resolveEnabledFlag (value : Option Json) (fallback : Bool) : Bool :=
  match value with
  | some (.bool b) => b
  | some value =>
    match value.get? "enabled" with
    | some (.bool b) => b
    | _ => fallback
  | none => fallback

def normalizeNullableSetting (value : Option Json) : Json := value.getD .null

def normalizeActualRequiredStatusChecks (actual : Option Protection) : List String :=
  let checks := actual.bind (·.requiredStatusChecks)
  let explicitChecks := ((checks.bind (·.checks)).getD []).filterMap fun context =>
    context.filter (· ≠ "")
  if explicitChecks.isEmpty then ((checks.bind (·.contexts)).getD []).filter (· ≠ "")
  else explicitChecks

/-- `actual?.required_status_checks?.strict ?? true`. -/
def actualStrict (actual : Option Protection) : Bool :=
  ((actual.bind (·.requiredStatusChecks)).bind (·.strict)).getD true

/-! ### The comparison -/

def boolText (b : Bool) : String := if b then "true" else "false"

def compareBranchBooleanSetting (branch : String) (expected : BranchExpectation)
    (actual : Protection) (setting : FlagSetting) : List String :=
  match expected.flag setting with
  | none => []
  | some expectedValue =>
    let normalizedExpected := expectedValue.isTruthy
    let normalizedActual := resolveEnabledFlag (actual.flag setting) false
    if normalizedExpected = normalizedActual then []
    else ["branch " ++ branch ++ ": " ++ setting.text ++ " expected " ++
      boolText normalizedExpected ++ ", actual " ++ boolText normalizedActual]

/-- `stringifyForDiff` on a value that is there. -/
def settingText : Json → String
  | .arr xs => Json.stringify (.arr xs)
  | .obj fields => Json.stringify (.obj fields)
  | value => value.toJsString

def compareBranchNullableSetting (branch : String) (expected : BranchExpectation)
    (actual : Protection) (setting : NullableSetting) : List String :=
  match expected.nullable setting with
  | none => []
  | some expectedValue =>
    let actualValue := normalizeNullableSetting (actual.nullable setting)
    if expectedValue = .null then
      if actualValue = .null then []
      else ["branch " ++ branch ++ ": " ++ setting.text ++ " expected null, actual " ++
        settingText actualValue]
    else if actualValue = .null then
      ["branch " ++ branch ++ ": " ++ setting.text ++ " expected " ++
        settingText expectedValue ++ ", actual null"]
    else if expectedValue = actualValue then []
    else ["branch " ++ branch ++ ": " ++ setting.text ++ " mismatch (expected " ++
      expectedValue.stringify ++ ", actual " ++ actualValue.stringify ++ ")"]

/-- The order of `Array.prototype.sort` on texts. -/
def sortTexts (texts : List String) : List String := texts.mergeSort fun a b => a ≤ b

def compareChecks (branch : String) (expected actual : List String) : List String :=
  let normalizedExpected := sortTexts expected.eraseDups
  let normalizedActual := sortTexts actual.eraseDups
  let missing := normalizedExpected.filter (· ∉ normalizedActual)
  let extra := normalizedActual.filter (· ∉ normalizedExpected)
  if missing.isEmpty && extra.isEmpty then []
  else
    let parts :=
      (if missing.isEmpty then [] else ["missing [" ++ JsString.join ", " missing ++ "]"]) ++
      (if extra.isEmpty then [] else ["unexpected [" ++ JsString.join ", " extra ++ "]"])
    ["branch " ++ branch ++ ": required_status_checks mismatch (" ++ JsString.join "; " parts ++
      ")"]

def compareStrict (branch : String) (expected : Json) (actual : Option Protection) :
    List String :=
  if actualStrict actual = expected.isTruthy then []
  else ["branch " ++ branch ++ ": required_status_checks.strict expected " ++
    boolText expected.isTruthy ++ ", actual " ++ boolText (actualStrict actual)]

def compareBranchSettings (branch : String) (expected : BranchExpectation)
    (actual : Option Protection) (skipRequiredStatusChecks : Bool) : List String :=
  match actual with
  | none => ["branch " ++ branch ++ ": protection settings not found"]
  | some actual =>
    (if skipRequiredStatusChecks then []
      else (expected.requiredStatusChecksStrict.map (compareStrict branch · actual)).getD []) ++
    (if skipRequiredStatusChecks then []
      else (expected.requiredStatusChecks.map
        (compareChecks branch · (normalizeActualRequiredStatusChecks actual))).getD []) ++
    flagSettings.flatMap (compareBranchBooleanSetting branch expected actual) ++
    nullableSettings.flatMap (compareBranchNullableSetting branch expected actual)

/-! ### The payload -/

def buildBranchProtectionPayload (expected : BranchExpectation) (actual : Option Protection)
    (skipRequiredStatusChecks : Bool) : ProtectionPayload where
  strict :=
    if skipRequiredStatusChecks then actualStrict actual
    else (expected.requiredStatusChecksStrict.map Json.isTruthy).getD (actualStrict actual)
  contexts :=
    if skipRequiredStatusChecks then normalizeActualRequiredStatusChecks actual
    else expected.requiredStatusChecks.getD []
  flag setting := ((expected.flag setting).map Json.isTruthy).getD
    (resolveEnabledFlag (actual.bind (·.flag setting)) false)
  nullable setting := (expected.nullable setting).getD
    (normalizeNullableSetting (actual.bind (·.nullable setting)))

/-- `wrapEnabled` of the tests. -/
def wrapEnabled (enabled : Bool) : Json := .obj [("enabled", .bool enabled)]

/-- What GitHub stores and returns for a payload, as the tests have it. -/
def storeProtection (payload : ProtectionPayload) : Protection where
  requiredStatusChecks := some {
    strict := some payload.strict
    contexts := some payload.contexts
    checks := some (payload.contexts.map some) }
  flag setting := some (wrapEnabled (payload.flag setting))
  nullable setting := some (payload.nullable setting)

/-! ### Applying -/

/-- The expectation is met, and what it does not mention is as before. -/
structure Applied (branch : String) (expected : BranchExpectation) (actual : Option Protection)
    (skip : Bool) (result : Protection) : Prop where
  noDifference : compareBranchSettings branch expected (some result) skip = []
  flag : ∀ setting, expected.flag setting = none →
    resolveEnabledFlag (result.flag setting) false =
      resolveEnabledFlag (actual.bind (·.flag setting)) false
  nullable : ∀ setting, expected.nullable setting = none →
    normalizeNullableSetting (result.nullable setting) =
      normalizeNullableSetting (actual.bind (·.nullable setting))
  strict : expected.requiredStatusChecksStrict = none →
    actualStrict (some result) = actualStrict actual
  checks : expected.requiredStatusChecks = none →
    ∀ context, context ∈ normalizeActualRequiredStatusChecks (some result) ↔
      context ∈ normalizeActualRequiredStatusChecks actual

/-- The required checks are mentioned, and have contexts, or there are none, or they are left
to the queue. -/
def ChecksMentioned (expected : BranchExpectation) (actual : Option Protection) (skip : Bool) :
    Prop :=
  skip ∨ match expected.requiredStatusChecks with
    | none => normalizeActualRequiredStatusChecks actual = []
    | some checks => "" ∉ checks

section Stored

variable {payload : ProtectionPayload}

theorem normalizeActual_storeProtection :
    normalizeActualRequiredStatusChecks (some (storeProtection payload)) =
      payload.contexts.filter (· ≠ "") := by
  have hchecks : (payload.contexts.map some).filterMap (fun context => context.filter (· ≠ "")) =
      payload.contexts.filter (· ≠ "") := by
    rw [List.filterMap_map]
    induction payload.contexts with
    | nil => rfl
    | cons context contexts ih =>
      by_cases hne : context = ""
      · rw [List.filter_cons_of_neg (by simpa using hne), ← ih, List.filterMap_cons_none]
        simp [hne]
      · rw [List.filter_cons_of_pos (by simpa using hne), ← ih, List.filterMap_cons_some]
        simp [Option.filter, hne]
  simp only [normalizeActualRequiredStatusChecks, storeProtection, Option.bind_some,
    Option.getD_some, hchecks]
  split <;> rfl

@[simp] theorem actualStrict_storeProtection :
    actualStrict (some (storeProtection payload)) = payload.strict := rfl

@[simp] theorem resolveEnabledFlag_storeProtection (setting : FlagSetting) :
    resolveEnabledFlag ((storeProtection payload).flag setting) false = payload.flag setting := rfl

@[simp] theorem normalizeNullable_storeProtection (setting : NullableSetting) :
    normalizeNullableSetting ((storeProtection payload).nullable setting) =
      payload.nullable setting := rfl

end Stored

section Applying

variable {branch : String} {expected : BranchExpectation} {actual : Option Protection} {skip : Bool}

theorem mem_sortTexts {texts : List String} {text : String} :
    text ∈ sortTexts texts.eraseDups ↔ text ∈ texts := by
  rw [sortTexts, List.mem_mergeSort, List.mem_eraseDups]

theorem compareChecks_eq_nil {expected actual : List String} :
    compareChecks branch expected actual = [] ↔
      ∀ context, context ∈ expected ↔ context ∈ actual := by
  have hfilter : ∀ xs ys : List String, (sortTexts xs.eraseDups).filter
      (· ∉ sortTexts ys.eraseDups) = [] ↔ ∀ context ∈ xs, context ∈ ys := by
    intro xs ys
    simp only [List.filter_eq_nil_iff, mem_sortTexts, decide_not, Bool.not_eq_true',
      decide_eq_false_iff_not, not_not]
  have hnil : compareChecks branch expected actual = [] ↔
      (sortTexts expected.eraseDups).filter (· ∉ sortTexts actual.eraseDups) = [] ∧
        (sortTexts actual.eraseDups).filter (· ∉ sortTexts expected.eraseDups) = [] := by
    unfold compareChecks
    dsimp only
    cases (sortTexts expected.eraseDups).filter (· ∉ sortTexts actual.eraseDups) <;>
      cases (sortTexts actual.eraseDups).filter (· ∉ sortTexts expected.eraseDups) <;> simp
  rw [hnil, hfilter, hfilter]
  exact ⟨fun h x => ⟨h.1 x, h.2 x⟩, fun h => ⟨fun x => (h x).mp, fun x => (h x).mpr⟩⟩

theorem empty_not_mem_normalizeActual (actual : Option Protection) :
    "" ∉ normalizeActualRequiredStatusChecks actual := by
  unfold normalizeActualRequiredStatusChecks
  dsimp only
  split
  · simp
  · intro hmem
    obtain ⟨context, -, hcontext⟩ := List.mem_filterMap.mp hmem
    have := (Option.filter_eq_some_iff.mp hcontext).2
    simp at this

theorem compareBranchSettings_eq_nil {actual : Protection} :
    compareBranchSettings branch expected (some actual) skip = [] ↔
      (skip = false → ∀ value, expected.requiredStatusChecksStrict = some value →
        compareStrict branch value (some actual) = []) ∧
      (skip = false → ∀ checks, expected.requiredStatusChecks = some checks →
        compareChecks branch checks (normalizeActualRequiredStatusChecks (some actual)) = []) ∧
      (∀ setting, compareBranchBooleanSetting branch expected actual setting = []) ∧
      (∀ setting, compareBranchNullableSetting branch expected actual setting = []) := by
  have hflags : (∀ setting ∈ flagSettings,
      compareBranchBooleanSetting branch expected actual setting = []) ↔
        ∀ setting, compareBranchBooleanSetting branch expected actual setting = [] :=
    ⟨fun h setting => h setting (by cases setting <;> decide), fun h setting _ => h setting⟩
  have hnullables : (∀ setting ∈ nullableSettings,
      compareBranchNullableSetting branch expected actual setting = []) ↔
        ∀ setting, compareBranchNullableSetting branch expected actual setting = [] :=
    ⟨fun h setting => h setting (by cases setting <;> decide), fun h setting _ => h setting⟩
  simp only [compareBranchSettings, List.append_eq_nil_iff, List.flatMap_eq_nil_iff, hflags,
    hnullables, and_assoc]
  cases skip with
  | true => simp
  | false =>
    cases expected.requiredStatusChecksStrict <;> cases expected.requiredStatusChecks <;> simp

theorem flag_payload (setting : FlagSetting) :
    (buildBranchProtectionPayload expected actual skip).flag setting =
      ((expected.flag setting).map Json.isTruthy).getD
        (resolveEnabledFlag (actual.bind (·.flag setting)) false) := rfl

theorem nullable_payload (setting : NullableSetting) :
    (buildBranchProtectionPayload expected actual skip).nullable setting =
      (expected.nullable setting).getD
        (normalizeNullableSetting (actual.bind (·.nullable setting))) := rfl

theorem compareBranchBooleanSetting_stored (setting : FlagSetting) :
    compareBranchBooleanSetting branch expected
      (storeProtection (buildBranchProtectionPayload expected actual skip)) setting = [] := by
  unfold compareBranchBooleanSetting
  cases hflag : expected.flag setting with
  | none => rfl
  | some value =>
    dsimp only
    rw [resolveEnabledFlag_storeProtection, flag_payload, hflag, Option.map_some, Option.getD_some,
      if_pos rfl]

theorem compareBranchNullableSetting_stored (setting : NullableSetting) :
    compareBranchNullableSetting branch expected
      (storeProtection (buildBranchProtectionPayload expected actual skip)) setting = [] := by
  unfold compareBranchNullableSetting
  cases hnullable : expected.nullable setting with
  | none => rfl
  | some value =>
    dsimp only
    rw [normalizeNullable_storeProtection, nullable_payload, hnullable, Option.getD_some]
    by_cases hnull : value = .null
    · rw [if_pos hnull, if_pos hnull]
    · rw [if_neg hnull, if_neg hnull, if_pos rfl]

theorem compareStrict_stored {value : Json}
    (hstrict : expected.requiredStatusChecksStrict = some value) :
    compareStrict branch value
      (some (storeProtection (buildBranchProtectionPayload expected actual false))) = [] := by
  rw [compareStrict, actualStrict_storeProtection, buildBranchProtectionPayload, hstrict]
  exact if_pos rfl

theorem compareChecks_stored {checks : List String}
    (hchecks : expected.requiredStatusChecks = some checks) :
    compareChecks branch checks (normalizeActualRequiredStatusChecks
      (some (storeProtection (buildBranchProtectionPayload expected actual false)))) = [] ↔
        "" ∉ checks := by
  have hcontexts : (buildBranchProtectionPayload expected actual false).contexts = checks := by
    rw [buildBranchProtectionPayload, hchecks]
    rfl
  rw [compareChecks_eq_nil, normalizeActual_storeProtection, hcontexts]
  constructor
  · intro h hmem
    simpa using (h "").mp hmem
  · intro hempty context
    refine ⟨fun hmem => List.mem_filter.mpr ⟨hmem, ?_⟩, fun hmem => (List.mem_filter.mp hmem).1⟩
    have hne : context ≠ "" := fun heq => hempty (heq ▸ hmem)
    simpa using hne

theorem checks_stored_of_none (hnone : expected.requiredStatusChecks = none) :
    (∀ context, context ∈ normalizeActualRequiredStatusChecks
      (some (storeProtection (buildBranchProtectionPayload expected actual skip))) ↔
        context ∈ normalizeActualRequiredStatusChecks actual) ↔
      (skip ∨ normalizeActualRequiredStatusChecks actual = []) := by
  rw [normalizeActual_storeProtection]
  cases skip with
  | true =>
    have hcontexts : (buildBranchProtectionPayload expected actual true).contexts =
        normalizeActualRequiredStatusChecks actual := rfl
    refine iff_of_true (fun context => ?_) (.inl rfl)
    rw [hcontexts, List.mem_filter]
    refine and_iff_left_of_imp fun hmem => ?_
    have hne : context ≠ "" := fun heq => empty_not_mem_normalizeActual actual (heq ▸ hmem)
    simpa using hne
  | false =>
    have hcontexts : (buildBranchProtectionPayload expected actual false).contexts = [] := by
      rw [buildBranchProtectionPayload, hnone]
      rfl
    rw [hcontexts, List.filter_nil]
    constructor
    · intro h
      refine .inr (List.eq_nil_iff_forall_not_mem.mpr fun context hmem => ?_)
      exact List.not_mem_nil ((h context).mpr hmem)
    · rintro (hskip | hnil) context
      · cases hskip
      · rw [hnil]

/-- **When applying a branch expectation converges and keeps the rest**: whenever the
required checks are mentioned, or there are none, or they are left to the queue. -/
theorem applied_iff_checksMentioned (branch : String) (expected : BranchExpectation)
    (actual : Option Protection) (skip : Bool) :
    Applied branch expected actual skip
        (storeProtection (buildBranchProtectionPayload expected actual skip)) ↔
      ChecksMentioned expected actual skip := by
  unfold ChecksMentioned
  constructor
  · intro h
    cases hskip : skip with
    | true => exact .inl rfl
    | false =>
      subst hskip
      cases hchecks : expected.requiredStatusChecks with
      | none =>
        obtain hfalse | hnil := (checks_stored_of_none hchecks).mp (h.checks hchecks)
        · cases hfalse
        · exact .inr hnil
      | some checks =>
        have hdiff := (compareBranchSettings_eq_nil.mp h.noDifference).2.1 rfl checks hchecks
        exact .inr ((compareChecks_stored hchecks).mp hdiff)
  · intro h
    refine ⟨compareBranchSettings_eq_nil.mpr ⟨?_, ?_, compareBranchBooleanSetting_stored,
      compareBranchNullableSetting_stored⟩, fun setting hnone => ?_, fun setting hnone => ?_,
      fun hnone => ?_, fun hnone => ?_⟩
    · rintro rfl value hvalue
      exact compareStrict_stored hvalue
    · rintro rfl checks hchecks
      rw [hchecks] at h
      obtain hfalse | hempty := h
      · cases hfalse
      · exact (compareChecks_stored hchecks).mpr hempty
    · rw [resolveEnabledFlag_storeProtection, flag_payload, hnone]
      rfl
    · rw [normalizeNullable_storeProtection, nullable_payload, hnone]
      rfl
    · rw [actualStrict_storeProtection, buildBranchProtectionPayload, hnone]
      exact ite_self _
    · rw [hnone] at h
      exact (checks_stored_of_none hnone).mpr h

end Applying

/-! ### A branch whose checks are not mentioned -/

def noForcePushes : BranchExpectation where
  requiredStatusChecksStrict := none
  requiredStatusChecks := none
  flag setting := if setting = .allowForcePushes then some (.bool false) else none
  nullable _ := none

def lintRequired : Protection where
  requiredStatusChecks := some ⟨some true, some ["lint"], some [some "lint"]⟩
  flag _ := none
  nullable _ := none

/-- The required check is dropped. -/
theorem not_applied_noForcePushes :
    ¬ Applied "develop" noForcePushes (some lintRequired) false
      (storeProtection (buildBranchProtectionPayload noForcePushes (some lintRequired) false)) := by
  intro h
  have hlint : "lint" ∈ normalizeActualRequiredStatusChecks (some lintRequired) := by decide
  exact absurd ((h.checks rfl "lint").mpr hlint) (by decide)

end CompareVI.Policy
