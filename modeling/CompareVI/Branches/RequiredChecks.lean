import CompareVI.Branches.Pattern

/-!
# The checks a branch requires

The policy guard and the approval broker read the required checks of a branch from one policy, each
by rules of its own. The guard takes the entry under the branch's own name, or else the first whose
pattern matches, with `*` for any text; where it lists nothing, the class of the branch says what
is required. The broker takes the first entry that matches, in lower case and with `/*` at the end
as the only wildcard, and knows no classes.

Whatever the lists hold, both come to the same checks when the two rules find the same entry and
the class has none (`sameChecks_iff`).
-/

open Framework

namespace CompareVI.RequiredChecks

open Branches (Text Casing)

/-- The branch policy, the properties in the order of `Object.entries`. What is missing is the
empty object. -/
structure BranchPolicy where
  branches : JsObject
  branchClassBindings : JsObject
  branchClassRequiredChecks : JsObject

/-! ### The policy guard -/

def normalizeCheckList : Option Json → List String
  | some (.arr value) =>
    ((value.map fun entry => JsString.trim (Json.stringOrEmpty (some entry))).filter
      (· ≠ "")).eraseDups
  | _ => []

def escapeRegex (value : Text) : Text :=
  value.flatMap fun c => if "|\\{}()[]^$+?.*".toList.contains c then ['\\', c] else [c]

/-- A regular expression without the `i` flag. -/
def exactCase (env : Casing) : Casing where
  toLowerCase := env.toLowerCase
  toLowerCase_not_upper := env.toLowerCase_not_upper
  canonicalize := id
  canonicalize_ascii _ _ _ h := congrArg Char.toLower h

def matchesBranchPattern (env : Casing) (pattern branchName : String) : Bool :=
  if pattern = branchName then true
  else
    let body := replaceAll ['\\', '*'] ".*".toList (escapeRegex pattern.toList)
    (Branches.readSource (exactCase env) ('^' :: (body ++ ['$']))).any fun r =>
      r.test branchName.toList

def resolvePatternValue (env : Casing) (mapping : JsObject) : Json → Option Json
  | .str key =>
    if JsString.trim key = "" then none
    else if mapping.has key then mapping.get? key
    else (mapping.fields.find? fun field =>
      field.1 = key || matchesBranchPattern env field.1 key).map Prod.snd
  | _ => none

/-- The class that the bindings name and the one that the caller prefers must not contradict each
other. -/
def resolveProjectedBranchClassId (env : Casing) (branchPolicy : BranchPolicy)
    (branchName : String) (preferredBranchClassId : Option String) :
    Except String (Option Json) :=
  let preferred := preferredBranchClassId.map Json.str
  let mapped := resolvePatternValue env branchPolicy.branchClassBindings (.str branchName)
  if Json.truthy preferred && Json.truthy mapped && preferred ≠ mapped then
    .error ("Branch '" ++ branchName ++ "' declares branch_class_id '" ++
      Json.stringOrEmpty preferred ++ "' but branch-required-checks maps it to '" ++
      Json.stringOrEmpty mapped ++ "'.")
  else .ok (preferred.or mapped)

def classChecks (env : Casing) (branchPolicy : BranchPolicy) (branchClassId : Option Json) :
    List String :=
  if Json.truthy branchClassId then
    normalizeCheckList
      (branchClassId.bind (resolvePatternValue env branchPolicy.branchClassRequiredChecks))
  else []

def resolveProjectedRequiredStatusChecks (env : Casing) (branchPolicy : BranchPolicy)
    (branchName : String) (preferredBranchClassId : Option String) :
    Except String (List String) :=
  let explicitChecks :=
    normalizeCheckList (resolvePatternValue env branchPolicy.branches (.str branchName))
  if explicitChecks ≠ [] then .ok explicitChecks
  else
    (resolveProjectedBranchClassId env branchPolicy branchName preferredBranchClassId).map
      (classChecks env branchPolicy)

/-! ### The approval broker -/

/-- Without blanks around it, in lower case, and without `refs/heads/`. -/
def normalizeBaseRef (env : Casing) (value : Text) : Text := Branches.normalizeBranchName env value

def matchBranchPattern (env : Casing) (pattern : String) (baseRef : Text) : Bool :=
  let normalizedPattern := normalizeBaseRef env pattern.toList
  let normalizedBaseRef := normalizeBaseRef env baseRef
  if normalizedPattern = [] ∨ normalizedBaseRef = [] then false
  else if '*' ∉ normalizedPattern then normalizedPattern = normalizedBaseRef
  else if ['/', '*'] <:+ normalizedPattern then normalizedPattern.dropLast <+: normalizedBaseRef
  else false

def uniqueTexts : Option Json → List String
  | some (.arr values) => (values.filterMap fun entry => Json.optionText (some entry)).eraseDups
  | _ => []

def resolveRequiredChecks (env : Casing) (branchPolicy : BranchPolicy) (baseRef : String) :
    List String :=
  let normalizedBaseRef := normalizeBaseRef env baseRef.toList
  if normalizedBaseRef = [] then []
  else
    uniqueTexts ((branchPolicy.branches.fields.find? fun field =>
      matchBranchPattern env field.1 normalizedBaseRef).map Prod.snd)

/-! ### The entries they find -/

def guardKey (env : Casing) (mapping : JsObject) (key : String) : Option String :=
  if JsString.trim key = "" then none
  else if mapping.has key then some key
  else mapping.keys.find? fun pattern => pattern = key || matchesBranchPattern env pattern key

def brokerKey (env : Casing) (mapping : JsObject) (baseRef : String) : Option String :=
  let normalizedBaseRef := normalizeBaseRef env baseRef.toList
  if normalizedBaseRef = [] then none
  else mapping.keys.find? fun pattern => matchBranchPattern env pattern normalizedBaseRef

def className : Option Json → Option String
  | some (.str classId) => if classId = "" then none else some classId
  | _ => none

def classKey (env : Casing) (branchPolicy : BranchPolicy) (branchName : String) : Option String :=
  (className ((guardKey env branchPolicy.branchClassBindings branchName).bind
    branchPolicy.branchClassBindings.get?)).bind
      (guardKey env branchPolicy.branchClassRequiredChecks)

def listed (mapping : JsObject) (key : Option String) : List String :=
  normalizeCheckList (key.bind mapping.get?)

section Keys

variable (env : Casing) (mapping : JsObject)

theorem find?_fields (accepts : String → Bool) :
    (mapping.fields.find? fun field => accepts field.1).map Prod.snd =
      (mapping.keys.find? accepts).bind mapping.get? := by
  rw [JsObject.keys, List.find?_map, Option.bind_map]
  cases h : mapping.fields.find? fun field => accepts field.1 with
  | none => exact congrArg (Option.bind · _) h.symm
  | some field =>
    have hget : mapping.get? field.1 = some field.2 :=
      JsObject.get?_eq_some_of_mem (List.mem_of_find?_eq_some h)
    calc (some field).map Prod.snd = (some field).bind (mapping.get? ∘ Prod.fst) := hget.symm
      _ = _ := congrArg (Option.bind · _) h.symm

theorem resolvePatternValue_str (key : String) :
    resolvePatternValue env mapping (.str key) = (guardKey env mapping key).bind mapping.get? := by
  rw [resolvePatternValue, guardKey]
  split
  · rfl
  · split
    · rfl
    · exact find?_fields mapping fun pattern =>
        pattern = key || matchesBranchPattern env pattern key

theorem uniqueTexts_eq (value : Option Json) : uniqueTexts value = normalizeCheckList value := by
  cases value with
  | none => rfl
  | some value =>
    cases value with
    | arr entries =>
      rw [uniqueTexts, normalizeCheckList]
      congr 1
      induction entries with
      | nil => rfl
      | cons entry entries ih =>
        rw [List.filterMap_cons, List.map_cons, List.filter_cons, ih, Json.optionText, optionalTrim]
        by_cases hblank : JsString.trim (Json.stringOrEmpty (some entry)) = ""
        · rw [if_pos hblank, if_neg (by simpa using hblank)]
        · rw [if_neg hblank, if_pos (by simpa using hblank)]
    | _ => rfl

theorem classChecks_eq (branchPolicy : BranchPolicy) (branchName : String) :
    classChecks env branchPolicy
        (resolvePatternValue env branchPolicy.branchClassBindings (.str branchName)) =
      listed branchPolicy.branchClassRequiredChecks (classKey env branchPolicy branchName) := by
  rw [classChecks, listed, classKey, resolvePatternValue_str]
  cases (guardKey env branchPolicy.branchClassBindings branchName).bind
      branchPolicy.branchClassBindings.get? with
  | none => rfl
  | some value =>
    cases value with
    | str classId =>
      by_cases hclass : classId = ""
      · subst hclass
        rfl
      · have htruthy : Json.truthy (some (.str classId)) = true := by
          simpa [Json.truthy, Json.isTruthy] using hclass
        rw [if_pos htruthy, className, if_neg hclass, Option.bind_some, Option.bind_some,
          resolvePatternValue_str]
    | _ => exact ite_self _

theorem resolveProjectedRequiredStatusChecks_none (branchPolicy : BranchPolicy)
    (branchName : String) :
    resolveProjectedRequiredStatusChecks env branchPolicy branchName none =
      .ok (if listed branchPolicy.branches (guardKey env branchPolicy.branches branchName) ≠ []
        then listed branchPolicy.branches (guardKey env branchPolicy.branches branchName)
        else listed branchPolicy.branchClassRequiredChecks
          (classKey env branchPolicy branchName)) := by
  rw [resolveProjectedRequiredStatusChecks, ← classChecks_eq, listed, ← resolvePatternValue_str]
  split
  · rfl
  · rfl

theorem resolveRequiredChecks_eq (branchPolicy : BranchPolicy) (baseRef : String) :
    resolveRequiredChecks env branchPolicy baseRef =
      listed branchPolicy.branches (brokerKey env branchPolicy.branches baseRef) := by
  rw [resolveRequiredChecks, brokerKey]
  split
  · rfl
  · rw [uniqueTexts_eq, listed, ← find?_fields]

end Keys

/-! ### When they agree -/

/-- Both come to the same checks. -/
def SameChecks (env : Casing) (branchPolicy : BranchPolicy) (branchName : String) : Prop :=
  ∃ checks, resolveProjectedRequiredStatusChecks env branchPolicy branchName none = .ok checks ∧
    ∀ check, check ∈ resolveRequiredChecks env branchPolicy branchName ↔ check ∈ checks

/-- The policies differ at most in what they list. -/
structure BranchPolicy.SameShape (p q : BranchPolicy) : Prop where
  branches : q.branches.keys = p.branches.keys
  bindings : q.branchClassBindings = p.branchClassBindings
  classes : q.branchClassRequiredChecks.keys = p.branchClassRequiredChecks.keys

/-- Both rules find the same entry, and there is none for the class of the branch. -/
structure Aligned (env : Casing) (branchPolicy : BranchPolicy) (branchName : String) : Prop where
  entry : brokerKey env branchPolicy.branches branchName =
    guardKey env branchPolicy.branches branchName
  noClass : classKey env branchPolicy branchName = none

/-- The entry that both find lists something, or the class does not either; or of two entries the
broker's happens to list what is listed in the guard's, or for the class if that lists nothing. -/
def ListsAgree (env : Casing) (branchPolicy : BranchPolicy) (branchName : String) : Prop :=
  let broker := brokerKey env branchPolicy.branches branchName
  let explicit := listed branchPolicy.branches (guardKey env branchPolicy.branches branchName)
  let ofClass := listed branchPolicy.branchClassRequiredChecks
    (classKey env branchPolicy branchName)
  if broker = guardKey env branchPolicy.branches branchName then explicit ≠ [] ∨ ofClass = []
  else
    ∀ check, check ∈ listed branchPolicy.branches broker ↔
      check ∈ explicit ∨ explicit = [] ∧ check ∈ ofClass

section Shape

variable {env : Casing} {o mapping : JsObject} {branchName : String}

variable {key pattern : String}

theorem mem_keys_of_guardKey (h : guardKey env mapping key = some pattern) :
    pattern ∈ mapping.keys := by
  rw [guardKey] at h
  split at h
  · cases h
  · split at h
    · next hhas =>
      obtain rfl := Option.some.inj h
      obtain ⟨value, hvalue⟩ := Option.isSome_iff_exists.mp hhas
      exact List.mem_map_of_mem (f := Prod.fst) (JsObject.mem_of_get? hvalue)
    · exact List.mem_of_find?_eq_some h

theorem mem_keys_of_brokerKey {baseRef : String}
    (h : brokerKey env mapping baseRef = some pattern) : pattern ∈ mapping.keys := by
  rw [brokerKey] at h
  split at h
  · cases h
  · exact List.mem_of_find?_eq_some h

theorem has_iff_mem_keys : mapping.has key = true ↔ key ∈ mapping.keys := by
  rw [JsObject.has, Option.isSome_iff_exists]
  constructor
  · rintro ⟨value, hvalue⟩
    exact List.mem_map_of_mem (f := Prod.fst) (JsObject.mem_of_get? hvalue)
  · intro hkey
    obtain ⟨⟨k, value⟩, hmem, rfl⟩ := List.mem_map.mp hkey
    exact ⟨value, JsObject.get?_eq_some_of_mem hmem⟩

theorem guardKey_congr (h : o.keys = mapping.keys) :
    guardKey env o = guardKey env mapping := by
  funext key
  have hhas : o.has key = mapping.has key := by
    rw [Bool.eq_iff_iff, has_iff_mem_keys, has_iff_mem_keys, h]
  rw [guardKey, guardKey, hhas, h]

theorem brokerKey_congr (h : o.keys = mapping.keys) :
    brokerKey env o = brokerKey env mapping := by
  funext baseRef
  rw [brokerKey, brokerKey, h]

theorem BranchPolicy.SameShape.classKey_eq {p q : BranchPolicy} (h : p.SameShape q) :
    classKey env q branchName = classKey env p branchName := by
  rw [classKey, classKey, h.bindings, guardKey_congr h.classes]

def only (mapping : JsObject) (key : Option String) : JsObject where
  fields := mapping.keys.map fun k => (k, .arr (if some k = key then [.str "check"] else []))
  nodup := by
    rw [List.map_map]
    exact (List.map_id mapping.keys).symm ▸ mapping.nodup

theorem keys_only (key : Option String) : (only mapping key).keys = mapping.keys := by
  rw [JsObject.keys, only, List.map_map]
  exact List.map_id _

/-- What stands under the key that is found, if the check is under `key`. -/
def oneCheck (key found : Option String) : List String :=
  if found = none ∨ found ≠ key then [] else ["check"]

theorem listed_only {found : Option String} (hfound : ∀ k, found = some k → k ∈ mapping.keys)
    (key : Option String) :
    listed (only mapping key) found = oneCheck key found := by
  rw [oneCheck]
  cases found with
  | none => rfl
  | some k =>
    have hmem : (k, Json.arr (if some k = key then [.str "check"] else [])) ∈
        (only mapping key).fields :=
      List.mem_map_of_mem (f := fun k =>
        (k, Json.arr (if some k = key then [.str "check"] else []))) (hfound k rfl)
    rw [listed, Option.bind_some, JsObject.get?_eq_some_of_mem hmem]
    by_cases hkey : some k = key
    · rw [if_pos hkey, if_neg (not_or.mpr ⟨Option.some_ne_none k, not_not.mpr hkey⟩)]
      decide +kernel
    · rw [if_neg hkey, if_pos (.inr hkey)]
      rfl

end Shape

section Agreement

variable (env : Casing) (p : BranchPolicy) (branchName : String)

theorem sameChecks_iff_listed :
    SameChecks env p branchName ↔
      ∀ check, check ∈ listed p.branches (brokerKey env p.branches branchName) ↔
        check ∈ (if listed p.branches (guardKey env p.branches branchName) ≠ []
          then listed p.branches (guardKey env p.branches branchName)
          else listed p.branchClassRequiredChecks (classKey env p branchName)) := by
  rw [SameChecks, resolveProjectedRequiredStatusChecks_none, resolveRequiredChecks_eq]
  constructor
  · rintro ⟨checks, hchecks, hsame⟩
    rwa [← Except.ok.inj hchecks] at hsame
  · exact fun hsame => ⟨_, rfl, hsame⟩

theorem sameChecks_iff_listsAgree :
    SameChecks env p branchName ↔ ListsAgree env p branchName := by
  rw [sameChecks_iff_listed, ListsAgree]
  by_cases hentry : brokerKey env p.branches branchName = guardKey env p.branches branchName
  · rw [if_pos hentry, hentry]
    by_cases hblank : listed p.branches (guardKey env p.branches branchName) = []
    · rw [if_neg (not_not.mpr hblank), hblank, List.eq_nil_iff_forall_not_mem]
      simp
    · rw [if_pos hblank]
      exact ⟨fun _ => .inl hblank, fun _ _ => Iff.rfl⟩
  · rw [if_neg hentry]
    by_cases hblank : listed p.branches (guardKey env p.branches branchName) = []
    · rw [if_neg (not_not.mpr hblank), hblank]
      simp
    · rw [if_pos hblank]
      simp [hblank]

/-- One check under the key `entry` of the branches, and one under the key `ofClass` of the
classes. -/
def probe (entry ofClass : Option String) : BranchPolicy where
  branches := only p.branches entry
  branchClassBindings := p.branchClassBindings
  branchClassRequiredChecks := only p.branchClassRequiredChecks ofClass

theorem sameShape_probe (entry ofClass : Option String) : p.SameShape (probe p entry ofClass) where
  branches := keys_only entry
  bindings := rfl
  classes := keys_only ofClass

theorem mem_keys_of_classKey {key : String} (h : classKey env p branchName = some key) :
    key ∈ p.branchClassRequiredChecks.keys := by
  obtain ⟨classId, -, hkey⟩ := Option.bind_eq_some_iff.mp h
  exact mem_keys_of_guardKey hkey

theorem sameChecks_probe (entry ofClass : Option String) :
    SameChecks env (probe p entry ofClass) branchName ↔
      ∀ check, check ∈ oneCheck entry (brokerKey env p.branches branchName) ↔
        check ∈ (if oneCheck entry (guardKey env p.branches branchName) ≠ []
          then oneCheck entry (guardKey env p.branches branchName)
          else oneCheck ofClass (classKey env p branchName)) := by
  rw [sameChecks_iff_listed, (sameShape_probe p entry ofClass).classKey_eq]
  rw [probe, guardKey_congr (keys_only entry), brokerKey_congr (keys_only entry)]
  rw [listed_only fun _ => mem_keys_of_guardKey, listed_only fun _ => mem_keys_of_brokerKey,
    listed_only fun _ => mem_keys_of_classKey env p branchName]

theorem aligned_of_probes
    (h : ∀ entry ofClass, SameChecks env (probe p entry ofClass) branchName) :
    Aligned env p branchName where
  entry := by
    by_contra hne
    cases hguard : guardKey env p.branches branchName with
    | some pattern =>
      have hprobe := (sameChecks_probe env p branchName (some pattern) none).mp (h _ _) "check"
      rw [hguard] at hprobe hne
      simp [oneCheck, hne] at hprobe
    | none =>
      rw [hguard] at hne
      have hprobe := (sameChecks_probe env p branchName
        (brokerKey env p.branches branchName) none).mp (h _ _) "check"
      rw [hguard] at hprobe
      simp [oneCheck, hne] at hprobe
  noClass := by
    by_contra hsome
    have hprobe := (sameChecks_probe env p branchName none
      (classKey env p branchName)).mp (h _ _) "check"
    simp [oneCheck, hsome] at hprobe

theorem sameChecks_iff :
    (SameChecks env p branchName ↔ ListsAgree env p branchName) ∧
      ((∀ q, p.SameShape q → SameChecks env q branchName) ↔ Aligned env p branchName) := by
  refine ⟨sameChecks_iff_listsAgree env p branchName, fun h => ?_, fun haligned q hshape => ?_⟩
  · exact aligned_of_probes env p branchName fun entry ofClass =>
      h _ (sameShape_probe p entry ofClass)
  · rw [sameChecks_iff_listed, hshape.classKey_eq, haligned.noClass,
      guardKey_congr hshape.branches, brokerKey_congr hshape.branches, haligned.entry]
    intro check
    split
    · rfl
    · next hblank => rw [not_not.mp hblank]; rfl

end Agreement

def hotfixPolicy : BranchPolicy where
  branches := JsObject.ofList [("hotfix-*", .arr [.str "lint"])]
  branchClassBindings := .empty
  branchClassRequiredChecks := .empty

/-- The guard requires `lint`, the broker nothing. -/
theorem not_sameChecks_hotfix : ¬ SameChecks Branches.greekCasing hotfixPolicy "hotfix-1" := by
  have hbroker : resolveRequiredChecks Branches.greekCasing hotfixPolicy "hotfix-1" = [] := by
    decide +kernel
  have hguard : resolveProjectedRequiredStatusChecks Branches.greekCasing hotfixPolicy "hotfix-1"
      none = .ok ["lint"] := by
    decide +kernel
  rintro ⟨checks, hchecks, hsame⟩
  rw [hguard] at hchecks
  obtain rfl := Except.ok.inj hchecks
  rw [hbroker] at hsame
  exact List.not_mem_nil ((hsame "lint").mpr List.mem_cons_self)

end CompareVI.RequiredChecks
