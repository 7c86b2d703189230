import CompareVI.Ledger.Append

/-!
# What redaction keeps

A decision that was redacted once is not changed by redacting it again, and no text in it looks
like a token. What stands under a sensitive key, and which token a text is, makes no difference
to the ledger (`SameButSecrets`).

The keys of objects are kept as they are: redaction rewrites values only. So a key that looks
like a token is in the ledger, unless it stands under a sensitive one (`ReachedKey`).
-/

open Framework
open Framework.JsValue

namespace CompareVI.Ledger

/-! ### One level of a decision -/

def redactedField (field : String × Json) : String × JsValue :=
  (field.1, if isSensitiveKey field.1 then .str "[REDACTED]" else redacted field.2)

variable {field : String × Json}

theorem redactedField_of_sensitive (h : isSensitiveKey field.1 = true) :
    redactedField field = (field.1, .str "[REDACTED]") := by
  rw [redactedField, if_pos h]

theorem redactedField_of_not (h : isSensitiveKey field.1 = false) :
    redactedField field = (field.1, redacted field.2) := by
  rw [redactedField, if_neg (Bool.eq_false_iff.mp h)]

theorem redacted_arr (entries : List Json) :
    redacted (.arr entries) = .arr (entries.map redacted) := by
  rw [redacted, ofJson, redactSensitiveFields, redactEntries_eq, ofEntries_eq, List.map_map]
  rfl

theorem redacted_str (s : String) : redacted (.str s) = .str (redactString s) := rfl

theorem redacted_obj (fields : List (String × Json)) :
    redacted (.obj fields) = objectOf (ownOrder (fields.map redactedField)) := by
  rw [redacted, ofJson, redactSensitiveFields, redactFields_eq, ofFields_eq, List.map_map]
  refine congrArg (fun assigned => objectOf (ownOrder assigned)) ?_
  refine List.map_congr_left fun field _ => ?_
  rw [Function.comp_apply, redactedField]
  cases hkey : isSensitiveKey field.1 with
  | true => rfl
  | false => exact congrArg (field.1, ·) (redact_of_context (isSensitiveContext_of_not hkey) _)

theorem keysOf_redacted (fields : List (String × Json)) :
    keysOf (fields.map redactedField) = keysOf fields := by
  rw [keysOf, List.map_map]
  rfl

def redactedFields (fields : List (String × Json)) : List (String × JsValue) :=
  ownEntries (ownOrder (fields.map redactedField))

variable {v : Json} {fields : List (String × Json)} {key : String}

theorem mem_redactedFields {entry : String × JsValue} :
    entry ∈ redactedFields fields ↔
      (∃ field ∈ fields, redactedField field = entry) ∧ entry.1 ≠ "__proto__" := by
  rw [redactedFields, ownEntries, List.mem_filter, mem_ownOrder, List.mem_map, decide_eq_true_iff]

/-- **A redacted object** has the properties of the decision, and the value of `__proto__` as its
prototype where that can be one. -/
theorem redacted_obj_cases (h : (keysOf fields).Nodup) :
    (redacted (.obj fields) = .obj (redactedFields fields) ∧
        ∀ field ∈ fields, field.1 = "__proto__" → (redacted field.2).isPrototype = false) ∨
      ∃ field ∈ fields, field.1 = "__proto__" ∧
        redacted (.obj fields) = .derived (redacted field.2) (redactedFields fields) := by
  have hkeys : (keysOf (fields.map redactedField)).Nodup := (keysOf_redacted fields).symm ▸ h
  have hnodup : (keysOf (ownOrder (fields.map redactedField))).Nodup :=
    ((ownOrder_perm _).map Prod.fst).nodup_iff.mpr hkeys
  have hproto : ∀ field : String × Json, field.1 = "__proto__" →
      redactedField field = ("__proto__", redacted field.2) := fun field hkey =>
    hkey ▸ redactedField_of_not (hkey ▸ by decide +kernel)
  rw [redacted_obj]
  rcases objectOf_spec hnodup with ⟨heq, hnone⟩ | ⟨x, hx, heq⟩
  · refine .inl ⟨heq, fun field hfield hkey => hnone _ (mem_ownOrder.mpr ?_)⟩
    exact hproto field hkey ▸ List.mem_map_of_mem hfield
  · obtain ⟨field, hfield, hentry⟩ := List.mem_map.mp (mem_ownOrder.mp hx)
    have hkey : field.1 = "__proto__" := congrArg Prod.fst hentry
    rw [hproto field hkey] at hentry
    exact .inr ⟨field, hfield, hkey, (Prod.mk.inj hentry).2 ▸ heq⟩

/-! ### Redacting again -/

theorem redactString_redactString (s : String) :
    redactString (redactString s) = redactString s := by
  cases hs : isSensitiveValue s with
  | true =>
    rw [redactString, redactString, if_pos hs]
    decide +kernel
  | false =>
    have hkept : redactString s = s := by rw [redactString, if_neg (Bool.eq_false_iff.mp hs)]
    rw [hkept, hkept]

theorem ownOrder_ownEntries (entries : List (String × JsValue)) :
    ownOrder (ownEntries (ownOrder entries)) = ownEntries (ownOrder entries) :=
  Comparison.sort_of_pairwise _ ((Comparison.sort_pairwise _ _).filter _)

theorem nodup_redactedFields (h : (keysOf fields).Nodup) :
    (keysOf (redactedFields fields)).Nodup := by
  have hkeys : (keysOf (fields.map redactedField)).Nodup := (keysOf_redacted fields).symm ▸ h
  exact (((ownOrder_perm _).map Prod.fst).nodup_iff.mpr hkeys).sublist
    (List.filter_sublist.map Prod.fst)

theorem proto_not_mem_redacted (fields : List (String × Json)) :
    "__proto__" ∉ keysOf (redactedFields fields) := by
  intro hmem
  obtain ⟨entry, hentry, hkey⟩ := List.mem_map.mp hmem
  exact (mem_redactedFields.mp hentry).2 hkey

/-- **Redacting twice is redacting once.** -/
theorem redact_redacted (h : v.Parsed) :
    redactSensitiveFields none (redacted v) = redacted v := by
  induction v using Json.induct with
  | null => rfl
  | bool b => rfl
  | num q => rfl
  | str s =>
    rw [redacted_str, redactSensitiveFields, isSensitiveContext, Option.any_none,
      if_neg Bool.false_ne_true, redactString_redactString]
  | arr entries ih =>
    have hentries : ∀ entry ∈ entries, entry.Parsed := Json.entriesIn_iff.mp h
    rw [redacted_arr, redactSensitiveFields, redactEntries_eq, List.map_map]
    refine congrArg JsValue.arr (List.map_congr_left fun entry hentry => ?_)
    exact ih entry hentry (hentries entry hentry)
  | obj fields ih =>
    have hfields : ∀ field ∈ fields, True ∧ field.2.Parsed := Json.fieldsIn_iff.mp h.2
    rcases redacted_obj_cases h.1 with ⟨heq, -⟩ | ⟨field, -, -, heq⟩
    · rw [heq, redactSensitiveFields]
      -- every property is redacted already
      have hsame : redactFields (redactedFields fields) = redactedFields fields := by
        rw [redactFields_eq]
        refine (List.map_congr_left fun entry hentry => ?_).trans (List.map_id _)
        obtain ⟨⟨field, hfield, rfl⟩, -⟩ := mem_redactedFields.mp hentry
        cases hkey : isSensitiveKey field.1 with
        | true =>
          rw [redactedField_of_sensitive hkey, hkey]
          rfl
        | false =>
          rw [redactedField_of_not hkey, hkey]
          have hcontext := redact_of_context (isSensitiveContext_of_not hkey) (redacted field.2)
          exact congrArg (field.1, ·) (hcontext.trans (ih field hfield (hfields field hfield).2))
      rw [hsame, redactedFields, ownOrder_ownEntries]
      exact objectOf_eq (nodup_redactedFields h.1) (proto_not_mem_redacted fields)
    · rw [heq]
      rfl

/-! ### Parts of a redacted decision -/

theorem isSensitiveValue_redactString (s : String) : isSensitiveValue (redactString s) = false := by
  rw [redactString]
  split
  · decide +kernel
  · next hs => exact Bool.eq_false_iff.mpr hs

/-- What stands in a redacted object is the object itself, or stands in what was assigned for one
of its properties. -/
theorem inside_redacted_obj (h : (keysOf fields).Nodup) {w : JsValue}
    (hw : Inside w (redacted (.obj fields))) :
    w = redacted (.obj fields) ∨
      ∃ field ∈ fields, w = .str "[REDACTED]" ∨
        isSensitiveKey field.1 = false ∧ Inside w (redacted field.2) := by
  have hown : ∀ entry ∈ redactedFields fields, Inside w entry.2 →
      ∃ field ∈ fields, w = .str "[REDACTED]" ∨
        isSensitiveKey field.1 = false ∧ Inside w (redacted field.2) := by
    intro entry hentry hinside
    obtain ⟨⟨field, hfield, rfl⟩, -⟩ := mem_redactedFields.mp hentry
    refine ⟨field, hfield, ?_⟩
    cases hkey : isSensitiveKey field.1 with
    | true =>
      rw [redactedField_of_sensitive hkey] at hinside
      cases hinside
      exact .inl rfl
    | false =>
      rw [redactedField_of_not hkey] at hinside
      exact .inr ⟨rfl, hinside⟩
  rcases redacted_obj_cases h with ⟨heq, -⟩ | ⟨field, hfield, hkey, heq⟩
  · rw [heq] at hw
    cases hw with
    | refl => exact .inl heq.symm
    | field hentry hinside => exact .inr (hown _ hentry hinside)
  · rw [heq] at hw
    cases hw with
    | refl => exact .inl heq.symm
    | own hentry hinside => exact .inr (hown _ hentry hinside)
    | proto hinside =>
      exact .inr ⟨field, hfield, .inr ⟨hkey ▸ by decide +kernel, hinside⟩⟩

/-- **No text in a redacted decision looks like a token.** -/
theorem text_of_redacted (h : v.Parsed) {s : String} (hs : Inside (.str s) (redacted v)) :
    isSensitiveValue s = false := by
  induction v using Json.induct with
  | null => nomatch (hs : Inside (.str s) .null)
  | bool b => nomatch (hs : Inside (.str s) (.bool b))
  | num q => nomatch (hs : Inside (.str s) (.num q))
  | str t =>
    rw [redacted_str] at hs
    cases hs
    exact isSensitiveValue_redactString t
  | arr entries ih =>
    rw [redacted_arr] at hs
    cases hs with
    | entry hx hinside =>
      obtain ⟨entry, hentry, rfl⟩ := List.mem_map.mp hx
      exact ih entry hentry (Json.entriesIn_iff.mp h entry hentry) hinside
  | obj fields ih =>
    rcases inside_redacted_obj h.1 hs with hself | ⟨field, hfield, hmark | ⟨-, hinside⟩⟩
    · rcases redacted_obj_cases h.1 with ⟨heq, -⟩ | ⟨_, -, -, heq⟩
      all_goals
        rw [heq] at hself
        cases hself
    · obtain rfl : s = "[REDACTED]" := JsValue.str.inj hmark
      decide +kernel
    · exact ih field hfield (Json.fieldsIn_iff.mp h.2 field hfield).2 hinside

/-! ### Keys -/

/-- A key occurs in a value, or in one of its prototypes. -/
def HasKey (key : String) (v : JsValue) : Prop := ∃ w, Inside w v ∧ key ∈ w.ownKeys

/-- A key occurs in a decision outside of what stands under sensitive keys. -/
inductive ReachedKey (key : String) : Json → Prop
  | here {fields : List (String × Json)} (h : key ∈ keysOf fields) : ReachedKey key (.obj fields)
  | entry {entries : List Json} {entry : Json} (hentry : entry ∈ entries)
    (h : ReachedKey key entry) : ReachedKey key (.arr entries)
  | field {fields : List (String × Json)} {field : String × Json} (hfield : field ∈ fields)
    (hkey : isSensitiveKey field.1 = false) (h : ReachedKey key field.2) :
    ReachedKey key (.obj fields)

theorem keysOf_redactedFields :
    key ∈ keysOf (redactedFields fields) ↔ key ∈ keysOf fields ∧ key ≠ "__proto__" := by
  constructor
  · intro hmem
    obtain ⟨entry, hentry, rfl⟩ := List.mem_map.mp hmem
    obtain ⟨⟨field, hfield, rfl⟩, hproto⟩ := mem_redactedFields.mp hentry
    exact ⟨List.mem_map_of_mem hfield, hproto⟩
  · rintro ⟨hmem, hproto⟩
    obtain ⟨field, hfield, rfl⟩ := List.mem_map.mp hmem
    have hentry : redactedField field ∈ redactedFields fields :=
      mem_redactedFields.mpr ⟨⟨field, hfield, rfl⟩, hproto⟩
    exact List.mem_map_of_mem hentry

theorem ownKeys_redacted_obj (h : (keysOf fields).Nodup) :
    (redacted (.obj fields)).ownKeys = keysOf (redactedFields fields) := by
  rcases redacted_obj_cases h with ⟨heq, -⟩ | ⟨_, -, -, heq⟩
  all_goals
    rw [heq]
    rfl

theorem isPrototype_of_hasKey {x : JsValue} (h : HasKey key x) :
    x.isPrototype = true := by
  obtain ⟨w, hinside, hkey⟩ := h
  cases x with
  | bool b =>
    cases hinside
    exact nomatch hkey
  | num q =>
    cases hinside
    exact nomatch hkey
  | str s =>
    cases hinside
    exact nomatch hkey
  | _ => rfl

theorem reachedKey_of_hasKey (h : v.Parsed) (hkey : HasKey key (redacted v)) :
    ReachedKey key v ∧ key ≠ "__proto__" := by
  obtain ⟨w, hinside, hmem⟩ := hkey
  induction v using Json.induct with
  | null =>
    cases (hinside : Inside w .null)
    exact nomatch hmem
  | bool b =>
    cases (hinside : Inside w (.bool b))
    exact nomatch hmem
  | num q =>
    cases (hinside : Inside w (.num q))
    exact nomatch hmem
  | str s =>
    rw [redacted_str] at hinside
    cases hinside
    exact nomatch hmem
  | arr entries ih =>
    rw [redacted_arr] at hinside
    cases hinside with
    | refl => exact nomatch hmem
    | entry hx hinside =>
      obtain ⟨entry, hentry, rfl⟩ := List.mem_map.mp hx
      obtain ⟨hreached, hproto⟩ := ih entry hentry (Json.entriesIn_iff.mp h entry hentry) hinside
      exact ⟨.entry hentry hreached, hproto⟩
  | obj fields ih =>
    rcases inside_redacted_obj h.1 hinside with rfl | ⟨field, hfield, rfl | ⟨hvisible, hinside⟩⟩
    · rw [ownKeys_redacted_obj h.1] at hmem
      obtain ⟨hown, hproto⟩ := keysOf_redactedFields.mp hmem
      exact ⟨.here hown, hproto⟩
    · exact nomatch hmem
    · obtain ⟨hreached, hproto⟩ :=
        ih field hfield (Json.fieldsIn_iff.mp h.2 field hfield).2 hinside
      exact ⟨.field hfield hvisible hreached, hproto⟩

theorem hasKey_of_reachedKey (h : v.Parsed) (hkey : ReachedKey key v) (hproto : key ≠ "__proto__") :
    HasKey key (redacted v) := by
  induction hkey with
  | here hmem =>
    refine ⟨_, .refl, ?_⟩
    rw [ownKeys_redacted_obj h.1]
    exact keysOf_redactedFields.mpr ⟨hmem, hproto⟩
  | entry hentry _ ih =>
    obtain ⟨w, hinside, hmem⟩ := ih (Json.entriesIn_iff.mp h _ hentry)
    rw [redacted_arr]
    exact ⟨w, .entry (List.mem_map_of_mem hentry) hinside, hmem⟩
  | @field fields field hfield hvisible _ ih =>
    obtain ⟨w, hinside, hmem⟩ := ih (Json.fieldsIn_iff.mp h.2 _ hfield).2
    have hown : field.1 ≠ "__proto__" → (field.1, redacted field.2) ∈ redactedFields fields :=
      fun hname => mem_redactedFields.mpr
        ⟨⟨field, hfield, redactedField_of_not hvisible⟩, hname⟩
    rcases redacted_obj_cases h.1 with ⟨heq, hnone⟩ | ⟨other, hother, hname, heq⟩
    · -- the value of `__proto__` would have become the prototype
      have hname : field.1 ≠ "__proto__" := fun hname => by
        have hprimitive := hnone field hfield hname
        rw [isPrototype_of_hasKey ⟨w, hinside, hmem⟩] at hprimitive
        cases hprimitive
      rw [heq]
      exact ⟨w, .field (hown hname) hinside, hmem⟩
    · rw [heq]
      by_cases hfieldName : field.1 = "__proto__"
      · obtain rfl : field = other :=
          List.inj_on_of_nodup_map h.1 hfield hother (hfieldName.trans hname.symm)
        exact ⟨w, .proto hinside, hmem⟩
      · exact ⟨w, .own (hown hfieldName) hinside, hmem⟩

/-! ### Two decisions -/

mutual

/-- Two decisions differ only in what stands under sensitive keys and in texts that look like
tokens. -/
def SameButSecrets : Json → Json → Prop
  | .str s, w => ∃ t, w = .str t ∧ (s = t ∨ isSensitiveValue s = true ∧ isSensitiveValue t = true)
  | .arr xs, w => ∃ ys, w = .arr ys ∧ SameEntriesButSecrets xs ys
  | .obj fs, w => ∃ gs, w = .obj gs ∧ SameFieldsButSecrets fs gs
  | v, w => v = w

def SameEntriesButSecrets : List Json → List Json → Prop
  | [], ys => ys = []
  | x :: xs, ys => ∃ y rest, ys = y :: rest ∧ SameButSecrets x y ∧ SameEntriesButSecrets xs rest

/-- The properties of two objects: the same keys, and the same values but under sensitive ones. -/
def SameFieldsButSecrets : List (String × Json) → List (String × Json) → Prop
  | [], gs => gs = []
  | (key, x) :: fs, gs =>
    ∃ y rest, gs = (key, y) :: rest ∧ (isSensitiveKey key = true ∨ SameButSecrets x y) ∧
      SameFieldsButSecrets fs rest

end

mutual

/-- **Secrets make no difference to the redacted decision.** -/
theorem redacted_eq : ∀ v w : Json, SameButSecrets v w → redacted v = redacted w
  | .str s, w, h => by
    rw [SameButSecrets] at h
    obtain ⟨t, rfl, rfl | ⟨hs, ht⟩⟩ := h
    · rfl
    · rw [redacted_str, redacted_str, redactString, redactString, if_pos hs, if_pos ht]
  | .arr xs, w, h => by
    rw [SameButSecrets] at h
    obtain ⟨ys, rfl, hentries⟩ := h
    rw [redacted_arr, redacted_arr, redactedEntries_eq xs ys hentries]
  | .obj fs, w, h => by
    rw [SameButSecrets] at h
    obtain ⟨gs, rfl, hfields⟩ := h
    rw [redacted_obj, redacted_obj, redactedFields_eq fs gs hfields]
  | .null, w, h => congrArg redacted h
  | .bool b, w, h => congrArg redacted h
  | .num q, w, h => congrArg redacted h

theorem redactedEntries_eq : ∀ xs ys : List Json, SameEntriesButSecrets xs ys →
    xs.map redacted = ys.map redacted
  | [], ys, h => by
    rw [SameEntriesButSecrets] at h
    rw [h]
  | x :: xs, ys, h => by
    rw [SameEntriesButSecrets] at h
    obtain ⟨y, rest, rfl, hfirst, hrest⟩ := h
    rw [List.map_cons, List.map_cons, redacted_eq x y hfirst, redactedEntries_eq xs rest hrest]

theorem redactedFields_eq : ∀ fs gs : List (String × Json), SameFieldsButSecrets fs gs →
    fs.map redactedField = gs.map redactedField
  | [], gs, h => by
    rw [SameFieldsButSecrets] at h
    rw [h]
  | (key, x) :: fs, gs, h => by
    rw [SameFieldsButSecrets] at h
    obtain ⟨y, rest, rfl, hfirst, hrest⟩ := h
    have hfield : redactedField (key, x) = redactedField (key, y) := by
      rcases hfirst with hkey | hsame
      · have hleft : redactedField (key, x) = (key, .str "[REDACTED]") :=
          redactedField_of_sensitive hkey
        have hright : redactedField (key, y) = (key, .str "[REDACTED]") :=
          redactedField_of_sensitive hkey
        rw [hleft, hright]
      · rw [redactedField, redactedField, redacted_eq x y hsame]
    rw [List.map_cons, List.map_cons, hfield, redactedFields_eq fs rest hrest]

end

/-! ### The law -/

/-- What the redaction of decisions promises. -/
structure RedactionLaw (env : DigestEnv) : Prop where
  again : ∀ v : Json, v.Parsed → redactSensitiveFields none (redacted v) = redacted v
  texts : ∀ v : Json, v.Parsed → ∀ s, Inside (.str s) (redacted v) → isSensitiveValue s = false
  /-- The keys are those of the decision outside of sensitive ones, whatever they look like. -/
  keys : ∀ v : Json, v.Parsed → ∀ key,
    HasKey key (redacted v) ↔ ReachedKey key v ∧ key ≠ "__proto__"
  digests : ∀ v w : Json, SameButSecrets v w → redacted v = redacted w ∧
    computeDigest env (redacted v) = computeDigest env (redacted w)
  entries : ∀ (i j : AppendInput) (ledger : DecisionLedger), i.source = j.source → i.now = j.now →
    SameButSecrets i.decision j.decision → ledgerEntry env i ledger = ledgerEntry env j ledger

/-- **Redaction** is done once and for all, and tells no secrets but those in keys. -/
theorem redaction_law (env : DigestEnv) : RedactionLaw env where
  again _ h := redact_redacted h
  texts _ h _ hs := text_of_redacted h hs
  keys _ h _ := ⟨reachedKey_of_hasKey h, fun ⟨hkey, hproto⟩ => hasKey_of_reachedKey h hkey hproto⟩
  digests v w h := ⟨redacted_eq v w h, congrArg (computeDigest env) (redacted_eq v w h)⟩
  entries _ _ _ hsource hnow h := by
    rw [ledgerEntry, ledgerEntry, hsource, hnow, redacted_eq _ _ h]

def tokenKey : Json := .obj [("ghp_0123456789abcdefghij", .num 1)]

/-- The token stays in the redacted decision. -/
theorem not_redacted_tokenKey :
    ¬ ((∀ s, Inside (.str s) (redacted tokenKey) → isSensitiveValue s = false) ∧
      ∀ key, HasKey key (redacted tokenKey) → isSensitiveValue key = false) := by
  rintro ⟨-, hkeys⟩
  have hkey : HasKey "ghp_0123456789abcdefghij" (redacted tokenKey) :=
    ⟨_, .refl, by decide +kernel⟩
  exact absurd (hkeys _ hkey) (by decide +kernel)

end CompareVI.Ledger
