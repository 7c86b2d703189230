import Mathlib.Data.List.Nodup
import Mathlib.Data.Rat.Defs
import Mathlib.Tactic.Common

/-!
# JSON values and JavaScript objects

`Json` is the tree a JSON text denotes. Object fields are kept in insertion
order, since `JSON.stringify` and object spread observe that order; two values
are equal exactly when `JSON.stringify` prints them alike.

`JsObject` is an object at hand in a program: a field list whose keys are
distinct, carried as a field of the structure, so that a lookup has one answer.
The operations are the ones JavaScript has:

* `JsObject.get?` — property access, `none` for `undefined`;
* `JsObject.set` — assignment, in place for a known key and at the end otherwise;
* `JsObject.spread` — `{ ...a, ...b }`;
* `JsObject.erase` — `delete`.

Every operation comes with the lookup after it (`get?_set`, `get?_spread`,
`get?_erase`), which is all that callers need to know about it. Spreading a
second time adds nothing (`spread_spread_self`).
-/

namespace Framework

inductive Json where
  | null
  | bool (b : Bool)
  | num (q : ℚ)
  | str (s : String)
  | arr (xs : List Json)
  | obj (fields : List (String × Json))

namespace Json

mutual

/-- Equality of JSON values is decidable, by recursion on the tree. -/
def decEq : (a b : Json) → Decidable (a = b)
  | .null, .null => isTrue rfl
  | .bool a, .bool b =>
    if h : a = b then isTrue (by rw [h]) else isFalse (fun e => h (Json.bool.inj e))
  | .num a, .num b =>
    if h : a = b then isTrue (by rw [h]) else isFalse (fun e => h (Json.num.inj e))
  | .str a, .str b =>
    if h : a = b then isTrue (by rw [h]) else isFalse (fun e => h (Json.str.inj e))
  | .arr as, .arr bs =>
    match decEqList as bs with
    | isTrue h => isTrue (by rw [h])
    | isFalse h => isFalse (fun e => h (Json.arr.inj e))
  | .obj fs, .obj gs =>
    match decEqFields fs gs with
    | isTrue h => isTrue (by rw [h])
    | isFalse h => isFalse (fun e => h (Json.obj.inj e))
  | .null, .bool _ | .null, .num _ | .null, .str _ | .null, .arr _ | .null, .obj _
  | .bool _, .null | .bool _, .num _ | .bool _, .str _ | .bool _, .arr _ | .bool _, .obj _
  | .num _, .null | .num _, .bool _ | .num _, .str _ | .num _, .arr _ | .num _, .obj _
  | .str _, .null | .str _, .bool _ | .str _, .num _ | .str _, .arr _ | .str _, .obj _
  | .arr _, .null | .arr _, .bool _ | .arr _, .num _ | .arr _, .str _ | .arr _, .obj _
  | .obj _, .null | .obj _, .bool _ | .obj _, .num _ | .obj _, .str _ | .obj _, .arr _ =>
    isFalse (fun e => by cases e)

def decEqList : (as bs : List Json) → Decidable (as = bs)
  | [], [] => isTrue rfl
  | [], _ :: _ | _ :: _, [] => isFalse (fun e => by cases e)
  | a :: as, b :: bs =>
    match decEq a b, decEqList as bs with
    | isTrue h, isTrue h' => isTrue (by rw [h, h'])
    | isFalse h, _ => isFalse (fun e => h (List.cons.inj e).1)
    | _, isFalse h => isFalse (fun e => h (List.cons.inj e).2)

def decEqFields : (fs gs : List (String × Json)) → Decidable (fs = gs)
  | [], [] => isTrue rfl
  | [], _ :: _ | _ :: _, [] => isFalse (fun e => by cases e)
  | (k, v) :: fs, (l, w) :: gs =>
    match decEq v w, decEqFields fs gs with
    | isTrue h, isTrue h' =>
      if hk : k = l then isTrue (by rw [hk, h, h'])
      else isFalse (fun e => hk (Prod.mk.inj (List.cons.inj e).1).1)
    | isFalse h, _ => isFalse (fun e => h (Prod.mk.inj (List.cons.inj e).1).2)
    | _, isFalse h => isFalse (fun e => h (List.cons.inj e).2)

end

instance : DecidableEq Json := decEq

/-- Whether a value counts as true in a condition: `null`, `false`, `0` and the
empty string do not. -/
def isTruthy : Json → Bool
  | .null => false
  | .bool b => b
  | .num q => q != 0
  | .str s => s != ""
  | .arr _ | .obj _ => true

/-- Truthiness of a property that may be `undefined`. -/
def truthy (v : Option Json) : Bool := v.elim false isTruthy

/-- `value?.key`: the property of an object, `none` for `undefined`. -/
def get? (key : String) : Json → Option Json
  | .obj fields => fields.lookup key
  | _ => none

end Json

@[ext]
structure JsObject where
  fields : List (String × Json)
  nodup : (fields.map Prod.fst).Nodup
  deriving DecidableEq

namespace JsObject

/-- `{}`. -/
def empty : JsObject := ⟨[], List.nodup_nil⟩

def toJson (o : JsObject) : Json := .obj o.fields

def keys (o : JsObject) : List String := o.fields.map Prod.fst

/-- `o[key]`, `none` for `undefined`. -/
def get? (o : JsObject) (key : String) : Option Json := o.fields.lookup key

/-- `key in o`. -/
def has (o : JsObject) (key : String) : Bool := (o.get? key).isSome

/-! ### Assignment on field lists -/

def setField (key : String) (value : Json) : List (String × Json) → List (String × Json)
  | [] => [(key, value)]
  | (k, v) :: rest => if k = key then (k, value) :: rest else (k, v) :: setField key value rest

theorem lookup_cons_ite (k : String) (p : String × Json) (rest : List (String × Json)) :
    (p :: rest).lookup k = if k = p.1 then some p.2 else rest.lookup k := by
  rw [List.lookup_cons]
  by_cases h : k = p.1
  · simp [h]
  · simp [h, beq_eq_false_iff_ne.mpr h]

theorem map_fst_setField (key : String) (value : Json) (fields : List (String × Json)) :
    (setField key value fields).map Prod.fst =
      if key ∈ fields.map Prod.fst then fields.map Prod.fst
      else fields.map Prod.fst ++ [key] := by
  induction fields with
  | nil => simp [setField]
  | cons p rest ih =>
    obtain ⟨k, v⟩ := p
    by_cases h : k = key
    · simp [setField, h]
    · have h' : ¬ key = k := fun e => h e.symm
      simp only [setField, if_neg h, List.map_cons, ih, List.mem_cons, h', false_or]
      split <;> simp

theorem lookup_setField (key k : String) (value : Json) (fields : List (String × Json)) :
    (setField key value fields).lookup k =
      if k = key then some value else fields.lookup k := by
  induction fields with
  | nil => rw [setField, lookup_cons_ite]
  | cons p rest ih =>
    obtain ⟨k', v⟩ := p
    by_cases h' : k' = key
    · subst h'
      rw [setField, if_pos rfl, lookup_cons_ite, lookup_cons_ite]
      by_cases h : k = k' <;> simp [h]
    · rw [setField, if_neg h', lookup_cons_ite, lookup_cons_ite, ih]
      by_cases hk : k = k'
      · subst hk
        simp [h']
      · simp [hk]

/-! ### The operations -/

/-- `o[key] = value`. -/
def set (o : JsObject) (key : String) (value : Json) : JsObject where
  fields := setField key value o.fields
  nodup := by
    rw [map_fst_setField]
    split
    · exact o.nodup
    · next h =>
      refine List.nodup_append.mpr ⟨o.nodup, List.nodup_singleton key, ?_⟩
      intro a ha b hb
      rw [List.mem_singleton.mp hb]
      exact fun e => h (e ▸ ha)

/-- `{ ...o, ...p }`. -/
def spread (o p : JsObject) : JsObject :=
  p.fields.foldl (fun acc kv => acc.set kv.1 kv.2) o

/-- The object literal with the given properties, a later one replacing an
earlier one of the same key. -/
def ofList (fields : List (String × Json)) : JsObject :=
  fields.foldl (fun acc kv => acc.set kv.1 kv.2) empty

/-- `delete o[key]`. -/
def erase (o : JsObject) (key : String) : JsObject where
  fields := o.fields.filter fun kv => kv.1 != key
  nodup := o.nodup.sublist (List.filter_sublist.map Prod.fst)

/-! ### Lookups after an operation -/

@[simp] theorem get?_empty (k : String) : empty.get? k = none := rfl

theorem get?_set (o : JsObject) (key k : String) (value : Json) :
    (o.set key value).get? k = if k = key then some value else o.get? k :=
  lookup_setField key k value o.fields

@[simp] theorem get?_set_self (o : JsObject) (key : String) (value : Json) :
    (o.set key value).get? key = some value := by
  rw [get?_set, if_pos rfl]

variable {o : JsObject} {k key : String}

theorem get?_set_of_ne (o : JsObject) (value : Json) (h : k ≠ key) :
    (o.set key value).get? k = o.get? k := by
  rw [get?_set, if_neg h]

theorem get?_foldl_set (fields : List (String × Json)) (hn : (fields.map Prod.fst).Nodup)
    (o : JsObject) (k : String) :
    (fields.foldl (fun acc kv => acc.set kv.1 kv.2) o).get? k =
      (fields.lookup k).or (o.get? k) := by
  induction fields generalizing o with
  | nil => simp
  | cons p rest ih =>
    obtain ⟨key, v⟩ := p
    rw [List.map_cons, List.nodup_cons] at hn
    rw [List.foldl_cons, ih hn.2, get?_set, lookup_cons_ite]
    by_cases h : k = key
    · subst h
      have hrest : rest.lookup k = none := by
        rw [List.lookup_eq_none_iff]
        intro p hp
        have hmem : p.1 ∈ rest.map Prod.fst := List.mem_map_of_mem hp
        have : k ≠ p.1 := fun e => hn.1 (e ▸ hmem)
        simpa using this
      simp [hrest]
    · simp [h]

/-- A spread has the second object's property where there is one, else the
first's. -/
theorem get?_spread (o p : JsObject) (k : String) :
    (o.spread p).get? k = (p.get? k).or (o.get? k) :=
  get?_foldl_set p.fields p.nodup o k

theorem get?_erase (o : JsObject) (key k : String) :
    (o.erase key).get? k = if k = key then none else o.get? k := by
  change (o.fields.filter fun kv => kv.1 != key).lookup k =
    if k = key then none else o.fields.lookup k
  induction o.fields with
  | nil => simp
  | cons p rest ih =>
    obtain ⟨k', v⟩ := p
    by_cases h' : k' = key
    · subst h'
      rw [List.filter_cons_of_neg (by simp), ih, lookup_cons_ite]
      by_cases h : k = k' <;> simp [h]
    · rw [List.filter_cons_of_pos (by simpa using h'), lookup_cons_ite, lookup_cons_ite, ih]
      by_cases h : k = k'
      · subst h
        simp [h']
      · simp [h]

variable {v value : Json}

theorem get?_eq_some_of_mem (h : (k, v) ∈ o.fields) :
    o.get? k = some v := by
  obtain ⟨fields, hn⟩ := o
  change fields.lookup k = some v
  induction fields with
  | nil => exact absurd h (by simp)
  | cons p rest ih =>
    rw [List.map_cons, List.nodup_cons] at hn
    rw [lookup_cons_ite]
    rcases List.mem_cons.mp h with rfl | hmem
    · simp
    · have hkey : k ∈ rest.map Prod.fst := List.mem_map_of_mem (f := Prod.fst) hmem
      have hne : k ≠ p.1 := fun e => hn.1 (e ▸ hkey)
      simpa [hne] using ih hn.2 hmem

theorem mem_of_get? (h : o.get? k = some v) :
    (k, v) ∈ o.fields := by
  obtain ⟨fields, hn⟩ := o
  change fields.lookup k = some v at h
  change (k, v) ∈ fields
  clear hn
  induction fields with
  | nil => cases h
  | cons p rest ih =>
    rw [lookup_cons_ite] at h
    split at h
    · next hk =>
      rw [hk, Option.some.inj h.symm]
      exact List.mem_cons_self
    · exact List.mem_cons_of_mem _ (ih h)

/-! ### Assigning what is there -/

theorem setField_of_lookup {fields : List (String × Json)} (h : fields.lookup key = some value) :
    setField key value fields = fields := by
  induction fields with
  | nil => exact absurd h (by simp)
  | cons p rest ih =>
    obtain ⟨k, v⟩ := p
    rw [lookup_cons_ite] at h
    by_cases hk : k = key
    · subst hk
      obtain rfl : v = value := by simpa using h
      simp [setField]
    · have hk' : ¬ key = k := fun e => hk e.symm
      simp only [setField, if_neg hk]
      rw [ih (by simpa [hk'] using h)]

theorem set_of_get? (h : o.get? key = some value) : o.set key value = o :=
  JsObject.ext (setField_of_lookup h)

theorem foldl_set_of_get? (fields : List (String × Json)) (o : JsObject)
    (h : ∀ kv ∈ fields, o.get? kv.1 = some kv.2) :
    fields.foldl (fun acc kv => acc.set kv.1 kv.2) o = o := by
  induction fields with
  | nil => rfl
  | cons p rest ih =>
    rw [List.foldl_cons, set_of_get? (h p List.mem_cons_self)]
    exact ih fun kv hkv => h kv (List.mem_cons_of_mem _ hkv)

theorem spread_spread_self (o p : JsObject) : (o.spread p).spread p = o.spread p := by
  refine foldl_set_of_get? p.fields _ fun kv hkv => ?_
  rw [get?_spread, get?_eq_some_of_mem hkv, Option.some_or]

end JsObject

end Framework
