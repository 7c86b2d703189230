import CompareVI.Framework.Comparison
import CompareVI.Framework.JsString
import CompareVI.Framework.Tally
import Mathlib.Order.WithBot

/-!
# Objects that a program builds

A value that was parsed is a `Json`. A program that copies it property by property builds
`JsValue`s, and what it gets need not be a copy:

* assigning to `__proto__` sets the prototype, or does nothing for a value that cannot be one
  (`Building.assign`), so the result may be an object that is not plain (`derived`);
* the properties of an object are listed in an order of their own, array indices first and in
  ascending order (`ownOrder`), whatever the order of the assignments was.

`tree` is what `JSON.stringify` sees of a value. Where no key is `__proto__` and no key occurs
twice, what is built has the properties that were assigned (`objectOf_eq`).
-/

namespace Framework

inductive JsValue where
  | null
  | bool (b : Bool)
  | num (q : ℚ)
  | str (s : String)
  | arr (entries : List JsValue)
  /-- A plain object: its prototype is `Object.prototype`. The properties are in the order in
  which they were made. -/
  | obj (fields : List (String × JsValue))
  | derived (proto : JsValue) (fields : List (String × JsValue))

namespace JsValue

/-! ### The order of properties -/

def indexOf? (key : String) : Option ℕ :=
  let n := Nat.ofDigitChars 10 key.toList 0
  if Nat.toDigits 10 n = key.toList ∧ n < 4294967295 then some n else none

/-- The place of a property name: array indices by their number, all others behind them. -/
def rank (key : String) : WithTop ℕ := (indexOf? key).elim ⊤ fun n => n

/-- The order in which `Object.keys` lists property names. -/
def keyOrder : Comparison String := .ofKey rank

/-- The properties of an object as `Object.entries` lists them. -/
def ownOrder {α : Type} (fields : List (String × α)) : List (String × α) :=
  (keyOrder.comap Prod.fst).sort fields

theorem indexOf?_eq_some {key : String} {n : ℕ} (h : indexOf? key = some n) :
    key.toList = Nat.toDigits 10 n := by
  rw [indexOf?] at h
  split at h
  · next hindex =>
    rw [← Option.some.inj h]
    exact hindex.1.symm
  · cases h

theorem eq_of_rank_eq {k l : String} (hk : (indexOf? k).isSome) (h : rank k = rank l) : k = l := by
  obtain ⟨n, hn⟩ := Option.isSome_iff_exists.mp hk
  rw [rank, rank, hn] at h
  cases hl : indexOf? l with
  | none =>
    rw [hl] at h
    exact absurd h (WithTop.coe_ne_top)
  | some m =>
    rw [hl] at h
    obtain rfl : n = m := WithTop.coe_injective h
    exact String.toList_inj.mp ((indexOf?_eq_some hn).trans (indexOf?_eq_some hl).symm)

theorem ownOrder_perm {α : Type} (fields : List (String × α)) : (ownOrder fields).Perm fields :=
  Comparison.sort_perm _ fields

theorem mem_ownOrder {α : Type} {fields : List (String × α)} {field : String × α} :
    field ∈ ownOrder fields ↔ field ∈ fields := Comparison.mem_sort _

theorem map_ownOrder {α β : Type} (f : String × α → String × β)
    (hf : ∀ field, (f field).1 = field.1) (fields : List (String × α)) :
    (ownOrder fields).map f = ownOrder (fields.map f) := by
  refine Comparison.map_sort _ fun a _ b _ => ?_
  rw [Comparison.comap_le, Comparison.comap_le, hf, hf]

/-! ### Parsed values and printed ones -/

mutual

/-- `JSON.parse`. -/
def ofJson : Json → JsValue
  | .null => .null
  | .bool b => .bool b
  | .num q => .num q
  | .str s => .str s
  | .arr entries => .arr (ofEntries entries)
  | .obj fields => .obj (ofFields fields)

def ofEntries : List Json → List JsValue
  | [] => []
  | entry :: entries => ofJson entry :: ofEntries entries

def ofFields : List (String × Json) → List (String × JsValue)
  | [] => []
  | (key, child) :: fields => (key, ofJson child) :: ofFields fields

end

mutual

/-- What `JSON.stringify` sees of a value: the own properties of its objects. -/
def tree : JsValue → Json
  | .null => .null
  | .bool b => .bool b
  | .num q => .num q
  | .str s => .str s
  | .arr entries => .arr (treeEntries entries)
  | .obj fields => .obj (ownOrder (treeFields fields))
  | .derived _ fields => .obj (ownOrder (treeFields fields))

def treeEntries : List JsValue → List Json
  | [] => []
  | entry :: entries => tree entry :: treeEntries entries

def treeFields : List (String × JsValue) → List (String × Json)
  | [] => []
  | (key, child) :: fields => (key, tree child) :: treeFields fields

end

/-- `value?.key`, for a name that no built-in prototype has. -/
def get? (key : String) : JsValue → Option JsValue
  | .obj fields => entryOf? key fields
  | .derived proto fields => (entryOf? key fields).or (get? key proto)
  | _ => none

theorem treeFields_eq (fields : List (String × JsValue)) :
    treeFields fields = fields.map fun field => (field.1, tree field.2) := by
  induction fields with
  | nil => rfl
  | cons field fields ih => rw [treeFields, ih, List.map_cons]

theorem ofEntries_eq (entries : List Json) : ofEntries entries = entries.map ofJson := by
  induction entries with
  | nil => rfl
  | cons entry entries ih => rw [ofEntries, ih, List.map_cons]

theorem ofFields_eq (fields : List (String × Json)) :
    ofFields fields = fields.map fun field => (field.1, ofJson field.2) := by
  induction fields with
  | nil => rfl
  | cons field fields ih => rw [ofFields, ih, List.map_cons]

/-! ### Building an object -/

def isPrototype : JsValue → Bool
  | .null | .arr _ | .obj _ | .derived _ _ => true
  | .bool _ | .num _ | .str _ => false

/-- An object that is being built; `none` stands for `Object.prototype`. -/
structure Building where
  proto : Option JsValue
  fields : List (String × JsValue)

/-- `{}`. -/
def Building.start : Building := ⟨none, []⟩

/-- `output[key] = x` on an object that had `Object.prototype` so far. -/
def Building.assign (b : Building) (key : String) (x : JsValue) : Building :=
  if key = "__proto__" then (if x.isPrototype then { b with proto := some x } else b)
  else { b with fields := put key x b.fields }

def Building.value (b : Building) : JsValue :=
  match b.proto with
  | none => .obj b.fields
  | some proto => .derived proto b.fields

def objectOf (entries : List (String × JsValue)) : JsValue :=
  (entries.foldl (fun b entry => b.assign entry.1 entry.2) Building.start).value

def ownEntries (entries : List (String × JsValue)) : List (String × JsValue) :=
  entries.filter fun entry => entry.1 ≠ "__proto__"

/-- What a run of assignments does: it puts the own properties, and an assignment of a value that
can be a prototype to `__proto__` sets it. -/
theorem foldl_assign (entries : List (String × JsValue)) (b : Building) :
    ∃ proto, entries.foldl (fun b entry => b.assign entry.1 entry.2) b =
        ⟨proto, (ownEntries entries).foldl
          (fun fields entry => put entry.1 entry.2 fields) b.fields⟩ ∧
      ((proto = b.proto ∧ ∀ x, ("__proto__", x) ∈ entries → x.isPrototype = false) ∨
        ∃ x, ("__proto__", x) ∈ entries ∧ proto = some x) := by
  induction entries generalizing b with
  | nil => exact ⟨b.proto, rfl, .inl ⟨rfl, fun x hx => nomatch hx⟩⟩
  | cons entry entries ih =>
    obtain ⟨key, x⟩ := entry
    by_cases hkey : key = "__proto__"
    · subst hkey
      have hown : ownEntries (("__proto__", x) :: entries) = ownEntries entries :=
        List.filter_cons_of_neg (by simp)
      rw [List.foldl_cons, hown, Building.assign, if_pos rfl]
      split
      · obtain ⟨proto, heq, hproto⟩ := ih { b with proto := some x }
        refine ⟨proto, heq, .inr ?_⟩
        rcases hproto with ⟨rfl, -⟩ | ⟨y, hy, rfl⟩
        · exact ⟨x, List.mem_cons_self, rfl⟩
        · exact ⟨y, List.mem_cons_of_mem _ hy, rfl⟩
      · next hx =>
        obtain ⟨proto, heq, hproto⟩ := ih b
        refine ⟨proto, heq, ?_⟩
        rcases hproto with ⟨hsame, hnone⟩ | ⟨y, hy, rfl⟩
        · refine .inl ⟨hsame, fun y hy => ?_⟩
          rcases List.mem_cons.mp hy with hfirst | hy
          · rw [(Prod.mk.inj hfirst).2]
            exact Bool.eq_false_iff.mpr hx
          · exact hnone y hy
        · exact .inr ⟨y, List.mem_cons_of_mem _ hy, rfl⟩
    · have hown : ownEntries ((key, x) :: entries) = (key, x) :: ownEntries entries :=
        List.filter_cons_of_pos (by simpa using hkey)
      rw [List.foldl_cons, hown, List.foldl_cons, Building.assign, if_neg hkey]
      obtain ⟨proto, heq, hproto⟩ := ih { b with fields := put key x b.fields }
      refine ⟨proto, heq, ?_⟩
      rcases hproto with ⟨hsame, hnone⟩ | ⟨y, hy, rfl⟩
      · refine .inl ⟨hsame, fun y hy => ?_⟩
        rcases List.mem_cons.mp hy with hfirst | hy
        · exact absurd (Prod.mk.inj hfirst).1.symm hkey
        · exact hnone y hy
      · exact .inr ⟨y, List.mem_cons_of_mem _ hy, rfl⟩

theorem foldl_put_of_nodup {α : Type} {entries fields : List (String × α)}
    (h : (keysOf (fields ++ entries)).Nodup) :
    entries.foldl (fun fields entry => put entry.1 entry.2 fields) fields = fields ++ entries := by
  induction entries generalizing fields with
  | nil => exact (List.append_nil _).symm
  | cons entry entries ih =>
    have hnew : entry.1 ∉ keysOf fields := by
      rw [keysOf, List.map_append, List.map_cons] at h
      exact fun hmem => (List.disjoint_of_nodup_append h) hmem List.mem_cons_self
    have hput : put entry.1 entry.2 fields = fields ++ [entry] := by
      clear h ih
      induction fields with
      | nil => rfl
      | cons field fields ih =>
        rw [keysOf, List.map_cons, List.mem_cons, not_or] at hnew
        rw [put, if_neg (Ne.symm hnew.1), ih hnew.2]
        rfl
    rw [List.foldl_cons, hput, ih, List.append_assoc]
    · rfl
    · rwa [List.append_assoc]

variable {entries : List (String × JsValue)}

/-- **What is built** of entries with distinct keys: the own properties, and a prototype that is
the value of `__proto__`, where that can be one. -/
theorem objectOf_spec (h : (keysOf entries).Nodup) :
    (objectOf entries = .obj (ownEntries entries) ∧
        ∀ x, ("__proto__", x) ∈ entries → x.isPrototype = false) ∨
      ∃ x, ("__proto__", x) ∈ entries ∧ objectOf entries = .derived x (ownEntries entries) := by
  obtain ⟨proto, heq, hproto⟩ := foldl_assign entries Building.start
  have hnodup : (keysOf ([] ++ ownEntries entries)).Nodup :=
    h.sublist (List.filter_sublist.map Prod.fst)
  have hfields := foldl_put_of_nodup hnodup
  rw [objectOf, heq]
  rcases hproto with ⟨rfl, hnone⟩ | ⟨x, hx, rfl⟩
  · exact .inl ⟨congrArg JsValue.obj hfields, hnone⟩
  · exact .inr ⟨x, hx, congrArg (JsValue.derived x) hfields⟩

theorem objectOf_eq (h : (keysOf entries).Nodup) (hproto : "__proto__" ∉ keysOf entries) :
    objectOf entries = .obj entries := by
  have hown : ownEntries entries = entries := by
    refine List.filter_eq_self.mpr fun entry hentry => decide_eq_true fun hkey => hproto ?_
    rw [← hkey]
    exact List.mem_map_of_mem hentry
  rcases objectOf_spec h with ⟨heq, -⟩ | ⟨x, hx, -⟩
  · rw [heq, hown]
  · exact absurd (List.mem_map_of_mem hx) hproto

/-! ### Parts -/

/-- A value is another one or stands in it, in its prototypes too. -/
inductive Inside (w : JsValue) : JsValue → Prop
  | refl : Inside w w
  | entry {entries : List JsValue} {x : JsValue} (hx : x ∈ entries) (h : Inside w x) :
    Inside w (.arr entries)
  | field {fields : List (String × JsValue)} {field : String × JsValue} (hfield : field ∈ fields)
    (h : Inside w field.2) : Inside w (.obj fields)
  | own {proto : JsValue} {fields : List (String × JsValue)} {field : String × JsValue}
    (hfield : field ∈ fields) (h : Inside w field.2) : Inside w (.derived proto fields)
  | proto {proto : JsValue} {fields : List (String × JsValue)} (h : Inside w proto) :
    Inside w (.derived proto fields)

def ownKeys : JsValue → List String
  | .obj fields | .derived _ fields => keysOf fields
  | _ => []

end JsValue

/-! ### Parsed values -/

namespace Json

@[elab_as_elim]
theorem induct {motive : Json → Prop} (null : motive .null) (bool : ∀ b, motive (.bool b))
    (num : ∀ q, motive (.num q)) (str : ∀ s, motive (.str s))
    (arr : ∀ entries, (∀ entry ∈ entries, motive entry) → motive (.arr entries))
    (obj : ∀ fields : List (String × Json), (∀ field ∈ fields, motive field.2) →
      motive (.obj fields)) : ∀ v, motive v
  | .null => null
  | .bool b => bool b
  | .num q => num q
  | .str s => str s
  | .arr entries => arr entries fun entry _ => induct null bool num str arr obj entry
  | .obj fields => obj fields fun field _ => induct null bool num str arr obj field.2
termination_by v => sizeOf v
decreasing_by
  · have hlt : sizeOf entry < sizeOf entries := List.sizeOf_lt_of_mem ‹_›
    rw [Json.arr.sizeOf_spec]
    omega
  · have hlt : sizeOf field < sizeOf fields := List.sizeOf_lt_of_mem ‹_›
    have hpair : sizeOf field = 1 + sizeOf field.1 + sizeOf field.2 := rfl
    rw [Json.obj.sizeOf_spec]
    omega

mutual

/-- No object has a key twice, as in every parsed value, and its keys are of a kind. -/
def KeysIn (p : String → Prop) : Json → Prop
  | .arr entries => EntriesIn p entries
  | .obj fields => (keysOf fields).Nodup ∧ FieldsIn p fields
  | _ => True

def EntriesIn (p : String → Prop) : List Json → Prop
  | [] => True
  | entry :: entries => KeysIn p entry ∧ EntriesIn p entries

def FieldsIn (p : String → Prop) : List (String × Json) → Prop
  | [] => True
  | (key, child) :: fields => p key ∧ KeysIn p child ∧ FieldsIn p fields

end

variable {p : String → Prop}

theorem entriesIn_iff {entries : List Json} :
    EntriesIn p entries ↔ ∀ entry ∈ entries, KeysIn p entry := by
  induction entries with
  | nil => simp [EntriesIn]
  | cons entry entries ih => rw [EntriesIn, ih, List.forall_mem_cons]

theorem fieldsIn_iff {fields : List (String × Json)} :
    FieldsIn p fields ↔ ∀ field ∈ fields, p field.1 ∧ KeysIn p field.2 := by
  induction fields with
  | nil => simp [FieldsIn]
  | cons field fields ih => rw [FieldsIn, ih, List.forall_mem_cons, and_assoc]

/-- A value as it is parsed: no object has a key twice. -/
def Parsed (v : Json) : Prop := KeysIn (fun _ => True) v

end Json
end Framework
