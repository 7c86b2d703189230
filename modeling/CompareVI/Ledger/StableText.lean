import CompareVI.Framework.JsValue
import CompareVI.Framework.JsonText
import Mathlib.Data.List.Lex

/-!
# Canonical texts

`stableSortValue` rebuilds a value with the keys of its plain objects in the order of
`localeCompare`, and the digests of the event ingest and of the decision ledger hash what
`JSON.stringify` prints of the result. Two values should have one canonical text exactly if
they are equal up to the order of keys.

`stableTextLaw_iff` says for which property names they do. A property that is called
`__proto__` does not survive the rebuild, and two names that compare equal stay in the order
in which they were; array indices do not depend on the comparison, since an object lists them
first and by number.

The collation and the hash are parameters.
-/

open Framework
open Framework.JsValue

namespace CompareVI.Ledger

/-! ### Texts -/

mutual

/-- `stableSortValue`. The code is there twice, in the event ingest and in the ledger. -/
def stableSortValue (collation : Comparison String) : JsValue → JsValue
  | .arr entries => .arr (stableSortEntries collation entries)
  | .obj fields =>
    objectOf ((collation.comap Prod.fst).sort (ownOrder (stableSortFields collation fields)))
  | value => value

def stableSortEntries (collation : Comparison String) : List JsValue → List JsValue
  | [] => []
  | entry :: entries => stableSortValue collation entry :: stableSortEntries collation entries

def stableSortFields (collation : Comparison String) :
    List (String × JsValue) → List (String × JsValue)
  | [] => []
  | (key, child) :: fields =>
    (key, stableSortValue collation child) :: stableSortFields collation fields

end

/-- `JSON.stringify(stableSortValue(value))`. -/
def stableText (collation : Comparison String) (value : JsValue) : String :=
  Json.stringify (tree (stableSortValue collation value))

structure DigestEnv where
  sha256 : String → String
  collation : Comparison String

def computeDigest (env : DigestEnv) (value : JsValue) : String :=
  env.sha256 (stableText env.collation value)

def computeInputDigest (env : DigestEnv) (payload : Option JsValue) : String :=
  env.sha256 (stableText env.collation (payload.getD .null))

/-! ### The law -/

mutual

def SameUpToOrder : Json → Json → Prop
  | .arr xs, w => ∃ ys, w = .arr ys ∧ SameEntries xs ys
  | .obj fs, w => ∃ gs, w = .obj gs ∧ SameFields fs gs
  | v, w => v = w

def SameEntries : List Json → List Json → Prop
  | [], ys => ys = []
  | x :: xs, ys => ∃ y rest, ys = y :: rest ∧ SameUpToOrder x y ∧ SameEntries xs rest

def SameFields : List (String × Json) → List (String × Json) → Prop
  | [], gs => gs = []
  | (key, x) :: fs, gs =>
    ∃ y rest, gs.Perm ((key, y) :: rest) ∧ SameUpToOrder x y ∧ SameFields fs rest

end

/-- The canonical texts of values over a kind of property names tell exactly the values apart
that differ by more than the order of keys. -/
def StableTextLaw (collation : Comparison String) (names : String → Prop) : Prop :=
  ∀ v w : Json, v.KeysIn names → w.KeysIn names →
    (stableText collation (ofJson v) = stableText collation (ofJson w) ↔ SameUpToOrder v w)

/-- No name is lost in the rebuild of an object, and no two of those that it keeps in order of
assignment compare equal. -/
structure Separates (collation : Comparison String) (names : String → Prop) : Prop where
  proto : ¬ names "__proto__"
  ties : ∀ k l, names k → names l → indexOf? k = none → indexOf? l = none →
    collation.Ties k l → k = l

/-! ### What is printed -/

section Canon

variable {collation : Comparison String} {names : String → Prop}

def canon (collation : Comparison String) (v : Json) : Json :=
  tree (stableSortValue collation (ofJson v))

def canonField (collation : Comparison String) (field : String × Json) : String × Json :=
  (field.1, canon collation field.2)

def printOrder {α : Type} (collation : Comparison String) (fields : List (String × α)) :
    List (String × α) :=
  ownOrder ((collation.comap Prod.fst).sort (ownOrder fields))

variable {v w : Json} {fields fs gs : List (String × Json)} {α : Type}

theorem stableText_eq_iff :
    stableText collation (ofJson v) = stableText collation (ofJson w) ↔
      canon collation v = canon collation w :=
  Json.stringify_injective.eq_iff

theorem stableSortFields_eq (fields : List (String × JsValue)) :
    stableSortFields collation fields =
      fields.map fun field => (field.1, stableSortValue collation field.2) := by
  induction fields with
  | nil => rfl
  | cons field fields ih => rw [stableSortFields, ih, List.map_cons]

theorem canon_arr (entries : List Json) :
    canon collation (.arr entries) = .arr (entries.map (canon collation)) := by
  have hentries : treeEntries (stableSortEntries collation (ofEntries entries)) =
      entries.map (canon collation) := by
    induction entries with
    | nil => rfl
    | cons entry entries ih =>
      rw [ofEntries, stableSortEntries, treeEntries, ih]
      rfl
  rw [canon, ofJson, stableSortValue, tree, hentries]

theorem map_sort_fst {β : Type} (f : String × α → String × β)
    (hf : ∀ field, (f field).1 = field.1) (fields : List (String × α)) :
    ((collation.comap Prod.fst).sort fields).map f =
      (collation.comap Prod.fst).sort (fields.map f) := by
  refine Comparison.map_sort _ fun a _ b _ => ?_
  rw [Comparison.comap_le, Comparison.comap_le, hf, hf]

theorem printOrder_perm (fields : List (String × α)) :
    (printOrder collation fields).Perm fields :=
  (ownOrder_perm _).trans ((Comparison.sort_perm _ _).trans (ownOrder_perm fields))

/-- **What the rebuild prints of an object**, where no property is called `__proto__`. -/
theorem canon_obj (hnodup : (keysOf fields).Nodup) (hproto : "__proto__" ∉ keysOf fields) :
    canon collation (.obj fields) =
      .obj (printOrder collation (fields.map (canonField collation))) := by
  let assigned := (collation.comap Prod.fst).sort
    (ownOrder (stableSortFields collation (ofFields fields)))
  have hkeys : (keysOf assigned).Perm (keysOf fields) := by
    have hperm : assigned.Perm (stableSortFields collation (ofFields fields)) :=
      (Comparison.sort_perm _ _).trans (ownOrder_perm _)
    refine (hperm.map Prod.fst).trans (List.Perm.of_eq ?_)
    rw [stableSortFields_eq, ofFields_eq, List.map_map, List.map_map]
    rfl
  have hbuilt : objectOf assigned = .obj assigned :=
    objectOf_eq (hkeys.nodup_iff.mpr hnodup) fun hmem => hproto (hkeys.mem_iff.mp hmem)
  have hfst : ∀ field : String × JsValue, ((field.1, tree field.2) : String × Json).1 = field.1 :=
    fun _ => rfl
  rw [canon, ofJson, stableSortValue]
  change tree (objectOf assigned) = _
  rw [hbuilt, tree, treeFields_eq, map_sort_fst _ hfst, map_ownOrder _ hfst, stableSortFields_eq,
    ofFields_eq, List.map_map, List.map_map]
  rfl

theorem printOrder_eq_of_perm (h : Separates collation names) (hnodup : (keysOf fs).Nodup)
    (hnames : ∀ key ∈ keysOf fs, names key) (hperm : fs.Perm gs) :
    printOrder collation fs = printOrder collation gs := by
  have hboth : (printOrder collation fs).Perm (printOrder collation gs) :=
    (printOrder_perm fs).trans (hperm.trans (printOrder_perm gs).symm)
  refine hboth.eq_of_pairwise (fun a b ha hb hab hba => ?_)
    (Comparison.sort_sort_pairwise _ _ _) (Comparison.sort_sort_pairwise _ _ _)
  have ha : a ∈ fs := (printOrder_perm fs).mem_iff.mp ha
  have hb : b ∈ fs := hperm.mem_iff.mpr ((printOrder_perm gs).mem_iff.mp hb)
  obtain ⟨hrank, hcollation⟩ := (Comparison.ties_thenBy _ _).mp ⟨hab, hba⟩
  refine List.inj_on_of_nodup_map hnodup ha hb ?_
  have hsame : rank a.1 = rank b.1 := Comparison.ties_ofKey.mp hrank
  by_cases haIndex : (indexOf? a.1).isSome
  · exact eq_of_rank_eq haIndex hsame
  · by_cases hbIndex : (indexOf? b.1).isSome
    · exact (eq_of_rank_eq hbIndex hsame.symm).symm
    · rw [Option.not_isSome_iff_eq_none] at haIndex hbIndex
      exact h.ties a.1 b.1 (hnames _ (List.mem_map_of_mem ha)) (hnames _ (List.mem_map_of_mem hb))
        haIndex hbIndex hcollation

theorem kind_canon (h : Separates collation names) (hv : v.KeysIn names) :
    (canon collation v).kind = v.kind := by
  cases v with
  | obj fields =>
    rw [Json.KeysIn] at hv
    rw [canon_obj hv.1 fun hmem => ?_]
    · rfl
    · obtain ⟨field, hfield, hkey⟩ := List.mem_map.mp hmem
      exact h.proto (hkey ▸ (Json.fieldsIn_iff.mp hv.2 field hfield).1)
  | _ => rfl

theorem proto_not_mem (h : Separates collation names) (hfields : Json.FieldsIn names fields) :
    "__proto__" ∉ keysOf fields := by
  intro hmem
  obtain ⟨field, hfield, hkey⟩ := List.mem_map.mp hmem
  exact h.proto (hkey ▸ (Json.fieldsIn_iff.mp hfields field hfield).1)

theorem canon_obj_eq_iff (h : Separates collation names) (hfs : (Json.obj fs).KeysIn names)
    (hgs : (Json.obj gs).KeysIn names) :
    canon collation (.obj fs) = canon collation (.obj gs) ↔
      (fs.map (canonField collation)).Perm (gs.map (canonField collation)) := by
  rw [Json.KeysIn] at hfs hgs
  rw [canon_obj hfs.1 (proto_not_mem h hfs.2), canon_obj hgs.1 (proto_not_mem h hgs.2),
    Json.obj.injEq]
  have hkeys : keysOf (fs.map (canonField collation)) = keysOf fs := by
    rw [keysOf, List.map_map]
    rfl
  constructor
  · intro heq
    exact (printOrder_perm _).symm.trans ((List.Perm.of_eq heq).trans (printOrder_perm _))
  · intro hperm
    refine printOrder_eq_of_perm h (hkeys ▸ hfs.1) (fun key hkey => ?_) hperm
    rw [hkeys] at hkey
    obtain ⟨field, hfield, rfl⟩ := List.mem_map.mp hkey
    exact (Json.fieldsIn_iff.mp hfs.2 field hfield).1

theorem canon_of_primitive (hv : v.kind < 4) : canon collation v = v := by
  cases v with
  | arr xs => exact absurd hv (by rw [Json.kind]; decide)
  | obj fields => exact absurd hv (by rw [Json.kind]; decide)
  | _ => rfl

theorem canon_eq_iff_of_primitive (h : Separates collation names) (hv : v.kind < 4)
    (hw : w.KeysIn names) :
    canon collation v = canon collation w ↔ v = w := by
  constructor
  · intro heq
    have hkind := congrArg Json.kind heq
    rw [canon_of_primitive hv, kind_canon h hw] at hkind
    rwa [canon_of_primitive hv, canon_of_primitive (hkind ▸ hv)] at heq
  · rintro rfl
    rfl

mutual

/-- **The texts of two values are equal exactly if the values are the same up to order.** -/
theorem canon_eq_iff (h : Separates collation names) : ∀ v w : Json, v.KeysIn names →
    w.KeysIn names → (canon collation v = canon collation w ↔ SameUpToOrder v w)
  | .arr xs, w, hv, hw => by
    rw [SameUpToOrder]
    constructor
    · intro heq
      have hkind := congrArg Json.kind heq
      rw [kind_canon h hv, kind_canon h hw] at hkind
      cases w with
      | arr ys =>
        rw [canon_arr, canon_arr, Json.arr.injEq] at heq
        exact ⟨ys, rfl, (canonEntries_eq_iff h xs ys hv hw).mp heq⟩
      | _ => cases hkind
    · rintro ⟨ys, rfl, hsame⟩
      rw [canon_arr, canon_arr, (canonEntries_eq_iff h xs ys hv hw).mpr hsame]
  | .obj fs, w, hv, hw => by
    rw [SameUpToOrder]
    constructor
    · intro heq
      have hkind := congrArg Json.kind heq
      rw [kind_canon h hv, kind_canon h hw] at hkind
      cases w with
      | obj gs =>
        exact ⟨gs, rfl, (canonFields_perm_iff h fs gs hv.2 hw.2).mp
          ((canon_obj_eq_iff h hv hw).mp heq)⟩
      | _ => cases hkind
    · rintro ⟨gs, rfl, hsame⟩
      exact (canon_obj_eq_iff h hv hw).mpr ((canonFields_perm_iff h fs gs hv.2 hw.2).mpr hsame)
  | .null, w, _, hw => by
    rw [SameUpToOrder, canon_eq_iff_of_primitive h (by rw [Json.kind]; decide) hw]
    all_goals exact fun _ => nofun
  | .bool b, w, _, hw => by
    rw [SameUpToOrder, canon_eq_iff_of_primitive h (by rw [Json.kind]; decide) hw]
    all_goals exact fun _ => nofun
  | .num q, w, _, hw => by
    rw [SameUpToOrder, canon_eq_iff_of_primitive h (by rw [Json.kind]; decide) hw]
    all_goals exact fun _ => nofun
  | .str s, w, _, hw => by
    rw [SameUpToOrder, canon_eq_iff_of_primitive h (by rw [Json.kind]; decide) hw]
    all_goals exact fun _ => nofun

theorem canonEntries_eq_iff (h : Separates collation names) : ∀ xs ys : List Json,
    Json.EntriesIn names xs → Json.EntriesIn names ys →
    (xs.map (canon collation) = ys.map (canon collation) ↔ SameEntries xs ys)
  | [], ys, _, _ => by
    rw [SameEntries, List.map_nil, eq_comm, List.map_eq_nil_iff]
  | x :: xs, [], _, _ => by
    rw [SameEntries]
    refine iff_of_false (List.cons_ne_nil _ _) ?_
    rintro ⟨y, rest, heq, -⟩
    cases heq
  | x :: xs, y :: ys, hxs, hys => by
    rw [SameEntries, List.map_cons, List.map_cons, List.cons.injEq, canon_eq_iff h x y hxs.1 hys.1,
      canonEntries_eq_iff h xs ys hxs.2 hys.2]
    constructor
    · rintro ⟨hfirst, hrest⟩
      exact ⟨y, ys, rfl, hfirst, hrest⟩
    · rintro ⟨z, rest, heq, hfirst, hrest⟩
      obtain ⟨rfl, rfl⟩ := List.cons.inj heq
      exact ⟨hfirst, hrest⟩

theorem canonFields_perm_iff (h : Separates collation names) : ∀ fs gs : List (String × Json),
    Json.FieldsIn names fs → Json.FieldsIn names gs →
    ((fs.map (canonField collation)).Perm (gs.map (canonField collation)) ↔ SameFields fs gs)
  | [], gs, _, _ => by
    rw [SameFields, List.map_nil, List.nil_perm, List.map_eq_nil_iff]
  | (key, x) :: fs, gs, hfs, hgs => by
    rw [SameFields]
    have hx : x.KeysIn names := hfs.2.1
    constructor
    · intro hperm
      -- the counterpart of the first property
      have hmem : canonField collation (key, x) ∈ gs.map (canonField collation) :=
        hperm.mem_iff.mp List.mem_cons_self
      obtain ⟨⟨other, y⟩, hy, hfield⟩ := List.mem_map.mp hmem
      obtain ⟨rfl, hvalue⟩ := Prod.mk.inj hfield
      obtain ⟨before, behind, rfl⟩ := List.append_of_mem hy
      have hmiddle : (before ++ (other, y) :: behind).Perm ((other, y) :: (before ++ behind)) :=
        List.perm_middle
      have hrest : Json.FieldsIn names (before ++ behind) := Json.fieldsIn_iff.mpr fun field hf =>
        Json.fieldsIn_iff.mp hgs field (hmiddle.mem_iff.mpr (List.mem_cons_of_mem _ hf))
      have hyNames := (Json.fieldsIn_iff.mp hgs (other, y) hy).2
      refine ⟨y, before ++ behind, hmiddle, (canon_eq_iff h x y hx hyNames).mp hvalue.symm, ?_⟩
      refine (canonFields_perm_iff h fs _ hfs.2.2 hrest).mp ?_
      have hcons := hperm.trans (hmiddle.map (canonField collation))
      rw [List.map_cons, List.map_cons, hfield] at hcons
      exact (List.perm_cons _).mp hcons
    · rintro ⟨y, rest, hperm, hsame, hfields⟩
      have hall := Json.fieldsIn_iff.mp hgs
      have hyNames := (hall (key, y) (hperm.mem_iff.mpr List.mem_cons_self)).2
      have hrest : Json.FieldsIn names rest := Json.fieldsIn_iff.mpr fun field hf =>
        hall field (hperm.mem_iff.mpr (List.mem_cons_of_mem _ hf))
      have hvalue := (canon_eq_iff h x y hx hyNames).mpr hsame
      have hrestPerm := (canonFields_perm_iff h fs rest hfs.2.2 hrest).mpr hfields
      have hfield : canonField collation (key, x) = canonField collation (key, y) := by
        rw [canonField, canonField, hvalue]
      refine List.Perm.trans ?_ (hperm.map (canonField collation)).symm
      rw [List.map_cons, List.map_cons, hfield]
      exact hrestPerm.cons _

end

/-! ### Names that are not told apart -/

theorem canon_proto (q : ℚ) : canon collation (.obj [("__proto__", .num q)]) = .obj [] := rfl

theorem not_sameUpToOrder_proto (q : ℚ) :
    ¬ SameUpToOrder (.obj [("__proto__", .num q)]) (.obj []) := by
  intro hsame
  rw [SameUpToOrder] at hsame
  obtain ⟨gs, hgs, hfields⟩ := hsame
  obtain rfl : [] = gs := Json.obj.inj hgs
  rw [SameFields] at hfields
  obtain ⟨y, rest, hperm, -⟩ := hfields
  exact List.cons_ne_nil _ _ hperm.nil_eq.symm

def pairOf (k l : String) : Json := .obj [(k, .null), (l, .null)]

variable {k l : String}

theorem printOrder_of_ties (hk : indexOf? k = none) (hl : indexOf? l = none)
    (hties : collation.Ties k l) :
    [(k, Json.null), (l, Json.null)].Sublist
      (printOrder collation [(k, Json.null), (l, Json.null)]) := by
  have hrank : (keyOrder.comap Prod.fst).le (k, Json.null) (l, Json.null) = true := by
    rw [Comparison.comap_le, keyOrder, Comparison.ofKey_le, rank, rank, hk, hl]
  have hcollation : (collation.comap Prod.fst).le (k, Json.null) (l, Json.null) = true := hties.1
  refine Comparison.pair_sublist_sort _ hrank ?_
  refine Comparison.pair_sublist_sort _ hcollation ?_
  exact Comparison.pair_sublist_sort _ hrank (List.Sublist.refl _)

theorem nodup_pairOf (hne : k ≠ l) :
    (keysOf [(k, Json.null), (l, Json.null)]).Nodup := by
  simpa [keysOf] using hne

theorem keysIn_pairOf (hk : names k) (hl : names l) (hne : k ≠ l) :
    (pairOf k l).KeysIn names :=
  ⟨nodup_pairOf hne, hk, trivial, hl, trivial, trivial⟩

theorem canon_pairOf_ne (hk : indexOf? k = none) (hl : indexOf? l = none)
    (hties : collation.Ties k l) (hne : k ≠ l) (hkproto : k ≠ "__proto__")
    (hlproto : l ≠ "__proto__") :
    canon collation (pairOf k l) ≠ canon collation (pairOf l k) := by
  intro heq
  have hproto : ∀ a b : String, a ≠ "__proto__" → b ≠ "__proto__" →
      "__proto__" ∉ keysOf [(a, Json.null), (b, Json.null)] := by
    intro a b ha hb
    simpa [keysOf] using ⟨ha.symm, hb.symm⟩
  rw [pairOf, pairOf, canon_obj (nodup_pairOf hne) (hproto k l hkproto hlproto),
    canon_obj (nodup_pairOf hne.symm) (hproto l k hlproto hkproto), Json.obj.injEq] at heq
  have hfirst : [(k, Json.null), (l, Json.null)].Sublist
      (printOrder collation [(k, Json.null), (l, Json.null)]) := printOrder_of_ties hk hl hties
  have hsecond : [(l, Json.null), (k, Json.null)].Sublist
      (printOrder collation [(l, Json.null), (k, Json.null)]) :=
    printOrder_of_ties hl hk ⟨hties.2, hties.1⟩
  have hnodup : (printOrder collation [(k, Json.null), (l, Json.null)]).Nodup :=
    (printOrder_perm _).nodup_iff.mpr ((nodup_pairOf hne).of_map Prod.fst)
  exact Comparison.not_pair_sublist_both hnodup hfirst (heq ▸ hsecond)

end Canon

def codeUnits : Comparison String := .ofKey fun key => key.toList.map Char.toNat

end CompareVI.Ledger
