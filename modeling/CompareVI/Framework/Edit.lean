import Mathlib.Data.List.Basic

/-!
# Edits that may fail and say whether they changed anything

An edit takes a value to its new value and a flag, or fails. Edits are put one after the other
(`andThen`, `inOrder`), the flags being joined by `or`.

`Respects R e` says that the outcome of an edit, where there is one, stands in the relation `R`
to what it was given. For a reflexive and transitive `R` it passes from the parts to a sequence
(`respects_inOrder`). The edits of a list here work on single entries, so for them it is enough
that `R` can be shown entry by entry: such an `R` is a `Splicing`, a preorder that is closed
under putting lists end to end. A part of the entries that is kept in order
(`splicing_keeping`), a reading of the entries that does not change (`splicing_reading`), a list
that stays empty (`splicing_empty`) and the number of entries (`splicing_length`) are splicings,
and so is the conjunction of two.
-/

namespace Framework

/-- An edit: the new value and whether it is another one, `none` where it fails. -/
abbrev Edit (α : Type) := α → Option (α × Bool)

namespace Edit

variable {α : Type}

def skip : Edit α := fun a => some (a, false)

def total (f : α → α × Bool) : Edit α := fun a => some (f a)

def andThen (f g : Edit α) : Edit α := fun a => do
  let (b, changed) ← f a
  let (c, changed') ← g b
  return (c, changed || changed')

def inOrder : List (Edit α) → Edit α
  | [] => skip
  | e :: rest => andThen e (inOrder rest)

/-! ### What an edit does to a value -/

/-- What the edit makes of a value is related to it. -/
def Respects (R : α → α → Prop) (e : Edit α) : Prop :=
  ∀ ⦃a b changed⦄, e a = some (b, changed) → R a b

variable {R : α → α → Prop} {e f : Edit α}

theorem respects_skip (hrefl : ∀ a, R a a) : Respects R skip := by
  intro a b changed h
  cases h
  exact hrefl a

variable {changed : Bool} {s : List α} {a : α}

variable {c : α} {g : α → α × Bool}

theorem total_spec {b : α} (h : total g a = some (b, changed)) : b = (g a).1 :=
  (congrArg Prod.fst (Option.some.inj h)).symm

theorem respects_total (h : ∀ a, R a (g a).1) : Respects R (total g) := by
  intro a b changed hab
  rw [total_spec hab]
  exact h a

theorem andThen_spec (h : andThen e f a = some (c, changed)) :
    ∃ b left right, e a = some (b, left) ∧ f b = some (c, right) ∧
      changed = (left || right) := by
  obtain ⟨⟨b, left⟩, he, hrest⟩ := Option.bind_eq_some_iff.mp h
  obtain ⟨⟨c', right⟩, hf, hpure⟩ := Option.bind_eq_some_iff.mp hrest
  cases hpure
  exact ⟨b, left, right, he, hf, rfl⟩

theorem Respects.andThen (htrans : ∀ {a b c}, R a b → R b c → R a c) (he : Respects R e)
    (hf : Respects R f) : Respects R (andThen e f) := by
  intro a c changed h
  obtain ⟨b, left, right, hab, hbc, -⟩ := andThen_spec h
  exact htrans (he hab) (hf hbc)

theorem respects_inOrder (hrefl : ∀ a, R a a) (htrans : ∀ {a b c}, R a b → R b c → R a c)
    {edits : List (Edit α)} (h : ∀ e ∈ edits, Respects R e) : Respects R (inOrder edits) := by
  induction edits with
  | nil => exact respects_skip hrefl
  | cons e rest ih =>
    have he : Respects R e := h e List.mem_cons_self
    have hrest : Respects R (inOrder rest) :=
      ih fun other hother => h other (List.mem_cons_of_mem e hother)
    exact he.andThen htrans hrest

theorem inOrder_append_spec {before after : List (Edit α)}
    (h : inOrder (before ++ after) a = some (c, changed)) :
    ∃ b left right, inOrder before a = some (b, left) ∧ inOrder after b = some (c, right) ∧
      changed = (left || right) := by
  induction before generalizing a changed with
  | nil => exact ⟨a, false, changed, rfl, h, rfl⟩
  | cons e rest ih =>
    obtain ⟨a', first, others, he, hrest, rfl⟩ := andThen_spec h
    obtain ⟨b, left, right, hleft, hright, rfl⟩ := ih hrest
    refine ⟨b, first || left, right, ?_, hright, (Bool.or_assoc ..).symm⟩
    rw [inOrder, Edit.andThen, he]
    simp only [Option.bind_eq_bind, Option.bind_some, hleft, Option.pure_def]

/-! ### Edits of a list -/

variable {p : α → Bool}

def onFirst (p : α → Option Bool) (f : α → Option (List α × Bool)) : Edit (List α)
  | [] => some ([], false)
  | a :: rest => do
    if ← p a then
      let (new, changed) ← f a
      return (new ++ rest, changed)
    else
      let (rest', changed) ← onFirst p f rest
      return (a :: rest', changed)

def onEach (f : α → α × Bool) : Edit (List α) :=
  total fun as => (as.map fun a => (f a).1, as.any fun a => (f a).2)

def dropAll (p : α → Bool) : Edit (List α) :=
  total fun as => (as.filter fun a => !p a, as.any p)

def push (new : α) : Edit (List α) := total fun as => (as ++ [new], true)

def insertAt (i : ℕ) (new : α) : Edit (List α) := total fun as => (as.insertIdx i new, true)

def unlessAny (p : α → Bool) (e : Edit (List α)) : Edit (List α) := fun as =>
  if as.any p then skip as else e as

def ifAny (p : α → Bool) (e f : Edit (List α)) : Edit (List α) := fun as =>
  if as.any p then e as else f as

theorem ifAny_pos (h : s.any p = true) (e f : Edit (List α)) :
    ifAny p e f s = e s := by
  rw [ifAny, if_pos h]

theorem ifAny_neg (h : s.any p = false) (e f : Edit (List α)) :
    ifAny p e f s = f s := by
  rw [ifAny, if_neg (by rw [h]; exact Bool.false_ne_true)]

theorem exists_split (h : s.any p = true) :
    ∃ before a after, s = before ++ a :: after ∧ (∀ b ∈ before, p b = false) ∧ p a = true := by
  obtain ⟨a, ha⟩ := Option.isSome_iff_exists.mp (List.find?_isSome.mpr (List.any_eq_true.mp h))
  obtain ⟨hp, before, after, hs, hbefore⟩ := List.find?_eq_some_iff_append.mp ha
  refine ⟨before, a, after, hs, fun b hb => ?_, hp⟩
  simpa using hbefore b hb

theorem onFirst_spec {f : α → List α × Bool} {t : List α}
    (h : onFirst (fun a => some (p a)) (fun a => some (f a)) s = some (t, changed)) :
    (∀ a ∈ s, p a = false) ∧ t = s ∧ changed = false ∨
      ∃ before a after, s = before ++ a :: after ∧ (∀ b ∈ before, p b = false) ∧ p a = true ∧
        t = before ++ (f a).1 ++ after ∧ changed = (f a).2 := by
  induction s generalizing t changed with
  | nil =>
    cases h
    exact .inl ⟨List.forall_mem_nil _, rfl, rfl⟩
  | cons a rest ih =>
    simp only [onFirst, Option.bind_eq_bind, Option.bind_some] at h
    split at h
    · next hp =>
      cases h
      exact .inr ⟨[], a, rest, rfl, List.forall_mem_nil _, hp, rfl, rfl⟩
    · next hp =>
      have hp : p a = false := Bool.not_eq_true _ ▸ hp
      obtain ⟨⟨rest', flag⟩, hrest, hpure⟩ := Option.bind_eq_some_iff.mp h
      cases hpure
      rcases ih hrest with ⟨hnone, rfl, rfl⟩ | ⟨before, b, after, rfl, hbefore, hb, rfl, rfl⟩
      · exact .inl ⟨List.forall_mem_cons.mpr ⟨hp, hnone⟩, rfl, rfl⟩
      · exact .inr ⟨a :: before, b, after, rfl, List.forall_mem_cons.mpr ⟨hp, hbefore⟩, hb, rfl,
          rfl⟩

/-! ### Relations between lists that are shown entry by entry -/

/-- A preorder on lists that is closed under putting lists end to end. -/
structure Splicing (R : List α → List α → Prop) : Prop where
  refl : ∀ s, R s s
  trans : ∀ {s t u}, R s t → R t u → R s u
  append : ∀ {s s' t t'}, R s s' → R t t' → R (s ++ t) (s' ++ t')

variable {S S' : List α → List α → Prop}

/-- The entries of a kind are all there, in the same order. -/
def Keeping (p : α → Bool) (s t : List α) : Prop := (s.filter p).Sublist t

theorem splicing_keeping (p : α → Bool) : Splicing (Keeping p) where
  refl s := List.filter_sublist
  trans {s t u} hst htu := by
    have hfilter : ((s.filter p).filter p).Sublist (t.filter p) := List.Sublist.filter p hst
    simp only [List.filter_filter, Bool.and_self] at hfilter
    exact hfilter.trans htu
  append {s s' t t'} hs ht := by
    unfold Keeping
    rw [List.filter_append]
    exact List.Sublist.append hs ht

theorem splicing_reading {β : Type} (read : α → Option β) :
    Splicing fun s t : List α => t.filterMap read = s.filterMap read where
  refl s := rfl
  trans hst htu := htu.trans hst
  append hs ht := by rw [List.filterMap_append, List.filterMap_append, hs, ht]

theorem splicing_empty : Splicing fun s t : List α => s = [] → t = [] where
  refl s := id
  trans hst htu h := htu (hst h)
  append hs ht h := by
    obtain ⟨rfl, rfl⟩ := List.append_eq_nil_iff.mp h
    rw [hs rfl, ht rfl, List.append_nil]

theorem splicing_length : Splicing fun s t : List α => t.length = s.length where
  refl s := rfl
  trans hst htu := htu.trans hst
  append hs ht := by rw [List.length_append, List.length_append, hs, ht]

theorem splicing_any : Splicing fun _ _ : List α => True where
  refl _ := trivial
  trans _ _ := trivial
  append _ _ := trivial

section Splicing

variable (hS : Splicing S)
include hS

theorem Splicing.cons (a : α) {s t : List α} (h : S s t) : S (a :: s) (a :: t) :=
  hS.append (hS.refl [a]) h

theorem Splicing.skip : Respects S skip := respects_skip hS.refl

theorem Splicing.andThen {e f : Edit (List α)} (he : Respects S e) (hf : Respects S f) :
    Respects S (Edit.andThen e f) :=
  he.andThen hS.trans hf

theorem Splicing.inOrder {edits : List (Edit (List α))} (h : ∀ e ∈ edits, Respects S e) :
    Respects S (Edit.inOrder edits) :=
  respects_inOrder hS.refl hS.trans h

theorem Splicing.onFirst {p : α → Option Bool} {f : α → Option (List α × Bool)}
    (h : ∀ a new changed, p a = some true → f a = some (new, changed) → S [a] new) :
    Respects S (onFirst p f) := by
  intro s
  induction s with
  | nil =>
    intro t changed ht
    cases ht
    exact hS.refl []
  | cons a rest ih =>
    intro t changed ht
    obtain ⟨found, hp, ht⟩ := Option.bind_eq_some_iff.mp ht
    cases found with
    | true =>
      obtain ⟨⟨new, changed'⟩, hf, hpure⟩ := Option.bind_eq_some_iff.mp ht
      cases hpure
      exact hS.append (h a new changed hp hf) (hS.refl rest)
    | false =>
      obtain ⟨⟨rest', changed'⟩, hrest, hpure⟩ := Option.bind_eq_some_iff.mp ht
      cases hpure
      exact hS.cons a (ih hrest)

theorem Splicing.onEach {f : α → α × Bool} (h : ∀ a, S [a] [(f a).1]) :
    Respects S (onEach f) := by
  refine respects_total fun s => ?_
  induction s with
  | nil => exact hS.refl []
  | cons a rest ih => exact hS.append (h a) ih

theorem Splicing.dropAll (h : ∀ a, p a = true → S [a] []) : Respects S (dropAll p) := by
  refine respects_total fun s => ?_
  induction s with
  | nil => exact hS.refl []
  | cons a rest ih =>
    rw [List.filter_cons]
    by_cases hp : p a = true
    · rw [if_neg (by rw [hp]; exact Bool.false_ne_true)]
      exact hS.append (h a hp) ih
    · rw [if_pos (by rw [Bool.not_eq_true] at hp; rw [hp]; rfl)]
      exact hS.cons a ih

theorem Splicing.push {new : α} (h : S [] [new]) : Respects S (push new) :=
  respects_total fun s => by
    have hs : S (s ++ []) (s ++ [new]) := hS.append (hS.refl s) h
    rwa [List.append_nil] at hs

theorem Splicing.insertAt {new : α} (h : S [] [new]) (i : ℕ) : Respects S (insertAt i new) := by
  refine respects_total fun s => ?_
  induction s generalizing i with
  | nil =>
    cases i with
    | zero => exact h
    | succ i => exact hS.refl []
  | cons a rest ih =>
    cases i with
    | zero => exact hS.append h (hS.refl (a :: rest))
    | succ i => exact hS.cons a (ih i)

theorem Splicing.unlessAny {e : Edit (List α)} (he : Respects S e) :
    Respects S (unlessAny p e) := by
  intro s t changed h
  unfold Edit.unlessAny at h
  split at h
  · exact hS.skip h
  · exact he h

omit hS in
theorem Respects.ifAny {e f : Edit (List α)} (he : Respects S e) (hf : Respects S f) :
    Respects S (ifAny p e f) := by
  intro s t changed h
  unfold Edit.ifAny at h
  split at h
  · exact he h
  · exact hf h

end Splicing

end Edit
end Framework
