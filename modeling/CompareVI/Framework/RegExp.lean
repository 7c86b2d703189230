import Mathlib.Data.List.Basic
import Mathlib.Tactic.Common

/-!
# Regular expressions

The regular expressions of JavaScript as far as a `test` sees them: a place in a text, and the
places at which a match that begins there can end. What a match captures, and which of several
matches comes first, is not looked at.

Letters of a pattern are ASCII here and match up to their case (`letter`), as with the `i` flag:
no other character folds to an ASCII one.

A pattern between `^` and `$` is tested at one place only (`test_anchored`), and the repetition of
a class takes any run of its characters (`mem_ends_star_chars`).
-/

namespace Framework

inductive RegExp where
  | empty
  | chars (p : Char → Bool)
  | seq (r s : RegExp)
  | alt (r s : RegExp)
  /-- `r*`. -/
  | star (r : RegExp)
  /-- `r{0,n}`. -/
  | upTo (n : ℕ) (r : RegExp)
  /-- `^`. -/
  | start
  /-- `$`. -/
  | finish
  /-- `\b`. -/
  | boundary

namespace RegExp

/-- A place in a text: what is before it, from the end, and the rest. -/
structure Place where
  before : List Char
  rest : List Char
deriving DecidableEq

/-- `\w`. -/
def isWord (c : Char) : Bool := c.isAlphanum || c = '_'

def Place.isBoundary (p : Place) : Bool := p.before.head?.any isWord != p.rest.head?.any isWord

def repeatEnds (step : Place → List Place) : ℕ → Place → List Place
  | 0, p => [p]
  | n + 1, p => p :: ((step p).filter fun q => q.rest.length < p.rest.length).flatMap
      (repeatEnds step n)

def ends : RegExp → Place → List Place
  | empty, p => [p]
  | chars q, p =>
    match p.rest with
    | [] => []
    | c :: rest => if q c then [⟨c :: p.before, rest⟩] else []
  | seq r s, p => (r.ends p).flatMap s.ends
  | alt r s, p => r.ends p ++ s.ends p
  | star r, p => repeatEnds r.ends p.rest.length p
  | upTo n r, p => repeatEnds r.ends n p
  | start, p => if p.before = [] then [p] else []
  | finish, p => if p.rest = [] then [p] else []
  | boundary, p => if p.isBoundary then [p] else []

def testFrom (r : RegExp) (before : List Char) : List Char → Bool
  | [] => !(r.ends ⟨before, []⟩).isEmpty
  | c :: rest => !(r.ends ⟨before, c :: rest⟩).isEmpty || testFrom r (c :: before) rest

/-- `r.test(text)`. -/
def test (r : RegExp) (text : List Char) : Bool := r.testFrom [] text

/-! ### Writing patterns -/

def letter (c : Char) : RegExp := chars fun d => d.toLower = c.toLower

/-- `r₁r₂…`. -/
def all : List RegExp → RegExp
  | [] => empty
  | r :: rs => seq r (all rs)

/-- `r₁|r₂|…`, of at least one. -/
def oneOf : RegExp → List RegExp → RegExp
  | r, [] => r
  | r, s :: rs => alt r (oneOf s rs)

def word (s : String) : RegExp := all (s.toList.map letter)

/-- `r+`. -/
def plus (r : RegExp) : RegExp := seq r (star r)

/-- `r?`. -/
def opt (r : RegExp) : RegExp := alt r empty

/-! ### What is matched -/

section Ends

variable {r s : RegExp} {p q : Place}

theorem mem_ends_seq : q ∈ (seq r s).ends p ↔ ∃ m ∈ r.ends p, q ∈ s.ends m := List.mem_flatMap

variable {cls : Char → Bool}

theorem mem_ends_chars :
    q ∈ (chars cls).ends p ↔
      ∃ c rest, p.rest = c :: rest ∧ cls c = true ∧ q = ⟨c :: p.before, rest⟩ := by
  rw [ends]
  cases hrest : p.rest with
  | nil => simp
  | cons c rest =>
    split
    · next hc => simp [hc]
    · next hc => simp [hc]

theorem mem_repeatEnds_chars {n : ℕ} (hn : p.rest.length ≤ n) :
    q ∈ repeatEnds (chars cls).ends n p ↔
      ∃ u v, p.rest = u ++ v ∧ (∀ c ∈ u, cls c = true) ∧ q = ⟨u.reverse ++ p.before, v⟩ := by
  induction n generalizing p with
  | zero =>
    have hnil : p.rest = [] := List.eq_nil_of_length_eq_zero (Nat.le_zero.mp hn)
    rw [repeatEnds, List.mem_singleton]
    constructor
    · rintro rfl
      exact ⟨[], q.rest, rfl, by simp, rfl⟩
    · rintro ⟨u, v, huv, -, rfl⟩
      rw [hnil] at huv
      obtain ⟨rfl, rfl⟩ := List.append_eq_nil_iff.mp huv.symm
      rw [List.reverse_nil, List.nil_append, ← hnil]
  | succ n ih =>
    rw [repeatEnds, List.mem_cons, List.mem_flatMap]
    constructor
    · rintro (rfl | ⟨m, hm, hq⟩)
      · exact ⟨[], q.rest, rfl, by simp, rfl⟩
      · obtain ⟨hm, -⟩ := List.mem_filter.mp hm
        obtain ⟨c, rest, hrest, hc, rfl⟩ := mem_ends_chars.mp hm
        have hlength : rest.length ≤ n := by
          rw [hrest, List.length_cons] at hn
          omega
        obtain ⟨u, v, huv, hu, rfl⟩ := (ih hlength).mp hq
        refine ⟨c :: u, v, ?_, List.forall_mem_cons.mpr ⟨hc, hu⟩, ?_⟩
        · rw [hrest, List.cons_append]
          exact congrArg (c :: ·) huv
        · rw [List.reverse_cons, List.append_assoc, List.singleton_append]
    · rintro ⟨u, v, huv, hu, rfl⟩
      cases u with
      | nil =>
        rw [List.nil_append] at huv
        rw [List.reverse_nil, List.nil_append, ← huv]
        exact .inl rfl
      | cons c u =>
        obtain ⟨hc, hu⟩ := List.forall_mem_cons.mp hu
        rw [List.cons_append] at huv
        have hlength : (u ++ v).length ≤ n := by
          rw [huv, List.length_cons] at hn
          omega
        refine .inr ⟨⟨c :: p.before, u ++ v⟩, List.mem_filter.mpr ⟨?_, ?_⟩, ?_⟩
        · exact mem_ends_chars.mpr ⟨c, u ++ v, huv, hc, rfl⟩
        · rw [huv, List.length_cons, decide_eq_true_eq]
          exact Nat.lt_succ_self _
        · refine (ih hlength).mpr ⟨u, v, rfl, hu, ?_⟩
          rw [List.reverse_cons, List.append_assoc, List.singleton_append]

theorem mem_ends_star_chars :
    q ∈ (star (chars cls)).ends p ↔
      ∃ u v, p.rest = u ++ v ∧ (∀ c ∈ u, cls c = true) ∧ q = ⟨u.reverse ++ p.before, v⟩ :=
  mem_repeatEnds_chars (Nat.le_refl _)

/-- **A pattern between `^` and `$`** is tested on the whole text. -/
theorem test_anchored (text : List Char) :
    (seq start (seq r finish)).test text = true ↔
      ∃ before, (⟨before, []⟩ : Place) ∈ r.ends ⟨[], text⟩ := by
  have hlater : ∀ (rest : List Char) (c : Char) (before : List Char),
      (seq start (seq r finish)).testFrom (c :: before) rest = false := by
    intro rest
    induction rest with
    | nil => exact fun c before => rfl
    | cons d rest ih =>
      intro c before
      rw [testFrom, ih]
      rfl
  have hhere : (seq start (seq r finish)).test text =
      !((seq start (seq r finish)).ends ⟨[], text⟩).isEmpty := by
    cases text with
    | nil => rfl
    | cons c text => rw [test, testFrom, hlater, Bool.or_false]
  have hends : (seq start (seq r finish)).ends ⟨[], text⟩ =
      (r.ends ⟨[], text⟩).flatMap finish.ends := List.append_nil _
  rw [hhere, hends, Bool.not_eq_true', List.isEmpty_eq_false_iff_exists_mem]
  constructor
  · rintro ⟨q, hq⟩
    obtain ⟨⟨before, rest⟩, hm, hq⟩ := List.mem_flatMap.mp hq
    rw [ends] at hq
    split at hq
    · next hrest =>
      exact ⟨before, hrest ▸ hm⟩
    · cases hq
  · rintro ⟨before, hm⟩
    exact ⟨_, List.mem_flatMap.mpr ⟨_, hm, List.mem_singleton.mpr rfl⟩⟩

end Ends

end RegExp

end Framework
