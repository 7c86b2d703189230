import Mathlib.Data.List.Basic
import Mathlib.Tactic.Common

/-!
# Loops with early exits

The body of a `foreach` ends in one of three ways: it goes on with the next element
(at its end or by `continue`), it leaves the loop (`break`), or it throws. `forEach`
runs such a body over a list.

`forEach_invariant` is the rule for a loop that did not throw. The invariant `I` is
what holds whenever the loop goes on, and `Q` is what holds after it: an exit has to
reach `Q` from `I` by itself, which is where the exits of one body differ. A loop that
collects results and may throw is a `mapM`, which `mapM_eq_ok_iff` reads entry by entry.
-/

namespace Framework

variable {ε σ α : Type*}

inductive Control (ε σ : Type*) where
  | next (s : σ)
  /-- `break`. -/
  | exit (s : σ)
  | throw (e : ε)

def forEach (body : σ → α → Control ε σ) (s : σ) : List α → Except ε σ
  | [] => .ok s
  | a :: as =>
    match body s a with
    | .next t => forEach body t as
    | .exit t => .ok t
    | .throw e => .error e

variable {body : σ → α → Control ε σ}

variable {β : Type} {a : α} {s t : σ}

theorem forEach_cons_next (as : List α) (h : body s a = .next t) :
    forEach body s (a :: as) = forEach body t as := by
  rw [forEach, h]

theorem forEach_cons_exit (as : List α) (h : body s a = .exit t) :
    forEach body s (a :: as) = .ok t := by
  rw [forEach, h]

theorem forEach_cons_eq_ok {as : List α} :
    forEach body s (a :: as) = .ok t ↔
      body s a = .exit t ∨ ∃ u, body s a = .next u ∧ forEach body u as = .ok t := by
  rw [forEach]
  cases body s a with
  | next u => simp
  | exit u => simp
  | throw e => simp

/-- **The loop rule.** -/
theorem forEach_invariant {I Q : σ → Prop} (hnext : ∀ s a t, I s → body s a = .next t → I t)
    (hexit : ∀ s a t, I s → body s a = .exit t → Q t) (hend : ∀ s, I s → Q s) {as : List α}
    (hs : I s) (h : forEach body s as = .ok t) : Q t := by
  induction as generalizing s with
  | nil =>
    obtain rfl : s = t := Except.ok.inj h
    exact hend s hs
  | cons a as ih =>
    rcases forEach_cons_eq_ok.mp h with hbreak | ⟨u, hu, hrest⟩
    · exact hexit s a t hs hbreak
    · exact ih (hnext s a u hs hu) hrest

theorem mapM_eq_ok_iff {α ε : Type} {f : α → Except ε β} {xs : List α} {ys : List β} :
    xs.mapM f = .ok ys ↔ List.Forall₂ (fun x y => f x = .ok y) xs ys := by
  induction xs generalizing ys with
  | nil =>
    rw [List.mapM_nil]
    constructor
    · rintro ⟨⟩
      exact .nil
    · rintro ⟨⟩
      rfl
  | cons x xs ih =>
    rw [List.mapM_cons]
    constructor
    · intro h
      cases hx : f x with
      | error message =>
        rw [hx] at h
        cases h
      | ok y =>
        cases hxs : xs.mapM f with
        | error message =>
          rw [hx, hxs] at h
          cases h
        | ok rest =>
          rw [hx, hxs] at h
          obtain rfl : y :: rest = ys := Except.ok.inj h
          exact .cons hx (ih.mp hxs)
    · rintro (_ | ⟨hx, hrest⟩)
      rw [hx, ih.mpr hrest]
      rfl

theorem mapM_eq_some {α : Type} {f : α → Option β} {g : α → β} {xs : List α}
    (h : ∀ x ∈ xs, f x = some (g x)) : xs.mapM f = some (xs.map g) := by
  induction xs with
  | nil => rfl
  | cons x xs ih =>
    obtain ⟨hx, hxs⟩ := List.forall_mem_cons.mp h
    rw [List.mapM_cons, hx, ih hxs]
    rfl

theorem mapM_eq_none_iff {α : Type} {f : α → Option β} {xs : List α} :
    xs.mapM f = none ↔ ∃ x ∈ xs, f x = none := by
  induction xs with
  | nil =>
    rw [List.mapM_nil]
    refine iff_of_false (Option.some_ne_none _) ?_
    rintro ⟨x, hx, -⟩
    cases hx
  | cons x xs ih =>
    rw [List.mapM_cons, List.exists_mem_cons_iff, ← ih]
    cases f x with
    | none => exact iff_of_true rfl (.inl rfl)
    | some y =>
      cases xs.mapM f with
      | none => exact iff_of_true rfl (.inr rfl)
      | some ys => exact iff_of_false (Option.some_ne_none _) (by rintro (h | h) <;> cases h)

theorem foldlM_eq_some {α : Type} {I : β → Prop} {f : β → α → Option β} {g : β → α → β}
    {xs : List α} (hstep : ∀ x ∈ xs, ∀ b, I b → f b x = some (g b x) ∧ I (g b x)) {b : β}
    (hb : I b) : xs.foldlM f b = some (xs.foldl g b) ∧ I (xs.foldl g b) := by
  induction xs generalizing b with
  | nil => exact ⟨rfl, hb⟩
  | cons x xs ih =>
    obtain ⟨hx, hxs⟩ := List.forall_mem_cons.mp hstep
    obtain ⟨heq, hnext⟩ := hx b hb
    rw [List.foldlM_cons, heq, List.foldl_cons]
    exact ih hxs hnext

end Framework
