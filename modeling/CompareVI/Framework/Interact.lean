import Mathlib.Data.List.Basic
import Mathlib.Tactic.Common

/-!
# Programs that talk to the outside

A sequential program with effects is a tree: it is done, it has thrown, or it asks a
query and goes on with the answer (`Prog`). The outside is not modelled: an answer is
whatever has the type of answers to the query, so the runs of a program are all the
ways in which the outside may answer it. A history lists the exchanges made so far.

`Safe I Post h p` says that the program `p`, started after the history `h`, asks each
query `q` only after a history `h'` with `I h' q`, and ends with a result `r` only
after a history with `Post h' r`. It is defined by recursion on the tree, and the
rules of the file build it along the text of a program:

* `safe_bind`: one program after another;
* `Safe.mono`: a weaker condition on the result;
* `Safe.reaches`, `Safe.asked`, `Safe.invariant` and `Safe.result`: what it says about
  the runs.

A program that throws nothing adds exchanges to its history and returns; `Adds I P h p`
speaks of what it adds, and has rules of its own (`adds_pure`, `adds_query`, `Adds.then`).
-/

namespace Framework

variable {Q : Type} {A : Q → Type} {α β : Type}

/-- A program that asks queries of type `Q`, whose answers have the types `A`. -/
inductive Prog (Q : Type) (A : Q → Type) (α : Type) : Type where
  | done (a : α)
  | fail (message : String)
  | ask (q : Q) (k : A q → Prog Q A α)

structure Exchange (A : Q → Type) where
  query : Q
  answer : A query

namespace Prog

def bind : Prog Q A α → (α → Prog Q A β) → Prog Q A β
  | .done a, f => f a
  | .fail message, _ => .fail message
  | .ask q k, f => .ask q fun a => (k a).bind f

instance : Monad (Prog Q A) where
  pure := .done
  bind := bind

def query (q : Q) : Prog Q A (A q) := .ask q .done

def ofExcept : Except String α → Prog Q A α
  | .ok a => .done a
  | .error message => .fail message

def call {R : Q → Type} (q : Q) : Prog Q (fun q => Except String (R q)) (R q) :=
  query q >>= fun answer => ofExcept answer

/-- Run a program against an outside with a state that answers every query. -/
def runWith {σ : Type} (outside : σ → (q : Q) → A q × σ) :
    σ → Prog Q A α → List (Exchange A) × Except String α
  | _, .done a => ([], .ok a)
  | _, .fail message => ([], .error message)
  | s, .ask q k =>
    let (a, t) := outside s q
    let (rest, result) := runWith outside t (k a)
    (⟨q, a⟩ :: rest, result)

end Prog

/-- After the exchanges of the history the first program has become the second. -/
inductive Reaches (p : Prog Q A α) : List (Exchange A) → Prog Q A α → Prop where
  | refl : Reaches p [] p
  | step {h : List (Exchange A)} {q : Q} {k : A q → Prog Q A α}
    (hp : Reaches p h (.ask q k)) (a : A q) : Reaches p (h ++ [⟨q, a⟩]) (k a)

/-- A whole run: the exchanges and the result. -/
def Runs (p : Prog Q A α) (h : List (Exchange A)) (r : Except String α) : Prop :=
  Reaches p h (.ofExcept r)

/-- The program asks only what `I` allows after its history, and ends only with what
`Post` allows. -/
def Safe (I : List (Exchange A) → Q → Prop) (Post : List (Exchange A) → Except String α → Prop) :
    List (Exchange A) → Prog Q A α → Prop
  | h, .done a => Post h (.ok a)
  | h, .fail message => Post h (.error message)
  | h, .ask q k => I h q ∧ ∀ a, Safe I Post (h ++ [⟨q, a⟩]) (k a)

variable {I : List (Exchange A) → Q → Prop} {Post : List (Exchange A) → Except String α → Prop}
  {h : List (Exchange A)}

section Rules

@[simp] theorem safe_done (a : α) : Safe I Post h (.done a) ↔ Post h (.ok a) := Iff.rfl

@[simp] theorem safe_fail (message : String) :
    Safe I Post h (.fail message) ↔ Post h (.error message) := Iff.rfl

variable {x : Except String α} {Post' : List (Exchange A) → Except String β → Prop} {q : Q}
   {f : α → Prog Q A β}

theorem safe_ofExcept : Safe I Post h (.ofExcept x) ↔ Post h x := by
  cases x <;> rfl

/-- **The rule of sequence.** -/
theorem safe_bind {p : Prog Q A α} :
    Safe I Post' h (p >>= f) ↔
      Safe I (fun h r => match r with
        | .ok a => Safe I Post' h (f a)
        | .error message => Post' h (.error message)) h p := by
  change Safe I Post' h (p.bind f) ↔ _
  induction p generalizing h with
  | done a => rfl
  | fail message => rfl
  | ask q k ih => exact and_congr_right fun _ => forall_congr' fun a => ih a

theorem safe_query_bind {f : A q → Prog Q A α} :
    Safe I Post h (Prog.query q >>= f) ↔
      I h q ∧ ∀ a, Safe I Post (h ++ [⟨q, a⟩]) (f a) :=
  Iff.rfl

theorem safe_query_throw {e : A q → Except String α} :
    Safe I Post h (Prog.query q >>= fun a => Prog.ofExcept (e a)) ↔
      I h q ∧ ∀ a, Post (h ++ [⟨q, a⟩]) (e a) :=
  safe_query_bind.trans (and_congr_right fun _ => forall_congr' fun _ => safe_ofExcept)

theorem forall_except {P : Except String α → Prop} :
    P x ↔ (∀ a, x = .ok a → P (.ok a)) ∧ ∀ m, x = .error m → P (.error m) := by
  refine ⟨fun h => ⟨fun a ha => ha ▸ h, fun m hm => hm ▸ h⟩, fun ⟨hok, herror⟩ => ?_⟩
  cases x with
  | ok a => exact hok a rfl
  | error m => exact herror m rfl

theorem safe_ofExcept_bind :
    Safe I Post' h (Prog.ofExcept x >>= f) ↔
      (∀ a, x = .ok a → Safe I Post' h (f a)) ∧ ∀ m, x = .error m → Post' h (.error m) :=
  forall_except (P := fun x => Safe I Post' h (Prog.ofExcept x >>= f))

/-- **The rule of consequence.** The history at the end extends the one at the start. -/
theorem Safe.mono {Post' : List (Exchange A) → Except String α → Prop} {p : Prog Q A α}
    (hp : Safe I Post h p) (hPost : ∀ new r, Post (h ++ new) r → Post' (h ++ new) r) :
    Safe I Post' h p := by
  induction p generalizing h with
  | done a => simpa using hPost [] (.ok a) (by simpa using hp)
  | fail message => simpa using hPost [] (.error message) (by simpa using hp)
  | ask q k ih =>
    refine ⟨hp.1, fun a => ih a (hp.2 a) fun new r hr => ?_⟩
    rw [List.append_assoc] at hr ⊢
    exact hPost _ r hr

theorem Safe.weaken {I' : List (Exchange A) → Q → Prop} {p : Prog Q A α} (hp : Safe I Post h p)
    (hI : ∀ h q, I h q → I' h q) : Safe I' Post h p := by
  induction p generalizing h with
  | done a => exact hp
  | fail message => exact hp
  | ask q k ih => exact ⟨hI h q hp.1, fun a => ih a (hp.2 a)⟩

end Rules

/-! ### Programs that return -/

/-- The program asks only what `I` allows, throws nothing, and what it adds to the history
agrees with its result as `P` says. -/
def Adds (I : List (Exchange A) → Q → Prop) (P : List (Exchange A) → α → Prop)
    (h : List (Exchange A)) (p : Prog Q A α) : Prop :=
  Safe I (fun h' r => ∃ new a, h' = h ++ new ∧ r = .ok a ∧ P new a) h p

section Adds

variable {P : List (Exchange A) → α → Prop} {p : Prog Q A α}

theorem adds_pure {a : α} (hP : P [] a) : Adds I P h (pure a : Prog Q A α) :=
  ⟨[], a, (List.append_nil h).symm, rfl, hP⟩

theorem adds_query {q : Q} {P : List (Exchange A) → A q → Prop} (hI : I h q)
    (hP : ∀ a, P [⟨q, a⟩] a) : Adds I P h (Prog.query q) :=
  ⟨hI, fun a => ⟨[⟨q, a⟩], a, rfl, rfl, hP a⟩⟩

variable {f : α → Prog Q A β}

theorem Adds.bind {Post : List (Exchange A) → Except String β → Prop} (hp : Adds I P h p)
    (hf : ∀ new a, P new a → Safe I Post (h ++ new) (f a)) :
    Safe I Post h (p >>= f) := by
  refine safe_bind.mpr (Safe.mono hp fun new r hr => ?_)
  obtain ⟨new', a, hnew, rfl, hP⟩ := hr
  rw [hnew]
  exact hf new' a hP

/-- **The rule of sequence** for programs that return. -/
theorem Adds.then {P' : List (Exchange A) → β → Prop} (hp : Adds I P h p)
    (hf : ∀ new a, P new a → Adds I (fun new' b => P' (new ++ new') b) (h ++ new) (f a)) :
    Adds I P' h (p >>= f) := by
  refine hp.bind fun new a hP => Safe.mono (hf new a hP) fun new' r hr => ?_
  obtain ⟨added, b, hadded, rfl, hP'⟩ := hr
  exact ⟨new ++ added, b, by rw [hadded, List.append_assoc], rfl, hP'⟩

theorem Adds.mono {P' : List (Exchange A) → α → Prop} (hp : Adds I P h p)
    (hP : ∀ new a, P new a → P' new a) : Adds I P' h p := by
  refine Safe.mono hp fun _ r hr => ?_
  obtain ⟨new, a, hnew, hr, hPa⟩ := hr
  exact ⟨new, a, hnew, hr, hP new a hPa⟩

end Adds

section Runs

variable {p p' : Prog Q A α} {new : List (Exchange A)}

theorem Safe.reaches (hp : Safe I Post h p) (hr : Reaches p new p') :
    Safe I Post (h ++ new) p' := by
  induction hr with
  | refl => rwa [List.append_nil]
  | step hr a ih =>
    rw [← List.append_assoc]
    exact ih.2 a

theorem Safe.asked (hp : Safe I Post h p) (hr : Reaches p new p') :
    ∀ pre e post, new = pre ++ e :: post → I (h ++ pre) e.query := by
  induction hr with
  | refl => exact fun pre e post hsplit => absurd hsplit (by simp)
  | @step new q k hr a ih =>
    intro pre e post hsplit
    rcases List.eq_nil_or_concat' post with rfl | ⟨post', e', rfl⟩
    · -- the last exchange: the program was about to ask it
      obtain ⟨rfl, hlast⟩ := List.append_inj' hsplit rfl
      obtain rfl : ⟨q, a⟩ = e := List.singleton_inj.mp hlast
      exact (hp.reaches hr).1
    · rw [← List.cons_append, ← List.append_assoc] at hsplit
      exact ih pre e post' (List.append_inj' hsplit rfl).1

/-- **The rule of invariants.** What every allowed query keeps, whatever its answer, holds
all along a run. -/
theorem Safe.invariant (Inv : List (Exchange A) → Prop) (hp : Safe I Post h p)
    (hr : Reaches p new p') (h0 : Inv h)
    (hstep : ∀ h q a, Inv h → I h q → Inv (h ++ [⟨q, a⟩])) : Inv (h ++ new) := by
  induction hr with
  | refl => rwa [List.append_nil]
  | step hr a ih =>
    rw [← List.append_assoc]
    exact hstep _ _ a ih (hp.reaches hr).1

theorem Safe.result {r : Except String α} (hp : Safe I Post h p) (hr : Runs p new r) :
    Post (h ++ new) r :=
  safe_ofExcept.mp (hp.reaches hr)

theorem Reaches.ask {q : Q} {k : A q → Prog Q A α} {a : A q} (hr : Reaches (k a) new p') :
    Reaches (.ask q k) (⟨q, a⟩ :: new) p' := by
  induction hr with
  | refl => exact .step .refl a
  | step hr b ih => exact .step ih b

theorem runs_runWith {σ : Type} (outside : σ → (q : Q) → A q × σ) (s : σ) (p : Prog Q A α) :
    Runs p (p.runWith outside s).1 (p.runWith outside s).2 := by
  induction p generalizing s with
  | done a => exact .refl
  | fail message => exact .refl
  | ask q k ih => exact Reaches.ask (ih (outside s q).1 (outside s q).2)

end Runs

end Framework
