import CompareVI.Framework.Ends

/-!
# Monitors, and programs that return early

A monitor reads the exchanges of a run one by one and keeps a state of its own. Taken as a
service it answers anything, so that the rules of `Ensures` and `Ends` speak of what it has
seen: a query is asked only when its state allows it (`Ensures.monitored`).

A program with an early return is an `ExceptT` program: it goes on with a result, or it leaves
with another one. `Exits S I E X P s x` says what holds in the three ways in which it ends:
`P` where it goes on, `X` where it leaves, `E` where it throws.
-/

namespace Framework

variable {Q : Type} {A : Q → Type} {σ ε α β : Type}

/-! ### Monitors -/

abbrev Monitor (σ : Type) {Q : Type} (A : Q → Type) : Type := σ → Exchange A → σ

namespace Monitor

def after (m : Monitor σ A) (s : σ) (h : List (Exchange A)) : σ := h.foldl m s

def service (m : Monitor σ A) : Service σ A := fun s q a t => t = m s ⟨q, a⟩

theorem flag_after {m : Monitor σ A} {flag : σ → Bool} {raises : Exchange A → Bool}
    (hflag : ∀ s e, flag (m s e) = (flag s || raises e)) (s : σ) (h : List (Exchange A)) :
    flag (m.after s h) = (flag s || h.any raises) := by
  induction h generalizing s with
  | nil => exact (Bool.or_false _).symm
  | cons e h ih =>
    calc flag (m.after (m s e) h) = (flag (m s e) || h.any raises) := ih (m s e)
      _ = (flag s || (e :: h).any raises) := by
        rw [hflag, List.any_cons, Bool.or_assoc]

end Monitor

/-- **What is ensured of a monitor** holds of every run, of each query in the state that the
exchanges before it have left. -/
theorem Ensures.monitored {m : Monitor σ A} {I : σ → Q → Prop}
    {Post : σ → Except String α → Prop} {s : σ} {p : Prog Q A α} {h : List (Exchange A)}
    {r : Except String α} (hp : Ensures m.service I Post s p) (hr : Runs p h r) :
    (∀ pre e post, h = pre ++ e :: post → I (m.after s pre) e.query) ∧ Post (m.after s h) r := by
  induction p generalizing s h with
  | done a =>
    obtain ⟨rfl, rfl⟩ := Runs.done_inv hr
    exact ⟨fun pre e post hsplit => absurd hsplit.symm (by simp), hp⟩
  | fail message =>
    obtain ⟨rfl, rfl⟩ := Runs.fail_inv hr
    exact ⟨fun pre e post hsplit => absurd hsplit.symm (by simp), hp⟩
  | ask q k ih =>
    obtain ⟨a, rest, rfl, hrest⟩ := Runs.ask_inv hr
    obtain ⟨hasked, hend⟩ := ih a (hp.2 a _ rfl) hrest
    refine ⟨fun pre e post hsplit => ?_, hend⟩
    rcases pre with _ | ⟨first, pre⟩
    · obtain ⟨rfl, -⟩ := List.cons.inj hsplit
      exact hp.1
    · obtain ⟨rfl, hrest⟩ := List.cons.inj hsplit
      exact hasked pre e post hrest

/-! ### Early returns -/

/-- Every run asks only what `I` allows, and ends as `P` says if it goes on, as `X` says if it
leaves early, and as `E` says if it throws. -/
def Exits (S : Service σ A) (I : σ → Q → Prop) (E : σ → Prop) (X : σ → ε → Prop)
    (P : σ → α → Prop) (s : σ) (x : ExceptT ε (Prog Q A) α) : Prop :=
  Ends S I E (fun t out => match out with
    | .ok a => P t a
    | .error e => X t e) s x.run

section Rules

variable {S : Service σ A} {I : σ → Q → Prop} {E : σ → Prop} {X : σ → ε → Prop}
  {P : σ → α → Prop} {P' : σ → β → Prop} {s : σ} {x : ExceptT ε (Prog Q A) α}

theorem exits_pure {a : α} (h : P s a) :
    Exits S I E X P s (pure a : ExceptT ε (Prog Q A) α) := h

theorem exits_throw {e : ε} (h : X s e) :
    Exits S I E X P s (throw e : ExceptT ε (Prog Q A) α) := h

variable {f : α → ExceptT ε (Prog Q A) β}

/-- **The rule of sequence.** -/
theorem Exits.bind (hx : Exits S I E X P s x) (hf : ∀ t a, P t a → Exits S I E X P' t (f a)) :
    Exits S I E X P' s (x >>= f) := by
  refine Ends.bind hx fun t out hout => ?_
  cases out with
  | ok a => exact hf t a hout
  | error e => exact hout

theorem exits_lift_bind {p : Prog Q A α} (hp : Ends S I E P s p)
    (hf : ∀ t a, P t a → Exits S I E X P' t (f a)) :
    Exits S I E X P' s (ExceptT.lift p >>= f) := by
  refine Exits.bind (P := P) ?_ hf
  exact Ends.bind hp fun t a ha => ends_pure ha

end Rules

end Framework
