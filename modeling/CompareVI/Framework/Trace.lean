import CompareVI.Framework.Service

/-!
# Traces of a service

A trace is a run in which each query stands with the state before it and the state after it.
`Traces` is the relation, `traced` the service that keeps the trace so far as a part of its
state, and `Ensures.traced` says that what is ensured of it holds of every trace.
-/

namespace Framework

variable {Q : Type} {A : Q → Type} {σ α β : Type}

/-- A query of a run with its answer, in the state before it and the state after it. -/
structure Step (σ : Type) {Q : Type} (A : Q → Type) where
  before : σ
  query : Q
  answer : A query
  after : σ

/-- The program runs from the first state to the last one. -/
inductive Traces (S : Service σ A) : σ → Prog Q A α → List (Step σ A) → σ → Except String α → Prop
  where
  | done (s : σ) (a : α) : Traces S s (.done a) [] s (.ok a)
  | fail (s : σ) (message : String) : Traces S s (.fail message) [] s (.error message)
  | ask {s u t : σ} {q : Q} {k : A q → Prog Q A α} {a : A q} {steps : List (Step σ A)}
    {r : Except String α} (hserve : S s q a u) (hrest : Traces S u (k a) steps t r) :
    Traces S s (.ask q k) (⟨s, q, a, u⟩ :: steps) t r

def traced (S : Service σ A) : Service (σ × List (Step σ A)) A :=
  fun s q a u => S s.1 q a u.1 ∧ u.2 = s.2 ++ [⟨s.1, q, a, u.1⟩]

variable {S : Service σ A} {s t : σ} {p : Prog Q A α} {h steps : List (Step σ A)}
  {r : Except String α}

variable {I : σ × List (Step σ A) → Q → Prop}

theorem ensures_traced_query_bind {Post : σ × List (Step σ A) → Except String β → Prop} {q : Q}
    {f : A q → Prog Q A β} :
    Ensures (traced S) I Post (s, h) (Prog.query q >>= f) ↔
      I (s, h) q ∧ ∀ a u, S s q a u →
        Ensures (traced S) I Post (u, h ++ [⟨s, q, a, u⟩]) (f a) := by
  refine and_congr_right fun _ => forall_congr' fun a => ?_
  refine ⟨fun hall u hserve => hall (u, _) ⟨hserve, rfl⟩, ?_⟩
  rintro hall ⟨u, h'⟩ ⟨hserve, heq⟩
  obtain rfl : h' = h ++ [⟨s, q, a, u⟩] := heq
  exact hall u hserve

/-- **What is ensured of a traced service holds of every trace**, of each query after the steps
that came before it. -/
theorem Ensures.traced {Post : σ × List (Step σ A) → Except String α → Prop}
    (hp : Ensures (traced S) I Post (s, h) p) (hrun : Traces S s p steps t r) :
    (∀ pre step post, steps = pre ++ step :: post → I (step.before, h ++ pre) step.query) ∧
      Post (t, h ++ steps) r := by
  induction hrun generalizing h with
  | done s a =>
    refine ⟨fun pre step post hsplit => absurd hsplit.symm (by simp), ?_⟩
    simpa using hp
  | fail s message =>
    refine ⟨fun pre step post hsplit => absurd hsplit.symm (by simp), ?_⟩
    simpa using hp
  | @ask s u t q k a steps r hserve hrest ih =>
    obtain ⟨hsteps, hend⟩ := ih (hp.2 a (u, h ++ [⟨s, q, a, u⟩]) ⟨hserve, rfl⟩)
    refine ⟨fun pre step post hsplit => ?_, ?_⟩
    · rcases pre with _ | ⟨first, pre⟩
      · obtain ⟨rfl, -⟩ := List.cons.inj hsplit
        rw [List.append_nil]
        exact hp.1
      · obtain ⟨rfl, hrest⟩ := List.cons.inj hsplit
        rw [List.append_cons]
        exact hsteps pre step post hrest
    · rw [List.append_cons]
      exact hend

def Prog.trace (serve : σ → (q : Q) → A q × σ) :
    σ → Prog Q A α → List (Step σ A) × σ × Except String α
  | s, .done a => ([], s, .ok a)
  | s, .fail message => ([], s, .error message)
  | s, .ask q k =>
    let (steps, last) := trace serve (serve s q).2 (k (serve s q).1)
    (⟨s, q, (serve s q).1, (serve s q).2⟩ :: steps, last)

theorem traces_trace (serve : σ → (q : Q) → A q × σ)
    (hserve : ∀ s q, S s q (serve s q).1 (serve s q).2) (s : σ) (p : Prog Q A α) :
    Traces S s p (p.trace serve s).1 (p.trace serve s).2.1 (p.trace serve s).2.2 := by
  induction p generalizing s with
  | done a => exact .done s a
  | fail message => exact .fail s message
  | ask q k ih => exact .ask (hserve s q) (ih _ _)

def Prog.outcome (serve : σ → (q : Q) → A q × σ) (s : σ) (p : Prog Q A α) :
    σ × Except String α :=
  (p.trace serve s).2

section Outcome

variable {serve : σ → (q : Q) → A q × σ}

theorem outcome_pure (a : α) : (pure a : Prog Q A α).outcome serve s = (s, .ok a) := rfl

theorem outcome_bind {f : α → Prog Q A β} {a : α} (hp : p.outcome serve s = (t, .ok a)) :
    (p >>= f).outcome serve s = (f a).outcome serve t := by
  change (p.bind f).outcome serve s = _
  induction p generalizing s with
  | done b =>
    obtain ⟨rfl, hb⟩ := Prod.mk.inj hp
    obtain rfl := Except.ok.inj hb
    rfl
  | fail message => exact nomatch (Prod.mk.inj hp).2
  | ask q k ih => exact ih _ hp

end Outcome

end Framework
