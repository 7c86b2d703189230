import Mathlib.Data.List.Basic
import Mathlib.Tactic.Common

/-!
# Guarded runs of a partial step function

A system that takes one step after another is a partial function
`step : σ → ε → Option σ`: an event `e` either has no transition in a state or
leads to one next state. A run is a list of events, `run step s es` the state it
ends in. Every state that a run passes through is the end of one of its
prefixes, so a statement about the end of every run is a statement about every
state reached.

A guard `G : σ → ε → Prop` is a condition on an event in the state before it.
`Guarded step G s es` says that every event of the run `es` met it. The
rules of the file are

* `run_invariant`: what the initial state has and every guarded step keeps,
  every guarded run ends in;
* `run_iff_guarded`: what a step keeps exactly when it meets the guard, a run keeps
  exactly when it is guarded;
* `guarded_iff_split`: a run is guarded exactly when the event after each of
  its prefixes meets the guard in the state that prefix ends in.

`Steps step R s es` says of every step of the run which change it makes:
`steps_iff_guarded` turns such a statement into a condition on the events, and
`steps_of_invariant` proves it with an invariant.
-/

namespace Framework

variable {σ ε : Type*} {step : σ → ε → Option σ} {G : σ → ε → Prop}

/-- The state in which the run `es` from `s` ends, if each event has a
transition when its turn comes. -/
def run (step : σ → ε → Option σ) (s : σ) : List ε → Option σ
  | [] => some s
  | e :: es => (step s e).bind fun t => run step t es

theorem run_cons (s : σ) (e : ε) (es : List ε) :
    run step s (e :: es) = (step s e).bind fun t => run step t es := rfl

theorem run_cons_eq_some {s u : σ} {e : ε} {es : List ε} :
    run step s (e :: es) = some u ↔ ∃ t, step s e = some t ∧ run step t es = some u := by
  rw [run_cons, Option.bind_eq_some_iff]

theorem run_append (s : σ) (es es' : List ε) :
    run step s (es ++ es') = (run step s es).bind fun t => run step t es' := by
  induction es generalizing s with
  | nil => rfl
  | cons e es ih =>
    rw [List.cons_append, run_cons, run_cons, Option.bind_assoc]
    congr 1
    funext t
    exact ih t

theorem run_append_eq_some {s u : σ} {es es' : List ε} :
    run step s (es ++ es') = some u ↔
      ∃ t, run step s es = some t ∧ run step t es' = some u := by
  rw [run_append, Option.bind_eq_some_iff]

theorem run_singleton (s : σ) (e : ε) : run step s [e] = step s e := by
  rw [run_cons]
  cases step s e <;> rfl

def Guarded (step : σ → ε → Option σ) (G : σ → ε → Prop) : σ → List ε → Prop
  | _, [] => True
  | s, e :: es => G s e ∧ ∀ t, step s e = some t → Guarded step G t es

theorem guarded_cons {s : σ} {e : ε} {es : List ε} :
    Guarded step G s (e :: es) ↔ G s e ∧ ∀ t, step s e = some t → Guarded step G t es :=
  Iff.rfl

/-- A statement about the value of an optional result, if there is one. -/
instance decidableForallEqSome {α : Type*} (o : Option α) (P : α → Prop) [DecidablePred P] :
    Decidable (∀ a, o = some a → P a) :=
  match o with
  | none => isTrue fun _ h => nomatch h
  | some a => decidable_of_iff (P a) ⟨fun h _ e => Option.some.inj e ▸ h, fun h => h a rfl⟩

/-- Whether a run is guarded can be computed along the run. -/
instance decidableGuarded [∀ s e, Decidable (G s e)] :
    ∀ (s : σ) (es : List ε), Decidable (Guarded step G s es)
  | _, [] => isTrue trivial
  | s, e :: es =>
    have : DecidablePred fun t => Guarded step G t es := fun t => decidableGuarded t es
    inferInstanceAs (Decidable (G s e ∧ ∀ t, step s e = some t → Guarded step G t es))

/-- **The run rule.** An invariant of the guarded steps holds at the end of
every guarded run that starts in it. -/
theorem run_invariant {I : σ → Prop}
    (hstep : ∀ s e t, I s → G s e → step s e = some t → I t)
    {s t : σ} {es : List ε} (hs : I s) (hG : Guarded step G s es)
    (hrun : run step s es = some t) : I t := by
  induction es generalizing s with
  | nil =>
    obtain rfl : s = t := Option.some.inj hrun
    exact hs
  | cons e es ih =>
    obtain ⟨u, hu, hrun⟩ := run_cons_eq_some.mp hrun
    exact ih (hstep s e u hs hG.1 hu) (hG.2 u hu) hrun

theorem run_invariant_of_step {I : σ → Prop}
    (hstep : ∀ s e t, I s → step s e = some t → I t)
    {s t : σ} {es : List ε} (hs : I s) (hrun : run step s es = some t) : I t := by
  induction es generalizing s with
  | nil =>
    obtain rfl : s = t := Option.some.inj hrun
    exact hs
  | cons e es ih =>
    obtain ⟨u, hu, hrun⟩ := run_cons_eq_some.mp hrun
    exact ih (hstep s e u hs hu) hrun

/-- **The rule of exact guards.** If every step keeps `P` exactly when it meets the
guard, a run keeps `P` exactly when it is guarded. The invariant `I` may be used at each
step. -/
theorem run_iff_guarded {I P : σ → Prop}
    (hI : ∀ s e t, I s → step s e = some t → I t)
    (hP : ∀ s e t, I s → step s e = some t → (P t ↔ P s ∧ G s e))
    {s t : σ} {es : List ε} (hs : I s) (hrun : run step s es = some t) :
    P t ↔ P s ∧ Guarded step G s es := by
  induction es generalizing s with
  | nil =>
    obtain rfl := Option.some.inj hrun
    exact (and_iff_left trivial).symm
  | cons e es ih =>
    obtain ⟨u, hu, hrun⟩ := run_cons_eq_some.mp hrun
    rw [ih (hI s e u hs hu) hrun, hP s e u hs hu, guarded_cons, and_assoc]
    refine and_congr_right fun _ => and_congr_right fun _ => ?_
    refine ⟨fun h v hv => ?_, fun h => h u hu⟩
    obtain rfl : u = v := Option.some.inj (hu.symm.trans hv)
    exact h

/-- **The rule of exact guards, for every state reached.** If every step from a state with `P`
leads to one exactly when it meets the guard, all states of a run have `P` exactly when the run
is guarded. Every event has a transition. -/
theorem always_iff_guarded {P : σ → Prop} (htotal : ∀ s e, ∃ t, step s e = some t)
    (hP : ∀ s e t, P s → step s e = some t → (P t ↔ G s e)) {s : σ} {es : List ε} (hs : P s) :
    (∀ pre post t, es = pre ++ post → run step s pre = some t → P t) ↔
      Guarded step G s es := by
  induction es generalizing s with
  | nil =>
    refine ⟨fun _ => trivial, fun _ pre post t hes hrun => ?_⟩
    obtain rfl : pre = [] := (List.append_eq_nil_iff.mp hes.symm).1
    obtain rfl : s = t := Option.some.inj hrun
    exact hs
  | cons e es ih =>
    obtain ⟨u, hu⟩ := htotal s e
    constructor
    · intro hall
      have hPu : P u := hall [e] es u rfl (by rw [run_singleton, hu])
      refine ⟨(hP s e u hs hu).mp hPu, fun v hv => ?_⟩
      obtain rfl : u = v := Option.some.inj (hu.symm.trans hv)
      refine (ih hPu).mp fun pre post t hes hrun => ?_
      exact hall (e :: pre) post t (by rw [hes]; rfl) (run_cons_eq_some.mpr ⟨u, hu, hrun⟩)
    · rintro ⟨hG, hrest⟩ pre post t hes hrun
      have hPu : P u := (hP s e u hs hu).mpr hG
      cases pre with
      | nil =>
        obtain rfl : s = t := Option.some.inj hrun
        exact hs
      | cons d pre =>
        rw [List.cons_append, List.cons.injEq] at hes
        obtain ⟨rfl, htail⟩ := hes
        obtain ⟨v, hv, hrun⟩ := run_cons_eq_some.mp hrun
        obtain rfl : u = v := Option.some.inj (hu.symm.trans hv)
        exact (ih hPu).mpr (hrest u hu) pre post t htail hrun

/-- A run is guarded when the event after each of its prefixes meets the guard
in the state the prefix ends in. -/
theorem guarded_iff_split {s : σ} {es : List ε} :
    Guarded step G s es ↔
      ∀ pre e post t, es = pre ++ e :: post → run step s pre = some t → G t e := by
  induction es generalizing s with
  | nil =>
    refine ⟨fun _ pre e post t h => absurd h (by simp), fun _ => trivial⟩
  | cons e es ih =>
    constructor
    · rintro ⟨hG, hrest⟩ pre e' post t hes hrun
      cases pre with
      | nil =>
        obtain ⟨rfl, -⟩ := List.cons.inj hes
        obtain rfl : s = t := Option.some.inj hrun
        exact hG
      | cons d pre =>
        rw [List.cons_append, List.cons.injEq] at hes
        obtain ⟨rfl, htail⟩ := hes
        obtain ⟨u, hu, hrun⟩ := run_cons_eq_some.mp hrun
        exact ih.mp (hrest u hu) pre e' post t htail hrun
    · intro h
      refine ⟨h [] e es s rfl rfl, fun u hu => ih.mpr ?_⟩
      intro pre e' post t hes hrun
      exact h (e :: pre) e' post t (by rw [hes]; rfl) (run_cons_eq_some.mpr ⟨u, hu, hrun⟩)

theorem guarded_iff_forall {H : ε → Prop} {s t : σ} {es : List ε} (hrun : run step s es = some t) :
    Guarded step (fun _ e => H e) s es ↔ ∀ e ∈ es, H e := by
  induction es generalizing s with
  | nil => exact iff_of_true trivial fun e he => absurd he List.not_mem_nil
  | cons e es ih =>
    obtain ⟨u, hu, hrest⟩ := run_cons_eq_some.mp hrun
    rw [List.forall_mem_cons, ← ih hrest, guarded_cons]
    refine and_congr_right fun _ => ⟨fun h => h u hu, fun h v hv => ?_⟩
    obtain rfl : u = v := Option.some.inj (hu.symm.trans hv)
    exact h

theorem guarded_append {s : σ} {es es' : List ε} :
    Guarded step G s (es ++ es') ↔
      Guarded step G s es ∧ ∀ t, run step s es = some t → Guarded step G t es' := by
  induction es generalizing s with
  | nil =>
    refine ⟨fun h => ⟨trivial, fun t ht => Option.some.inj ht ▸ h⟩, fun h => h.2 s rfl⟩
  | cons e es ih =>
    rw [List.cons_append, guarded_cons, guarded_cons]
    constructor
    · rintro ⟨hG, hrest⟩
      refine ⟨⟨hG, fun u hu => (ih.mp (hrest u hu)).1⟩, fun t ht => ?_⟩
      obtain ⟨u, hu, hrun⟩ := run_cons_eq_some.mp ht
      exact (ih.mp (hrest u hu)).2 t hrun
    · rintro ⟨⟨hG, hes⟩, hes'⟩
      refine ⟨hG, fun u hu => ih.mpr ⟨hes u hu, fun t ht => hes' t ?_⟩⟩
      exact run_cons_eq_some.mpr ⟨u, hu, ht⟩

theorem Guarded.and {H : σ → ε → Prop} {s : σ} {es : List ε} (hG : Guarded step G s es)
    (hH : Guarded step H s es) : Guarded step (fun s e => G s e ∧ H s e) s es := by
  induction es generalizing s with
  | nil => trivial
  | cons e es ih => exact ⟨⟨hG.1, hH.1⟩, fun t ht => ih (hG.2 t ht) (hH.2 t ht)⟩

/-- Every step of the run relates the state before it to the state after it by `R`. -/
def Steps (step : σ → ε → Option σ) (R : σ → ε → σ → Prop) (s : σ) (es : List ε) : Prop :=
  ∀ pre e post t u, es = pre ++ e :: post → run step s pre = some t → step t e = some u → R t e u

/-- What each step does exactly when its event meets the guard, every step of a run does
exactly when the run is guarded. -/
theorem steps_iff_guarded {R : σ → ε → σ → Prop} {s : σ} {es : List ε}
    (h : ∀ s e, (∀ t, step s e = some t → R s e t) ↔ G s e) :
    Steps step R s es ↔ Guarded step G s es := by
  rw [guarded_iff_split]
  refine ⟨fun hR pre e post t hes hrun => (h t e).mp fun u hu => ?_,
    fun hG pre e post t u hes hrun hu => ?_⟩
  · exact hR pre e post t u hes hrun hu
  · exact (h t e).mpr (hG pre e post t hes hrun) u hu

theorem Steps.middle {R : σ → ε → σ → Prop} {s t : σ} {pre mid post : List ε}
    (h : Steps step R s (pre ++ (mid ++ post))) (hrun : run step s pre = some t) :
    Steps step R t mid := by
  intro pre' e post' u v hmid hrun' hv
  refine h (pre ++ pre') e (post' ++ post) u v ?_ (run_append_eq_some.mpr ⟨t, hrun, hrun'⟩) hv
  rw [hmid]
  simp only [List.append_assoc, List.cons_append]

theorem Steps.run_invariant {R : σ → ε → σ → Prop} {I : σ → Prop} {s t : σ} {es : List ε}
    (hI : ∀ s e t, e ∈ es → I s → R s e t → I t) (h : Steps step R s es) (hs : I s)
    (hrun : run step s es = some t) : I t := by
  induction es generalizing s with
  | nil =>
    obtain rfl : s = t := Option.some.inj hrun
    exact hs
  | cons e es ih =>
    obtain ⟨u, hu, hrun⟩ := run_cons_eq_some.mp hrun
    refine ih (fun s e' t he => hI s e' t (List.mem_cons_of_mem _ he)) ?_ ?_ hrun
    · intro pre e' post v w hes hpre hw
      exact h (e :: pre) e' post v w (by rw [hes]; rfl) (run_cons_eq_some.mpr ⟨u, hu, hpre⟩) hw
    · exact hI s e u List.mem_cons_self hs (h [] e es s u rfl rfl hu)

end Framework
