import CompareVI.Framework.Interact

/-!
# Programs against a service with a state

`Interact` leaves the outside open: an answer is whatever has the right type. Here the
outside is a service. It has a state, and says of every query which answers it may give
and which state each of them leaves (`Service`). The same query may be answered in several
ways, so that a service may fail whenever it likes.

`Executes S s p calls t r` says that the program `p`, started in the state `s`, may end in
the state `t` with the result `r`, having made the calls listed. `Ensures S I Post s p`
says that in every such run each query was asked in a state that `I` allows, and the end
is one that `Post` allows (`Ensures.executes`). It is defined by recursion on the program,
and the rules of the file build it along the text of a program. `Returns` is the same where
only the runs that return matter; its rule of sequence forgets the runs that throw.
-/

namespace Framework

variable {Q : Type} {A : Q → Type} {σ α β : Type}

/-- The answers a service may give to a query in a state, each with the state after. -/
abbrev Service (σ : Type) {Q : Type} (A : Q → Type) : Type := σ → (q : Q) → A q → σ → Prop

/-- A query of a run, with the state it was asked in and the answer it got. -/
structure Call (σ : Type) {Q : Type} (A : Q → Type) where
  state : σ
  query : Q
  answer : A query

/-- The whole runs of a program. -/
inductive Executes (S : Service σ A) :
    σ → Prog Q A α → List (Call σ A) → σ → Except String α → Prop where
  | done (s : σ) (a : α) : Executes S s (.done a) [] s (.ok a)
  | fail (s : σ) (message : String) : Executes S s (.fail message) [] s (.error message)
  | ask {s u t : σ} {q : Q} {k : A q → Prog Q A α} {a : A q} {calls : List (Call σ A)}
    {r : Except String α} (hserve : S s q a u) (hrest : Executes S u (k a) calls t r) :
    Executes S s (.ask q k) (⟨s, q, a⟩ :: calls) t r

/-- Every run asks only what `I` allows, and ends only as `Post` allows. -/
def Ensures (S : Service σ A) (I : σ → Q → Prop) (Post : σ → Except String α → Prop) :
    σ → Prog Q A α → Prop
  | s, .done a => Post s (.ok a)
  | s, .fail message => Post s (.error message)
  | s, .ask q k => I s q ∧ ∀ a u, S s q a u → Ensures S I Post u (k a)

section Rules

variable {S : Service σ A} {I : σ → Q → Prop} {Post : σ → Except String α → Prop} {s : σ}

@[simp] theorem ensures_done (a : α) : Ensures S I Post s (.done a) ↔ Post s (.ok a) := Iff.rfl

@[simp] theorem ensures_pure (a : α) :
    Ensures S I Post s (pure a : Prog Q A α) ↔ Post s (.ok a) := Iff.rfl

@[simp] theorem ensures_fail (message : String) :
    Ensures S I Post s (.fail message) ↔ Post s (.error message) := Iff.rfl

variable {x : Except String α} {q : Q} {R : Q → Type} {f : α → Prog Q A β}
   {Post' : σ → Except String β → Prop} {I' : σ → Q → Prop}

theorem ensures_ofExcept :
    Ensures S I Post s (.ofExcept x) ↔ Post s x := by
  cases x <;> rfl

/-- **The rule of sequence.** -/
theorem ensures_bind {p : Prog Q A α} :
    Ensures S I Post' s (p >>= f) ↔
      Ensures S I (fun s r => match r with
        | .ok a => Ensures S I Post' s (f a)
        | .error message => Post' s (.error message)) s p := by
  change Ensures S I Post' s (p.bind f) ↔ _
  induction p generalizing s with
  | done a => rfl
  | fail message => rfl
  | ask q k ih =>
    refine and_congr_right fun _ => forall_congr' fun a => forall_congr' fun u => ?_
    exact imp_congr_right fun _ => ih a

theorem forall_answer {S : Service σ fun q => Except String (R q)}
    {P : Except String (R q) → σ → Prop} :
    (∀ a u, S s q a u → P a u) ↔
      (∀ reply u, S s q (.ok reply) u → P (.ok reply) u) ∧
        ∀ message u, S s q (.error message) u → P (.error message) u := by
  refine ⟨fun hall => ⟨fun reply => hall (.ok reply), fun message => hall (.error message)⟩, ?_⟩
  rintro ⟨hok, herror⟩ (message | reply)
  · exact herror message
  · exact hok reply

theorem ensures_call_bind {S : Service σ fun q => Except String (R q)}
    {f : R q → Prog Q (fun q => Except String (R q)) β} {Post : σ → Except String β → Prop} :
    Ensures S I Post s (Prog.call q >>= f) ↔
      I s q ∧ (∀ reply u, S s q (.ok reply) u → Ensures S I Post u (f reply)) ∧
        ∀ message u, S s q (.error message) u → Post u (.error message) := by
  exact and_congr_right fun _ => forall_answer

theorem ensures_ofExcept_bind :
    Ensures S I Post' s (Prog.ofExcept x >>= f) ↔
      (∀ a, x = .ok a → Ensures S I Post' s (f a)) ∧ ∀ m, x = .error m → Post' s (.error m) :=
  forall_except (P := fun x => Ensures S I Post' s (Prog.ofExcept x >>= f))

/-- **The rule of consequence.** -/
theorem Ensures.mono {Post' : σ → Except String α → Prop} {p : Prog Q A α}
    (hp : Ensures S I Post s p) (hPost : ∀ t r, Post t r → Post' t r) :
    Ensures S I Post' s p := by
  induction p generalizing s with
  | done a => exact hPost _ _ hp
  | fail message => exact hPost _ _ hp
  | ask q k ih => exact ⟨hp.1, fun a u hserve => ih a (hp.2 a u hserve)⟩

theorem Ensures.and {Post' : σ → Except String α → Prop} {p : Prog Q A α}
    (hp : Ensures S I Post s p) (hp' : Ensures S I' Post' s p) :
    Ensures S I (fun t r => Post t r ∧ Post' t r) s p := by
  induction p generalizing s with
  | done a => exact ⟨hp, hp'⟩
  | fail message => exact ⟨hp, hp'⟩
  | ask q k ih => exact ⟨hp.1, fun a u hserve => ih a (hp.2 a u hserve) (hp'.2 a u hserve)⟩

theorem Ensures.weaken {p : Prog Q A α} (hp : Ensures S I Post s p) (hI : ∀ s q, I s q → I' s q) :
    Ensures S I' Post s p := by
  induction p generalizing s with
  | done a => exact hp
  | fail message => exact hp
  | ask q k ih => exact ⟨hI s q hp.1, fun a u hserve => ih a (hp.2 a u hserve)⟩

/-- **The rule of invariants.** What every query that is asked keeps, whatever its answer,
holds all along. -/
theorem Ensures.invariant (Inv : σ → Prop) {p : Prog Q A α} (hp : Ensures S I Post s p)
    (h0 : Inv s) (hkeep : ∀ s q a u, Inv s → I s q → S s q a u → Inv u) :
    Ensures S (fun s q => I s q ∧ Inv s) (fun s r => Post s r ∧ Inv s) s p := by
  induction p generalizing s with
  | done a => exact ⟨hp, h0⟩
  | fail message => exact ⟨hp, h0⟩
  | ask q k ih =>
    refine ⟨⟨hp.1, h0⟩, fun a u hserve => ?_⟩
    exact ih a (hp.2 a u hserve) (hkeep s q a u h0 hp.1 hserve)

end Rules

/-! ### Partial correctness -/

/-- Every run asks only what `I` allows, and a run that returns ends as `P` says. Nothing is
said about the end of a run that throws. -/
def Returns (S : Service σ A) (I : σ → Q → Prop) (P : σ → α → Prop) (s : σ) (p : Prog Q A α) :
    Prop :=
  Ensures S I (fun t r => ∀ a, r = .ok a → P t a) s p

section PartialRules

variable {S : Service σ A} {I : σ → Q → Prop} {P : σ → α → Prop} {P' : σ → β → Prop} {s : σ}

theorem returns_pure {a : α} (h : P s a) : Returns S I P s (pure a) := by
  rintro b ⟨⟩
  exact h

theorem returns_fail (message : String) : Returns S I P s (.fail message) :=
  fun _ hok => nomatch hok

theorem returns_ofExcept {x : Except String α} (h : ∀ a, x = .ok a → P s a) :
    Returns S I P s (.ofExcept x) :=
  ensures_ofExcept.mpr h

theorem returns_query {q : Q} {P : σ → A q → Prop} (hI : I s q)
    (h : ∀ a u, S s q a u → P u a) : Returns S I P s (Prog.query q) := by
  refine ⟨hI, fun a u hserve => ?_⟩
  rintro b ⟨⟩
  exact h a u hserve

theorem returns_call {R : Q → Type} {S : Service σ fun q => Except String (R q)} {q : Q}
    {P : σ → R q → Prop} (hI : I s q) (h : ∀ reply u, S s q (.ok reply) u → P u reply) :
    Returns S I P s (Prog.call q) := by
  refine ⟨hI, fun a u hserve => ?_⟩
  cases a with
  | ok reply =>
    rintro b ⟨⟩
    exact h reply u hserve
  | error message => exact fun _ hok => nomatch hok

/-- **The rule of sequence**, for runs that return. -/
theorem Returns.bind {p : Prog Q A α} {f : α → Prog Q A β} (hp : Returns S I P s p)
    (hf : ∀ t a, P t a → Returns S I P' t (f a)) : Returns S I P' s (p >>= f) := by
  refine ensures_bind.mpr (Ensures.mono hp fun t r hr => ?_)
  cases r with
  | ok a => exact hf t a (hr a rfl)
  | error message => exact fun _ hok => nomatch hok

theorem Returns.mono {P' : σ → α → Prop} {p : Prog Q A α} (hp : Returns S I P s p)
    (h : ∀ t a, P t a → P' t a) : Returns S I P' s p :=
  Ensures.mono hp fun t _ hr a ha => h t a (hr a ha)

theorem Returns.invariant {p : Prog Q A α} (Inv : σ → Prop) (hp : Returns S I P s p) (h0 : Inv s)
    (hkeep : ∀ s q a u, Inv s → I s q → S s q a u → Inv u) :
    Returns S (fun s q => I s q ∧ Inv s) (fun s a => P s a ∧ Inv s) s p :=
  Ensures.mono (Ensures.invariant Inv hp h0 hkeep) fun _ _ hr a ha => ⟨hr.1 a ha, hr.2⟩

end PartialRules

section Runs

variable {S : Service σ A} {I : σ → Q → Prop} {Post : σ → Except String α → Prop} {s t : σ}
  {p : Prog Q A α} {calls : List (Call σ A)} {r : Except String α}

/-- **What is ensured holds of every run.** -/
theorem Ensures.executes (hp : Ensures S I Post s p) (hrun : Executes S s p calls t r) :
    (∀ call ∈ calls, I call.state call.query) ∧ Post t r := by
  induction hrun with
  | done s a => exact ⟨List.forall_mem_nil _, hp⟩
  | fail s message => exact ⟨List.forall_mem_nil _, hp⟩
  | ask hserve hrest ih =>
    obtain ⟨hcalls, hend⟩ := ih (hp.2 _ _ hserve)
    refine ⟨fun call hcall => ?_, hend⟩
    rcases List.mem_cons.mp hcall with rfl | hcall
    · exact hp.1
    · exact hcalls call hcall

theorem Executes.runs (hrun : Executes S s p calls t r) :
    Runs p (calls.map fun call => ⟨call.query, call.answer⟩) r := by
  induction hrun with
  | done s a => exact .refl
  | fail s message => exact .refl
  | ask hserve hrest ih => exact Reaches.ask ih

abbrev anyQuery (_ : σ) (_ : Q) : Prop := True

def Call.exchange (call : Call σ A) : Exchange A := ⟨call.query, call.answer⟩

def recorded (S : Service σ A) : Service (σ × List (Exchange A)) A :=
  fun s q a u => S s.1 q a u.1 ∧ u.2 = s.2 ++ [⟨q, a⟩]

variable {h : List (Exchange A)} {q : Q}

theorem forall_recorded {a : A q} {P : σ × List (Exchange A) → Prop} :
    (∀ u, recorded S (s, h) q a u → P u) ↔ ∀ u, S s q a u → P (u, h ++ [⟨q, a⟩]) := by
  refine ⟨fun hall u hserve => hall _ ⟨hserve, rfl⟩, ?_⟩
  rintro hall ⟨u, h'⟩ ⟨hserve, heq⟩
  obtain rfl : h' = h ++ [⟨q, a⟩] := heq
  exact hall u hserve

theorem ensures_recorded_call_bind {R : Q → Type} {S : Service σ fun q => Except String (R q)}
    {I : σ × List (Exchange fun q => Except String (R q)) → Q → Prop}
    {Post : σ × List (Exchange fun q => Except String (R q)) → Except String β → Prop}
    {h : List (Exchange fun q => Except String (R q))}
    {f : R q → Prog Q (fun q => Except String (R q)) β} :
    Ensures (recorded S) I Post (s, h) (Prog.call q >>= f) ↔
      I (s, h) q ∧
        (∀ reply u, S s q (.ok reply) u →
          Ensures (recorded S) I Post (u, h ++ [⟨q, .ok reply⟩]) (f reply)) ∧
        ∀ message u, S s q (.error message) u →
          Post (u, h ++ [⟨q, .error message⟩]) (.error message) := by
  refine ensures_call_bind.trans (and_congr_right fun _ => and_congr ?_ ?_)
  · exact forall_congr' fun _ => forall_recorded
  · exact forall_congr' fun _ => forall_recorded

/-- **What is ensured of a recorded service holds of every run**, of each call after those that
came before it. -/
theorem Ensures.recorded {I : σ × List (Exchange A) → Q → Prop}
    {Post : σ × List (Exchange A) → Except String α → Prop}
    (hp : Ensures (recorded S) I Post (s, h) p) (hrun : Executes S s p calls t r) :
    (∀ before call after, calls = before ++ call :: after →
      I (call.state, h ++ before.map Call.exchange) call.query) ∧
    Post (t, h ++ calls.map Call.exchange) r := by
  induction hrun generalizing h with
  | done s a =>
    refine ⟨fun before call after hsplit => absurd hsplit.symm (by simp), ?_⟩
    simpa using hp
  | fail s message =>
    refine ⟨fun before call after hsplit => absurd hsplit.symm (by simp), ?_⟩
    simpa using hp
  | @ask s u t q k a calls r hserve hrest ih =>
    obtain ⟨hcalls, hend⟩ := ih (hp.2 a (u, h ++ [⟨q, a⟩]) ⟨hserve, rfl⟩)
    refine ⟨fun before call after hsplit => ?_, ?_⟩
    · rcases before with _ | ⟨first, before⟩
      · obtain ⟨rfl, -⟩ := List.cons.inj hsplit
        rw [List.map_nil, List.append_nil]
        exact hp.1
      · obtain ⟨rfl, hrest⟩ := List.cons.inj hsplit
        rw [List.map_cons, List.append_cons]
        exact hcalls before call after hrest
    · rw [List.map_cons, List.append_cons]
      exact hend

def Prog.execute (serve : σ → (q : Q) → A q × σ) :
    σ → Prog Q A α → List (Call σ A) × σ × Except String α
  | s, .done a => ([], s, .ok a)
  | s, .fail message => ([], s, .error message)
  | s, .ask q k =>
    let (calls, last) := execute serve (serve s q).2 (k (serve s q).1)
    (⟨s, q, (serve s q).1⟩ :: calls, last)

theorem executes_execute (serve : σ → (q : Q) → A q × σ)
    (hserve : ∀ s q, S s q (serve s q).1 (serve s q).2) (s : σ) (p : Prog Q A α) :
    Executes S s p (p.execute serve s).1 (p.execute serve s).2.1 (p.execute serve s).2.2 := by
  induction p generalizing s with
  | done a => exact .done s a
  | fail message => exact .fail s message
  | ask q k ih => exact .ask (hserve s q) (ih _ _)

end Runs

end Framework
