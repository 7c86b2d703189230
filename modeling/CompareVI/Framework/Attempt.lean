import CompareVI.Framework.Service

/-!
# Programs with a record that outlives a throw

A program of `Interact` that throws is over, and so is whatever it had put together. Code
that works on a record inside a `try` block, and reads the record where the error is
caught, is an `Attempt`: it is started with a record, and ends with the record and either a
result or an error. An `Attempt` never throws as a program.

* `Attempt.Returns` is the partial correctness of `Service`, with the record as a second state;
  its rules follow the text of an attempt.
* `historyService` is the service that answers anything and whose state is the list of
  exchanges, so that the same rules speak about histories (`Returns.asked`).
* `Attempt.runs_rest` and `Attempt.runs_throw` say how a run goes on after a part of it: the
  answers decide everything.
* `Attempt.Keeps` is what needs no service at all: which queries are asked, and which
  invariant of the record is kept.
-/

namespace Framework

variable {Q : Type} {R : Q → Type} {σ ρ α β : Type}

def Attempt (Q : Type) (R : Q → Type) (ρ α : Type) : Type :=
  ρ → Prog Q (fun q => Except String (R q)) (Except String α × ρ)

namespace Attempt

def next (f : α → Attempt Q R ρ β) :
    Except String α × ρ → Prog Q (fun q => Except String (R q)) (Except String β × ρ)
  | (.ok a, record) => f a record
  | (.error message, record) => .done (.error message, record)

instance : Monad (Attempt Q R ρ) where
  pure a := fun record => .done (.ok a, record)
  bind t f := fun record => t record >>= next f

def throw (message : String) : Attempt Q R ρ α := fun record => .done (.error message, record)

def require (condition : Bool) (message : String) : Attempt Q R ρ Unit :=
  if condition then pure () else throw message

def call (q : Q) : Attempt Q R ρ (R q) := fun record => .ask q fun answer => .done (answer, record)

def modify (f : ρ → ρ) : Attempt Q R ρ Unit := fun record => .done (.ok (), f record)

def get : Attempt Q R ρ ρ := fun record => .done (.ok record, record)

variable {S : Service σ fun q => Except String (R q)} {I : σ → Q → Prop} {P : σ → ρ → α → Prop}
  {P' : σ → ρ → β → Prop} {s : σ} {record : ρ}

/-- Every run asks only what `I` allows, and a run that ends with a result ends as `P` says.
Nothing is said about the end of a run that throws. -/
def Returns (S : Service σ fun q => Except String (R q)) (I : σ → Q → Prop)
    (P : σ → ρ → α → Prop) (s : σ) (record : ρ) (t : Attempt Q R ρ α) : Prop :=
  Framework.Returns S I (fun s out => ∀ a, out.1 = .ok a → P s out.2 a) s (t record)

theorem returns_pure {a : α} (h : P s record a) : Returns S I P s record (pure a) := by
  refine Framework.returns_pure fun b hb => ?_
  obtain rfl := Except.ok.inj hb
  exact h

theorem returns_throw (message : String) : Returns S I P s record (throw message) :=
  Framework.returns_pure fun _ hok => nomatch hok

theorem returns_require {condition : Bool} {message : String} {P : σ → ρ → Unit → Prop}
    (h : condition = true → P s record ()) :
    Returns S I P s record (require condition message) := by
  cases condition with
  | true => exact returns_pure (h rfl)
  | false => exact returns_throw message

variable {t : Attempt Q R ρ α} {q : Q} {f : ρ → ρ}
  {Post : σ → Except String (Except String β × ρ) → Prop}

theorem returns_call {P : σ → ρ → R q → Prop} (hI : I s q)
    (h : ∀ reply u, S s q (.ok reply) u → P u record reply) :
    Returns S I P s record (call q) := by
  refine ⟨hI, fun answer u hserve => ?_⟩
  rintro out ⟨⟩ reply hreply
  cases answer with
  | ok _ =>
    obtain rfl := Except.ok.inj hreply
    exact h _ u hserve
  | error message => exact nomatch hreply

theorem returns_modify {P : σ → ρ → Unit → Prop} (h : P s (f record) ()) :
    Returns S I P s record (modify f) :=
  Framework.returns_pure fun _ _ => h

theorem returns_call_bind {f : R q → Attempt Q R ρ β} (hI : I s q)
    (h : ∀ reply u, S s q (.ok reply) u → Returns S I P' u record (f reply)) :
    Returns S I P' s record (call q >>= f) := by
  refine ⟨hI, fun answer u hserve => ?_⟩
  cases answer with
  | ok reply => exact h reply u hserve
  | error message => exact fun out hout a ha => by cases hout; exact nomatch ha

variable {g : Unit → Attempt Q R ρ β}

theorem returns_modify_bind (h : Returns S I P' s (f record) (g ())) :
    Returns S I P' s record (modify f >>= g) :=
  h

theorem returns_get {P : σ → ρ → ρ → Prop} (h : P s record record) :
    Returns S I P s record get := by
  refine Framework.returns_pure fun b hb => ?_
  obtain rfl := Except.ok.inj hb
  exact h

/-- **The rule of sequence.** -/
theorem Returns.bind {f : α → Attempt Q R ρ β} (ht : Returns S I P s record t)
    (hf : ∀ u record a, P u record a → Returns S I P' u record (f a)) :
    Returns S I P' s record (t >>= f) := by
  refine Framework.Returns.bind ht ?_
  rintro u ⟨x, record'⟩ hx
  cases x with
  | ok a => exact hf u record' a (hx a rfl)
  | error message => exact Framework.returns_pure fun _ hok => nomatch hok

/-- **The rule of sequence**, for the ends of all runs: an attempt that throws ends what
follows it. -/
theorem ensures_bind {f : α → Attempt Q R ρ β} :
    Ensures S I Post s ((t >>= f) record) ↔
      Ensures S I (fun u (r : Except String (Except String α × ρ)) => match r with
        | .ok (.ok a, record') => Ensures S I Post u (f a record')
        | .ok (.error message, record') => Post u (.ok (.error message, record'))
        | .error message => Post u (.error message)) s (t record) := by
  refine Framework.ensures_bind.trans ⟨fun h => h.mono fun u r hr => ?_,
    fun h => h.mono fun u r hr => ?_⟩
  · rcases r with message | ⟨message | a, record'⟩ <;> exact hr
  · rcases r with message | ⟨message | a, record'⟩ <;> exact hr

theorem ensures_modify_bind :
    Ensures S I Post s ((modify f >>= g) record) ↔ Ensures S I Post s (g () (f record)) :=
  Iff.rfl

theorem ensures_recorded_call_bind
    {I : σ × List (Exchange fun q => Except String (R q)) → Q → Prop}
    {Post : σ × List (Exchange fun q => Except String (R q)) →
      Except String (Except String β × ρ) → Prop}
    {h : List (Exchange fun q => Except String (R q))} {f : R q → Attempt Q R ρ β} :
    Ensures (recorded S) I Post (s, h) ((call q >>= f) record) ↔
      I (s, h) q ∧
        (∀ reply u, S s q (.ok reply) u →
          Ensures (recorded S) I Post (u, h ++ [⟨q, .ok reply⟩]) (f reply record)) ∧
        ∀ message u, S s q (.error message) u →
          Post (u, h ++ [⟨q, .error message⟩]) (.ok (.error message, record)) := by
  refine and_congr_right fun _ => forall_answer.trans (and_congr ?_ ?_)
  · exact forall_congr' fun _ => forall_recorded
  · exact forall_congr' fun _ => forall_recorded

/-- **The rule of consequence.** -/
theorem Returns.mono {Q' : σ → ρ → α → Prop} (ht : Returns S I P s record t)
    (h : ∀ u record a, P u record a → Q' u record a) :
    Returns S I Q' s record t :=
  Framework.Returns.mono ht fun u out hout a ha => h u out.2 a (hout a ha)

end Attempt

/-! ### Histories -/

section History

variable {A : Q → Type} {p : Prog Q A α} {h new : List (Exchange A)}

def historyService (A : Q → Type) : Service (List (Exchange A)) A :=
  fun h q a h' => h' = h ++ [⟨q, a⟩]

theorem ensures_historyService {I : List (Exchange A) → Q → Prop}
    {Post : List (Exchange A) → Except String α → Prop} :
    Ensures (historyService A) I Post h p ↔ Safe I Post h p := by
  induction p generalizing h with
  | done a => rfl
  | fail message => rfl
  | ask q k ih =>
    refine and_congr_right fun _ => ⟨fun hall a => (ih a).mp (hall a _ rfl), ?_⟩
    rintro hall a u rfl
    exact (ih a).mpr (hall a)

variable {t : Attempt Q R ρ α} {r x : Except String α} {γ : Type} {a : α} {f : α → Attempt Q R ρ β}
  {record' : ρ}

theorem Returns.asked {I : List (Exchange A) → Q → Prop} {P : List (Exchange A) → α → Prop}
    (hp : Returns (historyService A) I P h p) (hr : Runs p new r) :
    ∀ pre e post, new = pre ++ e :: post → I (h ++ pre) e.query :=
  Safe.asked (ensures_historyService.mp hp) hr

variable {p' : Prog Q A α}

theorem Reaches.ask_inv {q : Q} {k : A q → Prog Q A α} (hr : Reaches (.ask q k) new p') :
    (new = [] ∧ p' = .ask q k) ∨ ∃ a rest, new = ⟨q, a⟩ :: rest ∧ Reaches (k a) rest p' := by
  induction hr with
  | refl => exact .inl ⟨rfl, rfl⟩
  | @step new q' k' hp a ih =>
    rcases ih with ⟨rfl, heq⟩ | ⟨b, rest, rfl, hrest⟩
    · -- the query asked was the first one
      obtain ⟨rfl, hk⟩ := Prog.ask.inj heq
      obtain rfl := eq_of_heq hk
      exact .inr ⟨a, [], rfl, .refl⟩
    · exact .inr ⟨b, rest ++ [⟨q', a⟩], rfl, hrest.step a⟩

theorem Reaches.end_inv (hr : Reaches (.ofExcept x) new p') :
    new = [] ∧ p' = .ofExcept x := by
  induction hr with
  | refl => exact ⟨rfl, rfl⟩
  | step hp a ih =>
    cases x with
    | ok b => exact nomatch ih.2
    | error message => exact nomatch ih.2

theorem Prog.ofExcept_injective {y : Except String α}
    (h : (Prog.ofExcept x : Prog Q A α) = .ofExcept y) : x = y := by
  cases x <;> cases y <;> cases h <;> rfl

theorem Prog.bind_assoc (p : Prog Q A α) (f : α → Prog Q A β) (g : β → Prog Q A γ) :
    p >>= f >>= g = p >>= fun a => f a >>= g := by
  change (p.bind f).bind g = p.bind fun a => (f a).bind g
  induction p with
  | done a => rfl
  | fail message => rfl
  | ask q k ih => exact congrArg (Prog.ask q) (funext ih)

theorem Runs.end_inv (hr : Runs (A := A) (.ofExcept x) new r) :
    new = [] ∧ r = x := by
  obtain ⟨rfl, heq⟩ := Reaches.end_inv hr
  exact ⟨rfl, Prog.ofExcept_injective heq⟩

theorem Runs.done_inv (hr : Runs (A := A) (.done a) new r) :
    new = [] ∧ r = .ok a :=
  Runs.end_inv (x := .ok a) hr

theorem Runs.fail_inv {message : String} (hr : Runs (A := A) (.fail message) new r) :
    new = [] ∧ r = .error message :=
  Runs.end_inv (x := .error message) hr

theorem Runs.ask_inv {q : Q} {k : A q → Prog Q A α} (hr : Runs (.ask q k) new r) :
    ∃ a rest, new = ⟨q, a⟩ :: rest ∧ Runs (k a) rest r := by
  rcases Reaches.ask_inv hr with ⟨-, heq⟩ | hrest
  · cases r <;> exact nomatch heq
  · exact hrest

theorem Runs.bind_inv {f : α → Prog Q A β} {r : Except String β}
    (hr : Runs (p >>= f) new r) :
    (∃ first rest a, new = first ++ rest ∧ Runs p first (.ok a) ∧ Runs (f a) rest r) ∨
      ∃ message, Runs p new (.error message) ∧ r = .error message := by
  change Runs (p.bind f) new r at hr
  induction p generalizing new with
  | done a => exact .inl ⟨[], new, a, rfl, .refl, hr⟩
  | fail message =>
    obtain ⟨rfl, rfl⟩ := Runs.fail_inv hr
    exact .inr ⟨message, .refl, rfl⟩
  | ask q k ih =>
    obtain ⟨a, rest, rfl, hrest⟩ := Runs.ask_inv hr
    rcases ih a hrest with ⟨first, last, b, rfl, hfirst, hlast⟩ | ⟨message, hthrown, rfl⟩
    · exact .inl ⟨⟨q, a⟩ :: first, last, b, rfl, Reaches.ask hfirst, hlast⟩
    · exact .inr ⟨message, Reaches.ask hthrown, rfl⟩

/-- **The answers decide a run.** After a run of its first part a sequence goes on with what
follows the result. -/
theorem Runs.rest {f : α → Prog Q A β} {first rest : List (Exchange A)} {r : Except String β}
    (hfirst : Runs p first (.ok a)) (hr : Runs (p >>= f) (first ++ rest) r) :
    Runs (f a) rest r := by
  change Runs (p.bind f) _ r at hr
  induction p generalizing first with
  | done b =>
    obtain ⟨rfl, hb⟩ := Runs.done_inv hfirst
    obtain rfl := Except.ok.inj hb
    exact hr
  | fail message => exact nomatch (Runs.fail_inv hfirst).2
  | ask q k ih =>
    obtain ⟨b, tail, rfl, htail⟩ := Runs.ask_inv hfirst
    obtain ⟨c, tail', heq, htail'⟩ := Runs.ask_inv hr
    obtain ⟨hbc, rfl⟩ := List.cons.inj heq
    cases hbc
    exact ih b htail htail'

theorem Attempt.runs_bind_inv {record : ρ} {new : List (Exchange fun q => Except String (R q))}
    {b : β} (hr : Runs ((t >>= f) record) new (.ok (.ok b, record'))) :
    ∃ first rest a middle, new = first ++ rest ∧ Runs (t record) first (.ok (.ok a, middle)) ∧
      Runs (f a middle) rest (.ok (.ok b, record')) := by
  rcases Runs.bind_inv (f := next f) hr with
    ⟨first, rest, ⟨x, middle⟩, rfl, hfirst, hrest⟩ | ⟨message, -, heq⟩
  · cases x with
    | ok a => exact ⟨first, rest, a, middle, rfl, hfirst, hrest⟩
    | error message =>
      exact nomatch (Runs.done_inv hrest).2
  · exact nomatch heq

section After

variable {record : ρ} {k : Except String β × ρ → Prog Q (fun q => Except String (R q)) γ}
  {first rest : List (Exchange fun q => Except String (R q))} {r : Except String γ}

theorem Attempt.runs_next {out : Except String α × ρ} (hfirst : Runs (t record) first (.ok out))
    (hr : Runs ((t >>= f) record >>= k) (first ++ rest) r) : Runs (next f out >>= k) rest r := by
  have hassoc : (t >>= f) record >>= k = t record >>= fun out => next f out >>= k :=
    Prog.bind_assoc _ _ _
  rw [hassoc] at hr
  exact Runs.rest (f := fun out => next f out >>= k) hfirst hr

theorem Attempt.runs_rest (hfirst : Runs (t record) first (.ok (.ok a, record')))
    (hr : Runs ((t >>= f) record >>= k) (first ++ rest) r) :
    Runs (f a record' >>= k) rest r :=
  runs_next hfirst hr

theorem Attempt.runs_throw {message : String}
    (hfirst : Runs (t record) first (.ok (.error message, record')))
    (hr : Runs ((t >>= f) record >>= k) (first ++ rest) r) :
    Runs (k (.error message, record')) rest r :=
  runs_next hfirst hr

end After

end History

/-! ### What does not depend on the outside -/

/-- The program asks only what `I` allows, and its result is one that `P` allows, whatever the
answers are. -/
def Asks {A : Q → Type} (I : Q → Prop) (P : α → Prop) : Prog Q A α → Prop
  | .done a => P a
  | .fail _ => True
  | .ask q k => I q ∧ ∀ a, Asks I P (k a)

section Asks

variable {A : Q → Type} {I : Q → Prop} {P : α → Prop} {P' : β → Prop} {p : Prog Q A α}

theorem Asks.bind {f : α → Prog Q A β} (hp : Asks I P p) (hf : ∀ a, P a → Asks I P' (f a)) :
    Asks I P' (p >>= f) := by
  change Asks I P' (p.bind f)
  induction p with
  | done a => exact hf a hp
  | fail message => trivial
  | ask q k ih => exact ⟨hp.1, fun a => ih a (hp.2 a)⟩

theorem asks_call {R : Q → Type} {q : Q} {P : R q → Prop} (hI : I q) (hP : ∀ a, P a) :
    Asks I P (Prog.call (R := R) q) :=
  ⟨hI, fun a => match a with
    | .ok a => hP a
    | .error _ => trivial⟩

theorem asks_ofExcept {x : Except String α} (hP : ∀ a, P a) :
    Asks I P (Prog.ofExcept x : Prog Q A α) :=
  match x with
  | .ok a => hP a
  | .error _ => trivial

theorem Asks.runs (hp : Asks I P p) {h : List (Exchange A)} {r : Except String α}
    (hr : Runs p h r) : (∀ e ∈ h, I e.query) ∧ ∀ a, r = .ok a → P a := by
  induction p generalizing h with
  | done a =>
    obtain ⟨rfl, rfl⟩ := Runs.done_inv hr
    refine ⟨List.forall_mem_nil _, ?_⟩
    rintro b ⟨⟩
    exact hp
  | fail message =>
    obtain ⟨rfl, rfl⟩ := Runs.fail_inv hr
    exact ⟨List.forall_mem_nil _, fun _ hok => nomatch hok⟩
  | ask q k ih =>
    obtain ⟨a, rest, rfl, hrest⟩ := Runs.ask_inv hr
    obtain ⟨hasked, hend⟩ := ih a (hp.2 a) hrest
    refine ⟨fun e he => ?_, hend⟩
    rcases List.mem_cons.mp he with rfl | he
    · exact hp.1
    · exact hasked e he

theorem Asks.returns (hp : Asks I P p) (S : Service σ A) (s : σ) :
    Returns S (fun _ q => I q) (fun _ a => P a) s p := by
  induction p generalizing s with
  | done a => exact returns_pure hp
  | fail message => exact returns_fail message
  | ask q k ih => exact ⟨hp.1, fun a u _ => ih a (hp.2 a) u⟩

end Asks

namespace Attempt

/-- The attempt asks only what `I` allows, and keeps an invariant of the record, also where it
throws. -/
def Keeps (I : Q → Prop) (Inv : ρ → Prop) (t : Attempt Q R ρ α) : Prop :=
  ∀ record, Inv record → Asks I (fun out => Inv out.2) (t record)

variable {I : Q → Prop} {Inv : ρ → Prop}

theorem keeps_pure (a : α) : Keeps I Inv (pure a : Attempt Q R ρ α) := fun _ hrecord => hrecord

theorem keeps_throw (message : String) : Keeps I Inv (throw message : Attempt Q R ρ α) :=
  fun _ hrecord => hrecord

theorem keeps_require (condition : Bool) (message : String) :
    Keeps I Inv (require condition message : Attempt Q R ρ Unit) := by
  cases condition with
  | true => exact keeps_pure ()
  | false => exact keeps_throw message

theorem keeps_call {q : Q} (hI : I q) : Keeps I Inv (call q : Attempt Q R ρ (R q)) :=
  fun _ hrecord => ⟨hI, fun _ => hrecord⟩

theorem keeps_modify {f : ρ → ρ} (hf : ∀ record, Inv record → Inv (f record)) :
    Keeps I Inv (modify f : Attempt Q R ρ Unit) :=
  hf

theorem keeps_get : Keeps I Inv (get : Attempt Q R ρ ρ) := fun _ hrecord => hrecord

variable {t : Attempt Q R ρ α} {I' : σ → Q → Prop}

theorem Keeps.bind {f : α → Attempt Q R ρ β} (ht : Keeps I Inv t) (hf : ∀ a, Keeps I Inv (f a)) :
    Keeps I Inv (t >>= f) := by
  intro record hrecord
  refine Asks.bind (ht record hrecord) ?_
  rintro ⟨x, record'⟩ hrecord'
  cases x with
  | ok a => exact hf a record' hrecord'
  | error message => exact hrecord'

theorem Returns.and_asks {S : Service σ fun q => Except String (R q)} {P : σ → ρ → α → Prop}
    {s : σ} {record : ρ} (ht : Returns S I' P s record t)
    (hasks : Asks I (fun out => Inv out.2) (t record)) :
    Returns S I' (fun s record a => P s record a ∧ Inv record) s record t := by
  refine Ensures.mono (Ensures.and ht (hasks.returns S s)) ?_
  rintro u r ⟨hP, hInv⟩ out rfl a ha
  exact ⟨hP out rfl a ha, hInv out rfl⟩

theorem returns_of_asks {S : Service σ fun q => Except String (R q)} {s : σ} {record : ρ}
    (ht : Asks I (fun out => Inv out.2) (t record)) (K : σ → Prop) (h0 : K s)
    (hkeep : ∀ s q a u, K s → I q → S s q a u → K u) (hI : ∀ s q, I q → K s → I' s q) :
    Returns S I' (fun s record _ => Inv record ∧ K s) s record t := by
  have hreturns := Framework.Returns.invariant K (ht.returns S s) h0 hkeep
  refine Ensures.weaken (Framework.Returns.mono hreturns fun u out hout a _ => hout) ?_
  exact fun s q hq => hI s q hq.1 hq.2

end Attempt

end Framework
