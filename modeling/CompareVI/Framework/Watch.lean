import CompareVI.Framework.Child

/-!
# Programs under observation

A program that keeps a record of what it does asks what it would ask without the record, writes
the record somewhere, and may now meet an outside that throws at any query. `Attempt.observe` is a
part of the plain program inside of such an attempt; `Watch` says which queries are the plain
program's.

* `Attempt.Meets` has a condition for both ends of an attempt, over the history and the record.
  Its rules follow the text of an attempt (`Meets.bind`, `meets_observe`).
* `Mirrors` says that the record changes nothing: a run in which no query of the plain program
  throws is a run of the plain program, with the same result. `Silent` parts only keep the record.
-/

namespace Framework

variable {Q Q' : Type} {A : Q → Type} {R : Q' → Type} {ρ α β : Type}

/-- The queries of a plain program among those of an attempt. -/
structure Watch (A : Q → Type) (R : Q' → Type) where
  query : Q → Q'
  read : ∀ q, R (query q) → A q
  /-- The exchange of the plain program, if it is one and does not throw. -/
  plain : Exchange (fun q => Except String (R q)) → Option (Exchange A)
  plain_query : ∀ q a, plain ⟨query q, .ok a⟩ = some ⟨q, read q a⟩

namespace Attempt

def observe (watch : Watch A R) : Prog Q A α → Attempt Q' R ρ α
  | .done a => pure a
  | .fail message => throw message
  | .ask q k => call (watch.query q) >>= fun a => observe watch (k (watch.read q a))

/-- A `try` block whose error is handled and thrown again. -/
def onError (t : Attempt Q' R ρ α) (handler : String → Attempt Q' R ρ Unit) : Attempt Q' R ρ α :=
  fun record => t record >>= fun out =>
    match out with
    | (.ok a, record) => .done (.ok a, record)
    | (.error message, record) => (handler message >>= fun _ => throw message) record

def Ended (P : List (Exchange fun q => Except String (R q)) → ρ → α → Prop)
    (E : List (Exchange fun q => Except String (R q)) → ρ → Prop) :
    List (Exchange fun q => Except String (R q)) → Except String (Except String α × ρ) → Prop
  | h, .ok (.ok a, record) => P h record a
  | h, .ok (.error _, record) => E h record
  | _, .error _ => False

/-- Every run ends as `P` says if it has a result, and as `E` says if it throws. -/
def Meets (P : List (Exchange fun q => Except String (R q)) → ρ → α → Prop)
    (E : List (Exchange fun q => Except String (R q)) → ρ → Prop)
    (h : List (Exchange fun q => Except String (R q))) (record : ρ) (t : Attempt Q' R ρ α) : Prop :=
  Safe (fun _ _ => True) (Ended P E) h (t record)

section Meets

variable {P : List (Exchange fun q => Except String (R q)) → ρ → α → Prop}
  {P' : List (Exchange fun q => Except String (R q)) → ρ → β → Prop}
  {E : List (Exchange fun q => Except String (R q)) → ρ → Prop}
  {h : List (Exchange fun q => Except String (R q))} {record : ρ} {t : Attempt Q' R ρ α}

theorem meets_pure {a : α} (hP : P h record a) : Meets P E h record (pure a) := hP

theorem meets_throw {message : String} (hE : E h record) :
    Meets P E h record (throw message) := hE

theorem meets_call_bind {q : Q'} {f : R q → Attempt Q' R ρ β}
    (hok : ∀ reply, Meets P' E (h ++ [⟨q, .ok reply⟩]) record (f reply))
    (herror : ∀ message, E (h ++ [⟨q, .error message⟩]) record) :
    Meets P' E h record (call q >>= f) := by
  refine ⟨trivial, fun answer => ?_⟩
  cases answer with
  | ok reply => exact hok reply
  | error message => exact herror message

theorem meets_modify_bind {f : ρ → ρ} {g : Unit → Attempt Q' R ρ β}
    (hg : Meets P' E h (f record) (g ())) : Meets P' E h record (modify f >>= g) := hg

/-- **The rule of sequence.** -/
theorem Meets.bind {f : α → Attempt Q' R ρ β} (ht : Meets P E h record t)
    (hf : ∀ h' record' a, P h' record' a → Meets P' E h' record' (f a)) :
    Meets P' E h record (t >>= f) := by
  refine safe_bind.mpr (Safe.mono ht fun new r hr => ?_)
  match r, hr with
  | .ok (.ok a, record'), hP => exact hf _ record' a hP
  | .ok (.error _, _), hE => exact hE

variable {E' : List (Exchange fun q => Except String (R q)) → ρ → Prop}

/-- **The rule of consequence.** -/
theorem Meets.mono {P' : List (Exchange fun q => Except String (R q)) → ρ → α → Prop}
    (ht : Meets P E h record t) (hP : ∀ h record a, P h record a → P' h record a)
    (hE : ∀ h record, E h record → E' h record) : Meets P' E' h record t := by
  refine Safe.mono ht fun new r hr => ?_
  match r, hr with
  | .ok (.ok a, record'), hr => exact hP _ record' a hr
  | .ok (.error _, record'), hr => exact hE _ record' hr

theorem Meets.onError {handler : String → Attempt Q' R ρ Unit} (ht : Meets P E h record t)
    (hhandler : ∀ h record message, E h record →
      Meets (fun h record _ => E' h record) E' h record (handler message)) :
    Meets P E' h record (t.onError handler) := by
  refine safe_bind.mpr (Safe.mono ht fun new r hr => ?_)
  match r, hr with
  | .ok (.ok a, record'), hP => exact hP
  | .ok (.error message, record'), hE =>
    exact Meets.bind (hhandler _ record' message hE) fun h record _ hE' => meets_throw hE'

/-- A part of the plain program leaves the record alone, and keeps of the history what its queries
keep. -/
theorem meets_observe {watch : Watch A R} {I : Q → Prop} {K : α → Prop} {p : Prog Q A α}
    (hp : Asks I K p) (Inv : List (Exchange fun q => Except String (R q)) → Prop) (h0 : Inv h)
    (hkeep : ∀ h q answer, I q → Inv h → Inv (h ++ [⟨watch.query q, answer⟩])) :
    Meets (fun h record' a => Inv h ∧ record' = record ∧ K a) (fun h record' => Inv h ∧
      record' = record) h record (observe watch p) := by
  induction p generalizing h with
  | done a => exact ⟨h0, rfl, hp⟩
  | fail message => exact ⟨h0, rfl⟩
  | ask q k ih =>
    exact meets_call_bind (fun reply => ih _ (hp.2 _) (hkeep h q _ hp.1 h0))
      fun message => ⟨hkeep h q _ hp.1 h0, rfl⟩

end Meets

end Attempt

/-! ### The record changes nothing -/

section Mirrors

variable {watch : Watch A R} {t : Attempt Q' R ρ α} {p : Prog Q A α}

/-- No query of the plain program has thrown. -/
def Watch.Answered (watch : Watch A R) (h : List (Exchange fun q => Except String (R q))) : Prop :=
  ∀ q message, ⟨watch.query q, .error message⟩ ∉ h

def Watch.history (watch : Watch A R) (h : List (Exchange fun q => Except String (R q))) :
    List (Exchange A) :=
  h.filterMap watch.plain

theorem Watch.history_append (watch : Watch A R)
    (h new : List (Exchange fun q => Except String (R q))) :
    watch.history (h ++ new) = watch.history h ++ watch.history new :=
  List.filterMap_append

theorem Watch.Answered.append_iff {h new : List (Exchange fun q => Except String (R q))} :
    watch.Answered (h ++ new) ↔ watch.Answered h ∧ watch.Answered new := by
  simp only [Watch.Answered, List.mem_append, not_or, forall_and]

/-- A run in which no query of the plain program throws is one of the plain program. -/
def Mirrors (watch : Watch A R) (t : Attempt Q' R ρ α) (p : Prog Q A α) : Prop :=
  ∀ record h x record', Runs (t record) h (.ok (x, record')) → watch.Answered h →
    Runs p (watch.history h) x

/-- The attempt does not throw and asks nothing that the plain program would ask. -/
def Silent (watch : Watch A R) (t : Attempt Q' R ρ α) : Prop :=
  ∀ record h x record', Runs (t record) h (.ok (x, record')) →
    (∃ a, x = .ok a) ∧ watch.history h = []

theorem mirrors_pure (a : α) : Mirrors watch (pure a : Attempt Q' R ρ α) (pure a) := by
  intro record h x record' hr _
  obtain ⟨rfl, hx⟩ := Runs.done_inv hr
  cases hx
  exact .refl

theorem mirrors_throw (message : String) :
    Mirrors watch (Attempt.throw message : Attempt Q' R ρ α) (.fail message) := by
  intro record h x record' hr _
  obtain ⟨rfl, hx⟩ := Runs.done_inv hr
  cases hx
  exact .refl

theorem mirrors_observe (p : Prog Q A α) :
    Mirrors watch (Attempt.observe watch p : Attempt Q' R ρ α) p := by
  induction p with
  | done a => exact mirrors_pure a
  | fail message => exact mirrors_throw message
  | ask q k ih =>
    intro record h x record' hr hanswered
    obtain ⟨answer, rest, rfl, hrest⟩ := Runs.ask_inv hr
    obtain ⟨-, hafter⟩ := Watch.Answered.append_iff (h := [_]).mp hanswered
    cases answer with
    | error message => exact absurd List.mem_cons_self (hanswered q message)
    | ok reply =>
      have htail := ih _ record rest x record' hrest hafter
      have hhistory : watch.history (⟨watch.query q, .ok reply⟩ :: rest) =
          ⟨q, watch.read q reply⟩ :: watch.history rest :=
        List.filterMap_cons_some (watch.plain_query q reply)
      rw [hhistory]
      exact Reaches.ask htail

theorem Runs.bind_error {f : α → Prog Q A β} {h : List (Exchange A)} {message : String}
    (hp : Runs p h (.error message)) : Runs (p >>= f) h (.error message) := by
  change Runs (p.bind f) h _
  induction p generalizing h with
  | done a => exact nomatch (Runs.done_inv hp).2
  | fail text =>
    obtain ⟨rfl, hmessage⟩ := Runs.fail_inv hp
    obtain rfl := Except.error.inj hmessage
    exact .refl
  | ask q k ih =>
    obtain ⟨a, rest, rfl, hrest⟩ := Runs.ask_inv hp
    exact Reaches.ask (ih a hrest)

variable {f : α → Attempt Q' R ρ β}

theorem Attempt.runs_bind {record record' : ρ} {h : List (Exchange fun q => Except String (R q))}
    {x : Except String β} (hr : Runs ((t >>= f) record) h (.ok (x, record'))) :
    (∃ first rest a middle, h = first ++ rest ∧ Runs (t record) first (.ok (.ok a, middle)) ∧
        Runs (f a middle) rest (.ok (x, record'))) ∨
      ∃ message, x = .error message ∧ Runs (t record) h (.ok (.error message, record')) := by
  rcases Runs.bind_inv (f := Attempt.next f) hr with
    ⟨first, rest, ⟨y, middle⟩, rfl, hfirst, hrest⟩ | ⟨message, -, heq⟩
  · cases y with
    | ok a => exact .inl ⟨first, rest, a, middle, rfl, hfirst, hrest⟩
    | error message =>
      obtain ⟨rfl, hx⟩ := Runs.done_inv hrest
      cases hx
      exact .inr ⟨message, rfl, by rwa [List.append_nil]⟩
  · exact nomatch heq

theorem asks_any (p : Prog Q A α) : Asks (fun _ => True) (fun _ => True) p := by
  induction p with
  | done a => trivial
  | fail message => trivial
  | ask q k ih => exact ⟨trivial, ih⟩

variable {g : α → Prog Q A β}

/-- **The rule of sequence**, with what is known of the result of the first part. -/
theorem Mirrors.bind_of {K : α → Prop} (ht : Mirrors watch t p) (hp : Asks (fun _ => True) K p)
    (hf : ∀ a, K a → Mirrors watch (f a) (g a)) :
    Mirrors watch (t >>= f) (p >>= g) := by
  intro record h x record' hr hanswered
  rcases Attempt.runs_bind hr with ⟨first, rest, a, middle, rfl, hfirst, hrest⟩ |
    ⟨message, rfl, hthrown⟩
  · obtain ⟨hbefore, hafter⟩ := Watch.Answered.append_iff.mp hanswered
    have hplain := ht record first _ middle hfirst hbefore
    have hK : K a := (hp.runs hplain).2 a rfl
    rw [watch.history_append]
    exact Runs.bind hplain (hf a hK middle rest x record' hrest hafter)
  · exact Runs.bind_error (ht record h _ record' hthrown hanswered)

/-- **The rule of sequence.** -/
theorem Mirrors.bind (ht : Mirrors watch t p) (hf : ∀ a, Mirrors watch (f a) (g a)) :
    Mirrors watch (t >>= f) (p >>= g) :=
  ht.bind_of (asks_any p) fun a _ => hf a

theorem Silent.bind {p : Prog Q A β} (ht : Silent watch t) (hf : ∀ a, Mirrors watch (f a) p) :
    Mirrors watch (t >>= f) p := by
  intro record h x record' hr hanswered
  rcases Attempt.runs_bind hr with ⟨first, rest, a, middle, rfl, hfirst, hrest⟩ |
    ⟨message, rfl, hthrown⟩
  · obtain ⟨-, hnone⟩ := ht record first _ middle hfirst
    rw [watch.history_append, hnone, List.nil_append]
    exact hf a middle rest x record' hrest (Watch.Answered.append_iff.mp hanswered).2
  · obtain ⟨⟨a, ha⟩, -⟩ := ht record h _ record' hthrown
    cases ha

theorem silent_modify (f : ρ → ρ) : Silent watch (Attempt.modify f : Attempt Q' R ρ Unit) := by
  intro record h x record' hr
  obtain ⟨rfl, hx⟩ := Runs.done_inv hr
  cases hx
  exact ⟨⟨(), rfl⟩, rfl⟩

theorem Silent.mirrors {t : Attempt Q' R ρ Unit} (ht : Silent watch t) :
    Mirrors watch t (pure ()) := by
  intro record h x record' hr _
  obtain ⟨⟨a, rfl⟩, hnone⟩ := ht record h x record' hr
  rw [hnone]
  exact .refl

theorem Silent.then (ht : Silent watch t) (hf : ∀ a, Silent watch (f a)) :
    Silent watch (t >>= f) := by
  intro record h x record' hr
  rcases Attempt.runs_bind hr with ⟨first, rest, a, middle, rfl, hfirst, hrest⟩ |
    ⟨message, rfl, hthrown⟩
  · obtain ⟨-, hnone⟩ := ht record first _ middle hfirst
    obtain ⟨hok, hrest⟩ := hf a middle rest x record' hrest
    exact ⟨hok, by rw [watch.history_append, hnone, hrest, List.nil_append]⟩
  · obtain ⟨⟨a, ha⟩, -⟩ := ht record h _ record' hthrown
    cases ha

theorem Mirrors.noting {f : α → Attempt Q' R ρ Unit} (ht : Mirrors watch t p)
    (hf : ∀ a, Silent watch (f a)) : Mirrors watch (t >>= fun a => f a >>= fun _ => pure a) p := by
  intro record h x record' hr hanswered
  rcases Attempt.runs_bind hr with ⟨first, rest, a, middle, rfl, hfirst, hrest⟩ |
    ⟨message, rfl, hthrown⟩
  · obtain ⟨hbefore, hafter⟩ := Watch.Answered.append_iff.mp hanswered
    have hlast : Mirrors watch (f a >>= fun _ => pure a) (pure a) :=
      (hf a).bind fun _ => mirrors_pure a
    obtain ⟨hnone, hx⟩ := Runs.done_inv (hlast middle rest x record' hrest hafter)
    rw [watch.history_append, hnone, List.append_nil, hx]
    exact ht record first _ middle hfirst hbefore
  · exact ht record h _ record' hthrown hanswered

theorem Mirrors.onError {handler : String → Attempt Q' R ρ Unit} (ht : Mirrors watch t p)
    (hhandler : ∀ message, Silent watch (handler message)) :
    Mirrors watch (t.onError handler) p := by
  intro record h x record' hr hanswered
  rcases Runs.bind_inv hr with ⟨first, rest, ⟨y, middle⟩, rfl, hfirst, hrest⟩ | ⟨message, -, heq⟩
  · obtain ⟨hbefore, hafter⟩ := Watch.Answered.append_iff.mp hanswered
    have hplain := ht record first y middle hfirst hbefore
    cases y with
    | ok a =>
      obtain ⟨rfl, hx⟩ := Runs.done_inv hrest
      cases hx
      rwa [List.append_nil]
    | error message =>
      have hlast : Mirrors watch (handler message >>= fun _ => Attempt.throw (α := α) message)
          (.fail message) := (hhandler message).bind fun _ => mirrors_throw message
      obtain ⟨hnone, hx⟩ := Runs.fail_inv (hlast middle rest x record' hrest hafter)
      rw [watch.history_append, hnone, List.append_nil, hx]
      exact hplain
  · exact nomatch heq

end Mirrors

end Framework
