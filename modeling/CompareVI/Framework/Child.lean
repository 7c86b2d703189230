import CompareVI.Framework.Attempt

/-!
# Programs that run programs

A program that starts another one as a child process waits for it and goes on with what
became of it: a child that throws ends with an error, and its parent goes on. The queries of
the child are among those of the parent (`Part`), and `Prog.child` is the child as a part of
the parent's text.

A run of the child, seen from the parent, is a run of the child (`Runs.child_inv`), and every
run of the child is seen (`Runs.child`). So a statement about the child alone speaks about the
part of the parent's history that belongs to it.
-/

namespace Framework

variable {Q Q' : Type} {A : Q → Type} {A' : Q' → Type} {α β : Type}

/-- The queries of one program among those of another, with the same answers. -/
structure Part (A : Q → Type) (A' : Q' → Type) where
  query : Q → Q'
  read : ∀ q, A' (query q) → A q
  write : ∀ q, A q → A' (query q)
  read_write : ∀ q a, read q (write q a) = a
  exchange : Exchange A' → Option (Exchange A)
  exchange_query : ∀ q a, exchange ⟨query q, a⟩ = some ⟨q, read q a⟩

def Part.embed (part : Part A A') (e : Exchange A) : Exchange A' :=
  ⟨part.query e.query, part.write e.query e.answer⟩

def Part.history (part : Part A A') (h : List (Exchange A')) : List (Exchange A) :=
  h.filterMap part.exchange

@[simp] theorem Part.history_append (part : Part A A') (h new : List (Exchange A')) :
    part.history (h ++ new) = part.history h ++ part.history new :=
  List.filterMap_append

theorem Part.history_embed (part : Part A A') (h : List (Exchange A)) :
    part.history (h.map part.embed) = h := by
  have hembed : ∀ e : Exchange A, part.exchange (part.embed e) = some e := fun e => by
    unfold Part.embed
    rw [part.exchange_query, part.read_write]
  induction h with
  | nil => rfl
  | cons e h ih =>
    change (part.embed e :: h.map part.embed).filterMap part.exchange = e :: h
    rw [List.filterMap_cons_some (hembed e)]
    exact congrArg (e :: ·) ih

def Prog.child (part : Part A A') : Prog Q A α → Prog Q' A' (Except String α)
  | .done a => .done (.ok a)
  | .fail message => .done (.error message)
  | .ask q k => .ask (part.query q) fun a => child part (k (part.read q a))

variable {part : Part A A'} {p : Prog Q A α} {h new : List (Exchange A')}

variable {r : Except String (Except String α)} {x : Except String α}

theorem Runs.child_inv (hr : Runs (p.child part) h r) :
    ∃ x, r = .ok x ∧ Runs p (part.history h) x ∧ ∀ e ∈ h, ∃ q, e.query = part.query q := by
  induction p generalizing h with
  | done a =>
    obtain ⟨rfl, rfl⟩ := Runs.done_inv hr
    exact ⟨.ok a, rfl, .refl, List.forall_mem_nil _⟩
  | fail message =>
    obtain ⟨rfl, rfl⟩ := Runs.done_inv hr
    exact ⟨.error message, rfl, .refl, List.forall_mem_nil _⟩
  | ask q k ih =>
    obtain ⟨a, rest, rfl, hrest⟩ := Runs.ask_inv hr
    obtain ⟨x, rfl, hruns, hqueries⟩ := ih (part.read q a) hrest
    refine ⟨x, rfl, ?_, fun e he => ?_⟩
    · have hhistory : part.history (⟨part.query q, a⟩ :: rest) =
          ⟨q, part.read q a⟩ :: part.history rest :=
        List.filterMap_cons_some (part.exchange_query q a)
      rw [hhistory]
      exact Reaches.ask hruns
    · rcases List.mem_cons.mp he with rfl | he
      · exact ⟨q, rfl⟩
      · exact hqueries e he

theorem Runs.child {h : List (Exchange A)} (hr : Runs p h x) :
    Runs (p.child part) (h.map part.embed) (.ok x) := by
  induction p generalizing h with
  | done a =>
    obtain ⟨rfl, rfl⟩ := Runs.done_inv hr
    exact .refl
  | fail message =>
    obtain ⟨rfl, rfl⟩ := Runs.fail_inv hr
    exact .refl
  | ask q k ih =>
    obtain ⟨a, rest, rfl, hrest⟩ := Runs.ask_inv hr
    have htail := ih a hrest
    rw [← part.read_write q a] at htail
    exact Reaches.ask htail

def Part.self (A : Q → Type) : Part A A where
  query := id
  read := fun _ a => a
  write := fun _ a => a
  read_write := fun _ _ => rfl
  exchange := some
  exchange_query := fun _ _ => rfl

/-- The body of a `try` block, whose error the program goes on with. -/
def Prog.caught (p : Prog Q A α) : Prog Q A (Except String α) := p.child (Part.self A)

theorem Runs.caught_inv {h : List (Exchange A)} (hr : Runs p.caught h r) :
    ∃ x, r = .ok x ∧ Runs p h x := by
  obtain ⟨x, rfl, hruns, -⟩ := Runs.child_inv hr
  have hself : (Part.self A).history h = h := List.filterMap_some
  rw [hself] at hruns
  exact ⟨x, rfl, hruns⟩

theorem Runs.caught {h : List (Exchange A)} (hr : Runs p h x) :
    Runs p.caught h (.ok x) := by
  have hself : h.map (Part.self A).embed = h := List.map_id h
  have hruns : Runs (p.child (Part.self A)) (h.map (Part.self A).embed) (.ok x) := Runs.child hr
  rwa [hself] at hruns

theorem asks_child {I : Q' → Prop} (hI : ∀ q, I (part.query q)) :
    Asks I (fun _ => True) (p.child part) := by
  induction p with
  | done a => trivial
  | fail message => trivial
  | ask q k ih => exact ⟨hI q, fun a => ih (part.read q a)⟩

theorem asks_caught {p : Prog Q A α} {I : Q → Prop} {P : α → Prop} (hp : Asks I P p) :
    Asks I (fun _ => True) p.caught := by
  induction p with
  | done a => trivial
  | fail message => trivial
  | ask q k ih => exact ⟨hp.1, fun a => ih a (hp.2 a)⟩

theorem Runs.bind {A : Q → Type} {p : Prog Q A α} {f : α → Prog Q A β}
    {first rest : List (Exchange A)} {a : α} {r : Except String β} (hp : Runs p first (.ok a))
    (hf : Runs (f a) rest r) : Runs (p >>= f) (first ++ rest) r := by
  change Runs (p.bind f) _ r
  induction p generalizing first with
  | done b =>
    obtain ⟨rfl, hb⟩ := Runs.done_inv hp
    obtain rfl := Except.ok.inj hb
    exact hf
  | fail message => exact nomatch (Runs.fail_inv hp).2
  | ask q k ih =>
    obtain ⟨b, tail, rfl, htail⟩ := Runs.ask_inv hp
    exact Reaches.ask (ih b htail)

end Framework
