import CompareVI.Framework.Child

/-!
# The ends of a run

`Ensures` has one condition for all ends of a run. `Ends S I E P s p` has two: what it
returns is as `P` says, and if it throws, the state is as `E` says. The rules of this file
keep `E` fixed along a program, so that a proof names it once. `Prog.mapList` runs a program
for each entry of a list, and `Prog.tryFinally` runs a second one however the first ends.
-/

namespace Framework

variable {Q : Type} {A : Q → Type} {σ α β : Type}

namespace Prog

def mapList (f : α → Prog Q A β) : List α → Prog Q A (List β)
  | [] => pure []
  | a :: as => do
    let b ← f a
    let bs ← mapList f as
    pure (b :: bs)

/-- A `try` block with a `finally` block. -/
def tryFinally (p : Prog Q A α) (last : Prog Q A β) : Prog Q A (α × β) := do
  let outcome ← p.caught
  let b ← last
  Prog.ofExcept (outcome.map fun a => (a, b))

end Prog

/-- Every run asks only what `I` allows. It ends as `P` says if it returns, and as `E` says
if it throws. -/
def Ends (S : Service σ A) (I : σ → Q → Prop) (E : σ → Prop) (P : σ → α → Prop) (s : σ)
    (p : Prog Q A α) : Prop :=
  Ensures S I (fun t r => match r with
    | .ok a => P t a
    | .error _ => E t) s p

section Rules

variable {S : Service σ A} {I : σ → Q → Prop} {E : σ → Prop} {P : σ → α → Prop}
  {P' : σ → β → Prop} {s : σ} {p : Prog Q A α}

theorem ends_pure {a : α} (h : P s a) : Ends S I E P s (pure a) := h

theorem ends_fail {message : String} (h : E s) : Ends S I E P s (.fail message) := h

theorem ends_ofExcept {x : Except String α} (hok : ∀ a, x = .ok a → P s a)
    (herror : ∀ message, x = .error message → E s) : Ends S I E P s (.ofExcept x) := by
  cases x with
  | ok a => exact hok a rfl
  | error message => exact herror message rfl

variable {f : α → Prog Q A β}

/-- **The rule of sequence.** -/
theorem Ends.bind (hp : Ends S I E P s p) (hf : ∀ t a, P t a → Ends S I E P' t (f a)) :
    Ends S I E P' s (p >>= f) := by
  refine ensures_bind.mpr (Ensures.mono hp fun t r hr => ?_)
  cases r with
  | ok a => exact hf t a hr
  | error message => exact hr

/-- **The rule of consequence.** -/
theorem Ends.mono {P' : σ → α → Prop} (hp : Ends S I E P s p) (h : ∀ t a, P t a → P' t a) :
    Ends S I E P' s p := by
  refine Ensures.mono hp fun t r hr => ?_
  cases r with
  | ok a => exact h t a hr
  | error message => exact hr

variable {q : Q} {R : Q → Type}

theorem ends_call {S : Service σ fun q => Except String (R q)} {P : σ → R q → Prop} (hI : I s q)
    (hok : ∀ reply u, S s q (.ok reply) u → P u reply)
    (herror : ∀ message u, S s q (.error message) u → E u) :
    Ends S I E P s (Prog.call q) := by
  refine ⟨hI, fun answer u hserve => ?_⟩
  cases answer with
  | ok reply => exact hok reply u hserve
  | error message => exact herror message u hserve

theorem ends_call_bind {S : Service σ fun q => Except String (R q)}
    {f : R q → Prog Q (fun q => Except String (R q)) β} (hI : I s q)
    (hok : ∀ reply u, S s q (.ok reply) u → Ends S I E P' u (f reply))
    (herror : ∀ message u, S s q (.error message) u → E u) :
    Ends S I E P' s (Prog.call q >>= f) :=
  ensures_call_bind.mpr ⟨hI, hok, herror⟩

/-- **The rule of loops.** The condition speaks of the entries done, of their results and of
the state. -/
theorem ends_mapList {K : List α → List β → σ → Prop} {as : List α}
    (hf : ∀ before bs a t, a ∈ as → K before bs t →
      Ends S I E (fun u b => K (before ++ [a]) (bs ++ [b]) u) t (f a)) (h0 : K [] [] s) :
    Ends S I E (fun t bs => K as bs t) s (Prog.mapList f as) := by
  suffices hgeneral : ∀ rest, (∀ a ∈ rest, a ∈ as) → ∀ before bs s, K before bs s →
      Ends S I E (fun t bs' => K (before ++ rest) (bs ++ bs') t) s (Prog.mapList f rest) from
    hgeneral as (fun _ ha => ha) [] [] s h0
  intro rest
  induction rest with
  | nil =>
    intro _ before bs s h
    refine ends_pure ?_
    rwa [List.append_nil, List.append_nil]
  | cons a rest ih =>
    intro hrest before bs s h
    refine (hf before bs a s (hrest a List.mem_cons_self) h).bind fun t b ht => ?_
    refine (ih (fun a ha => hrest a (List.mem_cons_of_mem _ ha)) _ _ t ht).bind fun u bs' hu => ?_
    refine ends_pure ?_
    rwa [List.append_assoc, List.append_assoc] at hu

theorem ensures_caught {Post : σ → Except String (Except String α) → Prop} :
    Ensures S I Post s p.caught ↔ Ensures S I (fun t r => Post t (.ok r)) s p := by
  induction p generalizing s with
  | done a => rfl
  | fail message => rfl
  | ask q k ih =>
    refine and_congr_right fun _ => forall_congr' fun a => forall_congr' fun u => ?_
    exact imp_congr_right fun _ => ih a

theorem ends_caught_call {S : Service σ fun q => Except String (R q)}
    {P : σ → Except String (R q) → Prop} (hI : I s q)
    (h : ∀ answer u, S s q answer u → P u answer) :
    Ends S I E P s (Prog.call q).caught := by
  refine ⟨hI, fun answer u hserve => ?_⟩
  cases answer with
  | ok reply => exact h (.ok reply) u hserve
  | error message => exact h (.error message) u hserve

theorem Ends.caught {Post : σ → Except String β → Prop}
    {f : Except String α → β} (hp : Ends S I E P s p)
    (hok : ∀ t a, P t a → Post t (.ok (f (.ok a))))
    (herror : ∀ t message, E t → Post t (.ok (f (.error message)))) :
    Ensures S I Post s (p.caught >>= fun x => pure (f x)) := by
  refine ensures_bind.mpr (ensures_caught.mpr (Ensures.mono hp fun t r hr => ?_))
  cases r with
  | ok a => exact hok t a hr
  | error message => exact herror t message hr

/-- **The rule of `finally`.** The last block runs from the end of the first, however that is. -/
theorem ends_tryFinally {last : Prog Q A β} {R : σ → α × β → Prop}
    (hp : Ends S I (fun t => Ends S I E (fun u _ => E u) t last)
      (fun t a => Ends S I E (fun u b => R u (a, b)) t last) s p) :
    Ends S I E R s (p.tryFinally last) := by
  refine ensures_bind.mpr (ensures_caught.mpr (Ensures.mono hp fun t r hr => ?_))
  cases r with
  | ok a => exact Ends.bind hr fun u b hb => hb
  | error message => exact Ends.bind hr fun u b hb => hb

end Rules

/-- A run of a `try` block with a `finally` block is a run of the first and then one of the
last. -/
theorem Runs.tryFinally_inv {p : Prog Q A α} {last : Prog Q A β} {h : List (Exchange A)}
    {r : Except String (α × β)} (hr : Runs (p.tryFinally last) h r) :
    ∃ first rest x y, h = first ++ rest ∧ Runs p first x ∧ Runs last rest y := by
  rcases Runs.bind_inv hr with ⟨first, rest, outcome, rfl, hfirst, hrest⟩ | ⟨_, hthrown, -⟩
  · obtain ⟨x, hx, hp⟩ := Runs.caught_inv hfirst
    rcases Runs.bind_inv hrest with ⟨mid, tail, b, rfl, hmid, htail⟩ | ⟨message, hthrown, -⟩
    · obtain ⟨rfl, -⟩ := Reaches.end_inv htail
      exact ⟨first, mid ++ [], x, .ok b, rfl, hp, by rwa [List.append_nil]⟩
    · exact ⟨first, rest, x, .error message, rfl, hp, hthrown⟩
  · obtain ⟨x, hx, -⟩ := Runs.caught_inv hthrown
    cases hx

end Framework
