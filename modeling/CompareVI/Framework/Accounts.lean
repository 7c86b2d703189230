import CompareVI.Framework.Tally
import Mathlib.Algebra.BigOperators.Pi

/-!
# Accounts that add up

A program keeps a state with accounts in it and posts one entry after the other; a post may throw.
What a part of the run has added is a relation between the state before it and the state after it,
`R s w t`, that holds of nothing added and of one part after another.

`foldlM_adds` is the rule for such a loop: it throws exactly if some entry is refused, and else it
has added the sum of what its entries add. `total_put_post` says that a post to one account of a
map adds to the total over all accounts.
-/

namespace Framework

/-! ### Totals -/

section Total

variable {κ β M : Type*} [DecidableEq κ] [AddCommMonoid M]

def total (amount : β → M) (accounts : List (κ × β)) : M :=
  (accounts.map fun account => amount account.2).sum

variable {accounts : List (κ × β)} {amount : β → M}

/-- **Posting to one account** adds to the total, for an account that is there and for a new one
that starts from nothing. -/
theorem total_put_post {s v : β} {w : M} {k : κ} (hstart : amount s = 0)
    (hpost : amount v = amount (valueOf s accounts k) + w) :
    total amount (put k v accounts) = total amount accounts + w := by
  induction accounts with
  | nil =>
    have hw : amount v = w := by rw [hpost, valueOf, entryOf?, Option.getD_none, hstart, zero_add]
    calc amount v + 0 = w := by rw [hw, add_zero]
      _ = 0 + w := (zero_add w).symm
  | cons account accounts ih =>
    obtain ⟨l, u⟩ := account
    by_cases hkey : l = k
    · have hvalue : amount v = amount u + w := by
        rw [hpost, valueOf, entryOf?, if_pos hkey, Option.getD_some]
      rw [put, if_pos hkey, total, total, List.map_cons, List.map_cons, List.sum_cons,
        List.sum_cons, hvalue]
      exact add_right_comm (amount u) w _
    · have hrest : amount v = amount (valueOf s accounts k) + w := by
        rw [hpost, valueOf, entryOf?, if_neg hkey, ← valueOf]
      rw [put, if_neg hkey, total, total, List.map_cons, List.map_cons, List.sum_cons,
        List.sum_cons, ← total, ← total, ih hrest]
      exact (add_assoc (amount u) _ w).symm

omit [DecidableEq κ] in
theorem total_perm {accounts' : List (κ × β)} (h : accounts.Perm accounts') :
    total amount accounts = total amount accounts' :=
  (h.map _).sum_eq

end Total

/-! ### Loops -/

/-- A relation that holds of nothing added, and of one part after another. -/
structure Additive {σ M : Type*} [AddMonoid M] (R : σ → M → σ → Prop) : Prop where
  zero : ∀ s, R s 0 s
  add : ∀ {s t u : σ} {v w : M}, R s v t → R t w u → R s (v + w) u

/-- **The rule of a loop that adds up.** While an invariant holds, an entry is posted exactly if it
is allowed. -/
theorem foldlM_adds {σ α ε M : Type} [AddMonoid M] {R : σ → M → σ → Prop} {I : σ → Prop}
    {f : σ → α → Except ε σ} {P : α → Prop} {w : α → M} (hR : Additive R)
    (hok : ∀ s x, I s → P x → ∃ t, f s x = .ok t)
    (hstep : ∀ s x t, I s → f s x = .ok t → P x ∧ I t ∧ R s (w x) t) {s : σ} (hs : I s)
    (xs : List α) :
    ((∃ t, xs.foldlM f s = .ok t) ↔ ∀ x ∈ xs, P x) ∧
      ∀ t, xs.foldlM f s = .ok t → I t ∧ R s (xs.map w).sum t := by
  induction xs generalizing s with
  | nil =>
    refine ⟨iff_of_true ⟨s, rfl⟩ fun x hx => absurd hx List.not_mem_nil, fun t ht => ?_⟩
    obtain rfl : s = t := Except.ok.inj ht
    exact ⟨hs, hR.zero s⟩
  | cons x xs ih =>
    rw [List.foldlM_cons]
    cases hx : f s x with
    | error e =>
      refine ⟨iff_of_false (fun ⟨t, ht⟩ => nomatch ht) fun hall => ?_, fun t ht => nomatch ht⟩
      obtain ⟨t, ht⟩ := hok s x hs (hall x List.mem_cons_self)
      rw [hx] at ht
      cases ht
    | ok u =>
      obtain ⟨hP, hu, hadds⟩ := hstep s x u hs hx
      obtain ⟨hiff, hrest⟩ := ih hu
      refine ⟨hiff.trans ?_, fun t ht => ?_⟩
      · rw [List.forall_mem_cons, and_iff_right hP]
      · obtain ⟨ht, htail⟩ := hrest t ht
        rw [List.map_cons, List.sum_cons]
        exact ⟨ht, hR.add hadds htail⟩

end Framework
