import Mathlib.Data.List.Basic
import Mathlib.Tactic.Common

/-!
# Computations with fuel

A recursion that the source does not bound is a function of a fuel that returns nothing where the
fuel runs out. It terminates when it settles: from some fuel on it returns, and always the same.
`Settles` is closed under the ways such computations are put together, so a recursion settles
where each of its calls does with one unit less (`Settles.succ`).
-/

namespace Framework

namespace Fuel

variable {α β σ : Type*}

/-- From the fuel `n` on the computation returns one result. -/
def Settles (f : ℕ → Option α) (n : ℕ) : Prop := ∃ a, ∀ m, n ≤ m → f m = some a

theorem Settles.const (a : α) (n : ℕ) : Settles (fun _ => some a) n := ⟨a, fun _ _ => rfl⟩

variable {n : ℕ} {f : ℕ → Option α}

theorem Settles.mono {n' : ℕ} (h : Settles f n) (hle : n ≤ n') :
    Settles f n' := by
  obtain ⟨a, ha⟩ := h
  exact ⟨a, fun m hm => ha m (Nat.le_trans hle hm)⟩

theorem Settles.bind {g : ℕ → α → Option β} (hf : Settles f n)
    (hg : ∀ a, f n = some a → Settles (fun m => g m a) n) :
    Settles (fun m => (f m).bind (g m)) n := by
  obtain ⟨a, ha⟩ := hf
  obtain ⟨b, hb⟩ := hg a (ha n (Nat.le_refl n))
  refine ⟨b, fun m hm => ?_⟩
  change (f m).bind (g m) = some b
  rw [ha m hm, Option.bind_some]
  exact hb m hm

theorem Settles.map (g : α → β) (hf : Settles f n) :
    Settles (fun m => (f m).map g) n := by
  obtain ⟨a, ha⟩ := hf
  refine ⟨g a, fun m hm => ?_⟩
  change (f m).map g = some (g a)
  rw [ha m hm, Option.map_some]

theorem Settles.foldlM {body : ℕ → σ → α → Option σ} {xs : List α}
    (h : ∀ x ∈ xs, ∀ s, Settles (fun m => body m s x) n) (s : σ) :
    Settles (fun m => xs.foldlM (body m) s) n := by
  induction xs generalizing s with
  | nil => exact Settles.const s n
  | cons x xs ih =>
    refine Settles.bind (h x List.mem_cons_self s) fun t _ => ?_
    exact ih (fun y hy => h y (List.mem_cons_of_mem x hy)) t

theorem Settles.succ (h : Settles (fun m => f (m + 1)) n) :
    Settles f (n + 1) := by
  obtain ⟨a, ha⟩ := h
  refine ⟨a, fun m hm => ?_⟩
  obtain ⟨k, rfl⟩ : ∃ k, m = k + 1 := ⟨m - 1, by omega⟩
  exact ha k (Nat.le_of_succ_le_succ hm)

end Fuel

end Framework
