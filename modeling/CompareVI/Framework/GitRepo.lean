import Mathlib.Data.Set.Basic
import Mathlib.Logic.Function.Basic
import Mathlib.Logic.Relation
import Mathlib.Tactic.Common

/-!
# Commits and branches

Commits form a graph, and each of them makes a change, except a merge (`CommitGraph`). A rebase
makes new commits that make the changes of old ones again, so what is kept up to rebasing is
the changes: `G.Contains c d` says that the change of `d` is among those made up to `c`.

`LocalRepo` is what a working repository knows: its branches, the remote-tracking branches, where
`HEAD` is and what was fetched last. The operations are those of the git commands, on the
refs alone.
-/

namespace Framework

variable {C Δ : Type}

/-- Commits with their parents, and the change that each of them makes. -/
structure CommitGraph (C Δ : Type) where
  parents : C → List C
  change : C → Option Δ

namespace CommitGraph

variable (G : CommitGraph C Δ)

/-- The second commit is the first one, or one of its ancestors. -/
def Reaches (c d : C) : Prop := Relation.ReflTransGen (fun c d => d ∈ G.parents c) c d

def changes (c : C) : Set Δ := {δ | ∃ d, G.Reaches c d ∧ G.change d = some δ}

/-- Up to rebasing, the second commit is contained in the first one. -/
def Contains (c d : C) : Prop := ∀ δ, G.change d = some δ → δ ∈ G.changes c

variable {G}

theorem contains_iff_changes_subset {c c' : C} :
    (∀ d, G.Reaches c d → G.Contains c' d) ↔ G.changes c ⊆ G.changes c' := by
  constructor
  · rintro h δ ⟨d, hreach, hchange⟩
    exact h d hreach δ hchange
  · intro h d hreach δ hchange
    exact h ⟨d, hreach, hchange⟩

/-- What a rebase of a head onto an upstream results in: a commit on top of the upstream, with
the changes of both. -/
structure Rebased (G : CommitGraph C Δ) (upstream head result : C) : Prop where
  onto : G.Reaches result upstream
  changes_eq : G.changes result = G.changes upstream ∪ G.changes head

end CommitGraph

/-- Where `HEAD` is. -/
inductive Head (C : Type) where
  | branch (name : String)
  | detached (commit : C)

structure LocalRepo (C : Type) where
  heads : String → Option C
  /-- The remote-tracking branches, by remote and name. -/
  tracking : String → String → Option C
  head : Head C
  /-- `FETCH_HEAD`. -/
  fetchHead : Option C

namespace LocalRepo

variable (repo : LocalRepo C)

def current : Option C :=
  match repo.head with
  | .branch name => repo.heads name
  | .detached commit => some commit

/-- The name of the branch that is checked out, as `rev-parse --abbrev-ref HEAD` prints it. -/
def headName : String :=
  match repo.head with
  | .branch name => name
  | .detached _ => "HEAD"

/-- The local commit that a name stands for: the one checked out under it, or the branch. -/
def own (name : String) : Option C :=
  if repo.headName = name then repo.current else repo.heads name

def fetch (remote ref : String) (commit : C) : LocalRepo C :=
  { repo with
    tracking := Function.update repo.tracking remote
      (Function.update (repo.tracking remote) ref (some commit))
    fetchHead := some commit }

def switch (name : String) : LocalRepo C := { repo with head := .branch name }

def create (name : String) (commit : C) : LocalRepo C :=
  { repo with heads := Function.update repo.heads name (some commit), head := .branch name }

def move (commit : C) : LocalRepo C :=
  match repo.head with
  | .branch name => { repo with heads := Function.update repo.heads name (some commit) }
  | .detached _ => { repo with head := .detached commit }

def track (remote name : String) (commit : C) : LocalRepo C :=
  { repo with
    tracking := Function.update repo.tracking remote
      (Function.update (repo.tracking remote) name (some commit)) }

variable {repo}

@[simp] theorem fetch_tracking (remote ref : String) (commit : C) :
    (repo.fetch remote ref commit).tracking remote ref = some commit := by
  unfold fetch
  dsimp only
  rw [Function.update_self, Function.update_self]

@[simp] theorem create_current (name : String) (commit : C) :
    (repo.create name commit).current = some commit := by
  exact Function.update_self ..

@[simp] theorem move_current (commit : C) : (repo.move commit).current = some commit := by
  unfold move current
  cases repo.head with
  | branch name => exact Function.update_self ..
  | detached old => rfl

@[simp] theorem move_fetchHead (commit : C) : (repo.move commit).fetchHead = repo.fetchHead := by
  unfold move
  cases repo.head <;> rfl

@[simp] theorem move_tracking (commit : C) : (repo.move commit).tracking = repo.tracking := by
  unfold move
  cases repo.head <;> rfl

theorem own_congr {other : LocalRepo C} (hheads : other.heads = repo.heads)
    (hhead : other.head = repo.head) (name : String) : other.own name = repo.own name := by
  unfold own headName current
  rw [hheads, hhead]

end LocalRepo

end Framework
