import CompareVI.Framework.Run
import Mathlib.Logic.Function.Basic

/-!
# Runs that rewrite one file

Any number of runs share a file. A run reads it whole, makes a new content of its copy, and
writes that, once; between its two steps the other runs may take any of theirs. Nothing keeps
a run from writing what it made of an old copy.

A write is fresh if nothing was written since its copy was read. Where every run adds one to
the size of what it read, the size tells whether all writes are (`size_eq_iff_fresh`): whatever
was lost once stays lost.
-/

namespace Framework

variable {γ : Type}

/-- A file and the runs that rewrite it: the number of writes so far, the copies that were
read and not yet made use of, each with the number of writes before it, and for each write
its run and the copy it was made of. -/
structure SharedFile (γ : Type) where
  content : γ
  writes : ℕ
  copies : ℕ → Option (γ × ℕ)
  written : List (ℕ × γ)

inductive FileStep where
  | read (run : ℕ)
  | write (run : ℕ)
  deriving DecidableEq, Repr

namespace SharedFile

def start (content : γ) : SharedFile γ := ⟨content, 0, fun _ => none, []⟩

/-- One step; a run reads and writes once. `update` is what a run makes of its copy. -/
def step (update : ℕ → γ → γ) (s : SharedFile γ) : FileStep → Option (SharedFile γ)
  | .read run =>
    if (s.copies run).isNone ∧ ∀ w ∈ s.written, w.1 ≠ run then
      some { s with copies := Function.update s.copies run (some (s.content, s.writes)) }
    else none
  | .write run =>
    (s.copies run).map fun copy =>
      { content := update run copy.1
        writes := s.writes + 1
        copies := Function.update s.copies run none
        written := s.written ++ [(run, copy.1)] }

def Fresh (s : SharedFile γ) : FileStep → Prop
  | .read _ => True
  | .write run => ∀ copy, s.copies run = some copy → copy.2 = s.writes

instance decidableFresh (s : SharedFile γ) : ∀ e, Decidable (Fresh s e)
  | .read _ => isTrue trivial
  | .write run => inferInstanceAs (Decidable (∀ copy, s.copies run = some copy → copy.2 = s.writes))

variable {update : ℕ → γ → γ} {s t : SharedFile γ}

variable {e : FileStep}

theorem step_cases (h : step update s e = some t) :
    (∃ run, e = .read run ∧
      t = { s with copies := Function.update s.copies run (some (s.content, s.writes)) }) ∨
    ∃ run copy, e = .write run ∧ s.copies run = some copy ∧
      t = { content := update run copy.1
            writes := s.writes + 1
            copies := Function.update s.copies run none
            written := s.written ++ [(run, copy.1)] } := by
  cases e with
  | read run =>
    rw [step] at h
    split at h
    · exact .inl ⟨run, rfl, (Option.some.inj h).symm⟩
    · cases h
  | write run =>
    rw [step] at h
    obtain ⟨copy, hcopy, hnext⟩ := Option.map_eq_some_iff.mp h
    exact .inr ⟨run, copy, rfl, hcopy, hnext.symm⟩

theorem copies_step (h : step update s e = some t) {run : ℕ} {copy : γ × ℕ}
    (hcopy : t.copies run = some copy) :
    s.copies run = some copy ∨
      copy = (s.content, s.writes) ∧ t.content = s.content ∧ t.writes = s.writes := by
  rcases step_cases h with ⟨other, -, rfl⟩ | ⟨other, copy', -, -, rfl⟩
  · dsimp only at hcopy
    by_cases hrun : run = other
    · rw [hrun, Function.update_self] at hcopy
      exact .inr ⟨(Option.some.inj hcopy).symm, rfl, rfl⟩
    · rw [Function.update_of_ne hrun] at hcopy
      exact .inl hcopy
  · dsimp only at hcopy
    by_cases hrun : run = other
    · rw [hrun, Function.update_self] at hcopy
      cases hcopy
    · rw [Function.update_of_ne hrun] at hcopy
      exact .inl hcopy

theorem writes_le_step (h : step update s e = some t) :
    s.writes ≤ t.writes := by
  rcases step_cases h with ⟨run, -, rfl⟩ | ⟨run, copy, -, -, rfl⟩
  · exact Nat.le_refl _
  · exact Nat.le_succ _

/-- The copies are of earlier contents; those of the last one are the content. -/
structure Copied (s : SharedFile γ) : Prop where
  earlier : ∀ run copy, s.copies run = some copy → copy.2 ≤ s.writes
  last : ∀ run copy, s.copies run = some copy → copy.2 = s.writes → copy.1 = s.content
  count : s.written.length = s.writes

theorem copied_start (content : γ) : Copied (start content) :=
  ⟨fun _ _ h => absurd h.symm (Option.some_ne_none _),
    fun _ _ h => absurd h.symm (Option.some_ne_none _), rfl⟩

theorem Copied.step (hc : Copied s) (h : step update s e = some t) :
    Copied t where
  earlier := by
    intro run copy hcopy
    rcases copies_step h hcopy with hbefore | ⟨rfl, -, hwrites⟩
    · exact Nat.le_trans (hc.earlier run copy hbefore) (writes_le_step h)
    · exact Nat.le_of_eq hwrites.symm
  last := by
    intro run copy hcopy hlast
    rcases copies_step h hcopy with hbefore | ⟨rfl, hcontent, -⟩
    · have hle := hc.earlier run copy hbefore
      rcases step_cases h with ⟨other, -, rfl⟩ | ⟨other, copy', -, -, rfl⟩
      · exact hc.last run copy hbefore hlast
      · -- a copy of before a write is not of the content after it
        dsimp only at hlast
        omega
    · exact hcontent.symm
  count := by
    rcases step_cases h with ⟨run, -, rfl⟩ | ⟨run, copy, -, -, rfl⟩
    · exact hc.count
    · rw [List.length_append, hc.count]
      rfl

/-! ### Sizes -/

section Size

variable {size : γ → ℕ} {first : ℕ}

/-- No content is larger than it should be. -/
structure Bounded (size : γ → ℕ) (first : ℕ) (s : SharedFile γ) : Prop where
  copied : Copied s
  content : size s.content ≤ first + s.writes
  copies : ∀ run copy, s.copies run = some copy → size copy.1 ≤ first + copy.2

variable {e : FileStep} {es : List FileStep} {content : γ}

section

variable (hsize : ∀ run c, size (update run c) = size c + 1)

include hsize

theorem Bounded.step (hb : Bounded size first s) (h : step update s e = some t) :
    Bounded size first t := by
  refine ⟨hb.copied.step h, ?_, ?_⟩
  · rcases step_cases h with ⟨run, -, rfl⟩ | ⟨run, copy, -, hcopy, rfl⟩
    · exact hb.content
    · have hle := hb.copies run copy hcopy
      have hearlier := hb.copied.earlier run copy hcopy
      dsimp only
      rw [hsize]
      omega
  · intro run copy hcopy
    rcases copies_step h hcopy with hbefore | ⟨rfl, -, -⟩
    · exact hb.copies run copy hbefore
    · exact hb.content

theorem full_step_iff (hb : Bounded size first s) (h : step update s e = some t) :
    size t.content = first + t.writes ↔ size s.content = first + s.writes ∧ Fresh s e := by
  rcases step_cases h with ⟨run, rfl, rfl⟩ | ⟨run, copy, rfl, hcopy, rfl⟩
  · exact (and_iff_left trivial).symm
  · have hle := hb.copies run copy hcopy
    have hearlier := hb.copied.earlier run copy hcopy
    dsimp only
    rw [hsize]
    constructor
    · intro hfull
      have hlast : copy.2 = s.writes := by omega
      have hsame := hb.copied.last run copy hcopy hlast
      rw [hsame] at hfull
      refine ⟨by omega, fun copy' hcopy' => ?_⟩
      rwa [← Option.some.inj (hcopy.symm.trans hcopy')]
    · rintro ⟨hfull, hfresh⟩
      rw [hb.copied.last run copy hcopy (hfresh copy hcopy)]
      omega

theorem bounded_of_run (hrun : run (step update) (start content) es = some t) :
    Bounded size (size content) t := by
  refine run_invariant_of_step (fun _ _ _ hb h => hb.step hsize h) ?_ hrun
  exact ⟨copied_start content, Nat.le_refl _, fun _ _ h => absurd h.symm (Option.some_ne_none _)⟩

/-- **Nothing is lost** of the size exactly if every write was fresh. -/
theorem size_eq_iff_fresh (hrun : run (step update) (start content) es = some t) :
    size t.content = size content + t.writes ↔
      Guarded (step update) Fresh (start content) es := by
  have hstart : Bounded size (size content) (start content) :=
    ⟨copied_start content, Nat.le_refl _, fun _ _ h => absurd h.symm (Option.some_ne_none _)⟩
  rw [run_iff_guarded (fun _ _ _ hb h => hb.step hsize h)
    (fun _ _ _ hb h => full_step_iff hsize hb h) hstart hrun]
  exact and_iff_right rfl

end

end Size

end SharedFile

end Framework
