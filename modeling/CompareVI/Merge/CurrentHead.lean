import CompareVI.Framework.Run
import CompareVI.Merge.Safety

/-!
# The head that is merged

`runMergeSync` has the review of the head that it read evaluated, and merges some time
later. Meanwhile the head may be moved by a push. The system of this file interleaves
the exchanges of one run with pushes: a reading of the pull request sees the head of
that moment, and a merge command that is not deferred with `--auto` merges the head of
its moment, if it takes effect.

The head is not part of the command. So what is merged was cleared exactly when, at
each command that merges, the head is still the one that the run read
(`mergedOnlyCleared_iff_headAsRead`).
-/

open Framework

namespace CompareVI.Merge

/-- A run of `runMergeSync` and the pull request it is about. -/
structure World where
  prog : MergeProg MergeSummary
  history : History
  head : String
  /-- The heads that direct and admin merge commands have merged. -/
  merged : List String

inductive WorldEvent where
  | push (sha : String)
  /-- The run gets an answer; `effect` is whether a merge command takes effect now. -/
  | reply (answer : (q : MergeQuery) → MergeAnswer q) (effect : Bool)

def readsHead (head : String) : (q : MergeQuery) → MergeAnswer q → Bool
  | .readPrInfo, .ok prInfo => prInfo.headRefOid = some head
  | _, _ => true

def mergesNow : MergeQuery → Bool
  | .merge args => "--auto" ∉ flags args
  | _ => false

namespace World

def initial (setup : Except String MergeSetup) (o : MergeOptions) (head : String) : World :=
  ⟨runMergeSync setup o, [], head, []⟩

def step (w : World) : WorldEvent → Option World
  | .push sha => some { w with head := sha }
  | .reply answer effect =>
    match w.prog with
    | .ask q k =>
      if readsHead w.head q (answer q) then
        some {
          prog := k (answer q)
          history := w.history ++ [⟨q, answer q⟩]
          head := w.head
          merged := if mergesNow q && effect then w.merged ++ [w.head] else w.merged }
      else none
    | .done _ | .fail _ => none

/-- Every head that was merged is one for which the review was evaluated as cleared. -/
def MergedOnlyCleared (w : World) : Prop :=
  ∀ sha ∈ w.merged, ∃ prInfo, prInfo.headRefOid = some sha ∧ Cleared prInfo w.history

/-- The run read the pull request with this head. -/
def Read (w : World) (sha : String) : Prop :=
  ∃ prInfo, Answered w.history .readPrInfo (.ok prInfo) ∧ prInfo.headRefOid = some sha

def HeadAsRead (w : World) : WorldEvent → Prop
  | .push _ => True
  | .reply _ effect => ∀ q k, w.prog = .ask q k → mergesNow q → effect → w.Read w.head

/-- What every step keeps: the run is where its history says, and it merges only after
a clearance. -/
structure Inv (setup : Except String MergeSetup) (o : MergeOptions) (w : World) : Prop where
  reaches : Reaches (runMergeSync setup o) w.history w.prog
  cleared : w.merged ≠ [] → ∃ prInfo, Cleared prInfo w.history

section Invariant

variable {setup : Except String MergeSetup} {o : MergeOptions} {w w' : World}

theorem inv_initial (head : String) : Inv setup o (initial setup o head) :=
  ⟨.refl, fun hne => absurd rfl hne⟩

variable {q : MergeQuery} {e : WorldEvent}

theorem Inv.cleared_of_mergesNow (hw : Inv setup o w) {k : MergeAnswer q → MergeProg MergeSummary}
    (hprog : w.prog = .ask q k) (hq : mergesNow q) : ∃ prInfo, Cleared prInfo w.history := by
  have hsafe := (safe_runMergeSync setup o).reaches hw.reaches
  rw [List.nil_append, hprog] at hsafe
  cases q with
  | merge args => exact hsafe.1.cleared
  | _ => nomatch hq

theorem inv_step (hw : Inv setup o w) (hstep : step w e = some w') :
    Inv setup o w' := by
  cases e with
  | push sha =>
    obtain rfl := Option.some.inj hstep
    exact ⟨hw.reaches, hw.cleared⟩
  | reply answer effect =>
    rw [step] at hstep
    split at hstep
    · next q k hprog =>
      split at hstep
      · obtain rfl := Option.some.inj hstep
        refine ⟨.step (hprog ▸ hw.reaches) (answer q), fun hne => ?_⟩
        -- either the step merges, or something was merged before
        have hbefore : ∃ prInfo, Cleared prInfo w.history := by
          by_cases hmerges : (mergesNow q && effect) = true
          · exact hw.cleared_of_mergesNow hprog (Bool.and_eq_true _ _ ▸ hmerges).1
          · rw [if_neg hmerges] at hne
            exact hw.cleared hne
        obtain ⟨prInfo, hclear⟩ := hbefore
        exact ⟨prInfo, hclear.append _⟩
      · cases hstep
    all_goals cases hstep

theorem inv_run (head : String) (es : List WorldEvent)
    (hrun : run step (initial setup o head) es = some w) : Inv setup o w :=
  run_invariant_of_step (fun _ _ _ h hstep => inv_step h hstep) (inv_initial head) hrun

theorem Inv.mergedOnlyCleared_iff (hw : Inv setup o w) :
    MergedOnlyCleared w ↔ ∀ sha ∈ w.merged, w.Read sha := by
  refine ⟨fun h sha hsha => ?_, fun h sha hsha => ?_⟩
  · obtain ⟨prInfo, hhead, hclear⟩ := h sha hsha
    exact ⟨prInfo, hclear.1, hhead⟩
  · obtain ⟨prInfo, hread, hhead⟩ := h sha hsha
    obtain ⟨prInfo', hclear⟩ := hw.cleared (List.ne_nil_of_mem hsha)
    have hfirst := (answered_readPrInfo_iff hw.reaches).mp hread
    have hfirst' := (answered_readPrInfo_iff hw.reaches).mp hclear.1
    cases Option.some.inj (hfirst.symm.trans hfirst')
    exact ⟨prInfo, hhead, hclear⟩

theorem Inv.read_iff (hw : Inv setup o w) {sha : String} :
    w.Read sha ↔ ∃ prInfo : PrInfo,
      w.history.head? = some ⟨.readPrInfo, .ok prInfo⟩ ∧ prInfo.headRefOid = some sha :=
  exists_congr fun _ => and_congr_left fun _ => answered_readPrInfo_iff hw.reaches

theorem Inv.read_append (hw : Inv setup o w) (hw' : Inv setup o w') {new : History}
    (hnew : w'.history = w.history ++ new) (hclear : ∃ prInfo, Cleared prInfo w.history)
    (sha : String) : w'.Read sha ↔ w.Read sha := by
  obtain ⟨prInfo, hread, -⟩ := hclear
  have hfirst := (answered_readPrInfo_iff hw.reaches).mp hread
  have hsame : w'.history.head? = w.history.head? := by
    rw [hnew, List.head?_append, hfirst]
    rfl
  rw [hw.read_iff, hw'.read_iff, hsame]

theorem headAsRead_of_ask {k : MergeAnswer q → MergeProg MergeSummary} (e : WorldEvent)
    (hprog : w.prog = .ask q k) (hq : mergesNow q = false) : HeadAsRead w e := by
  cases e with
  | push sha => trivial
  | reply answer effect =>
    intro q' k' hprog' hq' _
    cases hprog.symm.trans hprog'
    exact absurd (hq.symm.trans hq') Bool.false_ne_true

/-- **One step.** What was merged stays what was read exactly when the step meets the
condition. -/
theorem read_step (hw : Inv setup o w) (hstep : step w e = some w') :
    (∀ sha ∈ w'.merged, w'.Read sha) ↔ (∀ sha ∈ w.merged, w.Read sha) ∧ HeadAsRead w e := by
  have hw' : Inv setup o w' := inv_step hw hstep
  cases e with
  | push sha =>
    obtain rfl := Option.some.inj hstep
    exact (and_iff_left trivial).symm
  | reply answer effect =>
    rw [step] at hstep
    split at hstep
    · next q k hprog =>
      split at hstep
      · obtain rfl := Option.some.inj hstep
        have hsame := hw.read_append hw' rfl
        by_cases hmerges : (mergesNow q && effect) = true
        · -- the command merges the head of this moment
          obtain ⟨hq, heffect⟩ := (Bool.and_eq_true _ _).mp hmerges
          have hclear := hw.cleared_of_mergesNow hprog hq
          have hcond : HeadAsRead w (.reply answer effect) ↔ w.Read w.head := by
            exact ⟨fun h => h q k hprog hq heffect, fun h _ _ _ _ _ => h⟩
          rw [hcond]
          simp only [if_pos hmerges, List.forall_mem_append, List.forall_mem_singleton]
          exact and_congr (forall₂_congr fun sha _ => hsame hclear sha) (hsame hclear w.head)
        · have hcond : HeadAsRead w (.reply answer effect) := by
            intro q' k' hprog' hq' heffect
            cases hprog.symm.trans hprog'
            exact absurd ((Bool.and_eq_true _ _).mpr ⟨hq', heffect⟩) hmerges
          simp only [if_neg hmerges, and_iff_left hcond]
          refine forall₂_congr fun sha hsha => hsame ?_ sha
          exact hw.cleared (List.ne_nil_of_mem hsha)
      · cases hstep
    all_goals cases hstep

end Invariant

/-- **Check then act.** In every interleaving of a run with pushes, direct and admin merge
commands merge only heads that were cleared exactly when each of them finds the head that
the run read. -/
theorem mergedOnlyCleared_iff_headAsRead (setup : Except String MergeSetup) (o : MergeOptions)
    (head : String) (es : List WorldEvent) (w : World)
    (hrun : run step (initial setup o head) es = some w) :
    MergedOnlyCleared w ↔ Guarded step HeadAsRead (initial setup o head) es := by
  have hw : Inv setup o w := inv_run head es hrun
  have hread : (∀ sha ∈ w.merged, w.Read sha) ↔
      (∀ sha ∈ (initial setup o head).merged, (initial setup o head).Read sha) ∧
        Guarded step HeadAsRead (initial setup o head) es :=
    run_iff_guarded (P := fun w => ∀ sha ∈ w.merged, w.Read sha)
      (fun _ _ _ h hstep => inv_step h hstep) (fun _ _ _ h hstep => read_step h hstep)
      (inv_initial head) hrun
  rw [hw.mergedOnlyCleared_iff, hread, and_iff_right]
  exact fun sha hsha => absurd hsha List.not_mem_nil

/-! ### A push between the clearance and the merge -/

/-- The next exchange with GitHub, for an open pull request with the head `abc`. -/
def plainReply : WorldEvent := .reply (fun q => (plainOutside "OPEN" false q).1) true

/-- Read, clear, read the promotion state, merge, with these events before the merge. -/
def mergeAfter (es : List WorldEvent) : List WorldEvent :=
  [plainReply, plainReply, plainReply] ++ es ++ [plainReply]

/-- A push after the clearance: the run merges a head that it never saw. -/
theorem not_mergedOnlyCleared_push :
    ∃ w, run step (initial (.ok plainSetup) plainOptions "abc") (mergeAfter [.push "def"]) =
        some w ∧ ¬ MergedOnlyCleared w := by
  refine ⟨_, rfl, fun hcleared => ?_⟩
  have hw : Inv (.ok plainSetup) plainOptions _ := inv_run "abc" (mergeAfter [.push "def"]) rfl
  obtain ⟨prInfo, hfirst, hhead⟩ :=
    hw.read_iff.mp (hw.mergedOnlyCleared_iff.mp hcleared "def" (List.mem_singleton_self _))
  cases Option.some.inj hfirst
  exact absurd hhead (by decide)

/-- Without a push the head that is merged is the one that was cleared. -/
theorem mergedOnlyCleared_noPush :
    ∃ w, run step (initial (.ok plainSetup) plainOptions "abc") (mergeAfter []) = some w ∧
      w.merged = ["abc"] ∧ MergedOnlyCleared w := by
  refine ⟨_, rfl, rfl, (mergedOnlyCleared_iff_headAsRead (.ok plainSetup) plainOptions "abc"
    (mergeAfter []) _ rfl).mpr ?_⟩
  -- the first three exchanges merge nothing; the last one finds the head `abc`
  refine ⟨headAsRead_of_ask _ rfl rfl, fun w₁ h₁ => ?_⟩
  obtain rfl := Option.some.inj h₁
  refine ⟨headAsRead_of_ask _ rfl rfl, fun w₂ h₂ => ?_⟩
  obtain rfl := Option.some.inj h₂
  refine ⟨headAsRead_of_ask _ rfl rfl, fun w₃ h₃ => ?_⟩
  obtain rfl := Option.some.inj h₃
  exact ⟨fun _ _ _ _ _ => ⟨plainPullRequest "OPEN", List.mem_cons_self, rfl⟩, fun _ _ => trivial⟩

end World

end CompareVI.Merge
