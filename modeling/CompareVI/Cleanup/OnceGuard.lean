import CompareVI.Framework.PsString
import Mathlib.Data.List.Induction

/-!
# The once guard

`Invoke-Once` runs an action unless a marker file for its key is there, and then writes the
marker. The name of the file is the key with every character replaced that a file name may not
have, so several keys may have one marker, and a call with `-WhatIf` writes it although the action
is not run.

`OnceLaw` says what the guard is for: over a list of calls, a call runs its action exactly if the
action of its key was not completed before. `onceLaw_iff` says when that is so, in terms of the
first call that leaves a marker of a name (`completed_iff`).
-/

open Framework

namespace CompareVI.Cleanup

structure OnceEnv where
  /-- The characters besides the ASCII ones that `[a-zA-Z]` matches, case ignored: the culture
  decides. -/
  otherLetter : Char → Bool
  /-- What the file system knows a file by: the name, or the name without its case. -/
  fileId : String → String

/-- A call. Its action throws or completes, if it is run. -/
structure Call where
  Key : String
  whatIf : Bool
  throws : Bool
  /-- `(Get-Date).ToUniversalTime().ToString('o')`. -/
  now : String

structure Marker where
  file : String
  key : String
  atTime : String

/-! ### The call -/

/-- The characters that `[^a-zA-Z0-9\-_]` leaves in place. -/
def isKept (env : OnceEnv) (c : Char) : Bool :=
  c.isAlphanum || c = '-' || c = '_' || env.otherLetter c

/-- One character of a key in a file name. Two code units are two characters to replace. -/
def normalizeChar (env : OnceEnv) (c : Char) : List Char :=
  if isKept env c then [c]
  else if c.toNat < 0x10000 then ['_']
  else ['_', '_']

def normalized (env : OnceEnv) (key : String) : String :=
  String.ofList (key.toList.flatMap (normalizeChar env))

def markerFile (env : OnceEnv) (key : String) : String :=
  env.fileId ("once-" ++ normalized env key ++ ".marker")

inductive Outcome where
  /-- It throws: `Key cannot be empty.` -/
  | refused
  /-- It returns `$false`. -/
  | alreadyRecorded
  /-- It returns `$true`, and the action was not run. -/
  | whatIf
  | failed
  /-- It returns `$true`. -/
  | completed
  deriving DecidableEq

def Outcome.ran (outcome : Outcome) : Bool := outcome = .failed || outcome = .completed

/-- `Test-Path -LiteralPath $markerPath`. -/
def testPath (markers : List Marker) (file : String) : Bool := markers.any (·.file = file)

/-- `Invoke-Once`, with the markers of the scope directory. -/
def invokeOnce (env : OnceEnv) (markers : List Marker) (c : Call) : Outcome × List Marker :=
  if PsString.isNullOrWhiteSpace (some c.Key) then (.refused, markers)
  else
    let file := markerFile env c.Key
    if testPath markers file then (.alreadyRecorded, markers)
    else if !c.whatIf && c.throws then (.failed, markers)
    else (if c.whatIf then .whatIf else .completed, markers ++ [⟨file, c.Key, c.now⟩])

/-! ### A list of calls -/

/-- The markers, and the keys whose actions were completed. -/
structure OnceState where
  markers : List Marker
  completed : List String

def callStep (env : OnceEnv) (s : OnceState) (c : Call) : OnceState where
  markers := (invokeOnce env s.markers c).2
  completed :=
    if (invokeOnce env s.markers c).1 = .completed then s.completed ++ [c.Key] else s.completed

def afterCalls (env : OnceEnv) (calls : List Call) : OnceState :=
  calls.foldl (callStep env) ⟨[], []⟩

/-- What the guard is for. -/
structure OnceLaw (env : OnceEnv) (calls : List Call) : Prop where
  /-- An action is run exactly if the action of its key was not completed before. -/
  runs : ∀ pre c post, calls = pre ++ c :: post → c.whatIf = false →
    ((invokeOnce env (afterCalls env pre).markers c).1.ran = true ↔
      c.Key ∉ (afterCalls env pre).completed)
  /-- The action of a key is completed once, if some call for the key has one that does not
  throw. -/
  completes : ∀ key, (∃ c ∈ calls, c.Key = key ∧ c.whatIf = false ∧ c.throws = false) →
    (afterCalls env calls).completed.count key = 1

def leaves (env : OnceEnv) (file : String) (c : Call) : Bool :=
  !PsString.isNullOrWhiteSpace (some c.Key) && (c.whatIf || !c.throws) &&
    markerFile env c.Key = file

/-- The first call that leaves a marker is, for every call that shares the marker, one of the same
key whose action is run. And no key is blank. -/
def Separate (env : OnceEnv) (calls : List Call) : Prop :=
  ∀ pre c post, calls = pre ++ c :: post → c.whatIf = false →
    PsString.isNullOrWhiteSpace (some c.Key) = false ∧
      ∀ d, pre.find? (leaves env (markerFile env c.Key)) = some d → d.whatIf = false ∧ d.Key = c.Key

variable {env : OnceEnv} {calls pre : List Call} {c d : Call} {s : OnceState} {key file : String}

@[simp] theorem afterCalls_append_singleton :
    afterCalls env (pre ++ [c]) = callStep env (afterCalls env pre) c := List.foldl_concat ..

theorem testPath_callStep :
    testPath (callStep env s c).markers file = (testPath s.markers file || leaves env file c) := by
  simp only [callStep, invokeOnce, leaves]
  cases hblank : PsString.isNullOrWhiteSpace (some c.Key) with
  | true => simp
  | false =>
    cases hpath : testPath s.markers (markerFile env c.Key) with
    | true =>
      by_cases hfile : markerFile env c.Key = file
      · subst hfile
        simp [hpath]
      · simp [hfile]
    | false =>
      cases hthrows : !c.whatIf && c.throws with
      | true =>
        obtain ⟨hwhatIf, hthrows⟩ := Bool.and_eq_true_iff.mp hthrows
        simp_all
      | false =>
        have hleaves : (c.whatIf || !c.throws) = true := by
          cases hwhatIf : c.whatIf <;> simp_all
        simp [testPath, List.any_append, hleaves]

/-- **The markers**: those that some call has left. -/
theorem testPath_afterCalls :
    testPath (afterCalls env calls).markers file = (calls.find? (leaves env file)).isSome := by
  rw [List.isSome_find?]
  induction calls using List.reverseRecOn with
  | nil => rfl
  | append_singleton pre c ih =>
    rw [afterCalls_append_singleton, testPath_callStep, ih, List.any_append, List.any_cons,
      List.any_nil, Bool.or_false]

/-- **How a call ends** in a scope directory that was empty at first. -/
theorem invokeOnce_completed_iff :
    (invokeOnce env s.markers c).1 = .completed ↔
      c.whatIf = false ∧ leaves env (markerFile env c.Key) c = true ∧
        testPath s.markers (markerFile env c.Key) = false := by
  simp only [invokeOnce, leaves]
  cases PsString.isNullOrWhiteSpace (some c.Key) <;>
    cases testPath s.markers (markerFile env c.Key) <;> cases c.whatIf <;> cases c.throws <;> simp

theorem invokeOnce_ran_iff (hreal : c.whatIf = false) :
    (invokeOnce env s.markers c).1.ran = true ↔
      PsString.isNullOrWhiteSpace (some c.Key) = false ∧
        testPath s.markers (markerFile env c.Key) = false := by
  simp only [invokeOnce, hreal]
  cases PsString.isNullOrWhiteSpace (some c.Key) <;>
    cases testPath s.markers (markerFile env c.Key) <;> cases c.throws <;> simp [Outcome.ran]

/-- **The completed keys.** The action of a key was completed exactly if the first call that left
the marker of the key was one of the key itself, and no `-WhatIf` call. -/
theorem mem_completed_iff :
    key ∈ (afterCalls env calls).completed ↔
      ∃ d, calls.find? (leaves env (markerFile env key)) = some d ∧ d.whatIf = false ∧
        d.Key = key := by
  induction calls using List.reverseRecOn with
  | nil => simp [afterCalls]
  | append_singleton pre c ih =>
    have hcompleted := @invokeOnce_completed_iff env c (afterCalls env pre)
    rw [testPath_afterCalls, Option.isSome_eq_false_iff, Option.isNone_iff_eq_none] at hcompleted
    rw [afterCalls_append_singleton, callStep, List.find?_append]
    cases hfirst : pre.find? (leaves env (markerFile env key)) with
    | some d =>
      -- a marker that is there stays the one of the first call
      have hkept : (invokeOnce env (afterCalls env pre).markers c).1 = .completed →
          c.Key ≠ key := by
        rintro hdone rfl
        rw [(hcompleted.mp hdone).2.2] at hfirst
        cases hfirst
      rw [hfirst] at ih
      rw [Option.some_or, ← ih]
      split
      · next hdone =>
        rw [List.mem_append, List.mem_singleton]
        exact or_iff_left (Ne.symm (hkept hdone))
      · exact Iff.rfl
    | none =>
      rw [hfirst] at ih
      have hnew : key ∉ (afterCalls env pre).completed := fun hmem => by
        obtain ⟨d, hd, -⟩ := ih.mp hmem
        cases hd
      rw [Option.none_or, List.find?_singleton]
      constructor
      · intro hmem
        split at hmem
        · next hdone =>
          rcases List.mem_append.mp hmem with hold | hlast
          · exact absurd hold hnew
          · obtain rfl := List.mem_singleton.mp hlast
            obtain ⟨hreal, hleaves, -⟩ := hcompleted.mp hdone
            exact ⟨c, if_pos hleaves, hreal, rfl⟩
        · exact absurd hmem hnew
      · rintro ⟨d, hd, hreal, rfl⟩
        split at hd
        · next hleaves =>
          obtain rfl := Option.some.inj hd
          rw [if_pos (hcompleted.mpr ⟨hreal, hleaves, hfirst⟩)]
          exact List.mem_append_right _ (List.mem_singleton_self _)
        · cases hd

theorem ran_iff_notMem_iff (hreal : c.whatIf = false) :
    ((invokeOnce env (afterCalls env pre).markers c).1.ran = true ↔
        c.Key ∉ (afterCalls env pre).completed) ↔
      PsString.isNullOrWhiteSpace (some c.Key) = false ∧
        ∀ d, pre.find? (leaves env (markerFile env c.Key)) = some d →
          d.whatIf = false ∧ d.Key = c.Key := by
  rw [invokeOnce_ran_iff hreal, mem_completed_iff, testPath_afterCalls]
  cases hfirst : pre.find? (leaves env (markerFile env c.Key)) with
  | none => simp
  | some d =>
    have hblank : PsString.isNullOrWhiteSpace (some d.Key) = false := by
      have hleaves := List.find?_some hfirst
      rw [leaves, Bool.and_eq_true_iff, Bool.and_eq_true_iff, Bool.not_eq_true'] at hleaves
      exact hleaves.1.1
    simp only [Option.isSome_some, Bool.true_eq_false, and_false, Option.some.injEq,
      exists_eq_left', forall_eq', false_iff, not_not]
    refine ⟨fun h => ⟨?_, h⟩, And.right⟩
    rw [← h.2]
    exact hblank

theorem count_completed_le {calls : List Call}
    (hruns : ∀ pre c post, calls = pre ++ c :: post → c.whatIf = false →
      ((invokeOnce env (afterCalls env pre).markers c).1.ran = true ↔
        c.Key ∉ (afterCalls env pre).completed)) (key : String) :
    (afterCalls env calls).completed.count key ≤ 1 := by
  induction calls using List.reverseRecOn with
  | nil => simp [afterCalls]
  | append_singleton pre c ih =>
    have hpre := ih fun before d after hsplit => hruns before d (after ++ [c]) (by
      rw [hsplit, List.append_assoc, List.cons_append])
    rw [afterCalls_append_singleton, callStep]
    split
    · next hdone =>
      have hreal := (invokeOnce_completed_iff.mp hdone).1
      have hnew := (hruns pre c [] rfl hreal).mp (by rw [hdone]; rfl)
      rw [List.count_append]
      by_cases hkey : c.Key = key
      · subst hkey
        have hbefore := List.count_eq_zero.mpr hnew
        have hlast : [c.Key].count c.Key = 1 := List.count_singleton_self
        omega
      · have hother : [c.Key].count key = 0 := by
          rw [List.count_eq_zero, List.mem_singleton]
          exact Ne.symm hkey
        rw [hother]
        exact hpre
    · exact hpre

theorem completed_subset (pre post : List Call) :
    (afterCalls env pre).completed ⊆ (afterCalls env (pre ++ post)).completed := by
  induction post using List.reverseRecOn with
  | nil => rw [List.append_nil]; exact List.Subset.refl _
  | append_singleton post c ih =>
    rw [← List.append_assoc, afterCalls_append_singleton, callStep]
    split
    · exact fun key hkey => List.mem_append_left _ (ih hkey)
    · exact ih

/-- **The once guard.** It keeps its law exactly if no key is blank and the first call that leaves
a marker is, for every call that shares the marker, one of the same key whose action was run. -/
theorem onceLaw_iff (env : OnceEnv) (calls : List Call) :
    OnceLaw env calls ↔ Separate env calls := by
  constructor
  · intro law pre c post hsplit hreal
    exact (ran_iff_notMem_iff hreal).mp (law.runs pre c post hsplit hreal)
  · intro hseparate
    have hruns : ∀ pre c post, calls = pre ++ c :: post → c.whatIf = false →
        ((invokeOnce env (afterCalls env pre).markers c).1.ran = true ↔
          c.Key ∉ (afterCalls env pre).completed) := fun pre c post hsplit hreal =>
      (ran_iff_notMem_iff hreal).mpr (hseparate pre c post hsplit hreal)
    refine ⟨hruns, ?_⟩
    rintro key ⟨c, hmem, rfl, hreal, hcompletes⟩
    obtain ⟨pre, post, rfl⟩ := List.append_of_mem hmem
    have hdone : c.Key ∈ (afterCalls env (pre ++ [c])).completed := by
      by_cases hbefore : c.Key ∈ (afterCalls env pre).completed
      · exact completed_subset pre [c] hbefore
      · have hran := (hruns pre c post rfl hreal).mpr hbefore
        obtain ⟨hblank, hpath⟩ := (invokeOnce_ran_iff hreal).mp hran
        have hleaves : leaves env (markerFile env c.Key) c = true := by
          simp [leaves, hblank, hcompletes]
        rw [afterCalls_append_singleton, callStep,
          if_pos (invokeOnce_completed_iff.mpr ⟨hreal, hleaves, hpath⟩)]
        exact List.mem_append_right _ (List.mem_singleton_self _)
    have hfinal : c.Key ∈ (afterCalls env (pre ++ [c] ++ post)).completed :=
      completed_subset (pre ++ [c]) post hdone
    rw [List.append_assoc, List.singleton_append] at hfinal
    exact Nat.le_antisymm (count_completed_le hruns _) (List.count_pos_iff.mpr hfinal)

/-- Two keys with one marker: the action of the second one is never run. -/
theorem not_onceLaw_sharedMarker :
    ¬ OnceLaw ⟨fun _ => false, id⟩
      [⟨"close a", false, false, ""⟩, ⟨"close_a", false, false, ""⟩] := by
  intro law
  have honce := law.completes "close_a"
    ⟨⟨"close_a", false, false, ""⟩, List.mem_cons_of_mem _ List.mem_cons_self, rfl, rfl, rfl⟩
  have hnever : (afterCalls ⟨fun _ => false, id⟩
      [⟨"close a", false, false, ""⟩, ⟨"close_a", false, false, ""⟩]).completed.count "close_a" =
        0 := by
    decide +kernel
  rw [hnever] at honce
  cases honce

end CompareVI.Cleanup
