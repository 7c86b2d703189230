import CompareVI.SafeGit.Program
import Mathlib.Data.List.Dedup

/-!
# What a run of a git command may do

A run removes locks and kills processes on the way to its command, and the outside may answer
as it likes: locks come and go, processes do not die, removals fail. `SafeGitLaw` says what
holds of the history of a run all the same, at every moment of it, and `safeGitLaw` proves it.

What is known at a moment is read off the history: the processes as they were listed last
(`Listed`) and the attempt that is under way, from its reading of the clock (`InAttempt`). Each
part of the program adds exchanges and returns (`Adds`), so that the parts are proved one by
one: the look for locks and operations, the repair, the command.
-/

open Framework

namespace CompareVI.SafeGit

/-! ### The law -/

abbrev History : Type := List (Exchange GitAnswer)

/-- The processes that were listed last. -/
def Listed (h : History) (pids : List ℕ) : Prop :=
  ∃ before after, h = before ++ ⟨.listGitProcesses, pids⟩ :: after ∧
    ∀ e ∈ after, e.query ≠ .listGitProcesses

/-- The attempt under way read the clock and went on. -/
def InAttempt (h : History) (nowMs : ℤ) (current : History) : Prop :=
  ∃ before, h = before ++ ⟨.now, nowMs⟩ :: current ∧ ∀ e ∈ current, e.query ≠ .now

/-- The lock is stale by its age in the attempt under way. -/
def StaleLock (i : SafeGitInput) (h : History) (path : String) : Prop :=
  ∃ nowMs current mtimeMs, InAttempt h nowMs current ∧ ⟨.stat path, mtimeMs⟩ ∈ current ∧
    i.staleAgeMs ≤ (Lock.mk path (Option.getD mtimeMs (nowMs : ℚ))).ageMs nowMs

/-- The attempt under way detected its locks and removed each of them, and no operation is in
progress that blocks the command. -/
structure Cleared (i : SafeGitInput) (current : History) : Prop where
  locks : ∃ candidates, ⟨.lockCandidates, candidates⟩ ∈ current
  removed : ∀ candidates, ⟨.lockCandidates, candidates⟩ ∈ current →
    ∀ path ∈ candidates, ⟨.remove path, .ok ()⟩ ∈ current
  states : ∀ marker, ∃ found, ⟨.existsMarker marker, found⟩ ∈ current
  unblocked : ∀ marker, ⟨.existsMarker marker, true⟩ ∈ current →
    commandAllowsState i.args marker.key = true

def results (h : History) : List GitResult :=
  h.filterMap fun
    | ⟨.spawn _, result⟩ => some result
    | _ => none

/-- What holds of the history of a run at every moment. -/
structure SafeGitLaw (i : SafeGitInput) (h : History) : Prop where
  /-- A lock is removed only while no process is listed. -/
  removed : ∀ before path answer after, h = before ++ ⟨.remove path, answer⟩ :: after →
    Listed before []
  /-- Processes are killed only where that is allowed and the lock that is repaired is stale. -/
  killed : ∀ before path pid answer after, h = before ++ ⟨.kill path pid, answer⟩ :: after →
    i.mayKill = true ∧ StaleLock i before path
  /-- The command runs only in an attempt that is cleared. -/
  spawned : ∀ before args result after, h = before ++ ⟨.spawn args, result⟩ :: after →
    args = i.args ∧ ∃ nowMs current, InAttempt before nowMs current ∧ Cleared i current
  bounded : (results h).length ≤ max 1 (i.retries + 1)
  /-- The command runs again only after a result that tells of a lock. -/
  again : ∀ before args result after, h = before ++ ⟨.spawn args, result⟩ :: after →
    results after ≠ [] → looksLikeLockConflict result = true

def Allowed (i : SafeGitInput) (h : History) : GitQuery → Prop
  | .remove _ => Listed h []
  | .kill path _ => i.mayKill = true ∧ StaleLock i h path
  | .spawn args => args = i.args ∧ (∃ nowMs current, InAttempt h nowMs current ∧
      Cleared i current) ∧ (results h).length < i.maxAttempts ∧
      ∀ result ∈ results h, looksLikeLockConflict result = true
  | _ => True

/-! ### Histories -/

section Histories

variable {i : SafeGitInput} {h new current : History} {nowMs : ℤ} {pids : List ℕ}

theorem results_append : results (h ++ new) = results h ++ results new := List.filterMap_append

/-- The exchanges only ask what is allowed by a condition on queries. -/
def Only (I : GitQuery → Prop) (new : History) : Prop := ∀ e ∈ new, I e.query

variable {I : GitQuery → Prop}

theorem Only.nil : Only I [] := List.forall_mem_nil _

theorem Only.append {new' : History} (hn : Only I new) (hn' : Only I new') :
    Only I (new ++ new') := by
  intro e he
  rcases List.mem_append.mp he with he | he
  · exact hn e he
  · exact hn' e he

theorem Only.cons {e : Exchange GitAnswer} (he : I e.query) (hn : Only I new) :
    Only I (e :: new) := by
  intro e' he'
  rcases List.mem_cons.mp he' with rfl | he'
  · exact he
  · exact hn e' he'

theorem Only.mono {I' : GitQuery → Prop} (hn : Only I new) (hI : ∀ q, I q → I' q) :
    Only I' new := fun e he => hI _ (hn e he)

def Inner : GitQuery → Prop
  | .now | .spawn _ => False
  | _ => True

def IsRepair : GitQuery → Prop
  | .listGitProcesses | .kill _ _ | .remove _ => True
  | _ => False

theorem IsRepair.inner {q : GitQuery} (hq : IsRepair q) : Inner q := by
  cases q <;> trivial

theorem results_of_inner (hn : Only Inner new) : results new = [] := by
  rw [results, List.filterMap_eq_nil_iff]
  rintro ⟨q, a⟩ he
  have hq := hn _ he
  cases q <;> first | rfl | exact absurd hq id

theorem InAttempt.append (ha : InAttempt h nowMs current) (hn : Only Inner new) :
    InAttempt (h ++ new) nowMs (current ++ new) := by
  obtain ⟨before, rfl, hquiet⟩ := ha
  refine ⟨before, by rw [List.append_assoc, List.cons_append], fun e he => ?_⟩
  rcases List.mem_append.mp he with he | he
  · exact hquiet e he
  · intro hnow
    have hinner := hn e he
    rw [hnow] at hinner
    exact hinner

theorem listed_query (h : History) (pids : List ℕ) :
    Listed (h ++ [⟨.listGitProcesses, pids⟩]) pids :=
  ⟨h, [], rfl, List.forall_mem_nil _⟩

theorem Listed.append (hl : Listed h pids) (hn : Only (· ≠ .listGitProcesses) new) :
    Listed (h ++ new) pids := by
  obtain ⟨before, after, rfl, hquiet⟩ := hl
  refine ⟨before, after ++ new, by rw [List.append_assoc, List.cons_append], fun e he => ?_⟩
  rcases List.mem_append.mp he with he | he
  · exact hquiet e he
  · exact hn e he

end Histories

/-! ### What an attempt looks for -/

section Detection

variable {i : SafeGitInput} {h : History}

/-- The locks with the times that the outside said. -/
def StatedIn (nowMs : ℤ) (new : History) (lock : Lock) : Prop :=
  ∃ mtimeMs, ⟨.stat lock.path, mtimeMs⟩ ∈ new ∧ lock.mtimeMs = Option.getD mtimeMs (nowMs : ℚ)

theorem StatedIn.append {nowMs : ℤ} {current : History} {lock : Lock}
    (hstated : StatedIn nowMs current lock) (new : History) :
    StatedIn nowMs (current ++ new) lock := by
  obtain ⟨mtimeMs, hmem, htime⟩ := hstated
  exact ⟨mtimeMs, List.mem_append_left _ hmem, htime⟩

theorem adds_statLocks (nowMs : ℤ) (paths : List String) (h : History) :
    Adds (Allowed i) (fun new locks => Only (fun q => ∃ path, q = .stat path) new ∧
      locks.map Lock.path = paths ∧ ∀ lock ∈ locks, StatedIn nowMs new lock) h
      (statLocks nowMs paths) := by
  induction paths generalizing h with
  | nil =>
    exact adds_pure ⟨.nil, rfl, List.forall_mem_nil _⟩
  | cons path paths ih =>
    refine Adds.then (P := fun new answer => new = [⟨.stat path, answer⟩])
      (adds_query trivial fun _ => rfl) ?_
    rintro _ mtimeMs rfl
    refine Adds.then (ih _) ?_
    rintro new locks ⟨honly, hpaths, hstated⟩
    refine adds_pure ?_
    rw [List.append_nil]
    refine ⟨.cons ⟨path, rfl⟩ honly, congrArg (path :: ·) hpaths, fun lock hlock => ?_⟩
    rcases List.mem_cons.mp hlock with rfl | hlock
    · exact ⟨mtimeMs, List.mem_cons_self, rfl⟩
    · obtain ⟨answer, hanswer, htime⟩ := hstated lock hlock
      exact ⟨answer, List.mem_cons_of_mem _ hanswer, htime⟩

/-- The exchanges in which the locks are detected. -/
structure Detects (nowMs : ℤ) (new : History) (locks : List Lock) : Prop where
  only : Only (fun q => q = .lockCandidates ∨ ∃ path, q = .stat path) new
  asked : ∃ candidates, ⟨.lockCandidates, candidates⟩ ∈ new
  found : ∀ candidates, ⟨.lockCandidates, candidates⟩ ∈ new →
    ∀ path ∈ candidates, ∃ lock ∈ locks, lock.path = path
  stated : ∀ lock ∈ locks, StatedIn nowMs new lock

theorem adds_collectLockFiles (nowMs : ℤ) (h : History) :
    Adds (Allowed i) (Detects nowMs) h (collectLockFiles nowMs) := by
  refine Adds.then (P := fun new answer => new = [⟨.lockCandidates, answer⟩])
    (adds_query trivial fun _ => rfl) ?_
  rintro _ candidates rfl
  refine (adds_statLocks nowMs _ _).mono ?_
  rintro new locks ⟨honly, hpaths, hstated⟩
  refine ⟨.cons (.inl rfl) (honly.mono fun _ => .inr), ⟨candidates, List.mem_cons_self⟩, ?_, ?_⟩
  · intro candidates' hmem path hpath
    rcases List.mem_cons.mp hmem with heq | hmem
    · obtain rfl : candidates' = candidates := by
        cases heq
        rfl
      have hdeduped : path ∈ locks.map Lock.path := by
        rw [hpaths]
        exact List.mem_eraseDups.mpr hpath
      obtain ⟨lock, hlock, rfl⟩ := List.mem_map.mp hdeduped
      exact ⟨lock, hlock, rfl⟩
    · obtain ⟨path', hquery⟩ := honly _ hmem
      cases hquery
  · intro lock hlock
    obtain ⟨answer, hanswer, htime⟩ := hstated lock hlock
    exact ⟨answer, List.mem_cons_of_mem _ hanswer, htime⟩

theorem adds_existingMarkers (looked : List Marker) (h : History) :
    Adds (Allowed i) (fun new found => Only (fun q => ∃ marker, q = .existsMarker marker) new ∧
      (∀ marker ∈ looked, ∃ answer, ⟨.existsMarker marker, answer⟩ ∈ new) ∧
      ∀ marker, ⟨.existsMarker marker, true⟩ ∈ new → marker ∈ found) h
      (existingMarkers looked) := by
  induction looked generalizing h with
  | nil =>
    exact adds_pure ⟨.nil, List.forall_mem_nil _,
      fun _ hmem => absurd hmem List.not_mem_nil⟩
  | cons marker looked ih =>
    refine Adds.then (P := fun new answer => new = [⟨.existsMarker marker, answer⟩])
      (adds_query trivial fun _ => rfl) ?_
    rintro _ answer rfl
    refine Adds.then (ih _) ?_
    rintro new found ⟨honly, hasked, hfound⟩
    refine adds_pure ?_
    rw [List.append_nil]
    refine ⟨.cons ⟨marker, rfl⟩ honly, fun other hother => ?_, fun other hother => ?_⟩
    · rcases List.mem_cons.mp hother with rfl | hother
      · exact ⟨answer, List.mem_cons_self⟩
      · obtain ⟨answer', hanswer'⟩ := hasked other hother
        exact ⟨answer', List.mem_cons_of_mem _ hanswer'⟩
    · rcases List.mem_cons.mp hother with heq | hother
      · cases heq
        exact List.mem_cons_self
      · have hmem := hfound other hother
        split
        · exact List.mem_cons_of_mem _ hmem
        · exact hmem

/-- The exchanges in which the operations in progress are looked for. -/
structure Looks (new : History) (states : List StateKey) : Prop where
  only : Only (fun q => ∃ marker, q = .existsMarker marker) new
  asked : ∀ marker, ∃ answer, ⟨.existsMarker marker, answer⟩ ∈ new
  found : ∀ marker, ⟨.existsMarker marker, true⟩ ∈ new → marker.key ∈ states

theorem adds_collectInProgressStates (h : History) :
    Adds (Allowed i) Looks h collectInProgressStates := by
  have hall : ∀ marker, marker ∈ markers := by
    intro marker
    cases marker <;> decide
  refine Adds.then (adds_existingMarkers markers h) ?_
  rintro new found ⟨honly, hasked, hfound⟩
  refine adds_pure ?_
  rw [List.append_nil]
  refine ⟨honly, fun marker => hasked marker (hall marker), fun marker hmem => ?_⟩
  exact List.mem_eraseDups.mpr (List.mem_map_of_mem (hfound marker hmem))

end Detection

/-! ### The repair -/

section Repairs

variable {i : SafeGitInput} {h current : History} {nowMs : ℤ}

variable {lock : Lock}

theorem StatedIn.stale (hstated : StatedIn nowMs current lock)
    (hattempt : InAttempt h nowMs current) (hage : i.staleAgeMs ≤ lock.ageMs nowMs) :
    StaleLock i h lock.path := by
  obtain ⟨mtimeMs, hmem, htime⟩ := hstated
  refine ⟨nowMs, current, mtimeMs, hattempt, hmem, ?_⟩
  rw [← htime]
  exact hage

theorem adds_killGitProcess {path : String} (hkill : i.mayKill = true)
    (hstale : StaleLock i h path) (pid : ℕ) :
    Adds (Allowed i) (fun new _ => Only (fun q => ∃ pid, q = .kill path pid) new) h
      (killGitProcess path pid) := by
  unfold killGitProcess
  split
  · exact adds_pure .nil
  · exact adds_query ⟨hkill, hstale⟩ fun _ => .cons ⟨pid, rfl⟩ .nil

theorem adds_killAll (hkill : i.mayKill = true) (hage : i.staleAgeMs ≤ lock.ageMs nowMs)
    (hattempt : InAttempt h nowMs current) (hstated : StatedIn nowMs current lock) (pids : List ℕ) :
    Adds (Allowed i) (fun new _ => Only (fun q => ∃ pid, q = .kill lock.path pid) new) h
      (killAll lock.path pids) := by
  induction pids generalizing h current with
  | nil => exact adds_pure .nil
  | cons pid pids ih =>
    refine Adds.then (adds_killGitProcess hkill (hstated.stale hattempt hage) pid) ?_
    intro new killed honly
    have hinner : Only Inner new := honly.mono fun q hq => by
      obtain ⟨pid, rfl⟩ := hq
      trivial
    refine Adds.then (ih (hattempt.append hinner) (hstated.append new)) ?_
    intro new' rest honly'
    refine adds_pure ?_
    rw [List.append_nil]
    exact honly.append honly'

theorem adds_killStale {pids : List ℕ} (hattempt : InAttempt h nowMs current)
    (hstated : StatedIn nowMs current lock) :
    Adds (Allowed i) (fun new (result : List ℕ × List ℕ) => Only IsRepair new ∧
      ∀ before, Listed before pids → Listed (before ++ new) result.2) h
      (killStale i lock nowMs pids) := by
  unfold killStale
  split
  · rename_i hcalled
    obtain ⟨-, hage, hkill⟩ := hcalled
    refine Adds.then (adds_killAll hkill hage hattempt hstated pids) ?_
    intro new killedPids honly
    refine Adds.then (P := fun new left => new = [⟨.listGitProcesses, left⟩])
      (adds_query trivial fun _ => rfl) ?_
    rintro _ left rfl
    refine adds_pure ?_
    rw [List.append_nil]
    refine ⟨?_, fun before _ => ?_⟩
    · refine (honly.mono fun q hq => ?_).append (.cons trivial .nil)
      obtain ⟨pid, rfl⟩ := hq
      trivial
    · rw [← List.append_assoc]
      exact listed_query _ left
  · exact adds_pure ⟨.nil, fun before hbefore => by rwa [List.append_nil]⟩

theorem adds_removeLock {left : List ℕ} (hasActivePids : Bool) (hlisted : Listed h left) :
    Adds (Allowed i) (fun new repair => Only (fun q => ∃ path, q = .remove path) new ∧
      (repair.blocked = [] → ⟨.remove lock.path, .ok ()⟩ ∈ new)) h
      (removeLock i lock nowMs hasActivePids left) := by
  unfold removeLock
  dsimp only
  split
  · exact adds_pure ⟨.nil, fun hnil => absurd hnil (List.cons_ne_nil _ _)⟩
  · rename_i hmay
    obtain rfl : left = [] :=
      List.length_eq_zero_iff.mp (Nat.eq_zero_of_not_pos fun hpos => hmay (.inr hpos))
    refine Adds.then (P := fun new answer => new = [⟨.remove lock.path, answer⟩])
      (adds_query hlisted fun _ => rfl) ?_
    rintro _ answer rfl
    refine adds_pure ?_
    rw [List.append_nil]
    refine ⟨.cons ⟨lock.path, rfl⟩ .nil, fun hnil => ?_⟩
    cases answer with
    | ok _ => exact List.mem_cons_self
    | error message => cases hnil

/-- The exchanges of the repair of some locks. -/
structure Repairs (locks : List Lock) (new : History) (repair : Repair) : Prop where
  only : Only IsRepair new
  removed : repair.blocked = [] → ∀ lock ∈ locks, ⟨.remove lock.path, .ok ()⟩ ∈ new

variable {locks : List Lock}

theorem adds_repairEach {pids : List ℕ} (hlisted : Listed h pids)
    (hattempt : InAttempt h nowMs current) (hstated : ∀ lock ∈ locks, StatedIn nowMs current lock) :
    Adds (Allowed i) (Repairs locks) h (repairEach i nowMs pids locks) := by
  induction locks generalizing h current pids with
  | nil => exact adds_pure ⟨.nil, fun _ _ hmem => absurd hmem List.not_mem_nil⟩
  | cons lock locks ih =>
    refine Adds.then (adds_killStale hattempt (hstated lock List.mem_cons_self)) ?_
    rintro killed ⟨killedPids, left⟩ ⟨hkilled, hrelisted⟩
    have hleft := hrelisted h hlisted
    refine Adds.then (adds_removeLock _ hleft) ?_
    rintro removed repair ⟨hremoved, hcleared⟩
    have honly : Only IsRepair (killed ++ removed) := hkilled.append <| hremoved.mono fun q hq => by
      obtain ⟨path, rfl⟩ := hq
      trivial
    have hlisted' : Listed (h ++ killed ++ removed) left := hleft.append <|
      hremoved.mono fun q hq => by
        obtain ⟨path, rfl⟩ := hq
        exact GitQuery.noConfusion
    have hattempt' : InAttempt (h ++ killed ++ removed) nowMs (current ++ (killed ++ removed)) := by
      rw [List.append_assoc]
      exact hattempt.append (honly.mono fun _ => IsRepair.inner)
    refine Adds.then (ih hlisted' hattempt' fun other hother =>
      (hstated other (List.mem_cons_of_mem _ hother)).append _) ?_
    rintro new rest ⟨hrest, hall⟩
    refine adds_pure ?_
    rw [List.append_nil, ← List.append_assoc]
    refine ⟨honly.append hrest, fun hnil other hother => ?_⟩
    have hblocked : repair.blocked ++ rest.blocked = [] := hnil
    obtain ⟨hfirst, hlater⟩ := List.append_eq_nil_iff.mp hblocked
    rcases List.mem_cons.mp hother with rfl | hother
    · exact List.mem_append_left _ (List.mem_append_right _ (hcleared hfirst))
    · exact List.mem_append_right _ (hall hlater other hother)

theorem adds_repairFound (hattempt : InAttempt h nowMs current)
    (hstated : ∀ lock ∈ locks, StatedIn nowMs current lock) :
    Adds (Allowed i) (Repairs locks) h (repairFound i nowMs locks) := by
  unfold repairFound
  split
  · refine Adds.then (P := fun new pids => new = [⟨.listGitProcesses, pids⟩])
      (adds_query trivial fun _ => rfl) ?_
    rintro _ pids rfl
    have hinner : Only Inner [⟨.listGitProcesses, pids⟩] := .cons trivial .nil
    refine (adds_repairEach (listed_query h pids) (hattempt.append hinner) fun lock hlock =>
      (hstated lock hlock).append _).mono ?_
    rintro new repair ⟨honly, hremoved⟩
    refine ⟨.cons trivial honly, fun hnil lock hlock => ?_⟩
    exact List.mem_cons_of_mem _ (hremoved hnil lock hlock)
  · rename_i hnone
    obtain rfl : locks = [] := List.length_eq_zero_iff.mp (Nat.eq_zero_of_not_pos hnone)
    exact adds_pure ⟨.nil, fun _ _ hmem => absurd hmem List.not_mem_nil⟩

end Repairs

/-! ### The attempts -/

section Attempts

variable {i : SafeGitInput} {h : History}

/-- Before an attempt: the command ran in earlier attempts only, and met locks. -/
structure Before (attempt : ℕ) (h : History) : Prop where
  fewer : (results h).length < attempt
  conflicts : ∀ result ∈ results h, looksLikeLockConflict result = true

def After (i : SafeGitInput) (attempt : ℕ) (h : History) : Except String AttemptEnd → Prop
  | .ok .again => attempt < i.maxAttempts ∧ Before (attempt + 1) h
  | _ => True

variable {attempt : ℕ}

variable {result : GitResult} {repair : Repair}

theorem Before.spawned (hb : Before attempt h) {args : List String}
    (hconflict : looksLikeLockConflict result = true) :
    Before (attempt + 1) (h ++ [⟨.spawn args, result⟩]) := by
  have hresults : results (h ++ [⟨.spawn args, result⟩]) = results h ++ [result] :=
    results_append
  refine ⟨?_, fun other hother => ?_⟩
  · rw [hresults, List.length_append, List.length_singleton]
    exact Nat.add_lt_add_right hb.fewer 1
  · rw [hresults] at hother
    rcases List.mem_append.mp hother with hother | hother
    · exact hb.conflicts other hother
    · rwa [List.mem_singleton.mp hother]

theorem Before.quiet (hb : Before attempt h) {new : History} (hn : Only Inner new) :
    Before attempt (h ++ new) := by
  have hresults : results (h ++ new) = results h := by
    rw [results_append, results_of_inner hn, List.append_nil]
  exact ⟨by rw [hresults]; exact hb.fewer, by rw [hresults]; exact hb.conflicts⟩

theorem safe_settleResult (hb : Before attempt h) :
    Safe (Allowed i) (After i attempt) (h ++ [⟨.spawn i.args, result⟩])
      (settleResult i attempt result) := by
  unfold settleResult
  split
  · trivial
  split
  · exact (adds_collectInProgressStates _).bind fun _ _ _ => trivial
  split
  · rename_i hagain
    exact ⟨hagain.2, hb.spawned hagain.1⟩
  · trivial

theorem safe_afterRepair (hb : Before attempt h) (hle : attempt ≤ i.maxAttempts)
    (hcleared : repair.blocked = [] →
      ∃ nowMs current, InAttempt h nowMs current ∧ Cleared i current) :
    Safe (Allowed i) (After i attempt) h (afterRepair i attempt repair) := by
  unfold afterRepair
  split
  · split
    · trivial
    · rename_i hmore
      exact ⟨Nat.lt_of_not_ge hmore, Nat.lt_succ_of_lt hb.fewer, hb.conflicts⟩
  · rename_i hnone
    have hnil : repair.blocked = [] := List.length_eq_zero_iff.mp (Nat.eq_zero_of_not_pos hnone)
    refine safe_query_bind.mpr ⟨⟨rfl, hcleared hnil, ?_, hb.conflicts⟩, fun result =>
      safe_settleResult hb⟩
    exact Nat.lt_of_lt_of_le hb.fewer hle

theorem cleared_of_repairs {nowMs : ℤ} {detected looked repaired : History} {locks : List Lock}
    {states : List StateKey} (hdetects : Detects nowMs detected locks)
    (hlooks : Looks looked states) (hrepairs : Repairs locks repaired repair)
    (hunblocked : evaluateBlockedStates i.args states = []) (hnil : repair.blocked = []) :
    Cleared i (detected ++ looked ++ repaired) where
  locks := by
    obtain ⟨candidates, hmem⟩ := hdetects.asked
    exact ⟨candidates, List.mem_append_left _ (List.mem_append_left _ hmem)⟩
  removed := by
    intro candidates hmem path hpath
    have hdetected : ⟨.lockCandidates, candidates⟩ ∈ detected := by
      rcases List.mem_append.mp hmem with hmem | hmem
      · rcases List.mem_append.mp hmem with hmem | hmem
        · exact hmem
        · obtain ⟨marker, hmarker⟩ := hlooks.only _ hmem
          cases hmarker
      · exact (hrepairs.only _ hmem).elim
    obtain ⟨lock, hlock, rfl⟩ := hdetects.found candidates hdetected path hpath
    exact List.mem_append_right _ (hrepairs.removed hnil lock hlock)
  states := by
    intro marker
    obtain ⟨answer, hmem⟩ := hlooks.asked marker
    exact ⟨answer, List.mem_append_left _ (List.mem_append_right _ hmem)⟩
  unblocked := by
    intro marker hmem
    have hlooked : ⟨.existsMarker marker, true⟩ ∈ looked := by
      rcases List.mem_append.mp hmem with hmem | hmem
      · rcases List.mem_append.mp hmem with hmem | hmem
        · rcases hdetects.only _ hmem with hquery | ⟨path, hquery⟩ <;> cases hquery
        · exact hmem
      · exact (hrepairs.only _ hmem).elim
    have hallowed := List.filter_eq_nil_iff.mp hunblocked _ (hlooks.found marker hlooked)
    simpa using hallowed

theorem safe_runAttempt (hb : Before attempt h) (hle : attempt ≤ i.maxAttempts) :
    Safe (Allowed i) (After i attempt) h (runAttempt i attempt) := by
  refine safe_query_bind.mpr ⟨trivial, fun nowMs => ?_⟩
  refine (adds_collectLockFiles nowMs _).bind fun detected locks hdetects => ?_
  refine (adds_collectInProgressStates _).bind fun looked states hlooks => ?_
  have hdetected : Only Inner detected := hdetects.only.mono fun q hq => by
    rcases hq with rfl | ⟨path, rfl⟩ <;> trivial
  have hlooked : Only Inner looked := hlooks.only.mono fun q hq => by
    obtain ⟨marker, rfl⟩ := hq
    trivial
  -- the attempt under way, after what it looked for
  have hattempt : InAttempt (h ++ [⟨.now, nowMs⟩] ++ detected ++ looked) nowMs
      (detected ++ looked) :=
    ⟨h, by simp, fun e he hnow => by
      have hinner := (hdetected.append hlooked) e he
      rw [hnow] at hinner
      exact hinner⟩
  have hbefore : Before attempt (h ++ [⟨.now, nowMs⟩] ++ detected ++ looked) := by
    have hclock : Before attempt (h ++ [⟨.now, nowMs⟩]) := by
      have hresults : results (h ++ [⟨.now, nowMs⟩]) = results h := by
        rw [results_append]
        exact List.append_nil _
      exact ⟨by rw [hresults]; exact hb.fewer, by rw [hresults]; exact hb.conflicts⟩
    exact (hclock.quiet hdetected).quiet hlooked
  unfold afterStates
  dsimp only
  split
  · trivial
  · rename_i hstates
    have hunblocked : evaluateBlockedStates i.args states = [] :=
      List.length_eq_zero_iff.mp (Nat.eq_zero_of_not_pos hstates)
    refine (adds_repairFound hattempt fun lock hlock =>
      (hdetects.stated lock hlock).append looked).bind fun repaired repair hrepairs => ?_
    have hrepaired : Only Inner repaired := hrepairs.only.mono fun _ => IsRepair.inner
    refine safe_afterRepair (hbefore.quiet hrepaired) hle fun hnil => ?_
    exact ⟨nowMs, _, hattempt.append hrepaired,
      cleared_of_repairs hdetects hlooks hrepairs hunblocked hnil⟩

theorem safe_runAttempts {left : ℕ} (hb : Before attempt h)
    (hleft : left + attempt = i.maxAttempts + 1) :
    Safe (Allowed i) (fun _ _ => True) h (runAttempts i left attempt) := by
  induction left generalizing h attempt with
  | zero => trivial
  | succ left ih =>
    refine safe_bind.mpr (Safe.mono (safe_runAttempt hb (by omega)) fun new r hr => ?_)
    cases r with
    | error message => trivial
    | ok ended =>
      cases ended with
      | returned result => trivial
      | again => exact ih hr.2 (by omega)

theorem safe_runGitWithSafety (hmutating : isMutatingGitCommand i.args = true) :
    Safe (Allowed i) (fun _ _ => True) [] (runGitWithSafety i) := by
  unfold runGitWithSafety
  split
  · trivial
  rw [if_neg (by simp [hmutating])]
  refine safe_query_bind.mpr ⟨trivial, fun gitDir => ?_⟩
  cases gitDir with
  | error message => trivial
  | ok directory =>
    exact safe_runAttempts ⟨Nat.zero_lt_one, List.forall_mem_nil _⟩ rfl

/-- **The safety of git commands.** -/
theorem safeGitLaw (hmutating : isMutatingGitCommand i.args = true) {p : GitProg GitResult}
    (hr : Reaches (runGitWithSafety i) h p) : SafeGitLaw i h := by
  have hsafe := safe_runGitWithSafety hmutating
  have hasked : ∀ before e after, h = before ++ e :: after → Allowed i before e.query :=
    hsafe.asked hr
  exact {
    removed := fun before path answer after hsplit => hasked _ _ _ hsplit
    killed := fun before path pid answer after hsplit => hasked _ _ _ hsplit
    spawned := fun before args result after hsplit => by
      obtain ⟨hargs, hcleared, -⟩ := hasked _ _ _ hsplit
      exact ⟨hargs, hcleared⟩
    bounded := by
      refine hsafe.invariant (fun h => (results h).length ≤ i.maxAttempts) hr (Nat.zero_le _) ?_
      intro h q a hle hallowed
      rw [results_append, List.length_append]
      cases q with
      | spawn args => exact hallowed.2.2.1
      | _ => exact hle
    again := fun before args result after hsplit hafter => by
      obtain ⟨later, hlater⟩ := List.exists_mem_of_ne_nil _ hafter
      obtain ⟨⟨q, a⟩, hmem, hresult⟩ := List.mem_filterMap.mp hlater
      cases q with
      | spawn args' =>
        obtain ⟨between, rest, rfl⟩ := List.append_of_mem hmem
        have hsecond : h = (before ++ ⟨.spawn args, result⟩ :: between) ++
            ⟨.spawn args', a⟩ :: rest := by
          rw [hsplit, List.append_assoc, List.cons_append]
        obtain ⟨-, -, -, hconflicts⟩ := hasked _ _ _ hsecond
        refine hconflicts result ?_
        rw [results_append]
        exact List.mem_append_right _ List.mem_cons_self
      | _ => cases hresult }

end Attempts

/-! ### A run with a lock -/

def commitInput : SafeGitInput where
  args := ["commit", "-m", "change"]
  maxRetries := none
  staleLockAgeMs := none
  allowProcessKill := none
  env := fun _ => none

/-- An outside with a stale lock and a process that holds it and dies of a kill. The state is
whether the process and the lock are there. -/
def staleOutside : Bool × Bool → (q : GitQuery) → GitAnswer q × (Bool × Bool)
  | s, .resolveGitDir => (.ok ".git", s)
  | s, .now => (100000, s)
  | s, .lockCandidates => (if s.2 then ["index.lock"] else [], s)
  | s, .stat _ => (some 0, s)
  | s, .existsMarker _ => (false, s)
  | s, .listGitProcesses => (if s.1 then [42] else [], s)
  | s, .kill _ _ => (true, (false, s.2))
  | s, .remove _ => (.ok (), (s.1, false))
  | s, .spawn _ => (⟨some 0, "", ""⟩, s)

/-- The run kills the process, removes the lock and commits. -/
theorem safeGitLaw_staleOutside :
    SafeGitLaw commitInput ((runGitWithSafety commitInput).runWith staleOutside (true, true)).1 :=
  safeGitLaw (by decide +kernel) (runs_runWith staleOutside (true, true) _)

end CompareVI.SafeGit
