import CompareVI.Framework.Attempt
import CompareVI.Framework.Sweep
import CompareVI.Framework.Tokens
import CompareVI.Framework.Trace
import CompareVI.SafeGit.Program

/-!
# The order of the locks in a repair

While git processes are active, `repairLocks` should leave every lock alone that is not stale, and
what becomes of a lock should not depend on the order in which `collectLockFiles` lists them
(`RepairLaw`).

The processes are killed for the first stale lock, and for every further one as long as some are
left. Once none is left, every lock behind is removed, the fresh ones included; those before have
been kept. So the repair is a sweep whose gate is an empty list of processes, and the stale locks
are the items that count (`exists_repaired`). `repairLaw_iff` is what the sweep says about the
order.
-/

open Framework
open Framework.Sweep

namespace CompareVI.SafeGit

/-! ### The outside of a repair -/

/-- What the outside does in a repair: the lists of git processes that it gives one after
another, which processes are reported killed after each of these lists, and the removals. -/
structure LockWorld where
  listed : ℕ → List ℕ
  killed : ℕ → ℕ → Bool
  removal : String → Except String Unit

/-- The answers, with the number of lists that have been given. A repair asks no others. -/
def LockWorld.serve (w : LockWorld) (n : ℕ) : (q : GitQuery) → GitAnswer q × ℕ
  | .listGitProcesses => (w.listed n, n + 1)
  | .kill _ pid => (w.killed n pid, n)
  | .remove path => (w.removal path, n)
  | .resolveGitDir => (.ok "", n)
  | .now => ((0 : ℤ), n)
  | .lockCandidates => ([], n)
  | .stat _ => (none, n)
  | .existsMarker _ => (false, n)
  | .spawn _ => (⟨none, "", ""⟩, n)

structure DetectedLocks where
  locks : List Lock
  nodup : (locks.map (·.path)).Nodup

def repaired (i : SafeGitInput) (nowMs : ℤ) (w : LockWorld) (locks : List Lock) :
    Except String Repair :=
  ((repairLocks i nowMs locks).outcome w.serve 0).2

/-! ### The law -/

def SafeGitInput.stale (i : SafeGitInput) (nowMs : ℤ) (lock : Lock) : Bool :=
  decide (lock.ageMs nowMs ≥ i.staleAgeMs)

/-- What a repair promises. -/
structure RepairLaw (i : SafeGitInput) (nowMs : ℤ) (w : LockWorld) (d : DetectedLocks) : Prop where
  /-- While git processes are active no lock is removed that is not stale. -/
  sparesFresh : w.listed 0 ≠ [] → ∀ repair, repaired i nowMs w d.locks = .ok repair →
    ∀ lock ∈ d.locks, i.stale nowMs lock = false → lock.path ∉ repair.removed
  /-- In another order the same locks are removed and the same locks are blocked. -/
  orderFree : ∀ locks', locks'.Perm d.locks → ∀ repair repair',
    repaired i nowMs w d.locks = .ok repair → repaired i nowMs w locks' = .ok repair' →
      (∀ path, path ∈ repair'.removed ↔ path ∈ repair.removed) ∧
        ∀ path, path ∈ repair'.blocked.map (·.path) ↔ path ∈ repair.blocked.map (·.path)

def SafeGitInput.cleared (i : SafeGitInput) (w : LockWorld) (staleCount : ℕ) : Bool :=
  (List.range ((if i.mayKill then staleCount else 0) + 1)).any fun n => (w.listed n).isEmpty

def LockWorld.removes (w : LockWorld) (lock : Lock) : Bool := (w.removal lock.path).isOk

/-- If no processes are left at the end of the repair, then for every lock that can be removed
none were left from the start, or if it is stale, from the first kills on. -/
def ClearedAtOnce (i : SafeGitInput) (nowMs : ℤ) (w : LockWorld) (locks : List Lock) : Prop :=
  ∀ lock ∈ locks, w.removes lock = true →
    i.cleared w (locks.countP (i.stale nowMs)) = true →
      i.cleared w (if i.stale nowMs lock then 1 else 0) = true

/-! ### What `collectLockFiles` finds -/

/-! ### What becomes of a lock -/

section Repair

variable {i : SafeGitInput} {nowMs : ℤ} {w : LockWorld} {m k l : ℕ}

theorem cleared_eq_true_iff :
    i.cleared w k = true ↔ ∃ n ≤ if i.mayKill then k else 0, (w.listed n).isEmpty = true := by
  simp only [SafeGitInput.cleared, List.any_eq_true, List.mem_range, Nat.lt_succ_iff]

theorem cleared_mono (h : k ≤ l) (hcleared : i.cleared w k = true) : i.cleared w l = true := by
  obtain ⟨n, hn, hempty⟩ := cleared_eq_true_iff.mp hcleared
  refine cleared_eq_true_iff.mpr ⟨n, hn.trans ?_, hempty⟩
  split
  · exact h
  · exact Nat.le_refl 0

/-- The list at hand, after so many stale locks: one is asked for at each of them, until it is
empty. -/
structure AtHand (i : SafeGitInput) (w : LockWorld) (k m : ℕ) : Prop where
  cleared : i.cleared w k = (w.listed m).isEmpty
  index : (w.listed m).isEmpty = false → m = if i.mayKill then k else 0

theorem cleared_zero : i.cleared w 0 = (w.listed 0).isEmpty := by
  cases h : i.mayKill <;> simp [SafeGitInput.cleared, h]

theorem atHand_start : AtHand i w 0 0 := ⟨cleared_zero, fun _ => by split <;> rfl⟩

theorem AtHand.kill (h : AtHand i w k m) (hkill : i.mayKill = true)
    (hleft : (w.listed m).isEmpty = false) : AtHand i w (k + 1) (m + 1) := by
  have hm : m = k := by rw [h.index hleft, if_pos hkill]
  subst hm
  have hbefore := h.cleared.trans hleft
  refine ⟨?_, fun _ => by rw [if_pos hkill]⟩
  unfold SafeGitInput.cleared at hbefore ⊢
  rw [if_pos hkill] at hbefore ⊢
  rw [List.range_succ, List.any_append, hbefore, List.any_cons, List.any_nil, Bool.false_or,
    Bool.or_false]

theorem AtHand.keep (h : AtHand i w k m)
    (hcalled : (w.listed m).isEmpty = true ∨ i.mayKill = false) : AtHand i w (k + 1) m := by
  cases hempty : (w.listed m).isEmpty with
  | true =>
    refine ⟨?_, fun hfalse => absurd (hempty.symm.trans hfalse) Bool.noConfusion⟩
    rw [hempty]
    exact cleared_mono (Nat.le_succ k) (h.cleared.trans hempty)
  | false =>
    have hkill : i.mayKill = false := by
      rcases hcalled with htrue | hkill
      · exact absurd (hempty.symm.trans htrue) Bool.noConfusion
      · exact hkill
    refine ⟨?_, fun _ => ?_⟩
    · rw [← h.cleared]
      simp only [SafeGitInput.cleared, hkill]
      rfl
    · have hindex := h.index hempty
      rw [hkill] at hindex ⊢
      exact hindex

theorem outcome_killAll (repairing : String) (pids : List ℕ) (n : ℕ) :
    ∃ killed, (killAll repairing pids).outcome w.serve n = (n, .ok killed) := by
  induction pids with
  | nil => exact ⟨[], rfl⟩
  | cons pid pids ih =>
    obtain ⟨rest, hrest⟩ := ih
    have hone : ∃ killed, (killGitProcess repairing pid).outcome w.serve n = (n, .ok killed) := by
      unfold killGitProcess
      split
      · exact ⟨_, rfl⟩
      · exact ⟨_, rfl⟩
    obtain ⟨killed, hkilled⟩ := hone
    refine ⟨if killed = true then pid :: rest else rest, ?_⟩
    rw [killAll, outcome_bind hkilled, outcome_bind hrest, outcome_pure]

theorem outcome_killStale (nowMs : ℤ) (h : AtHand i w k m) (lock : Lock) :
    ∃ killed m', (killStale i lock nowMs (w.listed m)).outcome w.serve (m + 1) =
        (m' + 1, .ok (killed, w.listed m')) ∧
      AtHand i w (after (i.stale nowMs) k lock) m' ∧ (i.stale nowMs lock = false → m' = m) := by
  unfold killStale
  split
  · rename_i hcalled
    obtain ⟨hactive, hage, hkill⟩ := hcalled
    have hstale : i.stale nowMs lock = true := decide_eq_true hage
    have hleft : (w.listed m).isEmpty = false := by
      rw [List.isEmpty_eq_false_iff]
      exact List.ne_nil_of_length_pos hactive
    obtain ⟨killed, hkilled⟩ := outcome_killAll lock.path (w.listed m) (m + 1)
    refine ⟨killed, m + 1, ?_, ?_, fun hfresh => ?_⟩
    · rw [outcome_bind hkilled]
      rfl
    · rw [after, if_pos hstale]
      exact h.kill hkill hleft
    · rw [hstale] at hfresh
      cases hfresh
  · rename_i hcalled
    refine ⟨[], m, rfl, ?_, fun _ => rfl⟩
    rw [after]
    split
    · rename_i hstale
      refine h.keep ?_
      cases hempty : (w.listed m).isEmpty with
      | true => exact .inl rfl
      | false =>
        refine .inr (Bool.eq_false_of_not_eq_true fun hkill => hcalled ⟨?_, ?_, hkill⟩)
        · exact List.length_pos_iff.mpr (List.isEmpty_eq_false_iff.mp hempty)
        · exact of_decide_eq_true hstale
    · exact h

/-- The repair is what the marks say: a lock that passes is removed, if it can be. -/
structure Settles (w : LockWorld) (marks : List (Lock × Bool)) (repair : Repair) : Prop where
  removed : repair.removed =
    (marks.filter fun mark => mark.2 && w.removes mark.1).map (·.1.path)
  blocked : repair.blocked.map (·.path) =
    (marks.filter fun mark => !(mark.2 && w.removes mark.1)).map (·.1.path)

variable {repair : Repair}

theorem Settles.append {first rest : List (Lock × Bool)} {repair' : Repair}
    (h : Settles w first repair) (h' : Settles w rest repair') :
    Settles w (first ++ rest) (repair.append repair') := by
  constructor
  · rw [List.filter_append, List.map_append, ← h.removed, ← h'.removed]
    rfl
  · rw [List.filter_append, List.map_append, ← h.blocked, ← h'.blocked]
    exact List.map_append

theorem outcome_removeLock (w : LockWorld) (lock : Lock) {m m' : ℕ} (n : ℕ)
    (hfresh : i.stale nowMs lock = false → m' = m) :
    ∃ repair, (removeLock i lock nowMs (decide ((w.listed m).length > 0)) (w.listed m')).outcome
        w.serve n = (n, .ok repair) ∧
      Settles w [(lock, (w.listed m').isEmpty)] repair := by
  unfold removeLock
  cases hleft : (w.listed m').isEmpty with
  | false =>
    have hlength : (w.listed m').length > 0 :=
      List.length_pos_iff.mpr (List.isEmpty_eq_false_iff.mp hleft)
    rw [if_pos (.inr hlength)]
    exact ⟨_, rfl, rfl, rfl⟩
  | true =>
    have hnil : w.listed m' = [] := List.isEmpty_iff.mp hleft
    have hmay : ¬ ((!decide ((w.listed m).length > 0) ||
        decide (lock.ageMs nowMs ≥ i.staleAgeMs)) = false ∨ (w.listed m').length > 0) := by
      rw [hnil]
      rintro (hmay | hlength)
      · obtain ⟨hactive, hage⟩ := Bool.or_eq_false_iff.mp hmay
        rw [← hfresh hage, hnil] at hactive
        cases hactive
      · cases hlength
    rw [if_neg hmay]
    refine ⟨_, rfl, ?_⟩
    cases hremoval : w.removal lock.path with
    | ok _ =>
      have hremoves : w.removes lock = true := by rw [LockWorld.removes, hremoval]; rfl
      constructor <;> simp [LockWorld.serve, hremoval, hremoves]
    | error message =>
      have hremoves : w.removes lock = false := by rw [LockWorld.removes, hremoval]; rfl
      constructor <;> simp [LockWorld.serve, hremoval, hremoves]

theorem settles_nothing (killedPids : List ℕ) : Settles w [] ⟨[], [], killedPids⟩ := ⟨rfl, rfl⟩

theorem outcome_repairEach (nowMs : ℤ) (locks : List Lock) (h : AtHand i w k m) :
    ∃ repair n, (repairEach i nowMs (w.listed m) locks).outcome w.serve (m + 1) =
        (n, .ok repair) ∧
      Settles w (marked (i.stale nowMs) (i.cleared w) k locks) repair := by
  induction locks generalizing k m with
  | nil => exact ⟨_, _, rfl, settles_nothing []⟩
  | cons lock locks ih =>
    obtain ⟨killed, m', hkill, hnext, hfresh⟩ := outcome_killStale nowMs h lock
    obtain ⟨repair, hremove, hsettles⟩ := outcome_removeLock w lock (m' + 1) hfresh
    obtain ⟨rest, n, hrest, hothers⟩ := ih hnext
    refine ⟨(Repair.mk [] [] killed).append (repair.append rest), n, ?_, ?_⟩
    · rw [repairEach, outcome_bind hkill, outcome_bind hremove, outcome_bind hrest, outcome_pure]
    · rw [← hnext.cleared] at hsettles
      exact (settles_nothing killed).append (hsettles.append hothers)

/-- **The repair is the sweep.** -/
theorem exists_repaired (i : SafeGitInput) (nowMs : ℤ) (w : LockWorld) (locks : List Lock) :
    ∃ repair, repaired i nowMs w locks = .ok repair ∧
      Settles w (marked (i.stale nowMs) (i.cleared w) 0 locks) repair := by
  obtain ⟨repair, n, houtcome, hsettles⟩ := outcome_repairEach nowMs locks atHand_start
  refine ⟨repair, ?_, hsettles⟩
  have hprogram : (repairLocks i nowMs locks).outcome w.serve 0 = (n, .ok repair) := houtcome
  rw [repaired, hprogram]

variable {locks : List Lock} {path : String}

theorem settles_of_repaired (h : repaired i nowMs w locks = .ok repair) :
    Settles w (marked (i.stale nowMs) (i.cleared w) 0 locks) repair := by
  obtain ⟨repair', hrepaired, hsettles⟩ := exists_repaired i nowMs w locks
  obtain rfl := Except.ok.inj (hrepaired.symm.trans h)
  exact hsettles

theorem Settles.mem_removed {marks : List (Lock × Bool)} (h : Settles w marks repair) :
    path ∈ repair.removed ↔
      ∃ lock, (lock, true) ∈ marks ∧ w.removes lock = true ∧ lock.path = path := by
  rw [h.removed, List.mem_map]
  constructor
  · rintro ⟨⟨lock, passes⟩, hmark, rfl⟩
    obtain ⟨hmem, hboth⟩ := List.mem_filter.mp hmark
    obtain ⟨rfl, hremoves⟩ := Bool.and_eq_true_iff.mp hboth
    exact ⟨lock, hmem, hremoves, rfl⟩
  · rintro ⟨lock, hmem, hremoves, rfl⟩
    exact ⟨(lock, true), List.mem_filter.mpr ⟨hmem, hremoves⟩, rfl⟩

theorem Settles.mem_blocked {counts : Lock → Bool} {gate : ℕ → Bool} (hnodup : locks.Nodup)
    (h : Settles w (marked counts gate 0 locks) repair) :
    path ∈ repair.blocked.map (·.path) ↔
      ∃ lock ∈ locks, ¬ ((lock, true) ∈ marked counts gate 0 locks ∧ w.removes lock = true) ∧
        lock.path = path := by
  rw [h.blocked, List.mem_map]
  constructor
  · rintro ⟨⟨lock, passes⟩, hmark, rfl⟩
    obtain ⟨hmem, hnot⟩ := List.mem_filter.mp hmark
    refine ⟨lock, mem_of_mem_marked hmem, ?_, rfl⟩
    rintro ⟨htrue, hremoves⟩
    obtain rfl := mark_unique hnodup hmem htrue
    rw [hremoves] at hnot
    cases hnot
  · rintro ⟨lock, hlock, hnot, rfl⟩
    have hmarked : ∃ passes, (lock, passes) ∈ marked counts gate 0 locks := exists_mem_marked hlock
    obtain ⟨passes, hmem⟩ := hmarked
    refine ⟨(lock, passes), List.mem_filter.mpr ⟨hmem, ?_⟩, rfl⟩
    rw [Bool.not_eq_true', Bool.eq_false_iff]
    intro hboth
    obtain ⟨rfl, hremoves⟩ := Bool.and_eq_true_iff.mp hboth
    exact hnot ⟨hmem, hremoves⟩

end Repair

/-! ### The law -/

section Law

variable {i : SafeGitInput} {nowMs : ℤ} {w : LockWorld} {d : DetectedLocks}

theorem DetectedLocks.nodup_locks (d : DetectedLocks) : d.locks.Nodup := List.Nodup.of_map _ d.nodup

theorem DetectedLocks.eq_of_path (d : DetectedLocks) {lock lock' : Lock} (hlock : lock ∈ d.locks)
    (hlock' : lock' ∈ d.locks) (hpath : lock.path = lock'.path) : lock = lock' :=
  List.inj_on_of_nodup_map d.nodup hlock hlock' hpath

theorem mem_removed_iff {locks' : List Lock} (hperm : locks'.Perm d.locks) {repair : Repair}
    (h : repaired i nowMs w locks' = .ok repair) {lock : Lock} (hlock : lock ∈ d.locks)
    (hremoves : w.removes lock = true) :
    lock.path ∈ repair.removed ↔
      (lock, true) ∈ marked (i.stale nowMs) (i.cleared w) 0 locks' := by
  rw [(settles_of_repaired h).mem_removed]
  constructor
  · rintro ⟨lock', hmark, -, hpath⟩
    obtain rfl := d.eq_of_path (hperm.mem_iff.mp (mem_of_mem_marked hmark)) hlock hpath
    exact hmark
  · exact fun hmark => ⟨lock, hmark, hremoves, rfl⟩

/-- No order matters to the locks that can be removed. -/
def OrderFree (i : SafeGitInput) (nowMs : ℤ) (w : LockWorld) (locks : List Lock) : Prop :=
  ∀ locks', locks'.Perm locks → ∀ lock ∈ locks, w.removes lock = true →
    ((lock, true) ∈ marked (i.stale nowMs) (i.cleared w) 0 locks' ↔
      (lock, true) ∈ marked (i.stale nowMs) (i.cleared w) 0 locks)

theorem orderFree_iff_clearedAtOnce :
    OrderFree i nowMs w d.locks ↔ ClearedAtOnce i nowMs w d.locks := by
  exact orderFree_iff (fun _ _ => cleared_mono) d.nodup_locks

/-- **The order of the locks.** A repair leaves fresh locks alone while processes are active, and
does the same to every lock in every order, exactly if the processes are gone from the start,
from the first kills on where no lock can be removed that is fresh, or not at all. -/
theorem repairLaw_iff (i : SafeGitInput) (nowMs : ℤ) (w : LockWorld) (d : DetectedLocks) :
    RepairLaw i nowMs w d ↔ ClearedAtOnce i nowMs w d.locks := by
  rw [← orderFree_iff_clearedAtOnce]
  constructor
  · intro hlaw locks' hperm lock hlock hremoves
    obtain ⟨repair, hrepair, -⟩ := exists_repaired i nowMs w d.locks
    obtain ⟨repair', hrepair', -⟩ := exists_repaired i nowMs w locks'
    rw [← mem_removed_iff hperm hrepair' hlock hremoves,
      ← mem_removed_iff (.refl _) hrepair hlock hremoves]
    exact (hlaw.orderFree locks' hperm repair repair' hrepair hrepair').1 lock.path
  · intro hfree
    constructor
    · intro hactive repair hrepair lock hlock hfresh hremoved
      obtain ⟨lock', hmark, hremoves, hpath⟩ :=
        (settles_of_repaired hrepair).mem_removed.mp hremoved
      obtain rfl := d.eq_of_path (mem_of_mem_marked hmark) hlock hpath
      have hsame := orderFree_iff_clearedAtOnce.mp hfree _ hlock hremoves
      have hfront := (mem_marked_true_iff (fun _ _ => cleared_mono) hsame hlock).mp hmark
      rw [after, hfresh, if_neg Bool.false_ne_true, cleared_zero] at hfront
      exact hactive (List.isEmpty_iff.mp hfront)
    · intro locks' hperm repair repair' hrepair hrepair'
      have hsame : ∀ lock, lock ∈ d.locks → w.removes lock = true → _ := hfree locks' hperm
      constructor
      · intro path
        rw [(settles_of_repaired hrepair).mem_removed, (settles_of_repaired hrepair').mem_removed]
        constructor
        · rintro ⟨lock, hmark, hremoves, hpath⟩
          have hlock := hperm.mem_iff.mp (mem_of_mem_marked hmark)
          exact ⟨lock, (hsame lock hlock hremoves).mp hmark, hremoves, hpath⟩
        · rintro ⟨lock, hmark, hremoves, hpath⟩
          exact ⟨lock, (hsame lock (mem_of_mem_marked hmark) hremoves).mpr hmark, hremoves, hpath⟩
      · intro path
        rw [(settles_of_repaired hrepair).mem_blocked d.nodup_locks,
          (settles_of_repaired hrepair').mem_blocked (hperm.nodup_iff.mpr d.nodup_locks)]
        refine exists_congr fun lock => ?_
        rw [hperm.mem_iff]
        refine and_congr_right fun hlock => and_congr_left' (not_congr ?_)
        exact and_congr_left fun hremoves => hsame lock hlock hremoves

/-! ### A stale lock in front of a fresh one -/

def commitRepair : SafeGitInput where
  args := ["commit"]
  maxRetries := none
  staleLockAgeMs := none
  allowProcessKill := none
  env := fun _ => none

def mixedLocks : DetectedLocks where
  locks := [⟨".git/index.lock", 0⟩, ⟨".git/HEAD.lock", 60000⟩]
  nodup := by decide

def mixedWorld : LockWorld where
  listed := fun n => if n = 0 then [4242] else []
  killed := fun _ _ => true
  removal := fun _ => .ok ()

/-- The lock of the active process is removed. -/
theorem not_repairLaw_mixed : ¬ RepairLaw commitRepair 60000 mixedWorld mixedLocks := by
  intro hlaw
  obtain ⟨repair, hrepaired, hsettles⟩ :=
    exists_repaired commitRepair 60000 mixedWorld mixedLocks.locks
  have hmark : ((⟨".git/HEAD.lock", 60000⟩ : Lock), true) ∈
      marked (commitRepair.stale 60000) (commitRepair.cleared mixedWorld) 0 mixedLocks.locks :=
    mem_marked_iff.mpr ⟨[⟨".git/index.lock", 0⟩], [], rfl, by decide +kernel⟩
  have hremoved := hsettles.mem_removed.mpr ⟨_, hmark, rfl, rfl⟩
  have hactive : mixedWorld.listed 0 ≠ [] := by decide
  exact hlaw.sparesFresh hactive repair hrepaired _ (List.mem_cons_of_mem _ List.mem_cons_self)
    (by decide +kernel) hremoved

end Law

end CompareVI.SafeGit
