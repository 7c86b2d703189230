import CompareVI.CompareLoop.Accounting
import CompareVI.CompareLoop.Percentiles

/-!
# The adaptive interval of the compare loop

At the end of an iteration the loop sleeps. With `AdaptiveInterval` the interval goes back to its
baseline after an iteration that did something, and backs off by a factor after a quiet one.

What is slept should stay between the two bounds, should not shrink from one quiet iteration to
the next, and should be the baseline again after an active one (`Paces`). The upper bound is taken
on the way up only: `paces_iff` says that the law is broken exactly if an interval above it is
slept after an active iteration.

Numbers are rational here.
-/

open Framework

namespace CompareVI.CompareLoop

/-! ### The interval -/

structure Pace where
  adaptiveInterval : Bool
  intervalSeconds : ℚ
  minIntervalSeconds : ℚ
  maxIntervalSeconds : ℚ
  backoffFactor : ℚ
  /-- The seconds that `[int]` and `Start-Sleep` take at most. -/
  longest : ℤ

/-- `$currentInterval` before the loop. -/
def startInterval (p : Pace) : ℚ :=
  if p.adaptiveInterval ∧ p.intervalSeconds < p.minIntervalSeconds then p.minIntervalSeconds
  else p.intervalSeconds

/-- `$currentInterval` after an iteration. -/
def nextInterval (p : Pace) (active : Bool) (currentInterval : ℚ) : ℚ :=
  if active then max p.minIntervalSeconds p.intervalSeconds
  else min p.maxIntervalSeconds (⌈currentInterval * p.backoffFactor * 1000⌉ / 1000)

/-- A call of `Start-Sleep`. -/
inductive SleepCall where
  | seconds (n : ℤ)
  | milliseconds (n : ℤ)
deriving DecidableEq

/-- The calls that sleep an interval; none where `[int]` or `Start-Sleep` throws. -/
def sleepCalls (longest : ℤ) (interval : ℚ) : Option (List SleepCall) :=
  if 1 ≤ interval then
    let remainder := interval - ⌊interval⌋
    if longest < ⌊interval⌋ then none
    else if 0 < remainder then
      some [.seconds ⌊interval⌋, .milliseconds (roundHalfEven (remainder * 1000))]
    else some [.seconds ⌊interval⌋]
  else if 0 < interval then some [.milliseconds (roundHalfEven (interval * 1000))]
  else some []

/-! ### The loop with its sleeps -/

structure Sleep where
  active : Bool
  interval : ℚ
  calls : List SleepCall

/-- `$diff -or $status -eq 'ERROR' -or -not $skipReason`. -/
def Record.active (record : Record) : Bool :=
  record.diff || record.status = .error || record.skipReason.isNone

def LoopState.lastRecord? : LoopState → Option Record
  | .looping s | .stopped s => s.records.getLast?
  | .thrown => none

/-- The loop, its `$currentInterval` and what it slept so far. -/
structure PacedLoop where
  loop : LoopState
  currentInterval : ℚ
  slept : List Sleep

def PacedLoop.start (p : Pace) (reportPath : Option (Option String)) : PacedLoop :=
  ⟨.looping (.start reportPath), startInterval p, []⟩

def sleepAfter (p : Pace) (s : PacedLoop) (t : LoopState) (record : Record) : PacedLoop :=
  let current :=
    if p.adaptiveInterval then nextInterval p record.active s.currentInterval else s.currentInterval
  let interval := if p.adaptiveInterval then current else p.intervalSeconds
  match sleepCalls p.longest interval with
  | none => { s with loop := .thrown }
  | some calls => ⟨t, current, s.slept ++ [⟨record.active, interval, calls⟩]⟩

/-- An iteration and its sleep. `FailOnDiff` leaves the loop behind the sleep. -/
def pacedStep (env : LoopEnv) (params : LoopParams) (p : Pace) (s : PacedLoop) (o : Iteration) :
    Option PacedLoop :=
  (loopStep env params s.loop o).map fun t =>
    match t.lastRecord? with
    | none => { s with loop := t }
    | some record => if params.useEventDriven then { s with loop := t } else sleepAfter p s t record

/-! ### The law -/

def baseline (p : Pace) : ℚ :=
  min p.maxIntervalSeconds (max p.minIntervalSeconds p.intervalSeconds)

/-- Every interval slept is within the bounds, none is shorter than the one before a quiet
iteration, and it is the baseline after an active one. An interval that is not positive is not
slept. -/
structure Paces (p : Pace) (slept : List Sleep) : Prop where
  within : ∀ e ∈ slept, 0 < e.interval →
    p.minIntervalSeconds ≤ e.interval ∧ e.interval ≤ p.maxIntervalSeconds
  grows : slept.IsChain fun d e => e.active = false → 0 < d.interval → d.interval ≤ e.interval
  resets : ∀ e ∈ slept, e.active = true → 0 < e.interval → e.interval = baseline p

/-- An iteration after which an interval above the upper bound is slept is none. -/
def PaceSound (params : LoopParams) (p : Pace) (o : Iteration) : Prop :=
  p.intervalSeconds ≤ p.maxIntervalSeconds ∨ p.intervalSeconds ≤ 0 ∨
    (1 ≤ p.intervalSeconds ∧ p.longest < ⌊p.intervalSeconds⌋) ∨ (skipReason params o).isSome = true

/-! ### One iteration -/

section Runs

variable {env : LoopEnv} {params : LoopParams} {p : Pace} {o : Iteration}

/-- **The record** of an iteration is an active one exactly if the iteration was not skipped. Only
a skipped one is left without a record. -/
theorem lastRecord?_iterate (env : LoopEnv) (s : Loop) :
    (iterate env params s o = .thrown ∧ (skipReason params o).isSome = true) ∨
      ∃ record, (iterate env params s o).lastRecord? = some record ∧
        record.active = (skipReason params o).isNone := by
  have hfinish : ∀ (t : Loop) (diff : Bool),
      (finishIteration params t diff).lastRecord? = t.records.getLast? := by
    intro t diff
    rw [finishIteration]
    split_ifs
    · rfl
    · rfl
  rw [iterate]
  cases hskip : skipReason params o with
  | some reason =>
    cases s.reportPath with
    | none => exact .inl ⟨rfl, rfl⟩
    | some reportPath =>
      exact .inr ⟨_, (hfinish _ _).trans List.getLast?_concat, rfl⟩
  | none =>
    refine .inr ⟨_, (hfinish _ _).trans List.getLast?_concat, ?_⟩
    exact Bool.or_true _

/-- **What an iteration sleeps**: nothing where it throws or where the sleep does, and the next
interval otherwise. -/
theorem pacedStep_cases {s u : PacedLoop} (hadaptive : p.adaptiveInterval = true)
    (hpolling : params.useEventDriven = false) (h : pacedStep env params p s o = some u) :
    let active := (skipReason params o).isNone
    let interval := nextInterval p active s.currentInterval
    (u.loop = .thrown ∧ u.slept = s.slept ∧
        (active = true → sleepCalls p.longest interval = none)) ∨
      ∃ calls, sleepCalls p.longest interval = some calls ∧ u.currentInterval = interval ∧
        u.slept = s.slept ++ [⟨active, interval, calls⟩] := by
  intro active interval
  obtain ⟨t, ht, rfl⟩ := Option.map_eq_some_iff.mp h
  obtain ⟨loop, -, rfl⟩ := loopStep_cases ht
  rcases lastRecord?_iterate env loop with ⟨hthrown, hskipped⟩ | ⟨record, hrecord, hactive⟩
  · rw [hthrown]
    refine .inl ⟨rfl, rfl, fun hactive => ?_⟩
    rw [Option.isSome_iff_ne_none] at hskipped
    exact absurd (Option.isNone_iff_eq_none.mp hactive) hskipped
  · rw [hrecord]
    dsimp only
    rw [hpolling, if_neg Bool.false_ne_true, sleepAfter, hadaptive, if_pos rfl, if_pos rfl, hactive]
    cases hcalls : sleepCalls p.longest interval with
    | none => exact .inl ⟨rfl, rfl, fun _ => rfl⟩
    | some calls => exact .inr ⟨calls, rfl, rfl, rfl⟩

/-! ### The interval from one iteration to the next -/

section Next

variable {current : ℚ}

theorem le_backoff (hfactor : 1 ≤ p.backoffFactor) (hpos : 0 ≤ current) :
    current ≤ ⌈current * p.backoffFactor * 1000⌉ / 1000 := by
  have hceil := Int.le_ceil (current * p.backoffFactor * 1000)
  have hlonger : current ≤ current * p.backoffFactor := le_mul_of_one_le_right hpos hfactor
  rw [le_div_iff₀ (by norm_num)]
  linarith

theorem pos_of_nextInterval_pos (hfactor : 1 ≤ p.backoffFactor)
    (hpos : 0 < nextInterval p false current) : 0 < current := by
  have hceil : (0 : ℚ) < ⌈current * p.backoffFactor * 1000⌉ / 1000 :=
    (lt_min_iff.mp hpos).2
  have hscaled : 0 < ⌈current * p.backoffFactor * 1000⌉ := by
    have hcast := (div_pos_iff_of_pos_right (by norm_num : (0 : ℚ) < 1000)).mp hceil
    exact_mod_cast hcast
  have hproduct : 0 < current * p.backoffFactor * 1000 := Int.ceil_pos.mp hscaled
  exact pos_of_mul_pos_left (pos_of_mul_pos_left hproduct (by norm_num)) (by linarith)

theorem min_le_nextInterval (hbounds : p.minIntervalSeconds ≤ p.maxIntervalSeconds)
    (hfactor : 1 ≤ p.backoffFactor) {active : Bool}
    (hcurrent : 0 < current → p.minIntervalSeconds ≤ current)
    (hpos : 0 < nextInterval p active current) :
    p.minIntervalSeconds ≤ nextInterval p active current := by
  cases active with
  | true => exact le_max_left _ _
  | false =>
    have hbefore := pos_of_nextInterval_pos hfactor hpos
    exact le_min hbounds ((hcurrent hbefore).trans (le_backoff hfactor hbefore.le))

theorem nextInterval_active (hbounds : p.minIntervalSeconds ≤ p.maxIntervalSeconds)
    (hmax : p.intervalSeconds ≤ p.maxIntervalSeconds) :
    nextInterval p true current = baseline p := by
  exact (min_eq_right (max_le hbounds hmax)).symm

theorem nextInterval_above (hbounds : p.minIntervalSeconds ≤ p.maxIntervalSeconds)
    (hmax : p.maxIntervalSeconds < p.intervalSeconds) :
    nextInterval p true current = p.intervalSeconds :=
  max_eq_right (hbounds.trans hmax.le)

theorem sleepCalls_eq_none_iff {longest : ℤ} {interval : ℚ} :
    sleepCalls longest interval = none ↔ 1 ≤ interval ∧ longest < ⌊interval⌋ := by
  rw [sleepCalls]
  split_ifs with hlong hrange
  · exact iff_of_true rfl ⟨hlong, hrange⟩
  · dsimp only
    split_ifs
    · exact iff_of_false nofun fun h => hrange h.2
    · exact iff_of_false nofun fun h => hrange h.2
  · exact iff_of_false nofun fun h => hlong h.1
  · exact iff_of_false nofun fun h => hlong h.1

end Next

/-! ### The law along a run -/

/-- What the loop keeps as long as it is not left by an error: the interval is that of the last
sleep, and not below the lower bound where it is positive. -/
structure PacedLoop.Kept (p : Pace) (s : PacedLoop) : Prop where
  above : 0 < s.currentInterval → p.minIntervalSeconds ≤ s.currentInterval
  last : ∀ e ∈ s.slept.getLast?, e.interval = s.currentInterval

theorem kept_start (hadaptive : p.adaptiveInterval = true) (reportPath : Option (Option String)) :
    (PacedLoop.start p reportPath).Kept p := by
  refine ⟨fun _ => ?_, fun e he => nomatch he⟩
  change p.minIntervalSeconds ≤ startInterval p
  rw [startInterval]
  split_ifs with hbelow
  · exact le_rfl
  · exact not_lt.mp fun h => hbelow ⟨hadaptive, h⟩

theorem kept_step {s u : PacedLoop} (hadaptive : p.adaptiveInterval = true)
    (hpolling : params.useEventDriven = false)
    (hbounds : p.minIntervalSeconds ≤ p.maxIntervalSeconds) (hfactor : 1 ≤ p.backoffFactor)
    (hs : s.loop ≠ .thrown → s.Kept p) (h : pacedStep env params p s o = some u)
    (hgoes : u.loop ≠ .thrown) : u.Kept p := by
  obtain ⟨t, ht, -⟩ := Option.map_eq_some_iff.mp h
  obtain ⟨loop, hloop, -⟩ := loopStep_cases ht
  have hkept : s.Kept p := hs fun hthrown => by rw [hthrown] at hloop; cases hloop
  rcases pacedStep_cases hadaptive hpolling h with ⟨hthrown, -⟩ | ⟨calls, -, hcurrent, hslept⟩
  · exact absurd hthrown hgoes
  · constructor
    · intro hpos
      rw [hcurrent] at hpos ⊢
      exact min_le_nextInterval hbounds hfactor hkept.above hpos
    · intro e he
      rw [hslept, List.getLast?_concat, Option.mem_some_iff] at he
      rw [← he, hcurrent]

theorem paces_concat_iff {slept : List Sleep} {e : Sleep} :
    Paces p (slept ++ [e]) ↔ Paces p slept ∧
      (0 < e.interval → p.minIntervalSeconds ≤ e.interval ∧
        e.interval ≤ p.maxIntervalSeconds) ∧
      (∀ d ∈ slept.getLast?, e.active = false → 0 < d.interval → d.interval ≤ e.interval) ∧
      (e.active = true → 0 < e.interval → e.interval = baseline p) := by
  constructor
  · rintro ⟨hwithin, hgrows, hresets⟩
    obtain ⟨hchain, -, hlast⟩ := List.isChain_append.mp hgrows
    rw [List.forall_mem_append, List.forall_mem_singleton] at hwithin hresets
    exact ⟨⟨hwithin.1, hchain, hresets.1⟩, hwithin.2, fun d hd => hlast d hd e rfl, hresets.2⟩
  · rintro ⟨⟨hwithin, hgrows, hresets⟩, hbounds, hlast, hbaseline⟩
    refine ⟨?_, List.isChain_append.mpr ⟨hgrows, .singleton e, ?_⟩, ?_⟩
    · exact List.forall_mem_append.mpr ⟨hwithin, List.forall_mem_singleton.mpr hbounds⟩
    · intro d hd e' he'
      obtain rfl : e = e' := Option.some.inj he'
      exact hlast d hd
    · exact List.forall_mem_append.mpr ⟨hresets, List.forall_mem_singleton.mpr hbaseline⟩

section

variable (hadaptive : p.adaptiveInterval = true) (hpolling : params.useEventDriven = false)
  (hbounds : p.minIntervalSeconds ≤ p.maxIntervalSeconds) (hfactor : 1 ≤ p.backoffFactor)

include hadaptive hpolling hbounds hfactor

/-- **One iteration** keeps the law exactly if no interval above the upper bound is slept after
it. -/
theorem paces_step {s u : PacedLoop} (hs : s.loop ≠ .thrown → s.Kept p)
    (h : pacedStep env params p s o = some u) :
    Paces p u.slept ↔ Paces p s.slept ∧ PaceSound params p o := by
  obtain ⟨t, ht, -⟩ := Option.map_eq_some_iff.mp h
  obtain ⟨loop, hloop, -⟩ := loopStep_cases ht
  have hkept : s.Kept p := hs fun hthrown => by rw [hthrown] at hloop; cases hloop
  have hskipped : ∀ hnone : (skipReason params o).isNone = false, PaceSound params p o := by
    intro hnone
    refine .inr (.inr (.inr ?_))
    rw [← Option.not_isNone, hnone, Bool.not_false]
  rcases pacedStep_cases hadaptive hpolling h with
    ⟨-, hslept, hcalls⟩ | ⟨calls, hcalls, -, hslept⟩
  · rw [hslept]
    refine (and_iff_left ?_).symm
    cases hactive : (skipReason params o).isNone with
    | false => exact hskipped hactive
    | true =>
      by_cases hmax : p.intervalSeconds ≤ p.maxIntervalSeconds
      · exact .inl hmax
      · have hnone := hcalls hactive
        rw [hactive, nextInterval_above hbounds (not_le.mp hmax), sleepCalls_eq_none_iff] at hnone
        exact .inr (.inr (.inl hnone))
  · rw [hslept, paces_concat_iff]
    refine and_congr_right fun hpaces => ?_
    cases hactive : (skipReason params o).isNone with
    | false =>
      -- a quiet iteration: the bounds are met, and backing off does not shorten
      refine iff_of_true ⟨fun hpos => ?_, fun d hd _ hpos => ?_, nofun⟩ (hskipped hactive)
      · exact ⟨min_le_nextInterval hbounds hfactor hkept.above hpos, min_le_left _ _⟩
      · have hmem : d ∈ s.slept := List.mem_of_mem_getLast? hd
        have hcurrent := hkept.last d hd
        refine le_min (hpaces.within d hmem hpos).2 ?_
        rw [hcurrent] at hpos ⊢
        exact le_backoff hfactor hpos.le
    | true =>
      rw [hactive] at hcalls
      by_cases hmax : p.intervalSeconds ≤ p.maxIntervalSeconds
      · have hbaseline : nextInterval p true s.currentInterval = baseline p :=
          nextInterval_active hbounds hmax
        refine iff_of_true ⟨fun hpos => ?_, nofun, fun _ _ => hbaseline⟩ (.inl hmax)
        refine ⟨min_le_nextInterval hbounds hfactor hkept.above hpos, ?_⟩
        exact hbaseline.le.trans (min_le_left _ _)
      · rw [nextInterval_above hbounds (not_le.mp hmax)] at hcalls ⊢
        have hslept : ¬ (1 ≤ p.intervalSeconds ∧ p.longest < ⌊p.intervalSeconds⌋) := fun hlong => by
          rw [sleepCalls_eq_none_iff.mpr hlong] at hcalls
          cases hcalls
        constructor
        · rintro ⟨hwithin, -⟩
          exact .inr (.inl (not_lt.mp fun hpos => hmax (hwithin hpos).2))
        · rintro (hle | hneg | hlong | hskip)
          · exact absurd hle hmax
          · exact ⟨fun hpos => absurd hpos (not_lt.mpr hneg), nofun,
              fun _ hpos => absurd hpos (not_lt.mpr hneg)⟩
          · exact absurd hlong hslept
          · rw [← Option.not_isNone, hactive] at hskip
            cases hskip

/-- **The adaptive interval.** In a polling loop every interval slept is within the bounds, never
shorter than the one before a quiet iteration, and the baseline after an active one, exactly if no
iteration is active while the interval of the parameters is above the upper bound and can be
slept. -/
theorem paces_iff {os : List Iteration} {t : PacedLoop} {reportPath : Option (Option String)}
    (hrun : run (pacedStep env params p) (.start p reportPath) os = some t) :
    Paces p t.slept ↔ ∀ o ∈ os, PaceSound params p o := by
  have hstart : Paces p (PacedLoop.start p reportPath).slept :=
    ⟨fun e he => absurd he List.not_mem_nil, .nil, fun e he => absurd he List.not_mem_nil⟩
  have hkept := run_iff_guarded (I := fun s => s.loop ≠ .thrown → s.Kept p)
    (P := fun s => Paces p s.slept) (G := fun _ o => PaceSound params p o)
    (fun _ _ _ hs h => kept_step hadaptive hpolling hbounds hfactor hs h)
    (fun _ _ _ hs h => paces_step hadaptive hpolling hbounds hfactor hs h)
    (fun _ => kept_start hadaptive reportPath) hrun
  rw [hkept, and_iff_right hstart, guarded_iff_forall hrun]

end

end Runs

/-! ### Two loops -/

def longPace : Pace where
  adaptiveInterval := true
  intervalSeconds := 60
  minIntervalSeconds := 1
  maxIntervalSeconds := 30
  backoffFactor := 2
  longest := 2147483

/-- It is slept as it is. -/
theorem not_paces_longPace :
    ∃ t, run (pacedStep plainLoopEnv twoExecutions longPace) (.start longPace none)
        [executed 0] = some t ∧ ¬ Paces longPace t.slept := by
  have hstep : ∃ t, pacedStep plainLoopEnv twoExecutions longPace (.start longPace none)
      (executed 0) = some t := ⟨_, rfl⟩
  obtain ⟨t, ht⟩ := hstep
  refine ⟨t, (run_singleton _ _).trans ht, fun hpaces => ?_⟩
  have hsound : PaceSound twoExecutions longPace (executed 0) :=
    ((paces_step rfl rfl (by decide) (by decide) (fun _ => kept_start rfl none) ht).mp hpaces).2
  rcases hsound with hmax | hneg | ⟨-, hlong⟩ | hskipped
  · exact absurd hmax (by decide)
  · exact absurd hneg (by decide)
  · exact absurd hlong (by decide)
  · exact absurd hskipped (by decide)

def shortPace : Pace := { longPace with intervalSeconds := 5 }

/-- It is slept twice. -/
theorem paces_shortPace :
    ∃ t, run (pacedStep plainLoopEnv twoExecutions shortPace) (.start shortPace none)
        [executed 0, executed 1] = some t ∧ Paces shortPace t.slept := by
  have hsome : (run (pacedStep plainLoopEnv twoExecutions shortPace) (.start shortPace none)
      [executed 0, executed 1]).isSome = true := by decide +kernel
  obtain ⟨t, ht⟩ := Option.isSome_iff_exists.mp hsome
  refine ⟨t, ht, (paces_iff rfl rfl (by decide) (by decide) ht).mpr fun o _ => ?_⟩
  have hmax : shortPace.intervalSeconds ≤ shortPace.maxIntervalSeconds := by decide
  exact .inl hmax

end CompareVI.CompareLoop
