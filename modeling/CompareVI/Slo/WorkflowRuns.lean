import CompareVI.Framework.Comparison
import CompareVI.Slo.Remediation

/-!
# Workflow runs and the promotion gate

`summarizeWorkflowRuns` sorts the runs of a workflow by their creation and walks over them with a
small machine: a failure opens an incident, the next success closes it, and the time between the
two is measured by the updates of the runs. `evaluatePromotionGate` reads the summaries of all
workflows.

The incidents are the blocks of failures between the successes (`incidentsOf`). They are counted
through the list of measured times, so one that is closed before it began is not among them
(`FiguresLaw`); `incidentAccounting` says what the figures and the gate are.
-/

open Framework

namespace CompareVI.Slo

inductive RunOutcome where
  | success
  | skipped
  | ignored
  | failure
  deriving DecidableEq

def classifyConclusion (conclusion : String) : RunOutcome :=
  if conclusion = "success" then .success
  else if conclusion = "neutral" ∨ conclusion = "skipped" then .skipped
  else if conclusion = "" then .ignored
  else .failure

/-- A run as it is listed. What is missing is empty. -/
structure ListedRun where
  created_at : String
  createdAt : String
  updated_at : String
  updatedAt : String
  conclusion : String

def ListedRun.createdMs (env : SloEnv) (run : ListedRun) : Option ℤ :=
  env.dateParse (orText run.created_at run.createdAt)

def ListedRun.updatedMs (env : SloEnv) (run : ListedRun) : Option ℤ :=
  env.dateParse (orText (orText run.updated_at run.updatedAt) run.created_at)

structure RunEntry where
  createdMs : ℤ
  updatedMs : Option ℤ
  outcome : RunOutcome
  durationSeconds : Option ℚ

/-- The time by which an incident begins or ends with the run. -/
def RunEntry.timeMs (entry : RunEntry) : ℤ := entry.updatedMs.getD entry.createdMs

def normalizeRun (env : SloEnv) (run : ListedRun) : Option RunEntry :=
  (run.createdMs env).map fun createdMs =>
    { createdMs := createdMs
      updatedMs := run.updatedMs env
      outcome := classifyConclusion run.conclusion
      durationSeconds := (run.updatedMs env).bind fun updatedMs =>
        if createdMs ≤ updatedMs then some ((updatedMs - createdMs : ℤ) / 1000) else none }

/-- `considered`: the runs with a conclusion, in the order of their creation. -/
def consideredRuns (env : SloEnv) (runs : List ListedRun) : List RunEntry :=
  ((Comparison.ofKey RunEntry.createdMs).sort (runs.filterMap (normalizeRun env))).filter
    (·.outcome ≠ .ignored)

def percentile (values : List ℚ) (p : ℚ) : Option ℚ :=
  let sorted := (Comparison.ofKey id).sort values
  let last : ℤ := sorted.length - 1
  sorted[(max 0 (min last ⌊last * p⌋)).toNat]?

/-! ### The walk -/

structure IncidentState where
  incidentStartMs : Option ℤ
  incidentFailureCount : ℕ
  mttrDurations : List ℚ

def incidentStep (s : IncidentState) (entry : RunEntry) : IncidentState :=
  match entry.outcome, s.incidentStartMs with
  | .failure, none => { s with incidentStartMs := some entry.timeMs, incidentFailureCount := 1 }
  | .failure, some _ => { s with incidentFailureCount := s.incidentFailureCount + 1 }
  | .success, some start =>
    { incidentStartMs := none
      incidentFailureCount := 0
      mttrDurations :=
        if start ≤ entry.timeMs then s.mttrDurations ++ [((entry.timeMs - start : ℤ) / 1000 : ℚ)]
        else s.mttrDurations }
  | _, _ => s

def walkRuns (considered : List RunEntry) : IncidentState :=
  considered.foldl incidentStep ⟨none, 0, []⟩

structure RunTotals where
  totalRuns : ℕ
  observedRuns : ℕ
  successRuns : ℕ
  failedRuns : ℕ
  skippedRuns : ℕ
  gateRegressions : ℕ

structure RunMetrics where
  failureRate : ℚ
  skipRate : ℚ
  leadTimeP50Seconds : Option ℚ
  leadTimeP95Seconds : Option ℚ
  mttrSeconds : Option ℚ
  staleHours : Option ℚ
  unresolvedIncident : Bool
  unresolvedIncidentAgeSeconds : Option ℚ

structure IncidentTotals where
  total : ℕ
  resolved : ℕ
  unresolved : ℕ
  unresolvedFailureCount : ℕ
  unresolvedAgeSeconds : Option ℚ

structure RunsSummary where
  totals : RunTotals
  metrics : RunMetrics
  incidents : IncidentTotals

def withOutcome (outcome : RunOutcome) (considered : List RunEntry) : List RunEntry :=
  considered.filter (·.outcome = outcome)

/-- The successes, failures and skipped runs of a list. -/
def countRuns (considered : List RunEntry) : RunTotals where
  totalRuns := (considered.filter (·.outcome ≠ .skipped)).length
  observedRuns := considered.length
  successRuns := (withOutcome .success considered).length
  failedRuns := (withOutcome .failure considered).length
  skippedRuns := (withOutcome .skipped considered).length
  gateRegressions := (withOutcome .failure considered).length

/-- The hours since the last success, by its update. -/
def staleHours (considered : List RunEntry) (now : ℤ) : Option ℚ :=
  ((withOutcome .success considered).getLast?.bind (·.updatedMs)).map fun lastSuccessMs =>
    (now - lastSuccessMs : ℤ) / 3600000

def summarizeConsidered (considered : List RunEntry) (now : ℤ) : RunsSummary :=
  let totals := countRuns considered
  let walked := walkRuns considered
  let successDurations := (withOutcome .success considered).filterMap (·.durationSeconds)
  let unresolvedIncidentAgeSeconds := walked.incidentStartMs.bind fun start =>
    if start ≤ now then some (((now - start : ℤ) : ℚ) / 1000) else none
  let resolvedIncidentCount := walked.mttrDurations.length
  let unresolvedIncidentCount := if walked.incidentStartMs.isSome then 1 else 0
  { totals := totals
    metrics :=
      { failureRate :=
          if 0 < totals.totalRuns then (totals.failedRuns : ℚ) / totals.totalRuns else 0
        skipRate :=
          if 0 < totals.observedRuns then (totals.skippedRuns : ℚ) / totals.observedRuns else 0
        leadTimeP50Seconds := percentile successDurations (1 / 2)
        leadTimeP95Seconds := percentile successDurations (95 / 100)
        mttrSeconds := average walked.mttrDurations
        staleHours := staleHours considered now
        unresolvedIncident := walked.incidentStartMs.isSome
        unresolvedIncidentAgeSeconds := unresolvedIncidentAgeSeconds }
    incidents :=
      { total := resolvedIncidentCount + unresolvedIncidentCount
        resolved := resolvedIncidentCount
        unresolved := unresolvedIncidentCount
        unresolvedFailureCount :=
          if walked.incidentStartMs.isSome then walked.incidentFailureCount else 0
        unresolvedAgeSeconds := unresolvedIncidentAgeSeconds } }

def summarizeWorkflowRuns (env : SloEnv) (runs : List ListedRun) (now : ℤ) : RunsSummary :=
  summarizeConsidered (consideredRuns env runs) now

/-! ### The promotion gate -/

structure WorkflowSummary where
  workflow : String
  summary : RunsSummary

structure GateBlocker where
  code : String
  workflow : String
  message : String
  reason : Option String

structure PromotionGate where
  status : String
  blockerCount : ℕ
  blockers : List GateBlocker
  suppressedBlockerCount : ℕ
  suppressedBlockers : List GateBlocker
  candidateWorkflow : Option String

section Gate

variable (fixed : ℚ → String) (staleThreshold : ℚ) (candidateWorkflow : String)

/-- The blocker of an open incident. `fixed` is `toFixed(2)`. -/
def incidentBlocker (w : WorkflowSummary) : Option GateBlocker :=
  if w.summary.metrics.unresolvedIncident then
    some
      { code := "unresolved-incident"
        workflow := w.workflow
        message :=
          match w.summary.metrics.unresolvedIncidentAgeSeconds with
          | some seconds => w.workflow ++ " has an unresolved incident open for " ++
              fixed (seconds / 3600) ++ " hours"
          | none => w.workflow ++ " has an unresolved incident"
        reason := none }
  else none

def staleBlocker (w : WorkflowSummary) : Option GateBlocker :=
  (w.summary.metrics.staleHours.filter (staleThreshold < ·)).map fun hours =>
    { code := "stale-budget"
      workflow := w.workflow
      message := w.workflow ++ " staleHours " ++ fixed hours ++ " exceeds threshold " ++
        toString staleThreshold
      reason := none }

def isCandidate (workflow : String) : Bool :=
  candidateWorkflow ≠ "" && workflow = candidateWorkflow

def gateBlockers (workflowSummaries : List WorkflowSummary) : List GateBlocker :=
  workflowSummaries.flatMap fun w =>
    (if isCandidate candidateWorkflow w.workflow then [] else (incidentBlocker fixed w).toList) ++
      (staleBlocker fixed staleThreshold w).toList

def suppressedBlockers (workflowSummaries : List WorkflowSummary) : List GateBlocker :=
  (workflowSummaries.filter fun w => isCandidate candidateWorkflow w.workflow).flatMap fun w =>
    ((incidentBlocker fixed w).map ({ · with reason := some "candidate-workflow" })).toList

end Gate

/-- `evaluatePromotionGate`, with the option `candidateWorkflow` as a text or not. -/
def evaluatePromotionGate (fixed : ℚ → String) (workflowSummaries : List WorkflowSummary)
    (staleThreshold : ℚ) (candidate : Option String) : PromotionGate :=
  let candidateWorkflow := JsString.trim (candidate.getD "")
  let blockers := gateBlockers fixed staleThreshold candidateWorkflow workflowSummaries
  let suppressed := suppressedBlockers fixed candidateWorkflow workflowSummaries
  { status := if blockers.length > 0 then "fail" else "pass"
    blockerCount := blockers.length
    blockers := blockers
    suppressedBlockerCount := suppressed.length
    suppressedBlockers := suppressed
    candidateWorkflow := if candidateWorkflow = "" then none else some candidateWorkflow }

/-! ### Incidents -/

/-- A success, and the failures since the one before it. -/
structure RunBlock where
  failures : List RunEntry
  closing : Option RunEntry

def openBlock (entry : RunEntry) : List RunBlock → List RunBlock
  | [] => []
  | b :: bs => { b with failures := entry :: b.failures } :: bs

def blocksOf : List RunEntry → List RunBlock
  | [] => [⟨[], none⟩]
  | entry :: rest =>
    if entry.outcome = .success then ⟨[], some entry⟩ :: blocksOf rest
    else openBlock entry (blocksOf rest)

/-- The seconds from `start`, or else from the first failure, to the success. -/
def RunBlock.durationFrom (start : Option ℤ) (b : RunBlock) : Option ℚ :=
  (start.or (b.failures.head?.map RunEntry.timeMs)).bind fun start =>
    b.closing.map fun closing => ((closing.timeMs - start : ℤ) : ℚ) / 1000

abbrev RunBlock.duration (b : RunBlock) : Option ℚ := b.durationFrom none

def effectiveRuns (considered : List RunEntry) : List RunEntry :=
  considered.filter (·.outcome ≠ .skipped)

/-- **The incidents**: the blocks of failures between successes. -/
def incidentsOf (considered : List RunEntry) : List RunBlock :=
  (blocksOf (effectiveRuns considered)).filter (!·.failures.isEmpty)

/-- The last run is a failure. -/
def lastFails (xs : List RunEntry) : Bool := xs.getLast?.any (·.outcome = .failure)

/-- No success came yet. -/
def RunBlock.isOpen (b : RunBlock) : Bool := !b.failures.isEmpty && b.closing.isNone

/-- What the walk measures of the blocks, from a start that is there or not. -/
def measuredFrom (start : Option ℤ) : List RunBlock → List ℚ
  | [] => []
  | b :: bs => (b.durationFrom start).toList ++ bs.filterMap RunBlock.duration

section Walk

variable {entry : RunEntry} {xs considered : List RunEntry} {s : IncidentState}

/-- Successes and failures. -/
def Effective (xs : List RunEntry) : Prop :=
  ∀ entry ∈ xs, entry.outcome = .success ∨ entry.outcome = .failure

theorem blocksOf_ne_nil (xs : List RunEntry) : blocksOf xs ≠ [] := by
  induction xs with
  | nil => exact List.cons_ne_nil _ _
  | cons entry rest ih =>
    rw [blocksOf]
    split
    · exact List.cons_ne_nil _ _
    · obtain ⟨b, bs, hblocks⟩ := List.exists_cons_of_ne_nil ih
      rw [hblocks]
      exact List.cons_ne_nil _ _

theorem incidentStep_skipped (h : entry.outcome = .skipped) : incidentStep s entry = s := by
  rw [incidentStep, h]

theorem incidentStep_failure (h : entry.outcome = .failure) :
    (incidentStep s entry).incidentStartMs = s.incidentStartMs.or (some entry.timeMs) ∧
      (incidentStep s entry).mttrDurations = s.mttrDurations := by
  rw [incidentStep, h]
  cases hstart : s.incidentStartMs with
  | none => exact ⟨rfl, rfl⟩
  | some start => exact ⟨rfl, rfl⟩

theorem incidentStep_success (h : entry.outcome = .success) :
    (incidentStep s entry).incidentStartMs = none ∧
      (incidentStep s entry).mttrDurations = s.mttrDurations ++
        ((RunBlock.durationFrom s.incidentStartMs ⟨[], some entry⟩).toList.filter (0 ≤ ·)) := by
  rw [incidentStep, h]
  cases hstart : s.incidentStartMs with
  | none => exact ⟨hstart, (List.append_nil _).symm⟩
  | some start =>
    refine ⟨rfl, ?_⟩
    have hsign : (0 : ℚ) ≤ ((entry.timeMs - start : ℤ) : ℚ) / 1000 ↔ start ≤ entry.timeMs := by
      rw [le_div_iff₀ (by norm_num), zero_mul, Int.cast_nonneg_iff, sub_nonneg]
    change _ = s.mttrDurations ++ [((entry.timeMs - start : ℤ) : ℚ) / 1000].filter (0 ≤ ·)
    by_cases hle : start ≤ entry.timeMs
    · refine (if_pos hle).trans ?_
      rw [List.filter_cons, if_pos (decide_eq_true (hsign.mpr hle)), List.filter_nil]
    · refine (if_neg hle).trans ?_
      rw [List.filter_cons, if_neg (by simpa using mt hsign.mp hle), List.filter_nil,
        List.append_nil]

theorem walkRuns_eq :
    walkRuns considered = (effectiveRuns considered).foldl incidentStep ⟨none, 0, []⟩ := by
  rw [walkRuns, effectiveRuns, List.foldl_filter]
  congr 1
  funext s entry
  split
  · rfl
  · next hskipped =>
    exact incidentStep_skipped (by simpa using hskipped)

theorem measuredFrom_none (bs : List RunBlock) :
    measuredFrom none bs = bs.filterMap RunBlock.duration := by
  cases bs with
  | nil => rfl
  | cons b bs =>
    rw [measuredFrom, List.filterMap_cons, RunBlock.duration]
    cases b.durationFrom none with
    | none => rfl
    | some d => rfl

theorem mttrDurations_foldl (h : Effective xs) :
    (xs.foldl incidentStep s).mttrDurations =
      s.mttrDurations ++ (measuredFrom s.incidentStartMs (blocksOf xs)).filter (0 ≤ ·) := by
  induction xs generalizing s with
  | nil =>
    have hnone : RunBlock.durationFrom s.incidentStartMs ⟨[], none⟩ = none := by
      cases s.incidentStartMs <;> rfl
    rw [blocksOf, measuredFrom, hnone]
    exact (List.append_nil _).symm
  | cons entry rest ih =>
    obtain ⟨hentry, hrest⟩ := List.forall_mem_cons.mp h
    obtain ⟨b, bs, hblocks⟩ := List.exists_cons_of_ne_nil (blocksOf_ne_nil rest)
    rw [List.foldl_cons, ih hrest, blocksOf]
    rcases hentry with hsuccess | hfailure
    · -- the block ends here, and the next one begins without a start
      obtain ⟨hstart, hdurations⟩ := incidentStep_success (s := s) hsuccess
      rw [if_pos hsuccess, hstart, hdurations, measuredFrom_none, measuredFrom,
        List.filter_append, List.append_assoc]
    · obtain ⟨hstart, hdurations⟩ := incidentStep_failure (s := s) hfailure
      rw [if_neg (by rw [hfailure]; decide), hstart, hdurations, hblocks, openBlock, measuredFrom,
        measuredFrom]
      congr 3
      cases s.incidentStartMs <;> rfl

theorem isSome_start_foldl (h : Effective xs) :
    (xs.foldl incidentStep ⟨none, 0, []⟩).incidentStartMs.isSome = lastFails xs := by
  induction xs using List.reverseRecOn with
  | nil => rfl
  | append_singleton rest entry _ =>
    rw [List.foldl_append, List.foldl_cons, List.foldl_nil, lastFails, List.getLast?_concat]
    rcases h entry (List.mem_append_right _ List.mem_cons_self) with hsuccess | hfailure
    · rw [(incidentStep_success hsuccess).1]
      simp [hsuccess]
    · rw [(incidentStep_failure hfailure).1, Option.isSome_or]
      simp [hfailure]

theorem countP_openBlock (hne : xs ≠ []) :
    (openBlock entry (blocksOf xs)).countP RunBlock.isOpen =
      (blocksOf xs).countP RunBlock.isOpen := by
  obtain ⟨first, rest, rfl⟩ := List.exists_cons_of_ne_nil hne
  obtain ⟨b, bs, hblocks⟩ := List.exists_cons_of_ne_nil (blocksOf_ne_nil rest)
  rw [blocksOf]
  split
  · simp [openBlock, RunBlock.isOpen]
  · rw [hblocks]
    simp [openBlock, List.countP_cons, RunBlock.isOpen]

theorem countP_isOpen (h : Effective xs) :
    (blocksOf xs).countP RunBlock.isOpen = (lastFails xs).toNat := by
  induction xs with
  | nil => rfl
  | cons entry rest ih =>
    obtain ⟨hentry, hrest⟩ := List.forall_mem_cons.mp h
    by_cases hne : rest = []
    · subst hne
      rcases hentry with hsuccess | hfailure
      · simp [blocksOf, hsuccess, RunBlock.isOpen, lastFails]
      · simp [blocksOf, openBlock, hfailure, RunBlock.isOpen, lastFails]
    · have hlast : lastFails (entry :: rest) = lastFails rest := by
        obtain ⟨first, tail, rfl⟩ := List.exists_cons_of_ne_nil hne
        rw [lastFails, lastFails, List.getLast?_cons_cons]
      rw [hlast, ← ih hrest, blocksOf]
      split
      · simp [RunBlock.isOpen]
      · exact countP_openBlock hne

variable (bs : List RunBlock)

theorem length_filter_failures :
    (bs.filter (!·.failures.isEmpty)).length =
      (bs.filterMap RunBlock.duration).length + bs.countP RunBlock.isOpen := by
  induction bs with
  | nil => rfl
  | cons b bs ih =>
    obtain ⟨failures, closing⟩ := b
    rw [List.filter_cons, List.filterMap_cons, List.countP_cons]
    cases failures with
    | nil => simpa [RunBlock.durationFrom, RunBlock.isOpen] using ih
    | cons first failures =>
      have hkept : (!(RunBlock.mk (first :: failures) closing).failures.isEmpty) = true := rfl
      rw [if_pos hkept, List.length_cons, ih]
      cases closing with
      | none => exact Nat.add_assoc _ _ _
      | some closing => exact Nat.add_right_comm _ _ _

theorem filterMap_duration_failures :
    (bs.filter (!·.failures.isEmpty)).filterMap RunBlock.duration =
      bs.filterMap RunBlock.duration := by
  rw [List.filterMap_filter]
  congr 1
  funext b
  obtain ⟨failures, closing⟩ := b
  cases failures with
  | nil => rfl
  | cons first failures => rfl

end Walk

/-! ### The figures -/

section Figures

variable (env : SloEnv) (runs : List ListedRun) (now : ℤ)

theorem effective_effectiveRuns : Effective (effectiveRuns (consideredRuns env runs)) := by
  intro entry hentry
  obtain ⟨hconsidered, hskipped⟩ := List.mem_filter.mp hentry
  have hignored := (List.mem_filter.mp hconsidered).2
  cases houtcome : entry.outcome with
  | success => exact .inl rfl
  | failure => exact .inr rfl
  | skipped => simp [houtcome] at hskipped
  | ignored => simp [houtcome] at hignored

theorem mttrDurations_walkRuns :
    (walkRuns (consideredRuns env runs)).mttrDurations =
      ((incidentsOf (consideredRuns env runs)).filterMap RunBlock.duration).filter (0 ≤ ·) := by
  rw [walkRuns_eq, mttrDurations_foldl (effective_effectiveRuns env runs), measuredFrom_none,
    incidentsOf, filterMap_duration_failures]
  exact List.nil_append _

theorem isSome_start_walkRuns :
    (walkRuns (consideredRuns env runs)).incidentStartMs.isSome =
      lastFails (effectiveRuns (consideredRuns env runs)) := by
  rw [walkRuns_eq, isSome_start_foldl (effective_effectiveRuns env runs)]

/-- The times of creation tell the runs apart. -/
def DistinctTimes : Prop :=
  (∀ run ∈ runs, (run.createdMs env).isSome = true) ∧ (runs.map (ListedRun.createdMs env)).Nodup

theorem consideredRuns_eq_of_perm {runs' : List ListedRun} (hdistinct : DistinctTimes env runs)
    (hperm : runs.Perm runs') : consideredRuns env runs' = consideredRuns env runs := by
  rw [consideredRuns, consideredRuns]
  congr 1
  refine (Comparison.sort_eq_of_perm _ ?_ (hperm.filterMap _)).symm
  intro a ha b hb hties
  obtain ⟨run, hrun, hnormalized⟩ := List.mem_filterMap.mp ha
  obtain ⟨run', hrun', hnormalized'⟩ := List.mem_filterMap.mp hb
  obtain ⟨created, hcreated, rfl⟩ := Option.map_eq_some_iff.mp hnormalized
  obtain ⟨created', hcreated', rfl⟩ := Option.map_eq_some_iff.mp hnormalized'
  have hsame : created = created' := Comparison.ties_ofKey.mp hties
  subst hsame
  obtain rfl := List.inj_on_of_nodup_map hdistinct.2 hrun hrun' (hcreated.trans hcreated'.symm)
  rfl

theorem counts_add {considered : List RunEntry}
    (h : ∀ entry ∈ considered, entry.outcome ≠ .ignored) :
    (countRuns considered).successRuns + (countRuns considered).failedRuns +
      (countRuns considered).skippedRuns = (countRuns considered).observedRuns := by
  change (withOutcome .success considered).length + (withOutcome .failure considered).length +
    (withOutcome .skipped considered).length = considered.length
  induction considered with
  | nil => rfl
  | cons entry rest ih =>
    obtain ⟨hentry, hrest⟩ := List.forall_mem_cons.mp h
    have hsum := ih hrest
    simp only [withOutcome, List.filter_cons, List.length_cons] at hsum ⊢
    cases houtcome : entry.outcome with
    | ignored => exact absurd houtcome hentry
    | _ => simp; omega

/-- What the figures of a summary say of the runs. -/
structure FiguresLaw : Prop where
  order : DistinctTimes env runs → ∀ runs' : List ListedRun, runs.Perm runs' →
    summarizeWorkflowRuns env runs' now = summarizeWorkflowRuns env runs now
  /-- The blocks are counted, unless one ends before it begins. -/
  total : (∀ b ∈ incidentsOf (consideredRuns env runs), ∀ d, b.duration = some d → 0 ≤ d) →
    (summarizeWorkflowRuns env runs now).incidents.total =
      (incidentsOf (consideredRuns env runs)).length
  unresolved : (summarizeWorkflowRuns env runs now).incidents.unresolved =
    (lastFails (effectiveRuns (consideredRuns env runs))).toNat
  mttr : (summarizeWorkflowRuns env runs now).metrics.mttrSeconds = average
    (((incidentsOf (consideredRuns env runs)).filterMap RunBlock.duration).filter (0 ≤ ·))
  counts : (summarizeWorkflowRuns env runs now).totals.successRuns +
      (summarizeWorkflowRuns env runs now).totals.failedRuns +
      (summarizeWorkflowRuns env runs now).totals.skippedRuns =
    (summarizeWorkflowRuns env runs now).totals.observedRuns

theorem figuresLaw : FiguresLaw env runs now where
  order hdistinct runs' hperm := by
    rw [summarizeWorkflowRuns, summarizeWorkflowRuns,
      consideredRuns_eq_of_perm env runs hdistinct hperm]
  total hforward := by
    have hall : ((incidentsOf (consideredRuns env runs)).filterMap RunBlock.duration).filter
        (0 ≤ ·) = (incidentsOf (consideredRuns env runs)).filterMap RunBlock.duration := by
      rw [List.filter_eq_self]
      intro d hd
      obtain ⟨b, hb, hduration⟩ := List.mem_filterMap.mp hd
      exact decide_eq_true (hforward b hb d hduration)
    change (walkRuns (consideredRuns env runs)).mttrDurations.length +
      (if (walkRuns (consideredRuns env runs)).incidentStartMs.isSome then 1 else 0) = _
    rw [mttrDurations_walkRuns, hall, isSome_start_walkRuns, incidentsOf,
      filterMap_duration_failures, length_filter_failures,
      countP_isOpen (effective_effectiveRuns env runs)]
    cases lastFails (effectiveRuns (consideredRuns env runs)) <;> rfl
  unresolved := by
    change (if (walkRuns (consideredRuns env runs)).incidentStartMs.isSome then 1 else 0) = _
    rw [isSome_start_walkRuns]
    cases lastFails (effectiveRuns (consideredRuns env runs)) <;> rfl
  mttr := congrArg average (mttrDurations_walkRuns env runs)
  counts := by
    refine counts_add fun entry hentry => ?_
    simpa using (List.mem_filter.mp hentry).2

end Figures

/-! ### The gate -/

/-- A workflow with its runs. -/
structure Workflow where
  name : String
  runs : List ListedRun

def Workflow.summarize (env : SloEnv) (now : ℤ) (w : Workflow) : WorkflowSummary :=
  ⟨w.name, summarizeWorkflowRuns env w.runs now⟩

/-- The last success is longer ago than the threshold. -/
def Workflow.IsStale (env : SloEnv) (now : ℤ) (staleThreshold : ℚ) (w : Workflow) : Prop :=
  ∃ hours, staleHours (consideredRuns env w.runs) now = some hours ∧ staleThreshold < hours

/-- The workflow is not the one that is released, and has an open incident. -/
def Workflow.IsBlocked (env : SloEnv) (candidateWorkflow : String) (w : Workflow) : Prop :=
  isCandidate candidateWorkflow w.name = false ∧
    lastFails (effectiveRuns (consideredRuns env w.runs)) = true

/-- One of its successes is not longer ago than the threshold. -/
def Workflow.HasFreshSuccess (env : SloEnv) (now : ℤ) (staleThreshold : ℚ) (w : Workflow) : Prop :=
  ∃ entry ∈ withOutcome .success (consideredRuns env w.runs), ∃ updatedMs,
    entry.updatedMs = some updatedMs ∧ ((now - updatedMs : ℤ) : ℚ) / 3600000 ≤ staleThreshold

section GateLaw

variable (env : SloEnv) (now : ℤ) (fixed : ℚ → String) (workflows : List Workflow)
  (staleThreshold : ℚ) (candidate : Option String)

theorem gate_pass_iff :
    (evaluatePromotionGate fixed (workflows.map (Workflow.summarize env now)) staleThreshold
        candidate).status = "pass" ↔
      ∀ w ∈ workflows, ¬ w.IsBlocked env (JsString.trim (candidate.getD "")) ∧
        ¬ w.IsStale env now staleThreshold := by
  have hstatus : ∀ blockers : List GateBlocker,
      (if blockers.length > 0 then "fail" else "pass") = "pass" ↔ blockers = [] := by
    intro blockers
    cases blockers with
    | nil => exact ⟨fun _ => rfl, fun _ => rfl⟩
    | cons b bs => simp
  refine (hstatus _).trans ?_
  rw [gateBlockers, List.flatMap_eq_nil_iff, List.forall_mem_map]
  refine forall₂_congr fun w _ => ?_
  rw [List.append_eq_nil_iff]
  refine and_congr ?_ ?_
  · have hmetric : (w.summarize env now).summary.metrics.unresolvedIncident =
        lastFails (effectiveRuns (consideredRuns env w.runs)) := isSome_start_walkRuns env w.runs
    rw [Workflow.IsBlocked, incidentBlocker, hmetric]
    change (if isCandidate _ w.name = true then _ else _) = [] ↔ _
    cases isCandidate (JsString.trim (candidate.getD "")) w.name with
    | true => simp
    | false => cases lastFails (effectiveRuns (consideredRuns env w.runs)) <;> simp
  · rw [Option.toList_eq_nil_iff, staleBlocker, Option.map_eq_none_iff, Workflow.IsStale,
      Option.filter_eq_none_iff]
    change (∀ hours, staleHours (consideredRuns env w.runs) now = some hours → _) ↔ _
    simp

/-- **Incident accounting.** What the figures of each summary say of its runs, and when the gate
passes. -/
theorem incidentAccounting :
    (∀ w ∈ workflows, FiguresLaw env w.runs now) ∧
      ((evaluatePromotionGate fixed (workflows.map (Workflow.summarize env now)) staleThreshold
          candidate).status = "pass" ↔
        ∀ w ∈ workflows, ¬ w.IsBlocked env (JsString.trim (candidate.getD "")) ∧
          ¬ w.IsStale env now staleThreshold) :=
  ⟨fun w _ => figuresLaw env w.runs now,
    gate_pass_iff env now fixed workflows staleThreshold candidate⟩

end GateLaw

/-- A runtime that reads no times. -/
def timelessEnv : SloEnv := ⟨fun _ => none, fun _ => ""⟩

theorem not_incidentAccounting_unrun :
    ¬ ((evaluatePromotionGate (fun _ => "") [Workflow.summarize timelessEnv 0 ⟨"release.yml", []⟩]
          168 none).status = "pass" ↔
        ∀ w ∈ [(⟨"release.yml", []⟩ : Workflow)],
          ¬ w.IsBlocked timelessEnv "" ∧ w.HasFreshSuccess timelessEnv 0 168) := by
  intro hgate
  obtain ⟨-, entry, hentry, -⟩ := hgate.mp (by decide +kernel) _ List.mem_cons_self
  have hruns : consideredRuns timelessEnv [] = [] := by
    rw [consideredRuns, List.filterMap_nil, Comparison.sort, List.insertionSort_nil,
      List.filter_nil]
  rw [hruns] at hentry
  exact absurd hentry List.not_mem_nil


end CompareVI.Slo
