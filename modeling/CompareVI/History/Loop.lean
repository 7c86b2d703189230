import CompareVI.Framework.Loop
import CompareVI.Framework.PsString
import Mathlib.Algebra.BigOperators.Group.List.Basic
import Mathlib.Tactic.Ring

/-!
# The mode loop of the history walk

For each comparison mode, `Compare-VIHistory` walks the entries of its plan. An entry
with a head and a base is an attempt: the head may lack the target, the base may lack
it, the comparison may throw, or the pair is compared and classified. The loop keeps
eight counters and three lists, and leaves in five ways: the pair limit, a missing
head, a difference under `FailFast`, the signal budget, and an entry that is the last
of its plan.

What git and the comparison answer is an outcome for each index. The state carries the
attempts made so far; the script does not, and nothing reads them but the statements.

The proof has two parts. `Tallied` says that each counter and list is a function of the
attempts; every end of the body keeps it (`Tallied.of_visit`). `Running` is what holds
only as long as the loop goes on: no difference under `FailFast`, signals below the
budget, attempts below the limit. An exit loses it, but not before its own attempt, so
after the loop nothing stands behind the attempt that used something up
(`Stopped.of_running`).
-/

open Framework

namespace CompareVI.History

/-! ### Settings and plan -/

/-- The values of `NoisePolicy`. -/
inductive NoisePolicy where
  /-- `include`. -/
  | included
  | collapse
  | skip
  deriving DecidableEq, Repr

/-- The settings of a history walk. `maxPairs` is `none` where the parameter is not
bound. -/
structure HistorySettings where
  maxPairs : Option ℤ
  maxSignalPairs : ℤ
  noisePolicy : NoisePolicy
  failFast : Bool
  failOnDiff : Bool
  deriving DecidableEq, Repr

namespace HistorySettings

/-- `$maxPairsRequested`, with the limit. -/
def requestedPairs (cfg : HistorySettings) : Option ℤ := cfg.maxPairs.filter (0 < ·)

def maxSignalBudget (cfg : HistorySettings) : Option ℤ :=
  if 0 < cfg.maxSignalPairs then some cfg.maxSignalPairs else none

end HistorySettings

/-- The values of `stopReason`. -/
inductive StopReason where
  | maxPairs
  | missingHead
  | failFastDiff
  | maxSignal
  | error
  | reachedEndRef
  | reachedRoot
  | noPairs
  | complete
  deriving DecidableEq, Repr

structure Lineage where
  type : String
  parentIndex : ℕ
  parentCount : ℕ
  mergeCommit : String
  rootMerge : String
  branchHead : Option String
  depth : ℕ
  deriving DecidableEq, Repr

structure PlanEntry where
  head : Option String
  base : Option String
  lineage : Option Lineage
  stopAfter : Bool
  stopAfterReason : Option StopReason
  deriving DecidableEq, Repr

def PlanEntry.pair (entry : PlanEntry) : Option (String × String) :=
  if PsString.isNullOrWhiteSpace entry.head || PsString.isNullOrWhiteSpace entry.base then none
  else entry.head.bind fun head => entry.base.map fun base =>
    (PsString.trim head, PsString.trim base)

/-! ### Outcomes of a pair -/

/-- A category detail of a comparison summary; the loop reads its classification. -/
structure CategoryDetail where
  slug : Option String
  label : Option String
  classification : Option String
  deriving DecidableEq, Repr

/-- What a comparison reports: whether the pair differs, and the category details as
resolved from the summary, the report or the category names. -/
structure CompareSummary where
  diff : Bool
  exitCode : Option ℤ
  categoryDetails : List CategoryDetail
  deriving DecidableEq, Repr

inductive PairOutcome where
  | missingHead
  | missingBase
  | compared (summary : CompareSummary)
  | failed (message : String)
  deriving DecidableEq, Repr

/-- The values of `classification`. -/
inductive Classification where
  | same
  | unknown
  | signal
  | noise
  deriving DecidableEq, Repr

def CategoryDetail.normalized (detail : CategoryDetail) : Option String :=
  if PsString.isNullOrWhiteSpace detail.classification then none
  else detail.classification.map fun text => PsString.toLowerInvariant (PsString.trim text)

/-- `Get-ComparisonClassification`. One signal outweighs any noise; `same` is what the
script calls `match`. -/
def getComparisonClassification (details : List CategoryDetail) (hasDiff : Bool) :
    Classification :=
  if !hasDiff then .same
  else if details.any fun detail => detail.normalized = some "signal" then .signal
  else if details.any fun detail =>
      detail.normalized = some "noise" || detail.normalized = some "neutral" then .noise
  else .unknown

/-- An attempted pair, its index, its lineage and its outcome. -/
structure Attempt where
  index : ℕ
  head : String
  base : String
  lineage : Option Lineage
  outcome : PairOutcome
  deriving DecidableEq, Repr

namespace Attempt

def isDiff (a : Attempt) : Bool :=
  match a.outcome with
  | .compared summary => summary.diff
  | _ => false

def classification (a : Attempt) : Option Classification :=
  match a.outcome with
  | .compared summary =>
    some (getComparisonClassification summary.categoryDetails summary.diff)
  | _ => none

def isNoiseDiff (a : Attempt) : Bool := a.isDiff && a.classification = some .noise

def isSignalDiff (a : Attempt) : Bool := a.isDiff && a.classification ≠ some .noise

def isProcessed (a : Attempt) : Bool :=
  match a.outcome with
  | .compared _ | .missingBase => true
  | .missingHead | .failed _ => false

def isMissing (a : Attempt) : Bool := a.outcome = .missingHead || a.outcome = .missingBase

end Attempt

/-! ### The loop -/

/-- The `result` of a comparison record. -/
inductive PairResult where
  | missing (status : String) (message : String)
  | compared (diff : Bool) (exitCode : Option ℤ) (classification : Classification)
  | error (message : String)
  deriving DecidableEq, Repr

/-- A record of the `comparisons` list. -/
structure ComparisonRecord where
  index : ℕ
  head : String
  base : String
  lineage : Option Lineage
  result : PairResult
  deriving DecidableEq, Repr

/-- The variables of the mode loop, and the attempts made so far. -/
structure LoopState where
  processed : ℕ
  diffCount : ℕ
  signalDiffCount : ℕ
  missingCount : ℕ
  errorCount : ℕ
  lastDiffIndex : Option ℕ
  lastDiffCommit : Option String
  stopReason : Option StopReason
  noiseCollapsedCount : ℕ
  collapsedIndices : List ℕ
  collapsedCommits : List String
  comparisons : List ComparisonRecord
  attempted : List Attempt
  deriving DecidableEq, Repr

def LoopState.initial : LoopState where
  processed := 0
  diffCount := 0
  signalDiffCount := 0
  missingCount := 0
  errorCount := 0
  lastDiffIndex := none
  lastDiffCommit := none
  stopReason := none
  noiseCollapsedCount := 0
  collapsedIndices := []
  collapsedCommits := []
  comparisons := []
  attempted := []

/-- A mode that threw: the message, and the variables at the throw. -/
structure ModeFailure where
  message : String
  state : LoopState
  deriving DecidableEq

section Body

variable (cfg : HistorySettings) (targetRel : String)

/-- `stopReason` after an entry that ends its plan. -/
def PlanEntry.planStop (entry : PlanEntry) : StopReason :=
  entry.stopAfterReason.getD .reachedEndRef

def recordCompared (entry : PlanEntry) (index : ℕ) (head base : String)
    (summary : CompareSummary) (s : LoopState) : LoopState :=
  let classification := getComparisonClassification summary.categoryDetails summary.diff
  let collapsedThis :=
    summary.diff && classification = .noise && cfg.noisePolicy ≠ .included
  let isSignalDiff := summary.diff && classification ≠ .noise
  { s with
    signalDiffCount := if isSignalDiff then s.signalDiffCount + 1 else s.signalDiffCount
    noiseCollapsedCount :=
      if collapsedThis then s.noiseCollapsedCount + 1 else s.noiseCollapsedCount
    collapsedIndices :=
      if collapsedThis then s.collapsedIndices ++ [index] else s.collapsedIndices
    collapsedCommits :=
      if collapsedThis then s.collapsedCommits ++ [head] else s.collapsedCommits
    processed := s.processed + 1
    diffCount := if summary.diff then s.diffCount + 1 else s.diffCount
    lastDiffIndex := if summary.diff then some index else s.lastDiffIndex
    lastDiffCommit := if summary.diff then some head else s.lastDiffCommit
    -- the script appends the record before the fail-fast exit as well as after it
    comparisons :=
      if collapsedThis then s.comparisons
      else s.comparisons ++ [{
        index := index, head := head, base := base, lineage := entry.lineage
        result := .compared summary.diff summary.exitCode classification }] }

def visitCompared (entry : PlanEntry) (index : ℕ) (head base : String)
    (summary : CompareSummary) (s : LoopState) : Control ModeFailure LoopState :=
  let classification := getComparisonClassification summary.categoryDetails summary.diff
  let isSignalDiff := summary.diff && classification ≠ .noise
  let s := recordCompared cfg entry index head base summary s
  if summary.diff && cfg.failFast then
    .exit { s with stopReason := some .failFastDiff }
  else if s.stopReason.isNone && isSignalDiff &&
      cfg.maxSignalBudget.any (· ≤ (s.signalDiffCount : ℤ)) then
    .exit { s with stopReason := some .maxSignal }
  else if s.stopReason.isNone && entry.stopAfter then
    .exit { s with stopReason := some entry.planStop }
  else .next s

/-- The body for an attempted pair, given its outcome. -/
def visitPair (entry : PlanEntry) (index : ℕ) (head base : String) (s : LoopState) :
    PairOutcome → Control ModeFailure LoopState
  | .missingHead =>
    -- a missing head leaves the loop without counting the pair
    .exit { s with
      missingCount := s.missingCount + 1
      comparisons := s.comparisons ++ [{
        index := index, head := head, base := base, lineage := entry.lineage
        result := .missing "missing-head"
          ("Target '" ++ targetRel ++ "' not present at " ++ head) }]
      stopReason := some .missingHead }
  | .missingBase =>
    let s : LoopState := { s with
      missingCount := s.missingCount + 1
      processed := s.processed + 1
      comparisons := s.comparisons ++ [{
        index := index, head := head, base := base, lineage := entry.lineage
        result := .missing "missing-base"
          ("Target '" ++ targetRel ++ "' not present at " ++ base) }] }
    if entry.stopAfter then .exit { s with stopReason := some entry.planStop } else .next s
  | .compared summary => visitCompared cfg entry index head base summary s
  | .failed message =>
    .throw ⟨message, { s with
      comparisons := s.comparisons ++ [{
        index := index, head := head, base := base, lineage := entry.lineage
        result := .error message }]
      errorCount := s.errorCount + 1
      stopReason := some (s.stopReason.getD .error) }⟩

variable (outcome : ℕ → PairOutcome)

def visit (s : LoopState) (planEntry : Option PlanEntry) : Control ModeFailure LoopState :=
  match planEntry with
  | none => .next s
  | some entry =>
    match entry.pair with
    | none => .next s
    | some (head, base) =>
      let index := s.processed + 1
      if cfg.requestedPairs.any (· < (index : ℤ)) then
        .exit { s with stopReason := some .maxPairs }
      else
        visitPair cfg targetRel entry index head base
          { s with attempted := s.attempted ++ [⟨index, head, base, entry.lineage, outcome index⟩] }
          (outcome index)

end Body

/-- The `collapsedNoise` part of the statistics. -/
structure CollapsedNoise where
  count : ℕ
  indices : List ℕ
  commits : List String
  deriving DecidableEq, Repr

/-- The `stats` of a mode; the category tallies are left out. -/
structure ModeStats where
  processed : ℕ
  diffs : ℕ
  signalDiffs : ℕ
  noiseCollapsed : ℕ
  lastDiffIndex : Option ℕ
  lastDiffCommit : Option String
  stopReason : StopReason
  errors : ℕ
  missing : ℕ
  collapsedNoise : CollapsedNoise
  deriving DecidableEq, Repr

/-- The values of a mode's `status`. -/
inductive ModeStatus where
  | ok
  | failed
  deriving DecidableEq, Repr

/-- The manifest of a mode, and the attempts it was made from. -/
structure ModeManifest where
  comparisons : List ComparisonRecord
  stats : ModeStats
  status : ModeStatus
  attempted : List Attempt
  deriving DecidableEq, Repr

def finalStopReason (planTerminalHint : Option StopReason) (s : LoopState) : StopReason :=
  match s.stopReason with
  | some reason => reason
  | none =>
    if s.processed = 0 then .noPairs
    else if 0 < s.errorCount then .error
    else planTerminalHint.getD .complete

def finishMode (cfg : HistorySettings) (planTerminalHint : Option StopReason) (s : LoopState) :
    ModeManifest where
  comparisons := s.comparisons
  stats := {
    processed := s.processed
    diffs := s.diffCount
    signalDiffs := s.signalDiffCount
    noiseCollapsed := s.noiseCollapsedCount
    lastDiffIndex := s.lastDiffIndex
    lastDiffCommit := s.lastDiffCommit
    stopReason := finalStopReason planTerminalHint s
    errors := s.errorCount
    missing := s.missingCount
    collapsedNoise := {
      count := s.noiseCollapsedCount
      indices := s.collapsedIndices
      commits := s.collapsedCommits } }
  status :=
    if 0 < s.errorCount then .failed
    else if 0 < s.diffCount && cfg.failOnDiff then .failed
    else .ok
  attempted := s.attempted

section Modes

variable (cfg : HistorySettings) (targetRel : String) (planTerminalHint : Option StopReason)
  (plan : List (Option PlanEntry))

def runMode (outcome : ℕ → PairOutcome) : Except ModeFailure ModeManifest :=
  match forEach (visit cfg targetRel outcome) .initial plan with
  | .ok s => .ok (finishMode cfg planTerminalHint s)
  | .error e => .error e

structure SuiteTotals where
  processed : ℕ
  diffs : ℕ
  signalDiffs : ℕ
  noiseCollapsed : ℕ
  errors : ℕ
  missing : ℕ
  deriving DecidableEq, Repr

def SuiteTotals.add (totals : SuiteTotals) (stats : ModeStats) : SuiteTotals where
  processed := totals.processed + stats.processed
  diffs := totals.diffs + stats.diffs
  signalDiffs := totals.signalDiffs + stats.signalDiffs
  noiseCollapsed := totals.noiseCollapsed + stats.noiseCollapsed
  errors := totals.errors + stats.errors
  missing := totals.missing + stats.missing

structure Suite where
  modes : List ModeManifest
  totals : SuiteTotals
  deriving DecidableEq

def visitMode (suite : Suite) (outcome : ℕ → PairOutcome) : Control ModeFailure Suite :=
  match runMode cfg targetRel planTerminalHint plan outcome with
  | .ok mode => .next ⟨suite.modes ++ [mode], suite.totals.add mode.stats⟩
  | .error e => .throw e

def runSuite (outcomes : List (ℕ → PairOutcome)) : Except ModeFailure Suite :=
  forEach (visitMode cfg targetRel planTerminalHint plan) ⟨[], ⟨0, 0, 0, 0, 0, 0⟩⟩ outcomes

end Modes

/-! ### Accounting -/

namespace Attempt

def pair (a : Attempt) : String × String := (a.head, a.base)

def isCollapsed (cfg : HistorySettings) (a : Attempt) : Bool :=
  a.isNoiseDiff && cfg.noisePolicy ≠ .included

end Attempt

def collapsedAttempts (cfg : HistorySettings) (attempted : List Attempt) : List Attempt :=
  attempted.filter (·.isCollapsed cfg)

def planPairs (plan : List (Option PlanEntry)) : List (String × String) :=
  plan.filterMap fun entry => entry.bind PlanEntry.pair

theorem planPairs_cons_none {planEntry : Option PlanEntry} {plan : List (Option PlanEntry)}
    (h : planEntry.bind PlanEntry.pair = none) : planPairs (planEntry :: plan) = planPairs plan :=
  List.filterMap_cons_none h

theorem planPairs_cons_some {entry : PlanEntry} {pair : String × String}
    {plan : List (Option PlanEntry)} (h : entry.pair = some pair) :
    planPairs (some entry :: plan) = pair :: planPairs plan :=
  List.filterMap_cons_some h

/-- The books of a mode that did not throw. -/
structure Accounting (cfg : HistorySettings) (plan : List (Option PlanEntry))
    (outcome : ℕ → PairOutcome) (m : ModeManifest) : Prop where
  /-- The attempts are the first pairs of the plan. -/
  attempted : m.attempted.map Attempt.pair <+: planPairs plan
  outcomes : ∀ a ∈ m.attempted, a.outcome = outcome a.index
  processed : m.stats.processed = m.attempted.countP Attempt.isProcessed
  processed_le : ∀ n, cfg.requestedPairs = some n → (m.stats.processed : ℤ) ≤ n
  diffs : m.stats.diffs = m.stats.signalDiffs + m.attempted.countP Attempt.isNoiseDiff
  signalDiffs : m.stats.signalDiffs = m.attempted.countP Attempt.isSignalDiff
  missing : m.stats.missing = m.attempted.countP Attempt.isMissing
  errors : m.stats.errors = 0
  /-- What is collapsed: all noise, or nothing if the policy includes it. -/
  noiseCollapsed : m.stats.noiseCollapsed =
    if cfg.noisePolicy = .included then 0 else m.attempted.countP Attempt.isNoiseDiff
  collapsedCount : m.stats.collapsedNoise.count = m.stats.noiseCollapsed
  collapsedIndices : m.stats.collapsedNoise.indices.length = m.stats.noiseCollapsed ∧
    m.stats.collapsedNoise.indices = (collapsedAttempts cfg m.attempted).map (·.index)
  collapsedCommits : m.stats.collapsedNoise.commits.length = m.stats.noiseCollapsed ∧
    m.stats.collapsedNoise.commits = (collapsedAttempts cfg m.attempted).map (·.head)
  /-- Every attempt but the collapsed ones has its record, once and in order. -/
  comparisons : m.comparisons.map (fun r => (r.index, r.head, r.base)) =
    (m.attempted.filter fun a => !a.isCollapsed cfg).map fun a => (a.index, a.head, a.base)
  increasing : m.comparisons.Pairwise fun r r' => r.index < r'.index
  signal_le : ∀ b, cfg.maxSignalBudget = some b → (m.stats.signalDiffs : ℤ) ≤ b
  failFast : cfg.failFast = true → ∀ pre a post, m.attempted = pre ++ a :: post →
    a.isDiff = true → post = []
  signalBudget : ∀ b, cfg.maxSignalBudget = some b → ∀ pre post, m.attempted = pre ++ post →
    b ≤ (pre.countP Attempt.isSignalDiff : ℤ) → post = []
  lastDiffIndex : m.stats.lastDiffIndex =
    (m.attempted.filter Attempt.isDiff).getLast?.map (·.index)

/-- The totals are the sums over the modes. -/
structure TotalsAreSums (suite : Suite) : Prop where
  processed : suite.totals.processed = (suite.modes.map (·.stats.processed)).sum
  diffs : suite.totals.diffs = (suite.modes.map (·.stats.diffs)).sum
  signalDiffs : suite.totals.signalDiffs = (suite.modes.map (·.stats.signalDiffs)).sum
  noiseCollapsed : suite.totals.noiseCollapsed = (suite.modes.map (·.stats.noiseCollapsed)).sum
  errors : suite.totals.errors = (suite.modes.map (·.stats.errors)).sum
  missing : suite.totals.missing = (suite.modes.map (·.stats.missing)).sum

/-! ### What one entry does -/

/-- The variables after the attempt `a`. -/
structure Records (cfg : HistorySettings) (s t : LoopState) (a : Attempt) : Prop where
  attempted : t.attempted = s.attempted ++ [a]
  processed : t.processed = s.processed + if a.isProcessed then 1 else 0
  diffCount : t.diffCount = s.diffCount + if a.isDiff then 1 else 0
  signalDiffCount : t.signalDiffCount = s.signalDiffCount + if a.isSignalDiff then 1 else 0
  missingCount : t.missingCount = s.missingCount + if a.isMissing then 1 else 0
  errorCount : t.errorCount = s.errorCount
  lastDiffIndex : t.lastDiffIndex = if a.isDiff then some a.index else s.lastDiffIndex
  noiseCollapsedCount :
    t.noiseCollapsedCount = s.noiseCollapsedCount + if a.isCollapsed cfg then 1 else 0
  collapsedIndices : t.collapsedIndices =
    s.collapsedIndices ++ if a.isCollapsed cfg then [a.index] else []
  collapsedCommits : t.collapsedCommits =
    s.collapsedCommits ++ if a.isCollapsed cfg then [a.head] else []
  comparisons : t.comparisons.map (fun r => (r.index, r.head, r.base)) =
    s.comparisons.map (fun r => (r.index, r.head, r.base)) ++
      if a.isCollapsed cfg then [] else [(a.index, a.head, a.base)]

/-- The loop goes on after the attempt `a`. -/
structure GoesOn (cfg : HistorySettings) (entry : PlanEntry) (s t : LoopState) (a : Attempt) :
    Prop where
  stopReason : t.stopReason = s.stopReason
  stopAfter : entry.stopAfter = false
  processed : a.isProcessed = true
  failFast : cfg.failFast = true → a.isDiff = false
  signalBudget : ∀ b, cfg.maxSignalBudget = some b → a.isSignalDiff = true →
    (t.signalDiffCount : ℤ) < b

def StopReason.isOther (reason : StopReason) : Bool :=
  reason = .missingHead || reason = .failFastDiff || reason = .maxSignal

section Step

variable {cfg : HistorySettings} {targetRel : String} {outcome : ℕ → PairOutcome}
  {entry : PlanEntry} {s t : LoopState} {index : ℕ} {head base : String}

variable {a : Attempt}

variable {summary : CompareSummary}

theorem records_recordCompared {reason : Option StopReason}
    (ha : a = ⟨index, head, base, entry.lineage, .compared summary⟩) :
    Records cfg s
      { recordCompared cfg entry index head base summary
          { s with attempted := s.attempted ++ [a] } with stopReason := reason } a := by
  subst ha
  have hsignal : Attempt.isSignalDiff ⟨index, head, base, entry.lineage, .compared summary⟩ =
      (summary.diff && decide (getComparisonClassification summary.categoryDetails summary.diff
        ≠ .noise)) := by
    simp [Attempt.isSignalDiff, Attempt.isDiff, Attempt.classification]
  have hcollapsed : Attempt.isCollapsed cfg ⟨index, head, base, entry.lineage, .compared summary⟩ =
      (summary.diff && decide (getComparisonClassification summary.categoryDetails summary.diff
        = .noise) && decide (cfg.noisePolicy ≠ .included)) := by
    simp [Attempt.isCollapsed, Attempt.isNoiseDiff, Attempt.isDiff, Attempt.classification]
  constructor
  case attempted => rfl
  case processed => rfl
  case errorCount => rfl
  case missingCount => rfl
  case diffCount =>
    change (if summary.diff then _ else _) = _ + if summary.diff then 1 else 0
    split <;> rfl
  case lastDiffIndex => rfl
  case signalDiffCount =>
    rw [hsignal]
    change (if _ then _ else _) = _
    split <;> rfl
  case noiseCollapsedCount =>
    rw [hcollapsed]
    change (if _ then _ else _) = _
    split <;> rfl
  case collapsedIndices =>
    rw [hcollapsed]
    change (if _ then _ else _) = _
    split <;> simp
  case collapsedCommits =>
    rw [hcollapsed]
    change (if _ then _ else _) = _
    split <;> simp
  case comparisons =>
    rw [hcollapsed]
    change List.map _ (if _ then _ else _) = _
    split <;> simp

/-- How the body ends for an attempt that did not throw. -/
def Ends (cfg : HistorySettings) (entry : PlanEntry) (s : LoopState) (a : Attempt)
    (c : Control ModeFailure LoopState) : Prop :=
  ∃ t, Records cfg s t a ∧
    (c = .next t ∧ GoesOn cfg entry s t a ∨
      c = .exit t ∧ ∃ reason, t.stopReason = some reason ∧
        (reason.isOther = true ∨ entry.stopAfter = true ∧ reason = entry.planStop))

theorem ends_visitCompared (ha : a = ⟨index, head, base, entry.lineage, .compared summary⟩)
    (hs : s.stopReason = none) :
    Ends cfg entry s a
      (visitCompared cfg entry index head base summary
        { s with attempted := s.attempted ++ [a] }) := by
  -- the variables after the attempt; only the stop reason is still to come
  obtain ⟨u, hu⟩ : ∃ u, u = recordCompared cfg entry index head base summary
      { s with attempted := s.attempted ++ [a] } := ⟨_, rfl⟩
  have hrec : ∀ reason, Records cfg s { u with stopReason := reason } a := fun reason =>
    hu ▸ records_recordCompared ha
  have hreason : u.stopReason = none := by
    rw [hu]
    exact hs
  have hdiff : a.isDiff = summary.diff := by rw [ha]; rfl
  have hsignal : a.isSignalDiff = (summary.diff && decide
      (getComparisonClassification summary.categoryDetails summary.diff ≠ .noise)) := by
    rw [ha]
    simp [Attempt.isSignalDiff, Attempt.isDiff, Attempt.classification]
  rw [visitCompared, ← hu, hreason, Option.isNone_none, Bool.true_and, Bool.true_and, ← hsignal,
    ← hdiff]
  split
  · exact ⟨_, hrec _, .inr ⟨rfl, _, rfl, .inl rfl⟩⟩
  · next hfail =>
    split
    · exact ⟨_, hrec _, .inr ⟨rfl, _, rfl, .inl rfl⟩⟩
    · next hbudget =>
      split
      · next hstop => exact ⟨_, hrec _, .inr ⟨rfl, _, rfl, .inr ⟨hstop, rfl⟩⟩⟩
      · next hstop =>
        refine ⟨u, hrec u.stopReason, .inl ⟨rfl, ?_⟩⟩
        refine ⟨hreason.trans hs.symm, Bool.eq_false_iff.mpr hstop, by rw [ha]; rfl, ?_, ?_⟩
        · intro hff
          rw [hff, Bool.and_true] at hfail
          exact Bool.eq_false_iff.mpr hfail
        · intro b hb hsig
          rw [hsig, hb, Bool.true_and, Option.any_some, decide_eq_true_eq] at hbudget
          exact not_le.mp hbudget

/-- **What an attempt does.** It throws, or records itself and goes on or leaves. -/
theorem ends_visitPair (ha : a = ⟨index, head, base, entry.lineage, outcome index⟩)
    (hs : s.stopReason = none) :
    (∃ e, visitPair cfg targetRel entry index head base
        { s with attempted := s.attempted ++ [a] } (outcome index) = .throw e) ∨
      Ends cfg entry s a
        (visitPair cfg targetRel entry index head base
          { s with attempted := s.attempted ++ [a] } (outcome index)) := by
  cases ho : outcome index with
  | missingHead =>
    rw [ho] at ha
    refine .inr ⟨_, ?_, .inr ⟨rfl, .missingHead, rfl, .inl rfl⟩⟩
    subst ha
    constructor <;> simp [Attempt.isProcessed, Attempt.isDiff, Attempt.isSignalDiff,
      Attempt.isMissing, Attempt.isCollapsed, Attempt.isNoiseDiff]
  | missingBase =>
    rw [ho] at ha
    -- whether or not the entry ends the plan, the variables are the same
    have hrec : ∀ reason, Records cfg s { s with
        attempted := s.attempted ++ [a]
        missingCount := s.missingCount + 1
        processed := s.processed + 1
        comparisons := s.comparisons ++ [{
          index := index, head := head, base := base, lineage := entry.lineage
          result := .missing "missing-base"
            ("Target '" ++ targetRel ++ "' not present at " ++ base) }]
        stopReason := reason } a := by
      intro reason
      subst ha
      constructor <;> simp [Attempt.isProcessed, Attempt.isDiff, Attempt.isSignalDiff,
        Attempt.isMissing, Attempt.isCollapsed, Attempt.isNoiseDiff]
    rw [visitPair]
    split
    · next hstop => exact .inr ⟨_, hrec _, .inr ⟨rfl, _, rfl, .inr ⟨hstop, rfl⟩⟩⟩
    · next hstop =>
      refine .inr ⟨_, hrec _, .inl ⟨rfl, rfl, Bool.eq_false_iff.mpr hstop, ?_, ?_, ?_⟩⟩
      · rw [ha]; rfl
      · intro _
        rw [ha]; rfl
      · intro b _ hsig
        rw [ha] at hsig
        cases hsig
  | compared summary =>
    rw [ho] at ha
    exact .inr (ends_visitCompared ha hs)
  | failed message => exact .inl ⟨_, rfl⟩

def nextAttempt (outcome : ℕ → PairOutcome) (s : LoopState) (entry : PlanEntry)
    (pair : String × String) : Attempt :=
  ⟨s.processed + 1, pair.1, pair.2, entry.lineage, outcome (s.processed + 1)⟩

/-- **What one entry does.** It is skipped, it meets the pair limit, it throws, or it is
attempted. -/
theorem visit_cases (cfg : HistorySettings) (targetRel : String) (outcome : ℕ → PairOutcome)
    (hs : s.stopReason = none) (planEntry : Option PlanEntry) :
    (planEntry.bind PlanEntry.pair = none ∧
      visit cfg targetRel outcome s planEntry = .next s) ∨
    (visit cfg targetRel outcome s planEntry =
      .exit { s with stopReason := some .maxPairs } ∧ cfg.requestedPairs ≠ none) ∨
    (∃ e, visit cfg targetRel outcome s planEntry = .throw e) ∨
    ∃ entry pair, planEntry = some entry ∧ entry.pair = some pair ∧
      (∀ n, cfg.requestedPairs = some n → (s.processed + 1 : ℤ) ≤ n) ∧
      Ends cfg entry s (nextAttempt outcome s entry pair)
        (visit cfg targetRel outcome s planEntry) := by
  cases planEntry with
  | none => exact .inl ⟨rfl, rfl⟩
  | some entry =>
    rw [Option.bind_some, visit]
    cases hpair : entry.pair with
    | none => exact .inl ⟨rfl, rfl⟩
    | some pair =>
      dsimp only
      split
      · next hlimit =>
        refine .inr (.inl ⟨rfl, fun hnone => ?_⟩)
        rw [hnone] at hlimit
        cases hlimit
      · next hlimit =>
        refine .inr (.inr ((ends_visitPair rfl hs).imp_right fun hends => ?_))
        refine ⟨entry, pair, rfl, hpair, fun n hn => ?_, hends⟩
        rw [hn, Option.any_some, decide_eq_true_eq] at hlimit
        push_cast at hlimit
        exact not_lt.mp hlimit

/-! ### The invariants -/

/-- The counters and lists are functions of the attempts. -/
structure Tallied (cfg : HistorySettings) (s : LoopState) : Prop where
  processed : s.processed = s.attempted.countP Attempt.isProcessed
  diffCount : s.diffCount = s.attempted.countP Attempt.isDiff
  signalDiffCount : s.signalDiffCount = s.attempted.countP Attempt.isSignalDiff
  missingCount : s.missingCount = s.attempted.countP Attempt.isMissing
  errorCount : s.errorCount = 0
  lastDiffIndex : s.lastDiffIndex = (s.attempted.filter Attempt.isDiff).getLast?.map (·.index)
  noiseCollapsedCount : s.noiseCollapsedCount = s.attempted.countP (·.isCollapsed cfg)
  collapsedIndices : s.collapsedIndices = (collapsedAttempts cfg s.attempted).map (·.index)
  collapsedCommits : s.collapsedCommits = (collapsedAttempts cfg s.attempted).map (·.head)
  comparisons : s.comparisons.map (fun r => (r.index, r.head, r.base)) =
    (s.attempted.filter fun a => !a.isCollapsed cfg).map fun a => (a.index, a.head, a.base)
  index : s.attempted.map (·.index) = List.range' 1 s.attempted.length

/-- What holds while the loop goes on. -/
structure Running (cfg : HistorySettings) (s : LoopState) : Prop where
  stopReason : s.stopReason = none
  processed : s.processed = s.attempted.length
  processed_le : ∀ n, cfg.requestedPairs = some n → (s.processed : ℤ) ≤ n
  failFast : cfg.failFast = true → ∀ a ∈ s.attempted, a.isDiff = false
  signal_lt : ∀ b, cfg.maxSignalBudget = some b →
    (s.attempted.countP Attempt.isSignalDiff : ℤ) < b

/-- What holds after the loop. -/
structure Stopped (cfg : HistorySettings) (s : LoopState) : Prop where
  processed_le : ∀ n, cfg.requestedPairs = some n → (s.processed : ℤ) ≤ n
  signal_le : ∀ b, cfg.maxSignalBudget = some b →
    (s.attempted.countP Attempt.isSignalDiff : ℤ) ≤ b
  failFast : cfg.failFast = true → ∀ pre a post, s.attempted = pre ++ a :: post →
    a.isDiff = true → post = []
  signalBudget : ∀ b, cfg.maxSignalBudget = some b → ∀ pre post, s.attempted = pre ++ post →
    b ≤ (pre.countP Attempt.isSignalDiff : ℤ) → post = []

theorem Tallied.initial : Tallied cfg .initial := by
  constructor <;> rfl

theorem Running.initial : Running cfg .initial where
  stopReason := rfl
  processed := rfl
  processed_le := by
    intro n hn
    have hpos := (Option.filter_eq_some_iff.mp hn).2
    exact (of_decide_eq_true hpos).le
  failFast := fun _ _ h => nomatch h
  signal_lt := by
    intro b hb
    rw [HistorySettings.maxSignalBudget] at hb
    split at hb
    · next hpos =>
      obtain rfl := Option.some.inj hb
      exact hpos
    · cases hb

theorem Tallied.stop (h : Tallied cfg s) (reason : Option StopReason) :
    Tallied cfg { s with stopReason := reason } where
  processed := h.processed
  diffCount := h.diffCount
  signalDiffCount := h.signalDiffCount
  missingCount := h.missingCount
  errorCount := h.errorCount
  lastDiffIndex := h.lastDiffIndex
  noiseCollapsedCount := h.noiseCollapsedCount
  collapsedIndices := h.collapsedIndices
  collapsedCommits := h.collapsedCommits
  comparisons := h.comparisons
  index := h.index

/-- **The tally step.** An attempt under the next index keeps the tally, whatever its
outcome and whether or not the loop goes on. -/
theorem Tallied.records (h : Tallied cfg s) (ha : a.index = s.attempted.length + 1)
    (hrec : Records cfg s t a) : Tallied cfg t := by
  have hcount : ∀ p : Attempt → Bool,
      (s.attempted ++ [a]).countP p = s.attempted.countP p + if p a then 1 else 0 := by
    intro p
    rw [List.countP_append, List.countP_singleton]
  have hfilter : ∀ p : Attempt → Bool,
      (s.attempted ++ [a]).filter p = s.attempted.filter p ++ if p a then [a] else [] := by
    intro p
    rw [List.filter_append, List.filter_singleton]
    cases p a <;> rfl
  refine ⟨?_, ?_, ?_, ?_, ?_, ?_, ?_, ?_, ?_, ?_, ?_⟩
  · rw [hrec.attempted, hcount, hrec.processed, h.processed]
  · rw [hrec.attempted, hcount, hrec.diffCount, h.diffCount]
  · rw [hrec.attempted, hcount, hrec.signalDiffCount, h.signalDiffCount]
  · rw [hrec.attempted, hcount, hrec.missingCount, h.missingCount]
  · rw [hrec.errorCount, h.errorCount]
  · rw [hrec.attempted, hfilter, hrec.lastDiffIndex, h.lastDiffIndex]
    cases a.isDiff <;> simp
  · rw [hrec.attempted, hcount, hrec.noiseCollapsedCount, h.noiseCollapsedCount]
  · rw [hrec.attempted, collapsedAttempts, hfilter, hrec.collapsedIndices, h.collapsedIndices,
      collapsedAttempts]
    cases a.isCollapsed cfg <;> simp
  · rw [hrec.attempted, collapsedAttempts, hfilter, hrec.collapsedCommits, h.collapsedCommits,
      collapsedAttempts]
    cases a.isCollapsed cfg <;> simp
  · rw [hrec.attempted, hfilter, hrec.comparisons, h.comparisons]
    cases a.isCollapsed cfg <;> simp
  · rw [hrec.attempted, List.map_append, h.index, List.length_append, List.length_singleton,
      List.range'_concat, List.map_singleton, ha, Nat.one_mul, Nat.add_comm]

theorem Running.goesOn (h : Running cfg s) (htally : Tallied cfg t)
    (hlimit : ∀ n, cfg.requestedPairs = some n → (s.processed + 1 : ℤ) ≤ n)
    (hrec : Records cfg s t a) (hgoes : GoesOn cfg entry s t a) : Running cfg t where
  stopReason := hgoes.stopReason.trans h.stopReason
  processed := by
    rw [hrec.processed, hgoes.processed, if_pos rfl, h.processed, hrec.attempted,
      List.length_append, List.length_singleton]
  processed_le := by
    intro n hn
    rw [hrec.processed, hgoes.processed, if_pos rfl]
    exact_mod_cast hlimit n hn
  failFast := by
    intro hff x hx
    rw [hrec.attempted, List.mem_append, List.mem_singleton] at hx
    rcases hx with hx | rfl
    · exact h.failFast hff x hx
    · exact hgoes.failFast hff
  signal_lt := by
    intro b hb
    rw [← htally.signalDiffCount]
    cases hsig : a.isSignalDiff with
    | true => exact hgoes.signalBudget b hb hsig
    | false =>
      -- no signal: the count is the one before
      have hlt := h.signal_lt b hb
      rw [htally.signalDiffCount, hrec.attempted, List.countP_append, List.countP_singleton, hsig]
      simpa using hlt

theorem Stopped.of_end (h : Running cfg s) : Stopped cfg s where
  processed_le := h.processed_le
  signal_le b hb := (h.signal_lt b hb).le
  failFast := by
    intro hff pre a post hsplit hdiff
    have hmem : a ∈ s.attempted := by simp [hsplit]
    rw [h.failFast hff a hmem] at hdiff
    cases hdiff
  signalBudget := by
    intro b hb pre post hsplit hle
    have hlt := h.signal_lt b hb
    rw [hsplit, List.countP_append] at hlt
    omega

/-- **The exit.** Behind the attempt with which a running loop leaves there is nothing. -/
theorem Stopped.of_running (h : Running cfg s)
    (hlimit : ∀ n, cfg.requestedPairs = some n → (s.processed + 1 : ℤ) ≤ n)
    (hrec : Records cfg s t a) : Stopped cfg t where
  processed_le := by
    intro n hn
    have := hlimit n hn
    rw [hrec.processed]
    split <;> push_cast <;> omega
  signal_le := by
    intro b hb
    have hlt := h.signal_lt b hb
    rw [hrec.attempted, List.countP_append, List.countP_singleton]
    split <;> push_cast <;> omega
  failFast := by
    intro hff pre x post hsplit hdiff
    rw [hrec.attempted] at hsplit
    -- a difference is not among the attempts before, so it is the last one
    rcases List.eq_nil_or_concat' post with rfl | ⟨post', y, rfl⟩
    · rfl
    · rw [← List.cons_append, ← List.append_assoc] at hsplit
      have hmem : x ∈ s.attempted := by
        rw [(List.append_inj' hsplit rfl).1]
        simp
      rw [h.failFast hff x hmem] at hdiff
      cases hdiff
  signalBudget := by
    intro b hb pre post hsplit hle
    rw [hrec.attempted] at hsplit
    rcases List.eq_nil_or_concat' post with rfl | ⟨post', y, rfl⟩
    · rfl
    · rw [← List.append_assoc] at hsplit
      have hlt := h.signal_lt b hb
      rw [(List.append_inj' hsplit rfl).1, List.countP_append] at hlt
      omega

/-- **The loop.** After it the tally is right and nothing went on after its stop. -/
theorem tallied_and_stopped {plan : List (Option PlanEntry)}
    (h : forEach (visit cfg targetRel outcome) .initial plan = .ok t) :
    Tallied cfg t ∧ Stopped cfg t := by
  refine forEach_invariant (I := fun s => Tallied cfg s ∧ Running cfg s)
    (Q := fun s => Tallied cfg s ∧ Stopped cfg s) ?_ ?_ ?_ ⟨.initial, .initial⟩ h
  · rintro s planEntry t ⟨htally, hrun⟩ hnext
    rcases visit_cases cfg targetRel outcome hrun.stopReason planEntry with
      ⟨-, hskip⟩ | ⟨hlimit, -⟩ | ⟨e, hthrow⟩ | ⟨entry, pair, -, -, hlimit, u, hrec, hends⟩
    · obtain rfl : s = t := by simpa [hskip] using hnext
      exact ⟨htally, hrun⟩
    · simp [hlimit] at hnext
    · simp [hthrow] at hnext
    · rcases hends with ⟨hc, hgoes⟩ | ⟨hc, -⟩
      · obtain rfl : u = t := by simpa [hc] using hnext
        have htally' := htally.records (by rw [← hrun.processed]; rfl) hrec
        exact ⟨htally', hrun.goesOn htally' hlimit hrec hgoes⟩
      · simp [hc] at hnext
  · rintro s planEntry t ⟨htally, hrun⟩ hexit
    rcases visit_cases cfg targetRel outcome hrun.stopReason planEntry with
      ⟨-, hskip⟩ | ⟨hlimit, -⟩ | ⟨e, hthrow⟩ | ⟨entry, pair, -, -, hlimit, u, hrec, hends⟩
    · simp [hskip] at hexit
    · obtain rfl : { s with stopReason := some .maxPairs } = t := by simpa [hlimit] using hexit
      have hstop := Stopped.of_end hrun
      exact ⟨htally.stop _, hstop.processed_le, hstop.signal_le, hstop.failFast,
        hstop.signalBudget⟩
    · simp [hthrow] at hexit
    · rcases hends with ⟨hc, -⟩ | ⟨hc, -⟩
      · simp [hc] at hexit
      · obtain rfl : u = t := by simpa [hc] using hexit
        have htally' := htally.records (by rw [← hrun.processed]; rfl) hrec
        exact ⟨htally', .of_running hrun hlimit hrec⟩
  · rintro s ⟨htally, hrun⟩
    exact ⟨htally, .of_end hrun⟩

/-- The loop attempts pairs of the plan in order, each with its own outcome, by
induction on the entries that are left. -/
theorem attempted_of_forEach {plan : List (Option PlanEntry)} (hs : s.stopReason = none)
    (h : forEach (visit cfg targetRel outcome) s plan = .ok t) :
    ∃ new, t.attempted = s.attempted ++ new ∧ new.map Attempt.pair <+: planPairs plan ∧
      ∀ a ∈ new, a.outcome = outcome a.index := by
  have hempty : ∀ u : LoopState, ∃ new, u.attempted = u.attempted ++ new ∧
      new.map Attempt.pair <+: planPairs plan ∧ ∀ a ∈ new, a.outcome = outcome a.index :=
    fun u => ⟨[], (List.append_nil _).symm, List.nil_prefix, fun _ ha => nomatch ha⟩
  induction plan generalizing s with
  | nil =>
    obtain rfl : s = t := Except.ok.inj h
    exact hempty s
  | cons planEntry plan ih =>
    rcases visit_cases cfg targetRel outcome hs planEntry with
      ⟨hnone, hskip⟩ | ⟨hlimit, -⟩ | ⟨e, hthrow⟩ | ⟨entry, pair, rfl, hpair, -, u, hrec, hends⟩
    · -- a skipped entry has no pair
      rw [forEach_cons_next plan hskip] at h
      rw [planPairs_cons_none hnone] at hempty ⊢
      exact ih hs h hempty
    · rw [forEach_cons_exit plan hlimit] at h
      obtain rfl := Except.ok.inj h
      exact hempty s
    · rw [forEach, hthrow] at h
      cases h
    · rw [planPairs_cons_some hpair]
      rcases hends with ⟨hc, hgoes⟩ | ⟨hc, -⟩
      · rw [forEach_cons_next plan hc] at h
        obtain ⟨new, hnew, hpre, houtcome⟩ := ih (hgoes.stopReason.trans hs) h fun u =>
          ⟨[], (List.append_nil _).symm, List.nil_prefix, fun _ ha => nomatch ha⟩
        refine ⟨nextAttempt outcome s entry pair :: new, ?_, ?_, ?_⟩
        · rw [hnew, hrec.attempted, List.append_assoc, List.singleton_append]
        · exact (List.prefix_cons_inj _).mpr hpre
        · intro a ha
          rcases List.mem_cons.mp ha with rfl | ha
          · rfl
          · exact houtcome a ha
      · rw [forEach_cons_exit plan hc] at h
        obtain rfl := Except.ok.inj h
        refine ⟨[nextAttempt outcome s entry pair], hrec.attempted, ?_, ?_⟩
        · exact (List.prefix_cons_inj _).mpr List.nil_prefix
        · intro a ha
          obtain rfl := List.mem_singleton.mp ha
          rfl

end Step

/-! ### The books of a mode and of a suite -/

theorem countP_isDiff (attempted : List Attempt) :
    attempted.countP Attempt.isDiff =
      attempted.countP Attempt.isSignalDiff + attempted.countP Attempt.isNoiseDiff := by
  induction attempted with
  | nil => rfl
  | cons a attempted ih =>
    rw [List.countP_cons, List.countP_cons, List.countP_cons, ih]
    have hsplit : (if a.isDiff then 1 else 0) =
        (if a.isSignalDiff then 1 else 0) + if a.isNoiseDiff then 1 else 0 := by
      rw [Attempt.isSignalDiff, Attempt.isNoiseDiff]
      by_cases hdiff : a.isDiff = true <;> by_cases hnoise : a.classification = some .noise <;>
        simp [hdiff, hnoise]
    omega

theorem countP_isCollapsed (cfg : HistorySettings) (attempted : List Attempt) :
    attempted.countP (·.isCollapsed cfg) =
      if cfg.noisePolicy = .included then 0 else attempted.countP Attempt.isNoiseDiff := by
  split
  · next hincluded => simp [Attempt.isCollapsed, hincluded]
  · next hcollapse => simp [Attempt.isCollapsed, hcollapse]

theorem comparisons_increasing {cfg : HistorySettings} {s : LoopState} (h : Tallied cfg s) :
    s.comparisons.Pairwise fun r r' => r.index < r'.index := by
  have hindex : s.comparisons.map (·.index) =
      (s.attempted.filter fun a => !a.isCollapsed cfg).map (·.index) := by
    have := congrArg (List.map Prod.fst) h.comparisons
    rwa [List.map_map, List.map_map] at this
  have hsub : (s.comparisons.map (·.index)).Sublist (List.range' 1 s.attempted.length) := by
    rw [hindex, ← h.index]
    exact List.filter_sublist.map _
  exact List.pairwise_map.mp ((List.pairwise_lt_range' ..).sublist hsub)

theorem accounting_of_runMode {cfg : HistorySettings} {targetRel : String}
    {planTerminalHint : Option StopReason} {plan : List (Option PlanEntry)}
    {outcome : ℕ → PairOutcome} {m : ModeManifest}
    (h : runMode cfg targetRel planTerminalHint plan outcome = .ok m) :
    Accounting cfg plan outcome m := by
  rw [runMode] at h
  split at h
  · next s hloop =>
    obtain rfl := Except.ok.inj h
    obtain ⟨htally, hstop⟩ := tallied_and_stopped hloop
    obtain ⟨new, hnew, hpairs, houtcome⟩ := attempted_of_forEach rfl hloop
    have hattempted : s.attempted = new := hnew
    have hsignal : (finishMode cfg planTerminalHint s).stats.signalDiffs =
      s.attempted.countP Attempt.isSignalDiff := htally.signalDiffCount
    have hnoise : s.noiseCollapsedCount = (collapsedAttempts cfg s.attempted).length := by
      rw [htally.noiseCollapsedCount, collapsedAttempts, List.countP_eq_length_filter]
    exact {
      attempted := by
        change s.attempted.map Attempt.pair <+: planPairs plan
        rwa [hattempted]
      outcomes := by
        change ∀ a ∈ s.attempted, _
        rwa [hattempted]
      processed := htally.processed
      processed_le := hstop.processed_le
      diffs := by
        change s.diffCount = s.signalDiffCount + _
        rw [htally.diffCount, htally.signalDiffCount]
        exact countP_isDiff s.attempted
      signalDiffs := htally.signalDiffCount
      missing := htally.missingCount
      errors := htally.errorCount
      noiseCollapsed := by
        change s.noiseCollapsedCount = _
        rw [htally.noiseCollapsedCount]
        exact countP_isCollapsed cfg s.attempted
      collapsedCount := rfl
      collapsedIndices := by
        refine ⟨?_, htally.collapsedIndices⟩
        change s.collapsedIndices.length = s.noiseCollapsedCount
        rw [htally.collapsedIndices, List.length_map, hnoise]
      collapsedCommits := by
        refine ⟨?_, htally.collapsedCommits⟩
        change s.collapsedCommits.length = s.noiseCollapsedCount
        rw [htally.collapsedCommits, List.length_map, hnoise]
      comparisons := htally.comparisons
      increasing := comparisons_increasing htally
      signal_le := by
        rw [hsignal]
        exact hstop.signal_le
      failFast := hstop.failFast
      signalBudget := hstop.signalBudget
      lastDiffIndex := htally.lastDiffIndex }
  · cases h

theorem TotalsAreSums.add {suite : Suite} (h : TotalsAreSums suite) (mode : ModeManifest) :
    TotalsAreSums ⟨suite.modes ++ [mode], suite.totals.add mode.stats⟩ := by
  constructor
  · simp [SuiteTotals.add, h.processed]
  · simp [SuiteTotals.add, h.diffs]
  · simp [SuiteTotals.add, h.signalDiffs]
  · simp [SuiteTotals.add, h.noiseCollapsed]
  · simp [SuiteTotals.add, h.errors]
  · simp [SuiteTotals.add, h.missing]

theorem totalsAreSums_of_runSuite {cfg : HistorySettings} {targetRel : String}
    {planTerminalHint : Option StopReason} {plan : List (Option PlanEntry)}
    {outcomes : List (ℕ → PairOutcome)} {suite : Suite}
    (h : runSuite cfg targetRel planTerminalHint plan outcomes = .ok suite) :
    TotalsAreSums suite := by
  refine forEach_invariant (I := TotalsAreSums) (Q := TotalsAreSums) ?_ ?_ (fun _ hs => hs)
    ?_ h
  · intro s outcome t hs hnext
    rw [visitMode] at hnext
    split at hnext
    · next mode _ =>
      obtain rfl : Suite.mk (s.modes ++ [mode]) (s.totals.add mode.stats) = t := by
        simpa using hnext
      exact hs.add mode
    · cases hnext
  · intro s outcome t _ hexit
    rw [visitMode] at hexit
    split at hexit <;> cases hexit
  · constructor <;> rfl

/-- **Accounting.** For every plan, every setting and every outcome of the pairs, the
books of a mode that did not throw are right, and the totals of a suite are the sums
over its modes. -/
theorem historyWalk_accounting (cfg : HistorySettings) (targetRel : String)
    (planTerminalHint : Option StopReason) (plan : List (Option PlanEntry)) :
    (∀ outcome m, runMode cfg targetRel planTerminalHint plan outcome = .ok m →
      Accounting cfg plan outcome m) ∧
    ∀ outcomes suite, runSuite cfg targetRel planTerminalHint plan outcomes = .ok suite →
      TotalsAreSums suite :=
  ⟨fun _ _ h => accounting_of_runMode h, fun _ _ h => totalsAreSums_of_runSuite h⟩

/-! ### Noise, a missing base, then a signal -/

def mainlineEntry (head base : String) : Option PlanEntry :=
  some { head := some head, base := some base, lineage := none, stopAfter := false,
         stopAfterReason := none }

def fourPairs : List (Option PlanEntry) :=
  [mainlineEntry "d" "c", mainlineEntry "c" "b", mainlineEntry "b" "a", mainlineEntry "a" "r"]

/-- The first pair is noise, the base of the second is missing, the rest are signals. -/
def noiseThenSignal : ℕ → PairOutcome
  | 1 => .compared ⟨true, some 1, [⟨some "cosmetic", none, some "noise"⟩]⟩
  | 2 => .missingBase
  | _ => .compared ⟨true, some 1, [⟨some "block-diagram", none, some "signal"⟩]⟩

def oneSignal : HistorySettings := ⟨some 10, 1, .collapse, false, false⟩

/-- The third pair uses up the budget, so the fourth is not attempted. -/
theorem historyWalk_accounting_noiseThenSignal :
    ∃ m suite,
      runMode oneSignal "a.vi" none fourPairs noiseThenSignal = .ok m ∧
      m.attempted.length = 3 ∧ Accounting oneSignal fourPairs noiseThenSignal m ∧
      runSuite oneSignal "a.vi" none fourPairs [noiseThenSignal, noiseThenSignal] = .ok suite ∧
      TotalsAreSums suite := by
  obtain ⟨m, hm⟩ : ∃ m, runMode oneSignal "a.vi" none fourPairs noiseThenSignal = .ok m := ⟨_, rfl⟩
  obtain ⟨suite, hsuite⟩ : ∃ suite, runSuite oneSignal "a.vi" none fourPairs
      [noiseThenSignal, noiseThenSignal] = .ok suite := ⟨_, rfl⟩
  have hlength : ((runMode oneSignal "a.vi" none fourPairs noiseThenSignal).toOption.map
      fun m => m.attempted.length) = some 3 := by decide +kernel
  rw [hm] at hlength
  obtain ⟨hmode, htotals⟩ := historyWalk_accounting oneSignal "a.vi" none fourPairs
  exact ⟨m, suite, hm, Option.some.inj hlength, hmode _ m hm, hsuite, htotals _ suite hsuite⟩

end CompareVI.History
