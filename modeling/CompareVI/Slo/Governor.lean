import CompareVI.Framework.Run
import CompareVI.Slo.Remediation

/-!
# The governor of the remediation evaluator

Every evaluation derives the mode that its metrics want (`deriveGovernorDesiredMode`), damps it
against the mode and the healthy streak that the evaluation before it recorded
(`applyGovernorModeTransition`), and records the outcome for the next one
(`runRemediationSloEvaluator`).

A run starts without a record. `GovernorLaw` is what the recovery texts of the report promise
over a run: a pause is applied at once, and each step back up has to be earned by evaluations
that want `normal` in the mode that is left. The streak is one counter for both steps up, and it
is not started again by the first one, so the second step can follow at once:
`governorLaw_iff_guarded` says that this is the only way in which the law fails.
-/

open Framework

namespace CompareVI.Slo

/-! ### Modes -/

inductive GovernorMode where
  | normal
  | stabilize
  | pause
  deriving DecidableEq

namespace GovernorMode

def text : GovernorMode → String
  | normal => "normal"
  | stabilize => "stabilize"
  | pause => "pause"

theorem text_inj {a b : GovernorMode} : a.text = b.text ↔ a = b := by
  cases a <;> cases b <;> decide

def rank : GovernorMode → ℕ
  | pause => 0
  | stabilize => 1
  | normal => 2

end GovernorMode

def normalizeGovernorMode (value : Option Json) : GovernorMode :=
  let normalized := JsString.toLowerCase (JsString.trim (Json.stringOrEmpty value))
  if normalized = "stabilize" then .stabilize
  else if normalized = "pause" then .pause
  else .normal

@[simp] theorem normalizeGovernorMode_text (mode : GovernorMode) :
    normalizeGovernorMode (some (.str mode.text)) = mode := by
  cases mode <;> decide +kernel

structure DesiredMode where
  mode : GovernorMode
  reasons : List String

/-- `deriveGovernorDesiredMode`. A figure that is not there is `null`, and `Number(null)` is
`0`. -/
def deriveGovernorDesiredMode (evaluated : Evaluated) (operationalMetrics : OperationalMetrics)
    (thresholds : Thresholds) : DesiredMode :=
  let trunkRedMinutes := operationalMetrics.trunkRedMinutes.getD 0
  let queueRetryRatio := operationalMetrics.queueRetryRatio.getD 0
  let queueQuarantineRatio := operationalMetrics.queueQuarantineRatio.getD 0
  let reasons :=
    (if thresholds.trunkRedMinutes.fail ≤ trunkRedMinutes then ["trunk-red-fail-threshold"]
      else []) ++
    (if thresholds.queueRetryRatio.fail ≤ queueRetryRatio then ["queue-retry-fail-threshold"]
      else []) ++
    (if thresholds.queueRetryRatio.fail ≤ queueQuarantineRatio then
      ["queue-quarantine-fail-threshold"] else [])
  if 0 < reasons.length then ⟨.pause, reasons⟩
  else if evaluated.status = .pass then ⟨.normal, ["slo-pass"]⟩
  else ⟨.stabilize, ["slo-breach"]⟩

/-! ### The transition -/

structure RecoveryThresholds where
  pauseToStabilizeHealthyCycles : ℕ
  stabilizeToNormalHealthyCycles : ℕ

def GOVERNOR_RECOVERY_THRESHOLDS : RecoveryThresholds := ⟨2, 2⟩

structure GovernorTransition where
  mode : GovernorMode
  desiredMode : GovernorMode
  previousMode : GovernorMode
  healthyStreak : ℤ
  transitionReason : String

def applyGovernorModeTransition (desiredMode previousMode : GovernorMode)
    (previousHealthyStreak : ℤ) (recoveryThresholds : RecoveryThresholds) : GovernorTransition :=
  let healthyStreakCandidate :=
    if desiredMode = .normal then max 0 previousHealthyStreak + 1 else 0
  let outcome : GovernorMode × String :=
    if desiredMode = .pause then (.pause, "pause-threshold-breach")
    else if previousMode = .pause then
      if desiredMode = .normal ∧
          recoveryThresholds.pauseToStabilizeHealthyCycles ≤ healthyStreakCandidate then
        (.stabilize, "pause-recovery-threshold-met")
      else
        (.pause, if desiredMode = .normal then "pause-recovery-threshold-pending"
          else "pause-hold-unhealthy")
    else if desiredMode = .stabilize then (.stabilize, "slo-breach")
    else if previousMode = .stabilize ∧
        healthyStreakCandidate < recoveryThresholds.stabilizeToNormalHealthyCycles then
      (.stabilize, "stabilize-recovery-threshold-pending")
    else (desiredMode, "desired-mode")
  { mode := outcome.1
    desiredMode := desiredMode
    previousMode := previousMode
    -- the one streak is kept whatever the outcome is
    healthyStreak := healthyStreakCandidate
    transitionReason := outcome.2 }

section Transition

variable {desired previous : GovernorMode} {streak : ℤ} {bounds : RecoveryThresholds}

theorem previousMode_apply :
    (applyGovernorModeTransition desired previous streak bounds).previousMode = previous := rfl

/-- **The step out of `pause`** goes to `stabilize`, with a streak that is long enough. -/
theorem apply_of_pause :
    (applyGovernorModeTransition desired .pause streak bounds).mode =
      if desired = .normal ∧ bounds.pauseToStabilizeHealthyCycles ≤ max 0 streak + 1
        then .stabilize else .pause := by
  cases desired with
  | normal =>
    simp only [applyGovernorModeTransition, reduceCtorEq, if_false, if_true, true_and]
    split <;> rfl
  | stabilize | pause => rfl

/-- **The step out of `stabilize`** to `normal`, with a streak that is long enough. -/
theorem apply_of_stabilize :
    (applyGovernorModeTransition desired .stabilize streak bounds).mode =
      if desired = .normal ∧ max 0 streak + 1 < bounds.stabilizeToNormalHealthyCycles
        then .stabilize else desired := by
  cases desired with
  | normal =>
    simp only [applyGovernorModeTransition, reduceCtorEq, if_false, if_true, true_and]
    split <;> rfl
  | stabilize | pause => rfl

theorem apply_of_normal :
    (applyGovernorModeTransition desired .normal streak bounds).mode = desired := by
  cases desired <;> rfl

theorem rank_apply_le :
    (applyGovernorModeTransition desired previous streak bounds).mode.rank ≤
      previous.rank + 1 := by
  cases previous with
  | pause =>
    rw [apply_of_pause]
    split <;> decide
  | stabilize | normal =>
    generalize (applyGovernorModeTransition desired _ streak bounds).mode = mode
    cases mode <;> decide

end Transition

/-! ### An evaluation -/

/-- What one evaluation reads besides the governor record: the payloads of the files, `none` where
one is missing or cannot be read. -/
structure Evaluation where
  repository : String
  now : ℤ
  lookbackDays : ℕ
  previousReport : Option Json
  issueEvents : Option Json
  queueReport : Option Json
  sloMetrics : Option Json
  releaseScorecard : Option Json

def incidentMetrics (env : SloEnv) (e : Evaluation) : IncidentMetrics :=
  summarizeIncidentMetrics (normalizeIncidentEvents env e.issueEvents) e.now e.lookbackDays

def operationalMetrics (e : Evaluation) : OperationalMetrics :=
  summarizeOperationalMetrics e.queueReport e.sloMetrics e.releaseScorecard

def evaluated (env : SloEnv) (e : Evaluation) : Evaluated :=
  evaluateRemediationSlo (incidentMetrics env e) (operationalMetrics e) DEFAULT_THRESHOLDS

def desiredGovernor (env : SloEnv) (e : Evaluation) : DesiredMode :=
  deriveGovernorDesiredMode (evaluated env e) (operationalMetrics e) DEFAULT_THRESHOLDS

/-- The mode before an evaluation: the recorded one, else the intent of the earlier report. -/
def previousGovernorMode (record : Option Json) (e : Evaluation) : GovernorMode :=
  normalizeGovernorMode (Json.nullishOr (record.bind (·.get? "mode"))
    (Json.path e.previousReport ["governor", "intent"]))

def previousGovernorHealthyStreak (record : Option Json) : ℤ :=
  (((record.bind (·.get? "healthyStreak")).bind Cost.toNumber?).filter (·.isInt)).elim 0 Rat.num

def governorTransition (env : SloEnv) (record : Option Json) (e : Evaluation) :
    GovernorTransition :=
  applyGovernorModeTransition (desiredGovernor env e).mode (previousGovernorMode record e)
    (previousGovernorHealthyStreak record) GOVERNOR_RECOVERY_THRESHOLDS

def operatorRecovery : GovernorMode → List String
  | .pause =>
    ["Restore trunk-red minutes below fail threshold.",
      "Restore queue retry ratio below fail threshold.",
      "Sustain healthy cycles for at least " ++
        toString GOVERNOR_RECOVERY_THRESHOLDS.pauseToStabilizeHealthyCycles ++ " evaluations."]
  | .stabilize =>
    ["Sustain healthy cycles for at least " ++
      toString GOVERNOR_RECOVERY_THRESHOLDS.stabilizeToNormalHealthyCycles ++ " evaluations."]
  | .normal => ["Continue monitoring queue and trunk SLO signals."]

/-- `recoveryThresholds` as it is written. -/
def recoveryThresholdsJson (bounds : RecoveryThresholds) : Json :=
  .obj [("pauseToStabilizeHealthyCycles", .num bounds.pauseToStabilizeHealthyCycles),
    ("stabilizeToNormalHealthyCycles", .num bounds.stabilizeToNormalHealthyCycles)]

/-- A number or `null`. -/
def numOrNull (value : Option ℚ) : Json := value.elim .null .num

/-- A text or `null`. -/
def strOrNull (value : Option String) : Json := value.elim .null .str

def governorState (env : SloEnv) (record : Option Json) (e : Evaluation) : Json :=
  let transition := governorTransition env record e
  let metrics := operationalMetrics e
  .obj
    [("schema", .str "ops-governor-state@v1"),
      ("generatedAt", .str (env.isoString e.now)),
      ("repository", .str e.repository),
      ("mode", .str transition.mode.text),
      ("desiredMode", .str transition.desiredMode.text),
      ("previousMode", .str transition.previousMode.text),
      ("healthyStreak", .num transition.healthyStreak),
      ("recoveryThresholds", recoveryThresholdsJson GOVERNOR_RECOVERY_THRESHOLDS),
      ("reasons", .arr ((desiredGovernor env e).reasons.map .str)),
      ("transition", .obj
        [("from", .str transition.previousMode.text),
          ("to", .str transition.mode.text),
          ("reason", .str transition.transitionReason),
          ("summary", .str (transition.previousMode.text ++ "->" ++ transition.mode.text))]),
      ("metrics", .obj
        [("summaryStatus", .str (evaluated env e).status.text),
          ("trunkRedMinutes", numOrNull metrics.trunkRedMinutes),
          ("queueRetryRatio", numOrNull metrics.queueRetryRatio),
          ("queueQuarantineRatio", numOrNull metrics.queueQuarantineRatio),
          ("releaseStatus", strOrNull metrics.releaseStatus)]),
      ("operatorSummary", .obj
        [("why", .str (JsString.join ", " (desiredGovernor env e).reasons)),
          ("recovery", .arr ((operatorRecovery transition.mode).map .str))])]

/-- `report.governor`. -/
def reportGovernor (env : SloEnv) (record : Option Json) (e : Evaluation) : Json :=
  let transition := governorTransition env record e
  let status := (evaluated env e).status
  let previousStatus :=
    (Json.optionText (Json.path e.previousReport ["summary", "status"])).getD "pass"
  .obj
    [("intent", .str transition.mode.text),
      ("desiredIntent", .str transition.desiredMode.text),
      ("firstBreach", .bool (previousStatus = "pass" ∧ status ≠ .pass)),
      ("previousStatus", .str previousStatus),
      ("previousMode", .str transition.previousMode.text),
      ("transition", .str (previousStatus ++ "->" ++ status.text)),
      ("modeTransition", .str (transition.previousMode.text ++ "->" ++ transition.mode.text)),
      ("transitionReason", .str transition.transitionReason),
      ("recoveryThresholds", recoveryThresholdsJson GOVERNOR_RECOVERY_THRESHOLDS),
      ("healthyStreak", .num transition.healthyStreak),
      ("reasons", .arr ((desiredGovernor env e).reasons.map .str))]

structure EvaluatorOutcome where
  /-- The summary of the report and its part on the governor. -/
  summaryStatus : CheckStatus
  checkCount : ℕ
  breachCount : ℕ
  governor : Json
  governorState : Json

/-- `runRemediationSloEvaluator`, with the governor record that it reads. -/
def runRemediationSloEvaluator (env : SloEnv) (record : Option Json) (e : Evaluation) :
    EvaluatorOutcome where
  summaryStatus := (evaluated env e).status
  checkCount := (evaluated env e).checks.length
  breachCount := (evaluated env e).breaches.length
  governor := reportGovernor env record e
  governorState := governorState env record e

def evaluationStep (env : SloEnv) (record : Option Json) (e : Evaluation) :
    Option (Option Json) :=
  some (some (runRemediationSloEvaluator env record e).governorState)

/-! ### What the next evaluation reads -/

section Record

variable {env : SloEnv} {record next : Option Json} {e d : Evaluation}

def recordedMode (record : Option Json) : GovernorMode :=
  normalizeGovernorMode (record.bind (·.get? "mode"))

@[simp] theorem recordedMode_governorState :
    recordedMode (some (governorState env record e)) = (governorTransition env record e).mode :=
  normalizeGovernorMode_text _

@[simp] theorem previousGovernorMode_governorState :
    previousGovernorMode (some (governorState env record e)) d =
      (governorTransition env record e).mode :=
  normalizeGovernorMode_text _

@[simp] theorem previousGovernorHealthyStreak_governorState :
    previousGovernorHealthyStreak (some (governorState env record e)) =
      (governorTransition env record e).healthyStreak := by
  have hfield : (some (governorState env record e)).bind (·.get? "healthyStreak") =
      some (.num (governorTransition env record e).healthyStreak) := rfl
  rw [previousGovernorHealthyStreak, hfield, Option.bind_some, Cost.toNumber?,
    Option.filter_some, if_pos (by simp [Rat.isInt])]
  exact Rat.num_intCast _

theorem evaluationStep_eq_some :
    evaluationStep env record e = some next ↔ next = some (governorState env record e) := by
  rw [evaluationStep, Option.some.injEq, eq_comm]
  rfl

end Record

/-! ### The law of the modes -/

def wants (env : SloEnv) (e : Evaluation) : GovernorMode := (desiredGovernor env e).mode

/-- What the recovery texts promise over a run from `s`. -/
structure GovernorLaw (env : SloEnv) (s : Option Json) (es : List Evaluation) : Prop where
  pauses : ∀ pre e post t u, es = pre ++ e :: post → run (evaluationStep env) s pre = some t →
    evaluationStep env t e = some u → wants env e = .pause → recordedMode u = .pause
  /-- No evaluation improves the mode by more than one rank. -/
  gradual : ∀ pre e post t u, es = pre ++ e :: post → run (evaluationStep env) s pre = some t →
    evaluationStep env t e = some u →
    (recordedMode u).rank ≤ (previousGovernorMode t e).rank + 1
  /-- The mode leaves `pause` after evaluations in a row that wanted `normal`. -/
  leavesPause : ∀ pre e post t u, es = pre ++ e :: post → run (evaluationStep env) s pre = some t →
    evaluationStep env t e = some u →
    previousGovernorMode t e = .pause → recordedMode u ≠ .pause →
      ∃ before healthy, pre ++ [e] = before ++ healthy ∧
        GOVERNOR_RECOVERY_THRESHOLDS.pauseToStabilizeHealthyCycles ≤ healthy.length ∧
        ∀ d ∈ healthy, wants env d = .normal
  /-- It goes from `stabilize` to `normal` after evaluations in a row that wanted `normal` while
  it was `stabilize`. -/
  recovers : ∀ pre e post t u, es = pre ++ e :: post → run (evaluationStep env) s pre = some t →
    evaluationStep env t e = some u →
    previousGovernorMode t e = .stabilize → recordedMode u = .normal →
      ∃ before healthy r, pre ++ [e] = before ++ healthy ∧
        GOVERNOR_RECOVERY_THRESHOLDS.stabilizeToNormalHealthyCycles ≤ healthy.length ∧
        run (evaluationStep env) s before = some r ∧
        Guarded (evaluationStep env)
          (fun t d => previousGovernorMode t d = .stabilize ∧ wants env d = .normal) r healthy

/-- The record is of an evaluation that stepped down from `pause`. -/
def SteppedDown (record : Option Json) : Prop :=
  record.bind (·.get? "previousMode") = some (.str "pause") ∧
    record.bind (·.get? "mode") = some (.str "stabilize")

instance (record : Option Json) : Decidable (SteppedDown record) :=
  inferInstanceAs (Decidable (_ ∧ _))

/-- The evaluation after a step down from `pause` does not want `normal`. -/
def Settles (env : SloEnv) (record : Option Json) (e : Evaluation) : Prop :=
  SteppedDown record → wants env e ≠ .normal

section Law

variable {env : SloEnv} {s t u : Option Json} {e : Evaluation} {pre : List Evaluation}

theorem two_le_streak_iff (streak : ℤ) : ((2 : ℕ) : ℤ) ≤ max 0 streak + 1 ↔ 0 < streak := by
  omega

theorem streak_lt_two_iff (streak : ℤ) : max 0 streak + 1 < ((2 : ℕ) : ℤ) ↔ streak ≤ 0 := by
  omega

theorem governorTransition_mode_of_pause (h : previousGovernorMode t e = .pause) :
    (governorTransition env t e).mode =
      if wants env e = .normal ∧ 0 < previousGovernorHealthyStreak t then .stabilize
      else .pause := by
  rw [governorTransition, h, apply_of_pause]
  simp only [GOVERNOR_RECOVERY_THRESHOLDS, two_le_streak_iff]
  rfl

theorem governorTransition_mode_of_stabilize (h : previousGovernorMode t e = .stabilize) :
    (governorTransition env t e).mode =
      if wants env e = .normal ∧ previousGovernorHealthyStreak t ≤ 0 then .stabilize
      else wants env e := by
  rw [governorTransition, h, apply_of_stabilize]
  simp only [GOVERNOR_RECOVERY_THRESHOLDS, streak_lt_two_iff]
  rfl

theorem governorTransition_mode_of_normal (h : previousGovernorMode t e = .normal) :
    (governorTransition env t e).mode = wants env e := by
  rw [governorTransition, h, apply_of_normal]
  rfl

theorem previousMode_governorTransition :
    (governorTransition env t e).previousMode = previousGovernorMode t e := previousMode_apply

theorem healthyStreak_governorTransition :
    (governorTransition env t e).healthyStreak =
      if wants env e = .normal then max 0 (previousGovernorHealthyStreak t) + 1 else 0 := rfl

theorem exists_last_of_streak (hrun : run (evaluationStep env) none pre = some t)
    (hstreak : 0 < previousGovernorHealthyStreak t) :
    ∃ before d r, pre = before ++ [d] ∧ run (evaluationStep env) none before = some r ∧
      t = some (governorState env r d) ∧ wants env d = .normal := by
  rcases List.eq_nil_or_concat pre with rfl | ⟨before, d, rfl⟩
  · obtain rfl : none = t := Option.some.inj hrun
    exact absurd hstreak (lt_irrefl _)
  · rw [List.concat_eq_append] at hrun ⊢
    obtain ⟨r, hr, hlast⟩ := run_append_eq_some.mp hrun
    rw [run_singleton] at hlast
    obtain rfl := evaluationStep_eq_some.mp hlast
    refine ⟨before, d, r, rfl, hr, rfl, ?_⟩
    by_contra hwants
    rw [previousGovernorHealthyStreak_governorState, healthyStreak_governorTransition,
      if_neg hwants] at hstreak
    exact lt_irrefl _ hstreak

theorem steppedDown_governorState :
    SteppedDown (some (governorState env t e)) ↔
      previousGovernorMode t e = .pause ∧ (governorTransition env t e).mode = .stabilize := by
  have hprevious : (some (governorState env t e)).bind (·.get? "previousMode") =
      some (.str (governorTransition env t e).previousMode.text) := rfl
  have hmode : (some (governorState env t e)).bind (·.get? "mode") =
      some (.str (governorTransition env t e).mode.text) := rfl
  rw [SteppedDown, hprevious, hmode, Option.some.injEq, Option.some.injEq, Json.str.injEq,
    Json.str.injEq]
  change _ = GovernorMode.pause.text ∧ _ = GovernorMode.stabilize.text ↔ _
  rw [GovernorMode.text_inj, GovernorMode.text_inj, previousMode_governorTransition]

/-- A step up to `normal` is earned by the last two evaluations, unless the first of these was the
step down from `pause`. -/
theorem recovers_of_not_steppedDown (hrun : run (evaluationStep env) none pre = some t)
    (hmode : previousGovernorMode t e = .stabilize) (hnormal : wants env e = .normal)
    (hup : (governorTransition env t e).mode = .normal) (hdown : ¬ SteppedDown t) :
    ∃ before d r, pre = before ++ [d] ∧ run (evaluationStep env) none before = some r ∧
      t = some (governorState env r d) ∧ previousGovernorMode r d = .stabilize ∧
      wants env d = .normal := by
  have hstreak : 0 < previousGovernorHealthyStreak t := by
    by_contra hnone
    rw [governorTransition_mode_of_stabilize hmode, if_pos ⟨hnormal, not_lt.mp hnone⟩] at hup
    cases hup
  obtain ⟨before, d, r, rfl, hr, rfl, hd⟩ := exists_last_of_streak hrun hstreak
  refine ⟨before, d, r, rfl, hr, rfl, ?_, hd⟩
  rw [previousGovernorMode_governorState] at hmode
  cases hprevious : previousGovernorMode r d with
  | stabilize => rfl
  | pause => exact absurd (steppedDown_governorState.mpr ⟨hprevious, hmode⟩) hdown
  | normal =>
    rw [governorTransition_mode_of_normal hprevious, hd] at hmode
    cases hmode

variable {es : List Evaluation}

theorem governorLaw_of_guarded (hguard : Guarded (evaluationStep env) (Settles env) none es) :
    GovernorLaw env none es where
  pauses := by
    rintro pre e post t u - - hu hpause
    obtain rfl := evaluationStep_eq_some.mp hu
    rw [wants] at hpause
    rw [recordedMode_governorState, governorTransition, hpause]
    rfl
  gradual := by
    rintro pre e post t u - - hu
    obtain rfl := evaluationStep_eq_some.mp hu
    rw [recordedMode_governorState]
    exact rank_apply_le
  leavesPause := by
    rintro pre e post t u - ht hu hpause hleft
    obtain rfl := evaluationStep_eq_some.mp hu
    rw [recordedMode_governorState, governorTransition_mode_of_pause hpause] at hleft
    have hhealthy : wants env e = .normal ∧ 0 < previousGovernorHealthyStreak t := by
      by_contra hnot
      exact hleft (if_neg hnot)
    obtain ⟨before, d, -, rfl, -, -, hd⟩ := exists_last_of_streak ht hhealthy.2
    refine ⟨before, [d, e], List.append_assoc before [d] [e], le_refl 2, fun x hx => ?_⟩
    rcases List.mem_pair.mp hx with rfl | rfl
    · exact hd
    · exact hhealthy.1
  recovers := by
    intro pre e post t u hes ht hu hstabilize hup
    obtain rfl := evaluationStep_eq_some.mp hu
    rw [recordedMode_governorState] at hup
    have hnormal : wants env e = .normal := by
      rw [governorTransition_mode_of_stabilize hstabilize] at hup
      split at hup
      · cases hup
      · exact hup
    have hdown : ¬ SteppedDown t := fun hdown =>
      guarded_iff_split.mp hguard pre e post t hes ht hdown hnormal
    obtain ⟨before, d, r, rfl, hr, rfl, hd, hwants⟩ :=
      recovers_of_not_steppedDown ht hstabilize hnormal hup hdown
    refine ⟨before, [d, e], r, List.append_assoc before [d] [e], le_refl 2, hr, ⟨hd, hwants⟩, ?_⟩
    intro v hv
    obtain rfl := evaluationStep_eq_some.mp hv
    exact ⟨⟨hstabilize, hnormal⟩, fun _ _ => trivial⟩

theorem exists_two_last {before first healthy : List Evaluation} {d e : Evaluation}
    (h : before ++ [d] ++ [e] = first ++ healthy) (hlength : 2 ≤ healthy.length) :
    ∃ block, before = first ++ block ∧ healthy = block ++ [d, e] := by
  rw [List.append_assoc] at h
  rcases List.append_eq_append_iff.mp h with ⟨rest, hfirst, hrest⟩ | ⟨block, hbefore, hblock⟩
  · have hlengths := congrArg List.length hrest
    rw [List.length_append] at hlengths
    have hnil : rest = [] := List.eq_nil_of_length_eq_zero (by simp at hlengths; omega)
    subst hnil
    rw [List.append_nil] at hfirst
    exact ⟨[], by rw [hfirst, List.append_nil], hrest.symm⟩
  · exact ⟨block, hbefore, hblock⟩

/-- Where each step up is earned, every step down settles: the next evaluation that wants `normal`
would step up at once. -/
theorem guarded_of_governorLaw (law : GovernorLaw env none es) :
    Guarded (evaluationStep env) (Settles env) none es := by
  refine guarded_iff_split.mpr fun pre e post t hes ht hdown hwants => ?_
  -- the record is that of an evaluation that wanted `normal` in `pause`
  rcases List.eq_nil_or_concat pre with rfl | ⟨before, d, rfl⟩
  · obtain rfl : none = t := Option.some.inj ht
    cases hdown.1
  rw [List.concat_eq_append] at ht hes
  obtain ⟨r, hr, hlast⟩ := run_append_eq_some.mp ht
  rw [run_singleton] at hlast
  obtain rfl := evaluationStep_eq_some.mp hlast
  obtain ⟨hpause, hmode⟩ := steppedDown_governorState.mp hdown
  have hstreak : 0 < previousGovernorHealthyStreak (some (governorState env r d)) := by
    rw [previousGovernorHealthyStreak_governorState, healthyStreak_governorTransition]
    rw [governorTransition_mode_of_pause hpause] at hmode
    split at hmode
    · next hhealthy =>
      rw [if_pos hhealthy.1]
      omega
    · cases hmode
  -- so this one goes up to `normal`
  have hstabilize : previousGovernorMode (some (governorState env r d)) e = .stabilize := by
    rw [previousGovernorMode_governorState, hmode]
  have hup : (governorTransition env (some (governorState env r d)) e).mode = .normal := by
    rw [governorTransition_mode_of_stabilize hstabilize,
      if_neg fun h => absurd hstreak (not_lt.mpr h.2), hwants]
  obtain ⟨first, healthy, r', hsplit, hlength, hrun, hhealthy⟩ :=
    law.recovers (before ++ [d]) e post _ _ hes ht rfl hstabilize
      (recordedMode_governorState.trans hup)
  -- the last but one of those that earned it is the step down, which was made in `pause`
  obtain ⟨block, rfl, rfl⟩ := exists_two_last hsplit hlength
  obtain ⟨r'', hr'', hblock⟩ := run_append_eq_some.mp hr
  obtain rfl : r' = r'' := Option.some.inj (hrun.symm.trans hr'')
  have hd := (guarded_iff_split.mp hhealthy block d [e] r rfl hblock).1
  rw [hpause] at hd
  cases hd

end Law

/-- **The governor of a run.** It obeys the law exactly when no evaluation wants `normal` right
after a step down from `pause`. -/
theorem governorLaw_iff_guarded (env : SloEnv) (es : List Evaluation) :
    GovernorLaw env none es ↔ Guarded (evaluationStep env) (Settles env) none es :=
  ⟨guarded_of_governorLaw, governorLaw_of_guarded⟩

instance (env : SloEnv) (record : Option Json) (e : Evaluation) :
    Decidable (Settles env record e) :=
  inferInstanceAs (Decidable (SteppedDown record → wants env e ≠ .normal))

def redMinutesEvaluation (redMinutes : ℚ) : Evaluation where
  repository := "owner/repo"
  now := 0
  lookbackDays := 30
  previousReport := none
  issueEvents := none
  queueReport := some (.obj [("health", .obj [("redMinutes", .num redMinutes)])])
  sloMetrics := none
  releaseScorecard := none

/-- A red trunk and three healthy evaluations: the last one goes up to `normal`, the first that
wanted it in `stabilize`. -/
theorem not_governorLaw_redMinutes :
    ¬ GovernorLaw ⟨fun _ => none, fun _ => ""⟩ none
      ([60, 0, 0, 0].map redMinutesEvaluation) := by
  intro law
  have hsettles : ¬ Guarded (evaluationStep ⟨fun _ => none, fun _ => ""⟩)
      (Settles ⟨fun _ => none, fun _ => ""⟩) none ([60, 0, 0, 0].map redMinutesEvaluation) := by
    decide +kernel
  exact hsettles (guarded_of_governorLaw law)

end CompareVI.Slo
