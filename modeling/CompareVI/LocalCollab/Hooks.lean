import CompareVI.LocalCollab.AgentReview

/-!
# The pre-commit and pre-push hooks

The two delegates run their steps through `HookRunner`. A step yields a status and an exit
code, or throws; the enforcement mode then keeps the failure (`fail`) or takes it back
(`warn`, `off`). A blocking step is promoted again from its raw exit code
(`hardFailHookStep`).

The raw code is the trouble: a PowerShell process that a signal has killed has no status,
`runPwshStep` gives its step the exit code 0, and there is nothing left to promote it
from. The exit codes of the delegates are worked out in `preCommit_exitCode` and
`prePush_exitCode`, in terms of what the child processes did; `hookLaw_iff` says exactly
when the hooks do what they are for.
-/

open Framework

namespace CompareVI.LocalCollab

/-! ### The hook runner -/

inductive Enforcement where
  | fail
  | warn
  | off
  deriving DecidableEq, Repr

inductive StepStatus where
  | ok
  | failed
  | skipped
  | warn
  deriving DecidableEq, Repr

inductive Severity where
  | info
  | warn
  | error
  deriving DecidableEq, Repr

structure Step where
  name : String
  status : StepStatus
  exitCode : ℤ
  rawStatus : StepStatus
  rawExitCode : ℤ
  severity : Severity
  note : Option String
  error : Option String
  deriving DecidableEq, Repr

structure StepResult where
  status : StepStatus
  exitCode : ℤ
  note : Option String
  deriving DecidableEq, Repr

/-- `HookRunner`. -/
structure Runner where
  enforcement : Enforcement
  status : StepStatus
  exitCode : ℤ
  steps : List Step
  notes : List String
  deriving DecidableEq, Repr

namespace Runner

def start (enforcement : Enforcement) : Runner := ⟨enforcement, .ok, 0, [], []⟩

def addNote (r : Runner) (note : String) : Runner := { r with notes := r.notes ++ [note] }

def pushStep (r : Runner) (step : Step) : Runner := { r with steps := r.steps ++ [step] }

def setLastStep (r : Runner) (step : Step) : Runner :=
  { r with steps := r.steps.dropLast ++ [step] }

/-- `this.status = 'warn'` if it is still `ok`. -/
def warn (r : Runner) : Runner := { r with status := if r.status = .ok then .warn else r.status }

end Runner

def Step.failed (step : Step) : Bool := step.status = .failed || step.exitCode ≠ 0

def remark (note : Option String) (after alone : String) : Option String :=
  match note with
  | some text => if text = "" then some alone else some (text ++ after)
  | none => some alone

def applyEnforcement (r : Runner) (step : Step) : Runner × Step :=
  if step.failed then
    match r.enforcement with
    | .fail =>
      ({ r with status := .failed, exitCode := if step.exitCode = 0 then 1 else step.exitCode },
        { step with severity := .error })
    | .warn =>
      (r.warn.addNote ("Warning: step \"" ++ step.name ++
          "\" reported a failure but HOOKS_ENFORCE=warn."),
        { step with
          note := remark step.note " (converted to warning by HOOKS_ENFORCE=warn)"
            "Converted to warning by HOOKS_ENFORCE=warn"
          status := .warn
          severity := .warn
          exitCode := 0 })
    | .off =>
      (r.addNote ("Suppressed failure in step \"" ++ step.name ++ "\" due to HOOKS_ENFORCE=off."),
        { step with
          note := remark step.note " (suppressed by HOOKS_ENFORCE=off)"
            "Suppressed by HOOKS_ENFORCE=off"
          status := .skipped
          severity := .info
          exitCode := 0 })
  else (if step.status = .warn then r.warn else r, step)

/-- The step that a function's outcome makes, before enforcement. -/
def stepOf (name : String) : Except Thrown StepResult → Step
  | .ok result =>
    { name := name
      status := result.status
      exitCode := result.exitCode
      rawStatus := result.status
      rawExitCode := result.exitCode
      severity := if result.status = .failed ∨ result.exitCode ≠ 0 then .error else .info
      note := result.note.filter (· ≠ "")
      error := none }
  | .error e =>
    { name := name
      status := .failed
      exitCode := e.exitCode.getD 1
      rawStatus := .failed
      rawExitCode := e.exitCode.getD 1
      severity := .error
      note := none
      error := some e.message }

def runStep (r : Runner) (name : String) (outcome : Except Thrown StepResult) : Runner × Step :=
  let (r, step) := applyEnforcement r (stepOf name outcome)
  (r.pushStep step, step)

/-- A PowerShell script: PowerShell is not to be found, or it was run. -/
inductive PwshRun where
  | unavailable
  | ran (result : SpawnResult)
  deriving DecidableEq, Repr

/-- What `runPwshStep` hands to `runStep`. -/
def pwshOutcome : PwshRun → Except Thrown StepResult
  | .unavailable =>
    .ok ⟨.skipped, 0, some "pwsh not available on PATH; skipping PowerShell hook logic."⟩
  | .ran result =>
    match result.error with
    | some message =>
      .error ⟨some (result.status.getD 1), "Failed to execute PowerShell script: " ++ message⟩
    | none =>
      .ok ⟨if result.status = some 0 then .ok else .failed, result.status.getD 0, none⟩

def runPwshStep (r : Runner) (name : String) (pwsh : PwshRun) : Runner × Step :=
  runStep r name (pwshOutcome pwsh)

/-- `a` contains `b`. -/
def containsText (a b : String) : Bool := a.toList.tails.any fun rest => b.toList.isPrefixOf rest

/-- The exit code that `hardFailHookStep` goes by. -/
def Step.effectiveExitCode (step : Step) (useRawExitCode : Bool) : ℤ :=
  if useRawExitCode then step.rawExitCode else step.exitCode

def Step.block (step : Step) (code : ℤ) (reason : String) (useRawExitCode : Bool) : Step :=
  { step with
    status := .failed
    exitCode := code
    severity := .error
    note := step.note.filter fun note => !(useRawExitCode && containsText note "HOOKS_ENFORCE=")
    error := step.error.or (some (if reason = "" then "Blocking hook step failed." else reason)) }

def Runner.block (r : Runner) (code : ℤ) (reason : String) : Runner :=
  { r with
    status := .failed
    exitCode := code
    notes := if reason = "" then r.notes else r.notes ++ [reason] }

/-- `hardFailHookStep` on the step pushed last. -/
def hardFailHookStep (r : Runner) (step : Step) (reason : String) (useRawExitCode : Bool) :
    Runner × Step :=
  let effective := step.effectiveExitCode useRawExitCode
  if effective = 0 then (r, step)
  else
    let code := if step.rawExitCode = 0 then effective else step.rawExitCode
    let blocked := step.block code reason useRawExitCode
    ((r.block code reason).setLastStep blocked, blocked)

/-! ### The agent review step -/

inductive HookPhase where
  | preCommit
  | prePush
  deriving DecidableEq, Repr

def HookPhase.name : HookPhase → String
  | preCommit => "pre-commit"
  | prePush => "pre-push"

def HookPhase.receiptPath (phase : HookPhase) : String :=
  "tests/results/_hooks/" ++ phase.name ++ "-agent-review-policy.json"

/-- What the function of the agent review step returns. -/
def reviewOutcome (phase : HookPhase) (selection : ProviderSelection) :
    Except Thrown (CommandResult × Option Json) → Except Thrown StepResult
  | .error e => .error e
  | .ok (command, receipt) =>
    let report := reviewReport phase.receiptPath selection command receipt
    let providers :=
      match report.requestedProviders with
      | [] => "(none)"
      | providers => JsString.join "," (Json.toJsStrings providers)
    .ok { status :=
            if command.status = 0 then
              if overallStatus receipt = "skipped" then .skipped else .ok
            else .failed
          exitCode := command.status
          note := some ("receipt=" ++ phase.receiptPath ++ " selectionSource=" ++
            report.selectionSource ++ " providers=" ++ providers) }

def thrownReport (phase : HookPhase) (selection : ProviderSelection) (e : Thrown) : AgentReview :=
  reviewReport phase.receiptPath selection ⟨e.exitCode.getD 1, .text "", e.message⟩ none

def blockReview (phase : HookPhase) (r : Runner) (step : Step) : Runner :=
  if step.exitCode ≠ 0 then
    (hardFailHookStep r step ("Blocking local collaboration hook failure in " ++ phase.name ++
      ": agent-review-policy reported actionable findings or provider failure.") false).1
  else r

def invokeHookAgentReviewStep (parse : String → Option Json) (r : Runner) (phase : HookPhase)
    (selection : ProviderSelection) (review : ReviewCall) : Runner × AgentReview :=
  let command := reviewCommand parse review
  let (r, step) := runStep r "agent-review-policy" (reviewOutcome phase selection command)
  (blockReview phase r step,
    match command with
    | .ok (command, receipt) => reviewReport phase.receiptPath selection command receipt
    | .error e => thrownReport phase selection e)

/-! ### The delegates -/

/-- What a delegate returns, with the runner that has written the summary. -/
structure HookResult where
  exitCode : ℤ
  agentReview : Option AgentReview
  runner : Runner

/-- `file.match(/\.(ps1|psm1|psd1)$/i)`. -/
def isPowerShellFile (file : String) : Bool :=
  [".ps1", ".psm1", ".psd1"].any fun suffix =>
    suffix.toList.isSuffixOf (file.toList.map Char.toLower)

/-- What the pre-commit hook meets: the staged files, if they can be listed, the PowerShell
validation and the agent review. -/
structure PreCommit where
  enforcement : Enforcement
  staged : Except Thrown (List String)
  pwsh : PwshRun
  selection : ProviderSelection
  review : ReviewCall

/-- `invokePreCommitDelegate`. -/
def preCommitDelegate (parse : String → Option Json) (i : PreCommit) : HookResult :=
  let r := (runStep (.start i.enforcement) "collect-staged"
    (i.staged.map fun _ => ⟨.ok, 0, none⟩)).1
  -- a listing that throws leaves the staged files empty
  match (i.staged.toOption.getD [] : List String) with
  | [] => ⟨0, none, r.addNote "No staged files; hook exited early."⟩
  | file :: files =>
    let r :=
      if (file :: files).any isPowerShellFile then
        let (r, step) := runPwshStep r "powershell-validation" i.pwsh
        (hardFailHookStep r step ("Blocking local collaboration hook failure in pre-commit: " ++
          "PowerShell validation failed.") true).1
      else r.addNote "No staged PowerShell files detected; PowerShell lint skipped."
    let (r, agentReview) := invokeHookAgentReviewStep parse r .preCommit i.selection i.review
    ⟨r.exitCode, some agentReview, r⟩

structure PrePush where
  enforcement : Enforcement
  pwsh : PwshRun
  selection : ProviderSelection
  review : ReviewCall

/-- `invokePrePushDelegate`. -/
def prePushDelegate (parse : String → Option Json) (i : PrePush) : HookResult :=
  let (r, agentReview) :=
    invokeHookAgentReviewStep parse (.start i.enforcement) .prePush i.selection i.review
  let r :=
    if r.exitCode = 0 then
      let (r, step) := runPwshStep r "pre-push-checks" i.pwsh
      (hardFailHookStep r step ("Blocking local collaboration hook failure in pre-push: " ++
        "core pre-push checks failed.") true).1
    else r.addNote "Skipped core pre-push checks because local agent review failed."
  ⟨r.exitCode, some agentReview, r⟩

/-! ### What the hooks are for -/

def PwshRun.passed : PwshRun → Bool
  | unavailable => true
  | ran result => result.status = some 0

def PwshRun.killed : PwshRun → Bool
  | unavailable => false
  | ran result => result.status.isNone && result.error.isNone

def ReviewCall.stepFails (parse : String → Option Json) (review : ReviewCall) : Bool :=
  match reviewCommand parse review with
  | .error _ => true
  | .ok (command, _) => command.status ≠ 0

def ReviewCall.reportsFailure (parse : String → Option Json) (review : ReviewCall) : Bool :=
  match reviewCommand parse review with
  | .error _ => false
  | .ok (_, receipt) => overallStatus receipt = "failed"

def ReviewCall.fails (parse : String → Option Json) (review : ReviewCall) : Bool :=
  review.stepFails parse || review.reportsFailure parse

/-- The PowerShell validation is due: a PowerShell file is staged, as far as the staged
files could be listed. -/
def PreCommit.validationDue (i : PreCommit) : Bool :=
  match i.staged with
  | .error _ => true
  | .ok files => files.any isPowerShellFile

/-- What the pre-commit hook is for. -/
def PreCommitLaw (parse : String → Option Json) (i : PreCommit) : Prop :=
  (preCommitDelegate parse i).exitCode = 0 →
    (i.validationDue = true → i.pwsh.passed = true) ∧
    (i.enforcement = .fail → (preCommitDelegate parse i).agentReview.isSome = true →
      i.review.fails parse = false)

/-- The hook has run the core pre-push checks. -/
def HookResult.ranChecks (result : HookResult) : Prop :=
  ∃ step ∈ result.runner.steps, step.name = "pre-push-checks"

/-- What the pre-push hook is for. -/
def PrePushLaw (parse : String → Option Json) (i : PrePush) : Prop :=
  ((prePushDelegate parse i).exitCode = 0 → i.pwsh.passed = true ∧
    (i.enforcement = .fail → i.review.fails parse = false)) ∧
  (¬ (i.enforcement = .fail ∧ i.review.stepFails parse = true) →
    (prePushDelegate parse i).ranChecks)

inductive Hook where
  | preCommit (i : PreCommit)
  | prePush (i : PrePush)

def HookLaw (parse : String → Option Json) : Hook → Prop
  | .preCommit i => PreCommitLaw parse i
  | .prePush i => PrePushLaw parse i

/-! ### The conditions -/

def PwshRun.stepFails : PwshRun → Bool
  | unavailable => false
  | ran result => result.status ≠ some 0 || result.error.isSome

def ReviewCall.failsSilently (parse : String → Option Json) (review : ReviewCall) : Bool :=
  !review.stepFails parse && review.reportsFailure parse

/-- No process is killed where the mode takes failures back, no review fails silently where
it counts, and the staged files can be listed. -/
def PreCommit.Sound (parse : String → Option Json) (i : PreCommit) : Prop :=
  match i.staged with
  | .error _ => i.pwsh.passed = true
  | .ok files =>
    (files.any isPowerShellFile = true → i.enforcement ≠ .fail → i.pwsh.killed = false) ∧
    (files ≠ [] → i.enforcement = .fail →
      (files.any isPowerShellFile = true → i.pwsh.stepFails = false) →
      i.review.failsSilently parse = false)

def PrePush.Sound (parse : String → Option Json) (i : PrePush) : Prop :=
  (i.enforcement ≠ .fail → i.pwsh.killed = false) ∧
  (i.enforcement = .fail → i.pwsh.stepFails = false → i.review.failsSilently parse = false)

def Hook.Sound (parse : String → Option Json) : Hook → Prop
  | .preCommit i => i.Sound parse
  | .prePush i => i.Sound parse

/-! ### Exit codes -/

variable {parse : String → Option Json} {r : Runner} {e : Enforcement}

@[simp] theorem addNote_exitCode (note : String) : (r.addNote note).exitCode = r.exitCode := rfl

@[simp] theorem addNote_enforcement (note : String) :
    (r.addNote note).enforcement = r.enforcement := rfl

@[simp] theorem setLastStep_exitCode (step : Step) :
    (r.setLastStep step).exitCode = r.exitCode := rfl

@[simp] theorem setLastStep_enforcement (step : Step) :
    (r.setLastStep step).enforcement = r.enforcement := rfl

@[simp] theorem pushStep_exitCode (step : Step) : (r.pushStep step).exitCode = r.exitCode := rfl

@[simp] theorem pushStep_enforcement (step : Step) :
    (r.pushStep step).enforcement = r.enforcement := rfl

@[simp] theorem warn_exitCode : r.warn.exitCode = r.exitCode := rfl

@[simp] theorem warn_enforcement : r.warn.enforcement = r.enforcement := rfl

@[simp] theorem stepOf_rawExitCode (name : String) (outcome : Except Thrown StepResult) :
    (stepOf name outcome).rawExitCode = (stepOf name outcome).exitCode := by
  cases outcome <;> rfl

@[simp] theorem applyEnforcement_rawExitCode (step : Step) :
    (applyEnforcement r step).2.rawExitCode = step.rawExitCode := by
  unfold applyEnforcement
  split
  · split <;> rfl
  · rfl

@[simp] theorem applyEnforcement_enforcement (step : Step) :
    (applyEnforcement r step).1.enforcement = r.enforcement := by
  unfold applyEnforcement
  split
  · split <;> rfl
  · split <;> rfl

/-- **Enforcement.** A failure counts in mode `fail` only. -/
theorem applyEnforcement_exitCode (step : Step) :
    (applyEnforcement r step).1.exitCode = 0 ↔
      if r.enforcement = .fail ∧ step.failed = true then False else r.exitCode = 0 := by
  unfold applyEnforcement
  cases hf : step.failed with
  | false =>
    simp only [Bool.false_eq_true, if_false, and_false]
    split <;> simp
  | true =>
    cases he : r.enforcement with
    | fail =>
      simp only [if_true, and_self, iff_false]
      split <;> simp_all
    | warn => simp
    | off => simp

theorem applyEnforcement_step_exitCode (step : Step) :
    (applyEnforcement r step).2.exitCode = if r.enforcement = .fail then step.exitCode else 0 := by
  unfold applyEnforcement
  cases hf : step.failed with
  | false =>
    have hzero : step.exitCode = 0 := by
      simp only [Step.failed, Bool.or_eq_false_iff, decide_eq_false_iff_not, not_not] at hf
      exact hf.2
    simp [hzero]
  | true => cases he : r.enforcement <;> simp

/-- **Promotion.** It leaves the runner's exit code at 0 only where there is nothing to
promote. -/
theorem hardFailHookStep_exitCode (step : Step) (reason : String) (useRaw : Bool) :
    (hardFailHookStep r step reason useRaw).1.exitCode = 0 ↔
      step.effectiveExitCode useRaw = 0 ∧ r.exitCode = 0 := by
  unfold hardFailHookStep
  by_cases heff : step.effectiveExitCode useRaw = 0
  · simp [heff]
  · have hcode : (if step.rawExitCode = 0 then step.effectiveExitCode useRaw
        else step.rawExitCode) ≠ 0 := by
      split
      · exact heff
      · assumption
    simp only [heff, false_and, iff_false]
    exact hcode

@[simp] theorem hardFailHookStep_enforcement (step : Step) (reason : String) (useRaw : Bool) :
    (hardFailHookStep r step reason useRaw).1.enforcement = r.enforcement := by
  unfold hardFailHookStep
  dsimp only
  split <;> rfl

@[simp] theorem runStep_enforcement (name : String) (outcome : Except Thrown StepResult) :
    (runStep r name outcome).1.enforcement = r.enforcement := by
  simp [runStep]

/-- The failure of the script's step counts: in mode `fail` any, otherwise one with a raw
exit code. -/
def PwshRun.blocks (e : Enforcement) (pwsh : PwshRun) : Bool :=
  if e = .fail then pwsh.stepFails else !pwsh.passed && !pwsh.killed

theorem stepOf_pwshOutcome_failed (name : String) (pwsh : PwshRun) :
    (stepOf name (pwshOutcome pwsh)).failed = pwsh.stepFails := by
  cases pwsh with
  | unavailable => rfl
  | ran result =>
    obtain ⟨status, stdout, stderr, error⟩ := result
    cases error with
    | some message => simp [pwshOutcome, stepOf, Step.failed, PwshRun.stepFails]
    | none =>
      cases status with
      | none => simp [pwshOutcome, stepOf, Step.failed, PwshRun.stepFails]
      | some n =>
        by_cases hn : n = 0 <;> simp [pwshOutcome, stepOf, Step.failed, PwshRun.stepFails, hn]

theorem stepOf_pwshOutcome_exitCode (name : String) (pwsh : PwshRun) :
    (stepOf name (pwshOutcome pwsh)).exitCode = 0 ↔
      (!pwsh.passed && !pwsh.killed) = false := by
  cases pwsh with
  | unavailable => simp [pwshOutcome, stepOf, PwshRun.passed]
  | ran result =>
    obtain ⟨status, stdout, stderr, error⟩ := result
    cases error <;> cases status <;>
      simp [pwshOutcome, stepOf, PwshRun.passed, PwshRun.killed]

theorem passed_of_not_stepFails {pwsh : PwshRun} (h : pwsh.stepFails = false) :
    pwsh.passed = true := by
  cases pwsh with
  | unavailable => rfl
  | ran result =>
    simp only [PwshRun.stepFails, Bool.or_eq_false_iff, decide_eq_false_iff_not, not_not] at h
    simpa [PwshRun.passed] using h.1

/-- **A blocking script.** -/
theorem pwshStep_exitCode (name reason : String) (pwsh : PwshRun) :
    (hardFailHookStep (runPwshStep r name pwsh).1 (runPwshStep r name pwsh).2 reason
      true).1.exitCode = 0 ↔ r.exitCode = 0 ∧ pwsh.blocks r.enforcement = false := by
  rw [hardFailHookStep_exitCode]
  simp only [runPwshStep, runStep, Step.effectiveExitCode, if_true, pushStep_exitCode,
    applyEnforcement_rawExitCode, stepOf_rawExitCode, applyEnforcement_exitCode,
    stepOf_pwshOutcome_failed, stepOf_pwshOutcome_exitCode, PwshRun.blocks]
  by_cases he : r.enforcement = .fail
  · simp only [he, true_and, if_true]
    cases hf : pwsh.stepFails with
    | true => simp
    | false => simp [passed_of_not_stepFails hf]
  · simp [he, and_comm]

/-- **The agent review step.** It blocks in mode `fail` only. -/
theorem reviewStep_exitCode (phase : HookPhase) (selection : ProviderSelection)
    (review : ReviewCall) :
    (invokeHookAgentReviewStep parse r phase selection review).1.exitCode = 0 ↔
      r.exitCode = 0 ∧ ¬ (r.enforcement = .fail ∧ review.stepFails parse = true) := by
  have hfailed : (stepOf "agent-review-policy"
      (reviewOutcome phase selection (reviewCommand parse review))).failed =
      review.stepFails parse := by
    unfold ReviewCall.stepFails
    cases reviewCommand parse review with
    | error e => simp [reviewOutcome, stepOf, Step.failed]
    | ok result =>
      obtain ⟨command, receipt⟩ := result
      by_cases hstatus : command.status = 0
      · by_cases hskipped : overallStatus receipt = "skipped" <;>
          simp [reviewOutcome, stepOf, Step.failed, hstatus, hskipped]
      · simp [reviewOutcome, stepOf, Step.failed, hstatus]
  simp only [invokeHookAgentReviewStep, runStep]
  generalize stepOf "agent-review-policy"
    (reviewOutcome phase selection (reviewCommand parse review)) = step at hfailed ⊢
  unfold blockReview
  by_cases hne : (applyEnforcement r step).2.exitCode = 0
  · rw [if_neg (not_not.mpr hne), pushStep_exitCode, applyEnforcement_exitCode, hfailed]
    split
    · next h => simp [h]
    · next h => simp [h]
  · rw [if_pos hne, hardFailHookStep_exitCode]
    -- the step has kept its exit code, so the mode is `fail` and the step has failed
    have he : r.enforcement = .fail := by
      by_contra h
      simp [applyEnforcement_step_exitCode, h] at hne
    have hstep : review.stepFails parse = true := by
      rw [applyEnforcement_step_exitCode, if_pos he] at hne
      rw [← hfailed, Step.failed, Bool.or_eq_true]
      exact .inr (by simpa using hne)
    simp [Step.effectiveExitCode, hne, he, hstep]

@[simp] theorem reviewStep_enforcement (phase : HookPhase) (selection : ProviderSelection)
    (review : ReviewCall) :
    (invokeHookAgentReviewStep parse r phase selection review).1.enforcement = r.enforcement := by
  simp only [invokeHookAgentReviewStep, runStep]
  generalize stepOf "agent-review-policy"
    (reviewOutcome phase selection (reviewCommand parse review)) = step
  unfold blockReview
  by_cases hne : (applyEnforcement r step).2.exitCode = 0
  · rw [if_neg (not_not.mpr hne)]
    simp
  · rw [if_pos hne]
    simp

/-! ### The delegates' exit codes -/

def ReviewCall.blocks (parse : String → Option Json) (e : Enforcement) (review : ReviewCall) :
    Bool :=
  e = .fail && review.stepFails parse

theorem collect_exitCode (e : Enforcement) :
    (runStep (.start e) "collect-staged" (.ok ⟨.ok, 0, none⟩)).1.exitCode = 0 := by
  cases e <;> rfl

/-- **The pre-commit hook.** It returns 0 where no file is listed, and otherwise where
neither the validation nor the review blocks. -/
theorem preCommit_exitCode (i : PreCommit) :
    (preCommitDelegate parse i).exitCode = 0 ↔
      i.staged.toOption.getD [] = [] ∨
        ((i.staged.toOption.getD []).any isPowerShellFile = true →
          i.pwsh.blocks i.enforcement = false) ∧ i.review.blocks parse i.enforcement = false := by
  obtain ⟨e, staged, pwsh, selection, review⟩ := i
  cases staged with
  | error thrown => simp [preCommitDelegate, Except.toOption]
  | ok files =>
    cases files with
    | nil => simp [preCommitDelegate, Except.toOption]
    | cons file files =>
      have hreview : ∀ r : Runner, r.enforcement = e →
          ((invokeHookAgentReviewStep parse r .preCommit selection review).1.exitCode = 0 ↔
            r.exitCode = 0 ∧ review.blocks parse e = false) := by
        intro r hr
        rw [reviewStep_exitCode, hr, ReviewCall.blocks]
        simp
      have hzero := collect_exitCode e
      have henf : (runStep (.start e) "collect-staged" (.ok ⟨.ok, 0, none⟩)).1.enforcement = e := by
        rw [runStep_enforcement]
        rfl
      simp only [preCommitDelegate, Except.toOption, Option.getD_some, reduceCtorEq, false_or,
        Except.map]
      generalize (runStep (.start e) "collect-staged" (.ok ⟨.ok, 0, none⟩)).1 = r at hzero henf ⊢
      split
      · next hps =>
        rw [hreview _ (by simp [runPwshStep, henf]), pwshStep_exitCode, henf]
        simp only [hps, hzero, true_and, forall_const]
      · next hps =>
        rw [hreview _ (by simp [henf])]
        simp [hps, hzero]

theorem preCommit_agentReview (i : PreCommit) :
    (preCommitDelegate parse i).agentReview.isSome = true ↔
      i.staged.toOption.getD [] ≠ [] := by
  obtain ⟨e, staged, pwsh, selection, review⟩ := i
  cases staged with
  | error thrown => simp [preCommitDelegate, Except.toOption]
  | ok files => cases files <;> simp [preCommitDelegate, Except.toOption]

/-- **The pre-push hook.** It returns 0 where neither the review nor the checks block. -/
theorem prePush_exitCode (i : PrePush) :
    (prePushDelegate parse i).exitCode = 0 ↔
      i.review.blocks parse i.enforcement = false ∧ i.pwsh.blocks i.enforcement = false := by
  have hreview : (invokeHookAgentReviewStep parse (.start i.enforcement) .prePush i.selection
      i.review).1.exitCode = 0 ↔ i.review.blocks parse i.enforcement = false := by
    rw [reviewStep_exitCode, ReviewCall.blocks]
    simp [Runner.start]
  have henf : (invokeHookAgentReviewStep parse (.start i.enforcement) .prePush i.selection
      i.review).1.enforcement = i.enforcement := by
    rw [reviewStep_enforcement]
    rfl
  simp only [prePushDelegate]
  rw [← hreview]
  generalize (invokeHookAgentReviewStep parse (.start i.enforcement) .prePush i.selection
    i.review).1 = r at henf ⊢
  by_cases hzero : r.exitCode = 0
  · rw [if_pos hzero, pwshStep_exitCode, henf]
  · rw [if_neg hzero, addNote_exitCode]
    simp [hzero]

theorem pwshStep_mem (name reason : String) (pwsh : PwshRun) :
    ∃ step ∈ (hardFailHookStep (runPwshStep r name pwsh).1 (runPwshStep r name pwsh).2 reason
      true).1.steps, step.name = name := by
  have hname : (runPwshStep r name pwsh).2.name = name := by
    have hstep : ∀ outcome, (stepOf name outcome).name = name := by
      intro outcome
      cases outcome <;> rfl
    simp only [runPwshStep, runStep, applyEnforcement]
    split
    · split <;> exact hstep _
    · exact hstep _
  have hmem : (runPwshStep r name pwsh).2 ∈ (runPwshStep r name pwsh).1.steps := by
    simp [runPwshStep, runStep, Runner.pushStep]
  unfold hardFailHookStep
  dsimp only
  split
  · exact ⟨_, hmem, hname⟩
  · refine ⟨_, List.mem_append_right _ List.mem_cons_self, ?_⟩
    exact hname

theorem prePush_ranChecks (i : PrePush) (h : i.review.blocks parse i.enforcement = false) :
    (prePushDelegate parse i).ranChecks := by
  have hzero : (invokeHookAgentReviewStep parse (.start i.enforcement) .prePush i.selection
      i.review).1.exitCode = 0 := by
    rw [reviewStep_exitCode]
    refine ⟨rfl, fun hblocks => ?_⟩
    have htrue : i.review.blocks parse i.enforcement = true := by
      simpa [ReviewCall.blocks, Runner.start] using hblocks
    rw [h] at htrue
    cases htrue
  simp only [HookResult.ranChecks, prePushDelegate]
  rw [if_pos hzero]
  exact pwshStep_mem ..

/-! ### The law -/

/-- **A script that does not block has passed**, unless its process was killed and the mode
takes failures back. -/
theorem passed_of_not_blocks_iff {e : Enforcement} {pwsh : PwshRun} :
    (pwsh.blocks e = false → pwsh.passed = true) ↔ (e ≠ .fail → pwsh.killed = false) := by
  by_cases he : e = .fail
  · rw [PwshRun.blocks, if_pos he]
    exact ⟨fun _ h => absurd he h, fun _ => passed_of_not_stepFails⟩
  · rw [PwshRun.blocks, if_neg he]
    have hnot : pwsh.passed = true → pwsh.killed = false := by
      cases pwsh with
      | unavailable => exact fun _ => rfl
      | ran result =>
        simp only [PwshRun.passed, PwshRun.killed, decide_eq_true_eq]
        intro hstatus
        simp [hstatus]
    cases hp : pwsh.passed with
    | true => simp [hnot hp]
    | false => cases hk : pwsh.killed <;> simp [he]

/-- **A review that does not block has not failed**, unless silently. -/
theorem not_fails_of_not_blocks_iff {review : ReviewCall} :
    (review.blocks parse .fail = false → review.fails parse = false) ↔
      review.failsSilently parse = false := by
  cases hs : review.stepFails parse <;>
    simp [ReviewCall.blocks, ReviewCall.fails, ReviewCall.failsSilently, hs]

theorem not_blocks_of_ne_fail {e : Enforcement} (he : e ≠ .fail) (review : ReviewCall) :
    review.blocks parse e = false := by
  simp [ReviewCall.blocks, he]

theorem preCommitLaw_iff (i : PreCommit) : PreCommitLaw parse i ↔ i.Sound parse := by
  obtain ⟨e, staged, pwsh, selection, review⟩ := i
  rw [PreCommitLaw, preCommit_exitCode, preCommit_agentReview]
  cases staged with
  | error thrown =>
    simp [Except.toOption, PreCommit.validationDue, PreCommit.Sound]
  | ok files =>
    simp only [Except.toOption, Option.getD_some, PreCommit.validationDue, PreCommit.Sound]
    rw [← passed_of_not_blocks_iff]
    cases files with
    | nil => simp
    | cons file files =>
      generalize (file :: files).any isPowerShellFile = due
      simp only [reduceCtorEq, false_or, ne_eq, not_false_eq_true, forall_const]
      by_cases he : e = .fail
      · subst he
        simp only [PwshRun.blocks, if_true, forall_const, ← not_fails_of_not_blocks_iff]
        constructor
        · exact fun h => ⟨fun _ => passed_of_not_stepFails, fun hp hr => (h ⟨hp, hr⟩).2⟩
        · exact fun h hb => ⟨fun hdue => h.1 hdue (hb.1 hdue), h.2 hb.1 hb.2⟩
      · simp only [not_blocks_of_ne_fail he, and_true, he, false_implies]
        constructor
        · exact fun h hdue hp => h (fun _ => hp) hdue
        · exact fun h hb hdue => h hdue (hb hdue)

theorem prePushLaw_iff (i : PrePush) : PrePushLaw parse i ↔ i.Sound parse := by
  have hchecks : ¬ (i.enforcement = .fail ∧ i.review.stepFails parse = true) →
      (prePushDelegate parse i).ranChecks := by
    intro h
    refine prePush_ranChecks i ?_
    rw [ReviewCall.blocks, Bool.and_eq_false_imp]
    intro he
    cases hs : i.review.stepFails parse with
    | false => rfl
    | true => exact absurd ⟨of_decide_eq_true he, hs⟩ h
  rw [PrePushLaw, and_iff_left hchecks, prePush_exitCode, PrePush.Sound,
    ← passed_of_not_blocks_iff]
  by_cases he : i.enforcement = .fail
  · -- what fails blocks, so only a silent failure of the review is left
    simp only [he, PwshRun.blocks, if_true, forall_const, ← not_fails_of_not_blocks_iff]
    constructor
    · exact fun h => ⟨passed_of_not_stepFails, fun hp hr => (h ⟨hr, hp⟩).2⟩
    · exact fun h hb => ⟨h.1 hb.2, h.2 hb.2 hb.1⟩
  · -- the review does not block
    simp only [not_blocks_of_ne_fail he, true_and, he, false_implies, and_true]

/-- **The hook gates.** A hook does what it is for exactly when no PowerShell process is
killed in a mode that takes failures back, no agent review that counts fails with exit code
0, and the staged files can be listed or need no validation. -/
theorem hookLaw_iff (parse : String → Option Json) (hook : Hook) :
    HookLaw parse hook ↔ hook.Sound parse := by
  cases hook with
  | preCommit i => exact preCommitLaw_iff i
  | prePush i => exact prePushLaw_iff i

/-- Core pre-push checks killed by a signal, in mode `warn`. -/
def killedChecks : PrePush where
  enforcement := .warn
  pwsh := .ran ⟨none, "", "", none⟩
  selection := ⟨"default-empty", []⟩
  review := .injected (.ok ⟨none, some 0, "", ""⟩)

/-- The hook returns 0. -/
theorem not_hookLaw_killedChecks : ¬ HookLaw (fun _ => none) (.prePush killedChecks) := by
  intro h
  have hpassed := (h.1 (by decide +kernel)).1
  cases hpassed

end CompareVI.LocalCollab
