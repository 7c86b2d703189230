import CompareVI.Framework.PsString
import CompareVI.Framework.Run
import Mathlib.Data.Int.Notation
import Mathlib.Data.List.Infix

/-!
# What the compare loop counts

Each iteration of `Invoke-IntegrationCompareLoop` is skipped, or it runs a compare in one of
three ways (an executor that was handed in, the report capture, `Invoke-CompareVI`) and then
classifies what it got. The loop counts differences and errors as it goes, and it writes a
record for every iteration.

The counts should be those of the records, and no record should be a difference and an error
(`Accounts`). The differences always are. `described_iff` says for which iterations the errors
are: an error that is caught is counted only if what follows sees an exit code that is neither
`0` nor `1`, and the exit code is read from the text of the error.

What the functions of .NET say of paths and characters is a parameter.
-/

open Framework
open Framework.PsString

namespace CompareVI.CompareLoop

/-! ### Texts -/

structure LoopEnv where
  /-- `\d` in a pattern. -/
  isDigit : Char → Bool
  isPathRooted : String → Bool
  joinPath : String → String → String
  joinPath_ne_empty : ∀ path child, child ≠ "" → joinPath path child ≠ ""
  /-- `(Resolve-Path -LiteralPath path).Path`, where the path exists. -/
  resolvePath : String → Option String

def matchesText (content pattern : String) : Bool :=
  decide (pattern.toList.map Char.toLower <:+: content.toList.map Char.toLower)

def behindWord (word : String) (rest : List Char) : Option (List Char) :=
  if (word.toList.map Char.toLower).isPrefixOf (rest.map Char.toLower) then
    some (rest.drop word.toList.length)
  else none

def behindBlanks (rest : List Char) : Option (List Char) :=
  if (rest.takeWhile isWhiteSpace) = [] then none else some (rest.dropWhile isWhiteSpace)

/-- What `(-?\d+)` matches at the start of a text. -/
def numberAt (env : LoopEnv) (rest : List Char) : Option (List Char) :=
  let sign := if rest.head? = some '-' then ['-'] else []
  let digits := (rest.drop sign.length).takeWhile env.isDigit
  if digits = [] then none else some (sign ++ digits)

/-- `[int]` of a number that was matched, where it is one of 32 bits. -/
def intOf? (number : List Char) : Option ℤ :=
  let digits := number.dropWhile (· = '-')
  let n : ℤ := Nat.ofDigitChars 10 digits 0
  let signed := if number.head? = some '-' then -n else n
  if digits.all Char.isDigit ∧ -2147483648 ≤ signed ∧ signed ≤ 2147483647 then some signed else none

/-- The exit code that the text of an error tells: `exit code\s+(-?\d+)`, the first match. -/
def messageExitCode (env : LoopEnv) (message : String) : Option ℤ :=
  (message.toList.tails.findSome? fun rest =>
    ((behindWord "exit code" rest).bind behindBlanks).bind (numberAt env)).bind intOf?

/-! ### Reports -/

/-- What `-reportPath\s+(?:"([^"]+)"|(\S+))` takes for the path at the start of a text. -/
def reportArgument (rest : List Char) : Option (List Char) :=
  let plain := rest.takeWhile fun c => !isWhiteSpace c
  let quoted := (rest.drop 1).takeWhile (· ≠ '"')
  if rest.head? = some '"' ∧ quoted ≠ [] ∧ quoted.length < (rest.drop 1).length then some quoted
  else if plain = [] then none
  else some plain

/-- The command of a compare and the directory in which it ran. -/
structure Invocation where
  command : String
  cwd : String

def getReportPathFromCommand (env : LoopEnv) (i : Invocation) : Option String :=
  if isNullOrWhiteSpace (some i.command) then none
  else
    ((i.command.toList.tails.findSome? fun rest =>
      ((behindWord "-reportPath" rest).bind behindBlanks).bind reportArgument).map
        String.ofList).bind fun value =>
      if isNullOrWhiteSpace (some value) then none
      else if env.isPathRooted value ∨ isNullOrWhiteSpace (some i.cwd) then some value
      else some ((env.resolvePath (env.joinPath i.cwd value)).getD (env.joinPath i.cwd value))

/-- `Test-ReportHasDifferences`, from what can be read of files. -/
def testReportHasDifferences (files : String → Option String) (reportPath : Option String) :
    Bool :=
  !isNullOrWhiteSpace reportPath &&
    ((reportPath.bind files).any fun content =>
      !isNullOrWhiteSpace (some content) &&
        (matchesText content "Difference Type:" || matchesText content "class=\"diff-detail\""))

/-- `iteration-0001` and so on. -/
def iterationLabel (iteration : ℕ) : String :=
  let digits := Nat.toDigits 10 iteration
  "iteration-" ++ String.ofList (List.replicate (4 - digits.length) '0' ++ digits)

/-! ### Running a compare -/

inductive DiffSummaryFormat where
  | none
  | text
  | markdown
  | html
deriving DecidableEq

structure LoopParams where
  maxIterations : ℤ
  skipIfUnchanged : Bool
  failOnDiff : Bool
  useEventDriven : Bool
  compareExecutor : Bool
  renderReport : Bool
  diffSummaryFormat : DiffSummaryFormat
  reportRoot : String

/-- What `Invoke-CompareVI` returns. -/
structure CompareResult extends Invocation where
  exitCode : ℤ
  diff : Bool

/-- The capture that `Invoke-LVCompare.ps1` leaves. -/
structure Capture extends Invocation where
  /-- What `[int]` makes of the exit code, where it can. -/
  exitCode : Option ℤ

inductive CaptureOutcome where
  | failed
  | finished (capture : Option Capture)

structure Iteration where
  received : Bool
  baseChanged : Bool
  headChanged : Bool
  executor : ℤ
  capture : CaptureOutcome
  /-- What `Invoke-CompareVI` returns, or the text of what it throws. -/
  compareVI : Except String CompareResult
  files : String → Option String

def skipReason (params : LoopParams) (o : Iteration) : Option String :=
  if params.useEventDriven then (if o.received then none else some "no-change-event")
  else if params.skipIfUnchanged && !(o.baseChanged || o.headChanged) then some "unchanged"
  else none

inductive Status where
  | skipped
  | ok
  | error
deriving DecidableEq

/-- What is known when the compare of an iteration is over. -/
structure Execution where
  exitCode : ℤ
  status : Status
  compareResult : Option Invocation
  reportPath : Option String
  resultDiff : Option Bool

def useReportCapture (params : LoopParams) : Bool :=
  params.renderReport || params.diffSummaryFormat ≠ .none

def capturedReport (env : LoopEnv) (params : LoopParams) (iteration : ℕ) : String :=
  env.joinPath (env.joinPath params.reportRoot (iterationLabel iteration)) "compare-report.html"

/-- `& $CompareExecutor`. -/
def runExecutor (o : Iteration) : Execution where
  exitCode := o.executor
  status := .ok
  compareResult := none
  reportPath := none
  resultDiff := none

/-- The report capture and its `catch`. -/
def runCapture (env : LoopEnv) (params : LoopParams) (iteration : ℕ) (o : Iteration) : Execution :=
  match o.capture with
  | .failed => ⟨-999, .error, none, none, none⟩
  | .finished none => ⟨0, .ok, none, some (capturedReport env params iteration), none⟩
  | .finished (some capture) =>
    -- the path is set before the exit code is converted
    match capture.exitCode with
    | none =>
      ⟨-999, .error, some capture.toInvocation, some (capturedReport env params iteration), none⟩
    | some exitCode =>
      ⟨exitCode, .ok, some capture.toInvocation, some (capturedReport env params iteration), none⟩

/-- `Invoke-CompareVI` and its `catch`. -/
def runCompareVI (env : LoopEnv) (o : Iteration) : Execution :=
  match o.compareVI with
  | .error message => ⟨(messageExitCode env message).getD (-999), .error, none, none, none⟩
  | .ok result => ⟨result.exitCode, .ok, some result.toInvocation, none, some result.diff⟩

/-! ### Classifying it -/

/-- What the iteration is, and what is added to the counts. -/
structure Classified where
  diff : Bool
  status : Status
  reportPath : Option String
  diffCount : ℕ
  errorCount : ℕ

/-- The report of a compare that was captured: where none is known, the one that its command
names. -/
def shownReport (env : LoopEnv) (x : Execution) : Option String :=
  if x.reportPath.all (· = "") then
    x.compareResult.bind fun i => if i.command = "" then none else getReportPathFromCommand env i
  else x.reportPath

def classifyReport (env : LoopEnv) (o : Iteration) (x : Execution) : Classified :=
  let reportPath := shownReport env x
  if x.exitCode = 1 then ⟨true, x.status, reportPath, 1, 0⟩
  else if testReportHasDifferences o.files reportPath then ⟨true, x.status, reportPath, 1, 0⟩
  else if x.exitCode ≠ 0 then ⟨false, .error, reportPath, 0, 1⟩
  else ⟨false, x.status, reportPath, 0, 0⟩

def classifyExit (env : LoopEnv) (o : Iteration) (x : Execution) : Classified :=
  if x.exitCode = 0 then
    match x.compareResult with
    | none => ⟨false, x.status, x.reportPath, 0, 0⟩
    | some i =>
      let reportPath := getReportPathFromCommand env i
      if testReportHasDifferences o.files reportPath then ⟨true, x.status, reportPath, 1, 0⟩
      else ⟨false, x.status, reportPath, 0, 0⟩
  else if x.exitCode = 1 then
    if x.resultDiff.getD true then ⟨true, x.status, x.reportPath, 1, 0⟩
    else ⟨false, .error, x.reportPath, 0, 1⟩
  else ⟨false, .error, x.reportPath, 0, 1⟩

def execute (env : LoopEnv) (params : LoopParams) (iteration : ℕ) (o : Iteration) : Execution :=
  if params.compareExecutor then runExecutor o
  else if useReportCapture params then runCapture env params iteration o
  else runCompareVI env o

def classify (env : LoopEnv) (params : LoopParams) (o : Iteration) (x : Execution) : Classified :=
  if useReportCapture params && !params.compareExecutor then classifyReport env o x
  else classifyExit env o x

/-! ### The loop -/

/-- A record of `$records`. -/
structure Record where
  iteration : ℕ
  diff : Bool
  exitCode : Option ℤ
  status : Status
  skipReason : Option String
  reportPath : Option String
  baseChanged : Bool
  headChanged : Bool

structure Loop where
  iteration : ℕ
  diffCount : ℕ
  errorCount : ℕ
  records : List Record
  /-- `$reportPath`, where the variable is set. -/
  reportPath : Option (Option String)

/-- The loop when it starts, with the `$reportPath` of the scopes around it. -/
def Loop.start (reportPath : Option (Option String)) : Loop := ⟨0, 0, 0, [], reportPath⟩

inductive LoopState where
  | looping (s : Loop)
  /-- `break`. -/
  | stopped (s : Loop)
  | thrown

def Loop.next (s : Loop) (o : Iteration) (skipReason : Option String) (exitCode : Option ℤ)
    (c : Classified) : Loop where
  iteration := s.iteration + 1
  diffCount := s.diffCount + c.diffCount
  errorCount := s.errorCount + c.errorCount
  records := s.records ++ [
    { iteration := s.iteration + 1
      diff := c.diff
      exitCode
      status := c.status
      skipReason
      reportPath := c.reportPath
      baseChanged := o.baseChanged
      headChanged := o.headChanged }]
  reportPath := some c.reportPath

/-- The end of an iteration: `FailOnDiff`. -/
def finishIteration (params : LoopParams) (t : Loop) (diff : Bool) : LoopState :=
  if params.failOnDiff && diff then .stopped t else .looping t

/-- An iteration. The record of a skipped one reads `$reportPath`, which strict mode refuses where
no iteration has set it. -/
def iterate (env : LoopEnv) (params : LoopParams) (s : Loop) (o : Iteration) : LoopState :=
  match skipReason params o with
  | some reason =>
    match s.reportPath with
    | none => .thrown
    | some reportPath =>
      finishIteration params (s.next o (some reason) none ⟨false, .skipped, reportPath, 0, 0⟩) false
  | none =>
    let x := execute env params (s.iteration + 1) o
    let c := classify env params o x
    finishIteration params (s.next o none (some x.exitCode) c) c.diff

def loopStep (env : LoopEnv) (params : LoopParams) : LoopState → Iteration → Option LoopState
  | .looping s, o =>
    if 0 < params.maxIterations ∧ params.maxIterations ≤ s.iteration then none
    else some (iterate env params s o)
  | .stopped _, _ | .thrown, _ => none

structure LoopResult where
  succeeded : Bool
  iterations : ℕ
  diffCount : ℕ
  errorCount : ℕ
  records : List Record

def Loop.result (s : Loop) : LoopResult where
  succeeded := s.errorCount = 0
  iterations := s.iteration
  diffCount := s.diffCount
  errorCount := s.errorCount
  records := s.records

def LoopState.result? : LoopState → Option LoopResult
  | .looping s | .stopped s => some s.result
  | .thrown => none

/-! ### The law -/

/-- The counts of a result are those of its records. -/
structure Accounts (r : LoopResult) : Prop where
  diffs : r.diffCount = r.records.countP (·.diff)
  errors : r.errorCount = r.records.countP (·.status = .error)
  exclusive : ∀ record ∈ r.records, ¬ (record.diff = true ∧ record.status = .error)
  succeeded : r.succeeded = true ↔ ∀ record ∈ r.records, record.status ≠ .error

/-- The loop returns a result whose counts are those of its records. -/
def Accounted (s : LoopState) : Prop := ∃ r, s.result? = some r ∧ Accounts r

/-- The report of a capture that could not be converted shows no differences. -/
def CaptureSound (env : LoopEnv) (params : LoopParams) (iteration : ℕ) (o : Iteration) : Prop :=
  ∀ capture, o.capture = .finished (some capture) → capture.exitCode = none →
    testReportHasDifferences o.files (some (capturedReport env params iteration)) = false

/-- The text of an error tells no exit code that stands for success or for differences. -/
def ErrorSound (env : LoopEnv) (o : Iteration) : Prop :=
  ∀ message, o.compareVI = .error message →
    messageExitCode env message ≠ some 0 ∧ messageExitCode env message ≠ some 1

/-- An iteration that the loop accounts for: a skipped one if `$reportPath` is set, and one that
is run if the error that it may meet is not taken for a result. -/
def IterationSound (env : LoopEnv) (params : LoopParams) : LoopState → Iteration → Prop
  | .looping s, o =>
    if (skipReason params o).isSome then s.reportPath.isSome = true
    else if params.compareExecutor then True
    else if useReportCapture params then CaptureSound env params (s.iteration + 1) o
    else ErrorSound env o
  | .stopped _, _ | .thrown, _ => True

/-! ### One iteration -/

section Classified

variable {env : LoopEnv} {params : LoopParams} {o : Iteration}

/-- What an iteration adds to the counts is what its record says. -/
structure Classified.Fair (c : Classified) : Prop where
  errors : c.errorCount = if c.status = .error then 1 else 0
  exclusive : ¬ (c.diff = true ∧ c.status = .error)

/-- What every iteration adds: its difference, and an error only where the record says so. -/
structure Classified.Bounded (c : Classified) : Prop where
  diffs : c.diffCount = if c.diff then 1 else 0
  errors : c.errorCount ≤ if c.status = .error then 1 else 0

theorem bounded_classifyReport (x : Execution) : (classifyReport env o x).Bounded := by
  rw [classifyReport]
  split_ifs
  all_goals exact ⟨rfl, by simp⟩

theorem bounded_classifyExit (x : Execution) : (classifyExit env o x).Bounded := by
  rw [classifyExit]
  split_ifs
  · split
    · exact ⟨rfl, by simp⟩
    · dsimp only
      split_ifs
      all_goals exact ⟨rfl, by simp⟩
  all_goals exact ⟨rfl, by simp⟩

theorem bounded_classify (x : Execution) : (classify env params o x).Bounded := by
  rw [classify]
  split_ifs
  · exact bounded_classifyReport x
  · exact bounded_classifyExit x

variable {x : Execution} {reportPath : Option String}

theorem fair_diff {status : Status} :
    (Classified.mk true status reportPath 1 0).Fair ↔ status ≠ .error := by
  constructor
  · rintro ⟨-, hexclusive⟩ rfl
    exact hexclusive ⟨rfl, rfl⟩
  · intro hstatus
    exact ⟨(if_neg hstatus).symm, fun h => hstatus h.2⟩

theorem fair_clean {status : Status} :
    (Classified.mk false status reportPath 0 0).Fair ↔ status ≠ .error := by
  constructor
  · rintro ⟨herrors, -⟩ rfl
    cases herrors
  · intro hstatus
    exact ⟨(if_neg hstatus).symm, fun h => hstatus h.2⟩

theorem fair_error :
    (Classified.mk false .error reportPath 0 1).Fair :=
  ⟨rfl, fun h => nomatch h.1⟩

theorem fair_classifyExit (env : LoopEnv) (o : Iteration) (h : x.status ≠ .error) :
    (classifyExit env o x).Fair := by
  rw [classifyExit]
  split_ifs
  · split
    · exact fair_clean.mpr h
    · dsimp only
      split_ifs
      · exact fair_diff.mpr h
      · exact fair_clean.mpr h
  · exact fair_diff.mpr h
  · exact fair_error
  · exact fair_error

theorem fair_classifyExit_of_error {exitCode : ℤ} :
    (classifyExit env o ⟨exitCode, .error, none, none, none⟩).Fair ↔
      exitCode ≠ 0 ∧ exitCode ≠ 1 := by
  rw [classifyExit]
  by_cases hzero : exitCode = 0
  · rw [if_pos hzero]
    exact iff_of_false (fun h => fair_clean.mp h rfl) fun h => h.1 hzero
  · rw [if_neg hzero]
    by_cases hone : exitCode = 1
    · rw [if_pos hone]
      exact iff_of_false (fun h => fair_diff.mp h rfl) fun h => h.2 hone
    · rw [if_neg hone]
      exact iff_of_true fair_error ⟨hzero, hone⟩

theorem fair_classifyReport (env : LoopEnv) (o : Iteration) (h : x.status ≠ .error) :
    (classifyReport env o x).Fair := by
  rw [classifyReport]
  split_ifs
  · exact fair_diff.mpr h
  · exact fair_diff.mpr h
  · exact fair_error
  · exact fair_clean.mpr h

theorem fair_classifyReport_of_error (hstatus : x.status = .error) (hcode : x.exitCode = -999) :
    (classifyReport env o x).Fair ↔
      testReportHasDifferences o.files (shownReport env x) = false := by
  have hone : x.exitCode ≠ 1 := by rw [hcode]; decide
  have hzero : x.exitCode ≠ 0 := by rw [hcode]; decide
  rw [classifyReport, if_neg hone, if_pos hzero]
  cases testReportHasDifferences o.files (shownReport env x) with
  | true => exact iff_of_false (fun h => fair_diff.mp h hstatus) nofun
  | false => exact iff_of_true fair_error rfl

theorem shownReport_of_set {path : String} (h : x.reportPath = some path) (hpath : path ≠ "") :
    shownReport env x = some path := by
  have hset : ¬ x.reportPath.all (· = "") = true := by
    rw [h, Option.all_some, decide_eq_true_iff]
    exact hpath
  rw [shownReport, if_neg hset, h]

theorem fair_runCompareVI : (classifyExit env o (runCompareVI env o)).Fair ↔ ErrorSound env o := by
  cases hcompare : o.compareVI with
  | ok result =>
    have hstatus : (runCompareVI env o).status = .ok := by rw [runCompareVI, hcompare]
    refine iff_of_true (fair_classifyExit env o (hstatus ▸ nofun)) fun message hmessage => ?_
    rw [hcompare] at hmessage
    cases hmessage
  | error message =>
    have hsound : ErrorSound env o ↔
        messageExitCode env message ≠ some 0 ∧ messageExitCode env message ≠ some 1 := by
      refine ⟨fun h => h message hcompare, fun h other hother => ?_⟩
      rw [hcompare] at hother
      cases hother
      exact h
    rw [runCompareVI, hcompare, hsound]
    refine fair_classifyExit_of_error.trans ?_
    cases messageExitCode env message with
    | none => decide
    | some code => rw [Option.getD_some, Ne, Ne, Ne, Ne, Option.some.injEq, Option.some.injEq]

theorem fair_runCapture (iteration : ℕ) :
    (classifyReport env o (runCapture env params iteration o)).Fair ↔
      CaptureSound env params iteration o := by
  cases hcapture : o.capture with
  | failed =>
    rw [runCapture, hcapture]
    refine iff_of_true fair_error fun capture hfinished => ?_
    rw [hcapture] at hfinished
    cases hfinished
  | finished captured =>
    cases captured with
    | none =>
      rw [runCapture, hcapture]
      refine iff_of_true (fair_classifyReport env o nofun) fun capture hfinished => ?_
      rw [hcapture] at hfinished
      cases hfinished
    | some capture =>
      cases hcode : capture.exitCode with
      | none =>
        have hsound : CaptureSound env params iteration o ↔ testReportHasDifferences o.files
            (some (capturedReport env params iteration)) = false := by
          exact ⟨fun h => h capture hcapture hcode, fun h _ _ _ => h⟩
        let failed : Execution := ⟨-999, .error, some capture.toInvocation,
          some (capturedReport env params iteration), none⟩
        have hfair : (classifyReport env o failed).Fair ↔
            testReportHasDifferences o.files (shownReport env failed) = false :=
          fair_classifyReport_of_error rfl rfl
        have hshown : shownReport env failed = some (capturedReport env params iteration) :=
          shownReport_of_set rfl (env.joinPath_ne_empty _ _ (by decide))
        rw [hshown] at hfair
        rw [runCapture, hcapture, hsound]
        dsimp only
        rw [hcode]
        exact hfair
      | some exitCode =>
        have hstatus : (runCapture env params iteration o).status = .ok := by
          rw [runCapture, hcapture]
          dsimp only
          rw [hcode]
        refine iff_of_true (fair_classifyReport env o (hstatus ▸ nofun)) ?_
        intro other hother hnone
        rw [hcapture] at hother
        cases hother
        rw [hcode] at hnone
        cases hnone

theorem fair_classify (iteration : ℕ) :
    (classify env params o (execute env params iteration o)).Fair ↔
      if params.compareExecutor then True
      else if useReportCapture params then CaptureSound env params iteration o
      else ErrorSound env o := by
  rw [classify, execute]
  cases hexecutor : params.compareExecutor with
  | true =>
    have hstatus : (runExecutor o).status ≠ .error := nofun
    rw [Bool.not_true, Bool.and_false, if_pos rfl, if_pos rfl]
    exact iff_of_true (fair_classifyExit env o hstatus) trivial
  | false =>
    rw [Bool.not_false, Bool.and_true, if_neg Bool.false_ne_true, if_neg Bool.false_ne_true]
    cases hreport : useReportCapture params with
    | true => exact fair_runCapture iteration
    | false => exact fair_runCompareVI

end Classified

/-! ### The whole loop -/

section Runs

variable {env : LoopEnv} {params : LoopParams} {s : Loop} {o : Iteration}

/-- What holds of the counts in every run: no difference is missed, and no error is counted that no
record has. -/
structure Loop.Counted (s : Loop) : Prop where
  diffs : s.diffCount = s.records.countP (·.diff)
  errors : s.errorCount ≤ s.records.countP (·.status = .error)

def LoopState.Counted : LoopState → Prop
  | .looping s | .stopped s => s.Counted
  | .thrown => True

theorem countP_next (p : Record → Bool) (s : Loop) (reason : Option String) (code : Option ℤ)
    (c : Classified) : ∃ record : Record, record.diff = c.diff ∧ record.status = c.status ∧
      (s.next o reason code c).records = s.records ++ [record] ∧
      (s.next o reason code c).records.countP p = s.records.countP p + if p record then 1 else 0 :=
  ⟨_, rfl, rfl, rfl, List.countP_append.trans (congrArg _ List.countP_singleton)⟩

theorem Loop.Counted.next (h : s.Counted) {c : Classified} (hc : c.Bounded)
    (reason : Option String) (code : Option ℤ) : (s.next o reason code c).Counted := by
  constructor
  · obtain ⟨record, hdiff, -, -, hcount⟩ := countP_next (o := o) (·.diff) s reason code c
    rw [hcount, ← h.diffs, hdiff, ← hc.diffs]
    rfl
  · obtain ⟨record, -, hstatus, -, hcount⟩ :=
      countP_next (o := o) (·.status = .error) s reason code c
    rw [hcount, hstatus]
    exact Nat.add_le_add h.errors (by simpa using hc.errors)

theorem accounts_iff (h : s.Counted) : Accounts s.result ↔
    s.errorCount = s.records.countP (·.status = .error) ∧
      ∀ record ∈ s.records, ¬ (record.diff = true ∧ record.status = .error) := by
  constructor
  · intro haccounts
    exact ⟨haccounts.errors, haccounts.exclusive⟩
  · rintro ⟨herrors, hexclusive⟩
    refine ⟨h.diffs, herrors, hexclusive, ?_⟩
    have hzero : s.result.succeeded = true ↔ s.errorCount = 0 := decide_eq_true_iff
    rw [hzero, herrors, List.countP_eq_zero]
    refine forall₂_congr fun record _ => ?_
    rw [decide_eq_true_iff]

/-- **One more iteration** keeps the account exactly if it is fair. -/
theorem accounts_next (h : s.Counted) {c : Classified} (hc : c.Bounded)
    (reason : Option String) (code : Option ℤ) :
    Accounts (s.next o reason code c).result ↔ Accounts s.result ∧ c.Fair := by
  obtain ⟨record, hdiff, hstatus, hrecords, hcount⟩ :=
    countP_next (o := o) (·.status = .error) s reason code c
  have hle : c.errorCount ≤ if c.status = .error then 1 else 0 := hc.errors
  have hsum : (s.next o reason code c).errorCount = s.errorCount + c.errorCount := rfl
  have hone : (if decide (record.status = .error) = true then 1 else 0) =
      if c.status = .error then 1 else 0 := by
    rw [hstatus]
    exact if_congr decide_eq_true_iff rfl rfl
  have herrors := h.errors
  rw [accounts_iff (h.next hc reason code), accounts_iff h, hcount, hsum, hone, hrecords,
    List.forall_mem_append, List.forall_mem_singleton, hdiff, hstatus]
  constructor
  · rintro ⟨hboth, hbefore, hlast⟩
    exact ⟨⟨by omega, hbefore⟩, by omega, hlast⟩
  · rintro ⟨⟨hequal, hbefore⟩, hfair⟩
    exact ⟨by rw [hequal, hfair.errors], hbefore, hfair.exclusive⟩

theorem accounted_finishIteration (t : Loop) (diff : Bool) :
    Accounted (finishIteration params t diff) ↔ Accounts t.result := by
  have hresult : (finishIteration params t diff).result? = some t.result := by
    rw [finishIteration]
    split_ifs
    · rfl
    · rfl
  rw [Accounted, hresult]
  exact ⟨fun ⟨r, hr, haccounts⟩ => Option.some.inj hr ▸ haccounts, fun h => ⟨_, rfl, h⟩⟩

theorem counted_finishIteration {t : Loop} (h : t.Counted) (diff : Bool) :
    (finishIteration params t diff).Counted := by
  rw [finishIteration]
  split_ifs
  · exact h
  · exact h

/-- **What an iteration does**: it throws, or it writes a record that is fair exactly if the
iteration is sound. -/
theorem iterate_cases (env : LoopEnv) (params : LoopParams) (s : Loop) (o : Iteration) :
    (iterate env params s o = .thrown ∧ ¬ IterationSound env params (.looping s) o) ∨
      ∃ reason code c, c.Bounded ∧ (c.Fair ↔ IterationSound env params (.looping s) o) ∧
        iterate env params s o = finishIteration params (s.next o reason code c) c.diff := by
  rw [iterate, IterationSound]
  cases hskip : skipReason params o with
  | some reason =>
    rw [Option.isSome_some, if_pos rfl]
    cases hreport : s.reportPath with
    | none => exact .inl ⟨rfl, nofun⟩
    | some reportPath =>
      refine .inr ⟨some reason, none, _, ⟨rfl, Nat.zero_le _⟩, ?_, rfl⟩
      exact iff_of_true (fair_clean.mpr nofun) rfl
  | none =>
    refine .inr ⟨none, _, _, bounded_classify (execute env params (s.iteration + 1) o), ?_, rfl⟩
    rw [fair_classify]
    rfl

variable {before t : LoopState}

theorem loopStep_cases (h : loopStep env params before o = some t) :
    ∃ s, before = .looping s ∧ t = iterate env params s o := by
  cases before with
  | looping s =>
    rw [loopStep] at h
    split_ifs at h
    exact ⟨s, rfl, (Option.some.inj h).symm⟩
  | stopped s => cases h
  | thrown => cases h

theorem counted_step (hcounted : before.Counted) (h : loopStep env params before o = some t) :
    t.Counted := by
  obtain ⟨s, rfl, rfl⟩ := loopStep_cases h
  rcases iterate_cases env params s o with ⟨hthrown, -⟩ | ⟨reason, code, c, hc, -, heq⟩
  · rw [hthrown]
    trivial
  · rw [heq]
    exact counted_finishIteration (Loop.Counted.next hcounted hc reason code) c.diff

theorem accounted_step (hcounted : before.Counted) (h : loopStep env params before o = some t) :
    Accounted t ↔ Accounted before ∧ IterationSound env params before o := by
  obtain ⟨s, rfl, rfl⟩ := loopStep_cases h
  have hbefore : Accounted (.looping s) ↔ Accounts s.result :=
    ⟨fun ⟨r, hr, haccounts⟩ => Option.some.inj hr ▸ haccounts, fun h => ⟨_, rfl, h⟩⟩
  rcases iterate_cases env params s o with ⟨hthrown, hunsound⟩ | ⟨reason, code, c, hc, hfair, heq⟩
  · rw [hthrown]
    exact iff_of_false (fun ⟨r, hr, _⟩ => nomatch hr) fun h => hunsound h.2
  · rw [heq, accounted_finishIteration, accounts_next hcounted hc, hbefore, hfair]

/-- **The accounts of the compare loop.** After any iterations there is a result that accounts for
its records exactly if every iteration was sound. -/
theorem accounted_iff {os : List Iteration} {t : LoopState} {reportPath : Option (Option String)}
    (hrun : run (loopStep env params) (.looping (.start reportPath)) os = some t) :
    Accounted t ↔
      Guarded (loopStep env params) (IterationSound env params) (.looping (.start reportPath))
        os := by
  have hcounted : (Loop.start reportPath).Counted := ⟨rfl, Nat.le_refl _⟩
  have hstart : Accounted (.looping (.start reportPath)) :=
    ⟨_, rfl, (accounts_iff hcounted).mpr ⟨rfl, fun _ h => nomatch h⟩⟩
  have hcountedStart : LoopState.Counted (.looping (.start reportPath)) := hcounted
  refine (run_iff_guarded (fun _ _ _ => counted_step) (fun _ _ _ => accounted_step) hcountedStart
    hrun).trans (and_iff_right hstart)

end Runs

/-! ### Two loops -/

def plainLoopEnv : LoopEnv where
  isDigit := Char.isDigit
  isPathRooted path := (path.toList.drop 1).head? = some ':'
  joinPath path child := path ++ "\\" ++ child
  joinPath_ne_empty path child h := by
    intro hempty
    have hlist := congrArg String.toList hempty
    rw [String.toList_append, String.toList_append] at hlist
    exact h (String.toList_eq_nil_iff.mp (List.append_eq_nil_iff.mp hlist).2)
  resolvePath _ := none

/-- One iteration by `Invoke-CompareVI`. -/
def singleCompare : LoopParams where
  maxIterations := 1
  skipIfUnchanged := false
  failOnDiff := false
  useEventDriven := false
  compareExecutor := false
  renderReport := false
  diffSummaryFormat := .none
  reportRoot := "results"

def missingBase : Iteration where
  received := false
  baseChanged := true
  headChanged := true
  executor := 0
  capture := .failed
  compareVI := .error "Base path not found: C:\\exit code 1\\Main.vi"
  files _ := none

/-- The missing file is a difference, and no error. -/
theorem not_accounted_missingBase :
    ∃ t, run (loopStep plainLoopEnv singleCompare) (.looping (.start none))
        [missingBase] = some t ∧ ¬ Accounted t := by
  have hstep : loopStep plainLoopEnv singleCompare (.looping (.start none)) missingBase =
      some (iterate plainLoopEnv singleCompare (.start none) missingBase) := rfl
  refine ⟨_, (run_singleton _ _).trans hstep, fun haccounted => ?_⟩
  have hcounted : LoopState.Counted (.looping (.start none)) := ⟨rfl, Nat.le_refl _⟩
  have hsound : ErrorSound plainLoopEnv missingBase :=
    ((accounted_step hcounted hstep).mp haccounted).2
  have hcode : messageExitCode plainLoopEnv "Base path not found: C:\\exit code 1\\Main.vi" =
      some 1 := by decide +kernel
  exact (hsound _ rfl).2 hcode

def executed (exitCode : ℤ) : Iteration where
  received := false
  baseChanged := true
  headChanged := true
  executor := exitCode
  capture := .failed
  compareVI := .error ""
  files _ := none

def twoExecutions : LoopParams := { singleCompare with maxIterations := 2, compareExecutor := true }

/-- An error and a difference are accounted for. -/
theorem accounted_executed :
    ∃ t, run (loopStep plainLoopEnv twoExecutions) (.looping (.start none))
        [executed 5, executed 1] = some t ∧ Accounted t := by
  have hrun : run (loopStep plainLoopEnv twoExecutions) (.looping (.start none))
      [executed 5, executed 1] = some _ := rfl
  refine ⟨_, hrun, (accounted_iff hrun).mpr ⟨trivial, fun t ht => ?_⟩⟩
  obtain rfl := Option.some.inj ht
  exact ⟨trivial, fun _ _ => trivial⟩

end CompareVI.CompareLoop
