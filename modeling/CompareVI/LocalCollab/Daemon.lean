import CompareVI.LocalCollab.AgentReview

/-!
# The daemon phase

`runLocalCollaborationPhase` for the daemon: the Docker/Desktop delegate, the agent review
after a delegate that has passed, and the exit code, receipt and output of the phase. The
delegate is the child process of `invokeDaemonDelegate`, or a function handed in.

The two shapes do not agree. A function handed in returns an `exitCode`, and that is what
the phase reads; the normalized result of the child process has a `status` instead. So
with the child process the phase never passes (`daemonPhase_process`), and its output may
still say that it did. With a function handed in, a delegate that exits 0 without a passed
report passes the phase, and a review that exits with another code without saying `failed`
leaves `passed` in the output. `daemonLaw_iff` says exactly when the phase is truthful.
-/

open Framework

namespace CompareVI.LocalCollab

/-! ### The delegate -/

/-- The result of a delegate: the fields that the phase reads. -/
structure DelegateResult where
  exitCode : Option ℤ
  stdout : Output
  stderr : Output

/-- The delegate: the child process, or a function handed in. -/
inductive Delegate where
  | process (result : SpawnResult)
  | injected (result : DelegateResult)

/-- `invokeDaemonDelegate`, or the function handed in. What `normalizeCommandResult` returns
has a `status` and no `exitCode`. -/
def Delegate.result : Delegate → DelegateResult
  | process result =>
    let command := normalizeCommandResult result
    { exitCode := none
      stdout := command.stdout
      stderr := .text command.stderr }
  | injected result => result

def Delegate.exited0 : Delegate → Bool
  | process result => result.status = some 0
  | injected result => result.exitCode = some 0

/-- The report says `passed`. -/
def isPassed (report : Option Json) : Bool :=
  JsString.toLowerCase (normalizeText (Json.path report ["status"])) = "passed"

/-- The output is a report that says `passed`. -/
def Output.isPassed (parse : String → Option Json) (output : Output) : Bool :=
  LocalCollab.isPassed (tryParseJson parse output)

/-! ### The phase -/

/-- `normalizeText(receiptStatus).toLowerCase() === 'failed'`. -/
def AgentReview.failed (review : AgentReview) : Bool :=
  JsString.toLowerCase (JsString.trim (review.receiptStatus.getD "")) = "failed"

def normalizeStringList (values : List Json) : List String :=
  ((values.map fun value => normalizeText (some value)).filter (· ≠ "")).eraseDups

/-- `agentReview` in the combined report. -/
def AgentReview.summary (review : AgentReview) : Json :=
  .obj [("receiptPath", .str review.receiptPath),
    ("receiptStatus", review.receiptStatus.elim .null .str),
    ("selectionSource", (optionalTrim review.selectionSource).elim .null .str),
    ("requestedProviders", .arr ((normalizeStringList review.requestedProviders).map .str)),
    ("actionableFindingCount", .num review.actionableFindingCount)]

/-- `combined`, before its status. -/
def combinedFields (fields : List (String × Json)) (review : AgentReview) :
    List (String × Json) :=
  let reason :=
    if review.failed then .str (JsString.trim review.reason.toText)
    else .str "Docker/Desktop review loop passed and daemon local agent review providers passed."
  JsObject.setField "agentReview" review.summary
    (JsObject.setField "reason" reason
      (JsObject.setField "source" (.str "local-collab-daemon-review") fields))

def buildDaemonCombinedStdout (report : Option Json) (review : AgentReview) : Output :=
  match report with
  | some (.obj fields) =>
    let combined := combinedFields fields review
    .document (.obj (if review.failed then JsObject.setField "status" (.str "failed") combined
      else combined))
  | _ => .text ""

/-- `receipt.status`. -/
inductive PhaseStatus where
  | passed
  | failed
  deriving DecidableEq, Repr

structure PhaseResult where
  exitCode : ℤ
  status : PhaseStatus
  selection : ProviderSelection
  agentReview : Option AgentReview
  stdout : Output
  stderr : Output

def daemonReceiptPath : String :=
  "tests/results/docker-tools-parity/agent-review-policy/receipt.json"

/-- The end of `runLocalCollaborationPhase`. -/
def finishPhase (selection : ProviderSelection) (exitCode : Option ℤ) (stdout stderr : Output)
    (agentReview : Option AgentReview) : PhaseResult where
  exitCode := exitCode.getD 1
  status := if exitCode = some 0 then .passed else .failed
  selection := selection
  agentReview := agentReview
  stdout := stdout.normalize
  stderr := stderr.normalize

structure DaemonRun where
  delegate : Delegate
  selection : ProviderSelection
  review : ReviewCall

def DaemonRun.delegatePassed (parse : String → Option Json) (i : DaemonRun) : Bool :=
  i.delegate.result.exitCode = some 0 && i.delegate.result.stdout.isPassed parse

/-- `runLocalCollaborationPhase` for the phase `daemon`, with `none` where the function
handed in for the review throws. -/
def daemonPhase (parse : String → Option Json) (i : DaemonRun) : Option PhaseResult :=
  let result := i.delegate.result
  if i.delegatePassed parse && i.selection.providers ≠ [] then
    match reviewCommand parse i.review with
    | .error _ => none
    | .ok (command, receipt) =>
      let review := reviewReport daemonReceiptPath i.selection command receipt
      let stdout := buildDaemonCombinedStdout (tryParseJson parse result.stdout) review
      if review.failed || review.exitCode ≠ 0 then
        some (finishPhase i.selection (some 1) stdout (orOutput review.reason result.stderr)
          (some review))
      else some (finishPhase i.selection result.exitCode stdout result.stderr (some review))
  else some (finishPhase i.selection result.exitCode result.stdout result.stderr none)

/-! ### Truthfulness -/

/-- The phase returns 0 and writes a passed receipt. -/
def Passes (out : Option PhaseResult) : Prop :=
  ∃ result, out = some result ∧ result.exitCode = 0 ∧ result.status = .passed

/-- The delegate exited 0 with a passed report and, if providers are selected, the agent
review ran, exited 0 and did not report failed. -/
def Deserved (parse : String → Option Json) (i : DaemonRun) (out : Option PhaseResult) : Prop :=
  i.delegate.exited0 = true ∧ i.delegate.result.stdout.isPassed parse = true ∧
    (i.selection.providers ≠ [] → ∃ result review, out = some result ∧
      result.agentReview = some review ∧ review.exitCode = 0 ∧ review.failed = false)

/-- The daemon phase is truthful. -/
def DaemonLaw (parse : String → Option Json) (i : DaemonRun) : Prop :=
  (Passes (daemonPhase parse i) ↔ Deserved parse i (daemonPhase parse i)) ∧
    ∀ result, daemonPhase parse i = some result → result.exitCode ≠ 0 →
      result.stdout.isPassed parse = false

def ReviewCall.consistent (parse : String → Option Json) (selection : ProviderSelection)
    (review : ReviewCall) : Bool :=
  match reviewCommand parse review with
  | .error _ => true
  | .ok (command, receipt) =>
    (reviewReport daemonReceiptPath selection command receipt).failed || command.status = 0

/-- The condition under which the phase is truthful. -/
def DaemonRun.Sound (parse : String → Option Json) (i : DaemonRun) : Prop :=
  match i.delegate with
  | .process _ => i.delegate.result.stdout.isPassed parse = false
  | .injected result =>
    if result.exitCode = some 0 then
      result.stdout.isPassed parse = true ∧
        (i.selection.providers ≠ [] → i.review.consistent parse i.selection = true)
    else result.stdout.isPassed parse = false

variable {parse : String → Option Json}

@[simp] theorem isPassed_normalize (output : Output) :
    output.normalize.isPassed parse = output.isPassed parse := by
  rw [Output.isPassed, tryParseJson_normalize]
  rfl

variable {result : DelegateResult} {review : Option AgentReview} {report : Option Json}
   {stderr stdout : Output} {selection : ProviderSelection}

theorem exists_obj_of_isPassed (h : isPassed report = true) :
    ∃ fields, report = some (.obj fields) := by
  have hnot : report.bind (fun j => j.get? "status") ≠ none := by
    intro hnone
    rw [isPassed, Json.path, List.foldl_cons, List.foldl_nil, hnone] at h
    exact absurd h (by decide)
  cases report with
  | none => exact absurd rfl hnot
  | some j =>
    cases j with
    | obj fields => exact ⟨fields, rfl⟩
    | null | bool | num | str | arr => exact absurd rfl hnot

theorem lookup_combinedFields (fields : List (String × Json)) (review : AgentReview) :
    (combinedFields fields review).lookup "status" = fields.lookup "status" := by
  simp only [combinedFields, JsObject.lookup_setField]
  rw [if_neg (by decide), if_neg (by decide), if_neg (by decide)]

theorem isPassed_congr {fields fields' : List (String × Json)}
    (h : fields'.lookup "status" = fields.lookup "status") :
    isPassed (some (.obj fields')) = isPassed (some (.obj fields)) := by
  have hpath : Json.path (some (.obj fields')) ["status"] =
      Json.path (some (.obj fields)) ["status"] := h
  rw [isPassed, isPassed, hpath]

/-- **The combined output** says `passed` unless the review's receipt says `failed`. -/
theorem combined_isPassed (h : isPassed report = true) (review : AgentReview) :
    (buildDaemonCombinedStdout report review).isPassed parse = !review.failed := by
  obtain ⟨fields, rfl⟩ := exists_obj_of_isPassed h
  have hfields : isPassed (some (.obj fields)) = true := h
  cases hf : review.failed with
  | false =>
    simp only [buildDaemonCombinedStdout, hf, Bool.false_eq_true, if_false, Output.isPassed,
      tryParseJson, Bool.not_false]
    rw [isPassed_congr (lookup_combinedFields fields review), h]
  | true =>
    simp only [buildDaemonCombinedStdout, hf, if_true, Output.isPassed, tryParseJson,
      Bool.not_true]
    have hlookup : (JsObject.setField "status" (.str "failed")
        (combinedFields fields review)).lookup "status" =
        [("status", Json.str "failed")].lookup "status" := by
      rw [JsObject.lookup_setField, if_pos rfl]
      rfl
    rw [isPassed_congr hlookup]
    decide

/-! ### The law -/

variable {i : DaemonRun} {exitCode : Option ℤ}

theorem getD_one_eq_zero : exitCode.getD 1 = 0 ↔ exitCode = some 0 := by
  cases exitCode <;> simp

theorem passes_finishPhase :
    Passes (some (finishPhase selection exitCode stdout stderr review)) ↔ exitCode = some 0 := by
  constructor
  · rintro ⟨result, h, hexit, -⟩
    rw [← Option.some.inj h, finishPhase, getD_one_eq_zero] at hexit
    exact hexit
  · rintro rfl
    exact ⟨_, rfl, rfl, rfl⟩

/-- **A phase that ends without a review.** -/
theorem daemonLaw_of_not_reviewed
    (h : (i.delegatePassed parse && i.selection.providers ≠ []) = false) :
    DaemonLaw parse i ↔
      (i.delegate.result.exitCode = some 0 ↔ i.delegate.exited0 = true ∧
        i.delegate.result.stdout.isPassed parse = true ∧ i.selection.providers = []) ∧
      (i.delegate.result.exitCode ≠ some 0 → i.delegate.result.stdout.isPassed parse = false) := by
  rw [DaemonLaw, daemonPhase]
  simp only [h, Bool.false_eq_true, if_false]
  rw [passes_finishPhase, Deserved]
  have hreview : (i.selection.providers ≠ [] → ∃ result review,
      some (finishPhase i.selection i.delegate.result.exitCode i.delegate.result.stdout
        i.delegate.result.stderr none) = some result ∧
      result.agentReview = some review ∧ review.exitCode = 0 ∧ review.failed = false) ↔
      i.selection.providers = [] := by
    constructor
    · intro himp
      by_contra hne
      obtain ⟨result, review, hresult, hagent, -⟩ := himp hne
      rw [← Option.some.inj hresult] at hagent
      cases hagent
    · intro hnil hne
      exact absurd hnil hne
  rw [hreview]
  refine and_congr_right fun _ => ?_
  constructor
  · intro hout hne
    have := hout _ rfl fun hzero => hne (getD_one_eq_zero.mp hzero)
    simpa [finishPhase] using this
  · intro hout result hresult hne
    rw [← Option.some.inj hresult] at hne ⊢
    simpa [finishPhase] using hout fun hzero => hne (getD_one_eq_zero.mpr hzero)

theorem stdout_of_finishPhase {result : PhaseResult}
    (h : some (finishPhase selection exitCode stdout stderr review) = some result) :
    result.stdout.isPassed parse = stdout.isPassed parse := by
  rw [← Option.some.inj h]
  exact isPassed_normalize stdout

/-- **A phase with a review**, after a delegate that has passed. -/
theorem daemonLaw_of_reviewed (hexited : i.delegate.exited0 = true)
    (hpassed : i.delegatePassed parse = true) (hproviders : i.selection.providers ≠ []) :
    DaemonLaw parse i ↔ i.review.consistent parse i.selection = true := by
  have hboth := hpassed
  rw [DaemonRun.delegatePassed, Bool.and_eq_true, decide_eq_true_eq] at hboth
  obtain ⟨hzero, hreport⟩ := hboth
  rw [DaemonLaw, daemonPhase, Deserved]
  simp only [hpassed, hproviders, ne_eq, not_false_eq_true, decide_true, Bool.and_self, if_true,
    hexited, hreport, true_and, forall_const, ReviewCall.consistent]
  cases reviewCommand parse i.review with
  | error e =>
    simp [Passes]
  | ok result =>
    obtain ⟨command, receipt⟩ := result
    have hcode : (reviewReport daemonReceiptPath i.selection command receipt).exitCode =
        command.status := rfl
    dsimp only
    generalize reviewReport daemonReceiptPath i.selection command receipt = review at hcode ⊢
    have hout : (buildDaemonCombinedStdout (tryParseJson parse i.delegate.result.stdout)
        review).isPassed parse = !review.failed := combined_isPassed hreport review
    cases hf : review.failed with
    | true =>
      -- the combined report says `failed`
      rw [hf] at hout
      simp only [Bool.true_or, if_true, passes_finishPhase]
      refine iff_of_true ⟨iff_of_false (by decide) ?_, ?_⟩ trivial
      · rintro ⟨result, review', hresult, hagent, -, hf'⟩
        cases hresult
        cases hagent
        exact absurd (hf.symm.trans hf') (by decide)
      · intro result hresult _
        rw [stdout_of_finishPhase hresult, hout]
        rfl
    | false =>
      rw [hf] at hout
      by_cases hstatus : command.status = 0
      · have hexit : review.exitCode = 0 := hcode.trans hstatus
        simp only [hexit, hstatus, not_true_eq_false, decide_false, decide_true,
          Bool.or_self, Bool.or_true, Bool.false_eq_true, if_false, passes_finishPhase]
        refine iff_of_true ⟨⟨fun _ => ⟨_, review, rfl, rfl, hexit, hf⟩, fun _ => hzero⟩, ?_⟩
          trivial
        rintro result hresult hne
        cases hresult
        exact absurd (getD_one_eq_zero.mpr hzero) hne
      · -- the exit code is 1 and the combined report is the delegate's
        have hexit : review.exitCode ≠ 0 := fun h => hstatus (hcode.symm.trans h)
        simp only [hexit, hstatus, not_false_eq_true, decide_false, decide_true,
          Bool.or_true, Bool.or_self, if_true, Bool.false_eq_true, iff_false]
        rintro ⟨-, hstdout⟩
        have hfalse := hstdout _ rfl (show (1 : ℤ) ≠ 0 by decide)
        rw [stdout_of_finishPhase rfl, hout] at hfalse
        cases hfalse

/-- **The child process**: the phase returns 1, so its output must not say `passed`. -/
theorem daemonLaw_process (result : SpawnResult) (selection : ProviderSelection)
    (review : ReviewCall) :
    DaemonLaw parse ⟨.process result, selection, review⟩ ↔
      (Delegate.process result).result.stdout.isPassed parse = false := by
  rw [daemonLaw_of_not_reviewed rfl]
  have hexit : (Delegate.process result).result.exitCode ≠ some 0 := nofun
  constructor
  · rintro ⟨-, hout⟩
    exact hout hexit
  · intro hout
    refine ⟨iff_of_false hexit ?_, fun _ => hout⟩
    rintro ⟨-, hpassed, -⟩
    exact absurd (hout.symm.trans hpassed) (by decide)

/-- **A function handed in**, with exit code 0: the phase passes without looking at the
report, and reviews only after a passed one. -/
theorem daemonLaw_injected_zero (hzero : result.exitCode = some 0) (selection : ProviderSelection)
    (review : ReviewCall) :
    DaemonLaw parse ⟨.injected result, selection, review⟩ ↔
      result.stdout.isPassed parse = true ∧
        (selection.providers ≠ [] → review.consistent parse selection = true) := by
  have hexited : (Delegate.injected result).exited0 = true := decide_eq_true hzero
  cases hpassed : result.stdout.isPassed parse with
  | false =>
    rw [daemonLaw_of_not_reviewed]
    · simp [Delegate.result, hzero, hpassed]
    · simp [DaemonRun.delegatePassed, Delegate.result, hpassed]
  | true =>
    by_cases hproviders : selection.providers = []
    · rw [daemonLaw_of_not_reviewed]
      · simp [Delegate.result, hexited, hzero, hpassed, hproviders]
      · simp [hproviders]
    · rw [daemonLaw_of_reviewed hexited _ hproviders]
      · simp [hproviders]
      · simp [DaemonRun.delegatePassed, Delegate.result, hzero, hpassed]

/-- **A function handed in**, with another exit code: its output is the phase's. -/
theorem daemonLaw_injected_nonzero (hzero : result.exitCode ≠ some 0)
    (selection : ProviderSelection) (review : ReviewCall) :
    DaemonLaw parse ⟨.injected result, selection, review⟩ ↔
      result.stdout.isPassed parse = false := by
  rw [daemonLaw_of_not_reviewed]
  · simp [Delegate.result, Delegate.exited0, hzero]
  · simp [DaemonRun.delegatePassed, Delegate.result, hzero]

/-- **The daemon phase** is truthful under `DaemonRun.Sound`, and under nothing less. -/
theorem daemonLaw_iff (parse : String → Option Json) (i : DaemonRun) :
    DaemonLaw parse i ↔ i.Sound parse := by
  obtain ⟨delegate, selection, review⟩ := i
  cases delegate with
  | process result => exact daemonLaw_process result selection review
  | injected result =>
    by_cases hzero : result.exitCode = some 0
    · have hsound : DaemonRun.Sound parse ⟨.injected result, selection, review⟩ ↔
          result.stdout.isPassed parse = true ∧
            (selection.providers ≠ [] → review.consistent parse selection = true) := by
        simp only [DaemonRun.Sound, if_pos hzero]
      rw [hsound, daemonLaw_injected_zero hzero]
    · have hsound : DaemonRun.Sound parse ⟨.injected result, selection, review⟩ ↔
          result.stdout.isPassed parse = false := by
        simp only [DaemonRun.Sound, if_neg hzero]
      rw [hsound, daemonLaw_injected_nonzero hzero]

def passedReport : String := "\x7b\"status\":\"passed\"\x7d"

/-- `JSON.parse` on the text of a passed report. -/
def parsePassedReport (raw : String) : Option Json :=
  if raw = passedReport then some (.obj [("status", .str "passed")]) else none

def passedProcess : DaemonRun where
  delegate := .process ⟨some 0, passedReport, "", none⟩
  selection := ⟨"default-empty", []⟩
  review := .injected (.ok ⟨none, some 0, "", ""⟩)

/-- The phase returns 1 and says `passed`. -/
theorem not_daemonLaw_passedProcess : ¬ DaemonLaw parsePassedReport passedProcess := by
  intro h
  have hpassed := h.2 _ rfl (show (1 : ℤ) ≠ 0 by decide)
  rw [stdout_of_finishPhase rfl] at hpassed
  exact absurd hpassed (by decide +kernel)

end CompareVI.LocalCollab
