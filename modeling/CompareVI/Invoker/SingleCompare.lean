import CompareVI.Framework.PsString
import CompareVI.Framework.Run
import Mathlib.Data.Int.Notation
import Mathlib.Logic.Function.Basic
import Mathlib.Data.List.Pairwise

/-!
# The single-compare gate of the runner invoker

With `LVCI_SINGLE_COMPARE` on, `Start-InvokerLoop` is to serve one CompareVI request and
to refuse the later ones. It remembers the compare in two places: the state file
`single-compare-state.json` of the invoker directory, and the file `compare-exec.json`
that a compare leaves in the output directory of its own request.

The first of the two is never written. `Set-SingleCompareState` calls `Split-Path` with
both `-Parent` and `-LiteralPath`, which no parameter set of `Split-Path` has, and
swallows the error (`setSingleCompareState_eq`). What is left is the second, which a
request meets only after the checks of a preview and only in its own output directory.

`gateLaw_iff` says exactly when the gate does its work: after a compare has been answered,
each CompareVI request passes the checks of its preview and finds `compare-exec.json` in
its output directory. Which files the paths name, what the file system and the compare
itself do, and whether the response can be written are parameters of each request.
-/

open Framework

namespace CompareVI.Invoker

/-! ### Parameter binding -/

def resolveParameterSet (sets : List (List String)) (named : List String) :
    Option (List String) :=
  sets.find? fun set => named.all fun name => set.contains name

/-- The parameter sets of `Split-Path`. -/
def splitPathParameterSets : List (List String) :=
  [["Path", "Parent", "Resolve", "Credential"],
    ["Path", "Qualifier", "Resolve", "Credential"],
    ["Path", "NoQualifier", "Resolve", "Credential"],
    ["Path", "Leaf", "Resolve", "Credential"],
    ["Path", "LeafBase", "Resolve", "Credential"],
    ["Path", "Extension", "Resolve", "Credential"],
    ["Path", "IsAbsolute", "Resolve", "Credential"],
    ["LiteralPath", "Resolve", "Credential"]]

/-! ### Requests and responses -/

/-- The verb of a request, as the `switch` tells them apart. -/
inductive Verb where
  | ping
  | phaseDone
  | compareVI
  | renderReport
  | other (verb : String)
  deriving DecidableEq, Repr

structure CompareArgs where
  base : Option String
  head : Option String
  lvCompareArgs : Option String
  outputDir : Option String
  preview : Bool
  deriving DecidableEq, Repr

structure Request where
  id : String
  verb : Verb
  args : CompareArgs
  deriving DecidableEq, Repr

structure CompareResult where
  exitCode : ℤ
  diff : Bool
  cliPath : String
  command : String
  execJsonPath : String
  deriving DecidableEq, Repr

inductive Result where
  | pong
  | done
  | compare (result : CompareResult)
  | report (outputPath : String)
  deriving DecidableEq, Repr

inductive InvokerError where
  | alreadyHandledState (path : String)
  | alreadyHandledExec (path : String)
  | previewNotProvided (side : String)
  | previewNotFound (side path : String)
  | requires (argument : String)
  | unknownVerb (verb : String)
  | thrown (message : String)
  deriving DecidableEq, Repr

/-- The error is `compare_already_handled`. -/
def InvokerError.isAlreadyHandled : InvokerError → Bool
  | alreadyHandledState _ | alreadyHandledExec _ => true
  | previewNotProvided _ | previewNotFound _ _ | requires _ | unknownVerb _ | thrown _ => false

structure Response where
  id : String
  verb : Verb
  body : Except InvokerError Result

/-- A CompareVI request answered with `ok` true. -/
def Response.isOkCompare (r : Response) : Bool := r.verb = .compareVI && r.body.isOk

/-- A request answered with `compare_already_handled`. -/
def Response.isAlreadyHandled (r : Response) : Bool :=
  match r.body with
  | .error e => e.isAlreadyHandled
  | .ok _ => false

/-! ### The loop's surroundings -/

variable {φ : Type} [DecidableEq φ]

/-- The settings of the loop and the names of its files: `fileAt` is the file that a path
names. An empty `sentinelPath` is an absent one. -/
structure Config (φ : Type) where
  gateEnabled : Bool
  autoStopEnabled : Bool
  sentinelPath : String
  resultsDir : String
  joinPath : String → String → String
  fileAt : String → φ

structure SingleCompareState where
  handled : Bool
  deriving DecidableEq, Repr

/-- The files that are there, the contents of the state file, whether the sentinel is
there, and the responses so far. -/
structure State (φ : Type) where
  files : φ → Bool
  singleState : Option SingleCompareState
  sentinel : Bool
  answers : List Response

/-- What a request meets. The paths found, the errors of `Resolve-Path`, `New-Item` and
`Out-File`, and of the write of the response; the outcome of the compare, and whether it
left its exec file; the outcome of the report. -/
structure Outcome where
  baseFound : Bool
  headFound : Bool
  resolved : Except String (String × String)
  cli : Option String
  outDirError : Option String
  execError : Option String
  compared : Except String CompareResult
  execLeft : Bool
  rendered : Except String String
  responseError : Option String
  stateWritten : Bool

namespace State

def answer (s : State φ) (req : Request) (body : Except InvokerError Result) : State φ :=
  { s with answers := s.answers ++ [⟨req.id, req.verb, body⟩] }

def addFile (s : State φ) (f : φ) : State φ := { s with files := Function.update s.files f true }

def removeSentinel (s : State φ) : State φ := { s with sentinel := false }

/-- `Set-SingleCompareState`: nothing is written where the call of `Split-Path` throws, as
the error is swallowed. -/
def setSingleCompareState (s : State φ) (stateWritten : Bool) : State φ :=
  match resolveParameterSet splitPathParameterSets ["Parent", "LiteralPath"] with
  | none => s
  | some _ => if stateWritten then { s with singleState := some ⟨true⟩ } else s

def autoStop (s : State φ) (cfg : Config φ) : State φ :=
  if cfg.gateEnabled && cfg.autoStopEnabled && cfg.sentinelPath ≠ "" then s.removeSentinel else s

end State

omit [DecidableEq φ] in
/-- No parameter set of `Split-Path` has both parameters, so the state is never
persisted. -/
@[simp] theorem setSingleCompareState_eq (s : State φ) (stateWritten : Bool) :
    s.setSingleCompareState stateWritten = s := by
  have h : resolveParameterSet splitPathParameterSets ["Parent", "LiteralPath"] = none := by
    decide
  rw [State.setSingleCompareState, h]

/-! ### A CompareVI request -/

/-- `ResultsDir/_invoker`. -/
def Config.baseDir (cfg : Config φ) : String := cfg.joinPath cfg.resultsDir "_invoker"

def Config.outDir (cfg : Config φ) (args : CompareArgs) : String :=
  match args.outputDir with
  | none => cfg.baseDir
  | some dir => if dir = "" then cfg.baseDir else dir

def Config.execPath (cfg : Config φ) (args : CompareArgs) : String :=
  cfg.joinPath (cfg.outDir args) "compare-exec.json"

/-- `Test-Path -LiteralPath $execPath`. -/
def execExists (cfg : Config φ) (s : State φ) (args : CompareArgs) : Bool :=
  s.files (cfg.fileAt (cfg.execPath args))

def execGate (cfg : Config φ) (s : State φ) (args : CompareArgs) : Bool :=
  cfg.gateEnabled && s.singleState.isNone && execExists cfg s args

def checkPreviewPath (side : String) (found : Bool) (path : String) : Except InvokerError Unit :=
  if PsString.isNullOrWhiteSpace (some path) || !found then .error (.previewNotFound side path)
  else .ok ()

/-- What a preview does before it meets the gate by the exec file: the checks of its
paths, their resolution, and the creation of the output directory. -/
def checkPreview (args : CompareArgs) (o : Outcome) : Except InvokerError (String × String) := do
  let base ← args.base.elim (.error (.previewNotProvided "base")) .ok
  let head ← args.head.elim (.error (.previewNotProvided "head")) .ok
  checkPreviewPath "base" o.baseFound base
  checkPreviewPath "head" o.headFound head
  let resolved ← o.resolved.mapError .thrown
  match o.outDirError with
  | some message => .error (.thrown message)
  | none => .ok resolved

/-- `-replace '"','\"'`. -/
def escapeQuotes (path : String) : String := path.replace "\"" "\\\""

def previewResult (cfg : Config φ) (args : CompareArgs) (o : Outcome)
    (resolved : String × String) : CompareResult :=
  let cli := match o.cli with
    | some cli => cli
    | none => "C:\\Program Files\\National Instruments\\Shared\\LabVIEW Compare\\LVCompare.exe"
  let command := "\"" ++ cli ++ "\" \"" ++ escapeQuotes resolved.1 ++ "\" \"" ++
    escapeQuotes resolved.2 ++ "\""
  { exitCode := 1
    diff := true
    cliPath := cli
    command := match args.lvCompareArgs with
      | some more => if more = "" then command else command ++ " " ++ more
      | none => command
    execJsonPath := cfg.execPath args }

def runPreview (cfg : Config φ) (s : State φ) (args : CompareArgs) (o : Outcome) :
    State φ × Except InvokerError CompareResult :=
  match checkPreview args o with
  | .error e => (s, .error e)
  | .ok resolved =>
    if execGate cfg s args then (s, .error (.alreadyHandledExec (cfg.execPath args)))
    else
      match o.execError with
      | some message => (s, .error (.thrown message))
      | none =>
        (s.addFile (cfg.fileAt (cfg.execPath args)), .ok (previewResult cfg args o resolved))

/-- `Handle-CompareVI` up to the compare itself. Its test of `outputDir` hands the second
operand of `-and` to the script block that looks for the key, so that an empty directory
is not replaced by the default and `Join-Path` throws. -/
def handleCompareVI (args : CompareArgs) (o : Outcome) : Except InvokerError CompareResult :=
  if args.base.isNone then .error (.requires "base")
  else if args.head.isNone then .error (.requires "head")
  else if args.outputDir = some "" then
    .error (.thrown "Cannot bind argument to parameter 'Path' because it is an empty string.")
  else o.compared.mapError .thrown

def runCompare (cfg : Config φ) (s : State φ) (args : CompareArgs) (o : Outcome) :
    State φ × Except InvokerError CompareResult :=
  if execGate cfg s args then (s, .error (.alreadyHandledExec (cfg.execPath args)))
  else
    (if o.execLeft then s.addFile (cfg.fileAt (cfg.execPath args)) else s,
      handleCompareVI args o)

/-- The CompareVI branch of `Start-InvokerLoop`. A preview is answered before the state is
set, a compare after it. -/
def handleCompareRequest (cfg : Config φ) (s : State φ) (req : Request) (o : Outcome) : State φ :=
  if cfg.gateEnabled && s.singleState.any (·.handled) then
    s.answer req (.error (.alreadyHandledState
      (cfg.joinPath cfg.baseDir "single-compare-state.json")))
  else if req.args.preview then
    match runPreview cfg s req.args o with
    | (s, .error e) => s.answer req (.error e)
    | (s, .ok result) =>
      match o.responseError with
      | some message => s.answer req (.error (.thrown message))
      | none =>
        ((s.answer req (.ok (.compare result))).setSingleCompareState o.stateWritten).autoStop cfg
  else
    match runCompare cfg s req.args o with
    | (s, .error e) => s.answer req (.error e)
    | (s, .ok result) =>
      let s := s.setSingleCompareState o.stateWritten
      match o.responseError with
      | some message => s.answer req (.error (.thrown message))
      | none => (s.answer req (.ok (.compare result))).autoStop cfg

/-! ### The loop -/

def respond (s : State φ) (req : Request) (o : Outcome) (body : Except InvokerError Result) :
    State φ :=
  match body, o.responseError with
  | .ok _, some message => s.answer req (.error (.thrown message))
  | body, _ => s.answer req body

/-- One request of `Start-InvokerLoop`. -/
def handle (cfg : Config φ) (s : State φ) (req : Request) (o : Outcome) : State φ :=
  match req.verb with
  | .ping => respond s req o (.ok .pong)
  | .compareVI => handleCompareRequest cfg s req o
  | .renderReport =>
    match o.rendered with
    | .error message => respond s req o (.error (.thrown message))
    | .ok outputPath =>
      respond (s.addFile (cfg.fileAt outputPath)) req o (.ok (.report outputPath))
  | .phaseDone =>
    let s := respond s req o (.ok .done)
    if cfg.sentinelPath ≠ "" ∧ o.responseError = none then s.removeSentinel else s
  | .other verb => respond s req o (.error (.unknownVerb verb))

def step (cfg : Config φ) (s : State φ) (e : Request × Outcome) : Option (State φ) :=
  some (handle cfg s e.1 e.2)

def State.initial (files : φ → Bool) : State φ := ⟨files, none, true, []⟩

/-! ### What the gate promises, and when -/

/-- At most one CompareVI request is answered with `ok` true, and each later one with
`compare_already_handled`. -/
def GateLaw (answers : List Response) : Prop :=
  (answers.filter Response.isOkCompare).length ≤ 1 ∧
    answers.Pairwise fun a b =>
      a.isOkCompare = true → b.verb = .compareVI → b.isAlreadyHandled = true

/-- The request meets the gate by the exec file and finds it shut: its preview, if it asks
for one, passes its checks, and `compare-exec.json` is in its output directory. -/
def meetsExecFile (cfg : Config φ) (s : State φ) (args : CompareArgs) (o : Outcome) : Bool :=
  (!args.preview || (checkPreview args o).isOk) && execExists cfg s args

/-- The condition on a request: if a compare has been answered and it is a CompareVI
request, it meets the exec file. -/
def Gated (cfg : Config φ) (s : State φ) (e : Request × Outcome) : Prop :=
  s.answers.any Response.isOkCompare = true → e.1.verb = .compareVI →
    meetsExecFile cfg s e.1.args e.2 = true

instance (cfg : Config φ) (s : State φ) (e : Request × Outcome) : Decidable (Gated cfg s e) := by
  unfold Gated
  infer_instance

/-! ### One request -/

variable {cfg : Config φ} {s t : State φ}

def Answers (s : State φ) (req : Request) (body : Except InvokerError Result) (t : State φ) :
    Prop :=
  t.answers = s.answers ++ [⟨req.id, req.verb, body⟩] ∧ t.singleState = s.singleState

omit [DecidableEq φ] in
theorem answers_answer (s : State φ) (req : Request) (body : Except InvokerError Result) :
    Answers s req body (s.answer req body) := ⟨rfl, rfl⟩

variable {req : Request} {r : Response} {α : Type}

variable {body : Except InvokerError Result} {o : Outcome}

omit [DecidableEq φ] in
theorem answers_autoStop (h : Answers s req body t) :
    Answers s req body (t.autoStop cfg) := by
  unfold State.autoStop
  split <;> exact h

theorem answers_addFile {f : φ} (h : Answers (s.addFile f) req body t) : Answers s req body t := h

omit [DecidableEq φ] in
theorem answers_respond (s : State φ) (req : Request) (o : Outcome)
    (body : Except InvokerError Result) : ∃ body', Answers s req body' (respond s req o body) := by
  unfold respond
  split
  · exact ⟨_, answers_answer ..⟩
  · exact ⟨_, answers_answer ..⟩

/-- If it throws, then not `compare_already_handled`. -/
def Ungated {α : Type} (x : Except InvokerError α) : Prop :=
  ∀ e, x = .error e → e.isAlreadyHandled = false

theorem ungated_ok (a : α) : Ungated (.ok a) := fun _ h => nomatch h

theorem ungated_error {e : InvokerError} (h : e.isAlreadyHandled = false) :
    Ungated (.error e : Except InvokerError α) := by
  intro e' he
  obtain rfl := Except.error.inj he
  exact h

theorem ungated_bind {β : Type} {x : Except InvokerError α} {f : α → Except InvokerError β}
    (hx : Ungated x) (hf : ∀ a, Ungated (f a)) : Ungated (x >>= f) := by
  cases x with
  | error e => exact ungated_error (hx e rfl)
  | ok a => exact hf a

theorem ungated_thrown (x : Except String α) :
    Ungated (x.mapError InvokerError.thrown) := by
  cases x with
  | error message => exact ungated_error rfl
  | ok a => exact ungated_ok a

theorem ungated_checkPreviewPath (side : String) (found : Bool) (path : String) :
    Ungated (checkPreviewPath side found path) := by
  unfold checkPreviewPath
  split
  · exact ungated_error rfl
  · exact ungated_ok ()

theorem ungated_checkPreview (args : CompareArgs) (o : Outcome) :
    Ungated (checkPreview args o) := by
  have hpath : ∀ (side : String) (path : Option String),
      Ungated (path.elim (.error (.previewNotProvided side)) .ok) := by
    intro side path
    cases path with
    | none => exact ungated_error rfl
    | some path => exact ungated_ok path
  refine ungated_bind (hpath "base" _) fun base => ungated_bind (hpath "head" _) fun head => ?_
  refine ungated_bind (ungated_checkPreviewPath _ _ _) fun _ => ?_
  refine ungated_bind (ungated_checkPreviewPath _ _ _) fun _ => ?_
  refine ungated_bind (ungated_thrown _) fun resolved => ?_
  cases o.outDirError with
  | some message => exact ungated_error rfl
  | none => exact ungated_ok resolved

theorem ungated_handleCompareVI (args : CompareArgs) (o : Outcome) :
    Ungated (handleCompareVI args o) := by
  unfold handleCompareVI
  split_ifs
  · exact ungated_error rfl
  · exact ungated_error rfl
  · exact ungated_error rfl
  · exact ungated_thrown _

/-- **A preview with the gate on and no state.** It is refused exactly where it meets the
exec file. -/
theorem answers_preview (hgate : cfg.gateEnabled = true) (hstate : s.singleState = none)
    (hpreview : req.args.preview = true) :
    ∃ body, Answers s req body (handleCompareRequest cfg s req o) ∧
      (Response.isAlreadyHandled ⟨req.id, req.verb, body⟩ =
        meetsExecFile cfg s req.args o) := by
  simp only [handleCompareRequest, hgate, hstate, hpreview, Option.any_none, Bool.and_false,
    Bool.false_eq_true, if_false, if_true, runPreview, execGate, Option.isNone_none,
    Bool.true_and, meetsExecFile, Bool.not_true, Bool.false_or, setSingleCompareState_eq]
  cases hcheck : checkPreview req.args o with
  | error e =>
    refine ⟨.error e, answers_answer .., ?_⟩
    have hnot := ungated_checkPreview req.args o e hcheck
    simp [Response.isAlreadyHandled, hnot, Except.isOk, Except.toBool]
  | ok resolved =>
    cases hexec : execExists cfg s req.args with
    | true => exact ⟨_, answers_answer .., rfl⟩
    | false =>
      cases o.execError with
      | some message => exact ⟨_, answers_answer .., rfl⟩
      | none =>
        cases o.responseError with
        | some message => exact ⟨_, answers_addFile (answers_answer ..), rfl⟩
        | none =>
          exact ⟨_, answers_addFile (answers_autoStop (answers_answer ..)), rfl⟩

/-- **A compare with the gate on and no state.** -/
theorem answers_compare (hgate : cfg.gateEnabled = true) (hstate : s.singleState = none)
    (hpreview : req.args.preview = false) :
    ∃ body, Answers s req body (handleCompareRequest cfg s req o) ∧
      (Response.isAlreadyHandled ⟨req.id, req.verb, body⟩ =
        meetsExecFile cfg s req.args o) := by
  simp only [handleCompareRequest, hgate, hstate, hpreview, Option.any_none, Bool.and_false,
    Bool.false_eq_true, if_false, runCompare, execGate, Option.isNone_none,
    Bool.true_and, meetsExecFile, Bool.not_false, Bool.true_or, setSingleCompareState_eq]
  cases hexec : execExists cfg s req.args with
  | true => exact ⟨_, answers_answer .., rfl⟩
  | false =>
    -- the exec file that the compare may have left is no matter for its own answer
    have hleft : ∀ {body u}, Answers (if o.execLeft then
        s.addFile (cfg.fileAt (cfg.execPath req.args)) else s) req body u →
        Answers s req body u := by
      intro body u h
      split at h <;> exact h
    cases hrun : handleCompareVI req.args o with
    | error e =>
      exact ⟨_, hleft (answers_answer ..), ungated_handleCompareVI req.args o e hrun⟩
    | ok result =>
      cases o.responseError with
      | some message => exact ⟨_, hleft (answers_answer ..), rfl⟩
      | none => exact ⟨_, hleft (answers_autoStop (answers_answer ..)), rfl⟩

/-- **One request.** It gets one response, a CompareVI request `compare_already_handled`
exactly where it meets the exec file. -/
theorem answers_handle (hgate : cfg.gateEnabled = true) (hstate : s.singleState = none)
    (req : Request) (o : Outcome) :
    ∃ body, Answers s req body (handle cfg s req o) ∧
      (req.verb = .compareVI → Response.isAlreadyHandled ⟨req.id, req.verb, body⟩ =
        meetsExecFile cfg s req.args o) := by
  obtain ⟨id, verb, args⟩ := req
  have hother : ∀ {u}, verb ≠ .compareVI → (∃ body, Answers s ⟨id, verb, args⟩ body u) →
      ∃ body, Answers s ⟨id, verb, args⟩ body u ∧ (verb = .compareVI →
        Response.isAlreadyHandled ⟨id, verb, body⟩ = meetsExecFile cfg s args o) := by
    rintro u hne ⟨body, h⟩
    exact ⟨body, h, fun hverb => absurd hverb hne⟩
  cases verb with
  | compareVI =>
    cases hpreview : args.preview with
    | true =>
      obtain ⟨body, h, heq⟩ := answers_preview hgate hstate (o := o)
        (show (⟨id, .compareVI, args⟩ : Request).args.preview = true from hpreview)
      exact ⟨body, h, fun _ => heq⟩
    | false =>
      obtain ⟨body, h, heq⟩ := answers_compare hgate hstate (o := o)
        (show (⟨id, .compareVI, args⟩ : Request).args.preview = false from hpreview)
      exact ⟨body, h, fun _ => heq⟩
  | ping => exact hother (fun h => Verb.noConfusion h) (answers_respond ..)
  | renderReport =>
    refine hother (fun h => Verb.noConfusion h) ?_
    unfold handle
    cases o.rendered with
    | error message => exact answers_respond ..
    | ok outputPath =>
      obtain ⟨body, h⟩ := answers_respond (s.addFile (cfg.fileAt outputPath))
        ⟨id, .renderReport, args⟩ o (.ok (.report outputPath))
      exact ⟨body, answers_addFile h⟩
  | phaseDone =>
    refine hother (fun h => Verb.noConfusion h) ?_
    obtain ⟨body, h⟩ := answers_respond s ⟨id, .phaseDone, args⟩ o (.ok .done)
    refine ⟨body, ?_⟩
    simp only [handle]
    split <;> exact h
  | other verb => exact hother (fun h => Verb.noConfusion h) (answers_respond ..)

/-! ### The law along a run -/

theorem Response.not_ok_of_alreadyHandled (h : r.isAlreadyHandled = true) :
    r.isOkCompare = false := by
  unfold isAlreadyHandled at h
  unfold isOkCompare
  cases hbody : r.body with
  | error e => simp [Except.isOk, Except.toBool]
  | ok result =>
    rw [hbody] at h
    cases h

theorem Response.verb_of_okCompare (h : r.isOkCompare = true) :
    r.verb = .compareVI := by
  rw [isOkCompare, Bool.and_eq_true] at h
  exact of_decide_eq_true h.1

/-- **One more answer.** -/
theorem gateLaw_concat {answers : List Response} :
    GateLaw (answers ++ [r]) ↔ GateLaw answers ∧
      (answers.any Response.isOkCompare = true → r.verb = .compareVI →
        r.isAlreadyHandled = true) := by
  have hpair : (answers ++ [r]).Pairwise (fun a b : Response =>
      a.isOkCompare = true → b.verb = .compareVI → b.isAlreadyHandled = true) ↔
      answers.Pairwise (fun a b : Response =>
        a.isOkCompare = true → b.verb = .compareVI → b.isAlreadyHandled = true) ∧
      (answers.any Response.isOkCompare = true → r.verb = .compareVI →
        r.isAlreadyHandled = true) := by
    rw [List.pairwise_append]
    simp only [List.pairwise_singleton, List.mem_singleton, forall_eq, true_and,
      List.any_eq_true, forall_exists_index, and_imp]
  rw [GateLaw, hpair, GateLaw, List.filter_append, List.length_append]
  constructor
  · rintro ⟨hcount, hpairs, hlast⟩
    exact ⟨⟨by omega, hpairs⟩, hlast⟩
  · rintro ⟨⟨hcount, hpairs⟩, hlast⟩
    refine ⟨?_, hpairs, hlast⟩
    cases hr : r.isOkCompare with
    | false => simpa [List.filter_cons, hr] using hcount
    | true =>
      -- the first `ok` answer, for a later one would be refused
      have hnone : answers.filter Response.isOkCompare = [] := by
        rw [List.filter_eq_nil_iff]
        intro a ha hok
        have := hlast (List.any_eq_true.mpr ⟨a, ha, hok⟩) (Response.verb_of_okCompare hr)
        rw [Response.not_ok_of_alreadyHandled this] at hr
        cases hr
      simp [hnone, hr]

/-- **The single-compare gate.** With the gate on and a clean invoker directory, the gate
keeps its law on a sequence of requests exactly when each CompareVI request that comes
after an answered compare meets the exec file. -/
theorem gateLaw_iff (cfg : Config φ) (hgate : cfg.gateEnabled = true) (files : φ → Bool)
    (es : List (Request × Outcome)) (t : State φ)
    (hrun : run (step cfg) (State.initial files) es = some t) :
    GateLaw t.answers ↔ Guarded (step cfg) (Gated cfg) (State.initial files) es := by
  have hI : ∀ (s : State φ) (e : Request × Outcome) (t : State φ), s.singleState = none →
      step cfg s e = some t → t.singleState = none := by
    intro s e t hs hstep
    obtain ⟨body, h, -⟩ := answers_handle hgate hs e.1 e.2
    rw [← Option.some.inj hstep, h.2, hs]
  have hP : ∀ (s : State φ) (e : Request × Outcome) (t : State φ), s.singleState = none →
      step cfg s e = some t → (GateLaw t.answers ↔ GateLaw s.answers ∧ Gated cfg s e) := by
    intro s e t hs hstep
    obtain ⟨body, h, heq⟩ := answers_handle hgate hs e.1 e.2
    rw [← Option.some.inj hstep, h.1, gateLaw_concat, Gated]
    refine and_congr_right fun _ => forall_congr' fun _ => forall_congr' fun hverb => ?_
    rw [heq hverb]
  have hstart : GateLaw (State.initial files).answers := ⟨Nat.zero_le _, List.Pairwise.nil⟩
  rw [run_iff_guarded hI hP rfl hrun]
  exact and_iff_right hstart

/-! ### Two output directories -/

def gatedConfig : Config String where
  gateEnabled := true
  autoStopEnabled := false
  sentinelPath := "sentinel"
  resultsDir := "results"
  joinPath := fun dir leaf => dir ++ "/" ++ leaf
  fileAt := id

def previewInto (id outputDir : String) : Request :=
  ⟨id, .compareVI, ⟨some "base.vi", some "head.vi", none, some outputDir, true⟩⟩

def allWell : Outcome where
  baseFound := true
  headFound := true
  resolved := .ok ("base.vi", "head.vi")
  cli := none
  outDirError := none
  execError := none
  compared := .error "LVCompare is not installed"
  execLeft := false
  rendered := .ok "results/compare-report.html"
  responseError := none
  stateWritten := true

def twoDirectories : List (Request × Outcome) :=
  [(previewInto "1" "a", allWell), (previewInto "2" "b", allWell)]

/-- Both previews are answered with `ok` true. -/
theorem not_gateLaw_twoDirectories :
    ∃ t, run (step gatedConfig) (State.initial fun _ => false) twoDirectories = some t ∧
      ¬ GateLaw t.answers := by
  refine ⟨_, rfl, fun h => ?_⟩
  have hcount := h.1
  revert hcount
  decide +kernel

def oneDirectory : List (Request × Outcome) :=
  [(previewInto "1" "a", allWell), (⟨"2", .ping, ⟨none, none, none, none, false⟩⟩, allWell),
    (previewInto "3" "a", allWell)]

theorem gateLaw_oneDirectory :
    ∃ t, run (step gatedConfig) (State.initial fun _ => false) oneDirectory = some t ∧
      GateLaw t.answers := by
  obtain ⟨t, ht⟩ : ∃ t, run (step gatedConfig) (State.initial fun _ => false) oneDirectory =
      some t := ⟨_, rfl⟩
  exact ⟨t, ht, (gateLaw_iff gatedConfig rfl (fun _ => false) oneDirectory t ht).mpr
    (by decide +kernel)⟩

end CompareVI.Invoker
