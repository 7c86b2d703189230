import CompareVI.Framework.JsString

/-!
# Child processes and the local agent review

What the phases of `run-phase.mjs` share: the normalized result of a child process, and
the agent review, which is a child process or a function handed in by the caller.

`JSON.parse` is the parameter `parse` of the definitions that read a text. An `Output` is
a text at hand or the text of a JSON document, which parses to the document.
-/

open Framework

namespace CompareVI.LocalCollab

/-! ### Child processes -/

inductive Output where
  | text (raw : String)
  | document (value : Json)
  deriving DecidableEq

mutual

/-- `JSON.stringify(value, null, 2)`, in lines that are indented so far. -/
def stringifyIndented (indent : String) : Json → String
  | .arr [] => "[]"
  | .arr (x :: xs) =>
    "[\n" ++ JsString.join ",\n" (itemsIndented (indent ++ "  ") (x :: xs)) ++ "\n" ++ indent ++ "]"
  | .obj [] => "\x7b\x7d"
  | .obj (field :: fields) =>
    "\x7b\n" ++ JsString.join ",\n" (fieldsIndented (indent ++ "  ") (field :: fields)) ++ "\n" ++
      indent ++ "\x7d"
  | .null => "null"
  | .bool b => Json.stringify (.bool b)
  | .num q => Json.stringify (.num q)
  | .str s => Json.stringify (.str s)

def itemsIndented (indent : String) : List Json → List String
  | [] => []
  | x :: xs => (indent ++ stringifyIndented indent x) :: itemsIndented indent xs

def fieldsIndented (indent : String) : List (String × Json) → List String
  | [] => []
  | (key, value) :: fields =>
    (indent ++ Json.quote key ++ ": " ++ stringifyIndented indent value) ::
      fieldsIndented indent fields

end

def Output.toText : Output → String
  | text raw => raw
  | document value => stringifyIndented "" value

/-- `normalizeText` of an output. -/
def Output.normalize : Output → Output
  | text raw => text (JsString.trim raw)
  | document value => document value

/-- What `spawnSync` returns. The status is `null` where the process was killed by a signal
or could not be started. -/
structure SpawnResult where
  status : Option ℤ
  stdout : String
  stderr : String
  error : Option String
  deriving DecidableEq, Repr

structure CommandResult where
  status : ℤ
  stdout : Output
  stderr : String

/-- `normalizeText` of a property. -/
def normalizeText (value : Option Json) : String := JsString.trim (Json.stringOrEmpty value)

def normalizeCommandResult (result : SpawnResult) : CommandResult where
  status := result.status.getD 1
  stdout := .text (JsString.trim result.stdout)
  stderr := JsString.join "\n"
    ([JsString.trim result.stderr, JsString.trim (result.error.getD "")].filter (· ≠ ""))

def tryParseJson (parse : String → Option Json) : Output → Option Json
  | .text raw => if JsString.trim raw = "" then none else parse (JsString.trim raw)
  | .document value => some value

/-! ### The agent review -/

structure ProviderSelection where
  selectionSource : String
  providers : List String
  deriving DecidableEq, Repr

/-- An exception, with the `exitCode` that it may carry. -/
structure Thrown where
  exitCode : Option ℤ
  message : String
  deriving DecidableEq, Repr

/-- What a function handed in for the agent review returns. -/
structure Injected where
  receipt : Option Json
  exitCode : Option ℤ
  stdout : String
  stderr : String

/-- The agent review: the child process, or the function handed in. -/
inductive ReviewCall where
  | spawned (result : SpawnResult)
  | injected (result : Except Thrown Injected)

/-- `receipt?.overall?.status`, normalized. -/
def overallStatus (receipt : Option Json) : String :=
  normalizeText (Json.path receipt ["overall", "status"])

/-- `value ?? null`. -/
def nonNull (value : Option Json) : Option Json := value.filter (· ≠ .null)

def injectedCommand (injected : Injected) : CommandResult where
  status := injected.exitCode.getD (if overallStatus injected.receipt = "failed" then 1 else 0)
  stdout :=
    if JsString.trim injected.stdout ≠ "" then .text (JsString.trim injected.stdout)
    else
      match (nonNull injected.receipt).filter Json.isTruthy with
      | some receipt => .document receipt
      | none => .text ""
  stderr := JsString.trim injected.stderr

def reviewCommand (parse : String → Option Json) :
    ReviewCall → Except Thrown (CommandResult × Option Json)
  | .spawned result =>
    let command := normalizeCommandResult result
    .ok (command, tryParseJson parse command.stdout)
  | .injected (.error e) => .error e
  | .injected (.ok injected) =>
    let command := injectedCommand injected
    .ok (command, (nonNull injected.receipt).or (tryParseJson parse command.stdout))

structure AgentReview where
  exitCode : ℤ
  receiptPath : String
  receiptStatus : Option String
  selectionSource : String
  requestedProviders : List Json
  actionableFindingCount : ℚ
  reason : Output

/-- `receipt.requestedProviders.filter(Boolean)`, if it is an array. -/
def requestedProviders (receipt : Option Json) : List Json :=
  match Json.path receipt ["requestedProviders"] with
  | some (.arr providers) => providers.filter Json.isTruthy
  | _ => []

/-- `receipt.overall.actionableFindingCount`, if it is an integer. -/
def actionableFindingCount (receipt : Option Json) : ℚ :=
  match Json.path receipt ["overall", "actionableFindingCount"] with
  | some (.num q) => if q.den = 1 then q else 0
  | _ => 0

/-- `normalizeText(a) || b` for an output. -/
def orOutput (a b : Output) : Output :=
  match a with
  | .text raw => if JsString.trim raw = "" then b else .text (JsString.trim raw)
  | .document _ => a

def reviewReport (receiptPath : String) (selection : ProviderSelection) (command : CommandResult)
    (receipt : Option Json) : AgentReview where
  exitCode := command.status
  receiptPath := receiptPath
  receiptStatus := optionalTrim (Json.stringOrEmpty (Json.path receipt ["overall", "status"]))
  selectionSource :=
    orText (normalizeText (Json.path receipt ["providerSelection", "selectionSource"]))
      selection.selectionSource
  requestedProviders := requestedProviders receipt
  actionableFindingCount := actionableFindingCount receipt
  reason := orOutput (.text (normalizeText (Json.path receipt ["overall", "message"])))
    (orOutput (.text command.stderr) (orOutput command.stdout
      (.text "Daemon local agent review providers did not return a machine-readable status.")))

@[simp] theorem tryParseJson_normalize (parse : String → Option Json) (output : Output) :
    tryParseJson parse output.normalize = tryParseJson parse output := by
  cases output with
  | text raw => simp only [Output.normalize, tryParseJson, JsString.trim_trim]
  | document value => rfl

end CompareVI.LocalCollab
