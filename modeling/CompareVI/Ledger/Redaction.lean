import CompareVI.Framework.JsValue
import Mathlib.Data.List.Infix

/-!
# Redacting a decision

`redactSensitiveFields` copies a decision and writes `[REDACTED]` for every value under a
sensitive key and for every text that looks like a token. It copies an object by assigning its
properties one by one, and returns what is not a plain object as it is.

The key that a value stands under matters for texts only, and it is never a sensitive one
below the top (`redact_of_context`).
-/

open Framework
open Framework.JsValue

namespace CompareVI.Ledger

/-! ### Patterns -/

def containsText (text pattern : String) : Bool :=
  decide (pattern.toList <:+: text.toList.map Char.toLower)

/-- `SENSITIVE_KEY_PATTERN`. -/
def isSensitiveKey (key : String) : Bool :=
  ["token", "secret", "authorization", "password", "apikey", "api_key", "privatekey",
    "private_key"].any (containsText key)

def isTokenChar (c : Char) : Bool := c.isAlphanum || c = '_'

def isBearerChar (c : Char) : Bool := c.isAlphanum || c = '_' || c = '-' || c = '.'

def startsToken (start rest : List Char) : Bool :=
  start.isPrefixOf (rest.map Char.toLower) &&
    20 ≤ ((rest.drop start.length).takeWhile isTokenChar).length

def startsBearer (rest : List Char) : Bool :=
  let blanks := (rest.drop 6).takeWhile JsString.isWhitespace
  "bearer".toList.isPrefixOf (rest.map Char.toLower) && blanks ≠ [] &&
    ((rest.drop (6 + blanks.length)).head?.map isBearerChar).getD false

/-- `SENSITIVE_VALUE_PATTERN`. -/
def isSensitiveValue (value : String) : Bool :=
  value.toList.tails.any fun rest =>
    ["ghp_", "gho_", "ghu_", "ghs_", "ghr_", "github_pat_"].any
      (fun start => startsToken start.toList rest) || startsBearer rest

def redactString (value : String) : String := if isSensitiveValue value then "[REDACTED]" else value

/-! ### Redaction -/

/-- `contextKey && SENSITIVE_KEY_PATTERN.test(contextKey)`. -/
def isSensitiveContext (contextKey : Option String) : Bool :=
  contextKey.any fun key => key ≠ "" && isSensitiveKey key

mutual

def redactSensitiveFields (contextKey : Option String) : JsValue → JsValue
  | .arr entries => .arr (redactEntries contextKey entries)
  | .obj fields => objectOf (ownOrder (redactFields fields))
  | .str value =>
    .str (if isSensitiveContext contextKey then "[REDACTED]" else redactString value)
  | value => value

def redactEntries (contextKey : Option String) : List JsValue → List JsValue
  | [] => []
  | entry :: entries =>
    redactSensitiveFields contextKey entry :: redactEntries contextKey entries

def redactFields : List (String × JsValue) → List (String × JsValue)
  | [] => []
  | (key, child) :: fields =>
    (key, if isSensitiveKey key then .str "[REDACTED]" else redactSensitiveFields (some key) child)
      :: redactFields fields

end

def redacted (decision : Json) : JsValue := redactSensitiveFields none (ofJson decision)

theorem redactFields_eq (fields : List (String × JsValue)) : redactFields fields =
    fields.map fun field => (field.1, if isSensitiveKey field.1 then .str "[REDACTED]"
      else redactSensitiveFields (some field.1) field.2) := by
  induction fields with
  | nil => rfl
  | cons field fields ih => rw [redactFields, ih, List.map_cons]

theorem redactEntries_eq (contextKey : Option String) (entries : List JsValue) :
    redactEntries contextKey entries = entries.map (redactSensitiveFields contextKey) := by
  induction entries with
  | nil => rfl
  | cons entry entries ih => rw [redactEntries, ih, List.map_cons]

theorem isSensitiveContext_of_not {key : String} (h : isSensitiveKey key = false) :
    isSensitiveContext (some key) = false := by
  rw [isSensitiveContext, Option.any_some, h, Bool.and_false]

mutual

variable {contextKey : Option String}

theorem redact_of_context (h : isSensitiveContext contextKey = false) :
    ∀ v : JsValue, redactSensitiveFields contextKey v = redactSensitiveFields none v
  | .arr entries => by
    rw [redactSensitiveFields, redactSensitiveFields, redactEntries_of_context h entries]
  | .str value => by
    rw [redactSensitiveFields, redactSensitiveFields, h]
    rfl
  | .null | .bool _ | .num _ | .obj _ | .derived _ _ => rfl

theorem redactEntries_of_context (h : isSensitiveContext contextKey = false) :
    ∀ entries : List JsValue, redactEntries contextKey entries = redactEntries none entries
  | [] => rfl
  | entry :: entries => by
    rw [redactEntries, redactEntries, redact_of_context h entry,
      redactEntries_of_context h entries]

end

end CompareVI.Ledger
