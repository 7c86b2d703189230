import CompareVI.Framework.Comparison
import CompareVI.Framework.JsString

/-!
# The integrity of commits

`commit-integrity` reads the commits of a pull request or of a comparison, drops what has
no sha (`normalizeCommitRecords`), and evaluates about a dozen checks on each of the rest
(`evaluateCommitIntegrity`). The policy says which checks are made. Regular expressions are
a parameter (`RegexEngine`).

The counts and the table of checks that the report derives from the violations are left out.
-/

open Framework

namespace CompareVI.Integrity

/-- `new RegExp(pattern, flags)`: the texts it finds, or an error for a pattern that is none.
The flag says whether case is ignored. -/
abbrev RegexEngine : Type := String → Bool → Except String (String → Bool)

/-! ### Texts -/

/-- `normalizeSha`, and `normalizeOptionalString(value)?.toLowerCase()`. -/
def normalizeLower (value : Option Json) : Option String :=
  (Json.optionText value).map JsString.toLowerCase

def utf16Length (s : String) : ℕ :=
  (s.toList.map fun c => if c.toNat > 0xffff then 2 else 1).foldr (· + ·) 0

def firstLine (value : String) : String :=
  let normalized := (optionalTrim value).getD ""
  if normalized.toList.contains '\n' then
    JsString.trim (String.ofList (normalized.toList.takeWhile (· ≠ '\n')))
  else normalized

structure Trailer where
  key : String
  value : String
  deriving DecidableEq

def isTrailerKeyChar (c : Char) : Bool :=
  ('A' ≤ c && c ≤ 'Z') || ('a' ≤ c && c ≤ 'z') || ('0' ≤ c && c ≤ '9') || c = '-'

/-- A trimmed line that is a trailer: a key, a colon and a text without a line terminator. -/
def trailerOfLine (line : List Char) : Option Trailer :=
  let key := line.takeWhile isTrailerKeyChar
  match line.dropWhile isTrailerKeyChar with
  | ':' :: rest =>
    let value := rest.dropWhile JsString.isWhitespace
    if key ≠ [] ∧ value ≠ [] ∧ ¬ value.any JsString.isLineTerminator then
      some ⟨String.ofList key, String.ofList value⟩
    else none
  | _ => none

/-- `extractCommitTrailers`: the last block of lines, if it comes after a blank line and all
of its lines are trailers. -/
def extractCommitTrailers (message : String) : List Trailer :=
  let normalizedMessage := (optionalTrim message).getD ""
  let lines := (JsString.splitList '\n' normalizedMessage.toList).map JsString.trimList
  let fromEnd := lines.reverse.dropWhile (· = [])
  let block := fromEnd.takeWhile (· ≠ [])
  if fromEnd.dropWhile (· ≠ []) = [] then []
  else ((block.reverse.mapM trailerOfLine)).getD []

/-! ### The policy -/

structure RawTrailerRule where
  key : Option Json
  valuePattern : Option Json

/-- The argument of `normalizeChecks`. -/
structure RawChecks where
  requireBotAllowlist : Option Json
  allowedBotLogins : Option Json
  allowedBotEmailPatterns : Option Json
  requireAuthorAttribution : Option Json
  requireCommitterAttribution : Option Json
  requireKnownReasonForUnverified : Option Json
  requireSignatureVerificationAvailable : Option Json
  requireUniqueShas : Option Json
  requireNonEmptyHeadline : Option Json
  maxHeadlineLength : Option Json
  requireSignatureMaterialForVerified : Option Json
  requireRequiredTrailer : Option Json
  requiredTrailerRules : List RawTrailerRule

/-- A rule about trailers. `valueMatches` is its compiled pattern. -/
structure TrailerRule where
  key : String
  keyLower : String
  valuePattern : String
  valueMatches : String → Bool

/-- The result of `normalizeChecks`. `allowedBotEmails` are the compiled patterns. -/
structure Checks where
  requireBotAllowlist : Bool
  allowedBotLogins : List String
  allowedBotEmailPatterns : List String
  allowedBotEmails : List (String → Bool)
  requireAuthorAttribution : Bool
  requireCommitterAttribution : Bool
  requireKnownReasonForUnverified : Bool
  requireSignatureVerificationAvailable : Bool
  requireUniqueShas : Bool
  requireNonEmptyHeadline : Bool
  maxHeadlineLength : ℕ
  requireSignatureMaterialForVerified : Bool
  requireRequiredTrailer : Bool
  requiredTrailerRules : List TrailerRule

def entries : Option Json → List Json
  | some (.arr values) => values
  | _ => []

/-- `checks.flag !== undefined ? Boolean(checks.flag) : default`. -/
def flag (value : Option Json) (default : Bool) : Bool := value.elim default Json.isTruthy

/-- The normalized `maxHeadlineLength`. -/
def headlineLength (value : Option Json) : ℕ :=
  match Json.toNumber? value with
  | some q => if q.den = 1 ∧ 0 < q.num then q.num.toNat else 120
  | none => 120

/-- The logins of `normalizeChecks`. -/
def normalizeLogins (value : Option Json) : List String :=
  ((entries value).filterMap fun entry => normalizeLower (some entry)).eraseDups

def normalizePatterns (value : Option Json) : List String :=
  (entries value).filterMap fun entry => Json.optionText (some entry)

/-- One rule of `normalizeChecks`; a rule without a key or a pattern is skipped. -/
def normalizeTrailerRule (regex : RegexEngine) (rule : RawTrailerRule) :
    Except String (Option TrailerRule) :=
  match Json.optionText rule.key, Json.optionText rule.valuePattern with
  | some key, some valuePattern =>
    (regex valuePattern false).map fun valueMatches =>
      some ⟨key, JsString.toLowerCase key, valuePattern, valueMatches⟩
  | _, _ => .ok none

def normalizeChecks (regex : RegexEngine) (checks : RawChecks) : Except String Checks := do
  let rules ← checks.requiredTrailerRules.mapM (normalizeTrailerRule regex)
  let patterns := normalizePatterns checks.allowedBotEmailPatterns
  let emails ← patterns.mapM fun pattern => regex pattern true
  pure {
    requireBotAllowlist := flag checks.requireBotAllowlist false
    allowedBotLogins := normalizeLogins checks.allowedBotLogins
    allowedBotEmailPatterns := patterns
    allowedBotEmails := emails
    requireAuthorAttribution := flag checks.requireAuthorAttribution true
    requireCommitterAttribution := flag checks.requireCommitterAttribution true
    requireKnownReasonForUnverified := flag checks.requireKnownReasonForUnverified true
    requireSignatureVerificationAvailable :=
      flag checks.requireSignatureVerificationAvailable true
    requireUniqueShas := flag checks.requireUniqueShas true
    requireNonEmptyHeadline := flag checks.requireNonEmptyHeadline true
    maxHeadlineLength := headlineLength checks.maxHeadlineLength
    requireSignatureMaterialForVerified := flag checks.requireSignatureMaterialForVerified false
    requireRequiredTrailer := flag checks.requireRequiredTrailer false
    requiredTrailerRules := rules.filterMap id }

/-- Normalized checks as an argument of `normalizeChecks`. -/
def Checks.raw (checks : Checks) : RawChecks where
  requireBotAllowlist := some (.bool checks.requireBotAllowlist)
  allowedBotLogins := some (.arr (checks.allowedBotLogins.map Json.str))
  allowedBotEmailPatterns := some (.arr (checks.allowedBotEmailPatterns.map Json.str))
  requireAuthorAttribution := some (.bool checks.requireAuthorAttribution)
  requireCommitterAttribution := some (.bool checks.requireCommitterAttribution)
  requireKnownReasonForUnverified := some (.bool checks.requireKnownReasonForUnverified)
  requireSignatureVerificationAvailable :=
    some (.bool checks.requireSignatureVerificationAvailable)
  requireUniqueShas := some (.bool checks.requireUniqueShas)
  requireNonEmptyHeadline := some (.bool checks.requireNonEmptyHeadline)
  maxHeadlineLength := some (.num checks.maxHeadlineLength)
  requireSignatureMaterialForVerified :=
    some (.bool checks.requireSignatureMaterialForVerified)
  requireRequiredTrailer := some (.bool checks.requireRequiredTrailer)
  requiredTrailerRules := checks.requiredTrailerRules.map fun rule =>
    ⟨some (.str rule.key), some (.str rule.valuePattern)⟩

structure SourceResolution where
  botLogins : List (String → Bool)
  botEmails : List (String → Bool)

/-- The result of `loadPolicy`. -/
structure Policy where
  failOnUnverified : Bool
  checks : Checks
  sourceResolution : SourceResolution
  allowBypass : Bool
  requireReasonOwnerExpiry : Bool

def compileRegexList (regex : RegexEngine) (values : Option Json) :
    Except String (List (String → Bool)) :=
  (normalizePatterns values).mapM fun pattern => regex pattern true

/-- `loadPolicy`, from the parsed file. -/
def loadPolicy (regex : RegexEngine) (parsed : Json) : Except String Policy := do
  let field := fun keys => Json.path (some parsed) keys
  let rules := (entries (field ["trailer_contract", "required_any"])).map fun entry =>
    (⟨Json.path (some entry) ["key"], Json.path (some entry) ["value_pattern"]⟩ : RawTrailerRule)
  let checks ← normalizeChecks regex {
    requireBotAllowlist := field ["bot_identity_policy", "require_allowlist_for_bot_commits"]
    allowedBotLogins := field ["bot_identity_policy", "allowed_bot_logins"]
    allowedBotEmailPatterns := field ["bot_identity_policy", "allowed_bot_email_patterns"]
    requireAuthorAttribution := field ["checks", "require_author_attribution"]
    requireCommitterAttribution := field ["checks", "require_committer_attribution"]
    requireKnownReasonForUnverified :=
      field ["checks", "require_non_unknown_reason_for_unverified"]
    requireSignatureVerificationAvailable :=
      field ["checks", "require_signature_verification_available"]
    requireUniqueShas := field ["checks", "require_unique_shas"]
    requireNonEmptyHeadline := field ["checks", "require_non_empty_headline"]
    maxHeadlineLength := field ["checks", "max_headline_length"]
    requireSignatureMaterialForVerified :=
      field ["checks", "require_signature_material_for_verified"]
    requireRequiredTrailer := field ["checks", "require_required_trailer"]
    requiredTrailerRules := rules }
  let botLogins ← compileRegexList regex (field ["source_resolution", "bot_login_patterns"])
  let botEmails ← compileRegexList regex (field ["source_resolution", "bot_email_patterns"])
  pure {
    failOnUnverified := field ["verification", "fail_on_unverified"] ≠ some (.bool false)
    checks := checks
    sourceResolution := ⟨botLogins, botEmails⟩
    allowBypass := field ["exception_governance", "allow_bypass"] = some (.bool true)
    requireReasonOwnerExpiry :=
      field ["exception_governance", "require_reason_owner_expiry"] ≠ some (.bool false) }

/-! ### Commits -/

inductive SourceKind where
  | bot
  | human
  deriving DecidableEq, Repr

structure CommitFields where
  url : Option String
  messageHeadline : String
  trailers : List Trailer
  verified : Bool
  verificationReason : String
  verificationSignaturePresent : Bool
  verificationPayloadPresent : Bool
  authorLogin : Option String
  committerLogin : Option String
  authorEmail : Option String
  committerEmail : Option String
  deriving DecidableEq

def classifySourceKind (source : SourceResolution) (commit : CommitFields) : SourceKind :=
  let found := fun (regex : String → Bool) (text : Option String) =>
    ((text.bind optionalTrim).map regex).getD false
  if source.botLogins.any fun regex =>
      found regex commit.authorLogin || found regex commit.committerLogin then .bot
  else if source.botEmails.any fun regex =>
      found regex commit.authorEmail || found regex commit.committerEmail then .bot
  else .human

structure CommitRecord extends CommitFields where
  sha : String
  sourceKind : SourceKind
  deriving DecidableEq

def readFields (raw : Json) : CommitFields :=
  let field := fun keys => Json.path (some raw) keys
  let fullMessage := (Json.optionText (field ["commit", "message"])).getD ""
  { url := Json.optionText (field ["html_url"])
    messageHeadline := firstLine fullMessage
    trailers := extractCommitTrailers fullMessage
    verified := field ["commit", "verification", "verified"] = some (.bool true)
    verificationReason :=
      (Json.optionText (field ["commit", "verification", "reason"])).getD "unknown"
    verificationSignaturePresent :=
      (Json.optionText (field ["commit", "verification", "signature"])).isSome
    verificationPayloadPresent :=
      (Json.optionText (field ["commit", "verification", "payload"])).isSome
    authorLogin := Json.optionText (field ["author", "login"])
    committerLogin := Json.optionText (field ["committer", "login"])
    authorEmail := Json.optionText (field ["commit", "author", "email"])
    committerEmail := Json.optionText (field ["commit", "committer", "email"]) }

def rawSha (raw : Json) : Option String := normalizeLower (Json.path (some raw) ["sha"])

/-- `normalizeCommitRecord`: a record without a sha is none. -/
def normalizeCommitRecord (source : SourceResolution) (raw : Json) : Option CommitRecord :=
  (rawSha raw).map fun sha =>
    { readFields raw with
      sha := sha
      sourceKind := classifySourceKind source (readFields raw) }

/-- `commitSort`: the left record stays before the right one. -/
def commitSort (collation : Comparison String) (left right : CommitRecord) : Bool :=
  if left.sha ≠ right.sha then collation.le left.sha right.sha
  else if left.url.getD "" ≠ right.url.getD "" then
    collation.le (left.url.getD "") (right.url.getD "")
  else collation.le left.messageHeadline right.messageHeadline

def normalizeCommitRecords (collation : Comparison String) (source : SourceResolution)
    (rawRecords : List Json) : List CommitRecord :=
  (rawRecords.filterMap (normalizeCommitRecord source)).insertionSort fun left right =>
    commitSort collation left right = true

/-! ### The checks -/

inductive Category where
  | duplicateCommitSha
  | unauthorizedBotIdentity
  | emptyHeadline
  | headlineTooLong
  | missingSignatureMaterial
  | unverifiedCommit
  | signatureVerificationUnavailable
  | unknownUnverifiedReason
  | missingAuthorAttribution
  | missingCommitterAttribution
  | requiredTrailerRulesEmpty
  | invalidRequiredTrailerFormat
  | missingRequiredTrailer
  deriving DecidableEq, Repr

structure Violation where
  category : Category
  sha : String
  reason : String
  messageHeadline : String
  sourceKind : SourceKind
  authorLogin : Option String
  committerLogin : Option String
  deriving DecidableEq

/-- `addViolation`. -/
def violation (commit : CommitRecord) (category : Category) (reason : String) : Violation :=
  ⟨category, commit.sha, reason, commit.messageHeadline, commit.sourceKind, commit.authorLogin,
    commit.committerLogin⟩

def violationIf (fails : Bool) (commit : CommitRecord) (category : Category) (reason : String) :
    List Violation :=
  if fails then [violation commit category reason] else []

def SIGNATURE_UNAVAILABLE_REASONS : List String := ["gpgverify_error", "gpgverify_unavailable"]

def loginCandidates (commit : CommitFields) : List String :=
  [commit.authorLogin, commit.committerLogin].filterMap fun login =>
    (login.bind optionalTrim).map JsString.toLowerCase

def emailCandidates (commit : CommitFields) : List String :=
  [commit.authorEmail, commit.committerEmail].filterMap fun email => email.bind optionalTrim

def allowlisted (checks : Checks) (commit : CommitFields) : Bool :=
  (loginCandidates commit).any (checks.allowedBotLogins.contains ·) ||
    (emailCandidates commit).any fun email => checks.allowedBotEmails.any (· email)

/-- The reason of `evaluateBotIdentityAllowlist`. -/
def botIdentityReason (commit : CommitFields) : String :=
  "bot identity not allowlisted (logins=" ++
    orText (JsString.join "|" (loginCandidates commit)) "none" ++ ", emails=" ++
    orText (JsString.join "|" (emailCandidates commit)) "none" ++ ")"

def hasAuthorAttribution (commit : CommitFields) : Bool :=
  commit.authorLogin.isSome || commit.authorEmail.isSome

def hasCommitterAttribution (commit : CommitFields) : Bool :=
  commit.committerLogin.isSome || commit.committerEmail.isSome

def TrailerRule.hasKey (rule : TrailerRule) (trailer : Trailer) : Bool :=
  JsString.toLowerCase trailer.key = rule.keyLower

/-- `evaluateRequiredTrailer`: the violation, if there is one. -/
def evaluateRequiredTrailer (rules : List TrailerRule) (commit : CommitFields) :
    Option (Category × String) :=
  if rules = [] then some (.requiredTrailerRulesEmpty, "required trailer rules are empty")
  else if rules.any fun rule =>
      (commit.trailers.filter rule.hasKey).any fun trailer => rule.valueMatches trailer.value then
    none
  else if commit.trailers.any fun trailer => rules.any fun rule => rule.hasKey trailer then
    some (.invalidRequiredTrailerFormat,
      "required trailer present but value does not match policy")
  else some (.missingRequiredTrailer, "required trailer not found")

def trailerViolations (checks : Checks) (commit : CommitRecord) : List Violation :=
  if checks.requireRequiredTrailer && !checks.requiredTrailerRules.isEmpty then
    (evaluateRequiredTrailer checks.requiredTrailerRules commit.toCommitFields).elim [] fun found =>
      [violation commit found.1 found.2]
  else []

def commitViolations (checks : Checks) (commit : CommitRecord) : List Violation :=
  violationIf (checks.requireBotAllowlist && decide (commit.sourceKind = .bot) &&
      !allowlisted checks commit.toCommitFields)
    commit .unauthorizedBotIdentity (botIdentityReason commit.toCommitFields) ++
  violationIf (checks.requireNonEmptyHeadline && decide (commit.messageHeadline = ""))
    commit .emptyHeadline "commit headline is empty" ++
  violationIf (decide (checks.maxHeadlineLength > 0) &&
      decide (utf16Length commit.messageHeadline > checks.maxHeadlineLength))
    commit .headlineTooLong
    ("commit headline exceeds " ++ toString checks.maxHeadlineLength ++ " characters") ++
  violationIf (checks.requireSignatureMaterialForVerified && commit.verified &&
      (!commit.verificationSignaturePresent || !commit.verificationPayloadPresent))
    commit .missingSignatureMaterial "verified commit missing signature or payload" ++
  violationIf (!commit.verified) commit .unverifiedCommit commit.verificationReason ++
  violationIf (!commit.verified && checks.requireSignatureVerificationAvailable &&
      SIGNATURE_UNAVAILABLE_REASONS.contains commit.verificationReason)
    commit .signatureVerificationUnavailable commit.verificationReason ++
  violationIf (!commit.verified && checks.requireKnownReasonForUnverified &&
      decide (commit.verificationReason = "unknown"))
    commit .unknownUnverifiedReason "unknown verification reason" ++
  violationIf (checks.requireAuthorAttribution && !hasAuthorAttribution commit.toCommitFields)
    commit .missingAuthorAttribution "author login/email missing" ++
  violationIf (checks.requireCommitterAttribution &&
      !hasCommitterAttribution commit.toCommitFields)
    commit .missingCommitterAttribution "committer login/email missing" ++
  trailerViolations checks commit

/-- The shas that come a second time, once each. The lists are `seenShas` and
`duplicateShas`. -/
def duplicateShas (seen duplicates : List String) : List CommitRecord → List String
  | [] => duplicates
  | commit :: rest =>
    if seen.contains commit.sha then
      duplicateShas seen
        (if duplicates.contains commit.sha then duplicates else duplicates ++ [commit.sha]) rest
    else duplicateShas (seen ++ [commit.sha]) duplicates rest

def duplicateViolations (commits : List CommitRecord) : List Violation :=
  (duplicateShas [] [] commits).filterMap fun sha =>
    (commits.find? (·.sha = sha)).map fun example' =>
      violation example' .duplicateCommitSha "duplicate commit SHA in scope"

/-- The result of `evaluateCommitIntegrity`. -/
structure Evaluation where
  issues : List String
  violations : List Violation

def Evaluation.passed (evaluation : Evaluation) : Bool :=
  evaluation.issues.isEmpty && evaluation.violations.isEmpty

/-- `evaluateCommitIntegrity`. The checks are normalized once more. -/
def evaluateCommitIntegrity (regex : RegexEngine) (commits : List CommitRecord)
    (checks : RawChecks) : Except String Evaluation :=
  (normalizeChecks regex checks).map fun effectiveChecks =>
    { issues :=
        (if effectiveChecks.requireRequiredTrailer && effectiveChecks.requiredTrailerRules.isEmpty
          then ["required-trailer-rules-empty"] else []) ++
        (if commits.isEmpty then ["no-commits-found"] else [])
      violations :=
        (if effectiveChecks.requireUniqueShas then duplicateViolations commits else []) ++
        commits.flatMap (commitViolations effectiveChecks) }

end CompareVI.Integrity
