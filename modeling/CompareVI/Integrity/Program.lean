import CompareVI.Integrity.Evaluation

/-!
# A run of commit-integrity

`runCommitIntegrity` resolves what to look at (`resolveScope`), lists the commits of a pull
request page by page, or those of a comparison with one request, evaluates them and weighs
the evaluation against a request to bypass it (`resolveBypassRequest`). It returns an exit
code or throws; either way it leaves a report.

What the run reads from outside is its input. The resolution of the repository and the
token, and the files it writes, count only as far as they may fail.
-/

open Framework

namespace CompareVI.Integrity

/-! ### The scope -/

/-- The options of `parseArgs`. -/
structure IntegrityOptions where
  pr : Option ℕ
  baseSha : Option String
  headSha : Option String
  bypassReason : Option String
  bypassOwner : Option String
  bypassExpiresAt : Option String
  bypassTicket : Option String
  bypassLabels : List String
  observeOnly : Bool

inductive Scope where
  | pullRequest (number : ℕ)
  | compare (baseSha headSha : String)
  deriving DecidableEq

structure IntegrityInput where
  options : IntegrityOptions
  env : String → Option String
  eventPayload : Option Json
  repository : Except String String
  token : Except String String
  policyFile : Except String Json
  regex : RegexEngine
  collation : Comparison String
  /-- `Date.parse`, where it is a number. -/
  parseDate : String → Option ℤ
  now : ℤ
  /-- The answers to the requests for a page of a pull request. -/
  pullRequestPage : ℕ → ℕ → Except String Json
  /-- The answers to the requests for a comparison. -/
  comparison : String → String → Except String Json
  /-- Routing the remediation of an expired bypass fails. -/
  remediationFails : Bool
  writes : Except String Unit

def positiveInteger (value : Option Json) : Option ℕ :=
  (Json.toNumber? value).bind fun q => if q.den = 1 ∧ 0 < q.num then some q.num.toNat else none

def resolveScope (i : IntegrityInput) : Except String Scope :=
  let event := i.env "GITHUB_EVENT_NAME"
  let fromPullRequest :=
    if event = some "pull_request" then
      (positiveInteger (Json.path i.eventPayload ["pull_request", "number"])).map .pullRequest
    else none
  let fromMergeGroup :=
    if event = some "merge_group" then
      match normalizeLower (Json.path i.eventPayload ["merge_group", "base_sha"]),
          normalizeLower (Json.path i.eventPayload ["merge_group", "head_sha"]) with
      | some baseSha, some headSha => some (.compare baseSha headSha)
      | _, _ => none
    else none
  match i.options.pr, i.options.baseSha, i.options.headSha with
  | some pr, _, _ => .ok (.pullRequest pr)
  | none, some baseSha, some headSha => .ok (.compare baseSha headSha)
  | none, _, _ =>
    match fromPullRequest.or fromMergeGroup with
    | some scope => .ok scope
    | none =>
      .error ("Unable to resolve commit scope. Provide --pr <number> or " ++
        "--base-sha/--head-sha (required for workflow_dispatch).")

/-! ### The listing -/

/-- The loop of `listPullRequestCommits`, with the number of pages that are left. -/
def listPages (fetchPage : ℕ → Except String Json) :
    ℕ → ℕ → Except String (List Json)
  | 0, _ => .ok []
  | left + 1, page => do
    let payload ← fetchPage page
    let pageItems := entries (some payload)
    if pageItems.length = 0 then pure []
    else if pageItems.length < 100 then pure pageItems
    else
      let rest ← listPages fetchPage left (page + 1)
      pure (pageItems ++ rest)

def listPullRequestCommits (fetchPage : ℕ → Except String Json) : Except String (List Json) :=
  listPages fetchPage 20 1

def listCompareCommits (payload : Except String Json) : Except String (List Json) :=
  payload.map fun payload => entries (Json.path (some payload) ["commits"])

def listCommits (i : IntegrityInput) : Scope → Except String (List Json)
  | .pullRequest number => listPullRequestCommits (i.pullRequestPage number)
  | .compare baseSha headSha => listCompareCommits (i.comparison baseSha headSha)

/-! ### The bypass -/

inductive BypassStatus where
  | none
  | invalid
  | expired
  | active
  deriving DecidableEq, Repr

/-- The result of `resolveBypassRequest`. What it repeats of the request is left out. -/
structure Bypass where
  status : BypassStatus
  metadataErrors : List String
  deriving DecidableEq

def bypassText (i : IntegrityInput) (option : Option String) (variable' : String) :
    Option String :=
  (option.bind optionalTrim).or ((i.env variable').bind optionalTrim)

def bypassReason (i : IntegrityInput) : Option String :=
  bypassText i i.options.bypassReason "COMMIT_INTEGRITY_BYPASS_REASON"

def bypassOwner (i : IntegrityInput) : Option String :=
  bypassText i i.options.bypassOwner "COMMIT_INTEGRITY_BYPASS_OWNER"

def bypassExpiresAt (i : IntegrityInput) : Option String :=
  bypassText i i.options.bypassExpiresAt "COMMIT_INTEGRITY_BYPASS_EXPIRES_AT"

def bypassRequested (i : IntegrityInput) : Bool :=
  (bypassReason i).isSome || (bypassOwner i).isSome || (bypassExpiresAt i).isSome ||
    (bypassText i i.options.bypassTicket "COMMIT_INTEGRITY_BYPASS_TICKET").isSome ||
    decide (i.options.bypassLabels.length > 0) ||
    ((i.env "COMMIT_INTEGRITY_BYPASS_LABELS").bind optionalTrim).isSome

def metadataErrors (i : IntegrityInput) (policy : Policy) : List String :=
  (if policy.requireReasonOwnerExpiry && (bypassReason i).isNone then
    ["missing-bypass-reason"] else []) ++
  (if policy.requireReasonOwnerExpiry && (bypassOwner i).isNone then
    ["missing-bypass-owner"] else []) ++
  match bypassExpiresAt i with
  | none => if policy.requireReasonOwnerExpiry then ["missing-bypass-expiry"] else []
  | some expiry => if (i.parseDate expiry).isNone then ["invalid-bypass-expiry"] else []

def bypassExpired (i : IntegrityInput) : Bool :=
  match (bypassExpiresAt i).bind i.parseDate with
  | some instant => decide (instant ≤ i.now)
  | none => true

def resolveBypassRequest (i : IntegrityInput) (policy : Policy) : Bypass :=
  if !bypassRequested i then ⟨.none, []⟩
  else if !policy.allowBypass then ⟨.invalid, ["bypass-disabled-by-policy"]⟩
  else if (metadataErrors i policy).length > 0 then ⟨.invalid, metadataErrors i policy⟩
  else if bypassExpired i then ⟨.expired, []⟩
  else ⟨.active, []⟩

/-! ### The run -/

inductive Result where
  | pass
  | fail
  deriving DecidableEq, Repr

structure IntegrityReport where
  commits : List CommitRecord
  violations : List Violation
  issues : List String
  bypass : Bypass
  bypassApplied : Bool
  governanceFailure : Bool
  result : Result
  errors : List String
  exitCode : ℕ

def governanceIssues (i : IntegrityInput) (evaluation : Evaluation) (bypass : Bypass)
    (bypassApplied : Bool) : List String :=
  let fromBypass := match bypass.status with
    | .invalid => "bypass-metadata-invalid" :: bypass.metadataErrors.map ("bypass:" ++ ·)
    | .expired =>
      "bypass-expired" :: if i.remediationFails then ["bypass-remediation-route-failed"] else []
    | .active => if bypassApplied then ["bypass-applied"] else []
    | .none => []
  (evaluation.issues ++ fromBypass).eraseDups

def integrityReport (i : IntegrityInput) (policy : Policy) (commits : List CommitRecord)
    (evaluation : Evaluation) : IntegrityReport :=
  let bypass := resolveBypassRequest i policy
  let blocking := !i.options.observeOnly && policy.failOnUnverified
  let governanceFailure := decide (bypass.status = .invalid ∨ bypass.status = .expired)
  let bypassApplied := decide (bypass.status = .active) && blocking && !evaluation.passed
  { commits := commits
    violations := evaluation.violations
    issues := governanceIssues i evaluation bypass bypassApplied
    bypass := bypass
    bypassApplied := bypassApplied
    governanceFailure := governanceFailure
    result := if !evaluation.passed || governanceFailure then .fail else .pass
    errors := []
    exitCode :=
      if governanceFailure then 1
      else if blocking && !evaluation.passed && !bypassApplied then 1 else 0 }

def runtimeErrorReport : IntegrityReport where
  commits := []
  violations := []
  issues := ["runtime-error"]
  bypass := ⟨.none, []⟩
  bypassApplied := false
  governanceFailure := true
  result := .fail
  errors := []
  exitCode := 1

def IntegrityReport.failed (report : IntegrityReport) (message : String) : IntegrityReport :=
  { report with errors := report.errors ++ [message], result := .fail, exitCode := 1 }

def evaluateRun (i : IntegrityInput) : Except String IntegrityReport := do
  let _ ← i.repository
  let scope ← resolveScope i
  let _ ← i.token
  let policyFile ← i.policyFile
  let policy ← loadPolicy i.regex policyFile
  let rawCommits ← listCommits i scope
  let commits := normalizeCommitRecords i.collation policy.sourceResolution rawCommits
  let evaluation ← evaluateCommitIntegrity i.regex commits policy.checks.raw
  pure (integrityReport i policy commits evaluation)

def validationFailed (report : IntegrityReport) : String :=
  "Commit integrity validation failed: " ++ toString report.violations.length ++
    " violation(s), " ++ toString report.issues.length ++ " issue(s)."

/-- `runCommitIntegrity`: what it returns or throws, and the report that it leaves. -/
def runCommitIntegrity (i : IntegrityInput) : Except String ℕ × IntegrityReport :=
  match evaluateRun i with
  | .error message => (.error message, runtimeErrorReport.failed message)
  | .ok report =>
    match i.writes with
    | .error message => (.error message, report.failed message)
    | .ok () =>
      if report.result = .fail ∧ report.exitCode = 1 then
        (.error (validationFailed report), report.failed (validationFailed report))
      else (.ok report.exitCode, report)

end CompareVI.Integrity
