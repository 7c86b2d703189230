import CompareVI.Framework.JsString
import Mathlib.Data.List.Sort
import Mathlib.Data.Prod.Lex

/-!
# Classifying the open pull requests

`classifyOpenPullRequests` turns the raw pull requests into candidates. It reads
the labels, the base branch and the fields that the description carries
(`Coupling:`, `Depends-On:`, the `[P…]` tag of the title), tests the gates of each
pull request on its own (`gateReasons`), and then, in a second pass, drops every
candidate with an open dependency that did not pass its gates
(`dependencyPass`). The second pass looks at the outcome of the first only.

The order of candidates is `compareCandidates`: by priority, coupling, age and
number. It is the lexicographic order of `candidateKey`
(`compareCandidates_le_iff`, `compareCandidates_lt_iff`).
-/

open Framework

namespace CompareVI.Queue

/-! ### Reading a pull request -/

def EXCLUDED_LABELS : List String := ["queue-blocked", "do-not-queue"]

/-- `COUPLING_VALUES`. -/
inductive Coupling where
  | independent
  | soft
  | hard
  deriving DecidableEq, Repr

def COUPLING_PRIORITY : Coupling → ℕ
  | .independent => 0
  | .soft => 1
  | .hard => 2

/-- An entry of the check rollup, with the properties the gates read. -/
structure RollupEntry where
  typename : String
  name : Option String
  status : Option String
  conclusion : Option String
  context : Option String
  state : Option String
  deriving DecidableEq, Repr

/-- A raw pull request, with the properties the supervisor reads. `updatedAt` is
the instant the text denotes, in milliseconds, if it denotes one. -/
structure PullRequest where
  number : ℕ
  title : String
  body : String
  updatedAt : Option ℤ
  baseRefName : String
  isDraft : Bool
  mergeStateStatus : String
  mergeable : String
  isInMergeQueue : Bool
  labels : List Json
  autoMergeRequest : Option Json
  statusCheckRollup : List (Option RollupEntry)

def normalizeLabelName (label : Json) : String :=
  match label with
  | .str s => JsString.toLowerCase (JsString.trim s)
  | label =>
    match label.get? "name" with
    | some (.str s) => JsString.toLowerCase (JsString.trim s)
    | _ => ""

def normalizeBaseBranch (value : String) : String :=
  let normalized := JsString.toLowerCase (JsString.trim value)
  if JsString.startsWith normalized "refs/heads/" then
    JsString.slice normalized "refs/heads/".length
  else normalized

/-- `/\[P(?<priority>\d+)\]/i` at one position. -/
def priorityAt (cs : List Char) : Option (List Char) :=
  (JsString.stripLiteral "[p".toList cs).bind fun rest =>
    let digits := rest.takeWhile Char.isDigit
    if digits ≠ [] ∧ (rest.dropWhile Char.isDigit).head? = some ']' then some digits else none

def priorityFromTitle (title : String) : ℕ :=
  match JsString.firstMatch priorityAt title.toList with
  | none => 9
  | some digits => (JsString.numberOfDigits digits).getD 9

/-- `/^\s*Coupling\s*:\s*(?<coupling>independent|soft|hard)\s*$/im` at one
position. -/
def couplingAt (cs : List Char) : Option Coupling :=
  JsString.choiceFieldAt "coupling"
    [("independent", Coupling.independent), ("soft", .soft), ("hard", .hard)] cs

def parseCoupling (body : String) : Coupling :=
  (JsString.firstLineMatch couplingAt true body.toList).getD .independent

/-- `/^\s*Depends-On\s*:\s*(?<deps>[^\n\r]+)\s*$/im` at one position. When only
white space follows the colon, the source's match holds white space or fails, and
no later position matches; either way no dependency is listed. -/
def dependsOnAt (cs : List Char) : Option (List Char) :=
  (JsString.stripField "depends-on" cs).map fun rest =>
    rest.takeWhile fun c => c ≠ '\n' && c ≠ '\r'

/-- `/#(?<number>\d+)/` at one position. -/
def hashNumberAt : List Char → Option (List Char)
  | '#' :: rest =>
    let digits := rest.takeWhile Char.isDigit
    if digits = [] then none else some digits
  | _ => none

def dependencyOfToken (token : List Char) : Option ℕ :=
  ((JsString.firstMatch hashNumberAt token).bind JsString.numberOfDigits).filter (0 < ·)

def parseDependsOn (body : String) : List ℕ :=
  match JsString.firstLineMatch dependsOnAt true body.toList with
  | none => []
  | some deps =>
    ((JsString.splitList ',' deps).filterMap dependencyOfToken).dedup.insertionSort (· ≤ ·)

/-! ### Required checks -/

structure CheckState where
  success : Bool
  failure : Bool
  deriving DecidableEq, Repr

/-- The context of an entry and what the entry says of it; entries of other kinds
and without a context are skipped. -/
def rollupOutcome (entry : RollupEntry) : Option (String × CheckState) :=
  if entry.typename = "CheckRun" then
    let context := JsString.trim (entry.name.getD "")
    if context = "" then none
    else
      let status := JsString.toUpperCase (entry.status.getD "")
      let conclusion := JsString.toUpperCase (entry.conclusion.getD "")
      some (context,
        { success := status = "COMPLETED" ∧ conclusion = "SUCCESS"
          failure := status ≠ "COMPLETED" ∨ (conclusion ≠ "" ∧ conclusion ≠ "SUCCESS" ∧
            conclusion ≠ "NEUTRAL" ∧ conclusion ≠ "SKIPPED") })
  else if entry.typename = "StatusContext" then
    let context := JsString.trim (entry.context.getD "")
    if context = "" then none
    else
      let state := JsString.toUpperCase (entry.state.getD "")
      some (context, { success := state = "SUCCESS", failure := state ≠ "SUCCESS" })
  else none

/-- `checkRollupToMap`, as the lookup of the map it builds. -/
def checkRollupToMap (rollup : List (Option RollupEntry)) : String → Option CheckState :=
  (rollup.filterMap fun entry => entry.bind rollupOutcome).foldl
    (fun states outcome =>
      let previous := (states outcome.1).getD ⟨false, false⟩
      Function.update states outcome.1
        (some ⟨previous.success || outcome.2.success, previous.failure || outcome.2.failure⟩))
    fun _ => none

/-- The result of `evaluateRequiredChecks`. -/
structure RequiredChecks where
  ok : Bool
  missing : List String
  failing : List String
  deriving DecidableEq, Repr

def evaluateRequiredChecks (required : List String)
    (statusCheckRollup : List (Option RollupEntry)) : RequiredChecks :=
  let states := checkRollupToMap statusCheckRollup
  let missing := required.filter fun context => states context = none
  let failing := required.filter fun context =>
    match states context with
    | none => false
    | some entry => !entry.success || entry.failure
  { ok := missing.isEmpty && failing.isEmpty, missing := missing, failing := failing }

/-! ### Candidates -/

structure ParsedPullRequest where
  number : ℕ
  updatedAt : ℤ
  baseRefName : String
  isDraft : Bool
  mergeStateStatus : String
  mergeable : String
  isInMergeQueue : Bool
  labels : List String
  autoMergeEnabled : Bool
  coupling : Coupling
  dependsOn : List ℕ
  priority : ℕ
  couplingOrder : ℕ
  statusCheckRollup : List (Option RollupEntry)
  deriving DecidableEq

/-- The `parsed` record of a raw pull request. -/
def parsePullRequest (pr : PullRequest) : ParsedPullRequest where
  number := pr.number
  updatedAt := pr.updatedAt.getD 0
  baseRefName := normalizeBaseBranch pr.baseRefName
  isDraft := pr.isDraft
  mergeStateStatus := JsString.toUpperCase pr.mergeStateStatus
  mergeable := JsString.toUpperCase pr.mergeable
  isInMergeQueue := pr.isInMergeQueue
  labels := (pr.labels.map normalizeLabelName).filter (· ≠ "")
  autoMergeEnabled := Json.truthy pr.autoMergeRequest
  coupling := parseCoupling pr.body
  dependsOn := parseDependsOn pr.body
  priority := priorityFromTitle pr.title
  couplingOrder := COUPLING_PRIORITY (parseCoupling pr.body)
  statusCheckRollup := pr.statusCheckRollup

structure Candidate extends ParsedPullRequest where
  requiredChecks : List String
  checks : RequiredChecks
  eligible : Bool
  reasons : List String
  unresolvedOpenDependencies : Option (List ℕ)
  deriving DecidableEq

structure GateConfig where
  requiredChecksByBranch : String → List String
  queueManagedBranches : List String
  excludedLabels : List String

def checksOf (cfg : GateConfig) (pr : ParsedPullRequest) : RequiredChecks :=
  evaluateRequiredChecks (cfg.requiredChecksByBranch pr.baseRefName) pr.statusCheckRollup

def gateReasons (cfg : GateConfig) (pr : ParsedPullRequest) : List String :=
  let checks := checksOf cfg pr
  (if cfg.queueManagedBranches.contains pr.baseRefName then []
    else ["base-branch-not-queue-managed"]) ++
  (if pr.isDraft then ["draft"] else []) ++
  (if pr.mergeStateStatus = "DIRTY" || pr.mergeable = "CONFLICTING" then ["merge-conflict"]
    else []) ++
  (if pr.labels.any cfg.excludedLabels.contains then ["queue-label-blocked"] else []) ++
  (if checks.ok then []
    else
      (if checks.missing.length > 0 then ["required-checks-missing"] else []) ++
      (if checks.failing.length > 0 then ["required-checks-failing"] else []))

def gateCandidate (cfg : GateConfig) (pr : ParsedPullRequest) : Candidate where
  toParsedPullRequest := pr
  requiredChecks := cfg.requiredChecksByBranch pr.baseRefName
  checks := checksOf cfg pr
  eligible := (gateReasons cfg pr).isEmpty
  reasons := gateReasons cfg pr
  unresolvedOpenDependencies := none

/-- The second pass on one candidate: an eligible one with an open dependency
outside `eligibleSet` is dropped. -/
def dependencyPass (allOpen eligibleSet : List ℕ) (candidate : Candidate) : Candidate :=
  if candidate.eligible then
    let unresolved := candidate.dependsOn.filter fun dep =>
      allOpen.contains dep && !eligibleSet.contains dep
    if unresolved.length > 0 then
      { candidate with
        eligible := false
        reasons := candidate.reasons ++ ["dependency-open-not-eligible"]
        unresolvedOpenDependencies := some unresolved }
    else { candidate with unresolvedOpenDependencies := some [] }
  else candidate

/-- The candidates of `classifyOpenPullRequests`. The set of eligible numbers is
built once, before the second pass. -/
def classifyCandidates (cfg : GateConfig) (normalized : List ParsedPullRequest) :
    List Candidate :=
  let candidates := normalized.map (gateCandidate cfg)
  let eligibleSet := (candidates.filter (·.eligible)).map (·.number)
  candidates.map (dependencyPass (normalized.map (·.number)) eligibleSet)

def isQueuedCandidate (pr : ParsedPullRequest) : Bool := pr.isInMergeQueue || pr.autoMergeEnabled

/-! ### The order of candidates -/

def compareCandidates (a b : ParsedPullRequest) : ℤ :=
  if a.priority ≠ b.priority then (a.priority : ℤ) - b.priority
  else if a.couplingOrder ≠ b.couplingOrder then (a.couplingOrder : ℤ) - b.couplingOrder
  else if a.updatedAt ≠ b.updatedAt then a.updatedAt - b.updatedAt
  else (a.number : ℤ) - b.number

/-- The key whose lexicographic order `compareCandidates` decides. -/
def candidateKey (a : ParsedPullRequest) : ℕ ×ₗ ℕ ×ₗ ℤ ×ₗ ℕ :=
  toLex (a.priority, toLex (a.couplingOrder, toLex (a.updatedAt, a.number)))

theorem compareCandidates_le_iff (a b : ParsedPullRequest) :
    compareCandidates a b ≤ 0 ↔ candidateKey a ≤ candidateKey b := by
  simp only [compareCandidates, candidateKey, Prod.Lex.toLex_le_toLex]
  split_ifs <;> omega

theorem compareCandidates_lt_iff (a b : ParsedPullRequest) :
    compareCandidates a b < 0 ↔ candidateKey a < candidateKey b := by
  simp only [compareCandidates, candidateKey, Prod.Lex.toLex_lt_toLex]
  split_ifs <;> omega

theorem number_eq_of_candidateKey_eq {a b : ParsedPullRequest}
    (h : candidateKey a = candidateKey b) : a.number = b.number := by
  simp only [candidateKey, toLex_inj, Prod.mk.injEq] at h
  exact h.2.2.2

/-- `candidates.sort(compareCandidates)`, a stable sort. -/
def sortCandidates (candidates : List Candidate) : List Candidate :=
  candidates.insertionSort fun a b =>
    compareCandidates a.toParsedPullRequest b.toParsedPullRequest ≤ 0

theorem sortCandidates_perm (candidates : List Candidate) :
    (sortCandidates candidates).Perm candidates :=
  List.perm_insertionSort _ _

theorem sortCandidates_pairwise (candidates : List Candidate) :
    (sortCandidates candidates).Pairwise fun a b =>
      candidateKey a.toParsedPullRequest ≤ candidateKey b.toParsedPullRequest := by
  let r : Candidate → Candidate → Prop := fun a b =>
    compareCandidates a.toParsedPullRequest b.toParsedPullRequest ≤ 0
  have hr : ∀ a b, r a b ↔
      candidateKey a.toParsedPullRequest ≤ candidateKey b.toParsedPullRequest :=
    fun a b => compareCandidates_le_iff _ _
  have : Std.Total r := ⟨fun a b => by
    rw [hr, hr]
    exact le_total _ _⟩
  have : IsTrans Candidate r := ⟨fun a b c => by
    rw [hr, hr, hr]
    exact le_trans⟩
  exact (List.pairwise_insertionSort r candidates).imp fun {a b} hab => (hr a b).mp hab

end CompareVI.Queue
