import CompareVI.Framework.JsString
import Mathlib.Data.List.Sort

/-!
# Looking up the standing issue

The standing issue of a repository is the open issue that carries one of the standing
labels. `resolveStandingPriorityForRepo` asks for it label by label, first through `gh`
and then through the REST API, and folds what the two sources say into outcomes;
`resolveStandingPriorityLookupPlan` asks the repository and then its upstream; and
`resolveStandingPriorityFromSources` raises `NO_STANDING_PRIORITY` or falls back to the
cache. The verdict makes the sync clear its cache, and may promote another issue.

The verdict is sound if every repository that was asked really has no standing issue: one
source answered the query of every label, and no eligible issue was among its answers
(`ConfirmedEmpty`). The REST branch takes one failed query for a failure. The `gh` branch
takes one answered query for an answer to all (`ghHasSuccess`), and this is the only way
in which the verdict goes wrong (`verdictSound_iff`).
-/

open Framework

namespace CompareVI.Standing

/-! ### Labels -/

def DEFAULT_STANDING_PRIORITY_LABEL : String := "standing-priority"

def STANDING_EXCLUDED_LABEL : String := "standing-excluded"

def normalizeStandingPriorityLabels (values : List String) : List String :=
  ((values.map fun value => JsString.toLowerCase (JsString.trim value)).filter (· ≠ "")).eraseDups

/-- `normalizeList`, up to the order of the result, which nothing here reads. -/
def normalizeList (values : List String) : List String := normalizeStandingPriorityLabels values

def formatStandingPriorityLabels (labels : List String) : String :=
  JsString.join ", " (labels.map fun label => "`" ++ label ++ "`")

/-! ### Issues -/

/-- An issue in the answer to a query, with the properties the lookup reads. -/
structure IssueRow where
  number : ℤ
  labels : List String
  isPullRequest : Bool
  deriving DecidableEq, Repr

/-- An issue as `normalizeOpenIssueCandidate` gives it. -/
structure Candidate where
  number : ℕ
  labels : List String
  standingExcluded : Bool
  deriving DecidableEq, Repr

def normalizeOpenIssueCandidate (entry : IssueRow) : Option Candidate :=
  if entry.number ≤ 0 then none
  else
    let labels := normalizeList entry.labels
    some ⟨entry.number.toNat, labels, labels.contains STANDING_EXCLUDED_LABEL⟩

/-- One round of the loop of `dedupeStandingPriorityIssueRecords`: an issue seen before
gets the labels of both, and the rest from the later answer. -/
def mergeCandidate (merged : List Candidate) (entry : Candidate) : List Candidate :=
  if merged.any (·.number = entry.number) then
    merged.map fun existing =>
      if existing.number = entry.number then
        { entry with labels := (existing.labels ++ entry.labels).eraseDups }
      else existing
  else merged ++ [entry]

def dedupeStandingPriorityIssueRecords (entries : List IssueRow) : List Candidate :=
  ((entries.filterMap normalizeOpenIssueCandidate).foldl mergeCandidate []).insertionSort
    fun left right => left.number ≤ right.number

/-- A record of `splitStandingPriorityIssueRecords`. -/
structure StandingRecord where
  number : ℕ
  labels : List String
  standingLabel : Option String
  deriving DecidableEq, Repr

def Candidate.record (issue : Candidate) (normalizedLabels : List String) : StandingRecord where
  number := issue.number
  labels := issue.labels
  standingLabel := normalizedLabels.find? fun label => issue.labels.contains label

def standingRecords (excluded : Bool) (entries : List IssueRow)
    (standingPriorityLabels : List String) : List StandingRecord :=
  let normalizedLabels := normalizeStandingPriorityLabels standingPriorityLabels
  ((dedupeStandingPriorityIssueRecords entries).filter fun issue =>
    normalizedLabels.any (issue.labels.contains ·) && issue.standingExcluded == excluded).map
      (·.record normalizedLabels)

def eligible (entries : List IssueRow) (standingPriorityLabels : List String) :
    List StandingRecord :=
  standingRecords false entries standingPriorityLabels

def drifted (entries : List IssueRow) (standingPriorityLabels : List String) :
    List StandingRecord :=
  standingRecords true entries standingPriorityLabels

/-! ### Queries and outcomes -/

/-- How one `gh issue list` ended. The output is `none` if it is blank, and else what
`JSON.parse` makes of it. -/
inductive GhAnswer where
  | exited (status : Option ℤ) (stdout : Option (Except String (List IssueRow))) (stderr : String)
  | threw (notFound : Bool) (message : String)

inductive RestAnswer where
  | listed (rows : List IssueRow)
  | single (row : IssueRow)
  | nothing
  | failed (message : String)

/-- A label and what the two sources say when they are asked for it. -/
structure LabelQuery where
  label : String
  gh : GhAnswer
  rest : RestAnswer

def labelsOf (queries : List LabelQuery) : List String := queries.map (·.label)

inductive Outcome where
  | found (number : ℕ) (label : Option String) (driftIssueNumbers : List ℕ)
  | empty (driftIssueNumbers : List ℕ)
  | error (message : String)
  | unavailable (message : String)
  deriving DecidableEq, Repr

/-- `isNoStandingOutcome`. -/
def Outcome.isNoStanding : Outcome → Bool
  | .empty _ => true
  | _ => false

/-- `a || b` on texts. -/
def orElseText (a b : String) : String := if a = "" then b else a

/-! ### One repository -/

/-- What the loop over the labels has gathered from `gh`. -/
structure GhRows where
  hasSuccess : Bool
  errors : List String
  issues : List IssueRow

/-- `status` in a message. -/
def statusText : Option ℤ → String
  | some status => toString status
  | none => "null"

def askGh (acc : GhRows) (query : LabelQuery) : Except (Bool × String) GhRows :=
  match query.gh with
  | .threw notFound message => .error (notFound, message)
  | .exited status stdout stderr =>
    if status = some 0 then
      match stdout with
      | none => .ok { acc with hasSuccess := true }
      | some (.ok rows) => .ok { acc with hasSuccess := true, issues := acc.issues ++ rows }
      | some (.error message) => .error (false, message)
    else
      let text := orElseText (JsString.trim stderr) ("gh exited with status " ++ statusText status)
      .ok { acc with errors := acc.errors ++ [query.label ++ ": " ++ text] }

/-- The outcome of the `gh` branch of `resolveStandingPriorityForRepo`. -/
def ghOutcome (queries : List LabelQuery) : Outcome :=
  match queries.foldlM askGh ⟨false, [], []⟩ with
  | .error (true, message) => .unavailable (orElseText message "gh CLI unavailable")
  | .error (false, message) => .error (orElseText message "gh issue list failed")
  | .ok acc =>
    let drift := (drifted acc.issues (labelsOf queries)).map (·.number)
    match eligible acc.issues (labelsOf queries) with
    | record :: _ => .found record.number record.standingLabel drift
    | [] =>
      if acc.hasSuccess then .empty drift
      else .error (orElseText (JsString.join " | " acc.errors) "gh issue list failed")

def RestAnswer.issues : RestAnswer → List IssueRow
  | .listed rows => rows.filter fun row => !row.isPullRequest
  | .single row => [row]
  | .nothing => []
  | .failed _ => []

def RestAnswer.error? : RestAnswer → Option String
  | .failed message => some message
  | _ => none

/-- `fetchStandingPriorityNumberViaRest`; the slug is what the caller passes, or else what
the repository root resolves to. -/
def fetchStandingPriorityNumberViaRest (resolvedSlug : Option String) (queries : List LabelQuery) :
    Outcome :=
  if resolvedSlug.getD "" = "" then .error "repository slug unavailable"
  else
    let errors := queries.filterMap fun query =>
      query.rest.error?.map fun message => query.label ++ ": " ++ message
    let issueRows := queries.flatMap (·.rest.issues)
    let drift := (drifted issueRows (labelsOf queries)).map (·.number)
    match eligible issueRows (labelsOf queries) with
    | record :: _ => .found record.number record.standingLabel drift
    | [] => if errors = [] then .empty drift else .error (JsString.join " | " errors)

inductive Source where
  | gh
  | rest
  deriving DecidableEq, Repr

structure Found where
  number : ℕ
  label : Option String
  repoSlug : Option String
  source : Source
  deriving DecidableEq, Repr

/-- What `resolveStandingPriorityForRepo` returns. -/
structure RepoResult where
  found : Option Found
  ghOutcome : Outcome
  restOutcome : Outcome
  repoSlug : Option String

/-- A repository that is asked: the slug at hand, the slug its root resolves to, and what
the sources say about each label. -/
structure Repository where
  slug : Option String
  rootSlug : Option String
  queries : List LabelQuery

/-- `slug || null`. -/
def presentSlug (slug : Option String) : Option String := slug.filter (· ≠ "")

/-- `slug ?? resolveRepositorySlug(repoRoot)`. -/
def Repository.restSlug (repo : Repository) : Option String := repo.slug.or repo.rootSlug

def resolveStandingPriorityForRepo (repo : Repository) : RepoResult :=
  match ghOutcome repo.queries with
  | .found number label drift =>
    { found := some ⟨number, label, presentSlug repo.slug, .gh⟩
      ghOutcome := .found number label drift
      restOutcome := .unavailable "not-used"
      repoSlug := presentSlug repo.slug }
  | ghOutcome =>
    match fetchStandingPriorityNumberViaRest repo.restSlug repo.queries with
    | .found number label drift =>
      { found := some ⟨number, label, repo.restSlug, .rest⟩
        ghOutcome
        restOutcome := .found number label drift
        repoSlug := repo.restSlug }
    | restOutcome =>
      { found := none
        ghOutcome
        restOutcome
        repoSlug := presentSlug repo.slug }

def RepoResult.didReportNoStandingPriority (result : RepoResult) : Bool :=
  result.ghOutcome.isNoStanding || result.restOutcome.isNoStanding

/-! ### The plan -/

inductive LookupError where
  /-- The code of the error is `NO_STANDING_PRIORITY`. -/
  | noStandingPriority (message : String)
  | other (message : String)
  deriving DecidableEq, Repr

/-- `createNoStandingPriorityError` without a message. -/
def noStandingPriorityMessage (standingPriorityLabels : List String) : String :=
  "No open issue found with labels: " ++ formatStandingPriorityLabels standingPriorityLabels ++ "."

def normalizeRepositorySlug (slug : Option String) : String :=
  JsString.toLowerCase (JsString.trim (slug.getD ""))

/-- A lookup: the repository and the upstream that `resolveUpstreamSlug` names, with what the
sources say there about the one label they are asked for. -/
structure Lookup where
  primary : Repository
  upstreamSlug : Option String
  upstreamGh : GhAnswer
  upstreamRest : RestAnswer

/-- `slug || resolveRepositorySlug(repoRoot)`. -/
def Lookup.resolvedSlug (lookup : Lookup) : Option String :=
  (presentSlug lookup.primary.slug).or lookup.primary.rootSlug

def Lookup.upstream (lookup : Lookup) : Repository where
  slug := lookup.upstreamSlug
  rootSlug := lookup.primary.rootSlug
  queries := [⟨DEFAULT_STANDING_PRIORITY_LABEL, lookup.upstreamGh, lookup.upstreamRest⟩]

def Lookup.shouldCheckUpstream (lookup : Lookup) : Bool :=
  lookup.upstreamSlug.getD "" ≠ "" &&
    normalizeRepositorySlug lookup.upstreamSlug ≠ normalizeRepositorySlug lookup.resolvedSlug

/-- What `resolveStandingPriorityLookupPlan` returns. -/
structure LookupPlan where
  found : Option Found
  cacheSource : RepoResult
  cacheLabels : List String
  cacheRepoSlug : Option String

def resolveStandingPriorityLookupPlan (lookup : Lookup) : Except LookupError LookupPlan :=
  let labels := labelsOf lookup.primary.queries
  let primary := resolveStandingPriorityForRepo lookup.primary
  match primary.found with
  | some found =>
    .ok ⟨some found, primary, labels, primary.repoSlug.or (presentSlug lookup.primary.slug)⟩
  | none =>
    let primaryPlan := LookupPlan.mk none primary labels (primary.repoSlug.or lookup.resolvedSlug)
    if lookup.shouldCheckUpstream then
      let upstreamLabels := [DEFAULT_STANDING_PRIORITY_LABEL]
      let upstream := resolveStandingPriorityForRepo lookup.upstream
      let upstreamRepoSlug := upstream.repoSlug.or lookup.upstreamSlug
      match upstream.found with
      | some found => .ok ⟨some found, upstream, upstreamLabels, upstreamRepoSlug⟩
      | none =>
        if primary.didReportNoStandingPriority && upstream.didReportNoStandingPriority then
          .error (.noStandingPriority ("No open issue found in " ++
            lookup.resolvedSlug.getD "null" ++ " with labels: " ++
            formatStandingPriorityLabels labels ++ "; upstream " ++
            lookup.upstreamSlug.getD "" ++ " also has no open issues with labels: " ++
            formatStandingPriorityLabels upstreamLabels ++ "."))
        else if primary.didReportNoStandingPriority then
          .ok ⟨none, upstream, upstreamLabels, upstreamRepoSlug⟩
        else .ok primaryPlan
    else .ok primaryPlan

/-! ### The sources -/

structure Cache where
  number : Option ℤ
  labels : List String
  state : String
  deriving DecidableEq, Repr

def isStandingPriorityCacheCandidate (cache : Option Cache) (standingPriorityLabels : List String) :
    Option ℤ :=
  cache.bind fun cache =>
    let labels := normalizeList cache.labels
    if JsString.toUpperCase (JsString.trim cache.state) = "OPEN" &&
        !labels.contains STANDING_EXCLUDED_LABEL &&
        (normalizeStandingPriorityLabels standingPriorityLabels).any (labels.contains ·) then
      cache.number
    else none

def Outcome.reason (name : String) : Outcome → List String
  | .found .. => [name ++ " status=found"]
  | .empty _ => [name ++ " status=empty"]
  | .error message | .unavailable message =>
    if message = "" then [] else [name ++ ": " ++ message]

def resolveStandingPriorityFromSources (ghOutcome restOutcome : Outcome) (cache : Option Cache)
    (standingPriorityLabels : List String) : Except LookupError ℤ :=
  if ghOutcome.isNoStanding || restOutcome.isNoStanding then
    .error (.noStandingPriority (noStandingPriorityMessage standingPriorityLabels))
  else
    match isStandingPriorityCacheCandidate cache standingPriorityLabels with
    | some number => .ok number
    | none =>
      let reasons := ghOutcome.reason "gh" ++ restOutcome.reason "rest" ++
        (if (cache.bind (·.number)).isSome then
          ["cache invalid (must be OPEN and include one of: " ++
            JsString.join ", " standingPriorityLabels ++ ")"]
        else [])
      .error (.other ("Unable to resolve standing-priority issue number" ++
        (if reasons = [] then "" else " (" ++ JsString.join "; " reasons ++ ")")))

/-- The lookup plan, and then the sources: the tail of `resolveStandingPriorityNumber`. -/
def resolveStandingPriorityNumber (lookup : Lookup) (cache : Option Cache) :
    Except LookupError ℤ :=
  match resolveStandingPriorityLookupPlan lookup with
  | .error error => .error error
  | .ok plan =>
    match plan.found with
    | some found => .ok found.number
    | none =>
      resolveStandingPriorityFromSources plan.cacheSource.ghOutcome plan.cacheSource.restOutcome
        cache plan.cacheLabels

/-! ### What the answers say -/

/-- The issues `gh` lists in answer to a query, if it answers. -/
def GhAnswer.rows? : GhAnswer → Option (List IssueRow)
  | .exited (some 0) none _ => some []
  | .exited (some 0) (some (.ok rows)) _ => some rows
  | _ => none

def RestAnswer.rows? : RestAnswer → Option (List IssueRow)
  | .failed _ => none
  | answer => some answer.issues

/-- Asking `gh` ends the branch: the program is missing, or its output is no JSON. -/
def GhAnswer.Breaks : GhAnswer → Prop
  | .threw .. => True
  | .exited (some 0) (some (.error _)) _ => True
  | _ => False

namespace Repository

variable (repo : Repository)

/-- The issues in the answers of `gh`. -/
def ghIssues : List IssueRow := repo.queries.flatMap fun query => query.gh.rows?.getD []

def restIssues : List IssueRow := repo.queries.flatMap fun query => query.rest.rows?.getD []

/-- No eligible issue is among these. -/
def NoneEligible (issues : List IssueRow) : Prop := eligible issues (labelsOf repo.queries) = []

/-- `gh` answered the query of every label. -/
def GhAnswered : Prop := ∀ query ∈ repo.queries, query.gh.rows?.isSome

/-- The REST API answered the query of every label. -/
def RestAnswered : Prop :=
  repo.restSlug.getD "" ≠ "" ∧ ∀ query ∈ repo.queries, query.rest.rows?.isSome

/-- The repository has no standing issue, and a source says so about every label. -/
def ConfirmedEmpty : Prop :=
  repo.GhAnswered ∧ repo.NoneEligible repo.ghIssues ∨
    repo.RestAnswered ∧ repo.NoneEligible repo.restIssues

end Repository

def Lookup.consulted (lookup : Lookup) : List Repository :=
  lookup.primary :: if lookup.shouldCheckUpstream then [lookup.upstream] else []

/-- The verdict is given for repositories without a standing issue only. -/
def VerdictSound (lookup : Lookup) (cache : Option Cache) : Prop :=
  ∀ message, resolveStandingPriorityNumber lookup cache = .error (.noStandingPriority message) →
    ∀ repo ∈ lookup.consulted, repo.ConfirmedEmpty

namespace Repository

variable (repo : Repository)

/-- `gh` answered the query of one label at least, and no answer ended the branch. -/
def GhAnsweredSome : Prop :=
  (∀ query ∈ repo.queries, ¬ query.gh.Breaks) ∧ ∃ query ∈ repo.queries, query.gh.rows?.isSome

/-- The answers show no eligible issue, and `gh` answered a query or the REST API all. -/
def SaysNone : Prop :=
  ((∀ query ∈ repo.queries, ¬ query.gh.Breaks) → repo.NoneEligible repo.ghIssues) ∧
    (repo.restSlug.getD "" ≠ "" → repo.NoneEligible repo.restIssues) ∧
    (repo.GhAnsweredSome ∨ repo.RestAnswered)

/-- One failed query is hidden: `gh` answered some labels and not others, the REST API
failed, and the answers there are show no eligible issue. -/
def HiddenFailure : Prop :=
  repo.GhAnsweredSome ∧ ¬ repo.GhAnswered ∧ repo.NoneEligible repo.ghIssues ∧
    ¬ repo.RestAnswered ∧ (repo.restSlug.getD "" ≠ "" → repo.NoneEligible repo.restIssues)

end Repository

/-! ### The `gh` branch -/

theorem askGh_cases (acc : GhRows) (query : LabelQuery) :
    (query.gh.Breaks ∧ ∃ e, askGh acc query = .error e) ∨
    (¬ query.gh.Breaks ∧ ∃ rows, query.gh.rows? = some rows ∧
      askGh acc query = .ok ⟨true, acc.errors, acc.issues ++ rows⟩) ∨
    (¬ query.gh.Breaks ∧ query.gh.rows? = none ∧
      ∃ errors, askGh acc query = .ok ⟨acc.hasSuccess, errors, acc.issues⟩) := by
  obtain ⟨label, gh, rest⟩ := query
  cases gh with
  | threw notFound message => exact .inl ⟨trivial, _, rfl⟩
  | exited status stdout stderr =>
    by_cases hstatus : status = some 0
    · subst hstatus
      rcases stdout with _ | message | rows
      · exact .inr (.inl ⟨not_false, [], rfl, by simp [askGh]⟩)
      · exact .inl ⟨trivial, _, rfl⟩
      · exact .inr (.inl ⟨not_false, rows, rfl, rfl⟩)
    · refine .inr (.inr ⟨?_, ?_, _, if_neg hstatus⟩)
      · intro hbreaks
        unfold GhAnswer.Breaks at hbreaks
        split at hbreaks <;> simp_all
      · unfold GhAnswer.rows?
        split <;> simp_all

theorem foldlM_askGh (queries : List LabelQuery) (acc : GhRows)
    (hno : ∀ query ∈ queries, ¬ query.gh.Breaks) :
    ∃ errors, queries.foldlM askGh acc =
      .ok ⟨acc.hasSuccess || queries.any (·.gh.rows?.isSome), errors,
        acc.issues ++ queries.flatMap fun query => query.gh.rows?.getD []⟩ := by
  induction queries generalizing acc with
  | nil => exact ⟨acc.errors, by simp; rfl⟩
  | cons query queries ih =>
    have hrest := fun q hq => hno q (List.mem_cons_of_mem _ hq)
    rw [List.foldlM_cons]
    rcases askGh_cases acc query with
      ⟨hbreaks, -⟩ | ⟨-, rows, hrows, hask⟩ | ⟨-, hrows, errors, hask⟩
    · exact absurd hbreaks (hno query List.mem_cons_self)
    · obtain ⟨errors, hloop⟩ := ih ⟨true, acc.errors, acc.issues ++ rows⟩ hrest
      refine ⟨errors, ?_⟩
      rw [hask]
      change queries.foldlM askGh _ = _
      rw [hloop]
      simp [hrows]
    · obtain ⟨errors', hloop⟩ := ih ⟨acc.hasSuccess, errors, acc.issues⟩ hrest
      refine ⟨errors', ?_⟩
      rw [hask]
      change queries.foldlM askGh _ = _
      rw [hloop]
      simp [hrows]

theorem foldlM_askGh_breaks (queries : List LabelQuery) (acc : GhRows)
    (hbreaks : ∃ query ∈ queries, query.gh.Breaks) : ∃ e, queries.foldlM askGh acc = .error e := by
  induction queries generalizing acc with
  | nil => simp at hbreaks
  | cons query queries ih =>
    rw [List.foldlM_cons]
    rcases askGh_cases acc query with ⟨-, e, hask⟩ | ⟨hnot, rows, -, hask⟩ | ⟨hnot, -, errors, hask⟩
    · exact ⟨e, by rw [hask]; rfl⟩
    all_goals
      rw [hask]
      refine ih _ ?_
      obtain ⟨q, hq, hqbreaks⟩ := hbreaks
      rcases List.mem_cons.mp hq with rfl | hq
      · exact absurd hqbreaks hnot
      · exact ⟨q, hq, hqbreaks⟩

def Outcome.isFound : Outcome → Bool
  | .found .. => true
  | _ => false

namespace Repository

variable (repo : Repository)

/-- **What the `gh` branch says.** It finds an eligible issue among the answers, or it says
that there is none as soon as one query was answered. -/
theorem ghOutcome_spec :
    ((ghOutcome repo.queries).isFound = true ↔
      (∀ query ∈ repo.queries, ¬ query.gh.Breaks) ∧ ¬ repo.NoneEligible repo.ghIssues) ∧
    ((ghOutcome repo.queries).isNoStanding = true ↔
      repo.GhAnsweredSome ∧ repo.NoneEligible repo.ghIssues) := by
  unfold ghOutcome GhAnsweredSome NoneEligible
  by_cases hno : ∀ query ∈ repo.queries, ¬ query.gh.Breaks
  · obtain ⟨errors, hloop⟩ := foldlM_askGh repo.queries ⟨false, [], []⟩ hno
    rw [hloop]
    simp only [Bool.false_or, List.nil_append]
    unfold ghIssues
    cases heligible : eligible (repo.queries.flatMap fun query => query.gh.rows?.getD [])
        (labelsOf repo.queries) with
    | cons record records =>
      have hne : record :: records ≠ [] := List.cons_ne_nil _ _
      exact ⟨iff_of_true rfl ⟨hno, hne⟩, iff_of_false Bool.false_ne_true fun h => hne h.2⟩
    | nil =>
      have hany : repo.queries.any (·.gh.rows?.isSome) = true ↔
          ∃ query ∈ repo.queries, query.gh.rows?.isSome := List.any_eq_true
      by_cases hsome : repo.queries.any (·.gh.rows?.isSome) = true
      · rw [if_pos hsome]
        exact ⟨iff_of_false Bool.false_ne_true fun h => h.2 rfl,
          iff_of_true rfl ⟨⟨hno, hany.mp hsome⟩, rfl⟩⟩
      · rw [if_neg hsome]
        exact ⟨iff_of_false Bool.false_ne_true fun h => h.2 rfl,
          iff_of_false Bool.false_ne_true fun h => hsome (hany.mpr h.1.2)⟩
  · have hbreaks : ∃ query ∈ repo.queries, query.gh.Breaks := by
      push Not at hno
      exact hno
    obtain ⟨⟨notFound, message⟩, hloop⟩ := foldlM_askGh_breaks repo.queries ⟨false, [], []⟩ hbreaks
    rw [hloop]
    cases notFound <;>
      exact ⟨iff_of_false Bool.false_ne_true fun h => hno h.1,
        iff_of_false Bool.false_ne_true fun h => hno h.1.1⟩

theorem RestAnswer.issues_eq (answer : RestAnswer) : answer.issues = answer.rows?.getD [] := by
  cases answer <;> rfl

/-- **What the REST branch says.** It finds an eligible issue among the answers, or it says
that there is none if every query was answered. -/
theorem restOutcome_spec :
    ((fetchStandingPriorityNumberViaRest repo.restSlug repo.queries).isFound = true ↔
      repo.restSlug.getD "" ≠ "" ∧ ¬ repo.NoneEligible repo.restIssues) ∧
    ((fetchStandingPriorityNumberViaRest repo.restSlug repo.queries).isNoStanding = true ↔
      repo.RestAnswered ∧ repo.NoneEligible repo.restIssues) := by
  unfold fetchStandingPriorityNumberViaRest RestAnswered NoneEligible
  by_cases hslug : repo.restSlug.getD "" = ""
  · rw [if_pos hslug]
    exact ⟨iff_of_false Bool.false_ne_true fun h => h.1 hslug,
      iff_of_false Bool.false_ne_true fun h => h.1.1 hslug⟩
  rw [if_neg hslug]
  have hissues : (repo.queries.flatMap fun query => query.rest.issues) = repo.restIssues := by
    unfold restIssues
    simp only [RestAnswer.issues_eq]
  have herrors : (repo.queries.filterMap fun query =>
      query.rest.error?.map fun message => query.label ++ ": " ++ message) = [] ↔
      ∀ query ∈ repo.queries, query.rest.rows?.isSome := by
    rw [List.filterMap_eq_nil_iff]
    refine forall₂_congr fun query _ => ?_
    cases query.rest <;> simp [RestAnswer.error?, RestAnswer.rows?]
  dsimp only
  rw [hissues]
  cases heligible : eligible repo.restIssues (labelsOf repo.queries) with
  | cons record records =>
    have hne : record :: records ≠ [] := List.cons_ne_nil _ _
    exact ⟨iff_of_true rfl ⟨hslug, hne⟩, iff_of_false Bool.false_ne_true fun h => hne h.2⟩
  | nil =>
    by_cases hall : ∀ query ∈ repo.queries, query.rest.rows?.isSome
    · rw [if_pos (herrors.mpr hall)]
      exact ⟨iff_of_false Bool.false_ne_true fun h => h.2 rfl,
        iff_of_true rfl ⟨⟨hslug, hall⟩, rfl⟩⟩
    · rw [if_neg (fun hnil => hall (herrors.mp hnil))]
      exact ⟨iff_of_false Bool.false_ne_true fun h => h.2 rfl,
        iff_of_false Bool.false_ne_true fun h => hall h.1.2⟩

/-- No issue is found and there is a report of none exactly if neither branch finds an issue
and one of them reports none. -/
theorem reportsNone_iff :
    ((resolveStandingPriorityForRepo repo).found = none ∧
      (resolveStandingPriorityForRepo repo).didReportNoStandingPriority = true) ↔
    (ghOutcome repo.queries).isFound = false ∧
      (fetchStandingPriorityNumberViaRest repo.restSlug repo.queries).isFound = false ∧
      ((ghOutcome repo.queries).isNoStanding = true ∨
        (fetchStandingPriorityNumberViaRest repo.restSlug repo.queries).isNoStanding = true) := by
  unfold resolveStandingPriorityForRepo RepoResult.didReportNoStandingPriority
  generalize ghOutcome repo.queries = gh
  generalize fetchStandingPriorityNumberViaRest repo.restSlug repo.queries = rest
  cases gh <;> cases rest <;> simp [Outcome.isFound, Outcome.isNoStanding]

theorem saysNone_iff :
    ((resolveStandingPriorityForRepo repo).found = none ∧
      (resolveStandingPriorityForRepo repo).didReportNoStandingPriority = true) ↔
    repo.SaysNone := by
  obtain ⟨hghFound, hghNone⟩ := repo.ghOutcome_spec
  obtain ⟨hrestFound, hrestNone⟩ := repo.restOutcome_spec
  rw [reportsNone_iff, ← Bool.not_eq_true, ← Bool.not_eq_true, hghFound, hrestFound, hghNone,
    hrestNone, not_and, not_not, not_and, not_not, SaysNone]
  refine and_congr_right fun hgh => and_congr_right fun hrest => or_congr ?_ ?_
  · exact and_iff_left_of_imp fun hsome => hgh hsome.1
  · exact and_iff_left_of_imp fun hall => hrest hall.1

theorem confirmedEmpty_iff (h : repo.SaysNone) : repo.ConfirmedEmpty ↔ ¬ repo.HiddenFailure := by
  obtain ⟨hgh, hrest, hnone⟩ := h
  constructor
  · rintro (⟨hall, -⟩ | ⟨hall, -⟩) ⟨-, hnotGh, -, hnotRest, -⟩
    · exact hnotGh hall
    · exact hnotRest hall
  · intro hhidden
    by_cases hrestAll : repo.RestAnswered
    · exact .inr ⟨hrestAll, hrest hrestAll.1⟩
    have hsome := hnone.resolve_right hrestAll
    by_cases hghAll : repo.GhAnswered
    · exact .inl ⟨hghAll, hgh hsome.1⟩
    · exact absurd ⟨hsome, hghAll, hgh hsome.1, hrestAll, hrest⟩ hhidden

end Repository

theorem Lookup.not_hiddenFailure_upstream (lookup : Lookup) :
    ¬ lookup.upstream.HiddenFailure := by
  rintro ⟨⟨-, query, hquery, hsome⟩, hnot, -⟩
  obtain rfl := List.mem_singleton.mp hquery
  refine hnot fun q hq => ?_
  obtain rfl := List.mem_singleton.mp hq
  exact hsome

/-! ### The verdict -/

theorem resolveStandingPriorityFromSources_eq_noStanding (gh rest : Outcome) (cache : Option Cache)
    (labels : List String) :
    (∃ message, resolveStandingPriorityFromSources gh rest cache labels =
      .error (.noStandingPriority message)) ↔
      gh.isNoStanding = true ∨ rest.isNoStanding = true := by
  unfold resolveStandingPriorityFromSources
  split
  · next hnone =>
    exact iff_of_true ⟨_, rfl⟩ (Bool.or_eq_true_iff.mp hnone)
  · next hnone =>
    refine iff_of_false ?_ fun h => hnone (Bool.or_eq_true_iff.mpr h)
    rintro ⟨message, h⟩
    cases hcache : isStandingPriorityCacheCandidate cache labels with
    | some number =>
      rw [hcache] at h
      cases h
    | none =>
      rw [hcache] at h
      cases h

/-- **When the verdict is given.** The repository says that it has no standing issue, and so
does the upstream if it is consulted. -/
theorem noStandingPriority_iff (lookup : Lookup) (cache : Option Cache) :
    (∃ message, resolveStandingPriorityNumber lookup cache =
      .error (.noStandingPriority message)) ↔
    lookup.primary.SaysNone ∧ (lookup.shouldCheckUpstream = true → lookup.upstream.SaysNone) := by
  rw [← Repository.saysNone_iff, ← Repository.saysNone_iff]
  unfold resolveStandingPriorityNumber resolveStandingPriorityLookupPlan
  dsimp only
  generalize resolveStandingPriorityForRepo lookup.primary = primary
  generalize resolveStandingPriorityForRepo lookup.upstream = upstream
  cases hfound : primary.found with
  | some found => simp
  | none =>
    cases hcheck : lookup.shouldCheckUpstream with
    | false =>
      -- the primary repository is the source
      simp only [Bool.false_eq_true, if_false, false_implies, and_true, true_and]
      rw [resolveStandingPriorityFromSources_eq_noStanding]
      exact Bool.or_eq_true_iff.symm
    | true =>
      cases hup : upstream.found with
      | some found => simp
      | none =>
        have hprimary := resolveStandingPriorityFromSources_eq_noStanding primary.ghOutcome
          primary.restOutcome cache (labelsOf lookup.primary.queries)
        have hupstream := resolveStandingPriorityFromSources_eq_noStanding upstream.ghOutcome
          upstream.restOutcome cache [DEFAULT_STANDING_PRIORITY_LABEL]
        rw [← Bool.or_eq_true_iff] at hprimary hupstream
        change _ ↔ primary.didReportNoStandingPriority = true at hprimary
        change _ ↔ upstream.didReportNoStandingPriority = true at hupstream
        -- a repository that does not say so becomes the source, and the verdict is not given
        cases hp : primary.didReportNoStandingPriority with
        | false =>
          rw [hp] at hprimary
          simpa using hprimary
        | true =>
          cases hu : upstream.didReportNoStandingPriority with
          | false =>
            rw [hu] at hupstream
            simpa using hupstream
          | true => simp

/-- **The verdict is sound** exactly when it does not rest on a hidden failure. -/
theorem verdictSound_iff (lookup : Lookup) (cache : Option Cache) :
    VerdictSound lookup cache ↔
      ¬ (lookup.primary.HiddenFailure ∧
        (lookup.shouldCheckUpstream = true → lookup.upstream.SaysNone)) := by
  have hverdict := noStandingPriority_iff lookup cache
  constructor
  · rintro hsound ⟨hhidden, hupstream⟩
    obtain ⟨hsome, hnotGh, hgh, hnotRest, hrest⟩ := hhidden
    have hnone : lookup.primary.SaysNone := ⟨fun _ => hgh, hrest, .inl hsome⟩
    obtain ⟨message, hmessage⟩ := hverdict.mpr ⟨hnone, hupstream⟩
    have hconfirmed := hsound message hmessage lookup.primary List.mem_cons_self
    exact (lookup.primary.confirmedEmpty_iff hnone).mp hconfirmed
      ⟨hsome, hnotGh, hgh, hnotRest, hrest⟩
  · intro hcond message hmessage repo hrepo
    obtain ⟨hnone, hupstream⟩ := hverdict.mp ⟨message, hmessage⟩
    rcases List.mem_cons.mp hrepo with rfl | hrepo
    · exact (lookup.primary.confirmedEmpty_iff hnone).mpr fun hhidden => hcond ⟨hhidden, hupstream⟩
    · cases hcheck : lookup.shouldCheckUpstream with
      | false =>
        rw [hcheck] at hrepo
        cases hrepo
      | true =>
        rw [hcheck, if_pos rfl, List.mem_singleton] at hrepo
        rw [hrepo]
        exact (lookup.upstream.confirmedEmpty_iff (hupstream hcheck)).mpr
          lookup.not_hiddenFailure_upstream

/-! ### A failed query that hides -/

/-- A fork asked for two labels: the query of the first fails, the query of the second
lists nothing, and the REST API cannot be reached. Its upstream has no standing issue. -/
def forkLookup : Lookup where
  primary :=
    { slug := some "fork/actions"
      rootSlug := none
      queries :=
        [⟨"fork-standing-priority", .exited (some 1) none "HTTP 502", .failed "fetch failed"⟩,
          ⟨"standing-priority", .exited (some 0) none "", .failed "fetch failed"⟩] }
  upstreamSlug := some "upstream/actions"
  upstreamGh := .exited (some 0) none ""
  upstreamRest := .nothing

/-- The verdict is given although the query of one label failed in both sources. -/
theorem not_verdictSound_forkLookup : ¬ VerdictSound forkLookup none := by
  intro hsound
  have hverdict : ∃ message, resolveStandingPriorityNumber forkLookup none =
      .error (.noStandingPriority message) := ⟨_, rfl⟩
  obtain ⟨message, hmessage⟩ := hverdict
  rcases hsound message hmessage forkLookup.primary List.mem_cons_self with
    ⟨hall, -⟩ | ⟨⟨-, hall⟩, -⟩
  · exact absurd (hall _ List.mem_cons_self) (by decide)
  · exact absurd (hall _ List.mem_cons_self) (by decide)

end CompareVI.Standing
