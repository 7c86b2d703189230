import CompareVI.Framework.JsString
import CompareVI.Framework.RegExp

/-!
# What the text of an issue says

The sync of the standing priority reads titles, bodies and comments with regular expressions:
the priority in a title, whether an issue is an epic, an umbrella or a cadence alert, whether it
tracks something that only the platform can mend, whether it belongs to the demo repository, and
whether it waits for an issue of `comparevi-history`.

Each predicate is the source's own, and the expressions are written as the source writes them
(`phrase` is `\b…\b`). Numbers of referenced issues are collected at every place of a text: the
matches that `matchAll` skips, because they begin within another one, end where that one ends.
-/

open Framework

namespace CompareVI.Standing

open RegExp

/-! ### Expressions -/

/-- `r.test(text)`. -/
def has (r : RegExp) (text : String) : Bool := r.test text.toList

/-- `\s`. -/
def space : RegExp := chars JsString.isWhitespace

/-- `.`. -/
def anyOnLine : RegExp := chars fun c => !JsString.isLineTerminator c

def wordOf (s : String) (rest : List String) : RegExp := oneOf (word s) (rest.map word)

/-- `\b…\b`. -/
def bounded (r : RegExp) : RegExp := all [boundary, r, boundary]

/-- `\b…\b` around a text. -/
def phrase (s : String) : RegExp := bounded (word s)

def isUnit (c : Char) : Bool := c.toNat < 65536

/-- `[^]{0,n}`, where a character beyond the basic plane is two units. -/
def upToUnits : ℕ → RegExp
  | 0 => empty
  | 1 => opt (chars isUnit)
  | n + 2 =>
    oneOf empty
      [seq (chars isUnit) (upToUnits (n + 1)), seq (chars fun c => !isUnit c) (upToUnits n)]

def lines2 (title body : String) : String := title ++ "\n" ++ body

/-! ### Titles and bodies -/

/-- `(?<priority>\d+)\s*\]`, and what the digits say. -/
def priorityDigits (cs : List Char) : Option (List Char) :=
  let digits := cs.takeWhile Char.isDigit
  match digits, (cs.dropWhile Char.isDigit).dropWhile JsString.isWhitespace with
  | _ :: _, ']' :: _ => some digits
  | _, _ => none

/-- `/\[\s*p(?<priority>\d+)\s*\]/i` at one place. -/
def priorityAt : List Char → Option (List Char)
  | '[' :: cs =>
    match cs.dropWhile JsString.isWhitespace with
    | c :: cs => if c.toLower = 'p' then priorityDigits cs else none
    | [] => none
  | _ => none

def parsePriorityOrdinal (title : String) : ℕ :=
  ((JsString.firstMatch priorityAt title.toList).bind JsString.numberOfDigits).getD 9

def isEpicTitle (title : String) : Bool :=
  has (all [start, star space, word "epic", star space, word ":"]) title

def hasChildTracksSection (body : String) : Bool :=
  has (all [oneOf start [word "\n"], word "##", star space, word "child", star space,
    word "tracks", boundary]) body

def isCadenceAlertIssue (title body : String) : Bool :=
  has (all [start, star space, word "[cadence]", boundary]) title ||
    has (all [word "<!--", star space, word "cadence-check:"]) body

def isPassivePlatformTrackerIssue (title body : String) : Bool :=
  let text := lines2 title body
  let hasPassiveTrackerTitle :=
    has (bounded (all [word "track stale ", plus (chars fun c => isWord c || c = '-' || c = ' '),
      word " alerts"])) text
  let hasPlatformLagSignal :=
    has (phrase "platform-stale") text || has (phrase "refresh lag") text ||
      has (phrase "platform state catches up") text ||
      has (phrase "auto-close or are otherwise reconciled by github") text
  let hasExternalOnlyTrackingSignal :=
    has (phrase "tracks the remaining github") text ||
      has (bounded (all [word "dependency-graph", star space, word "/", star space,
        word "dependabot"])) text ||
      has (phrase "until the platform state catches up") text
  (hasPassiveTrackerTitle && hasPlatformLagSignal) ||
    (hasPlatformLagSignal && hasExternalOnlyTrackingSignal)

def upkeep : RegExp :=
  bounded (oneOf (word "refresh") [word "update",
    seq (word "maint") (wordOf "ain" ["enance"]), word "cleanup"])

/-- `\b(?:docs|documentation)\b`. -/
def documents : RegExp := bounded (wordOf "docs" ["documentation"])

def hasCompareviWorkflowScopeSignal (title body : String) : Bool :=
  let combinedText := lines2 title body
  let hasCompareviSignal := has (wordOf "comparevi-history" ["compare-vi-cli-action"]) combinedText
  let hasRolloutActionSignal :=
    has (bounded (wordOf "land" ["add", "route", "wire", "enable", "validate", "prove", "dispatch",
      "capture", "confirm", "reconcile", "rebase", "review"])) combinedText
  let hasDiagnosticsSignal :=
    has (oneOf (phrase "diagnostics") [seq (word "diagnostics workflow") (opt (word "s")),
      word "workflow shape", word "workflow files", word "reviewer-facing diagnostics"])
      combinedText
  let hasReleaseSignal :=
    has (oneOf (seq (word "released ref") (opt (word "s"))) [word "released comparevi-history",
      word "released compare-vi-cli-action"]) combinedText
  let hasTopologySignal :=
    has (oneOf (word "fork-ready") [word "fork-safe",
      seq (word "downstream fork") (opt (word "s")), word "upstream-aligned",
      word "canonical upstream", word "pr head repo/ref dynamically", word "fork-authored pr"])
      combinedText
  let hasTrackerSignal :=
    has (oneOf (all [wordOf "Parent epic:" ["epic"], star space, word "#930"])
      [word "comparevi-history#23"]) combinedText
  let hasDemoMaintenanceSignal :=
    has (bounded (oneOf (word "readme") [word "release notes",
      seq (word "icon editor asset") (opt (word "s")), word "asset work", word "asset refresh",
      word "editor development", word "screenshot context"])) combinedText ||
      has (oneOf (all [upkeep, star anyOnLine, documents])
        [all [documents, star anyOnLine, upkeep]]) combinedText
  if hasDemoMaintenanceSignal then false
  else
    let rolloutSignalCount := [hasRolloutActionSignal, hasDiagnosticsSignal, hasReleaseSignal,
      hasTopologySignal, hasTrackerSignal].countP id
    hasCompareviSignal && 3 ≤ rolloutSignalCount && (hasTopologySignal || hasTrackerSignal)

def isOutOfScopeStandingCandidate (title body : String) : Bool :=
  if !has (oneOf (word "labview-icon-editor-demo") [word "labview icon editor demo",
      all [word "icon", wordOf "-" [" "], word "editor demo"]]) (lines2 title body) then false
  else if hasCompareviWorkflowScopeSignal title body then false
  else true

/-! ### Comments -/

/-- `normalizeCommentBodies`; a comment is its text, if it has one. -/
def normalizeCommentBodies (comments : Option (List (Option String))) : List String :=
  ((comments.getD []).map fun entry => JsString.trim (entry.getD "")).filter (· ≠ "")

def trimmedParts (isEnd : Char → Bool) (value : String) : List String :=
  ((value.toList.splitOnP isEnd).map fun part => String.ofList (JsString.trimList part)).filter
    (· ≠ "")

def splitStandingClauses (value : String) : List String :=
  trimmedParts (fun c => c = '\n' || c = '.' || c = ';') value

/-- What stands before the number of an issue of `comparevi-history`. -/
def historyReference : RegExp :=
  alt (all [boundary, opt (word "LabVIEW-Community-CI-CD/"), word "comparevi-history#"])
    (word "https://github.com/LabVIEW-Community-CI-CD/comparevi-history/issues/")

/-- `(\d+)\b`, as a positive number. -/
def issueNumberAt (p : Place) : Option ℕ :=
  let digits := p.rest.takeWhile Char.isDigit
  if digits = [] || (p.rest.dropWhile Char.isDigit).head?.any isWord then none
  else (JsString.numberOfDigits digits).filter (0 < ·)

def placesFrom (before : List Char) : List Char → List Place
  | [] => [⟨before, []⟩]
  | c :: rest => ⟨before, c :: rest⟩ :: placesFrom (c :: before) rest

/-- `extractCompareviHistoryIssueNumbers`, up to order and repetition, which nothing here
reads. -/
def extractCompareviHistoryIssueNumbers (value : String) : List ℕ :=
  (placesFrom [] value.toList).flatMap fun p => (historyReference.ends p).filterMap issueNumberAt

/-- `(?:no longer|not|never|previously|formerly)`, or without `not`. -/
def negation (hasNot : Bool) : RegExp :=
  wordOf "no longer" ((if hasNot then ["not"] else []) ++ ["never", "previously", "formerly"])

/-- `(?:was|were)`. -/
def past : RegExp := wordOf "was" ["were"]

/-- Something has been said of a phrase a little earlier: `\b…\b[^]{0,n}\b…\b`. -/
def saidOf (n : ℕ) (r : RegExp) (s : String) : RegExp :=
  all [bounded r, upToUnits n, phrase s]

def hasAffirmativeExternalBlockClause (value : String) : Bool :=
  (splitStandingClauses value).any fun clause =>
    if extractCompareviHistoryIssueNumbers clause = [] then false
    else
      let hasAffirmativeBlockSignal :=
        has (phrase "externally blocked on") clause || has (phrase "blocked by") clause ||
          has (phrase "primary downstream blocker") clause
      if !hasAffirmativeBlockSignal then false
      else
        let blockedOn := wordOf "externally blocked on" ["blocked by"]
        let hasNegatedOrHistoricalSignal :=
          has (bounded (all [negation true, plus space, blockedOn])) clause ||
            has (bounded (all [past, plus space, blockedOn])) clause ||
            has (saidOf 40 (negation true) "primary downstream blocker") clause ||
            has (saidOf 40 past "primary downstream blocker") clause
        !hasNegatedOrHistoricalSignal

def standingLines (value : String) : List String := trimmedParts (· = '\n') value

/-- `/\b(?:no longer|never|previously|formerly)\s+remains open only as …/`. -/
def noLongerRemains : RegExp :=
  bounded (all [negation false, plus space, word "remains open only as local blocked tracking"])

def hasExplicitExternalOnlyTrackingSignal (value : String) : Bool :=
  let lines := standingLines value
  (List.range lines.length).any fun index =>
    let line := lines.getD index ""
    let previousText := JsString.join "\n" ((lines.take index).drop (index - 2))
    let nextLine := lines.getD (index + 1) ""
    let notActive := phrase "not an active local standing lane"
    let doNotOpen := phrase "do not open a new in-repo coding lane here unless"
    let hasCurrentStateSignal :=
      has (phrase "remains open only as local blocked tracking") line ||
        has (bounded (all [word "is blocked tracking,", star space,
          word "not an active local standing lane"])) line ||
        (has notActive line && has doNotOpen nextLine) ||
        (has doNotOpen line && has notActive previousText)
    if !hasCurrentStateSignal then false
    else
      let hasHistoricalOrNegatedSignal :=
        has (phrase "historical note") line || has (phrase "historical note") previousText ||
          has noLongerRemains line ||
          has (saidOf 60 past "open only as local blocked tracking") line ||
          has (bounded (all [past, plus space, word "blocked tracking"])) line ||
          has (bounded (all [negation false, plus space, word "blocked tracking"])) line ||
          has (phrase "not blocked tracking") line ||
          has (saidOf 60 past "not an active local standing lane") line ||
          has (saidOf 60 (negation false) "not an active local standing lane") line
      !hasHistoricalOrNegatedSignal

def hasExplicitExternalOnlyTrackingReactivationSignal (value : String) : Bool :=
  (standingLines value).any fun line =>
    has noLongerRemains line || has (phrase "rollout lane is active again") line ||
      has (phrase "active local standing lane again") line ||
      has (bounded (seq (word "reactivat") (wordOf "ed" ["ion"]))) line

/-- `isBlockedStandingCandidate`, of comments that have been normalized. -/
def isBlockedStandingCandidate (title body : String) (commentBodies : List String) : Bool :=
  let bodyText := lines2 title body
  let commentText := JsString.join "\n" commentBodies
  if hasExplicitExternalOnlyTrackingSignal bodyText ||
      (!hasExplicitExternalOnlyTrackingReactivationSignal bodyText &&
        commentBodies.any hasExplicitExternalOnlyTrackingSignal) then true
  else if extractCompareviHistoryIssueNumbers (lines2 bodyText commentText) = [] then false
  else
    let hasBodyLevelExternalBlock := hasAffirmativeExternalBlockClause bodyText
    let hasCommentLevelStandingDemotion := commentBodies.any fun comment =>
      extractCompareviHistoryIssueNumbers comment ≠ [] &&
        (has (phrase "standing-priority moved away") comment ||
          has (phrase "no longer the top actionable coding lane") comment)
    hasBodyLevelExternalBlock || hasCommentLevelStandingDemotion

/-! ### References -/

def hasIssueNumberReference (value : String) (issueNumber : ℕ) : Bool :=
  if issueNumber = 0 then false
  else
    has (alt (all [word "#", word (toString issueNumber), boundary])
      (all [word "/issues/", word (toString issueNumber), boundary])) value

end CompareVI.Standing
