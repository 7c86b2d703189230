import CompareVI.Framework.Comparison
import CompareVI.Framework.JsString
import CompareVI.Framework.Loop

/-!
# The lane marketplace

The registry lists the repositories that may offer a lane. `collectMarketplaceSnapshot` asks
each of them for its standing issue and ranks the entries, and
`selectMarketplaceRecommendation` takes the first eligible one.

A repository passes through three records: the one of the registry, the entry that is built
of it and the entry with its keys, by which it is ranked. What GitHub answers for a repository
and the collation of names are parameters.
-/

open Framework

namespace CompareVI.Marketplace

/-! ### The registry -/

def AUTHORITY_TIER_ORDER : List (String × ℕ) :=
  [("upstream-integration", 0), ("shared-platform", 1), ("consumer-proving", 2),
    ("org-fork-review", 3), ("personal-authoring", 4)]

def PROMOTION_RAIL_ORDER : List (String × ℕ) :=
  [("integration", 0), ("shared-platform", 1), ("consumer-proving", 2), ("fork-review", 3),
    ("authoring", 4)]

def readRank (map : List (String × ℕ)) (key : String) (fallback : ℕ) : ℕ :=
  ((optionalTrim key).bind fun text => map.lookup (JsString.toLowerCase text)).getD fallback

structure MarketplaceRepository where
  id : String
  slug : String
  authorityTier : String
  laneClass : String
  promotionRail : String
  standingLabels : List String
  enabled : Bool
  priorityBias : ℚ

/-- A registry. No id occurs twice, and no slug, whatever its letters' case. -/
structure MarketplaceRegistry where
  path : String
  repositories : List MarketplaceRepository
  ids_nodup : (repositories.map (·.id)).Nodup
  slugs_nodup : (repositories.map fun r => JsString.toLowerCase r.slug).Nodup

/-! ### Entries -/

structure StandingIssue where
  number : Option ℕ
  url : Option String
  title : Option String
  labels : List String
  fetchError : Option String
  source : Option String

/-- What `buildStandingEntryBase` gives. -/
structure StandingEntryBase where
  id : String
  repository : String
  authorityTier : String
  laneClass : String
  promotionRail : String
  standingLabels : List String
  enabled : Bool
  /-- `entry.priorityBias`, which the ranking reads. -/
  priorityBias : Option ℚ

structure MarketplaceEntry extends StandingEntryBase where
  eligible : Bool
  status : String
  reason : String
  message : String
  openIssueCount : Option ℤ
  standing : Option StandingIssue

structure FoundIssue where
  number : ℕ
  source : Option String

/-- What `createSnapshot` gives. -/
structure IssueSnapshot where
  number : Option ℕ
  url : Option String
  title : Option String
  labels : List String

structure NoStanding where
  reason : Option String
  message : Option String
  openIssueCount : Option ℤ

structure StandingOutcomes where
  resolveStandingPriorityLabels : String → List String
  resolveStandingPriorityForRepo : String → List String → Except String (Option FoundIssue)
  fetchIssue : ℕ → String → Except (Option String) IssueSnapshot
  classifyNoStandingPriorityCondition : String → List String → Except String NoStanding

/-- `buildStandingEntryBase`. The bias is not copied. -/
def buildStandingEntryBase (entry : MarketplaceRepository) (standingLabels : List String) :
    StandingEntryBase where
  id := entry.id
  repository := entry.slug
  authorityTier := entry.authorityTier
  laneClass := entry.laneClass
  promotionRail := entry.promotionRail
  standingLabels := standingLabels
  enabled := entry.enabled
  priorityBias := none

def disabledEntry (base : StandingEntryBase) : MarketplaceEntry where
  toStandingEntryBase := base
  eligible := false
  status := "disabled"
  reason := "disabled"
  message := "Marketplace entry is disabled."
  openIssueCount := none
  standing := none

def standingIssue (standingLabels : List String) (found : FoundIssue) :
    Except (Option String) IssueSnapshot → StandingIssue
  | .ok issue => ⟨issue.number, issue.url, issue.title, issue.labels, none, found.source⟩
  | .error message =>
    { number := some found.number
      url := none
      title := none
      labels := standingLabels
      fetchError := some ((optionText message).getD "issue-fetch-failed")
      source := found.source }

def readyEntry (env : StandingOutcomes) (base : StandingEntryBase) (found : FoundIssue) :
    MarketplaceEntry where
  toStandingEntryBase := base
  eligible := true
  status := "standing-ready"
  reason := "standing-ready"
  message := s!"Standing lane available in {base.repository}."
  openIssueCount := none
  standing :=
    some (standingIssue base.standingLabels found (env.fetchIssue found.number base.repository))

def unreadyEntry (base : StandingEntryBase) (classification : NoStanding) : MarketplaceEntry where
  toStandingEntryBase := base
  eligible := false
  status := (optionText classification.reason).getD "error"
  reason := (optionText classification.reason).getD "error"
  message := (optionText classification.message).getD "Unable to classify marketplace entry."
  openIssueCount := classification.openIssueCount
  standing := none

def labelsFor (env : StandingOutcomes) (entry : MarketplaceRepository) : List String :=
  if entry.standingLabels ≠ [] then entry.standingLabels
  else env.resolveStandingPriorityLabels entry.slug

/-- `standingResolution?.found?.number`, where it counts as true. -/
def numbered (found : Option FoundIssue) : Option FoundIssue := found.filter (·.number ≠ 0)

def collectMarketplaceEntry (env : StandingOutcomes) (entry : MarketplaceRepository) :
    Except String MarketplaceEntry :=
  let standingLabels := labelsFor env entry
  let base := buildStandingEntryBase entry standingLabels
  if entry.enabled = false then .ok (disabledEntry base)
  else do
    let found ← env.resolveStandingPriorityForRepo entry.slug standingLabels
    match numbered found with
    | some found => return readyEntry env base found
    | none =>
      let classification ← env.classifyNoStandingPriorityCondition entry.slug standingLabels
      return unreadyEntry base classification

/-! ### The ranking -/

structure Ranking where
  eligibleRank : ℕ
  authorityRank : ℕ
  promotionRank : ℕ
  priorityBias : ℚ

structure RankedEntry extends MarketplaceEntry where
  ranking : Ranking

structure SnapshotEntry extends RankedEntry where
  order : ℕ

/-- The keys that `rankMarketplaceEntries` gives an entry. -/
def rankEntry (entry : MarketplaceEntry) : RankedEntry where
  toMarketplaceEntry := entry
  ranking :=
    { eligibleRank := if entry.eligible then 0 else 1
      authorityRank := readRank AUTHORITY_TIER_ORDER entry.authorityTier 99
      promotionRank := readRank PROMOTION_RAIL_ORDER entry.promotionRail 99
      priorityBias := entry.priorityBias.getD 0 }

/-- The comparator of `rankMarketplaceEntries`: one key after the other. -/
def compareRanked (collation : Comparison String) : Comparison RankedEntry :=
  (Comparison.ofKey fun entry => entry.ranking.eligibleRank).thenBy
    ((Comparison.ofKey fun entry => entry.ranking.authorityRank).thenBy
      ((Comparison.ofKey fun entry => entry.ranking.promotionRank).thenBy
        ((Comparison.ofKey fun entry => entry.ranking.priorityBias).thenBy
          (collation.comap fun entry => entry.repository))))

def rankMarketplaceEntries (collation : Comparison String) (entries : List MarketplaceEntry) :
    List SnapshotEntry :=
  ((compareRanked collation).sort (entries.map rankEntry)).zipIdx.map fun item =>
    { toRankedEntry := item.1, order := item.2 + 1 }

structure TopLane where
  repository : String
  issueNumber : Option ℕ
  authorityTier : String
  promotionRail : String

structure MarketplaceSummary where
  repositoryCount : ℕ
  eligibleLaneCount : ℕ
  queueEmptyCount : ℕ
  labelMissingCount : ℕ
  errorCount : ℕ
  topEligibleLane : Option TopLane

structure MarketplaceSnapshot where
  registryPath : String
  summary : MarketplaceSummary
  entries : List SnapshotEntry

def MarketplaceEntry.issueNumber (entry : MarketplaceEntry) : Option ℕ :=
  entry.standing.bind (·.number)

/-- The counts of `collectMarketplaceSnapshot`. -/
def summarizeEntries (entries : List SnapshotEntry) : MarketplaceSummary where
  repositoryCount := entries.length
  eligibleLaneCount := (entries.filter (·.eligible)).length
  queueEmptyCount := (entries.filter (·.reason = "queue-empty")).length
  labelMissingCount := (entries.filter (·.reason = "label-missing")).length
  errorCount := (entries.filter (·.reason = "error")).length
  topEligibleLane := (entries.filter (·.eligible)).head?.map fun entry =>
    ⟨entry.repository, entry.issueNumber, entry.authorityTier, entry.promotionRail⟩

def collectMarketplaceSnapshot (env : StandingOutcomes) (collation : Comparison String)
    (registry : MarketplaceRegistry) : Except String MarketplaceSnapshot := do
  let entries ← registry.repositories.mapM (collectMarketplaceEntry env)
  let rankedEntries := rankMarketplaceEntries collation entries
  return ⟨registry.path, summarizeEntries rankedEntries, rankedEntries⟩

structure Recommendation where
  repository : String
  issueNumber : Option ℕ
  issueUrl : Option String
  issueTitle : Option String
  authorityTier : String
  laneClass : String
  promotionRail : String
  reason : String
  standingLabels : List String
  ranking : Ranking

/-- `normalizeText(value)?.toLowerCase() || null`. -/
def repositoryKey (value : Option String) : Option String :=
  (optionText value).map JsString.toLowerCase

def isExcluded (currentRepository : Option String) (requireDifferentRepository : Bool)
    (repository : String) : Bool :=
  requireDifferentRepository && (repositoryKey currentRepository).isSome &&
    repositoryKey (some repository) = repositoryKey currentRepository

def recommend (entry : SnapshotEntry) : Recommendation where
  repository := entry.repository
  issueNumber := entry.issueNumber
  issueUrl := optionText (entry.standing.bind (·.url))
  issueTitle := optionText (entry.standing.bind (·.title))
  authorityTier := entry.authorityTier
  laneClass := entry.laneClass
  promotionRail := entry.promotionRail
  reason := entry.reason
  standingLabels := entry.standingLabels
  ranking := entry.ranking

def selectMarketplaceRecommendation (snapshot : MarketplaceSnapshot)
    (currentRepository : Option String) (requireDifferentRepository : Bool) :
    Option Recommendation :=
  (snapshot.entries.find? fun entry =>
    entry.eligible &&
      !isExcluded currentRepository requireDifferentRepository entry.repository).map recommend

end CompareVI.Marketplace
