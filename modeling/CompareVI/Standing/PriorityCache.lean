import CompareVI.Framework.JsString
import CompareVI.Framework.Run
import CompareVI.Framework.Stored
import CompareVI.Standing.Lookup

/-!
# The cache of the standing issue

Every run of the sync that comes to an end reads `.agent_priority_cache.json`, makes the next
cache from it and writes it if something changed: `buildNoStandingPriorityState` where there is no
standing issue, `computeNextPriorityCacheState` where there is one, be it fetched or taken from
the cache itself. A run that fails leaves the file as it is.
-/

open Framework

namespace CompareVI.Standing
namespace PriorityCache

/-! ### Values -/

/-- `a || b || … || null`. -/
def firstTruthy : List (Option Json) → Json
  | [] => .null
  | value :: rest => if Json.truthy value then value.getD .null else firstTruthy rest

/-- `a ?? b ?? … ?? null`. -/
def firstPresent : List (Option Json) → Json
  | [] => .null
  | value :: rest => if value.getD .null ≠ .null then value.getD .null else firstPresent rest

/-- A text or `null`. -/
def textOrNull (value : Option String) : Json := value.elim .null .str

/-- `Object.is` and the like on two plain objects, up to the order of their properties. -/
def isDeepStrictEqual (a b : JsObject) : Bool :=
  (a.keys ++ b.keys).all fun key => a.get? key = b.get? key

/-- What the sync takes from outside: the order of `localeCompare` and the hash function. -/
structure SyncEnv where
  sortList : List String → List String
  sha256 : String → String

variable (env : SyncEnv)

/-- `normalizeList` of the elements of a list. -/
def normalizeElements (values : List Json) : List String :=
  env.sortList (normalizeStandingPriorityLabels ((values.filter (· ≠ .null)).map Json.toJsString))

/-- `normalizeList`; it throws on a value that cannot be iterated over. -/
def normalizeValues (values : Json) : Option (List String) :=
  if !values.isTruthy then some (normalizeElements env [])
  else
    match values with
    | .arr elements => some (normalizeElements env elements)
    | .str s => some (normalizeElements env (s.toList.map fun c => .str (String.singleton c)))
    | _ => none

/-! ### The issue that was fetched -/

/-- What `fetchIssue` gives, or what stands in for it. -/
structure Issue where
  number : Json
  title : Json
  state : Json
  updatedAt : Json
  url : Json
  labels : Json
  assignees : Json
  milestone : Json
  commentCount : Json
  body : Json

/-- `(values || []).map((l) => l.key || l)`; the texts of the two errors are not JavaScript's. -/
def namesOf (key : String) (values : Option Json) : Except String (List Json) :=
  if !Json.truthy values then .ok []
  else
    match values with
    | some (.arr elements) => elements.mapM fun element =>
      if element = .null then .error ("Cannot read " ++ key ++ " of null")
      else .ok (firstTruthy [element.get? key, some element])
    | _ => .error "map is not a function"

def commentsOf (result : Json) : Json :=
  match result.get? "comments", result.get? "commentBodies" with
  | some (.arr comments), _ => .num comments.length
  | _, some (.arr commentBodies) => .num commentBodies.length
  | some (.num comments), _ => .num comments
  | _, _ => .null

def normalizeIssueResult (result : Json) : Except String Issue := do
  let labels ← namesOf "name" (result.get? "labels")
  let assignees ← namesOf "login" (result.get? "assignees")
  let milestone := result.get? "milestone"
  return {
    number := (result.get? "number").getD .null
    title := firstTruthy [result.get? "title"]
    state := firstTruthy [result.get? "state"]
    updatedAt := firstTruthy [result.get? "updatedAt", result.get? "updated_at"]
    url := firstTruthy [result.get? "html_url", result.get? "url"]
    labels := .arr ((normalizeElements env labels).map .str)
    assignees := .arr ((normalizeElements env assignees).map .str)
    milestone := if Json.truthy milestone then
        firstTruthy [milestone.bind (·.get? "title"), milestone]
      else .null
    commentCount := commentsOf result
    body := firstTruthy [result.get? "body"] }

/-- An issue of another repository that an issue mirrors. -/
structure UpstreamPointer where
  repository : String
  number : ℕ
  url : String

def UpstreamPointer.toJson (pointer : UpstreamPointer) : Json :=
  .obj [("repository", .str pointer.repository), ("number", .num pointer.number),
    ("url", .str pointer.url)]

/-- A run of characters that are neither `/` nor white space, and the rest. -/
def slugPart (cs : List Char) : Option (List Char × List Char) :=
  let part := cs.takeWhile fun c => c ≠ '/' && !JsString.isWhitespace c
  if part = [] then none else some (part, cs.drop part.length)

/-- `/<!--\s*upstream-issue-url:\s*(https:…\/issues\/(?<number>\d+))\s*-->/i` at one place:
owner, repository, digits and the text of the address. -/
def upstreamPointerAt (cs : List Char) : Option (List Char × List Char × List Char × List Char) :=
  do
    let cs ← JsString.stripLiteral "<!--".toList cs
    let cs ← JsString.stripLiteral "upstream-issue-url:".toList (cs.dropWhile JsString.isWhitespace)
    let address := cs.dropWhile JsString.isWhitespace
    let cs ← JsString.stripLiteral "https://github.com/".toList address
    let (owner, cs) ← slugPart cs
    let cs ← JsString.stripLiteral "/".toList cs
    let (name, cs) ← slugPart cs
    let cs ← JsString.stripLiteral "/issues/".toList cs
    let digits := cs.takeWhile Char.isDigit
    let rest := cs.dropWhile Char.isDigit
    let _ ← JsString.stripLiteral "-->".toList (rest.dropWhile JsString.isWhitespace)
    if digits = [] then none
    else some (owner, name, digits, address.take (address.length - rest.length))

def parseUpstreamIssuePointerFromBody (body : Json) : Option UpstreamPointer := do
  let text := if body.isTruthy then Json.toJsString body else ""
  let (owner, name, digits, url) ← JsString.firstMatch upstreamPointerAt text.toList
  let number ← JsString.numberOfDigits digits
  if number = 0 then none
  else some ⟨String.ofList (owner ++ '/' :: name), number, String.ofList url⟩

/-- A snapshot of an issue. A number of comments that is not a number is `some none`. -/
structure Snapshot where
  number : Json
  title : Json
  state : Json
  updatedAt : Json
  url : Json
  labels : List String
  assignees : List String
  milestone : Option String
  commentCount : Option (Option ℚ)
  bodyDigest : Option String
  mirrorOf : Option UpstreamPointer
  digest : String

/-- A number as `JSON.stringify` writes it. -/
def numberJson (value : Option ℚ) : Json := value.elim .null .num

def createSnapshot (issue : Issue) : Option Snapshot := do
  let labels ← normalizeValues env issue.labels
  let assignees ← normalizeValues env issue.assignees
  let milestone := if issue.milestone = .null then none else some issue.milestone.toJsString
  let commentCount :=
    if issue.commentCount = .null then none else some (Json.toNumber? (some issue.commentCount))
  let mirrorOf := parseUpstreamIssuePointerFromBody issue.body
  let digestInput : Json := .obj [("number", issue.number), ("title", issue.title),
    ("state", issue.state), ("updatedAt", issue.updatedAt), ("labels", .arr (labels.map .str)),
    ("assignees", .arr (assignees.map .str)),
    ("milestone", textOrNull ((milestone.filter (· ≠ "")).map JsString.toLowerCase)),
    ("commentCount", numberJson (commentCount.getD none)),
    ("mirrorOf", mirrorOf.elim .null UpstreamPointer.toJson)]
  return {
    number := issue.number
    title := issue.title
    state := issue.state
    updatedAt := issue.updatedAt
    url := issue.url
    labels := labels
    assignees := assignees
    milestone := milestone
    commentCount := commentCount
    bodyDigest := if issue.body.isTruthy then some (env.sha256 issue.body.toJsString) else none
    mirrorOf := mirrorOf
    digest := env.sha256 (Json.stringify digestInput) }

/-! ### The next cache -/

/-- `clearedCache` of `buildNoStandingPriorityState`. -/
def clearedCache (cache : JsObject) (message clearedAt reason : String)
    (openIssueCount : Option ℕ) : JsObject :=
  cache.spread (.ofList
    [("number", .null), ("title", .null), ("url", .null), ("state", .str "NONE"),
      ("labels", .arr []), ("assignees", .arr []), ("milestone", .null), ("commentCount", .null),
      ("lastSeenUpdatedAt", .null), ("issueDigest", .null), ("bodyDigest", .null),
      ("mirrorOf", .null), ("cachedAtUtc", .str clearedAt), ("lastFetchSource", .str "none"),
      ("lastFetchError", .str message), ("noStandingReason", .str reason),
      ("noStandingOpenIssueCount", openIssueCount.elim .null fun n => .num n)])

def presentOr (value : Option Json) (cached : Option Json) : Json :=
  value.getD (firstPresent [cached])

def computeNextPriorityCacheState (cache : JsObject) (number : ℕ) (issueRepoSlug : Option String)
    (snapshot : Snapshot) (fetchSource : String) (fetchError : Json) (cachedAtUtc : String) :
    JsObject :=
  cache.spread (.ofList
    [("number", .num number),
      ("repository", firstTruthy [issueRepoSlug.map .str, cache.get? "repository"]),
      ("title", firstTruthy [some snapshot.title, cache.get? "title"]),
      ("url", firstTruthy [some snapshot.url, cache.get? "url"]),
      ("state", firstTruthy [some snapshot.state, cache.get? "state"]),
      ("labels", .arr (snapshot.labels.map .str)),
      ("assignees", .arr (snapshot.assignees.map .str)),
      ("milestone", presentOr (snapshot.milestone.map .str) (cache.get? "milestone")),
      ("commentCount", presentOr (snapshot.commentCount.map numberJson)
        (cache.get? "commentCount")),
      ("lastSeenUpdatedAt",
        firstTruthy [some snapshot.updatedAt, cache.get? "lastSeenUpdatedAt"]),
      ("issueDigest", .str snapshot.digest),
      ("bodyDigest", presentOr (snapshot.bodyDigest.map .str) (cache.get? "bodyDigest")),
      ("mirrorOf", presentOr (snapshot.mirrorOf.map UpstreamPointer.toJson)
        (cache.get? "mirrorOf")),
      ("cachedAtUtc", .str cachedAtUtc), ("lastFetchSource", .str fetchSource),
      ("lastFetchError", fetchError)])

/-! ### Writing it -/

/-- `shouldWriteCache`, of a cache that was an object. -/
def shouldWriteCache (previousCache nextCache : JsObject) : Bool :=
  let normalizedNext :=
    match previousCache.get? "cachedAtUtc" with
    | some cachedAtUtc => nextCache.set "cachedAtUtc" cachedAtUtc
    | none => nextCache.erase "cachedAtUtc"
  !isDeepStrictEqual previousCache normalizedNext

def shouldPersistCacheUpdate (previousCache nextCache : JsObject)
    (hasCacheFile materializeCache : Bool) : Bool :=
  if !hasCacheFile && !materializeCache then false else shouldWriteCache previousCache nextCache

def writeJson (file : Stored JsObject) (obj : JsObject) : Stored JsObject :=
  match file.value with
  | some current => if isDeepStrictEqual current obj then file else .holds obj
  | none => .holds obj

/-- `readJson(cachePath) || {}`; a file that holds no object counts as damaged. -/
def cacheOf (file : Stored JsObject) : JsObject := file.value.getD .empty

def persist (file : Stored JsObject) (materializeCache : Bool) (nextCache : JsObject) :
    Stored JsObject :=
  if shouldPersistCacheUpdate (cacheOf file) nextCache file.present materializeCache then
    writeJson file nextCache
  else file

/-! ### Runs -/

/-- A run of the sync, with what it is told: that there is no standing issue, or the number of
one, the answer to the query for it, and the snapshot of an earlier run. -/
inductive SyncRun where
  | cleared (message reason : String) (openIssueCount : Option ℕ) (clearedAt : String)
      (materializeCache : Bool)
  | resolved (number : ℕ) (issueRepoSlug : Option String) (answer : Except String Json)
      (fallbackSnapshot : Json) (cachedAtUtc : String) (materializeCache : Bool)

def cachedIssue (cache : JsObject) (fallbackSnapshot : Json) : Issue where
  number := (cache.get? "number").getD .null
  title := firstTruthy [cache.get? "title", fallbackSnapshot.get? "title"]
  state := firstTruthy [cache.get? "state", fallbackSnapshot.get? "state", some (.str "unknown")]
  updatedAt := firstTruthy [cache.get? "lastSeenUpdatedAt", fallbackSnapshot.get? "updatedAt"]
  url := firstTruthy [cache.get? "url", fallbackSnapshot.get? "url"]
  labels := firstTruthy [cache.get? "labels", fallbackSnapshot.get? "labels", some (.arr [])]
  assignees :=
    firstTruthy [cache.get? "assignees", fallbackSnapshot.get? "assignees", some (.arr [])]
  milestone := firstTruthy [cache.get? "milestone", fallbackSnapshot.get? "milestone"]
  commentCount := firstPresent [cache.get? "commentCount", fallbackSnapshot.get? "commentCount"]
  body := .null

def nextCache (cache : JsObject) : SyncRun → Option JsObject
  | .cleared message reason openIssueCount clearedAt _ =>
    some (clearedCache cache message clearedAt reason openIssueCount)
  | .resolved number issueRepoSlug answer fallbackSnapshot cachedAtUtc _ =>
    match answer.bind (normalizeIssueResult env) with
    | .ok issue => (createSnapshot env issue).map fun snapshot =>
      computeNextPriorityCacheState cache number issueRepoSlug snapshot "live" .null cachedAtUtc
    | .error message =>
      if cache.get? "number" = some (.num number) then
        (createSnapshot env (cachedIssue cache fallbackSnapshot)).map fun snapshot =>
          computeNextPriorityCacheState cache number issueRepoSlug snapshot "cache"
            (firstTruthy [some (.str message)]) cachedAtUtc
      else none

def SyncRun.materializeCache : SyncRun → Bool
  | .cleared _ _ _ _ materializeCache => materializeCache
  | .resolved _ _ _ _ _ materializeCache => materializeCache

/-- `main`, as far as it concerns the cache. -/
def main (file : Stored JsObject) (run : SyncRun) : Option (Stored JsObject) :=
  some (((nextCache env (cacheOf file) run).map (persist file run.materializeCache)).getD file)

end PriorityCache
end CompareVI.Standing
