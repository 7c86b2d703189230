import CompareVI.Standing.PriorityCache

/-!
# Coherence of the cache

After a run that fetched an issue the cache should describe that issue (`Describes`). The next
cache is spread over the old one, and each field that the snapshot leaves empty falls back to the
old cache, whatever issue that described. So the cache describes the issue exactly if nothing of
the old one survives (`Inherits`), and never again once the reason of a cleared state is in it
(`hasReason_main`).
-/

open Framework

namespace CompareVI.Standing
namespace PriorityCache

variable (env : SyncEnv)

/-! ### What the cache is for -/

def SyncRun.liveSnapshot : SyncRun → Option Snapshot
  | .cleared .. => none
  | .resolved _ _ answer _ _ _ =>
    match answer.bind (normalizeIssueResult env) with
    | .ok issue => createSnapshot env issue
    | .error _ => none

inductive Field where
  | title
  | url
  | state
  | labels
  | assignees
  | milestone
  | commentCount
  | lastSeenUpdatedAt
  | bodyDigest
  | mirrorOf
  deriving DecidableEq

def Field.key : Field → String
  | .title => "title"
  | .url => "url"
  | .state => "state"
  | .labels => "labels"
  | .assignees => "assignees"
  | .milestone => "milestone"
  | .commentCount => "commentCount"
  | .lastSeenUpdatedAt => "lastSeenUpdatedAt"
  | .bodyDigest => "bodyDigest"
  | .mirrorOf => "mirrorOf"

def Snapshot.value (snapshot : Snapshot) : Field → Json
  | .title => snapshot.title
  | .url => snapshot.url
  | .state => snapshot.state
  | .labels => .arr (snapshot.labels.map .str)
  | .assignees => .arr (snapshot.assignees.map .str)
  | .milestone => textOrNull snapshot.milestone
  | .commentCount => snapshot.commentCount.elim .null numberJson
  | .lastSeenUpdatedAt => snapshot.updatedAt
  | .bodyDigest => textOrNull snapshot.bodyDigest
  | .mirrorOf => snapshot.mirrorOf.elim .null UpstreamPointer.toJson

/-- The cache has a reason for which there is no standing issue. -/
def HasReason (cache : JsObject) : Prop := (cache.get? "noStandingReason").getD .null ≠ .null

def Describes (cache : JsObject) (snapshot : Snapshot) : Prop :=
  (∀ field : Field, cache.get? field.key = some (snapshot.value field)) ∧ ¬ HasReason cache

/-- **Coherence** of a run: if it fetched an issue, the cache that is stored after it describes
that issue. -/
def Coheres (_ : Stored JsObject) (run : SyncRun) (after : Stored JsObject) : Prop :=
  ∀ snapshot, run.liveSnapshot env = some snapshot →
    ∀ cache, after = .holds cache → Describes cache snapshot

inductive Fallback where
  /-- `a || b || null`. -/
  | truthy
  /-- `a ?? b ?? null`. -/
  | present
  | never
  deriving DecidableEq

def Field.fallback : Field → Fallback
  | .title | .url | .state | .lastSeenUpdatedAt => .truthy
  | .milestone | .commentCount | .bodyDigest | .mirrorOf => .present
  | .labels | .assignees => .never

def Fallback.passesOver : Fallback → Json → Json → Prop
  | .truthy, value, cached => value.isTruthy = false ∧ cached.isTruthy = true
  | .present, value, cached => value = .null ∧ cached ≠ .null
  | .never, _, _ => False

/-- Something of the old cache survives: a field that the snapshot leaves empty and the cache
does not, or the reason of a cleared state. -/
def Inherits (cache : JsObject) (snapshot : Snapshot) : Prop :=
  (∃ field : Field, field.fallback.passesOver (snapshot.value field)
    ((cache.get? field.key).getD .null)) ∨ HasReason cache

/-- The run fetched no issue, or nothing of the stored cache survives it. -/
def Fresh (before : Stored JsObject) (run : SyncRun) : Prop :=
  ∀ snapshot, run.liveSnapshot env = some snapshot → ¬ Inherits (cacheOf before) snapshot

/-! ### Reading and writing -/

section Writing

variable {a b cache next : JsObject} {file : Stored JsObject} {key : String}

theorem get?_eq_of_isDeepStrictEqual (h : isDeepStrictEqual a b = true) (key : String) :
    a.get? key = b.get? key := by
  by_cases hkey : key ∈ a.keys ++ b.keys
  · exact of_decide_eq_true (List.all_eq_true.mp h key hkey)
  · have hnone : ∀ o : JsObject, key ∉ o.keys → o.get? key = none := by
      intro o ho
      refine List.lookup_eq_none_iff.mpr fun field hfield => ?_
      have hne : key ≠ field.1 := fun heq => ho (heq ▸ List.mem_map_of_mem hfield)
      simpa using hne
    rw [List.mem_append, not_or] at hkey
    rw [hnone a hkey.1, hnone b hkey.2]

theorem get?_of_persist {materializeCache : Bool}
    (h : persist file materializeCache next = .holds cache) (hkey : key ≠ "cachedAtUtc") :
    cache.get? key = next.get? key := by
  unfold persist at h
  split_ifs at h with hpersist
  · unfold writeJson at h
    split at h
    · next current hcurrent =>
      split_ifs at h with hsame
      · rw [h] at hcurrent
        obtain rfl : cache = current := Option.some.inj hcurrent
        exact get?_eq_of_isDeepStrictEqual hsame key
      · rw [(Stored.holds.inj h : next = cache)]
    · rw [(Stored.holds.inj h : next = cache)]
  · -- the cache is left as it is, since nothing but its date would change
    subst h
    have hsame : shouldWriteCache cache next = false := by
      simpa [shouldPersistCacheUpdate, Stored.present, cacheOf, Stored.value] using hpersist
    unfold shouldWriteCache at hsame
    rw [Bool.not_eq_false'] at hsame
    have hget := get?_eq_of_isDeepStrictEqual hsame key
    split at hget
    · rwa [JsObject.get?_set_of_ne _ _ hkey] at hget
    · rwa [JsObject.get?_erase, if_neg hkey] at hget

theorem exists_persist (cache next : JsObject) (materializeCache : Bool) :
    ∃ cache', persist (.holds cache) materializeCache next = .holds cache' := by
  unfold persist
  split_ifs
  · unfold writeJson
    dsimp only [Stored.value]
    split_ifs
    · exact ⟨cache, rfl⟩
    · exact ⟨next, rfl⟩
  · exact ⟨cache, rfl⟩

end Writing

/-! ### The fields of the next cache -/

theorem firstTruthy_spec (values : List (Option Json)) :
    firstTruthy values = .null ∨ (firstTruthy values).isTruthy = true := by
  induction values with
  | nil => exact .inl rfl
  | cons value rest ih =>
    unfold firstTruthy
    split_ifs with h
    · cases value with
      | none => exact .inl rfl
      | some value => exact .inr h
    · exact ih

/-- What a fetched issue gives: texts that are not empty, and a number of comments. -/
structure Snapshot.Clean (snapshot : Snapshot) : Prop where
  truthy : ∀ field : Field, field.fallback = .truthy →
    snapshot.value field = .null ∨ (snapshot.value field).isTruthy = true
  commentCount : snapshot.commentCount ≠ some none

def Fallback.next : Fallback → Json → Option Json → Json
  | .truthy, value, cached => firstTruthy [some value, cached]
  | .present, value, cached => firstPresent [some value, cached]
  | .never, value, _ => value

theorem next_eq_iff {fallback : Fallback} {value : Json} (cached : Option Json)
    (h : fallback = .truthy → value = .null ∨ value.isTruthy = true) :
    fallback.next value cached = value ↔ ¬ fallback.passesOver value (cached.getD .null) := by
  cases fallback with
  | truthy =>
    change (if value.isTruthy then value else firstTruthy [cached]) = value ↔
      ¬ (value.isTruthy = false ∧ _)
    rcases h rfl with rfl | htruthy
    · have hcached : Json.truthy cached = (cached.getD .null).isTruthy := by cases cached <;> rfl
      change firstTruthy [cached] = .null ↔ ¬ (false = false ∧ _)
      rw [← hcached, and_iff_right rfl]
      unfold firstTruthy
      split_ifs with hcase
      · refine iff_of_false (fun hnull => ?_) (not_not_intro hcase)
        rw [hcached, hnull] at hcase
        exact Bool.false_ne_true hcase
      · exact iff_of_true rfl hcase
    · rw [if_pos htruthy, htruthy]
      exact iff_of_true rfl fun hnot => Bool.false_ne_true hnot.1.symm
  | present =>
    change (if value ≠ .null then value else firstPresent [cached]) = value ↔ ¬ (value = .null ∧ _)
    by_cases hnull : value = .null
    · rw [if_neg (not_not_intro hnull), hnull, and_iff_right rfl, not_not]
      unfold firstPresent
      split_ifs with hcase
      · exact Iff.rfl
      · exact iff_of_true rfl (not_not.mp hcase)
    · rw [if_pos hnull]
      exact iff_of_true rfl fun hnot => hnull hnot.1
  | never => exact iff_of_true rfl not_false

theorem presentOr_map {α : Type} (f : α → Json) (hf : ∀ a, f a ≠ .null) (value : Option α)
    (cached : Option Json) :
    presentOr (value.map f) cached = firstPresent [some (value.elim .null f), cached] := by
  cases value with
  | none => rfl
  | some a => exact (if_pos (hf a)).symm

theorem get?_spread_ofList (cache : JsObject) {fields : List (String × Json)}
    (hkeys : (fields.map Prod.fst).Nodup) (key : String) :
    (cache.spread (.ofList fields)).get? key = (fields.lookup key).or (cache.get? key) := by
  have hliteral : (JsObject.ofList fields).get? key = fields.lookup key :=
    (JsObject.get?_foldl_set fields hkeys _ key).trans (by rw [JsObject.get?_empty, Option.or_none])
  rw [JsObject.get?_spread, hliteral]

section Next

variable {cache : JsObject} {number : ℕ} {issueRepoSlug : Option String} {snapshot : Snapshot}
  {fetchSource : String} {fetchError : Json} {cachedAtUtc : String}

theorem get?_computeNext (hclean : snapshot.Clean) (field : Field) :
    (computeNextPriorityCacheState cache number issueRepoSlug snapshot fetchSource fetchError
      cachedAtUtc).get? field.key =
      some (field.fallback.next (snapshot.value field) (cache.get? field.key)) := by
  have hmilestone := presentOr_map Json.str (fun _ => by simp) snapshot.milestone
    (cache.get? "milestone")
  have hbodyDigest := presentOr_map Json.str (fun _ => by simp) snapshot.bodyDigest
    (cache.get? "bodyDigest")
  have hmirrorOf := presentOr_map UpstreamPointer.toJson (fun _ => by simp [UpstreamPointer.toJson])
    snapshot.mirrorOf (cache.get? "mirrorOf")
  have hcommentCount :
      presentOr (snapshot.commentCount.map numberJson) (cache.get? "commentCount") =
        firstPresent [some (snapshot.commentCount.elim .null numberJson),
          cache.get? "commentCount"] := by
    rcases hcount : snapshot.commentCount with _ | _ | count
    · rfl
    · exact absurd hcount hclean.commentCount
    · rfl
  unfold computeNextPriorityCacheState
  rw [hmilestone, hbodyDigest, hmirrorOf, hcommentCount,
    get?_spread_ofList _ (by simp only [List.map_cons, List.map_nil]; decide)]
  cases field <;> rfl

end Next

/-! ### Fetched issues -/

variable {env}

theorem createSnapshot_spec {issue : Issue} {snapshot : Snapshot}
    (h : createSnapshot env issue = some snapshot) :
    snapshot.title = issue.title ∧ snapshot.state = issue.state ∧
      snapshot.updatedAt = issue.updatedAt ∧ snapshot.url = issue.url ∧
      snapshot.commentCount = if issue.commentCount = .null then none
        else some (Json.toNumber? (some issue.commentCount)) := by
  unfold createSnapshot at h
  simp only [bind, pure, Option.bind_eq_some_iff] at h
  obtain ⟨labels, -, assignees, -, h⟩ := h
  rw [← Option.some.inj h]
  exact ⟨rfl, rfl, rfl, rfl, rfl⟩

theorem commentsOf_spec (result : Json) :
    commentsOf result = .null ∨ ∃ count, commentsOf result = .num count := by
  unfold commentsOf
  split
  · exact .inr ⟨_, rfl⟩
  · exact .inr ⟨_, rfl⟩
  · exact .inr ⟨_, rfl⟩
  · exact .inl rfl

/-- A value is `null`, or it counts as true. -/
def NullOrTruthy (value : Json) : Prop := value = .null ∨ value.isTruthy = true

theorem normalizeIssueResult_spec {result : Json} {issue : Issue}
    (h : normalizeIssueResult env result = .ok issue) :
    NullOrTruthy issue.title ∧ NullOrTruthy issue.state ∧ NullOrTruthy issue.updatedAt ∧
      NullOrTruthy issue.url ∧
      (issue.commentCount = .null ∨ ∃ count, issue.commentCount = .num count) := by
  unfold normalizeIssueResult at h
  cases hlabels : namesOf "name" (result.get? "labels") with
  | error message =>
    rw [hlabels] at h
    cases h
  | ok labels =>
    cases hassignees : namesOf "login" (result.get? "assignees") with
    | error message =>
      rw [hlabels, hassignees] at h
      cases h
    | ok assignees =>
      rw [hlabels, hassignees] at h
      rw [← Except.ok.inj h]
      exact ⟨firstTruthy_spec _, firstTruthy_spec _, firstTruthy_spec _, firstTruthy_spec _,
        commentsOf_spec result⟩

theorem clean_of_liveSnapshot {run : SyncRun} {snapshot : Snapshot}
    (h : run.liveSnapshot env = some snapshot) : snapshot.Clean := by
  cases run with
  | cleared => cases h
  | resolved number issueRepoSlug answer fallbackSnapshot cachedAtUtc materializeCache =>
    cases answer with
    | error message => cases h
    | ok result =>
      unfold SyncRun.liveSnapshot at h
      dsimp only at h
      split at h
      · next issue hissue =>
        obtain ⟨htitle, hstate, hupdatedAt, hurl, hcount⟩ := normalizeIssueResult_spec hissue
        obtain ⟨htitle', hstate', hupdatedAt', hurl', hcount'⟩ := createSnapshot_spec h
        rw [← htitle'] at htitle
        rw [← hstate'] at hstate
        rw [← hupdatedAt'] at hupdatedAt
        rw [← hurl'] at hurl
        refine ⟨fun field hfield => ?_, ?_⟩
        · cases field with
          | title => exact htitle
          | url => exact hurl
          | state => exact hstate
          | lastSeenUpdatedAt => exact hupdatedAt
          | labels | assignees | milestone | commentCount | bodyDigest | mirrorOf => cases hfield
        · rw [hcount']
          rcases hcount with hnull | ⟨count, hnum⟩
          · rw [if_pos hnull]
            exact Option.some_ne_none _ |>.symm
          · rw [hnum, if_neg (by simp)]
            simp [Json.toNumber?]
      · cases h

/-! ### One run -/

theorem nextCache_of_live {run : SyncRun} {snapshot : Snapshot} (cache : JsObject)
    (h : run.liveSnapshot env = some snapshot) :
    ∃ number issueRepoSlug cachedAtUtc, nextCache env cache run =
      some (computeNextPriorityCacheState cache number issueRepoSlug snapshot "live" .null
        cachedAtUtc) := by
  cases run with
  | cleared => cases h
  | resolved number issueRepoSlug answer fallbackSnapshot cachedAtUtc materializeCache =>
    refine ⟨number, issueRepoSlug, cachedAtUtc, ?_⟩
    cases hissue : answer.bind (normalizeIssueResult env) with
    | error message =>
      simp only [SyncRun.liveSnapshot, hissue] at h
      cases h
    | ok issue =>
      simp only [SyncRun.liveSnapshot, hissue] at h
      simp only [nextCache, hissue, h, Option.map_some]

theorem describes_iff {cache next : JsObject} {snapshot : Snapshot} (hclean : snapshot.Clean)
    (hnext : ∀ field : Field, next.get? field.key =
      some (field.fallback.next (snapshot.value field) (cache.get? field.key)))
    (hreason : next.get? "noStandingReason" = cache.get? "noStandingReason") :
    Describes next snapshot ↔ ¬ Inherits cache snapshot := by
  unfold Describes Inherits HasReason
  rw [hreason, not_or, not_exists]
  refine and_congr_left' (forall_congr' fun field => ?_)
  rw [hnext field, Option.some.injEq]
  exact next_eq_iff _ (hclean.truthy field)

theorem get?_reason_computeNext (cache : JsObject) (number : ℕ) (issueRepoSlug : Option String)
    (snapshot : Snapshot) (fetchSource : String) (fetchError : Json) (cachedAtUtc : String) :
    (computeNextPriorityCacheState cache number issueRepoSlug snapshot fetchSource fetchError
      cachedAtUtc).get? "noStandingReason" = cache.get? "noStandingReason" := by
  unfold computeNextPriorityCacheState
  rw [get?_spread_ofList _ (by simp only [List.map_cons, List.map_nil]; decide)]
  rfl

theorem not_inherits_empty (snapshot : Snapshot) : ¬ Inherits .empty snapshot := by
  rintro (⟨field, hpasses⟩ | hreason)
  · rw [JsObject.get?_empty] at hpasses
    cases hfield : field.fallback with
    | truthy =>
      rw [hfield] at hpasses
      exact Bool.false_ne_true hpasses.2
    | present =>
      rw [hfield] at hpasses
      exact hpasses.2 rfl
    | never =>
      rw [hfield] at hpasses
      exact hpasses
  · exact hreason rfl

theorem describes_persist_iff {file : Stored JsObject} {materializeCache : Bool}
    {next cache : JsObject} {snapshot : Snapshot}
    (h : persist file materializeCache next = .holds cache) :
    Describes cache snapshot ↔ Describes next snapshot := by
  unfold Describes HasReason
  rw [get?_of_persist h (by decide)]
  refine and_congr_left' (forall_congr' fun field => ?_)
  rw [get?_of_persist h (by cases field <;> decide)]

theorem exists_next {run : SyncRun} {snapshot : Snapshot} (file : Stored JsObject)
    (h : run.liveSnapshot env = some snapshot) :
    ∃ next, main env file run = some (persist file run.materializeCache next) ∧
      (Describes next snapshot ↔ ¬ Inherits (cacheOf file) snapshot) := by
  obtain ⟨number, issueRepoSlug, cachedAtUtc, hnext⟩ := nextCache_of_live (cacheOf file) h
  have hclean := clean_of_liveSnapshot h
  refine ⟨computeNextPriorityCacheState (cacheOf file) number issueRepoSlug snapshot "live" .null
    cachedAtUtc, ?_, ?_⟩
  · unfold main
    rw [hnext]
    rfl
  · exact describes_iff hclean (get?_computeNext hclean) (get?_reason_computeNext ..)

/-- **One run**: it is coherent exactly if nothing of the stored cache survives it. -/
theorem coheres_iff_fresh (file : Stored JsObject) (run : SyncRun) :
    (∀ after, main env file run = some after → Coheres env file run after) ↔
      Fresh env file run := by
  constructor
  · intro h snapshot hlive hinherits
    obtain ⟨next, hmain, hdescribes⟩ := exists_next file hlive
    cases file with
    | missing => exact not_inherits_empty snapshot hinherits
    | damaged => exact not_inherits_empty snapshot hinherits
    | holds cache =>
      obtain ⟨cache', hpersist⟩ := exists_persist cache next run.materializeCache
      have hcache' := h _ hmain snapshot hlive cache' hpersist
      exact hdescribes.mp ((describes_persist_iff hpersist).mp hcache') hinherits
  · intro h after hmain snapshot hlive cache hholds
    obtain ⟨next, hmain', hdescribes⟩ := exists_next file hlive
    have hpersist : persist file run.materializeCache next = .holds cache := by
      rw [← hholds]
      exact Option.some.inj (hmain'.symm.trans hmain)
    exact (describes_persist_iff hpersist).mpr (hdescribes.mpr (h snapshot hlive))

/-! ### Runs -/

/-- **Coherence of the cache**: in a sequence of runs every run is coherent exactly if nothing of
the stored cache survives any of them that fetched an issue. -/
theorem cacheCoherence_iff (env : SyncEnv) (file : Stored JsObject) (runs : List SyncRun) :
    Steps (main env) (Coheres env) file runs ↔ Guarded (main env) (Fresh env) file runs :=
  steps_iff_guarded coheres_iff_fresh

theorem hasReason_nextCache {cache next : JsObject} {run : SyncRun} (h : HasReason cache)
    (hnext : nextCache env cache run = some next) : HasReason next := by
  unfold HasReason at h ⊢
  cases run with
  | cleared message reason openIssueCount clearedAt materializeCache =>
    have hget : next.get? "noStandingReason" = some (.str reason) := by
      rw [← (Option.some.inj hnext : clearedCache .. = next)]
      unfold clearedCache
      rw [get?_spread_ofList _ (by simp only [List.map_cons, List.map_nil]; decide)]
      rfl
    rw [hget]
    simp
  | resolved number issueRepoSlug answer fallbackSnapshot cachedAtUtc materializeCache =>
    have hget : next.get? "noStandingReason" = cache.get? "noStandingReason" := by
      unfold nextCache at hnext
      dsimp only at hnext
      split at hnext
      · obtain ⟨snapshot, -, rfl⟩ := Option.map_eq_some_iff.mp hnext
        exact get?_reason_computeNext ..
      · split_ifs at hnext
        obtain ⟨snapshot, -, rfl⟩ := Option.map_eq_some_iff.mp hnext
        exact get?_reason_computeNext ..
    rwa [hget]

theorem hasReason_main {file after : Stored JsObject} {run : SyncRun}
    (h : HasReason (cacheOf file)) (hmain : main env file run = some after) :
    HasReason (cacheOf after) := by
  unfold main at hmain
  cases hnext : nextCache env (cacheOf file) run with
  | none =>
    rw [hnext] at hmain
    rwa [← (Option.some.inj hmain : file = after)]
  | some next =>
    rw [hnext] at hmain
    have hafter : persist file run.materializeCache next = after := Option.some.inj hmain
    have hreason := hasReason_nextCache h hnext
    cases file with
    | missing => exact absurd rfl h
    | damaged => exact absurd rfl h
    | holds cache =>
      obtain ⟨cache', hpersist⟩ := exists_persist cache next run.materializeCache
      rw [← hafter, hpersist]
      change (cache'.get? "noStandingReason").getD .null ≠ .null
      rwa [get?_of_persist hpersist (by decide)]

/-- **The reason of a cleared state stays**: once it is stored, it survives every run that
fetches an issue. -/
theorem not_fresh_of_hasReason {file after : Stored JsObject} {runs : List SyncRun}
    {run : SyncRun} {snapshot : Snapshot} (h : HasReason (cacheOf file))
    (hruns : Framework.run (main env) file runs = some after)
    (hlive : run.liveSnapshot env = some snapshot) :
    ¬ Fresh env after run := by
  have hreason : HasReason (cacheOf after) :=
    run_invariant_of_step (fun _ _ _ hs hstep => hasReason_main hs hstep) h hruns
  exact fun hfresh => hfresh snapshot hlive (.inr hreason)

/-! ### After a cleared state -/

def plainEnv : SyncEnv := ⟨id, id⟩

def clearedRun : SyncRun :=
  .cleared "No open issues remain." "queue-empty" (some 0) "2026-03-01T00:00:00Z" true

def fetchedRun : SyncRun :=
  .resolved 9 none (.ok (.obj [("number", .num 9), ("title", .str "Land the helper"),
    ("state", .str "open"), ("url", .str "https://example.test/issues/9")])) .null
    "2026-03-02T00:00:00Z" true

/-- The reason for which there was no issue is in the cache beside the issue. -/
theorem not_coherent_fetchedRun :
    ¬ Steps (main plainEnv) (Coheres plainEnv) .missing [clearedRun, fetchedRun] := by
  intro hsteps
  obtain ⟨before, hbefore⟩ : ∃ file, main plainEnv .missing clearedRun = some file := ⟨_, rfl⟩
  obtain ⟨after, hafter⟩ : ∃ file, main plainEnv before fetchedRun = some file := ⟨_, rfl⟩
  have hcoheres := hsteps [clearedRun] fetchedRun [] before after rfl
    (by rw [run_singleton, hbefore]) hafter
  have hlive : (fetchedRun.liveSnapshot plainEnv).isSome = true := by decide +kernel
  obtain ⟨snapshot, hsnapshot⟩ := Option.isSome_iff_exists.mp hlive
  have hstored : ((main plainEnv .missing clearedRun).bind (main plainEnv · fetchedRun)).any
      (fun file => file.value.any fun cache =>
        cache.get? "noStandingReason" = some (.str "queue-empty")) = true := by decide +kernel
  rw [hbefore, Option.bind_some, hafter] at hstored
  rw [Option.any_some] at hstored
  obtain ⟨cache, hcache, hreason⟩ := (Option.any_eq_true _ _).mp hstored
  have hholds : after = .holds cache := by
    cases after with
    | missing => cases hcache
    | damaged => cases hcache
    | holds stored => exact congrArg Stored.holds (Option.some.inj hcache)
  refine (hcoheres snapshot hsnapshot cache hholds).2 ?_
  unfold HasReason
  rw [of_decide_eq_true hreason]
  simp

end PriorityCache
end CompareVI.Standing
