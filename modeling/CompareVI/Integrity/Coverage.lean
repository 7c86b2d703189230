import CompareVI.Integrity.Program
import CompareVI.Framework.Loop
import CompareVI.Framework.Tokens
import Mathlib.Data.String.Basic

/-!
# What a passing report covers

The exit code of `runCommitIntegrity` is the right one for what was evaluated. But a report
that passes should speak about every commit of the scope (`IntegrityLaw`), and commits are
lost on the way: the request for a comparison returns its first page only, the pages of a
pull request end after the twentieth, and a record without a sha is dropped.
`integrityLaw_iff` says that the law holds exactly where no lost commit fails a check that
all others pass (`LosesNothing`).
-/

open Framework

namespace CompareVI.Integrity

/-! ### The law -/

inductive Check where
  | unverifiedCommit
  | unknownUnverifiedReason
  | signatureVerificationUnavailable
  | botIdentityAllowlist
  | authorAttribution
  | committerAttribution
  | emptyHeadline
  | headlineTooLong
  | missingSignatureMaterial
  | requiredTrailer
  deriving DecidableEq, Repr

def Check.Enabled (checks : Checks) : Check → Prop
  | unverifiedCommit | headlineTooLong => True
  | unknownUnverifiedReason => checks.requireKnownReasonForUnverified = true
  | signatureVerificationUnavailable => checks.requireSignatureVerificationAvailable = true
  | botIdentityAllowlist => checks.requireBotAllowlist = true
  | authorAttribution => checks.requireAuthorAttribution = true
  | committerAttribution => checks.requireCommitterAttribution = true
  | emptyHeadline => checks.requireNonEmptyHeadline = true
  | missingSignatureMaterial => checks.requireSignatureMaterialForVerified = true
  | requiredTrailer => checks.requireRequiredTrailer = true

def Check.Holds (policy : Policy) (commit : CommitFields) : Check → Prop
  | unverifiedCommit => commit.verified = true
  | unknownUnverifiedReason => commit.verified = true ∨ commit.verificationReason ≠ "unknown"
  | signatureVerificationUnavailable =>
    commit.verified = true ∨ commit.verificationReason ∉ SIGNATURE_UNAVAILABLE_REASONS
  | botIdentityAllowlist => classifySourceKind policy.sourceResolution commit = .bot →
      (∃ login ∈ loginCandidates commit, login ∈ policy.checks.allowedBotLogins) ∨
        ∃ email ∈ emailCandidates commit, ∃ found ∈ policy.checks.allowedBotEmails,
          found email = true
  | authorAttribution => commit.authorLogin ≠ none ∨ commit.authorEmail ≠ none
  | committerAttribution => commit.committerLogin ≠ none ∨ commit.committerEmail ≠ none
  | emptyHeadline => commit.messageHeadline ≠ ""
  | headlineTooLong => utf16Length commit.messageHeadline ≤ policy.checks.maxHeadlineLength
  | missingSignatureMaterial => commit.verified = true →
      commit.verificationSignaturePresent = true ∧ commit.verificationPayloadPresent = true
  | requiredTrailer => ∃ rule ∈ policy.checks.requiredTrailerRules, ∃ trailer ∈ commit.trailers,
      rule.hasKey trailer = true ∧ rule.valueMatches trailer.value = true

/-- The record satisfies every check that the policy asks for. -/
def Satisfies (policy : Policy) (raw : Json) : Prop :=
  ∀ check : Check, check.Enabled policy.checks → check.Holds policy (readFields raw)

/-- No sha comes twice, if the policy asks for that. -/
def UniqueShas (policy : Policy) (range : List Json) : Prop :=
  policy.checks.requireUniqueShas = true → (range.filterMap rawSha).Nodup

/-- A bypass that the policy admits, with complete metadata and an expiry in the future. -/
def BypassGiven (i : IntegrityInput) (policy : Policy) : Prop :=
  policy.allowBypass = true ∧
    (policy.requireReasonOwnerExpiry = true → bypassReason i ≠ none ∧ bypassOwner i ≠ none) ∧
    ∃ expiry instant, bypassExpiresAt i = some expiry ∧ i.parseDate expiry = some instant ∧
      i.now < instant

/-- A bypass is requested that is not one. -/
def GovernanceFails (i : IntegrityInput) (policy : Policy) : Prop :=
  bypassRequested i = true ∧ ¬ BypassGiven i policy

/-- How GitHub answers the requests for the commits of a scope: a page of a pull request has
100 of them, and a comparison its first page. -/
def Answers (i : IntegrityInput) (range : List Json) (firstPage : ℕ) : Scope → Prop
  | .pullRequest number => ∀ page,
      i.pullRequestPage number (page + 1) = .ok (.arr ((range.drop (page * 100)).take 100))
  | .compare baseSha headSha => ∃ payload, i.comparison baseSha headSha = .ok payload ∧
      Json.path (some payload) ["commits"] = some (.arr (range.take firstPage))

/-- A run that gets what it asks for. -/
structure Resolves (i : IntegrityInput) (scope : Scope) (policy : Policy) (range : List Json)
    (firstPage : ℕ) : Prop where
  repository : ∃ repository, i.repository = .ok repository
  token : ∃ token, i.token = .ok token
  resolved : resolveScope i = .ok scope
  loaded : ∃ policyFile, i.policyFile = .ok policyFile ∧ loadPolicy i.regex policyFile = .ok policy
  answers : Answers i range firstPage scope
  writes : i.writes = .ok ()

def listedCount (firstPage : ℕ) : Scope → ℕ
  | .pullRequest _ => 2000
  | .compare _ _ => firstPage

def examined (range : List Json) (count : ℕ) : List Json :=
  (range.take count).filter fun raw => (rawSha raw).isSome

/-- The record is not evaluated: it has no sha, or comes after those that are listed. -/
def Lost (range : List Json) (count : ℕ) (raw : Json) : Prop :=
  (raw ∈ range ∧ rawSha raw = none) ∨ raw ∈ range.drop count

/-- What is evaluated passes. -/
structure ExaminedPass (policy : Policy) (range : List Json) (count : ℕ) : Prop where
  nonempty : examined range count ≠ []
  satisfies : ∀ raw ∈ examined range count, Satisfies policy raw
  unique : UniqueShas policy (examined range count)

/-- What the exit code and the result of a run should say. -/
structure IntegrityLaw (i : IntegrityInput) (policy : Policy) (range : List Json) (count : ℕ) :
    Prop where
  exit : (runCommitIntegrity i).1 = .ok 0 ↔ ¬ GovernanceFails i policy ∧
    (ExaminedPass policy range count ∨ i.options.observeOnly = true ∨
      policy.failOnUnverified = false ∨ BypassGiven i policy)
  /-- A report that passes speaks about every commit of the scope. -/
  covers : (runCommitIntegrity i).2.result = .pass →
    (∀ raw ∈ range, Satisfies policy raw) ∧ UniqueShas policy range

/-- Where all that is evaluated passes, no lost record fails a check, and none repeats a sha. -/
def LosesNothing (i : IntegrityInput) (policy : Policy) (range : List Json) (count : ℕ) : Prop :=
  GovernanceFails i policy ∨ ¬ ExaminedPass policy range count ∨
    (∀ raw, Lost range count raw → Satisfies policy raw) ∧ UniqueShas policy range

/-! ### Normalizing twice -/

section Normalizing

theorem optionText_str {s : String} (h : optionalTrim s = some s) :
    Json.optionText (some (.str s)) = some s := by
  rw [Json.optionText, Json.stringOrEmpty_str, h]

theorem normalizePatterns_idem (value : Option Json) :
    normalizePatterns (some (.arr ((normalizePatterns value).map Json.str))) =
      normalizePatterns value := by
  have hself : ∀ text ∈ normalizePatterns value,
      Json.optionText (some (.str text)) = some text := by
    intro text htext
    obtain ⟨entry, -, hentry⟩ := List.mem_filterMap.mp htext
    exact optionText_str (optionalTrim_idem hentry)
  conv_lhs => rw [normalizePatterns, entries, List.filterMap_map, Function.comp_def]
  exact (List.filterMap_congr hself).trans List.filterMap_some

theorem normalizeLogins_idem (value : Option Json) :
    normalizeLogins (some (.arr ((normalizeLogins value).map Json.str))) =
      normalizeLogins value := by
  have hself : ∀ login ∈ normalizeLogins value,
      normalizeLower (some (.str login)) = some login := by
    intro login hlogin
    obtain ⟨entry, -, hentry⟩ := List.mem_filterMap.mp (List.mem_eraseDups.mp hlogin)
    obtain ⟨text, htext, rfl⟩ := Option.map_eq_some_iff.mp hentry
    rw [normalizeLower, optionText_str (optionalTrim_toLowerCase htext), Option.map_some,
      JsString.toLowerCase_toLowerCase]
  have hkept : ((normalizeLogins value).map Json.str).filterMap
      (fun entry => normalizeLower (some entry)) = normalizeLogins value := by
    rw [List.filterMap_map, Function.comp_def]
    exact (List.filterMap_congr hself).trans List.filterMap_some
  conv_lhs => rw [normalizeLogins, entries, hkept]
  exact Tokens.eraseDups_eraseDups _

theorem headlineLength_pos (value : Option Json) : 0 < headlineLength value := by
  unfold headlineLength
  split
  · split
    · rename_i q _ hq
      omega
    · decide
  · decide

theorem headlineLength_num {n : ℕ} (h : 0 < n) : headlineLength (some (.num n)) = n := by
  have hnumber : Json.toNumber? (some (.num (n : ℚ))) = some (n : ℚ) := by
    rw [Json.toNumber?]
  rw [headlineLength, hnumber]
  have hq : ((n : ℚ)).den = 1 ∧ 0 < ((n : ℚ)).num := by
    rw [Rat.den_natCast, Rat.num_natCast]
    exact ⟨rfl, by exact_mod_cast h⟩
  dsimp only
  rw [if_pos hq, Rat.num_natCast, Int.toNat_natCast]

variable {regex : RegexEngine}

theorem normalizeTrailerRule_idem {raw : RawTrailerRule} {rule : TrailerRule}
    (h : normalizeTrailerRule regex raw = .ok (some rule)) :
    normalizeTrailerRule regex ⟨some (.str rule.key), some (.str rule.valuePattern)⟩ =
      .ok (some rule) := by
  unfold normalizeTrailerRule at h
  split at h
  · rename_i key valuePattern hkey hpattern
    cases hregex : regex valuePattern false with
    | error message =>
      rw [hregex] at h
      cases h
    | ok valueMatches =>
      rw [hregex] at h
      obtain rfl := Option.some.inj (Except.ok.inj h)
      unfold normalizeTrailerRule
      simp only [optionText_str (optionalTrim_idem hkey),
        optionText_str (optionalTrim_idem hpattern), hregex, Except.map]
  · cases h

theorem mapM_normalizeTrailerRule_idem {raws : List RawTrailerRule}
    {rules : List (Option TrailerRule)} (h : raws.mapM (normalizeTrailerRule regex) = .ok rules) :
    ((rules.filterMap id).map fun rule =>
        (⟨some (.str rule.key), some (.str rule.valuePattern)⟩ : RawTrailerRule)).mapM
      (normalizeTrailerRule regex) = .ok ((rules.filterMap id).map some) := by
  have hsource : ∀ rule ∈ rules, ∃ raw, normalizeTrailerRule regex raw = .ok rule := by
    intro rule hrule
    induction mapM_eq_ok_iff.mp h with
    | nil => cases hrule
    | cons hhead _ ih =>
      rcases List.mem_cons.mp hrule with rfl | hrule
      · exact ⟨_, hhead⟩
      · exact ih (mapM_eq_ok_iff.mpr ‹_›) hrule
  rw [mapM_eq_ok_iff, List.forall₂_map_left_iff, List.forall₂_map_right_iff, List.forall₂_same]
  intro rule hrule
  obtain ⟨found, hfound, rfl⟩ := List.mem_filterMap.mp hrule
  obtain ⟨raw, hraw⟩ := hsource _ hfound
  exact normalizeTrailerRule_idem hraw

theorem normalizeChecks_idem {raw : RawChecks} {checks : Checks}
    (h : normalizeChecks regex raw = .ok checks) :
    normalizeChecks regex checks.raw = .ok checks := by
  unfold normalizeChecks at h
  cases hrules : raw.requiredTrailerRules.mapM (normalizeTrailerRule regex) with
  | error message =>
    rw [hrules] at h
    cases h
  | ok rules =>
    rw [hrules] at h
    dsimp only [bind, Except.bind] at h
    cases hemails : (normalizePatterns raw.allowedBotEmailPatterns).mapM
        fun pattern => regex pattern true with
    | error message =>
      rw [hemails] at h
      cases h
    | ok emails =>
      rw [hemails] at h
      obtain rfl := Except.ok.inj h
      have hkept : ((rules.filterMap id).map some).filterMap id = rules.filterMap id := by
        rw [List.filterMap_map]
        exact List.filterMap_some
      unfold normalizeChecks Checks.raw
      rw [mapM_normalizeTrailerRule_idem hrules, normalizePatterns_idem]
      dsimp only [bind, Except.bind]
      rw [hemails, hkept, normalizeLogins_idem, headlineLength_num (headlineLength_pos _)]
      rfl

end Normalizing

/-! ### The evaluation -/

section Evaluation

variable {policy : Policy} {raw : Json} {commit : CommitRecord}

theorem violationIf_eq_nil_iff {fails : Bool} {category : Category} {reason : String} :
    violationIf fails commit category reason = [] ↔ fails = false := by
  cases fails with
  | true => exact iff_of_false (List.cons_ne_nil _ _) Bool.noConfusion
  | false => exact iff_of_true rfl rfl

variable {checks : Checks} {fields : CommitFields} {duplicates seen : List String}

theorem allowlisted_iff :
    allowlisted checks fields = true ↔
      (∃ login ∈ loginCandidates fields, login ∈ checks.allowedBotLogins) ∨
        ∃ email ∈ emailCandidates fields, ∃ found ∈ checks.allowedBotEmails,
          found email = true := by
  unfold allowlisted
  simp only [Bool.or_eq_true, List.any_eq_true, List.contains_iff_mem]

theorem evaluateRequiredTrailer_eq_none_iff {rules : List TrailerRule} :
    evaluateRequiredTrailer rules fields = none ↔
      ∃ rule ∈ rules, ∃ trailer ∈ fields.trailers, rule.hasKey trailer = true ∧
        rule.valueMatches trailer.value = true := by
  unfold evaluateRequiredTrailer
  split
  · rename_i hnil
    refine iff_of_false (Option.some_ne_none _) ?_
    rintro ⟨rule, hrule, -⟩
    rw [hnil] at hrule
    cases hrule
  · split
    · rename_i hany
      refine iff_of_true rfl ?_
      simpa [List.any_eq_true, and_assoc] using hany
    · rename_i hnone
      have hfalse : ¬ ∃ rule ∈ rules, ∃ trailer ∈ fields.trailers,
          rule.hasKey trailer = true ∧ rule.valueMatches trailer.value = true := by
        simpa [List.any_eq_true, and_assoc] using hnone
      split
      · exact iff_of_false (Option.some_ne_none _) hfalse
      · exact iff_of_false (Option.some_ne_none _) hfalse

theorem trailerViolations_eq_nil_iff
    (hrules : checks.requireRequiredTrailer = true → checks.requiredTrailerRules ≠ []) :
    trailerViolations checks commit = [] ↔ (checks.requireRequiredTrailer = true →
      evaluateRequiredTrailer checks.requiredTrailerRules commit.toCommitFields = none) := by
  unfold trailerViolations
  cases hrequired : checks.requireRequiredTrailer with
  | false => simp
  | true =>
    have hsome : checks.requiredTrailerRules.isEmpty = false :=
      List.isEmpty_eq_false_iff.mpr (hrules hrequired)
    rw [hsome, Bool.not_false, Bool.and_true, if_pos rfl]
    cases evaluateRequiredTrailer checks.requiredTrailerRules commit.toCommitFields with
    | none => simp
    | some found => simp

theorem satisfies_iff : Satisfies policy raw ↔
    ((policy.checks.requireBotAllowlist = true →
        Check.botIdentityAllowlist.Holds policy (readFields raw)) ∧
      (policy.checks.requireNonEmptyHeadline = true →
        Check.emptyHeadline.Holds policy (readFields raw)) ∧
      Check.headlineTooLong.Holds policy (readFields raw) ∧
      (policy.checks.requireSignatureMaterialForVerified = true →
        Check.missingSignatureMaterial.Holds policy (readFields raw)) ∧
      Check.unverifiedCommit.Holds policy (readFields raw) ∧
      (policy.checks.requireSignatureVerificationAvailable = true →
        Check.signatureVerificationUnavailable.Holds policy (readFields raw)) ∧
      (policy.checks.requireKnownReasonForUnverified = true →
        Check.unknownUnverifiedReason.Holds policy (readFields raw)) ∧
      (policy.checks.requireAuthorAttribution = true →
        Check.authorAttribution.Holds policy (readFields raw)) ∧
      (policy.checks.requireCommitterAttribution = true →
        Check.committerAttribution.Holds policy (readFields raw)) ∧
      (policy.checks.requireRequiredTrailer = true →
        Check.requiredTrailer.Holds policy (readFields raw))) := by
  constructor
  · intro h
    exact ⟨h .botIdentityAllowlist, h .emptyHeadline, h .headlineTooLong trivial,
      h .missingSignatureMaterial, h .unverifiedCommit trivial, h .signatureVerificationUnavailable,
      h .unknownUnverifiedReason, h .authorAttribution, h .committerAttribution,
      h .requiredTrailer⟩
  · rintro ⟨hbot, hempty, hlong, hmaterial, hverified, hsignature, hunknown, hauthor, hcommitter,
      htrailer⟩ check henabled
    cases check with
    | unverifiedCommit => exact hverified
    | unknownUnverifiedReason => exact hunknown henabled
    | signatureVerificationUnavailable => exact hsignature henabled
    | botIdentityAllowlist => exact hbot henabled
    | authorAttribution => exact hauthor henabled
    | committerAttribution => exact hcommitter henabled
    | emptyHeadline => exact hempty henabled
    | headlineTooLong => exact hlong
    | missingSignatureMaterial => exact hmaterial henabled
    | requiredTrailer => exact htrailer henabled

/-- A commit has no violation exactly if it satisfies the checks that are made of it; the
trailer is checked where there are rules. -/
theorem commitViolations_eq_nil_iff
    (hcommit : normalizeCommitRecord policy.sourceResolution raw = some commit)
    (hlength : 0 < policy.checks.maxHeadlineLength)
    (hrules : policy.checks.requireRequiredTrailer = true →
      policy.checks.requiredTrailerRules ≠ []) :
    commitViolations policy.checks commit = [] ↔ Satisfies policy raw := by
  obtain ⟨sha, -, rfl⟩ := Option.map_eq_some_iff.mp hcommit
  rw [satisfies_iff]
  unfold commitViolations
  simp only [List.append_eq_nil_iff, violationIf_eq_nil_iff,
    trailerViolations_eq_nil_iff hrules, and_assoc]
  refine and_congr ?_ (and_congr ?_ (and_congr ?_ (and_congr ?_ (and_congr ?_ (and_congr ?_
    (and_congr ?_ (and_congr ?_ (and_congr ?_ ?_))))))))
  · rw [Check.Holds, ← allowlisted_iff]
    cases policy.checks.requireBotAllowlist <;> simp
  · cases policy.checks.requireNonEmptyHeadline <;> simp [Check.Holds]
  · simp [Check.Holds, hlength]
  · cases policy.checks.requireSignatureMaterialForVerified <;> simp [Check.Holds]
  · simp [Check.Holds]
  · cases policy.checks.requireSignatureVerificationAvailable <;>
      simp [Check.Holds, or_iff_not_imp_left]
  · cases policy.checks.requireKnownReasonForUnverified <;>
      simp [Check.Holds, or_iff_not_imp_left]
  · cases policy.checks.requireAuthorAttribution <;>
      simp [Check.Holds, hasAuthorAttribution, or_iff_not_imp_left,
        Option.isSome_iff_ne_none]
  · cases policy.checks.requireCommitterAttribution <;>
      simp [Check.Holds, hasCommitterAttribution, or_iff_not_imp_left,
        Option.isSome_iff_ne_none]
  · rw [Check.Holds, evaluateRequiredTrailer_eq_none_iff]

variable {commits : List CommitRecord}

theorem duplicateShas_eq_nil_iff :
    duplicateShas seen duplicates commits = [] ↔
      duplicates = [] ∧ (commits.map (·.sha)).Nodup ∧ ∀ commit ∈ commits, commit.sha ∉ seen := by
  induction commits generalizing seen duplicates with
  | nil => simp [duplicateShas]
  | cons commit rest ih =>
    unfold duplicateShas
    by_cases hseen : commit.sha ∈ seen
    · rw [if_pos (List.contains_iff_mem.mpr hseen), ih]
      refine iff_of_false ?_ fun h => h.2.2 commit List.mem_cons_self hseen
      rintro ⟨hnil, -⟩
      split at hnil
      · rename_i hcontains
        rw [hnil] at hcontains
        cases hcontains
      · exact List.append_ne_nil_of_right_ne_nil _ (List.cons_ne_nil _ _) hnil
    · rw [if_neg fun h => hseen (List.contains_iff_mem.mp h), ih, List.map_cons, List.nodup_cons,
        List.forall_mem_cons]
      refine and_congr_right fun _ => ?_
      simp only [List.mem_append, List.mem_singleton, not_or, List.mem_map, not_exists, not_and]
      constructor
      · rintro ⟨hnodup, hrest⟩
        exact ⟨⟨fun other hother hsame => (hrest other hother).2 hsame, hnodup⟩, hseen,
          fun other hother => (hrest other hother).1⟩
      · rintro ⟨⟨hnew, hnodup⟩, -, hrest⟩
        exact ⟨hnodup, fun other hother => ⟨hrest other hother, hnew other hother⟩⟩

theorem mem_of_mem_duplicateShas {sha : String} (h : sha ∈ duplicateShas seen duplicates commits) :
    sha ∈ duplicates ∨ ∃ commit ∈ commits, commit.sha = sha := by
  induction commits generalizing seen duplicates with
  | nil => exact .inl h
  | cons commit rest ih =>
    unfold duplicateShas at h
    split at h
    · rcases ih h with hsha | ⟨other, hother, hsame⟩
      · split at hsha
        · exact .inl hsha
        · rcases List.mem_append.mp hsha with hsha | hsha
          · exact .inl hsha
          · exact .inr ⟨commit, List.mem_cons_self, (List.mem_singleton.mp hsha).symm⟩
      · exact .inr ⟨other, List.mem_cons_of_mem _ hother, hsame⟩
    · rcases ih h with hsha | ⟨other, hother, hsame⟩
      · exact .inl hsha
      · exact .inr ⟨other, List.mem_cons_of_mem _ hother, hsame⟩

theorem duplicateViolations_eq_nil_iff :
    duplicateViolations commits = [] ↔ (commits.map (·.sha)).Nodup := by
  have hfound : ∀ sha ∈ duplicateShas [] [] commits,
      ((commits.find? (·.sha = sha)).map fun example' =>
        violation example' .duplicateCommitSha "duplicate commit SHA in scope") ≠ none := by
    intro sha hsha hnone
    rcases mem_of_mem_duplicateShas hsha with hnil | ⟨commit, hcommit, hsame⟩
    · cases hnil
    · have hmiss := List.find?_eq_none.mp (Option.map_eq_none_iff.mp hnone) commit hcommit
      exact hmiss (decide_eq_true hsame)
  have hnil : duplicateViolations commits = [] ↔ duplicateShas [] [] commits = [] := by
    unfold duplicateViolations
    rw [List.filterMap_eq_nil_iff]
    constructor
    · intro hall
      refine List.eq_nil_iff_forall_not_mem.mpr fun sha hsha => ?_
      exact hfound sha hsha (hall sha hsha)
    · intro hnil sha hsha
      rw [hnil] at hsha
      cases hsha
  rw [hnil, duplicateShas_eq_nil_iff]
  simp

end Evaluation

/-! ### What is examined -/

section Examined

variable {policy : Policy} {range : List Json} {count : ℕ} {collation : Comparison String}

theorem normalizeCommitRecord_isSome (source : SourceResolution) (raw : Json) :
    (normalizeCommitRecord source raw).isSome = (rawSha raw).isSome := Option.isSome_map

variable {source : SourceResolution}

theorem mem_normalizeCommitRecords {commit : CommitRecord} :
    commit ∈ normalizeCommitRecords collation source (range.take count) ↔
      ∃ raw ∈ examined range count, normalizeCommitRecord source raw = some commit := by
  unfold normalizeCommitRecords examined
  rw [(List.perm_insertionSort _ _).mem_iff, List.mem_filterMap]
  constructor
  · rintro ⟨raw, hraw, hcommit⟩
    refine ⟨raw, List.mem_filter.mpr ⟨hraw, ?_⟩, hcommit⟩
    rw [← normalizeCommitRecord_isSome source raw, hcommit, Option.isSome_some]
  · rintro ⟨raw, hraw, hcommit⟩
    exact ⟨raw, (List.mem_filter.mp hraw).1, hcommit⟩

theorem normalizeCommitRecords_shas :
    ((normalizeCommitRecords collation source (range.take count)).map (·.sha)).Perm
      ((examined range count).filterMap rawSha) := by
  unfold normalizeCommitRecords examined
  refine ((List.perm_insertionSort _ _).map _).trans (List.Perm.of_eq ?_)
  rw [List.map_filterMap, List.filterMap_filter]
  refine List.filterMap_congr fun raw _ => ?_
  unfold normalizeCommitRecord
  cases rawSha raw <;> rfl

theorem exists_commit (source : SourceResolution) {raw : Json} (h : raw ∈ examined range count) :
    ∃ commit, normalizeCommitRecord source raw = some commit :=
  Option.isSome_iff_exists.mp
    ((normalizeCommitRecord_isSome source raw).trans (List.mem_filter.mp h).2)

theorem normalizeCommitRecords_eq_nil_iff :
    normalizeCommitRecords collation source (range.take count) = [] ↔
      examined range count = [] := by
  constructor
  · intro hnil
    refine List.eq_nil_iff_forall_not_mem.mpr fun raw hraw => ?_
    obtain ⟨commit, hcommit⟩ := exists_commit source hraw
    have hmem : commit ∈ normalizeCommitRecords collation source (range.take count) :=
      mem_normalizeCommitRecords.mpr ⟨raw, hraw, hcommit⟩
    rw [hnil] at hmem
    cases hmem
  · intro hnil
    refine List.eq_nil_iff_forall_not_mem.mpr fun commit hcommit => ?_
    obtain ⟨raw, hraw, -⟩ := mem_normalizeCommitRecords.mp hcommit
    rw [hnil] at hraw
    cases hraw

theorem ite_eq_nil_iff {α : Type} {p : Prop} [Decidable p] {xs : List α} :
    (if p then xs else []) = [] ↔ (p → xs = []) := by
  by_cases hp : p
  · rw [if_pos hp]
    exact ⟨fun h _ => h, fun h => h hp⟩
  · rw [if_neg hp]
    exact iff_of_true rfl fun h => absurd h hp

variable {evaluation : Evaluation} {regex : RegexEngine}

theorem passed_iff {commits : List CommitRecord}
    (hchecks : normalizeChecks regex policy.checks.raw = .ok policy.checks)
    (heval : evaluateCommitIntegrity regex commits policy.checks.raw = .ok evaluation) :
    evaluation.passed = true ↔
      (policy.checks.requireRequiredTrailer = true → policy.checks.requiredTrailerRules ≠ []) ∧
      commits ≠ [] ∧
      (policy.checks.requireUniqueShas = true → (commits.map (·.sha)).Nodup) ∧
      ∀ commit ∈ commits, commitViolations policy.checks commit = [] := by
  unfold evaluateCommitIntegrity at heval
  rw [hchecks, Except.map] at heval
  obtain rfl := Except.ok.inj heval
  unfold Evaluation.passed
  simp only [Bool.and_eq_true, List.isEmpty_iff, List.append_eq_nil_iff, ite_eq_nil_iff,
    List.flatMap_eq_nil_iff, duplicateViolations_eq_nil_iff, List.cons_ne_nil, imp_false,
    not_and, and_assoc, ne_eq]

theorem evaluation_passed_iff (hlength : 0 < policy.checks.maxHeadlineLength)
    (hchecks : normalizeChecks regex policy.checks.raw = .ok policy.checks)
    (heval : evaluateCommitIntegrity regex
      (normalizeCommitRecords collation policy.sourceResolution (range.take count))
      policy.checks.raw = .ok evaluation) :
    evaluation.passed = true ↔ ExaminedPass policy range count := by
  rw [passed_iff hchecks heval, normalizeCommitRecords_eq_nil_iff.ne,
    normalizeCommitRecords_shas.nodup_iff]
  constructor
  · rintro ⟨hrules, hnonempty, hunique, hclean⟩
    refine ⟨hnonempty, fun raw hraw => ?_, hunique⟩
    obtain ⟨commit, hcommit⟩ := exists_commit policy.sourceResolution hraw
    exact (commitViolations_eq_nil_iff hcommit hlength hrules).mp
      (hclean commit (mem_normalizeCommitRecords.mpr ⟨raw, hraw, hcommit⟩))
  · rintro ⟨hnonempty, hsatisfies, hunique⟩
    have hrules : policy.checks.requireRequiredTrailer = true →
        policy.checks.requiredTrailerRules ≠ [] := by
      intro hrequired hnil
      obtain ⟨raw, hraw⟩ := List.exists_mem_of_ne_nil _ hnonempty
      obtain ⟨rule, hrule, -⟩ := hsatisfies raw hraw .requiredTrailer hrequired
      rw [hnil] at hrule
      cases hrule
    refine ⟨hrules, hnonempty, hunique, fun commit hmem => ?_⟩
    obtain ⟨raw, hraw, hcommit⟩ := mem_normalizeCommitRecords.mp hmem
    exact (commitViolations_eq_nil_iff hcommit hlength hrules).mpr (hsatisfies raw hraw)

theorem mem_range_iff {raw : Json} :
    raw ∈ range ↔ raw ∈ examined range count ∨ Lost range count raw := by
  constructor
  · intro hraw
    rw [← List.take_append_drop count range] at hraw
    rcases List.mem_append.mp hraw with hlisted | hdropped
    · cases hsha : rawSha raw with
      | none => exact .inr (.inl ⟨List.mem_of_mem_take hlisted, hsha⟩)
      | some sha => exact .inl (List.mem_filter.mpr ⟨hlisted, by rw [hsha, Option.isSome_some]⟩)
    · exact .inr (.inr hdropped)
  · rintro (hexamined | ⟨hraw, -⟩ | hdropped)
    · exact List.mem_of_mem_take (List.mem_filter.mp hexamined).1
    · exact hraw
    · exact List.mem_of_mem_drop hdropped

end Examined

/-! ### The listing -/

theorem listPages_eq {range : List Json} {fetchPage : ℕ → Except String Json}
    (hpages : ∀ page, fetchPage (page + 1) = .ok (.arr ((range.drop (page * 100)).take 100)))
    (left page : ℕ) :
    listPages fetchPage left (page + 1) = .ok ((range.drop (page * 100)).take (left * 100)) := by
  induction left generalizing page with
  | zero => rw [Nat.zero_mul, List.take_zero, listPages]
  | succ left ih =>
    rw [listPages, hpages]
    dsimp only [bind, Except.bind, entries]
    have hcount : (left + 1) * 100 = 100 + left * 100 := by omega
    split
    · rename_i hzero
      have hnil : range.drop (page * 100) = [] := by
        rw [List.length_take] at hzero
        exact List.length_eq_zero_iff.mp (by omega)
      rw [hnil, List.take_nil]
      rfl
    · split
      · rename_i hshort
        rw [List.length_take] at hshort
        have hall : (range.drop (page * 100)).length ≤ 100 := by omega
        rw [List.take_of_length_le hall, List.take_of_length_le (by omega)]
        rfl
      · rw [ih (page + 1), hcount, List.take_add, List.drop_drop, Nat.succ_mul]
        rfl

theorem listCommits_eq {i : IntegrityInput} {scope : Scope} {range : List Json} {firstPage : ℕ}
    (h : Answers i range firstPage scope) :
    listCommits i scope = .ok (range.take (listedCount firstPage scope)) := by
  cases scope with
  | pullRequest number =>
    have hpages := listPages_eq h 20 0
    rwa [Nat.zero_mul, List.drop_zero] at hpages
  | compare baseSha headSha =>
    obtain ⟨payload, hpayload, hcommits⟩ := h
    rw [listCommits, hpayload, listCompareCommits, Except.map, hcommits]
    rfl

/-! ### The bypass -/

section Bypass

variable {i : IntegrityInput} {policy : Policy}

theorem BypassGiven.requested (h : BypassGiven i policy) : bypassRequested i = true := by
  obtain ⟨-, -, expiry, -, hexpiry, -⟩ := h
  unfold bypassRequested
  rw [hexpiry]
  simp

theorem bypassExpired_eq_false_iff :
    bypassExpired i = false ↔ ∃ expiry instant, bypassExpiresAt i = some expiry ∧
      i.parseDate expiry = some instant ∧ i.now < instant := by
  unfold bypassExpired
  cases hexpiry : bypassExpiresAt i with
  | none => simp
  | some expiry =>
    cases hinstant : i.parseDate expiry with
    | none => simp [hinstant]
    | some instant => simp [hinstant]

/-- A request with an expiry that is an instant has no errors exactly if its reason and its
owner are there, where the policy asks for them. -/
theorem metadataErrors_eq_nil_iff {expiry : String} {instant : ℤ}
    (hexpiry : bypassExpiresAt i = some expiry) (hinstant : i.parseDate expiry = some instant) :
    metadataErrors i policy = [] ↔ (policy.requireReasonOwnerExpiry = true →
      bypassReason i ≠ none ∧ bypassOwner i ≠ none) := by
  unfold metadataErrors
  rw [hexpiry]
  dsimp only
  rw [hinstant]
  simp only [List.append_eq_nil_iff, ite_eq_nil_iff, Bool.and_eq_true, Option.isNone_iff_eq_none,
    List.cons_ne_nil, imp_false, not_and, reduceCtorEq, not_false_eq_true, and_true]
  exact ⟨fun h hrequire => ⟨h.1 hrequire, h.2 hrequire⟩,
    fun h => ⟨fun hrequire => (h hrequire).1, fun hrequire => (h hrequire).2⟩⟩

theorem status_eq_active_iff :
    (resolveBypassRequest i policy).status = .active ↔ BypassGiven i policy := by
  constructor
  · intro hactive
    unfold resolveBypassRequest at hactive
    split at hactive
    · cases hactive
    split at hactive
    · cases hactive
    split at hactive
    · cases hactive
    split at hactive
    · cases hactive
    rename_i hallow herrors hexpired
    obtain ⟨expiry, instant, hexpiry, hinstant, hfuture⟩ :=
      bypassExpired_eq_false_iff.mp (Bool.not_eq_true _ ▸ hexpired)
    have hnone : metadataErrors i policy = [] :=
      List.length_eq_zero_iff.mp (Nat.eq_zero_of_not_pos herrors)
    refine ⟨?_, (metadataErrors_eq_nil_iff hexpiry hinstant).mp hnone, expiry, instant, hexpiry,
      hinstant, hfuture⟩
    simpa using hallow
  · intro hgiven
    have hrequested := hgiven.requested
    obtain ⟨hallow, hmetadata, expiry, instant, hexpiry, hinstant, hfuture⟩ := hgiven
    have hnone := (metadataErrors_eq_nil_iff hexpiry hinstant).mpr hmetadata
    have hexpired := bypassExpired_eq_false_iff.mpr ⟨expiry, instant, hexpiry, hinstant, hfuture⟩
    unfold resolveBypassRequest
    simp [hrequested, hallow, hnone, hexpired]

theorem status_eq_none_iff :
    (resolveBypassRequest i policy).status = .none ↔ bypassRequested i = false := by
  unfold resolveBypassRequest
  by_cases hrequested : bypassRequested i = true
  · rw [if_neg (by rw [hrequested]; exact Bool.false_ne_true), hrequested]
    refine iff_of_false ?_ Bool.noConfusion
    split
    · exact BypassStatus.noConfusion
    split
    · exact BypassStatus.noConfusion
    split <;> exact BypassStatus.noConfusion
  · rw [Bool.not_eq_true] at hrequested
    rw [hrequested]
    exact iff_of_true rfl rfl

theorem governanceFails_iff :
    ((resolveBypassRequest i policy).status = .invalid ∨
      (resolveBypassRequest i policy).status = .expired) ↔ GovernanceFails i policy := by
  rw [GovernanceFails, ← status_eq_active_iff, ← Bool.not_eq_false, ← status_eq_none_iff]
  cases (resolveBypassRequest i policy).status <;> simp

end Bypass

/-! ### The run -/

section Run

variable {i : IntegrityInput} {scope : Scope} {policy : Policy} {range : List Json} {firstPage : ℕ}

variable {evaluation : Evaluation} {regex : RegexEngine}

theorem maxHeadlineLength_pos {raw : RawChecks} {checks : Checks}
    (h : normalizeChecks regex raw = .ok checks) : 0 < checks.maxHeadlineLength := by
  unfold normalizeChecks at h
  cases hrules : raw.requiredTrailerRules.mapM (normalizeTrailerRule regex) with
  | error message =>
    rw [hrules] at h
    cases h
  | ok rules =>
    rw [hrules] at h
    dsimp only [bind, Except.bind] at h
    split at h
    · cases h
    · obtain rfl := Except.ok.inj h
      exact headlineLength_pos _

theorem loadPolicy_checks {parsed : Json} (h : loadPolicy regex parsed = .ok policy) :
    ∃ raw, normalizeChecks regex raw = .ok policy.checks := by
  unfold loadPolicy at h
  dsimp only [bind, Except.bind] at h
  split at h
  · cases h
  split at h
  · cases h
  split at h
  · cases h
  rename_i _ hchecks _ _ _ _ _ _
  obtain rfl := Except.ok.inj h
  exact ⟨_, hchecks⟩

theorem evaluateRun_eq (h : Resolves i scope policy range firstPage) :
    ∃ commits evaluation, evaluateRun i = .ok (integrityReport i policy commits evaluation) ∧
      (evaluation.passed = true ↔ ExaminedPass policy range (listedCount firstPage scope)) := by
  obtain ⟨⟨repository, hrepository⟩, ⟨token, htoken⟩, hscope, ⟨policyFile, hfile, hpolicy⟩,
    hanswers, -⟩ := h
  obtain ⟨raw, hraw⟩ := loadPolicy_checks hpolicy
  have hchecks := normalizeChecks_idem hraw
  have hlisted := listCommits_eq hanswers
  cases heval : evaluateCommitIntegrity i.regex (normalizeCommitRecords i.collation
      policy.sourceResolution (range.take (listedCount firstPage scope))) policy.checks.raw with
  | error message =>
    unfold evaluateCommitIntegrity at heval
    rw [hchecks] at heval
    cases heval
  | ok evaluation =>
    refine ⟨normalizeCommitRecords i.collation policy.sourceResolution
      (range.take (listedCount firstPage scope)), evaluation, ?_,
      evaluation_passed_iff (maxHeadlineLength_pos hraw) hchecks heval⟩
    unfold evaluateRun
    simp only [bind, Except.bind, hrepository, hscope, htoken, hfile, hpolicy, hlisted, heval]
    rfl

variable {report : IntegrityReport}

theorem runCommitIntegrity_eq (hwrites : i.writes = .ok ()) (hrun : evaluateRun i = .ok report) :
    runCommitIntegrity i = if report.result = .fail ∧ report.exitCode = 1 then
        (.error (validationFailed report), report.failed (validationFailed report))
      else (.ok report.exitCode, report) := by
  unfold runCommitIntegrity
  rw [hrun]
  rw [hwrites]

theorem governanceFailure_iff (commits : List CommitRecord) (evaluation : Evaluation) :
    (integrityReport i policy commits evaluation).governanceFailure = true ↔
      GovernanceFails i policy := decide_eq_true_iff.trans governanceFails_iff

theorem result_eq_pass_iff {commits : List CommitRecord} :
    (integrityReport i policy commits evaluation).result = .pass ↔
      evaluation.passed = true ∧ ¬ GovernanceFails i policy := by
  rw [← governanceFailure_iff commits evaluation]
  unfold integrityReport
  cases evaluation.passed <;> simp

theorem exitCode_eq_zero_iff {commits : List CommitRecord} :
    (integrityReport i policy commits evaluation).exitCode = 0 ↔ ¬ GovernanceFails i policy ∧
      (evaluation.passed = true ∨ i.options.observeOnly = true ∨
        policy.failOnUnverified = false ∨ BypassGiven i policy) := by
  rw [← governanceFailure_iff commits evaluation,
    ← status_eq_active_iff]
  unfold integrityReport
  dsimp only
  cases evaluation.passed <;> cases i.options.observeOnly <;> cases policy.failOnUnverified <;>
    cases (resolveBypassRequest i policy).status <;> simp

theorem run_eq_zero_iff (hwrites : i.writes = .ok ()) (hrun : evaluateRun i = .ok report) :
    (runCommitIntegrity i).1 = .ok 0 ↔ report.exitCode = 0 := by
  rw [runCommitIntegrity_eq hwrites hrun]
  split
  · rename_i hfails
    rw [hfails.2]
    exact iff_of_false (fun h => by cases h) Nat.one_ne_zero
  · exact ⟨Except.ok.inj, congrArg Except.ok⟩

theorem run_result_eq (hwrites : i.writes = .ok ()) (hrun : evaluateRun i = .ok report) :
    (runCommitIntegrity i).2.result = report.result := by
  rw [runCommitIntegrity_eq hwrites hrun]
  split
  · rename_i hfails
    rw [hfails.1]
    rfl
  · rfl

theorem covers_iff {count : ℕ} (hpass : ExaminedPass policy range count) :
    ((∀ raw ∈ range, Satisfies policy raw) ∧ UniqueShas policy range) ↔
      (∀ raw, Lost range count raw → Satisfies policy raw) ∧ UniqueShas policy range := by
  refine and_congr_left fun _ => ⟨fun hall raw hlost => hall raw (mem_range_iff.mpr (.inr hlost)),
    fun hall raw hraw => ?_⟩
  rcases mem_range_iff.mp hraw with hexamined | hlost
  · exact hpass.satisfies raw hexamined
  · exact hall raw hlost

/-- **The integrity of commits.** The exit code is the right one, and a report that passes
speaks about every commit of the scope exactly if no lost commit fails a check that those
examined pass. -/
theorem integrityLaw_iff (h : Resolves i scope policy range firstPage) :
    IntegrityLaw i policy range (listedCount firstPage scope) ↔
      LosesNothing i policy range (listedCount firstPage scope) := by
  obtain ⟨commits, evaluation, hrun, hpassed⟩ := evaluateRun_eq h
  have hexit := (run_eq_zero_iff h.writes hrun).trans exitCode_eq_zero_iff
  have hresult : (runCommitIntegrity i).2.result = .pass ↔
      ExaminedPass policy range (listedCount firstPage scope) ∧ ¬ GovernanceFails i policy := by
    rw [run_result_eq h.writes hrun, result_eq_pass_iff, hpassed]
  rw [hpassed] at hexit
  constructor
  · rintro ⟨-, hcovers⟩
    by_cases hgovernance : GovernanceFails i policy
    · exact .inl hgovernance
    by_cases hpass : ExaminedPass policy range (listedCount firstPage scope)
    · exact .inr (.inr ((covers_iff hpass).mp (hcovers (hresult.mpr ⟨hpass, hgovernance⟩))))
    · exact .inr (.inl hpass)
  · intro hnothing
    refine ⟨hexit, fun hreported => ?_⟩
    obtain ⟨hpass, hgovernance⟩ := hresult.mp hreported
    rcases hnothing with hfails | hfails | hlost
    · exact absurd hfails hgovernance
    · exact absurd hpass hfails
    · exact (covers_iff hpass).mpr hlost

end Run

/-! ### Runs that pass -/

def rangeSha (n : ℕ) : String :=
  String.ofList ('c' :: (List.replicate (39 - (Nat.toDigits 16 n).length) '0' ++
    Nat.toDigits 16 n))

def rangeCommit (verified : Bool) (n : ℕ) : Json :=
  .obj [("sha", .str (rangeSha n)),
    ("commit", .obj [("message", .str "Update"),
      ("verification", .obj [("verified", .bool verified)])]),
    ("author", .obj [("login", .str "octocat")]),
    ("committer", .obj [("login", .str "octocat")])]

def rangePolicyFile : Json := .obj [("checks", .obj [("require_unique_shas", .bool false)])]

def findsNothing : RegexEngine := fun _ _ => .ok fun _ => false

def rangePolicy : Policy where
  failOnUnverified := true
  checks :=
    { requireBotAllowlist := false
      allowedBotLogins := []
      allowedBotEmailPatterns := []
      allowedBotEmails := []
      requireAuthorAttribution := true
      requireCommitterAttribution := true
      requireKnownReasonForUnverified := true
      requireSignatureVerificationAvailable := true
      requireUniqueShas := false
      requireNonEmptyHeadline := true
      maxHeadlineLength := 120
      requireSignatureMaterialForVerified := false
      requireRequiredTrailer := false
      requiredTrailerRules := [] }
  sourceResolution := ⟨[], []⟩
  allowBypass := false
  requireReasonOwnerExpiry := true

/-- A run on the comparison of two commits, that have the range between them. -/
def rangeInput (range : List Json) : IntegrityInput where
  options := ⟨none, some "base", some "head", none, none, none, none, [], false⟩
  env := fun _ => none
  eventPayload := none
  repository := .ok "owner/repo"
  token := .ok "token"
  policyFile := .ok rangePolicyFile
  regex := findsNothing
  collation := .ofKey id
  parseDate := fun _ => none
  now := 0
  pullRequestPage := fun _ _ => .error "not found"
  comparison := fun _ _ => .ok (.obj [("commits", .arr (range.take 250))])
  remediationFails := false
  writes := .ok ()

theorem loadPolicy_rangePolicyFile : loadPolicy findsNothing rangePolicyFile = .ok rangePolicy := by
  rfl

theorem rangeInput_resolves (range : List Json) :
    Resolves (rangeInput range) (.compare "base" "head") rangePolicy range 250 where
  repository := ⟨_, rfl⟩
  token := ⟨_, rfl⟩
  resolved := rfl
  loaded := ⟨_, rfl, loadPolicy_rangePolicyFile⟩
  answers := ⟨_, rfl, rfl⟩
  writes := rfl

def rangeFields (verified : Bool) : CommitFields where
  url := none
  messageHeadline := "Update"
  trailers := []
  verified := verified
  verificationReason := "unknown"
  verificationSignaturePresent := false
  verificationPayloadPresent := false
  authorLogin := some "octocat"
  committerLogin := some "octocat"
  authorEmail := none
  committerEmail := none

theorem path_rangeCommit (verified : Bool) (n : ℕ) {key : String} (keys : List String)
    (h : key ≠ "sha") :
    Json.path (some (rangeCommit verified n)) (key :: keys) =
      Json.path (some (rangeCommit verified 0)) (key :: keys) := by
  have hkey : (key == "sha") = false := beq_false_of_ne h
  have hget : (rangeCommit verified n).get? key = (rangeCommit verified 0).get? key := by
    simp only [rangeCommit, Json.get?, List.lookup_cons, hkey]
  rw [Json.path, Json.path, List.foldl_cons, List.foldl_cons, Option.bind_some,
    Option.bind_some, hget]

theorem readFields_rangeCommit (verified : Bool) (n : ℕ) :
    readFields (rangeCommit verified n) = rangeFields verified := by
  have hzero : readFields (rangeCommit verified 0) = rangeFields verified := by
    cases verified <;> decide +kernel
  rw [← hzero]
  unfold readFields
  simp (disch := decide) only [path_rangeCommit verified n]

theorem rawSha_rangeCommit (verified : Bool) (n : ℕ) : rawSha (rangeCommit verified n) ≠ none := by
  have hpath : Json.path (some (rangeCommit verified n)) ["sha"] = some (.str (rangeSha n)) := rfl
  have htext : JsString.trim (rangeSha n) ≠ "" := by
    intro hblank
    have hnil := congrArg String.toList hblank
    rw [rangeSha, JsString.trim, String.toList_ofList, String.toList_ofList, String.toList_empty]
      at hnil
    have hall := Tokens.trim_eq_nil_iff.mp hnil 'c' List.mem_cons_self
    exact absurd hall (by decide)
  rw [rawSha, normalizeLower, hpath, Json.optionText, Json.stringOrEmpty_str, optionalTrim,
    if_neg htext]
  exact Option.some_ne_none _

theorem satisfies_rangeCommit (n : ℕ) : Satisfies rangePolicy (rangeCommit true n) := by
  intro check henabled
  rw [readFields_rangeCommit]
  cases check with
  | unverifiedCommit => rfl
  | unknownUnverifiedReason => exact .inl rfl
  | signatureVerificationUnavailable => exact .inl rfl
  | botIdentityAllowlist => exact absurd henabled Bool.false_ne_true
  | authorAttribution => exact .inl (Option.some_ne_none _)
  | committerAttribution => exact .inl (Option.some_ne_none _)
  | emptyHeadline => exact (by decide : "Update" ≠ "")
  | headlineTooLong => exact (by decide : utf16Length "Update" ≤ 120)
  | missingSignatureMaterial => exact absurd henabled Bool.false_ne_true
  | requiredTrailer => exact absurd henabled Bool.false_ne_true

theorem examined_rangeCommits (count : ℕ) (rest : List Json) :
    examined ((List.range count).map (rangeCommit true) ++ rest) count =
      (List.range count).map (rangeCommit true) := by
  have hlength : ((List.range count).map (rangeCommit true)).length = count := by
    rw [List.length_map, List.length_range]
  rw [examined, List.take_left' hlength, List.filter_eq_self]
  intro raw hraw
  obtain ⟨n, -, rfl⟩ := List.mem_map.mp hraw
  exact Option.isSome_iff_ne_none.mpr (rawSha_rangeCommit true n)

theorem examinedPass_rangeCommits {count : ℕ} (h : 0 < count) (rest : List Json) :
    ExaminedPass rangePolicy ((List.range count).map (rangeCommit true) ++ rest) count where
  nonempty := by
    rw [examined_rangeCommits]
    exact List.ne_nil_of_length_pos (by rwa [List.length_map, List.length_range])
  satisfies := by
    rw [examined_rangeCommits]
    intro raw hraw
    obtain ⟨n, -, rfl⟩ := List.mem_map.mp hraw
    exact satisfies_rangeCommit n
  unique := fun hunique => absurd hunique Bool.false_ne_true

theorem not_governanceFails_rangeInput (range : List Json) :
    ¬ GovernanceFails (rangeInput range) rangePolicy := by
  rintro ⟨hrequested, -⟩
  exact absurd hrequested Bool.false_ne_true

def longRange : List Json := (List.range 250).map (rangeCommit true) ++ [rangeCommit false 250]

/-- The comparison is not read past its first page: the report passes, but the last commit
is not verified. -/
theorem not_integrityLaw_longRange :
    Resolves (rangeInput longRange) (.compare "base" "head") rangePolicy longRange 250 ∧
      ¬ IntegrityLaw (rangeInput longRange) rangePolicy longRange
        (listedCount 250 (.compare "base" "head")) := by
  have hresolves := rangeInput_resolves longRange
  refine ⟨hresolves, fun hlaw => ?_⟩
  obtain ⟨commits, evaluation, hrun, hpassed⟩ := evaluateRun_eq hresolves
  have hreported : (runCommitIntegrity (rangeInput longRange)).2.result = .pass := by
    rw [run_result_eq hresolves.writes hrun, result_eq_pass_iff, hpassed]
    exact ⟨examinedPass_rangeCommits (by decide) _, not_governanceFails_rangeInput _⟩
  have hlast : rangeCommit false 250 ∈ longRange :=
    List.mem_append_right _ List.mem_cons_self
  have hverified := (hlaw.covers hreported).1 _ hlast .unverifiedCommit trivial
  rw [readFields_rangeCommit] at hverified
  exact absurd hverified Bool.false_ne_true

/-- Nothing is lost of a range of one page. -/
theorem integrityLaw_shortRange :
    IntegrityLaw (rangeInput [rangeCommit true 0]) rangePolicy [rangeCommit true 0]
      (listedCount 250 (.compare "base" "head")) := by
  refine (integrityLaw_iff (rangeInput_resolves _)).mpr (.inr (.inr ⟨fun raw hlost => ?_, ?_⟩))
  · rcases hlost with ⟨hraw, hsha⟩ | hdropped
    · rw [List.mem_singleton.mp hraw] at hsha
      exact absurd hsha (rawSha_rangeCommit true 0)
    · exact absurd hdropped List.not_mem_nil
  · exact fun hunique => absurd hunique Bool.false_ne_true

end CompareVI.Integrity
