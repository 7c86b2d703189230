import CompareVI.Merge.ReviewGate

/-!
# Soundness of the Copilot queue gate

The gate is sound if it passes only on evidence for the head it was asked about, and blames
actionable comments exactly where there are some. Three things come in between.

* The comments of the service are counted over all threads, the resolved and outdated ones
  too, so a thread that has been dealt with blocks (`actionableCommentCount_pos`).
* A signal says itself what is current; nothing compares its head, or that of its run, with
  the head that was asked about.
* A data error is reported first, and so is a signal for a merge group, whose pull request
  is never resolved.

`queueGateLaw_iff` says exactly when none of them does harm.
-/

open Framework

namespace CompareVI.ReviewGate

-- texts are never evaluated in the proofs
attribute [local irreducible] normalizeSha normalizeIso isCopilotLogin textOr

variable (rt : Runtime)

/-! ### The law -/

def Evaluation.inScope (e : Evaluation) : Bool :=
  !e.pullRequest.draft && e.isGated && isCanonicalRepository e.repository

/-- The head that the gate was asked about: the live one for a merge group, else the
option. -/
def Basis.askedHead (o : Options) : Basis → Option String
  | live source answer => normalizeShaText (liveOptions (resolvedOptions o source) answer).headSha
  | _ => normalizeShaText o.headSha

/-- The thread holds a Copilot comment on the head. -/
def OnHead (thread : Json) (headSha : Option String) : Prop :=
  ∃ comment ∈ copilotComments rt thread headSha, comment.isCurrentHead = true

/-- An unresolved and non-outdated thread holds a Copilot comment on the current head. A
signal has a flag for it. -/
def Basis.HoldsThread (o : Options) : Basis → Prop
  | metadata _ _ => False
  | signal report => signalActionableThreads report ≠ []
  | live source answer =>
    ∃ thread ∈ extractThreadNodes answer.threads, isOpen thread = true ∧
      OnHead rt thread (liveHeadSha (resolvedOptions o source) source answer)

/-- A Copilot review or a cleanly completed Copilot run is there for the head. -/
def Evaluation.EvidenceFor (e : Evaluation) (head : Option String) : Prop :=
  ∃ sha, head = some sha ∧ ((∃ review ∈ e.reviews, review.commitId = some sha) ∨
    (e.reviewRunCompletedClean = true ∧ e.reviewRun.headSha = some sha))

/-- The gate passes only without errors and open threads, and on evidence for the head; a
clean follow-up on a stale review is excepted. -/
def PassesOnEvidence (o : Options) (basis : Basis) (report : Report) : Prop :=
  report.verdict.status = .pass →
    report.errors = [] ∧ ¬ basis.HoldsThread rt o ∧
      ((basis.evaluation rt o).EvidenceFor (basis.askedHead o) ∨
        report.staleReviewCleanFollowup = true)

/-- The gate blames actionable comments exactly if there are some. -/
def BlamesThreads (o : Options) (basis : Basis) (report : Report) : Prop :=
  .actionableCommentsPresent ∈ report.verdict.reasons ↔ basis.HoldsThread rt o

/-- The gate is sound on what it decided on; where a lookup failed it does not pass and
blames nobody. -/
def GateLaw (i : GateRun) : Prop :=
  i.options.copilotReviewStrategy = .githubReviewRequired →
    let report := (runCopilotReviewGate rt i).report
    match lastBasis rt i with
    | .error _ => report.verdict.status ≠ .pass ∧
        .actionableCommentsPresent ∉ report.verdict.reasons
    | .ok basis => (basis.evaluation rt i.options).inScope = true →
        PassesOnEvidence rt i.options basis report ∧ BlamesThreads rt i.options basis report

/-! ### The condition -/

/-- The gate relies on a review that is flagged as current or on a clean run, with nothing
against it. -/
def Evaluation.relies (e : Evaluation) : Bool :=
  e.errors = [] && e.actionableThreadCount = 0 && e.reviewRunState ≠ "in_progress" &&
    e.reviewRunState ≠ "completed-failure" &&
    (e.reviewRunCompletedClean || e.latestIsCurrentHead)

/-- The condition under which the gate is sound on what it decides on. -/
def Basis.Sound (o : Options) : Basis → Prop
  | metadata _ _ => True
  | signal report =>
    let e := signalEvaluation rt (resolvedOptions o (mergeGroupSource o)) report
    (o.eventName = "merge_group" ∨ e.errors ≠ [] → signalActionableThreads report = []) ∧
      (o.eventName ≠ "merge_group" → e.relies = true →
        e.EvidenceFor (normalizeShaText o.headSha) ∨ e.staleReviewCleanFollowup = true)
  | live source answer =>
    let e := liveEvaluation rt (resolvedOptions o source) source answer
    let head := liveHeadSha (resolvedOptions o source) source answer
    (e.errors ≠ [] → ∀ thread ∈ extractThreadNodes answer.threads,
      OnHead rt thread head → isOpen thread = false) ∧
    (e.errors = [] → (∃ thread ∈ extractThreadNodes answer.threads, OnHead rt thread head) →
      ∃ thread ∈ extractThreadNodes answer.threads, isOpen thread = true ∧
        OnHead rt thread head) ∧
    (normalizeShaText (liveOptions (resolvedOptions o source) answer).headSha = none →
      e.errors = [] → e.reviewRunCompletedClean = true → e.staleReviewCleanFollowup = true)

/-- The condition under which the gate is sound. -/
def GateRun.Sound (i : GateRun) : Prop :=
  i.options.copilotReviewStrategy = .githubReviewRequired →
    ∀ basis, lastBasis rt i = .ok basis →
      (basis.evaluation rt i.options).inScope = true → basis.Sound rt i.options

variable {rt}

/-! ### Counts -/

variable {basis : Basis} {e : Evaluation} {i : GateRun} {sha : String}

theorem actionableThreadCount_pos :
    0 < e.actionableThreadCount ↔ ∃ thread ∈ e.threads, thread.actionable = true := by
  rw [Evaluation.actionableThreadCount, List.length_pos_iff_exists_mem]
  simp only [List.mem_filter]

theorem actionableCommentCount_pos :
    0 < e.actionableCommentCount ↔ ∃ thread ∈ e.threads, thread.actionableComments ≠ [] := by
  rw [Evaluation.actionableCommentCount]
  induction e.threads with
  | nil => simp
  | cons thread threads ih =>
    rw [List.map_cons, List.sum_cons, List.exists_mem_cons_iff, ← ih, ← List.length_pos_iff]
    omega

theorem latestIsCurrentHead_iff :
    e.latestIsCurrentHead = true ↔
      ∃ review, e.reviews.head? = some review ∧ review.isCurrentHead = true := by
  rw [Evaluation.latestIsCurrentHead, Evaluation.latestCopilotReview, Option.any_eq_true]

theorem currentHeadReviewCount_pos (h : e.latestIsCurrentHead = true) :
    e.currentHeadReviewCount ≠ 0 := by
  obtain ⟨review, hhead, hcurrent⟩ := latestIsCurrentHead_iff.mp h
  rw [Evaluation.currentHeadReviewCount, Ne, List.length_eq_zero_iff, List.filter_eq_nil_iff]
  intro hall
  exact hall review (List.mem_of_head? hhead) hcurrent

/-! ### The verdict -/

theorem verdict_of_unresolved (h : e.mergeGroupSourceResolved = false) :
    e.verdict = ⟨.fail, .error, [.mergeGroupSourceUnresolved]⟩ := by
  have hevent : e.eventName = "merge_group" := by
    by_contra hne
    simp [Evaluation.mergeGroupSourceResolved, hne] at h
  rw [Evaluation.verdict, h]
  simp [hevent]

theorem verdict_of_inScope (hscope : e.inScope = true)
    (hresolved : e.mergeGroupSourceResolved = true)
    (hstrategy : e.copilotReviewStrategy = .githubReviewRequired) :
    e.verdict =
      if e.errors ≠ [] then ⟨.fail, .error, [.dataError]⟩
      else if 0 < e.actionableThreadCount || 0 < e.actionableCommentCount then
        ⟨.fail, .blocked, [.actionableCommentsPresent]⟩
      else if e.reviewRunState = "in_progress" then ⟨.fail, .blocked, [.reviewRunActive]⟩
      else if e.reviewRunState = "completed-failure" then ⟨.fail, .blocked, [.reviewRunFailed]⟩
      else if e.latestCopilotReview = none then e.verdictWithoutReview
      else if !e.latestIsCurrentHead || e.currentHeadReviewCount = 0 then
        e.verdictWithStaleReview
      else ⟨.pass, .ready, [.currentHeadReviewClean]⟩ := by
  rw [Evaluation.inScope, Bool.and_eq_true, Bool.and_eq_true, Bool.not_eq_true'] at hscope
  obtain ⟨⟨hdraft, hgated⟩, hcanonical⟩ := hscope
  rw [Evaluation.verdict, hresolved, hdraft, hgated, hcanonical, hstrategy]
  simp

theorem followup_spec (h : e.staleReviewCleanFollowup = true) :
    e.latestCopilotReview ≠ none ∧ e.latestIsCurrentHead = false := by
  simp only [Evaluation.staleReviewCleanFollowup, Bool.and_eq_true, Bool.not_eq_true'] at h
  obtain ⟨⟨⟨⟨⟨⟨⟨hsome, -⟩, -⟩, hstale⟩, -⟩, -⟩, -⟩, -⟩ := h
  exact ⟨Option.isSome_iff_ne_none.mp hsome, hstale⟩

theorem latestIsCurrentHead_of_none (h : e.latestCopilotReview = none) :
    e.latestIsCurrentHead = false := by
  rw [Evaluation.latestIsCurrentHead, h]
  rfl

section

variable (hthreads : e.actionableThreadCount = 0) (hcomments : e.actionableCommentCount = 0)
  (hstrategy : e.copilotReviewStrategy = .githubReviewRequired)

include hthreads hcomments hstrategy

theorem verdictWithoutReview_spec :
    (e.verdictWithoutReview.status = .pass ↔ e.reviewRunCompletedClean = true) ∧
      .actionableCommentsPresent ∉ e.verdictWithoutReview.reasons := by
  rw [Evaluation.verdictWithoutReview, hthreads, hcomments, hstrategy]
  cases e.reviewRunCompletedClean with
  | true => simp
  | false => by_cases hstate : e.reviewRunState = "unobserved" <;> simp [hstate]

theorem verdictWithStaleReview_spec : (e.verdictWithStaleReview.status = .pass ↔
        e.reviewRunCompletedClean = true ∨ e.staleReviewCleanFollowup = true) ∧
      .actionableCommentsPresent ∉ e.verdictWithStaleReview.reasons := by
  rw [Evaluation.verdictWithStaleReview, hthreads, hcomments, hstrategy]
  cases e.reviewRunCompletedClean with
  | true => simp
  | false =>
    cases e.staleReviewCleanFollowup with
    | true => simp
    | false => cases e.latestIsCurrentHead <;> simp

theorem verdict_of_clear (v : Verdict)
    (hv : v = if e.latestCopilotReview = none then e.verdictWithoutReview
      else if !e.latestIsCurrentHead || e.currentHeadReviewCount = 0 then
        e.verdictWithStaleReview
      else ⟨.pass, .ready, [.currentHeadReviewClean]⟩) :
    (v.status = .pass ↔ e.reviewRunCompletedClean = true ∨ e.latestIsCurrentHead = true ∨
        e.staleReviewCleanFollowup = true) ∧
      .actionableCommentsPresent ∉ v.reasons := by
  by_cases hnone : e.latestCopilotReview = none
  · -- without a review there is no follow-up either
    have hfollowup : e.staleReviewCleanFollowup ≠ true := fun h => (followup_spec h).1 hnone
    rw [hv, if_pos hnone, latestIsCurrentHead_of_none hnone]
    simpa [hfollowup] using verdictWithoutReview_spec hthreads hcomments hstrategy
  rw [hv, if_neg hnone]
  cases hlatest : e.latestIsCurrentHead with
  | true =>
    have hcount := currentHeadReviewCount_pos hlatest
    simp [hcount]
  | false => simpa using verdictWithStaleReview_spec hthreads hcomments hstrategy

end

theorem verdict_spec (hscope : e.inScope = true)
    (hresolved : e.mergeGroupSourceResolved = true)
    (hstrategy : e.copilotReviewStrategy = .githubReviewRequired) :
    (e.verdict.status = .pass ↔
      e.errors = [] ∧ e.actionableThreadCount = 0 ∧ e.actionableCommentCount = 0 ∧
        e.reviewRunState ≠ "in_progress" ∧ e.reviewRunState ≠ "completed-failure" ∧
        (e.reviewRunCompletedClean = true ∨ e.latestIsCurrentHead = true ∨
          e.staleReviewCleanFollowup = true)) ∧
      (.actionableCommentsPresent ∈ e.verdict.reasons ↔
        e.errors = [] ∧ (0 < e.actionableThreadCount ∨ 0 < e.actionableCommentCount)) := by
  rw [verdict_of_inScope hscope hresolved hstrategy]
  by_cases herrors : e.errors = []
  swap
  · simp [herrors]
  by_cases hthreads : e.actionableThreadCount = 0
  swap
  · simp [herrors, hthreads, Nat.pos_of_ne_zero hthreads]
  by_cases hcomments : e.actionableCommentCount = 0
  swap
  · simp [herrors, hcomments, Nat.pos_of_ne_zero hcomments]
  by_cases hactive : e.reviewRunState = "in_progress"
  · simp [herrors, hthreads, hcomments, hactive]
  by_cases hfailed : e.reviewRunState = "completed-failure"
  · simp [herrors, hthreads, hcomments, hfailed]
  rw [(if_neg (not_not_intro herrors)), if_neg (by simp [hthreads, hcomments]), if_neg hactive,
    if_neg hfailed]
  obtain ⟨hpass, hreasons⟩ := verdict_of_clear hthreads hcomments hstrategy _ rfl
  refine ⟨hpass.trans ?_, iff_of_false hreasons ?_⟩
  · simp [herrors, hthreads, hcomments, hactive, hfailed]
  · simp [hthreads, hcomments]

/-! ### The answer of the service -/

theorem mem_newestFirst {α : Type} {time : α → Option String} {id : α → String} {xs : List α}
    {x : α} : x ∈ newestFirst rt time id xs ↔ x ∈ xs := List.mem_mergeSort

variable {thread : Json} {known : Option Json} {headSha : Option String}

theorem normalizeThread_spec {t : Thread} (h : normalizeThread rt thread headSha = some t) :
    (t.actionable = true ↔ isOpen thread = true ∧ OnHead rt thread headSha) ∧
      (t.actionableComments ≠ [] ↔ OnHead rt thread headSha) := by
  have hhead : (copilotComments rt thread headSha).filter Comment.isCurrentHead ≠ [] ↔
      OnHead rt thread headSha := by
    rw [Ne, List.filter_eq_nil_iff, OnHead]
    push Not
    rfl
  rw [normalizeThread] at h
  split at h
  · cases h
  · cases h
    exact ⟨by rw [Bool.and_eq_true, decide_eq_true_eq, hhead], hhead⟩

theorem exists_normalizeThread (h : OnHead rt thread headSha) :
    ∃ t, normalizeThread rt thread headSha = some t := by
  obtain ⟨comment, hmem, -⟩ := h
  rw [normalizeThread]
  split
  · next hnil =>
    rw [hnil] at hmem
    cases hmem
  · exact ⟨_, rfl⟩

variable {o : Options} {source : Option MergeGroupSource} {answer : LiveAnswer}

/-- **Threads are counted** where they are open and hold a comment on the head. -/
theorem live_actionableThreadCount_pos :
    0 < (liveEvaluation rt o source answer).actionableThreadCount ↔
      ∃ thread ∈ extractThreadNodes answer.threads, isOpen thread = true ∧
        OnHead rt thread (liveHeadSha o source answer) := by
  rw [actionableThreadCount_pos]
  constructor
  · rintro ⟨t, ht, hactionable⟩
    obtain ⟨thread, hthread, hsome⟩ := List.mem_filterMap.mp ht
    exact ⟨thread, hthread, (normalizeThread_spec hsome).1.mp hactionable⟩
  · rintro ⟨thread, hthread, hopen, hhead⟩
    obtain ⟨t, hsome⟩ := exists_normalizeThread hhead
    exact ⟨t, List.mem_filterMap.mpr ⟨thread, hthread, hsome⟩,
      (normalizeThread_spec hsome).1.mpr ⟨hopen, hhead⟩⟩

/-- **Comments are counted** on every thread, open or not. -/
theorem live_actionableCommentCount_pos :
    0 < (liveEvaluation rt o source answer).actionableCommentCount ↔
      ∃ thread ∈ extractThreadNodes answer.threads,
        OnHead rt thread (liveHeadSha o source answer) := by
  rw [actionableCommentCount_pos]
  constructor
  · rintro ⟨t, ht, hcomments⟩
    obtain ⟨thread, hthread, hsome⟩ := List.mem_filterMap.mp ht
    exact ⟨thread, hthread, (normalizeThread_spec hsome).2.mp hcomments⟩
  · rintro ⟨thread, hthread, hhead⟩
    obtain ⟨t, hsome⟩ := exists_normalizeThread hhead
    exact ⟨t, List.mem_filterMap.mpr ⟨thread, hthread, hsome⟩,
      (normalizeThread_spec hsome).2.mpr hhead⟩

theorem optionalTrim_empty : optionalTrim "" = none := rfl

theorem normalizeSha_str (s : Option String) : normalizeSha (s.map Json.str) =
    normalizeShaText s := by
  cases s with
  | none => simp [normalizeSha, normalizeShaText, Json.optionText, optionText, optionalTrim_empty]
  | some s => simp [normalizeSha, normalizeShaText, Json.optionText, optionText]

theorem toLowerCase_ne_empty {s : String} (h : s ≠ "") : JsString.toLowerCase s ≠ "" := by
  intro hlower
  have hlist := congrArg String.toList hlower
  rw [JsString.toLowerCase, String.toList_ofList, String.toList_empty, List.map_eq_nil_iff,
    String.toList_eq_nil_iff] at hlist
  exact h hlist

theorem normalizeShaText_idem (s : Option String) :
    normalizeShaText (normalizeShaText s) = normalizeShaText s := by
  cases s with
  | none => rfl
  | some s =>
    by_cases hnil : JsString.trim s = ""
    · simp [normalizeShaText, optionText, optionalTrim, hnil]
    · simp [normalizeShaText, optionText, optionalTrim, hnil, toLowerCase_ne_empty hnil]

theorem liveHeadSha_def (o : Options) (source : Option MergeGroupSource) (answer : LiveAnswer) :
    liveHeadSha o source answer = normalizeShaText
      (((livePullRequest o answer).bind LivePull.headSha).or (liveOptions o answer).headSha) := by
  rw [← normalizeSha_str]
  rfl

theorem liveHeadSha_eq (o : Options) (source : Option MergeGroupSource) (answer : LiveAnswer) :
    liveHeadSha o source answer = none ∨
      liveHeadSha o source answer = normalizeShaText (liveOptions o answer).headSha := by
  rw [liveHeadSha_def, liveOptions, resolveLiveHeadOptions]
  by_cases hevent : o.eventName = "merge_group"
  · rw [if_pos hevent]
    cases hsha : (livePullRequest o answer).bind LivePull.headSha with
    | none => exact .inr rfl
    | some sha =>
      by_cases hnil : sha = ""
      · -- an empty head is passed over for the lookups and compared with all the same
        subst hnil
        exact .inl rfl
      · right
        dsimp only
        rw [if_neg hnil, Option.some_or]
        rw [normalizeShaText_idem]
  · rw [if_neg hevent, livePullRequest, if_neg hevent]
    exact .inr rfl

/-! ### Evidence in the answer of the service -/

theorem selectCopilotWorkflowRun_spec {runs : List Json} {head : Option String} {run : Json}
    (h : selectCopilotWorkflowRun rt runs head = some run)
    (hsha : normalizeShaText head = some sha) :
    normalizeSha (Json.path (some run) ["head_sha"]) = some sha := by
  have hmem := mem_newestFirst.mp (List.mem_of_head? h)
  have hhead := (List.mem_filter.mp hmem).2
  rw [hsha] at hhead
  simpa using hhead

theorem normalizeSha_nullish_or {value other : Option Json} (h : normalizeSha value = some sha) :
    normalizeSha ((nullish value).or other) = some sha := by
  have hempty : ∀ v, Json.stringOrEmpty v = "" → normalizeSha v ≠ some sha := by
    intro v hv
    simp [normalizeSha, Json.optionText, hv, optionalTrim_empty]
  cases value with
  | none => exact absurd h (hempty none rfl)
  | some v =>
    by_cases hnull : v = .null
    · subst hnull
      exact absurd h (hempty (some .null) rfl)
    · have hkept : nullish (some v) = some v := by simp [nullish, hnull]
      rw [hkept, Option.some_or]
      exact h

/-- **The run of the records** is one of the head that was asked about. -/
theorem live_reviewRun_headSha (hsha : normalizeShaText (liveOptions o answer).headSha = some sha) :
    (liveEvaluation rt o source answer).reviewRun.headSha = some sha := by
  have hshow : (liveEvaluation rt o source answer).reviewRun = buildReviewRunFromLiveRun
      (loadLiveReviewRun rt (liveOptions o answer) answer.runs) (liveOptions o answer) := rfl
  rw [hshow, buildReviewRunFromLiveRun]
  split
  · next hobject =>
    cases hload : loadLiveReviewRun rt (liveOptions o answer) answer.runs with
    | none =>
      rw [hload] at hobject
      cases hobject
    | some run =>
      have hselect : selectCopilotWorkflowRun rt answer.runs (liveOptions o answer).headSha =
          some run := by
        rw [loadLiveReviewRun] at hload
        split at hload
        · exact hload
        · cases hload
      exact normalizeSha_nullish_or (selectCopilotWorkflowRun_spec hselect hsha)
  · exact hsha

/-- **A current review** in the records is one of the head that was asked about. -/
theorem live_evidence_of_review
    (h : (liveEvaluation rt o source answer).latestIsCurrentHead = true) :
    (liveEvaluation rt o source answer).EvidenceFor
      (normalizeShaText (liveOptions o answer).headSha) := by
  obtain ⟨review, hhead, hcurrent⟩ := latestIsCurrentHead_iff.mp h
  have hmem : review ∈ (liveEvaluation rt o source answer).reviews := List.mem_of_head? hhead
  have hcommit : review.isCurrentHead = isHead (liveHeadSha o source answer) review.commitId := by
    obtain ⟨raw, -, rfl⟩ := List.mem_map.mp (mem_newestFirst.mp hmem)
    rfl
  rw [hcurrent, isHead] at hcommit
  obtain ⟨hsome, heq⟩ := Bool.and_eq_true_iff.mp hcommit.symm
  obtain ⟨sha, hsha⟩ := Option.isSome_iff_exists.mp hsome
  obtain hnone | hasked := liveHeadSha_eq o source answer
  · rw [hnone] at hsha
    cases hsha
  · exact ⟨sha, hasked.symm.trans hsha, .inl ⟨review, hmem, (of_decide_eq_true heq).trans hsha⟩⟩

/-! ### Soundness -/

theorem live_mergeGroupSourceResolved
    (h : o.eventName = "merge_group" → source.isSome = true) :
    (liveEvaluation rt o source answer).mergeGroupSourceResolved = true := by
  rw [Evaluation.mergeGroupSourceResolved, Bool.or_eq_true]
  by_cases hevent : o.eventName = "merge_group"
  · exact .inr (h hevent)
  · exact .inl (decide_eq_true hevent)

/-- **Blame**, on the answer of the service: nothing that blocks hides an open thread, and
no thread that has been dealt with is blamed. -/
theorem live_blames_iff (he : e = liveEvaluation rt o source answer) (hscope : e.inScope = true)
    (hresolved : e.mergeGroupSourceResolved = true)
    (hstrategy : e.copilotReviewStrategy = .githubReviewRequired) :
    (.actionableCommentsPresent ∈ e.verdict.reasons ↔
        ∃ thread ∈ extractThreadNodes answer.threads, isOpen thread = true ∧
          OnHead rt thread (liveHeadSha o source answer)) ↔
      (e.errors ≠ [] → ∀ thread ∈ extractThreadNodes answer.threads,
        OnHead rt thread (liveHeadSha o source answer) → isOpen thread = false) ∧
      (e.errors = [] → (∃ thread ∈ extractThreadNodes answer.threads,
          OnHead rt thread (liveHeadSha o source answer)) →
        ∃ thread ∈ extractThreadNodes answer.threads, isOpen thread = true ∧
          OnHead rt thread (liveHeadSha o source answer)) := by
  rw [(verdict_spec hscope hresolved hstrategy).2, he, live_actionableThreadCount_pos,
    live_actionableCommentCount_pos]
  by_cases herrors : (liveEvaluation rt o source answer).errors = []
  · simp only [herrors, true_and, ne_eq, not_true_eq_false, false_implies, true_implies]
    constructor
    · exact fun h hany => h.mp (.inr hany)
    · intro h
      refine ⟨fun hany => hany.elim id h, .inl⟩
  · simp only [herrors, false_and, false_iff, ne_eq, not_false_eq_true, true_implies,
      false_implies, and_true]
    constructor
    · intro h thread hthread hhead
      exact Bool.eq_false_iff.mpr fun hopen => h ⟨thread, hthread, hopen, hhead⟩
    · rintro h ⟨thread, hthread, hopen, hhead⟩
      rw [h thread hthread hhead] at hopen
      cases hopen

theorem onHead_none (thread : Json) : ¬ OnHead rt thread none := by
  rintro ⟨comment, hmem, hcurrent⟩
  obtain ⟨raw, -, hsome⟩ := List.mem_filterMap.mp hmem
  rw [normalizeComment] at hsome
  split at hsome
  · cases hsome
    cases hcurrent
  · cases hsome

/-- **Passing**, on the answer of the service: there is evidence for the head, if there is a
head at all. -/
theorem live_passes_iff (he : e = liveEvaluation rt o source answer) (hscope : e.inScope = true)
    (hresolved : e.mergeGroupSourceResolved = true)
    (hstrategy : e.copilotReviewStrategy = .githubReviewRequired) :
    (e.verdict.status = .pass →
        e.EvidenceFor (normalizeShaText (liveOptions o answer).headSha) ∨
          e.staleReviewCleanFollowup = true) ↔
      (normalizeShaText (liveOptions o answer).headSha = none →
        e.errors = [] → e.reviewRunCompletedClean = true → e.staleReviewCleanFollowup = true) := by
  rw [(verdict_spec hscope hresolved hstrategy).1]
  cases hasked : normalizeShaText (liveOptions o answer).headSha with
  | some sha =>
    simp only [reduceCtorEq, false_implies, iff_true]
    rintro ⟨-, -, -, -, -, hclean | hlatest | hfollowup⟩
    · rw [he] at hclean ⊢
      exact .inl ⟨sha, rfl, .inr ⟨hclean, live_reviewRun_headSha hasked⟩⟩
    · rw [he] at hlatest ⊢
      exact .inl (hasked ▸ live_evidence_of_review hlatest)
    · exact .inr hfollowup
  | none =>
    have hnot : ¬ e.EvidenceFor none := fun h => by
      obtain ⟨sha, hsha, -⟩ := h
      cases hsha
    have hhead : liveHeadSha o source answer = none := by
      obtain h | h := liveHeadSha_eq o source answer
      · exact h
      · rw [h, hasked]
    -- without a head nothing is current, so a clean run is all that the gate can rely on
    have hcomments : e.actionableCommentCount = 0 := by
      refine Nat.eq_zero_of_not_pos fun hpos => ?_
      rw [he, live_actionableCommentCount_pos, hhead] at hpos
      obtain ⟨thread, -, hon⟩ := hpos
      exact onHead_none thread hon
    have hthreads : e.actionableThreadCount = 0 := by
      refine Nat.eq_zero_of_not_pos fun hpos => ?_
      rw [he, live_actionableThreadCount_pos, hhead] at hpos
      obtain ⟨thread, -, -, hon⟩ := hpos
      exact onHead_none thread hon
    have hlatest : ¬ e.latestIsCurrentHead = true := fun h => by
      rw [he] at h
      obtain ⟨sha, hsha, -⟩ := live_evidence_of_review h
      rw [hasked] at hsha
      cases hsha
    have hstate : e.reviewRunCompletedClean = true →
        e.reviewRunState ≠ "in_progress" ∧ e.reviewRunState ≠ "completed-failure" := by
      intro hclean
      rw [of_decide_eq_true hclean]
      decide
    simp only [hthreads, hcomments, hlatest, hnot, true_and, false_or, true_implies]
    constructor
    · intro h herrors hclean
      exact h ⟨herrors, (hstate hclean).1, (hstate hclean).2, .inl hclean⟩
    · rintro h ⟨herrors, -, -, hclean | hcurrent | hfollowup⟩
      · exact h herrors hclean
      · cases hcurrent
      · exact hfollowup

@[simp] theorem resolvedOptions_eventName :
    (resolvedOptions o source).eventName = o.eventName := by
  cases source <;> rfl

@[simp] theorem resolvedOptions_strategy :
    (resolvedOptions o source).copilotReviewStrategy = o.copilotReviewStrategy := by
  cases source <;> rfl

/-- **The gate on the answer of the service.** -/
theorem live_law_iff (hsource : o.eventName = "merge_group" → source.isSome = true)
    (hstrategy : o.copilotReviewStrategy = .githubReviewRequired)
    (hscope : ((Basis.live source answer).evaluation rt o).inScope = true) :
    (PassesOnEvidence rt o (.live source answer)
        (evaluateGateOutcome ((Basis.live source answer).evaluation rt o)) ∧
      BlamesThreads rt o (.live source answer)
        (evaluateGateOutcome ((Basis.live source answer).evaluation rt o))) ↔
      (Basis.live source answer).Sound rt o := by
  have hscope' : (liveEvaluation rt (resolvedOptions o source) source answer).inScope = true :=
    hscope
  have hresolved : (liveEvaluation rt (resolvedOptions o source) source
      answer).mergeGroupSourceResolved = true :=
    live_mergeGroupSourceResolved (by rwa [resolvedOptions_eventName])
  have hstrategy' : (liveEvaluation rt (resolvedOptions o source) source
      answer).copilotReviewStrategy = .githubReviewRequired :=
    resolvedOptions_strategy.trans hstrategy
  have hpasses := live_passes_iff rfl hscope' hresolved hstrategy'
  have hblames := live_blames_iff rfl hscope' hresolved hstrategy'
  rw [BlamesThreads, Basis.Sound]
  dsimp only [Basis.HoldsThread, Basis.evaluation, evaluateGateOutcome]
  rw [hblames, ← hpasses, PassesOnEvidence]
  -- a gate that passes has no errors and counts no open thread
  have hclear : (liveEvaluation rt (resolvedOptions o source) source answer).verdict.status =
      .pass → (liveEvaluation rt (resolvedOptions o source) source answer).errors = [] ∧
        ¬ ∃ thread ∈ extractThreadNodes answer.threads, isOpen thread = true ∧
          OnHead rt thread (liveHeadSha (resolvedOptions o source) source answer) := by
    intro hpass
    obtain ⟨herrors, hthreads, -⟩ := (verdict_spec hscope' hresolved hstrategy').1.mp hpass
    refine ⟨herrors, fun hany => ?_⟩
    rw [← live_actionableThreadCount_pos, hthreads] at hany
    exact Nat.lt_irrefl 0 hany
  constructor
  · rintro ⟨hpass, hblame⟩
    exact ⟨hblame.1, hblame.2, fun h => (hpass h).2.2⟩
  · rintro ⟨herrors, hthreads, hpass⟩
    exact ⟨fun h => ⟨(hclear h).1, (hclear h).2, hpass h⟩, herrors, hthreads⟩

/-! ### The signal -/

variable {report : Json}

theorem signal_actionableThreadCount_pos :
    0 < (signalEvaluation rt o report).actionableThreadCount ↔
      signalActionableThreads report ≠ [] := by
  rw [actionableThreadCount_pos, ← List.length_pos_iff, List.length_pos_iff_exists_mem]
  constructor
  · rintro ⟨t, ht, -⟩
    obtain ⟨thread, hthread, -⟩ := List.mem_map.mp ht
    exact ⟨thread, hthread⟩
  · rintro ⟨thread, hthread⟩
    exact ⟨_, List.mem_map.mpr ⟨thread, hthread, rfl⟩, rfl⟩

theorem signal_actionableCommentCount_pos
    (h : 0 < (signalEvaluation rt o report).actionableCommentCount) :
    signalActionableThreads report ≠ [] := by
  obtain ⟨t, ht, -⟩ := actionableCommentCount_pos.mp h
  obtain ⟨thread, hthread, -⟩ := List.mem_map.mp ht
  exact List.ne_nil_of_mem hthread

theorem signal_mergeGroupSourceResolved :
    (signalEvaluation rt o report).mergeGroupSourceResolved = true ↔
      o.eventName ≠ "merge_group" := by
  simp [Evaluation.mergeGroupSourceResolved, signalEvaluation, buildPullRequest]

/-- **The gate on a signal.** -/
theorem signal_law_iff (hstrategy : o.copilotReviewStrategy = .githubReviewRequired)
    (hscope : ((Basis.signal report).evaluation rt o).inScope = true) :
    (PassesOnEvidence rt o (.signal report)
        (evaluateGateOutcome ((Basis.signal report).evaluation rt o)) ∧
      BlamesThreads rt o (.signal report)
        (evaluateGateOutcome ((Basis.signal report).evaluation rt o))) ↔
      (Basis.signal report).Sound rt o := by
  rw [PassesOnEvidence, BlamesThreads, Basis.Sound]
  dsimp only [Basis.HoldsThread, Basis.evaluation, evaluateGateOutcome, Basis.askedHead]
  have hresolved := @signal_mergeGroupSourceResolved rt (resolvedOptions o (mergeGroupSource o))
    report
  rw [resolvedOptions_eventName] at hresolved
  have hstrategy' : (signalEvaluation rt (resolvedOptions o (mergeGroupSource o))
      report).copilotReviewStrategy = .githubReviewRequired :=
    resolvedOptions_strategy.trans hstrategy
  have hcount := @signal_actionableThreadCount_pos rt (resolvedOptions o (mergeGroupSource o))
    report
  have hcomments := @signal_actionableCommentCount_pos rt (resolvedOptions o (mergeGroupSource o))
    report
  dsimp only [Basis.evaluation] at hscope
  generalize signalEvaluation rt (resolvedOptions o (mergeGroupSource o)) report = e at *
  by_cases hevent : o.eventName = "merge_group"
  · -- the pull request is not resolved
    rw [verdict_of_unresolved (Bool.eq_false_iff.mpr fun h => hresolved.mp h hevent)]
    simp [hevent]
  obtain ⟨hpassIff, hreasonsIff⟩ := verdict_spec hscope (hresolved.mpr hevent) hstrategy'
  rw [hpassIff, hreasonsIff]
  have hthreads : e.actionableThreadCount = 0 ↔ signalActionableThreads report = [] := by
    rw [← not_iff_not, ← Ne, ← Ne, ← hcount, Nat.pos_iff_ne_zero]
  have hzero : e.actionableThreadCount = 0 → e.actionableCommentCount = 0 := by
    intro hnil
    by_contra hne
    exact hcomments (Nat.pos_of_ne_zero hne) (hthreads.mp hnil)
  have hany : 0 < e.actionableThreadCount ∨ 0 < e.actionableCommentCount ↔
      signalActionableThreads report ≠ [] := by
    rw [hcount]
    exact ⟨fun h => h.elim id hcomments, .inl⟩
  rw [hany]
  simp only [hevent, false_or, ne_eq, not_false_eq_true, true_implies, Evaluation.relies,
    Bool.and_eq_true, Bool.or_eq_true, decide_eq_true_eq]
  constructor
  · rintro ⟨hpass, hblame⟩
    refine ⟨fun herrors => by_contra fun hne => herrors (hblame.mpr hne).1, ?_⟩
    rintro ⟨⟨⟨⟨herrors, hnil⟩, hactive⟩, hfailed⟩, hrelies⟩
    refine (hpass ⟨herrors, hnil, hzero hnil, hactive, hfailed, ?_⟩).2.2
    exact hrelies.imp_right .inl
  · rintro ⟨hblame, hpass⟩
    constructor
    · rintro ⟨herrors, hnil, -, hactive, hfailed, hany⟩
      refine ⟨herrors, not_not_intro (hthreads.mp hnil), ?_⟩
      obtain hclean | hlatest | hfollowup := hany
      · exact hpass ⟨⟨⟨⟨herrors, hnil⟩, hactive⟩, hfailed⟩, .inl hclean⟩
      · exact hpass ⟨⟨⟨⟨herrors, hnil⟩, hactive⟩, hfailed⟩, .inr hlatest⟩
      · exact .inr hfollowup
    · constructor
      · exact fun h => h.2
      · intro hne
        exact ⟨by_contra fun herrors => hne (hblame herrors), hne⟩

/-! ### The gate -/

theorem isUnresolved_iff :
    isUnresolved o = true ↔ o.eventName = "merge_group" ∧ mergeGroupSource o = none := by
  rw [isUnresolved, Bool.and_eq_true, decide_eq_true_eq, Option.isNone_iff_eq_none]

/-- **The gate on metadata**: it does not pass a pull request in scope, and blames nobody. -/
theorem metadata_law (hskip : isUnresolved o = false →
      (metadataEvaluation (resolvedOptions o source) known source []).inScope = false)
    (hscope : ((Basis.metadata known source).evaluation rt o).inScope = true) :
    PassesOnEvidence rt o (.metadata known source)
        (evaluateGateOutcome ((Basis.metadata known source).evaluation rt o)) ∧
      BlamesThreads rt o (.metadata known source)
        (evaluateGateOutcome ((Basis.metadata known source).evaluation rt o)) := by
  cases hunresolved : isUnresolved o with
  | false =>
    rw [Basis.evaluation, hunresolved] at hscope
    exact absurd hscope (Bool.eq_false_iff.mp (hskip hunresolved))
  | true =>
    obtain ⟨hevent, -⟩ := isUnresolved_iff.mp hunresolved
    have heval : (Basis.metadata known source).evaluation rt o = unresolvedEvaluation o known := by
      rw [Basis.evaluation, hunresolved]
      rfl
    have hverdict : (unresolvedEvaluation o known).verdict =
        ⟨.fail, .error, [.mergeGroupSourceUnresolved]⟩ := by
      refine verdict_of_unresolved ?_
      simp [Evaluation.mergeGroupSourceResolved, unresolvedEvaluation, buildPullRequest, hevent]
    rw [PassesOnEvidence, BlamesThreads, heval]
    dsimp only [evaluateGateOutcome, Basis.HoldsThread]
    rw [hverdict]
    exact ⟨nofun, by simp⟩

theorem inScope_of_skip (h : shouldSkipWithoutLookup o known = true) :
    (metadataEvaluation (resolvedOptions o (mergeGroupSource o)) known (mergeGroupSource o)
      []).inScope = false := by
  rw [shouldSkipWithoutLookup] at h
  generalize metadataEvaluation (resolvedOptions o (mergeGroupSource o)) known
    (mergeGroupSource o) [] = e at h ⊢
  rw [Evaluation.inScope]
  cases hdraft : e.pullRequest.draft with
  | true => rfl
  | false =>
    cases hgated : e.isGated with
    | false => rfl
    | true =>
      simp only [hdraft, hgated, Bool.not_true, Bool.or_false, Bool.false_or, Bool.and_eq_true,
        Bool.not_eq_true'] at h
      rw [h.2]
      rfl

theorem pollLoop_spec {answers : ℕ → Except LookupError LiveAnswer} {left attempt : ℕ}
    {first : Basis} (h : pollLoop rt o answers left attempt first = .ok basis) :
    basis = first ∨ ∃ answer, basis = .live (mergeGroupSource o) answer := by
  induction left generalizing attempt first with
  | zero =>
    cases h
    exact .inl rfl
  | succ left ih =>
    rw [pollLoop] at h
    split at h
    · cases h
    · next answer _ =>
      dsimp only at h
      split at h
      · obtain rfl | hlive := ih h
        · exact .inr ⟨answer, rfl⟩
        · exact .inr hlive
      · cases h
        exact .inr ⟨answer, rfl⟩

/-- What a report is decided on: metadata of a pull request that is skipped or not resolved,
the signal, or an answer of the service for a resolved pull request. -/
def Arises (i : GateRun) : Basis → Prop
  | .metadata known source => isUnresolved i.options = false →
      (metadataEvaluation (resolvedOptions i.options source) known source []).inScope = false
  | .signal _ => True
  | .live source _ => i.options.eventName = "merge_group" → source.isSome = true

theorem arises_live (h : isUnresolved i.options = false) (answer : LiveAnswer) :
    Arises i (.live (mergeGroupSource i.options) answer) := by
  intro hevent
  cases hsource : mergeGroupSource i.options with
  | some source => rfl
  | none =>
    rw [isUnresolved_iff.mpr ⟨hevent, hsource⟩] at h
    cases h

theorem arises_first (h : firstBasis i = .ok basis) :
    Arises i basis := by
  rw [firstBasis] at h
  split at h
  · next hunresolved =>
    cases h
    intro hresolved
    rw [hunresolved] at hresolved
    cases hresolved
  · next hresolved =>
    rw [Bool.not_eq_true] at hresolved
    split at h
    · next hskip =>
      cases h
      exact fun _ => inScope_of_skip hskip
    · split at h
      · split at h
        · cases h
          trivial
        · cases h
      · split at h
        · cases h
        · cases h
          exact arises_live hresolved _

theorem arises_last (h : lastBasis rt i = .ok basis) :
    Arises i basis := by
  rw [lastBasis] at h
  split at h
  · cases h
  · next first hfirst =>
    split at h
    · next hpoll =>
      rw [Bool.and_eq_true, Bool.not_eq_true'] at hpoll
      obtain rfl | ⟨answer, rfl⟩ := pollLoop_spec h
      · exact arises_first hfirst
      · exact arises_live hpoll.1 answer
    · cases h
      exact arises_first hfirst

/-- **The gate is sound** under `GateRun.Sound`, and under nothing less. -/
theorem queueGateLaw_iff (rt : Runtime) (i : GateRun) : GateLaw rt i ↔ i.Sound rt := by
  rw [GateLaw, GateRun.Sound]
  refine imp_congr_right fun hstrategy => ?_
  cases hlast : lastBasis rt i with
  | error e =>
    have hrun : (runCopilotReviewGate rt i).report = buildFailureReport i.options e := by
      rw [runCopilotReviewGate, hlast]
    rw [hrun]
    refine iff_of_true ⟨nofun, ?_⟩ fun basis hbasis => by cases hbasis
    cases h : e.authUnavailable <;> simp [buildFailureReport, h]
  | ok basis =>
    have hrun : (runCopilotReviewGate rt i).report =
        evaluateGateOutcome (basis.evaluation rt i.options) := by
      rw [runCopilotReviewGate, hlast]
    have harises := arises_last hlast
    rw [hrun]
    have hone : (∀ b, (Except.ok basis : Except LookupError Basis) = .ok b →
        (b.evaluation rt i.options).inScope = true → b.Sound rt i.options) ↔
        ((basis.evaluation rt i.options).inScope = true → basis.Sound rt i.options) := by
      constructor
      · exact fun h => h basis rfl
      · intro h b hb
        cases hb
        exact h
    rw [hone]
    refine imp_congr_right fun hscope => ?_
    cases basis with
    | metadata known source => exact iff_of_true (metadata_law harises hscope) trivial
    | signal report => exact signal_law_iff hstrategy hscope
    | live source answer => exact live_law_iff harises hstrategy hscope

def copilotReview (sha : String) : Json :=
  .obj [("id", .num 1), ("user", .obj [("login", .str "copilot-pull-request-reviewer[bot]")]),
    ("commit_id", .str sha), ("submitted_at", .str "2026-03-08T06:00:00Z")]

def resolvedThread (sha : String) : Json :=
  .obj [("id", .str "thread-1"), ("isResolved", .bool true), ("isOutdated", .bool false),
    ("comments", .obj [("nodes", .arr [.obj [("id", .str "comment-1"),
      ("author", .obj [("login", .str "copilot-pull-request-reviewer[bot]")]),
      ("pullRequestReview", .obj [("commit", .obj [("oid", .str sha)])])]])])]

/-- A ready pull request to `develop`, asked about at `abc`. -/
def readyOptions : Options where
  eventName := "pull_request_target"
  repo := some "LabVIEW-Community-CI-CD/compare-vi-cli-action"
  prNumber := some 885
  headSha := some "abc"
  headBranch := none
  baseRef := some "develop"
  draft := some false
  reviewRunId := none
  reviewRunStatus := none
  reviewRunConclusion := none
  copilotReviewStrategy := .githubReviewRequired
  pollAttempts := 1
  gatedBaseRefs := ["develop"]

def resolvedAnswer : LiveAnswer where
  pull := ⟨none, none, none, none⟩
  reviews := [copilotReview "abc"]
  threads := .arr [resolvedThread "abc"]
  runs := []

def resolvedRun : GateRun where
  options := readyOptions
  signal := none
  answers := fun _ => .ok resolvedAnswer

/-- Dates in the form of `toISOString`, and identifiers compared as texts. -/
def plainRuntime : Runtime where
  toISOString := some
  localeCompare := compare
  numericCompare := compare

theorem lastBasis_resolvedRun :
    lastBasis plainRuntime resolvedRun = .ok (.live none resolvedAnswer) := by
  have hfirst : firstBasis resolvedRun = .ok (.live none resolvedAnswer) := by
    have hsource : mergeGroupSource resolvedRun.options = none := by decide +kernel
    have hsignal : resolvedRun.signal.filter Json.isTruthy = none := rfl
    have hlook : lookUp (resolvedOptions resolvedRun.options none) (resolvedRun.answers 0) =
        .ok resolvedAnswer := by
      rw [lookUp, if_pos (by decide +kernel), resolvedRun]
    rw [firstBasis, if_neg (by decide +kernel), if_neg (by decide +kernel), hsignal]
    rw [hsource, hlook]
  have hpoll : ∀ report, shouldPollForInitialCopilotReview report resolvedRun.options = false := by
    intro report
    have hattempts : decide (1 < resolvedRun.options.pollAttempts) = false := by decide
    rw [shouldPollForInitialCopilotReview, hattempts, Bool.and_false, Bool.false_and]
  rw [lastBasis, hfirst]
  dsimp only
  rw [hpoll, Bool.and_false, if_neg Bool.false_ne_true]

/-- The gate blames the resolved thread. -/
theorem not_gateLaw_resolvedRun : ¬ GateLaw plainRuntime resolvedRun := by
  intro h
  have hstrategy : resolvedRun.options.copilotReviewStrategy = .githubReviewRequired := by decide
  have hscope : ((Basis.live none resolvedAnswer).evaluation plainRuntime
      resolvedRun.options).inScope = true := by decide +kernel
  rw [GateLaw, runCopilotReviewGate, lastBasis_resolvedRun] at h
  have hsound := (live_law_iff (by decide) hstrategy hscope).mp (h hstrategy hscope)
  have hhead : liveHeadSha (resolvedOptions resolvedRun.options none) none resolvedAnswer =
      some "abc" := by decide +kernel
  have hon : OnHead plainRuntime (resolvedThread "abc") (some "abc") := by
    rw [OnHead]
    decide +kernel
  rw [← hhead] at hon
  obtain ⟨thread, hthread, hopen, -⟩ := hsound.2.1 (by decide +kernel)
    ⟨resolvedThread "abc", List.mem_singleton.mpr rfl, hon⟩
  have hresolved : isOpen (resolvedThread "abc") = false := by decide +kernel
  rw [List.mem_singleton.mp hthread, hresolved] at hopen
  cases hopen

end CompareVI.ReviewGate
