import CompareVI.Merge.Safety

/-!
# What a normal end of merge-sync says

`runMergeSync` ends normally as soon as a promotion is visible, and a pull request that waits
in the merge queue, or for auto-merge, counts as promoted. So its exit status alone does not
say that the pull request is merged: `promotedPending_iff` says for every run by which of
GitHub's answers it ends normally without having seen the pull request merged.

The proof keeps account of three things a history says (`Account`): the pull requests that
were read, the merge commands and their results, and the promotion states that were read.
-/

open Framework

namespace CompareVI.Merge

/-! ### The account of a history -/

def prInfoOf : Exchange MergeAnswer → Option PrInfo
  | ⟨.readPrInfo, .ok prInfo⟩ => some prInfo
  | _ => none

def promotionStateOf : Exchange MergeAnswer → Option PromotionState
  | ⟨.readPromotionState, .ok s⟩ => some s
  | _ => none

def promotionStates (h : History) : List PromotionState := h.filterMap promotionStateOf

def PromotionState.waits (s : PromotionState) : Bool := s.isInMergeQueue || s.autoMergeRequest

/-- The merge was accepted, and the last state that was read waits and is not merged. -/
def PromotedPending (h : History) : Prop :=
  (∃ c ∈ mergeCommands h, c.2.status = some 0) ∧
    ∃ s, (promotionStates h).getLast? = some s ∧ s.waits = true ∧ s.isMerged = false

/-- What a history says of the pull request. -/
structure Account (infos : List PrInfo) (commands : List (List String × CommandResult))
    (states : List PromotionState) (h : History) : Prop where
  infos_eq : h.filterMap prInfoOf = infos
  commands_eq : mergeCommands h = commands
  states_eq : promotionStates h = states

variable {infos infos' : List PrInfo} {commands commands' : List (List String × CommandResult)}
  {states states' : List PromotionState} {h new : History}

theorem Account.append (hh : Account infos commands states h)
    (hnew : Account infos' commands' states' new) :
    Account (infos ++ infos') (commands ++ commands') (states ++ states') (h ++ new) where
  infos_eq := by rw [List.filterMap_append, hh.infos_eq, hnew.infos_eq]
  commands_eq := by rw [mergeCommands_append, hh.commands_eq, hnew.commands_eq]
  states_eq := by
    unfold promotionStates
    rw [List.filterMap_append]
    exact congrArg₂ _ hh.states_eq hnew.states_eq

variable {e : Exchange MergeAnswer} {finalMode : MergeMode}

theorem Account.silent (hh : Account infos commands states h) (he : Account [] [] [] [e]) :
    Account infos commands states (h ++ [e]) := by
  have happend := hh.append he
  rwa [List.append_nil, List.append_nil, List.append_nil] at happend

theorem Account.read (hh : Account infos commands states h) (s : PromotionState) :
    Account infos commands (states ++ [s]) (h ++ [⟨.readPromotionState, .ok s⟩]) := by
  have hread : Account [] [] [s] [⟨.readPromotionState, .ok s⟩] := ⟨rfl, rfl, rfl⟩
  have happend := hh.append hread
  rwa [List.append_nil, List.append_nil] at happend

theorem Account.command (hh : Account infos commands states h) (args : List String)
    (result : CommandResult) :
    Account infos (commands ++ [(args, result)]) states (h ++ [⟨.merge args, result⟩]) := by
  have hcommand : Account [] [(args, result)] [] [⟨.merge args, result⟩] := ⟨rfl, rfl, rfl⟩
  have happend := hh.append hcommand
  rwa [List.append_nil, List.append_nil] at happend

theorem Account.mergedSeen_iff (hh : Account infos commands states h) :
    MergedSeen h ↔ (∃ prInfo ∈ infos, normalizeUpper prInfo.state = "MERGED") ∨
      ∃ s ∈ states, s.isMerged = true := by
  have hinfo : ∀ prInfo, Answered h .readPrInfo (.ok prInfo) ↔ prInfo ∈ infos := by
    intro prInfo
    rw [← hh.infos_eq, List.mem_filterMap]
    refine ⟨fun hmem => ⟨_, hmem, rfl⟩, ?_⟩
    rintro ⟨⟨q, a⟩, hmem, heq⟩
    cases q with
    | readPrInfo =>
      cases a with
      | ok found =>
        obtain rfl : found = prInfo := Option.some.inj heq
        exact hmem
      | error message => exact nomatch heq
    | _ => exact nomatch heq
  have hstate : ∀ s, Answered h .readPromotionState (.ok s) ↔ s ∈ states := by
    intro s
    rw [← hh.states_eq, promotionStates, List.mem_filterMap]
    refine ⟨fun hmem => ⟨_, hmem, rfl⟩, ?_⟩
    rintro ⟨⟨q, a⟩, hmem, heq⟩
    cases q with
    | readPromotionState =>
      cases a with
      | ok found =>
        obtain rfl : found = s := Option.some.inj heq
        exact hmem
      | error message => exact nomatch heq
    | _ => exact nomatch heq
  exact or_congr (exists_congr fun prInfo => and_congr_left fun _ => hinfo prInfo)
    (exists_congr fun s => and_congr_left fun _ => hstate s)

/-! ### The end of a run -/

/-- The run ends normally without having seen the pull request merged exactly if its promotion
is pending. -/
def EndsPending (h : History) (r : Except String MergeSummary) : Prop :=
  PromotedPending h ↔ (∃ m, r = .ok m) ∧ ¬ MergedSeen h

theorem endsPending_of_rejected {message : String} (hh : Account infos commands states h)
    (hnone : ∀ c ∈ commands, c.2.status ≠ some 0) : EndsPending h (.error message) := by
  refine ⟨fun hpending => ?_, fun ⟨⟨_, hok⟩, _⟩ => nomatch hok⟩
  obtain ⟨⟨c, hc, hstatus⟩, -⟩ := hpending
  rw [hh.commands_eq] at hc
  exact absurd hstatus (hnone c hc)

/-- A promotion of which the last state is known: no state before it was merged. -/
structure Promoted (infos : List PrInfo) (commands : List (List String × CommandResult))
    (s : PromotionState) (h : History) : Prop where
  account : ∃ earlier, Account infos commands (earlier ++ [s]) h ∧
    ∀ t ∈ earlier, t.isMerged = false
  accepted : ∃ c ∈ commands, c.2.status = some 0
  notMerged : ∀ prInfo ∈ infos, normalizeUpper prInfo.state ≠ "MERGED"

theorem Promoted.mergedSeen_iff {s : PromotionState} (hh : Promoted infos commands s h) :
    MergedSeen h ↔ s.isMerged = true := by
  obtain ⟨earlier, haccount, hearlier⟩ := hh.account
  rw [haccount.mergedSeen_iff]
  constructor
  · rintro (⟨prInfo, hmem, hmerged⟩ | ⟨t, hmem, hmerged⟩)
    · exact absurd hmerged (hh.notMerged prInfo hmem)
    · rcases List.mem_append.mp hmem with hmem | hmem
      · exact absurd hmerged (by rw [hearlier t hmem]; exact Bool.false_ne_true)
      · rwa [← List.mem_singleton.mp hmem]
  · exact fun hmerged => .inr ⟨s, List.mem_append_right _ (List.mem_singleton_self s), hmerged⟩

theorem Promoted.pending_iff {s : PromotionState} (hh : Promoted infos commands s h) :
    PromotedPending h ↔ s.waits = true ∧ s.isMerged = false := by
  obtain ⟨earlier, haccount, -⟩ := hh.account
  unfold PromotedPending
  rw [haccount.commands_eq, haccount.states_eq, List.getLast?_concat]
  constructor
  · rintro ⟨-, t, ht, hpending⟩
    obtain rfl := Option.some.inj ht
    exact hpending
  · exact fun hpending => ⟨hh.accepted, s, rfl, hpending⟩

theorem Promoted.read {s : PromotionState} (hh : Promoted infos commands s h)
    (hs : s.isMerged = false) (t : PromotionState) :
    Promoted infos commands t (h ++ [⟨.readPromotionState, .ok t⟩]) := by
  obtain ⟨earlier, haccount, hearlier⟩ := hh.account
  refine ⟨⟨earlier ++ [s], haccount.read t, fun u hu => ?_⟩, hh.accepted, hh.notMerged⟩
  rcases List.mem_append.mp hu with hu | hu
  · exact hearlier u hu
  · rwa [List.mem_singleton.mp hu]

theorem Promoted.silent {s : PromotionState} (hh : Promoted infos commands s h)
    (he : Account [] [] [] [e]) :
    Promoted infos commands s (h ++ [e]) := by
  obtain ⟨earlier, haccount, hearlier⟩ := hh.account
  exact ⟨⟨earlier, haccount.silent he, hearlier⟩, hh.accepted, hh.notMerged⟩

def PromotionState.counts (s : PromotionState) : Bool := s.isMerged || s.waits

theorem materialized_classify (initial final : PromotionState) (hmode : finalMode ≠ .none) :
    (classifyPromotionState initial final finalMode).materialized = final.counts := by
  unfold classifyPromotionState promotionStatus PromotionState.counts PromotionState.waits
  have hnot : ¬ (finalMode = .none ∧ initial.isMerged = true) := fun h => hmode h.1
  rw [if_neg hnot]
  -- the tests in turn; the initial state only says whether the promotion is a new one
  cases final.isMerged with
  | true => cases initial.isMerged <;> rfl
  | false =>
    cases final.isInMergeQueue with
    | true => cases initial.isInMergeQueue <;> rfl
    | false =>
      cases final.autoMergeRequest with
      | true => cases initial.autoMergeRequest <;> rfl
      | false => rfl

/-- The state whose classification a promotion is. -/
def Shows (promotion : Promotion) (s : PromotionState) : Prop :=
  promotion.materialized = s.counts ∧
    (promotion.status = .merged ∨ promotion.status = .alreadyMerged → s.isMerged = true)

theorem shows_classify (initial final : PromotionState) (hmode : finalMode ≠ .none) :
    Shows (classifyPromotionState initial final finalMode) final := by
  refine ⟨materialized_classify initial final hmode, fun hstatus => ?_⟩
  by_contra hmerged
  unfold classifyPromotionState promotionStatus at hstatus
  have hnot : ¬ (finalMode = .none ∧ initial.isMerged = true) := fun h => hmode h.1
  rw [if_neg hmerged, if_neg hnot] at hstatus
  revert hstatus
  cases final.isInMergeQueue with
  | true => cases initial.isInMergeQueue <;> simp
  | false =>
    cases final.autoMergeRequest with
    | true => cases initial.autoMergeRequest <;> simp
    | false => simp

section Parts

variable {o : MergeOptions} {s : PromotionState}

/-- What becomes of a promotion: it is the classification of the last state, and a poll that
throws leaves a last state that does not count. -/
def PromotionEnd (infos : List PrInfo) (commands : List (List String × CommandResult))
    (h : History) : Except String Promotion → Prop
  | .ok promotion => ∃ s, Promoted infos commands s h ∧ Shows promotion s
  | .error _ => ∃ s, Promoted infos commands s h ∧ s.counts = false

theorem isMerged_of_counts (hs : s.counts = false) : s.isMerged = false :=
  (Bool.or_eq_false_iff.mp hs).1

variable {plan : BranchCleanupPlan} {r : Except String MergeSummary} {finalMode : MergeMode}

theorem promotion_pollPromotion {initial : PromotionState} (hmode : finalMode ≠ .none) (left : ℕ)
    {activation : Promotion} (hh : Promoted infos commands s h) (hs : s.counts = false)
    (hact : Shows activation s) :
    Safe (fun _ _ => True) (PromotionEnd infos commands) h
      (pollPromotion initial finalMode left activation) := by
  induction left generalizing h activation s with
  | zero => exact ⟨s, hh, hact.1, hact.2⟩
  | succ left ih =>
    refine safe_bind.mpr (safe_query_throw.mpr ⟨trivial, fun answer => ?_⟩)
    cases answer with
    | error message => exact ⟨s, hh.silent ⟨rfl, rfl, rfl⟩, hs⟩
    | ok final =>
      have hread := hh.read (isMerged_of_counts hs) final
      have hshows := shows_classify initial final hmode
      dsimp only
      split
      · exact ⟨final, hread, hshows.1, hshows.2⟩
      · next hmaterial =>
        have hfinal : final.counts = false := by
          rw [← hshows.1]
          exact Bool.eq_false_iff.mpr hmaterial
        by_cases hlast : left = 0
        · rw [if_pos hlast]
          exact ih hread hfinal hshows
        · rw [if_neg hlast]
          -- the pause between two polls says nothing
          exact safe_ask_bind.mpr ⟨trivial, fun pause =>
            ih (hread.silent ⟨rfl, rfl, rfl⟩) hfinal hshows⟩

theorem promotion_observePromotion (hdry : o.dryRun = false) (hmode : finalMode ≠ .none)
    (hh : Promoted infos commands s h) :
    Safe (fun _ _ => True) (PromotionEnd infos commands) h (observePromotion o s finalMode) := by
  unfold observePromotion verifyPromotionActivation
  rw [if_neg (by rw [hdry]; exact Bool.false_ne_true)]
  have hshows := shows_classify s s hmode
  by_cases hmaterial : (classifyPromotionState s s finalMode).materialized = true
  · rw [if_pos (by rw [hmaterial]; rfl)]
    exact ⟨s, hh, hshows⟩
  · have hopen : ((classifyPromotionState s s finalMode).materialized ||
        decide (finalMode = .none)) = false :=
      Bool.or_eq_false_iff.mpr ⟨Bool.eq_false_iff.mpr hmaterial, decide_eq_false hmode⟩
    rw [if_neg (by rw [hopen]; exact Bool.false_ne_true)]
    refine promotion_pollPromotion hmode _ hh ?_ hshows
    rw [← hshows.1]
    exact Bool.eq_false_iff.mpr hmaterial

variable {branch : BranchContext} {method : MergeMethodSelection} {mode : MergeMode}
  {ctx : MergeSetup} {prInfo : PrInfo} {reason : String}

theorem promotion_cleanUpBranch (hdry : o.dryRun = false) {promotion : Promotion}
    (hh : Promoted infos commands s h) (hshows : Shows promotion s) :
    Safe (fun _ _ => True) (fun h' r => Promoted infos commands s h' ∧
      ((∃ message, r = .error message) → s.isMerged = true)) h
      (cleanUpBranch o prInfo plan promotion) := by
  unfold cleanUpBranch
  by_cases hinline : plan.inlineDeleteBranch = true
  · rw [if_pos hinline]
    exact ⟨hh, fun ⟨_, herror⟩ => nomatch herror⟩
  · rw [if_neg hinline]
    by_cases hpost : plan.postMergeDelete = true
    · rw [if_pos hpost, if_neg (by rw [hdry]; exact Bool.false_ne_true)]
      split
      · next hmerged =>
        have hs : s.isMerged = true := hshows.2 (by simpa using (Bool.and_eq_true_iff.mp hmerged).2)
        unfold deleteMergedHeadBranch deleteHeadBranchRef
        split
        · exact ⟨hh, fun _ => hs⟩
        · rw [if_neg Bool.false_ne_true]
          refine safe_ask_bind.mpr ⟨trivial, fun result => ?_⟩
          have hdeleted := hh.silent (e := ⟨.deleteRef (resolveHeadRepositorySlug prInfo)
            (normalizeText prInfo.headRefName), result⟩) ⟨rfl, rfl, rfl⟩
          by_cases hok : result.status = some 0
          · rw [if_pos hok]
            exact ⟨hdeleted, fun _ => hs⟩
          · rw [if_neg hok]
            -- an absent branch counts as deleted, any other failure is thrown
            generalize isMissingReference (JsString.trim (result.stderr ++ result.stdout)) = missing
            cases missing with
            | true => exact ⟨hdeleted, fun _ => hs⟩
            | false => exact ⟨hdeleted, fun _ => hs⟩
      · exact ⟨hh, fun ⟨_, herror⟩ => nomatch herror⟩
    · rw [if_neg hpost]
      exact ⟨hh, fun ⟨_, herror⟩ => nomatch herror⟩

theorem endsPending_of_promoted (hh : Promoted infos commands s h)
    (hok : ∀ m, r = .ok m → s.counts = true)
    (herror : ∀ message, r = .error message → s.waits = true → s.isMerged = true) :
    EndsPending h r := by
  unfold EndsPending
  rw [hh.pending_iff, hh.mergedSeen_iff]
  cases r with
  | ok m =>
    have hcounts := hok m rfl
    unfold PromotionState.counts at hcounts
    constructor
    · rintro ⟨-, hmerged⟩
      exact ⟨⟨m, rfl⟩, by rw [hmerged]; exact Bool.false_ne_true⟩
    · rintro ⟨-, hmerged⟩
      have hfalse := Bool.eq_false_iff.mpr hmerged
      rw [hfalse, Bool.false_or] at hcounts
      exact ⟨hcounts, hfalse⟩
  | error message =>
    refine ⟨fun ⟨hwaits, hmerged⟩ => ?_, fun ⟨⟨_, hresult⟩, _⟩ => nomatch hresult⟩
    rw [herror message rfl hwaits] at hmerged
    exact Bool.noConfusion hmerged

theorem promotion_reportMerge (hdry : o.dryRun = false) {clearance : ReviewClearance}
    {issued : Issued} (hmode : mode ≠ .none) (hfinal : issued.finalMode ≠ .none)
    (hh : Promoted infos commands s h) :
    Safe (fun _ _ => True) EndsPending h
      (reportMerge ctx o method prInfo branch mode reason clearance s issued) := by
  refine safe_bind.mpr ((promotion_observePromotion hdry hfinal hh).mono fun new r hr => ?_)
  cases r with
  | error message =>
    obtain ⟨t, ht, hcounts⟩ := hr
    refine endsPending_of_promoted ht (fun _ hok => nomatch hok) fun _ _ hwaits => ?_
    rw [PromotionState.counts, hwaits, Bool.or_true] at hcounts
    exact Bool.noConfusion hcounts
  | ok promotion =>
    obtain ⟨t, ht, hshows⟩ := hr
    refine safe_bind.mpr ((promotion_cleanUpBranch hdry ht hshows).mono fun last r' hr' => ?_)
    obtain ⟨hlast, hfails⟩ := hr'
    cases r' with
    | error message =>
      exact endsPending_of_promoted hlast (fun _ hok => nomatch hok)
        fun _ _ _ => hfails ⟨message, rfl⟩
    | ok branchCleanup =>
      -- the summary is written, and then the promotion has to be a material one
      have hwritten : ∀ payload : MergeSummary, ∀ h' : History, Promoted infos commands t h' →
          Safe (fun _ _ => True) EndsPending h'
            (if (!o.dryRun && decide (mode ≠ .none) && !promotion.materialized) = true then
              .fail ("[priority:merge-sync] merge command completed but no durable promotion " ++
                "state was observed (status=" ++ promotion.status.text ++ ").")
            else pure payload) := by
        intro payload h' hh'
        have hguard : (!o.dryRun && decide (mode ≠ .none) && !promotion.materialized) =
            !t.counts := by
          rw [hdry, decide_eq_true hmode, hshows.1]
          rfl
        rw [hguard]
        cases hcounts : t.counts with
        | true =>
          exact endsPending_of_promoted hh' (fun _ _ => hcounts) fun _ herror => nomatch herror
        | false =>
          refine endsPending_of_promoted hh' (fun _ hok => nomatch hok) fun _ _ hwaits => ?_
          rw [PromotionState.counts, hwaits, Bool.or_true] at hcounts
          exact Bool.noConfusion hcounts
      cases o.summaryPath with
      | none => exact hwritten _ _ hlast
      | some path =>
        exact safe_ask_bind.mpr ⟨trivial, fun _ => hwritten _ _ (hlast.silent ⟨rfl, rfl, rfl⟩)⟩

theorem promotion_issueMergeCommands (hdry : o.dryRun = false) {repo : String}
    {method : MergeMethod} {queueManaged : Bool} (hmode : mode ≠ .none)
    (hh : Account infos [] states h) :
    Safe (fun _ _ => True) (fun h' r => match r with
        | .ok issued => issued.finalMode ≠ .none ∧ ∃ commands, Account infos commands states h' ∧
            ∃ c ∈ commands, c.2.status = some 0
        | .error _ => ∃ commands, Account infos commands states h' ∧
            ∀ c ∈ commands, c.2.status ≠ some 0) h
      (issueMergeCommands o repo method mode reason queueManaged plan) := by
  have hattempt : ∀ args, (runMergeAttempt o.dryRun args : MergeProg CommandResult) =
      ask (.merge args) := fun args => by
    unfold runMergeAttempt
    rw [if_neg (by rw [hdry]; exact Bool.false_ne_true)]
  unfold issueMergeCommands
  dsimp only
  rw [hattempt]
  refine safe_ask_bind.mpr ⟨trivial, fun first => ?_⟩
  have hfirst := hh.command (buildMergeArgs o.pr repo method mode plan.inlineDeleteBranch) first
  by_cases hok : first.status = some 0
  · rw [if_pos hok]
    exact ⟨hmode, _, hfirst, _, List.mem_singleton_self _, hok⟩
  · rw [if_neg hok]
    split
    · rw [hattempt]
      refine safe_ask_bind.mpr ⟨trivial, fun second => ?_⟩
      have hsecond := hfirst.command (buildMergeArgs o.pr repo method .auto false) second
      by_cases hok' : second.status = some 0
      · rw [if_pos hok']
        exact ⟨MergeMode.noConfusion, _, hsecond, _,
          List.mem_append_right _ (List.mem_singleton_self _), hok'⟩
      · rw [if_neg hok']
        refine ⟨_, hsecond, fun c hc => ?_⟩
        rcases List.mem_append.mp hc with hc | hc
        · rwa [List.mem_singleton.mp hc]
        · rwa [List.mem_singleton.mp hc]
    · have hrejected : ∀ message : String, Safe (fun _ _ => True) (fun h' r => match r with
          | .ok issued => issued.finalMode ≠ .none ∧ ∃ commands,
              Account infos commands states h' ∧ ∃ c ∈ commands, c.2.status = some 0
          | .error _ => ∃ commands, Account infos commands states h' ∧
              ∀ c ∈ commands, c.2.status ≠ some 0) _ (.fail message : MergeProg Issued) :=
        fun message => ⟨_, hfirst, fun c hc => by rwa [List.mem_singleton.mp hc]⟩
      by_cases hadmin : o.admin = true
      · rw [if_pos hadmin]
        exact hrejected _
      · rw [if_neg hadmin]
        exact hrejected _

theorem promotion_reviewClearance (hh : Account infos [] [] h) :
    Safe (fun _ _ => True) (fun h' _ => Account infos [] [] h') h
      (reviewClearance ctx prInfo mode) := by
  unfold reviewClearance
  by_cases hmode : mode = .none
  · rw [if_pos hmode]
    exact hh
  · rw [if_neg hmode]
    refine safe_bind.mpr (safe_query_throw.mpr ⟨trivial, fun answer => ?_⟩)
    have hread := hh.silent (e := ⟨.readClearance, answer⟩) ⟨rfl, rfl, rfl⟩
    cases answer with
    | error message => exact hread
    | ok ready =>
      dsimp only
      cases storedClearance prInfo ready with
      | some clearance => exact hread
      | none =>
        refine safe_bind.mpr (safe_query_throw.mpr ⟨trivial, fun answer => ?_⟩)
        have hgate := hread.silent (e := ⟨.reviewGate
          (gateArguments ctx.copilotReviewStrategy prInfo), answer⟩) ⟨rfl, rfl, rfl⟩
        cases answer with
        | error message => exact hgate
        | ok result => exact hgate

theorem endsPending_of_merged (hcommands : mergeCommands h = []) (hseen : MergedSeen h) :
    EndsPending h r := by
  refine ⟨fun hpending => ?_, fun ⟨_, hnot⟩ => absurd hseen hnot⟩
  obtain ⟨⟨c, hc, -⟩, -⟩ := hpending
  rw [hcommands] at hc
  cases hc

theorem promotion_promote_none (hh : Account [prInfo] [] [] h)
    (hstate : normalizeUpper prInfo.state = "MERGED") :
    Safe (fun _ _ => True) EndsPending h (promote ctx o method prInfo branch .none reason) := by
  have hseen : MergedSeen h :=
    hh.mergedSeen_iff.mpr (.inl ⟨prInfo, List.mem_singleton_self _, hstate⟩)
  change Safe _ _ h (reportMerge ctx o method prInfo branch .none reason skippedClearance
    ⟨prInfo.state, prInfo.mergeStateStatus, false, false, none⟩
    ⟨[], .none, reason, resolveBranchCleanupPlan o.keepBranch .none (isQueueManagedBaseBranch
      prInfo.baseRefName ctx.mergeQueueBranches branch.baseBranchClass)⟩)
  refine Safe.weaken (I := Allowed o) ?_ fun _ _ _ => trivial
  refine (safe_reportMerge (fun hne => absurd rfl hne) resolveBranchCleanupPlan_postMerge
    fun _ => hseen).mono fun new r hr => ?_
  exact endsPending_of_merged (hr.1.trans hh.commands_eq) (hseen.append new)

theorem promotion_promote (hdry : o.dryRun = false) (hmode : mode ≠ .none)
    (hstate : normalizeUpper prInfo.state ≠ "MERGED") (hh : Account [prInfo] [] [] h) :
    Safe (fun _ _ => True) EndsPending h (promote ctx o method prInfo branch mode reason) := by
  have hnotMerged : ∀ p ∈ [prInfo], normalizeUpper p.state ≠ "MERGED" := fun p hp => by
    rwa [List.mem_singleton.mp hp]
  refine safe_bind.mpr ((promotion_reviewClearance hh).mono fun new r hr => ?_)
  cases r with
  | error message => exact endsPending_of_rejected hr fun c hc => absurd hc List.not_mem_nil
  | ok clearance =>
    unfold initialPromotionState readPromotionState
    rw [if_neg hmode]
    refine safe_bind.mpr (safe_query_throw.mpr ⟨trivial, fun answer => ?_⟩)
    cases answer with
    | error message =>
      exact endsPending_of_rejected (hr.silent ⟨rfl, rfl, rfl⟩) fun c hc =>
        absurd hc List.not_mem_nil
    | ok initial =>
      have hread := hr.read initial
      dsimp only
      by_cases hok : clearance.ok = true
      · rw [if_pos hok, if_neg hmode]
        refine safe_bind.mpr ((promotion_issueMergeCommands hdry hmode hread).mono
          fun last r' hr' => ?_)
        cases r' with
        | error message =>
          obtain ⟨commands, haccount, hrejected⟩ := hr'
          exact endsPending_of_rejected haccount hrejected
        | ok issued =>
          obtain ⟨hfinal, commands, haccount, haccepted⟩ := hr'
          exact promotion_reportMerge hdry hmode hfinal
            ⟨⟨[], haccount, List.forall_mem_nil _⟩, haccepted, hnotMerged⟩
      · rw [if_neg hok]
        exact endsPending_of_rejected hread fun c hc => absurd hc List.not_mem_nil

/-- **Every run of merge-sync.** -/
theorem promotion_runMergeSync (setup : Except String MergeSetup) (hdry : o.dryRun = false) :
    Safe (fun _ _ => True) EndsPending [] (runMergeSync setup o) := by
  have hempty : Account [] [] [] [] := ⟨rfl, rfl, rfl⟩
  have hfails : ∀ message, EndsPending [] (.error message) := fun message =>
    endsPending_of_rejected hempty fun c hc => absurd hc List.not_mem_nil
  refine safe_ofExcept_bind.mpr ⟨fun ctx _ => ?_, fun message _ => hfails message⟩
  refine safe_ofExcept_bind.mpr ⟨fun method _ => ?_, fun message _ => hfails message⟩
  refine safe_bind.mpr (safe_query_throw.mpr ⟨trivial, fun answer => ?_⟩)
  cases answer with
  | error message =>
    exact endsPending_of_rejected (hempty.silent ⟨rfl, rfl, rfl⟩) fun c hc =>
      absurd hc List.not_mem_nil
  | ok prInfo =>
    have hread : Account [prInfo] [] [] [⟨.readPrInfo, .ok prInfo⟩] := ⟨rfl, rfl, rfl⟩
    have hrejected : ∀ message, EndsPending ([] ++ [⟨.readPrInfo, .ok prInfo⟩])
        (.error message) :=
      fun message => endsPending_of_rejected hread fun c hc => absurd hc List.not_mem_nil
    refine safe_ofExcept_bind.mpr ⟨fun branch _ => ?_, fun message _ => hrejected message⟩
    refine safe_ofExcept_bind.mpr ⟨fun selection hselection => ?_, fun message _ =>
      hrejected message⟩
    obtain ⟨mode, reason⟩ := selection
    by_cases hstate : normalizeUpper prInfo.state = "MERGED"
    · -- nothing is issued for a pull request that is merged already
      obtain ⟨rfl, rfl⟩ :=
        Prod.mk.inj (Except.ok.inj (hselection.symm.trans (selectMergeMode_merged hstate)))
      exact promotion_promote_none hread hstate
    · obtain ⟨hmode, -⟩ := selectMergeMode_selectsMode hstate mode reason hselection
      exact promotion_promote hdry hmode hstate hread

end Parts

end CompareVI.Merge
