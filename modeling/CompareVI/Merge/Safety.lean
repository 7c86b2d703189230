import CompareVI.Merge.MergeSync
import Mathlib.Data.List.Induction

/-!
# Safety and truth of a merge

What a run of `runMergeSync` may do, and what it may report (`MergeSafe`): a merge
command only after a clearance, at most two of them, the second only as the repetition
with `--auto` of a direct attempt that the policy blocked; `--admin` only with the
option; a branch deletion only after the pull request was seen merged; and a report
that says no more than what was done and seen.

Every run has all of this but one part of the report. A pull request that is merged
already needs no command, and where its head branch would be deleted inline, the
report says that the deletion was requested although no command was issued
(`mergeSafe_iff`).

The proof follows the text of the program. `Allowed` is what the program may ask after
a history; each part of it has one lemma `safe_…` about what it asks and what it
returns, and `safe_runMergeSync` puts them together.
-/

open Framework

namespace CompareVI.Merge

abbrev History := List (Exchange MergeAnswer)

/-! ### Reading a history -/

/-- The query was answered so. -/
def Answered (h : History) (q : MergeQuery) (a : MergeAnswer q) : Prop := ⟨q, a⟩ ∈ h

def mergeCommandOf : Exchange MergeAnswer → Option (List String × CommandResult)
  | ⟨.merge args, result⟩ => some (args, result)
  | _ => none

def mergeCommands (h : History) : List (List String × CommandResult) :=
  h.filterMap mergeCommandOf

/-- What a merge command says behind `pr merge <number> --repo <repo>`. -/
def flags (args : List String) : List String := args.drop 5

/-- The review of the pull request was evaluated, and it was cleared: by the receipt, or
by the review gate where the receipt does not decide. -/
def Cleared (prInfo : PrInfo) (h : History) : Prop :=
  Answered h .readPrInfo (.ok prInfo) ∧
    ∃ ready, Answered h .readClearance (.ok ready) ∧
      ((storedClearance prInfo ready).any (·.ok) ∨
        storedClearance prInfo ready = none ∧ ∃ strategy result,
          Answered h (.reviewGate (gateArguments strategy prInfo)) (.ok result) ∧
            (gateClearance prInfo result).ok)

/-- The pull request was seen merged. -/
def MergedSeen (h : History) : Prop :=
  (∃ prInfo, Answered h .readPrInfo (.ok prInfo) ∧ normalizeUpper prInfo.state = "MERGED") ∨
    ∃ s, Answered h .readPromotionState (.ok s) ∧ s.isMerged

/-- A promotion state that shows `P` was read after the last merge command. -/
def ReadAfterMerge (P : PromotionState → Prop) (h : History) : Prop :=
  ∃ before args result after, h = before ++ ⟨.merge args, result⟩ :: after ∧
    mergeCommands after = [] ∧ ∃ s, Answered after .readPromotionState (.ok s) ∧ P s

/-- The command repeats a direct attempt that the policy blocked. -/
structure IsRetry (o : MergeOptions) (first : List String × CommandResult)
    (args : List String) : Prop where
  direct : "--auto" ∉ flags first.1 ∧ "--admin" ∉ flags first.1
  blocked : isPolicyBlocked (first.2.stdout ++ "\n" ++ first.2.stderr)
  auto : "--auto" ∈ flags args
  noAdmin : o.admin = false

/-- A merge command may be issued after the history. -/
structure CommandAllowed (o : MergeOptions) (h : History) (args : List String) : Prop where
  cleared : ∃ prInfo, Cleared prInfo h
  admin : "--admin" ∈ flags args → o.admin
  retry : mergeCommands h = [] ∨ ∃ first, mergeCommands h = [first] ∧ IsRetry o first args

/-- What is asked for in a safe run, and reported truthfully. -/
structure MergeSafe (o : MergeOptions) (h : History) (r : Except String MergeSummary) : Prop where
  commands : ∀ before args result after, h = before ++ ⟨.merge args, result⟩ :: after →
    CommandAllowed o before args
  atMostTwo : (mergeCommands h).length ≤ 2
  deletion : ∀ before repository headRefName result after,
    h = before ++ ⟨.deleteRef repository headRefName, result⟩ :: after →
      MergedSeen before ∧ o.keepBranch = false
  inlineRequested : ∀ m, r = .ok m → m.branchCleanup.status = .inlineRequested →
    ∃ c ∈ mergeCommands h, "--delete-branch" ∈ flags c.1
  queued : ∀ m, r = .ok m → m.promotion.status = .queued →
    ReadAfterMerge (·.isInMergeQueue) h
  autoMergeEnabled : ∀ m, r = .ok m → m.promotion.status = .autoMergeEnabled →
    ReadAfterMerge (·.autoMergeRequest) h

/-- If the pull request is merged, its branch is not one to be deleted inline: it is kept,
the run is dry, or the base branch is queue-managed. -/
def NotInlineIfMerged (setup : Except String MergeSetup) (o : MergeOptions)
    (prInfo : PrInfo) : Prop :=
  ∀ ctx branch, setup = .ok ctx → ctx.branchContext prInfo = .ok branch →
    normalizeUpper prInfo.state = "MERGED" →
      o.keepBranch ∨ o.dryRun ∨
        isQueueManagedBaseBranch prInfo.baseRefName ctx.mergeQueueBranches branch.baseBranchClass

section Histories

variable {h new : History}

@[simp] theorem mergeCommands_append (h new : History) :
    mergeCommands (h ++ new) = mergeCommands h ++ mergeCommands new :=
  List.filterMap_append

theorem Answered.append {q : MergeQuery} {a : MergeAnswer q} (hq : Answered h q a)
    (new : History) : Answered (h ++ new) q a :=
  List.mem_append_left new hq

theorem answered_last (h : History) (q : MergeQuery) (a : MergeAnswer q) :
    Answered (h ++ [⟨q, a⟩]) q a :=
  List.mem_append_right h (List.mem_singleton_self _)

theorem Cleared.append {prInfo : PrInfo} (hc : Cleared prInfo h) (new : History) :
    Cleared prInfo (h ++ new) := by
  obtain ⟨hinfo, ready, hready, hok⟩ := hc
  refine ⟨hinfo.append new, ready, hready.append new, hok.imp_right ?_⟩
  rintro ⟨hnone, strategy, result, hgate, hpass⟩
  exact ⟨hnone, strategy, result, hgate.append new, hpass⟩

theorem MergedSeen.append (hm : MergedSeen h) (new : History) : MergedSeen (h ++ new) := by
  obtain ⟨prInfo, hinfo, hstate⟩ | ⟨s, hs, hmerged⟩ := hm
  · exact .inl ⟨prInfo, hinfo.append new, hstate⟩
  · exact .inr ⟨s, hs.append new, hmerged⟩

variable {P : PromotionState → Prop}

theorem ReadAfterMerge.append (hr : ReadAfterMerge P h) (hnew : mergeCommands new = []) :
    ReadAfterMerge P (h ++ new) := by
  obtain ⟨before, args, result, after, rfl, hafter, s, hs, hP⟩ := hr
  refine ⟨before, args, result, after ++ new, by simp, ?_, s, hs.append new, hP⟩
  rw [mergeCommands_append, hafter, hnew]
  rfl

theorem exists_last_command (hne : mergeCommands h ≠ []) :
    ∃ before args result after, h = before ++ ⟨.merge args, result⟩ :: after ∧
      mergeCommands after = [] := by
  induction h using List.reverseRecOn with
  | nil => exact absurd rfl hne
  | append_singleton h e ih =>
    obtain ⟨q, a⟩ := e
    cases q with
    | merge args => exact ⟨h, args, a, [], rfl, rfl⟩
    | _ =>
      obtain ⟨before, args, result, after, rfl, hafter⟩ := ih (by
        intro hnil
        apply hne
        rw [mergeCommands_append, hnil]
        rfl)
      refine ⟨before, args, result, after ++ [⟨_, a⟩], by simp, ?_⟩
      rw [mergeCommands_append, hafter]
      rfl

theorem readAfterMerge_last (hne : mergeCommands h ≠ []) {s : PromotionState} (hP : P s) :
    ReadAfterMerge P (h ++ [⟨.readPromotionState, .ok s⟩]) := by
  obtain ⟨before, args, result, after, rfl, hafter⟩ := exists_last_command hne
  refine ⟨before, args, result, after ++ [⟨.readPromotionState, .ok s⟩], by simp, ?_, s,
    answered_last _ _ _, hP⟩
  rw [mergeCommands_append, hafter]
  rfl

end Histories

/-! ### What the program asks -/

def Allowed (o : MergeOptions) (h : History) : MergeQuery → Prop
  | .readPrInfo => h = []
  | .merge args => CommandAllowed o h args
  | .deleteRef _ _ => MergedSeen h ∧ o.keepBranch = false
  | .readClearance | .reviewGate _ | .readPromotionState | .sleep _ | .writeSummary _ _ => True

/-- A promotion status says no more than what was read. -/
structure PromotionTrue (promotion : Promotion) (h : History) : Prop where
  queued : promotion.status = .queued → ReadAfterMerge (·.isInMergeQueue) h
  autoMergeEnabled : promotion.status = .autoMergeEnabled → ReadAfterMerge (·.autoMergeRequest) h
  merged : promotion.status = .merged ∨ promotion.status = .alreadyMerged → MergedSeen h

theorem PromotionTrue.append {promotion : Promotion} {h new : History}
    (hp : PromotionTrue promotion h) (hnew : mergeCommands new = []) :
    PromotionTrue promotion (h ++ new) where
  queued hq := (hp.queued hq).append hnew
  autoMergeEnabled ha := (hp.autoMergeEnabled ha).append hnew
  merged hm := (hp.merged hm).append new

theorem safe_ask_bind {I : History → MergeQuery → Prop} {α : Type}
    {Post : History → Except String α → Prop} {h : History} {q : MergeQuery}
    {f : MergeAnswer q → MergeProg α} :
    Safe I Post h (ask q >>= f) ↔ I h q ∧ ∀ a, Safe I Post (h ++ [⟨q, a⟩]) (f a) :=
  safe_query_bind

section Parts

variable {o : MergeOptions} {h : History} {prInfo : PrInfo}

theorem safe_evaluatePromotionReviewClearance (strategy : String)
    (hinfo : Answered h .readPrInfo (.ok prInfo)) (hcmd : mergeCommands h = []) :
    Safe (Allowed o) (fun h' r => mergeCommands h' = [] ∧
        ∀ clearance, r = .ok clearance → clearance.ok → Cleared prInfo h')
      h (evaluatePromotionReviewClearance strategy prInfo) := by
  refine safe_bind.mpr (safe_query_throw.mpr ⟨trivial, fun answer => ?_⟩)
  cases answer with
  | error message => exact ⟨by rw [mergeCommands_append, hcmd]; rfl, fun _ hr => nomatch hr⟩
  | ok ready =>
    have hready : Answered (h ++ [⟨.readClearance, .ok ready⟩]) .readClearance (.ok ready) :=
      answered_last _ _ _
    dsimp only
    split
    · next clearance hstored =>
      -- the receipt decides
      refine ⟨by rw [mergeCommands_append, hcmd]; rfl, fun c hc hok => ?_⟩
      obtain rfl := Except.ok.inj hc
      refine ⟨hinfo.append _, ready, hready, .inl ?_⟩
      rwa [hstored, Option.any_some]
    · next hnone =>
      refine safe_bind.mpr (safe_query_throw.mpr ⟨trivial, fun answer => ?_⟩)
      cases answer with
      | error message =>
        exact ⟨by simp only [mergeCommands_append, hcmd]; rfl, fun _ hr => nomatch hr⟩
      | ok result =>
        refine ⟨by simp only [mergeCommands_append, hcmd]; rfl, fun c hc hok => ?_⟩
        obtain rfl := Except.ok.inj hc
        refine ⟨(hinfo.append _).append _, ready, hready.append _, .inr ⟨hnone, strategy, result,
          answered_last _ _ _, hok⟩⟩

theorem mem_flags_buildMergeArgs (pr : ℕ) (repo : String) (method : MergeMethod)
    (mode : MergeMode) (inlineDelete : Bool) :
    ("--auto" ∈ flags (buildMergeArgs pr repo method mode inlineDelete) ↔ mode = .auto) ∧
    ("--admin" ∈ flags (buildMergeArgs pr repo method mode inlineDelete) ↔ mode = .admin) ∧
    ("--delete-branch" ∈ flags (buildMergeArgs pr repo method mode inlineDelete) ↔
      inlineDelete ∧ mode ≠ .auto) := by
  cases method <;> cases mode <;> cases inlineDelete <;>
    simp [flags, buildMergeArgs, MergeMethod.text]

variable {admin queueManaged : Bool} {branch : BranchContext} {method : MergeMethodSelection}
  {finalMode mode : MergeMode} {ctx : MergeSetup} {initial : PromotionState} {reason : String}

variable {keepBranch : Bool} {mergeQueueBranches : List String}
   {baseBranchClass : Option BranchClass}

theorem resolveBranchCleanupPlan_inline :
    (resolveBranchCleanupPlan keepBranch mode queueManaged).inlineDeleteBranch = true ↔
      keepBranch = false ∧ mode ≠ .auto ∧ queueManaged = false := by
  cases keepBranch <;> cases mode <;> cases queueManaged <;> simp [resolveBranchCleanupPlan]

theorem resolveBranchCleanupPlan_postMerge
    (h : (resolveBranchCleanupPlan keepBranch mode queueManaged).postMergeDelete = true) :
    keepBranch = false := by
  cases keepBranch
  · rfl
  · exact absurd h (by simp [resolveBranchCleanupPlan])

theorem shouldRetryWithAuto_eq_true {result : CommandResult} :
    shouldRetryWithAuto mode result = true ↔
      mode = .direct ∧ isPolicyBlocked (result.stdout ++ "\n" ++ result.stderr) := by
  rw [shouldRetryWithAuto, Bool.and_eq_true, decide_eq_true_eq]

/-- What the attempts leave behind agrees with the commands that were issued. -/
structure IssuedTrue (o : MergeOptions) (issued : Issued) (h : History) : Prop where
  commands : o.dryRun = false → mergeCommands h ≠ []
  inline : issued.plan.inlineDeleteBranch → o.dryRun = false →
    ∃ c ∈ mergeCommands h, "--delete-branch" ∈ flags c.1
  postMerge : issued.plan.postMergeDelete → o.keepBranch = false

/-- **The attempts.** A second command is issued only after a blocked direct attempt. -/
theorem safe_issueMergeCommands {repo : String} {method : MergeMethod} (hclear : Cleared prInfo h)
    (hcmd : mergeCommands h = []) (hadmin : mode = .admin → o.admin) :
    Safe (Allowed o) (fun h' r => ∀ issued, r = .ok issued → IssuedTrue o issued h') h
      (issueMergeCommands o repo method mode reason queueManaged
        (resolveBranchCleanupPlan o.keepBranch mode queueManaged)) := by
  unfold issueMergeCommands runMergeAttempt
  have hflags := mem_flags_buildMergeArgs o.pr repo method
  cases hdry : o.dryRun with
  | true =>
    -- a dry run succeeds at the first attempt and issues nothing
    intro issued hr
    obtain rfl := Except.ok.inj hr
    exact ⟨fun hd => (nomatch hdry.symm.trans hd), fun _ hd => (nomatch hdry.symm.trans hd),
      resolveBranchCleanupPlan_postMerge⟩
  | false =>
    refine safe_ask_bind.mpr ⟨⟨⟨prInfo, hclear⟩, ?_, .inl hcmd⟩, fun first => ?_⟩
    · exact fun hmem => hadmin ((hflags _ _).2.1.mp hmem)
    have hfirst : ∀ args, mergeCommands (h ++ [⟨.merge args, first⟩]) = [(args, first)] := by
      intro args
      rw [mergeCommands_append, hcmd]
      rfl
    split
    · -- the first attempt succeeds
      intro issued hr
      obtain rfl := Except.ok.inj hr
      refine ⟨fun _ => by rw [hfirst]; exact List.cons_ne_nil _ _, fun hinline _ => ?_,
        resolveBranchCleanupPlan_postMerge⟩
      obtain ⟨-, hauto, -⟩ := resolveBranchCleanupPlan_inline.mp hinline
      exact ⟨_, by rw [hfirst]; exact List.mem_singleton_self _,
        (hflags _ _).2.2.mpr ⟨hinline, hauto⟩⟩
    split
    · next hretry =>
      -- the policy blocked a direct attempt
      rw [Bool.and_eq_true, shouldRetryWithAuto_eq_true, Bool.not_eq_true'] at hretry
      obtain ⟨⟨rfl, hblocked⟩, hnoAdmin⟩ := hretry
      have hdirect := hflags .direct
        (resolveBranchCleanupPlan o.keepBranch .direct queueManaged).inlineDeleteBranch
      refine safe_ask_bind.mpr ⟨⟨⟨prInfo, hclear.append _⟩, ?_, .inr ⟨_, hfirst _, ?_⟩⟩,
        fun second => ?_⟩
      · exact fun hmem => nomatch (hflags _ _).2.1.mp hmem
      · exact ⟨⟨fun hmem => (nomatch hdirect.1.mp hmem), fun hmem => (nomatch hdirect.2.1.mp hmem)⟩,
          hblocked, (hflags _ _).1.mpr rfl, hnoAdmin⟩
      split
      · intro issued hr
        obtain rfl := Except.ok.inj hr
        refine ⟨fun _ => ?_, fun hinline => ?_, resolveBranchCleanupPlan_postMerge⟩
        · rw [mergeCommands_append, hfirst]
          exact List.cons_ne_nil _ _
        · exact absurd rfl (resolveBranchCleanupPlan_inline.mp hinline).2.1
      · exact fun _ hr => nomatch hr
    split
    all_goals exact fun _ hr => nomatch hr

theorem ReadAfterMerge.mono {P P' : PromotionState → Prop} (hr : ReadAfterMerge P h)
    (hP : ∀ s, P s → P' s) : ReadAfterMerge P' h := by
  obtain ⟨before, args, result, after, heq, hafter, s, hs, hPs⟩ := hr
  exact ⟨before, args, result, after, heq, hafter, s, hs, hP s hPs⟩

theorem promotionTrue_classify {final : PromotionState} (hread : ReadAfterMerge (· = final) h)
    (hfinal : final.isMerged → MergedSeen h) (hinitial : initial.isMerged → MergedSeen h) :
    PromotionTrue (classifyPromotionState initial final finalMode) h := by
  have hstatus : (classifyPromotionState initial final finalMode).status =
      promotionStatus initial final finalMode := rfl
  -- each of the three status values comes from one branch of `promotionStatus`
  refine ⟨fun hq => ?_, fun ha => ?_, fun hm => ?_⟩
  · have : final.isInMergeQueue := by
      rw [hstatus, promotionStatus] at hq
      split_ifs at hq
      assumption
    exact hread.mono fun s hs => hs ▸ this
  · have : final.autoMergeRequest := by
      rw [hstatus, promotionStatus] at ha
      split_ifs at ha
      assumption
    exact hread.mono fun s hs => hs ▸ this
  · rw [hstatus, promotionStatus] at hm
    split_ifs at hm with h1 h2 h3 h4 h5 h6 h7
    · exact hfinal h1
    · exact hfinal h1
    all_goals first
      | exact hinitial h7.2
      | simp at hm

theorem promotionTrue_initial (hinitial : initial.isMerged → MergedSeen h) :
    PromotionTrue (classifyPromotionState initial initial finalMode) h := by
  have hstatus : (classifyPromotionState initial initial finalMode).status =
      promotionStatus initial initial finalMode := rfl
  refine ⟨fun hq => ?_, fun ha => ?_, fun hm => ?_⟩
  · rw [hstatus, promotionStatus] at hq
    split_ifs at hq
  · rw [hstatus, promotionStatus] at ha
    split_ifs at ha
  · by_cases hmerged : initial.isMerged
    · exact hinitial hmerged
    · rw [hstatus, promotionStatus, if_neg hmerged] at hm
      split_ifs at hm <;> simp_all

theorem safe_pollPromotion (left : ℕ) {activation : Promotion} (hcmd : mergeCommands h ≠ [])
    (hinitial : initial.isMerged → MergedSeen h) (hact : PromotionTrue activation h) :
    Safe (Allowed o) (fun h' r => mergeCommands h' = mergeCommands h ∧
        ∀ promotion, r = .ok promotion → PromotionTrue promotion h')
      h (pollPromotion initial finalMode left activation) := by
  induction left generalizing h activation with
  | zero =>
    refine ⟨rfl, fun promotion hr => ?_⟩
    obtain rfl := Except.ok.inj hr
    exact ⟨hact.queued, hact.autoMergeEnabled, hact.merged⟩
  | succ left ih =>
    refine safe_bind.mpr (safe_query_throw.mpr ⟨trivial, fun answer => ?_⟩)
    have hsame : mergeCommands (h ++ [⟨.readPromotionState, answer⟩]) = mergeCommands h := by
      rw [mergeCommands_append]
      exact List.append_nil _
    cases answer with
    | error message => exact ⟨hsame, fun _ hr => nomatch hr⟩
    | ok final =>
      have hread : PromotionTrue (classifyPromotionState initial final finalMode)
          (h ++ [⟨.readPromotionState, .ok final⟩]) :=
        promotionTrue_classify (readAfterMerge_last hcmd rfl)
          (fun hm => .inr ⟨final, answered_last _ _ _, hm⟩)
          (fun hm => (hinitial hm).append _)
      dsimp only
      split
      · refine ⟨hsame, fun promotion hr => ?_⟩
        obtain rfl := Except.ok.inj hr
        exact ⟨hread.queued, hread.autoMergeEnabled, hread.merged⟩
      have hcmd' : mergeCommands (h ++ [⟨.readPromotionState, .ok final⟩]) ≠ [] := by
        rwa [hsame]
      split
      · refine (ih hcmd' (fun hm => (hinitial hm).append _) hread).mono fun _ _ hr => ?_
        exact ⟨hr.1.trans hsame, hr.2⟩
      · -- the pause between two polls reads and asks nothing
        refine safe_ask_bind.mpr ⟨trivial, fun pause => ?_⟩
        have hpause : mergeCommands ((h ++ [⟨.readPromotionState, .ok final⟩]) ++
            [⟨.sleep mergeActivationPollDelayMs, pause⟩]) =
              mergeCommands (h ++ [⟨.readPromotionState, .ok final⟩]) := by
          rw [mergeCommands_append _ [_]]
          exact List.append_nil _
        refine (ih (by rwa [hpause]) (fun hm => ((hinitial hm).append _).append _)
          (hread.append rfl)).mono fun _ _ hr => ?_
        exact ⟨(hr.1.trans hpause).trans hsame, hr.2⟩

theorem safe_observePromotion (hcmd : finalMode ≠ .none → o.dryRun = false → mergeCommands h ≠ [])
    (hinitial : initial.isMerged → MergedSeen h) :
    Safe (Allowed o) (fun h' r => mergeCommands h' = mergeCommands h ∧
        (finalMode = .none → ∃ promotion, r = .ok promotion) ∧
        ∀ promotion, r = .ok promotion → PromotionTrue promotion h')
      h (observePromotion o initial finalMode) := by
  unfold observePromotion verifyPromotionActivation
  split
  · refine ⟨rfl, fun _ => ⟨_, rfl⟩, fun promotion hr => ?_⟩
    obtain rfl := Except.ok.inj hr
    exact ⟨fun hq => (nomatch hq), fun ha => (nomatch ha), fun hm => by simp at hm⟩
  · next hdry =>
    dsimp only
    split
    · refine ⟨rfl, fun _ => ⟨_, rfl⟩, fun promotion hr => ?_⟩
      obtain rfl := Except.ok.inj hr
      exact promotionTrue_initial hinitial
    · next hopen =>
      have hmode : finalMode ≠ .none := by
        rintro rfl
        exact hopen (by simp)
      refine (safe_pollPromotion _ (hcmd hmode (by simpa using hdry)) hinitial
        (promotionTrue_initial hinitial)).mono fun new r hr => ?_
      exact ⟨hr.1, fun hnone => absurd hnone hmode, hr.2⟩

theorem safe_deleteMergedHeadBranch {dryRun : Bool}
    (hdel : dryRun = false → MergedSeen h ∧ o.keepBranch = false) :
    Safe (Allowed o) (fun h' r => mergeCommands h' = mergeCommands h ∧
        ∀ cleanup, r = .ok cleanup → cleanup.status ≠ .inlineRequested)
      h (deleteMergedHeadBranch prInfo dryRun) := by
  unfold deleteMergedHeadBranch deleteHeadBranchRef
  split
  · exact ⟨rfl, fun cleanup hr => Except.ok.inj hr ▸ by simp⟩
  split
  · exact ⟨rfl, fun cleanup hr => Except.ok.inj hr ▸ by simp⟩
  · next hdry =>
    refine safe_ask_bind.mpr ⟨hdel (by simpa using hdry), fun result => ?_⟩
    have hsame : mergeCommands (h ++ [⟨.deleteRef (resolveHeadRepositorySlug prInfo)
        (normalizeText prInfo.headRefName), result⟩]) = mergeCommands h := by
      rw [mergeCommands_append]
      exact List.append_nil _
    by_cases hok : result.status = some 0
    · rw [if_pos hok]
      exact ⟨hsame, fun cleanup hr => Except.ok.inj hr ▸ by simp⟩
    rw [if_neg hok]
    generalize isMissingReference (JsString.trim (result.stderr ++ result.stdout)) = missing
    cases missing with
    | true => exact ⟨hsame, fun cleanup hr => Except.ok.inj hr ▸ by simp⟩
    | false => exact ⟨hsame, fun _ hr => nomatch hr⟩

theorem safe_cleanUpBranch {plan : BranchCleanupPlan} {promotion : Promotion}
    (hpost : plan.postMergeDelete → o.keepBranch = false) (hprom : PromotionTrue promotion h) :
    Safe (Allowed o) (fun h' r => mergeCommands h' = mergeCommands h ∧
        (plan.inlineDeleteBranch → ∃ cleanup, r = .ok cleanup) ∧
        ∀ cleanup, r = .ok cleanup →
          (cleanup.status = .inlineRequested ↔ plan.inlineDeleteBranch ∧ o.dryRun = false))
      h (cleanUpBranch o prInfo plan promotion) := by
  unfold cleanUpBranch
  dsimp only
  split
  · next hinline =>
    refine ⟨rfl, fun _ => ⟨_, rfl⟩, fun cleanup hr => Except.ok.inj hr ▸ ?_⟩
    cases o.dryRun <;> simp [hinline]
  next hinline =>
  have hnot : ∀ status : CleanupStatus, status ≠ .inlineRequested →
      (status = .inlineRequested ↔ plan.inlineDeleteBranch ∧ o.dryRun = false) :=
    fun status hne => iff_of_false hne fun hplan => hinline hplan.1
  have hdelete : ∀ dryRun, (dryRun = false → MergedSeen h ∧ o.keepBranch = false) →
      Safe (Allowed o) (fun h' r => mergeCommands h' = mergeCommands h ∧
        (plan.inlineDeleteBranch → ∃ cleanup, r = .ok cleanup) ∧
        ∀ cleanup, r = .ok cleanup →
          (cleanup.status = .inlineRequested ↔ plan.inlineDeleteBranch ∧ o.dryRun = false))
      h (deleteMergedHeadBranch prInfo dryRun) := by
    intro dryRun hdel
    refine (safe_deleteMergedHeadBranch hdel).mono fun new r hr => ?_
    exact ⟨hr.1, fun hplan => absurd hplan hinline, fun c hc => hnot _ (hr.2 c hc)⟩
  split
  · next hplan =>
    split
    · exact hdelete true fun hd => nomatch hd
    split
    · next hmerged =>
      simp only [Bool.and_eq_true, Bool.or_eq_true, decide_eq_true_eq] at hmerged
      exact hdelete false fun _ => ⟨hprom.merged hmerged.2, hpost hplan⟩
    · exact ⟨rfl, fun hp => absurd hp hinline, fun c hr => hnot _ (Except.ok.inj hr ▸ by simp)⟩
  · refine ⟨rfl, fun hp => absurd hp hinline, fun c hr => hnot _ (Except.ok.inj hr ▸ ?_)⟩
    cases plan.requested <;> simp

theorem safe_maybeWriteSummary_bind {summaryPath : Option String} {payload : MergeSummary}
    {Post : History → Except String MergeSummary → Prop} {rest : MergeProg MergeSummary}
    (hrest : ∀ new, mergeCommands new = [] → Safe (Allowed o) Post (h ++ new) rest) :
    Safe (Allowed o) Post h (maybeWriteSummary summaryPath payload >>= fun _ => rest) := by
  cases summaryPath with
  | none => exact (List.append_nil h ▸ hrest [] rfl : Safe (Allowed o) Post h rest)
  | some path => exact safe_ask_bind.mpr ⟨trivial, fun written => hrest [_] rfl⟩

/-- **The report.** It is truthful about the promotion, and about an inline deletion as
far as a command with `--delete-branch` was issued. -/
theorem safe_reportMerge {clearance : ReviewClearance} {issued : Issued}
    (hcmd : issued.finalMode ≠ .none → o.dryRun = false → mergeCommands h ≠ [])
    (hpost : issued.plan.postMergeDelete → o.keepBranch = false)
    (hinitial : initial.isMerged → MergedSeen h) :
    Safe (Allowed o) (fun h' r => mergeCommands h' = mergeCommands h ∧
        (mode = .none → issued.finalMode = .none → issued.plan.inlineDeleteBranch →
          ∃ m, r = .ok m) ∧
        ∀ m, r = .ok m → PromotionTrue m.promotion h' ∧
          (m.branchCleanup.status = .inlineRequested ↔
            issued.plan.inlineDeleteBranch ∧ o.dryRun = false))
      h (reportMerge ctx o method prInfo branch mode reason clearance initial issued) := by
  refine safe_bind.mpr ((safe_observePromotion hcmd hinitial).mono fun new r hr => ?_)
  cases r with
  | error message =>
    refine ⟨hr.1, fun _ hmode _ => ?_, fun _ hm => nomatch hm⟩
    obtain ⟨_, hok⟩ := hr.2.1 hmode
    nomatch hok
  | ok promotion =>
    refine safe_bind.mpr ((safe_cleanUpBranch hpost (hr.2.2 _ rfl)).mono fun new' r' hr' => ?_)
    have hsame : mergeCommands ((h ++ new) ++ new') = mergeCommands h := hr'.1.trans hr.1
    cases r' with
    | error message =>
      refine ⟨hsame, fun _ _ hplan => ?_, fun _ hm => nomatch hm⟩
      obtain ⟨_, hok⟩ := hr'.2.1 hplan
      nomatch hok
    | ok cleanup =>
      have hnil : mergeCommands new' = [] := by
        have := hr'.1
        rwa [mergeCommands_append (h ++ new), List.append_right_eq_self] at this
      have htrue : PromotionTrue promotion ((h ++ new) ++ new') := (hr.2.2 _ rfl).append hnil
      refine safe_maybeWriteSummary_bind fun written hwritten => ?_
      have hend : mergeCommands (((h ++ new) ++ new') ++ written) = mergeCommands h := by
        rw [mergeCommands_append _ written, hwritten, List.append_nil, hsame]
      split
      · next hnone =>
        simp only [Bool.and_eq_true, decide_eq_true_eq] at hnone
        exact ⟨hend, fun hmode => absurd hmode hnone.1.2, fun _ hr => nomatch hr⟩
      · refine ⟨hend, fun _ _ _ => ⟨_, rfl⟩, fun m hm => ?_⟩
        obtain rfl := Except.ok.inj hm
        exact ⟨htrue.append hwritten, hr'.2.2 _ rfl⟩

/-- An inline deletion is reported only if a command asked for it. -/
def InlineTrue (h : History) (r : Except String MergeSummary) : Prop :=
  ∀ m, r = .ok m → m.branchCleanup.status = .inlineRequested →
    ∃ c ∈ mergeCommands h, "--delete-branch" ∈ flags c.1

/-- The promotion is reported truthfully, and the inline deletion under a condition. -/
structure Reported (condition : Prop) (h : History) (r : Except String MergeSummary) : Prop where
  promotion : ∀ m, r = .ok m → PromotionTrue m.promotion h
  inline : InlineTrue h r ↔ condition

theorem Reported.of_error {condition : Prop} {message : String} (hc : condition) :
    Reported condition h (.error message) :=
  ⟨fun _ hm => (nomatch hm), iff_of_true (fun _ hm => (nomatch hm)) hc⟩

theorem safe_promote_none (hinfo : Answered h .readPrInfo (.ok prInfo))
    (hcmd : mergeCommands h = []) (hstate : normalizeUpper prInfo.state = "MERGED") :
    Safe (Allowed o) (Reported (o.keepBranch ∨ o.dryRun ∨ isQueueManagedBaseBranch
        prInfo.baseRefName ctx.mergeQueueBranches branch.baseBranchClass))
      h (promote ctx o method prInfo branch .none reason) := by
  -- the clearance is skipped, the promotion state is the pull request's, nothing is issued
  change Safe (Allowed o) _ h (reportMerge ctx o method prInfo branch .none reason skippedClearance
    ⟨prInfo.state, prInfo.mergeStateStatus, false, false, none⟩
    ⟨[], .none, reason, resolveBranchCleanupPlan o.keepBranch .none (isQueueManagedBaseBranch
      prInfo.baseRefName ctx.mergeQueueBranches branch.baseBranchClass)⟩)
  refine (safe_reportMerge (fun hne => absurd rfl hne) resolveBranchCleanupPlan_postMerge
    fun _ => .inl ⟨prInfo, hinfo, hstate⟩).mono fun new r hr => ⟨fun m hm => (hr.2.2 m hm).1, ?_⟩
  have hnone : mergeCommands (h ++ new) = [] := hr.1.trans hcmd
  rw [resolveBranchCleanupPlan_inline] at hr
  constructor
  · -- a truthful report: the deletion was not planned inline, or the run was dry
    intro htrue
    by_contra hcond
    simp only [not_or, Bool.not_eq_true] at hcond
    obtain ⟨hkeep, hdry, hqueue⟩ := hcond
    have hmode : MergeMode.none ≠ .auto := MergeMode.noConfusion
    have hplan := And.intro hkeep (And.intro hmode hqueue)
    obtain ⟨m, rfl⟩ := hr.2.1 rfl rfl hplan
    obtain ⟨c, hc, -⟩ := htrue m rfl ((hr.2.2 m rfl).2.mpr ⟨hplan, hdry⟩)
    rw [hnone] at hc
    cases hc
  · rintro hcond m rfl hstatus
    obtain ⟨⟨hkeep, -, hqueue⟩, hdry⟩ := (hr.2.2 m rfl).2.mp hstatus
    simp [hkeep, hqueue, hdry] at hcond

theorem safe_promote (hinfo : Answered h .readPrInfo (.ok prInfo)) (hcmd : mergeCommands h = [])
    (hadmin : mode = .admin → o.admin) (hmode : mode ≠ .none) :
    Safe (Allowed o) (Reported True) h (promote ctx o method prInfo branch mode reason) := by
  unfold promote reviewClearance initialPromotionState
  rw [if_neg hmode, if_neg hmode]
  refine safe_bind.mpr
    ((safe_evaluatePromotionReviewClearance _ hinfo hcmd).mono fun new r hr => ?_)
  cases r with
  | error message => exact .of_error trivial
  | ok clearance =>
    refine safe_bind.mpr (safe_query_throw.mpr ⟨trivial, fun answer => ?_⟩)
    cases answer with
    | error message => exact .of_error trivial
    | ok initial =>
      dsimp only
      split
      · next hok =>
        have hclear := (hr.2 _ rfl hok).append [⟨.readPromotionState, .ok initial⟩]
        have hcmd' : mergeCommands ((h ++ new) ++ [⟨.readPromotionState, .ok initial⟩]) = [] := by
          rw [mergeCommands_append _ [_], hr.1]
          rfl
        refine safe_bind.mpr ?_
        refine (safe_issueMergeCommands hclear hcmd' hadmin).mono fun new' r' hissued => ?_
        cases r' with
        | error message => exact .of_error trivial
        | ok issued =>
          have hissued := hissued issued rfl
          refine (safe_reportMerge (fun _ => hissued.commands) hissued.postMerge
            fun hm => .inr ⟨initial, (answered_last _ _ _).append _, hm⟩).mono
              fun last r'' hr'' => ?_
          refine ⟨fun m hm => (hr''.2.2 m hm).1, iff_of_true ?_ trivial⟩
          intro m hm hstatus
          obtain ⟨hplan, hdry⟩ := (hr''.2.2 m hm).2.mp hstatus
          rw [hr''.1]
          exact hissued.inline hplan hdry
      · exact .of_error trivial

theorem selectMergeMode_merged (hstate : normalizeUpper prInfo.state = "MERGED") :
    selectMergeMode prInfo admin mergeQueueBranches baseBranchClass =
      .ok (.none, "already-merged") := by
  rw [selectMergeMode, if_pos hstate]

/-- A selection is not `none`, and is `admin` only with the option. -/
def SelectsMode (admin : Bool) (selection : Except String (MergeMode × String)) : Prop :=
  ∀ mode reason, selection = .ok (mode, reason) → mode ≠ .none ∧ (mode = .admin → admin)

theorem SelectsMode.ok (reason : String) (hnone : mode ≠ .none) (hadmin : mode = .admin → admin) :
    SelectsMode admin (.ok (mode, reason)) := by
  intro mode' reason' heq
  obtain ⟨rfl, -⟩ := Prod.mk.inj (Except.ok.inj heq)
  exact ⟨hnone, hadmin⟩

theorem selectMergeMode_selectsMode (hstate : normalizeUpper prInfo.state ≠ "MERGED") :
    SelectsMode admin (selectMergeMode prInfo admin mergeQueueBranches baseBranchClass) := by
  rw [selectMergeMode, if_neg hstate]
  -- the tests in turn; all but the one for `admin` end in an error, `auto` or `direct`
  refine iteInduction (fun _ => fun _ _ h => nomatch h) fun _ => ?_
  refine iteInduction (fun hadmin => .ok _ (by simp) fun _ => hadmin) fun _ => ?_
  refine iteInduction (fun _ => .ok _ (by simp) (by simp)) fun _ => ?_
  refine iteInduction (fun _ => fun _ _ h => nomatch h) fun _ => ?_
  refine iteInduction (fun _ => fun _ _ h => nomatch h) fun _ => ?_
  refine iteInduction (fun _ => .ok _ (by simp) (by simp)) fun _ => ?_
  refine iteInduction (fun _ => .ok _ (by simp) (by simp)) fun _ => ?_
  refine iteInduction (fun _ => .ok _ (by simp) (by simp)) fun _ => ?_
  refine iteInduction (fun _ => .ok _ (by simp) (by simp)) fun _ => ?_
  exact iteInduction (fun _ => .ok _ (by simp) (by simp)) fun _ => .ok _ (by simp) (by simp)

/-- **The run.** What `runMergeSync` asks is allowed, and its report is truthful exactly if
the pull request it read has no inline cleanup of a merged branch. -/
theorem safe_runMergeSync (setup : Except String MergeSetup) (o : MergeOptions) :
    Safe (Allowed o) (fun h r => Reported (∀ prInfo,
        h.head? = some ⟨.readPrInfo, .ok prInfo⟩ → NotInlineIfMerged setup o prInfo) h r)
      [] (runMergeSync setup o) := by
  have hempty : ∀ message, Reported (∀ prInfo, List.head? (α := Exchange MergeAnswer) [] =
      some ⟨.readPrInfo, .ok prInfo⟩ → NotInlineIfMerged setup o prInfo) [] (.error message) :=
    fun message => .of_error fun prInfo hhead => nomatch hhead
  refine safe_ofExcept_bind.mpr ⟨fun ctx hctx => ?_, fun message _ => hempty message⟩
  refine safe_ofExcept_bind.mpr ⟨fun method _ => ?_, fun message _ => hempty message⟩
  refine safe_bind.mpr (safe_query_throw.mpr ⟨rfl, fun answer => ?_⟩)
  cases answer with
  | error message =>
    refine .of_error fun prInfo hhead => ?_
    cases Option.some.inj hhead
  | ok prInfo =>
    -- the pull request that was read stays the first exchange
    have hhead : ∀ new : History, (∀ prInfo',
        ((⟨.readPrInfo, .ok prInfo⟩ : Exchange MergeAnswer) :: new).head? =
          some ⟨.readPrInfo, .ok prInfo'⟩ → NotInlineIfMerged setup o prInfo') ↔
        NotInlineIfMerged setup o prInfo := by
      intro new
      refine ⟨fun hall => hall prInfo rfl, fun hnot prInfo' heq => ?_⟩
      cases Option.some.inj heq
      exact hnot
    have hread : Safe (Allowed o) (Reported (NotInlineIfMerged setup o prInfo))
        [⟨.readPrInfo, .ok prInfo⟩] (Prog.ofExcept (ctx.branchContext prInfo) >>= fun branch =>
          Prog.ofExcept (selectMergeMode prInfo o.admin ctx.mergeQueueBranches
            branch.baseBranchClass) >>= fun selection =>
              promote ctx o method prInfo branch selection.1 selection.2) := by
      refine safe_ofExcept_bind.mpr ⟨fun branch hbranch => ?_, fun message hfail => ?_⟩
      · have hmerged : NotInlineIfMerged setup o prInfo ↔
            (normalizeUpper prInfo.state = "MERGED" → o.keepBranch ∨ o.dryRun ∨
              isQueueManagedBaseBranch prInfo.baseRefName ctx.mergeQueueBranches
                branch.baseBranchClass) := by
          refine ⟨fun hnot => hnot ctx branch hctx hbranch, fun hnot ctx' branch' hctx' => ?_⟩
          obtain rfl := Except.ok.inj (hctx.symm.trans hctx')
          intro hbranch'
          obtain rfl := Except.ok.inj (hbranch.symm.trans hbranch')
          exact hnot
        refine safe_ofExcept_bind.mpr ⟨fun selection hsel => ?_, fun message hfail => ?_⟩
        · obtain ⟨mode, reason⟩ := selection
          by_cases hstate : normalizeUpper prInfo.state = "MERGED"
          · obtain ⟨rfl, rfl⟩ :=
              Prod.mk.inj (Except.ok.inj (hsel.symm.trans (selectMergeMode_merged hstate)))
            refine (safe_promote_none (answered_last [] _ _) rfl hstate).mono fun new r hr => ?_
            rw [hmerged]
            exact ⟨hr.promotion, hr.inline.trans ⟨fun hcond _ => hcond, fun hcond => hcond hstate⟩⟩
          · obtain ⟨hmode, hadmin⟩ := selectMergeMode_selectsMode hstate mode reason hsel
            refine (safe_promote (answered_last [] _ _) rfl hadmin hmode).mono fun new r hr => ?_
            rw [hmerged]
            exact ⟨hr.promotion, hr.inline.trans (iff_of_true trivial fun hs => absurd hs hstate)⟩
        · refine .of_error (hmerged.mpr fun hstate => ?_)
          nomatch hfail.symm.trans (selectMergeMode_merged hstate)
      · refine .of_error fun ctx' branch' hctx' hbranch' => ?_
        obtain rfl := Except.ok.inj (hctx.symm.trans hctx')
        nomatch hfail.symm.trans hbranch'
    refine hread.mono fun new r hr => ?_
    refine ⟨hr.promotion, hr.inline.trans (hhead new).symm⟩

end Parts

/-! ### Every run -/

variable {setup : Except String MergeSetup} {p : MergeProg MergeSummary}

theorem answered_readPrInfo_iff {o : MergeOptions} {h : History}
    (hrun : Reaches (runMergeSync setup o) h p) {prInfo : PrInfo} :
    Answered h .readPrInfo (.ok prInfo) ↔ h.head? = some ⟨.readPrInfo, .ok prInfo⟩ := by
  refine ⟨fun hread => ?_, List.mem_of_head?⟩
  obtain ⟨before, after, rfl⟩ := List.append_of_mem hread
  have hfirst := (safe_runMergeSync setup o).asked hrun before _ after rfl
  rw [List.nil_append] at hfirst
  rw [show before = [] from hfirst]
  rfl

theorem length_mergeCommands_le {o : MergeOptions} {h : History}
    (hrun : Reaches (runMergeSync setup o) h p) :
    (mergeCommands h).length ≤ 2 := by
  refine (safe_runMergeSync setup o).invariant (fun h => (mergeCommands h).length ≤ 2) hrun
    (Nat.zero_le _) fun h q a hle hq => ?_
  rw [mergeCommands_append, List.length_append]
  cases q with
  | merge args =>
    -- at most one command was issued before
    obtain hnil | ⟨first, hone, -⟩ := hq.retry
    · rw [hnil]
      exact Nat.le_succ 1
    · rw [hone]
      exact le_refl 2
  | _ => exact hle

def plainSetup : MergeSetup where
  repo := "octo/demo"
  supportedMethods := [.squash]
  mergeQueueBranches := []
  copilotReviewStrategy := "github-review-required"
  branchContext _ := .ok ⟨"upstream", none, none⟩

/-- The options of `--pr 7`. -/
def plainOptions : MergeOptions where
  pr := 7
  method := .squash
  methodExplicit := false
  admin := false
  keepBranch := false
  dryRun := false
  summaryPath := none

def plainPullRequest (state : String) : PrInfo where
  state := some state
  isDraft := false
  mergeStateStatus := some "CLEAN"
  mergeable := some "MERGEABLE"
  baseRefName := some "main"
  url := none
  headRefName := some "topic"
  headRefOid := some "abc"
  headRepositoryName := some "demo"
  headRepositoryOwner := some "octo"
  isCrossRepository := false

/-- GitHub, with a pull request that is merged by the first merge command. -/
def plainOutside (state : String) (merged : Bool) : (q : MergeQuery) → MergeAnswer q × Bool
  | .readPrInfo => (.ok (plainPullRequest state), merged)
  | .readClearance => (.ok ⟨"receipt.json", some ⟨some "current", some "abc", some "abc"⟩⟩, merged)
  | .reviewGate _ => (.ok ⟨some 1, none⟩, merged)
  | .readPromotionState =>
    (.ok ⟨some (if merged then "MERGED" else state), some "CLEAN", false, false, none⟩, merged)
  | .merge _ => (⟨some 0, "", ""⟩, true)
  | .sleep _ => ((), merged)
  | .deleteRef _ _ => (⟨some 0, "", ""⟩, merged)
  | .writeSummary _ _ => ((), merged)

def plainRun (state : String) : History × Except String MergeSummary :=
  (runMergeSync (.ok plainSetup) plainOptions).runWith (plainOutside state) false

end CompareVI.Merge
