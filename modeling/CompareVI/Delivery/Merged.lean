import CompareVI.Delivery.Finalize
import CompareVI.Merge.Promotion

/-!
# Nothing is finalised before the merge

The turn is to close an issue, take its standing labels off, or report the outcome `merged`
only when merge-sync has seen the pull request in the state `MERGED`. The turn goes by the
exit status of merge-sync alone, and that is 0 also for a promotion that is pending: for the
answers GitHub gave to merge-sync, every run of the turn keeps to the rule exactly if they do
not leave the promotion pending (`mergeTruthful_iff`).

A run of the turn is a run of merge-sync, followed by a run of the finalisation if it ended
normally (`mergePrTurn_runs`).
-/

open Framework

namespace CompareVI.Delivery

abbrev TurnHistory := List (Exchange TurnAnswer)

def mergeHistory (h : TurnHistory) : Merge.History := mergePart.history h

def TurnQuery.Finalizes : TurnQuery → Prop
  | .closeIssue _ _ => True
  | .editIssueLabels _ _ => True
  | .reconcile (.removeLabels _ _) => True
  | .reconcile (.closeIssue _ _) => True
  | _ => False

/-- The issue was finalised, and the merge reported, only after the pull request was seen
merged. -/
structure MergedOnly (h : TurnHistory) (r : Except String TurnResult) : Prop where
  finalizes : ∀ before e after, h = before ++ e :: after → e.query.Finalizes →
    Merge.MergedSeen (mergeHistory before)
  reported : ∀ result, r = .ok result → result.outcome = .merged →
    Merge.MergedSeen (mergeHistory h)

/-- Every run of the turn in which GitHub answers merge-sync so. -/
def MergeTruthful (setup : Except String Merge.MergeSetup) (standingPriorityLabels : List String)
    (packet : TaskPacket) (answers : Merge.History) : Prop :=
  ∀ h r, Runs (mergePrTurn setup standingPriorityLabels packet) h r →
    mergeHistory h = answers → MergedOnly h r

/-! ### The finalisation -/

section Finalisation

variable {standingPriorityLabels : List String} {packet : TaskPacket}

def TurnQuery.NotMerge (q : TurnQuery) : Prop := ∀ query, q ≠ .mergeSync query

theorem asks_turnCall {α : Type} {q : TurnQuery} {read : TurnAnswer q → Except String α}
    (hq : q.NotMerge) : Asks TurnQuery.NotMerge (fun _ => True) (turnCall q read) :=
  ⟨hq, fun _ => asks_ofExcept fun _ => trivial⟩

section

attribute [local irreducible] JsString.trim

theorem asks_finalizeMergedPullRequest :
    Asks TurnQuery.NotMerge (fun _ => True)
      (finalizeMergedPullRequest standingPriorityLabels packet) := by
  unfold finalizeMergedPullRequest
  cases packet.selectedIssueNumber with
  | none => trivial
  | some issue =>
    dsimp only
    split
    · trivial
    · have hlabels : Asks TurnQuery.NotMerge (fun _ => True)
          (hydrateStandingLabels standingPriorityLabels packet issue) := by
        unfold hydrateStandingLabels
        refine iteInduction (fun _ => ?_) fun _ => trivial
        exact (asks_caught (asks_turnCall (by rintro _ ⟨⟩))).bind fun _ _ => trivial
      refine hlabels.bind fun labels _ => iteInduction (fun _ => ?_) fun _ => ?_
      · exact (asks_child (by rintro _ _ ⟨⟩)).bind fun _ _ => trivial
      · refine (asks_turnCall (by rintro _ ⟨⟩)).bind fun _ _ => ?_
        refine Asks.bind (P := fun _ => True) ?_ fun _ _ => trivial
        refine iteInduction (fun _ => trivial) fun _ => ?_
        exact (asks_turnCall (by rintro _ ⟨⟩)).bind fun _ _ => trivial

end

theorem mergeHistory_eq_nil {h : TurnHistory} (hh : ∀ e ∈ h, e.query.NotMerge) :
    mergeHistory h = [] := by
  refine List.filterMap_eq_nil_iff.mpr fun e he => ?_
  obtain ⟨q, a⟩ := e
  cases q with
  | mergeSync query => exact absurd rfl (hh _ he query)
  | _ => rfl

/-- The tracker shows an open issue without labels, and every call of the reconciliation
succeeds. -/
def plainReconcile : (q : Standing.ReconcileQuery) → Standing.ReconcileAnswer q
  | .prepare => .ok ""
  | .viewIssue _ => .ok ⟨"OPEN", []⟩
  | .readMergeSummary | .readRouter | .readCache => .ok none
  | .removeLabels _ _ | .closeIssue _ _ | .commentIssue _ _ => .ok ()
  | .syncStandingPriority | .writeReceipt _ => .ok ()

variable (packet) in
theorem exists_completed_reconciliation (issue : ℕ) :
    ∃ h receipt, Runs (Standing.runStandingReconciliation (reconcileOptions packet issue)) h
      (.ok receipt) ∧ reconcileFailure (.ok receipt) = none := by
  have hruns := runs_runWith (fun _ q => (plainReconcile q, ())) ()
    (Standing.runStandingReconciliation (reconcileOptions packet issue))
  exact ⟨_, _, hruns, rfl⟩

theorem runs_turnCall {q : TurnQuery} {f : TurnAnswer q → Except String Unit}
    (a : TurnAnswer q) (ha : f a = .ok ()) : Runs (turnCall q f) [⟨q, a⟩] (.ok ()) := by
  have hend : Runs (A := TurnAnswer) (.ofExcept (f a)) [] (.ok ()) := by
    rw [ha]
    exact .refl
  exact Reaches.ask hend

theorem exists_completed_removal (repository : String) (issue : ℕ) (labels : List String) :
    ∃ h calls, Runs (removeMergedLabels repository issue labels) h (.ok calls) := by
  unfold removeMergedLabels
  by_cases hnone : labels = []
  · rw [if_pos hnone]
    exact ⟨[], _, .refl⟩
  · rw [if_neg hnone]
    exact ⟨_, _, (runs_turnCall (q := .editIssueLabels _ _) (.ok ()) rfl).bind .refl⟩

variable (standingPriorityLabels packet) in
theorem exists_completed_finalization :
    ∃ h finalization, Runs (finalizeMergedPullRequest standingPriorityLabels packet) h
      (.ok finalization) ∧ finalization.standingSelectionWarning = "" := by
  unfold finalizeMergedPullRequest
  cases packet.selectedIssueNumber with
  | none => exact ⟨[], _, .refl, rfl⟩
  | some issue =>
    dsimp only
    split
    · exact ⟨[], _, .refl, rfl⟩
    · have hlabels : ∃ h labels,
          Runs (hydrateStandingLabels standingPriorityLabels packet issue) h (.ok labels) := by
        unfold hydrateStandingLabels
        by_cases hfetch : packet.standingIssueNumber ≠ some issue ∧
            mergedStandingLabels standingPriorityLabels (packet.selected.bind (·.labels)) = []
        · rw [if_pos hfetch]
          have hfetched : Runs (turnCall (.fetchIssue issue) id) [⟨.fetchIssue issue, .ok none⟩]
              (.ok none) := Reaches.ask .refl
          exact ⟨_, _, hfetched.caught.bind .refl⟩
        · rw [if_neg hfetch]
          exact ⟨[], _, .refl⟩
      obtain ⟨first, labels, hfirst⟩ := hlabels
      have hrest : ∃ h finalization, Runs (if packet.standingIssueNumber = some issue then do
            let ended ← (Standing.runStandingReconciliation (reconcileOptions packet issue)).child
              reconcilePart
            pure (standingFinalization issue ended)
          else finalizeSelectedIssue packet issue labels) h (.ok finalization) ∧
            finalization.standingSelectionWarning = "" := by
        split
        · obtain ⟨h, receipt, hreceipt, hcompleted⟩ :=
            exists_completed_reconciliation packet issue
          refine ⟨_, _, (Runs.child hreceipt).bind .refl, ?_⟩
          unfold standingFinalization
          rw [hcompleted]
        · obtain ⟨last, calls, hlast⟩ :=
            exists_completed_removal (normalizeText packet.repository) issue labels
          have hclosed := runs_turnCall (q := .closeIssue issue (JsString.trim
            (buildMergedIssueCloseComment issue (PullRequestRef.resolve packet.pullRequest)
              (optionText (packet.pullRequest.bind (·.url))) none ""))) (f := id) (.ok ()) rfl
          exact ⟨_, _, hclosed.bind (hlast.bind .refl), rfl⟩
      obtain ⟨rest, finalization, hruns, hsilent⟩ := hrest
      exact ⟨_, finalization, hfirst.bind hruns, hsilent⟩

end Finalisation

/-! ### The turn -/

section Turn

variable {setup : Except String Merge.MergeSetup} {standingPriorityLabels : List String}
  {packet : TaskPacket}

theorem not_finalizes_mergeSync (q : Merge.MergeQuery) :
    ¬ TurnQuery.Finalizes (.mergeSync q) := id

/-- What a run of the turn consists of, if the packet names a pull request: a run of merge-sync,
and if that ended normally, one of the finalisation. -/
structure TurnRun (setup : Except String Merge.MergeSetup) (standingPriorityLabels : List String)
    (packet : TaskPacket) (number : ℕ) (h : TurnHistory) (r : Except String TurnResult)
    (first rest : TurnHistory) (x : Except String Merge.MergeSummary) : Prop where
  program : mergePullRequest setup packet =
    (Merge.runMergeSync setup (mergeSyncOptions number)).child mergePart >>= fun ended =>
      pure (mergeResult number ended)
  history : h = first ++ rest
  merged : Runs (Merge.runMergeSync setup (mergeSyncOptions number)) (mergeHistory first) x
  firstQueries : ∀ e ∈ first, ∃ q, e.query = .mergeSync q
  restQueries : ∀ e ∈ rest, e.query.NotMerge
  failed : ∀ message, x = .error message → rest = [] ∧ r = .ok (mergeBlocked message)
  finished : ∀ m, x = .ok m → ∃ y,
    Runs (finalizeMergedPullRequest standingPriorityLabels packet) rest y ∧
      r = .ok (turnResult (mergeCompleted number) y)

theorem mergeBlocked_status (message : String) : (mergeBlocked message).status ≠ .completed :=
  TurnStatus.noConfusion

theorem mergePrTurn_rest {number : ℕ} {x : Except String Merge.MergeSummary} {rest : TurnHistory}
    {r : Except String TurnResult}
    (hr : Runs (if (mergeResult number x).status ≠ .completed ∨
        (mergeResult number x).outcome ≠ .merged then pure (mergeResult number x)
      else (finalizeMergedPullRequest standingPriorityLabels packet).caught >>= fun ended =>
        pure (turnResult (mergeResult number x) ended) : TurnM TurnResult) rest r) :
    (∀ message, x = .error message → rest = [] ∧ r = .ok (mergeBlocked message)) ∧
      ∀ m, x = .ok m → ∃ y, Runs (finalizeMergedPullRequest standingPriorityLabels packet) rest y ∧
        r = .ok (turnResult (mergeCompleted number) y) := by
  cases x with
  | error message =>
    rw [if_pos (.inl (mergeBlocked_status message))] at hr
    obtain ⟨rfl, rfl⟩ := Runs.done_inv hr
    refine ⟨fun message' heq => ?_, fun m heq => nomatch heq⟩
    obtain rfl := Except.error.inj heq
    exact ⟨rfl, rfl⟩
  | ok summary =>
    rw [if_neg (fun h => h.elim (fun hne => hne rfl) fun hne => hne rfl)] at hr
    refine ⟨fun message heq => (nomatch heq), fun m _ => ?_⟩
    rcases Runs.bind_inv hr with ⟨first, last, ended, rfl, hfirst, hlast⟩ | ⟨message, hthrown, -⟩
    · obtain ⟨y, hy, hruns⟩ := Runs.caught_inv hfirst
      obtain rfl := Except.ok.inj hy
      obtain ⟨rfl, rfl⟩ := Runs.done_inv hlast
      rw [List.append_nil]
      exact ⟨ended, hruns, rfl⟩
    · obtain ⟨y, hy, -⟩ := Runs.caught_inv hthrown
      exact nomatch hy

/-- **The runs of a turn.** -/
theorem mergePrTurn_runs {h : TurnHistory} {r : Except String TurnResult}
    (hr : Runs (mergePrTurn setup standingPriorityLabels packet) h r) :
    (h = [] ∧ ∃ message, r = .error message) ∨ ∃ number first rest x,
      TurnRun setup standingPriorityLabels packet number h r first rest x := by
  unfold mergePrTurn at hr
  have hthrows : ∀ f : TurnResult → TurnM TurnResult, Runs
      ((.fail "Merge action requires repository and pull request number." : TurnM TurnResult) >>= f)
      h r → h = [] ∧ ∃ message, r = .error message := fun f hfail => by
    obtain ⟨hnil, hr⟩ := Runs.fail_inv hfail
    exact ⟨hnil, _, hr⟩
  cases hnumber : PullRequestRef.resolve packet.deliveryPullRequest with
  | none =>
    rw [mergePullRequest, hnumber] at hr
    exact .inl (hthrows _ hr)
  | some number =>
    by_cases hrepository : normalizeText packet.repository = ""
    · rw [mergePullRequest, hnumber] at hr
      dsimp only at hr
      rw [if_pos hrepository] at hr
      exact .inl (hthrows _ hr)
    · have hprogram : mergePullRequest setup packet =
          (Merge.runMergeSync setup (mergeSyncOptions number)).child mergePart >>= fun ended =>
            pure (mergeResult number ended) := by
        rw [mergePullRequest, hnumber]
        dsimp only
        rw [if_neg hrepository]
      rw [hprogram, Prog.bind_assoc] at hr
      rcases Runs.bind_inv hr with ⟨first, rest, x, rfl, hfirst, hrest⟩ | ⟨message, hthrown, -⟩
      · obtain ⟨y, hy, hmerge, hqueries⟩ := Runs.child_inv hfirst
        obtain rfl := Except.ok.inj hy
        obtain ⟨hfailed, hfinished⟩ := mergePrTurn_rest hrest
        refine .inr ⟨number, first, rest, x, hprogram, rfl, hmerge, hqueries, fun e he => ?_,
          hfailed, hfinished⟩
        cases x with
        | error message =>
          rw [(hfailed message rfl).1] at he
          cases he
        | ok m =>
          obtain ⟨y, hruns, -⟩ := hfinished m rfl
          exact (asks_finalizeMergedPullRequest.runs hruns).1 e he
      · obtain ⟨y, hy, -⟩ := Runs.child_inv hthrown
        exact nomatch hy

variable {number : ℕ} {h first rest : TurnHistory} {r : Except String TurnResult}
  {x : Except String Merge.MergeSummary}

section

variable (hrun : TurnRun setup standingPriorityLabels packet number h r first rest x)

include hrun

theorem TurnRun.mergeHistory_eq : mergeHistory h = mergeHistory first := by
  rw [hrun.history]
  unfold mergeHistory
  rw [Part.history_append]
  exact (congrArg _ (mergeHistory_eq_nil hrun.restQueries)).trans (List.append_nil _)

theorem TurnRun.endsPending : Merge.EndsPending (mergeHistory h) x := by
  rw [hrun.mergeHistory_eq]
  exact Safe.result (Merge.promotion_runMergeSync setup rfl) hrun.merged

theorem TurnRun.finalizes (hseen : ∀ m, x = .ok m → Merge.MergedSeen (mergeHistory h)) :
    ∀ before e after, h = before ++ e :: after → e.query.Finalizes →
      Merge.MergedSeen (mergeHistory before) := by
  intro before e after hsplit hfinalizes
  rcases List.append_eq_append_iff.mp (hrun.history.symm.trans hsplit) with
    ⟨extra, rfl, htail⟩ | ⟨extra, hfirst, htail⟩
  · -- the exchange belongs to the finalisation, so merge-sync ended normally
    cases x with
    | error message =>
      have hrest := (hrun.failed message rfl).1
      rw [hrest] at htail
      exact absurd htail.symm (by simp)
    | ok m =>
      have hmerged := hseen m rfl
      rw [hrun.mergeHistory_eq] at hmerged
      unfold mergeHistory at hmerged ⊢
      rw [Part.history_append]
      exact hmerged.append _
  · rcases extra with _ | ⟨e', extra⟩
    · -- the exchange is the first one of the finalisation
      cases x with
      | error message =>
        have hrest := (hrun.failed message rfl).1
        rw [hrest] at htail
        exact nomatch htail
      | ok m =>
        have hmerged := hseen m rfl
        rwa [hrun.mergeHistory_eq, hfirst, List.append_nil] at hmerged
    · obtain ⟨rfl, -⟩ := List.cons.inj htail
      obtain ⟨q, hq⟩ := hrun.firstQueries e
        (hfirst ▸ List.mem_append_right _ List.mem_cons_self)
      rw [hq] at hfinalizes
      exact absurd hfinalizes (not_finalizes_mergeSync q)

theorem TurnRun.mergedOnly (hpending : ¬ Merge.PromotedPending (mergeHistory h)) :
    MergedOnly h r := by
  have hseen : ∀ m, x = .ok m → Merge.MergedSeen (mergeHistory h) := fun m hm => by
    by_contra hnot
    exact hpending (hrun.endsPending.mpr ⟨⟨m, hm⟩, hnot⟩)
  refine ⟨hrun.finalizes hseen, fun result hresult hmerged => ?_⟩
  cases x with
  | ok m => exact hseen m rfl
  | error message =>
    obtain rfl := Except.ok.inj ((hrun.failed message rfl).2.symm.trans hresult)
    unfold mergeBlocked at hmerged
    dsimp only at hmerged
    generalize isRateLimitMessage _ = limited at hmerged
    cases limited <;> exact nomatch hmerged

end

theorem TurnRun.exists_reported {m : Merge.MergeSummary}
    (hrun : TurnRun setup standingPriorityLabels packet number h r first rest (.ok m)) :
    ∃ h' r', Runs (mergePrTurn setup standingPriorityLabels packet) h' r' ∧
      mergeHistory h' = mergeHistory h ∧ ∃ result, r' = .ok result ∧ result.outcome = .merged := by
  obtain ⟨last, finalization, hlast, hsilent⟩ :=
    exists_completed_finalization standingPriorityLabels packet
  have hmerge : Runs (mergePullRequest setup packet)
      ((mergeHistory first).map mergePart.embed ++ []) (.ok (mergeCompleted number)) := by
    rw [hrun.program]
    exact (Runs.child hrun.merged).bind .refl
  have hturn : Runs (mergePrTurn setup standingPriorityLabels packet)
      (((mergeHistory first).map mergePart.embed ++ []) ++ (last ++ []))
      (.ok (turnResult (mergeCompleted number) (.ok finalization))) := by
    refine hmerge.bind ?_
    rw [if_neg (fun h => h.elim (fun hne => hne rfl) fun hne => hne rfl)]
    exact hlast.caught.bind .refl
  refine ⟨_, _, hturn, ?_, _, rfl, ?_⟩
  · have hnil := mergeHistory_eq_nil (asks_finalizeMergedPullRequest.runs hlast).1
    unfold mergeHistory at hnil
    rw [hrun.mergeHistory_eq, List.append_nil, List.append_nil, mergeHistory, Part.history_append,
      Part.history_embed, hnil, List.append_nil]
  · unfold turnResult
    dsimp only
    rw [hsilent, if_neg (fun hne => hne rfl)]
    rfl

end Turn

/-- **When nothing is finalised before the merge.** Of the answers that GitHub gave to
merge-sync in a run: every run with these answers keeps to the rule exactly if they do not
leave the promotion pending. -/
theorem mergeTruthful_iff (setup : Except String Merge.MergeSetup)
    (standingPriorityLabels : List String) (packet : TaskPacket) (h : TurnHistory)
    (r : Except String TurnResult)
    (hrun : Runs (mergePrTurn setup standingPriorityLabels packet) h r) :
    MergeTruthful setup standingPriorityLabels packet (mergeHistory h) ↔
      ¬ Merge.PromotedPending (mergeHistory h) := by
  constructor
  · intro htruthful hpending
    rcases mergePrTurn_runs hrun with ⟨rfl, -⟩ | ⟨number, first, rest, x, hturn⟩
    · obtain ⟨⟨c, hc, -⟩, -⟩ := hpending
      exact absurd hc List.not_mem_nil
    · obtain ⟨⟨m, rfl⟩, hnot⟩ := hturn.endsPending.mp hpending
      obtain ⟨h', r', hrun', hsame, result, hresult, hmerged⟩ := hturn.exists_reported
      have hreported := (htruthful h' r' hrun' hsame).reported result hresult hmerged
      rw [hsame] at hreported
      exact hnot hreported
  · intro hpending h' r' hrun' hsame
    rcases mergePrTurn_runs hrun' with ⟨rfl, message, rfl⟩ | ⟨number, first, rest, x, hturn⟩
    · exact ⟨fun before e after hsplit => absurd hsplit (by simp),
        fun result hresult => nomatch hresult⟩
    · rw [← hsame] at hpending
      exact hturn.mergedOnly hpending

/-! ### Two turns -/

def acceptingOutside (queue issued : Bool) : (q : Merge.MergeQuery) → Merge.MergeAnswer q × Bool
  | .readPromotionState =>
    (.ok ⟨some (if issued && !queue then "MERGED" else "OPEN"), some "CLEAN", issued && queue,
      false, none⟩, issued)
  | q => Merge.plainOutside "OPEN" issued q

def turnOutside (queue issued : Bool) : (q : TurnQuery) → TurnAnswer q × Bool
  | .mergeSync q => acceptingOutside queue issued q
  | .reconcile .prepare => (.ok "octo/demo", issued)
  | .reconcile (.viewIssue _) => (.ok ⟨"OPEN", ["standing-priority"]⟩, issued)
  | .reconcile .readMergeSummary => (.ok none, issued)
  | .reconcile (.removeLabels _ _) => (.ok (), issued)
  | .reconcile (.closeIssue _ _) => (.ok (), issued)
  | .reconcile (.commentIssue _ _) => (.ok (), issued)
  | .reconcile .syncStandingPriority => (.ok (), issued)
  | .reconcile .readRouter => (.ok none, issued)
  | .reconcile .readCache => (.ok none, issued)
  | .reconcile (.writeReceipt _) => (.ok (), issued)
  | .fetchIssue _ => (.ok none, issued)
  | .closeIssue _ _ => (.ok (), issued)
  | .editIssueLabels _ _ => (.ok (), issued)

def standingPacket : TaskPacket where
  repository := some (.str "octo/demo")
  selectedIssue := some ⟨some (.num 5), none⟩
  standingIssue := some ⟨some (.num 5), none⟩
  deliveryPullRequest := some ⟨some (.num 7), none⟩
  packetPullRequest := none
  workerSlotId := none

def turnSetup (queue : Bool) : Merge.MergeSetup :=
  { Merge.plainSetup with mergeQueueBranches := if queue then ["main"] else [] }

def standingTurn (queue : Bool) : TurnHistory × Except String TurnResult :=
  (mergePrTurn (.ok (turnSetup queue)) ["standing-priority"] standingPacket).runWith
    (turnOutside queue) false

/-- A pull request that is merged at once. -/
theorem mergeTruthful_merged :
    MergeTruthful (.ok (turnSetup false)) ["standing-priority"] standingPacket
      (mergeHistory (standingTurn false).1) := by
  refine (mergeTruthful_iff (.ok (turnSetup false)) ["standing-priority"] standingPacket
    (standingTurn false).1 (standingTurn false).2 (runs_runWith _ _ _)).mpr ?_
  rintro ⟨-, s, hs, -, hmerged⟩
  have hlast : (Merge.promotionStates (mergeHistory (standingTurn false).1)).getLast? =
      some ⟨some "MERGED", some "CLEAN", false, false, none⟩ := rfl
  obtain rfl := Option.some.inj (hlast.symm.trans hs)
  exact absurd hmerged (by decide)

/-- A pull request in the merge queue: the standing issue is closed, and the turn says that the
pull request is merged. -/
theorem not_mergedOnly_queued :
    ¬ ∀ (setup : Except String Merge.MergeSetup) (standingPriorityLabels : List String)
      (packet : TaskPacket) (h : TurnHistory) (r : Except String TurnResult),
      Runs (mergePrTurn setup standingPriorityLabels packet) h r → MergedOnly h r := by
  intro hall
  have hrule := hall (.ok (turnSetup true)) ["standing-priority"] standingPacket
    (standingTurn true).1 (standingTurn true).2 (runs_runWith _ _ _)
  have hresult : ∃ result, (standingTurn true).2 = .ok result ∧ result.outcome = .merged :=
    ⟨_, rfl, rfl⟩
  obtain ⟨result, hok, hmerged⟩ := hresult
  have hseen := hrule.reported result hok hmerged
  -- what merge-sync read: an open pull request, and two promotion states, the last one queued
  have haccount : Merge.Account [Merge.plainPullRequest "OPEN"]
      (Merge.mergeCommands (mergeHistory (standingTurn true).1))
      [⟨some "OPEN", some "CLEAN", false, false, none⟩,
        ⟨some "OPEN", some "CLEAN", true, false, none⟩]
      (mergeHistory (standingTurn true).1) := ⟨rfl, rfl, rfl⟩
  rcases haccount.mergedSeen_iff.mp hseen with ⟨prInfo, hmem, hstate⟩ | ⟨s, hmem, hstate⟩
  · rw [List.mem_singleton.mp hmem] at hstate
    exact absurd hstate (by decide)
  · rcases List.mem_pair.mp hmem with rfl | rfl
    · exact absurd hstate (by decide)
    · exact absurd hstate (by decide)

end CompareVI.Delivery
