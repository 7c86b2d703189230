import CompareVI.Refresh.Program

/-!
# The order of the steps

A run of `runQueueRefresh` is to force-push the head only once the pull request has left the
merge queue and is still open, to call `runMergeSync` only after the push, and to stop and write
the receipt once when a step throws (`RefreshLaw`). The last two hold of every run.

The first one does not, since the poll after the dequeue call returns for two reasons: the
pull request is not queued any more, or it is not open any more. Nothing tells them apart
afterwards, and the head of a pull request that was merged in the meantime is rebased and
pushed. `refreshLaw_iff` says that this is the only way to break the law.
-/

open Framework

namespace CompareVI.Refresh

/-! ### The law -/

/-- What a run has seen of the queue since its dequeue call succeeded: nothing as long as it has
not, and then the queue states that it read. -/
def watchDequeue (seen : Option (List QueueState)) (e : RefreshExchange) :
    Option (List QueueState) :=
  match e with
  | ⟨.dequeue _, .ok _⟩ => some []
  | ⟨.readQueueState _, .ok state⟩ => seen.map fun states => states ++ ([state] : List QueueState)
  | _ => seen

def statesSinceDequeue (h : List RefreshExchange) : Option (List QueueState) :=
  h.foldl watchDequeue none

inductive QueryKind where
  | quiet
  | queueState
  | dequeue
  | push
  | mergeSync
  | write
  deriving DecidableEq, Repr

def RefreshQuery.kind : RefreshQuery → QueryKind
  | .readQueueState _ => .queueState
  | .dequeue _ => .dequeue
  | .git (.push _ _) => .push
  | .runMergeSync _ => .mergeSync
  | .writeReceipt _ _ => .write
  | _ => .quiet

/-- The query changes nothing: neither the repository, nor a pull request, nor a file. -/
def RefreshQuery.reads : RefreshQuery → Bool
  | .ensureGhCli | .resolveRemote _ | .readPolicy | .readPullRequestView _ _ | .readQueueState _ |
    .sleep _ => true
  | .git command => match command with
    | .currentBranch | .trackingRemote _ | .status | .revParseHead => true
    | _ => false
  | _ => false

theorem RefreshQuery.kind_of_reads {q : RefreshQuery} (h : q.reads = true) :
    q.kind = .quiet ∨ q.kind = .queueState := by
  cases q with
  | git command => cases command <;> first | exact .inl rfl | exact nomatch h
  | _ => first | exact .inl rfl | exact .inr rfl | exact nomatch h

def pushed (e : RefreshExchange) : Bool :=
  match e with
  | ⟨.git (.push _ _), .ok result⟩ => result.status = some 0
  | _ => false

def stepProgram (args : RefreshArgs) (ctx : RefreshContext) : RefreshStep → RefreshAttempt Unit
  | .dequeue => dequeueStep ctx
  | .refresh => refreshStep args ctx
  | .requeue => requeueStep args ctx

def stepsBefore (args : RefreshArgs) (ctx : RefreshContext) : RefreshStep → RefreshAttempt Unit
  | .dequeue => pure ()
  | .refresh => dequeueStep ctx
  | .requeue => do
    dequeueStep ctx
    refreshStep args ctx

/-- What comes before a step, once there is a receipt. A run that is not to make any step does
not arrive. -/
def arriveAt (args : RefreshArgs) (ctx : RefreshContext) (step : RefreshStep) :
    RefreshAttempt Unit := do
  let entered ← enterSteps args ctx
  Attempt.require entered ""
  stepsBefore args ctx step

/-- A run comes to a step with the exchanges `before`, and throws in it after the exchanges
`during`. -/
structure StepThrows (githubRepository : Option String) (args : RefreshArgs) (step : RefreshStep)
    (before during : List RefreshExchange) : Prop where
  intro ::
  throws : ∃ ctx first second progress failed message, before = first ++ second ∧
    Runs (prepareRefresh githubRepository args) first (.ok ctx) ∧
    Runs (arriveAt args ctx step ⟨createReceipt args ctx, none⟩) second
      (.ok (.ok (), progress)) ∧
    Runs (stepProgram args ctx step progress) during (.ok (.error message, failed))

/-- The order of the steps of a run. -/
structure RefreshLaw (githubRepository : Option String) (args : RefreshArgs)
    (h : List RefreshExchange) : Prop where
  /-- A push comes after the dequeue call succeeded and a queue state read after it showed the
  pull request open and not in the queue. -/
  push : ∀ before e after, h = before ++ e :: after → e.query.kind = .push →
    ∃ states, statesSinceDequeue before = some states ∧
      ∃ state ∈ states, state.isOpen = true ∧ state.isInMergeQueue = false
  /-- The nested run comes after a push that succeeded. -/
  mergeSync : ∀ before e after, h = before ++ e :: after → e.query.kind = .mergeSync →
    ∃ e ∈ before, pushed e = true
  /-- After a step that throws the receipt is written, and that is all; it is not written
  before, it says that the run failed, and marks that step and no other. -/
  failure : ∀ step before during after, h = before ++ during ++ after →
    StepThrows githubRepository args step before during →
    ∃ receipt answer, after = [⟨.writeReceipt (receiptPath args) receipt, answer⟩] ∧
      (∀ e ∈ before ++ during, e.query.kind ≠ .write) ∧ receipt.summaryStatus = .failed ∧
      ∀ other, (receipt.report other).status = .failed ↔ other = step

/-- Every queue state that was read between the dequeue call and a push showed the pull request
open. -/
def OpenAtPush (h : List RefreshExchange) : Prop :=
  ∀ before e after, h = before ++ e :: after → e.query.kind = .push →
    ∀ states, statesSinceDequeue before = some states → ∀ state ∈ states, state.isOpen = true

/-! ### The receipt along a run -/

/-- The run is at a step, and no step is marked failed. -/
structure Sound (current : Option RefreshStep) (progress : Progress) : Prop where
  at_step : progress.currentStep = current
  clean : ∀ step, (progress.receipt.report step).status ≠ .failed

theorem report_setReport (receipt : RefreshReceipt) (f : StepReport → StepReport)
    (step other : RefreshStep) :
    (receipt.setReport f step).report other =
      if other = step then f (receipt.report other) else receipt.report other := by
  cases step <;> cases other <;> rfl

/-- A change of the receipt does not mark a step failed. -/
def NoFailure (f : RefreshReceipt → RefreshReceipt) : Prop :=
  ∀ receipt step, ((f receipt).report step).status = .failed →
    (receipt.report step).status = .failed

theorem noFailure_setReport {f : StepReport → StepReport} (step : RefreshStep)
    (hf : ∀ report, (f report).status = .failed → report.status = .failed) :
    NoFailure fun receipt => receipt.setReport f step := by
  intro receipt other hfailed
  rw [report_setReport] at hfailed
  by_cases hother : other = step
  · rw [if_pos hother] at hfailed
    exact hf _ hfailed
  · rwa [if_neg hother] at hfailed

theorem noFailure_listCall (step : RefreshStep) (helperCall : String) :
    NoFailure (RefreshReceipt.listCall step helperCall) :=
  noFailure_setReport step fun _ hfailed => hfailed

theorem noFailure_complete (step : RefreshStep) (reason : String) :
    NoFailure (RefreshReceipt.complete step reason) :=
  noFailure_setReport step fun _ hfailed => nomatch hfailed

variable {f : RefreshReceipt → RefreshReceipt}

theorem noFailure_of_report_eq
    (hf : ∀ receipt step, (f receipt).report step = receipt.report step) : NoFailure f :=
  fun receipt step hfailed => by rwa [hf receipt step] at hfailed

theorem noFailure_setPullRequestId (prView : PrView) :
    NoFailure (RefreshReceipt.setPullRequestId prView) :=
  noFailure_of_report_eq fun _ step => by cases step <;> rfl

theorem noFailure_setPoll (poll : QueueState × ℕ) : NoFailure (RefreshReceipt.setPoll poll) :=
  noFailure_of_report_eq fun _ step => by cases step <;> rfl

theorem noFailure_setMode (args : RefreshArgs) : NoFailure (RefreshReceipt.setMode args) :=
  noFailure_of_report_eq fun _ step => by cases step <;> rfl

theorem noFailure_setRebasedHead (rebasedHead : GitResult) :
    NoFailure (RefreshReceipt.setRebasedHead rebasedHead) := by
  refine noFailure_of_report_eq fun _ step => ?_
  unfold RefreshReceipt.setRebasedHead
  generalize textOrNull _ = rebasedHeadSha
  cases step <;> rfl

theorem noFailure_setMergeSummaryPath (args : RefreshArgs) :
    NoFailure (RefreshReceipt.setMergeSummaryPath args) :=
  noFailure_of_report_eq fun _ step => by cases step <;> rfl

theorem noFailure_setMergePayload (payload : MergePayload) :
    NoFailure (RefreshReceipt.setMergePayload payload) :=
  noFailure_of_report_eq fun _ step => by cases step <;> rfl

theorem noFailure_setSummaryReason (reason : String) :
    NoFailure (RefreshReceipt.setSummaryReason reason) :=
  noFailure_of_report_eq fun _ step => by cases step <;> rfl

theorem noFailure_dryRunReceipt (args : RefreshArgs) (ctx : RefreshContext) :
    NoFailure (dryRunReceipt args ctx) :=
  fun _ step hfailed => by cases step <;> exact nomatch hfailed

theorem Sound.update {current : Option RefreshStep} {progress : Progress}
    (h : Sound current progress) (hf : NoFailure f) :
    Sound current (progress.update f) :=
  ⟨h.at_step, fun step hfailed => h.clean step (hf _ step hfailed)⟩

theorem Sound.enter {current : Option RefreshStep} {progress : Progress}
    (h : Sound current progress) (step : RefreshStep) : Sound (some step) (progress.enter step) :=
  ⟨rfl, fun other hfailed => h.clean other (noFailure_setReport
    (f := fun report => { report with attempted := true }) step (fun _ hfailed => hfailed)
    _ other hfailed)⟩

section Keeps

variable {I : RefreshQuery → Prop} {current : Option RefreshStep}

theorem keeps_modifyReceipt {f : RefreshReceipt → RefreshReceipt} (hf : NoFailure f) :
    Attempt.Keeps I (Sound current) (modifyReceipt f) :=
  Attempt.keeps_modify fun _ hsound => hsound.update hf

theorem keeps_pushHelperCall (step : RefreshStep) (helperCall : String) :
    Attempt.Keeps I (Sound current) (pushHelperCall step helperCall) :=
  keeps_modifyReceipt (noFailure_listCall step helperCall)

variable {command : GitCommand}

theorem keeps_runGit (hI : I (.git command)) :
    Attempt.Keeps I (Sound current) (runGit command) :=
  (Attempt.keeps_call hI).bind fun _ =>
    (Attempt.keeps_require _ _).bind fun _ => Attempt.keeps_pure _

theorem keeps_runListedGit (hI : I (.git command)) :
    Attempt.Keeps I (Sound current) (runListedGit command) :=
  (keeps_pushHelperCall _ _).bind fun _ =>
    (Attempt.keeps_call hI).bind fun _ => Attempt.keeps_require _ _

variable (hquiet : ∀ q : RefreshQuery, q.kind = .quiet → I q)

include hquiet

theorem keeps_checkoutHead (ctx : RefreshContext) :
    Attempt.Keeps I (Sound current) (checkoutHead ctx) := by
  refine (keeps_pushHelperCall _ _).bind fun _ => (Attempt.keeps_call (hquiet _ rfl)).bind ?_
  intro checkout
  by_cases hstatus : checkout.status = some 0
  · rw [if_pos hstatus]
    exact Attempt.keeps_pure ()
  · rw [if_neg hstatus]
    exact (keeps_pushHelperCall _ _).bind fun _ =>
      (Attempt.keeps_call (hquiet _ rfl)).bind fun _ => Attempt.keeps_require _ _

theorem keeps_rebaseOntoBase (ctx : RefreshContext) :
    Attempt.Keeps I (Sound current) (rebaseOntoBase ctx) := by
  refine (keeps_pushHelperCall _ _).bind fun _ => (Attempt.keeps_call (hquiet _ rfl)).bind ?_
  intro rebase
  by_cases hstatus : rebase.status = some 0
  · rw [if_pos hstatus]
    exact Attempt.keeps_pure ()
  · rw [if_neg hstatus]
    exact (keeps_pushHelperCall _ _).bind fun _ =>
      (Attempt.keeps_call (hquiet _ rfl)).bind fun _ => Attempt.keeps_throw _

theorem keeps_rebaseUnlessAmend (args : RefreshArgs) (ctx : RefreshContext) :
    Attempt.Keeps I (Sound current) (rebaseUnlessAmend args ctx) := by
  unfold rebaseUnlessAmend
  cases args.skipRebase with
  | true => exact Attempt.keeps_pure ()
  | false =>
    refine (keeps_runListedGit (hquiet _ rfl)).bind fun _ =>
      (keeps_runListedGit (hquiet _ rfl)).bind fun _ => Attempt.Keeps.bind ?_ fun _ =>
        keeps_rebaseOntoBase hquiet ctx
    unfold switchToHead
    split
    · exact keeps_checkoutHead hquiet ctx
    · exact Attempt.keeps_pure ()

omit hquiet in
theorem keeps_pollPause (hsleep : I (.sleep DEQUEUE_POLL_DELAY_MS)) (attempt : ℕ) :
    Attempt.Keeps I (Sound current) (pollPause attempt) := by
  unfold pollPause
  split
  · exact Attempt.keeps_call hsleep
  · exact Attempt.keeps_pure ()

omit hquiet in
theorem keeps_enterSteps (hstatus : I (.git .status)) (args : RefreshArgs) (ctx : RefreshContext) :
    Attempt.Keeps I (Sound current) (enterSteps args ctx) := by
  unfold enterSteps
  cases skipReason ctx with
  | some reason =>
    exact (keeps_modifyReceipt (noFailure_setSummaryReason reason)).bind fun _ =>
      Attempt.keeps_pure _
  | none =>
    refine ((keeps_runGit hstatus).bind fun _ => Attempt.keeps_require _ _).bind fun _ =>
      (Attempt.keeps_require _ _).bind fun _ => ?_
    cases args.dryRun with
    | true =>
      exact (keeps_modifyReceipt (noFailure_dryRunReceipt args ctx)).bind fun _ =>
        Attempt.keeps_pure _
    | false => exact Attempt.keeps_pure _

end Keeps

/-! ### What comes before the receipt -/

section Prepare

variable {I : RefreshQuery → Prop} (hreads : ∀ q : RefreshQuery, q.reads = true → I q)

include hreads

theorem asks_gitOrThrow {command : GitCommand}
    (hcommand : (RefreshQuery.git command).reads = true) :
    Asks I (fun _ => True) (gitOrThrow command) := by
  refine Asks.bind (asks_call (P := fun _ => True) (hreads _ hcommand) fun _ => trivial) ?_
  intro result _
  by_cases hstatus : result.status = some 0
  · rw [if_pos hstatus]
    trivial
  · rw [if_neg hstatus]
    trivial

theorem asks_resolveRemote (remoteName : String) :
    Asks I (fun _ => True) (RefreshQuery.call (.resolveRemote remoteName)) :=
  asks_call (hreads _ rfl) fun _ => trivial

theorem asks_resolveSlugFrom (remoteNames : List String) :
    Asks I (fun _ => True) (resolveSlugFrom remoteNames) := by
  induction remoteNames with
  | nil => trivial
  | cons remoteName remoteNames ih =>
    refine (asks_resolveRemote hreads remoteName).bind fun remote _ => ?_
    cases remote.bind RemoteSlug.slug with
    | some slug => trivial
    | none => exact ih

theorem asks_resolveRepositorySlug (githubRepository explicitRepo : Option String) :
    Asks I (fun _ => True) (resolveRepositorySlug githubRepository explicitRepo) := by
  unfold resolveRepositorySlug
  by_cases hexplicit : explicitRepo.getD "" ≠ ""
  · rw [if_pos hexplicit]
    exact (asks_ofExcept (P := fun _ => True) fun _ => trivial).bind fun _ _ => trivial
  · rw [if_neg hexplicit]
    split
    · trivial
    · exact asks_resolveSlugFrom hreads _

theorem asks_resolveTargetRemote (prInfo : PrView) (targetRepository : String) :
    Asks I (fun _ => True) (resolveTargetRemote prInfo targetRepository) := by
  unfold resolveTargetRemote
  split
  · refine (asks_resolveRemote hreads _).bind fun remote _ => ?_
    cases sameSlug remote (JsString.trim targetRepository) <;> trivial
  · trivial

theorem asks_resolveHeadRemoteFrom (prInfo : PrView) (targetRepository : String)
    (remoteNames : List String) :
    Asks I (fun _ => True) (resolveHeadRemoteFrom prInfo targetRepository remoteNames) := by
  induction remoteNames with
  | nil => exact asks_resolveTargetRemote hreads prInfo targetRepository
  | cons remoteName remoteNames ih =>
    refine (asks_resolveRemote hreads remoteName).bind fun remote _ => ?_
    cases (resolveHeadRepositorySlug prInfo).any (sameSlug remote) with
    | true => trivial
    | false => exact ih

theorem asks_resolveTrackingRemote (prInfo : PrView) (currentBranch : String)
    (trackingRemote : Option String) :
    Asks I (fun _ => True) (resolveTrackingRemote prInfo currentBranch trackingRemote) := by
  cases trackingRemote with
  | none => trivial
  | some remoteName =>
    unfold resolveTrackingRemote
    dsimp only
    split
    · exact (asks_resolveRemote hreads _).bind fun _ _ => trivial
    · trivial

theorem asks_resolveHeadRemoteName (explicitHeadRemote : Option String) (prInfo : PrView)
    (currentBranch : String) (trackingRemote : Option String) (targetRepository : String) :
    Asks I (fun _ => True) (resolveHeadRemoteName explicitHeadRemote prInfo currentBranch
      trackingRemote targetRepository) := by
  unfold resolveHeadRemoteName
  split
  · refine (asks_resolveRemote hreads _).bind fun remote _ => ?_
    cases remote <;> trivial
  · refine (asks_resolveTrackingRemote hreads prInfo currentBranch trackingRemote).bind ?_
    intro tracked _
    cases tracked with
    | some remoteName => trivial
    | none => exact asks_resolveHeadRemoteFrom hreads prInfo targetRepository _

theorem asks_readTrackingRemote (currentBranch : String) :
    Asks I (fun _ => True) (readTrackingRemote currentBranch) := by
  unfold readTrackingRemote
  split
  · exact (asks_call (P := fun _ => True) (hreads _ rfl) fun _ => trivial).bind
      fun _ _ => trivial
  · trivial

theorem asks_getCurrentBranch : Asks I (fun _ => True) getCurrentBranch :=
  (asks_gitOrThrow hreads rfl).bind fun _ _ => trivial

/-- Before there is a receipt the pull request and its queue state are read, and nothing is
changed. -/
theorem asks_prepareRefresh (githubRepository : Option String) (args : RefreshArgs) :
    Asks I (fun _ => True) (prepareRefresh githubRepository args) := by
  refine (asks_call (P := fun _ => True) (hreads _ rfl) fun _ => trivial).bind fun _ _ => ?_
  refine (asks_resolveRepositorySlug hreads githubRepository args.repo).bind fun repo _ => ?_
  refine (asks_call (P := fun _ => True) (hreads _ rfl) fun _ => trivial).bind fun policy _ => ?_
  refine (asks_call (P := fun _ => True) (hreads _ rfl) fun _ => trivial).bind fun prView _ => ?_
  refine (asks_call (P := fun _ => True) (hreads _ rfl) fun _ => trivial).bind fun _ _ => ?_
  refine (asks_getCurrentBranch hreads).bind fun currentBranch _ => ?_
  refine (asks_readTrackingRemote hreads _).bind fun trackingRemote _ => ?_
  exact (asks_resolveHeadRemoteName hreads _ _ _ _ _).bind fun _ _ => trivial

end Prepare

/-! ### The steps, and the receipt -/

section Enters

variable {I : RefreshQuery → Prop}

/-- A program goes to its step, whatever the answers are, and does not mark any step failed. -/
def Enters (I : RefreshQuery → Prop) (step : RefreshStep) (t : RefreshAttempt Unit) : Prop :=
  ∀ current progress, Sound current progress →
    Asks I (fun out => Sound (some step) out.2) (t progress)

theorem enters_enterStep {step : RefreshStep} {f : Unit → RefreshAttempt Unit}
    (hf : Attempt.Keeps I (Sound (some step)) (f ())) : Enters I step (enterStep step >>= f) :=
  fun _ progress hsound => hf (progress.enter step) (hsound.enter step)

variable (hquiet : ∀ q : RefreshQuery, q.kind = .quiet → I q)

theorem keeps_pollFrom {current : Option RefreshStep} (pullRequestId : Option String)
    (hread : I (.readQueueState pullRequestId)) (hsleep : I (.sleep DEQUEUE_POLL_DELAY_MS))
    (attempt left : ℕ) :
    Attempt.Keeps I (Sound current) (pollFrom pullRequestId attempt left) := by
  induction left generalizing attempt with
  | zero => exact Attempt.keeps_throw _
  | succ left ih =>
    refine Attempt.Keeps.bind (Attempt.keeps_call hread) fun finalState => ?_
    split
    · exact Attempt.keeps_pure _
    · exact (keeps_pollPause hsleep attempt).bind fun _ => ih (attempt + 1)

theorem enters_dequeueStep (ctx : RefreshContext) (hread : I (.readQueueState ctx.prView.id))
    (hsleep : I (.sleep DEQUEUE_POLL_DELAY_MS)) (hdequeue : I (.dequeue ctx.prView.id)) :
    Enters I .dequeue (dequeueStep ctx) := by
  refine enters_enterStep ?_
  refine (keeps_modifyReceipt (noFailure_setPullRequestId _)).bind fun _ => ?_
  refine (keeps_pushHelperCall _ _).bind fun _ => (Attempt.keeps_call hdequeue).bind fun _ => ?_
  refine (keeps_pollFrom _ hread hsleep _ _).bind fun poll => ?_
  exact (keeps_modifyReceipt (noFailure_setPoll poll)).bind fun _ =>
    keeps_modifyReceipt (noFailure_complete _ _)

include hquiet in
theorem enters_refreshStep (args : RefreshArgs) (ctx : RefreshContext)
    (hpush : I (.git (.push ctx.headRemote ctx.headRefName))) :
    Enters I .refresh (refreshStep args ctx) := by
  refine enters_enterStep ?_
  refine (keeps_modifyReceipt (noFailure_setMode args)).bind fun _ => ?_
  refine (keeps_rebaseUnlessAmend hquiet args ctx).bind fun _ => ?_
  refine (keeps_runGit (hquiet _ rfl)).bind fun rebasedHead => ?_
  refine (keeps_runListedGit hpush).bind fun _ => ?_
  exact (keeps_modifyReceipt (noFailure_complete _ _)).bind fun _ =>
    keeps_modifyReceipt (noFailure_setRebasedHead rebasedHead)

theorem enters_requeueStep (args : RefreshArgs) (ctx : RefreshContext)
    (hmerge : I (.runMergeSync (mergeSyncArgv args ctx))) :
    Enters I .requeue (requeueStep args ctx) := by
  refine enters_enterStep ?_
  refine (keeps_modifyReceipt (noFailure_setMergeSummaryPath args)).bind fun _ => ?_
  refine (keeps_pushHelperCall _ _).bind fun _ => (Attempt.keeps_call hmerge).bind fun payload => ?_
  exact (keeps_modifyReceipt (noFailure_complete _ _)).bind fun _ =>
    keeps_modifyReceipt (noFailure_setMergePayload payload)

theorem keeps_finishRefresh {current : Option RefreshStep} (args : RefreshArgs)
    (hwrite : ∀ receipt, I (.writeReceipt (receiptPath args) receipt)) :
    Attempt.Keeps I (Sound current) (finishRefresh args) :=
  Attempt.keeps_get.bind fun _ => (Attempt.keeps_call (hwrite _)).bind fun _ =>
    Attempt.keeps_pure _

end Enters

theorem enters_stepProgram (args : RefreshArgs) (ctx : RefreshContext) (step : RefreshStep) :
    Enters (fun q => q.kind ≠ .write) step (stepProgram args ctx step) := by
  have hquiet : ∀ q : RefreshQuery, q.kind = .quiet → q.kind ≠ .write := by
    intro q hq hwrite
    rw [hq] at hwrite
    exact nomatch hwrite
  cases step with
  | dequeue =>
    exact enters_dequeueStep ctx (fun h => nomatch h) (fun h => nomatch h) fun h => nomatch h
  | refresh => exact enters_refreshStep hquiet args ctx fun h => nomatch h
  | requeue => exact enters_requeueStep args ctx fun h => nomatch h

/-! ### What a push and the nested run follow -/

abbrev refreshHistory : Service (List RefreshExchange) fun q : RefreshQuery =>
    Except String q.Reply :=
  historyService _

/-- The pull request was shown as queued and open, so that the poll goes on. -/
def Queued (state : QueueState) : Prop := state.isInMergeQueue = true ∧ state.isOpen = true

/-- The poll has ended: it saw the pull request queued and open up to the last time. -/
def Polled (seen : Option (List QueueState)) : Prop :=
  ∃ states last, seen = some (states ++ [last]) ∧ (∀ state ∈ states, Queued state) ∧ ¬ Queued last

/-- What a push and the nested run are asked after. -/
structure Guard (h : List RefreshExchange) (q : RefreshQuery) : Prop where
  push : q.kind = .push → Polled (statesSinceDequeue h)
  mergeSync : q.kind = .mergeSync → ∃ e ∈ h, pushed e = true

theorem statesSinceDequeue_concat (h : List RefreshExchange) (e : RefreshExchange) :
    statesSinceDequeue (h ++ [e]) = watchDequeue (statesSinceDequeue h) e := by
  unfold statesSinceDequeue
  rw [List.foldl_append]
  rfl

variable {q : RefreshQuery}

theorem watchDequeue_of_kind (hread : q.kind ≠ .queueState) (hdequeue : q.kind ≠ .dequeue)
    (seen : Option (List QueueState)) (answer : Except String q.Reply) :
    watchDequeue seen ⟨q, answer⟩ = seen := by
  cases q with
  | readQueueState pullRequestId => exact absurd rfl hread
  | dequeue pullRequestId => exact absurd rfl hdequeue
  | _ => rfl

theorem guard_of_kind {h : List RefreshExchange} (hpush : q.kind ≠ .push)
    (hmerge : q.kind ≠ .mergeSync) : Guard h q :=
  ⟨fun hq => absurd hq hpush, fun hq => absurd hq hmerge⟩

theorem guard_of_quiet {h : List RefreshExchange} (hq : q.kind = .quiet) :
    Guard h q := by
  refine guard_of_kind ?_ ?_
  all_goals
    rw [hq]
    decide

theorem statesSinceDequeue_quiet {h h' : List RefreshExchange} {answer : Except String q.Reply}
    (hq : q.kind = .quiet) (hserve : refreshHistory h q answer h') :
    statesSinceDequeue h' = statesSinceDequeue h := by
  obtain rfl := hserve
  rw [statesSinceDequeue_concat]
  refine watchDequeue_of_kind ?_ ?_ _ _
  all_goals
    rw [hq]
    decide

section Follows

variable {h : List RefreshExchange} {progress : Progress} {current : Option RefreshStep}

theorem returns_of_quiet {α : Type} {t : RefreshAttempt α}
    (ht : Attempt.Keeps (fun q => q.kind = .quiet) (Sound current) t)
    (hsound : Sound current progress) (K : Option (List QueueState) → Prop)
    (hK : K (statesSinceDequeue h)) :
    Attempt.Returns refreshHistory Guard
      (fun h progress _ => Sound current progress ∧ K (statesSinceDequeue h)) h progress t :=
  Attempt.returns_of_asks (ht _ hsound) (fun h => K (statesSinceDequeue h)) hK
    (fun _ _ _ _ hold hq hserve => (statesSinceDequeue_quiet hq hserve).symm ▸ hold)
    fun _ _ hq _ => guard_of_quiet hq

theorem returns_pollFrom (pullRequestId : Option String) (left : ℕ) :
    ∀ attempt (h : List RefreshExchange) progress states, Sound current progress →
      statesSinceDequeue h = some states → (∀ state ∈ states, Queued state) →
      Attempt.Returns refreshHistory Guard (fun h _ _ => Polled (statesSinceDequeue h)) h progress
        (pollFrom pullRequestId attempt left) := by
  induction left with
  | zero => exact fun _ _ _ _ _ _ _ => Attempt.returns_throw _
  | succ left ih =>
    intro attempt h progress states hsound hseen hqueued
    refine Attempt.returns_call_bind (guard_of_kind (fun h => nomatch h) fun h => nomatch h) ?_
    rintro (finalState : QueueState) h' rfl
    have hseen' : statesSinceDequeue (h ++ [⟨.readQueueState pullRequestId, .ok finalState⟩]) =
        some (states ++ [finalState]) := by
      rw [statesSinceDequeue_concat, hseen]
      rfl
    by_cases hend : finalState.isInMergeQueue = false ∨ finalState.isOpen = false
    · -- the last state that is read ends the poll
      rw [if_pos hend]
      refine Attempt.returns_pure ⟨states, finalState, hseen', hqueued, fun hlast => ?_⟩
      rcases hend with hout | hclosed
      · rw [hlast.1] at hout
        exact nomatch hout
      · rw [hlast.2] at hclosed
        exact nomatch hclosed
    · rw [if_neg hend]
      have hagain : ∀ state ∈ states ++ [finalState], Queued state := by
        intro state hstate
        rcases List.mem_append.mp hstate with hstate | hstate
        · exact hqueued state hstate
        · obtain rfl := List.mem_singleton.mp hstate
          exact ⟨Bool.not_eq_false _ ▸ fun hout => hend (.inl hout),
            Bool.not_eq_false _ ▸ fun hclosed => hend (.inr hclosed)⟩
      refine (returns_of_quiet (keeps_pollPause (I := fun q => q.kind = .quiet) rfl attempt) hsound
        (· = some (states ++ [finalState])) hseen').bind fun h progress _ hP => ?_
      exact ih (attempt + 1) h progress _ hP.1 hP.2 hagain

theorem returns_dequeueStep (ctx : RefreshContext) (hsound : Sound current progress) :
    Attempt.Returns refreshHistory Guard
      (fun h progress _ => Polled (statesSinceDequeue h) ∧ Sound (some .dequeue) progress) h
      progress (dequeueStep ctx) := by
  refine Attempt.Returns.and_asks ?_
    (enters_dequeueStep (I := fun _ => True) ctx trivial trivial trivial _ _ hsound)
  refine Attempt.returns_modify_bind (Attempt.returns_modify_bind (Attempt.returns_modify_bind ?_))
  refine Attempt.returns_call_bind (guard_of_kind (fun h => nomatch h) fun h => nomatch h) ?_
  rintro - h' rfl
  have hseen : statesSinceDequeue (h ++ [⟨.dequeue ctx.prView.id, .ok ()⟩]) = some [] := by
    rw [statesSinceDequeue_concat]
    rfl
  have hentered := ((hsound.enter .dequeue).update (noFailure_setPullRequestId ctx.prView)).update
    (noFailure_listCall .dequeue "gh api graphql dequeuePullRequest")
  refine (returns_pollFrom ctx.prView.id DEQUEUE_POLL_ATTEMPTS 1 _ _ [] hentered hseen
    fun state hstate => absurd hstate List.not_mem_nil).bind fun h progress poll hpolled => ?_
  exact Attempt.returns_modify_bind (Attempt.returns_modify hpolled)

theorem returns_refreshStep (args : RefreshArgs) (ctx : RefreshContext)
    (hsound : Sound current progress) (hpolled : Polled (statesSinceDequeue h)) :
    Attempt.Returns refreshHistory Guard
      (fun h progress _ => (∃ e ∈ h, pushed e = true) ∧ Sound (some .refresh) progress) h progress
      (refreshStep args ctx) := by
  have hI : ∀ q : RefreshQuery, q.kind = .quiet → True := fun _ _ => trivial
  refine Attempt.Returns.and_asks ?_ (enters_refreshStep hI args ctx trivial _ _ hsound)
  have hentered := (hsound.enter .refresh).update (noFailure_setMode args)
  refine Attempt.returns_modify_bind (Attempt.returns_modify_bind ?_)
  refine (returns_of_quiet (keeps_rebaseUnlessAmend (fun _ hq => hq) args ctx) hentered Polled
    hpolled).bind fun h progress _ hP => ?_
  refine (returns_of_quiet (keeps_runGit rfl) hP.1 Polled hP.2).bind fun h progress _ hP => ?_
  refine Attempt.Returns.bind (P := fun h _ _ => ∃ e ∈ h, pushed e = true) ?_
    fun h progress _ hpushed => Attempt.returns_modify_bind (Attempt.returns_modify hpushed)
  refine Attempt.returns_modify_bind
    (Attempt.returns_call_bind ⟨fun _ => hP.2, fun h => nomatch h⟩ ?_)
  rintro (result : GitResult) h' rfl
  refine Attempt.returns_require fun hstatus => ?_
  exact ⟨_, List.mem_append_right _ (List.mem_singleton_self _), hstatus⟩

theorem returns_requeueStep (args : RefreshArgs) (ctx : RefreshContext)
    (hpushed : ∃ e ∈ h, pushed e = true) :
    Attempt.Returns refreshHistory Guard (fun _ _ _ => True) h progress (requeueStep args ctx) := by
  refine Attempt.returns_modify_bind (Attempt.returns_modify_bind (Attempt.returns_modify_bind ?_))
  refine Attempt.returns_call_bind ⟨(fun h => nomatch h), fun _ => hpushed⟩ ?_
  rintro payload h' rfl
  exact Attempt.returns_modify_bind (Attempt.returns_modify trivial)

theorem returns_finishRefresh (args : RefreshArgs) :
    Attempt.Returns refreshHistory Guard (fun _ _ _ => True) h progress (finishRefresh args) := by
  refine (Attempt.returns_get (P := fun _ _ _ => True) trivial).bind fun _ _ _ _ => ?_
  refine Attempt.returns_call_bind (guard_of_kind (fun h => nomatch h) fun h => nomatch h) ?_
  exact fun _ _ _ => Attempt.returns_pure trivial

end Follows

theorem sound_createReceipt (args : RefreshArgs) (ctx : RefreshContext) :
    Sound none ⟨createReceipt args ctx, none⟩ :=
  ⟨rfl, fun step hfailed => by cases step <;> exact nomatch hfailed⟩

theorem returns_refreshWithReceipt (args : RefreshArgs) (ctx : RefreshContext)
    (h : List RefreshExchange) :
    Attempt.Returns refreshHistory Guard (fun _ _ _ => True) h ⟨createReceipt args ctx, none⟩
      (refreshWithReceipt args ctx) := by
  refine (returns_of_quiet (keeps_enterSteps (I := fun q => q.kind = .quiet) rfl args ctx)
    (sound_createReceipt args ctx) (fun _ => True) trivial).bind fun h progress entered hP => ?_
  cases entered with
  | false => exact returns_finishRefresh args
  | true =>
    refine (returns_dequeueStep ctx hP.1).bind fun h progress _ hP => ?_
    refine (returns_refreshStep args ctx hP.2 hP.1).bind fun h progress _ hP => ?_
    refine (returns_requeueStep args ctx hP.1).bind fun h progress _ _ => ?_
    exact Attempt.returns_modify_bind (returns_finishRefresh args)

theorem returns_runQueueRefresh (githubRepository : Option String) (args : RefreshArgs) :
    Returns refreshHistory Guard (fun _ _ => True) [] (runQueueRefresh githubRepository args) := by
  have hasks : Asks (fun q : RefreshQuery => q.kind = .quiet ∨ q.kind = .queueState)
      (fun _ => True) (prepareRefresh githubRepository args) :=
    asks_prepareRefresh (fun _ => RefreshQuery.kind_of_reads) githubRepository args
  refine Returns.bind (Ensures.weaken (hasks.returns refreshHistory []) ?_) fun h ctx _ => ?_
  · -- nothing before the receipt is a push or a nested run
    rintro h q (hq | hq) <;> refine guard_of_kind ?_ ?_ <;> rw [hq] <;> decide
  refine Returns.bind (returns_refreshWithReceipt args ctx h) fun h out _ => ?_
  rcases out with ⟨message | result, progress⟩
  · have hguard : Guard h (.writeReceipt (receiptPath args) (failedReceipt progress message)) :=
      guard_of_kind (fun h => nomatch h) fun h => nomatch h
    exact Returns.bind (P := fun _ _ => True) (returns_call hguard fun _ _ _ => trivial)
      fun _ _ _ => returns_fail _
  · exact returns_pure trivial

/-! ### A step that throws -/

section Throws

variable {args : RefreshArgs} {ctx : RefreshContext} {step : RefreshStep}
  {progress failed : Progress}
  {message : String} {new during after : List RefreshExchange}
  {r : Except String (RefreshReceipt × String)}

variable (args ctx step) in
theorem stepProgram_runs {x : Except String Unit} {current : Option RefreshStep}
    (hsound : Sound current progress)
    (hr : Runs (stepProgram args ctx step progress) new (.ok (x, failed))) :
    Sound (some step) failed ∧ ∀ e ∈ new, e.query.kind ≠ .write := by
  obtain ⟨hasked, hend⟩ := (enters_stepProgram args ctx step current progress hsound).runs hr
  exact ⟨hend _ rfl, hasked⟩

variable (message failed during after r) in
theorem stepsBefore_runs (hsound : Sound none progress) {arrived : Progress}
    (hr : Runs (stepsBefore args ctx step progress) new (.ok (.ok (), arrived))) :
    (∃ current, Sound current arrived) ∧ (∀ e ∈ new, e.query.kind ≠ .write) ∧
      (Runs (stepProgram args ctx step arrived) during (.ok (.error message, failed)) →
        Runs (runSteps args ctx progress >>= endRefresh args) (new ++ (during ++ after)) r →
        Runs (endRefresh args (.error message, failed)) after r) := by
  cases step with
  | dequeue =>
    obtain ⟨rfl, heq⟩ := Runs.done_inv hr
    obtain rfl := (Prod.mk.inj (Except.ok.inj heq)).2
    exact ⟨⟨none, hsound⟩, List.forall_mem_nil _,
      fun hthrow hrun => Attempt.runs_throw hthrow hrun⟩
  | refresh =>
    obtain ⟨hsound', hasked⟩ := stepProgram_runs args ctx .dequeue hsound hr
    refine ⟨⟨_, hsound'⟩, hasked, fun hthrow hrun => ?_⟩
    have hnext := Attempt.runs_rest (t := dequeueStep ctx) hr hrun
    exact Attempt.runs_throw hthrow hnext
  | requeue =>
    obtain ⟨first, rest, ⟨⟩, middle, rfl, hdequeue, hrefresh⟩ := Attempt.runs_bind_inv hr
    obtain ⟨hsound', hasked⟩ := stepProgram_runs args ctx .dequeue hsound hdequeue
    obtain ⟨hsound'', hasked'⟩ := stepProgram_runs args ctx .refresh hsound' hrefresh
    refine ⟨⟨_, hsound''⟩, fun e he => ?_, fun hthrow hrun => ?_⟩
    · rcases List.mem_append.mp he with he | he
      · exact hasked e he
      · exact hasked' e he
    · rw [List.append_assoc] at hrun
      have hnext := Attempt.runs_rest (t := dequeueStep ctx) hdequeue hrun
      have hlast := Attempt.runs_rest (t := refreshStep args ctx) hrefresh hnext
      exact Attempt.runs_throw hthrow hlast

theorem endRefresh_runs (hr : Runs (endRefresh args (.error message, failed)) new r) :
    ∃ answer,
      new = [⟨.writeReceipt (receiptPath args) (failedReceipt failed message), answer⟩] := by
  obtain ⟨answer, rest, rfl, hrest⟩ := Runs.ask_inv hr
  refine ⟨answer, ?_⟩
  cases answer with
  | ok path => rw [(Runs.fail_inv hrest).1]
  | error message' => rw [(Runs.fail_inv hrest).1]

theorem failedReceipt_report (hsound : Sound (some step) failed) (message : String)
    (other : RefreshStep) :
    ((failedReceipt failed message).report other).status = .failed ↔ other = step := by
  have hreport : (failedReceipt failed message).report other =
      (markStepFailed failed.receipt step message).report other := by
    unfold failedReceipt
    rw [hsound.at_step]
    cases other <;> rfl
  unfold markStepFailed at hreport
  rw [hreport, report_setReport]
  by_cases hother : other = step
  · rw [if_pos hother]
    exact ⟨fun _ => hother, fun _ => rfl⟩
  · rw [if_neg hother]
    exact ⟨fun hfailed => absurd hfailed (hsound.clean other), fun h => absurd h hother⟩

end Throws

theorem failure_of_runs {githubRepository : Option String} {args : RefreshArgs}
    {step : RefreshStep} {before during after : List RefreshExchange}
    {r : Except String (RefreshReceipt × String)}
    (hr : Runs (runQueueRefresh githubRepository args) (before ++ during ++ after) r)
    (hthrows : StepThrows githubRepository args step before during) :
    ∃ receipt answer, after = [⟨.writeReceipt (receiptPath args) receipt, answer⟩] ∧
      (∀ e ∈ before ++ during, e.query.kind ≠ .write) ∧ receipt.summaryStatus = .failed ∧
      ∀ other, (receipt.report other).status = .failed ↔ other = step := by
  obtain ⟨ctx, first, second, progress, failed, message, rfl, hprepare, harrive, hthrow⟩ :=
    hthrows.throws
  obtain ⟨checks, rest, entered, start, rfl, henter, hrest⟩ := Attempt.runs_bind_inv harrive
  cases entered with
  | false => exact nomatch (Runs.done_inv hrest).2
  | true =>
    have hstart := (keeps_enterSteps (I := fun q => q.kind = .quiet) rfl args ctx _
      (sound_createReceipt args ctx)).runs henter
    obtain ⟨⟨current, hsound⟩, hasked, hgoes⟩ :=
      stepsBefore_runs failed message during after r (hstart.2 _ rfl) hrest
    obtain ⟨hmarked, hasked'⟩ := stepProgram_runs args ctx _ hsound hthrow
    rw [List.append_assoc, List.append_assoc] at hr
    have hrun := Runs.rest hprepare hr
    rw [List.append_assoc] at hrun
    have hsteps := Attempt.runs_rest henter hrun
    obtain ⟨answer, rfl⟩ := endRefresh_runs (hgoes hthrow hsteps)
    refine ⟨_, answer, rfl, fun e he => ?_, rfl, failedReceipt_report hmarked message⟩
    have hprepared := (asks_prepareRefresh (I := fun q => q.kind = .quiet ∨ q.kind = .queueState)
      (fun _ => RefreshQuery.kind_of_reads) githubRepository args).runs hprepare
    rcases List.mem_append.mp he with he | he
    · rcases List.mem_append.mp he with he | he
      · rcases hprepared.1 e he with hkind | hkind
        · exact fun hwrite => nomatch hkind.symm.trans hwrite
        · exact fun hwrite => nomatch hkind.symm.trans hwrite
      · rcases List.mem_append.mp he with he | he
        · exact fun hwrite => nomatch (hstart.1 e he).symm.trans hwrite
        · exact hasked e he
    · exact hasked' e he

/-! ### The law and its condition -/

/-- After a poll that has ended, the pull request was seen open and out of the queue exactly if
it was open every time. -/
theorem polled_iff {seen : Option (List QueueState)} (h : Polled seen) :
    (∃ states, seen = some states ∧
      ∃ state ∈ states, state.isOpen = true ∧ state.isInMergeQueue = false) ↔
      ∀ states, seen = some states → ∀ state ∈ states, state.isOpen = true := by
  obtain ⟨states, last, rfl, hqueued, hlast⟩ := h
  constructor
  · rintro ⟨_, hsome, state, hstate, hopen, hout⟩ _ hsome' other hother
    obtain rfl := Option.some.inj hsome
    obtain rfl := Option.some.inj hsome'
    -- the one that was not in the queue is the last one
    have hstate' : state = last := by
      rcases List.mem_append.mp hstate with hstate | hstate
      · exact absurd ((hqueued state hstate).1.symm.trans hout) Bool.noConfusion
      · exact List.mem_singleton.mp hstate
    rcases List.mem_append.mp hother with hother | hother
    · exact (hqueued other hother).2
    · rw [List.mem_singleton.mp hother, ← hstate']
      exact hopen
  · intro hopen
    have hlastOpen := hopen _ rfl last (List.mem_append_right _ (List.mem_singleton_self last))
    refine ⟨_, rfl, last, List.mem_append_right _ (List.mem_singleton_self last), hlastOpen, ?_⟩
    exact Bool.eq_false_iff.mpr fun hin => hlast ⟨hin, hlastOpen⟩

/-- **The law of the refresh.** A run keeps the order of the steps exactly if every queue state
that it read between the dequeue call and a push showed the pull request open. -/
theorem refreshLaw_iff (githubRepository : Option String) (args : RefreshArgs)
    (h : List RefreshExchange) (r : Except String (RefreshReceipt × String))
    (hr : Runs (runQueueRefresh githubRepository args) h r) :
    RefreshLaw githubRepository args h ↔ OpenAtPush h := by
  have hguard := (returns_runQueueRefresh githubRepository args).asked hr
  constructor
  · intro hlaw before e after hsplit hpush
    have hpolled := (hguard before e after hsplit).push hpush
    exact (polled_iff hpolled).mp (hlaw.push before e after hsplit hpush)
  · intro hopen
    refine ⟨fun before e after hsplit hpush => ?_, fun before e after hsplit hmerge => ?_,
      fun step before during after hsplit hthrows => ?_⟩
    · have hpolled := (hguard before e after hsplit).push hpush
      exact (polled_iff hpolled).mpr (hopen before e after hsplit hpush)
    · exact (hguard before e after hsplit).mergeSync hmerge
    · rw [hsplit] at hr
      exact failure_of_runs hr hthrows

/-! ### Two runs -/

def sampleView : PrView where
  id := some "PR_7"
  state := some "OPEN"
  mergeStateStatus := some "CLEAN"
  baseRefName := some "develop"
  headRefName := some "feature"
  headRefOid := none
  headRepositoryName := some "repo"
  headRepositoryOwner := some "fork"
  isCrossRepository := true
  autoMergeRequest := false

def sampleState (state : String) (isInMergeQueue : Bool) : QueueState :=
  ⟨some state, none, isInMergeQueue, none, false⟩

/-- The policy that gives `develop` a merge queue. -/
def samplePolicy : Json :=
  .obj [("rulesets", .obj [("develop", .obj [("merge_queue", .obj []),
    ("includes", .arr [.str "refs/heads/develop"])])])]

/-- An outside on which no call fails. The pull request is queued until the dequeue call, and
then has the given state. -/
def sampleOutside (state : String) (dequeued : Bool) :
    (q : RefreshQuery) → Except String q.Reply × Bool
  | .ensureGhCli => (.ok (), dequeued)
  | .resolveRemote remoteName =>
    (.ok (if remoteName = "origin" then some ⟨"fork", "repo"⟩ else none), dequeued)
  | .readPolicy => (.ok samplePolicy, dequeued)
  | .readPullRequestView _ _ => (.ok sampleView, dequeued)
  | .readQueueState _ =>
    (.ok (if dequeued then sampleState state false else sampleState "OPEN" true), dequeued)
  | .dequeue _ => (.ok (), true)
  | .git command =>
    (.ok ⟨some 0, if command = .currentBranch then "feature" else "", ""⟩, dequeued)
  | .sleep _ => (.ok (), dequeued)
  | .runMergeSync _ => (.ok ⟨none, none, none, none⟩, dequeued)
  | .writeReceipt path _ => (.ok path, dequeued)

/-- `--pr 7 --repo org/repo`. -/
def sampleArgs : RefreshArgs := ⟨7, some "org/repo", none, false, none, none, false⟩

def sampleRun (state : String) : List RefreshExchange :=
  ((runQueueRefresh none sampleArgs).runWith (sampleOutside state) false).1

theorem runs_sampleRun (state : String) :
    Runs (runQueueRefresh none sampleArgs) (sampleRun state)
      ((runQueueRefresh none sampleArgs).runWith (sampleOutside state) false).2 :=
  runs_runWith (sampleOutside state) false _

/-- The law and its condition, of the run in which the pull request stays open. -/
theorem refreshLaw_open :
    RefreshLaw none sampleArgs (sampleRun "OPEN") ↔ OpenAtPush (sampleRun "OPEN") :=
  refreshLaw_iff none sampleArgs (sampleRun "OPEN") _ (runs_sampleRun "OPEN")

/-- The head of a pull request that was merged after the dequeue call is pushed. -/
theorem not_refreshLaw_merged :
    ¬ ∀ (githubRepository : Option String) (args : RefreshArgs) (h : List RefreshExchange)
      (r : Except String (RefreshReceipt × String)), args.dryRun = false →
      Runs (runQueueRefresh githubRepository args) h r → RefreshLaw githubRepository args h := by
  intro hall
  have hlaw := hall none sampleArgs _ _ rfl (runs_sampleRun "MERGED")
  have hsplit : sampleRun "MERGED" = (sampleRun "MERGED").take 14 ++
      ⟨.git (.push "origin" "feature"), .ok ⟨some 0, "", ""⟩⟩ :: (sampleRun "MERGED").drop 15 := rfl
  obtain ⟨states, hseen, state, hstate, hopen, -⟩ := hlaw.push _ _ _ hsplit rfl
  -- the only state that was read after the dequeue call is the one of the merged pull request
  have hread : statesSinceDequeue ((sampleRun "MERGED").take 14) =
      some [sampleState "MERGED" false] := rfl
  obtain rfl := Option.some.inj (hread.symm.trans hseen)
  rw [List.mem_singleton.mp hstate] at hopen
  exact absurd hopen (by decide)

end CompareVI.Refresh
