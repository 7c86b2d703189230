import CompareVI.Framework.GitRepo
import CompareVI.Refresh.Order

/-!
# The commits of a refreshed head

In the rebase mode a run fetches the head of the pull request, checks out the branch of that
name, rebases it and force-pushes the result. A checkout of a branch that exists locally does
not look at what was fetched: it lands on the local branch, which may be behind. The lease of
the push does not help, since the fetch just before has moved the remote-tracking branch that
it compares with.

`gitService` is git as its commands are documented, on the refs of the working repository and
of the remotes; other parties may push to the remotes at any time. `commitsKept_iff` says that
no commit of the fetched head is lost exactly if the local branch, where there is one, has all
changes of the fetched head that the base branch does not have.
-/

open Framework

namespace CompareVI.Refresh

variable {C Δ : Type}

/-! ### Git -/

/-- The working repository, and the branches of the remotes. -/
structure GitWorld (C : Type) where
  repo : LocalRepo C
  remotes : String → String → Option C

/-- What a git command does that exits with status 0.

* A plain checkout of a name that is no local branch creates the branch from the only
  remote-tracking branch of that name.
* A push with a lease needs the branch of the remote to be where the remote-tracking branch is. -/
def Succeeds (G : CommitGraph C Δ) (world : GitWorld C) (stdout : String) (after : GitWorld C) :
    GitCommand → Prop
  | .currentBranch => after = world ∧ JsString.trim stdout = world.repo.headName
  | .trackingRemote _ | .status | .rebaseAbort | .revParseHead => after = world
  | .fetch remote ref => ∃ commit, world.remotes remote ref = some commit ∧
      after = { world with repo := world.repo.fetch remote ref commit }
  | .checkout branch =>
      (world.repo.heads branch ≠ none ∧ after = { world with repo := world.repo.switch branch }) ∨
      world.repo.heads branch = none ∧ ∃ remote commit,
        world.repo.tracking remote branch = some commit ∧
        (∀ other, world.repo.tracking other branch ≠ none → other = remote) ∧
        after = { world with repo := world.repo.create branch commit }
  | .checkoutTrack branch remote => world.repo.heads branch = none ∧
      ∃ commit, world.repo.tracking remote branch = some commit ∧
        after = { world with repo := world.repo.create branch commit }
  | .rebase base => ∃ upstream own result,
      world.repo.tracking "upstream" base = some upstream ∧ world.repo.current = some own ∧
      G.Rebased upstream own result ∧ after = { world with repo := world.repo.move result }
  | .push remote branch => ∃ commit lease, world.repo.current = some commit ∧
      world.repo.tracking remote branch = some lease ∧
      world.remotes remote branch = some lease ∧
      after = {
        repo := world.repo.track remote branch commit
        remotes := Function.update world.remotes remote
          (Function.update (world.remotes remote) branch (some commit)) }

/-- How a git command may end. One that fails leaves the refs alone; a rebase that stops is
aborted at once, and the state in between is left out. -/
def GitAnswers (G : CommitGraph C Δ) (world after : GitWorld C) (command : GitCommand) :
    Except String GitResult → Prop
  | .ok result =>
    if result.status = some 0 then Succeeds G world result.stdout after command
    else after = world
  | .error _ => after = world

/-- How a query is answered once the other parties have pushed. Whatever the nested run does
comes after the push. -/
def Answers (G : CommitGraph C Δ) (world after : GitWorld C) :
    (q : RefreshQuery) → Except String q.Reply → Prop
  | .git command => GitAnswers G world after command
  | .runMergeSync _ => fun _ => True
  | _ => fun _ => after = world

def gitService (G : CommitGraph C Δ) :
    Service (GitWorld C) fun q : RefreshQuery => Except String q.Reply :=
  fun world q answer after => ∃ remotes, Answers G ⟨world.repo, remotes⟩ after q answer

/-! ### The law -/

abbrev RefreshCall (C : Type) := Call (GitWorld C) fun q : RefreshQuery => Except String q.Reply

/-- Every commit of the head that was fetched is contained, up to rebasing, in the head that is
pushed. -/
def CommitsKept (G : CommitGraph C Δ) (calls : List (RefreshCall C)) : Prop :=
  ∀ before call after, calls = before ++ call :: after →
    ∀ remote branch, call.query = .git (.push remote branch) →
      ∀ fetched pushed, call.state.repo.fetchHead = some fetched →
        call.state.repo.current = some pushed →
        ∀ commit, G.Reaches fetched commit → G.Contains pushed commit

/-- Before every push: if there was a local branch of that name when the run started, it had all
changes of the fetched head that the base branch does not have. -/
def OwnBranchCurrent (G : CommitGraph C Δ) (start : LocalRepo C) (calls : List (RefreshCall C)) :
    Prop :=
  ∀ before call after, calls = before ++ call :: after →
    ∀ remote branch, call.query = .git (.push remote branch) →
      ∀ base, (∃ rebase ∈ before, rebase.query = .git (.rebase base)) →
        ∀ fetched own upstream, call.state.repo.fetchHead = some fetched →
          start.own branch = some own →
          call.state.repo.tracking "upstream" base = some upstream →
          G.changes fetched ⊆ G.changes upstream ∪ G.changes own

/-! ### The stages of a run -/

abbrev recordedGit (G : CommitGraph C Δ) :
    Service (GitWorld C × List RefreshExchange) fun q : RefreshQuery => Except String q.Reply :=
  recorded (gitService G)

def rebases (h : List RefreshExchange) : List String :=
  h.filterMap fun e =>
    match e.query with
    | .git (.rebase base) => some base
    | _ => none

/-- What is pushed: the fetched head, or the local branch in its place, rebased onto the base. -/
structure ReadyToPush (G : CommitGraph C Δ) (start : LocalRepo C) (base branch : String)
    (repo : LocalRepo C) : Prop where
  intro ::
  ready : ∃ fetched upstream pushed, repo.fetchHead = some fetched ∧
    repo.tracking "upstream" base = some upstream ∧ repo.current = some pushed ∧
    G.changes pushed = G.changes upstream ∪ G.changes ((start.own branch).getD fetched)

/-- What a push is asked after. -/
def PushGuard (G : CommitGraph C Δ) (start : LocalRepo C)
    (s : GitWorld C × List RefreshExchange) (q : RefreshQuery) : Prop :=
  ∀ remote branch, q = .git (.push remote branch) →
    ∃ base, rebases s.2 = [base] ∧ ReadyToPush G start base branch s.1.repo

def RefreshQuery.still : RefreshQuery → Bool
  | .git command => match command with
    | .currentBranch | .trackingRemote _ | .status | .revParseHead | .rebaseAbort => true
    | _ => false
  | .runMergeSync _ => false
  | _ => true

theorem RefreshQuery.still_of_reads {q : RefreshQuery} (h : q.reads = true) : q.still = true := by
  cases q with
  | git command => cases command <;> first | rfl | exact nomatch h
  | _ => first | rfl | exact nomatch h

section Service

variable {G : CommitGraph C Δ} {start : LocalRepo C} {world after : GitWorld C}

theorem succeeds_of_serves {command : GitCommand} {result : GitResult}
    (hserve : gitService G world (.git command) (.ok result) after)
    (hstatus : result.status = some 0) :
    ∃ remotes, Succeeds G ⟨world.repo, remotes⟩ result.stdout after command := by
  obtain ⟨remotes, hanswer⟩ := hserve
  exact ⟨remotes, (if_pos hstatus).mp hanswer⟩

theorem repo_of_fails {command : GitCommand} {result : GitResult}
    (hserve : gitService G world (.git command) (.ok result) after)
    (hstatus : result.status ≠ some 0) : after.repo = world.repo := by
  obtain ⟨remotes, hanswer⟩ := hserve
  change GitAnswers G ⟨world.repo, remotes⟩ after command (.ok result) at hanswer
  rw [GitAnswers, if_neg hstatus] at hanswer
  rw [hanswer]

variable {q : RefreshQuery}

theorem repo_of_still {answer : Except String q.Reply} (hq : q.still = true)
    (hserve : gitService G world q answer after) : after.repo = world.repo := by
  cases q with
  | runMergeSync argv => exact nomatch hq
  | git command =>
    cases answer with
    | error message =>
      obtain ⟨remotes, rfl⟩ := hserve
      rfl
    | ok result =>
      by_cases hstatus : GitResult.status result = some 0
      · obtain ⟨remotes, hdone⟩ := succeeds_of_serves hserve hstatus
        cases command with
        | currentBranch => rw [hdone.1]
        | trackingRemote branchName =>
          obtain rfl := hdone
          rfl
        | status =>
          obtain rfl := hdone
          rfl
        | rebaseAbort =>
          obtain rfl := hdone
          rfl
        | revParseHead =>
          obtain rfl := hdone
          rfl
        | _ => exact nomatch hq
      · exact repo_of_fails hserve hstatus
  | _ =>
    obtain ⟨remotes, rfl⟩ := hserve
    rfl

theorem pushGuard_of_kind {s : GitWorld C × List RefreshExchange} (hq : q.kind ≠ .push) :
    PushGuard G start s q := by
  rintro remote branch rfl
  exact absurd rfl hq

theorem pushGuard_of_still {s : GitWorld C × List RefreshExchange} (hq : q.still = true) :
    PushGuard G start s q := by
  rintro remote branch rfl
  exact nomatch hq

theorem rebases_concat (h : List RefreshExchange) (e : RefreshExchange) :
    rebases (h ++ [e]) = rebases h ++ rebases [e] :=
  List.filterMap_append

theorem mem_rebases {h : List RefreshExchange} {base : String} :
    base ∈ rebases h ↔ ∃ e ∈ h, e.query = .git (.rebase base) := by
  unfold rebases
  rw [List.mem_filterMap]
  refine exists_congr fun e => and_congr_right fun _ => ⟨fun hbase => ?_, fun hquery => ?_⟩
  · rcases e with ⟨q, answer⟩
    cases q with
    | git command =>
      cases command with
      | rebase other => rw [Option.some.inj hbase]
      | _ => exact nomatch hbase
    | _ => exact nomatch hbase
  · rw [hquery]

theorem recorded_of_still {s s' : GitWorld C × List RefreshExchange}
    {answer : Except String q.Reply} (hq : q.still = true) (hserve : recordedGit G s q answer s') :
    s'.1.repo = s.1.repo ∧ rebases s'.2 = rebases s.2 := by
  obtain ⟨hserve, hrecord⟩ := hserve
  refine ⟨repo_of_still hq hserve, ?_⟩
  have hnone : rebases [⟨q, answer⟩] = [] := by
    cases q with
    | git command => cases command <;> first | rfl | exact nomatch hq
    | _ => rfl
  rw [hrecord, rebases_concat, hnone, List.append_nil]

end Service

/-! ### Still programs -/

section Still

variable {G : CommitGraph C Δ} {start : LocalRepo C} {s : GitWorld C × List RefreshExchange}
  {K : LocalRepo C → List String → Prop}

theorem returns_of_still {α : Type} {p : RefreshM α}
    (hp : Asks (fun q => q.still = true) (fun _ => True) p) (hK : K s.1.repo (rebases s.2)) :
    Returns (recordedGit G) (PushGuard G start) (fun s _ => K s.1.repo (rebases s.2)) s p := by
  have hreturns := Returns.invariant (fun s => K s.1.repo (rebases s.2))
    (hp.returns (recordedGit G) s) hK ?_
  · exact Returns.mono (Ensures.weaken hreturns fun _ _ hq => pushGuard_of_still hq.1)
      fun _ _ h => h.2
  · intro s q answer s' hold hq hserve
    obtain ⟨hrepo, hrebases⟩ := recorded_of_still hq hserve
    rw [hrepo, hrebases]
    exact hold

theorem attempt_of_still {α : Type} {t : RefreshAttempt α} {progress : Progress}
    {current : Option RefreshStep}
    (ht : Asks (fun q => q.still = true) (fun out => Sound current out.2) (t progress))
    (hK : K s.1.repo (rebases s.2)) :
    Attempt.Returns (recordedGit G) (PushGuard G start)
      (fun s progress _ => Sound current progress ∧ K s.1.repo (rebases s.2)) s progress t := by
  refine Attempt.returns_of_asks ht
    (fun s : GitWorld C × List RefreshExchange => K s.1.repo (rebases s.2)) hK ?_
    fun _ _ hq _ => pushGuard_of_still hq
  intro s q answer s' hold hq hserve
  obtain ⟨hrepo, hrebases⟩ := recorded_of_still hq hserve
  rw [hrepo, hrebases]
  exact hold

end Still

/-! ### Git commands -/

section Commands

variable {G : CommitGraph C Δ} {start : LocalRepo C} {s : GitWorld C × List RefreshExchange}
  {progress : Progress}

/-- What is known after a git command. -/
structure GitDone (G : CommitGraph C Δ) (command : GitCommand)
    (s s' : GitWorld C × List RefreshExchange) (result : GitResult) : Prop where
  rebases_eq : rebases s'.2 = rebases s.2 ++
    rebases [⟨.git command, .ok result⟩]
  succeeds : result.status = some 0 →
    ∃ remotes, Succeeds G ⟨s.1.repo, remotes⟩ result.stdout s'.1 command
  fails : result.status ≠ some 0 → s'.1.repo = s.1.repo

theorem returns_git {command : GitCommand} (hguard : PushGuard G start s (.git command)) :
    Attempt.Returns (recordedGit G) (PushGuard G start)
      (fun s' _ result => GitDone G command s s' result) s progress (git command) := by
  refine Attempt.returns_call hguard ?_
  rintro (result : GitResult) s' ⟨hserve, hrecord⟩
  refine ⟨?_, succeeds_of_serves hserve, repo_of_fails hserve⟩
  rw [hrecord, rebases_concat]

theorem returns_runListedGit {command : GitCommand}
    (hguard : PushGuard G start s (.git command)) :
    Attempt.Returns (recordedGit G) (PushGuard G start)
      (fun s' _ _ => ∃ result : GitResult, result.status = some 0 ∧ GitDone G command s s' result)
      s progress (runListedGit command) := by
  refine Attempt.returns_modify_bind ((returns_git hguard).bind fun s' progress result hdone => ?_)
  exact Attempt.returns_require fun hstatus => ⟨result, of_decide_eq_true hstatus, hdone⟩

/-- The head was fetched, and `HEAD` and the branches are as they were. -/
structure HeadFetched (start : LocalRepo C) (remote branch : String) (fetched : C)
    (repo : LocalRepo C) : Prop where
  heads_eq : repo.heads = start.heads
  head_eq : repo.head = start.head
  fetchHead_eq : repo.fetchHead = some fetched
  tracking_eq : repo.tracking remote branch = some fetched

/-- What is checked out is the local branch, or the fetched head in its place. -/
structure HeadCheckedOut (start : LocalRepo C) (branch : String) (fetched : C)
    (repo : LocalRepo C) : Prop where
  fetchHead_eq : repo.fetchHead = some fetched
  current_eq : ∀ commit, repo.current = some commit → commit = (start.own branch).getD fetched

variable {repo : LocalRepo C} {branch remote : String}

theorem own_of_headName_ne (h : start.headName ≠ branch) :
    start.own branch = start.heads branch :=
  if_neg h

theorem HeadFetched.switch {fetched : C} (h : HeadFetched start remote branch fetched repo)
    (hname : start.headName ≠ branch) :
    HeadCheckedOut start branch fetched (repo.switch branch) := by
  refine ⟨h.fetchHead_eq, fun commit hcurrent => ?_⟩
  have hown : start.own branch = some commit := by
    rw [own_of_headName_ne hname, ← h.heads_eq]
    exact hcurrent
  rw [hown]
  rfl

theorem HeadFetched.create {fetched : C} (h : HeadFetched start remote branch fetched repo)
    (hname : start.headName ≠ branch) (hnone : repo.heads branch = none) :
    HeadCheckedOut start branch fetched (repo.create branch fetched) := by
  refine ⟨h.fetchHead_eq, fun commit hcurrent => ?_⟩
  have hown : start.own branch = none := by
    rw [own_of_headName_ne hname, ← h.heads_eq]
    exact hnone
  rw [LocalRepo.create_current] at hcurrent
  rw [hown]
  exact (Option.some.inj hcurrent).symm

theorem HeadFetched.stay {fetched : C} (h : HeadFetched start remote branch fetched repo)
    (hname : start.headName = branch) :
    HeadCheckedOut start branch fetched repo := by
  refine ⟨h.fetchHead_eq, fun commit hcurrent => ?_⟩
  have hown : start.own branch = some commit := by
    rw [← LocalRepo.own_congr h.heads_eq h.head_eq, LocalRepo.own, if_pos, hcurrent]
    rw [← hname]
    unfold LocalRepo.headName
    rw [h.head_eq]
  rw [hown]
  rfl

variable {ctx : RefreshContext} {fetched : C}

theorem returns_fetchHead (hrepo : s.1.repo.heads = start.heads ∧ s.1.repo.head = start.head)
    (hrebases : rebases s.2 = []) :
    Attempt.Returns (recordedGit G) (PushGuard G start)
      (fun s _ _ => rebases s.2 = [] ∧
        ∃ fetched, HeadFetched start ctx.headRemote ctx.headRefName fetched s.1.repo)
      s progress (runListedGit (.fetch ctx.headRemote ctx.headRefName)) := by
  refine (returns_runListedGit (pushGuard_of_kind (by rintro ⟨⟩))).mono ?_
  rintro s' - - ⟨result, hstatus, hdone⟩
  obtain ⟨remotes, fetched, -, hafter⟩ := hdone.succeeds hstatus
  refine ⟨?_, fetched, ?_⟩
  · rw [hdone.rebases_eq, hrebases]
    rfl
  · rw [hafter]
    exact ⟨hrepo.1, hrepo.2, rfl, LocalRepo.fetch_tracking ..⟩

theorem returns_fetchBase (hrepo : s.1.repo = start) (hrebases : rebases s.2 = []) :
    Attempt.Returns (recordedGit G) (PushGuard G start)
      (fun s _ _ => rebases s.2 = [] ∧
        s.1.repo.heads = start.heads ∧ s.1.repo.head = start.head)
      s progress (runListedGit (.fetch "upstream" ctx.baseRefName)) := by
  refine (returns_runListedGit (pushGuard_of_kind (by rintro ⟨⟩))).mono ?_
  rintro s' - - ⟨result, hstatus, hdone⟩
  obtain ⟨remotes, commit, -, hafter⟩ := hdone.succeeds hstatus
  refine ⟨?_, ?_⟩
  · rw [hdone.rebases_eq, hrebases]
    rfl
  · rw [hafter, ← hrepo]
    exact ⟨rfl, rfl⟩

theorem returns_checkoutTracking (hname : start.headName ≠ ctx.headRefName)
    (hfetched : HeadFetched start ctx.headRemote ctx.headRefName fetched s.1.repo)
    (hrebases : rebases s.2 = []) :
    Attempt.Returns (recordedGit G) (PushGuard G start)
      (fun s _ _ => rebases s.2 = [] ∧
        HeadCheckedOut start ctx.headRefName fetched s.1.repo)
      s progress (checkoutTracking ctx) := by
  refine Attempt.returns_modify_bind
    ((returns_git (pushGuard_of_kind (by rintro ⟨⟩))).bind fun s' _ result hdone => ?_)
  refine Attempt.returns_require fun hstatus => ⟨?_, ?_⟩
  · rw [hdone.rebases_eq, hrebases]
    rfl
  · obtain ⟨remotes, hnone, commit, htracking, hafter⟩ :=
      hdone.succeeds (of_decide_eq_true hstatus)
    obtain rfl := Option.some.inj (hfetched.tracking_eq.symm.trans htracking)
    rw [hafter]
    exact hfetched.create hname hnone

theorem returns_checkoutHead (hname : start.headName ≠ ctx.headRefName)
    (hfetched : HeadFetched start ctx.headRemote ctx.headRefName fetched s.1.repo)
    (hrebases : rebases s.2 = []) :
    Attempt.Returns (recordedGit G) (PushGuard G start)
      (fun s _ _ => rebases s.2 = [] ∧
        HeadCheckedOut start ctx.headRefName fetched s.1.repo)
      s progress (checkoutHead ctx) := by
  refine Attempt.returns_modify_bind
    ((returns_git (pushGuard_of_kind (by rintro ⟨⟩))).bind fun s' _ result hdone => ?_)
  have hrebases' : rebases s'.2 = [] := by
    rw [hdone.rebases_eq, hrebases]
    rfl
  by_cases hstatus : result.status = some 0
  · rw [if_pos hstatus]
    refine Attempt.returns_pure ⟨hrebases', ?_⟩
    obtain ⟨remotes, ⟨-, hafter⟩ | ⟨hnone, remote, commit, htracking, honly, hafter⟩⟩ :=
      hdone.succeeds hstatus
    · rw [hafter]
      exact hfetched.switch hname
    · -- the head was fetched, so the only remote with such a branch is the one of the head
      have hremote : ctx.headRemote = remote := by
        refine honly ctx.headRemote fun hmissing => ?_
        rw [hfetched.tracking_eq] at hmissing
        exact nomatch hmissing
      rw [← hremote] at htracking
      obtain rfl := Option.some.inj (hfetched.tracking_eq.symm.trans htracking)
      rw [hafter]
      exact hfetched.create hname hnone
  · rw [if_neg hstatus]
    refine returns_checkoutTracking hname ?_ hrebases'
    rw [hdone.fails hstatus]
    exact hfetched

theorem returns_switchToHead (hbranch : ctx.currentBranch = start.headName)
    (hfetched : HeadFetched start ctx.headRemote ctx.headRefName fetched s.1.repo)
    (hrebases : rebases s.2 = []) :
    Attempt.Returns (recordedGit G) (PushGuard G start)
      (fun s _ _ => rebases s.2 = [] ∧
        HeadCheckedOut start ctx.headRefName fetched s.1.repo)
      s progress (switchToHead ctx) := by
  unfold switchToHead
  rw [hbranch]
  split
  · next hname =>
    exact returns_checkoutHead hname hfetched hrebases
  · next hname =>
    exact Attempt.returns_pure ⟨hrebases, hfetched.stay (not_not.mp hname)⟩

theorem returns_rebaseOntoBase
    (hcheckedOut : HeadCheckedOut start ctx.headRefName fetched s.1.repo)
    (hrebases : rebases s.2 = []) :
    Attempt.Returns (recordedGit G) (PushGuard G start)
      (fun s _ _ => rebases s.2 = [ctx.baseRefName] ∧
        ReadyToPush G start ctx.baseRefName ctx.headRefName s.1.repo)
      s progress (rebaseOntoBase ctx) := by
  refine Attempt.returns_modify_bind
    ((returns_git (pushGuard_of_kind (by rintro ⟨⟩))).bind fun s' _ result hdone => ?_)
  by_cases hstatus : result.status = some 0
  · rw [if_pos hstatus]
    obtain ⟨remotes, upstream, own, new, hupstream, hown, hrebased, hafter⟩ :=
      hdone.succeeds hstatus
    refine Attempt.returns_pure ⟨?_, fetched, upstream, new, ?_, ?_, ?_, ?_⟩
    · rw [hdone.rebases_eq, hrebases]
      rfl
    · rw [hafter]
      exact (LocalRepo.move_fetchHead new).trans hcheckedOut.fetchHead_eq
    · rw [hafter]
      exact (congrFun (congrFun (LocalRepo.move_tracking new) _) _).trans hupstream
    · rw [hafter]
      exact LocalRepo.move_current new
    · rw [hrebased.changes_eq, hcheckedOut.current_eq own hown]
  · rw [if_neg hstatus]
    refine Attempt.returns_modify_bind
      ((returns_git (pushGuard_of_kind (by rintro ⟨⟩))).bind fun _ _ _ _ => ?_)
    exact Attempt.returns_throw _

theorem returns_rebaseHead (hbranch : ctx.currentBranch = start.headName)
    (hrepo : s.1.repo = start) (hrebases : rebases s.2 = []) :
    Attempt.Returns (recordedGit G) (PushGuard G start)
      (fun s _ _ => rebases s.2 = [ctx.baseRefName] ∧
        ReadyToPush G start ctx.baseRefName ctx.headRefName s.1.repo)
      s progress (rebaseHead ctx) := by
  refine (returns_fetchBase hrepo hrebases).bind fun s _ _ hP => ?_
  refine (returns_fetchHead hP.2 hP.1).bind ?_
  rintro s - - ⟨hrebases, fetched, hfetched⟩
  refine (returns_switchToHead hbranch hfetched hrebases).bind fun s _ _ hP => ?_
  exact returns_rebaseOntoBase hP.2 hP.1

end Commands

/-! ### The run -/

section Run

variable {G : CommitGraph C Δ} {start : LocalRepo C} {s : GitWorld C × List RefreshExchange}
  {progress : Progress} {current : Option RefreshStep} {args : RefreshArgs} {ctx : RefreshContext}

theorem attempt_of_no_push {α : Type} {t : RefreshAttempt α}
    (ht : Asks (fun q => q.kind ≠ .push) (fun out => Sound current out.2) (t progress)) :
    Attempt.Returns (recordedGit G) (PushGuard G start)
      (fun _ progress _ => Sound current progress) s progress t := by
  refine (Attempt.returns_of_asks ht (fun _ => True) trivial (fun _ _ _ _ _ _ _ => trivial)
    fun _ _ hq _ => pushGuard_of_kind hq).mono fun _ _ _ h => h.1

theorem returns_getCurrentBranch (hK : s.1.repo = start ∧ rebases s.2 = []) :
    Returns (recordedGit G) (PushGuard G start)
      (fun s currentBranch => (s.1.repo = start ∧ rebases s.2 = []) ∧
        currentBranch = start.headName) s getCurrentBranch := by
  refine Returns.bind (P := fun s result => (s.1.repo = start ∧ rebases s.2 = []) ∧
    JsString.trim result.stdout = start.headName) ?_ fun s result hP => returns_pure hP
  refine Returns.bind (P := fun s' result => GitDone G .currentBranch s s' result) ?_
    fun s' result hdone => ?_
  · refine returns_call (pushGuard_of_kind (by rintro ⟨⟩)) ?_
    rintro (result : GitResult) s' ⟨hserve, hrecord⟩
    refine ⟨?_, succeeds_of_serves hserve, repo_of_fails hserve⟩
    rw [hrecord, rebases_concat]
  · split
    · next hstatus =>
      obtain ⟨remotes, hafter, hname⟩ := hdone.succeeds hstatus
      refine returns_pure ⟨⟨?_, ?_⟩, ?_⟩
      · rw [hafter]
        exact hK.1
      · rw [hdone.rebases_eq, hK.2]
        rfl
      · rw [hname, hK.1]
    · exact returns_fail _

theorem returns_prepareRefresh (githubRepository : Option String)
    (hK : s.1.repo = start ∧ rebases s.2 = []) :
    Returns (recordedGit G) (PushGuard G start)
      (fun s ctx => (s.1.repo = start ∧ rebases s.2 = []) ∧ ctx.currentBranch = start.headName) s
      (prepareRefresh githubRepository args) := by
  have hreads : ∀ q : RefreshQuery, q.reads = true → q.still = true :=
    fun _ => RefreshQuery.still_of_reads
  have hcall : ∀ (q : RefreshQuery) (s : GitWorld C × List RefreshExchange), q.reads = true →
      (s.1.repo = start ∧ rebases s.2 = []) →
      Returns (recordedGit G) (PushGuard G start)
        (fun s _ => s.1.repo = start ∧ rebases s.2 = []) s q.call :=
    fun q s hq hK => returns_of_still (K := fun repo bases => repo = start ∧ bases = [])
      (asks_call (hreads q hq) fun _ => trivial) hK
  refine (hcall .ensureGhCli s rfl hK).bind fun s _ hK => ?_
  refine Returns.bind (returns_of_still (K := fun repo bases => repo = start ∧ bases = [])
    (asks_resolveRepositorySlug hreads githubRepository args.repo) hK) fun s repo hK => ?_
  refine (hcall .readPolicy s rfl hK).bind fun s policy hK => ?_
  refine (hcall (.readPullRequestView repo args.pr) s rfl hK).bind fun s prView hK => ?_
  refine (hcall (.readQueueState (PrView.id prView)) s rfl hK).bind fun s queueState hK => ?_
  refine (returns_getCurrentBranch hK).bind fun s currentBranch hP => ?_
  have hkeep : ∀ {α : Type} {p : RefreshM α} (s : GitWorld C × List RefreshExchange),
      Asks (fun q => q.still = true) (fun _ => True) p →
      ((s.1.repo = start ∧ rebases s.2 = []) ∧ currentBranch = start.headName) →
      Returns (recordedGit G) (PushGuard G start)
        (fun s _ => (s.1.repo = start ∧ rebases s.2 = []) ∧ currentBranch = start.headName) s p :=
    fun s hp hP => returns_of_still
      (K := fun repo bases => (repo = start ∧ bases = []) ∧ currentBranch = start.headName) hp hP
  refine (hkeep s (asks_readTrackingRemote hreads currentBranch) hP).bind
    fun s trackingRemote hP => ?_
  refine (hkeep s (asks_resolveHeadRemoteName hreads args.headRemote prView currentBranch
    trackingRemote repo) hP).bind fun s headRemote hP => ?_
  exact returns_pure hP

theorem returns_refreshStep_rebase (hmode : args.skipRebase = false)
    (hsound : Sound current progress) (hbranch : ctx.currentBranch = start.headName)
    (hrepo : s.1.repo = start) (hrebases : rebases s.2 = []) :
    Attempt.Returns (recordedGit G) (PushGuard G start)
      (fun _ progress _ => Sound (some .refresh) progress) s progress (refreshStep args ctx) := by
  refine Attempt.Returns.mono (P := fun _ progress _ => True ∧ Sound (some .refresh) progress) ?_
    fun _ _ _ h => h.2
  refine Attempt.Returns.and_asks ?_ (enters_refreshStep (I := fun _ => True)
    (fun _ _ => trivial) args ctx trivial _ _ hsound)
  refine Attempt.returns_modify_bind (Attempt.returns_modify_bind ?_)
  unfold rebaseUnlessAmend
  rw [hmode, if_neg Bool.false_ne_true]
  refine (returns_rebaseHead hbranch hrepo hrebases).bind fun s progress _ hP => ?_
  have hready : ∀ s' : GitWorld C × List RefreshExchange,
      s'.1.repo = s.1.repo → rebases s'.2 = rebases s.2 →
      PushGuard G start s' (.git (.push ctx.headRemote ctx.headRefName)) := by
    intro s' hrepo' hrebases' remote branch hpush
    obtain ⟨-, rfl⟩ := GitCommand.push.inj (RefreshQuery.git.inj hpush)
    rw [hrepo', hrebases']
    exact ⟨ctx.baseRefName, hP⟩
  -- the head is read between the rebase and the push
  refine Attempt.Returns.bind (P := fun s' _ _ => s'.1.repo = s.1.repo ∧
    rebases s'.2 = rebases s.2) ?_ fun s' progress result hsame => ?_
  · refine (returns_git (pushGuard_of_kind (by rintro ⟨⟩))).bind fun s' progress result hdone => ?_
    refine Attempt.Returns.bind (P := fun s' _ _ => s'.1.repo = s.1.repo ∧
      rebases s'.2 = rebases s.2) (Attempt.returns_require fun hstatus => ⟨?_, ?_⟩)
      fun _ _ _ hsame => Attempt.returns_pure hsame
    · obtain ⟨remotes, hafter⟩ := hdone.succeeds (of_decide_eq_true hstatus)
      rw [hafter]
    · rw [hdone.rebases_eq]
      exact List.append_nil _
  · refine (returns_runListedGit (hready s' hsame.1 hsame.2)).bind fun _ _ _ _ => ?_
    exact Attempt.returns_modify_bind (Attempt.returns_modify trivial)

theorem returns_refreshWithReceipt_rebase (hmode : args.skipRebase = false)
    (hK : s.1.repo = start ∧ rebases s.2 = []) (hbranch : ctx.currentBranch = start.headName) :
    Attempt.Returns (recordedGit G) (PushGuard G start) (fun _ _ _ => True) s
      ⟨createReceipt args ctx, none⟩ (refreshWithReceipt args ctx) := by
  have hfinish : ∀ current progress (s : GitWorld C × List RefreshExchange),
      Sound current progress → Attempt.Returns (recordedGit G) (PushGuard G start)
        (fun _ _ _ => True) s progress (finishRefresh args) := by
    intro current progress s hsound
    have hkeeps : Attempt.Keeps (fun q => q.kind ≠ .push) (Sound current) (finishRefresh args) :=
      keeps_finishRefresh args fun _ h => nomatch h
    exact (attempt_of_no_push (hkeeps progress hsound)).mono fun _ _ _ _ => trivial
  refine (attempt_of_still (K := fun repo bases => repo = start ∧ bases = [])
    (keeps_enterSteps (I := fun q => q.still = true) rfl args ctx _
      (sound_createReceipt args ctx)) hK).bind fun s progress entered hP => ?_
  cases entered with
  | false => exact hfinish none progress s hP.1
  | true =>
    refine (attempt_of_still (K := fun repo bases => repo = start ∧ bases = [])
      (enters_dequeueStep (I := fun q => q.still = true) ctx rfl rfl rfl _ _ hP.1)
      hP.2).bind fun s progress _ hP => ?_
    refine (returns_refreshStep_rebase hmode hP.1 hbranch hP.2.1 hP.2.2).bind
      fun s progress _ hsound => ?_
    refine (attempt_of_no_push (enters_requeueStep (I := fun q => q.kind ≠ .push) args ctx
      (fun h => nomatch h) _ _ hsound)).bind fun s progress _ hsound => ?_
    exact Attempt.returns_modify_bind (hfinish _ _ s (hsound.update
      (noFailure_of_report_eq fun _ step => by cases step <;> rfl)))

theorem returns_runQueueRefresh_rebase (githubRepository : Option String)
    (hmode : args.skipRebase = false) (hK : s.1.repo = start ∧ rebases s.2 = []) :
    Returns (recordedGit G) (PushGuard G start) (fun _ _ => True) s
      (runQueueRefresh githubRepository args) := by
  refine (returns_prepareRefresh githubRepository hK).bind fun s ctx hP => ?_
  refine Returns.bind (returns_refreshWithReceipt_rebase hmode hP.1 hP.2) fun s out _ => ?_
  rcases out with ⟨message | result, progress⟩
  · exact Returns.bind (P := fun _ _ => True)
      (returns_call (pushGuard_of_kind (by rintro ⟨⟩)) fun _ _ _ => trivial)
      fun _ _ _ => returns_fail _
  · exact returns_pure trivial

end Run

/-- **The law of the pushed head.** In the rebase mode no commit of the fetched head is lost
exactly if the local branch of that name, where there is one, has all changes of the fetched
head that the base branch does not have. -/
theorem commitsKept_iff (G : CommitGraph C Δ) (githubRepository : Option String)
    (args : RefreshArgs) (hmode : args.skipRebase = false) (before after : GitWorld C)
    (calls : List (RefreshCall C)) (r : Except String (RefreshReceipt × String))
    (hrun : Executes (gitService G) before (runQueueRefresh githubRepository args) calls after r) :
    CommitsKept G calls ↔ OwnBranchCurrent G before.repo calls := by
  have hguard := (Ensures.recorded (h := []) (returns_runQueueRefresh_rebase (G := G)
    githubRepository hmode ⟨(rfl : _ = before.repo), rfl⟩) hrun).1
  constructor
  · intro hkept first call last hsplit remote branch hpush base hbase fetched own upstream hfetched
      hown hupstream
    obtain ⟨base', hrebases, ⟨fetched', upstream', pushed, hfetched', hupstream', hpushed,
      hchanges⟩⟩ := hguard first call last hsplit remote branch hpush
    -- the base of the condition is the one that the run rebased onto
    have hbase' : base = base' := by
      obtain ⟨rebase, hmem, hquery⟩ := hbase
      have hin := mem_rebases.mpr ⟨rebase.exchange, List.mem_map_of_mem hmem, hquery⟩
      rw [List.nil_append] at hrebases
      rw [hrebases] at hin
      exact List.mem_singleton.mp hin
    rw [hbase'] at hupstream
    obtain rfl := Option.some.inj (hfetched'.symm.trans hfetched)
    obtain rfl := Option.some.inj (hupstream'.symm.trans hupstream)
    have hall := hkept first call last hsplit remote branch hpush fetched' pushed hfetched hpushed
    have hsubset := CommitGraph.contains_iff_changes_subset.mp hall
    rw [hchanges, hown] at hsubset
    exact hsubset
  · intro hcurrent first call last hsplit remote branch hpush fetched pushed hfetched hpushed
    obtain ⟨base, hrebases, ⟨fetched', upstream, pushed', hfetched', hupstream, hpushed',
      hchanges⟩⟩ := hguard first call last hsplit remote branch hpush
    obtain rfl := Option.some.inj (hfetched'.symm.trans hfetched)
    obtain rfl := Option.some.inj (hpushed'.symm.trans hpushed)
    refine CommitGraph.contains_iff_changes_subset.mpr ?_
    rw [hchanges]
    cases hown : before.repo.own branch with
    | none => exact Set.subset_union_right
    | some own =>
      refine hcurrent first call last hsplit remote branch hpush base ?_ fetched' own upstream
        hfetched hown hupstream
      rw [List.nil_append] at hrebases
      obtain ⟨e, he, hquery⟩ := mem_rebases.mp (hrebases ▸ List.mem_singleton_self base)
      obtain ⟨rebase, hmem, rfl⟩ := List.mem_map.mp he
      exact ⟨rebase, hmem, hquery⟩

/-! ### Two runs -/

def chain : CommitGraph ℕ ℕ where
  parents n := if n = 0 then [] else [n - 1]
  change n := some n

theorem le_of_chain_reaches {c d : ℕ} (h : chain.Reaches c d) : d ≤ c := by
  induction h with
  | refl => exact le_rfl
  | @tail d e _ hparent ih =>
    change e ∈ (if d = 0 then [] else [d - 1]) at hparent
    by_cases hzero : d = 0
    · rw [if_pos hzero] at hparent
      cases hparent
    · rw [if_neg hzero] at hparent
      have he := List.mem_singleton.mp hparent
      omega

theorem chain_reaches_of_le {c d : ℕ} (h : d ≤ c) : chain.Reaches c d := by
  induction c with
  | zero =>
    obtain rfl := Nat.le_zero.mp h
    exact .refl
  | succ c ih =>
    rcases Nat.le_succ_iff.mp h with h | rfl
    · exact .head (List.mem_singleton_self c) (ih h)
    · exact .refl

theorem chain_rebased {upstream own : ℕ} (h : upstream ≤ own) :
    chain.Rebased upstream own own := by
  refine ⟨chain_reaches_of_le h, (Set.union_eq_self_of_subset_left ?_).symm⟩
  rintro δ ⟨d, hreach, hchange⟩
  exact ⟨d, chain_reaches_of_le ((le_of_chain_reaches hreach).trans h), hchange⟩

def exited (status : ℤ) : GitResult := ⟨some status, "", ""⟩

/-- Git on commits in a row: a command is done where that is simple, and fails elsewhere. -/
def chainGit (world : GitWorld ℕ) : GitCommand → GitResult × GitWorld ℕ
  | .currentBranch =>
    if JsString.trim world.repo.headName = world.repo.headName then
      (⟨some 0, world.repo.headName, ""⟩, world)
    else (exited 1, world)
  | .trackingRemote _ | .status | .rebaseAbort | .revParseHead => (exited 0, world)
  | .fetch remote ref =>
    match world.remotes remote ref with
    | some commit => (exited 0, { world with repo := world.repo.fetch remote ref commit })
    | none => (exited 1, world)
  | .checkout branch =>
    if world.repo.heads branch = none then (exited 1, world)
    else (exited 0, { world with repo := world.repo.switch branch })
  | .checkoutTrack _ _ => (exited 1, world)
  | .rebase base =>
    match world.repo.tracking "upstream" base, world.repo.current with
    | some upstream, some own =>
      if upstream ≤ own then (exited 0, { world with repo := world.repo.move own })
      else (exited 1, world)
    | _, _ => (exited 1, world)
  | .push remote branch =>
    match world.repo.current, world.repo.tracking remote branch with
    | some commit, some lease =>
      if world.remotes remote branch = some lease then
        (exited 0, {
          repo := world.repo.track remote branch commit
          remotes := Function.update world.remotes remote
            (Function.update (world.remotes remote) branch (some commit)) })
      else (exited 1, world)
    | _, _ => (exited 1, world)

theorem gitAnswers_fail (world : GitWorld ℕ) (command : GitCommand) :
    GitAnswers chain world world command (.ok (exited 1)) := by
  have hstatus : (exited 1).status ≠ some 0 := by decide
  rw [GitAnswers, if_neg hstatus]

theorem gitAnswers_done {world after : GitWorld ℕ} {command : GitCommand} {stdout : String}
    (h : Succeeds chain world stdout after command) :
    GitAnswers chain world after command (.ok ⟨some 0, stdout, ""⟩) := by
  rw [GitAnswers, if_pos rfl]
  exact h

theorem gitAnswers_chainGit (world : GitWorld ℕ) (command : GitCommand) :
    GitAnswers chain world (chainGit world command).2 command
      (.ok (chainGit world command).1) := by
  have hfail := gitAnswers_fail world command
  cases command with
  | currentBranch =>
    rw [chainGit]
    split
    · next htrim => exact gitAnswers_done ⟨rfl, htrim⟩
    · exact hfail
  | trackingRemote branchName => exact gitAnswers_done rfl
  | status => exact gitAnswers_done rfl
  | rebaseAbort => exact gitAnswers_done rfl
  | revParseHead => exact gitAnswers_done rfl
  | fetch remote ref =>
    rw [chainGit]
    split
    · next commit hremote => exact gitAnswers_done ⟨commit, hremote, rfl⟩
    · exact hfail
  | checkout branch =>
    rw [chainGit]
    split
    · exact hfail
    · next hbranch => exact gitAnswers_done (.inl ⟨hbranch, rfl⟩)
  | checkoutTrack branch remote => exact hfail
  | rebase base =>
    rw [chainGit]
    split
    · next upstream own hupstream hown =>
      split
      · next hle =>
        exact gitAnswers_done ⟨upstream, own, own, hupstream, hown, chain_rebased hle, rfl⟩
      · exact hfail
    · exact hfail
  | push remote branch =>
    rw [chainGit]
    split
    · next commit lease hcurrent htracking =>
      split
      · next hlease => exact gitAnswers_done ⟨commit, lease, hcurrent, htracking, hlease, rfl⟩
      · exact hfail
    · exact hfail

def queueBranch : String := "gh-readonly-queue/develop/pr-7"

/-- The outside of a run on commits in a row. The pull request is queued as long as the merge
queue keeps a branch of it. -/
def chainOutside (world : GitWorld ℕ) : (q : RefreshQuery) → Except String q.Reply × GitWorld ℕ
  | .git command => (.ok (chainGit world command).1, (chainGit world command).2)
  | .readQueueState _ =>
    (.ok (sampleState "OPEN" (world.remotes "upstream" queueBranch).isSome), world)
  | .dequeue _ => (.ok (), { world with
      remotes := Function.update world.remotes "upstream"
        (Function.update (world.remotes "upstream") queueBranch none) })
  | .ensureGhCli => (.ok (), world)
  | .resolveRemote remoteName =>
    (.ok (if remoteName = "origin" then some ⟨"fork", "repo"⟩ else none), world)
  | .readPolicy => (.ok samplePolicy, world)
  | .readPullRequestView _ _ => (.ok sampleView, world)
  | .sleep _ => (.ok (), world)
  | .runMergeSync _ => (.ok ⟨none, none, none, none⟩, world)
  | .writeReceipt path _ => (.ok path, world)

theorem gitService_chainOutside (world : GitWorld ℕ) (q : RefreshQuery) :
    gitService chain world q (chainOutside world q).1 (chainOutside world q).2 := by
  cases q with
  | git command => exact ⟨world.remotes, gitAnswers_chainGit world command⟩
  | dequeue pullRequestId => exact ⟨_, rfl⟩
  | runMergeSync argv => exact ⟨world.remotes, trivial⟩
  | _ => exact ⟨world.remotes, rfl⟩

/-- The head of the pull request is commit 2, and the local branch is at the given commit. -/
def chainWorld (own : ℕ) : GitWorld ℕ where
  repo := {
    heads := fun name =>
      if name = "feature" then some own else if name = "main" then some 0 else none
    tracking := fun _ _ => none
    head := .branch "main"
    fetchHead := none }
  remotes := fun remote name =>
    if remote = "origin" ∧ name = "feature" then some 2
    else if remote = "upstream" ∧ (name = "develop" ∨ name = queueBranch) then some 0
    else none

def chainCalls (own : ℕ) : List (RefreshCall ℕ) :=
  ((runQueueRefresh none sampleArgs).execute chainOutside (chainWorld own)).1

theorem executes_chainCalls (own : ℕ) :
    Executes (gitService chain) (chainWorld own) (runQueueRefresh none sampleArgs) (chainCalls own)
      ((runQueueRefresh none sampleArgs).execute chainOutside (chainWorld own)).2.1
      ((runQueueRefresh none sampleArgs).execute chainOutside (chainWorld own)).2.2 := by
  exact executes_execute _ gitService_chainOutside _ _

/-- The law and its condition, where the local branch is where the head is. -/
theorem commitsKept_equal :
    CommitsKept chain (chainCalls 2) ↔ OwnBranchCurrent chain (chainWorld 2).repo (chainCalls 2) :=
  commitsKept_iff chain none sampleArgs rfl (chainWorld 2) _ (chainCalls 2) _
    (executes_chainCalls 2)

/-- A local branch that is behind the head takes a commit off it. -/
theorem not_commitsKept_behind :
    ¬ ∀ (githubRepository : Option String) (args : RefreshArgs) (before after : GitWorld ℕ)
      (calls : List (RefreshCall ℕ)) (result : RefreshReceipt × String), args.skipRebase = false →
      Executes (gitService chain) before (runQueueRefresh githubRepository args) calls after
        (.ok result) →
      CommitsKept chain calls := by
  intro hall
  have hrun := executes_chainCalls 1
  have hok : ((runQueueRefresh none sampleArgs).execute chainOutside (chainWorld 1)).2.2.isOk =
      true := rfl
  cases hresult : ((runQueueRefresh none sampleArgs).execute chainOutside (chainWorld 1)).2.2 with
  | error message =>
    rw [hresult] at hok
    exact Bool.noConfusion hok
  | ok result =>
    rw [hresult] at hrun
    have hkept := hall none sampleArgs _ _ _ result rfl hrun
    have hsplit : chainCalls 1 = (chainCalls 1).take 15 ++
        (chainCalls 1)[15] :: (chainCalls 1).drop 16 := rfl
    have hcontains := hkept _ _ _ hsplit "origin" "feature" rfl 2 1 rfl rfl 2 .refl
    -- commit 2 is not among the commits up to commit 1
    obtain ⟨d, hreach, hchange⟩ := hcontains 2 rfl
    have hle := le_of_chain_reaches hreach
    rw [Option.some.inj hchange] at hle
    exact absurd hle (by decide)

end CompareVI.Refresh
