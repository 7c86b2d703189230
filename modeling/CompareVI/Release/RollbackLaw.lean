import CompareVI.Release.Rollback

/-!
# What a rollback accounts for

A rollback should end with every branch at the target, or name each branch it moved, so
that it can be undone (`RollbackLaw`). A step that throws breaks that as soon as a branch
was moved: the report of the error names no branch. And the branches of `origin` are
overwritten without having been fetched. `rollbackLaw_iff` says for every run that the law
holds exactly where neither happens (`RollbackWhen`).

Along a run the proof keeps that each push moved a branch off the commit it was fetched at
(`Sound`), and that where a run throws with a branch moved, a step failed or a lease was
missing (`ThrowsAs`).
-/

open Framework

namespace CompareVI.Release

variable {Δ : Type}

/-! ### The law -/

/-- The step is a push. -/
def RollbackQuery.IsPush (q : RollbackQuery) : Prop :=
  ∃ remote branch targetCommit leaseCommit, q = .push remote branch targetCommit leaseCommit

/-- The push moved the branch to another commit. -/
def Landed.Moved (e : Landed) : Prop := e.replaced ≠ some e.commit

/-- The report names the branch as pushed, with the commit it had before. -/
def RollbackReport.Names (report : RollbackReport) (e : Landed) : Prop :=
  ∃ branch ∈ report.branches ++ report.originSync.getD [], branch.remote = e.remote ∧
    branch.name = e.branch ∧ branch.before = e.replaced ∧ branch.pushed = true

/-- What the report of a run that leaves the world should say. -/
structure RollbackLaw (G : CommitGraph String Δ) (options : RollbackOptions)
    (calls : List (Call RollbackWorld fun q : RollbackQuery => Except String q.Reply))
    (world : RollbackWorld) (report : RollbackReport) : Prop where
  /-- Every target branch is at the commit of the target tag, when the run fetched it last,
  and the report passes; or the report fails, and names each branch that was moved. -/
  accounted : options.apply = true →
    (report.Passed ∧ ∃ remote tag commit, report.remote = some remote ∧
      report.target = some (tag, commit) ∧ world.tags tag = some commit ∧
      ∀ name ∈ options.targetBranches, world.fetched remote name = some commit) ∨
    (¬ report.Passed ∧ ∀ e ∈ world.landed, e.Moved → report.Names e)
  dryRun : options.apply = false → ∀ call ∈ calls, ¬ call.query.IsPush
  /-- A commit that a push discards was in the branch when the run fetched it. -/
  keeps : ∀ e ∈ world.landed, ∀ old, e.replaced = some old → ∀ commit, G.Reaches old commit →
    ¬ G.Reaches e.commit commit → ∃ fetched, e.fetched = some fetched ∧ G.Reaches fetched commit

/-- Once a branch is moved no step throws and no lease was missing, and what a push
overwrites that the run had not fetched is contained in the target. -/
structure RollbackWhen (G : CommitGraph String Δ) (options : RollbackOptions)
    (world : RollbackWorld) : Prop where
  steady : options.apply = true → (∃ e ∈ world.landed, e.Moved) →
    world.failed = false ∧ world.missing = false
  contained : ∀ e ∈ world.landed, e.fetched = none → ∀ replaced, e.replaced = some replaced →
    G.Reaches e.commit replaced

/-! ### What a run keeps -/

/-- A push moved the branch off the commit it was fetched at, if it was fetched. -/
def Sound (world : RollbackWorld) : Prop :=
  ∀ e ∈ world.landed, e.fetched = none ∨ e.replaced = some e.commit ∨ e.fetched = e.replaced

/-- How a run throws. -/
def ThrowsAs (world : RollbackWorld) : Prop :=
  Sound world ∧
    ((∃ e ∈ world.landed, e.Moved) → world.failed = true ∨ world.missing = true)

theorem Sound.keeps_iff {G : CommitGraph String Δ} {world : RollbackWorld} (h : Sound world) :
    (∀ e ∈ world.landed, ∀ old, e.replaced = some old → ∀ commit, G.Reaches old commit →
      ¬ G.Reaches e.commit commit →
        ∃ fetched, e.fetched = some fetched ∧ G.Reaches fetched commit) ↔
      ∀ e ∈ world.landed, e.fetched = none → ∀ replaced, e.replaced = some replaced →
        G.Reaches e.commit replaced := by
  constructor
  · intro hkeeps e he hnone replaced hreplaced
    by_contra hnot
    obtain ⟨fetched, hfetched, -⟩ := hkeeps e he replaced hreplaced replaced .refl hnot
    rw [hnone] at hfetched
    exact absurd hfetched.symm (Option.some_ne_none _)
  · intro hcontained e he replaced hreplaced commit hreach hnot
    rcases h e he with hnone | hsame | hfetched
    · exact absurd ((hcontained e he hnone replaced hreplaced).trans hreach) hnot
    · rw [hreplaced] at hsame
      rw [Option.some.inj hsame] at hreach
      exact absurd hreach hnot
    · exact ⟨replaced, hfetched.trans hreplaced, hreach⟩

section Steps

variable {world after : RollbackWorld} {apply : Bool} {message : String}

abbrev mayAsk (apply : Bool) (_ : RollbackWorld) (q : RollbackQuery) : Prop :=
  q.IsPush → apply = true

theorem throwsAs_of_error {q : RollbackQuery} (hq : ¬ q.IsPush) (hsound : Sound world)
    (hserve : rollbackService world q (.error message) after) : ThrowsAs after := by
  obtain ⟨branches, hthrows⟩ := hserve
  have hafter : after = { world with branches := branches, failed := true } := by
    cases q with
    | push remote branch targetCommit leaseCommit => exact absurd ⟨_, _, _, _, rfl⟩ hq
    | _ => exact hthrows
  rw [hafter]
  exact ⟨hsound, fun _ => .inl rfl⟩

theorem Sound.land {remote branch targetCommit leaseCommit : String} (h : Sound world)
    (hlease : world.fetched remote branch = none ∨ world.fetched remote branch = some leaseCommit)
    (haccepts : world.Accepts remote branch targetCommit leaseCommit) :
    Sound (world.land remote branch targetCommit) := by
  intro e he
  rcases List.mem_append.mp he with he | he
  · exact h e he
  · rw [List.mem_singleton.mp he]
    rcases haccepts with hreplaced | hreplaced
    · refine hlease.imp_right fun hfetched => .inr ?_
      exact hfetched.trans hreplaced.symm
    · exact .inr (.inl hreplaced)

/-- What a step changes that is no push and no fetch: nothing but that branches move, and
that a missing branch is noted. -/
structure Kept (world after : RollbackWorld) : Prop where
  tracking : after.tracking = world.tracking
  tags : after.tags = world.tags
  fetched : after.fetched = world.fetched
  landed : after.landed = world.landed
  pushing : after.pushing = world.pushing
  failed : after.failed = world.failed

theorem Kept.refl (world : RollbackWorld) : Kept world world := ⟨rfl, rfl, rfl, rfl, rfl, rfl⟩

variable {last : RollbackWorld}

theorem Kept.trans (h : Kept world after) (h' : Kept after last) :
    Kept world last :=
  ⟨h'.tracking.trans h.tracking, h'.tags.trans h.tags, h'.fetched.trans h.fetched,
    h'.landed.trans h.landed, h'.pushing.trans h.pushing, h'.failed.trans h.failed⟩

theorem Kept.sound (h : Kept world after) (hsound : Sound world) : Sound after := by
  intro e he
  rw [h.landed] at he
  exact hsound e he

theorem ends_tryResolveRef {remote name : String} (hsound : Sound world) :
    Ends rollbackService (mayAsk apply) ThrowsAs
      (fun u commit => Kept world u ∧ (commit = world.tracking remote name ∨ commit = none) ∧
        u.missing = (world.missing || (commit.isNone && !world.pushing)))
      world (tryResolveRef remote name) := by
  have hq : ¬ (RollbackQuery.tryResolveRef remote name).IsPush := by
    rintro ⟨_, _, _, _, heq⟩
    cases heq
  refine ends_call (fun hpush => absurd hpush hq) ?_ fun _ _ => throwsAs_of_error hq hsound
  rintro commit u ⟨branches, hcommit, rfl⟩
  exact ⟨⟨rfl, rfl, rfl, rfl, rfl, rfl⟩, hcommit, rfl⟩

theorem ends_fetchRemoteRefs {remote : String} {names : List String} (hsound : Sound world) :
    Ends rollbackService (mayAsk apply) ThrowsAs
      (fun u _ => ∃ branches, RollbackWorld.Fetches { world with branches := branches } u
        remote names)
      world (fetchRemoteRefs remote names) := by
  have hq : ¬ (RollbackQuery.fetchRemoteRefs remote names).IsPush := by
    rintro ⟨_, _, _, _, heq⟩
    cases heq
  refine ends_call (fun hpush => absurd hpush hq) ?_ fun _ _ => throwsAs_of_error hq hsound
  rintro _ u ⟨branches, hfetches⟩
  exact ⟨branches, hfetches⟩

/-- What a push changes. -/
structure Pushes (world after : RollbackWorld) (branch : BranchRollback) : Prop where
  tags : after.tags = world.tags
  fetched : after.fetched = world.fetched
  missing : after.missing = world.missing
  failed : after.failed = world.failed
  otherTracking : ∀ other ≠ branch.remote, after.tracking other = world.tracking other
  pushing : after.pushing = true
  landed : ∀ e ∈ after.landed, e ∈ world.landed ∨ (e.Moved →
    branch.remote = e.remote ∧ branch.name = e.branch ∧ branch.before = e.replaced)

variable {branch : BranchRollback}

/-- What the push of a branch gives. Without a lease it throws, which a missing branch
accounts for. -/
theorem ends_pushBranch {remote targetCommit : String} (hsound : Sound world)
    (hremote : branch.remote = remote) (happly : apply = true)
    (hlease : ∀ lease, branch.before = some lease →
      world.fetched remote branch.name = none ∨ world.fetched remote branch.name = some lease)
    (hmissing : branch.before = none → world.missing = true) :
    Ends rollbackService (mayAsk apply) ThrowsAs
      (fun u pushed => Sound u ∧ Pushes world u branch ∧ branch.before ≠ none ∧
        pushed = { branch with pushed := true })
      world (pushBranch remote targetCommit branch) := by
  unfold pushBranch
  cases hbefore : branch.before with
  | none => exact ends_fail ⟨hsound, fun _ => .inr (hmissing hbefore)⟩
  | some lease =>
    have hlease := hlease lease hbefore
    refine ends_call_bind (fun _ => happly) ?_ ?_
    · rintro _ u ⟨branches, haccepts, rfl⟩
      have hsound : Sound { world with branches := branches } := hsound
      refine ends_pure ⟨hsound.land hlease haccepts, ?_, Option.some_ne_none _, rfl⟩
      refine ⟨rfl, rfl, rfl, rfl, fun other hother => ?_, rfl, fun e he => ?_⟩
      · rw [hremote] at hother
        exact Function.update_of_ne hother _ _
      · rcases List.mem_append.mp he with he | he
        · exact .inl he
        · refine .inr fun hmoved => ?_
          rw [List.mem_singleton.mp he] at hmoved ⊢
          refine ⟨hremote, rfl, hbefore.trans ?_⟩
          -- a push that moved the branch found it at the lease
          rcases haccepts with hreplaced | hreplaced
          · exact hreplaced.symm
          · exact absurd hreplaced hmoved
    · rintro message u ⟨branches, rfl | ⟨haccepts, rfl⟩⟩
      · exact ⟨hsound, fun _ => .inl rfl⟩
      · have hsound : Sound { world with branches := branches } := hsound
        exact ⟨hsound.land hlease haccepts, fun _ => .inl rfl⟩

/-! ### The loops -/

/-- What the branches of a list are before they are pushed. -/
structure Resolved (world after : RollbackWorld) (remote : String) (names : List String)
    (branches : List BranchRollback) : Prop where
  kept : Kept world after
  names : branches.map (·.name) = names
  tracked : ∀ branch ∈ branches, branch.remote = remote ∧ branch.pushed = false ∧
    (branch.before = world.tracking remote branch.name ∨ branch.before = none)
  /-- Before any push was asked for, it is noted whether a branch is missing. -/
  missing : world.pushing = false →
    (after.missing = false ↔ world.missing = false ∧ ∀ branch ∈ branches, branch.before ≠ none)
  quiet : world.pushing = true → after.missing = world.missing

theorem ends_resolveBefore {remote : String} (names : List String) (hsound : Sound world) :
    Ends rollbackService (mayAsk apply) ThrowsAs
      (fun u branches => Resolved world u remote names branches)
      world (Prog.mapList (resolveBefore remote) names) := by
  refine ends_mapList (K := fun names branches u => Resolved world u remote names branches) ?_
    ⟨.refl world, rfl, List.forall_mem_nil _, fun _ => ?_, fun _ => rfl⟩
  · intro done branches name u _ h
    refine (ends_tryResolveRef (h.kept.sound hsound)).bind ?_
    rintro t before ⟨hkept, hbefore, hmissing⟩
    rw [h.kept.tracking] at hbefore
    rw [h.kept.pushing] at hmissing
    refine ends_pure ⟨h.kept.trans hkept, ?_, ?_, fun hpushing => ?_, fun hpushing => ?_⟩
    · rw [List.map_append, h.names]
      rfl
    · intro branch hbranch
      rcases List.mem_append.mp hbranch with hbranch | hbranch
      · exact h.tracked branch hbranch
      · rw [List.mem_singleton.mp hbranch]
        exact ⟨rfl, rfl, hbefore⟩
    · rw [hmissing, hpushing, Bool.or_eq_false_iff, h.missing hpushing, and_assoc]
      refine and_congr_right fun _ => ?_
      rw [List.forall_mem_append, List.forall_mem_singleton]
      refine and_congr_right fun _ => ?_
      cases before with
      | none => exact iff_of_false Bool.noConfusion fun hne => hne rfl
      | some commit => exact iff_of_true rfl (Option.some_ne_none _)
    · rw [hmissing, hpushing, Bool.not_true, Bool.and_false, Bool.or_false, h.quiet hpushing]
  · exact ⟨fun hfalse => ⟨hfalse, List.forall_mem_nil _⟩, And.left⟩

def BranchRollback.mark (branch : BranchRollback) : BranchRollback :=
  { branch with pushed := branch.before.isSome }

/-- What the pushes of a list of branches change. -/
structure PushesAll (world after : RollbackWorld) (remote : String)
    (branches : List BranchRollback) : Prop where
  sound : Sound after
  tags : after.tags = world.tags
  fetched : after.fetched = world.fetched
  missing : after.missing = world.missing
  failed : after.failed = world.failed
  otherTracking : ∀ other ≠ remote, after.tracking other = world.tracking other
  pushing : after.pushing = (world.pushing || branches.any (·.before.isSome))
  landed : ∀ e ∈ after.landed, e ∈ world.landed ∨ (e.Moved →
    ∃ branch ∈ branches, branch.remote = e.remote ∧ branch.name = e.branch ∧
      branch.before = e.replaced ∧ branch.before.isSome = true)

theorem PushesAll.nil {remote : String} (h : Sound world) : PushesAll world world remote [] where
  sound := h
  tags := rfl
  fetched := rfl
  missing := rfl
  failed := rfl
  otherTracking := fun _ _ => rfl
  pushing := (Bool.or_false _).symm
  landed := fun _ he => .inl he

theorem PushesAll.push {remote : String} {branches : List BranchRollback}
    (h : PushesAll world after remote branches) (hremote : branch.remote = remote)
    (hlast : Sound last) (hpush : Pushes after last branch)
    (hbefore : branch.before.isSome = true) :
    PushesAll world last remote (branches ++ [branch]) where
  sound := hlast
  tags := hpush.tags.trans h.tags
  fetched := hpush.fetched.trans h.fetched
  missing := hpush.missing.trans h.missing
  failed := hpush.failed.trans h.failed
  otherTracking := by
    intro other hother
    exact (hpush.otherTracking other (hremote ▸ hother)).trans (h.otherTracking other hother)
  pushing := by
    rw [hpush.pushing, List.any_append, List.any_cons, hbefore]
    simp
  landed := by
    intro e he
    rcases hpush.landed e he with he | hnamed
    · rcases h.landed e he with he | hnamed
      · exact .inl he
      · refine .inr fun hmoved => ?_
        obtain ⟨named, hmem, hrest⟩ := hnamed hmoved
        exact ⟨named, List.mem_append_left _ hmem, hrest⟩
    · refine .inr fun hmoved => ?_
      obtain ⟨hremote, hname, hreplaced⟩ := hnamed hmoved
      exact ⟨branch, List.mem_append_right _ (List.mem_singleton_self _), hremote, hname, hreplaced,
        hbefore⟩

theorem PushesAll.skip {remote : String} {branches : List BranchRollback}
    (h : PushesAll world after remote branches) (hbefore : branch.before.isSome = false) :
    PushesAll world after remote (branches ++ [branch]) where
  sound := h.sound
  tags := h.tags
  fetched := h.fetched
  missing := h.missing
  failed := h.failed
  otherTracking := h.otherTracking
  pushing := by
    rw [h.pushing, List.any_append, List.any_cons, hbefore]
    simp
  landed := by
    intro e he
    refine (h.landed e he).imp_right fun hnamed hmoved => ?_
    obtain ⟨named, hmem, hrest⟩ := hnamed hmoved
    exact ⟨named, List.mem_append_left _ hmem, hrest⟩

section Pushing

variable {remote targetCommit : String} {branches : List BranchRollback}

/-- Branches that were not pushed yet; the leases are the commits that were fetched, where
something was fetched. -/
def Leased (world : RollbackWorld) (remote : String) (branches : List BranchRollback) : Prop :=
  ∀ branch ∈ branches, branch.remote = remote ∧ branch.pushed = false ∧
    ∀ lease, branch.before = some lease → world.fetched remote branch.name = none ∨
      world.fetched remote branch.name = some lease

theorem ends_pushBranches (hsound : Sound world) (happly : apply = true)
    (hleased : Leased world remote branches)
    (hmissing : ∀ branch ∈ branches, branch.before = none → world.missing = true) :
    Ends rollbackService (mayAsk apply) ThrowsAs
      (fun u pushed => PushesAll world u remote branches ∧
        (∀ branch ∈ branches, branch.before ≠ none) ∧ pushed = branches.map BranchRollback.mark)
      world (Prog.mapList (pushBranch remote targetCommit) branches) := by
  refine ends_mapList (K := fun done pushed u => PushesAll world u remote done ∧
      (∀ branch ∈ done, branch.before ≠ none) ∧ pushed = done.map BranchRollback.mark) ?_
    ⟨.nil hsound, List.forall_mem_nil _, rfl⟩
  rintro done pushed branch u hmem ⟨hpushes, hsome, rfl⟩
  obtain ⟨hremote, -, hlease⟩ := hleased branch hmem
  refine (ends_pushBranch hpushes.sound hremote happly ?_ ?_).mono ?_
  · rw [hpushes.fetched]
    exact hlease
  · rw [hpushes.missing]
    exact hmissing branch hmem
  · rintro t _ ⟨hsound, hpush, hbefore, rfl⟩
    have hisSome : branch.before.isSome = true := Option.isSome_iff_ne_none.mpr hbefore
    refine ⟨hpushes.push hremote hsound hpush hisSome, ?_, ?_⟩
    · rw [List.forall_mem_append, List.forall_mem_singleton]
      exact ⟨hsome, hbefore⟩
    · rw [List.map_append, List.map_singleton, BranchRollback.mark, hisSome]

theorem ends_pushOriginBranches (hsound : Sound world) (happly : apply = true)
    (hleased : Leased world "origin" branches) :
    Ends rollbackService (mayAsk apply) ThrowsAs
      (fun u pushed => PushesAll world u "origin" branches ∧
        pushed = branches.map BranchRollback.mark)
      world (Prog.mapList (pushOriginBranch targetCommit) branches) := by
  refine ends_mapList (K := fun done pushed u => PushesAll world u "origin" done ∧
      pushed = done.map BranchRollback.mark) ?_ ⟨.nil hsound, rfl⟩
  rintro done pushed branch u hmem ⟨hpushes, rfl⟩
  obtain ⟨hremote, hpushed, hlease⟩ := hleased branch hmem
  unfold pushOriginBranch
  cases hisSome : branch.before.isSome with
  | false =>
    refine ends_pure ⟨hpushes.skip hisSome, ?_⟩
    rw [List.map_append, List.map_singleton, BranchRollback.mark, hisSome, ← hpushed]
  | true =>
    have hne : branch.before ≠ none := Option.isSome_iff_ne_none.mp hisSome
    refine (ends_pushBranch hpushes.sound hremote happly ?_ fun hnone => absurd hnone hne).mono ?_
    · rw [hpushes.fetched]
      exact hlease
    · rintro t _ ⟨hsound, hpush, -, rfl⟩
      refine ⟨hpushes.push hremote hsound hpush hisSome, ?_⟩
      rw [List.map_append, List.map_singleton, BranchRollback.mark, hisSome]

end Pushing

/-- What the branches of a list are once they are read again. -/
structure Reread (world after : RollbackWorld) (targetCommit : String)
    (branches reread : List BranchRollback) : Prop where
  kept : Kept world after
  names : reread.map (·.name) = branches.map (·.name)
  same : ∀ branch ∈ branches, ∃ again ∈ reread, again.name = branch.name ∧
    again.remote = branch.remote ∧ again.before = branch.before ∧ again.pushed = branch.pushed
  back : ∀ again ∈ reread, ∃ branch ∈ branches, again.remote = branch.remote ∧
    again.before = branch.before ∧ again.pushed = branch.pushed
  tracked : ∀ again ∈ reread, again.matchesTarget = true →
    world.tracking again.remote again.name = some targetCommit
  quiet : world.pushing = true → after.missing = world.missing

theorem ends_resolveAfter {targetCommit : String} (compares : Bool) (branches : List BranchRollback)
    (hsound : Sound world) :
    Ends rollbackService (mayAsk apply) ThrowsAs
      (fun u reread => Reread world u targetCommit branches reread)
      world (Prog.mapList (resolveAfter compares targetCommit) branches) := by
  refine ends_mapList (K := fun done reread u => Reread world u targetCommit done reread) ?_
    ⟨.refl world, rfl, ?_, ?_, ?_, fun _ => rfl⟩
  · intro done reread branch u _ h
    refine (ends_tryResolveRef (h.kept.sound hsound)).bind ?_
    rintro t found ⟨hkept, hfound, hmissing⟩
    rw [h.kept.tracking] at hfound
    refine ends_pure ⟨h.kept.trans hkept, ?_, ?_, ?_, ?_, fun hpushing => ?_⟩
    · rw [List.map_append, List.map_append, h.names]
      rfl
    · rw [List.forall_mem_append, List.forall_mem_singleton]
      refine ⟨fun named hnamed => ?_, _, List.mem_append_right _ (List.mem_singleton_self _), rfl,
        rfl, rfl, rfl⟩
      obtain ⟨again, hagain, hsame⟩ := h.same named hnamed
      exact ⟨again, List.mem_append_left _ hagain, hsame⟩
    · rw [List.forall_mem_append, List.forall_mem_singleton]
      refine ⟨fun again hagain => ?_, branch, List.mem_append_right _ (List.mem_singleton_self _),
        rfl, rfl, rfl⟩
      obtain ⟨named, hnamed, hsame⟩ := h.back again hagain
      exact ⟨named, List.mem_append_left _ hnamed, hsame⟩
    · rw [List.forall_mem_append, List.forall_mem_singleton]
      refine ⟨h.tracked, fun hmatches => ?_⟩
      have hfound' : found = some targetCommit :=
        of_decide_eq_true (Bool.and_eq_true_iff.mp hmatches).2
      rcases hfound with hfound | hnone
      · exact hfound.symm.trans hfound'
      · exact absurd (hfound'.symm.trans hnone) (Option.some_ne_none _)
    · rw [hmissing, h.quiet hpushing, h.kept.pushing, hpushing, Bool.not_true, Bool.and_false,
        Bool.or_false]
  · exact List.forall_mem_nil _
  · exact List.forall_mem_nil _
  · exact List.forall_mem_nil _

/-! ### Moving the branches of a remote -/

section Moving

variable {remote targetCommit : String} {names : List String} {branches : List BranchRollback}

theorem Resolved.leased (h : Resolved world after remote names branches)
    (hfresh : ∀ name ∈ names, world.fetched remote name = none ∨
      world.tracking remote name = world.fetched remote name) :
    Leased after remote branches := by
  intro branch hbranch
  obtain ⟨hremote, hpushed, hbefore⟩ := h.tracked branch hbranch
  refine ⟨hremote, hpushed, fun lease hlease => ?_⟩
  have hname : branch.name ∈ names := by
    rw [← h.names]
    exact List.mem_map_of_mem hbranch
  rw [h.kept.fetched]
  refine (hfresh branch.name hname).imp_right fun htracking => ?_
  rcases hbefore with hbefore | hnone
  · rw [← htracking, ← hbefore, hlease]
  · rw [hnone] at hlease
    exact absurd hlease.symm (Option.some_ne_none _)

/-- The branches of a remote were pushed, and fetched again. -/
structure Moves (world after : RollbackWorld) (remote : String) (names : List String)
    (branches : List BranchRollback) : Prop where
  sound : Sound after
  tags : after.tags = world.tags
  missing : after.missing = world.missing
  failed : after.failed = world.failed
  fresh : ∀ name ∈ names, after.tracking remote name = after.fetched remote name
  otherTracking : ∀ other ≠ remote, after.tracking other = world.tracking other
  otherFetched : ∀ other ≠ remote, after.fetched other = world.fetched other
  pushing : after.pushing = (world.pushing || branches.any (·.before.isSome))
  landed : ∀ e ∈ after.landed, e ∈ world.landed ∨ (e.Moved →
    ∃ branch ∈ branches, branch.remote = e.remote ∧ branch.name = e.branch ∧
      branch.before = e.replaced ∧ branch.before.isSome = true)

theorem PushesAll.moves {last : RollbackWorld} {others : String → String → Option String}
    (h : PushesAll world after remote branches)
    (hfetch : RollbackWorld.Fetches { after with branches := others } last remote names) :
    Moves world last remote names branches where
  sound := by
    intro e he
    rw [hfetch.landed] at he
    exact h.sound e he
  tags := hfetch.tags.trans h.tags
  missing := hfetch.missing.trans h.missing
  failed := hfetch.failed.trans h.failed
  fresh := fun name hname => (hfetch.tracking name hname).trans (hfetch.fetched name hname).symm
  otherTracking := fun other hother =>
    (hfetch.otherTracking other hother).trans (h.otherTracking other hother)
  otherFetched := fun other hother =>
    (hfetch.otherFetched other hother).trans (congrFun h.fetched other)
  pushing := hfetch.pushing.trans h.pushing
  landed := by
    intro e he
    rw [hfetch.landed] at he
    exact h.landed e he

theorem ends_applyBranches (hsound : Sound world) (happly : apply = true)
    (hleased : Leased world remote branches)
    (hmissing : ∀ branch ∈ branches, branch.before = none → world.missing = true) :
    Ends rollbackService (mayAsk apply) ThrowsAs
      (fun u pushed => Moves world u remote names branches ∧
        (∀ branch ∈ branches, branch.before ≠ none) ∧ pushed = branches.map BranchRollback.mark)
      world (applyBranches remote targetCommit names branches) := by
  refine (ends_pushBranches hsound happly hleased hmissing).bind ?_
  rintro t _ ⟨hpushes, hsome, rfl⟩
  refine (ends_fetchRemoteRefs hpushes.sound).bind ?_
  rintro u _ ⟨others, hfetch⟩
  exact ends_pure ⟨hpushes.moves hfetch, hsome, rfl⟩

/-- The branches of `origin` were moved. -/
structure Syncs (world after : RollbackWorld) (targetCommit : String) (names : List String)
    (synced : List BranchRollback) : Prop where
  sound : Sound after
  tags : after.tags = world.tags
  missing : after.missing = world.missing
  failed : after.failed = world.failed
  otherFetched : ∀ other ≠ "origin", after.fetched other = world.fetched other
  landed : ∀ e ∈ after.landed, e ∈ world.landed ∨ (e.Moved →
    ∃ branch ∈ synced, branch.remote = e.remote ∧ branch.name = e.branch ∧
      branch.before = e.replaced ∧ branch.pushed = true)
  atTarget : originMissing synced = [] → originMismatch synced targetCommit = [] →
    ∀ name ∈ names, after.fetched "origin" name = some targetCommit

theorem ends_syncOrigin (hsound : Sound world) (happly : apply = true)
    (hpushing : world.pushing = true)
    (hfresh : ∀ name ∈ names, world.fetched "origin" name = none ∨
      world.tracking "origin" name = world.fetched "origin" name) :
    Ends rollbackService (mayAsk apply) ThrowsAs
      (fun u synced => Syncs world u targetCommit names synced)
      world (syncOrigin targetCommit names) := by
  refine (ends_resolveBefore names hsound).bind fun t branches hresolved => ?_
  have hsound' := hresolved.kept.sound hsound
  refine (ends_pushOriginBranches hsound' happly (hresolved.leased hfresh)).bind ?_
  rintro u _ ⟨hpushes, rfl⟩
  refine (ends_fetchRemoteRefs hpushes.sound).bind ?_
  rintro v _ ⟨others, hfetch⟩
  have hmoves := hpushes.moves hfetch
  have hpushing' : v.pushing = true := by
    rw [hmoves.pushing, hresolved.kept.pushing, hpushing, Bool.true_or]
  refine (ends_resolveAfter true (branches.map BranchRollback.mark) hmoves.sound).mono ?_
  intro last synced hreread
  refine ⟨hreread.kept.sound hmoves.sound, ?_, ?_, ?_, fun other hother => ?_, fun e he => ?_, ?_⟩
  · rw [hreread.kept.tags, hmoves.tags, hresolved.kept.tags]
  · rw [hreread.quiet hpushing', hmoves.missing, hresolved.quiet hpushing]
  · rw [hreread.kept.failed, hmoves.failed, hresolved.kept.failed]
  · rw [hreread.kept.fetched, hmoves.otherFetched other hother, hresolved.kept.fetched]
  · rw [hreread.kept.landed] at he
    rcases hmoves.landed e he with he | hnamed
    · rw [hresolved.kept.landed] at he
      exact .inl he
    · refine .inr fun hmoved => ?_
      obtain ⟨branch, hbranch, hremote, hname, hreplaced, hisSome⟩ := hnamed hmoved
      obtain ⟨again, hagain, hname', hremote', hbefore', hpushed'⟩ :=
        hreread.same branch.mark (List.mem_map_of_mem hbranch)
      exact ⟨again, hagain, hremote'.trans hremote, hname'.trans hname, hbefore'.trans hreplaced,
        hpushed'.trans hisSome⟩
  · intro hmissing hmismatch name hname
    have hnames : synced.map (·.name) = names := by
      rw [hreread.names, List.map_map, ← hresolved.names]
      rfl
    rw [← hnames] at hname
    obtain ⟨again, hagain, rfl⟩ := List.mem_map.mp hname
    obtain ⟨marked, hmarked, hremote, hbefore, hpushed⟩ := hreread.back again hagain
    obtain ⟨branch, hbranch, rfl⟩ := List.mem_map.mp hmarked
    have hne : again.before ≠ none := by
      simpa using List.filter_eq_nil_iff.mp (List.map_eq_nil_iff.mp hmissing) again hagain
    have hpushed' : again.pushed = true := by
      rw [hpushed]
      refine Option.isSome_iff_ne_none.mpr fun hnone => hne ?_
      rw [hbefore]
      exact hnone
    have hmatches : again.matchesTarget = true := by
      simpa [hpushed'] using
        List.filter_eq_nil_iff.mp (List.map_eq_nil_iff.mp hmismatch) again hagain
    have hremote' : again.remote = "origin" := hremote.trans (hresolved.tracked branch hbranch).1
    have htracking := hreread.tracked again hagain hmatches
    rw [hremote'] at htracking
    have hname' : again.name ∈ names := by
      rw [← hnames]
      exact List.mem_map_of_mem hagain
    rw [hreread.kept.fetched, ← hmoves.fresh _ hname', htracking]

/-! ### The run -/

/-- The state once the branches of the rollback remote are read again. -/
structure Rolled (world : RollbackWorld) (remote tag commit : String) (names : List String)
    (branches synced : List BranchRollback) : Prop where
  sound : Sound world
  tag : world.tags tag = some commit
  failed : world.failed = false
  missing : world.missing = false
  named : ∀ e ∈ world.landed, e.Moved → ∃ branch ∈ branches ++ synced, branch.remote = e.remote ∧
    branch.name = e.branch ∧ branch.before = e.replaced ∧ branch.pushed = true
  atTarget : (∀ branch ∈ branches, branch.matchesTarget = true) → originMissing synced = [] →
    originMismatch synced commit = [] → ∀ name ∈ names, world.fetched remote name = some commit

/-- The outside before the first push. -/
structure Untouched (world : RollbackWorld) : Prop where
  landed : world.landed = []
  pushing : world.pushing = false
  failed : world.failed = false
  missing : world.missing = false

theorem Untouched.sound (h : Untouched world) : Sound world := by
  intro e he
  rw [h.landed] at he
  cases he

variable {tag : String}

theorem ends_rollBranches {options : RollbackOptions} {start : RollbackWorld}
    (happly : options.apply = true) (hstart : Untouched start)
    (htag : start.tags tag = some targetCommit) (hfresh : ∀ name ∈ options.targetBranches,
      start.tracking remote name = start.fetched remote name)
    (hother : ∀ other ≠ remote, ∀ name, start.fetched other name = none)
    (hresolved : Resolved start world remote options.targetBranches branches) :
    Ends rollbackService (mayAsk options.apply) ThrowsAs
      (fun u reread => Rolled u remote tag targetCommit options.targetBranches reread [] ∧
        u.pushing = true ∧ ∀ name ∈ options.targetBranches, u.fetched "origin" name = none ∨
          u.tracking "origin" name = u.fetched "origin" name)
      world (rollBranches options remote targetCommit branches) := by
  have hsound := hresolved.kept.sound hstart.sound
  have hleased := hresolved.leased fun name hname => .inr (hfresh name hname)
  have hnoted := hresolved.missing hstart.pushing
  unfold rollBranches
  rw [if_pos happly]
  refine (ends_applyBranches hsound happly hleased fun branch hbranch hnone => ?_).bind ?_
  · by_contra hnot
    exact (hnoted.mp (Bool.eq_false_of_not_eq_true hnot)).2 branch hbranch hnone
  rintro t _ ⟨hmoves, hsome, rfl⟩
  have hmissing : t.missing = false :=
    hmoves.missing.trans (hnoted.mpr ⟨hstart.missing, hsome⟩)
  have hpushing : t.pushing = true := by
    obtain ⟨branch, hbranch⟩ := List.exists_mem_of_ne_nil branches fun hnil => by
      rw [hnil] at hresolved
      exact absurd hresolved.names.symm (List.cons_ne_nil _ _)
    have hany : branches.any (·.before.isSome) = true :=
      List.any_eq_true.mpr ⟨branch, hbranch, Option.isSome_iff_ne_none.mpr (hsome branch hbranch)⟩
    rw [hmoves.pushing, hany, Bool.or_true]
  refine (ends_resolveAfter _ _ hmoves.sound).mono fun u reread hreread => ?_
  refine ⟨⟨hreread.kept.sound hmoves.sound, ?_, ?_, ?_, fun e he hmoved => ?_, ?_⟩, ?_, ?_⟩
  · rw [hreread.kept.tags, hmoves.tags, hresolved.kept.tags, htag]
  · rw [hreread.kept.failed, hmoves.failed, hresolved.kept.failed, hstart.failed]
  · rw [hreread.quiet hpushing, hmissing]
  · rw [hreread.kept.landed] at he
    rcases hmoves.landed e he with he | hnamed
    · rw [hresolved.kept.landed, hstart.landed] at he
      cases he
    · obtain ⟨branch, hbranch, hremote, hname, hreplaced, hisSome⟩ := hnamed hmoved
      obtain ⟨again, hagain, hname', hremote', hbefore', hpushed'⟩ :=
        hreread.same branch.mark (List.mem_map_of_mem hbranch)
      exact ⟨again, List.mem_append_left _ hagain, hremote'.trans hremote, hname'.trans hname,
        hbefore'.trans hreplaced, hpushed'.trans hisSome⟩
  · intro hmatches _ _ name hname
    have hnames : reread.map (·.name) = options.targetBranches := by
      rw [hreread.names, List.map_map, ← hresolved.names]
      rfl
    have hname' := hname
    rw [← hnames] at hname
    obtain ⟨again, hagain, rfl⟩ := List.mem_map.mp hname
    obtain ⟨marked, hmarked, hremote, -⟩ := hreread.back again hagain
    obtain ⟨branch, hbranch, rfl⟩ := List.mem_map.mp hmarked
    have hremote' : again.remote = remote := hremote.trans (hresolved.tracked branch hbranch).1
    have htracking := hreread.tracked again hagain (hmatches again hagain)
    rw [hremote'] at htracking
    rw [hreread.kept.fetched, ← hmoves.fresh _ hname', htracking]
  · rw [hreread.kept.pushing, hpushing]
  · intro name hname
    rw [hreread.kept.fetched, hreread.kept.tracking]
    by_cases horigin : "origin" = remote
    · rw [horigin]
      exact .inr (hmoves.fresh name hname)
    · rw [hmoves.otherFetched _ horigin, hresolved.kept.fetched]
      exact .inl (hother _ horigin name)

theorem Rolled.sync {synced : List BranchRollback}
    (h : Rolled world remote tag targetCommit names branches [])
    (hsync : Syncs world after targetCommit names synced) :
    Rolled after remote tag targetCommit names branches synced where
  sound := hsync.sound
  tag := by rw [hsync.tags, h.tag]
  failed := by rw [hsync.failed, h.failed]
  missing := by rw [hsync.missing, h.missing]
  named := by
    intro e he hmoved
    rcases hsync.landed e he with he | hnamed
    · obtain ⟨branch, hbranch, hrest⟩ := h.named e he hmoved
      rw [List.append_nil] at hbranch
      exact ⟨branch, List.mem_append_left _ hbranch, hrest⟩
    · obtain ⟨branch, hbranch, hrest⟩ := hnamed hmoved
      exact ⟨branch, List.mem_append_right _ hbranch, hrest⟩
  atTarget := by
    intro hmatches hmissing hmismatch name hname
    by_cases horigin : remote = "origin"
    · rw [horigin]
      exact hsync.atTarget hmissing hmismatch name hname
    · rw [hsync.otherFetched _ horigin]
      exact h.atTarget hmatches rfl rfl name hname

theorem ends_rollOrigin {options : RollbackOptions} (happly : options.apply = true)
    (h : Rolled world remote tag targetCommit options.targetBranches branches [])
    (hpushing : world.pushing = true)
    (hfresh : ∀ name ∈ options.targetBranches, world.fetched "origin" name = none ∨
      world.tracking "origin" name = world.fetched "origin" name) :
    Ends rollbackService (mayAsk options.apply) ThrowsAs
      (fun u synced => Rolled u remote tag targetCommit options.targetBranches branches
        (synced.getD []))
      world (rollOrigin options targetCommit) := by
  unfold rollOrigin
  split
  · refine (ends_syncOrigin h.sound happly hpushing hfresh).bind fun u synced hsync => ?_
    exact ends_pure (h.sync hsync)
  · exact ends_pure h

theorem ends_otherStep {q : RollbackQuery} (hsound : Sound world)
    (hq : ∀ world after reply, RollbackSucceeds world after q reply → after = world)
    (hpush : ¬ q.IsPush) :
    Ends rollbackService (mayAsk apply) ThrowsAs
      (fun u _ => ∃ others, u = { world with branches := others }) world (ask q) := by
  refine ends_call (fun hq => absurd hq hpush) ?_ fun _ _ => throwsAs_of_error hpush hsound
  rintro reply u ⟨others, hsucceeds⟩
  exact ⟨others, hq _ _ _ hsucceeds⟩

theorem ends_rollPolicy {options : RollbackOptions} (hsound : Sound world) :
    Ends rollbackService (mayAsk options.apply) ThrowsAs
      (fun u _ => ∃ others, u = { world with branches := others }) world (rollPolicy options) := by
  unfold rollPolicy
  split
  · refine (ends_otherStep (q := .policySync) hsound (fun _ _ _ h => h) ?_).bind
      fun u status h => ends_pure h
    rintro ⟨_, _, _, _, heq⟩
    cases heq
  · exact ends_pure ⟨_, rfl⟩

end Moving

/-! ### The whole run -/

section Run

variable {options : RollbackOptions} {report : RollbackReport}

/-- What a report says of the world it leaves. -/
structure Accounts (options : RollbackOptions) (world : RollbackWorld) (report : RollbackReport) :
    Prop where
  sound : Sound world
  steady : options.apply = true → world.failed = false ∧ world.missing = false
  named : options.apply = true → ∀ e ∈ world.landed, e.Moved → report.Names e
  passed : options.apply = true → report.Passed → ∃ remote tag commit,
    report.remote = some remote ∧ report.target = some (tag, commit) ∧
    world.tags tag = some commit ∧
    ∀ name ∈ options.targetBranches, world.fetched remote name = some commit

theorem failures_eq_nil {remote tag targetCommit : String} {branches : List BranchRollback}
    {originSync : Option (List BranchRollback)} {policySync : PolicySyncResult}
    (happly : options.apply = true)
    (h : (rollbackReport options remote tag targetCommit branches originSync policySync).Passed) :
    (∀ branch ∈ branches, branch.matchesTarget = true) ∧ originMissing (originSync.getD []) = [] ∧
      originMismatch (originSync.getD []) targetCommit = [] := by
  unfold RollbackReport.Passed rollbackReport at h
  dsimp only at h
  rw [if_pos happly] at h
  obtain ⟨hfirst, hmismatch⟩ := List.append_eq_nil_iff.mp h
  obtain ⟨hmissing, hvalidation⟩ := List.append_eq_nil_iff.mp hfirst
  refine ⟨fun branch hbranch => ?_, hmissing, hmismatch⟩
  obtain ⟨hmap, -⟩ := List.append_eq_nil_iff.mp hvalidation
  simpa using List.filter_eq_nil_iff.mp (List.map_eq_nil_iff.mp hmap) branch hbranch

theorem ends_dryRun {targetCommit : String} {branches : List BranchRollback}
    {f : List BranchRollback → Option (List BranchRollback) → PolicySyncResult → RollbackReport}
    (remote : String) (happly : ¬ options.apply = true) (hsound : Sound world) :
    Ends rollbackService (mayAsk options.apply) ThrowsAs (fun u _ => Sound u) world (do
      let branches ← rollBranches options remote targetCommit branches
      let originSync ← rollOrigin options targetCommit
      let policySync ← rollPolicy options
      pure (f branches originSync policySync)) := by
  have hnot : ∀ b, ¬ (options.apply && b) = true := fun b h =>
    happly (Bool.and_eq_true_iff.mp h).1
  unfold rollBranches rollOrigin rollPolicy
  rw [if_neg happly, if_neg (hnot _), if_neg (hnot _)]
  exact (ends_resolveAfter _ branches hsound).bind fun u _ hreread =>
    ends_pure (hreread.kept.sound hsound)

theorem RollbackWorld.Starts.untouched (h : world.Starts) : Untouched world :=
  ⟨h.landed, h.pushing, h.failed, h.missing⟩

theorem ends_rollbackTo (remote tag : String) (h : world.Starts) :
    Ends rollbackService (mayAsk options.apply) ThrowsAs (Accounts options) world
      (rollbackTo options remote tag) := by
  refine (ends_fetchRemoteRefs h.untouched.sound).bind ?_
  rintro t _ ⟨others, hfetch⟩
  have hsound : Sound t := by
    intro e he
    rw [hfetch.landed] at he
    exact h.untouched.sound e he
  have hq : ¬ (RollbackQuery.resolveTagCommit tag).IsPush := by
    rintro ⟨_, _, _, _, heq⟩
    cases heq
  refine ends_call_bind (fun hpush => absurd hpush hq) ?_ fun _ _ => throwsAs_of_error hq hsound
  rintro commit u ⟨others', rfl, htag⟩
  -- the state in which the branches are resolved
  generalize hstart : ({ t with branches := others' } : RollbackWorld) = start at htag ⊢
  have huntouched : Untouched start := by
    rw [← hstart]
    exact ⟨hfetch.landed.trans h.landed, hfetch.pushing.trans h.pushing,
      hfetch.failed.trans h.failed, hfetch.missing.trans h.missing⟩
  have hfresh : ∀ name ∈ options.targetBranches,
      start.tracking remote name = start.fetched remote name := by
    rw [← hstart]
    exact fun name hname => (hfetch.tracking name hname).trans (hfetch.fetched name hname).symm
  have hother : ∀ other ≠ remote, ∀ name, start.fetched other name = none := by
    rw [← hstart]
    intro other hother name
    refine (congrFun (hfetch.otherFetched other hother) name).trans ?_
    rw [h.fetched]
  refine (ends_resolveBefore options.targetBranches huntouched.sound).bind ?_
  intro v before hresolved
  by_cases happly : options.apply = true
  · refine (ends_rollBranches happly huntouched htag hfresh hother hresolved).bind ?_
    rintro w branches ⟨hrolled, hpushing, hfreshOrigin⟩
    refine (ends_rollOrigin happly hrolled hpushing hfreshOrigin).bind fun x synced hsynced => ?_
    refine (ends_rollPolicy hsynced.sound).bind ?_
    rintro _ policySync ⟨others, rfl⟩
    refine ends_pure ⟨hsynced.sound, fun _ => ⟨hsynced.failed, hsynced.missing⟩,
      fun _ => hsynced.named, fun _ hpassed => ?_⟩
    obtain ⟨hmatches, hmissing, hmismatch⟩ := failures_eq_nil happly hpassed
    exact ⟨remote, tag, commit, rfl, rfl, hsynced.tag,
      hsynced.atTarget hmatches hmissing hmismatch⟩
  · have hdry : ∀ (u : RollbackWorld) (report : RollbackReport), Sound u →
        Accounts options u report :=
      fun u report hsound => ⟨hsound, fun h => absurd h happly, fun h => absurd h happly,
        fun h => absurd h happly⟩
    exact (ends_dryRun remote happly (hresolved.kept.sound huntouched.sound)).mono hdry

theorem RollbackWorld.Starts.throwsAs (h : world.Starts) : ThrowsAs world := by
  refine ⟨h.untouched.sound, ?_⟩
  rintro ⟨e, he, -⟩
  rw [h.landed] at he
  cases he

theorem RollbackWorld.Starts.moved (h : world.Starts) (others : String → String → Option String) :
    RollbackWorld.Starts { world with branches := others } :=
  ⟨h.fetched, h.landed, h.pushing, h.failed, h.missing⟩

theorem ends_firstStep {q : RollbackQuery} (h : world.Starts)
    (hq : ∀ world after reply, RollbackSucceeds world after q reply → after = world)
    (hpush : ¬ q.IsPush) :
    Ends rollbackService (mayAsk apply) ThrowsAs (fun u _ => u.Starts) world (ask q) := by
  refine (ends_otherStep h.untouched.sound hq hpush).mono ?_
  rintro _ reply ⟨others, rfl⟩
  exact h.moved others

theorem ends_runRollback (i : RollbackInput) (h : world.Starts) :
    Ends rollbackService (mayAsk i.options.apply) ThrowsAs (Accounts i.options) world
      (runRollback i) := by
  refine (ends_ofExcept (P := fun u _ => u.Starts) (fun _ _ => h) fun _ _ => h.throwsAs).bind ?_
  intro t plan ht
  refine (ends_firstStep (q := .fetchReleaseRecords _ _) ht (fun _ _ _ h => h) ?_).bind ?_
  · rintro ⟨_, _, _, _, heq⟩
    cases heq
  intro u releases hu
  refine (ends_ofExcept (P := fun u _ => u.Starts) (fun _ _ => hu) fun _ _ => hu.throwsAs).bind ?_
  intro v pointer hv
  exact ends_rollbackTo _ _ hv

theorem ends_main (i : RollbackInput) (h : world.Starts) :
    Ends rollbackService (mayAsk i.options.apply) ThrowsAs (Accounts i.options) world
      (main i) := by
  refine Ends.bind (P := fun u _ => u.Starts) ?_ fun t _ ht => ?_
  · unfold ensureStream
    split
    · exact ends_pure h
    · exact ends_fail h.throwsAs
  refine Ends.bind (P := fun u _ => u.Starts) ?_ fun u _ hu => ?_
  · unfold ensureClean
    split
    · refine ends_firstStep (q := .ensureCleanWorkingTree) ht (fun _ _ _ h => h) ?_
      rintro ⟨_, _, _, _, heq⟩
      cases heq
    · exact ends_pure ht
  refine (ends_firstStep (q := .ensureGhCli) hu (fun _ _ _ h => h) ?_).bind fun v _ hv => ?_
  · rintro ⟨_, _, _, _, heq⟩
    cases heq
  exact ends_runRollback i hv

end Run

end Steps

/-- **A rollback is accounted for** exactly in the runs where no step throws once a branch
was moved, and no push overwrites what the run had not fetched and the target lacks. -/
theorem rollbackLaw_iff (G : CommitGraph String Δ) (i : RollbackInput)
    {world after : RollbackWorld}
    {calls : List (Call RollbackWorld fun q : RollbackQuery => Except String q.Reply)}
    {r : Except String RollbackReport} (h : world.Starts)
    (hrun : Executes rollbackService world (rollbackRelease i) calls after r) :
    ∃ report, r = .ok report ∧
      (RollbackLaw G i.options calls after report ↔ RollbackWhen G i.options after) := by
  have hends : Ensures rollbackService (mayAsk i.options.apply)
      (fun u r => ∃ report, r = .ok report ∧
        (Accounts i.options u report ∨ ThrowsAs u ∧ ∃ message, report = executionError message))
      world (rollbackRelease i) := by
    refine (ends_main i h).caught (fun t report ht => ⟨report, rfl, .inl ht⟩) ?_
    exact fun t message ht => ⟨executionError message, rfl, .inr ⟨ht, message, rfl⟩⟩
  obtain ⟨hcalls, report, rfl, hreport⟩ := hends.executes hrun
  have hdry : i.options.apply = false → ∀ call ∈ calls, ¬ call.query.IsPush := by
    intro hnot call hcall hpush
    exact Bool.false_ne_true (hnot.symm.trans (hcalls call hcall hpush))
  refine ⟨report, rfl, ?_⟩
  rcases hreport with haccounts | ⟨hthrows, message, rfl⟩
  · constructor
    · exact fun hlaw => ⟨fun happly _ => haccounts.steady happly,
        haccounts.sound.keeps_iff.mp hlaw.keeps⟩
    · intro hwhen
      refine ⟨fun happly => ?_, hdry, haccounts.sound.keeps_iff.mpr hwhen.contained⟩
      by_cases hpassed : report.Passed
      · exact .inl ⟨hpassed, haccounts.passed happly hpassed⟩
      · exact .inr ⟨hpassed, haccounts.named happly⟩
  · -- the report of the error names no branch, so no branch may have moved
    have hfails : ¬ (executionError message).Passed := List.cons_ne_nil _ _
    have hnames : ∀ e, ¬ (executionError message).Names e := by
      rintro e ⟨branch, hbranch, -⟩
      exact absurd hbranch List.not_mem_nil
    constructor
    · refine fun hlaw => ⟨fun happly hmoved => ?_, hthrows.1.keeps_iff.mp hlaw.keeps⟩
      obtain ⟨e, he, hmoved⟩ := hmoved
      rcases hlaw.accounted happly with ⟨hpassed, -⟩ | ⟨-, hnamed⟩
      · exact absurd hpassed hfails
      · exact absurd (hnamed e he hmoved) (hnames e)
    · intro hwhen
      refine ⟨fun happly => .inr ⟨hfails, fun e he hmoved => ?_⟩, hdry,
        hthrows.1.keeps_iff.mpr hwhen.contained⟩
      obtain ⟨hfailed, hmissing⟩ := hwhen.steady happly ⟨e, he, hmoved⟩
      rcases hthrows.2 ⟨e, he, hmoved⟩ with hnot | hnot
      · exact absurd (hfailed.symm.trans hnot) Bool.false_ne_true
      · exact absurd (hmissing.symm.trans hnot) Bool.false_ne_true

/-! ### Two runs -/

def RollbackWorld.throws (world : RollbackWorld) : RollbackWorld := { world with failed := true }

def RollbackWorld.serveTag (world : RollbackWorld) (tag : String) :
    Except String String × RollbackWorld :=
  match world.tags tag with
  | some commit => (.ok commit, world)
  | none => (.error "rev-list failed", world.throws)

def RollbackWorld.servePush (world : RollbackWorld) (moved : Bool)
    (remote branch targetCommit leaseCommit : String) : Except String Unit × RollbackWorld :=
  if moved = false ∧ world.branches remote branch = some leaseCommit then
    (.ok (), world.land remote branch targetCommit)
  else (.error "stale info", world.throws)

/-- The outside of the two runs: the branches that `moves` names move just before they are
pushed. -/
def RollbackWorld.serve (moves : String → Bool) (world : RollbackWorld) :
    (q : RollbackQuery) → Except String q.Reply × RollbackWorld
  | .fetchReleaseRecords _ _ =>
    (.ok [.obj [("tag_name", .str "v1.0.1")], .obj [("tag_name", .str "v1.0.0")]], world)
  | .fetchRemoteRefs remote _ =>
    (.ok (), { world with
      tracking := Function.update world.tracking remote (world.branches remote)
      fetched := Function.update world.fetched remote (world.branches remote) })
  | .resolveTagCommit tag => world.serveTag tag
  | .tryResolveRef remote branch =>
    (.ok (world.tracking remote branch), { world with
      missing := world.missing || ((world.tracking remote branch).isNone && !world.pushing) })
  | .push remote branch targetCommit leaseCommit =>
    world.servePush (moves branch) remote branch targetCommit leaseCommit
  | .policySync => (.ok (some 0), world)
  | .ensureCleanWorkingTree => (.ok (), world)
  | .ensureGhCli => (.ok (), world)

theorem RollbackWorld.serveTag_answers (world : RollbackWorld) (tag : String) :
    RollbackAnswers world (world.serveTag tag).2 (.resolveTagCommit tag)
      (world.serveTag tag).1 := by
  unfold serveTag
  cases htag : world.tags tag with
  | some commit => exact ⟨rfl, htag⟩
  | none => exact rfl

theorem RollbackWorld.servePush_answers (world : RollbackWorld) (moved : Bool)
    (remote branch targetCommit leaseCommit : String) :
    RollbackAnswers world (world.servePush moved remote branch targetCommit leaseCommit).2
      (.push remote branch targetCommit leaseCommit)
      (world.servePush moved remote branch targetCommit leaseCommit).1 := by
  unfold servePush
  split
  · next haccepts =>
    exact ⟨.inl haccepts.2, rfl⟩
  · exact .inl rfl

theorem RollbackWorld.serve_answers (moves : String → Bool) (world : RollbackWorld)
    (q : RollbackQuery) :
    rollbackService world q (world.serve moves q).1 (world.serve moves q).2 := by
  refine ⟨world.branches, ?_⟩
  cases q with
  | fetchRemoteRefs remote names =>
    refine ⟨rfl, rfl, rfl, rfl, rfl, rfl, fun name _ => ?_, fun name _ => ?_, fun other h => ?_,
      fun other h => ?_⟩
    · exact congrFun (Function.update_self ..) name
    · exact congrFun (Function.update_self ..) name
    · exact Function.update_of_ne h _ _
    · exact Function.update_of_ne h _ _
  | resolveTagCommit tag => exact world.serveTag_answers tag
  | tryResolveRef remote branch => exact ⟨.inl rfl, rfl⟩
  | push remote branch targetCommit leaseCommit => exact world.servePush_answers ..
  | _ => exact rfl

/-- A rollback of the branches of `upstream`. -/
def rollbackInput : RollbackInput where
  options := ⟨"stable", none, none, none, "main", "develop", 50, true, false, false⟩
  policy := .ok ⟨"upstream", fun _ => some ⟨"^v", 2⟩⟩
  githubRepository := "owner/repo"
  remotes := fun _ => some ("owner", "repo")
  pattern := fun _ => .ok fun _ => true
  parseDate := fun _ => none

def rollbackWorld : RollbackWorld where
  branches := fun _ branch => some (branch ++ "-head")
  tracking := fun _ _ => none
  tags := fun tag => some (tag ++ "-commit")
  fetched := fun _ _ => none
  landed := []
  pushing := false
  failed := false
  missing := false

theorem rollbackWorld_starts : rollbackWorld.Starts := ⟨rfl, rfl, rfl, rfl, rfl⟩

def rollbackRun (moves : String → Bool) :
    List (Call RollbackWorld fun q : RollbackQuery => Except String q.Reply) ×
      RollbackWorld × Except String RollbackReport :=
  (rollbackRelease rollbackInput).execute (RollbackWorld.serve moves) rollbackWorld

theorem executes_rollbackRun (moves : String → Bool) :
    Executes rollbackService rollbackWorld (rollbackRelease rollbackInput) (rollbackRun moves).1
      (rollbackRun moves).2.1 (rollbackRun moves).2.2 := by
  unfold rollbackRun
  exact executes_execute _ (RollbackWorld.serve_answers moves) _ _

def noHistory : CommitGraph String Unit := ⟨fun _ => [], fun _ => none⟩

def landedOff (branch : String) : Landed where
  remote := "upstream"
  branch := branch
  replaced := some (branch ++ "-head")
  commit := "v1.0.0-commit"
  fetched := some (branch ++ "-head")

def developMoves (branch : String) : Bool := branch = "develop"

/-- The develop branch moves after it was read: the main branch was moved already, and the
report does not say so. -/
theorem not_rollbackLaw_developMoves :
    ∃ report, (rollbackRun developMoves).2.2 = .ok report ∧
      ¬ RollbackLaw noHistory rollbackInput.options (rollbackRun developMoves).1
        (rollbackRun developMoves).2.1 report := by
  have hreport : (rollbackRun developMoves).2.2 = .ok (executionError "stale info") := by
    decide +kernel
  have hlanded : landedOff "main" ∈ (rollbackRun developMoves).2.1.landed := by decide +kernel
  have hmoved : (landedOff "main").Moved := by
    unfold Landed.Moved
    decide
  refine ⟨_, hreport, fun h => ?_⟩
  rcases h.accounted rfl with ⟨hpassed, -⟩ | ⟨-, hnamed⟩
  · exact List.cons_ne_nil _ _ hpassed
  · obtain ⟨branch, hbranch, -⟩ := hnamed _ hlanded hmoved
    exact absurd hbranch List.not_mem_nil

/-- A run in which nothing moves is accounted for. -/
theorem rollbackLaw_nothingMoves :
    ∃ report, (rollbackRun fun _ => false).2.2 = .ok report ∧
      RollbackLaw noHistory rollbackInput.options (rollbackRun fun _ => false).1
        (rollbackRun fun _ => false).2.1 report := by
  obtain ⟨report, hreport, hiff⟩ := rollbackLaw_iff noHistory rollbackInput rollbackWorld_starts
    (executes_rollbackRun fun _ => false)
  have hlanded : (rollbackRun fun _ => false).2.1.landed =
      [landedOff "main", landedOff "develop"] := by decide +kernel
  refine ⟨report, hreport, hiff.mpr ⟨fun _ _ => by decide +kernel, fun e he hnone => ?_⟩⟩
  rw [hlanded] at he
  have hsome : ∀ e ∈ [landedOff "main", landedOff "develop"], e.fetched ≠ none := by decide
  exact absurd hnone (hsome e he)

end CompareVI.Release
