import CompareVI.History.MergeParents

/-!
# From the plan to the mode loop

`Build-ComparisonPlan` returns its plan in an ordered dictionary, and the script does not find it
there (`selectedPlan_eq_nil`): the mode loop runs over the fallback plan. `planLaw_iff` says when
nobody notices: the two plans agree on what the loop may attempt.

Of a plan the loop attempts its `items`, in order and up to the first entry that ends the plan,
and of those no more than the pair limit allows (`attempts_eq_iff`). The fallback plan has one
entry for each listed commit, whose lineage names one parent. So the plans part at the first
merge commit, and behind the last listed commit, if its line goes on (`KeepsPlan`).
-/

open Framework

namespace CompareVI.History

def attemptedAfter : Except ModeFailure LoopState → List Attempt
  | .ok s => s.attempted
  | .error e => e.state.attempted

def attempts (cfg : HistorySettings) (path : String) (outcome : ℕ → PairOutcome)
    (plan : List (Option PlanEntry)) : List Attempt :=
  attemptedAfter (forEach (visit cfg path outcome) .initial plan)

def listedCommits (git : Git) (cfg : HistorySettings) (path ref : String) : Option (List String) :=
  (git.revListFirstParent path ref).map (limitedCommits cfg)

/-- `Build-ComparisonPlan` returns a plan with the facts that it should have, and whatever becomes
of the pairs, the loop attempts what it would attempt of this plan. -/
def PlanLaw (git : MergeGit) (cfg : HistorySettings) (path : String) (endRef : Option String)
    (commits : List String) : Prop :=
  ∃ n result, (∀ fuel, n ≤ fuel → buildMergePlan git endRef path fuel commits = some result) ∧
    PlanFacts git result.plan ∧
    ∀ outcome, attempts cfg path outcome (planEntries git.toGit endRef result commits).1 =
      attempts cfg path outcome (result.plan.map some)

/-- Behind the listed commits there is nothing to pair: the first of their first parents that is
not listed has no parent. -/
def EndsAtRoot (git : Git) (listed : List String) : Prop :=
  ∀ e, (listed.filterMap git.firstParent).find? (fun p => !listed.contains p) = some e →
    git.parents e = []

/-- The fallback plan does for the commits that are left, if so many pairs may still be attempted:
the limit, `EndRef` or a root comes before the first merge commit and before the end of the
list. -/
def KeepsPlan (git : Git) (endRef : Option String) (listed : List String) :
    Option ℕ → List String → Prop
  | limit, [] => limit = some 0 ∨ EndsAtRoot git listed
  | limit, c :: rest =>
    limit = some 0 ∨ isEndRef endRef c = true ∨ git.parents c = [] ∨
      ∃ p, git.parents c = [p] ∧
        (isEndRef endRef p = true ∨ KeepsPlan git endRef listed (limit.map (· - 1)) rest)

/-! ### What the loop attempts of a plan -/

abbrev Item := (String × String) × Option Lineage

/-- What the loop may attempt of a plan: the entries with a pair, up to the first that ends the
plan. -/
def items : List PlanEntry → List Item
  | [] => []
  | entry :: plan =>
    match entry.pair with
    | none => items plan
    | some pair => (pair, entry.lineage) :: if entry.stopAfter then [] else items plan

def limitTo {α : Type} : Option ℕ → List α → List α
  | none, xs => xs
  | some n, xs => xs.take n

def Attempt.item (a : Attempt) : Item := (a.pair, a.lineage)

def pairsLeft (cfg : HistorySettings) (processed : ℕ) : Option ℕ :=
  cfg.requestedPairs.map fun n => (n - (processed : ℤ)).toNat

section Items

variable {α : Type} {x y : α} {xs ys : List α} {limit : Option ℕ}

theorem items_cons_some {entry : PlanEntry} {pair : String × String} {plan : List PlanEntry}
    (h : entry.pair = some pair) :
    items (entry :: plan) =
      (pair, entry.lineage) :: if entry.stopAfter then [] else items plan := by
  rw [items, h]

theorem limitTo_nil : limitTo limit ([] : List α) = [] := by
  cases limit with
  | none => rfl
  | some n => exact List.take_nil

theorem limitTo_zero : limitTo (some 0) xs = [] := rfl

theorem limitTo_cons (hlimit : limit ≠ some 0) :
    limitTo limit (x :: xs) = x :: limitTo (limit.map (· - 1)) xs := by
  cases limit with
  | none => rfl
  | some n =>
    cases n with
    | zero => exact absurd rfl hlimit
    | succ n => rfl

theorem limitTo_cons_inj :
    limitTo limit (x :: xs) = limitTo limit (x :: ys) ↔
      limit = some 0 ∨ limitTo (limit.map (· - 1)) xs = limitTo (limit.map (· - 1)) ys := by
  by_cases hlimit : limit = some 0
  · subst hlimit
    exact iff_of_true rfl (.inl rfl)
  · rw [limitTo_cons hlimit, limitTo_cons hlimit, List.cons_inj_right, or_iff_right hlimit]

theorem limitTo_eq_nil_iff : limitTo limit xs = [] ↔ limit = some 0 ∨ xs = [] := by
  cases xs with
  | nil => exact iff_of_true limitTo_nil (.inr rfl)
  | cons x xs =>
    by_cases hlimit : limit = some 0
    · subst hlimit
      exact iff_of_true rfl (.inl rfl)
    · rw [limitTo_cons hlimit, or_iff_right hlimit]
      exact iff_of_false (List.cons_ne_nil _ _) (List.cons_ne_nil _ _)

end Items

section Loop

variable {cfg : HistorySettings} {path : String} {outcome : ℕ → PairOutcome} {s : LoopState}

def plainEntry (lineage : Option Lineage) : PlanEntry := ⟨none, none, lineage, false, none⟩

def itemAttempt (outcome : ℕ → PairOutcome) (s : LoopState) (item : Item) : Attempt :=
  ⟨s.processed + 1, item.1.1, item.1.2, item.2, outcome (s.processed + 1)⟩

def visitItem (cfg : HistorySettings) (path : String) (outcome : ℕ → PairOutcome) (s : LoopState)
    (item : Item) : Control ModeFailure LoopState :=
  visitPair cfg path (plainEntry item.2) (s.processed + 1) item.1.1 item.1.2
    { s with attempted := s.attempted ++ [itemAttempt outcome s item] } (outcome (s.processed + 1))

def attemptedWith (rest : LoopState → List Attempt) : Control ModeFailure LoopState → List Attempt
  | .next t => rest t
  | .exit t => t.attempted
  | .throw e => e.state.attempted

def attemptItems (cfg : HistorySettings) (path : String) (outcome : ℕ → PairOutcome) :
    LoopState → List Item → List Attempt
  | s, [] => s.attempted
  | s, item :: rest =>
    if cfg.requestedPairs.any (· < ((s.processed + 1 : ℕ) : ℤ)) then s.attempted
    else
      attemptedWith (fun t => attemptItems cfg path outcome t rest)
        (visitItem cfg path outcome s item)

theorem attemptedAfter_cons {α : Type} (body : LoopState → α → Control ModeFailure LoopState)
    (a : α) (as : List α) :
    attemptedAfter (forEach body s (a :: as)) =
      attemptedWith (fun t => attemptedAfter (forEach body t as)) (body s a) := by
  rw [forEach]
  cases body s a <;> rfl

theorem visitPair_plainEntry (entry : PlanEntry) (index : ℕ) (head base : String)
    (o : PairOutcome) (hs : s.stopReason = none) :
    visitPair cfg path entry index head base s o =
        visitPair cfg path (plainEntry entry.lineage) index head base s o ∨
      entry.stopAfter = true ∧ ∃ t t' : LoopState,
        visitPair cfg path (plainEntry entry.lineage) index head base s o = .next t ∧
          visitPair cfg path entry index head base s o = .exit t' ∧
            t'.attempted = t.attempted := by
  cases o with
  | missingHead => exact .inl rfl
  | failed message => exact .inl rfl
  | missingBase =>
    cases hstop : entry.stopAfter with
    | false =>
      left
      rw [visitPair, visitPair, hstop]
      rfl
    | true =>
      right
      refine ⟨rfl, ?_⟩
      rw [visitPair, visitPair, hstop]
      exact ⟨_, _, rfl, rfl, rfl⟩
  | compared summary =>
    have hrecord : recordCompared cfg (plainEntry entry.lineage) index head base summary s =
      recordCompared cfg entry index head base summary s := rfl
    have hreason : (recordCompared cfg entry index head base summary s).stopReason = none := hs
    rw [visitPair, visitPair, visitCompared, visitCompared, hrecord]
    rw [hreason]
    split
    · exact .inl rfl
    · split
      · exact .inl rfl
      · cases hstop : entry.stopAfter with
        | false => exact .inl rfl
        | true => exact .inr ⟨rfl, _, _, rfl, rfl, rfl⟩

/-- **What an item does.** The loop goes on behind it, or ends with it. -/
theorem visitItem_cases (item : Item) (hs : s.stopReason = none) :
    (∃ t, visitItem cfg path outcome s item = .next t ∧ t.stopReason = none ∧
      t.processed = s.processed + 1 ∧
      t.attempted = s.attempted ++ [itemAttempt outcome s item]) ∨
    (∃ t, visitItem cfg path outcome s item = .exit t) ∨
    ∃ e, visitItem cfg path outcome s item = .throw e := by
  have hends : (∃ e, visitItem cfg path outcome s item = .throw e) ∨
      Ends cfg (plainEntry item.2) s (itemAttempt outcome s item)
        (visitItem cfg path outcome s item) := ends_visitPair rfl hs
  rcases hends with hthrow | ⟨t, hrec, ⟨hc, hgoes⟩ | ⟨hc, -⟩⟩
  · exact .inr (.inr hthrow)
  · refine .inl ⟨t, hc, hgoes.stopReason.trans hs, ?_, hrec.attempted⟩
    rw [hrec.processed, hgoes.processed, if_pos rfl]
  · exact .inr (.inl ⟨t, hc⟩)

theorem visit_of_pair {entry : PlanEntry} {pair : String × String}
    (hpair : entry.pair = some pair) :
    visit cfg path outcome s (some entry) =
      if cfg.requestedPairs.any (· < ((s.processed + 1 : ℕ) : ℤ)) then
        .exit { s with stopReason := some .maxPairs }
      else
        visitPair cfg path entry (s.processed + 1) pair.1 pair.2
          { s with attempted := s.attempted ++ [itemAttempt outcome s (pair, entry.lineage)] }
          (outcome (s.processed + 1)) := by
  rw [visit]
  rw [hpair]
  rfl

/-- **The loop** attempts of a plan what it attempts of its items; by induction on the plan. -/
theorem attemptedAfter_forEach (plan : List PlanEntry) (hs : s.stopReason = none) :
    attemptedAfter (forEach (visit cfg path outcome) s (plan.map some)) =
      attemptItems cfg path outcome s (items plan) := by
  induction plan generalizing s with
  | nil => rfl
  | cons entry plan ih =>
    rw [List.map_cons]
    cases hpair : entry.pair with
    | none =>
      have hskip : visit cfg path outcome s (some entry) = .next s := by
        rw [visit]
        rw [hpair]
      rw [forEach_cons_next _ hskip, items, hpair]
      exact ih hs
    | some pair =>
      rw [items_cons_some hpair, attemptItems, attemptedAfter_cons, visit_of_pair hpair]
      split
      · rfl
      · obtain ⟨visited, hvisited⟩ : ∃ visited, visited = visitPair cfg path entry
            (s.processed + 1) pair.1 pair.2 { s with attempted := s.attempted ++
              [itemAttempt outcome s (pair, entry.lineage)] } (outcome (s.processed + 1)) :=
          ⟨_, rfl⟩
        have hends : (∃ e, visited = .throw e) ∨
            Ends cfg entry s (itemAttempt outcome s (pair, entry.lineage)) visited :=
          hvisited ▸ ends_visitPair rfl hs
        have hitem : visited = visitItem cfg path outcome s (pair, entry.lineage) ∨
            entry.stopAfter = true ∧ ∃ t t' : LoopState,
              visitItem cfg path outcome s (pair, entry.lineage) = .next t ∧
                visited = .exit t' ∧ t'.attempted = t.attempted :=
          hvisited ▸ visitPair_plainEntry entry _ _ _ _ hs
        rw [← hvisited]
        rcases hitem with hsame | ⟨hstop, t, t', hnext, hexit, hattempted⟩
        · rw [← hsame]
          rcases hends with ⟨e, he⟩ | ⟨t, -, ⟨hnext, hgoes⟩ | ⟨hexit, -⟩⟩
          · rw [he]
            rfl
          · rw [hnext, hgoes.stopAfter]
            exact ih (hgoes.stopReason.trans hs)
          · rw [hexit]
            rfl
        · rw [hexit, hnext, if_pos hstop]
          exact hattempted

theorem pairsLeft_eq_zero_iff {processed : ℕ} :
    pairsLeft cfg processed = some 0 ↔
      cfg.requestedPairs.any (· < ((processed + 1 : ℕ) : ℤ)) = true := by
  unfold pairsLeft
  cases cfg.requestedPairs with
  | none => simp
  | some n =>
    rw [Option.map_some, Option.some.injEq, Option.any_some, decide_eq_true_eq]
    omega

theorem pairsLeft_succ (processed : ℕ) :
    pairsLeft cfg (processed + 1) = (pairsLeft cfg processed).map (· - 1) := by
  unfold pairsLeft
  cases cfg.requestedPairs with
  | none => rfl
  | some n =>
    rw [Option.map_some, Option.map_some, Option.map_some, Option.some.injEq]
    omega

theorem attemptItems_limitTo (list : List Item) (hs : s.stopReason = none) :
    attemptItems cfg path outcome s (limitTo (pairsLeft cfg s.processed) list) =
      attemptItems cfg path outcome s list := by
  induction list generalizing s with
  | nil => rw [limitTo_nil]
  | cons item list ih =>
    by_cases hlimit : pairsLeft cfg s.processed = some 0
    · rw [hlimit, limitTo_zero, attemptItems, attemptItems,
        if_pos (pairsLeft_eq_zero_iff.mp hlimit)]
    · have hgoes := mt pairsLeft_eq_zero_iff.mpr hlimit
      rw [limitTo_cons hlimit, attemptItems, attemptItems, if_neg hgoes, if_neg hgoes]
      rcases visitItem_cases item hs with ⟨t, ht, hreason, hprocessed, -⟩ | ⟨t, ht⟩ | ⟨e, he⟩
      · rw [ht, ← pairsLeft_succ, ← hprocessed]
        exact ih hreason
      · rw [ht]
        rfl
      · rw [he]
        rfl

def allSame : ℕ → PairOutcome := fun _ => .compared ⟨false, none, []⟩

theorem visitItem_allSame (item : Item) (hs : s.stopReason = none) :
    ∃ t, visitItem cfg path allSame s item = .next t ∧ t.stopReason = none ∧
      t.processed = s.processed + 1 ∧
      t.attempted = s.attempted ++ [itemAttempt allSame s item] := by
  refine ⟨recordCompared cfg (plainEntry item.2) (s.processed + 1) item.1.1 item.1.2
    ⟨false, none, []⟩ { s with attempted := s.attempted ++ [itemAttempt allSame s item] }, ?_, hs,
    rfl, rfl⟩
  rw [visitItem, allSame, visitPair, visitCompared]
  simp [plainEntry]

theorem attemptItems_allSame (list : List Item) (hs : s.stopReason = none) :
    (attemptItems cfg path allSame s list).map Attempt.item =
      s.attempted.map Attempt.item ++ limitTo (pairsLeft cfg s.processed) list := by
  induction list generalizing s with
  | nil => rw [limitTo_nil, List.append_nil, attemptItems]
  | cons item list ih =>
    by_cases hlimit : pairsLeft cfg s.processed = some 0
    · rw [hlimit, limitTo_zero, attemptItems, if_pos (pairsLeft_eq_zero_iff.mp hlimit),
        List.append_nil]
    · obtain ⟨t, ht, hreason, hprocessed, hattempted⟩ := visitItem_allSame item hs
      rw [limitTo_cons hlimit, attemptItems, if_neg (mt pairsLeft_eq_zero_iff.mpr hlimit), ht]
      refine (ih hreason).trans ?_
      rw [hattempted, hprocessed, pairsLeft_succ, List.map_append, List.append_assoc]
      rfl

/-- **What a mode attempts** of two plans is the same, whatever becomes of the pairs, exactly if
their items are, as far as the limit allows. -/
theorem attempts_eq_iff (plan plan' : List PlanEntry) :
    (∀ outcome, attempts cfg path outcome (plan.map some) =
        attempts cfg path outcome (plan'.map some)) ↔
      limitTo (pairsLeft cfg 0) (items plan) = limitTo (pairsLeft cfg 0) (items plan') := by
  have hattempts : ∀ outcome plan, attempts cfg path outcome (plan.map some) =
      attemptItems cfg path outcome .initial (items plan) := fun outcome plan =>
    attemptedAfter_forEach plan rfl
  constructor
  · intro h
    have hsame := congrArg (List.map Attempt.item) (h allSame)
    rw [hattempts, hattempts, attemptItems_allSame _ rfl, attemptItems_allSame _ rfl] at hsame
    exact List.append_cancel_left hsame
  · intro h outcome
    rw [hattempts, hattempts, ← attemptItems_limitTo _ rfl,
      ← attemptItems_limitTo (items plan') rfl]
    exact congrArg _ h

end Loop

/-! ### The two plans -/

section Plans

variable {git : MergeGit} {endRef : Option String}
  {getPlan : BranchCall → List String → Option PlanState}

theorem grows_addSpec (plan : List PlanEntry) (spec : PlanEntry) : plan <+: addSpec plan spec := by
  rcases addSpec_cases plan spec with h | h
  · exact h.symm ▸ List.prefix_rfl
  · exact h.symm ▸ List.prefix_append plan [spec]

theorem grows_foldl_addSpec (plan specs : List PlanEntry) : plan <+: specs.foldl addSpec plan := by
  induction specs generalizing plan with
  | nil => exact List.prefix_rfl
  | cons spec specs ih => exact (grows_addSpec plan spec).trans (ih _)

theorem grows_visitParents {calls : List BranchCall} {s t : PlanState}
    (h : visitParents addSpec getPlan calls s = some t) : s.1 <+: t.1 := by
  induction calls generalizing s with
  | nil =>
    obtain rfl := Option.some.inj h
    exact List.prefix_rfl
  | cons call calls ih =>
    rw [visitParents, List.foldlM_cons] at h
    obtain ⟨u, hu, hrest⟩ := Option.bind_eq_some_iff.mp h
    obtain ⟨nested, -, rfl⟩ := Option.map_eq_some_iff.mp hu
    exact (grows_foldl_addSpec s.1 nested.1).trans (ih hrest)

variable {plan : List PlanEntry} {list listed seen : List String} {result : PlanResult}
  {c first : String}

theorem grows_buildMergeSpecs {s : PlanState}
    (h : buildMergeSpecs git endRef addSpec getPlan s list = some result) :
    s.1 <+: result.plan := by
  induction list generalizing s with
  | nil =>
    obtain rfl := Option.some.inj h
    exact List.prefix_rfl
  | cons c list ih =>
    unfold buildMergeSpecs at h
    dsimp only at h
    split at h
    · exact ih h
    · split at h
      · obtain rfl := Option.some.inj h
        exact List.prefix_rfl
      · split at h
        · obtain rfl := Option.some.inj h
          exact List.prefix_rfl
        · next first others _ =>
          obtain ⟨u, hu, hrest⟩ := Option.bind_eq_some_iff.mp h
          have hvisit := grows_visitParents hu
          dsimp only at hvisit
          have hspec := (grows_addSpec s.1 _).trans hvisit
          split at hrest
          · obtain rfl := Option.some.inj hrest
            exact hspec
          · exact hspec.trans (ih hrest)

/-- **The end of the list.** Where no listed commit has `EndRef` as its first parent, what is
appended to the list begins with the first of the first parents that is not listed. -/
theorem head?_extendMainlineWithin {fuel index : ℕ}
    (hcommits : ∀ c ∈ listed, git.isCommit c = true)
    (hend : ∀ c ∈ listed, ∀ p, git.firstParent c = some p → isEndRef endRef p = false)
    (h : extendMainlineWithin git endRef fuel index listed = some list) :
    ∃ appended, list = listed ++ appended ∧
      appended.head? = ((listed.drop index).filterMap git.firstParent).find?
        (fun p => !listed.contains p) := by
  induction fuel generalizing index with
  | zero => exact nomatch h
  | succ fuel ih =>
    simp only [extendMainlineWithin] at h
    cases hcurrent : listed[index]? with
    | none =>
      rw [hcurrent] at h
      obtain rfl := Option.some.inj h
      refine ⟨[], (List.append_nil _).symm, ?_⟩
      rw [List.drop_eq_nil_of_le (List.getElem?_eq_none_iff.mp hcurrent)]
      rfl
    | some current =>
      obtain ⟨hindex, hget⟩ := List.getElem?_eq_some_iff.mp hcurrent
      have hmem : current ∈ listed := List.mem_of_getElem? hcurrent
      rw [hcurrent] at h
      dsimp only at h
      rw [List.drop_eq_getElem_cons hindex, hget]
      cases hparent : git.firstParent current with
      | none =>
        rw [hparent] at h
        rw [List.filterMap_cons_none hparent]
        exact ih h
      | some p =>
        rw [hparent] at h
        dsimp only at h
        rw [hend current hmem p hparent, if_neg Bool.false_ne_true] at h
        rw [List.filterMap_cons_some hparent]
        have hp := (git.parent current p (hcommits current hmem) (Git.firstParent_mem hparent)).1
        by_cases hlisted : p ∈ listed
        · have hsame : addDistinct listed p = listed := by
            rw [addDistinct, if_pos]
            exact List.any_eq_true.mpr ⟨p, hlisted, PsString.equalsIgnoreCase_iff.mpr rfl⟩
          rw [hsame] at h
          rw [List.find?_cons_of_neg (by simpa using hlisted)]
          exact ih h
        · have hnew : addDistinct listed p = listed ++ [p] := by
            rw [addDistinct, if_neg]
            intro hany
            obtain ⟨d, hd, heq⟩ := List.any_eq_true.mp hany
            exact hlisted (eq_of_equalsIgnoreCase hp (hcommits d hd) heq ▸ hd)
          rw [hnew] at h
          obtain ⟨more, rfl⟩ := (isCommit_extendMainlineWithin
            (hnew ▸ isCommit_addDistinct hcommits hp) h).1
          refine ⟨p :: more, by rw [List.append_assoc, List.singleton_append], ?_⟩
          rw [List.find?_cons_of_pos (by simpa using hlisted), List.head?_cons]

variable {appended others : List String} {parentCount : ℕ}

theorem addSpec_fresh (hc : git.isCommit c = true) (hfirst : git.isCommit first = true)
    (hplan : ∀ e ∈ plan, GoodBase git e) (hfresh : ∀ e ∈ plan, e.head ≠ some c) :
    addSpec plan (mainlineSpec endRef parentCount c first) =
      plan ++ [mainlineSpec endRef parentCount c first] := by
  have hnone : ¬ HasPair plan c first := by
    rintro ⟨e, he, hhead, -⟩
    exact hfresh e he hhead
  have hcases : (HasPair plan c first ∧
        addSpec plan (mainlineSpec endRef parentCount c first) = plan) ∨
      (¬ HasPair plan c first ∧ addSpec plan (mainlineSpec endRef parentCount c first) =
        plan ++ [mainlineSpec endRef parentCount c first]) :=
    addSpec_of_goodBase rfl rfl hc hfirst hplan
  rcases hcases with ⟨hpair, -⟩ | ⟨-, hadd⟩
  · exact absurd hpair hnone
  · exact hadd

section

variable (hc : git.isCommit c = true) (hend : isEndRef endRef c = false)
  (hparents : git.parents c = first :: others) (hplan : ∀ e ∈ plan, GoodBase git e)
  (hfresh : ∀ e ∈ plan, e.head ≠ some c)
  (h : buildMergeSpecs git endRef addSpec getPlan (plan, seen) (c :: list) = some result)

include hc hend hparents hplan hfresh h

/-- **A commit with a parent.** The build goes on behind its pairs, of which that with the first
parent comes first. -/
theorem buildMergeSpecs_cons : ∃ u, visitParents addSpec getPlan (furtherCalls git.toGit c first c)
        (plan ++ [mainlineSpec endRef (others.length + 1) c first], seen) = some u ∧
      if isEndRef endRef first = true then result.plan = u.1
      else buildMergeSpecs git endRef addSpec getPlan u list = some result := by
  obtain ⟨htrim, hne, -⟩ := isFullHash_trim (git.isFullHash c hc)
  have hfirst := (git.parent c first hc (hparents ▸ List.mem_cons_self)).1
  unfold buildMergeSpecs at h
  simp only [htrim, hne, if_false, hend, hparents, Bool.false_eq_true, List.length_cons] at h
  obtain ⟨u, hu, hrest⟩ := Option.bind_eq_some_iff.mp h
  rw [addSpec_fresh hc hfirst hplan hfresh] at hu
  refine ⟨u, hu, ?_⟩
  split at hrest
  · next hstop =>
    obtain rfl := Option.some.inj hrest
    rw [if_pos hstop]
  · next hstop =>
    rw [if_neg hstop]
    exact hrest

theorem exists_new_of_parent :
    ∃ new, result.plan = plan ++ mainlineSpec endRef (others.length + 1) c first :: new := by
  obtain ⟨u, hu, hrest⟩ := buildMergeSpecs_cons hc hend hparents hplan hfresh h
  have hgrows : plan ++ [mainlineSpec endRef (others.length + 1) c first] <+: result.plan := by
    split at hrest
    · exact hrest ▸ grows_visitParents hu
    · exact (grows_visitParents hu).trans (grows_buildMergeSpecs hrest)
  obtain ⟨new, hnew⟩ := hgrows
  exact ⟨new, by rw [← hnew, List.append_assoc, List.singleton_append]⟩

end

theorem items_mainlineSpec (hc : git.isCommit c = true) (hfirst : git.isCommit first = true)
    (plan : List PlanEntry) :
    items (mainlineSpec endRef parentCount c first :: plan) =
      ((c, first), (mainlineSpec endRef parentCount c first).lineage) ::
        if isEndRef endRef first = true then [] else items plan :=
  items_cons_some (pair_mainlineSpec hc hfirst)

theorem items_appended_iff {limit : Option ℕ} (hplan : ∀ e ∈ plan, GoodBase git e)
    (hheads : ∀ e ∈ plan, ∀ head, e.head = some head → head ∈ listed)
    (hfirst : appended.head? = (listed.filterMap git.firstParent).find?
      (fun p => !listed.contains p))
    (hcommit : ∀ e, appended.head? = some e → git.isCommit e = true ∧ isEndRef endRef e = false)
    (h : buildMergeSpecs git endRef addSpec getPlan (plan, seen) appended = some result) :
    ∃ new, result.plan = plan ++ new ∧
      (limitTo limit (items []) = limitTo limit (items new) ↔
        limit = some 0 ∨ EndsAtRoot git.toGit listed) := by
  cases appended with
  | nil =>
    obtain rfl := Option.some.inj h
    refine ⟨[], (List.append_nil plan).symm, iff_of_true rfl (.inr fun e he => ?_)⟩
    rw [← hfirst] at he
    cases he
  | cons e more =>
    obtain ⟨he, hend⟩ := hcommit e rfl
    have hnew : e ∉ listed := by
      have hfound := List.find?_some hfirst.symm
      simpa using hfound
    cases hparents : git.parents e with
    | nil =>
      obtain ⟨htrim, hne, -⟩ := isFullHash_trim (git.isFullHash e he)
      unfold buildMergeSpecs at h
      simp only [htrim, hne, if_false, hend, hparents, Bool.false_eq_true] at h
      obtain rfl := Option.some.inj h
      refine ⟨[], (List.append_nil plan).symm, iff_of_true rfl (.inr fun e' he' => ?_)⟩
      obtain rfl : e = e' := Option.some.inj (hfirst.trans he')
      exact hparents
    | cons first others =>
      have hparent := (git.parent e first he (hparents ▸ List.mem_cons_self)).1
      obtain ⟨new, hnewPlan⟩ := exists_new_of_parent he hend hparents hplan
        (fun d hd hhead => hnew (hheads d hd e hhead)) h
      refine ⟨_, hnewPlan, ?_⟩
      rw [items_mainlineSpec he hparent, items, limitTo_nil, eq_comm, limitTo_eq_nil_iff,
        or_iff_left (List.cons_ne_nil _ _)]
      refine (or_iff_left fun hroot => ?_).symm
      rw [hroot e hfirst.symm] at hparents
      cases hparents

/-- **The two plans** agree on what the limit allows exactly if the fallback plan does; by
induction on the listed commits that are left. -/
theorem keepsPlan_iff {left : List String} {limit : Option ℕ}
    (hleft : ∀ c ∈ left, git.isCommit c = true) (hnodup : left.Nodup) (hlisted : left ⊆ listed)
    (hplan : ∀ e ∈ plan, GoodBase git e)
    (hheads : ∀ e ∈ plan, ∀ head, e.head = some head → head ∈ listed ∧ head ∉ left)
    (hbehind : (∀ c ∈ left, ∀ p, git.firstParent c = some p → isEndRef endRef p = false) →
      appended.head? = (listed.filterMap git.firstParent).find? (fun p => !listed.contains p) ∧
        ∀ e, appended.head? = some e → git.isCommit e = true ∧ isEndRef endRef e = false)
    (h : buildMergeSpecs git endRef addSpec getPlan (plan, seen) (left ++ appended) =
      some result) :
    ∃ new, result.plan = plan ++ new ∧
      (limitTo limit (items (fallbackPlan git.toGit endRef left).1) = limitTo limit (items new) ↔
        KeepsPlan git.toGit endRef listed limit left) := by
  induction left generalizing plan seen limit with
  | nil =>
    obtain ⟨hfirst, hcommit⟩ := hbehind fun c hc => absurd hc List.not_mem_nil
    exact items_appended_iff hplan (fun e he head hhead => (hheads e he head hhead).1) hfirst
      hcommit h
  | cons c left ih =>
    have hc := hleft c List.mem_cons_self
    rw [KeepsPlan]
    rw [List.cons_append] at h
    obtain ⟨htrim, hne, -⟩ := isFullHash_trim (git.isFullHash c hc)
    cases hstop : isEndRef endRef c with
    | true =>
      unfold buildMergeSpecs at h
      simp only [htrim, hne, if_false, hstop, if_true] at h
      obtain rfl := Option.some.inj h
      rw [fallbackPlan_cons hc, if_pos hstop]
      exact ⟨[], (List.append_nil plan).symm, iff_of_true rfl (.inr (.inl rfl))⟩
    | false =>
      cases hparents : git.parents c with
      | nil =>
        have hfirst : git.firstParent c = none := by rw [Git.firstParent, hparents]; rfl
        unfold buildMergeSpecs at h
        simp only [htrim, hne, if_false, hstop, hparents, Bool.false_eq_true] at h
        obtain rfl := Option.some.inj h
        rw [fallbackPlan_cons hc, hstop, if_neg Bool.false_ne_true, hfirst]
        exact ⟨[], (List.append_nil plan).symm, iff_of_true rfl (.inr (.inr (.inl rfl)))⟩
      | cons p others =>
        have hfirst : git.firstParent c = some p := by rw [Git.firstParent, hparents]; rfl
        have hp := (git.parent c p hc (hparents ▸ List.mem_cons_self)).1
        have hfresh : ∀ e ∈ plan, e.head ≠ some c := fun e he hhead =>
          (hheads e he c hhead).2 List.mem_cons_self
        have hitems : items (fallbackPlan git.toGit endRef (c :: left)).1 =
            ((c, p), (mainlineSpec endRef 1 c p).lineage) ::
              if isEndRef endRef p = true then []
              else items (fallbackPlan git.toGit endRef left).1 := by
          rw [fallbackPlan_cons hc, hstop, if_neg Bool.false_ne_true, hfirst]
          dsimp only
          split
          · next hend => rw [items_mainlineSpec hc hp, if_pos hend]
          · next hend => rw [items_mainlineSpec hc hp, if_neg hend]
        rw [hitems]
        cases others with
        | cons q others =>
          -- a merge commit: its lineage names more than one parent
          obtain ⟨new, hnew⟩ := exists_new_of_parent hc hstop hparents hplan hfresh h
          refine ⟨_, hnew, ?_⟩
          rw [items_mainlineSpec hc hp]
          have hmerge : ¬ ∃ p', p :: q :: others = [p'] ∧ (isEndRef endRef p' = true ∨
              KeepsPlan git.toGit endRef listed (limit.map (· - 1)) left) := by
            rintro ⟨p', hsingle, -⟩
            cases hsingle
          by_cases hlimit : limit = some 0
          · subst hlimit
            exact iff_of_true rfl (.inl rfl)
          · rw [limitTo_cons hlimit, limitTo_cons hlimit]
            refine iff_of_false (fun hsame => ?_) ?_
            · have hcount := congrArg (fun l => l.2.map Lineage.parentCount) (List.cons.inj hsame).1
              cases hcount
            · rintro (hzero | hend | hroot | hsingle)
              · exact hlimit hzero
              · cases hend
              · cases hroot
              · exact hmerge hsingle
        | nil =>
          obtain ⟨u, hu, hrest⟩ := buildMergeSpecs_cons hc hstop hparents hplan hfresh h
          have hcalls : furtherCalls git.toGit c p c = [] := by
            rw [furtherCalls, hparents]
            rfl
          rw [hcalls] at hu
          obtain rfl := Option.some.inj hu
          have hkeeps : (limit = some 0 ∨ false = true ∨ [p] = [] ∨ ∃ p', [p] = [p'] ∧
              (isEndRef endRef p' = true ∨
                KeepsPlan git.toGit endRef listed (limit.map (· - 1)) left)) ↔
              limit = some 0 ∨ isEndRef endRef p = true ∨
                KeepsPlan git.toGit endRef listed (limit.map (· - 1)) left := by
            simp
          rw [hkeeps]
          by_cases hend : isEndRef endRef p = true
          · rw [if_pos hend] at hrest
            refine ⟨[mainlineSpec endRef 1 c p], hrest, iff_of_true ?_ (.inr (.inl hend))⟩
            rw [items_mainlineSpec hc hp, if_pos hend, if_pos hend]
          · rw [if_neg hend] at hrest
            have hspec : GoodBase git (mainlineSpec endRef 1 c p) :=
              ⟨c, p, rfl, rfl, hc, hp, .inl (hparents ▸ List.mem_cons_self)⟩
            obtain ⟨hnotMem, hnodup'⟩ := List.nodup_cons.mp hnodup
            have hplan' : ∀ e ∈ plan ++ [mainlineSpec endRef 1 c p], GoodBase git e := by
              intro e he
              rcases List.mem_append.mp he with he | he
              · exact hplan e he
              · exact List.mem_singleton.mp he ▸ hspec
            have hheads' : ∀ e ∈ plan ++ [mainlineSpec endRef 1 c p], ∀ head,
                e.head = some head → head ∈ listed ∧ head ∉ left := by
              intro e he head hhead
              rcases List.mem_append.mp he with he | he
              · obtain ⟨hin, hout⟩ := hheads e he head hhead
                exact ⟨hin, fun hmem => hout (List.mem_cons_of_mem c hmem)⟩
              · obtain rfl := List.mem_singleton.mp he
                obtain rfl : c = head := Option.some.inj hhead
                exact ⟨hlisted List.mem_cons_self, hnotMem⟩
            have hpassed : (∀ d ∈ left, ∀ q, git.firstParent d = some q →
                isEndRef endRef q = false) → ∀ d ∈ c :: left, ∀ q, git.firstParent d = some q →
                  isEndRef endRef q = false := by
              intro hall d hd q hq
              rcases List.mem_cons.mp hd with rfl | hd
              · obtain rfl : p = q := Option.some.inj (hfirst.symm.trans hq)
                exact Bool.eq_false_iff.mpr hend
              · exact hall d hd q hq
            obtain ⟨new, hnew, hiff⟩ := ih (fun d hd => hleft d (List.mem_cons_of_mem c hd))
              hnodup' (fun d hd => hlisted (List.mem_cons_of_mem c hd)) hplan' hheads'
              (fun hall => hbehind (hpassed hall)) hrest
            refine ⟨mainlineSpec endRef 1 c p :: new, ?_, ?_⟩
            · rw [hnew, List.append_assoc, List.singleton_append]
            · rw [items_mainlineSpec hc hp, if_neg hend, if_neg hend, limitTo_cons_inj, hiff,
                or_iff_right hend]

end Plans

/-! ### When nobody notices -/

section Result

variable {git : MergeGit} {cfg : HistorySettings} {path : String} {endRef : Option String}
  {commits : List String}

theorem listedCommits_spec {git : Git} {ref : String}
    (h : listedCommits git cfg path ref = some commits) :
    (∀ c ∈ commits, git.isCommit c = true) ∧ commits.Nodup := by
  rw [listedCommits, Git.revListFirstParent, Option.map_map] at h
  obtain ⟨start, hstart, rfl⟩ := Option.map_eq_some_iff.mp h
  have hlinked := linked_firstParentChain (git.resolve_isCommit _ _ hstart)
  have htake : ∀ list, (limitedCommits cfg list).Sublist list := by
    intro list
    unfold limitedCommits
    split
    · exact List.take_sublist _ _
    · exact List.Sublist.refl _
  have hsub : (limitedCommits cfg ((git.firstParentChain start).filter (git.touches path))).Sublist
      (git.firstParentChain start) := (htake _).trans List.filter_sublist
  exact ⟨fun c hc => hlinked.isCommit c (hsub.subset hc), hlinked.nodup.sublist hsub⟩

theorem planEntries_eq (result : PlanResult) :
    (planEntries git.toGit endRef result commits).1 =
      (fallbackPlan git.toGit endRef commits).1.map some := rfl

theorem planLaw_iff_keepsPlan (hcommits : ∀ c ∈ commits, git.isCommit c = true)
    (hnodup : commits.Nodup) :
    PlanLaw git cfg path endRef commits ↔
      KeepsPlan git.toGit endRef commits (pairsLeft cfg 0) commits := by
  obtain ⟨n, result, hbuild, hfacts⟩ : ∃ n result, (∀ fuel, n ≤ fuel →
      buildMergePlan git endRef path fuel commits = some result) ∧ PlanFacts git result.plan :=
    buildMergePlan_facts hcommits hnodup
  have hlaw : PlanLaw git cfg path endRef commits ↔
      ∀ outcome, attempts cfg path outcome (planEntries git.toGit endRef result commits).1 =
        attempts cfg path outcome (result.plan.map some) := by
    constructor
    · rintro ⟨n', result', hbuild', -, hsame⟩
      -- with enough fuel there is one result
      have hone : some result = some result' :=
        (hbuild (max n n') (Nat.le_max_left _ _)).symm.trans
          (hbuild' (max n n') (Nat.le_max_right _ _))
      obtain rfl := Option.some.inj hone
      exact hsame
    · exact fun hsame => ⟨n, result, hbuild, hfacts, hsame⟩
  have hresult := hbuild n le_rfl
  rw [buildMergePlan, mainlineList_eq hcommits hnodup] at hresult
  obtain ⟨list, hlist, hspecs⟩ := Option.bind_eq_some_iff.mp hresult
  obtain ⟨⟨appended, rfl⟩, -⟩ := isCommit_extendMainlineWithin hcommits hlist
  have hbehind : (∀ c ∈ commits, ∀ p, git.firstParent c = some p → isEndRef endRef p = false) →
      appended.head? = (commits.filterMap git.firstParent).find?
          (fun p => !commits.contains p) ∧
        ∀ e, appended.head? = some e → git.isCommit e = true ∧ isEndRef endRef e = false := by
    intro hpassed
    obtain ⟨appended', happended, hfirst⟩ := head?_extendMainlineWithin hcommits hpassed hlist
    obtain rfl := List.append_cancel_left happended
    refine ⟨hfirst, fun e he => ?_⟩
    have hmem := List.mem_of_find?_eq_some (hfirst.symm.trans he)
    obtain ⟨c, hc, hparent⟩ := List.mem_filterMap.mp hmem
    exact ⟨(git.parent c e (hcommits c hc) (Git.firstParent_mem hparent)).1,
      hpassed c hc e hparent⟩
  obtain ⟨new, hnew, hiff⟩ : ∃ new, result.plan = [] ++ new ∧
      (limitTo (pairsLeft cfg 0) (items (fallbackPlan git.toGit endRef commits).1) =
          limitTo (pairsLeft cfg 0) (items new) ↔
        KeepsPlan git.toGit endRef commits (pairsLeft cfg 0) commits) :=
    keepsPlan_iff hcommits hnodup (List.Subset.refl commits)
      (List.forall_mem_nil _) (List.forall_mem_nil _) hbehind
      hspecs
  rw [List.nil_append] at hnew
  rw [hlaw, planEntries_eq, attempts_eq_iff, hnew]
  exact hiff

/-- **The plan of a walk.** For every commit graph, ref and setting: `Build-ComparisonPlan` returns
a plan with distinct pairs, good bases and every parent of its merges, and the loop attempts what
this plan says, exactly if the fallback plan does for the listed commits. -/
theorem planLaw_iff (git : MergeGit) (cfg : HistorySettings) (path ref : String)
    (endRef : Option String) :
    (∀ commits, listedCommits git.toGit cfg path ref = some commits →
      PlanLaw git cfg path endRef commits) ↔
    ∀ commits, listedCommits git.toGit cfg path ref = some commits →
      KeepsPlan git.toGit endRef commits (pairsLeft cfg 0) commits := by
  refine forall_congr' fun commits => forall_congr' fun hlisted => ?_
  obtain ⟨hcommits, hnodup⟩ := listedCommits_spec hlisted
  exact planLaw_iff_keepsPlan hcommits hnodup

end Result

/-! ### A merge commit -/

def mergedParents (c : String) : List String :=
  if c = digitHash 'c' then [digitHash 'b', digitHash 'a']
  else if c = digitHash 'b' then [digitHash 'a'] else []

theorem mergedParents_spec : ∀ c ∈ lineCommits, ∀ p ∈ mergedParents c,
    p ∈ lineCommits ∧ lineDepth p < lineDepth c := by
  simp [lineCommits, mergedParents, lineDepth, digitHash_inj]

def mergedGit : MergeGit where
  toGit := { lineGit with
    parents := mergedParents
    parent := fun c p hc hp =>
      (mergedParents_spec c (List.contains_iff_mem.mp hc) p hp).imp_left List.contains_iff_mem.mpr }
  mergeBase _ _ := none
  branchCommits _ _ _ := []
  mergeBase_isCommit _ _ _ h := nomatch h
  branchCommits_ancestor _ _ _ _ _ h := nomatch h

/-- The pair of the merge and its second parent is never attempted. -/
theorem not_planLaw_mergedGit :
    listedCommits mergedGit.toGit ⟨none, 2, .collapse, false, false⟩ "a.vi" "HEAD" =
        some lineCommits ∧
      ¬ PlanLaw mergedGit ⟨none, 2, .collapse, false, false⟩ "a.vi" none lineCommits := by
  have hlisted : listedCommits mergedGit.toGit ⟨none, 2, .collapse, false, false⟩ "a.vi" "HEAD" =
      some lineCommits := by decide +kernel
  obtain ⟨hcommits, hnodup⟩ := listedCommits_spec hlisted
  refine ⟨hlisted, fun hlaw => ?_⟩
  have hparents : mergedGit.parents (digitHash 'c') = [digitHash 'b', digitHash 'a'] := rfl
  rcases (planLaw_iff_keepsPlan hcommits hnodup).mp hlaw with hzero | hend | hroot | ⟨p, hsingle, -⟩
  · cases hzero
  · cases hend
  · rw [hparents] at hroot
    cases hroot
  · rw [hparents] at hsingle
    cases hsingle

end CompareVI.History
