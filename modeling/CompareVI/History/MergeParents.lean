import CompareVI.Framework.Fuel
import CompareVI.History.Plan

/-!
# The plan with merge parents

`Build-ComparisonPlan` walks the first-parent line. With `IncludeMergeParents` it also calls
`Get-MergeParentPlan` for every further parent of a merge commit: that pairs the commits of the
branch, newest last, calls itself for the merges among them, and ends with the pair of the merge
and the parent. All calls share one set of seen branches, and `Add-Spec` keeps the first of the
entries with one key.

The recursion is bounded by nothing but the commit graph, so the functions here have a fuel and
return nothing where it runs out. `buildMergePlan_settles` says that they return: a nested call
is about a parent of a commit of the branch, and depth falls along parents.

What a call adds is `Part`: every commit that it pairs is covered, which means that it is paired
with its first parent and that the branches of its other parents have been seen; and for every
branch it has seen there is the pair of the merge and the parent. The commit of the call itself
is left open, to be covered by its caller.
-/

open Framework
open Framework.Fuel

namespace CompareVI.History

/-! ### git -/

structure MergeGit extends Git where
  /-- `Get-MergeBase`. -/
  mergeBase : (a b : String) → Option String
  /-- `rev-list head ^exclude -- path`, newest first. -/
  branchCommits : (path head : String) → (exclude : Option String) → List String
  mergeBase_isCommit : ∀ a b c, mergeBase a b = some c → isCommit c = true
  /-- `rev-list` lists ancestors of the head, and the head. -/
  branchCommits_ancestor : ∀ path head exclude c, isCommit head = true →
    c ∈ branchCommits path head exclude → isCommit c = true ∧ depth c ≤ depth head

/-! ### `Get-MergeParentPlan` -/

/-- The arguments of `Get-MergeParentPlan`. -/
structure BranchCall where
  mergeCommit : String
  firstParent : String
  branchParent : String
  parentIndex : ℕ
  parentCount : ℕ
  rootMerge : String
  deriving DecidableEq, Repr

def branchKey (mergeCommit branchParent : String) (parentIndex : ℕ) : String :=
  mergeCommit ++ "|" ++ branchParent ++ "|" ++ toString parentIndex

def isSeen (seen : List String) (key : String) : Bool := seen.any (PsString.equalsIgnoreCase key)

/-- The entry of a commit of the branch, or (`merge-parent`, at depth 0) of the merge. -/
def branchSpec (endRef : Option String) (call : BranchCall) (type head base : String)
    (depth : ℕ) : PlanEntry :=
  let stopAfter := isEndRef endRef base
  { head := some head
    base := some base
    lineage := some {
      type := type, parentIndex := call.parentIndex, parentCount := call.parentCount
      mergeCommit := call.mergeCommit, rootMerge := call.rootMerge
      branchHead := some call.branchParent, depth := depth }
    stopAfter := stopAfter
    stopAfterReason := if stopAfter then some .reachedEndRef else none }

abbrev PlanState := List PlanEntry × List String

def furtherCalls (git : Git) (commit firstParent rootMerge : String) : List BranchCall :=
  ((((git.parents commit).zipIdx 1).drop 1).filter fun parent =>
      !PsString.isNullOrWhiteSpace (some parent.1)).map fun parent =>
    ⟨commit, firstParent, parent.1, parent.2, (git.parents commit).length, rootMerge⟩

/-- The loop over the further parents of a commit: one call after the other, and `add` for each
entry it returns. -/
def visitParents (add : List PlanEntry → PlanEntry → List PlanEntry)
    (getPlan : BranchCall → List String → Option PlanState) (calls : List BranchCall)
    (s : PlanState) : Option PlanState :=
  calls.foldlM (fun s call =>
    (getPlan call s.2).map fun nested => (nested.1.foldl add s.1, nested.2)) s

/-- `$plan.Add`. -/
def append (plan : List PlanEntry) (spec : PlanEntry) : List PlanEntry := plan ++ [spec]

section Plan

variable (git : MergeGit) (endRef : Option String) (path : String)

/-- The body of the loop over the commits of the branch. -/
def visitCommit (getPlan : BranchCall → List String → Option PlanState) (call : BranchCall)
    (mergeBase : Option String) (count : ℕ) (s : PlanState) (entry : String × ℕ) :
    Option PlanState :=
  let parents := git.parents entry.1
  let baseCommit := parents.head?.or mergeBase
  match baseCommit with
  | none => some s
  | some base =>
    if PsString.isNullOrWhiteSpace (some base) then some s
    else
      let plan := append s.1
        (branchSpec endRef call "merge-branch" entry.1 base (count - entry.2))
      if parents.length > 1 then
        visitParents append getPlan (furtherCalls git.toGit entry.1 base call.rootMerge)
          (plan, s.2)
      else some (plan, s.2)

def branchList (call : BranchCall) : List String :=
  (((git.branchCommits path call.branchParent
    (git.mergeBase call.branchParent call.firstParent)).map PsString.trim).filter fun commit =>
      !PsString.isNullOrWhiteSpace (some commit)).reverse

/-- `Get-MergeParentPlan`, which is only called with `IncludeMergeParents`. -/
def getMergeParentPlan : ℕ → BranchCall → List String → Option PlanState
  | 0, _, _ => none
  | fuel + 1, call, seen =>
    let key := branchKey call.mergeCommit call.branchParent call.parentIndex
    if isSeen seen key then some ([], seen)
    else
      let commits := branchList git path call
      (commits.zipIdx.foldlM (visitCommit git endRef (getMergeParentPlan fuel) call
        (git.mergeBase call.branchParent call.firstParent) commits.length)
        ([], seen ++ [key])).map fun s =>
          (append s.1
            (branchSpec endRef call "merge-parent" call.mergeCommit call.branchParent 0), s.2)

/-! ### `Build-ComparisonPlan` -/

def extendMainlineWithin : (fuel index : ℕ) → List String → Option (List String)
  | 0, _, _ => none
  | fuel + 1, index, list =>
    match list[index]? with
    | none => some list
    | some current =>
      match git.firstParent current with
      | none => extendMainlineWithin fuel (index + 1) list
      | some firstParent =>
        let list := addDistinct list firstParent
        if isEndRef endRef firstParent then some list
        else extendMainlineWithin fuel (index + 1) list

/-- The loop over the mainline with `IncludeMergeParents`; `add` is `Add-Spec`. -/
def buildMergeSpecs (add : List PlanEntry → PlanEntry → List PlanEntry)
    (getPlan : BranchCall → List String → Option PlanState) (s : PlanState) :
    List String → Option PlanResult
  | [] => some ⟨s.1, none⟩
  | rawHead :: rest =>
    let head := PsString.trim rawHead
    if head = "" then buildMergeSpecs add getPlan s rest
    else if isEndRef endRef head then some ⟨s.1, some .reachedEndRef⟩
    else
      match git.parents head with
      | [] => some ⟨s.1, some .reachedRoot⟩
      | firstParent :: others =>
        let plan := add s.1 (mainlineSpec endRef (firstParent :: others).length head firstParent)
        (visitParents add getPlan (furtherCalls git.toGit head firstParent head)
          (plan, s.2)).bind fun s =>
            if isEndRef endRef firstParent then some ⟨s.1, none⟩
            else buildMergeSpecs add getPlan s rest

/-- `Build-ComparisonPlan` with `IncludeMergeParents`. -/
def buildMergePlan (fuel : ℕ) (commits : List String) : Option PlanResult :=
  (extendMainlineWithin git endRef fuel 0 (mainlineList commits)).bind fun list =>
    buildMergeSpecs git endRef addSpec (getMergeParentPlan git endRef path fuel) ([], []) list

end Plan

/-! ### Termination -/

section Settles

variable {git : MergeGit} {endRef : Option String} {path : String} {call : BranchCall}

theorem mem_branchList {c : String} (hbranch : git.isCommit call.branchParent = true)
    (hc : c ∈ branchList git path call) :
    git.isCommit c = true ∧ git.depth c ≤ git.depth call.branchParent := by
  obtain ⟨hmem, -⟩ := List.mem_filter.mp (List.mem_reverse.mp hc)
  obtain ⟨raw, hraw, rfl⟩ := List.mem_map.mp hmem
  obtain ⟨hcommit, hdepth⟩ := git.branchCommits_ancestor _ _ _ raw hbranch hraw
  rw [(isFullHash_trim (git.isFullHash raw hcommit)).1]
  exact ⟨hcommit, hdepth⟩

theorem mem_furtherCalls {c firstParent root : String} {next : BranchCall}
    (h : next ∈ furtherCalls git.toGit c firstParent root) :
    next.mergeCommit = c ∧ next.firstParent = firstParent ∧
      next.branchParent ∈ git.parents c := by
  obtain ⟨⟨parent, i⟩, hmem, rfl⟩ := List.mem_map.mp h
  have hzip := List.mem_of_mem_drop (List.mem_filter.mp hmem).1
  exact ⟨rfl, rfl, List.fst_mem_of_mem_zipIdx hzip⟩

variable {add : List PlanEntry → PlanEntry → List PlanEntry} {list : List String} {n : ℕ}

theorem visitParents_settles {getPlan : ℕ → BranchCall → List String → Option PlanState}
    {calls : List BranchCall}
    (h : ∀ next ∈ calls, ∀ seen, Settles (fun fuel => getPlan fuel next seen) n) (s : PlanState) :
    Settles (fun fuel => visitParents add (getPlan fuel) calls s) n :=
  Settles.foldlM (fun next hnext s => (h next hnext s.2).map _) s

theorem visitCommit_settles {getPlan : ℕ → BranchCall → List String → Option PlanState}
    {entry : String × ℕ} (h : ∀ next, next.branchParent ∈ git.parents entry.1 → ∀ seen,
      Settles (fun fuel => getPlan fuel next seen) n) (mergeBase : Option String) (count : ℕ)
    (s : PlanState) :
    Settles (fun fuel => visitCommit git endRef (getPlan fuel) call mergeBase count s entry) n := by
  unfold visitCommit
  dsimp only
  cases (git.parents entry.1).head?.or mergeBase with
  | none => exact Settles.const _ n
  | some base =>
    dsimp only
    split
    · exact Settles.const _ n
    · split
      · refine visitParents_settles (fun next hnext => ?_) _
        exact h next (mem_furtherCalls hnext).2.2
      · exact Settles.const _ n

/-- **A call returns**: its nested calls are about parents of commits of its branch. -/
theorem getMergeParentPlan_settles (n : ℕ) (hbranch : git.isCommit call.branchParent = true)
    (hdepth : git.depth call.branchParent ≤ n) (seen : List String) :
    Settles (fun fuel => getMergeParentPlan git endRef path fuel call seen) (n + 1) := by
  induction n using Nat.strong_induction_on generalizing call seen with
  | _ n ih =>
    refine Settles.succ ?_
    simp only [getMergeParentPlan]
    split
    · exact Settles.const _ n
    · refine Settles.map _ (Settles.foldlM (fun entry hentry s => ?_) _)
      obtain ⟨hcommit, hle⟩ := mem_branchList hbranch (List.fst_mem_of_mem_zipIdx hentry)
      refine visitCommit_settles (fun next hnext seen => ?_) _ _ s
      obtain ⟨hparent, hlt⟩ := git.parent entry.1 next.branchParent hcommit hnext
      have hn : git.depth next.branchParent < n := hlt.trans_le (hle.trans hdepth)
      exact (ih _ hn hparent le_rfl seen).mono hn

theorem addDistinct_cases (list : List String) (c : String) :
    addDistinct list c = list ∨ addDistinct list c = list ++ [c] := by
  unfold addDistinct
  split
  · exact .inl rfl
  · exact .inr rfl

theorem isCommit_addDistinct {c : String} (hlist : ∀ x ∈ list, git.isCommit x = true)
    (hc : git.isCommit c = true) :
    ∀ x ∈ addDistinct list c, git.isCommit x = true := by
  intro x hx
  rcases addDistinct_cases list c with h | h <;> rw [h] at hx
  · exact hlist x hx
  · rcases List.mem_append.mp hx with hx | hx
    · exact hlist x hx
    · exact List.mem_singleton.mp hx ▸ hc

def remaining (git : Git) (index : ℕ) (list : List String) : ℕ :=
  ((list.drop index).map fun c => git.depth c + 1).sum

theorem remaining_addDistinct_le (git : Git) (index : ℕ) (list : List String) (c : String) :
    remaining git index (addDistinct list c) ≤ remaining git index list + (git.depth c + 1) := by
  unfold remaining
  rcases addDistinct_cases list c with h | h <;> rw [h]
  · exact Nat.le_add_right _ _
  · rw [List.drop_append, List.map_append, List.sum_append]
    refine Nat.add_le_add_left ?_ _
    cases index - list.length with
    | zero => rw [List.drop_zero, List.map_singleton, List.sum_singleton]
    | succ k =>
      rw [List.drop_succ_cons, List.drop_nil]
      exact Nat.zero_le _

/-- **The loop over the mainline returns**: a first parent is less deep than the commit it is
appended for. -/
theorem extendMainlineWithin_settles (n index : ℕ) (list : List String)
    (hlist : ∀ c ∈ list, git.isCommit c = true) (hn : remaining git.toGit index list ≤ n) :
    Settles (fun fuel => extendMainlineWithin git endRef fuel index list) (n + 1) := by
  induction n using Nat.strong_induction_on generalizing index list with
  | _ n ih =>
    refine Settles.succ ?_
    simp only [extendMainlineWithin]
    cases hcurrent : list[index]? with
    | none => exact Settles.const _ n
    | some current =>
      obtain ⟨hindex, hget⟩ := List.getElem?_eq_some_iff.mp hcurrent
      have hsplit : remaining git.toGit index list =
          git.depth current + 1 + remaining git.toGit (index + 1) list := by
        rw [remaining, List.drop_eq_getElem_cons hindex, hget, List.map_cons, List.sum_cons]
        rfl
      dsimp only
      cases hparent : git.firstParent current with
      | none =>
        have hlt : remaining git.toGit (index + 1) list < n := by omega
        exact (ih _ hlt (index + 1) list hlist le_rfl).mono hlt
      | some p =>
        have hmem := hlist current (List.mem_of_getElem? hcurrent)
        obtain ⟨hp, hdepth⟩ := git.parent current p hmem (Git.firstParent_mem hparent)
        dsimp only
        split
        · exact Settles.const _ n
        · have hle := remaining_addDistinct_le git.toGit (index + 1) list p
          have hlt : remaining git.toGit (index + 1) (addDistinct list p) < n := by omega
          exact (ih _ hlt (index + 1) _ (isCommit_addDistinct hlist hp) le_rfl).mono hlt

theorem buildMergeSpecs_settles (hlist : ∀ c ∈ list, git.isCommit c = true)
    (hn : ∀ c ∈ list, git.depth c ≤ n) (s : PlanState) :
    Settles (fun fuel => buildMergeSpecs git endRef add
      (getMergeParentPlan git endRef path fuel) s list) n := by
  induction list generalizing s with
  | nil => exact Settles.const _ n
  | cons c list ih =>
    have hrest := ih (fun d hd => hlist d (List.mem_cons_of_mem c hd))
      fun d hd => hn d (List.mem_cons_of_mem c hd)
    have hc := hlist c List.mem_cons_self
    obtain ⟨htrim, -⟩ := isFullHash_trim (git.isFullHash c hc)
    unfold buildMergeSpecs
    simp only [htrim]
    split
    · exact hrest s
    · split
      · exact Settles.const _ n
      · cases hparents : git.parents c with
        | nil => exact Settles.const _ n
        | cons p others =>
          refine Settles.bind (visitParents_settles (fun next hnext seen => ?_) _) fun s _ => ?_
          · obtain ⟨hparent, hlt⟩ := git.parent c next.branchParent hc (mem_furtherCalls hnext).2.2
            have hle := hlt.trans_le (hn c List.mem_cons_self)
            exact (getMergeParentPlan_settles _ hparent le_rfl seen).mono hle
          · split
            · exact Settles.const _ n
            · exact hrest s

end Settles

/-! ### Keys -/

section Keys

theorem toLower_eq_bar {c : Char} (h : c.toLower = '|') : c = '|' := by
  unfold Char.toLower at h
  split at h
  · next hupper =>
    -- a lower-case letter comes before the bar
    have hval : c.val + ('a'.val - 'A'.val) = '|'.val := congrArg Char.val h
    have hle : c.val.toNat ≤ 90 := hupper.2
    have hsum := congrArg UInt32.toNat hval
    rw [UInt32.toNat_add] at hsum
    have hshift : (('a'.val - 'A'.val : UInt32)).toNat = 32 := rfl
    have hbar : ('|'.val : UInt32).toNat = 124 := rfl
    omega
  · exact h

theorem bar_notMem {c : String} (h : isFullHash c = true) : '|' ∉ c.toList.map Char.toLower := by
  intro hmem
  obtain ⟨x, hx, hbar⟩ := List.mem_map.mp hmem
  rw [isFullHash, Bool.and_eq_true] at h
  have hhex := List.all_eq_true.mp h.2 x hx
  rw [toLower_eq_bar hbar] at hhex
  exact absurd hhex (by decide)

theorem bar_inj {u u' v v' : List Char} (hu : '|' ∉ u) (hu' : '|' ∉ u')
    (h : u ++ '|' :: v = u' ++ '|' :: v') : u = u' ∧ v = v' := by
  induction u generalizing u' with
  | nil =>
    cases u' with
    | nil => exact ⟨rfl, (List.cons.inj h).2⟩
    | cons y u' => exact absurd ((List.cons.inj h).1 ▸ List.mem_cons_self) hu'
  | cons x u ih =>
    cases u' with
    | nil => exact absurd ((List.cons.inj h).1 ▸ List.mem_cons_self) hu
    | cons y u' =>
      obtain ⟨rfl, htail⟩ := List.cons.inj h
      obtain ⟨rfl, rfl⟩ := ih (fun hx => hu (List.mem_cons_of_mem x hx))
        (fun hx => hu' (List.mem_cons_of_mem x hx)) htail
      exact ⟨rfl, rfl⟩

theorem toLower_key (a b rest : String) :
    (PsString.toLowerInvariant (a ++ "|" ++ b ++ "|" ++ rest)).toList =
      a.toList.map Char.toLower ++ '|' :: (b.toList.map Char.toLower ++
        '|' :: rest.toList.map Char.toLower) := by
  have hbar : ("|" : String).toList = ['|'] := rfl
  have hlower : ('|' : Char).toLower = '|' := rfl
  simp only [PsString.toLowerInvariant, String.toList_ofList, String.toList_append, List.map_append,
    hbar, List.map_cons, hlower, List.append_assoc, List.cons_append,
    List.nil_append]

variable {git : Git}

theorem eq_of_equalsIgnoreCase {c d : String} (hc : git.isCommit c = true)
    (hd : git.isCommit d = true) (h : PsString.equalsIgnoreCase c d = true) : c = d := by
  have hself : PsString.equalsIgnoreCase d d = true := PsString.equalsIgnoreCase_iff.mpr rfl
  exact Option.some.inj ((git.resolve_hash d c hc h).symm.trans (git.resolve_hash d d hd hself))

/-- **Keys.** Two keys that begin with two commits each are the same, up to case, only for the
same commits. -/
theorem key_inj {a a' b b' rest rest' : String} (ha : git.isCommit a = true)
    (ha' : git.isCommit a' = true) (hb : git.isCommit b = true) (hb' : git.isCommit b' = true)
    (h : PsString.equalsIgnoreCase (a ++ "|" ++ b ++ "|" ++ rest)
      (a' ++ "|" ++ b' ++ "|" ++ rest') = true) : a = a' ∧ b = b' := by
  have hlists := congrArg String.toList (PsString.equalsIgnoreCase_iff.mp h)
  rw [toLower_key, toLower_key] at hlists
  obtain ⟨haa, htail⟩ := bar_inj (bar_notMem (git.isFullHash a ha))
    (bar_notMem (git.isFullHash a' ha')) hlists
  obtain ⟨hbb, -⟩ := bar_inj (bar_notMem (git.isFullHash b hb))
    (bar_notMem (git.isFullHash b' hb')) htail
  constructor
  · refine eq_of_equalsIgnoreCase ha ha' (PsString.equalsIgnoreCase_iff.mpr ?_)
    exact congrArg String.ofList haa
  · refine eq_of_equalsIgnoreCase hb hb' (PsString.equalsIgnoreCase_iff.mpr ?_)
    exact congrArg String.ofList hbb

theorem addSpec_key (head base : String) :
    head ++ "|" ++ base ++ "|0||0" = head ++ "|" ++ base ++ "|" ++ "0||0" := by
  have hrest : "|0||0" = "|" ++ "0||0" := rfl
  rw [hrest, ← String.append_assoc]

end Keys

/-! ### What a call adds -/

def HasPair (plan : List PlanEntry) (head base : String) : Prop :=
  ∃ e ∈ plan, e.head = some head ∧ e.base = some base

/-- The entry pairs a commit with one of its parents, or a root with the merge base of the
branch that its lineage names. -/
def GoodBase (git : MergeGit) (e : PlanEntry) : Prop :=
  ∃ head base, e.head = some head ∧ e.base = some base ∧ git.isCommit head = true ∧
    git.isCommit base = true ∧ (base ∈ git.parents head ∨ git.parents head = [] ∧
      ∃ l branchHead firstParent, e.lineage = some l ∧ l.branchHead = some branchHead ∧
        git.firstParent l.mergeCommit = some firstParent ∧
          git.mergeBase branchHead firstParent = some base)

/-- The key is that of a branch whose pair is in the plan. -/
def KeyFor (git : MergeGit) (plan : List PlanEntry) (key : String) : Prop :=
  ∃ merge parent index, git.isCommit merge = true ∧ git.isCommit parent = true ∧
    key = branchKey merge parent index ∧ HasPair plan merge parent

/-- The commit is paired with its first parent, and the branches of its other parents have been
seen. -/
def Covered (git : MergeGit) (plan : List PlanEntry) (seen : List String) (head : String) :
    Prop :=
  ∀ firstParent others, git.parents head = firstParent :: others →
    HasPair plan head firstParent ∧
      ∀ parent index, (parent, index) ∈ ((git.parents head).zipIdx 1).drop 1 →
        isSeen seen (branchKey head parent index) = true

/-- The entries `plan` and the branches `seen'` that follow after `seen`. All commits but the
open ones are covered. -/
structure Part (git : MergeGit) (opened : List String) (seen : List String)
    (plan : List PlanEntry) (seen' : List String) : Prop where
  grows : seen ⊆ seen'
  keys : ∀ key ∈ seen', key ∈ seen ∨ KeyFor git plan key
  bases : ∀ e ∈ plan, GoodBase git e
  heads : ∀ e ∈ plan, ∀ head, e.head = some head → head ∈ opened ∨ Covered git plan seen' head

section Part

variable {git : MergeGit} {endRef : Option String} {path : String} {call : BranchCall}
  {opened opened' seen seen' seen'' : List String} {plan plan' : List PlanEntry}

variable {getPlan : BranchCall → List String → Option PlanState} {s t : PlanState}
  {base c head : String}

theorem HasPair.mono (h : HasPair plan head base) (hsub : plan ⊆ plan') :
    HasPair plan' head base := by
  obtain ⟨e, he, hpair⟩ := h
  exact ⟨e, hsub he, hpair⟩

variable {e : PlanEntry} {firstParent key root : String}

theorem KeyFor.mono (h : KeyFor git plan key) (hsub : plan ⊆ plan') :
    KeyFor git plan' key := by
  obtain ⟨merge, parent, index, hmerge, hparent, hkey, hpair⟩ := h
  exact ⟨merge, parent, index, hmerge, hparent, hkey, hpair.mono hsub⟩

theorem isSeen_mono (h : isSeen seen key = true) (hsub : seen ⊆ seen') :
    isSeen seen' key = true := by
  obtain ⟨other, hother, heq⟩ := List.any_eq_true.mp h
  exact List.any_eq_true.mpr ⟨other, hsub hother, heq⟩

theorem Covered.mono (h : Covered git plan seen head) (hplan : plan ⊆ plan')
    (hseen : seen ⊆ seen') : Covered git plan' seen' head := by
  intro firstParent others hparents
  obtain ⟨hpair, hnext⟩ := h firstParent others hparents
  exact ⟨hpair.mono hplan, fun parent index h => isSeen_mono (hnext parent index h) hseen⟩

theorem Part.refl (seen : List String) : Part git [] seen [] seen where
  grows := List.Subset.refl seen
  keys _ hkey := .inl hkey
  bases _ he := absurd he List.not_mem_nil
  heads _ he := absurd he List.not_mem_nil

theorem Part.trans (h : Part git opened seen plan seen')
    (h' : Part git opened' seen' plan' seen'') :
    Part git (opened ++ opened') seen (plan ++ plan') seen'' where
  grows := fun _ hkey => h'.grows (h.grows hkey)
  keys key hkey := by
    rcases h'.keys key hkey with hkey | hfor
    · rcases h.keys key hkey with hkey | hfor
      · exact .inl hkey
      · exact .inr (hfor.mono (List.subset_append_left _ _))
    · exact .inr (hfor.mono (List.subset_append_right _ _))
  bases e he := (List.mem_append.mp he).elim (h.bases e) (h'.bases e)
  heads e he head hhead := by
    rcases List.mem_append.mp he with he | he
    · rcases h.heads e he head hhead with hopen | hcovered
      · exact .inl (List.mem_append_left _ hopen)
      · exact .inr (hcovered.mono (List.subset_append_left _ _) h'.grows)
    · rcases h'.heads e he head hhead with hopen | hcovered
      · exact .inl (List.mem_append_right _ hopen)
      · exact .inr (hcovered.mono (List.subset_append_right _ _) (List.Subset.refl _))

theorem Part.weaken (h : Part git opened seen plan seen') (hsub : opened ⊆ opened') :
    Part git opened' seen plan seen' where
  grows := h.grows
  keys := h.keys
  bases := h.bases
  heads e he head hhead := (h.heads e he head hhead).imp_left fun hopen => hsub hopen

theorem Part.close (h : Part git opened seen plan seen')
    (hcovered : ∀ head ∈ opened, Covered git plan seen' head) : Part git [] seen plan seen' where
  grows := h.grows
  keys := h.keys
  bases := h.bases
  heads e he head hhead :=
    .inr ((h.heads e he head hhead).elim (hcovered head) id)

theorem Part.entry (hbase : GoodBase git e) (hhead : e.head = some head) (seen : List String) :
    Part git [head] seen [e] seen where
  grows := List.Subset.refl seen
  keys _ hkey := .inl hkey
  bases _ he := List.mem_singleton.mp he ▸ hbase
  heads f hf head' hhead' := by
    obtain rfl := List.mem_singleton.mp hf
    obtain rfl := Option.some.inj (hhead.symm.trans hhead')
    exact .inl (List.mem_singleton_self head)

/-- The arguments belong together. -/
structure CallOk (git : MergeGit) (call : BranchCall) : Prop where
  merge : git.isCommit call.mergeCommit = true
  first : git.firstParent call.mergeCommit = some call.firstParent
  branch : call.branchParent ∈ git.parents call.mergeCommit

def Returns (git : MergeGit) (getPlan : BranchCall → List String → Option PlanState) : Prop :=
  ∀ call seen r, CallOk git call → getPlan call seen = some r →
    Part git [call.mergeCommit] seen r.1 r.2 ∧
      isSeen r.2 (branchKey call.mergeCommit call.branchParent call.parentIndex) = true

theorem foldl_append (plan specs : List PlanEntry) : specs.foldl append plan = plan ++ specs := by
  induction specs generalizing plan with
  | nil => exact (List.append_nil plan).symm
  | cons spec specs ih => rw [List.foldl_cons, ih, append, List.append_assoc]; rfl

theorem visitParents_part (hget : Returns git getPlan) {calls : List BranchCall}
    (hcalls : ∀ next ∈ calls, CallOk git next ∧ next.mergeCommit = head)
    (h : visitParents append getPlan calls s = some t) :
    ∃ new, t.1 = s.1 ++ new ∧ Part git [head] s.2 new t.2 ∧ ∀ next ∈ calls,
      isSeen t.2 (branchKey head next.branchParent next.parentIndex) = true := by
  induction calls generalizing s with
  | nil =>
    obtain rfl := Option.some.inj h
    refine ⟨[], (List.append_nil _).symm, (Part.refl _).weaken (List.nil_subset _), ?_⟩
    exact List.forall_mem_nil _
  | cons call calls ih =>
    rw [visitParents, List.foldlM_cons] at h
    obtain ⟨u, hu, hrest⟩ := Option.bind_eq_some_iff.mp h
    obtain ⟨r, hr, rfl⟩ := Option.map_eq_some_iff.mp hu
    obtain ⟨hok, rfl⟩ := hcalls call List.mem_cons_self
    obtain ⟨hpart, hown⟩ := hget call s.2 r hok hr
    obtain ⟨new, hnew, hpart', hseen⟩ :=
      ih (fun next hnext => hcalls next (List.mem_cons_of_mem call hnext)) hrest
    refine ⟨r.1 ++ new, ?_, (hpart.trans hpart').weaken ?_, fun next hnext => ?_⟩
    · rw [hnew, foldl_append, List.append_assoc]
    · exact fun head hhead => (List.mem_append.mp hhead).elim id id
    · rcases List.mem_cons.mp hnext with rfl | hnext
      · exact isSeen_mono hown hpart'.grows
      · exact hseen next hnext

theorem callOk_of_furtherCalls {next : BranchCall} (hc : git.isCommit c = true)
    (hfirst : git.firstParent c = some firstParent)
    (h : next ∈ furtherCalls git.toGit c firstParent root) :
    CallOk git next ∧ next.mergeCommit = c := by
  obtain ⟨hmerge, hparent, hbranch⟩ := mem_furtherCalls h
  refine ⟨⟨?_, ?_, ?_⟩, hmerge⟩
  · rw [hmerge]
    exact hc
  · rw [hmerge, hparent]
    exact hfirst
  · rw [hmerge]
    exact hbranch

theorem covered_of_calls (hc : git.isCommit c = true)
    (hfirst : git.firstParent c = some firstParent) (hpair : HasPair plan c firstParent)
    (hcalls : ∀ next ∈ furtherCalls git.toGit c firstParent root,
      isSeen seen (branchKey c next.branchParent next.parentIndex) = true) :
    Covered git plan seen c := by
  intro first others hparents
  have hsame : first = firstParent := by
    rw [Git.firstParent, hparents, List.head?_cons] at hfirst
    exact Option.some.inj hfirst
  refine ⟨hsame ▸ hpair, fun parent index hmem => ?_⟩
  have hparent := List.fst_mem_of_mem_zipIdx (List.mem_of_mem_drop hmem)
  have hblank := (isFullHash_trim (git.isFullHash parent (git.parent c parent hc hparent).1)).2.2
  refine hcalls ⟨c, firstParent, parent, index, (git.parents c).length, root⟩ ?_
  refine List.mem_map.mpr ⟨(parent, index), List.mem_filter.mpr ⟨hmem, ?_⟩, rfl⟩
  rw [hblank]
  rfl

theorem hasPair_self (hhead : e.head = some head) (hbase : e.base = some base) (he : e ∈ plan) :
    HasPair plan head base :=
  ⟨e, he, hhead, hbase⟩

theorem goodBase_branch (hok : CallOk git call) (hc : git.isCommit c = true)
    (hbase : (git.parents c).head?.or (git.mergeBase call.branchParent call.firstParent) =
      some base) (type : String) (depth : ℕ) :
    GoodBase git (branchSpec endRef call type c base depth) := by
  cases hparents : git.parents c with
  | cons first others =>
    rw [hparents] at hbase
    obtain rfl : first = base := Option.some.inj hbase
    have hmem : first ∈ git.parents c := hparents ▸ List.mem_cons_self
    exact ⟨c, first, rfl, rfl, hc, (git.parent c first hc hmem).1, .inl hmem⟩
  | nil =>
    rw [hparents, List.head?_nil, Option.none_or] at hbase
    exact ⟨c, base, rfl, rfl, hc, git.mergeBase_isCommit _ _ _ hbase, .inr ⟨hparents, _,
      call.branchParent, call.firstParent, rfl, rfl, hok.first, hbase⟩⟩

theorem visitCommit_part (hget : Returns git getPlan) (hok : CallOk git call) {count : ℕ}
    {entry : String × ℕ} (hc : git.isCommit entry.1 = true)
    (h : visitCommit git endRef getPlan call
      (git.mergeBase call.branchParent call.firstParent) count s entry = some t) :
    ∃ new, t.1 = s.1 ++ new ∧ Part git [] s.2 new t.2 := by
  unfold visitCommit at h
  dsimp only at h
  cases hbase : (git.parents entry.1).head?.or
    (git.mergeBase call.branchParent call.firstParent) with
  | none =>
    rw [hbase] at h
    obtain rfl := Option.some.inj h
    exact ⟨[], (List.append_nil _).symm, Part.refl _⟩
  | some base =>
    rw [hbase] at h
    dsimp only at h
    split at h
    · obtain rfl := Option.some.inj h
      exact ⟨[], (List.append_nil _).symm, Part.refl _⟩
    · have hgood : GoodBase git (branchSpec endRef call "merge-branch" entry.1 base
          (count - entry.2)) := goodBase_branch hok hc hbase _ _
      generalize hspec : branchSpec endRef call "merge-branch" entry.1 base (count - entry.2) = spec
        at h hgood
      have hhead : spec.head = some entry.1 := hspec ▸ rfl
      have hbase' : spec.base = some base := hspec ▸ rfl
      have hentry := Part.entry hgood hhead s.2
      split at h
      · next hmerge =>
        have hfirst : git.firstParent entry.1 = some base := by
          cases hparents : git.parents entry.1 with
          | nil => rw [hparents] at hmerge; exact absurd hmerge (by decide)
          | cons first others =>
            rw [hparents] at hbase
            rw [Git.firstParent, hparents]
            exact hbase
        obtain ⟨new, hnew, hpart, hseen⟩ :=
          visitParents_part hget (fun next hnext => callOk_of_furtherCalls hc hfirst hnext) h
        refine ⟨[spec] ++ new, ?_, (hentry.trans hpart).close fun head hopen => ?_⟩
        · rw [hnew, append, List.append_assoc]
        · obtain rfl : head = entry.1 := by simpa using hopen
          refine covered_of_calls hc hfirst ?_ hseen
          exact hasPair_self hhead hbase' (List.mem_append_left _ (List.mem_singleton_self _))
      · next hsingle =>
        obtain rfl := Option.some.inj h
        refine ⟨[spec], rfl, hentry.close fun head hopen => ?_⟩
        obtain rfl := List.mem_singleton.mp hopen
        -- a commit with one parent has no other branches
        intro first others hparents
        rw [hparents] at hbase hsingle
        obtain rfl : first = base := Option.some.inj hbase
        refine ⟨hasPair_self hhead hbase' (List.mem_singleton_self _), fun parent index hmem => ?_⟩
        obtain rfl : others = [] := by
          cases others with
          | nil => rfl
          | cons _ _ => exact absurd (Nat.succ_lt_succ (Nat.succ_pos _)) hsingle
        rw [hparents] at hmem
        cases hmem

theorem foldlM_part {body : PlanState → String × ℕ → Option PlanState}
    {entries : List (String × ℕ)} (hbody : ∀ entry ∈ entries, ∀ s t, body s entry = some t →
      ∃ new, t.1 = s.1 ++ new ∧ Part git [] s.2 new t.2) (h : entries.foldlM body s = some t) :
    ∃ new, t.1 = s.1 ++ new ∧ Part git [] s.2 new t.2 := by
  induction entries generalizing s with
  | nil =>
    obtain rfl := Option.some.inj h
    exact ⟨[], (List.append_nil _).symm, Part.refl _⟩
  | cons entry entries ih =>
    rw [List.foldlM_cons] at h
    obtain ⟨u, hu, hrest⟩ := Option.bind_eq_some_iff.mp h
    obtain ⟨new, hnew, hpart⟩ := hbody entry List.mem_cons_self s u hu
    obtain ⟨new', hnew', hpart'⟩ :=
      ih (fun e he => hbody e (List.mem_cons_of_mem entry he)) hrest
    exact ⟨new ++ new', by rw [hnew', hnew, List.append_assoc], hpart.trans hpart'⟩

/-- **A call** covers every commit it pairs but its own merge, and sees its branch. -/
theorem getMergeParentPlan_returns (fuel : ℕ) :
    Returns git (getMergeParentPlan git endRef path fuel) := by
  induction fuel with
  | zero => exact fun call seen r _ h => nomatch h
  | succ fuel ih =>
    intro call seen r hok h
    simp only [getMergeParentPlan] at h
    have hbranch := (git.parent _ _ hok.merge hok.branch).1
    split at h
    · next hseen =>
      obtain rfl := Option.some.inj h
      exact ⟨(Part.refl seen).weaken (List.nil_subset _), hseen⟩
    · obtain ⟨s, hs, rfl⟩ := Option.map_eq_some_iff.mp h
      obtain ⟨new, hnew, hpart⟩ := foldlM_part (fun entry hentry s t hst =>
        visitCommit_part ih hok (mem_branchList hbranch
          (List.fst_mem_of_mem_zipIdx hentry)).1 hst) hs
      have hgood : GoodBase git (branchSpec endRef call "merge-parent" call.mergeCommit
          call.branchParent 0) :=
        ⟨call.mergeCommit, call.branchParent, rfl, rfl, hok.merge, hbranch, .inl hok.branch⟩
      rw [List.nil_append] at hnew
      have hlast := hpart.trans (Part.entry hgood rfl s.2)
      have hself : HasPair (new ++ [branchSpec endRef call "merge-parent" call.mergeCommit
          call.branchParent 0]) call.mergeCommit call.branchParent :=
        hasPair_self rfl rfl (List.mem_append_right _ (List.mem_singleton_self _))
      constructor
      · rw [append, hnew]
        refine ⟨fun key hkey => hlast.grows (List.mem_append_left _ hkey), fun key hkey => ?_,
          hlast.bases, hlast.heads⟩
        rcases hlast.keys key hkey with hkey | hfor
        · refine (List.mem_append.mp hkey).imp_right fun hkey => ?_
          obtain rfl := List.mem_singleton.mp hkey
          exact ⟨_, _, _, hok.merge, hbranch, rfl, hself⟩
        · exact .inr hfor
      · have hown := hlast.grows (List.mem_append_right seen (List.mem_singleton_self _))
        exact List.any_eq_true.mpr ⟨_, hown, PsString.equalsIgnoreCase_iff.mpr rfl⟩

theorem buildMergeSpecs_part (hget : Returns git getPlan) {list : List String} {r : PlanResult}
    (hlist : ∀ c ∈ list, git.isCommit c = true)
    (h : buildMergeSpecs git endRef append getPlan s list = some r) :
    ∃ new seen', r.plan = s.1 ++ new ∧ Part git [] s.2 new seen' := by
  induction list generalizing s with
  | nil =>
    obtain rfl := Option.some.inj h
    exact ⟨[], s.2, (List.append_nil _).symm, Part.refl _⟩
  | cons c list ih =>
    have hc := hlist c List.mem_cons_self
    have hrest := fun d hd => hlist d (List.mem_cons_of_mem c hd)
    obtain ⟨htrim, hne, -⟩ := isFullHash_trim (git.isFullHash c hc)
    unfold buildMergeSpecs at h
    simp only [htrim, if_neg hne] at h
    split at h
    · obtain rfl := Option.some.inj h
      exact ⟨[], s.2, (List.append_nil _).symm, Part.refl _⟩
    · cases hparents : git.parents c with
      | nil =>
        rw [hparents] at h
        obtain rfl := Option.some.inj h
        exact ⟨[], s.2, (List.append_nil _).symm, Part.refl _⟩
      | cons first others =>
        rw [hparents] at h
        obtain ⟨u, hu, h⟩ := Option.bind_eq_some_iff.mp h
        have hfirst : git.firstParent c = some first := by rw [Git.firstParent, hparents]; rfl
        have hmem : first ∈ git.parents c := hparents ▸ List.mem_cons_self
        have hgood : GoodBase git (mainlineSpec endRef (first :: others).length c first) :=
          ⟨c, first, rfl, rfl, hc, (git.parent c first hc hmem).1, .inl hmem⟩
        obtain ⟨new, hnew, hpart, hseen⟩ :=
          visitParents_part hget (fun next hnext => callOk_of_furtherCalls hc hfirst hnext) hu
        have hclosed : Part git [] s.2 ([mainlineSpec endRef (first :: others).length c first] ++
            new) u.2 := by
          refine ((Part.entry hgood rfl s.2).trans hpart).close fun head hopen => ?_
          obtain rfl : head = c := by simpa using hopen
          refine covered_of_calls hc hfirst ?_ hseen
          exact hasPair_self rfl rfl (List.mem_append_left _ (List.mem_singleton_self _))
        have hplan : u.1 =
            s.1 ++ ([mainlineSpec endRef (first :: others).length c first] ++ new) := by
          rw [hnew, append, List.append_assoc]
        split at h
        · obtain rfl := Option.some.inj h
          exact ⟨_, u.2, hplan, hclosed⟩
        · obtain ⟨new', seen', hnew', hpart'⟩ := ih hrest h
          exact ⟨_, seen', by rw [hnew', hplan, List.append_assoc], hclosed.trans hpart'⟩

end Part

/-! ### `Add-Spec` -/

section AddSpec

variable {git : MergeGit} {endRef : Option String} {path : String} {plan log : List PlanEntry}
  {spec : PlanEntry}

/-- The entries that `Add-Spec` keeps of a list. -/
def kept (log : List PlanEntry) : List PlanEntry := log.foldl addSpec []

theorem kept_append (log specs : List PlanEntry) :
    kept (log ++ specs) = specs.foldl addSpec (kept log) :=
  List.foldl_append

theorem addSpec_cases (plan : List PlanEntry) (spec : PlanEntry) :
    addSpec plan spec = plan ∨ addSpec plan spec = plan ++ [spec] := by
  unfold addSpec
  dsimp only
  split
  · exact .inl rfl
  · split
    · exact .inl rfl
    · exact .inr rfl

theorem addSpec_of_goodBase {head base : String} (hhead : spec.head = some head)
    (hbase : spec.base = some base) (hhead' : git.isCommit head = true)
    (hbase' : git.isCommit base = true) (hplan : ∀ e ∈ plan, GoodBase git e) :
    (HasPair plan head base ∧ addSpec plan spec = plan) ∨
      (¬ HasPair plan head base ∧ addSpec plan spec = plan ++ [spec]) := by
  obtain ⟨-, -, hblank⟩ := isFullHash_trim (git.isFullHash head hhead')
  obtain ⟨-, -, hblank'⟩ := isFullHash_trim (git.isFullHash base hbase')
  unfold addSpec
  simp only [hhead, hbase, hblank, hblank', Bool.or_self, Bool.false_eq_true, if_false,
    Option.getD_some]
  -- an entry has the key exactly when it has the pair
  have hkey : (plan.any fun other => PsString.equalsIgnoreCase
      (other.head.getD "" ++ "|" ++ other.base.getD "" ++ "|0||0")
      (head ++ "|" ++ base ++ "|0||0")) = true ↔ HasPair plan head base := by
    rw [List.any_eq_true]
    constructor
    · rintro ⟨e, he, heq⟩
      obtain ⟨h, b, hh, hb, hhc, hbc, -⟩ := hplan e he
      rw [hh, hb, Option.getD_some, Option.getD_some, addSpec_key, addSpec_key] at heq
      obtain ⟨rfl, rfl⟩ := key_inj hhc hhead' hbc hbase' heq
      exact ⟨e, he, hh, hb⟩
    · rintro ⟨e, he, hh, hb⟩
      refine ⟨e, he, ?_⟩
      rw [hh, hb, Option.getD_some, Option.getD_some]
      exact PsString.equalsIgnoreCase_iff.mpr rfl
  by_cases hpair : HasPair plan head base
  · exact .inl ⟨hpair, if_pos (hkey.mpr hpair)⟩
  · exact .inr ⟨hpair, if_neg (mt hkey.mp hpair)⟩

theorem kept_spec (hlog : ∀ e ∈ log, GoodBase git e) :
    kept log ⊆ log ∧ (∀ head base, HasPair log head base → HasPair (kept log) head base) ∧
      ((kept log).map fun e => (e.head, e.base)).Nodup := by
  induction log using List.reverseRecOn with
  | nil => exact ⟨List.Subset.refl _, fun _ _ h => h, List.nodup_nil⟩
  | append_singleton log spec ih =>
    obtain ⟨hsub, hpairs, hnodup⟩ := ih fun e he => hlog e (List.mem_append_left _ he)
    obtain ⟨head, base, hhead, hbase, hhead', hbase', -⟩ :=
      hlog spec (List.mem_append_right _ (List.mem_singleton_self _))
    have hstep : kept (log ++ [spec]) = addSpec (kept log) spec := kept_append log [spec]
    have hkept : ∀ e ∈ kept log, GoodBase git e := fun e he =>
      hlog e (List.mem_append_left _ (hsub he))
    have hsplit : ∀ h b, HasPair (log ++ [spec]) h b →
        HasPair log h b ∨ h = head ∧ b = base := by
      rintro h b ⟨e, he, hh, hb⟩
      rcases List.mem_append.mp he with he | he
      · exact .inl ⟨e, he, hh, hb⟩
      · obtain rfl := List.mem_singleton.mp he
        exact .inr ⟨Option.some.inj (hh.symm.trans hhead), Option.some.inj (hb.symm.trans hbase)⟩
    rw [hstep]
    rcases addSpec_of_goodBase hhead hbase hhead' hbase' hkept with ⟨hhas, hadd⟩ | ⟨hnew, hadd⟩
    · rw [hadd]
      refine ⟨fun e he => List.mem_append_left _ (hsub he), fun h b hpair => ?_, hnodup⟩
      rcases hsplit h b hpair with hold | ⟨rfl, rfl⟩
      · exact hpairs h b hold
      · exact hhas
    · rw [hadd]
      refine ⟨fun e he => ?_, fun h b hpair => ?_, ?_⟩
      · rcases List.mem_append.mp he with he | he
        · exact List.mem_append_left _ (hsub he)
        · exact List.mem_append_right _ he
      · rcases hsplit h b hpair with hold | ⟨rfl, rfl⟩
        · exact (hpairs h b hold).mono (List.subset_append_left _ _)
        · exact ⟨spec, List.mem_append_right _ (List.mem_singleton_self _), hhead, hbase⟩
      · rw [List.map_append, List.nodup_append]
        refine ⟨hnodup, List.nodup_cons.mpr ⟨List.not_mem_nil, List.nodup_nil⟩, ?_⟩
        rintro pair hpair pair' hpair' rfl
        obtain ⟨e, he, rfl⟩ := List.mem_map.mp hpair
        have heq := List.mem_singleton.mp hpair'
        rw [Prod.mk.injEq] at heq
        exact hnew ⟨e, he, heq.1.trans hhead, heq.2.trans hbase⟩

theorem visitParents_kept (getPlan : BranchCall → List String → Option PlanState)
    (calls : List BranchCall) (s : PlanState) :
    visitParents addSpec getPlan calls (kept s.1, s.2) =
      (visitParents append getPlan calls s).map fun t => (kept t.1, t.2) := by
  induction calls generalizing s with
  | nil => rfl
  | cons call calls ih =>
    unfold visitParents at ih ⊢
    rw [List.foldlM_cons, List.foldlM_cons]
    cases hget : getPlan call s.2 with
    | none => rfl
    | some r =>
      have hr := ih (s.1 ++ r.1, r.2)
      rw [kept_append] at hr
      simp only [Option.map_some, Option.bind_eq_bind, Option.bind_some]
      rw [foldl_append s.1 r.1]
      exact hr

theorem buildMergeSpecs_kept (getPlan : BranchCall → List String → Option PlanState)
    (list : List String) (s : PlanState) :
    buildMergeSpecs git endRef addSpec getPlan (kept s.1, s.2) list =
      (buildMergeSpecs git endRef append getPlan s list).map fun r =>
        ⟨kept r.plan, r.terminalHint⟩ := by
  induction list generalizing s with
  | nil => rfl
  | cons c list ih =>
    unfold buildMergeSpecs
    dsimp only
    split
    · exact ih s
    · split
      · rfl
      · split
        · rfl
        · next first others _ =>
          have hadd : ∀ spec, addSpec (kept s.1) spec = kept (append s.1 spec) := fun spec =>
            (kept_append s.1 [spec]).symm
          rw [hadd, visitParents_kept getPlan _ (append s.1 _, s.2)]
          cases hvisit : visitParents append getPlan
            (furtherCalls git.toGit (PsString.trim c) first (PsString.trim c))
            (append s.1 (mainlineSpec endRef (first :: others).length (PsString.trim c) first),
              s.2) with
          | none => rfl
          | some t =>
            split
            · rfl
            · exact ih t

end AddSpec

/-! ### The plan -/

section Facts

variable {git : MergeGit} {endRef : Option String} {path : String}

/-- What the plan of `Build-ComparisonPlan` has. -/
structure PlanFacts (git : MergeGit) (plan : List PlanEntry) : Prop where
  /-- No two entries have the same head and base. -/
  distinct : (plan.map fun e => (e.head, e.base)).Nodup
  /-- Every base is a parent of its head, or the merge base where the head has none. -/
  bases : ∀ e ∈ plan, GoodBase git e
  /-- A merge commit that is a head is paired with each of its parents. -/
  complete : ∀ e ∈ plan, ∀ head, e.head = some head → 1 < (git.parents head).length →
    ∀ parent ∈ git.parents head, HasPair plan head parent

theorem planFacts_kept {log : List PlanEntry} {seen : List String}
    (h : Part git [] [] log seen) : PlanFacts git (kept log) := by
  obtain ⟨hsub, hpairs, hnodup⟩ := kept_spec h.bases
  refine ⟨hnodup, fun e he => h.bases e (hsub he), fun e he head hhead _ parent hparent => ?_⟩
  have hcovered := (h.heads e (hsub he) head hhead).resolve_left List.not_mem_nil
  obtain ⟨head', base, hhead', -, hcommit, -⟩ := h.bases e (hsub he)
  obtain rfl := Option.some.inj (hhead.symm.trans hhead')
  refine hpairs head parent ?_
  cases hparents : git.parents head with
  | nil => rw [hparents] at hparent; cases hparent
  | cons first others =>
    obtain ⟨hfirst, hseen⟩ := hcovered first others hparents
    rw [hparents] at hparent
    rcases List.mem_cons.mp hparent with rfl | hother
    · exact hfirst
    · -- the branch of another parent has been seen, so its pair is there
      obtain ⟨i, hi, hget⟩ := List.getElem_of_mem hother
      have hmem : (parent, i + 2) ∈ ((git.parents head).zipIdx 1).drop 1 := by
        rw [hparents, List.zipIdx_cons, List.drop_one, List.tail_cons]
        refine List.mk_mem_zipIdx_iff_le_and_getElem?_sub.mpr ⟨Nat.le_add_left 2 i, ?_⟩
        rw [Nat.add_sub_cancel, List.getElem?_eq_getElem hi, hget]
      obtain ⟨key, hkey, heq⟩ := List.any_eq_true.mp (hseen parent (i + 2) hmem)
      obtain ⟨merge, other, index, hmerge, hother', rfl, hpair⟩ :=
        (h.keys key hkey).resolve_left List.not_mem_nil
      have hparent' := (git.parent head parent hcommit (hparents ▸ hparent)).1
      obtain ⟨rfl, rfl⟩ := key_inj hcommit hmerge hparent' hother' heq
      exact hpair

theorem isCommit_extendMainlineWithin {fuel index : ℕ} {list list' : List String}
    (hlist : ∀ c ∈ list, git.isCommit c = true)
    (h : extendMainlineWithin git endRef fuel index list = some list') :
    list <+: list' ∧ ∀ c ∈ list', git.isCommit c = true := by
  induction fuel generalizing index list with
  | zero => exact nomatch h
  | succ fuel ih =>
    simp only [extendMainlineWithin] at h
    cases hcurrent : list[index]? with
    | none =>
      rw [hcurrent] at h
      obtain rfl := Option.some.inj h
      exact ⟨List.prefix_rfl, hlist⟩
    | some current =>
      rw [hcurrent] at h
      dsimp only at h
      cases hparent : git.firstParent current with
      | none =>
        rw [hparent] at h
        exact ih hlist h
      | some p =>
        rw [hparent] at h
        have hmem := hlist current (List.mem_of_getElem? hcurrent)
        have hp := (git.parent current p hmem (Git.firstParent_mem hparent)).1
        have hadd := isCommit_addDistinct hlist hp
        have hpre : list <+: addDistinct list p := by
          rcases addDistinct_cases list p with heq | heq
          · exact heq.symm ▸ List.prefix_rfl
          · exact heq.symm ▸ List.prefix_append list [p]
        dsimp only at h
        split at h
        · obtain rfl := Option.some.inj h
          exact ⟨hpre, hadd⟩
        · obtain ⟨hrest, hcommits⟩ := ih hadd h
          exact ⟨hpre.trans hrest, hcommits⟩

variable {commits : List String}

theorem mainlineList_eq (hcommits : ∀ c ∈ commits, git.isCommit c = true) (hnodup : commits.Nodup) :
    mainlineList commits = commits := by
  unfold mainlineList
  induction commits using List.reverseRecOn with
  | nil => rfl
  | append_singleton commits c ih =>
    have hcommits' := fun d hd => hcommits d (List.mem_append_left [c] hd)
    have hc := hcommits c (List.mem_append_right _ (List.mem_singleton_self c))
    obtain ⟨htrim, -, hblank⟩ := isFullHash_trim (git.isFullHash c hc)
    have hnew : ¬ commits.any (PsString.equalsIgnoreCase c) = true := by
      intro hany
      obtain ⟨d, hd, heq⟩ := List.any_eq_true.mp hany
      obtain rfl := eq_of_equalsIgnoreCase hc (hcommits' d hd) heq
      exact (List.nodup_append.mp hnodup).2.2 c hd c (List.mem_singleton_self c) rfl
    rw [List.foldl_append, ih hcommits' (List.nodup_append.mp hnodup).1, List.foldl_cons,
      List.foldl_nil, hblank, htrim, if_neg Bool.false_ne_true, addDistinct, if_neg hnew]

theorem exists_depth_le (git : Git) (list : List String) : ∃ n, ∀ c ∈ list, git.depth c ≤ n := by
  induction list with
  | nil => exact ⟨0, List.forall_mem_nil _⟩
  | cons d list ih =>
    obtain ⟨n, hn⟩ := ih
    refine ⟨max (git.depth d) n, fun c hc => ?_⟩
    rcases List.mem_cons.mp hc with rfl | hc
    · exact Nat.le_max_left _ _
    · exact (hn c hc).trans (Nat.le_max_right _ _)

/-- **The plan with merge parents** is built, and it has its pairs once each, with good bases
and every parent of its merges. -/
theorem buildMergePlan_facts (hcommits : ∀ c ∈ commits, git.isCommit c = true)
    (hnodup : commits.Nodup) :
    ∃ n result, (∀ fuel, n ≤ fuel → buildMergePlan git endRef path fuel commits = some result) ∧
      PlanFacts git result.plan := by
  have hextend : Settles (fun fuel => extendMainlineWithin git endRef fuel 0 commits)
      (remaining git.toGit 0 commits + 1) :=
    extendMainlineWithin_settles _ 0 commits hcommits le_rfl
  obtain ⟨list, hlist⟩ := hextend
  dsimp only at hlist
  have hmem := (isCommit_extendMainlineWithin hcommits (hlist _ le_rfl)).2
  obtain ⟨depth, hdepth⟩ := exists_depth_le git.toGit list
  have hbuild : Settles (fun fuel => buildMergeSpecs git endRef addSpec
      (getMergeParentPlan git endRef path fuel) ([], []) list) depth :=
    buildMergeSpecs_settles hmem hdepth _
  obtain ⟨result, hresult⟩ := hbuild
  refine ⟨max (remaining git.toGit 0 commits + 1) depth, result, fun fuel hfuel => ?_, ?_⟩
  · rw [buildMergePlan, mainlineList_eq hcommits hnodup,
      hlist fuel ((Nat.le_max_left _ _).trans hfuel), Option.bind_some]
    exact hresult fuel ((Nat.le_max_right _ _).trans hfuel)
  · have hkept : buildMergeSpecs git endRef addSpec (getMergeParentPlan git endRef path depth)
        (kept [], []) list = _ := buildMergeSpecs_kept _ list ([], [])
    obtain ⟨r, hr, rfl⟩ := Option.map_eq_some_iff.mp (hkept.symm.trans (hresult depth le_rfl))
    obtain ⟨new, seen, hplan, hpart⟩ :=
      buildMergeSpecs_part (getMergeParentPlan_returns depth) hmem hr
    rw [hplan, List.nil_append]
    exact planFacts_kept hpart

end Facts

end CompareVI.History
