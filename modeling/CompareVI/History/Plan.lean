import CompareVI.History.Loop
import Mathlib.Data.List.Chain

/-!
# The plan of the history walk

`Compare-VIHistory` lists the commits of the first-parent chain that touch the target,
pairs each with its first parent, and stops at `EndRef`. There are two plan builders.
The result of `Build-ComparisonPlan` is an ordered dictionary, and the script looks its
plan up with `PSObject.Properties`, which has the .NET members of a dictionary and not
its keys; so the plan is always taken to be empty (`selectedPlan_eq_nil`) and the
fallback plan is used.

The fallback plan compares `EndRef`, as it is spelled, with the commits it meets: those
that touch the target, and their first parents. `historyWalk_boundary_iff` says when
that keeps the boundary: the spelling is the full hash and the commit or its successor
on the chain touches the target, or nothing at or below the commit could be paired
anyway.

git is a structure of what its commands answer. The proof cuts the chain at the commit
of `EndRef` (`Linked`), follows the fallback plan through the newer part
(`pairsFrom_newer`), and asks when it is empty on the rest (`pairsFrom_eq_nil_iff`).
-/

open Framework

namespace CompareVI.History

/-! ### git -/

def isHexDigit (c : Char) : Bool := c.isDigit || ('a' ≤ c && c ≤ 'f')

def isFullHash (s : String) : Bool :=
  (s.toList.length = 40 || s.toList.length = 64) && s.toList.all isHexDigit

/-- What git answers about a repository. Commits are named by their full hashes, and
`depth` bears out that a commit graph has no cycles. -/
structure Git where
  isCommit : String → Bool
  parents : String → List String
  depth : String → ℕ
  /-- The commit a name, short hash or full hash stands for. -/
  resolve : String → Option String
  hasTarget : (path commit : String) → Bool
  /-- The commit differs from its first parent at the path. -/
  touches : (path commit : String) → Bool
  /-- `diff-tree` lists the path; `none` where git fails. -/
  diffTree : (path ref : String) → Option Bool
  /-- `rev-list --first-parent from..to -- path`. -/
  revListRange : (path start stop : String) → Option (List String)
  /-- `merge-base --is-ancestor`. -/
  isAncestor : (ancestor descendant : String) → Option Bool
  isFullHash : ∀ c, isCommit c = true → History.isFullHash c = true
  parent : ∀ c p, isCommit c = true → p ∈ parents c → isCommit p = true ∧ depth p < depth c
  resolve_isCommit : ∀ r c, resolve r = some c → isCommit c = true
  /-- A full hash, in either case, stands for its commit. -/
  resolve_hash : ∀ r c, isCommit c = true → PsString.equalsIgnoreCase c r = true →
    resolve r = some c

namespace Git

variable (git : Git)

def firstParent (c : String) : Option String := (git.parents c).head?

def chainFrom : ℕ → String → List String
  | 0, _ => []
  | n + 1, c =>
    c :: match git.firstParent c with
      | none => []
      | some p => chainFrom n p

def firstParentChain (c : String) : List String := git.chainFrom (git.depth c + 1) c

/-- `rev-list --first-parent ref -- path`. -/
def revListFirstParent (path ref : String) : Option (List String) :=
  (git.resolve ref).map fun c => (git.firstParentChain c).filter (git.touches path)

/-- `rev-parse head^`. -/
def revParseParent (head : String) : Option String := (git.resolve head).bind git.firstParent

end Git

/-! ### The start -/

/-- The names of `$modeDefinitions`. -/
def modeDefinitions : List String :=
  ["default", "attributes", "front-panel", "block-diagram", "full", "custom"]

section Start

variable (git : Git) (path : String)

/-- `Ensure-FileExistsAtRef`, which passes a ref that is spelled like a mode. -/
def ensureFileExistsAtRef (ref : String) : Except String Unit :=
  if modeDefinitions.contains (PsString.toLowerInvariant ref) ||
      (git.resolve ref).any (git.hasTarget path) then .ok ()
  else .error ("Target '" ++ path ++ "' not present at " ++ ref)

def firstDescendant (startRef : String) : List String → Except String (Option String)
  | [] => .ok none
  | commit :: rest =>
    match git.isAncestor startRef commit with
    | some true => .ok (some commit)
    | some false => firstDescendant startRef rest
    | none => .error "git merge-base --is-ancestor failed"

/-- `Resolve-CommitWithChange`. -/
def resolveCommitWithChange (startRef headRef : String) : Except String (Option String) :=
  match git.diffTree path startRef with
  | none => .error "git diff-tree failed"
  | some true => .ok (some startRef)
  | some false =>
    match git.revListRange path startRef headRef with
    | none => .error "git rev-list failed"
    | some upList =>
      match firstDescendant git startRef upList.reverse with
      | .error e => .error e
      | .ok (some commit) => .ok (some commit)
      | .ok none =>
        match git.revListFirstParent path startRef with
        | none => .error "git rev-list failed"
        | some downList => .ok (downList.find? fun c => git.diffTree path c = some true)

def normalizeRef (ref : Option String) : Option String :=
  if PsString.isNullOrWhiteSpace ref then none else ref.map PsString.trim

def resolvedStartRef (startRef : Option String) : Except String String :=
  let startRef := (normalizeRef startRef).getD "HEAD"
  match resolveCommitWithChange git path startRef "HEAD" with
  | .error e => .error e
  | .ok commit => .ok (commit.getD startRef)

end Start

/-! ### `Build-ComparisonPlan` -/

/-- The commit is spelled like `EndRef`. -/
def isEndRef (endRef : Option String) (commit : String) : Bool :=
  endRef.any fun r => PsString.equalsIgnoreCase commit r

def mainlineSpec (endRef : Option String) (parentCount : ℕ) (head base : String) : PlanEntry :=
  let stopAfter := isEndRef endRef base
  { head := some head
    base := some base
    lineage := some {
      type := "mainline", parentIndex := 1, parentCount := parentCount, mergeCommit := head
      rootMerge := head, branchHead := none, depth := 0 }
    stopAfter := stopAfter
    stopAfterReason := if stopAfter then some .reachedEndRef else none }

/-- What `Build-ComparisonPlan` returns: an ordered dictionary with these two keys. -/
structure PlanResult where
  plan : List PlanEntry
  terminalHint : Option StopReason
  deriving DecidableEq

/-- What `Get-MergeParentPlan` returns for a merge commit, its first parent, one of its
other parents, the index of that parent and the number of parents. -/
abbrev MergeParentPlan := (merge firstParent branchParent : String) → (index count : ℕ) →
  List PlanEntry

section Build

variable (git : Git) (endRef : Option String)

/-- `HashSet.Add` and `List.Add`. -/
def addDistinct (commits : List String) (commit : String) : List String :=
  if commits.any (PsString.equalsIgnoreCase commit) then commits else commits ++ [commit]

def mainlineList (commits : List String) : List String :=
  commits.foldl (fun list entry =>
    if PsString.isNullOrWhiteSpace (some entry) then list
    else addDistinct list (PsString.trim entry)) []

def extendMainline : (fuel index : ℕ) → List String → List String
  | 0, _, list => list
  | fuel + 1, index, list =>
    match list[index]? with
    | none => list
    | some current =>
      match git.firstParent current with
      | none => extendMainline fuel (index + 1) list
      | some firstParent =>
        let list := addDistinct list firstParent
        if isEndRef endRef firstParent then list else extendMainline fuel (index + 1) list

/-- `Add-Spec`. The lineage is an ordered dictionary, so the key has none of it. -/
def addSpec (plan : List PlanEntry) (spec : PlanEntry) : List PlanEntry :=
  let key (spec : PlanEntry) := spec.head.getD "" ++ "|" ++ spec.base.getD "" ++ "|0||0"
  if PsString.isNullOrWhiteSpace spec.head || PsString.isNullOrWhiteSpace spec.base then plan
  else if plan.any fun other => PsString.equalsIgnoreCase (key other) (key spec) then plan
  else plan ++ [spec]

def branchSpecs (mergeParentPlan : MergeParentPlan) (head firstParent : String)
    (parents : List String) : List PlanEntry :=
  ((parents.zipIdx 1).drop 1).flatMap fun (branchParent, index) =>
    if PsString.isNullOrWhiteSpace (some branchParent) then []
    else mergeParentPlan head firstParent branchParent index parents.length

def buildSpecs (includeMergeParents : Bool) (mergeParentPlan : MergeParentPlan)
    (plan : List PlanEntry) : List String → PlanResult
  | [] => ⟨plan, none⟩
  | rawHead :: rest =>
    let head := PsString.trim rawHead
    if head = "" then buildSpecs includeMergeParents mergeParentPlan plan rest
    else if isEndRef endRef head then ⟨plan, some .reachedEndRef⟩
    else
      match git.parents head with
      | [] => ⟨plan, some .reachedRoot⟩
      | firstParent :: others =>
        let parents := firstParent :: others
        let plan := addSpec plan (mainlineSpec endRef parents.length head firstParent)
        let plan :=
          if includeMergeParents then
            (branchSpecs mergeParentPlan head firstParent parents).foldl addSpec plan
          else plan
        if isEndRef endRef firstParent then ⟨plan, none⟩
        else buildSpecs includeMergeParents mergeParentPlan plan rest

/-- `Build-ComparisonPlan`. The list it extends has no repetitions, so it never grows
beyond the ancestors of the listed commits. -/
def buildComparisonPlan (includeMergeParents : Bool) (mergeParentPlan : MergeParentPlan)
    (commits : List String) : PlanResult :=
  let list := mainlineList commits
  let fuel := (list.map fun c => git.depth c + 1).sum
  buildSpecs git endRef includeMergeParents mergeParentPlan []
    (extendMainline git endRef fuel 0 list)

end Build

/-! ### The plan that is used -/

/-- The names in `PSObject.Properties` of a dictionary: its .NET members. -/
def dictionaryMembers : List String :=
  ["Count", "IsReadOnly", "Keys", "Values", "IsFixedSize", "SyncRoot", "IsSynchronized"]

def selectedPlan (planResult : PlanResult) : List PlanEntry :=
  if dictionaryMembers.contains "Plan" then planResult.plan else []

def selectedHint (planResult : PlanResult) : Option StopReason :=
  if dictionaryMembers.contains "TerminalHint" then planResult.terminalHint else none

def fallbackPlan (git : Git) (endRef : Option String) :
    List String → List PlanEntry × Option StopReason
  | [] => ([], none)
  | rawHead :: rest =>
    let head := PsString.trim rawHead
    if head = "" then fallbackPlan git endRef rest
    else if isEndRef endRef head then ([], some .reachedEndRef)
    else
      let base := PsString.trim ((git.revParseParent head).getD "")
      if base = "" then ([], some .reachedRoot)
      else
        let spec := mainlineSpec endRef 1 head base
        if spec.stopAfter then ([spec], none)
        else
          let (specs, hint) := fallbackPlan git endRef rest
          (spec :: specs, hint)

def planEntries (git : Git) (endRef : Option String) (planResult : PlanResult)
    (commits : List String) : List (Option PlanEntry) × Option StopReason :=
  if (selectedPlan planResult).length = 0 then
    let (specs, hint) := fallbackPlan git endRef commits
    (specs.map some, (selectedHint planResult).or hint)
  else ((selectedPlan planResult).map some, selectedHint planResult)

inductive WalkFailure where
  | refused (message : String)
  | mode (failure : ModeFailure)

/-- The commits that `rev-list` lists under the pair limit. -/
def limitedCommits (cfg : HistorySettings) (commits : List String) : List String :=
  match cfg.requestedPairs with
  | some n => commits.take (n + 5).toNat
  | none => commits

/-- One mode of `Compare-VIHistory`, from its parameters to its manifest. -/
def compareHistory (git : Git) (cfg : HistorySettings) (path : String)
    (startRef endRef : Option String) (includeMergeParents : Bool)
    (mergeParentPlan : MergeParentPlan) (outcome : ℕ → PairOutcome) :
    Except WalkFailure ModeManifest :=
  let endRef := normalizeRef endRef
  match resolvedStartRef git path startRef with
  | .error e => .error (.refused e)
  | .ok startRef =>
    match ensureFileExistsAtRef git path startRef with
    | .error e => .error (.refused e)
    | .ok () =>
      match (endRef.map (ensureFileExistsAtRef git path)).getD (.ok ()) with
      | .error e => .error (.refused e)
      | .ok () =>
        match (git.revListFirstParent path startRef).map (limitedCommits cfg) with
        | none => .error (.refused "git rev-list failed")
        | some [] => .error (.refused "Cannot bind argument to parameter 'MainlineCommits'")
        | some commits =>
          let planResult :=
            buildComparisonPlan git endRef includeMergeParents mergeParentPlan commits
          let (plan, hint) := planEntries git endRef planResult commits
          match runMode cfg path hint plan outcome with
          | .ok m => .ok m
          | .error e => .error (.mode e)

/-! ### The boundary -/

def Attempt.isMainline (a : Attempt) : Bool := a.lineage.any (·.type = "mainline")

/-- The walk keeps the boundary at the commit `endCommit` of a chain. -/
structure BoundaryKept (git : Git) (path : String) (newer : List String) (endCommit : String)
    (older : List String) (attempted : List Attempt) : Prop where
  /-- No mainline pair has its head at `endCommit` or below. -/
  below : ∀ a ∈ attempted, a.isMainline = true → a.head ∉ endCommit :: older
  /-- The newer commits that touch the target are heads of one mainline pair each, with
  their first parents, newest first. -/
  above : ((attempted.filter Attempt.isMainline).filter fun a =>
      newer.contains a.head && git.touches path a.head).map Attempt.pair =
    (newer.filter (git.touches path)).map fun h => (h, (git.firstParent h).getD "")

/-- `EndRef` is the full hash of its commit, and the commit or its successor on the chain
touches the target; or nothing from the commit on touches it and has a parent. -/
def BoundaryMet (git : Git) (path endRef : String) (newer : List String) (endCommit : String)
    (older : List String) : Prop :=
  (PsString.equalsIgnoreCase endCommit endRef = true ∧
      (git.touches path endCommit = true ∨ newer.getLast?.any (git.touches path) = true)) ∨
    ∀ h ∈ endCommit :: older, git.touches path h = true → git.firstParent h = none

theorem selectedPlan_eq_nil (planResult : PlanResult) : selectedPlan planResult = [] := rfl

/-! ### First-parent chains -/

def Linked (git : Git) : List String → Prop
  | [] => True
  | c :: rest => git.isCommit c = true ∧ git.firstParent c = rest.head? ∧ Linked git rest

section Chain

variable {git : Git} {path : String} {c : String} {l : List String}

theorem Git.firstParent_mem {p : String} (h : git.firstParent c = some p) :
    p ∈ git.parents c :=
  List.mem_of_mem_head? h

theorem linked_chainFrom (n : ℕ) (hc : git.isCommit c = true) (hn : git.depth c < n) :
    Linked git (git.chainFrom n c) ∧ (git.chainFrom n c).head? = some c := by
  induction n generalizing c with
  | zero => omega
  | succ n ih =>
    rw [Git.chainFrom]
    cases hp : git.firstParent c with
    | none => exact ⟨⟨hc, hp, trivial⟩, rfl⟩
    | some p =>
      obtain ⟨hcommit, hdepth⟩ := git.parent c p hc (Git.firstParent_mem hp)
      obtain ⟨hlinked, hhead⟩ := ih hcommit (by omega)
      exact ⟨⟨hc, hp.trans hhead.symm, hlinked⟩, rfl⟩

theorem linked_firstParentChain (hc : git.isCommit c = true) :
    Linked git (git.firstParentChain c) :=
  (linked_chainFrom _ hc (Nat.lt_succ_self _)).1

theorem Linked.of_append {pre : List String} (h : Linked git (pre ++ l)) : Linked git l := by
  induction pre with
  | nil => exact h
  | cons c pre ih => exact ih h.2.2

theorem Linked.isCommit (h : Linked git l) : ∀ x ∈ l, git.isCommit x = true := by
  induction l with
  | nil => exact fun _ hx => nomatch hx
  | cons c l ih =>
    intro x hx
    rcases List.mem_cons.mp hx with rfl | hx
    · exact h.1
    · exact ih h.2.2 x hx

theorem Linked.depth_lt (h : Linked git (c :: l)) : ∀ x ∈ l, git.depth x < git.depth c := by
  induction l generalizing c with
  | nil => exact fun _ hx => nomatch hx
  | cons d l ih =>
    have hd : git.depth d < git.depth c := (git.parent c d h.1 (Git.firstParent_mem h.2.1)).2
    intro x hx
    rcases List.mem_cons.mp hx with rfl | hx
    · exact hd
    · exact (ih h.2.2 x hx).trans hd

theorem Linked.notMem (h : Linked git (c :: l)) : c ∉ l := fun hc =>
  absurd (h.depth_lt c hc) (lt_irrefl _)

theorem Linked.nodup (h : Linked git l) : l.Nodup := by
  induction l with
  | nil => exact List.nodup_nil
  | cons c l ih => exact List.nodup_cons.mpr ⟨h.notMem, ih h.2.2⟩

theorem isFullHash_trim (h : isFullHash c = true) :
    PsString.trim c = c ∧ c ≠ "" ∧ PsString.isNullOrWhiteSpace (some c) = false := by
  rw [isFullHash, Bool.and_eq_true] at h
  have hspace : ∀ x ∈ c.toList, PsString.isWhiteSpace x = false := by
    intro x hx
    have hhex := List.all_eq_true.mp h.2 x hx
    by_contra hne
    rw [Bool.not_eq_false] at hne
    rw [PsString.isWhiteSpace, Bool.or_eq_true, List.contains_iff_mem] at hne
    rcases hne with hmem | hrange
    · have hnone : PsString.whiteSpaceChars.all (fun y => !isHexDigit y) = true := rfl
      have hx := List.all_eq_true.mp hnone x hmem
      rw [hhex] at hx
      cases hx
    · -- the typographic spaces lie beyond the letters
      rw [Bool.and_eq_true, decide_eq_true_eq] at hrange
      rw [isHexDigit, Bool.or_eq_true, Bool.and_eq_true, decide_eq_true_eq, decide_eq_true_eq,
        Char.isDigit, Bool.and_eq_true, decide_eq_true_eq, decide_eq_true_eq] at hhex
      have hle : ('\u2000' : Char).val ≤ x.val := hrange.1
      have hlt : x.val ≤ ('f' : Char).val := by
        rcases hhex with ⟨-, h9⟩ | ⟨-, hf⟩
        · exact UInt32.le_trans h9 (by decide)
        · exact hf
      have hfar : ¬ ('\u2000' : Char).val ≤ ('f' : Char).val := by decide
      exact hfar (UInt32.le_trans hle hlt)
  have hne : c.toList ≠ [] := by
    intro hnil
    simp [hnil] at h
  refine ⟨PsString.trim_of_forall hspace, fun hempty => hne (by rw [hempty]; rfl), ?_⟩
  rw [PsString.isNullOrWhiteSpace, Option.all_some, List.all_eq_false]
  obtain ⟨x, hx⟩ := List.exists_mem_of_ne_nil _ hne
  exact ⟨x, hx, by rw [hspace x hx]; decide⟩

end Chain

/-! ### What the fallback plan pairs -/

def pairsFrom (git : Git) (endRef : Option String) : List String → List (String × String)
  | [] => []
  | head :: rest =>
    if isEndRef endRef head then []
    else
      match git.firstParent head with
      | none => []
      | some base => (head, base) :: if isEndRef endRef base then [] else pairsFrom git endRef rest

section Fallback

variable {git : Git} {path : String} {endRef : Option String} {commits : List String}

theorem revParseParent_of_isCommit {c : String} (hc : git.isCommit c = true) :
    git.revParseParent c = git.firstParent c := by
  have hself : PsString.equalsIgnoreCase c c = true := PsString.equalsIgnoreCase_iff.mpr rfl
  rw [Git.revParseParent, git.resolve_hash c c hc hself, Option.bind_some]

theorem fallbackPlan_cons {head : String} (hc : git.isCommit head = true) :
    fallbackPlan git endRef (head :: commits) =
      if isEndRef endRef head then ([], some .reachedEndRef)
      else
        match git.firstParent head with
        | none => ([], some .reachedRoot)
        | some base =>
          if isEndRef endRef base then ([mainlineSpec endRef 1 head base], none)
          else
            (mainlineSpec endRef 1 head base :: (fallbackPlan git endRef commits).1,
              (fallbackPlan git endRef commits).2) := by
  obtain ⟨htrim, hne, -⟩ := isFullHash_trim (git.isFullHash head hc)
  rw [fallbackPlan]
  simp only [htrim, hne, if_false]
  refine if_congr Iff.rfl rfl ?_
  rw [revParseParent_of_isCommit hc]
  cases hp : git.firstParent head with
  | none => rfl
  | some base =>
    have hbase := (git.parent head base hc (Git.firstParent_mem hp)).1
    obtain ⟨htrim', hne', -⟩ := isFullHash_trim (git.isFullHash base hbase)
    simp only [Option.getD_some, htrim', hne', if_false]
    rfl

theorem pair_mainlineSpec {head base : String} {parentCount : ℕ}
    (hhead : git.isCommit head = true) (hbase : git.isCommit base = true) :
    (mainlineSpec endRef parentCount head base).pair = some (head, base) := by
  obtain ⟨htrim, -, hblank⟩ := isFullHash_trim (git.isFullHash head hhead)
  obtain ⟨htrim', -, hblank'⟩ := isFullHash_trim (git.isFullHash base hbase)
  simp [PlanEntry.pair, mainlineSpec, hblank, hblank', htrim, htrim']

/-- **The fallback plan.** Its pairs are those of `pairsFrom`, only its last entry may
end the walk, and all of it is mainline; by induction on the listed commits. -/
theorem fallbackPlan_spec (endRef : Option String)
    (hcommits : ∀ c ∈ commits, git.isCommit c = true) :
    planPairs ((fallbackPlan git endRef commits).1.map some) = pairsFrom git endRef commits ∧
    (∀ pre e post, (fallbackPlan git endRef commits).1 = pre ++ e :: post →
      e.stopAfter = true → post = []) ∧
    ∀ e ∈ (fallbackPlan git endRef commits).1, e.lineage.any (·.type = "mainline") = true := by
  induction commits with
  | nil => exact ⟨rfl, fun pre e post h => by simp [fallbackPlan] at h, fun e he => nomatch he⟩
  | cons head commits ih =>
    have hhead := hcommits head List.mem_cons_self
    obtain ⟨hpairs, hlast, hmain⟩ := ih fun c hc => hcommits c (List.mem_cons_of_mem _ hc)
    rw [fallbackPlan_cons hhead, pairsFrom]
    split
    · exact ⟨rfl, fun pre e post h => by simp at h, fun e he => nomatch he⟩
    · cases hp : git.firstParent head with
      | none => exact ⟨rfl, fun pre e post h => by simp at h, fun e he => nomatch he⟩
      | some base =>
        have hbase := (git.parent head base hhead (Git.firstParent_mem hp)).1
        have hpair : (mainlineSpec endRef 1 head base).pair = some (head, base) :=
          pair_mainlineSpec hhead hbase
        dsimp only
        split
        · next hstop =>
          refine ⟨?_, ?_, ?_⟩
          · exact planPairs_cons_some hpair
          · intro pre e post h _
            have hlen : 1 = (pre ++ e :: post).length := congrArg List.length h
            rw [List.length_append, List.length_cons] at hlen
            exact List.length_eq_zero_iff.mp (by omega)
          · intro e he
            obtain rfl := List.mem_singleton.mp he
            rfl
        · next hstop =>
          refine ⟨?_, ?_, ?_⟩
          · rw [List.map_cons, planPairs_cons_some hpair, hpairs]
          · intro pre e post h hafter
            rcases List.cons_eq_append_iff.mp h with ⟨rfl, hcons⟩ | ⟨pre', rfl, hrest⟩
            · obtain ⟨rfl, -⟩ := List.cons.inj hcons
              exact absurd hafter hstop
            · exact hlast pre' e post hrest hafter
          · intro e he
            rcases List.mem_cons.mp he with rfl | he
            · rfl
            · exact hmain e he

theorem head_mem_of_mem_pairsFrom {pair : String × String}
    (h : pair ∈ pairsFrom git endRef commits) : pair.1 ∈ commits := by
  induction commits with
  | nil => cases h
  | cons head commits ih =>
    rw [pairsFrom] at h
    split at h
    · cases h
    · split at h
      · cases h
      · rcases List.mem_cons.mp h with rfl | h
        · exact List.mem_cons_self
        · split at h
          · cases h
          · exact List.mem_cons_of_mem _ (ih h)

end Fallback

/-! ### The chain cut at `EndRef` -/

section Cut

variable {git : Git} {path r e : String} {newer older rest : List String}

theorem isEndRef_iff {c : String} (hc : git.isCommit c = true) (he : git.resolve r = some e) :
    isEndRef (some r) c = true ↔ c = e ∧ PsString.equalsIgnoreCase e r = true := by
  rw [isEndRef, Option.any_some]
  constructor
  · intro h
    obtain rfl : c = e := Option.some.inj ((git.resolve_hash r c hc h).symm.trans he)
    exact ⟨rfl, h⟩
  · rintro ⟨rfl, h⟩
    exact h

theorem isEndRef_eq_false {c : String} (hc : git.isCommit c = true) (he : git.resolve r = some e)
    (hne : c ≠ e) : isEndRef (some r) c = false :=
  Bool.eq_false_iff.mpr fun h => hne ((isEndRef_iff hc he).mp h).1

def parentPair (git : Git) (h : String) : String × String := (h, (git.firstParent h).getD "")

/-- **The newer part.** The fallback plan pairs every commit that touches the target, and
ends there only if `EndRef` is a full hash and the last commit before it touches the
target. By induction on the newer part. -/
theorem pairsFrom_newer (hlinked : Linked git (newer ++ e :: older))
    (he : git.resolve r = some e) :
    pairsFrom git (some r) (newer.filter (git.touches path) ++ rest) =
      (newer.filter (git.touches path)).map (parentPair git) ++
        if PsString.equalsIgnoreCase e r && newer.getLast?.any (git.touches path) then []
        else pairsFrom git (some r) rest := by
  induction newer with
  | nil => simp
  | cons h newer ih =>
    have hh : git.isCommit h = true := hlinked.1
    have hrest : Linked git (newer ++ e :: older) := hlinked.2.2
    have hparent : git.firstParent h = (newer ++ e :: older).head? := hlinked.2.1
    have hne : h ≠ e := by
      rintro rfl
      exact hlinked.notMem (by simp)
    -- behind a further newer commit nothing changes
    have hlast : newer ≠ [] → (h :: newer).getLast? = newer.getLast? := fun hnil => by
      rw [List.getLast?_cons_of_ne_nil hnil]
    by_cases ht : git.touches path h = true
    · rw [List.filter_cons_of_pos ht, List.cons_append, List.map_cons, List.cons_append, pairsFrom,
        isEndRef_eq_false hh he hne]
      cases newer with
      | nil =>
        -- the successor of `EndRef`: its parent is the commit itself
        have hp : git.firstParent h = some e := hparent
        have hiff : isEndRef (some r) e = PsString.equalsIgnoreCase e r := by
          rw [isEndRef, Option.any_some]
        simp [hp, parentPair, hiff, ht]
      | cons p newer =>
        have hp : git.firstParent h = some p := hparent
        have hpe : isEndRef (some r) p = false := by
          refine isEndRef_eq_false (hrest.isCommit p (by simp)) he ?_
          rintro rfl
          exact hrest.notMem (by simp)
        rw [hlast (by simp), ← ih hrest]
        simp [hp, parentPair, hpe]
    · rw [List.filter_cons_of_neg ht, ih hrest]
      cases newer with
      | nil => simp [ht]
      | cons p newer => rw [hlast (by simp)]

/-- Below the commit of `EndRef` nothing is spelled like it, so only a root can keep the
plan empty. -/
theorem pairsFrom_below (path : String) (hlinked : Linked git rest) (he : git.resolve r = some e)
    (hmem : e ∉ rest) :
    pairsFrom git (some r) (rest.filter (git.touches path)) = [] ↔
      ∀ h ∈ rest, git.touches path h = true → git.firstParent h = none := by
  induction rest with
  | nil => simp [pairsFrom]
  | cons h rest ih =>
    have hne : h ≠ e := fun heq => hmem (heq ▸ List.mem_cons_self)
    have ih' := ih hlinked.2.2 fun he' => hmem (List.mem_cons_of_mem _ he')
    by_cases ht : git.touches path h = true
    · rw [List.filter_cons_of_pos ht, pairsFrom, isEndRef_eq_false hlinked.1 he hne]
      cases hp : git.firstParent h with
      | none =>
        -- a root is the end of its chain
        have hnil : rest = [] := List.head?_eq_none_iff.mp (hlinked.2.1.symm.trans hp)
        simp [hnil, hp]
      | some p =>
        refine ⟨fun hpairs => by simp at hpairs, fun hroots => ?_⟩
        rw [hroots h List.mem_cons_self ht] at hp
        cases hp
    · rw [List.filter_cons_of_neg ht, ih', List.forall_mem_cons]
      exact (and_iff_right fun h' => absurd h' ht).symm

/-- **The rest of the plan.** -/
theorem pairsFrom_eq_nil_iff (hlinked : Linked git (e :: older)) (he : git.resolve r = some e) :
    pairsFrom git (some r) ((e :: older).filter (git.touches path)) = [] ↔
      (PsString.equalsIgnoreCase e r = true ∧ git.touches path e = true) ∨
        ∀ h ∈ e :: older, git.touches path h = true → git.firstParent h = none := by
  have hbelow := pairsFrom_below path hlinked.2.2 he hlinked.notMem
  by_cases ht : git.touches path e = true
  · rw [List.filter_cons_of_pos ht, pairsFrom]
    by_cases hfull : PsString.equalsIgnoreCase e r = true
    · rw [if_pos ((isEndRef_iff hlinked.1 he).mpr ⟨rfl, hfull⟩)]
      exact iff_of_true rfl (.inl ⟨hfull, ht⟩)
    · rw [if_neg fun h => hfull ((isEndRef_iff hlinked.1 he).mp h).2]
      cases hp : git.firstParent e with
      | none =>
        have hnil : older = [] := List.head?_eq_none_iff.mp (hlinked.2.1.symm.trans hp)
        simp [hnil, hp]
      | some p =>
        refine iff_of_false (by simp) ?_
        rintro (⟨h, -⟩ | hroots)
        · exact hfull h
        · rw [hroots e List.mem_cons_self ht] at hp
          cases hp
  · rw [List.filter_cons_of_neg ht, hbelow, List.forall_mem_cons]
    constructor
    · exact fun h => .inr ⟨fun h' => absurd h' ht, h⟩
    · rintro (⟨-, h⟩ | h)
      · exact absurd h ht
      · exact h.2

end Cut

/-! ### The loop over the fallback plan -/

section Walk

variable {cfg : HistorySettings} {path : String} {outcome : ℕ → PairOutcome} {s t : LoopState}

/-- Without a pair limit, and if the loop leaves for no other reason, every pair of the
plan is attempted. -/
theorem attempted_of_notOther {plan : List PlanEntry} (hs : s.stopReason = none)
    (hlimit : cfg.requestedPairs = none)
    (hlast : ∀ pre e post, plan = pre ++ e :: post → e.stopAfter = true → post = [])
    (h : forEach (visit cfg path outcome) s (plan.map some) = .ok t)
    (hother : ∀ reason, t.stopReason = some reason → reason.isOther = false) :
    ∃ new, t.attempted = s.attempted ++ new ∧
      new.map Attempt.pair = planPairs (plan.map some) ∧
      ∀ a ∈ new, ∃ e ∈ plan, a.lineage = e.lineage := by
  induction plan generalizing s with
  | nil =>
    obtain rfl : s = t := Except.ok.inj h
    exact ⟨[], (List.append_nil _).symm, rfl, fun a ha => nomatch ha⟩
  | cons entry plan ih =>
    rw [List.map_cons] at h ⊢
    have hlast' : ∀ pre e post, plan = pre ++ e :: post → e.stopAfter = true → post = [] :=
      fun pre e post hsplit => hlast (entry :: pre) e post (by rw [hsplit]; rfl)
    rcases visit_cases cfg path outcome hs (some entry) with
      ⟨hnone, hskip⟩ | ⟨-, hrequested⟩ | ⟨e, hthrow⟩ | ⟨_, pair, heq, hpair, -, u, hrec, hends⟩
    · rw [forEach_cons_next _ hskip] at h
      obtain ⟨new, hnew, hpairs, hlineage⟩ := ih hs hlast' h
      refine ⟨new, hnew, ?_, fun a ha => ?_⟩
      · rw [planPairs_cons_none hnone, hpairs]
      · obtain ⟨e, he, hline⟩ := hlineage a ha
        exact ⟨e, List.mem_cons_of_mem _ he, hline⟩
    · exact absurd hlimit hrequested
    · rw [forEach, hthrow] at h
      cases h
    · obtain rfl := Option.some.inj heq
      rw [planPairs_cons_some hpair]
      rcases hends with ⟨hc, hgoes⟩ | ⟨hc, reason, hreason, hwhy⟩
      · rw [forEach_cons_next _ hc] at h
        obtain ⟨new, hnew, hpairs, hlineage⟩ := ih (hgoes.stopReason.trans hs) hlast' h
        refine ⟨nextAttempt outcome s entry pair :: new, ?_, ?_, fun a ha => ?_⟩
        · rw [hnew, hrec.attempted, List.append_assoc, List.singleton_append]
        · rw [List.map_cons, hpairs]
          rfl
        · rcases List.mem_cons.mp ha with rfl | ha
          · exact ⟨entry, List.mem_cons_self, rfl⟩
          · obtain ⟨e, he, hline⟩ := hlineage a ha
            exact ⟨e, List.mem_cons_of_mem _ he, hline⟩
      · rw [forEach_cons_exit _ hc] at h
        obtain rfl := Except.ok.inj h
        -- the loop leaves at the end of its plan
        rcases hwhy with hwhy | ⟨hstop, -⟩
        · rw [hother reason hreason] at hwhy
          cases hwhy
        · obtain rfl : plan = [] := hlast [] entry plan rfl hstop
          refine ⟨[nextAttempt outcome s entry pair], hrec.attempted, rfl, fun a ha => ?_⟩
          obtain rfl := List.mem_singleton.mp ha
          exact ⟨entry, List.mem_cons_self, rfl⟩

/-- What a walk without a pair limit attempts, if it leaves for no other reason: the
pairs of the fallback plan, all of them mainline. -/
theorem attempted_compareHistory {git : Git} {startRef endRef : Option String}
    {includeMergeParents : Bool} {mergeParentPlan : MergeParentPlan} {m : ModeManifest}
    {start c : String} (hlimit : cfg.requestedPairs = none)
    (hrun : compareHistory git cfg path startRef endRef includeMergeParents mergeParentPlan
      outcome = .ok m)
    (hother : m.stats.stopReason.isOther = false)
    (hstart : resolvedStartRef git path startRef = .ok start)
    (hc : git.resolve start = some c) :
    m.attempted.map Attempt.pair = pairsFrom git (normalizeRef endRef)
        ((git.firstParentChain c).filter (git.touches path)) ∧
      ∀ a ∈ m.attempted, a.isMainline = true := by
  have hcommits : ∀ x ∈ (git.firstParentChain c).filter (git.touches path),
      git.isCommit x = true := fun x hx =>
    (linked_firstParentChain (git.resolve_isCommit _ _ hc)).isCommit x (List.mem_filter.mp hx).1
  obtain ⟨hpairs, hlast, hmain⟩ := fallbackPlan_spec (normalizeRef endRef) hcommits
  rw [compareHistory, hstart] at hrun
  dsimp only at hrun
  split at hrun
  · cases hrun
  · split at hrun
    · cases hrun
    · rw [Git.revListFirstParent, hc, Option.map_some, Option.map_some, limitedCommits,
        hlimit] at hrun
      split at hrun
      · cases hrun
      · cases hrun
      · next commits _ hlist =>
        obtain rfl := Option.some.inj hlist
        rw [planEntries, selectedPlan_eq_nil, if_pos List.length_nil] at hrun
        split at hrun
        · next hmode =>
          obtain rfl := Except.ok.inj hrun
          rw [runMode] at hmode
          split at hmode
          · next t hloop =>
            obtain rfl := Except.ok.inj hmode
            have hreason : ∀ reason, t.stopReason = some reason → reason.isOther = false := by
              intro reason hreason
              change (finalStopReason _ t).isOther = false at hother
              rwa [finalStopReason, hreason] at hother
            obtain ⟨new, hnew, hnewPairs, hlineage⟩ :=
              attempted_of_notOther rfl hlimit hlast hloop hreason
            have hattempted : t.attempted = new := hnew
            change t.attempted.map Attempt.pair = _ ∧ ∀ a ∈ t.attempted, _
            rw [hattempted]
            refine ⟨hnewPairs.trans hpairs, fun a ha => ?_⟩
            obtain ⟨e, he, hline⟩ := hlineage a ha
            rw [Attempt.isMainline, hline]
            exact hmain e he
          · cases hmode
        · cases hrun

end Walk

/-! ### The boundary of a walk -/

/-- What the fallback plan pairs keeps the boundary exactly when nothing of it lies below
the commits that are newer than `EndRef`. -/
theorem boundaryKept_iff {git : Git} {path r e : String} {newer older : List String}
    {attempted : List Attempt} (hlinked : Linked git (newer ++ e :: older))
    (he : git.resolve r = some e) (hmain : ∀ a ∈ attempted, a.isMainline = true)
    (hpairs : attempted.map Attempt.pair =
      pairsFrom git (some r) ((newer ++ e :: older).filter (git.touches path))) :
    BoundaryKept git path newer e older attempted ↔ BoundaryMet git path r newer e older := by
  -- the pairs are those of the newer part, and perhaps more below
  obtain ⟨below, hbelow⟩ : ∃ below, below =
      if PsString.equalsIgnoreCase e r && newer.getLast?.any (git.touches path) then []
      else pairsFrom git (some r) ((e :: older).filter (git.touches path)) := ⟨_, rfl⟩
  rw [List.filter_append, pairsFrom_newer hlinked he, ← hbelow] at hpairs
  have hdisjoint : ∀ x ∈ newer, x ∉ e :: older := fun x hx hx' =>
    (List.nodup_append.mp hlinked.nodup).2.2 x hx x hx' rfl
  have hheads : ∀ p ∈ below, p.1 ∈ e :: older := by
    intro p hp
    rw [hbelow] at hp
    split at hp
    · cases hp
    · exact (List.mem_filter.mp (head_mem_of_mem_pairsFrom hp)).1
  have habove : ((attempted.filter Attempt.isMainline).filter fun a =>
      newer.contains a.head && git.touches path a.head).map Attempt.pair =
      (newer.filter (git.touches path)).map (parentPair git) := by
    have hall : attempted.filter Attempt.isMainline = attempted :=
      List.filter_eq_self.mpr hmain
    have hfilter : ∀ p : String × String, p ∈ below →
        ¬ (newer.contains p.1 && git.touches path p.1) = true := by
      intro p hp hcontains
      rw [Bool.and_eq_true, List.contains_iff_mem] at hcontains
      exact hdisjoint p.1 hcontains.1 (hheads p hp)
    have hkeep : ∀ p ∈ (newer.filter (git.touches path)).map (parentPair git),
        (newer.contains p.1 && git.touches path p.1) = true := by
      intro p hp
      obtain ⟨h, hh, rfl⟩ := List.mem_map.mp hp
      rw [Bool.and_eq_true, List.contains_iff_mem]
      exact List.mem_filter.mp hh
    calc ((attempted.filter Attempt.isMainline).filter fun a =>
          newer.contains a.head && git.touches path a.head).map Attempt.pair
        = (attempted.map Attempt.pair).filter fun p =>
            newer.contains p.1 && git.touches path p.1 := by
          rw [hall, List.filter_map]
          rfl
      _ = (newer.filter (git.touches path)).map (parentPair git) := by
          rw [hpairs, List.filter_append, List.filter_eq_self.mpr hkeep,
            List.filter_eq_nil_iff.mpr hfilter, List.append_nil]
  have hempty : BoundaryKept git path newer e older attempted ↔ below = [] := by
    constructor
    · intro hkept
      refine List.eq_nil_iff_forall_not_mem.mpr fun p hp => ?_
      have hmem : p ∈ attempted.map Attempt.pair := by
        rw [hpairs]
        exact List.mem_append_right _ hp
      obtain ⟨a, ha, rfl⟩ := List.mem_map.mp hmem
      exact hkept.below a ha (hmain a ha) (hheads _ hp)
    · intro hnil
      refine ⟨fun a ha _ hmem => ?_, habove⟩
      have hpair : a.pair ∈ attempted.map Attempt.pair := List.mem_map_of_mem ha
      rw [hpairs, hnil, List.append_nil] at hpair
      obtain ⟨h, hh, heq⟩ := List.mem_map.mp hpair
      have hhead : h = a.head := congrArg Prod.fst heq
      exact hdisjoint a.head (hhead ▸ (List.mem_filter.mp hh).1) hmem
  rw [hempty, hbelow, BoundaryMet, and_or_left, or_assoc, or_left_comm,
    ← pairsFrom_eq_nil_iff hlinked.of_append he]
  by_cases hstop : PsString.equalsIgnoreCase e r = true ∧
      newer.getLast?.any (git.touches path) = true
  · rw [if_pos (by rw [hstop.1, hstop.2]; rfl)]
    exact iff_of_true rfl (.inl hstop)
  · rw [if_neg fun h => hstop (by rwa [Bool.and_eq_true] at h)]
    exact (or_iff_right hstop).symm

/-- **The walk boundary.** For every commit graph and target, and every `EndRef` whose
commit lies on the first-parent chain of the start: a walk that leaves for no other
reason keeps the boundary exactly when `EndRef` is the full hash of its commit and the
commit or its successor on the chain touches the target, or nothing from the commit on
could be paired. -/
theorem historyWalk_boundary_iff (git : Git) (cfg : HistorySettings) (path : String)
    (startRef endRef : Option String) (includeMergeParents : Bool)
    (mergeParentPlan : MergeParentPlan) (outcome : ℕ → PairOutcome) (m : ModeManifest)
    (start c r e : String) (newer older : List String)
    (hlimit : cfg.requestedPairs = none)
    (hrun : compareHistory git cfg path startRef endRef includeMergeParents mergeParentPlan
      outcome = .ok m)
    (hother : m.stats.stopReason.isOther = false)
    (hstart : resolvedStartRef git path startRef = .ok start) (hc : git.resolve start = some c)
    (hend : normalizeRef endRef = some r) (he : git.resolve r = some e)
    (hchain : git.firstParentChain c = newer ++ e :: older) :
    BoundaryKept git path newer e older m.attempted ↔
      BoundaryMet git path r newer e older := by
  obtain ⟨hpairs, hmain⟩ := attempted_compareHistory hlimit hrun hother hstart hc
  rw [hend, hchain] at hpairs
  have hlinked := linked_firstParentChain (git.resolve_isCommit _ _ hc)
  rw [hchain] at hlinked
  exact boundaryKept_iff hlinked he hmain hpairs

/-! ### A branch name as `EndRef` -/

def digitHash (c : Char) : String := String.ofList (List.replicate 40 c)

theorem toList_digitHash (c : Char) : (digitHash c).toList = List.replicate 40 c :=
  String.toList_ofList

theorem digitHash_inj {c d : Char} : digitHash c = digitHash d ↔ c = d := by
  simp [← String.toList_inj, toList_digitHash, List.replicate_inj]

def lineCommits : List String := [digitHash 'c', digitHash 'b', digitHash 'a']

def lineParents (c : String) : List String :=
  if c = digitHash 'c' then [digitHash 'b']
  else if c = digitHash 'b' then [digitHash 'a'] else []

def lineDepth (c : String) : ℕ :=
  if c = digitHash 'c' then 2 else if c = digitHash 'b' then 1 else 0

/-- `HEAD` is the newest commit of the line, and the branch `release` the one before. -/
def lineResolve (r : String) : Option String :=
  if r = "HEAD" then some (digitHash 'c')
  else if r = "release" then some (digitHash 'b')
  else lineCommits.find? fun c => PsString.equalsIgnoreCase c r

theorem lineResolve_mem {r c : String} (h : lineResolve r = some c) : c ∈ lineCommits := by
  rw [lineResolve] at h
  split at h
  · exact Option.some.inj h ▸ by simp [lineCommits]
  · split at h
    · exact Option.some.inj h ▸ by simp [lineCommits]
    · exact List.mem_of_find?_eq_some h

theorem lineResolve_hash {r c : String} (hc : c ∈ lineCommits)
    (h : PsString.equalsIgnoreCase c r = true) : lineResolve r = some c := by
  have hnames : ∀ c ∈ lineCommits, PsString.equalsIgnoreCase c "HEAD" = false ∧
      PsString.equalsIgnoreCase c "release" = false := by decide +kernel
  have hinj : ∀ c ∈ lineCommits, ∀ d ∈ lineCommits,
      PsString.toLowerInvariant d = PsString.toLowerInvariant c → d = c := by
    simp [lineCommits, PsString.toLowerInvariant, toList_digitHash, digitHash_inj]
  have hhead : r ≠ "HEAD" := by
    rintro rfl
    rw [(hnames c hc).1] at h
    cases h
  have hrelease : r ≠ "release" := by
    rintro rfl
    rw [(hnames c hc).2] at h
    cases h
  rw [lineResolve, if_neg hhead, if_neg hrelease]
  -- the first commit spelled like `r` is the only one
  cases hfind : lineCommits.find? fun c => PsString.equalsIgnoreCase c r with
  | none => exact absurd h (List.find?_eq_none.mp hfind c hc)
  | some d =>
    have hd := List.find?_some hfind
    rw [hinj c hc d (List.mem_of_find?_eq_some hfind)
      ((PsString.equalsIgnoreCase_iff.mp hd).trans (PsString.equalsIgnoreCase_iff.mp h).symm)]

theorem lineCommits_isFullHash : ∀ c ∈ lineCommits, isFullHash c = true := by
  simp [lineCommits, isFullHash, toList_digitHash, isHexDigit]

theorem lineCommits_parents : ∀ c ∈ lineCommits, ∀ p ∈ lineParents c,
    p ∈ lineCommits ∧ lineDepth p < lineDepth c := by
  simp [lineCommits, lineParents, lineDepth, digitHash_inj]

/-- Three commits in a line that all touch the target. -/
def lineGit : Git where
  isCommit c := lineCommits.contains c
  parents := lineParents
  depth := lineDepth
  resolve := lineResolve
  hasTarget _ _ := true
  touches _ _ := true
  diffTree _ _ := some true
  revListRange _ _ _ := some []
  isAncestor _ _ := some true
  isFullHash c hc := lineCommits_isFullHash c (List.contains_iff_mem.mp hc)
  parent c p hc hp :=
    (lineCommits_parents c (List.contains_iff_mem.mp hc) p hp).imp_left List.contains_iff_mem.mpr
  resolve_isCommit _ _ h := List.contains_iff_mem.mpr (lineResolve_mem h)
  resolve_hash _ _ hc h := lineResolve_hash (List.contains_iff_mem.mp hc) h

def lineWalk (endRef : String) : Except WalkFailure ModeManifest :=
  compareHistory lineGit ⟨none, 2, .collapse, false, false⟩ "a.vi" none (some endRef) false
    (fun _ _ _ _ _ => []) fun _ => .compared ⟨false, some 0, []⟩

theorem exists_lineWalk (endRef : String) (p : ModeManifest → Bool)
    (h : (lineWalk endRef).toOption.any p = true) : ∃ m, lineWalk endRef = .ok m ∧ p m = true := by
  cases hwalk : lineWalk endRef with
  | ok m =>
    rw [hwalk] at h
    exact ⟨m, rfl, h⟩
  | error e =>
    rw [hwalk] at h
    cases h

/-- The head of the second pair is the commit of `release`. -/
theorem not_boundaryKept_release :
    ∃ m, lineWalk "release" = .ok m ∧ m.stats.stopReason.isOther = false ∧
      resolvedStartRef lineGit "a.vi" none = .ok "HEAD" ∧
      lineGit.resolve "release" = some (digitHash 'b') ∧
      lineGit.firstParentChain (digitHash 'c') =
        [digitHash 'c'] ++ digitHash 'b' :: [digitHash 'a'] ∧
      ¬ BoundaryKept lineGit "a.vi" [digitHash 'c'] (digitHash 'b') [digitHash 'a']
        m.attempted := by
  obtain ⟨m, hm, h⟩ := exists_lineWalk "release" (fun m => !m.stats.stopReason.isOther &&
    m.attempted.any fun a => a.isMainline && decide (a.head = digitHash 'b')) (by decide +kernel)
  rw [Bool.and_eq_true, Bool.not_eq_true'] at h
  refine ⟨m, hm, h.1, rfl, by decide +kernel, by decide +kernel, fun hkept => ?_⟩
  obtain ⟨a, ha, hbelow⟩ := List.any_eq_true.mp h.2
  rw [Bool.and_eq_true, decide_eq_true_eq] at hbelow
  exact hkept.below a ha hbelow.1 (by rw [hbelow.2]; exact List.mem_cons_self)

/-- Spelled as its full hash, the same commit is a boundary. -/
theorem boundaryKept_fullHash :
    ∃ m, lineWalk (digitHash 'b') = .ok m ∧
      BoundaryKept lineGit "a.vi" [digitHash 'c'] (digitHash 'b') [digitHash 'a']
        m.attempted := by
  obtain ⟨m, hm, hother⟩ := exists_lineWalk (digitHash 'b')
    (fun m => !m.stats.stopReason.isOther) (by decide +kernel)
  rw [Bool.not_eq_true'] at hother
  refine ⟨m, hm, (historyWalk_boundary_iff lineGit _ "a.vi" none (some (digitHash 'b')) false _ _ m
    "HEAD" (digitHash 'c') (digitHash 'b') (digitHash 'b') [digitHash 'c'] [digitHash 'a'] rfl hm
    hother rfl rfl (by decide +kernel) (by decide +kernel) (by decide +kernel)).mpr ?_⟩
  exact .inl ⟨by decide +kernel, .inl rfl⟩

end CompareVI.History
