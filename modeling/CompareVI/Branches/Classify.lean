import CompareVI.Branches.Pattern
import CompareVI.Framework.Comparison
import Mathlib.Data.Set.Basic
import Mathlib.Order.CompletePartialOrder
import Mathlib.Tactic.Ring

/-!
# Branch classes

`classifyBranch` collects the patterns that match a branch among the classes allowed for a
repository role, and takes the one with the greatest score. Two patterns with the greatest score
are an ambiguity, whatever they match.

The score of a pattern is ten for each of its characters less one for each wildcard, so a
wildcard counts nine (`patternSpecificity_eq`). `specific_iff` says when the pattern that is taken
is a most specific one: the pattern that leads by the score must not match strictly more branches
than another one that matches. The order of the classes and of their patterns never matters
(`orderFree_classifyBranch`).
-/

open Framework

namespace CompareVI.Branches

/-! ### The contract -/

structure ClassInfo where
  id : Text
  purpose : Text
  prSourceAllowed : Bool
  prTargetAllowed : Bool
  mergePolicy : Text
deriving DecidableEq

/-- A class of `contract.classes`. What is no list is an empty one. -/
structure ClassEntry extends ClassInfo where
  repositoryRoles : List Text
  branchPatterns : List Text

/-- A plane of `contract.repositoryPlanes`. -/
structure PlaneEntry where
  id : Text
  repositories : List Text

structure Contract where
  upstreamRepository : Text
  repositoryPlanes : List PlaneEntry
  classes : List ClassEntry

/-- What `classifyBranch` throws. -/
inductive ClassifyError where
  | unsupportedRole (value : Text)
  | unsupportedPlane (value : Text)
  | repositoryRequired
  | ambiguous (branch role : Text)
deriving DecidableEq

/-! ### Roles and planes -/

def normalizeRepositoryRole (env : Casing) (value : Text) : Except ClassifyError Text :=
  let normalized := env.toLowerCase (JsString.trimList value)
  if normalized = [] then .ok []
  else if normalized ≠ "upstream".toList ∧ normalized ≠ "fork".toList then
    .error (.unsupportedRole value)
  else .ok normalized

def normalizeRepositoryPlane (env : Casing) (value : Text) : Except ClassifyError Text :=
  let normalized := env.toLowerCase (JsString.trimList value)
  if normalized = [] then .ok []
  else if normalized ∉ ["upstream".toList, "origin".toList, "personal".toList, "fork".toList] then
    .error (.unsupportedPlane value)
  else .ok normalized

def normalizeRepositorySlug (env : Casing) (value : Text) : Text :=
  env.toLowerCase (JsString.trimList value)

/-- The loop of `resolveRepositoryPlane`. -/
def findPlane (env : Casing) (repository : Text) : List PlaneEntry → Except ClassifyError Text
  | [] => .ok "fork".toList
  | plane :: rest => do
    let planeId ← normalizeRepositoryPlane env plane.id
    let repositories := (plane.repositories.map (normalizeRepositorySlug env)).filter (· ≠ [])
    if repository ∈ repositories then pure planeId else findPlane env repository rest

def resolveRepositoryPlane (env : Casing) (repository : Text) (contract : Contract) :
    Except ClassifyError Text :=
  let normalized := normalizeRepositorySlug env repository
  if normalized = [] then .error .repositoryRequired
  else if normalized = normalizeRepositorySlug env contract.upstreamRepository then
    .ok "upstream".toList
  else findPlane env normalized contract.repositoryPlanes

def resolveRepositoryRole (env : Casing) (repository : Text) (contract : Contract) :
    Except ClassifyError Text := do
  let plane ← resolveRepositoryPlane env repository contract
  pure (if plane = "upstream".toList then "upstream".toList else "fork".toList)

/-! ### Matching -/

/-- `length` of a string: its number of UTF-16 code units. -/
def unitLength (t : Text) : ℕ := (t.map fun c => if c.toNat < 0x10000 then 1 else 2).sum

def patternSpecificity (env : Casing) (pattern : Text) : ℤ :=
  let normalized := normalizeBranchName env pattern
  let wildcardCount := normalized.count '*'
  unitLength normalized * 10 - wildcardCount

/-- An element of `matches`. -/
structure Match where
  classEntry : ClassInfo
  pattern : Text
  specificity : ℤ
deriving DecidableEq

/-- What a class adds to `matches`. -/
def matchesOf (env : Casing) (role branch : Text) (entry : ClassEntry) :
    Except ClassifyError (List Match) := do
  let allowedRoles ← entry.repositoryRoles.mapM (normalizeRepositoryRole env)
  if role ∈ allowedRoles then
    pure ((entry.branchPatterns.filter (matchBranchPattern env branch)).map fun pattern =>
      ⟨entry.toClassInfo, pattern, patternSpecificity env pattern⟩)
  else pure []

def collectMatches (env : Casing) (role branch : Text) :
    List ClassEntry → Except ClassifyError (List Match)
  | [] => pure []
  | entry :: rest => do
    let here ← matchesOf env role branch entry
    let more ← collectMatches env role branch rest
    pure (here ++ more)

def bySpecificity : Comparison Match := (Comparison.ofKey Match.specificity).reverse

def pick (branch role : Text) (found : List Match) : Except ClassifyError (Option Match) :=
  match bySpecificity.sort found with
  | [] => .ok none
  | [m] => .ok (some m)
  | m :: n :: _ =>
    if m.specificity = n.specificity then .error (.ambiguous branch role) else .ok (some m)

/-- What `classifyBranch` returns. -/
structure Classification extends ClassInfo where
  repositoryRole : Text
  repositoryPlane : Text
  branch : Text
  matchedPattern : Text
deriving DecidableEq

/-- The role and the plane of a call. A text that is empty is as good as missing. -/
def resolveCall (env : Casing) (contract : Contract) (repositoryRole repository : Option Text) :
    Except ClassifyError (Text × Text) := do
  let role ← match repositoryRole.filter (· ≠ []) with
    | some role => normalizeRepositoryRole env role
    | none => resolveRepositoryRole env (repository.getD []) contract
  let repositoryPlane ← match repository.filter (· ≠ []) with
    | some repository => resolveRepositoryPlane env repository contract
    | none => pure role
  pure (role, repositoryPlane)

def Match.classification (m : Match) (role plane branch : Text) : Classification where
  toClassInfo := m.classEntry
  repositoryRole := role
  repositoryPlane := plane
  branch := branch
  matchedPattern := m.pattern

/-- The loop of `classifyBranch` and what comes behind it. -/
def takeClass (env : Casing) (role plane branch : Text) (classes : List ClassEntry) :
    Except ClassifyError (Option Classification) := do
  let found ← collectMatches env role branch classes
  let selected ← pick branch role found
  pure (selected.map fun m => m.classification role plane branch)

def classifyBranch (env : Casing) (branch : Text) (contract : Contract)
    (repositoryRole repository : Option Text) :
    Except ClassifyError (Option Classification) :=
  let normalizedBranch := normalizeBranchName env branch
  if normalizedBranch = [] then .ok none
  else do
    let (role, plane) ← resolveCall env contract repositoryRole repository
    takeClass env role plane normalizedBranch contract.classes

/-! ### The laws -/

def branchesOf (env : Casing) (pattern : Text) : Set Text :=
  {branch | matchBranchPattern env branch pattern = true}

def ClassEntry.allows (env : Casing) (role : Text) (entry : ClassEntry) : Bool :=
  entry.repositoryRoles.any fun value => (normalizeRepositoryRole env value).toOption = some role

def matchingPatterns (env : Casing) (role branch : Text) (classes : List ClassEntry) : List Text :=
  (classes.filter (·.allows env role)).flatMap fun entry =>
    entry.branchPatterns.filter (matchBranchPattern env branch)

/-- The class that is returned, if there is one, was found by a most specific pattern. -/
def Specific (env : Casing) (branch : Text) (contract : Contract)
    (repositoryRole repository : Option Text) : Prop :=
  ∀ c, classifyBranch env branch contract repositoryRole repository = .ok (some c) →
    ∀ q ∈ matchingPatterns env c.repositoryRole c.branch contract.classes,
      ¬ branchesOf env q ⊂ branchesOf env c.matchedPattern

/-- A class whose patterns are in another order. -/
def SameClass (a b : ClassEntry) : Prop :=
  a.toClassInfo = b.toClassInfo ∧ a.repositoryRoles = b.repositoryRoles ∧
    a.branchPatterns.Perm b.branchPatterns

/-- A contract whose classes, and the patterns in them, are in another order. -/
structure Reordered (a b : Contract) : Prop where
  upstream : a.upstreamRepository = b.upstreamRepository
  planes : a.repositoryPlanes = b.repositoryPlanes
  classes : ∃ mid, a.classes.Perm mid ∧ List.Forall₂ SameClass mid b.classes

/-- The results are the same, but for the role of a class that an error names. -/
def SameOutcome (a b : Except ClassifyError (Option Classification)) : Prop :=
  a = b ∨ ∃ v w, a = .error (.unsupportedRole v) ∧ b = .error (.unsupportedRole w)

/-- The order of the classes and of their patterns does not matter. -/
def OrderFree (env : Casing) (branch : Text) (contract : Contract)
    (repositoryRole repository : Option Text) : Prop :=
  ∀ contract', Reordered contract contract' →
    SameOutcome (classifyBranch env branch contract repositoryRole repository)
      (classifyBranch env branch contract' repositoryRole repository)

/-! ### Scores -/

def literals (env : Casing) (pattern : Text) : ℕ :=
  unitLength ((normalizeBranchName env pattern).filter (· ≠ '*'))

def wildcards (env : Casing) (pattern : Text) : ℕ := (normalizeBranchName env pattern).count '*'

theorem patternSpecificity_eq (env : Casing) (pattern : Text) :
    patternSpecificity env pattern = 10 * literals env pattern + 9 * wildcards env pattern := by
  have hsplit : ∀ t : Text, unitLength t = unitLength (t.filter (· ≠ '*')) + t.count '*' := by
    intro t
    induction t with
    | nil => rfl
    | cons c t ih =>
      simp only [unitLength] at ih ⊢
      by_cases hc : c = '*'
      · subst hc
        rw [List.filter_cons_of_neg (by simp), List.count_cons_self, List.map_cons, List.sum_cons,
          ih, if_pos (by decide)]
        omega
      · rw [List.filter_cons_of_pos (by simpa using hc), List.count_cons_of_ne hc, List.map_cons,
          List.sum_cons, ih, List.map_cons, List.sum_cons]
        omega
  rw [patternSpecificity, hsplit (normalizeBranchName env pattern), literals, wildcards]
  push_cast
  ring

/-- The pattern alone has the greatest score among some patterns. -/
def Leads (env : Casing) (p : Text) (patterns : List Text) : Prop :=
  ∃ others, patterns.Perm (p :: others) ∧ ∀ r ∈ others,
    10 * literals env r + 9 * wildcards env r < 10 * literals env p + 9 * wildcards env p

/-! ### What is collected -/

/-- All roles of the classes are known ones. -/
def KnownRoles (env : Casing) (classes : List ClassEntry) : Prop :=
  ∀ entry ∈ classes, ∀ value ∈ entry.repositoryRoles,
    ∃ role, normalizeRepositoryRole env value = .ok role

def matchWith (env : Casing) (entry : ClassInfo) (pattern : Text) : Match :=
  ⟨entry, pattern, patternSpecificity env pattern⟩

def foundIn (env : Casing) (role branch : Text) (entry : ClassEntry) : List Match :=
  if entry.allows env role then
    (entry.branchPatterns.filter (matchBranchPattern env branch)).map
      (matchWith env entry.toClassInfo)
  else []

section Collect

variable {env : Casing} {role branch : Text}

theorem normalizeRepositoryRole_cases (env : Casing) (value : Text) :
    (∃ role, normalizeRepositoryRole env value = .ok role) ∨
      normalizeRepositoryRole env value = .error (.unsupportedRole value) := by
  rw [normalizeRepositoryRole]
  split
  · exact .inl ⟨_, rfl⟩
  · split
    · exact .inr rfl
    · exact .inl ⟨_, rfl⟩

theorem mapM_normalizeRepositoryRole (env : Casing) (values : List Text) :
    ((∀ value ∈ values, ∃ role, normalizeRepositoryRole env value = .ok role) ∧
        ∃ roles, values.mapM (normalizeRepositoryRole env) = .ok roles ∧
          ∀ role, role ∈ roles ↔
            ∃ value ∈ values, (normalizeRepositoryRole env value).toOption = some role) ∨
      ((¬ ∀ value ∈ values, ∃ role, normalizeRepositoryRole env value = .ok role) ∧
        ∃ v, values.mapM (normalizeRepositoryRole env) = .error (.unsupportedRole v)) := by
  induction values with
  | nil => exact .inl ⟨List.forall_mem_nil _, [], rfl, by simp⟩
  | cons value values ih =>
    rw [List.mapM_cons]
    rcases normalizeRepositoryRole_cases env value with ⟨role, hrole⟩ | herror
    · rw [hrole]
      rcases ih with ⟨hknown, roles, hroles, hmem⟩ | ⟨hunknown, v, hv⟩
      · rw [hroles]
        refine .inl ⟨List.forall_mem_cons.mpr ⟨⟨role, hrole⟩, hknown⟩, role :: roles, rfl, ?_⟩
        intro r
        rw [List.mem_cons, hmem, List.exists_mem_cons_iff, hrole]
        exact or_congr_left (by simp [Except.toOption, eq_comm])
      · rw [hv]
        exact .inr ⟨fun h => hunknown (List.forall_mem_cons.mp h).2, v, rfl⟩
    · rw [herror]
      refine .inr ⟨fun h => ?_, value, rfl⟩
      obtain ⟨role, hrole⟩ := (List.forall_mem_cons.mp h).1
      rw [herror] at hrole
      cases hrole

/-- **What is collected**: the matches of the classes, unless a role is refused. -/
theorem collectMatches_cases (env : Casing) (role branch : Text) (classes : List ClassEntry) :
    (KnownRoles env classes ∧
        collectMatches env role branch classes = .ok (classes.flatMap (foundIn env role branch))) ∨
      (¬ KnownRoles env classes ∧
        ∃ v, collectMatches env role branch classes = .error (.unsupportedRole v)) := by
  induction classes with
  | nil => exact .inl ⟨List.forall_mem_nil _, rfl⟩
  | cons entry rest ih =>
    rw [collectMatches, matchesOf]
    rcases mapM_normalizeRepositoryRole env entry.repositoryRoles with
      ⟨hknown, roles, hroles, hmem⟩ | ⟨hunknown, v, hv⟩
    · have hallows : entry.allows env role = true ↔ role ∈ roles := by
        rw [ClassEntry.allows, List.any_eq_true, hmem]
        simp only [decide_eq_true_eq]
      have hhere : (do
          let allowedRoles ← entry.repositoryRoles.mapM (normalizeRepositoryRole env)
          if role ∈ allowedRoles then
            pure ((entry.branchPatterns.filter (matchBranchPattern env branch)).map fun pattern =>
              (⟨entry.toClassInfo, pattern, patternSpecificity env pattern⟩ : Match))
          else pure [] : Except ClassifyError (List Match)) =
          .ok (foundIn env role branch entry) := by
        rw [hroles, foundIn]
        by_cases hrole : role ∈ roles
        · rw [if_pos (hallows.mpr hrole)]
          exact if_pos hrole
        · rw [if_neg fun h => hrole (hallows.mp h)]
          exact if_neg hrole
      rw [hhere]
      rcases ih with ⟨hrest, hcollect⟩ | ⟨hrest, v, hv⟩
      · rw [hcollect, List.flatMap_cons]
        exact .inl ⟨List.forall_mem_cons.mpr ⟨hknown, hrest⟩, rfl⟩
      · rw [hv]
        exact .inr ⟨fun h => hrest (List.forall_mem_cons.mp h).2, v, rfl⟩
    · rw [hv]
      exact .inr ⟨fun h => hunknown (List.forall_mem_cons.mp h).1, v, rfl⟩

end Collect

/-! ### What is taken -/

section Pick

variable {branch role : Text} {found found' : List Match} {m : Match}

theorem bySpecificity_le (a b : Match) :
    bySpecificity.le a b = true ↔ b.specificity ≤ a.specificity := by
  rw [bySpecificity, Comparison.reverse_le, Comparison.ofKey_le]

theorem pick_eq_none_iff : pick branch role found = .ok none ↔ found = [] := by
  have hperm := bySpecificity.sort_perm found
  rw [pick]
  split
  · next hsort =>
    rw [hsort] at hperm
    exact iff_of_true rfl (List.nil_perm.mp hperm)
  · next m hsort =>
    rw [hsort] at hperm
    exact iff_of_false nofun fun h => (List.cons_ne_nil m []) (List.perm_nil.mp (h ▸ hperm))
  · next m n rest hsort =>
    rw [hsort] at hperm
    have hne : found ≠ [] := fun h => (List.cons_ne_nil m _) (List.perm_nil.mp (h ▸ hperm))
    split
    · exact iff_of_false nofun hne
    · exact iff_of_false nofun hne

/-- **The match that is taken** has the greatest score alone. -/
theorem pick_eq_some_iff :
    pick branch role found = .ok (some m) ↔
      ∃ others, found.Perm (m :: others) ∧ ∀ x ∈ others, x.specificity < m.specificity := by
  have hperm := bySpecificity.sort_perm found
  have hsorted := bySpecificity.sort_pairwise found
  rw [pick]
  cases hsort : bySpecificity.sort found with
  | nil =>
    rw [hsort] at hperm
    refine iff_of_false nofun ?_
    rintro ⟨others, hothers, -⟩
    exact List.cons_ne_nil m others (List.nil_perm.mp (hperm.trans hothers))
  | cons x rest =>
    rw [hsort] at hperm hsorted
    have hgreatest : ∀ y ∈ rest, y.specificity ≤ x.specificity := fun y hy =>
      (bySpecificity_le x y).mp ((List.pairwise_cons.mp hsorted).1 y hy)
    -- whatever leads is the first of the sorted list
    have hfirst : ∀ others, found.Perm (m :: others) →
        (∀ y ∈ others, y.specificity < m.specificity) → m = x ∧ rest.Perm others := by
      intro others hothers hless
      have hall : (x :: rest).Perm (m :: others) := hperm.trans hothers
      have hx : x ∈ m :: others := hall.mem_iff.mp List.mem_cons_self
      have hm : m ∈ x :: rest := hall.mem_iff.mpr List.mem_cons_self
      have hle : m.specificity ≤ x.specificity := by
        rcases List.mem_cons.mp hm with rfl | hm
        · exact le_rfl
        · exact hgreatest m hm
      rcases List.mem_cons.mp hx with rfl | hx
      · exact ⟨rfl, hall.cons_inv⟩
      · exact absurd (hless x hx) (not_lt.mpr hle)
    cases rest with
    | nil =>
      constructor
      · intro h
        obtain rfl : x = m := Option.some.inj (Except.ok.inj h)
        exact ⟨[], hperm.symm, List.forall_mem_nil _⟩
      · rintro ⟨others, hothers, hless⟩
        rw [(hfirst others hothers hless).1]
    | cons y rest =>
      dsimp only
      split
      · next htie =>
        refine iff_of_false nofun ?_
        rintro ⟨others, hothers, hless⟩
        obtain ⟨rfl, hrest⟩ := hfirst others hothers hless
        have hy := hless y (hrest.mem_iff.mp List.mem_cons_self)
        exact absurd hy (not_lt.mpr htie.le)
      · next hne =>
        constructor
        · intro h
          obtain rfl : x = m := Option.some.inj (Except.ok.inj h)
          refine ⟨y :: rest, hperm.symm, fun z hz => ?_⟩
          have hyx : y.specificity < x.specificity :=
            lt_of_le_of_ne (hgreatest y List.mem_cons_self) (Ne.symm hne)
          rcases List.mem_cons.mp hz with rfl | hz
          · exact hyx
          · have hzy := (List.pairwise_cons.mp (List.pairwise_cons.mp hsorted).2).1 z hz
            exact ((bySpecificity_le y z).mp hzy).trans_lt hyx
        · rintro ⟨others, hothers, hless⟩
          rw [(hfirst others hothers hless).1]

theorem pick_eq_error {e : ClassifyError} (h : pick branch role found = .error e) :
    e = .ambiguous branch role := by
  rw [pick] at h
  split at h
  · cases h
  · cases h
  · split at h
    · exact (Except.error.inj h).symm
    · cases h

theorem pick_perm (h : found.Perm found') : pick branch role found = pick branch role found' := by
  cases hpick : pick branch role found with
  | ok taken =>
    cases taken with
    | none =>
      rw [pick_eq_none_iff] at hpick
      rw [hpick, List.nil_perm] at h
      exact (pick_eq_none_iff.mpr h).symm
    | some m =>
      obtain ⟨others, hothers, hless⟩ := pick_eq_some_iff.mp hpick
      exact (pick_eq_some_iff.mpr ⟨others, h.symm.trans hothers, hless⟩).symm
  | error e =>
    cases hpick' : pick branch role found' with
    | ok taken =>
      cases taken with
      | none =>
        rw [pick_eq_none_iff] at hpick'
        rw [hpick', List.perm_nil] at h
        rw [pick_eq_none_iff.mpr h] at hpick
        cases hpick
      | some m =>
        obtain ⟨others, hothers, hless⟩ := pick_eq_some_iff.mp hpick'
        rw [pick_eq_some_iff.mpr ⟨others, h.trans hothers, hless⟩] at hpick
        cases hpick
    | error e' => rw [pick_eq_error hpick, pick_eq_error hpick']

end Pick

/-! ### The laws of `classifyBranch` -/

section Laws

variable {env : Casing} {branch role plane : Text} {contract : Contract}
  {repositoryRole repository : Option Text}

theorem map_pattern_found (env : Casing) (role branch : Text) (classes : List ClassEntry) :
    (classes.flatMap (foundIn env role branch)).map Match.pattern =
      matchingPatterns env role branch classes := by
  induction classes with
  | nil => rfl
  | cons entry rest ih =>
    rw [List.flatMap_cons, List.map_append, ih, matchingPatterns, matchingPatterns, foundIn]
    by_cases hallows : entry.allows env role = true
    · rw [List.filter_cons_of_pos hallows, List.flatMap_cons, if_pos hallows, List.map_map]
      exact congrArg (· ++ _) (List.map_id _)
    · rw [List.filter_cons_of_neg hallows, if_neg hallows]
      rfl

variable {classes classes' mid : List ClassEntry}

theorem specificity_of_found {m : Match} (hm : m ∈ classes.flatMap (foundIn env role branch)) :
    m.specificity = 10 * literals env m.pattern + 9 * wildcards env m.pattern := by
  obtain ⟨entry, -, hm⟩ := List.mem_flatMap.mp hm
  rw [foundIn] at hm
  split at hm
  · obtain ⟨pattern, -, rfl⟩ := List.mem_map.mp hm
    exact patternSpecificity_eq env pattern
  · cases hm

theorem leads_iff {p : Text} :
    Leads env p (matchingPatterns env role branch classes) ↔
      ∃ m, pick branch role (classes.flatMap (foundIn env role branch)) = .ok (some m) ∧
        m.pattern = p := by
  have hscore : ∀ m ∈ classes.flatMap (foundIn env role branch), ∀ n ∈
      classes.flatMap (foundIn env role branch), m.specificity < n.specificity ↔
        10 * literals env m.pattern + 9 * wildcards env m.pattern <
          10 * literals env n.pattern + 9 * wildcards env n.pattern := by
    intro m hm n hn
    rw [specificity_of_found hm, specificity_of_found hn]
    norm_cast
  rw [← map_pattern_found]
  constructor
  · rintro ⟨others, hperm, hless⟩
    have hp : p ∈ (classes.flatMap (foundIn env role branch)).map Match.pattern :=
      hperm.mem_iff.mpr List.mem_cons_self
    obtain ⟨m, hm, rfl⟩ := List.mem_map.mp hp
    obtain ⟨pre, post, hfound⟩ := List.append_of_mem hm
    have hmiddle : (classes.flatMap (foundIn env role branch)).Perm (m :: (pre ++ post)) := by
      rw [hfound]
      exact List.perm_middle
    have hothers : ((pre ++ post).map Match.pattern).Perm others :=
      ((hmiddle.map Match.pattern).symm.trans hperm).cons_inv
    refine ⟨m, pick_eq_some_iff.mpr ⟨pre ++ post, hmiddle, fun x hx => ?_⟩, rfl⟩
    have hx' : x ∈ classes.flatMap (foundIn env role branch) :=
      hmiddle.mem_iff.mpr (List.mem_cons_of_mem m hx)
    exact (hscore x hx' m hm).mpr
      (hless x.pattern (hothers.mem_iff.mp (List.mem_map_of_mem hx)))
  · rintro ⟨m, hpick, rfl⟩
    obtain ⟨others, hperm, hless⟩ := pick_eq_some_iff.mp hpick
    refine ⟨others.map Match.pattern, hperm.map Match.pattern, fun r hr => ?_⟩
    obtain ⟨x, hx, rfl⟩ := List.mem_map.mp hr
    exact (hscore x (hperm.mem_iff.mpr (List.mem_cons_of_mem m hx)) m
      (hperm.mem_iff.mpr List.mem_cons_self)).mp (hless x hx)

/-- **What is taken**, unless a role is refused. -/
theorem takeClass_cases (env : Casing) (role plane branch : Text) (classes : List ClassEntry) :
    (KnownRoles env classes ∧ takeClass env role plane branch classes =
        (pick branch role (classes.flatMap (foundIn env role branch))).map
          (Option.map fun m => m.classification role plane branch)) ∨
      (¬ KnownRoles env classes ∧
        ∃ v, takeClass env role plane branch classes = .error (.unsupportedRole v)) := by
  rw [takeClass]
  rcases collectMatches_cases env role branch classes with ⟨hroles, h⟩ | ⟨hroles, v, h⟩
  · rw [h]
    exact .inl ⟨hroles, rfl⟩
  · rw [h]
    exact .inr ⟨hroles, v, rfl⟩

theorem classifyBranch_of_call (hbranch : normalizeBranchName env branch ≠ [])
    (hcall : resolveCall env contract repositoryRole repository = .ok (role, plane)) :
    classifyBranch env branch contract repositoryRole repository =
      takeClass env role plane (normalizeBranchName env branch) contract.classes := by
  rw [classifyBranch, if_neg hbranch, hcall]
  rfl

theorem classifyBranch_eq_some {c : Classification}
    (h : classifyBranch env branch contract repositoryRole repository = .ok (some c)) :
    ∃ role plane m, normalizeBranchName env branch ≠ [] ∧
      resolveCall env contract repositoryRole repository = .ok (role, plane) ∧
      KnownRoles env contract.classes ∧
      pick (normalizeBranchName env branch) role
        (contract.classes.flatMap (foundIn env role (normalizeBranchName env branch))) =
          .ok (some m) ∧
      c = m.classification role plane (normalizeBranchName env branch) := by
  by_cases hbranch : normalizeBranchName env branch = []
  · rw [classifyBranch, if_pos hbranch] at h
    cases h
  cases hcall : resolveCall env contract repositoryRole repository with
  | error e =>
    rw [classifyBranch, if_neg hbranch, hcall] at h
    cases h
  | ok call =>
    obtain ⟨role, plane⟩ := call
    rw [classifyBranch_of_call hbranch hcall] at h
    rcases takeClass_cases env role plane (normalizeBranchName env branch) contract.classes with
      ⟨hroles, htake⟩ | ⟨-, v, hv⟩
    · rw [htake] at h
      cases hpick : pick (normalizeBranchName env branch) role
        (contract.classes.flatMap (foundIn env role (normalizeBranchName env branch))) with
      | error e =>
        rw [hpick] at h
        cases h
      | ok taken =>
        rw [hpick] at h
        obtain ⟨m, rfl, hm⟩ := Option.map_eq_some_iff.mp (Except.ok.inj h)
        exact ⟨role, plane, m, hbranch, rfl, hroles, hpick, hm.symm⟩
    · rw [hv] at h
      cases h

theorem knownRoles_reordered (hmid : classes.Perm mid)
    (hsame : List.Forall₂ SameClass mid classes') :
    KnownRoles env classes ↔ KnownRoles env classes' := by
  have hperm : KnownRoles env classes ↔ KnownRoles env mid :=
    forall_congr' fun entry => imp_congr_left hmid.mem_iff
  rw [hperm]
  clear hmid hperm
  induction hsame with
  | nil => exact Iff.rfl
  | cons hhead _ ih =>
    rw [KnownRoles, KnownRoles, List.forall_mem_cons, List.forall_mem_cons, hhead.2.1]
    exact and_congr_right fun _ => ih

theorem found_reordered (hmid : classes.Perm mid) (hsame : List.Forall₂ SameClass mid classes') :
    (classes.flatMap (foundIn env role branch)).Perm
      (classes'.flatMap (foundIn env role branch)) := by
  refine (hmid.flatMap_right _).trans ?_
  clear hmid
  induction hsame with
  | nil => exact .refl _
  | @cons a b _ _ hhead _ ih =>
    obtain ⟨hinfo, hroles, hpatterns⟩ := hhead
    rw [List.flatMap_cons, List.flatMap_cons]
    refine .append ?_ ih
    rw [foundIn, foundIn, ClassEntry.allows, ClassEntry.allows, hroles, hinfo]
    split
    · exact (hpatterns.filter _).map _
    · exact .refl _

/-- **The order of the classes and of their patterns** does not matter. -/
theorem orderFree_classifyBranch (env : Casing) (branch : Text) (contract : Contract)
    (repositoryRole repository : Option Text) :
    OrderFree env branch contract repositoryRole repository := by
  rintro contract' ⟨hupstream, hplanes, mid, hmid, hsame⟩
  have hcall : resolveCall env contract' repositoryRole repository =
      resolveCall env contract repositoryRole repository := by
    simp only [resolveCall, resolveRepositoryRole, resolveRepositoryPlane, hupstream, hplanes]
  by_cases hbranch : normalizeBranchName env branch = []
  · rw [classifyBranch, classifyBranch, if_pos hbranch, if_pos hbranch]
    exact .inl rfl
  cases hresolved : resolveCall env contract repositoryRole repository with
  | error e =>
    rw [classifyBranch, classifyBranch, if_neg hbranch, if_neg hbranch, hcall, hresolved]
    exact .inl rfl
  | ok call =>
    obtain ⟨role, plane⟩ := call
    rw [classifyBranch_of_call hbranch hresolved,
      classifyBranch_of_call hbranch (hcall.trans hresolved)]
    rcases takeClass_cases env role plane (normalizeBranchName env branch) contract.classes with
      ⟨hroles, htake⟩ | ⟨hroles, v, hv⟩
    · rcases takeClass_cases env role plane (normalizeBranchName env branch) contract'.classes with
        ⟨-, htake'⟩ | ⟨hroles', -⟩
      · rw [htake, htake', pick_perm (found_reordered hmid hsame)]
        exact .inl rfl
      · exact absurd ((knownRoles_reordered hmid hsame).mp hroles) hroles'
    · rcases takeClass_cases env role plane (normalizeBranchName env branch) contract'.classes with
        ⟨hroles', -⟩ | ⟨-, w, hw⟩
      · exact absurd ((knownRoles_reordered hmid hsame).mpr hroles') hroles
      · exact .inr ⟨v, w, hv, hw⟩

/-- **The laws of `classifyBranch`.** The order never matters, and the pattern that is taken is a
most specific one exactly if the pattern with the greatest score, ten for a character that stands
for itself and nine for a wildcard character, does not match strictly more branches than another
one that matches. -/
theorem specific_iff (env : Casing) (branch : Text) (contract : Contract)
    (repositoryRole repository : Option Text) :
    (Specific env branch contract repositoryRole repository ∧
        OrderFree env branch contract repositoryRole repository) ↔
      ∀ role plane, normalizeBranchName env branch ≠ [] →
        resolveCall env contract repositoryRole repository = .ok (role, plane) →
        KnownRoles env contract.classes →
        ∀ p q, Leads env p
            (matchingPatterns env role (normalizeBranchName env branch) contract.classes) →
          q ∈ matchingPatterns env role (normalizeBranchName env branch) contract.classes →
          ¬ branchesOf env q ⊂ branchesOf env p := by
  rw [and_iff_left (orderFree_classifyBranch env branch contract repositoryRole repository)]
  constructor
  · intro hspecific role plane hbranch hcall hroles p q hleads hq
    obtain ⟨m, hpick, rfl⟩ := leads_iff.mp hleads
    refine hspecific (m.classification role plane (normalizeBranchName env branch)) ?_ q hq
    rw [classifyBranch_of_call hbranch hcall]
    rcases takeClass_cases env role plane (normalizeBranchName env branch) contract.classes with
      ⟨-, htake⟩ | ⟨hunknown, -⟩
    · rw [htake, hpick]
      rfl
    · exact absurd hroles hunknown
  · intro h c hc q hq
    obtain ⟨role, plane, m, hbranch, hcall, hroles, hpick, rfl⟩ := classifyBranch_eq_some hc
    exact h role plane hbranch hcall hroles m.pattern q (leads_iff.mpr ⟨m, hpick, rfl⟩) hq

end Laws

/-! ### A wildcard that is more specific -/

def upstreamClass (id pattern : String) : ClassEntry where
  id := id.toList
  purpose := []
  prSourceAllowed := false
  prTargetAllowed := true
  mergePolicy := []
  repositoryRoles := ["upstream".toList]
  branchPatterns := [pattern.toList]

def developContract : Contract where
  upstreamRepository := "owner/repo".toList
  repositoryPlanes := []
  classes := [upstreamClass "integration" "develop", upstreamClass "development" "develop*"]

theorem branchesOf_develop_ssubset :
    branchesOf greekCasing "develop".toList ⊂ branchesOf greekCasing "develop*".toList := by
  have htokens : tokens (JsString.trimList (normalizeBranchName greekCasing "develop*".toList)) =
      tokens (JsString.trimList (normalizeBranchName greekCasing "develop".toList)) ++ [.star] := by
    decide +kernel
  rw [Set.ssubset_iff_of_subset]
  · have hwide : matchBranchPattern greekCasing "develops".toList "develop*".toList = true := by
      decide +kernel
    have hnarrow : ¬ matchBranchPattern greekCasing "develops".toList "develop".toList = true := by
      decide +kernel
    exact ⟨"develops".toList, hwide, hnarrow⟩
  · intro b hb
    obtain ⟨hbranch, -, hmatches⟩ := (matchBranchPattern_eq_true_iff _ _ _).mp hb
    refine (matchBranchPattern_eq_true_iff _ _ _).mpr ⟨hbranch, by decide +kernel, ?_⟩
    rw [htokens]
    exact hmatches.append_star

/-- The branch `develop` is in the wider class. -/
theorem not_specific_develop :
    ¬ (Specific greekCasing "develop".toList developContract (some "upstream".toList) none ∧
      OrderFree greekCasing "develop".toList developContract (some "upstream".toList) none) := by
  rintro ⟨hspecific, -⟩
  have hclass : classifyBranch greekCasing "develop".toList developContract
      (some "upstream".toList) none = .ok (some
        { (upstreamClass "development" "develop*").toClassInfo with
          repositoryRole := "upstream".toList
          repositoryPlane := "upstream".toList
          branch := "develop".toList
          matchedPattern := "develop*".toList }) := by
    decide +kernel
  exact hspecific _ hclass "develop".toList (by decide +kernel) branchesOf_develop_ssubset

end CompareVI.Branches
