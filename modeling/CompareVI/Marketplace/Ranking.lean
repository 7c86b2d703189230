import CompareVI.Framework.Keyed
import CompareVI.Marketplace.Program
import Mathlib.Data.String.Basic

/-!
# The order of the lane marketplace

The entries of a snapshot should be the repositories in the order of their eligibility, their
tier, their rail, the bias that the registry gives them and their name, whatever the order of
the registry, and the recommendation the first of them that may be taken (`RankingLaw`).

The bias does not reach the comparator: `buildStandingEntryBase` does not copy it, and the
ranking reads a missing bias as zero. So the entries are in the order of the other keys
(`entries_eq`), and the law holds exactly where the bias never disagrees with the name
(`rankingLaw_iff`).
-/

open Framework

namespace CompareVI.Marketplace

/-! ### The law -/

section Law

variable (env : StandingOutcomes) (collation : Comparison String)

def standingReady (r : MarketplaceRepository) : Bool :=
  r.enabled && match env.resolveStandingPriorityForRepo r.slug (labelsFor env r) with
    | .ok found => (numbered found).isSome
    | .error _ => false

def eligibilityOrder : Comparison MarketplaceRepository :=
  Comparison.ofKey fun r => if standingReady env r then 0 else 1

def authorityOrder : Comparison MarketplaceRepository :=
  Comparison.ofKey fun r => readRank AUTHORITY_TIER_ORDER r.authorityTier 99

def promotionOrder : Comparison MarketplaceRepository :=
  Comparison.ofKey fun r => readRank PROMOTION_RAIL_ORDER r.promotionRail 99

def biasOrder : Comparison MarketplaceRepository := Comparison.ofKey fun r => r.priorityBias

def nameOrder : Comparison MarketplaceRepository := collation.comap fun r => r.slug

def marketplaceOrder : Comparison MarketplaceRepository :=
  (eligibilityOrder env).thenBy (authorityOrder.thenBy (promotionOrder.thenBy
    (biasOrder.thenBy (nameOrder collation))))

/-- Everything about the repositories is the same but the bias and the name. -/
def SameTier (r s : MarketplaceRepository) : Prop :=
  (eligibilityOrder env).Ties r s ∧ authorityOrder.Ties r s ∧ promotionOrder.Ties r s

def mayTake (currentRepository : Option String) (requireDifferentRepository : Bool)
    (r : MarketplaceRepository) : Bool :=
  standingReady env r && !isExcluded currentRepository requireDifferentRepository r.slug

/-- What is wanted of a snapshot. -/
structure RankingLaw (registry : MarketplaceRegistry) (snapshot : MarketplaceSnapshot) :
    Prop where
  /-- The entries are those of the repositories in order, and the first one that may be taken
  is recommended. -/
  sorted : ∃ order : List MarketplaceRepository, order.Perm registry.repositories ∧
    order.Pairwise (fun r s => (marketplaceOrder env collation).le r s = true) ∧
    snapshot.entries.map (fun entry => Except.ok entry.toMarketplaceEntry) =
      order.map (collectMarketplaceEntry env) ∧
    ∀ currentRepository requireDifferentRepository,
      (selectMarketplaceRecommendation snapshot currentRepository
          requireDifferentRepository).map (·.repository) =
        (order.find? (mayTake env currentRepository requireDifferentRepository)).map (·.slug)
  independent : ∀ registry' : MarketplaceRegistry,
    registry'.repositories.Perm registry.repositories →
      ∃ snapshot', collectMarketplaceSnapshot env collation registry' = .ok snapshot' ∧
        snapshot'.entries = snapshot.entries

/-- Of two repositories that only the bias and the name tell apart, the first by name does not
have the larger bias, and the names differ for the collation. -/
def BiasAgrees (registry : MarketplaceRegistry) : Prop :=
  ∀ r ∈ registry.repositories, ∀ s ∈ registry.repositories, r ≠ s → SameTier env r s →
    collation.le r.slug s.slug = true →
      collation.le s.slug r.slug = false ∧ r.priorityBias ≤ s.priorityBias

end Law

/-! ### Entries -/

section Entries

variable {env : StandingOutcomes} {collation : Comparison String}
  {registry : MarketplaceRegistry} {snapshot : MarketplaceSnapshot}
  {r s : MarketplaceRepository} {entry : MarketplaceEntry}

theorem collectMarketplaceEntry_spec (h : collectMarketplaceEntry env r = .ok entry) :
    entry.toStandingEntryBase = buildStandingEntryBase r (labelsFor env r) ∧
      entry.eligible = standingReady env r := by
  rw [collectMarketplaceEntry] at h
  by_cases hdisabled : r.enabled = false
  · rw [if_pos hdisabled] at h
    obtain rfl := Except.ok.inj h
    exact ⟨rfl, by rw [standingReady, hdisabled]; rfl⟩
  · rw [if_neg hdisabled] at h
    have henabled : r.enabled = true := by simpa using hdisabled
    rw [standingReady, henabled, Bool.true_and]
    cases hresolve : env.resolveStandingPriorityForRepo r.slug (labelsFor env r) with
    | error message =>
      rw [hresolve] at h
      cases h
    | ok found =>
      cases hnumbered : numbered found with
      | some issue =>
        simp only [hresolve, hnumbered, bind, Except.bind, pure, Except.pure] at h
        obtain rfl := Except.ok.inj h
        exact ⟨rfl, by simp only [readyEntry, hnumbered, Option.isSome_some]⟩
      | none =>
        cases hclass : env.classifyNoStandingPriorityCondition r.slug (labelsFor env r) with
        | error message =>
          simp only [hresolve, hnumbered, hclass, bind, Except.bind] at h
          cases h
        | ok classification =>
          simp only [hresolve, hnumbered, hclass, bind, Except.bind, pure, Except.pure] at h
          obtain rfl := Except.ok.inj h
          exact ⟨rfl, by simp only [unreadyEntry, hnumbered, Option.isSome_none]⟩

def entryOf (env : StandingOutcomes) (r : MarketplaceRepository) : MarketplaceEntry :=
  (collectMarketplaceEntry env r).toOption.getD
    (disabledEntry (buildStandingEntryBase r (labelsFor env r)))

theorem entryOf_eq (h : collectMarketplaceEntry env r = .ok entry) : entryOf env r = entry := by
  rw [entryOf, h]
  rfl

theorem collectMarketplaceSnapshot_eq_ok :
    collectMarketplaceSnapshot env collation registry = .ok snapshot ↔
      (∀ r ∈ registry.repositories, collectMarketplaceEntry env r = .ok (entryOf env r)) ∧
        snapshot =
          let entries := rankMarketplaceEntries collation (registry.repositories.map (entryOf env))
          ⟨registry.path, summarizeEntries entries, entries⟩ := by
  have hmapM : ∀ entries, registry.repositories.mapM (collectMarketplaceEntry env) = .ok entries ↔
      (∀ r ∈ registry.repositories, collectMarketplaceEntry env r = .ok (entryOf env r)) ∧
        entries = registry.repositories.map (entryOf env) := by
    intro entries
    rw [mapM_eq_ok_iff]
    generalize registry.repositories = repositories
    constructor
    · intro h
      induction h with
      | nil => exact ⟨List.forall_mem_nil _, rfl⟩
      | cons hhead _ ih =>
        have heq := entryOf_eq hhead
        refine ⟨fun r hr => ?_, by rw [List.map_cons, ← ih.2, heq]⟩
        rcases List.mem_cons.mp hr with rfl | hr
        · rw [hhead, heq]
        · exact ih.1 r hr
    · rintro ⟨hall, rfl⟩
      exact List.forall₂_map_right_iff.mpr (List.forall₂_same.mpr hall)
  rw [collectMarketplaceSnapshot]
  cases hcollect : registry.repositories.mapM (collectMarketplaceEntry env) with
  | error message =>
    constructor
    · rintro ⟨⟩
    rintro ⟨hall, -⟩
    have hok := (hmapM _).mpr ⟨hall, rfl⟩
    rw [hcollect] at hok
    cases hok
  | ok entries =>
    obtain ⟨hall, rfl⟩ := (hmapM entries).mp hcollect
    refine ⟨fun h => ⟨hall, ?_⟩, fun ⟨_, h⟩ => ?_⟩
    · exact (Except.ok.inj h).symm
    · rw [h]
      rfl

def rankedOrder (env : StandingOutcomes) (collation : Comparison String) :
    Comparison MarketplaceRepository :=
  (eligibilityOrder env).thenBy (authorityOrder.thenBy (promotionOrder.thenBy
    ((Comparison.ofKey fun _ => (0 : ℚ)).thenBy (nameOrder collation))))

theorem compareRanked_rankEntry (hr : collectMarketplaceEntry env r = .ok (entryOf env r))
    (hs : collectMarketplaceEntry env s = .ok (entryOf env s)) :
    (rankedOrder env collation).le r s =
      (compareRanked collation).le (rankEntry (entryOf env r)) (rankEntry (entryOf env s)) := by
  obtain ⟨hbaseR, hreadyR⟩ := collectMarketplaceEntry_spec hr
  obtain ⟨hbaseS, hreadyS⟩ := collectMarketplaceEntry_spec hs
  simp only [rankedOrder, compareRanked, Comparison.thenBy_le_eq, eligibilityOrder,
    authorityOrder, promotionOrder, nameOrder, Comparison.ofKey_le_eq, Comparison.comap_le,
    rankEntry, hbaseR, hbaseS, hreadyR, hreadyS, buildStandingEntryBase, Option.getD_none]

/-- **What the entries are**: those of the repositories, in an order that ignores the bias. -/
theorem entries_eq (h : collectMarketplaceSnapshot env collation registry = .ok snapshot) :
    snapshot.entries =
      (((rankedOrder env collation).sort registry.repositories).map fun r =>
        rankEntry (entryOf env r)).zipIdx.map fun item =>
          { toRankedEntry := item.1, order := item.2 + 1 } := by
  obtain ⟨hall, rfl⟩ := collectMarketplaceSnapshot_eq_ok.mp h
  have hsort : ((rankedOrder env collation).sort registry.repositories).map
      (fun r => rankEntry (entryOf env r)) =
        (compareRanked collation).sort
          (registry.repositories.map fun r => rankEntry (entryOf env r)) :=
    Comparison.map_sort _ fun r hr s hs => compareRanked_rankEntry (hall r hr) (hall s hs)
  rw [hsort]
  change rankMarketplaceEntries collation _ = _
  rw [rankMarketplaceEntries, List.map_map]
  rfl

theorem map_entries (h : collectMarketplaceSnapshot env collation registry = .ok snapshot) :
    snapshot.entries.map (·.toMarketplaceEntry) =
      ((rankedOrder env collation).sort registry.repositories).map (entryOf env) := by
  have hplace : ∀ ranked : List RankedEntry,
      (ranked.zipIdx.map fun item =>
        ({ toRankedEntry := item.1, order := item.2 + 1 } : SnapshotEntry)).map
          (·.toMarketplaceEntry) = ranked.map (·.toMarketplaceEntry) := by
    intro ranked
    rw [List.map_map]
    have hfst : ranked.zipIdx.map Prod.fst = ranked := List.zipIdx_map_fst 0 ranked
    conv_rhs => rw [← hfst, List.map_map]
    rfl
  rw [entries_eq h, hplace, List.map_map]
  rfl

theorem select_eq (h : collectMarketplaceSnapshot env collation registry = .ok snapshot)
    (currentRepository : Option String) (requireDifferentRepository : Bool) :
    (selectMarketplaceRecommendation snapshot currentRepository
        requireDifferentRepository).map (·.repository) =
      (((rankedOrder env collation).sort registry.repositories).find?
        (mayTake env currentRepository requireDifferentRepository)).map (·.slug) := by
  obtain ⟨hall, -⟩ := collectMarketplaceSnapshot_eq_ok.mp h
  let allowed : MarketplaceEntry → Bool := fun entry =>
    entry.eligible && !isExcluded currentRepository requireDifferentRepository entry.repository
  have hleft : (selectMarketplaceRecommendation snapshot currentRepository
      requireDifferentRepository).map (·.repository) =
        ((snapshot.entries.map (·.toMarketplaceEntry)).find? allowed).map (·.repository) := by
    rw [selectMarketplaceRecommendation, List.find?_map, Option.map_map, Option.map_map]
    rfl
  rw [hleft, map_entries h, List.find?_map, Option.map_map]
  -- the sorted repositories are those of the registry, so all of them gave an entry
  have hsorted : ∀ r ∈ (rankedOrder env collation).sort registry.repositories,
      (entryOf env r).repository = r.slug ∧ (entryOf env r).eligible = standingReady env r := by
    intro r hr
    obtain ⟨hbase, hready⟩ :=
      collectMarketplaceEntry_spec (hall r ((Comparison.mem_sort _).mp hr))
    exact ⟨by rw [hbase]; rfl, hready⟩
  generalize (rankedOrder env collation).sort registry.repositories = order at hsorted
  induction order with
  | nil => rfl
  | cons r order ih =>
    obtain ⟨hrepository, hready⟩ := hsorted r List.mem_cons_self
    have hsame : allowed (entryOf env r) =
        mayTake env currentRepository requireDifferentRepository r := by
      simp only [allowed, mayTake, hrepository, hready]
    rw [List.find?_cons, List.find?_cons, Function.comp_apply, hsame]
    cases mayTake env currentRepository requireDifferentRepository r with
    | true => exact congrArg some hrepository
    | false => exact ih fun r hr => hsorted r (List.mem_cons_of_mem _ hr)

theorem eq_of_entryOf_eq
    (hall : ∀ r ∈ registry.repositories, collectMarketplaceEntry env r = .ok (entryOf env r))
    (hr : r ∈ registry.repositories) (hs : s ∈ registry.repositories)
    (h : entryOf env r = entryOf env s) : r = s := by
  have hid : r.id = s.id := by
    have hbase := congrArg (fun entry : MarketplaceEntry => entry.id) h
    obtain ⟨hbaseR, -⟩ := collectMarketplaceEntry_spec (hall r hr)
    obtain ⟨hbaseS, -⟩ := collectMarketplaceEntry_spec (hall s hs)
    simp only [hbaseR, hbaseS] at hbase
    exact hbase
  exact List.inj_on_of_nodup_map registry.ids_nodup hr hs hid

end Entries

/-! ### The two orders -/

section Orders

variable {env : StandingOutcomes} {collation : Comparison String}
  {registry : MarketplaceRegistry} {snapshot : MarketplaceSnapshot} {r s : MarketplaceRepository}

theorem rankedOrder_le_of_sameTier (htier : SameTier env r s) :
    (rankedOrder env collation).le r s = true ↔ collation.le r.slug s.slug = true := by
  obtain ⟨heligible, hauthority, hpromotion⟩ := htier
  simp only [rankedOrder, Comparison.thenBy_le, heligible.1, hauthority.1, hpromotion.1,
    Comparison.ofKey_le, le_refl, true_and, heligible.2, hauthority.2, hpromotion.2, true_implies]
  rfl

theorem marketplaceOrder_le_of_sameTier (htier : SameTier env r s) :
    (marketplaceOrder env collation).le r s = true ↔ r.priorityBias ≤ s.priorityBias ∧
      (s.priorityBias ≤ r.priorityBias → collation.le r.slug s.slug = true) := by
  obtain ⟨heligible, hauthority, hpromotion⟩ := htier
  simp only [marketplaceOrder, Comparison.thenBy_le, heligible.1, hauthority.1, hpromotion.1,
    true_and, heligible.2, hauthority.2, hpromotion.2, true_implies, biasOrder,
    Comparison.ofKey_le]
  rfl

theorem sameTier_of_ties (h : (rankedOrder env collation).Ties r s) : SameTier env r s := by
  simp only [rankedOrder, Comparison.ties_thenBy] at h
  exact ⟨h.1, h.2.1, h.2.2.1⟩

theorem marketplaceOrder_of_agrees (hagrees : BiasAgrees env collation registry)
    (hr : r ∈ registry.repositories) (hs : s ∈ registry.repositories)
    (hle : (rankedOrder env collation).le r s = true) :
    (marketplaceOrder env collation).le r s = true := by
  by_cases hrs : r = s
  · obtain rfl := hrs
    exact ((marketplaceOrder env collation).total r r).elim id id
  · have hsame : (rankedOrder env collation).le r s = (marketplaceOrder env collation).le r s := by
      refine Comparison.thenBy_le_congr _ fun heligible => ?_
      refine Comparison.thenBy_le_congr _ fun hauthority => ?_
      refine Comparison.thenBy_le_congr _ fun hpromotion => ?_
      have htier : SameTier env r s := ⟨heligible, hauthority, hpromotion⟩
      have hname := (rankedOrder_le_of_sameTier htier).mp hle
      have hbias := (hagrees r hr s hs hrs htier hname).2
      -- the name decides, and the bias does not object
      have hleft : ((Comparison.ofKey fun _ : MarketplaceRepository => (0 : ℚ)).thenBy
          (nameOrder collation)).le r s = true :=
        (Comparison.thenBy_le _ _).mpr ⟨(Comparison.ofKey_le _ _ _).mpr le_rfl, fun _ => hname⟩
      have hright : (biasOrder.thenBy (nameOrder collation)).le r s = true :=
        (Comparison.thenBy_le _ _).mpr ⟨(Comparison.ofKey_le _ _ _).mpr hbias, fun _ => hname⟩
      rw [hleft, hright]
    rw [← hsame]
    exact hle

theorem eq_of_ties_of_agrees (hagrees : BiasAgrees env collation registry)
    (hr : r ∈ registry.repositories) (hs : s ∈ registry.repositories)
    (hties : (rankedOrder env collation).Ties r s) : r = s := by
  by_contra hrs
  have htier := sameTier_of_ties hties
  have hname := (rankedOrder_le_of_sameTier htier).mp hties.1
  have htier' : SameTier env s r :=
    ⟨htier.1.symm, htier.2.1.symm, htier.2.2.symm⟩
  have hname' := (rankedOrder_le_of_sameTier htier').mp hties.2
  rw [(hagrees r hr s hs hrs htier hname).1] at hname'
  exact absurd hname' (by decide)

def reversed (registry : MarketplaceRegistry) : MarketplaceRegistry where
  path := registry.path
  repositories := registry.repositories.reverse
  ids_nodup := by
    rw [List.map_reverse]
    exact List.nodup_reverse.mpr registry.ids_nodup
  slugs_nodup := by
    rw [List.map_reverse]
    exact List.nodup_reverse.mpr registry.slugs_nodup

variable {registry' : MarketplaceRegistry}

theorem sort_eq_of_entries_eq {snapshot' : MarketplaceSnapshot}
    (hperm : registry'.repositories.Perm registry.repositories)
    (h : collectMarketplaceSnapshot env collation registry = .ok snapshot)
    (h' : collectMarketplaceSnapshot env collation registry' = .ok snapshot')
    (hentries : snapshot'.entries = snapshot.entries) :
    (rankedOrder env collation).sort registry.repositories =
      (rankedOrder env collation).sort registry'.repositories := by
  have hall := (collectMarketplaceSnapshot_eq_ok.mp h).1
  refine eq_of_map_eq (fun r hr s hs hrs => ?_)
    ((map_entries h).symm.trans ((congrArg _ hentries.symm).trans (map_entries h')))
  have hs' : s ∈ registry.repositories := hperm.mem_iff.mp ((Comparison.mem_sort _).mp hs)
  exact eq_of_entryOf_eq hall ((Comparison.mem_sort _).mp hr) hs' hrs

theorem collect_of_perm (hperm : registry'.repositories.Perm registry.repositories)
    (h : collectMarketplaceSnapshot env collation registry = .ok snapshot) :
    ∃ snapshot', collectMarketplaceSnapshot env collation registry' = .ok snapshot' := by
  have hall := (collectMarketplaceSnapshot_eq_ok.mp h).1
  exact ⟨_, collectMarketplaceSnapshot_eq_ok.mpr
    ⟨fun r hr => hall r (hperm.mem_iff.mp hr), rfl⟩⟩

theorem rankingLaw_of_agrees
    (h : collectMarketplaceSnapshot env collation registry = .ok snapshot)
    (hagrees : BiasAgrees env collation registry) :
    RankingLaw env collation registry snapshot := by
  have hall := (collectMarketplaceSnapshot_eq_ok.mp h).1
  refine ⟨⟨(rankedOrder env collation).sort registry.repositories, Comparison.sort_perm _ _,
    ?_, ?_, select_eq h⟩, fun registry' hperm => ?_⟩
  · refine (Comparison.sort_pairwise _ _).imp_of_mem fun hr hs hle => ?_
    exact marketplaceOrder_of_agrees hagrees ((Comparison.mem_sort _).mp hr)
      ((Comparison.mem_sort _).mp hs) hle
  · have hok : ∀ r ∈ (rankedOrder env collation).sort registry.repositories,
        collectMarketplaceEntry env r = .ok (entryOf env r) :=
      fun r hr => hall r ((Comparison.mem_sort _).mp hr)
    have hmap := congrArg (List.map fun entry => (.ok entry : Except String MarketplaceEntry))
      (map_entries h)
    rw [List.map_map, List.map_map] at hmap
    exact hmap.trans (List.map_congr_left fun r hr => (hok r hr).symm)
  · obtain ⟨snapshot', h'⟩ := collect_of_perm hperm h
    refine ⟨snapshot', h', ?_⟩
    have hsort : (rankedOrder env collation).sort registry.repositories =
        (rankedOrder env collation).sort registry'.repositories :=
      Comparison.sort_eq_of_perm _ (fun r hr s hs => eq_of_ties_of_agrees hagrees hr hs)
        hperm.symm
    rw [entries_eq h, entries_eq h', hsort]

theorem agrees_of_rankingLaw
    (h : collectMarketplaceSnapshot env collation registry = .ok snapshot)
    (hlaw : RankingLaw env collation registry snapshot) : BiasAgrees env collation registry := by
  have hall := (collectMarketplaceSnapshot_eq_ok.mp h).1
  have hnodup : registry.repositories.Nodup := registry.ids_nodup.of_map _
  intro r hr s hs hrs htier hname
  have hranked : (rankedOrder env collation).le r s = true :=
    (rankedOrder_le_of_sameTier htier).mpr hname
  have htier' : SameTier env s r := ⟨htier.1.symm, htier.2.1.symm, htier.2.2.symm⟩
  -- a tie would show in the order of the reversed registry
  have hdistinct : ¬ collation.le s.slug r.slug = true := by
    intro hname'
    obtain ⟨snapshot', h', hentries⟩ :=
      hlaw.independent (reversed registry) (List.reverse_perm _)
    have hsort := sort_eq_of_entries_eq (List.reverse_perm _) h h' hentries
    exact hrs (Comparison.eq_of_sort_reverse _ hnodup hsort hr hs
      ⟨hranked, (rankedOrder_le_of_sameTier htier').mpr hname'⟩)
  refine ⟨by simpa using hdistinct, ?_⟩
  obtain ⟨order, hperm, hpairwise, hmap, -⟩ := hlaw.sorted
  -- the order of the law is the one of the ranking
  have horder : (rankedOrder env collation).sort registry.repositories = order := by
    refine eq_of_map_eq (f := entryOf env) (fun a ha b hb hab => ?_) ?_
    · exact eq_of_entryOf_eq hall ((Comparison.mem_sort _).mp ha) (hperm.mem_iff.mp hb) hab
    · rw [← map_entries h]
      have hcollected : order.map (collectMarketplaceEntry env) =
          (order.map (entryOf env)).map Except.ok := by
        rw [List.map_map]
        exact List.map_congr_left fun r hr => hall r (hperm.mem_iff.mp hr)
      rw [hcollected, ← Function.comp_def, ← List.map_map] at hmap
      exact List.map_injective_iff.mpr (fun _ _ => Except.ok.inj) hmap
  have hpair : [r, s].Sublist order := by
    rw [← horder]
    have hr' := (Comparison.mem_sort (rankedOrder env collation)).mpr hr
    have hs' := (Comparison.mem_sort (rankedOrder env collation)).mpr hs
    rcases Comparison.pair_sublist_or hr' hs' hrs with hrs' | hsr
    · exact hrs'
    · have hle := (Comparison.sort_pairwise (rankedOrder env collation) _).sublist hsr
      have hback := (List.pairwise_pair.mp hle)
      exact absurd ((rankedOrder_le_of_sameTier htier').mp hback) hdistinct
  have hwanted := List.pairwise_pair.mp (hpairwise.sublist hpair)
  exact ((marketplaceOrder_le_of_sameTier htier).mp hwanted).1

end Orders

/-- **The order of the marketplace.** A snapshot is as wanted exactly if the bias of the registry
never disagrees with the name. -/
theorem rankingLaw_iff (env : StandingOutcomes) (collation : Comparison String)
    (registry : MarketplaceRegistry) (snapshot : MarketplaceSnapshot)
    (h : collectMarketplaceSnapshot env collation registry = .ok snapshot) :
    RankingLaw env collation registry snapshot ↔ BiasAgrees env collation registry :=
  ⟨agrees_of_rankingLaw h, rankingLaw_of_agrees h⟩

/-! ### Two lanes of one tier -/

def allReady : StandingOutcomes where
  resolveStandingPriorityLabels := fun _ => ["standing-priority"]
  resolveStandingPriorityForRepo := fun _ _ => .ok (some ⟨1, none⟩)
  fetchIssue := fun number _ => .ok ⟨some number, none, none, ["standing-priority"]⟩
  classifyNoStandingPriorityCondition := fun _ _ => .ok ⟨none, none, none⟩

def byCharacters : Comparison String := Comparison.ofKey id

def authoringLane (id slug : String) (priorityBias : ℚ) : MarketplaceRepository where
  id := id
  slug := slug
  authorityTier := "personal-authoring"
  laneClass := "personal-fork"
  promotionRail := "authoring"
  standingLabels := []
  enabled := true
  priorityBias := priorityBias

def twoForks (biasA biasB : ℚ) : MarketplaceRegistry where
  path := "lane-marketplace.json"
  repositories := [authoringLane "a" "fork/a" biasA, authoringLane "b" "fork/b" biasB]
  ids_nodup := by
    change ["a", "b"].Nodup
    decide
  slugs_nodup := by
    change [JsString.toLowerCase "fork/a", JsString.toLowerCase "fork/b"].Nodup
    decide +kernel

/-- The bias agrees with the names. -/
theorem rankingLaw_biasByName :
    ∃ snapshot, collectMarketplaceSnapshot allReady byCharacters (twoForks 1 2) = .ok snapshot ∧
      RankingLaw allReady byCharacters (twoForks 1 2) snapshot := by
  have hcollect : ∀ r ∈ (twoForks 1 2).repositories,
      collectMarketplaceEntry allReady r = .ok (entryOf allReady r) := by
    intro r hr
    rcases List.mem_cons.mp hr with rfl | hr
    · rfl
    · obtain rfl := List.mem_singleton.mp hr
      rfl
  have h : collectMarketplaceSnapshot allReady byCharacters (twoForks 1 2) = .ok _ :=
    collectMarketplaceSnapshot_eq_ok.mpr ⟨hcollect, rfl⟩
  refine ⟨_, h, (rankingLaw_iff _ _ _ _ h).mpr fun r hr s hs hrs _ hname => ?_⟩
  have hab : byCharacters.le "fork/a" "fork/b" = true := by decide +kernel
  have hba : byCharacters.le "fork/b" "fork/a" = false := by decide +kernel
  rcases List.mem_cons.mp hr with rfl | hr
  · rcases List.mem_cons.mp hs with rfl | hs
    · exact absurd rfl hrs
    · obtain rfl := List.mem_singleton.mp hs
      exact ⟨hba, by change (1 : ℚ) ≤ 2; norm_num⟩
  · obtain rfl := List.mem_singleton.mp hr
    rcases List.mem_cons.mp hs with rfl | hs
    · exact absurd (hba.symm.trans hname) (by decide)
    · exact absurd (List.mem_singleton.mp hs).symm hrs

/-- The registry gives the fork `b` the smaller bias, and the ranking puts `a` first. -/
theorem not_rankingLaw_biasAgainstName :
    ∃ snapshot, collectMarketplaceSnapshot allReady byCharacters (twoForks 2 1) = .ok snapshot ∧
      ¬ RankingLaw allReady byCharacters (twoForks 2 1) snapshot := by
  have hcollect : ∀ r ∈ (twoForks 2 1).repositories,
      collectMarketplaceEntry allReady r = .ok (entryOf allReady r) := by
    intro r hr
    rcases List.mem_cons.mp hr with rfl | hr
    · rfl
    · obtain rfl := List.mem_singleton.mp hr
      rfl
  have h : collectMarketplaceSnapshot allReady byCharacters (twoForks 2 1) = .ok _ :=
    collectMarketplaceSnapshot_eq_ok.mpr ⟨hcollect, rfl⟩
  refine ⟨_, h, fun hlaw => ?_⟩
  have hne : authoringLane "a" "fork/a" 2 ≠ authoringLane "b" "fork/b" 1 := by
    intro heq
    exact absurd (congrArg MarketplaceRepository.id heq) (by decide)
  have htier : SameTier allReady (authoringLane "a" "fork/a" 2) (authoringLane "b" "fork/b" 1) :=
    ⟨Comparison.ties_ofKey.mpr rfl, Comparison.ties_ofKey.mpr rfl, Comparison.ties_ofKey.mpr rfl⟩
  have hbias := (agrees_of_rankingLaw h hlaw (authoringLane "a" "fork/a" 2) (by simp [twoForks])
    (authoringLane "b" "fork/b" 1) (by simp [twoForks]) hne htier (by decide +kernel)).2
  exact absurd hbias (by change ¬ (2 : ℚ) ≤ 1; norm_num)

end CompareVI.Marketplace
