import CompareVI.Cost.Rollup
import CompareVI.Framework.Rounding

/-!
# Conservation of cost

A rollup should conserve the cost: in every breakdown the turns and the amounts add up to the
totals, so do the exact and the estimated amounts and the steered and the unsteered ones, and
the order of the turn reports does not matter (`RollupLaw`).

The breakdowns are rounded after every addition and hold the sums of the rounded amounts
(`breakdown_eq`); the totals are rounded sums. The two agree exactly if the errors of rounding
add up to less than half a unit of the last place, and the rows are in the same order for every
order of the turns exactly if the collation tells the keys apart (`rollupLaw_iff`).
-/

open Framework

namespace CompareVI.Cost

/-! ### The law -/

def Dimension.key (dimension : Dimension) (turn : Turn) : String :=
  normalizeKey (dimension.keyOf turn)

section Law

variable (env : CostEnv) (inputs : RollupInputs) (turns : List Turn)

/-- What is wanted of a rollup. -/
structure RollupLaw : Prop where
  counts : ∀ dimension,
    (((runAgentCostRollup env inputs turns).breakdown dimension).map (·.turnCount)).sum =
      (runAgentCostRollup env inputs turns).metrics.totalTurns
  money : ∀ dimension,
    (((runAgentCostRollup env inputs turns).breakdown dimension).map (·.totalUsd)).sum =
      (runAgentCostRollup env inputs turns).metrics.totalUsd
  exactness : (runAgentCostRollup env inputs turns).metrics.exactUsd +
      (runAgentCostRollup env inputs turns).metrics.estimatedUsd =
    (runAgentCostRollup env inputs turns).metrics.totalUsd
  steering : (runAgentCostRollup env inputs turns).metrics.steeredUsd +
      (runAgentCostRollup env inputs turns).metrics.unsteeredUsd =
    (runAgentCostRollup env inputs turns).metrics.totalUsd
  order : ∀ turns', turns'.Perm turns →
    runAgentCostRollup env inputs turns' = runAgentCostRollup env inputs turns

/-- The errors of rounding stay below half a unit of the last place, and no two keys of a
breakdown are the same for the collation. -/
structure RoundingClear : Prop where
  amounts : WithinHalf 6 (roundingErrors 6 (amounts turns)).sum
  exactness : WithinHalf 6 (roundingErrors 6
    [(Cost.amounts (exactTurns turns)).sum, (Cost.amounts (estimatedTurns turns)).sum]).sum
  steering : WithinHalf 6 (roundingErrors 6
    [(Cost.amounts (steeredTurns turns)).sum, (Cost.amounts (unsteeredTurns turns)).sum]).sum
  keys : ∀ dimension : Dimension, ∀ t ∈ turns, ∀ u ∈ turns,
    env.collation.Ties (dimension.key t) (dimension.key u) → dimension.key t = dimension.key u

end Law

/-! ### The tallies -/

section Tallies

variable {env : CostEnv} {inputs : RollupInputs} {turns turns' : List Turn}
  {dimension : Dimension}

theorem roundUsd_of_nonneg {q : ℚ} (hq : 0 ≤ q) : roundUsd q = toFixed 6 q :=
  if_neg (not_lt.mpr hq)

def roundedUsd (turn : Turn) : ℚ := toFixed 6 turn.amountUsd

def turnsOf (dimension : Dimension) (turns : List Turn) (key : String) : List Turn :=
  turns.filter fun turn => decide (dimension.key turn = key)

def labors (turns : List Turn) : List (Turn × ℚ) :=
  turns.filterMap fun turn => turn.operatorLaborUsd.map fun q => (turn, q)

theorem foldl_postTurn (maps : BreakdownMaps) :
    turns.foldl (postTurn dimension) maps =
      { count := tally dimension.key (fun n _ => n + 1) 0 maps.count turns
        usd := tally dimension.key (fun q turn => roundUsd (q + turn.amountUsd)) 0 maps.usd turns
        operatorLaborUsd := tally (fun p : Turn × ℚ => dimension.key p.1)
          (fun q p => roundUsd (q + p.2)) 0 maps.operatorLaborUsd (labors turns)
        operatorLaborMissingTurnCount := tally dimension.key
          (fun n turn => n + if turn.operatorLaborUsd.isNone then 1 else 0) 0
          maps.operatorLaborMissingTurnCount turns } := by
  induction turns generalizing maps with
  | nil => rfl
  | cons turn turns ih =>
    rw [List.foldl_cons, ih]
    cases hlabor : turn.operatorLaborUsd with
    | none =>
      have hlabors : labors (turn :: turns) = labors turns :=
        List.filterMap_cons_none (by rw [hlabor]; rfl)
      rw [hlabors]
      simp only [postTurn, hlabor, tally_cons]
      rfl
    | some q =>
      have hlabors : labors (turn :: turns) = (turn, q) :: labors turns :=
        List.filterMap_cons_some (by rw [hlabor]; rfl)
      rw [hlabors]
      simp only [postTurn, hlabor, tally_cons]
      rfl

def rowOf (dimension : Dimension) (turns : List Turn) (key : String) : BreakdownRow :=
  breakdownRow (turns.foldl (postTurn dimension) .empty)
    (key, valueOf 0 (turns.foldl (postTurn dimension) .empty).count key)

theorem foldl_count (n : ℕ) (xs : List Turn) : xs.foldl (fun n _ => n + 1) n = n + xs.length := by
  induction xs generalizing n with
  | nil => rfl
  | cons x xs ih =>
    rw [List.foldl_cons, ih, List.length_cons]
    omega

theorem foldl_add (f : Turn → ℕ) (n : ℕ) (xs : List Turn) :
    xs.foldl (fun n x => n + f x) n = n + (xs.map f).sum := by
  induction xs generalizing n with
  | nil => rfl
  | cons x xs ih =>
    rw [List.foldl_cons, ih, List.map_cons, List.sum_cons]
    omega

/-- **An account that is rounded after every addition** holds the sum of the rounded amounts. -/
theorem foldl_roundUsd {α : Type} {f : α → ℚ} {xs : List α} (hnonneg : ∀ x ∈ xs, 0 ≤ f x) {q : ℚ}
    (hq : IsFixed 6 q) (hq0 : 0 ≤ q) :
    xs.foldl (fun q x => roundUsd (q + f x)) q = q + (xs.map fun x => toFixed 6 (f x)).sum := by
  induction xs generalizing q with
  | nil => exact (add_zero q).symm
  | cons x xs ih =>
    have hx : 0 ≤ f x := hnonneg x List.mem_cons_self
    have hround : roundUsd (q + f x) = q + toFixed 6 (f x) := by
      rw [roundUsd_of_nonneg (add_nonneg hq0 hx), toFixed_add hq]
    rw [List.foldl_cons, hround, ih (fun y hy => hnonneg y (List.mem_cons_of_mem x hy))
      (hq.add isFixed_toFixed) (add_nonneg hq0 (toFixed_nonneg hx)), List.map_cons,
      List.sum_cons, add_assoc]

theorem keysOf_count :
    keysOf (turns.foldl (postTurn dimension) .empty).count =
      (turns.map dimension.key).eraseDups := by
  have hkeys : keysOf (tally dimension.key (fun n (_ : Turn) => n + 1) 0 [] turns) =
      (turns.map dimension.key).eraseDups := keysOf_tally turns
  rw [foldl_postTurn]
  exact hkeys

/-- **What a breakdown is**: one row for each key, in the order of the collation. -/
theorem breakdown_eq :
    breakdown env turns dimension =
      (env.collation.sort (turns.map dimension.key).eraseDups).map (rowOf dimension turns) := by
  have hnodup : (keysOf (turns.foldl (postTurn dimension) .empty).count).Nodup := by
    rw [keysOf_count]
    exact Tokens.nodup_eraseDups _
  let entry : String → String × ℕ := fun key =>
    (key, valueOf 0 (turns.foldl (postTurn dimension) .empty).count key)
  have hentries : (turns.foldl (postTurn dimension) .empty).count =
      (keysOf (turns.foldl (postTurn dimension) .empty).count).map entry :=
    eq_map_keysOf _ hnodup
  have hsort : (env.collation.sort (turns.map dimension.key).eraseDups).map entry =
      (env.collation.comap Prod.fst).sort ((turns.map dimension.key).eraseDups.map entry) :=
    Comparison.map_sort _ fun _ _ _ _ => rfl
  rw [breakdown, materializeBreakdown, hentries, keysOf_count, ← hsort, List.map_map]
  rfl

def roundedLaborUsd (turns : List Turn) : List ℚ :=
  turns.filterMap fun turn => turn.operatorLaborUsd.map (toFixed 6)

theorem labor_nonneg {p : Turn × ℚ} (hp : p ∈ labors turns) : 0 ≤ p.2 := by
  obtain ⟨turn, -, hturn⟩ := List.mem_filterMap.mp hp
  obtain ⟨q, hq, rfl⟩ := Option.map_eq_some_iff.mp hturn
  exact turn.operatorLaborUsd_nonneg q hq

theorem map_filter_labors (key : String) :
    ((labors turns).filter fun p => decide (dimension.key p.1 = key)).map (fun p => toFixed 6 p.2) =
      roundedLaborUsd (turnsOf dimension turns key) := by
  rw [labors, roundedLaborUsd, turnsOf, List.filter_filterMap, List.map_filterMap,
    List.filterMap_filter]
  refine List.filterMap_congr fun turn _ => ?_
  cases turn.operatorLaborUsd with
  | none => by_cases h : dimension.key turn = key <;> simp [h]
  | some q => by_cases h : dimension.key turn = key <;> simp [h]

theorem valueOf_count (key : String) :
    valueOf 0 (turns.foldl (postTurn dimension) .empty).count key =
      (turnsOf dimension turns key).length := by
  have hvalue : valueOf 0 (tally dimension.key (fun n (_ : Turn) => n + 1) 0 [] turns) key =
      (turnsOf dimension turns key).foldl (fun n _ => n + 1) 0 := valueOf_tally [] turns key
  rw [foldl_postTurn]
  exact hvalue.trans ((foldl_count 0 _).trans (Nat.zero_add _))

theorem valueOf_usd (key : String) :
    valueOf 0 (turns.foldl (postTurn dimension) .empty).usd key =
      ((turnsOf dimension turns key).map roundedUsd).sum := by
  have hvalue : valueOf 0 (tally dimension.key
      (fun q (turn : Turn) => roundUsd (q + turn.amountUsd)) 0 [] turns) key =
        (turnsOf dimension turns key).foldl (fun q turn => roundUsd (q + turn.amountUsd)) 0 :=
    valueOf_tally [] turns key
  have hnonneg : ∀ turn ∈ turnsOf dimension turns key, 0 ≤ turn.amountUsd :=
    fun turn _ => turn.amountUsd_nonneg
  rw [foldl_postTurn]
  exact hvalue.trans ((foldl_roundUsd hnonneg isFixed_zero le_rfl).trans (zero_add _))

theorem valueOf_operatorLaborUsd (key : String) :
    valueOf 0 (turns.foldl (postTurn dimension) .empty).operatorLaborUsd key =
      (roundedLaborUsd (turnsOf dimension turns key)).sum := by
  let ofKey : List (Turn × ℚ) := (labors turns).filter fun p => decide (dimension.key p.1 = key)
  have hvalue : valueOf 0 (tally (fun p : Turn × ℚ => dimension.key p.1)
      (fun q p => roundUsd (q + p.2)) 0 [] (labors turns)) key =
        ofKey.foldl (fun q p => roundUsd (q + p.2)) 0 := valueOf_tally [] (labors turns) key
  have hnonneg : ∀ p ∈ ofKey, 0 ≤ p.2 := fun p hp => labor_nonneg (List.mem_of_mem_filter hp)
  rw [foldl_postTurn, ← map_filter_labors]
  exact hvalue.trans ((foldl_roundUsd hnonneg isFixed_zero le_rfl).trans (zero_add _))

def laborMissing (turns : List Turn) : ℕ :=
  (turns.map fun turn => if turn.operatorLaborUsd.isNone then 1 else 0).sum

theorem valueOf_operatorLaborMissingTurnCount (key : String) :
    valueOf 0 (turns.foldl (postTurn dimension) .empty).operatorLaborMissingTurnCount key =
      laborMissing (turnsOf dimension turns key) := by
  have hvalue : valueOf 0 (tally dimension.key (fun n (turn : Turn) =>
      n + if turn.operatorLaborUsd.isNone then 1 else 0) 0 [] turns) key =
        (turnsOf dimension turns key).foldl
          (fun n turn => n + if turn.operatorLaborUsd.isNone then 1 else 0) 0 :=
    valueOf_tally [] turns key
  rw [foldl_postTurn]
  exact hvalue.trans ((foldl_add _ 0 _).trans (Nat.zero_add _))

/-- **What a row holds.** -/
theorem rowOf_eq (key : String) :
    rowOf dimension turns key =
      { key := key
        turnCount := (turnsOf dimension turns key).length
        totalUsd := ((turnsOf dimension turns key).map roundedUsd).sum
        operatorLaborUsd := (roundedLaborUsd (turnsOf dimension turns key)).sum
        operatorLaborMissingTurnCount := laborMissing (turnsOf dimension turns key)
        blendedTotalUsd := if laborMissing (turnsOf dimension turns key) = 0 then
            some (roundUsd (((turnsOf dimension turns key).map roundedUsd).sum +
              (roundedLaborUsd (turnsOf dimension turns key)).sum))
          else none } := by
  simp only [rowOf, breakdownRow, valueOf_count, valueOf_usd, valueOf_operatorLaborUsd,
    valueOf_operatorLaborMissingTurnCount]

theorem sum_rows {M : Type} [AddCommMonoid M] (f : Turn → M) :
    ((env.collation.sort (turns.map dimension.key).eraseDups).map fun key =>
      ((turnsOf dimension turns key).map f).sum).sum = (turns.map f).sum := by
  have hsorted := (env.collation.sort_perm (turns.map dimension.key).eraseDups).map fun key =>
    ((turnsOf dimension turns key).map f).sum
  rw [hsorted.sum_eq]
  exact sum_by_key (Tokens.nodup_eraseDups _) f turns fun turn hturn =>
    List.mem_eraseDups.mpr (List.mem_map_of_mem hturn)

theorem sum_turnCount :
    ((breakdown env turns dimension).map (·.turnCount)).sum = turns.length := by
  have hlength : ∀ xs : List Turn, xs.length = (xs.map fun _ => 1).sum := by
    intro xs
    induction xs with
    | nil => rfl
    | cons x xs ih => rw [List.length_cons, ih, List.map_cons, List.sum_cons, Nat.add_comm]
  have hrows : ((env.collation.sort (turns.map dimension.key).eraseDups).map fun key =>
      ((turnsOf dimension turns key).map fun _ => 1).sum).sum = (turns.map fun _ => 1).sum :=
    sum_rows _
  rw [breakdown_eq, List.map_map, hlength turns, ← hrows]
  refine congrArg List.sum (List.map_congr_left fun key _ => ?_)
  rw [Function.comp_apply, rowOf_eq, hlength]

theorem sum_totalUsd :
    ((breakdown env turns dimension).map (·.totalUsd)).sum =
      ((amounts turns).map (toFixed 6)).sum := by
  have hamounts : (amounts turns).map (toFixed 6) = turns.map roundedUsd := List.map_map
  have hrows : ((env.collation.sort (turns.map dimension.key).eraseDups).map fun key =>
      ((turnsOf dimension turns key).map roundedUsd).sum).sum = (turns.map roundedUsd).sum :=
    sum_rows roundedUsd
  rw [breakdown_eq, List.map_map, hamounts, ← hrows]
  refine congrArg List.sum (List.map_congr_left fun key _ => ?_)
  rw [Function.comp_apply, rowOf_eq]

end Tallies

/-! ### The totals -/

section Totals

variable {env : CostEnv} {inputs : RollupInputs} {turns turns' : List Turn}

theorem amounts_sum_nonneg (turns : List Turn) : 0 ≤ (amounts turns).sum := by
  refine List.sum_nonneg fun q hq => ?_
  obtain ⟨turn, -, rfl⟩ := List.mem_map.mp hq
  exact turn.amountUsd_nonneg

theorem sum_amounts (turns : List Turn) : sum (amounts turns) = toFixed 6 (amounts turns).sum :=
  roundUsd_of_nonneg (amounts_sum_nonneg turns)

variable {left right : List Turn} {t u : Turn}

theorem sum_parts_iff (hparts : (amounts left).sum + (amounts right).sum = (amounts turns).sum) :
    sum (amounts left) + sum (amounts right) = sum (amounts turns) ↔
      WithinHalf 6 (roundingErrors 6 [(amounts left).sum, (amounts right).sum]).sum := by
  have hiff : ([(amounts left).sum, (amounts right).sum].map (toFixed 6)).sum =
      toFixed 6 [(amounts left).sum, (amounts right).sum].sum ↔
        WithinHalf 6 (roundingErrors 6 [(amounts left).sum, (amounts right).sum]).sum :=
    sum_toFixed_eq_iff
  simp only [List.map_cons, List.map_nil, List.sum_cons, List.sum_nil, add_zero] at hiff
  rw [hparts] at hiff
  rw [sum_amounts, sum_amounts, sum_amounts]
  exact hiff

theorem amounts_append (left right : List Turn) :
    (amounts (left ++ right)).sum = (amounts left).sum + (amounts right).sum := by
  rw [amounts, List.map_append, List.sum_append]
  rfl

theorem amounts_filter (p : Turn → Bool) (turns : List Turn) :
    (amounts (turns.filter p)).sum + (amounts (turns.filter (!p ·))).sum =
      (amounts turns).sum := by
  rw [← amounts_append]
  exact ((List.filter_append_perm p turns).map _).sum_eq

theorem amounts_exactness (turns : List Turn) :
    (amounts (exactTurns turns)).sum + (amounts (estimatedTurns turns)).sum =
      (amounts turns).sum := by
  have hother : estimatedTurns turns =
      turns.filter fun turn => !decide (turn.exactness = .exact) := by
    refine List.filter_congr fun turn _ => ?_
    cases turn.exactness <;> rfl
  rw [hother]
  exact amounts_filter _ turns

/-! ### The order of the turns -/

theorem selectInvoiceTurn_perm {receipts : List InvoiceReceipt} {id : Option String}
    (hperm : turns'.Perm turns) :
    selectInvoiceTurn env receipts turns' id = selectInvoiceTurn env receipts turns id := by
  rw [selectInvoiceTurn, selectInvoiceTurn, determineSelectionTimestamp_perm hperm]

theorem amounts_perm (hperm : left.Perm right) :
    sum (amounts left) = sum (amounts right) :=
  congrArg roundUsd (hperm.map _).sum_eq

theorem rollupMetrics_perm (hperm : turns'.Perm turns) :
    rollupMetrics env inputs turns' = rollupMetrics env inputs turns := by
  have hfilter : ∀ p : Turn → Bool, (turns'.filter p).length = (turns.filter p).length :=
    fun p => (hperm.filter p).length_eq
  have hamounts : ∀ p : Turn → Bool,
      sum (amounts (turns'.filter p)) = sum (amounts (turns.filter p)) :=
    fun p => amounts_perm (hperm.filter p)
  have hnat : ∀ f : Turn → ℕ, (turns'.map f).sum = (turns.map f).sum :=
    fun f => (hperm.map f).sum_eq
  have hrat : ∀ f : Turn → ℚ, (turns'.map f).sum = (turns.map f).sum :=
    fun f => (hperm.map f).sum_eq
  have hsum : ∀ f : Turn → ℚ, sum (turns'.map f) = sum (turns.map f) :=
    fun f => congrArg roundUsd (hrat f)
  simp only [rollupMetrics, selectInvoiceTurn_perm hperm, amounts_perm hperm, hperm.length_eq,
    exactTurns, estimatedTurns, steeredTurns, unsteeredTurns, hfilter, hamounts, hnat, hrat, hsum]

theorem rowOf_perm {dimension : Dimension} (hperm : turns'.Perm turns) (key : String) :
    rowOf dimension turns' key = rowOf dimension turns key := by
  have hturns : (turnsOf dimension turns' key).Perm (turnsOf dimension turns key) :=
    hperm.filter _
  have husd := (hturns.map roundedUsd).sum_eq
  have hlabor : (roundedLaborUsd (turnsOf dimension turns' key)).sum =
      (roundedLaborUsd (turnsOf dimension turns key)).sum := (hturns.filterMap _).sum_eq
  have hmissing : laborMissing (turnsOf dimension turns' key) =
      laborMissing (turnsOf dimension turns key) := (hturns.map _).sum_eq
  rw [rowOf_eq, rowOf_eq, hturns.length_eq, husd, hlabor, hmissing]

theorem eraseDups_perm {ks ls : List String} (hperm : ks.Perm ls) :
    ks.eraseDups.Perm ls.eraseDups := by
  refine (List.perm_ext_iff_of_nodup (Tokens.nodup_eraseDups _) (Tokens.nodup_eraseDups _)).mpr
    fun k => ?_
  rw [List.mem_eraseDups, List.mem_eraseDups, hperm.mem_iff]

theorem breakdown_perm {dimension : Dimension} (hperm : turns'.Perm turns)
    (hkeys : ∀ t ∈ turns, ∀ u ∈ turns,
      env.collation.Ties (dimension.key t) (dimension.key u) →
        dimension.key t = dimension.key u) :
    breakdown env turns' dimension = breakdown env turns dimension := by
  have hsort : env.collation.sort (turns.map dimension.key).eraseDups =
      env.collation.sort (turns'.map dimension.key).eraseDups := by
    refine Comparison.sort_eq_of_perm _ (fun k hk l hl hties => ?_)
      (eraseDups_perm (hperm.map _)).symm
    obtain ⟨t, ht, rfl⟩ := List.mem_map.mp (List.mem_eraseDups.mp hk)
    obtain ⟨u, hu, rfl⟩ := List.mem_map.mp (List.mem_eraseDups.mp hl)
    exact hkeys t ht u hu hties
  rw [breakdown_eq, breakdown_eq, hsort]
  exact List.map_congr_left fun key _ => rowOf_perm hperm key

theorem pair_sublist_keys {dimension : Dimension} (ht : t ∈ turns) (hu : u ∈ turns)
    (hne : dimension.key t ≠ dimension.key u) :
    ∃ turns' : List Turn, turns'.Perm turns ∧
      [dimension.key t, dimension.key u].Sublist (turns'.map dimension.key).eraseDups := by
  obtain ⟨before, behind, rfl⟩ := List.append_of_mem ht
  refine ⟨t :: (before ++ behind), List.perm_middle.symm, ?_⟩
  rw [List.map_cons, List.eraseDups_cons]
  refine List.cons_sublist_cons.mpr (List.singleton_sublist.mpr (List.mem_eraseDups.mpr ?_))
  have hu' : u ∈ t :: (before ++ behind) := List.perm_middle.mem_iff.mp hu
  have hrest : u ∈ before ++ behind :=
    (List.mem_cons.mp hu').resolve_left fun heq => hne (by rw [heq])
  refine List.mem_filter.mpr ⟨List.mem_map_of_mem hrest, ?_⟩
  simpa using hne.symm

theorem key_eq_of_perm {dimension : Dimension} (horder : ∀ turns' : List Turn, turns'.Perm turns →
      breakdown env turns' dimension = breakdown env turns dimension) (ht : t ∈ turns)
    (hu : u ∈ turns) (hties : env.collation.Ties (dimension.key t) (dimension.key u)) :
    dimension.key t = dimension.key u := by
  by_contra hne
  have hrows : ∀ turns' : List Turn, turns'.Perm turns →
      env.collation.sort (turns'.map dimension.key).eraseDups =
        env.collation.sort (turns.map dimension.key).eraseDups := by
    intro turns' hperm
    have hkeys := congrArg (List.map (·.key)) (horder turns' hperm)
    rw [breakdown_eq, breakdown_eq, List.map_map, List.map_map] at hkeys
    exact (List.map_id _).symm.trans (hkeys.trans (List.map_id _))
  obtain ⟨first, hfirst, htu⟩ := pair_sublist_keys ht hu hne
  obtain ⟨second, hsecond, hut⟩ := pair_sublist_keys hu ht (Ne.symm hne)
  have h1 := env.collation.pair_sublist_sort hties.1 htu
  have h2 := env.collation.pair_sublist_sort hties.2 hut
  rw [hrows first hfirst] at h1
  rw [hrows second hsecond] at h2
  have hnodup : (env.collation.sort (turns.map dimension.key).eraseDups).Nodup :=
    (env.collation.sort_perm _).nodup_iff.mpr (Tokens.nodup_eraseDups _)
  exact Comparison.not_pair_sublist_both hnodup h1 h2

end Totals

/-- **Conservation of cost.** A rollup is as wanted exactly if the errors of rounding stay below
half a unit of the last place and the collation tells the keys apart. -/
theorem rollupLaw_iff (env : CostEnv) (inputs : RollupInputs) (turns : List Turn) :
    RollupLaw env inputs turns ↔ RoundingClear env turns := by
  have hmoney : ∀ dimension : Dimension,
      ((breakdown env turns dimension).map (·.totalUsd)).sum = sum (amounts turns) ↔
        WithinHalf 6 (roundingErrors 6 (amounts turns)).sum := by
    intro dimension
    rw [sum_totalUsd, sum_amounts]
    exact sum_toFixed_eq_iff
  constructor
  · intro hlaw
    refine ⟨(hmoney .provider).mp (hlaw.money .provider),
      (sum_parts_iff (amounts_exactness turns)).mp hlaw.exactness,
      (sum_parts_iff (amounts_filter _ turns)).mp hlaw.steering, ?_⟩
    intro dimension t ht u hu
    refine key_eq_of_perm (fun turns' hperm => ?_) ht hu
    exact congrFun (congrArg Rollup.breakdown (hlaw.order turns' hperm)) dimension
  · intro hclear
    refine ⟨fun dimension => sum_turnCount, fun dimension => (hmoney dimension).mpr hclear.amounts,
      (sum_parts_iff (amounts_exactness turns)).mpr hclear.exactness,
      (sum_parts_iff (amounts_filter _ turns)).mpr hclear.steering, fun turns' hperm => ?_⟩
    have hbreakdown : breakdown env turns' = breakdown env turns :=
      funext fun dimension => breakdown_perm hperm (hclear.keys dimension)
    rw [runAgentCostRollup, runAgentCostRollup, rollupMetrics_perm hperm, hbreakdown]

/-- A turn that costs less than half a unit of the last place. -/
def tinyTurn : Turn where
  generatedAt := none
  usageObservedAt := none
  repository := none
  issueNumber := none
  laneId := none
  agentRole := none
  providerId := "codex-cli"
  effectiveModel := "gpt-5"
  effectiveReasoningEffort := none
  elapsedSeconds := none
  operatorLaborUsd := none
  operatorIntervened := false
  usageUnitCount := none
  inputTokens := 0
  cachedInputTokens := 0
  outputTokens := 0
  totalTokens := 0
  exactness := .exact
  amountUsd := 4 / 10000000
  elapsedSeconds_nonneg := by simp
  operatorLaborUsd_nonneg := by simp
  usageUnitCount_nonneg := by simp
  amountUsd_nonneg := by norm_num

/-- Three such turns of one provider: its row says that they cost nothing, the total is one unit
of the last place. -/
theorem not_rollupLaw_tinyTurns :
    ¬ RollupLaw undatedEnv ⟨[], none, [], [], none⟩ [tinyTurn, tinyTurn, tinyTurn] := by
  intro hlaw
  have hmoney := hlaw.money .provider
  change ((breakdown _ _ _).map (·.totalUsd)).sum = sum (amounts _) at hmoney
  rw [sum_totalUsd, sum_amounts, sum_toFixed_eq_iff] at hmoney
  have hrounded : toFixed 6 tinyTurn.amountUsd = 0 :=
    toFixed_eq_zero_iff.mpr ⟨by norm_num [tinyTurn], by norm_num [tinyTurn]⟩
  simp only [amounts, roundingErrors, List.map_cons, List.map_nil, List.sum_cons, List.sum_nil,
    hrounded, WithinHalf] at hmoney
  norm_num [tinyTurn] at hmoney

end CompareVI.Cost
