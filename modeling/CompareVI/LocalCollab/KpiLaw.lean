import CompareVI.Framework.Accounts
import CompareVI.LocalCollab.Kpi
import Mathlib.Algebra.Order.BigOperators.Group.List
import Mathlib.Tactic.Ring

/-!
# Conservation of the local collaboration KPIs

The rollup should not throw, and it should conserve the amounts of the receipts: what the
accumulators of the providers hold is what the receipts with a provider hold, the provider effort
of the combined plane is the same and that of its personas too, and its receipt effort is that of
all receipts (`KpiConserved`).

`Adds` is what a part of the rollup adds to the accumulators. Of a receipt, the duration and the
findings are added once (`sum_allocateEvenly`), the tokens for each of its providers
(`spread`). So the amounts are conserved exactly if all providers are supported and the tokens that
are counted again come to nothing (`kpiConserved_iff`).
-/

open Framework

namespace CompareVI.LocalCollab

/-! ### Amounts -/

inductive Amount where
  | durationMs
  | findingCount
  | inputTokens
  | cachedInputTokens
  | outputTokens
  deriving DecidableEq

def Amount.tokens : List Amount := [.inputTokens, .cachedInputTokens, .outputTokens]

def LedgerReceipt.amount (receipt : LedgerReceipt) : Amount → ℤ
  | .durationMs => receipt.durationMs
  | .findingCount => receipt.findingCount
  | .inputTokens => receipt.inputTokens
  | .cachedInputTokens => receipt.cachedInputTokens
  | .outputTokens => receipt.outputTokens

def MetricsAccumulator.amount (accumulator : MetricsAccumulator) : Amount → ℤ
  | .durationMs => accumulator.durationMs
  | .findingCount => accumulator.findingCount
  | .inputTokens => accumulator.inputTokens
  | .cachedInputTokens => accumulator.cachedInputTokens
  | .outputTokens => accumulator.outputTokens

def Metrics.amount (metrics : Metrics) : Amount → ℤ
  | .durationMs => metrics.durationMs
  | .findingCount => metrics.findingCount
  | .inputTokens => metrics.inputTokens
  | .cachedInputTokens => metrics.cachedInputTokens
  | .outputTokens => metrics.outputTokens

section Amounts

variable {a : Amount} {kind kind' : EffortKind} {accumulator : MetricsAccumulator} {effort : Effort}
  {event : LedgerReceipt} {collation : Comparison String}

@[simp] theorem amount_empty : ({} : MetricsAccumulator).amount a = 0 := by
  cases a <;> rfl

@[simp] theorem amount_addMetricsEvent :
    (addMetricsEvent accumulator event).amount a = accumulator.amount a + event.amount a := by
  cases a <;> rfl

@[simp] theorem amount_finalizeMetrics :
    (finalizeMetrics collation accumulator).amount a = accumulator.amount a := by
  cases a <;> rfl

@[simp] theorem amount_emptyEffort : (({} : Effort).of kind).amount a = 0 := by
  cases kind <;> exact amount_empty

def added (kind : EffortKind) (event : LedgerReceipt) : EffortKind → Amount → ℤ :=
  fun kind' a => if kind' = kind then event.amount a else 0

theorem added_of_ne (h : kind' ≠ kind) : added kind event kind' a = 0 := if_neg h

theorem amount_post :
    ((effort.post kind event).of kind').amount a =
      (effort.of kind').amount a + added kind event kind' a := by
  cases kind <;> cases kind' <;> simp [Effort.post, Effort.of, added]

end Amounts

/-! ### What is added -/

def Rollup.providerTotal (state : Rollup) (a : Amount) : ℤ :=
  total (fun provider : ProviderAccumulator => provider.totals.amount a) state.providers

def Rollup.combined (state : Rollup) (kind : EffortKind) (a : Amount) : ℤ :=
  (state.combinedPlane.effort.of kind).amount a

def Rollup.personaTotal (state : Rollup) (kind : EffortKind) (a : Amount) : ℤ :=
  total (fun effort : Effort => (effort.of kind).amount a) state.combinedPlane.personas

/-- The efforts that a part of the rollup adds. -/
structure Adds (s : Rollup) (w : EffortKind → Amount → ℤ) (t : Rollup) : Prop where
  providers : ∀ a, t.providerTotal a = s.providerTotal a + w .provider a
  combined : ∀ kind a, t.combined kind a = s.combined kind a + w kind a
  personas : ∀ kind a, t.personaTotal kind a = s.personaTotal kind a + w kind a

theorem additive_adds : Additive Adds where
  zero _ := ⟨fun _ => (add_zero _).symm, fun _ _ => (add_zero _).symm, fun _ _ => (add_zero _).symm⟩
  add {_ _ _ v w} hst htu :=
    { providers := fun a => by
        rw [htu.providers, hst.providers, add_assoc]
        rfl
      combined := fun kind a => by
        rw [htu.combined, hst.combined, add_assoc]
        rfl
      personas := fun kind a => by
        rw [htu.personas, hst.personas, add_assoc]
        rfl }

variable {collaboration : Collaboration} {collation : Comparison String} {state next : Rollup}
  {receipt event : LedgerReceipt} {receipts : List LedgerReceipt} {kind : EffortKind} {a : Amount}

theorem post_combinedPlane (plane : PlaneAccumulator) (persona : String) (kind' : EffortKind) :
    (((plane.post kind persona event).effort.of kind').amount a =
        (plane.effort.of kind').amount a + added kind event kind' a) ∧
      total (fun effort : Effort => (effort.of kind').amount a)
          (plane.post kind persona event).personas =
        total (fun effort : Effort => (effort.of kind').amount a) plane.personas +
          added kind event kind' a :=
  ⟨amount_post, total_put_post amount_emptyEffort amount_post⟩

theorem adds_addReceipt : Adds state (added .receipt receipt) (addReceipt receipt state) where
  providers a := by
    rw [added, if_neg (by decide), add_zero]
    rfl
  combined kind a := (post_combinedPlane _ _ kind).1
  personas kind a := (post_combinedPlane _ _ kind).2

/-- The events are posted to the supported providers. -/
def Supported (state : Rollup) : Prop :=
  keysOf state.providers = SUPPORTED_LOCAL_REVIEW_PROVIDERS

theorem entryOf?_isSome_iff {β : Type} {m : List (String × β)} {k : String} :
    (entryOf? k m).isSome = true ↔ k ∈ keysOf m := by
  induction m with
  | nil => simp [entryOf?, keysOf]
  | cons p m ih =>
    rw [entryOf?, keysOf, List.map_cons, List.mem_cons, ← keysOf]
    by_cases hkey : p.1 = k
    · rw [if_pos hkey]
      exact iff_of_true rfl (.inl hkey.symm)
    · rw [if_neg hkey, ih]
      exact (or_iff_right fun h => hkey h.symm).symm

/-- **The event of a provider** is posted exactly if the provider is supported. -/
theorem addProviderEvent_ok (providers : List String) (provider : String × ℕ)
    (hstate : Supported state) (hprovider : provider.1 ∈ SUPPORTED_LOCAL_REVIEW_PROVIDERS) :
    ∃ next, addProviderEvent collaboration receipt providers state provider = .ok next := by
  rw [← hstate, ← entryOf?_isSome_iff] at hprovider
  obtain ⟨accumulator, haccumulator⟩ := Option.isSome_iff_exists.mp hprovider
  rw [addProviderEvent]
  simp only [haccumulator]
  exact ⟨_, rfl⟩

def providerAdds (collaboration : Collaboration) (receipt : LedgerReceipt)
    (providers : List String) (provider : String × ℕ) : EffortKind → Amount → ℤ :=
  added .provider
    (providerEvent (assignmentOf collaboration provider.1) receipt providers provider.2 provider.1)

theorem addProviderEvent_adds (providers : List String) (provider : String × ℕ)
    (hstate : Supported state)
    (h : addProviderEvent collaboration receipt providers state provider = .ok next) :
    provider.1 ∈ SUPPORTED_LOCAL_REVIEW_PROVIDERS ∧ Supported next ∧
      Adds state (providerAdds collaboration receipt providers provider) next := by
  rw [addProviderEvent] at h
  cases haccumulator : entryOf? provider.1 state.providers with
  | none =>
    rw [haccumulator] at h
    cases h
  | some accumulator =>
    rw [haccumulator] at h
    obtain rfl := Except.ok.inj h
    have hmem : provider.1 ∈ keysOf state.providers :=
      entryOf?_isSome_iff.mp (by rw [haccumulator]; rfl)
    refine ⟨hstate ▸ hmem, ?_, ?_⟩
    · rw [Supported, keysOf_put, if_pos hmem]
      exact hstate
    · refine ⟨fun a => ?_, fun kind a => (post_combinedPlane _ _ kind).1,
        fun kind a => (post_combinedPlane _ _ kind).2⟩
      -- the accumulator is there, so what a new one would start from does not matter
      refine total_put_post (s := { accumulator with totals := {} }) amount_empty ?_
      rw [valueOf, haccumulator, Option.getD_some, amount_addMetricsEvent, providerAdds, added,
        if_pos rfl]

/-! ### One receipt -/

theorem length_allocateFrom (base : ℤ) (n : ℕ) (remainder : ℤ) :
    (allocateFrom base n remainder).length = n := by
  induction n generalizing remainder with
  | zero => rfl
  | succ n ih =>
    rw [allocateFrom]
    split <;> rw [List.length_cons, ih]

theorem sum_allocateFrom (base : ℤ) (n : ℕ) {remainder : ℤ} (hnonneg : 0 ≤ remainder)
    (hle : remainder ≤ n) : (allocateFrom base n remainder).sum = base * n + remainder := by
  induction n generalizing remainder with
  | zero =>
    rw [Nat.cast_zero] at hle
    rw [allocateFrom, List.sum_nil, le_antisymm hle hnonneg, Nat.cast_zero, mul_zero, add_zero]
  | succ n ih =>
    push_cast at hle
    rw [allocateFrom]
    split
    · rw [List.sum_cons, ih (by omega) (by omega)]
      push_cast
      ring
    · rw [List.sum_cons, ih (by omega) (by omega)]
      push_cast
      ring

theorem length_allocateEvenly (amount : ℤ) (count : ℕ) :
    (allocateEvenly amount count).length = count := length_allocateFrom _ _ _

/-- **An even split** loses nothing. -/
theorem sum_allocateEvenly (amount : ℤ) {count : ℕ} (hcount : 0 < count) :
    (allocateEvenly amount count).sum = amount := by
  have hpos : (0 : ℤ) < count := by exact_mod_cast hcount
  have hrest : amount - amount / count * count = amount % count := by
    rw [Int.emod_def, mul_comm]
  rw [allocateEvenly, hrest, sum_allocateFrom _ _ (Int.emod_nonneg _ hpos.ne')
    (Int.emod_lt_of_pos _ hpos).le, mul_comm]
  exact Int.mul_ediv_add_emod amount count

theorem sum_read {xs : List String} {allocations : List ℤ} (h : allocations.length = xs.length) :
    (xs.zipIdx.map fun x => (allocations[x.2]?).getD 0).sum = allocations.sum := by
  have hread : (xs.zipIdx.map fun x => (allocations[x.2]?).getD 0) = allocations := by
    refine List.ext_getElem (by rw [List.length_map, List.length_zipIdx, h]) fun i hi hi' => ?_
    rw [List.getElem_map, List.getElem_zipIdx]
    simp [hi']
  rw [hread]

def LedgerReceipt.spread (receipt : LedgerReceipt) (a : Amount) : ℤ :=
  if a ∈ Amount.tokens then receipt.uniqueProviders.length * receipt.amount a
  else if receipt.providers = [] then 0
  else receipt.amount a

theorem uniqueProviders_eq_nil_iff : receipt.uniqueProviders = [] ↔ receipt.providers = [] := by
  rw [List.eq_nil_iff_forall_not_mem, List.eq_nil_iff_forall_not_mem,
    LedgerReceipt.uniqueProviders]
  simp only [List.mem_eraseDups]

theorem length_uniqueProviders_pos (h : receipt.providers ≠ []) :
    0 < receipt.uniqueProviders.length :=
  List.length_pos_iff.mpr fun hnil => h (uniqueProviders_eq_nil_iff.mp hnil)

/-- **What the providers of a receipt get.** -/
theorem sum_providerEvent (assignment : String → ProviderAssignment) (receipt : LedgerReceipt)
    (a : Amount) :
    (receipt.uniqueProviders.zipIdx.map fun provider =>
      (providerEvent (assignment provider.1) receipt receipt.uniqueProviders provider.2
        provider.1).amount a).sum = receipt.spread a := by
  have hsplit : ∀ amount : ℤ, (receipt.uniqueProviders.zipIdx.map fun provider =>
      ((allocateEvenly amount receipt.uniqueProviders.length)[provider.2]?).getD 0).sum =
        if receipt.providers = [] then 0 else amount := by
    intro amount
    rw [sum_read (length_allocateEvenly _ _)]
    by_cases hnone : receipt.providers = []
    · rw [if_pos hnone, uniqueProviders_eq_nil_iff.mpr hnone]
      rfl
    · rw [if_neg hnone, sum_allocateEvenly _ (length_uniqueProviders_pos hnone)]
  have hwhole : ∀ amount : ℤ, (receipt.uniqueProviders.zipIdx.map fun _ => amount).sum =
      receipt.uniqueProviders.length * amount := by
    intro amount
    rw [List.map_const', List.sum_replicate, List.length_zipIdx, nsmul_eq_mul]
  cases a with
  | durationMs => exact hsplit receipt.durationMs
  | findingCount => exact hsplit receipt.findingCount
  | inputTokens => exact hwhole receipt.inputTokens
  | cachedInputTokens => exact hwhole receipt.cachedInputTokens
  | outputTokens => exact hwhole receipt.outputTokens

def LedgerReceipt.adds (receipt : LedgerReceipt) : EffortKind → Amount → ℤ
  | .receipt => receipt.amount
  | .provider => receipt.spread

theorem adds_eq (collaboration : Collaboration) (receipt : LedgerReceipt) :
    added .receipt receipt + (receipt.uniqueProviders.zipIdx.map
      (providerAdds collaboration receipt receipt.uniqueProviders)).sum = receipt.adds := by
  funext kind a
  rw [Pi.add_apply, Pi.add_apply, Pi.list_sum_apply, Pi.list_sum_apply, List.map_map, List.map_map]
  cases kind with
  | receipt =>
    rw [added, if_pos rfl]
    refine add_eq_left.mpr (List.sum_eq_zero fun w hw => ?_)
    obtain ⟨provider, -, rfl⟩ := List.mem_map.mp hw
    change providerAdds collaboration receipt receipt.uniqueProviders provider .receipt a = 0
    exact added_of_ne (by decide)
  | provider =>
    rw [added, if_neg (by decide), zero_add]
    exact sum_providerEvent (assignmentOf collaboration) receipt a

/-- **One receipt** is rolled up exactly if all its providers are supported. -/
theorem rollupReceipt_spec (collaboration : Collaboration) (receipt : LedgerReceipt)
    (hstate : Supported state) :
    ((∃ next, rollupReceipt collaboration state receipt = .ok next) ↔
        ∀ provider ∈ receipt.providers, provider ∈ SUPPORTED_LOCAL_REVIEW_PROVIDERS) ∧
      ∀ next, rollupReceipt collaboration state receipt = .ok next →
        Supported next ∧ Adds state receipt.adds next := by
  obtain ⟨hiff, hadds⟩ := foldlM_adds additive_adds
    (f := addProviderEvent collaboration receipt receipt.uniqueProviders)
    (fun _ provider => addProviderEvent_ok receipt.uniqueProviders provider)
    (fun _ provider _ => addProviderEvent_adds receipt.uniqueProviders provider)
    (s := addReceipt receipt state) hstate receipt.uniqueProviders.zipIdx
  refine ⟨hiff.trans ⟨fun h provider hprovider => ?_, fun h provider hprovider => ?_⟩,
    fun next hnext => ?_⟩
  · have hunique : provider ∈ receipt.uniqueProviders := List.mem_eraseDups.mpr hprovider
    obtain ⟨index, hindex, rfl⟩ := List.mem_iff_getElem.mp hunique
    exact h (_, index) (List.mk_mem_zipIdx_iff_getElem?.mpr (List.getElem?_eq_getElem hindex))
  · refine h _ (List.mem_eraseDups.mp ?_)
    exact List.mem_of_getElem? (List.mem_zipIdx_iff_getElem?.mp hprovider)
  · obtain ⟨hsupported, hrest⟩ := hadds next hnext
    rw [← adds_eq collaboration receipt]
    exact ⟨hsupported, additive_adds.add adds_addReceipt hrest⟩

/-! ### Conservation -/

/-- The summary holds what the receipts hold. -/
structure Conserved (receipts : List LedgerReceipt) (summary : KpiSummary) : Prop where
  /-- The providers hold what the receipts with a provider hold. -/
  providers : ∀ a,
    (summary.providers.map fun provider => provider.2.totals.amount a).sum =
      ((receipts.filter (·.providers ≠ [])).map (·.amount a)).sum
  /-- So does the combined plane as provider effort, … -/
  combined : ∀ a, summary.combinedLocalPlane.effort.providerEffort.amount a =
    (summary.providers.map fun provider => provider.2.totals.amount a).sum
  personas : ∀ a, summary.combinedLocalPlane.effort.providerEffort.amount a =
    (summary.combinedLocalPlane.personas.map fun persona => persona.2.providerEffort.amount a).sum
  /-- Its receipt effort is that of all receipts. -/
  receiptEffort : ∀ a, summary.combinedLocalPlane.effort.receiptEffort.amount a =
    (receipts.map (·.amount a)).sum

/-- The rollup does not throw, and it conserves the amounts. -/
def KpiConserved (collation : Comparison String) (collaboration : Collaboration)
    (receipts : List LedgerReceipt) : Prop :=
  ∃ summary, rollupLocalCollaborationKpi collation collaboration receipts = .ok summary ∧
    Conserved receipts summary

/-- All providers are supported, and the tokens of the second provider of a receipt and of those
after it come to nothing. -/
structure TokensOnce (receipts : List LedgerReceipt) : Prop where
  supported : ∀ receipt ∈ receipts, ∀ provider ∈ receipt.providers,
    provider ∈ SUPPORTED_LOCAL_REVIEW_PROVIDERS
  once : ∀ a ∈ Amount.tokens, (receipts.map fun receipt =>
    ((receipt.uniqueProviders.length - 1 : ℕ) : ℤ) * receipt.amount a).sum = 0

theorem supported_start (collaboration : Collaboration) :
    Supported (Rollup.start collaboration) := rfl

theorem total_start (collaboration : Collaboration) (kind : EffortKind) (a : Amount) :
    (Rollup.start collaboration).providerTotal a = 0 ∧
      (Rollup.start collaboration).combined kind a = 0 ∧
      (Rollup.start collaboration).personaTotal kind a = 0 := by
  refine ⟨List.sum_eq_zero fun w hw => ?_, amount_emptyEffort, rfl⟩
  obtain ⟨provider, hprovider, rfl⟩ := List.mem_map.mp hw
  obtain ⟨providerId, -, rfl⟩ := List.mem_map.mp hprovider
  exact amount_empty

/-- **The rollup.** -/
theorem rollup_spec (collation : Comparison String) (collaboration : Collaboration)
    (receipts : List LedgerReceipt) :
    ((∃ summary, rollupLocalCollaborationKpi collation collaboration receipts = .ok summary) ↔
        ∀ receipt ∈ receipts, ∀ provider ∈ receipt.providers,
          provider ∈ SUPPORTED_LOCAL_REVIEW_PROVIDERS) ∧
      ∀ summary, rollupLocalCollaborationKpi collation collaboration receipts = .ok summary →
        ∃ state, summary = finalizeRollup collation receipts.length state ∧
          Adds (Rollup.start collaboration) (receipts.map (·.adds)).sum state := by
  obtain ⟨hiff, hadds⟩ := foldlM_adds additive_adds (f := rollupReceipt collaboration)
    (fun _ receipt hstate => (rollupReceipt_spec collaboration receipt hstate).1.mpr)
    (fun _ receipt next hstate h =>
      ⟨(rollupReceipt_spec collaboration receipt hstate).1.mp ⟨next, h⟩,
        (rollupReceipt_spec collaboration receipt hstate).2 next h⟩)
    (supported_start collaboration) receipts
  rw [← hiff]
  constructor
  · constructor
    · rintro ⟨summary, h⟩
      rw [rollupLocalCollaborationKpi] at h
      cases hfold : receipts.foldlM (rollupReceipt collaboration) (Rollup.start collaboration) with
      | error e =>
        rw [hfold] at h
        cases h
      | ok state => exact ⟨state, rfl⟩
    · rintro ⟨state, hstate⟩
      rw [rollupLocalCollaborationKpi, hstate]
      exact ⟨_, rfl⟩
  · intro summary h
    rw [rollupLocalCollaborationKpi] at h
    cases hfold : receipts.foldlM (rollupReceipt collaboration) (Rollup.start collaboration) with
    | error e =>
      rw [hfold] at h
      cases h
    | ok state =>
      rw [hfold] at h
      exact ⟨state, (Except.ok.inj h).symm, (hadds state hfold).2⟩

theorem sum_providers_finalize (receiptCount : ℕ) (state : Rollup) (a : Amount) :
    ((finalizeRollup collation receiptCount state).providers.map
      fun provider => provider.2.totals.amount a).sum = state.providerTotal a := by
  rw [finalizeRollup, List.map_map, Rollup.providerTotal,
    ← total_perm ((byKey collation).sort_perm state.providers), total]
  simp [Function.comp_def, finalizeProvider]

theorem sum_personas_finalize (receiptCount : ℕ) (state : Rollup) (a : Amount) :
    ((finalizeRollup collation receiptCount state).combinedLocalPlane.personas.map
      fun persona => persona.2.providerEffort.amount a).sum = state.personaTotal .provider a := by
  rw [finalizeRollup, finalizePlaneAccumulator, List.map_map, Rollup.personaTotal,
    ← total_perm ((byKey collation).sort_perm state.combinedPlane.personas), total]
  simp [Function.comp_def, Effort.finalize, Effort.of]

theorem sum_spread (receipts : List LedgerReceipt) (a : Amount) :
    (receipts.map (·.spread a)).sum = ((receipts.filter (·.providers ≠ [])).map (·.amount a)).sum +
      if a ∈ Amount.tokens then (receipts.map fun receipt =>
        ((receipt.uniqueProviders.length - 1 : ℕ) : ℤ) * receipt.amount a).sum else 0 := by
  induction receipts with
  | nil => simp
  | cons receipt receipts ih =>
    rw [List.map_cons, List.sum_cons, ih, List.map_cons, List.sum_cons, LedgerReceipt.spread,
      List.filter_cons]
    by_cases hnone : receipt.providers = []
    · have hlength : receipt.uniqueProviders.length = 0 := by
        rw [uniqueProviders_eq_nil_iff.mpr hnone]
        rfl
      by_cases ha : a ∈ Amount.tokens <;> simp [ha, hnone, hlength]
    · have hpos := length_uniqueProviders_pos hnone
      obtain ⟨n, hn⟩ := Nat.exists_eq_add_of_lt hpos
      rw [Nat.zero_add] at hn
      by_cases ha : a ∈ Amount.tokens
      · simp only [ha, hnone, hn, if_true, ne_eq, not_false_eq_true, decide_true, List.map_cons,
          List.sum_cons, Nat.add_sub_cancel]
        push_cast
        ring
      · simp only [ha, hnone, if_false, ne_eq, not_false_eq_true, decide_true, if_true,
          List.map_cons, List.sum_cons, add_zero]

theorem sum_providers_rollup {summary : KpiSummary}
    (h : rollupLocalCollaborationKpi collation collaboration receipts = .ok summary) (a : Amount) :
    (summary.providers.map fun provider => provider.2.totals.amount a).sum =
      (receipts.map (·.spread a)).sum := by
  obtain ⟨state, rfl, hstate⟩ := (rollup_spec collation collaboration receipts).2 summary h
  rw [sum_providers_finalize, hstate.providers, (total_start collaboration .provider a).1,
    zero_add, Pi.list_sum_apply, Pi.list_sum_apply, List.map_map, List.map_map]
  rfl

theorem KpiConserved.tokensOnce (h : KpiConserved collation collaboration receipts) :
    TokensOnce receipts := by
  obtain ⟨summary, hsummary, hconserved⟩ := h
  refine ⟨(rollup_spec collation collaboration receipts).1.mp ⟨summary, hsummary⟩, fun a ha => ?_⟩
  have hproviders := hconserved.providers a
  rw [sum_providers_rollup hsummary, sum_spread, if_pos ha] at hproviders
  exact add_eq_left.mp hproviders

theorem TokensOnce.kpiConserved (honce : TokensOnce receipts) :
    KpiConserved collation collaboration receipts := by
  obtain ⟨hiff, hadds⟩ := rollup_spec collation collaboration receipts
  obtain ⟨summary, h⟩ := hiff.mpr honce.supported
  have hspread := sum_providers_rollup h
  obtain ⟨state, rfl, hstate⟩ := hadds summary h
  have hsum : ∀ kind a, (receipts.map (·.adds)).sum kind a =
      (receipts.map fun receipt => receipt.adds kind a).sum := by
    intro kind a
    rw [Pi.list_sum_apply, Pi.list_sum_apply, List.map_map, List.map_map]
    rfl
  have hcombined : ∀ kind a, state.combined kind a =
      (receipts.map fun receipt => receipt.adds kind a).sum := by
    intro kind a
    rw [hstate.combined, (total_start collaboration kind a).2.1, zero_add, hsum]
  refine ⟨_, h, fun a => ?_, fun a => ?_, fun a => ?_, fun a => ?_⟩
  · rw [hspread, sum_spread]
    split
    · next ha => rw [honce.once a ha, add_zero]
    · exact add_zero _
  · rw [hspread]
    exact amount_finalizeMetrics.trans (hcombined .provider a)
  · rw [sum_personas_finalize, hstate.personas, (total_start collaboration .provider a).2.2,
      zero_add, hsum]
    exact amount_finalizeMetrics.trans (hcombined .provider a)
  · exact amount_finalizeMetrics.trans (hcombined .receipt a)

/-- **Conservation.** The rollup returns, and it conserves the amounts of the receipts, exactly if
all providers are supported and the tokens that are counted again come to nothing. -/
theorem kpiConserved_iff (collation : Comparison String) (collaboration : Collaboration)
    (receipts : List LedgerReceipt) :
    KpiConserved collation collaboration receipts ↔ TokensOnce receipts :=
  ⟨KpiConserved.tokensOnce, TokensOnce.kpiConserved⟩

def sharedReceipt : LedgerReceipt where
  schema := "comparevi/local-collab-ledger-receipt@v1"
  receiptId := "daemon:abc"
  phase := "daemon"
  forkPlane := "personal"
  persona := "codex"
  executionPlane := "wsl2"
  providerRuntime := none
  headSha := "abc"
  baseSha := "abc"
  providerId := "multi"
  providers := ["copilot-cli", "simulation"]
  requestedModel := none
  effectiveModel := none
  inputTokens := 20
  cachedInputTokens := 5
  outputTokens := 6
  startedAt := none
  finishedAt := none
  durationMs := 1000
  findingCount := 3
  status := "passed"
  outcome := "completed"
  selectionSource := none
  sourceReceiptIds := []

/-- Its tokens are counted for both. -/
theorem not_kpiConserved_sharedReceipt :
    ¬ KpiConserved (.ofKey String.length) ⟨none, none, none, none⟩ [sharedReceipt] := by
  intro h
  have honce := h.tokensOnce.once .inputTokens (by decide)
  have hlength : sharedReceipt.uniqueProviders.length = 2 := by decide
  rw [List.map_singleton, List.sum_singleton, hlength] at honce
  exact absurd honce (by decide)

end CompareVI.LocalCollab
