import CompareVI.Delivery.WorkerPool
import CompareVI.Framework.JsonText

/-!
# The accounting of worker slots

`LaidOut` is what the loops that lay out the slots keep: the slots are numbered from one, and all
are available. From it the slots of a runtime state always add up (`slotAccounting`).

A lane that goes from work to waiting releases the slot that it has occupied exactly if the
preferred slot is laid out (`slotLaw_iff`).
-/

open Framework

namespace CompareVI.Delivery

variable {slots : List WorkerSlot} {target n i : ℕ} {provider : Option WorkerProvider}
  {preferredSlotId effectiveTargetSlotCount : Option Json} {lane : SlotLane}

/-! ### The slots that are laid out -/

theorem slotIdOf_injective : Function.Injective slotIdOf := by
  intro m n h
  have hlist := congrArg String.toList h
  rw [slotIdOf, slotIdOf, String.toList_append, String.toList_append] at hlist
  exact Json.natText_injective (List.append_cancel_left hlist)

/-- The slots are numbered, none is occupied, and there are no more than the host has room for. -/
structure LaidOut (target : ℕ) (slots : List WorkerSlot) : Prop where
  numbered : slots.map (·.slotId) = (List.range slots.length).map fun n => slotIdOf (n + 1)
  available : ∀ slot ∈ slots, slot.status = .available
  le_target : slots.length ≤ target

theorem laidOut_nil (target : ℕ) : LaidOut target [] :=
  ⟨rfl, List.forall_mem_nil _, Nat.zero_le _⟩

@[simp] theorem length_pushSlot : (pushSlot provider slots).length = slots.length + 1 := by
  rw [pushSlot, List.length_append, List.length_singleton]

theorem LaidOut.pushSlot (h : LaidOut target slots) (hroom : slots.length < target) :
    LaidOut target (pushSlot provider slots) where
  numbered := by
    rw [length_pushSlot, Delivery.pushSlot, List.map_append, h.numbered, List.range_succ,
      List.map_append]
    rfl
  available slot hslot := by
    rcases List.mem_append.mp hslot with hold | hnew
    · exact h.available slot hold
    · rw [List.mem_singleton.mp hnew]
  le_target := by
    rw [length_pushSlot]
    exact hroom

theorem LaidOut.pushProviderSlots (p : WorkerProvider) (h : LaidOut target slots) :
    LaidOut target (pushProviderSlots target p n slots) := by
  induction n generalizing slots with
  | zero => exact h
  | succ n ih =>
    rw [Delivery.pushProviderSlots]
    split
    · next hroom => exact ih (h.pushSlot hroom)
    · exact h

theorem LaidOut.fillSlots (h : LaidOut target slots) :
    LaidOut target (fillSlots target slots) ∧ (fillSlots target slots).length = target := by
  induction hroom : target - slots.length generalizing slots with
  | zero =>
    have hlength := h.le_target
    rw [Delivery.fillSlots, if_neg (by omega)]
    exact ⟨h, by omega⟩
  | succ n ih =>
    rw [Delivery.fillSlots, if_pos (by omega)]
    exact ih (h.pushSlot (by omega)) (by rw [length_pushSlot]; omega)

/-- **The slots that the host has room for.** -/
theorem laidOut_layOutSlots (target : ℕ) (providers : List WorkerProvider) :
    LaidOut target (layOutSlots target providers) ∧
      (layOutSlots target providers).length = target := by
  refine LaidOut.fillSlots ?_
  generalize providers.filter (·.enabled) = enabled
  suffices hfold : ∀ slots, LaidOut target slots → LaidOut target (enabled.foldl
      (fun slots provider => pushProviderSlots target provider provider.slotCount slots) slots) from
    hfold [] (laidOut_nil target)
  induction enabled with
  | nil => exact fun _ h => h
  | cons p enabled ih => exact fun slots h => ih _ (h.pushProviderSlots p)

theorem LaidOut.getElem (h : LaidOut target slots) (hi : i < slots.length) :
    slots[i].slotId = slotIdOf (i + 1) := by
  have hget := congrArg (·[i]?) h.numbered
  simpa [hi] using hget

theorem LaidOut.nodup (h : LaidOut target slots) : (slots.map (·.slotId)).Nodup := by
  rw [h.numbered]
  refine List.Nodup.map (fun m n hmn => ?_) List.nodup_range
  exact Nat.succ_injective (slotIdOf_injective hmn)

/-! ### The chosen slot -/

theorem LaidOut.preferredSlotIndex_eq_some (h : LaidOut target slots) (hi : i < slots.length)
    (hid : normalizeText preferredSlotId = slotIdOf (i + 1)) :
    preferredSlotIndex slots preferredSlotId = some i := by
  rw [preferredSlotIndex, List.findIdx?_eq_some_iff_getElem]
  refine ⟨hi, decide_eq_true ((h.getElem hi).trans hid.symm), fun j hj => ?_⟩
  rw [Bool.not_eq_true, decide_eq_false_iff_not, h.getElem, hid]
  intro hsame
  have := slotIdOf_injective hsame
  omega

theorem LaidOut.preferredSlotIndex_eq_none (h : LaidOut target slots)
    (hid : ∀ n < slots.length, normalizeText preferredSlotId ≠ slotIdOf (n + 1)) :
    preferredSlotIndex slots preferredSlotId = none := by
  rw [preferredSlotIndex, List.findIdx?_eq_none_iff]
  intro slot hslot
  obtain ⟨n, hn, rfl⟩ := List.mem_iff_getElem.mp hslot
  rw [decide_eq_false_iff_not, h.getElem hn]
  exact Ne.symm (hid n hn)

def occupiedIds (slots : List WorkerSlot) : List String :=
  (slots.filter (·.status = .occupied)).map (·.slotId)

def occupyAt (slots : List WorkerSlot) (lane : SlotLane) (index : ℕ) : List WorkerSlot :=
  slots.modify index fun slot => { slot with status := .occupied, lane := some lane }

theorem occupiedIds_of_available (h : ∀ slot ∈ slots, slot.status = .available) :
    occupiedIds slots = [] := by
  rw [occupiedIds, List.map_eq_nil_iff, List.filter_eq_nil_iff]
  intro slot hslot
  rw [h slot hslot]
  decide

/-- **Occupying a slot** changes no id, and it is the only one that is occupied. -/
theorem LaidOut.occupyAt (h : LaidOut target slots) (lane : SlotLane) (hi : i < slots.length) :
    (occupyAt slots lane i).map (·.slotId) = slots.map (·.slotId) ∧
      occupiedIds (occupyAt slots lane i) = [slotIdOf (i + 1)] := by
  have hid := h.getElem hi
  obtain ⟨before, slot, after, hslots, hlength, hmodify⟩ :=
    List.exists_of_modify
      (fun slot : WorkerSlot => { slot with status := .occupied, lane := some lane }) hi
  have hmodify : Delivery.occupyAt slots lane i = _ := hmodify
  rw [hmodify]
  subst hslots
  subst hlength
  rw [List.getElem_append_right (Nat.le_refl _)] at hid
  simp only [Nat.sub_self, List.getElem_cons_zero] at hid
  have hbefore := occupiedIds_of_available fun s hs => h.available s (List.mem_append_left _ hs)
  have hafter := occupiedIds_of_available fun s hs =>
    h.available s (List.mem_append_right _ (List.mem_cons_of_mem _ hs))
  constructor
  · rw [List.map_append, List.map_append, List.map_cons, List.map_cons]
  · rw [occupiedIds] at hbefore hafter ⊢
    rw [List.filter_append, List.map_append, hbefore, List.filter_cons, if_pos (by simp),
      List.map_cons, hafter, hid]
    rfl

/-! ### Accounting -/

theorem countStatus_add (slots : List WorkerSlot) :
    countStatus .occupied slots + countStatus .available slots = slots.length := by
  rw [countStatus, countStatus,
    List.length_eq_countP_add_countP (fun slot => slot.status = .occupied)]
  congr 1
  refine List.countP_congr fun slot _ => ?_
  cases hstatus : slot.status <;> simp

theorem countStatus_occupied (slots : List WorkerSlot) :
    countStatus .occupied slots = (occupiedIds slots).length := by
  rw [countStatus, occupiedIds, List.length_map, List.countP_eq_length_filter]

/-- The slots of a runtime state add up. -/
structure SlotAccounting (target : ℕ) (state : WorkerPoolState) : Prop where
  target_eq : state.targetSlotCount = target
  length_slots : state.slots.length = target
  nodup : (state.slots.map (·.slotId)).Nodup
  adds : state.occupiedSlotCount + state.availableSlotCount = target
  occupied_le : state.occupiedSlotCount ≤ 1

theorem LaidOut.assignSlots (h : LaidOut target slots) (states : List String)
    (preferredSlotId : Option Json) (lane : SlotLane) :
    (assignSlots states slots preferredSlotId lane).1.map (·.slotId) = slots.map (·.slotId) ∧
      (occupiedIds (assignSlots states slots preferredSlotId lane).1).length ≤ 1 := by
  have hkept : (occupiedIds slots).length ≤ 1 := by
    rw [occupiedIds_of_available h.available]
    exact Nat.zero_le 1
  rw [Delivery.assignSlots]
  split
  · exact ⟨rfl, hkept⟩
  · split
    · next hconsumes =>
      rw [occupySlot]
      by_cases hi : (preferredSlotIndex slots preferredSlotId).getD 0 < slots.length
      · obtain ⟨hids, hoccupied⟩ := h.occupyAt lane hi
        rw [Delivery.occupyAt] at hids hoccupied
        rw [hoccupied]
        exact ⟨hids, Nat.le_refl 1⟩
      · rw [List.modify_eq_self (Nat.le_of_not_lt hi)]
        exact ⟨rfl, hkept⟩
    · exact ⟨rfl, hkept⟩

/-- **The slots always add up.** -/
theorem slotAccounting (pool : WorkerPoolPolicy) (lane : SlotLane)
    (preferredSlotId effectiveTargetSlotCount : Option Json) :
    SlotAccounting (runtimeTargetSlotCount pool.targetSlotCount effectiveTargetSlotCount)
      (workerPoolRuntimeState pool lane preferredSlotId effectiveTargetSlotCount) := by
  obtain ⟨hlaid, hlength⟩ := laidOut_layOutSlots
    (runtimeTargetSlotCount pool.targetSlotCount effectiveTargetSlotCount) pool.providers
  obtain ⟨hids, hoccupied⟩ :=
    hlaid.assignSlots pool.releaseWaitingStates preferredSlotId lane
  have hslots := congrArg List.length hids
  rw [List.length_map, List.length_map, hlength] at hslots
  exact {
    target_eq := rfl
    length_slots := hslots
    nodup := by
      rw [workerPoolRuntimeState, hids]
      exact hlaid.nodup
    adds := (countStatus_add _).trans hslots
    occupied_le := (countStatus_occupied _).trans_le hoccupied }

/-! ### Release -/

/-- What the runtime states of a policy, a preferred slot and a target promise. -/
structure SlotLaw (policy preferredSlotId effectiveTargetSlotCount : Option Json) : Prop where
  accounting : ∀ lane state,
    buildWorkerPoolRuntimeState policy lane preferredSlotId effectiveTargetSlotCount = .ok state →
    SlotAccounting (runtimeTargetSlotCount state.configuredTargetSlotCount
      effectiveTargetSlotCount) state
  /-- A lane that goes from work to waiting releases the slot that it has occupied. -/
  releases : ∀ (lane : SlotLane) working waiting state state',
    buildWorkerPoolRuntimeState policy { lane with laneLifecycle := working } preferredSlotId
      effectiveTargetSlotCount = .ok state →
    buildWorkerPoolRuntimeState policy { lane with laneLifecycle := waiting } preferredSlotId
      effectiveTargetSlotCount = .ok state' →
    laneLifecycleConsumesWorkerSlot working state.releaseWaitingStates = true →
    waiting ∈ state.releaseWaitingStates →
      ∃ slotId, occupiedIds state.slots = [slotId] ∧
        state'.releasedLanes.map (·.slotId) = [slotId]

variable {pool : WorkerPoolPolicy} {states : List String}

theorem notMem_of_consumes {working : String}
    (hstates : ∀ state ∈ states, state ∈ DEFAULT_WORKER_RELEASE_WAITING_STATES)
    (h : laneLifecycleConsumesWorkerSlot working states = true) : working ∉ states := by
  intro hmem
  have hnormal : ∀ state ∈ DEFAULT_WORKER_RELEASE_WAITING_STATES,
      normalizeLifecycle state "idle" = state := by decide +kernel
  rw [laneLifecycleConsumesWorkerSlot, hnormal working (hstates working hmem), if_pos hmem] at h
  cases h

theorem poolReleaseWaitingStates_spec (workerPool : Json) :
    poolReleaseWaitingStates workerPool ≠ [] ∧
      ∀ state ∈ poolReleaseWaitingStates workerPool,
        state ∈ DEFAULT_WORKER_RELEASE_WAITING_STATES := by
  rw [poolReleaseWaitingStates]
  split
  · next hlength =>
    exact ⟨List.ne_nil_of_length_pos hlength, fun state hstate =>
      of_decide_eq_true (List.mem_filter.mp hstate).2⟩
  · exact ⟨List.cons_ne_nil _ _, fun _ h => h⟩

theorem releaseWaitingStates_spec {policy : Option Json}
    (hpolicy : buildWorkerPoolPolicySnapshot policy = .ok pool) :
    pool.releaseWaitingStates ≠ [] ∧
      ∀ state ∈ pool.releaseWaitingStates, state ∈ DEFAULT_WORKER_RELEASE_WAITING_STATES := by
  rw [buildWorkerPoolPolicySnapshot, normalizeWorkerPoolPolicy] at hpolicy
  split at hpolicy
  · cases hpolicy
  · rw [← Except.ok.inj hpolicy]
    exact poolReleaseWaitingStates_spec _

theorem LaidOut.occupiedIds_assignSlots (h : LaidOut target slots) (hpos : 0 < slots.length)
    (hnot : lane.laneLifecycle ∉ states)
    (hconsumes : laneLifecycleConsumesWorkerSlot lane.laneLifecycle states = true)
    (hi : (preferredSlotIndex slots preferredSlotId).getD 0 = i) (hlt : i < slots.length) :
    occupiedIds (Delivery.assignSlots states slots preferredSlotId lane).1 =
      [slotIdOf (i + 1)] := by
  have hnone : ((selectedSlotId slots preferredSlotId).filter fun _ =>
      lane.laneLifecycle ∈ states) = none := by
    rw [Option.filter_eq_none_iff]
    intro slotId _
    rw [decide_eq_true_eq]
    exact hnot
  rw [Delivery.assignSlots, hnone]
  simp only [hconsumes, hpos, and_self, if_true]
  rw [occupySlot, hi]
  exact (h.occupyAt lane hlt).2

theorem releasedLanes_assignSlots (hmem : lane.laneLifecycle ∈ states) :
    (assignSlots states slots preferredSlotId lane).2.map (·.slotId) =
      (selectedSlotId slots preferredSlotId).toList := by
  rw [assignSlots]
  cases hselected : selectedSlotId slots preferredSlotId with
  | some slotId =>
    rw [Option.filter_some, if_pos (decide_eq_true hmem)]
    rfl
  | none =>
    rw [Option.filter_none]
    dsimp only
    split <;> rfl

/-- **The worker slots of a policy** add up, and a lane that goes from work to waiting releases the
slot that it has occupied exactly if the preferred slot is one of those that are laid out. -/
theorem slotLaw_iff (policy preferredSlotId effectiveTargetSlotCount : Option Json)
    (pool : WorkerPoolPolicy) (hpolicy : buildWorkerPoolPolicySnapshot policy = .ok pool) :
    SlotLaw policy preferredSlotId effectiveTargetSlotCount ↔
      ∃ n < runtimeTargetSlotCount pool.targetSlotCount effectiveTargetSlotCount,
        normalizeText preferredSlotId = slotIdOf (n + 1) := by
  have hstate : ∀ lane, buildWorkerPoolRuntimeState policy lane preferredSlotId
      effectiveTargetSlotCount = .ok (workerPoolRuntimeState pool lane preferredSlotId
        effectiveTargetSlotCount) := fun lane => by
    rw [buildWorkerPoolRuntimeState, hpolicy]
    rfl
  obtain ⟨hlaid, hlength⟩ := laidOut_layOutSlots
    (runtimeTargetSlotCount pool.targetSlotCount effectiveTargetSlotCount) pool.providers
  have hpos : 0 < (layOutSlots
      (runtimeTargetSlotCount pool.targetSlotCount effectiveTargetSlotCount)
      pool.providers).length := by
    rw [hlength]
    exact Nat.le_max_left 1 _
  obtain ⟨hne, hstates⟩ := releaseWaitingStates_spec hpolicy
  constructor
  · intro law
    by_contra hnot
    push Not at hnot
    -- `coding` occupies the first slot, and the first waiting state does not release it
    obtain ⟨waiting, hwaiting⟩ := List.exists_mem_of_ne_nil _ hne
    have hcoding : laneLifecycleConsumesWorkerSlot "coding" pool.releaseWaitingStates = true := by
      have hlower : normalizeLifecycle "coding" "idle" = "coding" := by decide +kernel
      have hother : "coding" ∉ pool.releaseWaitingStates := fun hmem =>
        absurd (hstates _ hmem) (by decide)
      rw [laneLifecycleConsumesWorkerSlot, hlower, if_neg hother]
      decide
    obtain ⟨slotId, hoccupied, hreleased⟩ := law.releases ⟨.null, .null, ""⟩ "coding" waiting _ _
      (hstate _) (hstate _) hcoding hwaiting
    have hindex : preferredSlotIndex _ preferredSlotId = none :=
      hlaid.preferredSlotIndex_eq_none (by rw [hlength]; exact hnot)
    have hnotMem : (⟨.null, .null, "coding"⟩ : SlotLane).laneLifecycle ∉
        pool.releaseWaitingStates := notMem_of_consumes hstates hcoding
    have hfirst := hlaid.occupiedIds_assignSlots hpos hnotMem hcoding (i := 0)
      (by rw [hindex]; rfl) hpos
    rw [workerPoolRuntimeState, hfirst] at hoccupied
    rw [workerPoolRuntimeState, releasedLanes_assignSlots hwaiting, selectedSlotId, hindex,
      ← hoccupied] at hreleased
    have hsame : optionText preferredSlotId = some (slotIdOf 1) := by
      simpa using hreleased
    rw [optionText] at hsame
    split at hsame
    · cases hsame
    · exact hnot 0 (hlength ▸ hpos) (Option.some.inj hsame)
  · rintro ⟨n, hn, hpreferred⟩
    refine ⟨fun lane state h => ?_, fun lane working waiting state state' h h' => ?_⟩
    · obtain rfl := Except.ok.inj ((hstate lane).symm.trans h)
      exact slotAccounting pool lane preferredSlotId effectiveTargetSlotCount
    · obtain rfl := Except.ok.inj ((hstate _).symm.trans h)
      obtain rfl := Except.ok.inj ((hstate _).symm.trans h')
      intro hworking hwaiting
      have hlt := hn.trans_eq hlength.symm
      have hindex := hlaid.preferredSlotIndex_eq_some hlt hpreferred
      refine ⟨slotIdOf (n + 1), ?_, ?_⟩
      · have hnotMem : ({ lane with laneLifecycle := working } : SlotLane).laneLifecycle ∉
            pool.releaseWaitingStates := notMem_of_consumes hstates hworking
        exact hlaid.occupiedIds_assignSlots hpos hnotMem hworking (by rw [hindex]; rfl) hlt
      · rw [workerPoolRuntimeState, releasedLanes_assignSlots hwaiting, selectedSlotId, hindex]
        dsimp only
        rw [List.getElem?_eq_getElem hlt, Option.map_some, hlaid.getElem hlt]
        rfl

def defaultPool : WorkerPoolPolicy :=
  ⟨20, 1, DEFAULT_WORKER_RELEASE_WAITING_STATES, buildDefaultWorkerPoolProviders⟩

theorem snapshot_default : buildWorkerPoolPolicySnapshot none = .ok defaultPool := by
  rfl

/-- A host that has room for two slots, where the second one is preferred. -/
theorem slotLaw_iff_default :
    SlotLaw none (some (.str "worker-slot-2")) (some (.num 2)) ↔
      ∃ n < runtimeTargetSlotCount defaultPool.targetSlotCount (some (.num 2)),
        normalizeText (some (.str "worker-slot-2")) = slotIdOf (n + 1) :=
  slotLaw_iff none (some (.str "worker-slot-2")) (some (.num 2)) defaultPool snapshot_default

/-- Where the third one is preferred, the first slot is occupied and the third one released. -/
theorem not_slotLaw_shrunk : ¬ SlotLaw none (some (.str "worker-slot-3")) (some (.num 2)) := by
  intro law
  have hstate : ∀ lane, buildWorkerPoolRuntimeState none lane (some (.str "worker-slot-3"))
      (some (.num 2)) = .ok (workerPoolRuntimeState defaultPool lane
        (some (.str "worker-slot-3")) (some (.num 2))) := fun lane => by
    rw [buildWorkerPoolRuntimeState, snapshot_default]
    rfl
  obtain ⟨slotId, hoccupied, hreleased⟩ := law.releases ⟨.str "origin-7", .num 7, ""⟩ "coding"
    "waiting-ci" _ _ (hstate _) (hstate _) (by decide +kernel) (by decide +kernel)
  have hfirst : occupiedIds (workerPoolRuntimeState defaultPool
      ⟨.str "origin-7", .num 7, "coding"⟩ (some (.str "worker-slot-3"))
      (some (.num 2))).slots = ["worker-slot-1"] := by
    decide +kernel
  have hthird : (workerPoolRuntimeState defaultPool ⟨.str "origin-7", .num 7, "waiting-ci"⟩
      (some (.str "worker-slot-3")) (some (.num 2))).releasedLanes.map (·.slotId) =
        ["worker-slot-3"] := by
    decide +kernel
  have hsame : ["worker-slot-1"] = ["worker-slot-3"] :=
    (hfirst.symm.trans hoccupied).trans (hreleased.symm.trans hthird)
  exact absurd hsame (by decide)

end CompareVI.Delivery
