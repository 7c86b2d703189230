import CompareVI.CompareLoop.Percentiles
import CompareVI.Framework.Scope

/-!
# The reservoir of the compare loop

The streaming percentiles are computed over `$streamSamples`, a list of bounded length that
`Add-StreamSample` fills and `Invoke-Reconciliation` rebuilds from all durations so far. Both
are functions inside `Invoke-IntegrationCompareLoop`: they change the list in place, but a
variable that they assign is their own.

`$streamIndex` is such a variable, so it stays at zero in the loop and a full reservoir only
ever replaces its first sample (`feed_eq`). It is the window of the last samples just where
the samples that stay are those of the window anyway (`ringLaw_iff`).

A reconciliation takes the samples at places that grow (`rebuilt_invokeReconciliation`), in
every run of the loop (`reconciliation_law`).
-/

open Framework

namespace CompareVI.CompareLoop

/-! ### The functions -/

inductive StreamVar where
  | streamCapacity
  | streamIndex
deriving DecidableEq

/-- The variables, and the list that `$streamSamples` refers to. -/
structure Stream where
  scopes : Scopes StreamVar ℤ
  streamSamples : List ℚ

/-- `$StreamCapacity` after its check. -/
def streamCapacity (requested : ℤ) : ℤ := if requested < 10 then 10 else requested

def loopScopes (requested : ℤ) : Scopes StreamVar ℤ :=
  ((Scopes.enter []).assign .streamCapacity (streamCapacity requested)).assign .streamIndex 0

def startStream (requested : ℤ) : Stream where
  scopes := loopScopes requested
  streamSamples := []

def addStreamSample (s : Stream) (x : ℚ) : Option Stream := do
  let scopes := s.scopes.enter
  let capacity ← scopes.read .streamCapacity
  if (s.streamSamples.length : ℤ) < capacity then
    return { scopes := scopes.leave, streamSamples := s.streamSamples ++ [x] }
  else
    let index ← scopes.read .streamIndex
    let place ← placeOf s.streamSamples.length index
    let scopes := scopes.assign .streamIndex ((index + 1) % capacity)
    return { scopes := scopes.leave, streamSamples := s.streamSamples.set place x }

/-- `$idx` in the loop of `Invoke-Reconciliation`. -/
def sampleIndex (all : List ℚ) (take i : ℕ) : ℤ :=
  if (all.length : ℤ) ≤ stride all.length take i then all.length - 1
  else stride all.length take i

/-- `Invoke-Reconciliation`. It does nothing for a list that is no condition. -/
def invokeReconciliation (all : List ℚ) (s : Stream) : Option Stream :=
  if isTrue all = false ∨ all.length = 0 then some s
  else do
    let scopes := s.scopes.enter
    let capacity ← scopes.read .streamCapacity
    let take := min (all.length : ℤ) capacity
    if (all.length : ℤ) ≤ capacity then
      return { scopes := scopes.leave, streamSamples := all }
    else
      let samples ← (List.range take.toNat).mapM fun i => indexed all (sampleIndex all take.toNat i)
      return { scopes := scopes.leave, streamSamples := samples }

/-! ### The loop -/

inductive QuantileStrategy where
  | exact
  | streamingP2
  | streamingReservoir
  | hybrid
deriving DecidableEq

structure SamplingParams where
  quantileStrategy : QuantileStrategy
  hybridExactThreshold : ℤ
  streamCapacity : ℤ
  reconcileEvery : ℤ

structure Sampling where
  iteration : ℕ
  streamingActive : Bool
  hybridExactSamples : List ℚ
  /-- The durations in `$records`. -/
  durations : List ℚ
  stream : Stream

/-- `$useStreaming`, after the old name is replaced. -/
def useStreaming (params : SamplingParams) : Bool :=
  params.quantileStrategy = .streamingReservoir ∨ params.quantileStrategy = .streamingP2

def startSampling (params : SamplingParams) : Sampling where
  iteration := 0
  streamingActive := useStreaming params
  hybridExactSamples := []
  durations := []
  stream := startStream params.streamCapacity

/-- What an iteration of the given duration does with it. -/
def sampleDuration (params : SamplingParams) (s : Sampling) (duration : ℚ) : Option Sampling :=
  if 0 < duration then
    if params.quantileStrategy = .hybrid ∧ s.streamingActive = false then
      let samples := s.hybridExactSamples ++ [duration]
      if params.hybridExactThreshold ≤ s.iteration then do
        let stream ← samples.foldlM addStreamSample s.stream
        return { s with streamingActive := true, hybridExactSamples := [], stream }
      else some { s with hybridExactSamples := samples }
    else if s.streamingActive then do
      let stream ← addStreamSample s.stream duration
      return { s with stream }
    else some s
  else some s

def durAll (s : Sampling) : List ℚ := s.durations.filter fun d => 0 < d

/-- An iteration reconciles. -/
def Reconciles (params : SamplingParams) (s : Sampling) : Prop :=
  0 < params.reconcileEvery ∧ s.streamingActive = true ∧
    (s.iteration : ℤ) % params.reconcileEvery = 0

instance (params : SamplingParams) (s : Sampling) : Decidable (Reconciles params s) :=
  inferInstanceAs (Decidable (_ ∧ _))

def recordDuration (params : SamplingParams) (s : Sampling) (duration : ℚ) : Option Sampling :=
  (sampleDuration params { s with iteration := s.iteration + 1 } duration).map fun s =>
    { s with durations := s.durations ++ [duration] }

def sampleIteration (params : SamplingParams) (s : Sampling) (duration : ℚ) : Option Sampling := do
  let s ← recordDuration params s duration
  if Reconciles params s then
    let stream ← invokeReconciliation (durAll s) s.stream
    return { s with stream }
  else return s

/-! ### The laws -/

def feed (requested : ℤ) (xs : List ℚ) : Option Stream :=
  xs.foldlM addStreamSample (startStream requested)

def window (size : ℕ) (xs : List ℚ) : List ℚ := xs.drop (xs.length - size)

/-- The reservoir is a ring buffer over the samples, so its percentiles are those of the
window. -/
def RingLaw (requested : ℤ) (xs : List ℚ) : Prop :=
  ∃ s, feed requested xs = some s ∧
    s.streamSamples.Perm (window (streamCapacity requested).toNat xs) ∧
    getStreamPercentiles s.streamSamples =
      getStreamPercentiles (window (streamCapacity requested).toNat xs) ∧
    ∀ ps, newPercentileObject (sortObject s.streamSamples) ps =
      newPercentileObject (sortObject (window (streamCapacity requested).toNat xs)) ps

/-- The samples behind the first one that filled the reservoir are those of the window before
its last. -/
def WindowStays (size : ℕ) (xs : List ℚ) : Prop :=
  xs.length ≤ size ∨ (xs.take size).tail.Perm (window size xs).dropLast

/-- A state that the functions can be called in. -/
structure Stream.Valid (requested : ℤ) (s : Stream) : Prop where
  scopes : s.scopes = loopScopes requested
  length : s.streamSamples.length ≤ streamCapacity requested

/-- As many samples of a list, at places that grow from the first one. -/
def Subsample (all samples : List ℚ) (size : ℕ) : Prop :=
  samples.length = size ∧ ∃ places : List ℕ, places.Pairwise (· < ·) ∧
    (∀ place ∈ places, place < all.length) ∧ places.head? = some 0 ∧
    samples.map some = places.map fun place => all[place]?

/-- What a reconciliation makes of the durations. -/
structure Rebuilt (requested : ℤ) (all : List ℚ) (s : Stream) : Prop where
  valid : s.Valid requested
  short : all.length ≤ streamCapacity requested → s.streamSamples = all
  long : streamCapacity requested < all.length →
    Subsample all s.streamSamples (streamCapacity requested).toNat

/-! ### The sample feed -/

section Feed

variable {requested : ℤ} {s : Stream}

theorem ten_le_streamCapacity (requested : ℤ) : 10 ≤ streamCapacity requested := by
  rw [streamCapacity]
  split <;> omega

theorem read_streamCapacity :
    (loopScopes requested).enter.read .streamCapacity = some (streamCapacity requested) := by
  rw [Scopes.read_enter, loopScopes, Scopes.read_assign_assign]
  rfl

theorem read_streamIndex : (loopScopes requested).enter.read .streamIndex = some 0 := by
  rw [Scopes.read_enter, loopScopes, Scopes.read_assign_assign]
  rfl

theorem valid_startStream : (startStream requested).Valid requested :=
  ⟨rfl, (by decide : (0 : ℤ) ≤ 10).trans (ten_le_streamCapacity requested)⟩

def added (size : ℕ) (samples : List ℚ) (x : ℚ) : List ℚ :=
  if samples.length < size then samples ++ [x] else samples.set 0 x

/-- **`Add-StreamSample` leaves the index at zero.** -/
theorem addStreamSample_eq (hs : s.Valid requested) (x : ℚ) :
    addStreamSample s x = some
      ⟨loopScopes requested, added (streamCapacity requested).toNat s.streamSamples x⟩ := by
  have hcap := ten_le_streamCapacity requested
  rw [addStreamSample, hs.scopes, read_streamCapacity, read_streamIndex, added]
  by_cases hlt : (s.streamSamples.length : ℤ) < streamCapacity requested
  · rw [if_pos (by omega), Option.bind_eq_bind, Option.bind_some, if_pos hlt]
    rfl
  · have hplace : placeOf s.streamSamples.length 0 = some 0 := by
      rw [placeOf, if_pos le_rfl, if_pos (by omega)]
      rfl
    rw [if_neg (by omega), Option.bind_eq_bind, Option.bind_some, if_neg hlt]
    simp only [Option.bind_eq_bind, Option.bind_some, hplace]
    rfl

variable {all : List ℚ} {size : ℕ}

theorem length_added {samples : List ℚ} (h : samples.length ≤ size) (x : ℚ) :
    (added size samples x).length ≤ size := by
  rw [added]
  split
  · next hlt =>
    rw [List.length_append]
    exact hlt
  · rw [List.length_set]
    exact h

theorem valid_added (hs : s.Valid requested) (x : ℚ) :
    Stream.Valid requested
      ⟨loopScopes requested, added (streamCapacity requested).toNat s.streamSamples x⟩ := by
  have hcap := ten_le_streamCapacity requested
  have hfits : s.streamSamples.length ≤ (streamCapacity requested).toNat := by
    have hlen := hs.length
    omega
  have hlen := length_added hfits x
  exact ⟨rfl, by dsimp only; omega⟩

theorem foldlM_addStreamSample (hs : s.Valid requested) (xs : List ℚ) :
    xs.foldlM addStreamSample s = some ⟨loopScopes requested,
      xs.foldl (added (streamCapacity requested).toNat) s.streamSamples⟩ ∧
    Stream.Valid requested ⟨loopScopes requested,
      xs.foldl (added (streamCapacity requested).toNat) s.streamSamples⟩ := by
  induction xs generalizing s with
  | nil =>
    obtain ⟨scopes, samples⟩ := s
    obtain rfl : scopes = loopScopes requested := hs.scopes
    exact ⟨rfl, hs⟩
  | cons x xs ih =>
    rw [List.foldlM_cons, addStreamSample_eq hs, List.foldl_cons]
    exact ih (valid_added hs x)

/-- What stays of the samples: all of them, or those that filled the reservoir with the last
one in the place of the first. -/
def kept (size : ℕ) (xs : List ℚ) : List ℚ :=
  if xs.length ≤ size then xs else (xs.take size).set 0 (xs.getLastD 0)

theorem foldl_added (xs : List ℚ) : xs.foldl (added size) [] = kept size xs := by
  induction xs using List.reverseRecOn with
  | nil => exact (if_pos (Nat.zero_le size)).symm
  | append_singleton xs x ih =>
    rw [List.foldl_append, ih, List.foldl_cons, List.foldl_nil, kept, kept, List.length_append,
      List.length_singleton]
    rcases Nat.lt_trichotomy xs.length size with hlt | heq | hgt
    · rw [if_pos hlt.le, if_pos (by omega), added, if_pos hlt]
    · rw [if_pos heq.le, if_neg (by omega), added, if_neg (by omega),
        List.take_append_of_le_length heq.ge, List.take_of_length_le heq.le,
        List.getLastD_concat]
    · have hlen : ((xs.take size).set 0 (xs.getLastD 0)).length = size := by
        rw [List.length_set, List.length_take]
        omega
      rw [if_neg (by omega), if_neg (by omega), added, if_neg (by omega), List.set_set,
        List.take_append_of_le_length hgt.le, List.getLastD_concat]

/-- **What the feed keeps.** -/
theorem feed_eq (requested : ℤ) (xs : List ℚ) : feed requested xs =
    some ⟨loopScopes requested, kept (streamCapacity requested).toNat xs⟩ := by
  rw [feed, (foldlM_addStreamSample valid_startStream xs).1]
  exact congrArg (fun samples => some (Stream.mk _ samples)) (foldl_added xs)

theorem kept_perm_window_iff (hsize : 0 < size) (xs : List ℚ) :
    (kept size xs).Perm (window size xs) ↔ WindowStays size xs := by
  rw [kept, WindowStays, window]
  by_cases hle : xs.length ≤ size
  · rw [if_pos hle, Nat.sub_eq_zero_of_le hle, List.drop_zero]
    exact iff_of_true (List.Perm.refl _) (.inl hle)
  · rw [if_neg hle, or_iff_right hle]
    have hne : xs.drop (xs.length - size) ≠ [] := by
      rw [Ne, List.drop_eq_nil_iff]
      omega
    have hlast : xs.getLastD 0 = (xs.drop (xs.length - size)).getLast hne := by
      rw [List.getLast_drop, List.getLastD_eq_getLast?, List.getLast?_eq_getLast_of_ne_nil]
      rfl
    obtain ⟨x, rest, htake⟩ : ∃ x rest, xs.take size = x :: rest := by
      refine List.exists_cons_of_ne_nil fun hnil => ?_
      rcases List.take_eq_nil_iff.mp hnil with h | h
      · omega
      · exact hle (h ▸ Nat.zero_le _)
    rw [htake, List.set_cons_zero, List.tail_cons, hlast]
    generalize xs.drop (xs.length - size) = ys at hne
    have hsplit : ys.Perm (ys.getLast hne :: ys.dropLast) := by
      conv_lhs => rw [← List.dropLast_append_getLast hne]
      exact List.perm_append_singleton _ _
    exact ⟨fun h => List.perm_cons _ |>.mp (h.trans hsplit),
      fun h => ((List.perm_cons _).mpr h).trans hsplit.symm⟩

/-- **The reservoir is a ring buffer exactly where its old samples are those of the window
anyway.** -/
theorem ringLaw_iff (requested : ℤ) (xs : List ℚ) :
    RingLaw requested xs ↔ WindowStays (streamCapacity requested).toNat xs := by
  have hcap := ten_le_streamCapacity requested
  rw [← kept_perm_window_iff (by omega)]
  constructor
  · rintro ⟨s, hfeed, hperm, -⟩
    rw [feed_eq] at hfeed
    obtain rfl := Option.some.inj hfeed
    exact hperm
  · intro hperm
    have hsort := sortObject_of_perm hperm
    refine ⟨_, feed_eq requested xs, hperm, ?_, fun ps => ?_⟩
    · rw [getStreamPercentiles, getStreamPercentiles, hsort, hperm.length_eq]
    · rw [hsort]

/-- Twelve samples for a reservoir of ten: the eleventh is lost, the second is kept. -/
theorem not_ringLaw_twelve : ¬ RingLaw 10 [1, 2, 3, 4, 5, 6, 7, 8, 9, 10, 11, 12] := by
  rintro ⟨s, hfeed, hperm, -⟩
  rw [feed_eq] at hfeed
  obtain rfl := Option.some.inj hfeed
  have hmem : (11 : ℚ) ∈ kept 10 [1, 2, 3, 4, 5, 6, 7, 8, 9, 10, 11, 12] :=
    hperm.mem_iff.mpr (by decide)
  revert hmem
  decide

/-! ### Reconciliation -/

theorem isTrue_of_pos (hne : all ≠ []) (hpos : ∀ d ∈ all, 0 < d) :
    isTrue all = true := by
  refine Bool.eq_true_of_not_eq_false fun hfalse => ?_
  rcases isTrue_eq_false_iff.mp hfalse with hnil | hzero
  · exact hne hnil
  · have hlt : (0 : ℚ) < 0 := hpos 0 (by rw [hzero]; exact List.mem_singleton_self _)
    exact lt_irrefl _ hlt

theorem isTrue_of_length (h : 1 < all.length) : isTrue all = true := by
  refine Bool.eq_true_of_not_eq_false fun hfalse => ?_
  rcases isTrue_eq_false_iff.mp hfalse with rfl | rfl <;> exact absurd h (by decide)

def places (n take : ℕ) : List ℕ := (List.range take).map fun i => (stride n take i).toNat

theorem pairwise_places {n take : ℕ} (htake : 0 < take) (hle : take ≤ n) :
    (places n take).Pairwise (· < ·) := by
  refine List.pairwise_map.mpr (List.pairwise_lt_range.imp fun {i j} hij => ?_)
  have hlt := stride_strictMono htake hle hij
  have hnonneg : 0 ≤ stride n take i := stride_nonneg
  omega

theorem subsample_mapM {take : ℕ} (htake : 0 < take) (hle : take ≤ all.length) :
    ∃ samples, (List.range take).mapM (fun i => indexed all (sampleIndex all take i)) =
      some samples ∧ Subsample all samples take := by
  have hrange : ∀ i ∈ List.range take, (stride all.length take i).toNat < all.length := by
    intro i hi
    have hlt := stride_lt (n := all.length) (by omega) (List.mem_range.mp hi)
    have hnonneg : 0 ≤ stride all.length take i := stride_nonneg
    omega
  have hread : ∀ i ∈ List.range take, indexed all (sampleIndex all take i) =
      some (all.getD (stride all.length take i).toNat 0) := by
    intro i hi
    have hlt := hrange i hi
    have hnonneg : 0 ≤ stride all.length take i := stride_nonneg
    rw [sampleIndex, if_neg (by omega), indexed, placeOf, if_pos hnonneg, if_pos (by omega),
      Option.bind_some, List.getD_eq_getElem?_getD, List.getElem?_eq_getElem hlt]
    rfl
  refine ⟨_, mapM_eq_some hread, ?_, places all.length take, pairwise_places htake hle,
    ?_, ?_, ?_⟩
  · rw [List.length_map, List.length_range]
  · intro place hplace
    obtain ⟨i, hi, rfl⟩ := List.mem_map.mp hplace
    exact hrange i hi
  · obtain ⟨n, rfl⟩ : ∃ n, take = n + 1 := ⟨take - 1, by omega⟩
    rw [places, List.range_succ_eq_map, List.map_cons, List.head?_cons, stride_zero]
    rfl
  · rw [places, List.map_map, List.map_map]
    refine List.map_congr_left fun i hi => ?_
    rw [Function.comp_apply, Function.comp_apply, List.getD_eq_getElem?_getD,
      List.getElem?_eq_getElem (hrange i hi)]
    rfl

theorem rebuilt_invokeReconciliation (hs : s.Valid requested) (htrue : isTrue all = true) :
    ∃ t, invokeReconciliation all s = some t ∧ Rebuilt requested all t := by
  have hcap := ten_le_streamCapacity requested
  have hlen : all.length ≠ 0 := by
    intro hzero
    rw [List.length_eq_zero_iff.mp hzero] at htrue
    cases htrue
  have hbusy : ¬ (isTrue all = false ∨ all.length = 0) := by
    rw [htrue]
    exact not_or.mpr ⟨Bool.noConfusion, hlen⟩
  rw [invokeReconciliation, if_neg hbusy, hs.scopes]
  dsimp only
  rw [read_streamCapacity, Option.bind_eq_bind, Option.bind_some]
  by_cases hshort : (all.length : ℤ) ≤ streamCapacity requested
  · rw [if_pos hshort]
    exact ⟨_, rfl, ⟨rfl, hshort⟩, fun _ => rfl, fun hlong => absurd hshort (not_le.mpr hlong)⟩
  · have htake : (min (all.length : ℤ) (streamCapacity requested)).toNat =
        (streamCapacity requested).toNat := by omega
    have hpos : 0 < (streamCapacity requested).toNat := by omega
    have hle : (streamCapacity requested).toNat ≤ all.length := by omega
    obtain ⟨samples, hsamples, hsub⟩ := subsample_mapM hpos hle
    rw [if_neg hshort, htake, hsamples]
    refine ⟨_, rfl, ⟨rfl, ?_⟩, fun h => absurd h hshort, fun _ => hsub⟩
    have hsize := hsub.1
    dsimp only
    omega

/-! ### The sampling of a run -/

variable {params : SamplingParams} {state next : Sampling}

/-- What holds of the sampling between the iterations: the functions can be called, and a
reservoir that has samples had them from durations that are on record. -/
structure Sampling.Valid (params : SamplingParams) (state : Sampling) : Prop where
  stream : state.stream.Valid params.streamCapacity
  recorded : state.stream.streamSamples = [] ∨ durAll state ≠ []

theorem valid_startSampling (params : SamplingParams) : (startSampling params).Valid params :=
  ⟨valid_startStream, .inl rfl⟩

/-- What `sampleDuration` can do: nothing about the reservoir, or, for a duration that is not
zero, any feed of it. -/
theorem sampleDuration_spec (hs : state.Valid params) (duration : ℚ) :
    ∃ next, sampleDuration params state duration = some next ∧
      next.durations = state.durations ∧ next.iteration = state.iteration ∧
      next.stream.Valid params.streamCapacity ∧
      (next.stream.streamSamples = state.stream.streamSamples ∨ 0 < duration) := by
  rw [sampleDuration]
  by_cases hpos : 0 < duration
  · rw [if_pos hpos]
    split
    · split
      · obtain ⟨hfold, hvalid⟩ :=
          foldlM_addStreamSample hs.stream (state.hybridExactSamples ++ [duration])
        dsimp only
        rw [hfold]
        exact ⟨_, rfl, rfl, rfl, hvalid, .inr hpos⟩
      · exact ⟨_, rfl, rfl, rfl, hs.stream, .inl rfl⟩
    · split
      · rw [addStreamSample_eq hs.stream]
        exact ⟨_, rfl, rfl, rfl, valid_added hs.stream duration, .inr hpos⟩
      · exact ⟨_, rfl, rfl, rfl, hs.stream, .inl rfl⟩
  · rw [if_neg hpos]
    exact ⟨_, rfl, rfl, rfl, hs.stream, .inl rfl⟩

theorem recordDuration_valid (hs : state.Valid params) (duration : ℚ) :
    ∃ next, recordDuration params state duration = some next ∧ next.Valid params := by
  have hnext : Sampling.Valid params { state with iteration := state.iteration + 1 } :=
    ⟨hs.stream, hs.recorded⟩
  obtain ⟨mid, hmid, hdurations, -, hstream, hsamples⟩ := sampleDuration_spec hnext duration
  have hrecord : recordDuration params state duration =
      some { mid with durations := mid.durations ++ [duration] } := by
    rw [recordDuration, hmid]
    rfl
  refine ⟨_, hrecord, hstream, ?_⟩
  rw [durAll, List.filter_append, hdurations]
  rcases hsamples with hsame | hpos
  · rcases hs.recorded with hnone | hsome
    · exact .inl (hsame.trans hnone)
    · exact .inr (List.append_ne_nil_of_left_ne_nil hsome _)
  · refine .inr (List.append_ne_nil_of_right_ne_nil _ ?_)
    exact List.ne_nil_of_mem
      (List.mem_filter.mpr ⟨List.mem_singleton_self duration, decide_eq_true hpos⟩)

/-- Every reconciliation of a valid state rebuilds the reservoir, also one that finds no
durations: then there are no samples either. -/
theorem reconcile_valid (hs : state.Valid params) :
    ∃ t, invokeReconciliation (durAll state) state.stream = some t ∧
      Rebuilt params.streamCapacity (durAll state) t := by
  have hcap := ten_le_streamCapacity params.streamCapacity
  by_cases hnil : durAll state = []
  · have hempty := hs.recorded.resolve_right (not_not.mpr hnil)
    rw [hnil, invokeReconciliation, if_pos (.inl rfl)]
    refine ⟨_, rfl, hs.stream, fun _ => hempty, fun hlong => ?_⟩
    rw [List.length_nil] at hlong
    omega
  · refine rebuilt_invokeReconciliation hs.stream (isTrue_of_pos hnil fun d hd => ?_)
    exact of_decide_eq_true (List.mem_filter.mp hd).2

theorem sampleIteration_valid (hs : state.Valid params) (duration : ℚ) :
    ∃ next, sampleIteration params state duration = some next ∧ next.Valid params := by
  obtain ⟨mid, hmid, hvalid⟩ := recordDuration_valid hs duration
  rw [sampleIteration, hmid, Option.bind_eq_bind, Option.bind_some]
  split
  · obtain ⟨t, ht, hrebuilt⟩ := reconcile_valid hvalid
    rw [ht]
    refine ⟨_, rfl, hrebuilt.valid, ?_⟩
    by_cases hnil : durAll mid = []
    · refine .inl ((hrebuilt.short ?_).trans hnil)
      have hcap := ten_le_streamCapacity params.streamCapacity
      rw [hnil, List.length_nil]
      omega
    · exact .inr hnil
  · exact ⟨mid, rfl, hvalid⟩

theorem run_valid (hs : state.Valid params) (durations : List ℚ) :
    ∃ next, durations.foldlM (sampleIteration params) state = some next ∧ next.Valid params := by
  induction durations generalizing state with
  | nil => exact ⟨state, rfl, hs⟩
  | cons duration durations ih =>
    obtain ⟨mid, hmid, hvalid⟩ := sampleIteration_valid hs duration
    rw [List.foldlM_cons, hmid]
    exact ih hvalid

/-- **Reconciliation.** From every valid state it rebuilds the reservoir of a list of durations,
a long one whatever is in it; and in every run of the loop it does so at every iteration. -/
theorem reconciliation_law (params : SamplingParams) :
    (∀ (s : Stream) (all : List ℚ), s.Valid params.streamCapacity →
      (streamCapacity params.streamCapacity < all.length ∨
        all ≠ [] ∧ ∀ d ∈ all, 0 < d) →
      ∃ t, invokeReconciliation all s = some t ∧ Rebuilt params.streamCapacity all t) ∧
    ∀ durations : List ℚ, ∃ state,
      durations.foldlM (sampleIteration params) (startSampling params) = some state ∧
      state.stream.Valid params.streamCapacity ∧
      ∀ duration, ∃ next, recordDuration params state duration = some next ∧
        ∃ t, invokeReconciliation (durAll next) next.stream = some t ∧
          Rebuilt params.streamCapacity (durAll next) t := by
  have hcap := ten_le_streamCapacity params.streamCapacity
  constructor
  · rintro s all hs (hlong | ⟨hne, hpos⟩)
    · exact rebuilt_invokeReconciliation hs (isTrue_of_length (by omega))
    · exact rebuilt_invokeReconciliation hs (isTrue_of_pos hne hpos)
  · intro durations
    obtain ⟨state, hrun, hvalid⟩ := run_valid (valid_startSampling params) durations
    refine ⟨state, hrun, hvalid.stream, fun duration => ?_⟩
    obtain ⟨next, hnext, hnextValid⟩ := recordDuration_valid hvalid duration
    exact ⟨next, hnext, reconcile_valid hnextValid⟩

/-- Twelve durations into a reservoir of ten. -/
theorem reconciliation_law_twelve :
    ∃ t, invokeReconciliation [1, 2, 3, 4, 5, 6, 7, 8, 9, 10, 11, 12] (startStream 10) = some t ∧
      Rebuilt 10 [1, 2, 3, 4, 5, 6, 7, 8, 9, 10, 11, 12] t :=
  (reconciliation_law ⟨.streamingReservoir, 0, 10, 12⟩).1 _ _ valid_startStream
    (.inl (by decide))

end Feed

end CompareVI.CompareLoop
