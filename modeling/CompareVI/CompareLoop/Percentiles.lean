import CompareVI.Framework.Loop
import CompareVI.Framework.Samples
import CompareVI.Framework.Tally

/-!
# The percentiles and the histogram of the compare loop

`New-PercentileObject`, `Get-StreamPercentiles` and the metrics snapshot each carry a copy of
the same interpolation between two sorted samples, and the snapshot and the result each a copy
of the histogram. Durations and percentiles are rational numbers here.

An unrounded percentile is the reading of the sorted samples at its rank
(`percentileValue_eq`), which is where its bounds and its monotonicity come from. The counter
of a bin of the histogram is the number of samples that the bin was bumped for
(`histogram_eq`).
-/

open Framework

namespace CompareVI.CompareLoop

/-! ### PowerShell -/

/-- The place of index `i` in an array of `n`: a negative index counts from the end, and one
that is outside throws. -/
def placeOf (n : ℕ) (i : ℤ) : Option ℕ :=
  if 0 ≤ i then (if i < n then some i.toNat else none)
  else if -i ≤ n then some (n + i).toNat
  else none

/-- `$a[$i]`. -/
def indexed (a : List ℚ) (i : ℤ) : Option ℚ := (placeOf a.length i).bind fun place => a[place]?

def isTrue : List ℚ → Bool
  | [] => false
  | [x] => x ≠ 0
  | _ => true

/-- `Sort-Object` over numbers. -/
def sortObject (a : List ℚ) : List ℚ := a.mergeSort fun x y => x ≤ y

def roundHalfEven (q : ℚ) : ℤ :=
  if q - ⌊q⌋ < 1 / 2 then ⌊q⌋
  else if 1 / 2 < q - ⌊q⌋ then ⌊q⌋ + 1
  else if ⌊q⌋ % 2 = 0 then ⌊q⌋
  else ⌊q⌋ + 1

/-- `[math]::Round(q, 3)`. -/
def mathRound3 (q : ℚ) : ℚ := roundHalfEven (q * 1000) / 1000

/-- `Measure-Object -Minimum`. -/
def measureMinimum (a : List ℚ) : ℚ := a.min?.getD 0

/-- `Measure-Object -Maximum`. -/
def measureMaximum (a : List ℚ) : ℚ := a.max?.getD 0

/-! ### Percentiles -/

def rank (a : List ℚ) (p : ℚ) : ℚ := p / 100 * (a.length - 1)

def percentileValue (a : List ℚ) (p : ℚ) : Option ℚ :=
  if a.length = 0 then some 0
  else
    let lo := ⌊rank a p⌋
    let hi := ⌈rank a p⌉
    if lo = hi then indexed a lo
    else do
      let w := rank a p - lo
      let lower ← indexed a lo
      let upper ← indexed a hi
      return lower * (1 - w) + upper * w

def pctDyn (arr : List ℚ) (p : ℚ) : Option ℚ := (percentileValue arr p).map mathRound3

def pct (a : List ℚ) (p : ℚ) : Option ℚ := (percentileValue a p).map mathRound3

def pctSnap (a : List ℚ) (p : ℚ) : Option ℚ := (percentileValue a p).map mathRound3

def decimals (thousandths : ℕ) : List Char :=
  let digits := [thousandths / 100 % 10, thousandths / 10 % 10, thousandths % 10]
  ((digits.map Nat.digitChar).reverse.dropWhile (· = '0')).reverse

/-- `'p{0}' -f ($p.ToString('0.###') -replace '\.','_')`. -/
def percentileLabel (p : ℚ) : String :=
  let thousandths := ⌊|p| * 1000 + 1 / 2⌋.toNat
  let sign := if p < 0 ∧ thousandths ≠ 0 then "-" else ""
  let point := if decimals thousandths = [] then "" else "_"
  "p" ++ sign ++ toString (thousandths / 1000) ++ point ++ String.ofList (decimals thousandths)

abbrev Percentiles := List (String × ℚ)

/-- The body of the loop over the requested percentiles: the first of two that are labelled
alike stays. -/
def addPercentile (sortedSamples : List ℚ) (o : Percentiles) (p : ℚ) : Option Percentiles :=
  if percentileLabel p ∈ o.map Prod.fst then some o
  else (pctDyn sortedSamples p).map fun value => o ++ [(percentileLabel p, value)]

/-- `$Requested`, or what stands for it. -/
def requestedOrDefault (requested : List ℚ) : List ℚ :=
  if isTrue requested then requested else [50, 90, 99]

/-- `New-PercentileObject`. The outer `none` is an exception, the inner one `$null`. -/
def newPercentileObject (sortedSamples requested : List ℚ) : Option (Option Percentiles) :=
  if isTrue sortedSamples then
    ((requestedOrDefault requested).foldlM (addPercentile sortedSamples) []).map some
  else some none

/-- The percentiles `p50`, `p90` and `p99` by one copy of the interpolation. -/
def fixedPercentiles (copy : List ℚ → ℚ → Option ℚ) (a : List ℚ) : Option Percentiles := do
  let p50 ← copy a 50
  let p90 ← copy a 90
  let p99 ← copy a 99
  return [("p50", p50), ("p90", p90), ("p99", p99)]

def getStreamPercentiles (streamSamples : List ℚ) : Option Percentiles :=
  if streamSamples.length = 0 then some [("p50", 0), ("p90", 0), ("p99", 0)]
  else fixedPercentiles pct (sortObject streamSamples)

def snapshotPercentiles (sortedIter : List ℚ) : Option Percentiles :=
  fixedPercentiles pctSnap sortedIter

/-! ### Histogram -/

structure Bin where
  index : ℕ
  start : ℚ
  /-- `End` in the source. -/
  stop : ℚ
  count : ℕ
deriving DecidableEq, Repr

/-- `$min`. -/
def histogramMin (samples : List ℚ) : ℚ := ⌊measureMinimum samples⌋

/-- `$max`. -/
def histogramMax (samples : List ℚ) : ℚ :=
  if (⌈measureMaximum samples⌉ : ℚ) ≤ histogramMin samples then histogramMin samples + 1
  else ⌈measureMaximum samples⌉

/-- `$bins`. -/
def histogramBins (bins : ℤ) : ℕ := (max 1 bins).toNat

/-- `$width`. -/
def histogramWidth (samples : List ℚ) (bins : ℤ) : ℚ :=
  let width := (histogramMax samples - histogramMin samples) / histogramBins bins
  if width ≤ 0 then 1 else width

/-- Where bin `i` begins, before it is rounded. -/
def binStart (samples : List ℚ) (bins : ℤ) (i : ℕ) : ℚ :=
  histogramMin samples + i * histogramWidth samples bins

/-- `$ranges` before the samples are counted. -/
def emptyRanges (samples : List ℚ) (bins : ℤ) : List Bin :=
  (List.range (histogramBins bins)).map fun i =>
    { index := i
      start := mathRound3 (binStart samples bins i)
      stop := mathRound3 (binStart samples bins (i + 1))
      count := 0 }

def Bin.bump (bin : Bin) : Bin := { bin with count := bin.count + 1 }

/-- `$idx` of a sample. -/
def binIndex (samples : List ℚ) (bins : ℤ) (v : ℚ) : ℤ :=
  binOf (histogramBins bins) (histogramMin samples) (histogramWidth samples bins) v

def countSample (samples : List ℚ) (bins : ℤ) (ranges : List Bin) (v : ℚ) : Option (List Bin) :=
  (placeOf ranges.length (binIndex samples bins v)).map fun place => ranges.modify place Bin.bump

/-- A histogram. With a single bin `$ranges` is no array but the bin, of which `[0]` is the bin
as well. -/
def histogram (samples : List ℚ) (bins : ℤ) : Option (List Bin) :=
  samples.foldlM (countSample samples bins) (emptyRanges samples bins)

def snapshotHistogram (sortedIter : List ℚ) (bins : ℤ) : Option (Option (List Bin)) :=
  if 0 < sortedIter.length ∧ 0 < bins then (histogram sortedIter bins).map some else some none

def resultHistogram (durSamples : List ℚ) (bins : ℤ) : Option (Option (List Bin)) :=
  if 0 < durSamples.length ∧ 0 < bins then (histogram durSamples bins).map some else some none

/-! ### The laws -/

/-- One copy of the interpolation over the samples: it reads inside the sorted samples, what it
rounds is between the least and the greatest sample, the sample itself at a whole rank, and
does not fall as the percentile grows. -/
structure PercentileLaw (samples : List ℚ) (copy : List ℚ → ℚ → Option ℚ) : Prop where
  inside : ∀ p, 0 < p → p < 100 →
    0 ≤ ⌊rank (sortObject samples) p⌋ ∧ ⌈rank (sortObject samples) p⌉ < samples.length
  rounded : ∀ p, 0 < p → p < 100 → ∃ value, percentileValue (sortObject samples) p = some value ∧
    copy (sortObject samples) p = some (mathRound3 value) ∧
    measureMinimum samples ≤ value ∧ value ≤ measureMaximum samples ∧
    ∀ k : ℕ, p * (samples.length - 1) / 100 = k → (sortObject samples)[k]? = some value
  mono : ∀ p q, 0 < p → p ≤ q → q < 100 → ∀ lower upper,
    percentileValue (sortObject samples) p = some lower →
    percentileValue (sortObject samples) q = some upper → lower ≤ upper

/-- The properties of an object are those of the percentiles: one for each label, read at one
of them that is labelled so. -/
structure ReadAt (a percentiles : List ℚ) (o : Percentiles) : Prop where
  labels : (o.map Prod.fst).Nodup
  covered : ∀ p ∈ percentiles, percentileLabel p ∈ o.map Prod.fst
  read : ∀ entry ∈ o, ∃ p ∈ percentiles,
    percentileLabel p = entry.1 ∧ pctDyn a p = some entry.2

/-- The interval of bin `i`, that of the last bin closed on the right. -/
def InBin (samples : List ℚ) (bins : ℤ) (i : ℕ) (v : ℚ) : Prop :=
  binStart samples bins i ≤ v ∧ (v < binStart samples bins (i + 1) ∨
    (i + 1 = bins ∧ v ≤ binStart samples bins (i + 1)))

instance (samples : List ℚ) (bins : ℤ) (i : ℕ) (v : ℚ) : Decidable (InBin samples bins i v) :=
  inferInstanceAs (Decidable (_ ∧ _))

/-- A histogram of the samples: each sample is counted in the one bin whose interval contains
it. -/
structure HistogramLaw (samples : List ℚ) (bins : ℤ) (ranges : List Bin) : Prop where
  length : ranges.length = bins.toNat
  total : (ranges.map Bin.count).sum = samples.length
  shape : ∀ (i : ℕ) (bin : Bin), ranges[i]? = some bin →
    bin.index = i ∧ bin.start = mathRound3 (binStart samples bins i) ∧
    bin.stop = mathRound3 (binStart samples bins (i + 1)) ∧
    bin.count = samples.countP fun v => InBin samples bins i v
  once : ∀ v ∈ samples, ∃! i : ℕ, i < bins.toNat ∧ InBin samples bins i v

/-! ### Percentiles of sorted samples -/

theorem sortObject_perm (a : List ℚ) : (sortObject a).Perm a := List.mergeSort_perm a _

theorem length_sortObject (a : List ℚ) : (sortObject a).length = a.length :=
  (sortObject_perm a).length_eq

theorem pairwise_sortObject (a : List ℚ) : (sortObject a).Pairwise (· ≤ ·) := by
  have htrans : ∀ x y z : ℚ, decide (x ≤ y) → decide (y ≤ z) → decide (x ≤ z) := by
    intro x y z hxy hyz
    exact decide_eq_true ((of_decide_eq_true hxy).trans (of_decide_eq_true hyz))
  have htotal : ∀ x y : ℚ, decide (x ≤ y) || decide (y ≤ x) := by
    intro x y
    simpa using le_total x y
  exact (List.pairwise_mergeSort htrans htotal a).imp fun h => of_decide_eq_true h

theorem sortObject_of_perm {a b : List ℚ} (h : a.Perm b) : sortObject a = sortObject b := by
  have hperm : (sortObject a).Perm (sortObject b) :=
    ((sortObject_perm a).trans h).trans (sortObject_perm b).symm
  exact hperm.eq_of_pairwise' (pairwise_sortObject a) (pairwise_sortObject b)

theorem measureMinimum_spec {a : List ℚ} (ha : a ≠ []) :
    measureMinimum a ∈ a ∧ ∀ x ∈ a, measureMinimum a ≤ x := by
  obtain ⟨m, hm⟩ : ∃ m, a.min? = some m := Option.isSome_iff_exists.mp (by simpa using ha)
  rw [measureMinimum, hm]
  exact List.min?_eq_some_iff.mp hm

theorem measureMaximum_spec {a : List ℚ} (ha : a ≠ []) :
    measureMaximum a ∈ a ∧ ∀ x ∈ a, x ≤ measureMaximum a := by
  obtain ⟨m, hm⟩ : ∃ m, a.max? = some m := Option.isSome_iff_exists.mp (by simpa using ha)
  rw [measureMaximum, hm]
  exact List.max?_eq_some_iff.mp hm

section Sorted

variable {samples : List ℚ} {p q : ℚ}

def sampleAt (samples : List ℚ) (i : ℤ) : ℚ :=
  (sortObject samples).getD (min i.toNat (samples.length - 1)) 0

theorem getElem?_sampleAt (hne : samples ≠ []) (i : ℤ) :
    (sortObject samples)[min i.toNat (samples.length - 1)]? = some (sampleAt samples i) := by
  have hlen := List.length_pos_iff.mpr hne
  have hlt : min i.toNat (samples.length - 1) < (sortObject samples).length := by
    rw [length_sortObject]
    omega
  rw [sampleAt, List.getD_eq_getElem?_getD, List.getElem?_eq_getElem hlt]
  rfl

theorem sampleAt_mem (hne : samples ≠ []) (i : ℤ) : sampleAt samples i ∈ samples :=
  (sortObject_perm samples).mem_iff.mp (List.mem_of_getElem? (getElem?_sampleAt hne i))

theorem sampleAt_mono : Monotone (sampleAt samples) := by
  intro i j hij
  by_cases hne : samples = []
  · subst hne
    have hnil : ∀ k, sampleAt [] k = 0 := fun k => by simp [sampleAt, sortObject]
    rw [hnil, hnil]
  · have hi := getElem?_sampleAt hne i
    have hj := getElem?_sampleAt hne j
    have hle : min i.toNat (samples.length - 1) ≤ min j.toNat (samples.length - 1) := by omega
    rcases hle.eq_or_lt with heq | hlt
    · rw [heq, hj] at hi
      exact (Option.some.inj hi).ge
    · obtain ⟨hi', hi⟩ := List.getElem?_eq_some_iff.mp hi
      obtain ⟨hj', hj⟩ := List.getElem?_eq_some_iff.mp hj
      rw [← hi, ← hj]
      exact List.pairwise_iff_getElem.mp (pairwise_sortObject samples) _ _ hi' hj' hlt

theorem indexed_sortObject {i : ℤ} (hlower : 0 ≤ i) (hupper : i < samples.length) :
    indexed (sortObject samples) i = some (sampleAt samples i) := by
  have hne : samples ≠ [] := List.ne_nil_of_length_pos (by omega)
  have hplace : placeOf (sortObject samples).length i = some i.toNat := by
    rw [placeOf, if_pos hlower, length_sortObject, if_pos hupper]
  have hmin : min i.toNat (samples.length - 1) = i.toNat := by omega
  rw [indexed, hplace, Option.bind_some, ← hmin, getElem?_sampleAt hne]

theorem rank_nonneg (hne : samples ≠ []) (hp : 0 ≤ p) : 0 ≤ rank (sortObject samples) p := by
  have hlen : (1 : ℚ) ≤ samples.length := by exact_mod_cast List.length_pos_iff.mpr hne
  rw [rank, length_sortObject]
  exact mul_nonneg (by positivity) (by linarith)

theorem rank_mono (hne : samples ≠ []) (h : p ≤ q) :
    rank (sortObject samples) p ≤ rank (sortObject samples) q := by
  have hlen : (1 : ℚ) ≤ samples.length := by exact_mod_cast List.length_pos_iff.mpr hne
  rw [rank, rank, length_sortObject]
  exact mul_le_mul_of_nonneg_right (by linarith) (by linarith)

theorem rank_le (hne : samples ≠ []) (hp : p ≤ 100) :
    rank (sortObject samples) p ≤ (samples.length - 1 : ℤ) := by
  refine (rank_mono hne hp).trans (le_of_eq ?_)
  rw [rank, length_sortObject]
  push_cast
  ring

theorem percentileValue_eq (hne : samples ≠ []) (hp : 0 ≤ p) (hp' : p ≤ 100) :
    percentileValue (sortObject samples) p =
      some (interpolate (sampleAt samples) (rank (sortObject samples) p)) := by
  have hlen := List.length_pos_iff.mpr hne
  have hlo : 0 ≤ ⌊rank (sortObject samples) p⌋ := Int.floor_nonneg.mpr (rank_nonneg hne hp)
  have hhi : ⌈rank (sortObject samples) p⌉ ≤ samples.length - 1 :=
    Int.ceil_le.mpr (rank_le hne hp')
  have horder := Int.floor_le_ceil (rank (sortObject samples) p)
  have hlower : indexed (sortObject samples) ⌊rank (sortObject samples) p⌋ = some _ :=
    indexed_sortObject hlo (by omega)
  have hupper : indexed (sortObject samples) ⌈rank (sortObject samples) p⌉ = some _ :=
    indexed_sortObject (hlo.trans horder) (by omega)
  rw [percentileValue, if_neg (by rw [length_sortObject]; omega), interpolate]
  dsimp only
  split
  · next heq =>
    rw [hlower, ← heq]
    congr 1
    ring
  · rw [hlower, hupper]
    rfl

theorem percentileLaw (hne : samples ≠ []) (copy : List ℚ → ℚ → Option ℚ)
    (hcopy : ∀ a p, copy a p = (percentileValue a p).map mathRound3) :
    PercentileLaw samples copy where
  inside p hp hp' := by
    refine ⟨Int.floor_nonneg.mpr (rank_nonneg hne hp.le), ?_⟩
    have hceil := Int.ceil_le.mpr (rank_le hne hp'.le)
    omega
  rounded p hp hp' := by
    have hvalue := percentileValue_eq hne hp.le hp'.le
    refine ⟨_, hvalue, by rw [hcopy, hvalue]; rfl, ?_, ?_, ?_⟩
    · exact ((measureMinimum_spec hne).2 _ (sampleAt_mem hne _)).trans
        (le_interpolate sampleAt_mono)
    · exact (interpolate_le sampleAt_mono (rank_le hne hp'.le)).trans
        ((measureMaximum_spec hne).2 _ (sampleAt_mem hne _))
    · intro k hk
      have hrank : rank (sortObject samples) p = ((k : ℤ) : ℚ) := by
        rw [rank, length_sortObject, Int.cast_natCast, ← hk]
        ring
      have hlast : ((k : ℤ) : ℚ) ≤ ((samples.length - 1 : ℤ) : ℚ) := hrank ▸ rank_le hne hp'.le
      have hle : (k : ℤ) ≤ samples.length - 1 := by exact_mod_cast hlast
      have hmin : min (k : ℤ).toNat (samples.length - 1) = k := by omega
      rw [hrank, interpolate_intCast, ← getElem?_sampleAt hne, hmin]
  mono p q hp hpq hq lower upper hlower hupper := by
    rw [percentileValue_eq hne hp.le (hpq.trans hq.le)] at hlower
    rw [percentileValue_eq hne (hp.le.trans hpq) hq.le] at hupper
    rw [← Option.some.inj hlower, ← Option.some.inj hupper]
    exact interpolate_mono sampleAt_mono (rank_mono hne hpq)

end Sorted

/-! ### The object -/

variable {a percentiles : List ℚ} {o : Percentiles}

theorem isTrue_eq_false_iff : isTrue a = false ↔ a = [] ∨ a = [0] := by
  match a with
  | [] => simp [isTrue]
  | [x] => simp [isTrue]
  | _ :: _ :: _ => simp [isTrue]

theorem isTrue_sortObject (samples : List ℚ) : isTrue (sortObject samples) = isTrue samples := by
  have hlen := length_sortObject samples
  match samples, hlen with
  | [], _ => rw [sortObject, List.mergeSort_nil]
  | [x], _ => rw [sortObject, List.mergeSort_singleton]
  | x :: y :: rest, hlen =>
    match sortObject (x :: y :: rest), hlen with
    | _ :: _ :: _, _ => rfl

theorem addPercentile_readAt {p value : ℚ} (ho : ReadAt a percentiles o)
    (hvalue : pctDyn a p = some value) :
    ∃ next, addPercentile a o p = some next ∧ ReadAt a (percentiles ++ [p]) next := by
  rw [addPercentile]
  have hread : ∀ entry ∈ o, ∃ q ∈ percentiles ++ [p],
      percentileLabel q = entry.1 ∧ pctDyn a q = some entry.2 := by
    intro entry hentry
    obtain ⟨q, hq, heq⟩ := ho.read entry hentry
    exact ⟨q, List.mem_append_left _ hq, heq⟩
  split
  · next hlabel =>
    refine ⟨o, rfl, ho.labels, ?_, hread⟩
    intro q hq
    rcases List.mem_append.mp hq with hq | hq
    · exact ho.covered q hq
    · rw [List.mem_singleton.mp hq]
      exact hlabel
  · next hlabel =>
    rw [hvalue]
    refine ⟨_, rfl, ?_, ?_, ?_⟩
    · rw [List.map_append]
      exact ho.labels.append (List.nodup_singleton _) (List.disjoint_singleton.mpr hlabel)
    · intro q hq
      rw [List.map_append]
      rcases List.mem_append.mp hq with hq | hq
      · exact List.mem_append_left _ (ho.covered q hq)
      · rw [List.mem_singleton.mp hq]
        exact List.mem_append_right _ (List.mem_singleton_self _)
    · intro entry hentry
      rcases List.mem_append.mp hentry with hentry | hentry
      · exact hread entry hentry
      · rw [List.mem_singleton.mp hentry]
        exact ⟨p, List.mem_append_right _ (List.mem_singleton_self p), rfl, hvalue⟩

theorem foldlM_addPercentile {rest : List ℚ} (hrest : ∀ p ∈ rest, (pctDyn a p).isSome)
    (ho : ReadAt a percentiles o) :
    ∃ next, rest.foldlM (addPercentile a) o = some next ∧
      ReadAt a (percentiles ++ rest) next := by
  induction rest generalizing percentiles o with
  | nil => exact ⟨o, rfl, by rwa [List.append_nil]⟩
  | cons p rest ih =>
    obtain ⟨hp, hrest⟩ := List.forall_mem_cons.mp hrest
    obtain ⟨value, hvalue⟩ := Option.isSome_iff_exists.mp hp
    obtain ⟨mid, hmid, hmidRead⟩ := addPercentile_readAt ho hvalue
    obtain ⟨next, hnext, hnextRead⟩ := ih hrest hmidRead
    refine ⟨next, ?_, ?_⟩
    · rw [List.foldlM_cons, hmid]
      exact hnext
    · rwa [List.append_assoc] at hnextRead

/-- No percentile of samples in order throws, so neither does the object; it is `$null` for a
single sample that is zero. -/
theorem newPercentileObject_readAt {samples requested : List ℚ} (hne : samples ≠ [])
    (hrequested : ∀ p ∈ requested, 0 < p ∧ p < 100) :
    (samples = [0] ∧ newPercentileObject (sortObject samples) requested = some none) ∨
    ∃ o, newPercentileObject (sortObject samples) requested = some (some o) ∧
      ReadAt (sortObject samples) (requestedOrDefault requested) o := by
  rw [newPercentileObject, isTrue_sortObject]
  cases htrue : isTrue samples with
  | false => exact .inl ⟨(isTrue_eq_false_iff.mp htrue).resolve_left hne, rfl⟩
  | true =>
    have hrange : ∀ p ∈ requestedOrDefault requested, 0 < p ∧ p < 100 := by
      intro p hp
      rw [requestedOrDefault] at hp
      split at hp
      · exact hrequested p hp
      · rcases (by simpa using hp : p = 50 ∨ p = 90 ∨ p = 99) with rfl | rfl | rfl <;> norm_num
    have hsome : ∀ p ∈ requestedOrDefault requested,
        (pctDyn (sortObject samples) p).isSome := by
      intro p hp
      obtain ⟨hlow, hhigh⟩ := hrange p hp
      rw [pctDyn, percentileValue_eq hne hlow.le hhigh.le]
      rfl
    have hnil : ReadAt (sortObject samples) [] [] :=
      ⟨List.nodup_nil, List.forall_mem_nil _,
        List.forall_mem_nil _⟩
    obtain ⟨o, hfold, ho⟩ := foldlM_addPercentile hsome hnil
    refine .inr ⟨o, ?_, ho⟩
    rw [if_pos rfl, hfold]
    rfl

/-! ### The histogram -/

section Histogram

variable {samples : List ℚ} {bins : ℤ}

theorem histogramBins_pos : 0 < histogramBins bins := by
  rw [histogramBins]
  omega

theorem histogramMin_lt_max : histogramMin samples < histogramMax samples := by
  rw [histogramMax]
  split
  · exact lt_add_one _
  · next h => exact not_le.mp h

theorem histogramWidth_eq : histogramWidth samples bins =
    (histogramMax samples - histogramMin samples) / histogramBins bins := by
  have hbins : (0 : ℚ) < histogramBins bins := by exact_mod_cast histogramBins_pos
  have hwidth : 0 < (histogramMax samples - histogramMin samples) / histogramBins bins :=
    div_pos (sub_pos.mpr histogramMin_lt_max) hbins
  rw [histogramWidth, if_neg (not_le.mpr hwidth)]

theorem histogramWidth_pos : 0 < histogramWidth samples bins := by
  have hbins : (0 : ℚ) < histogramBins bins := by exact_mod_cast histogramBins_pos
  rw [histogramWidth_eq]
  exact div_pos (sub_pos.mpr histogramMin_lt_max) hbins

variable {i : ℕ} {v : ℚ}

theorem histogramMin_le (hv : v ∈ samples) : histogramMin samples ≤ v :=
  (Int.floor_le _).trans ((measureMinimum_spec (List.ne_nil_of_mem hv)).2 v hv)

theorem le_binStart_last (bins : ℤ) (hv : v ∈ samples) :
    v ≤ histogramMin samples + histogramBins bins * histogramWidth samples bins := by
  have hbins : (histogramBins bins : ℚ) ≠ 0 := by exact_mod_cast histogramBins_pos.ne'
  have hmax : v ≤ (⌈measureMaximum samples⌉ : ℚ) :=
    ((measureMaximum_spec (List.ne_nil_of_mem hv)).2 v hv).trans (Int.le_ceil _)
  have hreach : v ≤ histogramMax samples := by
    rw [histogramMax]
    split
    · next h => exact hmax.trans (h.trans (lt_add_one _).le)
    · exact hmax
  rw [histogramWidth_eq, mul_div_cancel₀ _ hbins, add_sub_cancel]
  exact hreach

theorem binIndex_bounds (bins : ℤ) (hv : v ∈ samples) :
    0 ≤ binIndex samples bins v ∧ binIndex samples bins v < histogramBins bins :=
  ⟨binOf_nonneg histogramBins_pos histogramWidth_pos (histogramMin_le hv), binOf_lt⟩

theorem histogramBins_eq (hbins : 1 ≤ bins) : (histogramBins bins : ℤ) = bins := by
  rw [histogramBins]
  omega

theorem binIndex_eq_iff (hbins : 1 ≤ bins) (hv : v ∈ samples) (hi : i < histogramBins bins) :
    binIndex samples bins v = i ↔ InBin samples bins i v := by
  have hcast : ((i + 1 : ℕ) : ℚ) = (i : ℚ) + 1 := by push_cast; rfl
  rw [binIndex, binOf_eq_iff histogramWidth_pos (le_binStart_last bins hv) hi, InBin, binStart,
    binStart, hcast]
  refine and_congr_right fun _ => or_congr_right ?_
  have hlast : i + 1 = histogramBins bins ↔ (i : ℤ) + 1 = bins := by
    have h := histogramBins_eq hbins
    omega
  rw [hlast]
  refine ⟨fun h => ⟨h, ?_⟩, And.left⟩
  have hreach := le_binStart_last bins hv
  rw [← hlast.mpr h] at hreach
  rwa [hcast] at hreach

theorem bump_iterate (bin : Bin) (n : ℕ) :
    Bin.bump^[n] bin = { bin with count := bin.count + n } := by
  induction n with
  | zero => rfl
  | succ n ih =>
    rw [Function.iterate_succ_apply', ih, Bin.bump, Nat.add_assoc]

def countedRanges (samples : List ℚ) (bins : ℤ) : List Bin :=
  (emptyRanges samples bins).map fun bin =>
    { bin with count := samples.countP fun v => binIndex samples bins v = bin.index }

theorem getElem?_emptyRanges {bin : Bin} (h : (emptyRanges samples bins)[i]? = some bin) :
    i < histogramBins bins ∧ bin = ⟨i, mathRound3 (binStart samples bins i),
      mathRound3 (binStart samples bins (i + 1)), 0⟩ := by
  rw [emptyRanges, List.getElem?_map, Option.map_eq_some_iff] at h
  obtain ⟨j, hj, rfl⟩ := h
  obtain ⟨hi, hij⟩ := List.getElem?_eq_some_iff.mp hj
  rw [List.getElem_range] at hij
  rw [List.length_range] at hi
  subst hij
  exact ⟨hi, rfl⟩

/-- **What the loop over the samples counts.** -/
theorem histogram_eq : histogram samples bins = some (countedRanges samples bins) := by
  have hlen : (emptyRanges samples bins).length = histogramBins bins := by
    rw [emptyRanges, List.length_map, List.length_range]
  have hstep : ∀ v ∈ samples, ∀ ranges : List Bin, ranges.length = histogramBins bins →
      countSample samples bins ranges v =
          some (ranges.modify (binIndex samples bins v).toNat Bin.bump) ∧
        (ranges.modify (binIndex samples bins v).toNat Bin.bump).length =
          histogramBins bins := by
    intro v hv ranges hranges
    obtain ⟨hlow, hhigh⟩ := binIndex_bounds bins hv
    rw [countSample, hranges, placeOf, if_pos hlow, if_pos hhigh, List.length_modify]
    exact ⟨rfl, hranges⟩
  rw [histogram, (foldlM_eq_some hstep hlen).1]
  congr 1
  refine List.ext_getElem? fun i => ?_
  rw [foldl_modify_getElem?, countedRanges, List.getElem?_map]
  cases hbin : (emptyRanges samples bins)[i]? with
  | none => rfl
  | some bin =>
    obtain ⟨-, rfl⟩ := getElem?_emptyRanges hbin
    have hcount : (samples.countP fun v => (binIndex samples bins v).toNat = i) =
        samples.countP fun v => binIndex samples bins v = i := by
      refine List.countP_congr fun v hv => ?_
      have hlow := (binIndex_bounds bins hv).1
      simp only [decide_eq_true_eq]
      omega
    rw [Option.map_some, Option.map_some, bump_iterate, hcount, Nat.zero_add]

theorem histogram_of_perm {other : List ℚ} (h : samples.Perm other) :
    histogram samples bins = histogram other bins := by
  by_cases hne : samples = []
  · subst hne
    rw [h.nil_eq]
  · have hne' : other ≠ [] := fun heq => hne (List.perm_nil.mp (heq ▸ h))
    have hmin : measureMinimum samples = measureMinimum other :=
      le_antisymm
        ((measureMinimum_spec hne).2 _ (h.mem_iff.mpr (measureMinimum_spec hne').1))
        ((measureMinimum_spec hne').2 _ (h.mem_iff.mp (measureMinimum_spec hne).1))
    have hmax : measureMaximum samples = measureMaximum other :=
      le_antisymm
        ((measureMaximum_spec hne').2 _ (h.mem_iff.mp (measureMaximum_spec hne).1))
        ((measureMaximum_spec hne).2 _ (h.mem_iff.mpr (measureMaximum_spec hne').1))
    have hlow : histogramMin samples = histogramMin other := by
      rw [histogramMin, histogramMin, hmin]
    have hhigh : histogramMax samples = histogramMax other := by
      rw [histogramMax, histogramMax, hlow, hmax]
    have hwidth : histogramWidth samples bins = histogramWidth other bins := by
      rw [histogramWidth, histogramWidth, hlow, hhigh]
    have hstart : binStart samples bins = binStart other bins := by
      funext i
      rw [binStart, binStart, hlow, hwidth]
    have hindex : binIndex samples bins = binIndex other bins := by
      funext v
      rw [binIndex, binIndex, hlow, hwidth]
    have hempty : emptyRanges samples bins = emptyRanges other bins := by
      rw [emptyRanges, emptyRanges, hstart]
    rw [histogram_eq, histogram_eq, countedRanges, countedRanges, hempty, hindex]
    congr 2
    funext bin
    rw [h.countP_eq]

theorem sum_countedRanges :
    ((countedRanges samples bins).map Bin.count).sum = samples.length := by
  have hkeys : ∀ v ∈ samples,
      (binIndex samples bins v).toNat ∈ List.range (histogramBins bins) := by
    intro v hv
    obtain ⟨hlow, hhigh⟩ := binIndex_bounds bins hv
    rw [List.mem_range]
    omega
  have hsum := sum_by_key List.nodup_range (fun _ => 1) samples hkeys
  have hcounts : (countedRanges samples bins).map Bin.count =
      (List.range (histogramBins bins)).map fun i =>
        ((samples.filter fun v => decide ((binIndex samples bins v).toNat = i)).map
          fun _ => 1).sum := by
    rw [countedRanges, emptyRanges, List.map_map, List.map_map]
    refine List.map_congr_left fun i _ => ?_
    rw [List.map_const', List.sum_replicate_nat, mul_one, ← List.countP_eq_length_filter]
    refine List.countP_congr fun v hv => ?_
    have hlow := (binIndex_bounds bins hv).1
    simp only [decide_eq_true_eq]
    omega
  rw [hcounts, hsum, List.map_const', List.sum_replicate_nat, mul_one]

theorem countedRanges_law (hbins : 1 ≤ bins) :
    HistogramLaw samples bins (countedRanges samples bins) where
  length := by
    have hcount := histogramBins_eq hbins
    rw [countedRanges, emptyRanges, List.length_map, List.length_map, List.length_range]
    omega
  total := sum_countedRanges
  shape i bin h := by
    rw [countedRanges, List.getElem?_map, Option.map_eq_some_iff] at h
    obtain ⟨empty, hempty, rfl⟩ := h
    obtain ⟨hi, rfl⟩ := getElem?_emptyRanges hempty
    refine ⟨rfl, rfl, rfl, ?_⟩
    refine List.countP_congr fun v hv => ?_
    simp only [decide_eq_true_eq]
    exact binIndex_eq_iff hbins hv hi
  once v hv := by
    obtain ⟨hlow, hhigh⟩ := binIndex_bounds bins hv
    have hindex : binIndex samples bins v = ((binIndex samples bins v).toNat : ℕ) :=
      (Int.toNat_of_nonneg hlow).symm
    have hlt : (binIndex samples bins v).toNat < histogramBins bins := by omega
    have hcount := histogramBins_eq hbins
    refine ⟨_, ⟨by omega, (binIndex_eq_iff hbins hv hlt).mp hindex⟩, ?_⟩
    rintro i ⟨hi, hin⟩
    have heq := (binIndex_eq_iff hbins hv (by omega)).mpr hin
    omega

end Histogram

/-! ### The result -/

/-- **Percentiles and histograms describe the samples.** All three copies of the interpolation
and both copies of the histogram do, and the percentile object throws nothing. -/
theorem samples_described {samples : List ℚ} (hne : samples ≠ []) :
    (∀ copy ∈ [pctDyn, pct, pctSnap], PercentileLaw samples copy) ∧
    (∀ requested : List ℚ, (∀ p ∈ requested, 0 < p ∧ p < 100) →
      (samples = [0] ∧ newPercentileObject (sortObject samples) requested = some none) ∨
      ∃ o, newPercentileObject (sortObject samples) requested = some (some o) ∧
        ReadAt (sortObject samples) (requestedOrDefault requested) o) ∧
    ∀ bins : ℤ, 1 ≤ bins → ∃ ranges, HistogramLaw samples bins ranges ∧
      resultHistogram samples bins = some (some ranges) ∧
      snapshotHistogram (sortObject samples) bins = some (some ranges) := by
  refine ⟨?_, fun requested => newPercentileObject_readAt hne, ?_⟩
  · intro copy hcopy
    refine percentileLaw hne copy fun a p => ?_
    rcases (by simpa using hcopy : copy = pctDyn ∨ copy = pct ∨ copy = pctSnap) with
      rfl | rfl | rfl <;> rfl
  · intro bins hbins
    have hlen := List.length_pos_iff.mpr hne
    have hbins' : 0 < bins := by omega
    refine ⟨_, countedRanges_law hbins, ?_, ?_⟩
    · rw [resultHistogram, if_pos ⟨hlen, hbins'⟩, histogram_eq]
      rfl
    · rw [snapshotHistogram, length_sortObject, if_pos ⟨hlen, hbins'⟩,
        histogram_of_perm (sortObject_perm samples), histogram_eq]
      rfl

/-- Four samples. -/
theorem samples_described_four :
    ([4, 1, 3, 2] : List ℚ) ≠ [] ∧ PercentileLaw [4, 1, 3, 2] pctDyn ∧
      ∃ ranges, HistogramLaw [4, 1, 3, 2] 3 ranges ∧
        resultHistogram [4, 1, 3, 2] 3 = some (some ranges) := by
  have hne : ([4, 1, 3, 2] : List ℚ) ≠ [] := by decide
  obtain ⟨hcopies, -, hhistogram⟩ := samples_described hne
  obtain ⟨ranges, hlaw, hresult, -⟩ := hhistogram 3 (by decide)
  exact ⟨hne, hcopies pctDyn List.mem_cons_self, ranges, hlaw, hresult⟩

end CompareVI.CompareLoop
