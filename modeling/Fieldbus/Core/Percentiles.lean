import Mathlib.Algebra.BigOperators.Group.List.Basic
import Mathlib.Algebra.Order.Floor.Div
import Mathlib.GroupTheory.GroupAction.Ring
import Fieldbus.Library.OrderStatistic
import Fieldbus.Core.Telemetry

/-!
# What the percentiles report

A histogram of recorded samples is determined by the samples without their order (`Summary`). The
scan that reports a percentile stops at the bucket of the nearest-rank sample
(`scan_buckets_eq`), so the figure is that bucket's upper edge: above the sample by at most one
bucket width, or the floor of the overflow bucket, below every sample in it.
-/

namespace Fieldbus.JitterStats

open OrderStatistic

/-- The microseconds of the samples. -/
def values (samples : List UInt64) : List Nat :=
  samples.map UInt64.toNat

/-- The number of the bucket of a value. -/
def bucketOf (value : Nat) : Nat :=
  min (value / 10) numBuckets

theorem bucket_of_mono : Monotone bucketOf :=
  fun _ _ h => min_le_min_right _ (Nat.div_le_div_right h)

theorem bucket_eq (sample : UInt64) : (bucket sample : Nat) = bucketOf sample.toNat := by
  unfold bucket bucketOf
  have hindex : (sample / bucketWidthUs).toNat = sample.toNat / 10 := by
    rw [UInt64.toNat_div]
    rfl
  simp only [hindex]
  split
  · rename_i h
    exact (min_eq_left h.le).symm
  · rename_i h
    exact (min_eq_right (not_lt.mp h)).symm

/-! ## The histogram of a list of samples -/

/-- Histogram and scalars are those of the samples, whatever their order. -/
structure Summary (samples : List UInt64) (s : JitterStats) : Prop where
  buckets : ∀ i, s.buckets.get i =
    UInt32.ofNat ((values samples).countP fun value => bucketOf value = i)
  count : s.count = UInt64.ofNat samples.length
  sum : s.sumUs.toNat = min (values samples).sum (2 ^ 64 - 1)
  min : s.minUs.toNat = (values samples).foldl min (2 ^ 64 - 1)
  max : s.maxUs.toNat = (values samples).foldl max 0
  missed : s.missedDeadlines = 0

theorem Summary.new : Summary [] new := by
  refine ⟨fun i => ?_, rfl, rfl, rfl, rfl, rfl⟩
  show (Vector.replicate (numBuckets + 1) (0 : UInt32))[(i : Nat)] = _
  simp [values]

theorem saturating_add_to_nat (a b : UInt64) :
    (saturatingAdd a b).toNat = Min.min (a.toNat + b.toNat) (2 ^ 64 - 1) := by
  unfold saturatingAdd
  split
  · rename_i h
    rw [UInt64.toNat_add, Nat.mod_eq_of_lt h]
    omega
  · rename_i h
    show 2 ^ 64 - 1 = _
    omega

/-- Recording a sample extends the summary by it. -/
theorem Summary.record {samples : List UInt64} {s : JitterStats} (h : Summary samples s)
    (sample : UInt64) : Summary (samples ++ [sample]) (s.record sample) := by
  have hvalues : values (samples ++ [sample]) = values samples ++ [sample.toNat] := by
    simp [values]
  refine ⟨fun i => ?_, ?_, ?_, ?_, ?_, h.missed⟩
  · rw [record_buckets, h.buckets, hvalues, List.countP_append, List.countP_singleton,
      UInt32.ofNat_add, ← bucket_eq]
    by_cases hbucket : bucket sample = i
    · simp [hbucket]
    · have hne : (bucket sample : Nat) ≠ i := fun heq => hbucket (Fin.ext heq)
      simp [hbucket, hne]
  · show s.count + 1 = _
    rw [h.count, List.length_append, UInt64.ofNat_add]
    rfl
  · show (saturatingAdd s.sumUs sample).toNat = _
    rw [saturating_add_to_nat, h.sum, hvalues, List.sum_append, List.sum_singleton]
    omega
  · show (if sample < s.minUs then sample else s.minUs).toNat = _
    rw [hvalues, List.foldl_append, ← h.min]
    show _ = Min.min s.minUs.toNat sample.toNat
    split
    · rename_i hlt
      rw [UInt64.lt_iff_toNat_lt] at hlt
      omega
    · rename_i hge
      rw [UInt64.lt_iff_toNat_lt] at hge
      omega
  · show (if sample > s.maxUs then sample else s.maxUs).toNat = _
    rw [hvalues, List.foldl_append, ← h.max]
    show _ = Max.max s.maxUs.toNat sample.toNat
    split
    · rename_i hgt
      rw [gt_iff_lt, UInt64.lt_iff_toNat_lt] at hgt
      omega
    · rename_i hle
      rw [gt_iff_lt, UInt64.lt_iff_toNat_lt] at hle
      omega

/-- The statistics of a run summarise its samples. -/
theorem recorded_summary (samples : List UInt64) : Summary samples (recorded samples) := by
  induction samples using List.reverseRecOn with
  | nil => exact Summary.new
  | append_singleton samples sample ih =>
      have hstep : recorded (samples ++ [sample]) = (recorded samples).record sample := by
        simp [recorded]
      rw [hstep]
      exact ih.record sample

/-- Recording the same samples in another order gives the same statistics. -/
theorem recorded_perm {samples other : List UInt64} (h : samples.Perm other) :
    recorded samples = recorded other := by
  have hsamples := recorded_summary samples
  have hother := recorded_summary other
  have hvalues : (values samples).Perm (values other) := h.map _
  have hbuckets : (recorded samples).buckets = (recorded other).buckets := by
    apply Vector.ext
    intro i hi
    have hfirst := hsamples.buckets ⟨i, hi⟩
    have hsecond := hother.buckets ⟨i, hi⟩
    rw [hvalues.countP_eq] at hfirst
    exact hfirst.trans hsecond.symm
  have hcount : (recorded samples).count = (recorded other).count := by
    rw [hsamples.count, hother.count, h.length_eq]
  have hsum : (recorded samples).sumUs = (recorded other).sumUs := by
    rw [← UInt64.toNat_inj, hsamples.sum, hother.sum, hvalues.sum_eq]
  have hmin : (recorded samples).minUs = (recorded other).minUs := by
    rw [← UInt64.toNat_inj, hsamples.min, hother.min, hvalues.foldl_eq]
  have hmax : (recorded samples).maxUs = (recorded other).maxUs := by
    rw [← UInt64.toNat_inj, hsamples.max, hother.max, hvalues.foldl_eq]
  have hmissed : (recorded samples).missedDeadlines = (recorded other).missedDeadlines := by
    rw [hsamples.missed, hother.missed]
  generalize recorded samples = s at hbuckets hcount hsum hmin hmax hmissed ⊢
  generalize recorded other = s' at hbuckets hcount hsum hmin hmax hmissed ⊢
  cases s
  cases s'
  congr

/-! ## The scan -/

section Scan

variable {samples : List UInt64} {s : JitterStats} {rank : UInt64} {x : Nat}

/-- Fewer than `2 ^ 32` samples fit the counters. -/
theorem Summary.bucket_to_nat (h : Summary samples s) (hlength : samples.length < 2 ^ 32)
    (i : Fin (numBuckets + 1)) :
    (s.buckets.get i).toNat = (values samples).countP fun value => bucketOf value = i := by
  have hle := List.countP_le_length (l := values samples)
    (p := fun value => decide (bucketOf value = i))
  rw [values, List.length_map, ← values] at hle
  rw [h.buckets, UInt32.toNat_ofNat', Nat.mod_eq_of_lt (by omega)]

/-- From a bucket not past that of the nearest-rank sample, the scan stops at the latter. -/
theorem scan_buckets_eq (h : Summary samples s) (hlength : samples.length < 2 ^ 32)
    (hpos : 0 < rank.toNat) (hx : nearestRank (values samples) rank.toNat = some x) (i : Nat)
    (cumulative : UInt64)
    (hcumulative : cumulative.toNat = (values samples).countP fun value => bucketOf value < i)
    (hbelow : cumulative.toNat < rank.toNat) :
    scanBuckets rank (s.buckets.toList.drop i) i cumulative = upperEdge (bucketOf x) := by
  induction hremaining : numBuckets + 1 - i generalizing i cumulative with
  | zero =>
      -- past the last bucket every sample has been counted
      have hdown : ∀ y z, y ≤ z → decide (bucketOf z < i) = true →
          decide (bucketOf y < i) = true := by
        intro y z hyz hz
        simp only [decide_eq_true_eq] at hz ⊢
        exact lt_of_le_of_lt (bucket_of_mono hyz) hz
      have hlast : bucketOf x < i := lt_of_le_of_lt (min_le_right _ _) (by omega)
      have hreached := (nearest_rank_iff hpos hx hdown).mp (by simpa using hlast)
      omega
  | succ remaining ih =>
      have hi : i < numBuckets + 1 := by omega
      have hbucket : s.buckets[i].toNat =
          (values samples).countP fun value => bucketOf value = i :=
        h.bucket_to_nat hlength ⟨i, hi⟩
      have hnext : (values samples).countP (fun value => bucketOf value < i + 1) =
          (values samples).countP (fun value => bucketOf value < i) +
            (values samples).countP fun value => bucketOf value = i := count_below_succ bucketOf i
      have hle := List.countP_le_length (p := fun value => decide (bucketOf value < i + 1))
        (l := values samples)
      rw [values, List.length_map, ← values] at hle
      have hsum : (cumulative + s.buckets[i].toUInt64).toNat =
          (values samples).countP fun value => bucketOf value < i + 1 := by
        rw [UInt64.toNat_add, UInt32.toNat_toUInt64, hbucket, hcumulative, ← hnext,
          Nat.mod_eq_of_lt (by omega)]
      have hdrop : s.buckets.toList.drop i = s.buckets[i] :: s.buckets.toList.drop (i + 1) := by
        rw [List.drop_eq_getElem_cons (by simpa using hi)]
        simp
      rw [hdrop, scanBuckets]
      have hclass := class_eq_iff bucket_of_mono hpos hx i
      by_cases hreached : cumulative + s.buckets[i].toUInt64 ≥ rank
      · rw [if_pos hreached]
        rw [ge_iff_le, UInt64.le_iff_toNat_le, hsum] at hreached
        rw [hclass.mpr ⟨by omega, hreached⟩]
      · rw [if_neg hreached]
        rw [ge_iff_le, UInt64.le_iff_toNat_le, not_le, hsum] at hreached
        exact ih (i + 1) _ hsum (by omega) (by omega)

end Scan

/-! ## Percentiles -/

/-- The rank is the ceiling of the scaled count. -/
theorem rank_permille_to_nat {count : UInt64} {permille : UInt32} (hcount : count.toNat < 2 ^ 32)
    (hpos : 0 < count.toNat) (hpermille : 0 < permille.toNat) :
    (rankPermille count permille).toNat = (count.toNat * permille.toNat) ⌈/⌉ 1000 := by
  have hbound : count.toNat * permille.toNat < 2 ^ 32 * 2 ^ 32 :=
    Nat.mul_lt_mul'' hcount permille.toNat_lt
  have hscaled : (count * permille.toUInt64).toNat = count.toNat * permille.toNat := by
    rw [UInt64.toNat_mul, UInt32.toNat_toUInt64, Nat.mod_eq_of_lt (by omega)]
  have hscaledPos : 0 < count.toNat * permille.toNat := Nat.mul_pos hpos hpermille
  have hquotient : (count * permille.toUInt64 / 1000).toNat =
      count.toNat * permille.toNat / 1000 := by
    rw [UInt64.toNat_div, hscaled]
    rfl
  have hremainder : (count * permille.toUInt64 % 1000).toNat =
      count.toNat * permille.toNat % 1000 := by
    rw [UInt64.toNat_mod, hscaled]
    rfl
  rw [Nat.ceilDiv_eq_add_pred_div]
  unfold rankPermille
  simp only
  by_cases hexact : count * permille.toUInt64 % 1000 = 0
  · rw [if_neg (not_not.mpr hexact)]
    rw [← UInt64.toNat_inj, hremainder, UInt64.toNat_zero] at hexact
    have hne : ¬ count * permille.toUInt64 / 1000 = 0 := by
      rw [← UInt64.toNat_inj, hquotient, UInt64.toNat_zero]
      omega
    rw [if_neg hne, hquotient]
    omega
  · have hnext : (count * permille.toUInt64 / 1000 + 1).toNat =
        count.toNat * permille.toNat / 1000 + 1 := by
      rw [UInt64.toNat_add, hquotient, UInt64.toNat_one, Nat.mod_eq_of_lt (by omega)]
    rw [if_pos hexact]
    rw [← UInt64.toNat_inj, hremainder, UInt64.toNat_zero] at hexact
    have hne : ¬ count * permille.toUInt64 / 1000 + 1 = 0 := by
      rw [← UInt64.toNat_inj, hnext, UInt64.toNat_zero]
      omega
    rw [if_neg hne, hnext]
    omega

/-- A percentile of recorded samples is the edge of the bucket of the nearest-rank sample. -/
theorem percentile_eq {samples : List UInt64} (hne : samples ≠ [])
    (hlength : samples.length < 2 ^ 32) {permille : UInt32} (hpos : 0 < permille.toNat)
    (hle : permille.toNat ≤ 1000) :
    ∃ x, nearestRank (values samples) ((samples.length * permille.toNat) ⌈/⌉ 1000) = some x ∧
      (recorded samples).percentilePermille permille = upperEdge (bucketOf x) := by
  have hsummary := recorded_summary samples
  have hcount : (recorded samples).count.toNat = samples.length := by
    rw [hsummary.count, UInt64.toNat_ofNat', Nat.mod_eq_of_lt (by omega)]
  have hlengthPos := List.length_pos_iff.mpr hne
  have hsmall : (recorded samples).count.toNat < 2 ^ 32 := by omega
  have hrank := rank_permille_to_nat hsmall (by omega) hpos
  rw [hcount] at hrank
  have hproduct : 0 < samples.length * permille.toNat := Nat.mul_pos hlengthPos hpos
  have hrankPos : 0 < (samples.length * permille.toNat) ⌈/⌉ 1000 := by
    rw [Nat.ceilDiv_eq_add_pred_div]
    omega
  have hrankLe : (samples.length * permille.toNat) ⌈/⌉ 1000 ≤ (values samples).length := by
    have hscale : samples.length * permille.toNat ≤ samples.length * 1000 :=
      Nat.mul_le_mul_left _ hle
    rw [Nat.ceilDiv_eq_add_pred_div, values, List.length_map]
    omega
  obtain ⟨x, hx⟩ := nearest_rank_exists hrankPos hrankLe
  refine ⟨x, hx, ?_⟩
  rw [← hrank] at hx hrankPos
  have hnonzero : ¬ (recorded samples).count = 0 := by
    rw [← UInt64.toNat_inj, hcount, UInt64.toNat_zero]
    omega
  have hscan := scan_buckets_eq hsummary hlength hrankPos hx 0 0 (by simp) (by simpa using hrankPos)
  rw [percentilePermille, if_neg hnonzero]
  exact hscan

/-- The edge of a bucket lies above its values, by at most one width. -/
theorem upper_edge_below {x : Nat} (h : x < overflowFloorUs.toNat) :
    (upperEdge (bucketOf x)).toNat = (x / 10 + 1) * 10 := by
  have hfloor : overflowFloorUs.toNat = 40000 := by decide
  have hbuckets : numBuckets = 4000 := rfl
  have hbucket : bucketOf x = x / 10 := min_eq_left (by omega)
  rw [hbucket, upperEdge, if_neg (by omega), UInt64.toNat_mul, UInt64.toNat_add,
    UInt64.toNat_ofNat', Nat.mod_eq_of_lt (show x / 10 < 2 ^ 64 by omega)]
  show (x / 10 + 1) % 2 ^ 64 * 10 % 2 ^ 64 = _
  omega

/-- Behind the last edge the report is the floor of the overflow bucket. -/
theorem upper_edge_overflow {x : Nat} (h : overflowFloorUs.toNat ≤ x) :
    upperEdge (bucketOf x) = overflowFloorUs := by
  have hfloor : overflowFloorUs.toNat = 40000 := by decide
  have hbuckets : numBuckets = 4000 := rfl
  have hbucket : bucketOf x = numBuckets := min_eq_right (by omega)
  rw [hbucket, upperEdge, if_pos (le_refl _)]

/-- Larger values have no lower edge. -/
theorem upper_edge_mono {x y : Nat} (h : x ≤ y) :
    (upperEdge (bucketOf x)).toNat ≤ (upperEdge (bucketOf y)).toNat := by
  rcases Nat.lt_or_ge y overflowFloorUs.toNat with hy | hy
  · rw [upper_edge_below hy, upper_edge_below (by omega)]
    omega
  · rw [upper_edge_overflow hy]
    rcases Nat.lt_or_ge x overflowFloorUs.toNat with hx | hx
    · rw [upper_edge_below hx]
      have hfloor : overflowFloorUs.toNat = 40000 := by decide
      omega
    · rw [upper_edge_overflow hx]

/-- The overflow bucket holds the samples at or above its floor. -/
theorem overflowed_iff {samples : List UInt64} (hlength : samples.length < 2 ^ 32) :
    (recorded samples).overflowed = true ↔ ∃ sample ∈ samples, overflowFloorUs ≤ sample := by
  have hlast : (recorded samples).buckets[numBuckets].toNat =
      (values samples).countP fun value => bucketOf value = numBuckets :=
    (recorded_summary samples).bucket_to_nat hlength ⟨numBuckets, by omega⟩
  have hfloor : overflowFloorUs.toNat = 40000 := by decide
  have hbuckets : numBuckets = 4000 := rfl
  unfold overflowed
  rw [decide_eq_true_eq, gt_iff_lt, UInt32.lt_iff_toNat_lt, hlast, UInt32.toNat_zero,
    List.countP_pos_iff]
  simp only [values, List.mem_map, exists_exists_and_eq_and, decide_eq_true_eq,
    UInt64.le_iff_toNat_le, hfloor]
  refine exists_congr fun sample => and_congr_right fun _ => ?_
  unfold bucketOf
  omega

/-- The running minimum of the samples is one of them. -/
theorem reported_min_spec {samples : List UInt64} (hne : samples ≠ [])
    (hlength : samples.length < 2 ^ 32) :
    (recorded samples).reportedMinUs ∈ samples ∧
      ∀ sample ∈ samples, (recorded samples).reportedMinUs ≤ sample := by
  have hsummary := recorded_summary samples
  have hlengthPos := List.length_pos_iff.mpr hne
  have hnonzero : ¬ (recorded samples).count = 0 := by
    rw [← UInt64.toNat_inj, hsummary.count, UInt64.toNat_ofNat', UInt64.toNat_zero]
    omega
  rw [reportedMinUs, if_neg hnonzero]
  obtain ⟨hlower, -, hmem⟩ := foldl_min_spec (2 ^ 64 - 1) (values samples)
  rw [← hsummary.min] at hlower hmem
  have hbound : ∀ sample ∈ samples, (recorded samples).minUs ≤ sample := by
    intro sample hsample
    exact UInt64.le_iff_toNat_le.mpr (hlower _ (List.mem_map_of_mem hsample))
  refine ⟨?_, hbound⟩
  rcases hmem with hstart | hmem
  · -- a sample cannot be above the largest value
    obtain ⟨sample, hsample⟩ := List.exists_mem_of_ne_nil samples hne
    have hle := UInt64.le_iff_toNat_le.mp (hbound sample hsample)
    have hlt := sample.toNat_lt
    have heq : (recorded samples).minUs = sample := by
      rw [← UInt64.toNat_inj]
      omega
    rw [heq]
    exact hsample
  · obtain ⟨sample, hsample, heq⟩ := List.mem_map.mp hmem
    rw [← UInt64.toNat_inj.mp heq]
    exact hsample

/-- The running maximum of the samples is one of them. -/
theorem max_spec {samples : List UInt64} (hne : samples ≠ []) :
    (recorded samples).maxUs ∈ samples ∧ ∀ sample ∈ samples, sample ≤ (recorded samples).maxUs := by
  have hsummary := recorded_summary samples
  obtain ⟨hupper, -, hmem⟩ := foldl_max_spec 0 (values samples)
  rw [← hsummary.max] at hupper hmem
  have hbound : ∀ sample ∈ samples, sample ≤ (recorded samples).maxUs := by
    intro sample hsample
    exact UInt64.le_iff_toNat_le.mpr (hupper _ (List.mem_map_of_mem hsample))
  refine ⟨?_, hbound⟩
  rcases hmem with hstart | hmem
  · obtain ⟨sample, hsample⟩ := List.exists_mem_of_ne_nil samples hne
    have hle := UInt64.le_iff_toNat_le.mp (hbound sample hsample)
    have heq : (recorded samples).maxUs = sample := by
      rw [← UInt64.toNat_inj]
      omega
    rw [heq]
    exact hsample
  · obtain ⟨sample, hsample, heq⟩ := List.mem_map.mp hmem
    rw [← UInt64.toNat_inj.mp heq]
    exact hsample

/-- What a report of recorded samples says about them. -/
theorem percentile_bounds {samples : List UInt64} (hne : samples ≠ [])
    (hlength : samples.length < 2 ^ 32) :
    (∀ permille : UInt32, 1 ≤ permille → permille ≤ 1000 →
      ∃ x, nearestRank (values samples) ((samples.length * permille.toNat) ⌈/⌉ 1000) = some x ∧
        (x < overflowFloorUs.toNat →
          ((recorded samples).percentilePermille permille).toNat = (x / 10 + 1) * 10 ∧
            ((recorded samples).percentilePermille permille).toNat - 10 ≤ x ∧
            x < ((recorded samples).percentilePermille permille).toNat) ∧
        (overflowFloorUs.toNat ≤ x →
          (recorded samples).percentilePermille permille = overflowFloorUs)) ∧
    (∀ low high : UInt32, 1 ≤ low → low ≤ high → high ≤ 1000 →
      (recorded samples).percentilePermille low ≤ (recorded samples).percentilePermille high) ∧
    (∀ other, samples.Perm other → recorded other = recorded samples) ∧
    ((recorded samples).reportedMinUs ∈ samples ∧
      ∀ sample ∈ samples, (recorded samples).reportedMinUs ≤ sample) ∧
    ((recorded samples).maxUs ∈ samples ∧ ∀ sample ∈ samples, sample ≤ (recorded samples).maxUs) ∧
    (recorded samples).sumUs.toNat = Min.min (values samples).sum (2 ^ 64 - 1) ∧
    ((recorded samples).overflowed = true ↔ ∃ sample ∈ samples, overflowFloorUs ≤ sample) := by
  refine ⟨?_, ?_, fun other hperm => (recorded_perm hperm).symm, reported_min_spec hne hlength,
    max_spec hne, (recorded_summary samples).sum, overflowed_iff hlength⟩
  · intro permille hpos hle
    rw [UInt32.le_iff_toNat_le] at hpos hle
    obtain ⟨x, hx, hreport⟩ := percentile_eq hne hlength hpos hle
    refine ⟨x, hx, ?_, ?_⟩
    · intro hbelow
      rw [hreport, upper_edge_below hbelow]
      omega
    · intro hover
      rw [hreport, upper_edge_overflow hover]
  · intro low high hpos hle hhigh
    rw [UInt32.le_iff_toNat_le] at hpos hle hhigh
    obtain ⟨x, hx, hlow⟩ := percentile_eq hne hlength hpos (hle.trans hhigh)
    obtain ⟨y, hy, hreport⟩ := percentile_eq hne hlength (hpos.trans hle) hhigh
    rw [hlow, hreport, UInt64.le_iff_toNat_le]
    apply upper_edge_mono
    have hscale : samples.length * low.toNat ≤ samples.length * high.toNat :=
      Nat.mul_le_mul_left _ hle
    have hproduct : 0 < samples.length * low.toNat :=
      Nat.mul_pos (List.length_pos_iff.mpr hne) hpos
    rw [Nat.ceilDiv_eq_add_pred_div] at hx hy
    exact nearest_rank_mono (by omega) (by omega) hx hy

/-- The report of three samples, one of them in the overflow bucket. -/
theorem percentile_bounds_three :
    (∀ permille : UInt32, 1 ≤ permille → permille ≤ 1000 →
      ∃ x, nearestRank (values [12, 40000, 0]) (([12, 40000, 0] : List UInt64).length *
            permille.toNat ⌈/⌉ 1000) = some x ∧
        (x < overflowFloorUs.toNat →
          ((recorded [12, 40000, 0]).percentilePermille permille).toNat = (x / 10 + 1) * 10 ∧
            ((recorded [12, 40000, 0]).percentilePermille permille).toNat - 10 ≤ x ∧
            x < ((recorded [12, 40000, 0]).percentilePermille permille).toNat) ∧
        (overflowFloorUs.toNat ≤ x →
          (recorded [12, 40000, 0]).percentilePermille permille = overflowFloorUs)) ∧
    ((recorded [12, 40000, 0]).reportedMinUs ∈ ([12, 40000, 0] : List UInt64) ∧
      (recorded [12, 40000, 0]).maxUs ∈ ([12, 40000, 0] : List UInt64)) :=
  have h := percentile_bounds (show ([12, 40000, 0] : List UInt64) ≠ [] by decide) (by decide)
  ⟨h.1, h.2.2.2.1.1, h.2.2.2.2.1.1⟩

end Fieldbus.JitterStats
