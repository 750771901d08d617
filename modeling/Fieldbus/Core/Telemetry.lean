import Mathlib.Data.UInt

/-!
# Wake-jitter telemetry

After `core/src/telemetry.rs`: a fixed-width histogram with one overflow bucket, and exact scalar
statistics. Counters are those of the release build.
-/

namespace Fieldbus

/-- Width of one histogram bucket in microseconds. -/
def bucketWidthUs : UInt64 := 10
/-- Number of exact buckets. -/
def numBuckets : Nat := 4000
/-- Samples at or above this value land in the overflow bucket. -/
def overflowFloorUs : UInt64 := bucketWidthUs * UInt64.ofNat numBuckets

/-- Fixed-size jitter histogram plus exact scalar statistics. -/
structure JitterStats where
  buckets : Vector UInt32 (numBuckets + 1)
  count : UInt64
  sumUs : UInt64
  minUs : UInt64
  maxUs : UInt64
  missedDeadlines : UInt64

namespace JitterStats

/-- An empty histogram. -/
def new : JitterStats := ⟨.replicate (numBuckets + 1) 0, 0, 0, 0xFFFFFFFFFFFFFFFF, 0, 0⟩

/-- The bucket of a sample. -/
def bucket (jitterUs : UInt64) : Fin (numBuckets + 1) :=
  let idx := (jitterUs / bucketWidthUs).toNat
  if h : idx < numBuckets then ⟨idx, by omega⟩ else ⟨numBuckets, by omega⟩

/-- `u64::saturating_add`. -/
def saturatingAdd (a b : UInt64) : UInt64 :=
  if a.toNat + b.toNat < 2 ^ 64 then a + b else 0xFFFFFFFFFFFFFFFF

/-- Record one wake-jitter sample in microseconds. -/
def record (s : JitterStats) (jitterUs : UInt64) : JitterStats :=
  let idx := bucket jitterUs
  { s with
    buckets := s.buckets.set idx (s.buckets[idx] + 1)
    count := s.count + 1
    sumUs := saturatingAdd s.sumUs jitterUs
    minUs := if jitterUs < s.minUs then jitterUs else s.minUs
    maxUs := if jitterUs > s.maxUs then jitterUs else s.maxUs }

/-- Record a missed deadline. -/
def recordMiss (s : JitterStats) : JitterStats :=
  { s with missedDeadlines := s.missedDeadlines + 1 }

/-! ## Reports -/

/-- The source's `min_us`: the smallest sample, or 0 if nothing has been recorded. -/
def reportedMinUs (s : JitterStats) : UInt64 :=
  if s.count = 0 then 0 else s.minUs

/-- The nearest rank of a permille, clamped to at least 1. -/
def rankPermille (count : UInt64) (permille : UInt32) : UInt64 :=
  let scaled := count * permille.toUInt64
  let rank := if scaled % 1000 ≠ 0 then scaled / 1000 + 1 else scaled / 1000
  if rank = 0 then 1 else rank

/-- The figure reported for a bucket: its upper edge, or the floor of the overflow bucket. -/
def upperEdge (i : Nat) : UInt64 :=
  if i ≥ numBuckets then overflowFloorUs else (UInt64.ofNat i + 1) * bucketWidthUs

/-- The scan over the buckets from the `i`-th one on; `cumulative` counts those before it. -/
def scanBuckets (rank : UInt64) : List UInt32 → Nat → UInt64 → UInt64
  | [], _, _ => overflowFloorUs
  | c :: rest, i, cumulative =>
      let cumulative := cumulative + c.toUInt64
      if cumulative ≥ rank then upperEdge i else scanBuckets rank rest (i + 1) cumulative

/-- Nearest-rank percentile in permille, as an upper-edge bound. -/
def percentilePermille (s : JitterStats) (permille : UInt32) : UInt64 :=
  if s.count = 0 then 0 else scanBuckets (rankPermille s.count permille) s.buckets.toList 0 0

/-- p99, as an upper-edge bound. -/
def p99Us (s : JitterStats) : UInt64 := s.percentilePermille 990

/-- Whether any sample landed in the overflow bucket. -/
def overflowed (s : JitterStats) : Bool :=
  s.buckets[numBuckets] > 0

/-- The statistics of a run that recorded the given samples, in order. -/
def recorded (samples : List UInt64) : JitterStats :=
  samples.foldl record new

/-- A sample is counted in its own bucket. -/
theorem record_buckets (s : JitterStats) (jitterUs : UInt64) (i : Fin (numBuckets + 1)) :
    (s.record jitterUs).buckets.get i =
      s.buckets.get i + if bucket jitterUs = i then 1 else 0 := by
  show (s.record jitterUs).buckets[(i : Nat)] = s.buckets[(i : Nat)] + _
  by_cases h : bucket jitterUs = i
  · subst h
    simp [record]
  · have hne : (bucket jitterUs : Nat) ≠ i := fun heq => h (Fin.ext heq)
    simp [record, h, hne]

end JitterStats

end Fieldbus
