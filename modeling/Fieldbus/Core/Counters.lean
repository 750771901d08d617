import Mathlib.Data.Fintype.Option
import Fieldbus.Library.Tally
import Fieldbus.Core.Validation
import Fieldbus.Core.Percentiles

/-!
# How long the counters stay exact

The verdicts and the histogram are counted in `u32` beside a `u64` sample count. `counts_exact_iff`
and `buckets_exact_iff` say when a run's counters are the integers they stand for: exactly when no
step finds the counter it moves at the largest `u32`. `counters_exact_iff` says it by how often each
verdict and each bucket occurs.
-/

namespace Fieldbus

namespace J1939.Validator

/-- The counter of acceptances, or that of refusals. -/
def counterOf (v : Validator) (accepted : Bool) : UInt32 :=
  if accepted then v.accepted else v.rejected

/-- The counter that the verdict on the frame moves is not the largest `u32`. -/
def HasRoom (v : Validator) (frame : Frame) : Prop :=
  v.counterOf (v.classify frame).isOk ≠ 0xFFFFFFFF

/-- Every frame of a run from a fresh validator finds room. -/
def RunHasRoom (frames : List Frame) : Prop :=
  ∀ before frame after, frames = before ++ frame :: after →
    (Validator.new.validateAll before).HasRoom frame

/-- The counters are the numbers of verdicts, and the reasons add up. -/
structure CountsExact (v : Validator) (verdicts : List (Except Reject Payload)) : Prop where
  accepted : v.accepted.toNat = verdicts.countP Except.isOk
  rejected : v.rejected.toNat = verdicts.countP fun verdict => !verdict.isOk
  reasons : ∑ i, (v.byReason.get i).toNat = v.rejected.toNat

/-- The reason of a refusal. -/
def reasonOf : Except Reject Payload → Option (Fin 8)
  | .ok _ => none
  | .error r => some r.index

/-- The verdict counters count verdicts. -/
theorem verdicts_counted :
    Machine.Counts validate Except.isOk (fun v accepted => (v.counterOf accepted).toNat)
      (2 ^ 32) := by
  intro v frame accepted
  rcases v.validate_cases frame with ⟨p, -, hvalidate⟩ | ⟨r, -, hvalidate⟩
  · cases accepted <;> simp [hvalidate, counterOf, accept, Except.isOk, Except.toBool]
  · cases accepted <;> simp [hvalidate, counterOf, refuse, Except.isOk, Except.toBool]

/-- The counters of the reasons, and beside them that of the acceptances. -/
def reasonCounter (v : Validator) (reason : Option (Fin 8)) : ℕ :=
  (reason.elim v.accepted v.byReason.get).toNat

theorem reasons_counted : Machine.Counts validate reasonOf reasonCounter (2 ^ 32) := by
  intro v frame reason
  rcases v.validate_cases frame with ⟨p, -, hvalidate⟩ | ⟨r, -, hvalidate⟩
  · cases reason <;> simp [hvalidate, reasonCounter, reasonOf, accept]
  · cases reason with
    | none => simp [hvalidate, reasonCounter, reasonOf, refuse]
    | some i =>
        simp only [hvalidate, reasonCounter, reasonOf, Option.elim, Option.some.injEq]
        rw [refuse_by_reason, UInt32.toNat_add]
        by_cases hindex : r.index = i <;> simp [hindex]

theorem new_counter_of (accepted : Bool) : (new.counterOf accepted).toNat = 0 := by
  cases accepted <;> rfl

theorem new_reason_counter (reason : Option (Fin 8)) : new.reasonCounter reason = 0 := by
  cases reason with
  | none => rfl
  | some i =>
      show ((Vector.replicate 8 (0 : UInt32))[(i : Nat)]).toNat = 0
      simp

theorem has_room_iff (v : Validator) (frame : Frame) :
    v.HasRoom frame ↔ (v.counterOf (v.validate frame).2.isOk).toNat + 1 < 2 ^ 32 := by
  have hverdict : (v.validate frame).2 = v.classify frame := by
    rcases v.validate_cases frame with ⟨p, hclassify, hvalidate⟩ | ⟨r, hclassify, hvalidate⟩
    · rw [hvalidate, hclassify]
    · rw [hvalidate, hclassify]
  have hlt := (v.counterOf (v.classify frame).isOk).toNat_lt
  rw [HasRoom, hverdict, ne_eq, ← UInt32.toNat_inj]
  show ¬ _ = 4294967295 ↔ _
  omega

variable (frames : List Frame)

theorem run_has_room_iff :
    RunHasRoom frames ↔
      ∀ accepted, tally Except.isOk (Machine.trace validate new frames) accepted < 2 ^ 32 := by
  rw [← Machine.room_iff verdicts_counted (Nat.two_pow_pos 32) new_counter_of]
  unfold RunHasRoom Machine.Room
  simp only [has_room_iff]
  rfl

/-- Every refusal has one reason. -/
theorem sum_reasons (verdicts : List (Except Reject Payload)) :
    ∑ i, tally reasonOf verdicts (some i) = tally Except.isOk verdicts false := by
  have hverdicts := sum_tally Except.isOk verdicts
  have hreasons := sum_tally reasonOf verdicts
  have haccepted : tally reasonOf verdicts none = tally Except.isOk verdicts true := by
    apply List.countP_congr
    rintro (r | p) - <;> simp [reasonOf, Except.isOk, Except.toBool]
  rw [Fintype.sum_bool] at hverdicts
  rw [Fintype.sum_option, haccepted] at hreasons
  omega

/-- The counters after a run from a fresh validator are exact if and only if every frame found
room. -/
theorem counts_exact_iff :
    CountsExact (new.validateAll frames) (Machine.trace validate new frames) ↔
      RunHasRoom frames := by
  have hcounter := Machine.counter_final verdicts_counted new_counter_of frames
  have hreason := Machine.counter_final reasons_counted new_reason_counter frames
  have haccepted : (Machine.trace validate new frames).countP Except.isOk =
      tally Except.isOk (Machine.trace validate new frames) true := by
    simp [tally]
  have hrejected : ((Machine.trace validate new frames).countP fun verdict => !verdict.isOk) =
      tally Except.isOk (Machine.trace validate new frames) false := by
    simp [tally]
  rw [run_has_room_iff]
  constructor
  · intro h accepted
    have hlt := ((new.validateAll frames).counterOf accepted).toNat_lt
    cases accepted with
    | true => rwa [← haccepted, ← h.accepted]
    | false => rwa [← hrejected, ← h.rejected]
  · intro hroom
    have hexact : ∀ accepted, ((new.validateAll frames).counterOf accepted).toNat =
        tally Except.isOk (Machine.trace validate new frames) accepted :=
      fun accepted => (hcounter accepted).trans (Nat.mod_eq_of_lt (hroom accepted))
    have hsum := sum_reasons (Machine.trace validate new frames)
    refine ⟨(hexact true).trans haccepted.symm, (hexact false).trans hrejected.symm, ?_⟩
    calc ∑ i, ((new.validateAll frames).byReason.get i).toNat
        = ∑ i, tally reasonOf (Machine.trace validate new frames) (some i) := by
          refine Finset.sum_congr rfl fun i _ => ?_
          have hle := Finset.single_le_sum
            (f := fun j => tally reasonOf (Machine.trace validate new frames) (some j))
            (fun j _ => Nat.zero_le _) (Finset.mem_univ i)
          have hlt := hroom false
          refine (hreason (some i)).trans (Nat.mod_eq_of_lt ?_)
          omega
      _ = tally Except.isOk (Machine.trace validate new frames) false := hsum
      _ = (new.validateAll frames).rejected.toNat := (hexact false).symm

end J1939.Validator

namespace JitterStats

/-- The bucket of the sample is not at the largest `u32`. -/
def HasRoom (s : JitterStats) (jitterUs : UInt64) : Prop :=
  s.buckets.get (bucket jitterUs) ≠ 0xFFFFFFFF

/-- Every sample of a run from an empty histogram finds room. -/
def RunHasRoom (samples : List UInt64) : Prop :=
  ∀ before sample after, samples = before ++ sample :: after → (recorded before).HasRoom sample

/-- The count is the number of samples, and the buckets add up to it. -/
structure BucketsExact (s : JitterStats) (samples : List UInt64) : Prop where
  count : s.count.toNat = samples.length
  buckets : ∑ i, (s.buckets.get i).toNat = s.count.toNat

/-- Recording as a machine step that passes the sample on. -/
def recordStep (s : JitterStats) (jitterUs : UInt64) : JitterStats × UInt64 :=
  (s.record jitterUs, jitterUs)

/-- A bucket's counter. -/
def bucketCounter (s : JitterStats) (i : Fin (numBuckets + 1)) : ℕ := (s.buckets.get i).toNat

theorem samples_counted : Machine.Counts recordStep bucket bucketCounter (2 ^ 32) := by
  intro s sample i
  show ((s.record sample).buckets.get i).toNat = _
  rw [record_buckets, UInt32.toNat_add]
  show _ = (bucketCounter s i + if bucket sample = i then 1 else 0) % 2 ^ 32
  by_cases hbucket : bucket sample = i <;> simp [hbucket, bucketCounter]

theorem new_bucket_counter (i : Fin (numBuckets + 1)) : new.bucketCounter i = 0 := by
  show ((Vector.replicate (numBuckets + 1) (0 : UInt32))[(i : Nat)]).toNat = 0
  simp

theorem record_trace (s : JitterStats) (samples : List UInt64) :
    Machine.trace recordStep s samples = samples := by
  induction samples generalizing s with
  | nil => rfl
  | cons sample rest ih => rw [Machine.trace_cons, ih]; rfl

theorem has_room_iff (s : JitterStats) (sample : UInt64) :
    s.HasRoom sample ↔ s.bucketCounter (bucket sample) + 1 < 2 ^ 32 := by
  have hlt := (s.buckets.get (bucket sample)).toNat_lt
  rw [HasRoom, ne_eq, ← UInt32.toNat_inj, bucketCounter]
  show ¬ _ = 4294967295 ↔ _
  omega

theorem run_has_room_iff (samples : List UInt64) :
    RunHasRoom samples ↔ ∀ i, tally bucket samples i < 2 ^ 32 := by
  have hroom := Machine.room_iff samples_counted (Nat.two_pow_pos 32) new_bucket_counter samples
  rw [record_trace] at hroom
  rw [← hroom]
  unfold RunHasRoom Machine.Room
  simp only [has_room_iff]
  rfl

/-- The histogram of at most `2 ^ 64 - 1` samples is exact if and only if every sample found
room. -/
theorem buckets_exact_iff {samples : List UInt64} (hcount : samples.length < 2 ^ 64) :
    BucketsExact (recorded samples) samples ↔ RunHasRoom samples := by
  have hlength : (recorded samples).count.toNat = samples.length := by
    rw [(recorded_summary samples).count, UInt64.toNat_ofNat_of_lt' hcount]
  have hbuckets : ∀ i, ((recorded samples).buckets.get i).toNat =
      tally bucket samples i % 2 ^ 32 := by
    intro i
    have hcounter := Machine.counter_final samples_counted new_bucket_counter samples i
    rwa [record_trace] at hcounter
  rw [run_has_room_iff, ← sum_tally_mod_iff (Nat.two_pow_pos 32), ← hlength]
  simp only [← hbuckets]
  exact ⟨fun h => h.buckets, fun h => ⟨hlength, h⟩⟩

end JitterStats

open J1939

/-- The verdict counters and the histogram of a run of frames and samples are exact if and only if
fewer than `2 ^ 32` frames are accepted, fewer than `2 ^ 32` refused, and fewer than `2 ^ 32`
samples fall into any one bucket. -/
theorem counters_exact_iff (frames : List Frame) {samples : List UInt64}
    (hcount : samples.length < 2 ^ 64) :
    (Validator.CountsExact (Validator.new.validateAll frames)
        (Machine.trace Validator.validate .new frames) ∧
      JitterStats.BucketsExact (JitterStats.recorded samples) samples) ↔
    (∀ accepted,
      tally Except.isOk (Machine.trace Validator.validate .new frames) accepted < 2 ^ 32) ∧
    ∀ i, tally JitterStats.bucket samples i < 2 ^ 32 :=
  and_congr ((Validator.counts_exact_iff frames).trans (Validator.run_has_room_iff frames))
    ((JitterStats.buckets_exact_iff hcount).trans (JitterStats.run_has_room_iff samples))

/-- A frame that comes a thousand times, of which all but the first are refused, and the samples
below a thousand. -/
theorem counters_exact_iff_thousand :
    let frames := List.replicate 1000 (sensorFrame 1 5 0)
    let samples := (List.range 1000).map UInt64.ofNat
    Validator.CountsExact (Validator.new.validateAll frames)
        (Machine.trace Validator.validate .new frames) ∧
      JitterStats.BucketsExact (JitterStats.recorded samples) samples := by
  intro frames samples
  have hframes : (Machine.trace Validator.validate .new frames).length = 1000 := by
    rw [Machine.length_trace, List.length_replicate]
  have hsamples : samples.length = 1000 := by rw [List.length_map, List.length_range]
  refine (counters_exact_iff frames (by omega)).mpr ⟨fun accepted => ?_, fun i => ?_⟩
  · refine List.countP_le_length.trans_lt ?_
    omega
  · refine List.countP_le_length.trans_lt ?_
    omega

/-- A frame without payload is refused, however many came before it. -/
theorem empty_frames_refused (v : Validator) (n : ℕ) :
    Machine.trace Validator.validate v (List.replicate n ⟨0, 0, .replicate 8 0⟩) =
      List.replicate n (.error .badLength) := by
  induction n generalizing v with
  | zero => rfl
  | succ n ih =>
      have hclassify : v.classify ⟨0, 0, .replicate 8 0⟩ = .error .badLength :=
        Validator.classify_layout_error (by decide)
      rw [List.replicate_succ, List.replicate_succ, Machine.trace_cons, ih,
        Validator.validate_error hclassify]

theorem empty_frames_not_exact {n : ℕ} (hn : 2 ^ 32 ≤ n) :
    ¬ Validator.CountsExact
      (Validator.new.validateAll (List.replicate n ⟨0, 0, .replicate 8 0⟩))
      (Machine.trace Validator.validate .new (List.replicate n ⟨0, 0, .replicate 8 0⟩)) := by
  intro h
  have hrejected := h.rejected
  rw [empty_frames_refused, List.countP_replicate] at hrejected
  have hlt := (Validator.new.validateAll
    (List.replicate n ⟨0, 0, .replicate 8 0⟩)).rejected.toNat_lt
  simp only [Except.isOk, Except.toBool, Bool.not_false, if_true] at hrejected
  omega

theorem zero_samples_not_exact {n : ℕ} (hn : 2 ^ 32 ≤ n) (hcount : n < 2 ^ 64) :
    ¬ JitterStats.BucketsExact (JitterStats.recorded (List.replicate n 0))
      (List.replicate n 0) := by
  rw [JitterStats.buckets_exact_iff (by rwa [List.length_replicate]),
    JitterStats.run_has_room_iff]
  intro hroom
  have hzero := hroom (JitterStats.bucket 0)
  simp only [tally, List.countP_replicate, decide_true, if_true] at hzero
  omega

/-- After `2 ^ 32` empty frames the refusals are not their number, and after `2 ^ 32` periods
without jitter the buckets do not add up to the count. -/
theorem counters_not_exact :
    ¬ Validator.CountsExact
      (Validator.new.validateAll (List.replicate (2 ^ 32) ⟨0, 0, .replicate 8 0⟩))
      (Machine.trace Validator.validate .new (List.replicate (2 ^ 32) ⟨0, 0, .replicate 8 0⟩)) ∧
    ¬ JitterStats.BucketsExact (JitterStats.recorded (List.replicate (2 ^ 32) 0))
      (List.replicate (2 ^ 32) 0) :=
  ⟨empty_frames_not_exact le_rfl, zero_samples_not_exact le_rfl (by omega)⟩

end Fieldbus
