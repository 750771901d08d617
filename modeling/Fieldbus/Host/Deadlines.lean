import Fieldbus.Host.Runner
import Fieldbus.Library.Occupancy

/-!
# The deadline accounts of a run

A run counts a miss for every cycle whose work ends past its deadline and for every period in which
no cycle started. `Accounted` is the invariant of the loop, in terms of the start and end times that
the clock returns; `deadline_accounting_exact` states the totals, their split by the hog window and
the split of the jitter histogram for whole runs.
-/

namespace Fieldbus

variable {F β : Type} [Scalar F] [CanBus β]

namespace RunState

/-! ## The times of a run -/

section Times

variable (cfg : RunConfig) (clock : Clock)

/-- The start of the cycle with the given index. -/
def startOf (i : Nat) : Nat := (started cfg clock (UInt64.ofNat i)).toNat

/-- The end of its work. -/
def endOf (i : Nat) : Nat := (ended cfg clock (UInt64.ofNat i)).toNat

/-- The period in which it started. -/
def periodOf (i : Nat) : Nat := startOf cfg clock i / cfg.periodUs.toNat

/-- Its work ended past its deadline. -/
def Late (i : Nat) : Prop := (i + 1) * cfg.periodUs.toNat < endOf cfg clock i

instance : DecidablePred (Late cfg clock) := fun _ => inferInstanceAs (Decidable (_ < _))

/-- The time from its scheduled start to its start. -/
def jitterOf (i : Nat) : UInt64 := UInt64.ofNat (startOf cfg clock i - i * cfg.periodUs.toNat)

/-- A clock under which no cycle starts before its schedule or before the one before it has ended.
Deadlines and the numbers of the periods stay in range. -/
structure Punctual : Prop where
  period : 0 < cfg.periodUs.toNat
  deadlines : cfg.cycles.toNat * cfg.periodUs.toNat < 2 ^ 64
  scheduled : ∀ i < cfg.cycles.toNat, i * cfg.periodUs.toNat ≤ startOf cfg clock i
  ordered : ∀ i < cfg.cycles.toNat, startOf cfg clock i ≤ endOf cfg clock i
  next : ∀ i, i + 1 < cfg.cycles.toNat → endOf cfg clock i ≤ startOf cfg clock (i + 1)
  range : ∀ i < cfg.cycles.toNat, periodOf cfg clock i + 1 < 2 ^ 64

variable {cfg clock}

/-- Starts never go back to an earlier period. -/
theorem Punctual.periods (h : Punctual cfg clock) :
    ∀ i, i + 1 < cfg.cycles.toNat → periodOf cfg clock i ≤ periodOf cfg clock (i + 1) :=
  fun i hi => Nat.div_le_div_right ((h.ordered i (by omega)).trans (h.next i hi))

/-- The schedule of a cycle and its deadline in integers. -/
theorem Punctual.schedule (h : Punctual cfg clock) {i : Nat} (hi : i < cfg.cycles.toNat) :
    (RunState.scheduled cfg (UInt64.ofNat i)).toNat = i * cfg.periodUs.toNat ∧
      (RunState.scheduled cfg (UInt64.ofNat i) + cfg.periodUs).toNat =
        (i + 1) * cfg.periodUs.toNat := by
  have hdeadline : (i + 1) * cfg.periodUs.toNat ≤ cfg.cycles.toNat * cfg.periodUs.toNat :=
    Nat.mul_le_mul_right _ hi
  have hrange := h.deadlines
  have hindex : (UInt64.ofNat i).toNat = i :=
    UInt64.toNat_ofNat_of_lt' (hi.trans cfg.cycles.toNat_lt)
  have hschedule : (RunState.scheduled cfg (UInt64.ofNat i)).toNat = i * cfg.periodUs.toNat := by
    rw [RunState.scheduled, UInt64.toNat_mul, hindex, Nat.mod_eq_of_lt]
    rw [Nat.succ_mul] at hdeadline
    omega
  refine ⟨hschedule, ?_⟩
  rw [UInt64.toNat_add, hschedule, ← Nat.succ_mul, Nat.mod_eq_of_lt]
  exact hdeadline.trans_lt hrange

/-- The recorded jitter of a cycle. -/
theorem Punctual.jitter (h : Punctual cfg clock) {i : Nat} (hi : i < cfg.cycles.toNat) :
    Watchdog.saturatingSub (started cfg clock (UInt64.ofNat i))
      (RunState.scheduled cfg (UInt64.ofNat i)) = jitterOf cfg clock i := by
  rw [← UInt64.toNat_inj, Watchdog.saturating_sub_toNat, (h.schedule hi).1, jitterOf,
    UInt64.toNat_ofNat_of_lt']
  · rfl
  · exact (Nat.sub_le _ _).trans_lt (started cfg clock (UInt64.ofNat i)).toNat_lt

end Times

/-! ## What a cycle adds to the accounts -/

variable {cfg : RunConfig} {clock : Clock} {hogWindow : Option HogWindow} {l : RunState F β}

/-- Record the jitter of a cycle and the period it started in. -/
def note (l : RunState F β) (inWindow : Bool) (startUs jitterUs : UInt64) : RunState F β :=
  { l with
    jitter := l.jitter.record jitterUs
    insideJitter := if inWindow then l.insideJitter.record jitterUs else l.insideJitter
    outsideJitter := if inWindow then l.outsideJitter else l.outsideJitter.record jitterUs
    ledger := { l.ledger with nextUnaccounted := startUs / l.ledger.periodUs + 1 } }

/-- Record several misses at once. -/
def addMisses (l : RunState F β) (inWindow : Bool) (added : List Miss) : RunState F β :=
  { l with
    jitter := { l.jitter with
      missedDeadlines := l.jitter.missedDeadlines + UInt64.ofNat added.length }
    missesInside :=
      if inWindow then l.missesInside + UInt64.ofNat added.length else l.missesInside
    missesOutside :=
      if inWindow then l.missesOutside else l.missesOutside + UInt64.ofNat added.length
    misses := l.misses ++ added }

omit [Scalar F] [CanBus β] in
/-- Recording misses one by one. -/
theorem foldl_add_miss (l : RunState F β) (inWindow : Bool) (miss : Nat → Miss)
    (indices : List Nat) :
    indices.foldl (fun l k => l.addMiss inWindow (miss k)) l =
      l.addMisses inWindow (indices.map miss) := by
  induction indices generalizing l with
  | nil => simp [addMisses]
  | cons k rest ih =>
      rw [List.foldl_cons, ih]
      have hcount : ∀ n : UInt64, n + 1 + UInt64.ofNat rest.length =
          n + UInt64.ofNat (rest.length + 1) := by
        intro n
        rw [UInt64.ofNat_add, UInt64.add_assoc, UInt64.add_comm 1]
        rfl
      cases inWindow <;>
        simp [addMisses, addMiss, JitterStats.recordMiss, hcount]

variable (cfg) in
omit [Scalar F] [CanBus β] in
/-- The accounts at the start of a cycle: a jitter sample, the period of the start, and a miss for
each period that went by. -/
theorem account_start (inWindow : Bool) (cycle startUs jitterUs : UInt64) (l : RunState F β) :
    ∃ added : List Miss,
      added.length = startUs.toNat / l.ledger.periodUs.toNat - l.ledger.nextUnaccounted.toNat ∧
      l.accountStart cfg inWindow cycle startUs jitterUs =
        (l.note inWindow startUs jitterUs).addMisses inWindow added := by
  refine ⟨(List.range (l.ledger.accountCycleStart startUs).2.toNat).map fun k =>
    ⟨cycle, .skippedPeriod, jitterUs, 0,
      Watchdog.saturatingSub jitterUs (UInt64.ofNat k * cfg.periodUs)⟩, ?_, ?_⟩
  · rw [List.length_map, List.length_range, PeriodLedger.accountCycleStart,
      Watchdog.saturating_sub_toNat, UInt64.toNat_div]
  · rw [accountStart]
    exact foldl_add_miss _ _ _ _

variable (cfg) in
omit [Scalar F] [CanBus β] in
/-- The accounts at the end of a cycle: a miss if its work went past the deadline. -/
theorem account_end (inWindow : Bool) (cycle scheduledUs startUs jitterUs endUs : UInt64)
    (l : RunState F β) :
    ∃ added : List Miss,
      added.length = (if (scheduledUs + cfg.periodUs).toNat < endUs.toNat then 1 else 0) ∧
      l.accountEnd cfg inWindow cycle scheduledUs startUs jitterUs endUs =
        l.addMisses inWindow added := by
  by_cases hlate : scheduledUs + cfg.periodUs < endUs
  · refine ⟨[⟨cycle, .workOverran, jitterUs, Watchdog.saturatingSub endUs startUs,
      endUs - (scheduledUs + cfg.periodUs)⟩], ?_, ?_⟩
    · rw [if_pos (UInt64.lt_iff_toNat_lt.mp hlate)]
      rfl
    · simp only [accountEnd, gt_iff_lt, if_pos hlate]
      rfl
  · refine ⟨[], (if_neg fun h => hlate (UInt64.lt_iff_toNat_lt.mpr h)).symm, ?_⟩
    simp only [accountEnd, gt_iff_lt, if_neg hlate]
    cases inWindow <;> simp [addMisses]

/-! ## The invariant of the loop -/

/-- The counters of misses agree with the explained list. -/
structure Tallied (l : RunState F β) : Prop where
  missed : l.jitter.missedDeadlines = UInt64.ofNat l.misses.length
  split : l.missesInside + l.missesOutside = UInt64.ofNat l.misses.length

omit [Scalar F] [CanBus β] in
theorem Tallied.addMisses (h : Tallied l) (inWindow : Bool) (added : List Miss) :
    Tallied (l.addMisses inWindow added) where
  missed := by
    simp only [RunState.addMisses, h.missed, List.length_append, UInt64.ofNat_add]
  split := by
    cases inWindow
    · simp only [RunState.addMisses, Bool.false_eq_true, if_false, List.length_append,
        UInt64.ofNat_add, ← h.split, UInt64.add_assoc]
    · simp only [RunState.addMisses, if_true, List.length_append, UInt64.ofNat_add, ← h.split]
      rw [UInt64.add_assoc, UInt64.add_comm (UInt64.ofNat _), UInt64.add_assoc]

omit [Scalar F] [CanBus β] in
theorem Tallied.note (h : Tallied l) (inWindow : Bool) (startUs jitterUs : UInt64) :
    Tallied (l.note inWindow startUs jitterUs) := ⟨h.missed, h.split⟩

theorem Tallied.work (h : Tallied l) (cycle scheduledUs startUs : UInt64) :
    Tallied (l.work cfg cycle scheduledUs startUs) := ⟨h.missed, h.split⟩

/-- The number of the first cycles that fall inside the window, or outside it, and whose jitter
falls into a bucket. -/
def jitterCount (cfg : RunConfig) (clock : Clock) (hogWindow : Option HogWindow) (inside : Bool)
    (b : Fin (numBuckets + 1)) (k : Nat) : Nat :=
  Nat.count (fun i => inWindow hogWindow (UInt64.ofNat i) = inside ∧
    JitterStats.bucket (jitterOf cfg clock i) = b) k

/-- Every cycle falls either inside the window or outside it. -/
theorem jitterCount_add (b : Fin (numBuckets + 1)) (k : Nat) :
    jitterCount cfg clock hogWindow true b k + jitterCount cfg clock hogWindow false b k =
      Nat.count (fun i => JitterStats.bucket (jitterOf cfg clock i) = b) k := by
  simp only [jitterCount]
  induction k with
  | zero => rfl
  | succ k ih =>
      simp only [Nat.count_succ, ← ih]
      cases inWindow hogWindow (UInt64.ofNat k) <;> simp <;> omega

variable (cfg clock hogWindow) in
/-- One more cycle adds its jitter to the count of its side and bucket. -/
theorem jitterCount_succ (inside : Bool) (b : Fin (numBuckets + 1)) (k : Nat) :
    UInt32.ofNat (jitterCount cfg clock hogWindow inside b (k + 1)) =
      UInt32.ofNat (jitterCount cfg clock hogWindow inside b k) +
        if inWindow hogWindow (UInt64.ofNat k) = inside ∧
          JitterStats.bucket (jitterOf cfg clock k) = b then 1 else 0 := by
  rw [jitterCount, Nat.count_succ, UInt32.ofNat_add]
  congr 1
  split <;> rfl

/-- The accounts after the first cycles of a run. -/
structure Accounted (cfg : RunConfig) (clock : Clock) (hogWindow : Option HogWindow) (k : Nat)
    (l : RunState F β) : Prop extends Tallied l where
  misses : l.misses.length =
    Nat.count (Late cfg clock) k + Occupancy.vacant (periodOf cfg clock) k
  period : l.ledger.periodUs = cfg.periodUs
  next : l.ledger.nextUnaccounted.toNat = Occupancy.frontier (periodOf cfg clock) k
  inside : ∀ b, l.insideJitter.buckets.get b =
    UInt32.ofNat (jitterCount cfg clock hogWindow true b k)
  outside : ∀ b, l.outsideJitter.buckets.get b =
    UInt32.ofNat (jitterCount cfg clock hogWindow false b k)
  overall : ∀ b, l.jitter.buckets.get b =
    UInt32.ofNat (jitterCount cfg clock hogWindow true b k) +
      UInt32.ofNat (jitterCount cfg clock hogWindow false b k)

omit [CanBus β] in
/-- The loop starts with empty accounts. -/
theorem Accounted.initial (h : Punctual cfg clock) (bus : β) :
    Accounted cfg clock hogWindow 0 (RunState.initial (F := F) bus cfg) where
  missed := rfl
  split := rfl
  misses := rfl
  period := by
    -- the ledger replaces a period of zero, and only that
    have hperiod := h.period
    show (if cfg.periodUs ≤ 1 then 1 else cfg.periodUs) = cfg.periodUs
    split
    · next hone =>
        rw [UInt64.le_iff_toNat_le] at hone
        exact UInt64.toNat_inj.mp (Nat.le_antisymm hperiod hone)
    · rfl
  next := rfl
  inside := fun b => Vector.getElem_replicate b.isLt
  outside := fun b => Vector.getElem_replicate b.isLt
  overall := fun b => Vector.getElem_replicate b.isLt

/-- One more cycle keeps the accounts. -/
theorem Accounted.step (h : Punctual cfg clock) {k : Nat} (hk : k < cfg.cycles.toNat)
    (hacc : Accounted cfg clock hogWindow k l) :
    Accounted cfg clock hogWindow (k + 1)
      (l.next cfg clock hogWindow (UInt64.ofNat k)) := by
  obtain ⟨skipped, hskipped, hstart⟩ := account_start cfg
    (inWindow hogWindow (UInt64.ofNat k)) (UInt64.ofNat k) (started cfg clock (UInt64.ofNat k))
    (jitterOf cfg clock k) l
  obtain ⟨late, hlate, hend⟩ := account_end cfg
    (inWindow hogWindow (UInt64.ofNat k)) (UInt64.ofNat k) (scheduled cfg (UInt64.ofNat k))
    (started cfg clock (UInt64.ofNat k)) (jitterOf cfg clock k) (ended cfg clock (UInt64.ofNat k))
    ((l.accountStart cfg (inWindow hogWindow (UInt64.ofNat k)) (UInt64.ofNat k)
      (started cfg clock (UInt64.ofNat k)) (jitterOf cfg clock k)).work cfg (UInt64.ofNat k)
        (scheduled cfg (UInt64.ofNat k)) (started cfg clock (UInt64.ofNat k)))
  rw [hacc.period, hacc.next] at hskipped
  rw [(h.schedule hk).2] at hlate
  have hpast : late.length = if Late cfg clock k then 1 else 0 := hlate
  have hfresh := jitterCount_succ cfg clock hogWindow
  simp only [RunState.next, h.jitter hk, hend]
  rw [hstart]
  refine
    { toTallied := (((hacc.toTallied.note _ _ _).addMisses _ _).work _ _ _).addMisses _ _
      misses := ?_
      period := hacc.period
      next := ?_
      inside := fun b => ?_
      outside := fun b => ?_
      overall := fun b => ?_ }
  · show ((l.misses ++ skipped) ++ late).length = _
    rw [List.length_append, List.length_append, hskipped, hpast, hacc.misses, Nat.count_succ,
      Occupancy.vacant_succ h.periods hk, ← startOf, ← periodOf]
    omega
  · show (started cfg clock (UInt64.ofNat k) / l.ledger.periodUs + 1).toNat = _
    rw [hacc.period, UInt64.toNat_add, UInt64.toNat_div]
    exact Nat.mod_eq_of_lt (h.range k hk)
  · show (if inWindow hogWindow (UInt64.ofNat k) then l.insideJitter.record (jitterOf cfg clock k)
      else l.insideJitter).buckets.get b = _
    rw [hfresh, ← hacc.inside]
    cases inWindow hogWindow (UInt64.ofNat k) <;> simp [JitterStats.record_buckets]
  · show (if inWindow hogWindow (UInt64.ofNat k) then l.outsideJitter
      else l.outsideJitter.record (jitterOf cfg clock k)).buckets.get b = _
    rw [hfresh, ← hacc.outside]
    cases inWindow hogWindow (UInt64.ofNat k) <;> simp [JitterStats.record_buckets]
  · show (l.jitter.record (jitterOf cfg clock k)).buckets.get b = _
    rw [JitterStats.record_buckets, hacc.overall, hfresh, hfresh]
    cases inWindow hogWindow (UInt64.ofNat k)
    · simp [UInt32.add_assoc]
    · simp only [true_and, Bool.true_eq_false, false_and, if_false, UInt32.add_zero]
      rw [UInt32.add_assoc, UInt32.add_comm (UInt32.ofNat (jitterCount _ _ _ false _ _)),
        UInt32.add_assoc]

variable (hogWindow) in
/-- The accounts after any number of cycles of a run. -/
theorem accounted_after (h : Punctual cfg clock) (bus : β) {k : Nat}
    (hk : k ≤ cfg.cycles.toNat) :
    Accounted cfg clock hogWindow k (after (F := F) bus cfg clock hogWindow k) := by
  induction k with
  | zero => exact .initial h bus
  | succ k ih => exact (ih (by omega)).step h hk

/-- A bucket count of a run of fewer than `2 ^ 32` cycles does not wrap. -/
theorem jitterCount_toNat (inside : Bool) (b : Fin (numBuckets + 1)) {k : Nat}
    (hk : k < 2 ^ 32) :
    (UInt32.ofNat (jitterCount cfg clock hogWindow inside b k)).toNat =
      jitterCount cfg clock hogWindow inside b k :=
  UInt32.toNat_ofNat_of_lt' ((Nat.count_le _).trans_lt hk)

end RunState

/-- Deadline accounting is exact. A run misses one deadline for each cycle whose work ends after the
end of its period and one for each period, up to that of the last start, in which no cycle started;
`missed_deadlines` is the number of these misses. The jitter histogram is that of the time from the
scheduled to the actual start. With a hog window, the misses inside and outside add up to the total
and the two histograms add up to the overall one, bucket by bucket. -/
theorem deadline_accounting_exact {cfg : RunConfig} {clock : Clock}
    {hogWindow : Option HogWindow} (bus : β) (h : RunState.Punctual cfg clock)
    (hcycles : cfg.cycles.toNat < 2 ^ 32) :
    let outcome : RunOutcome F := run bus cfg clock hogWindow
    outcome.misses.length =
        Nat.count (RunState.Late cfg clock) cfg.cycles.toNat +
          Occupancy.vacant (RunState.periodOf cfg clock) cfg.cycles.toNat ∧
      outcome.jitter.missedDeadlines = UInt64.ofNat outcome.misses.length ∧
      (∀ b, (outcome.jitter.buckets.get b).toNat =
        Nat.count (fun i => JitterStats.bucket (RunState.jitterOf cfg clock i) = b)
          cfg.cycles.toNat) ∧
      outcome.hog.isSome = hogWindow.isSome ∧
      ∀ hog ∈ outcome.hog,
        hog.missesInsideWindow + hog.missesOutsideWindow = outcome.jitter.missedDeadlines ∧
        ∀ b, (hog.jitterInsideWindow.buckets.get b).toNat +
            (hog.jitterOutsideWindow.buckets.get b).toNat =
          (outcome.jitter.buckets.get b).toNat := by
  intro outcome
  have hacc := RunState.accounted_after (F := F) hogWindow h bus (Nat.le_refl _)
  have hoverall : ∀ b, (outcome.jitter.buckets.get b).toNat =
      RunState.jitterCount cfg clock hogWindow true b cfg.cycles.toNat +
        RunState.jitterCount cfg clock hogWindow false b cfg.cycles.toNat := by
    intro b
    have hcount : Nat.count
        (fun i => JitterStats.bucket (RunState.jitterOf cfg clock i) = b) cfg.cycles.toNat ≤
          cfg.cycles.toNat := Nat.count_le _
    rw [show outcome.jitter.buckets.get b = _ from hacc.overall b, UInt32.toNat_add,
      RunState.jitterCount_toNat _ _ hcycles, RunState.jitterCount_toNat _ _ hcycles,
      RunState.jitterCount_add, Nat.mod_eq_of_lt (hcount.trans_lt hcycles)]
  refine ⟨hacc.misses, hacc.missed, fun b => ?_, Option.isSome_map .., ?_⟩
  · rw [hoverall, RunState.jitterCount_add]
  · intro hog hhog
    obtain ⟨w, -, rfl⟩ := Option.map_eq_some_iff.mp hhog
    refine ⟨hacc.split.trans hacc.missed.symm, fun b => ?_⟩
    rw [hoverall, show _ = _ from hacc.inside b, show _ = _ from hacc.outside b,
      RunState.jitterCount_toNat _ _ hcycles, RunState.jitterCount_toNat _ _ hcycles]

/-- Three cycles of 10 µs that start at 0, 35 and 36 µs and end at 35, 36 and 60 µs are all late and
leave the second and third period without a start. -/
theorem deadline_accounting_exact_stall :
    let cfg : RunConfig := ⟨3, 10, 80000, .realTime⟩
    let clock : Clock :=
      ⟨fun i => if i = 0 then 0 else 34 + i, fun i => if i = 2 then 60 else 35 + i⟩
    (run (SimBus.new 7 .clean : SimBus ℚ) cfg clock (some ⟨1, 2⟩) : RunOutcome ℚ).misses.length =
      5 := by
  intro cfg clock
  have hnext : ∀ i < 2, RunState.endOf cfg clock i ≤ RunState.startOf cfg clock (i + 1) := by
    decide
  have h : RunState.Punctual cfg clock :=
    ⟨by decide, by decide, by decide, by decide,
      fun i hi => hnext i (Nat.lt_of_succ_lt_succ hi), by decide⟩
  refine (deadline_accounting_exact (F := ℚ) (SimBus.new 7 .clean : SimBus ℚ) h
    (by decide)).1.trans ?_
  decide

end Fieldbus
