import Mathlib.Algebra.BigOperators.Group.Finset.Piecewise
import Fieldbus.Host.Evidence
import Fieldbus.Host.Gate
import Fieldbus.Host.Latch

/-!
# The figures of a report agree

On every bus and with every clock, the figures that a run reports add up: its parts are those of the
loop at the same time (`Balanced`), and so are those of the report made of them (`report_adds_up`).
-/

namespace Fieldbus

open J1939

/-! ## The validator and the telemetry -/

namespace J1939.Validator

/-- The refusals are those of the eight reasons together. -/
def Itemised (v : Validator) : Prop := v.rejected = ∑ i, v.byReason.get i

theorem itemised_new : Itemised new := by
  have hzero (i : Fin 8) : new.byReason.get i = 0 := Vector.getElem_replicate i.isLt
  simp only [Itemised, hzero, Finset.sum_const_zero]
  rfl

theorem Itemised.refuse {v : Validator} (h : v.Itemised) (r : Reject) : (v.refuse r).Itemised := by
  show v.rejected + 1 = _
  simp only [refuse_by_reason, Finset.sum_add_distrib, Finset.sum_ite_eq, Finset.mem_univ, if_true]
  rw [h]

theorem Itemised.validate_all {v : Validator} (h : v.Itemised) (frames : List Frame) :
    (v.validateAll frames).Itemised := by
  induction frames generalizing v with
  | nil => exact h
  | cons frame rest ih =>
      obtain ⟨p, hok, -⟩ | ⟨r, herror, -⟩ := validate_cases v frame
      · rw [validate_all_ok hok]
        exact ih h
      · rw [validate_all_error herror]
        exact ih (h.refuse r)

end J1939.Validator

namespace JitterStats

/-- The samples of one histogram are those of two others. -/
structure Split (inside outside whole : JitterStats) : Prop where
  count : inside.count + outside.count = whole.count
  max : whole.maxUs.toNat = max inside.maxUs.toNat outside.maxUs.toNat

variable {inside outside whole : JitterStats}

theorem record_max (s : JitterStats) (jitterUs : UInt64) :
    (s.record jitterUs).maxUs.toNat = Max.max s.maxUs.toNat jitterUs.toNat := by
  simp only [record, gt_iff_lt, UInt64.lt_iff_toNat_lt]
  split <;> omega

theorem Split.record_inside (h : Split inside outside whole) (jitterUs : UInt64) :
    Split (inside.record jitterUs) outside (whole.record jitterUs) where
  count := by
    show inside.count + 1 + outside.count = whole.count + 1
    rw [← h.count, add_right_comm]
  max := by
    rw [record_max, record_max, h.max, max_right_comm]

theorem Split.record_outside (h : Split inside outside whole) (jitterUs : UInt64) :
    Split inside (outside.record jitterUs) (whole.record jitterUs) where
  count := by
    show inside.count + (outside.count + 1) = whole.count + 1
    rw [← h.count, add_assoc]
  max := by
    rw [record_max, record_max, h.max, max_assoc]

end JitterStats

/-! ## The loop -/

namespace RunState

variable {F β : Type} [Scalar F] [CanBus β] {cfg : RunConfig} {clock : Clock}
  {hogWindow : Option HogWindow} {l : RunState F β}

/-- The figures of the loop after some cycles add up. -/
structure Balanced (k : Nat) (l : RunState F β) : Prop where
  tallied : Tallied l
  accepted : l.accepted = l.node.validator.accepted
  rejected : l.rejected = l.node.validator.rejected
  itemised : l.node.validator.Itemised
  jitter : l.insideJitter.Split l.outsideJitter l.jitter
  explained : ∀ m ∈ l.misses, ∃ i < k, m.cycle = UInt64.ofNat i

omit [CanBus β] in
theorem balanced_initial (bus : β) : Balanced 0 (initial (F := F) bus cfg) :=
  ⟨⟨rfl, rfl⟩, rfl, rfl, Validator.itemised_new, ⟨rfl, rfl⟩, fun _ hm => nomatch hm⟩

omit [Scalar F] [CanBus β] in
/-- Misses of the last cycle are explained by it. -/
theorem Balanced.add_misses {k : Nat} (h : Balanced (k + 1) l) (inWindow : Bool)
    {added : List Miss} (hadded : ∀ m ∈ added, m.cycle = UInt64.ofNat k) :
    Balanced (k + 1) (l.addMisses inWindow added) where
  tallied := h.tallied.addMisses inWindow added
  accepted := h.accepted
  rejected := h.rejected
  itemised := h.itemised
  jitter := ⟨h.jitter.count, h.jitter.max⟩
  explained m hm := by
    obtain hm | hm := List.mem_append.mp hm
    · exact h.explained m hm
    · exact ⟨k, Nat.lt_succ_self k, hadded m hm⟩

omit [Scalar F] [CanBus β] in
/-- The start of a cycle: its jitter is recorded on one side and in the whole. -/
theorem Balanced.account_start {k : Nat} (h : Balanced k l) (cfg : RunConfig) (inWindow : Bool)
    (startUs jitterUs : UInt64) :
    Balanced (k + 1) (l.accountStart cfg inWindow (UInt64.ofNat k) startUs jitterUs) := by
  unfold accountStart
  dsimp only
  rw [foldl_add_miss]
  refine Balanced.add_misses ?_ inWindow fun m hm => ?_
  · refine ⟨⟨h.tallied.missed, h.tallied.split⟩, h.accepted, h.rejected, h.itemised, ?_, ?_⟩
    · cases inWindow with
      | true => exact h.jitter.record_inside jitterUs
      | false => exact h.jitter.record_outside jitterUs
    · intro m hm
      obtain ⟨i, hi, hcycle⟩ := h.explained m hm
      exact ⟨i, hi.trans (Nat.lt_succ_self k), hcycle⟩
  · obtain ⟨_, -, rfl⟩ := List.mem_map.mp hm
    rfl

/-- The work of a cycle: the counters are those of the validator. -/
theorem Balanced.work {k : Nat} (h : Balanced k l) (cycle scheduledUs startUs : UInt64) :
    Balanced k (l.work cfg cycle scheduledUs startUs) where
  tallied := h.tallied.work cycle scheduledUs startUs
  accepted := rfl
  rejected := rfl
  itemised := by
    rw [work_node]
    show (ControlNode.reception _ _ _).validator.Itemised
    rw [ControlNode.reception_validator]
    exact h.itemised.validate_all _
  jitter := h.jitter
  explained := h.explained

omit [Scalar F] [CanBus β] in
/-- The end of a cycle. -/
theorem Balanced.account_end {k : Nat} (h : Balanced (k + 1) l) (cfg : RunConfig) (inWindow : Bool)
    (scheduledUs startUs jitterUs endUs : UInt64) :
    Balanced (k + 1)
      (l.accountEnd cfg inWindow (UInt64.ofNat k) scheduledUs startUs jitterUs endUs) := by
  unfold accountEnd
  dsimp only
  split
  · have hone (miss : Miss) : l.addMiss inWindow miss = l.addMisses inWindow [miss] :=
      foldl_add_miss l inWindow (fun _ => miss) [0]
    rw [hone]
    refine h.add_misses inWindow fun m hm => ?_
    rw [List.mem_singleton.mp hm]
  · exact h

/-- The figures add up after any number of cycles. -/
theorem balanced_after (bus : β) (k : Nat) :
    Balanced k (after (F := F) bus cfg clock hogWindow k) := by
  induction k with
  | zero => exact balanced_initial bus
  | succ k ih => exact ((ih.account_start ..).work ..).account_end ..

end RunState

/-! ## The report -/

namespace Report

open Std (ExtTreeMap)

/-- Inserting under different names, one after the other. -/
theorem get_foldl_insert {α β : Type} [DecidableEq α] {name : α → String}
    (hname : ∀ a b, name a = name b → a = b) (value : α → β) (items : List α)
    (m : ExtTreeMap String β) (a : α) :
    (items.foldl (fun m i => m.insert (name i) (value i)) m)[name a]? =
      if a ∈ items then some (value a) else m[name a]? := by
  induction items generalizing m with
  | nil => simp
  | cons first rest ih =>
      rw [List.foldl_cons, ih, ExtTreeMap.getElem?_insert]
      by_cases hmem : a ∈ rest
      · rw [if_pos hmem, if_pos (List.mem_cons_of_mem _ hmem)]
      · by_cases hfirst : a = first
        · subst hfirst
          rw [if_neg hmem, if_pos Std.ReflCmp.compare_self, if_pos List.mem_cons_self]
        · have hne : compare (name first) (name a) ≠ .eq := fun heq =>
            hfirst (hname _ _ (Std.LawfulEqCmp.eq_of_compare heq)).symm
          have hnot : a ∉ first :: rest := List.not_mem_cons_of_ne_of_not_mem hfirst hmem
          rw [if_neg hmem, if_neg hne, if_neg hnot]

theorem mem_foldl_insert {α β : Type} (name : α → String) (value : α → β) (items : List α)
    (m : ExtTreeMap String β) (key : String) :
    key ∈ items.foldl (fun m i => m.insert (name i) (value i)) m ↔
      (∃ i ∈ items, name i = key) ∨ key ∈ m := by
  induction items generalizing m with
  | nil => simp
  | cons first rest ih =>
      rw [List.foldl_cons, ih, ExtTreeMap.mem_insert, Std.LawfulEqCmp.compare_eq_iff_eq]
      simp only [List.mem_cons, exists_eq_or_imp]
      exact or_left_comm.trans or_assoc.symm

theorem by_reason_get (counts : Vector UInt32 8) (i : Fin 8) :
    (byReason counts)[Reject.name i]? = some (counts.get i) := by
  have hnames : ∀ i j : Fin 8, Reject.name i = Reject.name j → i = j := reject_name_injective
  have hget := get_foldl_insert hnames counts.get (List.finRange 8) ∅ i
  rwa [if_pos (List.mem_finRange i)] at hget

theorem mem_by_reason (counts : Vector UInt32 8) (name : String) :
    name ∈ byReason counts ↔ ∃ i : Fin 8, Reject.name i = name := by
  have hmem := mem_foldl_insert (fun i : Fin 8 => Reject.name i) counts.get (List.finRange 8) ∅ name
  simpa [byReason] using hmem

/-- The figures of a report add up, and the verdict of its gate can be read off them. Refusals are
added in `u32`, misses and samples in `u64`, so these sums are modulo `2 ^ 32` and `2 ^ 64`. -/
structure RunReport.AddsUp (r : RunReport) (gate : PositiveGate) : Prop where
  samples : r.jitterUs.samples = r.cycles
  reasons : ∀ name, name ∈ r.can.rejectedByReason ↔ ∃ i : Fin 8, Reject.name i = name
  refusals : r.can.rejected = ∑ i : Fin 8, (r.can.rejectedByReason[Reject.name i]?).getD 0
  explained : ∀ m ∈ r.missedDeadlines.explained, m.cycle < r.cycles
  complete : r.missedDeadlines.explainedTruncated = false →
    r.missedDeadlines.count = UInt64.ofNat r.missedDeadlines.explained.length
  truncated : r.missedDeadlines.explainedTruncated = true →
    r.missedDeadlines.explained.length = maxExplainedMisses
  misses : ∀ h, r.hog = some h →
    h.missesInsideWindow + h.missesOutsideWindow = r.missedDeadlines.count
  window : ∀ h, r.hog = some h →
    h.jitterInsideWindow.samples + h.jitterOutsideWindow.samples = r.jitterUs.samples ∧
      r.jitterUs.max.toNat = max h.jitterInsideWindow.max.toNat h.jitterOutsideWindow.max.toNat
  trip : r.watchdog.tripCycle.isSome = r.watchdog.tripped ∧
    r.watchdog.reactionTimeUs.isSome = r.watchdog.tripped
  tripCycle : ∀ cycle, r.watchdog.tripCycle = some cycle → cycle < r.cycles
  gate : r.gate.pass = true ↔
    r.missedDeadlines.count ≤ gate.missedDeadlinesMax ∧ r.jitterUs.p99 ≤ gate.p99JitterUsMax ∧
      r.can.rejected ≤ gate.rejectedFramesMax ∧
      (gate.watchdogMayTrip = true ∨ r.watchdog.tripped = false)

/-- The verdict on a control is no figure. -/
theorem RunReport.AddsUp.with_control {r : RunReport} {gate : PositiveGate} (h : r.AddsUp gate)
    (control : Option ControlReport) : { r with control := control : RunReport }.AddsUp gate :=
  ⟨h.samples, h.reasons, h.refusals, h.explained, h.complete, h.truncated, h.misses, h.window,
    h.trip, h.tripCycle, h.gate⟩

variable {F β : Type} [Scalar F] [CanBus β]

/-- A report made of a run adds up, on every bus, with every clock and whatever the scheduler
answers. -/
theorem report_adds_up (s : Surroundings) (bus : β) (cfg : RunConfig) (policy : ThreadPolicy)
    (contention : Option Contention) (runId : String) (mode : Mode) (periodUs : UInt64)
    (manifest : FrozenManifest) (manifestRef : ManifestRef) :
    (buildRunReport s runId (execute s bus cfg policy contention : RunResult F) mode periodUs
      manifest manifestRef).AddsUp manifest.verdicts.positiveGate := by
  have hbalanced : RunState.Balanced cfg.cycles.toNat
      (RunState.after bus cfg s.clock (contention.map Contention.toHogWindow) cfg.cycles.toNat :
        RunState F β) := RunState.balanced_after bus _
  have htracked : RunState.Tracked
      (RunState.after bus cfg s.clock (contention.map Contention.toHogWindow) cfg.cycles.toNat :
        RunState F β) := RunState.after_tracked bus _
  have hcycle {i : Nat} (hi : i < cfg.cycles.toNat) : UInt64.ofNat i < cfg.cycles := by
    have hlt := cfg.cycles.toNat_lt
    rw [UInt64.lt_iff_toNat_lt, UInt64.toNat_ofNat_of_lt' (by simp only [UInt64.size]; omega)]
    exact hi
  have hexplained : (buildRunReport s runId (execute s bus cfg policy contention : RunResult F) mode
      periodUs manifest manifestRef).missedDeadlines.explained.length =
        min maxExplainedMisses (run bus cfg s.clock
          (contention.map Contention.toHogWindow) : RunOutcome F).misses.length :=
    (List.length_map ..).trans (List.length_take ..)
  constructor
  case samples =>
    have hrecorded := run_recorded (F := F) cfg s.clock (contention.map Contention.toHogWindow) bus
    show (run bus cfg s.clock _ : RunOutcome F).jitter.count = cfg.cycles
    rw [hrecorded]
    show (JitterStats.recorded _).count = _
    rw [(JitterStats.recorded_summary _).count, List.length_map, List.length_range,
      UInt64.ofNat_toNat]
  case reasons => exact mem_by_reason _
  case refusals =>
    refine hbalanced.rejected.trans (hbalanced.itemised.trans ?_)
    refine Finset.sum_congr rfl fun i _ => ?_
    exact (congrArg (fun n => Option.getD n 0) (by_reason_get _ i)).symm
  case explained =>
    intro m hm
    obtain ⟨miss, hmiss, rfl⟩ := List.mem_map.mp hm
    obtain ⟨i, hi, hmisscycle⟩ := hbalanced.explained miss (List.mem_of_mem_take hmiss)
    show miss.cycle < cfg.cycles
    rw [hmisscycle]
    exact hcycle hi
  case complete =>
    intro hall
    refine hbalanced.tallied.missed.trans (congrArg UInt64.ofNat (Nat.le_antisymm ?_ ?_))
    · exact not_lt.mp (of_decide_eq_false hall)
    · rw [hexplained]
      exact min_le_right _ _
  case truncated =>
    intro hmore
    have hlt := hexplained.symm.trans_lt (of_decide_eq_true hmore)
    exact hexplained.trans (min_eq_left ((min_lt_iff.mp hlt).resolve_right (lt_irrefl _)).le)
  case misses =>
    intro h hh
    cases contention with
    | none => cases hh
    | some c =>
        obtain rfl := Option.some.inj hh
        exact hbalanced.tallied.split.trans hbalanced.tallied.missed.symm
  case window =>
    intro h hh
    cases contention with
    | none => cases hh
    | some c =>
        obtain rfl := Option.some.inj hh
        exact ⟨hbalanced.jitter.count, hbalanced.jitter.max⟩
  case trip =>
    refine ⟨?_, Option.isSome_map⟩
    exact htracked.tripCycle.trans (congrArg Option.isSome htracked.safeState.symm)
  case tripCycle =>
    intro cycle hfirst
    obtain ⟨i, hi, rfl, -⟩ := RunState.after_trip_first hfirst
    exact hcycle hi
  case gate =>
    refine (positive_gate_iff _ _).trans ?_
    have htripped (o : Option Watchdog.SafeState) : o = none ↔ o.isSome = false := by
      cases o <;> simp
    rw [htripped]
    exact Iff.rfl

end Report

end Fieldbus
