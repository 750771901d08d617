import Fieldbus.Core.Noninterference

/-!
# The browser demo

After `wasm/src/lib.rs`: the node is fed one sensor frame a cycle for at most 2000 cycles, and from
the fault cycle on none, or at the fault cycle a corrupted copy besides. How `{:.3}` prints an
actuator value is a parameter (`fixed`).
-/

namespace Fieldbus.Demo

open J1939

def periodUs : UInt64 := 10000

/-- `u32::clamp`. -/
def clamp (value low high : UInt32) : UInt32 :=
  if value < low then low else if high < value then high else value

/-- The sensor frame of a cycle. -/
def frame (cycle : UInt32) : Frame :=
  sensorFrame cycle.toUInt8 ((cycle * 37 % 1200).toInt32 - 600).toInt16 statusOk

def corruptCopy (frame : Frame) : Frame := frame.flipCrc 0x01

/-- What the node is fed in a cycle. -/
def received (mode : String) (faultCycle cycle : UInt32) : List Frame :=
  if mode = "sensor_stale" ∧ cycle ≥ faultCycle then []
  else if mode = "bad_crc" ∧ cycle = faultCycle then [frame cycle, corruptCopy (frame cycle)]
  else [frame cycle]

structure Sample (F : Type) where
  cycle : UInt32
  actuator : F
  accepted : UInt32
  rejected : UInt32
  safe : Bool
  reactionUs : UInt64

structure Summary where
  accepted : UInt32
  rejected : UInt32
  safeLatched : Bool
  safeCycle : Option UInt32
  reactionUs : UInt64

/-- What the page is told. -/
structure Result (F : Type) where
  mode : String
  cycles : UInt32
  faultCycle : UInt32
  samples : List (Sample F)
  summary : Summary

variable {F : Type} [Scalar F]

/-- How far the loop over the cycles has come. -/
structure Progress (F : Type) where
  node : ControlNode F
  lastReactionUs : UInt64
  samples : List (Sample F)

def Progress.start : Progress F := ⟨.withWatchdogTimeout 0 watchdogTimeoutUs, 0, []⟩

/-- What the page is told of a cycle. -/
def sample (cycle : UInt32) (output : StepOutput F) : Sample F where
  cycle := cycle
  actuator := output.actuator
  accepted := output.accepted
  rejected := output.rejected
  safe := output.safeState.isSome
  reactionUs := output.safeState.elim 0 Watchdog.SafeState.timeSinceLastAcceptedUs

/-- One round of the loop. -/
def Progress.next (mode : String) (faultCycle : UInt32) (p : Progress F) (cycle : UInt32) :
    Progress F :=
  let nowUs := cycle.toUInt64 * periodUs
  let (node, output) := p.node.step nowUs (received mode faultCycle cycle)
  let s := sample cycle output
  { node := node
    lastReactionUs := if s.safe then s.reactionUs else p.lastReactionUs
    samples := p.samples ++ [s] }

/-- The loop after the given number of cycles. -/
def Progress.after (mode : String) (faultCycle : UInt32) : Nat → Progress F
  | 0 => .start
  | n + 1 => (after mode faultCycle n).next mode faultCycle (UInt32.ofNat n)

/-- What the page is told of the whole run, with a last check after it. -/
def Progress.summary (p : Progress F) (cycles : UInt32) : Summary :=
  let last := (p.node.step (cycles.toUInt64 * periodUs) []).2
  { accepted := last.accepted
    rejected := last.rejected
    safeLatched := last.safeState.isSome
    safeCycle := last.safeState.map fun state =>
      match state.reason with
      | .sensorStale _ trippedAtUs _ => (trippedAtUs / periodUs).toUInt32
    reactionUs := last.safeState.elim p.lastReactionUs
      Watchdog.SafeState.timeSinceLastAcceptedUs }

variable (F)

/-- The part of `run_demo` before the text. -/
def run (mode : String) (requestedCycles requestedFaultCycle : UInt32) : Result F :=
  let cycles := clamp requestedCycles 50 2000
  let faultCycle := min requestedFaultCycle (cycles - 1)
  let p : Progress F := .after mode faultCycle cycles.toNat
  { mode := if mode = "bad_crc" ∨ mode = "sensor_stale" then mode else "normal"
    cycles := cycles
    faultCycle := faultCycle
    samples := p.samples
    summary := p.summary cycles }

variable {F}

/-! ## The text -/

/-- One member of an object, after the first. -/
def member (name value : String) : String := ",\"" ++ name ++ "\":" ++ value

def Sample.text (fixed : F → String) (s : Sample F) : String :=
  "\x7b\"cycle\":" ++ toString s.cycle.toNat ++ member "actuator" (fixed s.actuator) ++
    member "accepted" (toString s.accepted.toNat) ++
    member "rejected" (toString s.rejected.toNat) ++ member "safe" (toString s.safe) ++
    member "reaction_us" (toString s.reactionUs.toNat) ++ "\x7d"

def Summary.text (s : Summary) : String :=
  "\x7b\"accepted\":" ++ toString s.accepted.toNat ++
    member "rejected" (toString s.rejected.toNat) ++
    member "safe_latched" (toString s.safeLatched) ++
    member "safe_cycle" (s.safeCycle.elim "null" fun cycle => toString cycle.toNat) ++
    member "reaction_us" (toString s.reactionUs.toNat) ++ "\x7d"

def Result.text (fixed : F → String) (r : Result F) : String :=
  "\x7b\"mode\":\"" ++ r.mode ++ "\"" ++ member "period_us" (toString periodUs.toNat) ++
    member "timeout_us" (toString watchdogTimeoutUs.toNat) ++
    member "cycles" (toString r.cycles.toNat) ++
    member "fault_cycle" (toString r.faultCycle.toNat) ++
    member "samples" ("[" ++ ",".intercalate (r.samples.map (Sample.text fixed)) ++ "]") ++
    member "summary" r.summary.text ++ "\x7d"

def runDemo (fixed : F → String) (mode : String) (requestedCycles requestedFaultCycle : UInt32) :
    String :=
  (run F mode requestedCycles requestedFaultCycle).text fixed

/-! ## The frames -/

/-- A residue modulo 1200, less 600, is a value in range. -/
theorem value_in_range {x : UInt32} (hx : x.toNat < 1200) :
    checkRange (x.toInt32 - 600).toInt16 = .ok () := by
  have hx32 : x.toInt32.toInt = x.toNat := by
    show x.toBitVec.toInt = x.toNat
    rw [BitVec.toInt_eq_toNat_of_lt, UInt32.toNat_toBitVec]
    rw [UInt32.toNat_toBitVec]
    omega
  have hvalue : (x.toInt32 - 600).toInt16.toInt = x.toNat - 600 := by
    have h600 : (600 : Int32).toInt = 600 := rfl
    rw [Int32.toInt_toInt16, Int32.toInt_sub, hx32, h600]
    simp only [Int.bmod]
    omega
  have hlow : valueMin.toInt = -10000 := rfl
  have hhigh : valueMax.toInt = 10000 := rfl
  rw [check_range_ok_iff, Int16.le_iff_toInt_le, Int16.le_iff_toInt_le, hvalue]
  omega

/-- What the frame of a cycle says. -/
def payload (cycle : UInt32) : Payload :=
  ⟨cycle.toUInt8, ((cycle * 37 % 1200).toInt32 - 600).toInt16, statusOk⟩

/-- The cycle is not one of silence. -/
def Speaks (mode : String) (faultCycle cycle : UInt32) : Prop :=
  ¬ (mode = "sensor_stale" ∧ cycle ≥ faultCycle)

variable {mode : String} {faultCycle cycle : UInt32}

/-- The frame of a cycle is accepted by a validator that has come as far, and its corrupted copy is
refused. -/
theorem received_accepted (h : Speaks mode faultCycle cycle) {v : Validator}
    (hseq : ∀ last ∈ v.lastSeq, cycle.toUInt8 = last + 1) :
    v.acceptedFrames (received mode faultCycle cycle) = [frame cycle] ∧
      v.acceptedPayloads (received mode faultCycle cycle) = [payload cycle] ∧
      v.validateAll (received mode faultCycle cycle) =
        if mode = "bad_crc" ∧ cycle = faultCycle then (v.accept (payload cycle)).refuse .badCrc
        else v.accept (payload cycle) := by
  have hlayout : (frame cycle).checkLayout = .ok (payload cycle) := sensor_frame_layout ..
  have hok : v.classify (frame cycle) = .ok (payload cycle) := by
    refine (Validator.classify_ok_iff _ _ _).mpr ⟨hlayout, (check_sequence_ok_iff _ _).mpr hseq, ?_⟩
    refine value_in_range ?_
    rw [UInt32.toNat_mod]
    exact Nat.mod_lt _ (by decide)
  have hcorrupt (w : Validator) : w.classify (corruptCopy (frame cycle)) = .error .badCrc :=
    Validator.classify_layout_error (flipped_crc_layout hlayout (by decide))
  rw [received, if_neg h]
  split
  · rw [Validator.accepted_frames_ok hok, Validator.accepted_frames_error (hcorrupt _),
      Validator.accepted_payloads_ok hok, Validator.accepted_payloads_error (hcorrupt _),
      Validator.validate_all_ok hok, Validator.validate_all_error (hcorrupt _)]
    exact ⟨rfl, rfl, rfl⟩
  · rw [Validator.accepted_frames_ok hok, Validator.accepted_payloads_ok hok,
      Validator.validate_all_ok hok]
    exact ⟨rfl, rfl, rfl⟩

/-! ## The node -/

/-- The start of a cycle. -/
def micros (k : Nat) : UInt64 := UInt64.ofNat (k * 10000)

theorem micros_toNat {k : Nat} (hk : k ≤ 2000) : (micros k).toNat = k * 10000 :=
  UInt64.toNat_ofNat_of_lt' (by simp only [UInt64.size]; omega)

/-- A check trips nine cycles after the last frame. -/
theorem check_micros {last k : Nat} (hlast : last ≤ 2000) (hk : k ≤ 2000) :
    Watchdog.check ⟨watchdogTimeoutUs, micros last, none⟩ (micros k) =
      if last + 8 < k then
        (⟨watchdogTimeoutUs, micros last,
            some ⟨.sensorStale (micros last) (micros k) watchdogTimeoutUs⟩⟩,
          some ⟨.sensorStale (micros last) (micros k) watchdogTimeoutUs⟩)
      else (⟨watchdogTimeoutUs, micros last, none⟩, none) := by
  have htimeout : watchdogTimeoutUs.toNat = 80000 := rfl
  have hlate : (micros last).toNat + watchdogTimeoutUs.toNat < (micros k).toNat ↔ last + 8 < k := by
    rw [micros_toNat hlast, micros_toNat hk, htimeout]
    omega
  rw [Watchdog.check_unlatched (by rw [micros_toNat hlast, htimeout]; omega)]
  simp only [hlate]

/-- A node that has heard the frames of the first cycles, and nothing after them. -/
structure Heard (heard : Nat) (rejected : UInt32) (latched : Option Watchdog.SafeState)
    (n : ControlNode F) : Prop where
  lastSeq : ∀ last ∈ n.validator.lastSeq, UInt8.ofNat heard = last + 1
  accepted : n.validator.accepted = UInt32.ofNat heard
  rejected : n.validator.rejected = rejected
  watchdog : n.watchdog = ⟨watchdogTimeoutUs, micros (heard - 1), latched⟩

variable {n : ControlNode F} {heard k : Nat} {rejected : UInt32}

/-- A cycle with a frame. -/
theorem Heard.hears (h : Heard k rejected none n) (hk : k ≤ 2000)
    (hspeaks : Speaks mode faultCycle (UInt32.ofNat k)) :
    Heard (k + 1) (rejected + if mode = "bad_crc" ∧ UInt32.ofNat k = faultCycle then 1 else 0)
      none (n.step (micros k) (received mode faultCycle (UInt32.ofNat k))).1 := by
  have hbyte : (UInt32.ofNat k).toUInt8 = UInt8.ofNat k := UInt32.toUInt8_ofNat' ..
  obtain ⟨-, hpayloads, hvalidate⟩ := received_accepted hspeaks (hbyte ▸ h.lastSeq)
  have hvalidator : (n.step (micros k) (received mode faultCycle (UInt32.ofNat k))).1.validator =
      n.validator.validateAll (received mode faultCycle (UInt32.ofNat k)) :=
    ControlNode.reception_validator ..
  have hle : micros (k - 1) ≤ micros k := by
    rw [UInt64.le_iff_toNat_le, micros_toNat (by omega), micros_toNat hk]
    omega
  refine ⟨?_, ?_, ?_, ?_⟩
  · have hlast : (n.validator.validateAll
        (received mode faultCycle (UInt32.ofNat k))).lastSeq = some (UInt8.ofNat k) := by
      rw [hvalidate, ← hbyte]
      split <;> rfl
    rw [hvalidator, hlast]
    rintro _ ⟨⟩
    exact UInt8.ofNat_add k 1
  · have haccepted : (n.validator.validateAll
        (received mode faultCycle (UInt32.ofNat k))).accepted = n.validator.accepted + 1 := by
      rw [hvalidate]
      split <;> rfl
    rw [hvalidator, haccepted, h.accepted]
    exact (UInt32.ofNat_add k 1).symm
  · rw [hvalidator, hvalidate, ← h.rejected]
    split
    · rfl
    · exact (UInt32.add_zero _).symm
  · have hcheck := check_micros hk hk
    rw [if_neg (by omega)] at hcheck
    rw [ControlNode.step_watchdog, ControlNode.reception_watchdog,
      if_neg (by rw [hpayloads]; exact List.cons_ne_nil _ _), h.watchdog, Watchdog.feed_eq hle,
      hcheck]
    rfl

/-- The safe state of a node that has heard the frames of the first cycles only. -/
def stale (heard k : Nat) : Watchdog.SafeState :=
  ⟨.sensorStale (micros (heard - 1)) (micros k) watchdogTimeoutUs⟩

/-- A cycle without a frame. -/
theorem Heard.waits {latched : Option Watchdog.SafeState} (h : Heard heard rejected latched n)
    (hheard : heard ≤ 2000) (hk : k ≤ 2000) :
    Heard heard rejected (latched.or (if heard - 1 + 8 < k then some (stale heard k) else none))
      (n.step (micros k) []).1 := by
  refine ⟨h.lastSeq, h.accepted, h.rejected, ?_⟩
  rw [ControlNode.step_watchdog, (ControlNode.silent_reception rfl).1, h.watchdog]
  cases latched with
  | none =>
      rw [check_micros (by omega) hk, Option.none_or]
      split <;> rfl
  | some s => rw [Watchdog.check_latched rfl, Option.some_or]

/-! ## The cycles -/

/-- How many of the first cycles the node has heard. -/
def heardBy (mode : String) (faultCycle : UInt32) (k : Nat) : Nat :=
  if mode = "sensor_stale" then min k faultCycle.toNat else k

/-- The cycle in which a silent sensor is noticed. -/
def tripCycle (faultCycle : UInt32) : Nat := max faultCycle.toNat 1 + 8

/-- What the node has done in a cycle. -/
def output (mode : String) (faultCycle : UInt32) (k : Nat) : StepOutput F :=
  ((Progress.after mode faultCycle k).node.step (micros k)
    (received mode faultCycle (UInt32.ofNat k))).2

theorem heard_le (hk : k ≤ 2000) : heardBy mode faultCycle k ≤ 2000 := by
  unfold heardBy
  split <;> omega

end Fieldbus.Demo
