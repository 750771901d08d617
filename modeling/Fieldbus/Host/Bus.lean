import Mathlib.Data.Finset.Basic
import Fieldbus.Core.Arithmetic
import Fieldbus.Core.Validation

/-!
# The bus and its deterministic simulator

After `host/src/bus.rs`. `CanBus` is the transport the runner drives; `SimBus` is a simulated
sensor and first-order plant with a fault injector keyed on the cycle index. `SimBus.recvUntil` is
cut into the legitimate frame of a cycle (`SimBus.goodFrame`) and the frames injected after it
(`FaultSchedule.injected`).
-/

namespace Fieldbus

open J1939

/-- Why a send failed. -/
inductive BusError where
  | io (message : String)

/-- A CAN transport the runner can drive. -/
class CanBus (β : Type) where
  /-- Transmit one frame. -/
  send : β → Frame → β × Except BusError Unit
  /-- Collect the frames that arrive before a deadline. -/
  recvUntil : β → UInt64 → β × List Frame

/-- Which cycles get which faults, and when the sensor stops for good. -/
structure FaultSchedule where
  badCrc : Finset UInt64 := ∅
  duplicate : Finset UInt64 := ∅
  outOfOrder : Finset UInt64 := ∅
  outOfRange : Finset UInt64 := ∅
  badLength : Finset UInt64 := ∅
  dropped : Finset UInt64 := ∅
  freezeAt : Option UInt64 := none

namespace FaultSchedule

/-- A clean bus: no faults at all. -/
def clean : FaultSchedule := {}

/-- Whether the sensor emits nothing in a cycle: it is frozen, or the frame is dropped. -/
def silent (faults : FaultSchedule) (cycle : UInt64) : Bool :=
  faults.freezeAt.any (fun f => cycle ≥ f) || decide (cycle ∈ faults.dropped)

/-- The frames injected after the legitimate frame `good` of a cycle, which carries `seqNow` and
`value`. -/
def injected (faults : FaultSchedule) (cycle : UInt64) (good : Frame) (seqNow : UInt8)
    (value : Int16) : List Frame :=
  (if cycle ∈ faults.badCrc then [good.invertCrc] else []) ++
  (if cycle ∈ faults.duplicate then [good] else []) ++
  (if cycle ∈ faults.outOfOrder then [sensorFrame (seqNow + 5) value statusOk] else []) ++
  (if cycle ∈ faults.outOfRange then
    [sensorFrame (seqNow + 1) (valueMax + 1) statusOk] else []) ++
  (if cycle ∈ faults.badLength then
    [{ sensorFrame (seqNow + 1) value statusOk with dlc := 4 }] else [])

end FaultSchedule

/-- A deterministic in-process bus with a simulated sensor and plant. -/
structure SimBus (F : Type) where
  cycle : UInt64
  plant : F
  seq : UInt8
  rng : UInt64
  faults : FaultSchedule
  sent : UInt64

variable {F : Type} [Scalar F]

/-- Per-period gain of the simulated first-order plant. -/
def plantGain : F := Scalar.ofRat 0.05

namespace SimBus

/-- A bus seeded for reproducible measurement error, with the given faults. -/
def new (seed : UInt64) (faults : FaultSchedule) : SimBus F where
  cycle := 0
  plant := Scalar.ofRat 0
  seq := 0
  rng := seed ^^^ 0x9E3779B97F4A7C15
  faults := faults
  sent := 0

/-- The next state of the noise generator. -/
def nextRng (rng : UInt64) : UInt64 :=
  rng * 6364136223846793005 + 1442695040888963407

/-- The measurement error a generator state stands for. -/
def noiseOf (rng : UInt64) : F :=
  Scalar.ofRat (((rng >>> 33) % 5).toNat : ℚ) - Scalar.ofRat 2

/-- Deterministic measurement error, advancing the generator. -/
def noise (b : SimBus F) : SimBus F × F :=
  let rng := nextRng b.rng
  ({ b with rng := rng }, noiseOf rng)

/-- Transmit a command: it drives the plant if its length and CRC are right. -/
def send (b : SimBus F) (frame : Frame) : SimBus F × Except BusError Unit :=
  if frame.dlc = 8 ∧ frame.crc = crc8J1850 (frame.data.toList.take 7) then
    let u : F := Scalar.ofI16 (Payload.decode frame.data).value
    ({ b with plant := b.plant + plantGain * (u - b.plant), sent := b.sent + 1 }, .ok ())
  else (b, .ok ())

/-- The value the sensor reads from the plant with the given measurement error. -/
def reading (b : SimBus F) (noise : F) : Int16 :=
  Scalar.toI16 (b.plant + noise)

/-- The legitimate sensor frame the next receive emits when its cycle is not silent. -/
def goodFrame (b : SimBus F) : Frame :=
  sensorFrame b.seq (b.reading b.noise.2) statusOk

/-- The frames of this cycle; the deadline is unused because there is no wire to wait for. -/
def recvUntil (b : SimBus F) (_deadlineUs : UInt64) : SimBus F × List Frame :=
  let cycle := b.cycle
  let b := { b with cycle := b.cycle + 1 }
  if b.faults.silent cycle then (b, [])
  else
    -- a silent cycle above consumed neither noise nor a sequence number
    let (b, noise) := b.noise
    let value := b.reading noise
    let good := sensorFrame b.seq value statusOk
    let seqNow := b.seq
    ({ b with seq := b.seq + 1 }, good :: b.faults.injected cycle good seqNow value)

instance : CanBus (SimBus F) where
  send := send
  recvUntil := recvUntil

variable {b : SimBus F} {deadlineUs : UInt64}

/-- A silent cycle delivers nothing and advances only the cycle index. -/
theorem recv_silent (h : b.faults.silent b.cycle = true) :
    b.recvUntil deadlineUs = ({ b with cycle := b.cycle + 1 }, []) := by
  simp [recvUntil, h]

/-- Any other cycle delivers the legitimate frame and the injected ones, and advances the cycle
index, the generator and the sequence number. -/
theorem recv_emitted (h : b.faults.silent b.cycle = false) :
    b.recvUntil deadlineUs =
      ({ b with cycle := b.cycle + 1, rng := nextRng b.rng, seq := b.seq + 1 },
        b.goodFrame :: b.faults.injected b.cycle b.goodFrame b.seq (b.reading b.noise.2)) := by
  simp [recvUntil, h, goodFrame, noise, reading]

/-- A command built by `command_frame` reaches the plant as the value it was built from. -/
theorem send_command (seq : UInt8) (value : Int16) (status : UInt8) :
    b.send (commandFrame seq value status) =
      ({ b with
          plant := b.plant + plantGain * (Scalar.ofI16 value - b.plant), sent := b.sent + 1 },
        .ok ()) := by
  have hlength : (commandFrame seq value status).dlc = 8 := rfl
  have hcrc : (commandFrame seq value status).crc =
      crc8J1850 ((commandFrame seq value status).data.toList.take 7) := Payload.encode_crc _
  have hvalue : (Payload.decode (commandFrame seq value status).data).value = value := by
    simp [commandFrame]
  simp only [send, hlength, hcrc, hvalue, and_self, if_true]

end SimBus

end Fieldbus
