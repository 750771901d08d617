import Mathlib.Data.UInt
import Fieldbus.Library.Machine

/-!
# Identifiers, payloads and the frame validator

The J1939-style layer of the node, after `core/src/j1939.rs`: the 29-bit identifier, the 8-byte
payload with its CRC, and the validator that decides which sensor frames reach the controller.
Arithmetic is that of the release build, so the `u32` counters wrap.

`Validator.classify` is the source function cut at its two seams: the checks that read only the
frame (`Frame.checkLayout`), the sequence check (`checkSequence`) and the range check
(`checkRange`), in the source's order.
-/

namespace Fieldbus.J1939

/-- Priority field of the sensor and command identifiers. -/
def priority : UInt8 := 3
/-- Parameter group number of the sensor stream. -/
def pgnSensor : UInt32 := 0xFF00
/-- Parameter group number of the command stream. -/
def pgnCommand : UInt32 := 0xFF01
/-- Source address of the sensor node. -/
def saSensor : UInt8 := 0x80
/-- Source address of this controller. -/
def saController : UInt8 := 0x28
/-- Every frame on both streams carries this many payload bytes. -/
def payloadLen : UInt8 := 8
/-- Status byte of normal closed-loop operation. -/
def statusOk : UInt8 := 0x00
/-- Status byte of a command sent while a safe state is latched. -/
def statusSafe : UInt8 := 0x01
/-- Lower inclusive bound of the accepted sensor range. -/
def valueMin : Int16 := -10000
/-- Upper inclusive bound of the accepted sensor range. -/
def valueMax : Int16 := 10000

/-- A classic CAN frame with an extended identifier. -/
structure Frame where
  id : UInt32
  dlc : UInt8
  data : Vector UInt8 8
  deriving DecidableEq, Repr

/-- The decoded fields of a 29-bit identifier. -/
structure Id where
  priority : UInt8
  reserved : UInt8
  dataPage : UInt8
  pduFormat : UInt8
  pduSpecific : UInt8
  sourceAddress : UInt8
  deriving DecidableEq, Repr

namespace Id

/-- The identifier of a broadcast PGN sent from `sa`. -/
def fromPgn (priority : UInt8) (pgn : UInt32) (sa : UInt8) : Id where
  priority := priority &&& 0x07
  reserved := 0
  dataPage := ((pgn >>> 16) &&& 0x01).toUInt8
  pduFormat := ((pgn >>> 8) &&& 0xFF).toUInt8
  pduSpecific := (pgn &&& 0xFF).toUInt8
  sourceAddress := sa

/-- Pack the fields into a 29-bit identifier, each masked to its own width. -/
def pack (id : Id) : UInt32 :=
  ((id.priority.toUInt32 &&& 0x07) <<< 26) |||
    ((id.reserved.toUInt32 &&& 0x01) <<< 25) |||
    ((id.dataPage.toUInt32 &&& 0x01) <<< 24) |||
    (id.pduFormat.toUInt32 <<< 16) |||
    (id.pduSpecific.toUInt32 <<< 8) |||
    id.sourceAddress.toUInt32

/-- Unpack a 29-bit identifier; bits 29 and above are ignored. -/
def unpack (raw : UInt32) : Id where
  priority := ((raw >>> 26) &&& 0x07).toUInt8
  reserved := ((raw >>> 25) &&& 0x01).toUInt8
  dataPage := ((raw >>> 24) &&& 0x01).toUInt8
  pduFormat := ((raw >>> 16) &&& 0xFF).toUInt8
  pduSpecific := ((raw >>> 8) &&& 0xFF).toUInt8
  sourceAddress := (raw &&& 0xFF).toUInt8

/-- The parameter group number the identifier belongs to. -/
def pgn (id : Id) : UInt32 :=
  (id.dataPage.toUInt32 <<< 16) ||| (id.pduFormat.toUInt32 <<< 8) ||| id.pduSpecific.toUInt32

end Id

/-- One shift of the CRC register by the SAE J1850 polynomial. -/
def crcShift (crc : UInt8) : UInt8 :=
  if crc &&& 0x80 ≠ 0 then (crc <<< 1) ^^^ 0x1D else crc <<< 1

/-- The eight shifts that follow the exclusive or of one byte. -/
def crcByte (crc byte : UInt8) : UInt8 :=
  Nat.iterate crcShift 8 (crc ^^^ byte)

/-- CRC-8 with the SAE J1850 polynomial, initial value `0xFF`, no final exclusive or. -/
def crc8J1850 (bytes : List UInt8) : UInt8 :=
  bytes.foldl crcByte 0xFF

/-- The decoded payload of a sensor or command frame. -/
structure Payload where
  seq : UInt8
  value : Int16
  status : UInt8
  deriving DecidableEq, Repr

namespace Payload

/-- The low and high bytes of `i16::to_le_bytes`. -/
def toLeBytes (value : Int16) : UInt8 × UInt8 :=
  (value.toUInt16.toUInt8, (value.toUInt16 >>> 8).toUInt8)

/-- `i16::from_le_bytes`. -/
def fromLeBytes (low high : UInt8) : Int16 :=
  (low.toUInt16 ||| (high.toUInt16 <<< 8)).toInt16

/-- Encode the payload and append the CRC in byte 7; bytes 4 to 6 stay zero. -/
def encode (p : Payload) : Vector UInt8 8 :=
  let v := toLeBytes p.value
  let d : Vector UInt8 8 := #v[p.seq, v.1, v.2, p.status, 0, 0, 0, 0]
  -- the covered bytes 0 to 6 are final, so the zero in byte 7 does not matter
  d.set 7 (crc8J1850 (d.toList.take 7))

/-- Decode bytes 0 through 3. -/
def decode (d : Vector UInt8 8) : Payload where
  seq := d[0]
  value := fromLeBytes d[1] d[2]
  status := d[3]

variable (p : Payload)

@[simp] theorem encode_seq : (encode p)[0] = p.seq := rfl
@[simp] theorem encode_status : (encode p)[3] = p.status := rfl
@[simp] theorem encode_reserved_four : (encode p)[4] = 0 := rfl
@[simp] theorem encode_reserved_five : (encode p)[5] = 0 := rfl
@[simp] theorem encode_reserved_six : (encode p)[6] = 0 := rfl

/-- Byte 7 carries the CRC over bytes 0 through 6. -/
theorem encode_crc : (encode p)[7] = crc8J1850 ((encode p).toList.take 7) := rfl

end Payload

namespace Frame

/-- The byte that carries the CRC. -/
def crc (frame : Frame) : UInt8 := frame.data[7]

/-- The frame with its CRC byte inverted. -/
def invertCrc (frame : Frame) : Frame :=
  { frame with data := frame.data.set 7 (frame.data[7] ^^^ 0xFF) }

/-- The frame with the bits of a mask flipped in its CRC byte. -/
def flipCrc (frame : Frame) (mask : UInt8) : Frame :=
  { frame with data := frame.data.set 7 (frame.data[7] ^^^ mask) }

end Frame

/-- Why a frame was not accepted. -/
inductive Reject where
  | badLength
  | unknownPgn
  | unexpectedSource
  | badCrc
  | badReserved
  | duplicate
  | outOfOrder (expected got : UInt8)
  | outOfRange
  deriving DecidableEq, Repr

/-- Index of a reason in the counter array. -/
def Reject.index : Reject → Fin 8
  | .badLength => 0
  | .unknownPgn => 1
  | .unexpectedSource => 2
  | .badCrc => 3
  | .badReserved => 4
  | .duplicate => 5
  | .outOfOrder .. => 6
  | .outOfRange => 7

/-- The name of the reason with the given index. -/
def Reject.name : Nat → String
  | 0 => "bad_length"
  | 1 => "unknown_pgn"
  | 2 => "unexpected_source"
  | 3 => "bad_crc"
  | 4 => "bad_reserved"
  | 5 => "duplicate"
  | 6 => "out_of_order"
  | _ => "out_of_range"

/-- The checks that read only the frame: length, PGN, source, CRC, reserved bytes. -/
def Frame.checkLayout (frame : Frame) : Except Reject Payload :=
  if frame.dlc ≠ payloadLen then .error .badLength
  else if (Id.unpack frame.id).pgn ≠ pgnSensor then .error .unknownPgn
  else if (Id.unpack frame.id).sourceAddress ≠ saSensor then .error .unexpectedSource
  else if frame.data[7] ≠ crc8J1850 (frame.data.toList.take 7) then .error .badCrc
  else if frame.data[4] ≠ 0 ∨ frame.data[5] ≠ 0 ∨ frame.data[6] ≠ 0 then .error .badReserved
  else .ok (Payload.decode frame.data)

/-- The sequence check against the last accepted number; the first frame passes at any. -/
def checkSequence (lastSeq : Option UInt8) (seq : UInt8) : Except Reject Unit :=
  match lastSeq with
  | none => .ok ()
  | some last =>
      if seq = last then .error .duplicate
      else if seq ≠ last + 1 then .error (.outOfOrder (last + 1) seq)
      else .ok ()

/-- The range check on the decoded value. -/
def checkRange (value : Int16) : Except Reject Unit :=
  if value < valueMin ∨ value > valueMax then .error .outOfRange else .ok ()

/-- Accepts sensor frames and counts why the rest were refused. -/
structure Validator where
  lastSeq : Option UInt8
  accepted : UInt32
  rejected : UInt32
  byReason : Vector UInt32 8
  deriving DecidableEq, Repr

namespace Validator

/-- A validator that has not yet seen a frame. -/
def new : Validator := ⟨none, 0, 0, .replicate 8 0⟩

/-- The verdict on one frame; the counters are not touched. -/
def classify (v : Validator) (frame : Frame) : Except Reject Payload := do
  let p ← frame.checkLayout
  checkSequence v.lastSeq p.seq
  checkRange p.value
  return p

/-- The state after accepting a payload. -/
def accept (v : Validator) (p : Payload) : Validator :=
  { v with lastSeq := some p.seq, accepted := v.accepted + 1 }

/-- The state after refusing a frame: counters only, never the sequence position. -/
def refuse (v : Validator) (r : Reject) : Validator :=
  { v with
    rejected := v.rejected + 1
    byReason := v.byReason.set r.index (v.byReason[r.index] + 1) }

/-- Validate one frame against the sensor stream. -/
def validate (v : Validator) (frame : Frame) : Validator × Except Reject Payload :=
  match v.classify frame with
  | .ok p => (v.accept p, .ok p)
  | .error r => (v.refuse r, .error r)

/-- Forget the sequence position without clearing the counters. -/
def resetSequence (v : Validator) : Validator :=
  { v with lastSeq := none }

end Validator

/-- A frame of the sensor stream. -/
def sensorFrame (seq : UInt8) (value : Int16) (status : UInt8) : Frame where
  id := (Id.fromPgn priority pgnSensor saSensor).pack
  dlc := payloadLen
  data := Payload.encode ⟨seq, value, status⟩

/-- A command frame from this controller. -/
def commandFrame (seq : UInt8) (value : Int16) (status : UInt8) : Frame where
  id := (Id.fromPgn priority pgnCommand saController).pack
  dlc := payloadLen
  data := Payload.encode ⟨seq, value, status⟩

end Fieldbus.J1939
