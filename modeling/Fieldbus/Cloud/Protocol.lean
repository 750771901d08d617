import Mathlib.Data.UInt

/-!
# The device-to-cloud protocol

After the types of `cloud/src/lib.rs`, and its signature scheme. An `f64` is its 64 bits with the
two operations the store uses, `is_finite` and `==`; the latter makes `==` on readings, which is
not equality of the bits. The digest and the JSON functions come from third-party crates and are
the parameter `Crates`.
-/

namespace Fieldbus.Cloud

def protocolVersion : UInt8 := 1
def maxBatch : Nat := 64
def maxRing : Nat := 256
def maxStoredReadings : Nat := 100000

/-- A double-precision number by its bits. -/
structure F64 where
  bits : UInt64
  deriving Repr

namespace F64

/-- The exponent field. -/
def exponent (x : F64) : UInt64 := (x.bits >>> 52) &&& 0x7FF

/-- The number is neither infinite nor a NaN. -/
def isFinite (x : F64) : Bool := x.exponent != 0x7FF

/-- The number is a NaN. -/
def isNan (x : F64) : Bool := x.exponent == 0x7FF && (x.bits &&& 0xFFFFFFFFFFFFF) != 0

/-- The number is zero of either sign. -/
def isZero (x : F64) : Bool := (x.bits &&& 0x7FFFFFFFFFFFFFFF) == 0

/-- `==` on `f64`: a NaN equals nothing, the two zeros are equal, and otherwise bits decide. -/
instance : BEq F64 where
  beq x y := !x.isNan && !y.isNan && (x.bits == y.bits || (x.isZero && y.isZero))

end F64

/-- One measurement, identified by its device, boot session and sequence number. -/
structure Reading where
  deviceId : String
  firmwareVersion : String
  sequence : UInt64
  deviceTimestampMs : Int64
  bootCounter : UInt64
  value : F64
  quality : String
  deriving Repr

/-- The derived `==`: field by field. -/
instance : BEq Reading where
  beq a b := a.deviceId == b.deviceId && a.firmwareVersion == b.firmwareVersion &&
    a.sequence == b.sequence && a.deviceTimestampMs == b.deviceTimestampMs &&
    a.bootCounter == b.bootCounter && a.value == b.value && a.quality == b.quality

/-- A reading as it is submitted, with its signature. -/
structure Envelope where
  protocolVersion : UInt8
  reading : Reading
  signature : String
  deriving Repr

/-- What the store keeps about a device. -/
structure DeviceRecord where
  deviceId : String
  credentialVersion : UInt64
  secretHex : String
  firmwareVersion : String
  configVersion : UInt64
  lastSeenMs : Option Int64
  lastSequence : Option UInt64
  bootCounter : Option UInt64
  deriving DecidableEq, Repr

structure FirmwareMetadata where
  version : String
  sha256 : String
  minBootloader : String
  rollbackVersion : Option String
  deriving DecidableEq, Repr

structure ConfigMetadata where
  version : UInt64
  samplePeriodMs : UInt64
  staleAfterMs : UInt64
  deriving DecidableEq, Repr

/-- One line of the event log. -/
inductive Event where
  | registered (d : DeviceRecord)
  | credentialRotated (d : DeviceRecord)
  | readingAccepted (envelope : Envelope) (receivedMs : Int64)
  | firmwarePublished (m : FirmwareMetadata)
  | configPublished (m : ConfigMetadata)
  deriving Repr

inductive Error where
  | io (message : String)
  | invalid (message : String)
  | unauthorized
  | notFound
  | conflict
  deriving DecidableEq, Repr

/-- The functions taken from the crates `sha2` and `serde_json`. -/
structure Crates where
  /-- `Sha256::digest`. -/
  sha256 : List UInt8 → List UInt8
  /-- `serde_json::to_vec` on a reading. -/
  toVec : Reading → Except String (List UInt8)
  /-- `serde_json::to_string` on an event. -/
  toString : Event → Except String String
  /-- `serde_json::from_str` to an event. -/
  fromStr : String → Except String Event

/-! ## Hexadecimal -/

/-- A hexadecimal digit of a value below sixteen. -/
def hexDigit (value : UInt8) : Char :=
  if value < 10 then Char.ofNat (48 + value.toNat) else Char.ofNat (87 + value.toNat)

/-- Two lower-case digits for each byte. -/
def hex (bytes : List UInt8) : String :=
  String.ofList (bytes.flatMap fun (b : UInt8) => [hexDigit (b >>> 4), hexDigit (b &&& 0xF)])

/-- `char::to_digit(16)`. -/
def toDigit (c : Char) : Option Nat :=
  if '0' ≤ c ∧ c ≤ '9' then some (c.toNat - 48)
  else if 'a' ≤ c ∧ c ≤ 'f' then some (c.toNat - 87)
  else if 'A' ≤ c ∧ c ≤ 'F' then some (c.toNat - 55)
  else none

/-- The digits after the sign, with the overflow check of `u8`. -/
def digitsValue (digits : List Char) : Option UInt8 :=
  (digits.foldlM (fun (total : Nat) c => do
    let digit ← toDigit c
    if total * 16 + digit < 256 then some (total * 16 + digit) else none) 0).map UInt8.ofNat

/-- `u8::from_str_radix(_, 16)`: digits behind an optional plus sign. -/
def fromStrRadix (text : List Char) : Option UInt8 :=
  match text with
  | [] => none
  | ['+'] => none
  | '+' :: digits => digitsValue digits
  | digits => digitsValue digits

/-- The two-character slices of an even-length text. -/
def pairs : List Char → List (List Char)
  | a :: b :: rest => [a, b] :: pairs rest
  | _ => []

/-- Decode a secret. -/
def unhex (s : String) : Except Error (List UInt8) :=
  if s.utf8ByteSize % 2 ≠ 0 then .error (.invalid "secret must be even-length hex")
  else if ¬ s.toList.all (fun c => decide (c.toNat < 128)) then
    .error (.invalid "secret must contain ASCII hex")
  else (pairs s.toList).mapM fun pair =>
    match fromStrRadix pair with
    | some b => .ok b
    | none => .error (.invalid "secret is not hex")

/-! ## Signatures -/

/-- `Vec::resize(length, 0)`. -/
def resize (bytes : List UInt8) (length : Nat) : List UInt8 :=
  bytes.take length ++ List.replicate (length - bytes.length) 0

/-- HMAC-SHA256 of the JSON text of a reading. -/
def sign (c : Crates) (secretHex : String) (reading : Reading) : Except Error String := do
  let key ← unhex secretHex
  let key := if key.length > 64 then c.sha256 key else key
  let key := resize key 64
  let inner := key.map (0x36 ^^^ ·)
  let outer := key.map (0x5c ^^^ ·)
  let body ← (c.toVec reading).mapError .invalid
  -- the two nested digests of HMAC, over the reading without its signature
  let innerSum := c.sha256 (inner ++ body)
  return hex (c.sha256 (outer ++ innerSum))

/-- A reading in its envelope. -/
def signed (c : Crates) (secretHex : String) (reading : Reading) : Except Error Envelope := do
  let signature ← sign c secretHex reading
  return { protocolVersion := protocolVersion, signature := signature, reading := reading }

/-- A signed envelope carries the current protocol version, the reading and its signature. -/
theorem signed_ok_iff {c : Crates} {secretHex : String} {reading : Reading} {e : Envelope} :
    signed c secretHex reading = .ok e ↔ e.protocolVersion = protocolVersion ∧
      e.reading = reading ∧ sign c secretHex reading = .ok e.signature := by
  obtain ⟨version, content, signature⟩ := e
  rw [signed]
  cases sign c secretHex reading with
  | error error => simp [bind, Except.bind]
  | ok signature' =>
      simp only [bind, Except.bind, pure, Except.pure, Except.ok.injEq, Envelope.mk.injEq,
        eq_comm]

end Fieldbus.Cloud
