import Fieldbus.Cloud.Protocol
import Fieldbus.Library.NestedMap
import Fieldbus.Library.Utf8

/-!
# The store and its event log

After `Store` in `cloud/src/lib.rs`. `Store` is the in-memory part and `Server` adds the bytes of
the log file. What the file system does to one append is the parameter `Write`: the file cannot be
opened, or any prefix of the line and its line feed is written before an error.
-/

namespace Fieldbus.Cloud

open Std (ExtTreeMap)

/-- Boot counter and sequence number, in this order. -/
abbrev SessionKey := UInt64 × UInt64

/-- The order of tuples. -/
def sessionOrder : SessionKey → SessionKey → Ordering :=
  compareLex (compareOn Prod.fst) (compareOn Prod.snd)

instance : Std.TransCmp sessionOrder :=
  inferInstanceAs (Std.TransCmp (compareLex (compareOn Prod.fst) (compareOn Prod.snd)))

instance : Std.LawfulEqCmp sessionOrder where
  eq_of_compare {a b} h := by
    simp only [sessionOrder, compareLex, compareOn, Ordering.then_eq_eq] at h
    exact Prod.ext (Std.LawfulEqCmp.eq_of_compare h.1) (Std.LawfulEqCmp.eq_of_compare h.2)

/-- The session key of a reading. -/
def Reading.key (r : Reading) : SessionKey := (r.bootCounter, r.sequence)

/-- The in-memory maps of the store. -/
structure Store where
  devices : ExtTreeMap String DeviceRecord
  readings : NestedMap String SessionKey Envelope compare sessionOrder
  firmware : ExtTreeMap String FirmwareMetadata
  config : ExtTreeMap UInt64 ConfigMetadata

namespace Store

/-- A store without entries. -/
def empty : Store := ⟨∅, ∅, ∅, ∅⟩

/-- Apply an event to the maps. -/
def apply (s : Store) : Event → Store
  | .registered d | .credentialRotated d =>
      { s with devices := s.devices.insert d.deviceId d }
  | .readingAccepted e receivedMs =>
      let deviceId := e.reading.deviceId
      { s with
        readings := s.readings.put deviceId e.reading.key e
        -- only the figures of a registered device move; replay meets no other
        devices := match s.devices[deviceId]? with
          | some d => s.devices.insert deviceId { d with
              lastSeenMs := some receivedMs
              lastSequence := some e.reading.sequence
              bootCounter := some e.reading.bootCounter }
          | none => s.devices }
  | .firmwarePublished m => { s with firmware := s.firmware.insert m.version m }
  | .configPublished m => { s with config := s.config.insert m.version m }

/-- The stored reading with the identity of the given one. -/
def stored (s : Store) (r : Reading) : Option Envelope := s.readings.find r.deviceId r.key

/-- The number of stored readings. -/
def readingCount (s : Store) : Nat := s.readings.count

/-- `char::is_whitespace`. -/
def isWhitespace (c : Char) : Bool :=
  let code := c.toNat
  (9 ≤ code && code ≤ 13) || code == 0x20 || code == 0x85 || code == 0xA0 || code == 0x1680 ||
    (0x2000 ≤ code && code ≤ 0x200A) || code == 0x2028 || code == 0x2029 || code == 0x202F ||
    code == 0x205F || code == 0x3000

/-- `trim().is_empty()`. -/
def isBlank (text : String) : Bool := text.toList.all isWhitespace

variable (c : Crates)

/-- Replay one line of the log. -/
def replayLine (s : Store) (line : List UInt8) : Except Error Store :=
  match Utf8.decode line with
  | none => .error (.io "stream did not contain valid UTF-8")
  | some text =>
      if isBlank text then .ok s
      else match c.fromStr text with
        | .error e => .error (.invalid e)
        | .ok event => .ok (s.apply event)

/-- The checks of `ingest` on one envelope, after those before it left `unseen` to be stored. -/
def review (s : Store) (unseen : List Envelope) (e : Envelope) : Except Error (List Envelope) :=
  if e.protocolVersion ≠ Cloud.protocolVersion then
    .error (.invalid "unsupported protocol version")
  else match s.devices[e.reading.deviceId]? with
    | none => .error .unauthorized
    | some d => match sign c d.secretHex e.reading with
      | .error error => .error error
      | .ok signature =>
          if signature ≠ e.signature then .error .unauthorized
          else if !e.reading.value.isFinite || e.reading.quality.isEmpty then
            .error (.invalid "invalid reading")
          else
            let pending := unseen.find? fun prior =>
              prior.reading.deviceId == e.reading.deviceId && prior.reading.key == e.reading.key
            -- a stored reading is looked for first, then one earlier in this batch
            match (s.stored e.reading).or pending with
            | some prior => if prior.reading != e.reading then .error .conflict else .ok unseen
            | none => .ok (unseen ++ [e])

end Store

/-- Open a log file: replay it line by line on an empty store. -/
def Store.open (c : Crates) (log : List UInt8) : Except Error Store :=
  (ByteLines.lines log).foldlM (Store.replayLine c) .empty

/-- What the file system does to one append. -/
inductive Write where
  /-- The line and its line feed are written and synced. -/
  | complete
  /-- The directory or the file cannot be opened. -/
  | openFailed (message : String)
  /-- The write or the sync fails after this many bytes of the line and its line feed. -/
  | cut (written : Nat) (message : String)
  deriving DecidableEq, Repr

/-- The bytes of a line that reach the file. -/
def Write.bytes (line : List UInt8) : Write → List UInt8
  | .complete => line
  | .openFailed _ => []
  | .cut written _ => line.take written

/-- A running store process and its log file. -/
structure Server where
  store : Store
  log : List UInt8

namespace Server

/-- A process on an empty log. -/
def fresh : Server := ⟨.empty, []⟩

variable (c : Crates)

/-- The bytes of one log line. -/
def lineBytes (line : String) : List UInt8 := Utf8.encode line ++ [ByteLines.newline]

/-- Append an event to the log and, once it is durable, apply it. -/
def append (s : Server) (event : Event) : Write → Server × Except Error Unit
  | .openFailed message => (s, .error (.io message))
  | .complete => match c.toString event with
      | .error e => (s, .error (.invalid e))
      | .ok line => (⟨s.store.apply event, s.log ++ lineBytes line⟩, .ok ())
  | .cut written message => match c.toString event with
      | .error e => (s, .error (.invalid e))
      | .ok line =>
          ({ s with log := s.log ++ (lineBytes line).take written }, .error (.io message))

/-- Register a device. -/
def register (s : Server) (deviceId secretHex firmwareVersion : String) (w : Write) :
    Server × Except Error DeviceRecord :=
  if s.store.devices.contains deviceId then (s, .error .conflict)
  else match unhex secretHex with
    | .error e => (s, .error e)
    | .ok _ =>
        let d : DeviceRecord := ⟨deviceId, 1, secretHex, firmwareVersion, 1, none, none, none⟩
        match s.append c (.registered d) w with
        | (s, .error e) => (s, .error e)
        | (s, .ok ()) => (s, .ok d)

/-- Replace the secret of a device. -/
def rotateCredential (s : Server) (id secretHex : String) (w : Write) :
    Server × Except Error DeviceRecord :=
  match s.store.devices[id]? with
  | none => (s, .error .notFound)
  | some d => match unhex secretHex with
    | .error e => (s, .error e)
    | .ok _ =>
        let d := { d with credentialVersion := d.credentialVersion + 1, secretHex := secretHex }
        match s.append c (.credentialRotated d) w with
        | (s, .error e) => (s, .error e)
        | (s, .ok ()) => (s, .ok d)

/-- Append the unseen envelopes one by one, counting; the `k`-th append meets the `k`-th write. -/
def accept (receivedMs : Int64) (w : Nat → Write) :
    Server → List Envelope → Nat → Server × Except Error Nat
  | s, [], accepted => (s, .ok accepted)
  | s, e :: rest, accepted =>
      match s.append c (.readingAccepted e receivedMs) (w accepted) with
      | (s, .error error) => (s, .error error)
      | (s, .ok ()) => accept receivedMs w s rest (accepted + 1)

/-- Check a whole batch, then store what is new in it. -/
def ingest (s : Server) (batch : List Envelope) (receivedMs : Int64) (w : Nat → Write) :
    Server × Except Error Nat :=
  if batch.isEmpty ∨ batch.length > maxBatch then
    (s, .error (.invalid "batch must contain 1..64 readings"))
  else match batch.foldlM (s.store.review c) [] with
    | .error e => (s, .error e)
    | .ok unseen =>
        -- nothing has been written up to here, so a refusal leaves store and log alone
        if s.store.readingCount + unseen.length > maxStoredReadings then (s, .error .conflict)
        else accept c receivedMs w s unseen 0

/-- Publish firmware metadata. -/
def publishFirmware (s : Server) (m : FirmwareMetadata) (w : Write) : Server × Except Error Unit :=
  if m.version.isEmpty ∨ m.sha256.utf8ByteSize ≠ 64 then
    (s, .error (.invalid "invalid firmware metadata"))
  else s.append c (.firmwarePublished m) w

/-- Publish configuration metadata. -/
def publishConfig (s : Server) (m : ConfigMetadata) (w : Write) : Server × Except Error Unit :=
  if m.samplePeriodMs = 0 ∨ m.staleAfterMs < m.samplePeriodMs then
    (s, .error (.invalid "invalid config metadata"))
  else s.append c (.configPublished m) w

end Server

end Fieldbus.Cloud
