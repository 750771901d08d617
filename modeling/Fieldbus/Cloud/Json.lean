import Fieldbus.Cloud.Numbers
import Fieldbus.Cloud.Values
import Fieldbus.Library.Sha256

/-!
# JSON texts of events

`Crates.Rereads`, `Crates.Total` and `Crates.Serializes` are assumed of the JSON crate, and in one
place `Crates.Undoes`. `Crates.reference` meets all but the last: SHA-256 and the externally tagged
texts of the derived `Serialize`, with numbers as `serde_json` prints and reads them. With its
feature `float_roundtrip`, `Crates.roundtrip`, they are read as they were.
-/

namespace Fieldbus.Cloud

/-- The reading of the event, if it has one, is a finite number. -/
def Event.Finite : Event → Prop
  | .readingAccepted e _ => e.reading.value.isFinite = true
  | _ => True

/-- What the crate does with finite events. The text of one is a non-blank line, and `from_str`
reads it back with everything but the value of its reading as it was; the value is read back as
`reread` has it. -/
structure Crates.Rereads (c : Crates) (reread : F64 → F64) : Prop where
  fromStr : ∀ event text, event.Finite → c.toString event = .ok text →
    c.fromStr text = .ok (event.mapValue reread)
  oneLine : ∀ event text, event.Finite → c.toString event = .ok text →
    ByteLines.OneLine (Utf8.encode text)
  notBlank : ∀ event text, event.Finite → c.toString event = .ok text →
    Store.isBlank text = false

/-- On finite events `from_str` undoes `to_string`, and the text is one non-blank line. -/
structure Crates.Undoes (c : Crates) : Prop where
  fromStr : ∀ event text, event.Finite → c.toString event = .ok text → c.fromStr text = .ok event
  oneLine : ∀ event text, event.Finite → c.toString event = .ok text →
    ByteLines.OneLine (Utf8.encode text)
  notBlank : ∀ event text, event.Finite → c.toString event = .ok text →
    Store.isBlank text = false

/-- A crate undoes its texts if and only if it reads every value back as it was. -/
theorem Crates.undoes_iff {c : Crates} : c.Undoes ↔ c.Rereads id := by
  have hkept : ∀ event : Event, event.mapValue id = event := by
    intro event
    cases event <;> rfl
  constructor
  · intro h
    refine ⟨fun event text hfinite htext => ?_, h.oneLine, h.notBlank⟩
    rw [hkept, h.fromStr event text hfinite htext]
  · intro h
    refine ⟨fun event text hfinite htext => ?_, h.oneLine, h.notBlank⟩
    rw [h.fromStr event text hfinite htext, hkept]

/-- Every finite event has a text. -/
structure Crates.Total (c : Crates) : Prop where
  toString : ∀ event, event.Finite → ∃ text, c.toString event = .ok text

/-- Every finite reading has a JSON text. -/
structure Crates.Serializes (c : Crates) : Prop where
  toVec : ∀ r : Reading, r.value.isFinite = true → ∃ body, c.toVec r = .ok body

namespace Json

open LineCodec

/-! ## Numbers -/

def u8 (stop : Char) (h : stop.isDigit = false := by decide)
    (h' : stop ≠ '\n' ∧ stop ≠ '\r' := by decide) : LineCodec UInt8 :=
  (nat stop h h').map UInt8.ofNat UInt8.toNat (by simp)

def u64 (stop : Char) (h : stop.isDigit = false := by decide)
    (h' : stop ≠ '\n' ∧ stop ≠ '\r' := by decide) : LineCodec UInt64 :=
  (nat stop h h').map UInt64.ofNat UInt64.toNat (by simp)

def i64 (stop : Char) (h : stop.isDigit = false := by decide)
    (h' : stop ≠ '\n' ∧ stop ≠ '\r' := by decide) : LineCodec Int64 :=
  (int stop h h').map Int64.ofInt Int64.toInt (by simp)

/-- An optional counter, with the character that ends it. -/
def optionalU64 (stop : Char) (text : String) (h : stop.isDigit = false := by decide)
    (h' : stop ≠ '\n' ∧ stop ≠ '\r' := by decide) (htext : NoBreaks text.toList := by decide)
    (hn : text.toList.head? = some 'n' := by decide) : LineCodec (Option UInt64) :=
  optional text (u64 stop h h') (by
    intro n rest
    obtain ⟨digit, more, hdigit, hprint⟩ := nat_head stop h h' n.toNat
    obtain ⟨tail, htail⟩ := List.head?_eq_some_iff.mp hn
    have hne : 'n' ≠ digit := by
      rintro rfl
      simp at hdigit
    simp [u64, LineCodec.map, hprint, htail, stripFront, hne]) htext

/-- An optional time, with the character that ends it. -/
def optionalI64 (stop : Char) (text : String) (h : stop.isDigit = false := by decide)
    (h' : stop ≠ '\n' ∧ stop ≠ '\r' := by decide) (htext : NoBreaks text.toList := by decide)
    (hn : text.toList.head? = some 'n' := by decide) : LineCodec (Option Int64) :=
  optional text (i64 stop h h') (by
    intro i rest
    obtain ⟨first, more, hfirst, hprint⟩ := int_head stop h h' i.toInt
    obtain ⟨tail, htail⟩ := List.head?_eq_some_iff.mp hn
    have hne : 'n' ≠ first := by
      rcases hfirst with rfl | hdigit
      · decide
      · rintro rfl
        simp at hdigit
    simp [i64, LineCodec.map, hprint, htail, stripFront, hne]) htext

/-- An optional string. -/
def optionalString : LineCodec (Option String) :=
  optional "null" quoted (by simp [quoted, stripFront])

/-! ## Records -/

/-- A reading as it is written, with its value as a text. -/
structure WrittenReading where
  deviceId : String
  firmwareVersion : String
  sequence : UInt64
  deviceTimestampMs : Int64
  bootCounter : UInt64
  value : {text : List Char // Plain text}
  quality : String

/-- The reading as it is written. -/
def WrittenReading.of (r : Reading) : WrittenReading :=
  ⟨r.deviceId, r.firmwareVersion, r.sequence, r.deviceTimestampMs, r.bootCounter,
    ⟨numeral r.value, numeral_plain r.value⟩, r.quality⟩

/-- The reading with its value read. -/
def WrittenReading.read (parts : Nat → Int → Option Nat) (w : WrittenReading) : Option Reading :=
  (readNumeral parts w.value.val).map fun value =>
    ⟨w.deviceId, w.firmwareVersion, w.sequence, w.deviceTimestampMs, w.bootCounter, value,
      w.quality⟩

/-- The JSON object of a reading. -/
def reading : LineCodec WrittenReading :=
  ((after "\x7b\"device_id\":" quoted).seq <|
    (after ",\"firmware_version\":" quoted).seq <|
    (after ",\"sequence\":" (u64 ',')).seq <|
    (after "\"device_timestamp_ms\":" (i64 ',')).seq <|
    (after "\"boot_counter\":" (u64 ',')).seq <|
    (after "\"value\":" (upTo ',')).seq <|
    (after "\"quality\":" quoted).before "\x7d").map
    (fun (deviceId, firmwareVersion, sequence, timestamp, bootCounter, value, quality) =>
      ⟨deviceId, firmwareVersion, sequence, timestamp, bootCounter, value, quality⟩)
    (fun w => (w.deviceId, w.firmwareVersion, w.sequence, w.deviceTimestampMs, w.bootCounter,
      w.value, w.quality))
    (fun _ => rfl)

/-- The JSON object of an envelope. -/
def envelope : LineCodec (UInt8 × WrittenReading × String) :=
  (after "\x7b\"protocol_version\":" (u8 ',')).seq <|
    (after "\"reading\":" reading).seq <|
    (after ",\"signature\":" quoted).before "\x7d"

/-- The JSON object of a device record. -/
def deviceRecord : LineCodec DeviceRecord :=
  ((after "\x7b\"device_id\":" quoted).seq <|
    (after ",\"credential_version\":" (u64 ',')).seq <|
    (after "\"secret_hex\":" quoted).seq <|
    (after ",\"firmware_version\":" quoted).seq <|
    (after ",\"config_version\":" (u64 ',')).seq <|
    (after "\"last_seen_ms\":"
      (optionalI64 ',' "null,")).seq <|
    (after "\"last_sequence\":"
      (optionalU64 ',' "null,")).seq <|
    (after "\"boot_counter\":"
      (optionalU64 '\x7d' "null\x7d"))).map
    (fun (deviceId, credentialVersion, secretHex, firmwareVersion, configVersion, lastSeenMs,
      lastSequence, bootCounter) => ⟨deviceId, credentialVersion, secretHex, firmwareVersion,
        configVersion, lastSeenMs, lastSequence, bootCounter⟩)
    (fun d => (d.deviceId, d.credentialVersion, d.secretHex, d.firmwareVersion, d.configVersion,
      d.lastSeenMs, d.lastSequence, d.bootCounter))
    (fun _ => rfl)

/-- The JSON object of firmware metadata. -/
def firmwareMetadata : LineCodec FirmwareMetadata :=
  ((after "\x7b\"version\":" quoted).seq <|
    (after ",\"sha256\":" quoted).seq <|
    (after ",\"min_bootloader\":" quoted).seq <|
    (after ",\"rollback_version\":" optionalString).before "\x7d").map
    (fun (version, sha256, minBootloader, rollbackVersion) =>
      ⟨version, sha256, minBootloader, rollbackVersion⟩)
    (fun m => (m.version, m.sha256, m.minBootloader, m.rollbackVersion))
    (fun _ => rfl)

/-- The JSON object of configuration metadata. -/
def configMetadata : LineCodec ConfigMetadata :=
  ((after "\x7b\"version\":" (u64 ',')).seq <|
    (after "\"sample_period_ms\":" (u64 ',')).seq <|
    (after "\"stale_after_ms\":" (u64 '\x7d'))).map
    (fun (version, samplePeriodMs, staleAfterMs) => ⟨version, samplePeriodMs, staleAfterMs⟩)
    (fun m => (m.version, m.samplePeriodMs, m.staleAfterMs))
    (fun _ => rfl)

/-- The JSON object of the fields of an accepted reading. -/
def accepted : LineCodec ((UInt8 × WrittenReading × String) × Int64) :=
  (after "\x7b\"envelope\":" envelope).seq <|
    after ",\"received_ms\":" (i64 '\x7d')

/-! ## Events -/

/-- An event as it is written. -/
inductive Written where
  | registered (d : DeviceRecord)
  | credentialRotated (d : DeviceRecord)
  | readingAccepted (version : UInt8) (reading : WrittenReading) (signature : String)
      (receivedMs : Int64)
  | firmwarePublished (m : FirmwareMetadata)
  | configPublished (m : ConfigMetadata)

/-- The event as it is written. -/
def Written.of : Event → Written
  | .registered d => .registered d
  | .credentialRotated d => .credentialRotated d
  | .readingAccepted e receivedMs =>
      .readingAccepted e.protocolVersion (.of e.reading) e.signature receivedMs
  | .firmwarePublished m => .firmwarePublished m
  | .configPublished m => .configPublished m

/-- The event with its value read. -/
def Written.read (parts : Nat → Int → Option Nat) : Written → Option Event
  | .registered d => some (.registered d)
  | .credentialRotated d => some (.credentialRotated d)
  | .readingAccepted version reading signature receivedMs =>
      (reading.read parts).map fun r => .readingAccepted ⟨version, r, signature⟩ receivedMs
  | .firmwarePublished m => some (.firmwarePublished m)
  | .configPublished m => some (.configPublished m)

/-- The variants, each behind its tag. -/
def variants :
    LineCodec (DeviceRecord ⊕ DeviceRecord ⊕ ((UInt8 × WrittenReading × String) × Int64) ⊕
      FirmwareMetadata ⊕ ConfigMetadata) :=
  (after "Registered\":" deviceRecord).either
    ((after "CredentialRotated\":" deviceRecord).either
      ((after "ReadingAccepted\":" accepted).either
        ((after "FirmwarePublished\":" firmwareMetadata).either
          (after "ConfigPublished\":" configMetadata)
          (fun _ => parse_after_of_diverge (by decide) _))
        (by rintro (_ | _) <;> exact parse_after_of_diverge (by decide) _))
      (by rintro (_ | _ | _) <;> exact parse_after_of_diverge (by decide) _))
    (by rintro (_ | _ | _ | _) <;> exact parse_after_of_diverge (by decide) _)

/-- The JSON text of an event. -/
def event : LineCodec Written :=
  ((after "\x7b\"" variants).before "\x7d").map
    (fun
      | .inl d => .registered d
      | .inr (.inl d) => .credentialRotated d
      | .inr (.inr (.inl ((version, reading, signature), receivedMs))) =>
          .readingAccepted version reading signature receivedMs
      | .inr (.inr (.inr (.inl m))) => .firmwarePublished m
      | .inr (.inr (.inr (.inr m))) => .configPublished m)
    (fun
      | .registered d => .inl d
      | .credentialRotated d => .inr (.inl d)
      | .readingAccepted version reading signature receivedMs =>
          .inr (.inr (.inl ((version, reading, signature), receivedMs)))
      | .firmwarePublished m => .inr (.inr (.inr (.inl m)))
      | .configPublished m => .inr (.inr (.inr (.inr m))))
    (by rintro (d | d | ⟨version, reading, signature, receivedMs⟩ | m | m) <;> rfl)

/-- The JSON text of an event. -/
def print (e : Event) : String := String.ofList (event.print (.of e))

/-- Read the JSON text of an event, all of it. -/
def parse (parts : Nat → Int → Option Nat) (text : String) : Except String Event :=
  match event.parse text.toList with
  | some (w, []) => (w.read parts).elim (.error "number out of range") .ok
  | _ => .error "not the text of an event"

/-- Printed events are read back, but for the values. -/
theorem parse_print {parts : Nat → Int → Option Nat} {reread : F64 → F64}
    (h : ∀ x : F64, x.isFinite = true → readNumeral parts (numeral x) = some (reread x))
    {e : Event} (hfinite : e.Finite) : parse parts (print e) = .ok (e.mapValue reread) := by
  have hparse := event.parse_print (.of e) []
  rw [List.append_nil] at hparse
  have hread : (Written.of e).read parts = some (e.mapValue reread) := by
    cases e with
    | readingAccepted e receivedMs =>
        simp only [Written.of, Written.read, WrittenReading.of, WrittenReading.read,
          h e.reading.value hfinite, Option.map_some]
        rfl
    | registered | credentialRotated | firmwarePublished | configPublished => rfl
  simp only [parse, print, String.toList_ofList, hparse, hread]
  rfl

/-- Printed events begin with a brace. -/
theorem print_head (e : Event) : ∃ rest, (print e).toList = '\x7b' :: rest :=
  ⟨_, by simp only [print, event, before, after, LineCodec.map, String.toList_ofList]; rfl⟩

/-- Printed events have no line breaks. -/
theorem print_no_breaks (e : Event) : NoBreaks (print e).toList := by
  simpa [print] using event.one_line (.of e)

attribute [irreducible] print

/-- No event begins with two braces. -/
theorem parse_braces (parts : Nat → Int → Option Nat) (text : String) :
    parse parts ("\x7b\x7b" ++ text) = .error "not the text of an event" := by
  simp [parse, event, before, after, LineCodec.map, stripFront]

end Json

/-- SHA-256 and the JSON texts above, with numbers read by the given function. -/
def Crates.json (parts : Nat → Int → Option Nat) : Crates where
  sha256 := Sha256.digest
  toVec r := .ok (Utf8.encode (String.ofList (Json.reading.print (.of r))))
  toString e := .ok (Json.print e)
  fromStr := Json.parse parts

/-- SHA-256 and `serde_json`. -/
def Crates.reference : Crates := .json Json.fromParts

/-- SHA-256 and `serde_json` with its feature `float_roundtrip`. -/
def Crates.roundtrip : Crates := .json Json.nearestParts

theorem json_rereads {parts : Nat → Int → Option Nat} {reread : F64 → F64}
    (h : ∀ x : F64, x.isFinite = true →
      Json.readNumeral parts (Json.numeral x) = some (reread x)) :
    (Crates.json parts).Rereads reread := by
  refine ⟨?_, ?_, ?_⟩ <;> rintro event _ hfinite ⟨rfl⟩
  · exact Json.parse_print h hfinite
  · exact Utf8.encode_one_line (Json.print_no_breaks event)
  · obtain ⟨rest, hhead⟩ := Json.print_head event
    simp [Store.isBlank, hhead, Store.isWhitespace]

theorem reference_rereads : Crates.reference.Rereads Json.reread :=
  json_rereads fun _ => Json.read_numeral

theorem roundtrip_undoes : Crates.roundtrip.Undoes :=
  Crates.undoes_iff.mpr (json_rereads fun _ => Json.read_nearest)

theorem reference_total : Crates.reference.Total := ⟨fun event _ => ⟨Json.print event, rfl⟩⟩

theorem reference_serializes : Crates.reference.Serializes := ⟨fun _ _ => ⟨_, rfl⟩⟩

end Fieldbus.Cloud
