import Fieldbus.Library.ByteLines

/-!
# UTF-8 texts as bytes

`decode_encode` is the round trip of the string codec on byte lists, and `encode_one_line` says that
a text without line breaks is encoded without line-break bytes: every byte of a longer encoding is
at least 128.
-/

namespace Fieldbus.Utf8

open ByteLines

/-- The UTF-8 bytes of a text. -/
def encode (text : String) : List UInt8 := text.toList.flatMap String.utf8EncodeChar

/-- The text with the given UTF-8 bytes, if they are valid. -/
def decode (bytes : List UInt8) : Option String := String.fromUTF8? bytes.toByteArray

/-- The bytes of a text as the string type stores them. -/
theorem encode_toByteArray (text : String) : (encode text).toByteArray = text.toByteArray :=
  String.utf8Encode_toList

theorem encode_length (text : String) : (encode text).length = text.utf8ByteSize := by
  rw [← List.size_toByteArray, encode_toByteArray, String.size_toByteArray]

/-- Decoding undoes encoding. -/
@[simp] theorem decode_encode (text : String) : decode (encode text) = some text := by
  rw [decode, encode_toByteArray, String.fromUTF8?, dif_pos text.isValidUTF8]
  rfl

/-- What is decoded is encoded as it stood. -/
theorem encode_of_decode {bytes : List UInt8} {text : String} (h : decode bytes = some text) :
    encode text = bytes := by
  rw [decode, String.fromUTF8?] at h
  split at h
  · rename_i hvalid
    obtain rfl := Option.some.inj h
    have hbytes : (encode (String.fromUTF8 bytes.toByteArray hvalid)).toByteArray =
        bytes.toByteArray := encode_toByteArray _
    exact List.toByteArray_inj.mp hbytes
  · cases h

theorem decode_eq_some_iff {bytes : List UInt8} {text : String} :
    decode bytes = some text ↔ bytes = encode text := by
  constructor
  · intro h
    exact (encode_of_decode h).symm
  · rintro rfl
    exact decode_encode text

/-- A text whose bytes another one begins with is the beginning of that text. -/
theorem prefix_of_encode {text text' : String} (h : encode text <+: encode text') :
    text.toList <+: text'.toList := by
  obtain ⟨more, hmore⟩ := h
  apply List.isPrefix_of_utf8Encode_append_eq_utf8Encode more.toByteArray
  rw [String.utf8Encode_toList, String.utf8Encode_toList, ← encode_toByteArray,
    ← encode_toByteArray, ← hmore, List.toByteArray_append]

@[simp] theorem encode_eq_nil {text : String} : encode text = [] ↔ text = "" := by
  constructor
  · intro h
    have hdecode := decode_encode text
    rw [h] at hdecode
    exact (Option.some.inj (hdecode.symm.trans (decode_encode "")))
  · rintro rfl
    rfl

/-- A byte below 128 in the encoding of a character is that character: the bytes of longer
encodings are marked by their high bit. -/
theorem ascii_of_mem {c : Char} {byte : UInt8} (h : byte ∈ String.utf8EncodeChar c)
    (hsmall : byte.toNat < 128) : c.toNat = byte.toNat := by
  have hnat : c.val.toNat = c.toNat := rfl
  simp only [String.utf8EncodeChar, hnat] at h
  split at h
  · rename_i hle
    obtain rfl := List.mem_singleton.mp h
    rw [UInt8.toNat_ofNat', Nat.mod_eq_of_lt (by omega)]
  · exfalso
    have hhigh : ∀ value : Nat, byte = UInt8.ofNat value → value < 256 → value < 128 := by
      rintro value rfl hvalue
      rwa [UInt8.toNat_ofNat', Nat.mod_eq_of_lt hvalue] at hsmall
    split at h
    · simp only [List.mem_cons, List.not_mem_nil, or_false] at h
      rcases h with h | h <;> have := hhigh _ h (by omega) <;> omega
    · split at h
      · simp only [List.mem_cons, List.not_mem_nil, or_false] at h
        rcases h with h | h | h <;> have := hhigh _ h (by omega) <;> omega
      · simp only [List.mem_cons, List.not_mem_nil, or_false] at h
        rcases h with h | h | h | h <;> have := hhigh _ h (by omega) <;> omega

/-- A text without line breaks is encoded without line-break bytes. -/
theorem encode_one_line {text : String} (h : ∀ c ∈ text.toList, c ≠ '\n' ∧ c ≠ '\r') :
    OneLine (encode text) := by
  intro byte hbyte
  obtain ⟨c, hc, hmem⟩ := List.mem_flatMap.mp hbyte
  constructor
  · rintro rfl
    have hcode := ascii_of_mem hmem (by decide)
    exact (h c hc).1 (Char.toNat_inj.mp hcode)
  · rintro rfl
    have hcode := ascii_of_mem hmem (by decide)
    exact (h c hc).2 (Char.toNat_inj.mp hcode)

end Fieldbus.Utf8
