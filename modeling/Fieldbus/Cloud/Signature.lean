import Fieldbus.Cloud.Protocol
import Fieldbus.Library.Fallible

/-!
# What a signature depends on

`unhex` undoes `hex`, so the text of a signature determines its digest. A signature depends on the
secret through its HMAC key block only (`sign_eq`): the decoded secret, hashed if it is longer than
a block and filled with zeros.
-/

namespace Fieldbus.Cloud

/-! ## Hexadecimal texts -/

/-- A text of ASCII characters has one byte for each of them. -/
theorem ascii_size {s : String} (h : ∀ c ∈ s.toList, c.toNat < 128) :
    s.utf8ByteSize = s.toList.length := by
  obtain ⟨cs, rfl⟩ : ∃ cs, s = String.ofList cs := ⟨s.toList, by simp⟩
  rw [String.toList_ofList] at h ⊢
  induction cs with
  | nil => rfl
  | cons c rest ih =>
      obtain ⟨hc, hrest⟩ := List.forall_mem_cons.mp h
      have hsize : c.utf8Size = 1 := by
        rw [Char.utf8Size_eq_one_iff, UInt32.le_iff_toNat_le]
        exact Nat.le_of_lt_succ hc
      rw [String.ofList_cons, String.utf8ByteSize_append, String.utf8ByteSize_singleton, hsize,
        ih hrest, List.length_cons, Nat.add_comm]

/-- A digit is an ASCII character other than the plus sign, and denotes its value. -/
theorem toDigit_hexDigit {value : UInt8} (h : value < 16) :
    toDigit (hexDigit value) = some value.toNat ∧ hexDigit value ≠ '+' ∧
      (hexDigit value).toNat < 128 := by
  have hall : ∀ n < 16, toDigit (hexDigit (UInt8.ofNat n)) = some n ∧
      hexDigit (UInt8.ofNat n) ≠ '+' ∧ (hexDigit (UInt8.ofNat n)).toNat < 128 := by decide
  have hvalue := hall value.toNat (UInt8.lt_iff_toNat_lt.mp h)
  rwa [UInt8.ofNat_toNat] at hvalue

/-- The two digits of a byte. -/
def byteDigits (b : UInt8) : List Char := [hexDigit (b >>> 4), hexDigit (b &&& 0xF)]

/-- The halves of a byte are digits, and the byte is sixteen times the first plus the second. -/
theorem byte_halves (b : UInt8) :
    b >>> 4 < 16 ∧ b &&& 0xF < 16 ∧ (b >>> 4).toNat * 16 + (b &&& 0xF).toNat = b.toNat := by
  have hhigh : (b >>> 4).toNat = b.toNat / 16 := by
    rw [UInt8.toNat_shiftRight]
    exact Nat.shiftRight_eq_div_pow b.toNat 4
  have hlow : (b &&& 0xF).toNat = b.toNat % 16 := by
    rw [UInt8.toNat_and]
    exact Nat.and_two_pow_sub_one_eq_mod b.toNat 4
  have hbyte := b.toNat_lt
  refine ⟨UInt8.lt_iff_toNat_lt.mpr ?_, UInt8.lt_iff_toNat_lt.mpr ?_, ?_⟩
  · rw [hhigh, show (16 : UInt8).toNat = 16 from rfl]
    omega
  · rw [hlow, show (16 : UInt8).toNat = 16 from rfl]
    omega
  · omega

/-- Two digits are read as one number. -/
theorem digitsValue_pair {first second : Char} {high low : Nat} (hfirst : toDigit first = some high)
    (hsecond : toDigit second = some low) (h : high * 16 + low < 256) :
    digitsValue [first, second] = some (UInt8.ofNat (high * 16 + low)) := by
  have hhigh : high < 256 := by omega
  simp [digitsValue, hfirst, hsecond, h, hhigh]

/-- The two digits of a byte are read as the byte. -/
theorem fromStrRadix_byteDigits (b : UInt8) : fromStrRadix (byteDigits b) = some b := by
  obtain ⟨hhigh, hlow, hbyte⟩ := byte_halves b
  obtain ⟨hdigit, hsign, -⟩ := toDigit_hexDigit hhigh
  obtain ⟨hdigit', -, -⟩ := toDigit_hexDigit hlow
  -- the first digit is no plus sign, so both are read
  have hread : fromStrRadix (byteDigits b) = digitsValue (byteDigits b) := by
    unfold fromStrRadix byteDigits
    split <;> simp_all
  rw [hread, byteDigits, digitsValue_pair hdigit hdigit' (hbyte ▸ b.toNat_lt), hbyte,
    UInt8.ofNat_toNat]

theorem pairs_hex (bytes : List UInt8) :
    pairs (bytes.flatMap byteDigits) = bytes.map byteDigits := by
  induction bytes with
  | nil => rfl
  | cons b rest ih => simp [byteDigits, pairs, ← ih]

theorem hex_toList (bytes : List UInt8) : (hex bytes).toList = bytes.flatMap byteDigits := by
  rw [hex, String.toList_ofList]
  rfl

theorem hex_ascii (bytes : List UInt8) : ∀ c ∈ (hex bytes).toList, c.toNat < 128 := by
  rw [hex_toList]
  intro c hc
  obtain ⟨b, -, hb⟩ := List.mem_flatMap.mp hc
  obtain ⟨hhigh, hlow, -⟩ := byte_halves b
  rcases List.mem_pair.mp hb with rfl | rfl
  · exact (toDigit_hexDigit hhigh).2.2
  · exact (toDigit_hexDigit hlow).2.2

/-- The text of bytes decodes to them. -/
theorem unhex_hex (bytes : List UInt8) : unhex (hex bytes) = .ok bytes := by
  have heven : (hex bytes).utf8ByteSize % 2 = 0 := by
    rw [ascii_size (hex_ascii bytes), hex_toList, List.length_flatMap]
    simp [byteDigits]
  rw [unhex, if_neg (by omega), if_neg (by simpa using hex_ascii bytes), hex_toList, pairs_hex]
  -- the pairs are read one by one
  refine Fallible.mapM_ok_iff.mpr (List.forall₂_map_left_iff.mpr (List.forall₂_same.mpr ?_))
  intro b _
  rw [fromStrRadix_byteDigits]

/-- Bytes with the same text are the same. -/
theorem hex_injective {bytes bytes' : List UInt8} (h : hex bytes = hex bytes') :
    bytes = bytes' := by
  have hdecode := unhex_hex bytes
  rw [h, unhex_hex] at hdecode
  exact (Except.ok.inj hdecode).symm

/-! ## Key blocks -/

variable {c : Crates}

/-- The key block of a secret. -/
def keyBlock (c : Crates) (secretHex : String) : Except Error (List UInt8) :=
  (unhex secretHex).map fun key => resize (if key.length > 64 then c.sha256 key else key) 64

/-- The message of the outer digest. -/
def outerMessage (c : Crates) (key body : List UInt8) : List UInt8 :=
  key.map (0x5c ^^^ ·) ++ c.sha256 (key.map (0x36 ^^^ ·) ++ body)

/-- A signature in terms of the key block. -/
theorem sign_eq (c : Crates) (secretHex : String) (reading : Reading) :
    sign c secretHex reading = (keyBlock c secretHex).bind fun key =>
      ((c.toVec reading).mapError .invalid).map fun body =>
        hex (c.sha256 (outerMessage c key body)) := by
  rw [sign, keyBlock]
  cases unhex secretHex with
  | error e => rfl
  | ok key => cases c.toVec reading <;> rfl

theorem sign_ok_iff {secretHex signature : String} {reading : Reading} :
    sign c secretHex reading = .ok signature ↔
      ∃ key body, keyBlock c secretHex = .ok key ∧ c.toVec reading = .ok body ∧
        hex (c.sha256 (outerMessage c key body)) = signature := by
  rw [sign_eq]
  cases keyBlock c secretHex with
  | error e => simp [Except.bind]
  | ok key => cases c.toVec reading <;> simp [Except.bind, Except.map, Except.mapError]

/-- Key blocks have the length of a block. -/
theorem keyBlock_length {secretHex : String} {key : List UInt8}
    (h : keyBlock c secretHex = .ok key) : key.length = 64 := by
  rw [keyBlock] at h
  cases hhex : unhex secretHex with
  | error e => simp [hhex, Except.map] at h
  | ok decoded =>
      obtain rfl : resize _ 64 = key := by simpa [hhex, Except.map] using h
      rw [resize, List.length_append, List.length_take, List.length_replicate]
      omega

/-- The outer message determines a key block. -/
theorem outerMessage_injective {key key' body : List UInt8} (hkey : key.length = 64)
    (hkey' : key'.length = 64) (h : outerMessage c key body = outerMessage c key' body) :
    key = key' := by
  have hxor : Function.Injective fun b : UInt8 => 0x5c ^^^ b :=
    fun b b' hb => (UInt8.xor_right_inj 0x5c).mp hb
  have houter := (List.append_inj h (by simp [hkey, hkey'])).1
  exact List.map_injective_iff.mpr hxor houter

end Fieldbus.Cloud
