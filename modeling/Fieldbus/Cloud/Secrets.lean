import Fieldbus.Cloud.Signature

/-!
# The grammar of a secret

Which texts `unhex` decodes, and how the decoded bytes are written. Each pair of characters is read
by `u8::from_str_radix`, which takes a plus sign before the digits, so a plus sign and one digit
are a byte as well (`unhex_ok_iff`). `parsesHex_iff` compares this with the hexadecimal grammar.
-/

namespace Fieldbus.Cloud

/-- A hexadecimal digit of either case. -/
def IsHexChar (ch : Char) : Prop :=
  '0' ≤ ch ∧ ch ≤ '9' ∨ 'a' ≤ ch ∧ ch ≤ 'f' ∨ 'A' ≤ ch ∧ ch ≤ 'F'

instance (ch : Char) : Decidable (IsHexChar ch) := inferInstanceAs (Decidable (_ ∨ _))

/-- An even number of hexadecimal digits. -/
def HexText (s : String) : Prop :=
  s.toList.length % 2 = 0 ∧ ∀ ch ∈ s.toList, IsHexChar ch

/-- Two hexadecimal digits. -/
def HexPair (pair : List Char) : Prop :=
  ∃ first second, pair = [first, second] ∧ IsHexChar first ∧ IsHexChar second

/-- A plus sign and one hexadecimal digit. -/
def PlusPair (pair : List Char) : Prop :=
  ∃ digit, pair = ['+', digit] ∧ IsHexChar digit

/-- An even number of characters in pairs of two digits or of a plus sign and a digit, of which
at least one has the plus sign. -/
def PlusText (s : String) : Prop :=
  s.toList.length % 2 = 0 ∧ (∀ pair ∈ pairs s.toList, HexPair pair ∨ PlusPair pair) ∧
    ∃ pair ∈ pairs s.toList, PlusPair pair

/-- `unhex` decodes the text exactly if it is hexadecimal, and then to the bytes that are written
as the text in lower case. -/
def ParsesHex (s : String) : Prop :=
  ((∃ bytes, unhex s = .ok bytes) ↔ HexText s) ∧
    (HexText s → (unhex s).map hex = .ok s.toLower)

variable {s : String} {ch first second : Char} {pair : List Char}

/-! ## One pair -/

theorem IsHexChar.ascii (h : IsHexChar ch) : ch.toNat < 128 := by
  simp only [IsHexChar, Char.le_def, UInt32.le_iff_toNat_le] at h
  simp only [Char.toNat]
  obtain ⟨-, h⟩ | ⟨-, h⟩ | ⟨-, h⟩ := h <;> exact Nat.lt_of_le_of_lt h (by decide)

theorem IsHexChar.ne_plus (h : IsHexChar ch) : ch ≠ '+' := by
  rintro rfl
  exact absurd h (by decide)

/-- A hexadecimal digit has a value, which is written as the digit in lower case. -/
theorem IsHexChar.digit (h : IsHexChar ch) :
    ∃ value < 16, toDigit ch = some value ∧ hexDigit (UInt8.ofNat value) = ch.toLower := by
  have hall : ∀ n < 128, IsHexChar (Char.ofNat n) →
      ∃ value < 16, toDigit (Char.ofNat n) = some value ∧
        hexDigit (UInt8.ofNat value) = (Char.ofNat n).toLower := by
    decide
  have hdigit := hall ch.toNat h.ascii
  rw [Char.ofNat_toNat] at hdigit
  exact hdigit h

/-- Other characters have no value. -/
theorem toDigit_eq_none (h : ¬ IsHexChar ch) : toDigit ch = none := by
  obtain ⟨hdecimal, hletters⟩ := not_or.mp h
  obtain ⟨hlower, hupper⟩ := not_or.mp hletters
  rw [toDigit, if_neg hdecimal, if_neg hlower, if_neg hupper]

/-- The halves of a byte that is put together from two values. -/
theorem halves_ofNat {high low : Nat} (hhigh : high < 16) (hlow : low < 16) :
    UInt8.ofNat (high * 16 + low) >>> 4 = UInt8.ofNat high ∧
      UInt8.ofNat (high * 16 + low) &&& 0xF = UInt8.ofNat low := by
  obtain ⟨hfirst, hsecond, hsum⟩ := byte_halves (UInt8.ofNat (high * 16 + low))
  have hfirst := UInt8.lt_iff_toNat_lt.mp hfirst
  have hsecond := UInt8.lt_iff_toNat_lt.mp hsecond
  rw [show (16 : UInt8).toNat = 16 from rfl] at hfirst hsecond
  rw [UInt8.toNat_ofNat_of_lt' (show high * 16 + low < 256 by omega)] at hsum
  constructor <;> apply UInt8.toNat_inj.mp
  · rw [UInt8.toNat_ofNat_of_lt' (show high < 256 by omega)]
    omega
  · rw [UInt8.toNat_ofNat_of_lt' (show low < 256 by omega)]
    omega

/-- Without a plus sign both characters are digits. -/
theorem fromStrRadix_of_ne (h : first ≠ '+') :
    fromStrRadix [first, second] = digitsValue [first, second] := by
  unfold fromStrRadix
  split <;> simp_all

/-- Two digits are read as a byte that is written as these digits in lower case. -/
theorem HexPair.read (h : HexPair pair) :
    ∃ byte, fromStrRadix pair = some byte ∧ byteDigits byte = pair.map Char.toLower := by
  obtain ⟨first, second, rfl, hfirst, hsecond⟩ := h
  obtain ⟨high, hhigh, hread, hwrite⟩ := hfirst.digit
  obtain ⟨low, hlow, hread', hwrite'⟩ := hsecond.digit
  refine ⟨UInt8.ofNat (high * 16 + low), ?_, ?_⟩
  · rw [fromStrRadix_of_ne hfirst.ne_plus, digitsValue_pair hread hread' (by omega)]
  · obtain ⟨hupper, hlower⟩ := halves_ofNat hhigh hlow
    rw [byteDigits, hupper, hlower, hwrite, hwrite']
    rfl

/-- A plus sign and a digit are read as the digit. -/
theorem PlusPair.read (h : PlusPair pair) : ∃ byte, fromStrRadix pair = some byte := by
  obtain ⟨digit, rfl, hdigit⟩ := h
  obtain ⟨value, hvalue, hread, -⟩ := hdigit.digit
  have hbyte : value < 256 := by omega
  refine ⟨UInt8.ofNat value, ?_⟩
  show digitsValue [digit] = some (UInt8.ofNat value)
  simp [digitsValue, hread, hbyte]

/-- No other pair is read. -/
theorem fromStrRadix_pair (h : ¬ HexPair [first, second]) (h' : ¬ PlusPair [first, second]) :
    fromStrRadix [first, second] = none := by
  by_cases hsign : first = '+'
  · subst hsign
    have hdigit : ¬ IsHexChar second := fun hdigit => h' ⟨second, rfl, hdigit⟩
    show digitsValue [second] = none
    simp [digitsValue, toDigit_eq_none hdigit]
  · rw [fromStrRadix_of_ne hsign]
    by_cases hfirst : IsHexChar first
    · have hsecond : ¬ IsHexChar second := fun hsecond => h ⟨first, second, rfl, hfirst, hsecond⟩
      obtain ⟨value, hvalue, hread, -⟩ := hfirst.digit
      have hbyte : value < 256 := by omega
      simp [digitsValue, hread, hbyte, toDigit_eq_none hsecond]
    · simp [digitsValue, toDigit_eq_none hfirst]

/-- A pair of a text has two characters. -/
theorem pair_of_mem_pairs {cs : List Char} (h : pair ∈ pairs cs) :
    ∃ first second, pair = [first, second] := by
  induction cs using pairs.induct with
  | case1 a b rest ih =>
      rw [pairs] at h
      obtain rfl | h := List.mem_cons.mp h
      · exact ⟨a, b, rfl⟩
      · exact ih h
  | case2 cs hcs =>
      rw [pairs] at h
      · cases h
      · exact hcs

/-- The pairs of a text are the text. -/
theorem pairs_flatten {cs : List Char} (h : cs.length % 2 = 0) : (pairs cs).flatten = cs := by
  induction cs using pairs.induct with
  | case1 a b rest ih =>
      rw [List.length_cons, List.length_cons] at h
      rw [pairs, List.flatten_cons, ih (by omega)]
      rfl
  | case2 cs hcs =>
      -- an even number of characters that are not two or more is none
      cases cs with
      | nil => rfl
      | cons a rest =>
          cases rest with
          | nil => cases h
          | cons b rest => exact absurd rfl (hcs a b rest)

/-! ## A text -/

/-- What `unhex` does with a pair. -/
def readPair (pair : List Char) : Except Error UInt8 :=
  match fromStrRadix pair with
  | some b => .ok b
  | none => .error (.invalid "secret is not hex")

theorem readPair_ok_iff {byte : UInt8} :
    readPair pair = .ok byte ↔ fromStrRadix pair = some byte := by
  unfold readPair
  cases fromStrRadix pair <;> simp

/-- A hexadecimal text consists of pairs of digits. -/
theorem hexText_iff :
    HexText s ↔ s.toList.length % 2 = 0 ∧ ∀ pair ∈ pairs s.toList, HexPair pair := by
  refine and_congr_right fun heven => ?_
  constructor
  · intro h pair hpair
    obtain ⟨first, second, rfl⟩ := pair_of_mem_pairs hpair
    rw [← pairs_flatten heven, List.forall_mem_flatten] at h
    exact ⟨first, second, rfl, h _ hpair _ (by simp), h _ hpair _ (by simp)⟩
  · intro h ch hch
    rw [← pairs_flatten heven, List.mem_flatten] at hch
    obtain ⟨pair, hpair, hch⟩ := hch
    obtain ⟨first, second, rfl, hfirst, hsecond⟩ := h pair hpair
    rcases List.mem_pair.mp hch with rfl | rfl
    · exact hfirst
    · exact hsecond

/-- The characters of pairs of these two kinds are ASCII characters. -/
theorem ascii_of_pairs (heven : s.toList.length % 2 = 0)
    (h : ∀ pair ∈ pairs s.toList, HexPair pair ∨ PlusPair pair) :
    ∀ ch ∈ s.toList, ch.toNat < 128 := by
  intro ch hch
  rw [← pairs_flatten heven, List.mem_flatten] at hch
  obtain ⟨pair, hpair, hch⟩ := hch
  obtain ⟨first, second, rfl, hfirst, hsecond⟩ | ⟨digit, rfl, hsecond⟩ := h pair hpair
  · rcases List.mem_pair.mp hch with rfl | rfl
    · exact hfirst.ascii
    · exact hsecond.ascii
  · rcases List.mem_pair.mp hch with rfl | rfl
    · decide
    · exact hsecond.ascii

/-- An ASCII text of even length is decoded pair by pair. -/
theorem unhex_eq_mapM (hascii : ∀ ch ∈ s.toList, ch.toNat < 128)
    (heven : s.toList.length % 2 = 0) : unhex s = (pairs s.toList).mapM readPair := by
  rw [unhex, if_neg (by rw [ascii_size hascii]; omega), if_neg (by simpa using hascii)]
  rfl

/-- A text is decoded exactly if it is made of pairs of two digits and pairs of a plus sign and a
digit. -/
theorem unhex_ok_iff :
    (∃ bytes, unhex s = .ok bytes) ↔ s.toList.length % 2 = 0 ∧
      ∀ pair ∈ pairs s.toList, HexPair pair ∨ PlusPair pair := by
  constructor
  · rintro ⟨bytes, h⟩
    -- the two checks at the start passed
    have hsize : s.utf8ByteSize % 2 = 0 := by
      by_contra hodd
      rw [unhex, if_pos hodd] at h
      cases h
    have hascii : ∀ ch ∈ s.toList, ch.toNat < 128 := by
      by_contra hother
      rw [unhex, if_neg (by omega), if_pos (by simpa using hother)] at h
      cases h
    have heven : s.toList.length % 2 = 0 := by rwa [ascii_size hascii] at hsize
    refine ⟨heven, fun pair hpair => ?_⟩
    rw [unhex_eq_mapM hascii heven] at h
    obtain ⟨byte, hbyte⟩ := Fallible.exists_mapM_ok_iff.mp ⟨bytes, h⟩ pair hpair
    obtain ⟨first, second, rfl⟩ := pair_of_mem_pairs hpair
    by_contra hother
    obtain ⟨hhex, hplus⟩ := not_or.mp hother
    rw [readPair_ok_iff, fromStrRadix_pair hhex hplus] at hbyte
    cases hbyte
  · rintro ⟨heven, h⟩
    rw [unhex_eq_mapM (ascii_of_pairs heven h) heven, Fallible.exists_mapM_ok_iff]
    intro pair hpair
    simp only [readPair_ok_iff]
    obtain hhex | hplus := h pair hpair
    · obtain ⟨byte, hbyte, -⟩ := hhex.read
      exact ⟨byte, hbyte⟩
    · exact hplus.read

/-- Pairs of digits are decoded to bytes that are written as these digits in lower case. -/
theorem mapM_readPair {ps : List (List Char)} (h : ∀ pair ∈ ps, HexPair pair) :
    ∃ bytes, ps.mapM readPair = .ok bytes ∧
      bytes.flatMap byteDigits = ps.flatten.map Char.toLower := by
  induction ps with
  | nil => exact ⟨[], rfl, rfl⟩
  | cons pair ps ih =>
      obtain ⟨hpair, hps⟩ := List.forall_mem_cons.mp h
      obtain ⟨byte, hread, hwrite⟩ := hpair.read
      obtain ⟨bytes, hbytes, hdigits⟩ := ih hps
      refine ⟨byte :: bytes, ?_, ?_⟩
      · rw [List.mapM_cons, readPair_ok_iff.mpr hread, hbytes]
        rfl
      · rw [List.flatMap_cons, hwrite, hdigits, List.flatten_cons, List.map_append]

/-- A hexadecimal text is decoded to the bytes that are written as it in lower case. -/
theorem HexText.read (h : HexText s) : (unhex s).map hex = .ok s.toLower := by
  obtain ⟨heven, hpairs⟩ := hexText_iff.mp h
  have hascii := ascii_of_pairs heven fun pair hpair => .inl (hpairs pair hpair)
  obtain ⟨bytes, hread, hwrite⟩ := mapM_readPair hpairs
  rw [unhex_eq_mapM hascii heven, hread]
  have htext : hex bytes = s.toLower := by
    apply String.toList_inj.mp
    rw [hex_toList, hwrite, pairs_flatten heven, show s.toLower = s.map Char.toLower from rfl,
      String.toList_map]
  exact congrArg Except.ok htext

/-- No pair is of both kinds. -/
theorem PlusPair.not_hexPair (h : PlusPair pair) : ¬ HexPair pair := by
  obtain ⟨digit, rfl, -⟩ := h
  rintro ⟨first, second, hpair, hfirst, -⟩
  exact hfirst.ne_plus (List.cons.inj hpair).1.symm

/-- `unhex` parses exactly the hexadecimal grammar on the texts that have no pair of a plus sign and
a digit among pairs that decode. The text of bytes always decodes to them. -/
theorem parsesHex_iff (s : String) (bytes : List UInt8) :
    (ParsesHex s ↔ ¬ PlusText s) ∧ unhex (hex bytes) = .ok bytes := by
  refine ⟨?_, unhex_hex bytes⟩
  rw [ParsesHex, unhex_ok_iff, hexText_iff]
  constructor
  · rintro ⟨hiff, -⟩ ⟨heven, hpairs, pair, hpair, hplus⟩
    exact hplus.not_hexPair ((hiff.mp ⟨heven, hpairs⟩).2 pair hpair)
  · intro hplus
    refine ⟨⟨fun ⟨heven, hpairs⟩ => ⟨heven, fun pair hpair => ?_⟩, fun ⟨heven, hpairs⟩ =>
      ⟨heven, fun pair hpair => .inl (hpairs pair hpair)⟩⟩, fun h => (hexText_iff.mpr h).read⟩
    obtain hhex | hsign := hpairs pair hpair
    · exact hhex
    · exact absurd ⟨heven, hpairs, pair, hpair, hsign⟩ hplus

/-- A plus sign and a digit are decoded. -/
theorem plus_digit_decoded : unhex "+5" = .ok [5] ∧ ¬ HexText "+5" ∧ ¬ ParsesHex "+5" := by
  have hread : unhex "+5" = .ok [5] := by decide +kernel
  have htext : ¬ HexText "+5" := by
    rintro ⟨-, h⟩
    exact absurd (h '+' (by decide)) (by decide)
  exact ⟨hread, htext, fun ⟨hiff, _⟩ => htext (hiff.mp ⟨[5], hread⟩)⟩

end Fieldbus.Cloud
