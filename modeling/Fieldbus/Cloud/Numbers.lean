import Fieldbus.Cloud.Protocol
import Fieldbus.Library.Decimal
import Fieldbus.Library.LineCodec

/-!
# Numbers in JSON texts

`serde_json` prints a finite number as its shortest decimal (`numeral`). It reads a decimal by
multiplying its digits by a power of ten or dividing them by one, both rounded to binary64, and
rounds the result again (`fromParts`); only with its feature `float_roundtrip` it reads the number
nearest to the decimal (`nearestParts`). Printed numbers are read either way, by the second way as
they were (`read_nearest`), but by the first one as `reread` has it (`read_numeral`).
-/

namespace Fieldbus.Cloud

theorem F64.eq_of_bits {x y : F64} (h : x.bits = y.bits) : x = y := by
  cases x
  cases y
  exact congrArg F64.mk h

namespace Json

open Binary64

/-! ## Layout -/

/-- The digits with a point behind the first one, if there are others. -/
def mantissa : List Char → List Char
  | first :: second :: rest => first :: '.' :: second :: rest
  | digits => digits

/-- The text of `digits * 10 ^ exponent`. -/
def layout (digits : List Char) (exponent : Int) : List Char :=
  let point := digits.length + exponent
  if 0 ≤ exponent ∧ point ≤ 16 then
    digits ++ List.replicate exponent.toNat '0' ++ ['.', '0']
  else if 0 < point ∧ point ≤ 16 then
    digits.take point.toNat ++ '.' :: digits.drop point.toNat
  else if -5 < point ∧ point ≤ 0 then
    '0' :: '.' :: (List.replicate (-point).toNat '0' ++ digits)
  else
    mantissa digits ++ 'e' :: (if point - 1 < 0 then '-' else '+') ::
      Nat.toDigits 10 (point - 1).natAbs

/-- The text of a number without its sign. -/
def unsigned (bits : Nat) : List Char :=
  if bits = 0 then ['0', '.', '0']
  else layout (Nat.toDigits 10 (shortest bits).digits) ((shortest bits).exponent - 400)

/-- The text of a number; numbers that are not finite have none. -/
def numeral (x : F64) : List Char :=
  if x.isFinite then
    if 2 ^ 63 ≤ x.bits.toNat then '-' :: unsigned (x.bits.toNat % 2 ^ 63)
    else unsigned (x.bits.toNat % 2 ^ 63)
  else "null".toList

/-! ## Reading -/

/-- Read the exponent behind the digits of a number, and add it to theirs. -/
def scanExponent (significand : Nat) (exponent : Int) : List Char → Option (Nat × Int)
  | [] => some (significand, exponent)
  | 'e' :: sign :: digits =>
      if digits = [] ∨ !digits.all Char.isDigit then none
      else if sign = '-' then some (significand, exponent - Nat.ofDigitChars 10 digits 0)
      else if sign = '+' then some (significand, exponent + Nat.ofDigitChars 10 digits 0)
      else none
  | _ => none

/-- The digits of a number without the point, and the power of ten that they are multiplied by. -/
def scan (text : List Char) : Option (Nat × Int) :=
  let whole := text.takeWhile Char.isDigit
  if whole = [] then none
  else match text.dropWhile Char.isDigit with
    | '.' :: rest =>
        let fraction := rest.takeWhile Char.isDigit
        if fraction = [] then none
        else scanExponent (Nat.ofDigitChars 10 (whole ++ fraction) 0) (-fraction.length)
          (rest.dropWhile Char.isDigit)
    | rest => scanExponent (Nat.ofDigitChars 10 whole 0) 0 rest

/-- The table of powers of ten. -/
def pow10 (k : Nat) : Nat := ofNat (10 ^ k)

/-- Divide by `10 ^ k`, with a division by `1e308` for every 308 that the exponent has above 308. -/
def scaleDown (f k : Nat) : Nat :=
  div ((fun g => div g (pow10 308))^[(k - 1) / 308] f) (pow10 (k - (k - 1) / 308 * 308))

/-- `f64_from_parts`. -/
def fromParts (significand : Nat) : Int → Option Nat
  | .ofNat k =>
      if k ≤ 308 then
        let f := mul (ofNat significand) (pow10 k)
        if f < infinity then some f else none
      else if significand = 0 then some 0
      else none
  | .negSucc k => some (scaleDown (ofNat significand) (k + 1))

/-- `f64_from_parts` with the feature `float_roundtrip`, for exponents from `-400` on. -/
def nearestParts (significand : Nat) (exponent : Int) : Option Nat :=
  let f := (Decimal.mk significand (exponent + 400).toNat).nearest
  if f < infinity then some f else none

/-- Read a number without its sign. -/
def readUnsigned (parts : Nat → Int → Option Nat) (text : List Char) : Option Nat :=
  (scan text).bind fun scanned => parts scanned.1 scanned.2

/-- Read a number. -/
def readNumeral (parts : Nat → Int → Option Nat) : List Char → Option F64
  | '-' :: rest => (readUnsigned parts rest).map fun bits => ⟨UInt64.ofNat (2 ^ 63 + bits)⟩
  | text => (readUnsigned parts text).map fun bits => ⟨UInt64.ofNat bits⟩

/-- What the text of a number is read as. -/
def reread (x : F64) : F64 := (readNumeral fromParts (numeral x)).getD x

/-! ## Printed characters -/

/-- The text of a number has no comma and no line breaks. -/
def Plain (text : List Char) : Prop := ',' ∉ text ∧ NoBreaks text

instance (text : List Char) : Decidable (Plain text) := inferInstanceAs (Decidable (_ ∧ _))

theorem Plain.append {first second : List Char} (h : Plain first) (h' : Plain second) :
    Plain (first ++ second) :=
  ⟨fun hmem => (List.mem_append.mp hmem).elim h.1 h'.1, h.2.append h'.2⟩

theorem Plain.cons {ch : Char} {text : List Char} (hch : Plain [ch]) (h : Plain text) :
    Plain (ch :: text) :=
  Plain.append hch h

/-- A text of digits. -/
def Digits (text : List Char) : Prop := ∀ ch ∈ text, ch.isDigit = true

theorem Digits.plain {text : List Char} (h : Digits text) : Plain text := by
  refine ⟨fun hmem => absurd (h ',' hmem) (by decide), fun ch hmem => ?_⟩
  have hdigit := h ch hmem
  constructor <;> rintro rfl <;> simp at hdigit

theorem digits_toDigits (n : Nat) : Digits (Nat.toDigits 10 n) :=
  fun _ hch => Nat.isDigit_of_mem_toDigits (by decide) (by decide) hch

theorem digits_replicate (count : Nat) : Digits (List.replicate count '0') := by
  intro ch hch
  rw [List.eq_of_mem_replicate hch]
  decide

theorem mantissa_plain {digits : List Char} (h : Digits digits) : Plain (mantissa digits) := by
  rcases digits with _ | ⟨first, _ | ⟨second, rest⟩⟩
  · exact h.plain
  · exact h.plain
  · obtain ⟨hfirst, hrest⟩ := List.forall_mem_cons.mp h
    have hhead : Digits [first] := List.forall_mem_singleton.mpr hfirst
    exact .cons hhead.plain (.cons (by decide) (Digits.plain hrest))

theorem layout_plain {digits : List Char} (h : Digits digits) (exponent : Int) :
    Plain (layout digits exponent) := by
  rw [layout]
  split
  · exact (h.plain.append (digits_replicate _).plain).append (by decide)
  · split
    · have htake : Digits (digits.take (digits.length + exponent).toNat) :=
        fun ch hch => h ch (List.mem_of_mem_take hch)
      have hdrop : Digits (digits.drop (digits.length + exponent).toNat) :=
        fun ch hch => h ch (List.mem_of_mem_drop hch)
      exact htake.plain.append (.cons (by decide) hdrop.plain)
    · split
      · exact .cons (by decide) (.cons (by decide) ((digits_replicate _).plain.append h.plain))
      · refine (mantissa_plain h).append
          (.cons (by decide) (.cons ?_ (digits_toDigits _).plain))
        split <;> decide

theorem unsigned_plain (bits : Nat) : Plain (unsigned bits) := by
  rw [unsigned]
  split
  · decide
  · exact layout_plain (digits_toDigits _) _

theorem numeral_plain (x : F64) : Plain (numeral x) := by
  rw [numeral]
  split
  · split
    · exact .cons (by decide) (unsigned_plain _)
    · exact unsigned_plain _
  · decide

/-! ## Printed numbers are read -/

/-- Digits in front of something that does not begin with one. -/
theorem span_digits {digits : List Char} (h : Digits digits) (rest : List Char)
    (hrest : rest.takeWhile Char.isDigit = []) :
    (digits ++ rest).takeWhile Char.isDigit = digits ∧
      (digits ++ rest).dropWhile Char.isDigit = rest := by
  have hdrop := List.takeWhile_append_dropWhile (p := Char.isDigit) (l := rest)
  rw [hrest, List.nil_append] at hdrop
  rw [List.takeWhile_append_of_pos h, List.dropWhile_append_of_pos h, hrest, hdrop,
    List.append_nil]
  exact ⟨rfl, rfl⟩

theorem scan_fraction {whole fraction : List Char} (hwhole : Digits whole)
    (hfraction : Digits fraction) (hne : whole ≠ []) (hne' : fraction ≠ []) (rest : List Char)
    (hrest : rest.takeWhile Char.isDigit = []) :
    scan (whole ++ '.' :: (fraction ++ rest)) =
      scanExponent (Nat.ofDigitChars 10 (whole ++ fraction) 0) (-fraction.length) rest := by
  obtain ⟨htake, hdrop⟩ := span_digits hwhole ('.' :: (fraction ++ rest)) (by simp)
  obtain ⟨htake', hdrop'⟩ := span_digits hfraction rest hrest
  rw [scan, htake, hdrop]
  simp only [hne, hne', htake', hdrop', if_false]

theorem scan_whole {whole : List Char} (hwhole : Digits whole) (hne : whole ≠ [])
    (rest : List Char) :
    scan (whole ++ 'e' :: rest) =
      scanExponent (Nat.ofDigitChars 10 whole 0) 0 ('e' :: rest) := by
  obtain ⟨htake, hdrop⟩ := span_digits hwhole ('e' :: rest) (by simp)
  rw [scan, htake, hdrop]
  simp only [hne, if_false]
  rfl

theorem scan_exponent_digits (significand : Nat) (exponent point : Int) :
    scanExponent significand exponent ('e' :: (if point < 0 then '-' else '+') ::
      Nat.toDigits 10 point.natAbs) = some (significand, exponent + point) := by
  have hall : (Nat.toDigits 10 point.natAbs).all Char.isDigit = true :=
    List.all_eq_true.mpr (digits_toDigits _)
  by_cases hpoint : point < 0
  · simp [scanExponent, hall, hpoint, abs_of_neg hpoint]
  · simp [scanExponent, hall, hpoint, abs_of_nonneg (not_lt.mp hpoint)]

theorem scan_scientific {digits : List Char} (h : Digits digits) (hne : digits ≠ [])
    (point : Int) :
    scan (mantissa digits ++ 'e' :: (if point < 0 then '-' else '+') ::
      Nat.toDigits 10 point.natAbs) =
        some (Nat.ofDigitChars 10 digits 0, point + 1 - digits.length) := by
  rcases digits with _ | ⟨first, _ | ⟨second, rest⟩⟩
  · exact absurd rfl hne
  · refine (scan_whole h hne _).trans ?_
    rw [scan_exponent_digits]
    simp
  · obtain ⟨hfirst, hrest⟩ := List.forall_mem_cons.mp h
    have hhead : Digits [first] := List.forall_mem_singleton.mpr hfirst
    refine (scan_fraction hhead hrest (by simp) (by simp) _ (by simp)).trans ?_
    rw [scan_exponent_digits, List.singleton_append]
    simp only [List.length_cons, Option.some.injEq, Prod.mk.injEq, true_and]
    omega

/-- The text of a decimal is scanned as its digits and exponent, or with its zeros as digits. -/
theorem scan_layout (n : Nat) (exponent : Int) :
    (0 ≤ exponent ∧ scan (layout (Nat.toDigits 10 n) exponent) =
      some (n * 10 ^ (exponent.toNat + 1), -1)) ∨
    scan (layout (Nat.toDigits 10 n) exponent) = some (n, exponent) := by
  have hdigits := digits_toDigits n
  have hne : Nat.toDigits 10 n ≠ [] := Nat.toDigits_ne_nil
  have hvalue : Nat.ofDigitChars 10 (Nat.toDigits 10 n) 0 = n := Nat.ofDigitChars_ten_toDigits
  generalize Nat.toDigits 10 n = digits at *
  have hlength : 0 < digits.length := List.length_pos_iff.mpr hne
  rw [layout]
  split
  · -- the zeros behind the digits, and one behind the point
    rename_i hwhole
    left
    have hscan := scan_fraction
      (List.forall_mem_append.mpr ⟨hdigits, digits_replicate exponent.toNat⟩)
      (digits_replicate 1) (by simp [hne]) (by simp) [] rfl
    refine ⟨hwhole.1, ?_⟩
    rw [List.append_nil] at hscan
    refine hscan.trans ?_
    rw [List.append_assoc, ← List.replicate_add, Nat.ofDigitChars_append, hvalue,
      Nat.ofDigitChars_replicate_zero, Nat.mul_comm]
    rfl
  · right
    split
    · -- the point inside the digits
      rename_i hinside
      have htake : Digits (digits.take (digits.length + exponent).toNat) :=
        fun ch hch => hdigits ch (List.mem_of_mem_take hch)
      have hdrop : Digits (digits.drop (digits.length + exponent).toNat) :=
        fun ch hch => hdigits ch (List.mem_of_mem_drop hch)
      have hscan := scan_fraction htake hdrop ?_ ?_ [] rfl
      · rw [List.append_nil, List.take_append_drop, hvalue, List.length_drop] at hscan
        refine hscan.trans ?_
        simp only [scanExponent, Option.some.injEq, Prod.mk.injEq, true_and]
        omega
      · rw [ne_eq, List.take_eq_nil_iff, not_or]
        exact ⟨by omega, hne⟩
      · rw [ne_eq, List.drop_eq_nil_iff]
        omega
    · split
      · -- the point in front of the digits and of zeros
        have hscan := scan_fraction (digits_replicate 1)
          (List.forall_mem_append.mpr
            ⟨digits_replicate (-(digits.length + exponent)).toNat, hdigits⟩)
          (by simp) (by simp [hne]) [] rfl
        rw [List.append_nil, ← List.append_assoc, ← List.replicate_add, Nat.ofDigitChars_append,
          Nat.ofDigitChars_replicate_zero, Nat.mul_zero, hvalue] at hscan
        refine hscan.trans ?_
        simp only [scanExponent, List.length_append, List.length_replicate, Option.some.injEq,
          Prod.mk.injEq, true_and]
        omega
      · -- the point behind the first digit
        refine (scan_scientific hdigits hne _).trans ?_
        rw [hvalue]
        simp

/-- What is scanned is the shortest decimal, and its digits where they are to be multiplied. -/
structure Scanned (bits significand : Nat) (exponent : Int) : Prop where
  low : -400 ≤ exponent
  value : (Decimal.mk significand (exponent + 400).toNat).value =
    if bits = 0 then 0 else (shortest bits).value
  digits : 0 ≤ exponent → bits ≠ 0 ∧ significand = (shortest bits).digits

theorem scan_unsigned (bits : Nat) :
    ∃ significand exponent, scan (unsigned bits) = some (significand, exponent) ∧
      Scanned bits significand exponent := by
  by_cases hzero : bits = 0
  · refine ⟨0, -1, ?_, by omega, ?_, by omega⟩
    · rw [unsigned, if_pos hzero]
      rfl
    · rw [if_pos hzero, Decimal.value_mk, Nat.zero_mul]
  · rw [unsigned, if_neg hzero]
    obtain ⟨d, hd⟩ : ∃ d, shortest bits = d := ⟨_, rfl⟩
    rw [hd]
    rcases scan_layout d.digits (d.exponent - 400) with ⟨hwhole, hscan⟩ | hscan
    · refine ⟨_, _, hscan, by omega, ?_, by omega⟩
      have hexponent : ((d.exponent : Int) - 400).toNat + 1 + (-1 + 400 : Int).toNat =
          d.exponent := by omega
      rw [if_neg hzero, hd, Decimal.value_mk, Nat.mul_assoc, ← pow_add, hexponent, Decimal.value]
    · refine ⟨_, _, hscan, by omega, ?_, fun _ => ⟨hzero, by rw [hd]⟩⟩
      rw [if_neg hzero, hd, Int.sub_add_cancel, Int.toNat_natCast]

/-! ### The nearest number -/

theorem read_unsigned_nearest {bits : Nat} (h : bits < infinity) :
    readUnsigned nearestParts (unsigned bits) = some bits := by
  obtain ⟨significand, exponent, hscan, hscanned⟩ := scan_unsigned bits
  have hvalue := hscanned.value
  have hnearest : (Decimal.mk significand (exponent + 400).toNat).nearest = bits := by
    by_cases hzero : bits = 0
    · rw [if_pos hzero] at hvalue
      rw [Decimal.nearest_of_zero hvalue, hzero]
    · rw [if_neg hzero] at hvalue
      rw [Decimal.nearest_congr hvalue, nearest_shortest (Nat.pos_of_ne_zero hzero) h]
  have hparts : nearestParts significand exponent = some bits := by
    rw [nearestParts, hnearest, if_pos h]
  rw [readUnsigned, hscan, Option.bind_some, hparts]

/-! ### The rounded product or quotient -/

/-- The largest digits of large decimals can be multiplied by their powers of ten. -/
theorem largest_digits_lt : ∀ i < 17,
    mul (ofNat (Decimal.largest.value / 10 ^ (i + 692))) (pow10 (i + 292)) < infinity := by
  decide +kernel

/-- The digits of decimals up to the largest one can be multiplied by their powers of ten. -/
theorem mul_digits_lt {digits k : Nat} (hpos : 0 < digits) (hdigits : digits ≤ 10 ^ 17)
    (h : digits * 10 ^ (k + 400) ≤ Decimal.largest.value) :
    k ≤ 308 ∧ mul (ofNat digits) (pow10 k) < infinity := by
  have hexponent : k ≤ 308 := by
    by_contra hlarge
    have hle : 10 ^ 709 ≤ Decimal.largest.value :=
      calc 10 ^ 709 ≤ 10 ^ (k + 400) := pow_le_pow_right₀ (by decide) (by omega)
        _ ≤ digits * 10 ^ (k + 400) := Nat.le_mul_of_pos_left _ hpos
        _ ≤ Decimal.largest.value := h
    have hlt : Decimal.largest.value < 10 ^ 709 := by decide +kernel
    exact Nat.not_lt.mpr hle hlt
  refine ⟨hexponent, ?_⟩
  rcases Nat.lt_or_ge k 292 with hsmall | hlarge
  · have hpower : 10 ^ k ≤ 10 ^ 291 :=
      pow_le_pow_right₀ (by decide) (Nat.le_of_lt_succ hsmall)
    calc mul (ofNat digits) (pow10 k) ≤ mul (ofNat (10 ^ 17)) (pow10 291) :=
          mul_mono (of_nat_mono hdigits) (of_nat_mono hpower)
      _ < infinity := by decide +kernel
  · obtain ⟨i, rfl⟩ := Nat.exists_eq_add_of_le' hlarge
    have hle : digits ≤ Decimal.largest.value / 10 ^ (i + 692) :=
      (Nat.le_div_iff_mul_le (Nat.pow_pos (by decide))).mpr h
    calc mul (ofNat digits) (pow10 (i + 292))
        ≤ mul (ofNat (Decimal.largest.value / 10 ^ (i + 692))) (pow10 (i + 292)) :=
          mul_mono (of_nat_mono hle) le_rfl
      _ < infinity := largest_digits_lt i (by omega)

theorem read_unsigned {bits : Nat} (h : bits < infinity) :
    ∃ result, readUnsigned fromParts (unsigned bits) = some result := by
  obtain ⟨significand, exponent, hscan, hscanned⟩ := scan_unsigned bits
  have hread : ∃ result, fromParts significand exponent = some result := by
    cases exponent with
    | negSucc k => exact ⟨_, rfl⟩
    | ofNat k =>
        obtain ⟨hne, hdigits⟩ := hscanned.digits (Int.natCast_nonneg k)
        obtain ⟨hpos, hle, hfits⟩ := shortest_fits (Nat.pos_of_ne_zero hne) h
        have hvalue := hscanned.value
        have hexponent : (Int.ofNat k + 400).toNat = k + 400 := by
          rw [Int.ofNat_eq_natCast]
          omega
        rw [if_neg hne, Decimal.value_mk, hexponent] at hvalue
        obtain ⟨hsmall, hlt⟩ := mul_digits_lt (hdigits ▸ hpos) (hdigits ▸ hle)
          (hvalue.trans_le hfits)
        exact ⟨_, by rw [fromParts, if_pos hsmall, if_pos hlt]⟩
  obtain ⟨result, hresult⟩ := hread
  exact ⟨result, by rw [readUnsigned, hscan, Option.bind_some, hresult]⟩

/-! ## Signs -/

theorem finite_iff {x : F64} : x.isFinite = true ↔ x.bits.toNat % 2 ^ 63 < infinity := by
  have hexponent : x.exponent.toNat = x.bits.toNat / 2 ^ 52 % 2 ^ 11 := by
    rw [F64.exponent, UInt64.toNat_and, UInt64.toNat_shiftRight, Nat.shiftRight_eq_div_pow]
    exact Nat.and_two_pow_sub_one_eq_mod _ 11
  rw [F64.isFinite, bne_iff_ne, ne_eq, ← UInt64.toNat_inj, hexponent, infinity]
  have := x.bits.toNat_lt
  change ¬ _ = 2047 ↔ _
  omega

/-- The sign is read as it was printed. -/
theorem read_numeral_of {parts : Nat → Int → Option Nat} {x : F64} {result : Nat}
    (hfinite : x.isFinite = true)
    (h : readUnsigned parts (unsigned (x.bits.toNat % 2 ^ 63)) = some result) :
    readNumeral parts (numeral x) = some
      ⟨UInt64.ofNat (if 2 ^ 63 ≤ x.bits.toNat then 2 ^ 63 + result else result)⟩ := by
  rw [numeral, if_pos hfinite]
  split
  · rw [readNumeral, h, Option.map_some]
  · rw [readNumeral, h, Option.map_some]
    intro rest hminus
    rw [hminus] at h
    simp [readUnsigned, scan] at h

theorem read_nearest {x : F64} (h : x.isFinite = true) :
    readNumeral nearestParts (numeral x) = some x := by
  rw [read_numeral_of h (read_unsigned_nearest (finite_iff.mp h))]
  have hlt := x.bits.toNat_lt
  have hbits : (if 2 ^ 63 ≤ x.bits.toNat then 2 ^ 63 + x.bits.toNat % 2 ^ 63
      else x.bits.toNat % 2 ^ 63) = x.bits.toNat := by
    split <;> omega
  rw [hbits, UInt64.ofNat_toNat]

theorem read_numeral {x : F64} (h : x.isFinite = true) :
    readNumeral fromParts (numeral x) = some (reread x) := by
  obtain ⟨result, hresult⟩ := read_unsigned (finite_iff.mp h)
  rw [reread, read_numeral_of h hresult, Option.getD_some]

/-- `1.0` is read as `10 / 10`. -/
theorem reread_one : reread ⟨0x3FF0000000000000⟩ = ⟨0x3FF0000000000000⟩ :=
  F64.eq_of_bits (by decide +kernel)

/-- `27.161326344827266` is read as the number below. -/
theorem reread_below : reread ⟨0x403B294CAEEF042E⟩ = ⟨0x403B294CAEEF042D⟩ :=
  F64.eq_of_bits (by decide +kernel)

attribute [irreducible] reread

end Json

end Fieldbus.Cloud
