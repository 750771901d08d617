import Fieldbus.Library.Binary64

/-!
# Shortest decimals

Among the decimals that a binary64 number is nearest to, `shortest` has the fewest digits, and of
those with so many digits it is the one nearest to the number. Seventeen digits are always enough,
so that every number is nearest to its shortest decimal (`nearest_shortest`), and no decimal is
above that of the largest number (`shortest_fits`).
-/

namespace Fieldbus.Binary64

/-- The units of `10 ^ -400` in one. -/
@[irreducible] def decimalsInOne : Nat := 10 ^ 400

theorem decimals_in_one_pos : 0 < decimalsInOne := by
  unfold decimalsInOne
  positivity

/-- The decimal `digits * 10 ^ (exponent - 400)`. -/
structure Decimal where
  digits : Nat
  exponent : Nat
  deriving DecidableEq

namespace Decimal

/-- The value of a decimal, in units of `10 ^ -400`. -/
def value (d : Decimal) : Nat := d.digits * 10 ^ d.exponent

/-- The number nearest to a decimal. -/
def nearest (d : Decimal) : Nat := Binary64.nearest (d.value * unitsInOne) decimalsInOne

theorem value_mk (digits exponent : Nat) :
    value ⟨digits, exponent⟩ = digits * 10 ^ exponent :=
  rfl

theorem nearest_congr {d d' : Decimal} (h : d.value = d'.value) : d.nearest = d'.nearest := by
  rw [nearest, nearest, h]

theorem nearest_of_zero {d : Decimal} (h : d.value = 0) : d.nearest = 0 := by
  rw [nearest, h, Nat.zero_mul, nearest_zero decimals_in_one_pos]

/-- The decimal with the given number of digits; a power of ten is written with one digit. -/
def ofDigits (count digits exponent : Nat) : Decimal :=
  if digits = 10 ^ count then ⟨1, exponent + count⟩ else ⟨digits, exponent⟩

@[simp] theorem value_of_digits (count digits exponent : Nat) :
    (ofDigits count digits exponent).value = digits * 10 ^ exponent := by
  rw [ofDigits]
  split
  · rename_i hcarry
    rw [value, hcarry, Nat.one_mul, Nat.pow_add, Nat.mul_comm]
  · rfl

theorem of_digits_le {count digits bound : Nat} (h : digits ≤ bound) (hbound : 0 < bound)
    (exponent : Nat) : (ofDigits count digits exponent).digits ≤ bound := by
  rw [ofDigits]
  split
  · exact hbound
  · exact h

end Decimal

/-- The exponent of the first digit of a number in decimal, counted from `-400`. -/
def magnitude (x : Nat) : Nat := Nat.log 10 (units x * decimalsInOne / unitsInOne)

/-- The exponent of the last of so many digits. -/
def lastPlace (x count : Nat) : Nat := magnitude x + 1 - count

/-- The digits of the nearest decimal with so many digits. -/
def roundedDigits (x count : Nat) : Nat :=
  roundDiv (units x * decimalsInOne) (unitsInOne * 10 ^ lastPlace x count)

/-- The digits of the decimal on the other side of the number. -/
def otherDigits (x count : Nat) : Nat :=
  if units x * decimalsInOne < roundedDigits x count * (unitsInOne * 10 ^ lastPlace x count) then
    roundedDigits x count - 1
  else roundedDigits x count + 1

/-- The nearest decimal with so many digits, or the one on the other side, whichever the number is
nearest to. -/
def withDigits (x count : Nat) : Option Decimal :=
  [roundedDigits x count, otherDigits x count].findSome? fun digits =>
    let d := Decimal.ofDigits count digits (lastPlace x count)
    if d.nearest = x then some d else none

/-- The shortest decimal that the number is nearest to. -/
def shortest (x : Nat) : Decimal :=
  ((List.range 16).findSome? fun count => withDigits x (count + 1)).getD
    (.ofDigits 17 (roundedDigits x 17) (lastPlace x 17))

/-! ## Digits of a number -/

section

variable {x count : Nat}

theorem units_pos (h : 0 < x) : 0 < units x := by
  have hle := units_mono (a := 1) h
  exact Nat.lt_of_lt_of_le (by decide) hle

/-- Every positive number has at least 17 digits above the last place of decimals. -/
theorem le_magnitude (h : 0 < x) : 16 ≤ magnitude x := by
  refine Nat.le_log_of_pow_le (by decide) ((Nat.le_div_iff_mul_le units_in_one_pos).mpr ?_)
  calc 10 ^ 16 * unitsInOne ≤ 1 * decimalsInOne := by decide +kernel
    _ ≤ units x * decimalsInOne := Nat.mul_le_mul_right _ (units_pos h)

theorem last_place_add (h : 0 < x) (hcount : count ≤ 17) :
    lastPlace x count + count = magnitude x + 1 := by
  have := le_magnitude h
  rw [lastPlace]
  omega

/-- The number is below the power of ten that its first digit leads up to. -/
theorem lt_digits (h : 0 < x) (hcount : count ≤ 17) :
    units x * decimalsInOne < 10 ^ count * (unitsInOne * 10 ^ lastPlace x count) := by
  have hlt := Nat.lt_pow_succ_log_self (b := 10) (by decide) (units x * decimalsInOne / unitsInOne)
  calc units x * decimalsInOne < 10 ^ (magnitude x + 1) * unitsInOne :=
        (Nat.div_lt_iff_lt_mul units_in_one_pos).mp hlt
    _ = 10 ^ count * (unitsInOne * 10 ^ lastPlace x count) := by
        rw [← last_place_add h hcount, Nat.pow_add]
        ring

/-- The number is not below the power of ten of its first digit. -/
theorem digits_le (h : 0 < x) (hcount : count + 1 ≤ 17) :
    10 ^ count * (unitsInOne * 10 ^ lastPlace x (count + 1)) ≤ units x * decimalsInOne := by
  have hpos : units x * decimalsInOne / unitsInOne ≠ 0 := by
    have hle := le_magnitude h
    intro hzero
    rw [magnitude, hzero, Nat.log_zero_right] at hle
    omega
  have hle := Nat.pow_log_le_self 10 hpos
  have hsum := last_place_add h hcount
  calc 10 ^ count * (unitsInOne * 10 ^ lastPlace x (count + 1))
      = 10 ^ magnitude x * unitsInOne := by
        rw [show magnitude x = lastPlace x (count + 1) + count by omega, Nat.pow_add]
        ring
    _ ≤ units x * decimalsInOne := (Nat.le_div_iff_mul_le units_in_one_pos).mp hle

theorem place_pos (x count : Nat) : 0 < unitsInOne * 10 ^ lastPlace x count :=
  Nat.mul_pos units_in_one_pos (Nat.pow_pos (by decide))

theorem rounded_digits_le (h : 0 < x) (hcount : count ≤ 17) :
    roundedDigits x count ≤ 10 ^ count :=
  round_div_le (place_pos x count) (lt_digits h hcount).le

theorem other_digits_le (h : 0 < x) (hcount : count ≤ 17) :
    otherDigits x count ≤ 10 ^ count + 1 := by
  have := rounded_digits_le h hcount
  rw [otherDigits]
  split <;> omega

end

/-! ## The shortest decimal -/

section

variable {x count : Nat} {d : Decimal}

theorem with_digits_nearest (h : withDigits x count = some d) : d.nearest = x := by
  obtain ⟨digits, -, hd⟩ := List.exists_of_findSome?_eq_some h
  simp only [Option.ite_none_right_eq_some, Option.some.injEq] at hd
  exact hd.2 ▸ hd.1

theorem with_digits_le (hx : 0 < x) (hcount : count ≤ 16) (h : withDigits x count = some d) :
    d.digits ≤ 10 ^ 16 + 1 := by
  obtain ⟨digits, hmem, hd⟩ := List.exists_of_findSome?_eq_some h
  simp only [Option.ite_none_right_eq_some, Option.some.injEq] at hd
  have hpow : 10 ^ count ≤ 10 ^ 16 := Nat.pow_le_pow_right (by decide) hcount
  rw [← hd.2]
  refine Decimal.of_digits_le ?_ (by decide) _
  rcases List.mem_cons.mp hmem with rfl | hmem
  · have := rounded_digits_le hx (hcount.trans (by decide))
    omega
  · rw [List.mem_singleton.mp hmem]
    have := other_digits_le hx (hcount.trans (by decide))
    omega

/-- The shortest decimal has at most 16 digits, or it is the nearest one with 17 digits. -/
theorem shortest_cases (x : Nat) :
    (∃ count ≤ 16, withDigits x count = some (shortest x)) ∨
      shortest x = .ofDigits 17 (roundedDigits x 17) (lastPlace x 17) := by
  rw [shortest]
  cases hfind : (List.range 16).findSome? fun count => withDigits x (count + 1) with
  | none => exact .inr (Option.getD_none ..)
  | some d =>
      obtain ⟨count, hmem, hd⟩ := List.exists_of_findSome?_eq_some hfind
      exact .inl ⟨count + 1, List.mem_range.mp hmem, hd⟩

/-- Rounding at the seventeenth digit changes a number by less than a part in `2 * 10 ^ 16`. -/
theorem seventeen_close {v p r : Nat} (habove : 2 * v ≤ (2 * r + 1) * p)
    (hbelow : 2 * r * p ≤ 2 * v + p) (hdigits : 10 ^ 16 * p ≤ v) :
    2 * 10 ^ 16 * (r * p) ≤ (2 * 10 ^ 16 + 1) * v ∧
      (2 * 10 ^ 16 - 1) * v ≤ 2 * 10 ^ 16 * (r * p) := by
  rw [Nat.add_mul, Nat.one_mul, Nat.mul_assoc] at habove
  rw [Nat.mul_assoc] at hbelow
  generalize r * p = e at *
  constructor <;> omega

/-- A number is nearest to its decimal with 17 digits. -/
theorem nearest_seventeen (hx : 0 < x) (hfinite : x < infinity) :
    (Decimal.ofDigits 17 (roundedDigits x 17) (lastPlace x 17)).nearest = x := by
  obtain ⟨habove, hbelow⟩ := round_div_bounds (n := units x * decimalsInOne) (place_pos x 17)
  obtain ⟨hupper, hlower⟩ := seventeen_close habove hbelow (digits_le hx le_rfl)
  rw [Decimal.nearest, Decimal.value_of_digits, Nat.mul_assoc, Nat.mul_comm (10 ^ _) unitsInOne]
  exact nearest_of_close hfinite.le decimals_in_one_pos hupper hlower

/-- A number is nearest to its shortest decimal. -/
theorem nearest_shortest (hx : 0 < x) (hfinite : x < infinity) : (shortest x).nearest = x := by
  rcases shortest_cases x with ⟨count, -, h⟩ | h
  · exact with_digits_nearest h
  · exact h ▸ nearest_seventeen hx hfinite

end

/-! ## The largest decimal -/

/-- The shortest decimal of the largest number. -/
def Decimal.largest : Decimal := ⟨17976931348623157, 692⟩

section

variable {x : Nat} {d : Decimal}

/-- Decimals of at most 16 digits that are nearest to a number are not above the largest one. -/
theorem Decimal.le_largest (hdigits : d.digits ≤ 10 ^ 16 + 1) (h : d.nearest < infinity) :
    d.value ≤ largest.value := by
  rcases Nat.lt_or_ge d.exponent 693 with hsmall | hlarge
  · calc d.value ≤ (10 ^ 16 + 1) * 10 ^ 692 :=
          Nat.mul_le_mul hdigits (Nat.pow_le_pow_right (by decide) (Nat.le_of_lt_succ hsmall))
      _ ≤ largest.value := by decide +kernel
  · obtain ⟨above, habove⟩ := Nat.exists_eq_add_of_le' hlarge
    have hvalue : d.value = d.digits * 10 ^ above * 10 ^ 693 := by
      rw [value, habove, pow_add, Nat.mul_assoc]
    -- from here on decimals are nearest to infinity
    have hlt : d.digits * 10 ^ above < 1797693134862316 := by
      by_contra hge
      have hle := nearest_mono decimals_in_one_pos (Nat.mul_le_mul_right unitsInOne
        (Nat.mul_le_mul_right (10 ^ 693) (Nat.not_lt.mp hge)))
      rw [← hvalue] at hle
      have hinfinite : infinity ≤
          Binary64.nearest (1797693134862316 * 10 ^ 693 * unitsInOne) decimalsInOne := by
        decide +kernel
      exact Nat.not_lt.mpr (hinfinite.trans hle) h
    calc d.value = d.digits * 10 ^ above * 10 ^ 693 := hvalue
      _ ≤ 1797693134862315 * 10 ^ 693 := Nat.mul_le_mul_right _ (Nat.le_of_lt_succ hlt)
      _ ≤ largest.value := by decide +kernel

/-- The digits of the largest number. -/
theorem rounded_digits_largest :
    roundDiv (units (infinity - 1) * decimalsInOne) (unitsInOne * 10 ^ 692) =
      17976931348623157 := by
  decide +kernel

/-- The largest number has 309 digits before the point. -/
theorem magnitude_largest : magnitude (infinity - 1) = 708 := by
  decide +kernel

theorem last_place_le (hx : 0 < x) (hfinite : x < infinity) : lastPlace x 17 ≤ 692 := by
  have hlog : magnitude x ≤ 708 := by
    rw [← magnitude_largest]
    exact Nat.log_mono_right (Nat.div_le_div_right (Nat.mul_le_mul_right _
      (units_mono (Nat.le_sub_one_of_lt hfinite))))
  have := last_place_add hx (le_refl 17)
  omega

/-- The nearest decimal with 17 digits is not above the largest one. -/
theorem seventeen_le_largest (hx : 0 < x) (hfinite : x < infinity) :
    roundedDigits x 17 * 10 ^ lastPlace x 17 ≤ Decimal.largest.value := by
  rcases Nat.lt_or_eq_of_le (last_place_le hx hfinite) with hlt | heq
  · calc roundedDigits x 17 * 10 ^ lastPlace x 17 ≤ 10 ^ 17 * 10 ^ 691 :=
          Nat.mul_le_mul (rounded_digits_le hx le_rfl)
            (Nat.pow_le_pow_right (by decide) (Nat.le_of_lt_succ hlt))
      _ ≤ Decimal.largest.value := by decide +kernel
  · have hdigits : roundedDigits x 17 ≤ 17976931348623157 := by
      rw [roundedDigits, heq, ← rounded_digits_largest]
      refine round_div_mono (heq ▸ place_pos x 17) (Nat.mul_le_mul_right _ ?_)
      exact units_mono (Nat.le_sub_one_of_lt hfinite)
    simp only [heq, Decimal.value, Decimal.largest]
    exact Nat.mul_le_mul_right _ hdigits

/-- The shortest decimal of a number has at most 17 digits, and is not above the largest one. -/
theorem shortest_fits (hx : 0 < x) (hfinite : x < infinity) :
    0 < (shortest x).digits ∧ (shortest x).digits ≤ 10 ^ 17 ∧
      (shortest x).value ≤ Decimal.largest.value := by
  have hnearest := nearest_shortest hx hfinite
  refine ⟨?_, ?_⟩
  · -- zero is another number
    by_contra hzero
    have hvalue : (shortest x).value = 0 := by
      rw [Decimal.value, Nat.eq_zero_of_not_pos hzero, Nat.zero_mul]
    exact hx.ne ((Decimal.nearest_of_zero hvalue).symm.trans hnearest)
  · rcases shortest_cases x with ⟨count, hcount, h⟩ | h
    · have hdigits := with_digits_le hx hcount h
      exact ⟨hdigits.trans (by decide), Decimal.le_largest hdigits (hnearest.symm ▸ hfinite)⟩
    · rw [h, Decimal.value_of_digits]
      exact ⟨Decimal.of_digits_le (rounded_digits_le hx le_rfl) (by decide) _,
        seventeen_le_largest hx hfinite⟩

end

end Fieldbus.Binary64
