import Mathlib.Algebra.Order.Ring.Nat
import Mathlib.Data.Nat.Log
import Mathlib.Tactic.Linarith
import Mathlib.Tactic.Positivity
import Mathlib.Tactic.Ring

/-!
# Arithmetic of binary64 numbers

A non-negative binary64 number is given by its bits as a natural number, the exponent field above
the 52 bits of the fraction, so that numbers are ordered as their bits. Its value is an integral
multiple of `2 ^ -1074`, the least number: `units` many of them. `nearest n d` is the number nearest
to the fraction `n / d` of a unit, with ties to the even one, and `infinity` from halfway between
the largest number and `2 ^ 1024`; products and quotients are those of the values, rounded by it.
Rounding is monotone (`nearest_mono`), and gives back a number from any fraction that differs from
it by at most a part in `2 * 10 ^ 16` (`nearest_of_close`).
-/

namespace Fieldbus.Binary64

/-! ## Rounded quotients -/

/-- The integer nearest to a quotient, the even one of two. -/
def roundDiv (n d : Nat) : Nat :=
  if 2 * (n % d) < d then n / d
  else if d < 2 * (n % d) then n / d + 1
  else n / d + n / d % 2

section RoundDiv

variable {n n' d q : Nat}

/-- A rounded quotient differs from the exact one by a half at most. -/
theorem round_div_bounds (hd : 0 < d) :
    2 * n ≤ (2 * roundDiv n d + 1) * d ∧ 2 * roundDiv n d * d ≤ 2 * n + d := by
  have hdiv := Nat.div_add_mod n d
  have hlt := Nat.mod_lt n hd
  rw [roundDiv]
  generalize n / d = q at hdiv ⊢
  generalize n % d = r at hdiv hlt ⊢
  subst hdiv
  split
  · constructor <;> nlinarith
  · split
    · constructor <;> nlinarith
    · rcases Nat.mod_two_eq_zero_or_one q with h | h <;> rw [h] <;> constructor <;> nlinarith

/-- A quotient that differs from an integer by less than a half is rounded to it. -/
theorem round_div_eq (hupper : 2 * n < (2 * q + 1) * d) (hlower : 2 * q * d < 2 * n + d) :
    roundDiv n d = q := by
  have hd : 0 < d := Nat.pos_of_mul_pos_left (Nat.zero_lt_of_lt hupper)
  obtain ⟨habove, hbelow⟩ := round_div_bounds (n := n) hd
  have hle : roundDiv n d < q + 1 := by
    by_contra hge
    nlinarith [Nat.mul_le_mul_right d (Nat.not_lt.mp hge)]
  have hge : q < roundDiv n d + 1 := by
    by_contra hge
    nlinarith [Nat.mul_le_mul_right d (Nat.not_lt.mp hge)]
  omega

theorem round_div_mono (hd : 0 < d) (h : n ≤ n') : roundDiv n d ≤ roundDiv n' d := by
  by_contra hlt
  obtain ⟨-, hbelow⟩ := round_div_bounds (n := n) hd
  obtain ⟨habove, -⟩ := round_div_bounds (n := n') hd
  have hstep : (roundDiv n' d + 1) * d ≤ roundDiv n d * d := Nat.mul_le_mul_right d (by omega)
  -- the two can only be rounded apart from the same halfway point
  have heq : n = n' := by nlinarith
  exact hlt (heq ▸ Nat.le_refl _)

/-- A quotient of at least `q` is rounded to at least `q`. -/
theorem le_round_div (hd : 0 < d) (h : q * d ≤ n) : q ≤ roundDiv n d := by
  have heq : roundDiv (q * d) d = q := round_div_eq (by nlinarith) (by nlinarith)
  exact heq ▸ round_div_mono hd h

/-- A quotient of at most `q` is rounded to at most `q`. -/
theorem round_div_le (hd : 0 < d) (h : n ≤ q * d) : roundDiv n d ≤ q := by
  have heq : roundDiv (q * d) d = q := round_div_eq (by nlinarith) (by nlinarith)
  exact heq ▸ round_div_mono hd h

end RoundDiv

/-! ## Numbers -/

/-- The bits of infinity. -/
def infinity : Nat := 2047 * 2 ^ 52

/-- The power of two of a number's last place, in units. -/
def scale (bits : Nat) : Nat := bits / 2 ^ 52 - 1

/-- The digits of a number as an integer. -/
def significand (bits : Nat) : Nat := bits - scale bits * 2 ^ 52

/-- The value of a number, in units of `2 ^ -1074`. -/
def units (bits : Nat) : Nat := significand bits * 2 ^ scale bits

theorem significand_lt (bits : Nat) : significand bits < 2 ^ 53 := by
  rw [significand, scale]
  omega

theorem le_significand {bits : Nat} (h : 0 < scale bits) : 2 ^ 52 ≤ significand bits := by
  rw [significand]
  rw [scale] at h ⊢
  omega

theorem significand_add_scale (bits : Nat) : scale bits * 2 ^ 52 + significand bits = bits := by
  rw [significand, scale]
  omega

/-- Numbers are ordered as their bits. -/
theorem units_mono {a b : Nat} (h : a ≤ b) : units a ≤ units b := by
  have hscale : scale a ≤ scale b := Nat.sub_le_sub_right (Nat.div_le_div_right h) 1
  have ha := significand_add_scale a
  have hb := significand_add_scale b
  rcases Nat.eq_or_lt_of_le hscale with heq | hlt
  · rw [units, units, heq]
    exact Nat.mul_le_mul_right _ (by omega)
  · calc units a ≤ 2 ^ 53 * 2 ^ scale a := Nat.mul_le_mul_right _ (significand_lt a).le
      _ = 2 ^ 52 * 2 ^ (scale a + 1) := by ring
      _ ≤ significand b * 2 ^ scale b :=
          Nat.mul_le_mul (le_significand (by omega)) (Nat.pow_le_pow_right (by decide) hlt)

/-! ## Rounding -/

/-- The place at which a fraction is rounded: the power of two of the last of its 53 digits, or the
last place of all. -/
def place (n d : Nat) : Nat := (n / d).log2 - 52

section Place

variable {n n' d s : Nat}

theorem place_mono (h : n ≤ n') : place n d ≤ place n' d := by
  rw [place, place, Nat.log2_eq_log_two, Nat.log2_eq_log_two]
  exact Nat.sub_le_sub_right (Nat.log_mono_right (Nat.div_le_div_right h)) 52

theorem place_le (hd : 0 < d) (h : n < 2 ^ 53 * (d * 2 ^ s)) : place n d ≤ s := by
  have hlog : (n / d).log2 < 53 + s := by
    rcases Nat.eq_zero_or_pos (n / d) with hzero | hpos
    · rw [hzero, Nat.log2_zero]
      omega
    · refine (Nat.log2_lt hpos.ne').mpr ((Nat.div_lt_iff_lt_mul hd).mpr ?_)
      rw [Nat.pow_add, Nat.mul_assoc, Nat.mul_comm (2 ^ s)]
      exact h
  rw [place]
  omega

theorem le_place (hd : 0 < d) (h : 2 ^ 52 * (d * 2 ^ s) ≤ n) : s ≤ place n d := by
  have hle : 2 ^ (52 + s) ≤ n / d := by
    rw [Nat.le_div_iff_mul_le hd, Nat.pow_add, Nat.mul_assoc, Nat.mul_comm (2 ^ s)]
    exact h
  have hne : n / d ≠ 0 := ((Nat.two_pow_pos (52 + s)).trans_le hle).ne'
  have hlog := (Nat.le_log2 hne).mpr hle
  rw [place]
  omega

theorem next_place (d s : Nat) : d * 2 ^ (s + 1) = 2 * (d * 2 ^ s) := by ring

/-- A fraction has at most 53 digits up to its place. -/
theorem le_at_place (hd : 0 < d) (n : Nat) : n ≤ 2 ^ 53 * (d * 2 ^ place n d) := by
  by_contra hlt
  have hnext : 2 ^ 52 * (d * 2 ^ (place n d + 1)) ≤ n := by
    rw [next_place]
    omega
  have := le_place hd hnext
  omega

/-- Above the last place of all a fraction has all its digits. -/
theorem at_place_le (hd : 0 < d) (h : 0 < place n d) : 2 ^ 52 * (d * 2 ^ place n d) ≤ n := by
  by_contra hlt
  obtain ⟨s, hs⟩ : ∃ s, place n d = s + 1 := ⟨place n d - 1, by omega⟩
  have hprevious : n < 2 ^ 53 * (d * 2 ^ s) := by
    rw [hs, next_place] at hlt
    omega
  have := place_le hd hprevious
  omega

end Place

/-- The number nearest to the fraction of a unit. -/
def nearest (n d : Nat) : Nat :=
  min infinity (place n d * 2 ^ 52 + roundDiv n (d * 2 ^ place n d))

/-- Rounding keeps the order. -/
theorem nearest_mono {n n' d : Nat} (hd : 0 < d) (h : n ≤ n') : nearest n d ≤ nearest n' d := by
  refine min_le_min_left _ ?_
  have hplace : 0 < d * 2 ^ place n d := Nat.mul_pos hd (Nat.two_pow_pos _)
  rcases Nat.eq_or_lt_of_le (place_mono (d := d) h) with heq | hlt
  · rw [← heq]
    exact Nat.add_le_add_left (round_div_mono hplace h) _
  · -- the greater one is rounded at a higher place, where it has all its digits
    have hbelow := round_div_le hplace (le_at_place hd n)
    have habove := le_round_div (Nat.mul_pos hd (Nat.two_pow_pos _))
      (at_place_le hd (Nat.zero_lt_of_lt hlt))
    calc place n d * 2 ^ 52 + roundDiv n (d * 2 ^ place n d)
        ≤ place n d * 2 ^ 52 + 2 ^ 53 := Nat.add_le_add_left hbelow _
      _ = (place n d + 1) * 2 ^ 52 + 2 ^ 52 := by ring
      _ ≤ place n' d * 2 ^ 52 + 2 ^ 52 := Nat.add_le_add_right (Nat.mul_le_mul_right _ hlt) _
      _ ≤ place n' d * 2 ^ 52 + roundDiv n' (d * 2 ^ place n' d) := Nat.add_le_add_left habove _

/-- A quotient near an integer of at most 53 bits is rounded to it. -/
theorem round_div_of_close {a d m : Nat} (hd : 0 < d) (hm : m ≤ 2 ^ 53)
    (habove : 2 * 10 ^ 16 * a ≤ (2 * 10 ^ 16 + 1) * (m * d))
    (hbelow : (2 * 10 ^ 16 - 1) * (m * d) ≤ 2 * 10 ^ 16 * a) : roundDiv a d = m := by
  have hle : m * d ≤ 2 ^ 53 * d := Nat.mul_le_mul_right d hm
  refine round_div_eq ?_ ?_
  · have : (2 * m + 1) * d = 2 * (m * d) + d := by ring
    omega
  · have : 2 * m * d = 2 * (m * d) := by ring
    omega

/-- A number is nearest to every fraction that differs from it by at most a part in
`2 * 10 ^ 16`. -/
theorem nearest_of_close {x a b : Nat} (hx : x ≤ infinity) (hb : 0 < b)
    (habove : 2 * 10 ^ 16 * a ≤ (2 * 10 ^ 16 + 1) * (units x * b))
    (hbelow : (2 * 10 ^ 16 - 1) * (units x * b) ≤ 2 * 10 ^ 16 * a) : nearest a b = x := by
  have hsum := significand_add_scale x
  have hlt := significand_lt x
  have hdigits : 0 < scale x → 2 ^ 52 ≤ significand x := le_significand
  rw [units] at habove hbelow
  rw [nearest]
  generalize scale x = s at *
  generalize significand x = q at *
  rw [show q * 2 ^ s * b = q * (b * 2 ^ s) by ring] at habove hbelow
  have hpos : 0 < b * 2 ^ s := Nat.mul_pos hb (Nat.two_pow_pos s)
  have hle : q * (b * 2 ^ s) ≤ (2 ^ 53 - 1) * (b * 2 ^ s) := Nat.mul_le_mul_right _ (by omega)
  have hplace : place a b ≤ s := place_le hb (by omega)
  rcases Nat.eq_or_lt_of_le hplace with heq | hbefore
  · rw [heq, round_div_of_close hpos hlt.le habove hbelow]
    omega
  · -- the number is the first of its place, and the fraction just below it
    obtain ⟨s, rfl⟩ : ∃ r, s = r + 1 := ⟨s - 1, by omega⟩
    have hsmall : a < 2 ^ 52 * (b * 2 ^ (s + 1)) := by
      by_contra hge
      have := le_place hb (Nat.not_lt.mp hge)
      omega
    have hq : q = 2 ^ 52 := by
      by_contra hne
      have hge : (2 ^ 52 + 1) * (b * 2 ^ (s + 1)) ≤ q * (b * 2 ^ (s + 1)) :=
        Nat.mul_le_mul_right _ (by have := hdigits s.succ_pos; omega)
      omega
    rw [hq, next_place] at habove hbelow
    have heq : place a b = s := by
      have := le_place (n := a) (s := s) hb (by omega)
      omega
    have hround : roundDiv a (b * 2 ^ s) = 2 ^ 53 :=
      round_div_of_close (Nat.mul_pos hb (Nat.two_pow_pos s)) le_rfl (by omega) (by omega)
    have hbits : s * 2 ^ 52 + 2 ^ 53 = x := by
      rw [← hsum, hq]
      ring
    rw [heq, hround, hbits, min_eq_right hx]

/-- Every number is nearest to its own value. -/
theorem nearest_units {x b : Nat} (hx : x ≤ infinity) (hb : 0 < b) :
    nearest (units x * b) b = x :=
  nearest_of_close hx hb (Nat.mul_le_mul_right _ (by decide)) (Nat.mul_le_mul_right _ (by decide))

theorem nearest_zero {d : Nat} (hd : 0 < d) : nearest 0 d = 0 := by
  have h := nearest_units (x := 0) (Nat.zero_le _) hd
  rwa [show units 0 = 0 by decide, Nat.zero_mul] at h

/-! ## Operations -/

/-- The units in one. -/
@[irreducible] def unitsInOne : Nat := 2 ^ 1074

theorem units_in_one_pos : 0 < unitsInOne := by
  unfold unitsInOne
  positivity

/-- The number nearest to an integer. -/
def ofNat (n : Nat) : Nat := nearest (n * unitsInOne) 1

/-- The rounded product. -/
def mul (a b : Nat) : Nat := nearest (units a * units b) unitsInOne

/-- The rounded quotient by a number other than zero. -/
def div (a b : Nat) : Nat := nearest (units a * unitsInOne) (units b)

theorem of_nat_mono {n n' : Nat} (h : n ≤ n') : ofNat n ≤ ofNat n' :=
  nearest_mono Nat.one_pos (Nat.mul_le_mul_right _ h)

theorem mul_mono {a a' b b' : Nat} (h : a ≤ a') (h' : b ≤ b') : mul a b ≤ mul a' b' :=
  nearest_mono units_in_one_pos (Nat.mul_le_mul (units_mono h) (units_mono h'))

end Fieldbus.Binary64
