import Mathlib.Algebra.Order.Field.Rat
import Mathlib.Algebra.Order.Group.Abs
import Mathlib.Tactic.Linarith
import Mathlib.Tactic.Positivity

/-!
# Rounded rational arithmetic

A floating-point operation returns the exact result, rounded. `Rounding` is a rounding function
with the three properties a range argument needs: it is monotone, it leaves integers of at most 24
bits alone, and it never more than doubles a magnitude. Exact arithmetic (`Rounding.exact`) and
binary32 round-to-nearest on finite values both have them. `relax_le` and `le_relax` are the range
argument itself: a rounded relaxation step towards a point of an interval stays in the interval.
-/

namespace Fieldbus

/-- A rounding function on the rationals. -/
structure Rounding where
  round : ℚ → ℚ
  mono : Monotone round
  int_fixed : ∀ n : ℤ, |n| ≤ 2 ^ 24 → round n = n
  abs_le : ∀ q, |round q| ≤ 2 * |q|

namespace Rounding

/-- Exact arithmetic rounds nothing. -/
def exact : Rounding where
  round := id
  mono := monotone_id
  int_fixed := fun _ _ => rfl
  abs_le := fun q => by
    have := abs_nonneg q
    simp only [id]
    linarith

variable (r : Rounding)

/-- Zero is representable. -/
@[simp] theorem round_zero : r.round 0 = 0 := by
  simpa using r.int_fixed 0 (by simp)

variable {r}

/-- A representable upper bound survives rounding. -/
theorem round_le {q : ℚ} {n : ℤ} (hn : |n| ≤ 2 ^ 24) (h : q ≤ n) : r.round q ≤ n :=
  (r.mono h).trans_eq (r.int_fixed n hn)

/-- A representable lower bound survives rounding. -/
theorem le_round {q : ℚ} {n : ℤ} (hn : |n| ≤ 2 ^ 24) (h : n ≤ q) : n ≤ r.round q :=
  (r.int_fixed n hn).symm.trans_le (r.mono h)

/-- Rounding keeps the sign. -/
theorem round_nonneg {q : ℚ} (h : 0 ≤ q) : 0 ≤ r.round q := by
  simpa using r.mono h

/-- Rounding keeps the sign. -/
theorem round_nonpos {q : ℚ} (h : q ≤ 0) : r.round q ≤ 0 := by
  simpa using r.mono h

/-- A nonnegative result is at most twice the exact one. -/
theorem round_le_two_mul {q : ℚ} (h : 0 ≤ q) : r.round q ≤ 2 * q := by
  simpa [abs_of_nonneg h] using (le_abs_self _).trans (r.abs_le q)

/-- A nonpositive result is at least twice the exact one. -/
theorem two_mul_le_round {q : ℚ} (h : q ≤ 0) : 2 * q ≤ r.round q := by
  have := (neg_abs_le (r.round q)).trans' (neg_le_neg (r.abs_le q))
  simpa [abs_of_nonpos h] using this

/-- The rounded step of a relaxation `x + g (u - x)` stays below a representable bound of both
points. -/
theorem relax_le {x u g : ℚ} {n : ℤ} (hn : |n| ≤ 2 ^ 24) (hg : 0 ≤ g) (hgain : g ≤ 1 / 4)
    (hx : x ≤ n) (hu : u ≤ n) :
    r.round (x + r.round (g * r.round (u - x))) ≤ n := by
  apply round_le hn
  rcases le_total u x with hux | hxu
  · have hdiff : r.round (u - x) ≤ 0 := round_nonpos (by linarith)
    have hstep : r.round (g * r.round (u - x)) ≤ 0 :=
      round_nonpos (mul_nonpos_of_nonneg_of_nonpos hg hdiff)
    linarith
  · -- two roundings at most quadruple the step, which the gain absorbs
    have hdiff : 0 ≤ r.round (u - x) := round_nonneg (by linarith)
    have hdouble : r.round (u - x) ≤ 2 * (u - x) := round_le_two_mul (by linarith)
    have hstep : r.round (g * r.round (u - x)) ≤ 2 * (g * r.round (u - x)) :=
      round_le_two_mul (mul_nonneg hg hdiff)
    have hgained : g * r.round (u - x) ≤ 1 / 4 * (2 * (u - x)) :=
      mul_le_mul hgain hdouble hdiff (by norm_num)
    linarith

/-- The rounded step of a relaxation stays above a representable bound of both points. -/
theorem le_relax {x u g : ℚ} {n : ℤ} (hn : |n| ≤ 2 ^ 24) (hg : 0 ≤ g) (hgain : g ≤ 1 / 4)
    (hx : n ≤ x) (hu : n ≤ u) :
    n ≤ r.round (x + r.round (g * r.round (u - x))) := by
  apply le_round hn
  rcases le_total x u with hxu | hux
  · have hdiff : 0 ≤ r.round (u - x) := round_nonneg (by linarith)
    have hstep : 0 ≤ r.round (g * r.round (u - x)) := round_nonneg (mul_nonneg hg hdiff)
    linarith
  · have hdiff : r.round (u - x) ≤ 0 := round_nonpos (by linarith)
    have hdouble : 2 * (u - x) ≤ r.round (u - x) := two_mul_le_round (by linarith)
    have hstep : 2 * (g * r.round (u - x)) ≤ r.round (g * r.round (u - x)) :=
      two_mul_le_round (mul_nonpos_of_nonneg_of_nonpos hg hdiff)
    have hgained : 1 / 4 * (2 * (u - x)) ≤ g * r.round (u - x) := by nlinarith
    linarith

end Rounding

end Fieldbus
