import Mathlib.Algebra.Order.Field.Basic
import Mathlib.Tactic.Linarith
import Mathlib.Tactic.Ring

/-!
# Planar linear recurrences

The area that a point of the plane spans with its image under a linear map is a quadratic form, and
the map multiplies it by its determinant (`form_apply`). When the characteristic polynomial has no
real root, the form bounds the square of the first coordinate, so along the iterates that coordinate
decays like the powers of the determinant (`sq_iterate_le`).
-/

namespace Fieldbus

/-- A linear map of the plane, by the coefficients of its two rows. -/
structure Planar (K : Type) where
  a : K
  b : K
  c : K
  d : K

namespace Planar

variable {K : Type} [Field K]

/-- The image of a point. -/
def apply (m : Planar K) (v : K × K) : K × K :=
  (m.a * v.1 + m.b * v.2, m.c * v.1 + m.d * v.2)

/-- The determinant. -/
def det (m : Planar K) : K := m.a * m.d - m.b * m.c

/-- The discriminant of the characteristic polynomial, negated: positive when the eigenvalues are
not real. -/
def spread (m : Planar K) : K := 4 * m.det - (m.a + m.d) ^ 2

/-- The area spanned by a point and its image. -/
def form (m : Planar K) (v : K × K) : K :=
  v.1 * (m.apply v).2 - v.2 * (m.apply v).1

/-- One application multiplies the area by the determinant. -/
theorem form_apply (m : Planar K) (v : K × K) : m.form (m.apply v) = m.det * m.form v := by
  simp only [form, apply, det]
  ring

theorem form_iterate (m : Planar K) (v : K × K) (n : ℕ) :
    m.form (m.apply^[n] v) = m.det ^ n * m.form v := by
  induction n with
  | zero => simp
  | succ n ih =>
      rw [Function.iterate_succ_apply', form_apply, ih, pow_succ]
      ring

variable [LinearOrder K] [IsStrictOrderedRing K]

/-- Completing the square: the form bounds the first coordinate. -/
theorem spread_mul_sq_le (m : Planar K) (v : K × K) :
    m.spread * v.1 ^ 2 ≤ -4 * m.b * m.form v := by
  have hsquare := sq_nonneg (2 * m.b * v.2 + (m.a - m.d) * v.1)
  have hform : -4 * m.b * m.form v - m.spread * v.1 ^ 2 =
      (2 * m.b * v.2 + (m.a - m.d) * v.1) ^ 2 := by
    simp only [form, apply, spread, det]
    ring
  linarith

/-- The first coordinate decays like the powers of the determinant. -/
theorem sq_iterate_le (m : Planar K) (v : K × K) (n : ℕ) :
    m.spread * (m.apply^[n] v).1 ^ 2 ≤ -4 * m.b * (m.det ^ n * m.form v) := by
  rw [← form_iterate]
  exact m.spread_mul_sq_le _

end Planar

end Fieldbus
