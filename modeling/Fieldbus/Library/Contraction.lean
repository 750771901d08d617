import Mathlib.LinearAlgebra.QuadraticForm.Basic
import Mathlib.Algebra.Order.BigOperators.Group.Finset
import Mathlib.Tactic.Linarith
import Mathlib.Tactic.Ring

/-!
# Contractions with a disturbance

A recursion whose step is a map that contracts a quadratic form without negative values, and a
disturbance that the form bounds. By Young's inequality the form of the state then takes a step
towards the bound (`form_step_le`), so that it stays below it or comes near it geometrically
(`iterate_le`). `weighted` are the forms that are written as a sum of squares.
-/

namespace Fieldbus.Contraction

variable {K V : Type*} [Field K] [LinearOrder K] [IsStrictOrderedRing K] [AddCommGroup V]
  [Module K V]

/-! ## Sums of squares -/

/-- The sum of the squares of some coordinates, with weights. -/
def weighted {ι : Type*} [Fintype ι] (weight : ι → K) (coordinates : V →ₗ[K] ι → K) :
    QuadraticForm K V :=
  (QuadraticMap.weightedSumSquares K weight).comp coordinates

section Weighted

variable {ι : Type*} [Fintype ι] {weight : ι → K} {coordinates : V →ₗ[K] ι → K}

omit [LinearOrder K] [IsStrictOrderedRing K] in
theorem weighted_apply (v : V) :
    weighted weight coordinates v = ∑ i, weight i * (coordinates v i * coordinates v i) := by
  rw [weighted, QuadraticMap.comp_apply, QuadraticMap.weightedSumSquares_apply]
  rfl

theorem weighted_nonneg (h : ∀ i, 0 ≤ weight i) (v : V) : 0 ≤ weighted weight coordinates v := by
  rw [weighted_apply]
  exact Finset.sum_nonneg fun i _ => mul_nonneg (h i) (mul_self_nonneg _)

/-- The form bounds each of the coordinates. -/
theorem mul_self_le_weighted (h : ∀ i, 0 ≤ weight i) (v : V) (i : ι) :
    weight i * (coordinates v i * coordinates v i) ≤ weighted weight coordinates v := by
  rw [weighted_apply]
  exact Finset.single_le_sum (fun j _ => mul_nonneg (h j) (mul_self_nonneg _))
    (Finset.mem_univ i)

end Weighted

/-! ## One step -/

/-- Young's inequality for a form without negative values. -/
theorem mul_form_add_le {q : QuadraticForm K V} (hq : ∀ v, 0 ≤ q v) (r : K) (v d : V) :
    r * (1 - r) * q (v + d) ≤ (1 - r) * q v + r * q d := by
  have hsquare := hq ((1 - r) • v - r • d)
  have hsub : q ((1 - r) • v - r • d) =
      (1 - r) * (1 - r) * q v + r * r * q d - (1 - r) * r * QuadraticMap.polar q v d := by
    rw [sub_eq_add_neg, QuadraticMap.map_add q, QuadraticMap.map_neg, QuadraticMap.map_smul,
      QuadraticMap.map_smul, QuadraticMap.polar_neg_right, QuadraticMap.polar_smul_left,
      QuadraticMap.polar_smul_right]
    simp only [smul_eq_mul]
    ring
  have hadd : q (v + d) = q v + q d + QuadraticMap.polar q v d := QuadraticMap.map_add q v d
  rw [hsub] at hsquare
  rw [hadd]
  linarith

/-- The form after a step with a disturbance is at most a mean of the form before and the bound on
the disturbance. -/
theorem form_step_le {q : QuadraticForm K V} (hq : ∀ v, 0 ≤ q v) {r bound : K} (hpos : 0 < r)
    (hlt : r < 1) {v image d : V} (himage : q image ≤ r * r * q v)
    (hd : q d ≤ (1 - r) * (1 - r) * bound) :
    q (image + d) ≤ r * q v + (1 - r) * bound := by
  have hyoung := mul_form_add_le hq r image d
  have hkeep : 0 < r * (1 - r) := mul_pos hpos (sub_pos.mpr hlt)
  refine le_of_mul_le_mul_left (hyoung.trans ?_) hkeep
  have hfirst := mul_le_mul_of_nonneg_left himage (sub_pos.mpr hlt).le
  have hsecond := mul_le_mul_of_nonneg_left hd hpos.le
  linarith

/-! ## Many steps -/

/-- A sequence that takes steps towards a bound, up to some number of them, is below the bound or
above it by the powers of the rate. -/
theorem iterate_le {r : K} (hr : 0 ≤ r) (bound : K) (a : ℕ → K) {n : ℕ}
    (hstep : ∀ k < n, a (k + 1) ≤ r * a k + (1 - r) * bound) {k : ℕ} (hk : k ≤ n) :
    a k ≤ bound + r ^ k * (a 0 - bound) := by
  induction k with
  | zero => simp
  | succ k ih =>
      have hbefore := mul_le_mul_of_nonneg_left (ih (Nat.le_of_succ_le hk)) hr
      have hnext := hstep k hk
      rw [pow_succ]
      linarith

end Fieldbus.Contraction
