import Mathlib.Tactic.Linarith
import Mathlib.Tactic.Ring
import Fieldbus.Library.Machine
import Fieldbus.Core.Startup

/-!
# Anti-windup

What conditional integration gives over exact arithmetic. The code tests the whole output, yet the
integral term alone stays between the limits (`Pi.Bounded`): an accepted error only moves it towards
the limit that the proportional term has already been taken from. `update_off_upper_iff` and
`update_off_lower_iff` say when a reversed error brings the output off a limit: always, but for a
pure integral controller that sits exactly on the limit and is asked to cross the whole span in one
period.
-/

namespace Fieldbus

/-- The calls that change a controller. -/
inductive PiCall where
  | update (setpoint measurement : ℚ)
  | reset

namespace Pi

/-- One call, with the output an update returns. -/
def call (c : Pi ℚ) : PiCall → Pi ℚ × Option ℚ
  | .update setpoint measurement =>
      ((c.update setpoint measurement).1, some (c.update setpoint measurement).2)
  | .reset => (c.reset, none)

/-- The controller after a sequence of calls. -/
def afterCalls (c : Pi ℚ) (calls : List PiCall) : Pi ℚ :=
  Machine.final call c calls

/-- Gains that are not negative, limits around zero, and an integral term between the limits. -/
structure Bounded (c : Pi ℚ) : Prop where
  kp_nonneg : 0 ≤ c.kp
  ki_nonneg : 0 ≤ c.ki
  out_min_nonpos : c.outMin ≤ 0
  out_max_nonneg : 0 ≤ c.outMax
  integral_lower : c.outMin ≤ c.ki * c.integral
  integral_upper : c.ki * c.integral ≤ c.outMax

variable {c : Pi ℚ} {setpoint measurement : ℚ}

theorem period_pos : (0 : ℚ) < periodS := by
  show (0 : ℚ) < 0.010
  norm_num

theorem clamp_eq {x lower upper : ℚ} (hlower : lower ≤ x) (hupper : x ≤ upper) :
    Scalar.clamp x lower upper = x := by
  unfold Scalar.clamp
  rw [if_neg (not_lt.mpr hlower), if_neg (not_lt.mpr hupper)]

/-- The output before the limits, were the whole error integrated. -/
def unsaturated (c : Pi ℚ) (error : ℚ) : ℚ :=
  c.kp * error + c.ki * (c.integral + error * periodS)

/-- An update within the limits integrates the error and returns the unsaturated output. -/
theorem update_integrates (hlower : c.outMin ≤ c.unsaturated (setpoint - measurement))
    (hupper : c.unsaturated (setpoint - measurement) ≤ c.outMax) :
    c.update setpoint measurement =
      ({ c with integral := c.integral + (setpoint - measurement) * periodS },
        c.unsaturated (setpoint - measurement)) := by
  have haccept : c.unsaturated (setpoint - measurement) ≥ c.outMin ∧
      c.unsaturated (setpoint - measurement) ≤ c.outMax := ⟨hlower, hupper⟩
  unfold unsaturated at *
  simp only [update]
  rw [if_pos haccept]
  exact Prod.ext rfl (clamp_eq hlower hupper)

/-- Any other update leaves the integral and returns the limited output. -/
theorem update_freezes (h : ¬ (c.outMin ≤ c.unsaturated (setpoint - measurement) ∧
      c.unsaturated (setpoint - measurement) ≤ c.outMax)) :
    c.update setpoint measurement =
      (c, Scalar.clamp (c.kp * (setpoint - measurement) + c.ki * c.integral) c.outMin
        c.outMax) := by
  unfold unsaturated at h
  simp only [update]
  rw [if_neg h]

theorem clamp_mem {x lower upper : ℚ} (h : lower ≤ upper) :
    lower ≤ Scalar.clamp x lower upper ∧ Scalar.clamp x lower upper ≤ upper := by
  unfold Scalar.clamp
  split
  · exact ⟨le_refl _, h⟩
  · rename_i hlower
    split
    · exact ⟨h, le_refl _⟩
    · rename_i hupper
      exact ⟨not_lt.mp hlower, not_lt.mp hupper⟩

theorem clamp_lt {x lower upper : ℚ} (h : lower < upper) (hx : x < upper) :
    Scalar.clamp x lower upper < upper := by
  unfold Scalar.clamp
  rw [if_neg (not_lt.mpr hx.le)]
  split
  · exact h
  · exact hx

namespace Bounded

/-- The output lies between the limits. -/
theorem output_mem (h : c.Bounded) (setpoint measurement : ℚ) :
    c.outMin ≤ (c.update setpoint measurement).2 ∧
      (c.update setpoint measurement).2 ≤ c.outMax := by
  obtain ⟨x, hx⟩ := c.update_output setpoint measurement
  rw [hx]
  exact clamp_mem (h.out_min_nonpos.trans h.out_max_nonneg)

/-- An update keeps the integral term between the limits. -/
theorem update (h : c.Bounded) (setpoint measurement : ℚ) :
    (c.update setpoint measurement).1.Bounded := by
  by_cases haccept : c.outMin ≤ c.unsaturated (setpoint - measurement) ∧
      c.unsaturated (setpoint - measurement) ≤ c.outMax
  swap
  · rw [update_freezes haccept]
    exact h
  obtain ⟨hlower, hupper⟩ := haccept
  rw [update_integrates hlower hupper]
  unfold unsaturated at hlower hupper
  have hkp := h.kp_nonneg
  have hki := h.ki_nonneg
  have hintegralLower := h.integral_lower
  have hintegralUpper := h.integral_upper
  have hperiod := period_pos
  refine ⟨hkp, hki, h.out_min_nonpos, h.out_max_nonneg, ?_, ?_⟩
  · -- a positive error moves the term up from the limit, a negative one leaves room above it
    show c.outMin ≤ c.ki * (c.integral + (setpoint - measurement) * periodS)
    rcases le_total 0 (setpoint - measurement) with herror | herror
    · have hstep := mul_nonneg hki (mul_nonneg herror hperiod.le)
      linarith
    · have hproportional := mul_nonpos_of_nonneg_of_nonpos hkp herror
      linarith
  · show c.ki * (c.integral + (setpoint - measurement) * periodS) ≤ c.outMax
    rcases le_total 0 (setpoint - measurement) with herror | herror
    · have hproportional := mul_nonneg hkp herror
      linarith
    · have hstep := mul_nonpos_of_nonneg_of_nonpos hki
        (mul_nonpos_of_nonpos_of_nonneg herror hperiod.le)
      linarith

/-- A reset puts the integral term at zero. -/
theorem reset (h : c.Bounded) : c.reset.Bounded := by
  have hzero : c.reset.ki * c.reset.integral = 0 := by
    show c.ki * 0 = 0
    ring
  refine ⟨h.kp_nonneg, h.ki_nonneg, h.out_min_nonpos, h.out_max_nonneg, ?_, ?_⟩
  · rw [hzero]
    exact h.out_min_nonpos
  · rw [hzero]
    exact h.out_max_nonneg

/-- Every call keeps the bounds. -/
theorem call (h : c.Bounded) (next : PiCall) : (c.call next).1.Bounded := by
  cases next with
  | update setpoint measurement => exact h.update setpoint measurement
  | reset => exact h.reset

end Bounded

section Runs

variable {kp ki a b : ℚ}

@[simp] theorem new_out_min : (Pi.new kp ki a b).outMin = min a b := by
  by_cases h : a ≤ b
  · simp [Pi.new, h]
  · simp [Pi.new, h, min_eq_right (not_le.mp h).le]

@[simp] theorem new_out_max : (Pi.new kp ki a b).outMax = max a b := by
  by_cases h : a ≤ b
  · simp [Pi.new, h]
  · simp [Pi.new, h, max_eq_left (not_le.mp h).le]

/-- A new controller is bounded when its limits enclose zero, in whichever order they come. -/
theorem new_bounded (hkp : 0 ≤ kp) (hki : 0 ≤ ki) (hlower : min a b ≤ 0) (hupper : 0 ≤ max a b) :
    (Pi.new kp ki a b).Bounded := by
  have hzero : (Pi.new kp ki a b).ki * (Pi.new kp ki a b).integral = 0 := by
    show ki * 0 = 0
    ring
  refine ⟨hkp, hki, ?_, ?_, ?_, ?_⟩
  · rwa [new_out_min]
  · rwa [new_out_max]
  · rwa [hzero, new_out_min]
  · rwa [hzero, new_out_max]

/-- A call moves nothing but the integral. -/
theorem call_frame (c : Pi ℚ) (next : PiCall) :
    (c.call next).1 = { c with integral := (c.call next).1.integral } := by
  cases next with
  | update setpoint measurement => exact c.update_frame setpoint measurement
  | reset => rfl

theorem after_calls_frame (c : Pi ℚ) (calls : List PiCall) :
    ∃ integral, c.afterCalls calls = { c with integral := integral } := by
  apply Machine.final_invariant (fun c' : Pi ℚ => ∃ integral, c' = { c with integral := integral })
  · rintro c' next ⟨integral, rfl⟩
    exact ⟨_, call_frame _ next⟩
  · exact ⟨c.integral, rfl⟩

theorem Bounded.afterCalls {c : Pi ℚ} (h : c.Bounded) (calls : List PiCall) :
    (c.afterCalls calls).Bounded :=
  Machine.final_invariant Bounded (fun _ next h => h.call next) h calls

/-- Over any calls, outputs and integral term stay between the limits and an update integrates the
whole error of its period or nothing. -/
theorem anti_windup (hkp : 0 ≤ kp) (hki : 0 ≤ ki) (hlower : min a b ≤ 0) (hupper : 0 ≤ max a b)
    (calls : List PiCall) :
    (∀ out, some out ∈ Machine.trace call (Pi.new kp ki a b) calls →
      min a b ≤ out ∧ out ≤ max a b) ∧
    (min a b ≤ ki * ((Pi.new kp ki a b).afterCalls calls).integral ∧
      ki * ((Pi.new kp ki a b).afterCalls calls).integral ≤ max a b) ∧
    ∀ setpoint measurement,
      (((Pi.new kp ki a b).afterCalls calls).update setpoint measurement).1.integral =
          ((Pi.new kp ki a b).afterCalls calls).integral ∨
        (((Pi.new kp ki a b).afterCalls calls).update setpoint measurement).1.integral =
          ((Pi.new kp ki a b).afterCalls calls).integral + (setpoint - measurement) * periodS := by
  have hnew := new_bounded hkp hki hlower hupper
  refine ⟨?_, ?_, fun setpoint measurement => Pi.update_integral _ _ _⟩
  · intro out hout
    have hgood := Machine.trace_invariant
      (fun c : Pi ℚ => c.Bounded ∧ c.outMin = min a b ∧ c.outMax = max a b)
      (fun answer => ∀ out, answer = some out → min a b ≤ out ∧ out ≤ max a b)
      ?_ ⟨hnew, new_out_min, new_out_max⟩ calls _ hout
    · exact hgood out rfl
    rintro c next ⟨hbounded, hmin, hmax⟩
    refine ⟨⟨hbounded.call next, ?_, ?_⟩, ?_⟩
    · rw [call_frame]
      exact hmin
    · rw [call_frame]
      exact hmax
    · cases next with
      | update setpoint measurement =>
          rintro out ⟨⟩
          rw [← hmin, ← hmax]
          exact hbounded.output_mem setpoint measurement
      | reset => simp [call]
  · have hend := hnew.afterCalls calls
    obtain ⟨integral, hframe⟩ := after_calls_frame (Pi.new kp ki a b) calls
    have hlow := hend.integral_lower
    have hhigh := hend.integral_upper
    rw [hframe] at hlow hhigh ⊢
    have hmin : (Pi.new kp ki a b).outMin = min a b := new_out_min
    have hmax : (Pi.new kp ki a b).outMax = max a b := new_out_max
    rw [← hmin, ← hmax]
    exact ⟨hlow, hhigh⟩

/-- A controller with its limits the wrong way round, driven into one of them and reset. -/
theorem anti_windup_swapped_limits :
    (∀ out, some out ∈ Machine.trace call (Pi.new 2 10 20 (-20))
        [.update 100 0, .update 0 3, .reset] → min 20 (-20) ≤ out ∧ out ≤ max 20 (-20)) ∧
    (min 20 (-20) ≤ 10 * ((Pi.new 2 10 20 (-20)).afterCalls
        [.update 100 0, .update 0 3, .reset]).integral ∧
      10 * ((Pi.new 2 10 20 (-20)).afterCalls
        [.update 100 0, .update 0 3, .reset]).integral ≤ max 20 (-20)) ∧
    ∀ setpoint measurement,
      (((Pi.new 2 10 20 (-20)).afterCalls
          [.update 100 0, .update 0 3, .reset]).update setpoint measurement).1.integral =
          ((Pi.new 2 10 20 (-20)).afterCalls [.update 100 0, .update 0 3, .reset]).integral ∨
        (((Pi.new 2 10 20 (-20)).afterCalls
          [.update 100 0, .update 0 3, .reset]).update setpoint measurement).1.integral =
          ((Pi.new 2 10 20 (-20)).afterCalls [.update 100 0, .update 0 3, .reset]).integral +
            (setpoint - measurement) * periodS :=
  anti_windup (by norm_num) (by norm_num) (by norm_num) (by norm_num) _

/-! ## Coming off a limit -/

/-- The controller upside down: limits exchanged, integral negated. -/
def mirror (c : Pi ℚ) : Pi ℚ :=
  ⟨c.kp, c.ki, -c.outMax, -c.outMin, -c.integral⟩

theorem clamp_neg {x lower upper : ℚ} (h : lower ≤ upper) :
    Scalar.clamp (-x) (-upper) (-lower) = -Scalar.clamp x lower upper := by
  unfold Scalar.clamp
  by_cases hlower : x < lower
  · have hnot : ¬ -x < -upper := by linarith
    rw [if_pos hlower, if_neg hnot, if_pos (by linarith)]
  · by_cases hupper : upper < x
    · rw [if_neg hlower, if_pos hupper, if_pos (by linarith)]
    · have hnotLower : ¬ -x < -upper := by linarith
      have hnotUpper : ¬ -lower < -x := by linarith
      rw [if_neg hlower, if_neg hupper, if_neg hnotLower, if_neg hnotUpper]

/-- The mirrored controller answers the mirrored error with the mirrored output. -/
theorem mirror_update {c : Pi ℚ} (h : c.outMin ≤ c.outMax) (setpoint measurement : ℚ) :
    (c.mirror.update (-setpoint) (-measurement)).2 = -(c.update setpoint measurement).2 := by
  have herror : -setpoint - -measurement = -(setpoint - measurement) := by ring
  have hunsaturated : c.mirror.unsaturated (-setpoint - -measurement) =
      -c.unsaturated (setpoint - measurement) := by
    rw [herror]
    simp only [unsaturated, mirror]
    ring
  by_cases haccept : c.outMin ≤ c.unsaturated (setpoint - measurement) ∧
      c.unsaturated (setpoint - measurement) ≤ c.outMax
  · rw [update_integrates haccept.1 haccept.2, update_integrates]
    · exact hunsaturated
    · rw [hunsaturated]
      exact neg_le_neg haccept.2
    · rw [hunsaturated]
      exact neg_le_neg haccept.1
  · rw [update_freezes haccept, update_freezes]
    · show Scalar.clamp (c.kp * (-setpoint - -measurement) + c.ki * -c.integral) (-c.outMax)
        (-c.outMin) = _
      rw [← clamp_neg h, herror]
      congr 1
      ring
    · rw [hunsaturated]
      rintro ⟨hlower, hupper⟩
      exact haccept ⟨neg_le_neg_iff.mp hupper, neg_le_neg_iff.mp hlower⟩

theorem Bounded.mirror {c : Pi ℚ} (h : c.Bounded) : c.mirror.Bounded := by
  have hterm : c.mirror.ki * c.mirror.integral = -(c.ki * c.integral) := by
    simp only [Pi.mirror]
    ring
  refine ⟨h.kp_nonneg, h.ki_nonneg, neg_nonpos.mpr h.out_max_nonneg,
    neg_nonneg.mpr h.out_min_nonpos, ?_, ?_⟩
  · rw [hterm]
    exact neg_le_neg h.integral_upper
  · rw [hterm]
    exact neg_le_neg h.integral_lower

theorem unsaturated_eq (c : Pi ℚ) (error : ℚ) :
    c.unsaturated error = c.kp * error + c.ki * c.integral + c.ki * (error * periodS) := by
  unfold unsaturated
  ring

/-- With a proportional gain, a negative error brings the output below the upper limit. -/
theorem Bounded.off_upper_of_proportional {c : Pi ℚ} (h : c.Bounded) (hgain : c.kp ≠ 0)
    (hspan : c.outMin < c.outMax) {setpoint measurement : ℚ} (herror : setpoint < measurement) :
    (c.update setpoint measurement).2 < c.outMax := by
  have hnegative : setpoint - measurement < 0 := sub_neg.mpr herror
  have hpositive : 0 < c.kp := lt_of_le_of_ne h.kp_nonneg (Ne.symm hgain)
  have hproportional : c.kp * (setpoint - measurement) < 0 :=
    mul_neg_of_pos_of_neg hpositive hnegative
  have hstep : c.ki * ((setpoint - measurement) * periodS) ≤ 0 :=
    mul_nonpos_of_nonneg_of_nonpos h.ki_nonneg (mul_neg_of_neg_of_pos hnegative period_pos).le
  have hterm := h.integral_upper
  by_cases haccept : c.outMin ≤ c.unsaturated (setpoint - measurement) ∧
      c.unsaturated (setpoint - measurement) ≤ c.outMax
  · rw [update_integrates haccept.1 haccept.2]
    show c.unsaturated (setpoint - measurement) < c.outMax
    rw [unsaturated_eq]
    linarith
  · rw [update_freezes haccept]
    exact clamp_lt hspan (by linarith)

/-- Without one, it does unless the integral term is on the limit and one step crosses the whole
span. -/
theorem Bounded.off_upper_of_integral {c : Pi ℚ} (h : c.Bounded) (hpure : c.kp = 0)
    (hgain : c.ki ≠ 0) {setpoint measurement : ℚ} (herror : setpoint < measurement) :
    (c.update setpoint measurement).2 < c.outMax ↔
      ¬ (c.ki * c.integral = c.outMax ∧
        c.outMax + c.ki * ((setpoint - measurement) * periodS) < c.outMin) := by
  have hterm := h.integral_upper
  have hpositive : 0 < c.ki := lt_of_le_of_ne h.ki_nonneg (Ne.symm hgain)
  have hstep : c.ki * ((setpoint - measurement) * periodS) < 0 :=
    mul_neg_of_pos_of_neg hpositive (mul_neg_of_neg_of_pos (sub_neg.mpr herror) period_pos)
  have hunsaturated : c.unsaturated (setpoint - measurement) =
      c.ki * c.integral + c.ki * ((setpoint - measurement) * periodS) := by
    rw [unsaturated_eq, hpure, zero_mul, zero_add]
  by_cases haccept : c.outMin ≤ c.unsaturated (setpoint - measurement) ∧
      c.unsaturated (setpoint - measurement) ≤ c.outMax
  · rw [update_integrates haccept.1 haccept.2]
    have hlow := haccept.1
    constructor
    · rintro - ⟨hlimit, hpast⟩
      linarith
    · intro _
      show c.unsaturated (setpoint - measurement) < c.outMax
      linarith
  · -- a frozen integral leaves the output where it was
    have hbelow : c.unsaturated (setpoint - measurement) < c.outMin := by
      by_contra hnot
      exact haccept ⟨not_lt.mp hnot, by linarith⟩
    have houtput : (c.update setpoint measurement).2 = c.ki * c.integral := by
      rw [update_freezes haccept, hpure, zero_mul, zero_add, clamp_eq h.integral_lower hterm]
    rw [houtput]
    constructor
    · rintro hlt ⟨hlimit, -⟩
      linarith
    · intro hnot
      refine lt_of_le_of_ne hterm fun hlimit => hnot ⟨hlimit, ?_⟩
      linarith

/-- A negative error brings the output below the upper limit unless the controller is stuck
there. -/
theorem Bounded.off_upper_iff {c : Pi ℚ} (h : c.Bounded) (hgain : c.kp ≠ 0 ∨ c.ki ≠ 0)
    (hspan : c.outMin < c.outMax) {setpoint measurement : ℚ} (herror : setpoint < measurement) :
    (c.update setpoint measurement).2 < c.outMax ↔
      ¬ (c.kp = 0 ∧ c.ki * c.integral = c.outMax ∧
        c.outMax + c.ki * ((setpoint - measurement) * periodS) < c.outMin) := by
  by_cases hpure : c.kp = 0
  · rw [h.off_upper_of_integral hpure (hgain.resolve_left (not_not.mpr hpure)) herror]
    simp only [hpure, true_and]
  · exact iff_of_true (h.off_upper_of_proportional hpure hspan herror) fun hstuck =>
      hpure hstuck.1

/-- A positive error brings the output above the lower limit unless the controller is stuck
there. -/
theorem Bounded.off_lower_iff {c : Pi ℚ} (h : c.Bounded) (hgain : c.kp ≠ 0 ∨ c.ki ≠ 0)
    (hspan : c.outMin < c.outMax) {setpoint measurement : ℚ} (herror : measurement < setpoint) :
    c.outMin < (c.update setpoint measurement).2 ↔
      ¬ (c.kp = 0 ∧ c.ki * c.integral = c.outMin ∧
        c.outMax < c.outMin + c.ki * ((setpoint - measurement) * periodS)) := by
  have hmirror := h.mirror.off_upper_iff hgain (neg_lt_neg hspan) (neg_lt_neg herror)
  rw [mirror_update hspan.le] at hmirror
  have hterm : c.mirror.ki * c.mirror.integral = -(c.ki * c.integral) := by
    simp only [Pi.mirror]
    ring
  have hstep : c.mirror.outMax + c.mirror.ki * ((-setpoint - -measurement) * periodS) =
      -(c.outMin + c.ki * ((setpoint - measurement) * periodS)) := by
    simp only [Pi.mirror]
    ring
  rw [hterm, hstep] at hmirror
  simpa only [Pi.mirror, neg_lt_neg_iff, neg_inj] using hmirror

/-- From every reachable state, an error of either sign brings the output off the limit it works
against exactly when the controller is not stuck: a pure integral controller on the limit whose
reversal would cross the whole span in one period. -/
theorem off_limit_iff (hkp : 0 ≤ kp) (hki : 0 ≤ ki) (hgain : kp ≠ 0 ∨ ki ≠ 0)
    (hlower : min a b < 0) (hupper : 0 < max a b) (calls : List PiCall)
    (setpoint measurement : ℚ) :
    (setpoint - measurement < 0 →
      ((((Pi.new kp ki a b).afterCalls calls).update setpoint measurement).2 < max a b ↔
        ¬ (kp = 0 ∧ ki * ((Pi.new kp ki a b).afterCalls calls).integral = max a b ∧
          max a b + ki * ((setpoint - measurement) * periodS) < min a b))) ∧
    (0 < setpoint - measurement →
      (min a b < (((Pi.new kp ki a b).afterCalls calls).update setpoint measurement).2 ↔
        ¬ (kp = 0 ∧ ki * ((Pi.new kp ki a b).afterCalls calls).integral = min a b ∧
          max a b < min a b + ki * ((setpoint - measurement) * periodS)))) := by
  have hend := (new_bounded hkp hki hlower.le hupper.le).afterCalls calls
  obtain ⟨integral, hframe⟩ := after_calls_frame (Pi.new kp ki a b) calls
  have hmin : (Pi.new kp ki a b).outMin = min a b := new_out_min
  have hmax : (Pi.new kp ki a b).outMax = max a b := new_out_max
  have hspan : (Pi.new kp ki a b).outMin < (Pi.new kp ki a b).outMax := by
    rw [hmin, hmax]
    exact hlower.trans hupper
  rw [hframe] at hend ⊢
  rw [← hmin, ← hmax]
  constructor
  · intro herror
    exact hend.off_upper_iff hgain hspan (by linarith)
  · intro herror
    exact hend.off_lower_iff hgain hspan (by linarith)

/-- The moderate reversal of a wound pure integral controller. -/
theorem off_limit_iff_wound :
    ((0 : ℚ) - 100 < 0 →
      ((((Pi.new 0 10 (-20) 20).afterCalls [.update 100 0, .update 100 0]).update 0 100).2 <
          max (-20) 20 ↔
        ¬ ((0 : ℚ) = 0 ∧
          10 * ((Pi.new 0 10 (-20) 20).afterCalls [.update 100 0, .update 100 0]).integral =
            max (-20) 20 ∧
          max (-20) 20 + 10 * (((0 : ℚ) - 100) * periodS) < min (-20) 20))) ∧
    ((0 : ℚ) < 0 - 100 →
      (min (-20) 20 <
          (((Pi.new 0 10 (-20) 20).afterCalls [.update 100 0, .update 100 0]).update 0 100).2 ↔
        ¬ ((0 : ℚ) = 0 ∧
          10 * ((Pi.new 0 10 (-20) 20).afterCalls [.update 100 0, .update 100 0]).integral =
            min (-20) 20 ∧
          max (-20) 20 < min (-20) 20 + 10 * (((0 : ℚ) - 100) * periodS)))) :=
  off_limit_iff (by norm_num) (by norm_num) (.inr (by norm_num)) (by norm_num) (by norm_num) _ _ _

/-- Wound to the upper limit, the pure integral controller stays there when the error jumps to
`-1000`. -/
theorem stuck_at_upper_limit :
    (0 : ℚ) - 1000 < 0 ∧
      ¬ (((Pi.new 0 10 (-20) 20).afterCalls [.update 100 0, .update 100 0]).update 0 1000).2 <
        max (-20) 20 := by
  decide +kernel

end Runs

end Pi

end Fieldbus
