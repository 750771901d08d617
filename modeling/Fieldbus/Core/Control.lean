import Fieldbus.Core.Arithmetic

/-!
# The control law

After `core/src/control.rs`: a first-order low-pass filter feeding a PI controller with output
saturation and conditional-integration anti-windup.
-/

namespace Fieldbus

variable {F : Type} [Scalar F]

/-- The control period in microseconds. -/
def periodUs : UInt64 := 10000

/-- The control period in seconds, the PI integration step. -/
def periodS : F := Scalar.ofRat 0.010

/-- A first-order low-pass filter, `y += alpha * (x - y)`. -/
structure LowPass (F : Type) where
  alpha : F
  y : F
  primed : Bool

namespace LowPass

/-- A filter with the given smoothing factor, not yet primed; the lower clamp is
`f32::MIN_POSITIVE`. -/
def new (alpha : F) : LowPass F where
  alpha := Scalar.clamp alpha (Scalar.ofRat (1 / 2 ^ 126)) (Scalar.ofRat 1)
  y := Scalar.ofRat 0
  primed := false

/-- Feed one sample; the first is adopted outright. -/
def update (f : LowPass F) (x : F) : LowPass F :=
  if f.primed then { f with y := f.y + f.alpha * (x - f.y) } else { f with y := x, primed := true }

/-- The current filtered value. -/
def value (f : LowPass F) : F := f.y

/-- Drop the filter state. -/
def reset (f : LowPass F) : LowPass F :=
  { f with y := Scalar.ofRat 0, primed := false }

end LowPass

/-- A PI controller with output saturation and anti-windup. -/
structure Pi (F : Type) where
  kp : F
  ki : F
  outMin : F
  outMax : F
  integral : F

namespace Pi

/-- A PI controller; the output limits are ordered here rather than trusted. -/
def new (kp ki outMin outMax : F) : Pi F :=
  let limits := if outMin ≤ outMax then (outMin, outMax) else (outMax, outMin)
  ⟨kp, ki, limits.1, limits.2, Scalar.ofRat 0⟩

/-- Advance one period and return the saturated output. -/
def update (c : Pi F) (setpoint measurement : F) : Pi F × F :=
  let error := setpoint - measurement
  let candidateIntegral := c.integral + error * periodS
  let unsaturated := c.kp * error + c.ki * candidateIntegral
  -- the integral moves only when that would not push the output past a limit
  let c' :=
    if unsaturated ≥ c.outMin ∧ unsaturated ≤ c.outMax then
      { c with integral := candidateIntegral }
    else c
  -- the output uses whichever integral was kept
  let out := c'.kp * error + c'.ki * c'.integral
  (c', Scalar.clamp out c'.outMin c'.outMax)

/-- Clear the integral. -/
def reset (c : Pi F) : Pi F :=
  { c with integral := Scalar.ofRat 0 }

variable (c : Pi F) (setpoint measurement : F)

/-- An update moves nothing but the integral. -/
theorem update_frame :
    (c.update setpoint measurement).1 =
      { c with integral := (c.update setpoint measurement).1.integral } := by
  simp only [update]
  split <;> rfl

@[simp] theorem update_out_min : (c.update setpoint measurement).1.outMin = c.outMin := by
  rw [update_frame]

@[simp] theorem update_out_max : (c.update setpoint measurement).1.outMax = c.outMax := by
  rw [update_frame]

/-- The output is a clamp to the limits. -/
theorem update_output : ∃ x, (c.update setpoint measurement).2 =
    Scalar.clamp x c.outMin c.outMax := by
  simp only [update]
  split <;> exact ⟨_, rfl⟩

end Pi

end Fieldbus
