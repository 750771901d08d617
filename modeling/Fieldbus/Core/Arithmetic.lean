import Mathlib.Algebra.Order.Round
import Mathlib.Data.Rat.Floor
import Mathlib.Data.UInt
import Fieldbus.Library.Rounding

/-!
# The arithmetic of the control law

The source computes in `f32` and uses `+`, `-`, `*`, comparison, `clamp`, literals and the cast to
`i16`. `Scalar` is that interface, so the control code below is written once for any arithmetic.
`FiniteScalar` adds what is known when no operation leaves the finite range: every value is a
rational and every result is the exact one, rounded. The rationals themselves are the instance
that rounds nothing.
-/

namespace Fieldbus

/-- The operations the source uses on `f32`. -/
class Scalar (F : Type) extends Add F, Sub F, Mul F, LE F, LT F, BEq F where
  decLe : DecidableLE F
  decLt : DecidableLT F
  /-- The value of a literal or of a cast from an integer. -/
  ofRat : ℚ → F
  /-- The cast `as i16`: truncation toward zero, saturating. -/
  toI16 : F → Int16
  toI16_zero : toI16 (ofRat 0) = 0
  zero_beq_zero : (ofRat 0 == ofRat 0) = true

namespace Scalar

variable {F : Type} [Scalar F]

instance : DecidableLE F := decLe

instance : DecidableLT F := decLt

/-- `f32::clamp`. -/
def clamp (x lo hi : F) : F :=
  if x < lo then lo else if hi < x then hi else x

/-- The cast `i16 as f32`. -/
def ofI16 (value : Int16) : F := ofRat value.toInt

end Scalar

/-- Truncation toward zero. -/
def truncate (q : ℚ) : ℤ :=
  if 0 ≤ q then ⌊q⌋ else ⌈q⌉

/-- The saturating cast of a rational to `i16`. -/
def truncI16 (q : ℚ) : Int16 :=
  Int16.ofInt (max (-32768) (min 32767 (truncate q)))

/-- Exact rational arithmetic. -/
instance : Scalar ℚ where
  decLe := inferInstance
  decLt := inferInstance
  ofRat := id
  toI16 := truncI16
  toI16_zero := by decide
  zero_beq_zero := by decide

/-- Finite arithmetic: every value denotes a rational and every operation rounds the exact
result. -/
class FiniteScalar (F : Type) [Scalar F] where
  rounding : Rounding
  val : F → ℚ
  val_add : ∀ a b : F, val (a + b) = rounding.round (val a + val b)
  val_sub : ∀ a b : F, val (a - b) = rounding.round (val a - val b)
  val_mul : ∀ a b : F, val (a * b) = rounding.round (val a * val b)
  val_ofRat : ∀ q, val (Scalar.ofRat q : F) = rounding.round q
  le_iff : ∀ a b : F, a ≤ b ↔ val a ≤ val b
  lt_iff : ∀ a b : F, a < b ↔ val a < val b
  toI16_eq : ∀ a : F, Scalar.toI16 a = truncI16 (val a)

/-- The rationals are finite arithmetic without rounding. -/
instance : FiniteScalar ℚ where
  rounding := Rounding.exact
  val := id
  val_add _ _ := rfl
  val_sub _ _ := rfl
  val_mul _ _ := rfl
  val_ofRat _ := rfl
  le_iff _ _ := Iff.rfl
  lt_iff _ _ := Iff.rfl
  toI16_eq _ := rfl

/-! ## Casts to `i16` -/

/-- Truncation stays below an integer upper bound. -/
theorem truncate_le {q : ℚ} {n : ℤ} (h : q ≤ n) : truncate q ≤ n := by
  unfold truncate
  split
  · exact Int.cast_le.mp ((Int.floor_le q).trans h)
  · exact Int.ceil_le.mpr h

/-- Truncation stays above an integer lower bound. -/
theorem le_truncate {q : ℚ} {n : ℤ} (h : n ≤ q) : n ≤ truncate q := by
  unfold truncate
  split
  · exact Int.le_floor.mpr h
  · exact Int.cast_le.mp (h.trans (Int.le_ceil q))

/-- The cast of a value within integer bounds that fit `i16` truncates without saturating. -/
theorem truncI16_toInt {q : ℚ} {lo hi : ℤ} (hlo : -32768 ≤ lo) (hhi : hi ≤ 32767)
    (h : lo ≤ q ∧ q ≤ hi) : (truncI16 q).toInt = truncate q := by
  have hlower := le_truncate h.1
  have hupper := truncate_le h.2
  rw [truncI16, min_eq_right (by omega), max_eq_right (by omega)]
  exact Int16.toInt_ofInt_of_le (by simp; omega) (by simp; omega)

/-- It stays within the bounds. -/
theorem truncI16_mem {q : ℚ} {lo hi : ℤ} (hlo : -32768 ≤ lo) (hhi : hi ≤ 32767)
    (h : lo ≤ q ∧ q ≤ hi) : lo ≤ (truncI16 q).toInt ∧ (truncI16 q).toInt ≤ hi := by
  rw [truncI16_toInt hlo hhi h]
  exact ⟨le_truncate h.1, truncate_le h.2⟩

namespace FiniteScalar

variable {F : Type} [Scalar F] [FiniteScalar F]

/-- Integers of at most 24 bits are representable. -/
theorem val_of_int {n : ℤ} (hn : |n| ≤ 2 ^ 24) : val (Scalar.ofRat (n : ℚ) : F) = n := by
  rw [val_ofRat, Rounding.int_fixed _ n hn]

/-- The cast from `i16` is exact. -/
theorem val_of_i16 (value : Int16) : val (Scalar.ofI16 value : F) = value.toInt := by
  apply val_of_int
  have hlower := value.le_toInt
  have hupper := value.toInt_lt
  rw [abs_le]
  omega

/-- A clamped value lies between the limits. -/
theorem val_clamp_mem {x lo hi : F} (h : val lo ≤ val hi) :
    val lo ≤ val (Scalar.clamp x lo hi) ∧ val (Scalar.clamp x lo hi) ≤ val hi := by
  unfold Scalar.clamp
  split
  · exact ⟨le_rfl, h⟩
  · rename_i hlo
    rw [lt_iff, not_lt] at hlo
    split
    · exact ⟨h, le_rfl⟩
    · rename_i hhi
      rw [lt_iff, not_lt] at hhi
      exact ⟨hlo, hhi⟩

end FiniteScalar

end Fieldbus
