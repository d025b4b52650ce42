import Mathlib.Tactic.Linarith
import Mathlib.Tactic.Ring

/-!
# Integer division rounded up or down

Floor and ceiling division by a positive divisor are the two adjoints of multiplication by
it: `t ≤ a / c ↔ t * c ≤ a` and `⌈a / c⌉ ≤ t ↔ a ≤ t * c`. The first is Mathlib's
`Int.le_ediv_iff_mul_le`; the second is `ceilDiv_le_iff` below. Every bound on a rounded
quotient is read off one of the two.
-/

set_option autoImplicit false

namespace RoundedDivision

/-- `⌈a / c⌉`, computed as `(a + c - 1) / c`. -/
def ceilDiv (a c : Int) : Int := (a + c - 1) / c

variable {a c t : Int}

theorem ceilDiv_le_iff (positive : 0 < c) : ceilDiv a c ≤ t ↔ a ≤ t * c := by
  unfold ceilDiv
  rw [← Int.lt_add_one_iff, Int.ediv_lt_iff_lt_mul positive]
  constructor <;> intro bounded <;> linarith

theorem lt_ceilDiv_iff (positive : 0 < c) : t < ceilDiv a c ↔ t * c < a := by
  rw [← not_le, ceilDiv_le_iff positive, not_le]

theorem le_ceilDiv_mul (positive : 0 < c) : a ≤ ceilDiv a c * c :=
  (ceilDiv_le_iff positive).mp le_rfl

theorem ceilDiv_nonneg (positive : 0 < c) (nonneg : 0 ≤ a) : 0 ≤ ceilDiv a c := by
  unfold ceilDiv
  apply Int.ediv_nonneg _ positive.le
  omega

/-- A multiple of the divisor divides exactly. -/
theorem ceilDiv_mul_cancel (positive : 0 < c) : ceilDiv (t * c) c = t := by
  apply le_antisymm ((ceilDiv_le_iff positive).mpr le_rfl)
  rw [← Int.sub_one_lt_iff, lt_ceilDiv_iff positive]
  linarith

theorem ceilDiv_zero (positive : 0 < c) : ceilDiv 0 c = 0 := by
  simpa using ceilDiv_mul_cancel (t := 0) positive

/-- Rounding down a multiple of the divisor is exact as well. -/
theorem mul_ediv_cancel (positive : 0 < c) : t * c / c = t :=
  Int.mul_ediv_cancel t positive.ne'

/-- A quotient rounded down is determined by the two products that bracket it. -/
theorem ediv_eq_of_bounds (positive : 0 < c) (lower : t * c ≤ a) (upper : a < (t + 1) * c) :
    a / c = t := by
  apply le_antisymm
  · rw [← Int.lt_add_one_iff, Int.ediv_lt_iff_lt_mul positive]
    exact upper
  · exact (Int.le_ediv_iff_mul_le positive).mpr lower

/-- A quotient rounded up is determined by the two products that bracket it. -/
theorem ceilDiv_eq_of_bounds (positive : 0 < c) (lower : (t - 1) * c < a) (upper : a ≤ t * c) :
    ceilDiv a c = t := by
  apply le_antisymm ((ceilDiv_le_iff positive).mpr upper)
  rw [← Int.sub_one_lt_iff, lt_ceilDiv_iff positive]
  exact lower

/-- The cast of a rounded-up quotient of natural numbers, as the source computes it. -/
theorem natCast_ceilDiv (x d : Nat) (positive : 0 < d) :
    (((x + d - 1) / d : Nat) : Int) = ceilDiv x d := by
  unfold ceilDiv
  rw [Int.natCast_ediv, Nat.cast_sub (by omega)]
  push_cast
  rfl

/-- A bound on the product gives a bound on the quotient rounded down. -/
theorem ediv_le_of_le_mul (positive : 0 < c) (bound : a ≤ t * c) : a / c ≤ t :=
  le_of_mul_le_mul_right ((Int.ediv_mul_le a positive.ne').trans bound) positive

/-- Rounding down to a multiple of `p` and then dividing by `q`, rounded up, stays below any
`M` with `a ≤ M * q`. -/
theorem ceilDiv_ediv_mul_le {p q M : Int} (positiveP : 0 < p) (positiveQ : 0 < q)
    (bound : a ≤ M * q) : ceilDiv (a / p * p) q ≤ M :=
  (ceilDiv_le_iff positiveQ).mpr ((Int.ediv_mul_le a positiveP.ne').trans bound)

/-- Rounding down to a multiple of `p` and then dividing by `q`, rounded down, stays below any
`M` with `a ≤ M * q`. -/
theorem ediv_mul_ediv_le {p q M : Int} (positiveP : 0 < p) (positiveQ : 0 < q)
    (bound : a ≤ M * q) : a / p * p / q ≤ M :=
  ediv_le_of_le_mul positiveQ ((Int.ediv_mul_le a positiveP.ne').trans bound)

end RoundedDivision
