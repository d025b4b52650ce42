import Mathlib.Tactic.Linarith
import Mathlib.Tactic.Positivity
import Mathlib.Tactic.Ring

/-!
# Arithmetic of constant-product markets

A market holds reserves `x` and `y` against `T` outstanding shares with
`T ^ 2 ≤ x * y`. Minting or burning `s` shares against amounts that are at least
(or, burning, at most) the proportional ones keeps that bound; a trade whose
output is rounded against the trader never lowers `x * y`. The trade lemmas take
the fee as a fraction `γ / M` of what goes in, with `0 < γ ≤ M`.
-/

set_option autoImplicit false

namespace ConstantProduct

variable {α : Type _} [CommRing α] [LinearOrder α] [IsStrictOrderedRing α]

/-- Of two non-negative factors whose product reaches `T ^ 2`, one reaches `T`. -/
theorem le_or_le_of_sq_le_mul {T x y : α} (nonnegX : 0 ≤ x) (nonnegY : 0 ≤ y)
    (invariant : T ^ 2 ≤ x * y) : T ≤ x ∨ T ≤ y := by
  rcases le_or_gt T x with reachesX | smallX
  · exact .inl reachesX
  rcases le_or_gt T y with reachesY | smallY
  · exact .inr reachesY
  have : x * y < T * T := mul_lt_mul'' smallX smallY nonnegX nonnegY
  nlinarith

/-- A share count rounded down from `T * m / r` is at most `m` once `T ≤ r`. -/
theorem le_of_floor_of_le {T r q m : α} (positive : 0 < r) (nonnegM : 0 ≤ m) (reaches : T ≤ r)
    (floor : q * r ≤ T * m) : q ≤ m := by
  have scaled : q * r ≤ m * r :=
    calc q * r ≤ T * m := floor
      _ ≤ r * m := mul_le_mul_of_nonneg_right reaches nonnegM
      _ = m * r := mul_comm r m
  exact le_of_mul_le_mul_right scaled positive

/-- An amount rounded up from `s * r / T`, for `s` at most the share count rounded down
from `T * m / r`, stays below `m + 1`. -/
theorem lt_add_one_of_ceil {T r s q m a : α} (positive : 0 < T) (nonnegR : 0 ≤ r) (belowQ : s ≤ q)
    (floor : q * r ≤ T * m) (ceil : a * T < s * r + T) : a < m + 1 := by
  have share : s * r ≤ q * r := mul_le_mul_of_nonneg_right belowQ nonnegR
  have scaled : a * T < (m + 1) * T := by linarith
  exact lt_of_mul_lt_mul_right scaled positive.le

/-- Changing the shares by `s` and the reserves by amounts that cover `s / T` of each
reserve keeps `T ^ 2 ≤ x * y`: a deposit has `s ≥ 0`, a withdrawal `s = -w`. -/
theorem sq_add_le_mul_add {T s x y a b : α} (positive : 0 < T) (remaining : 0 ≤ T + s)
    (nonnegX : 0 ≤ x) (nonnegY : 0 ≤ y) (invariant : T ^ 2 ≤ x * y)
    (coversX : s * x ≤ a * T) (coversY : s * y ≤ b * T) :
    (T + s) ^ 2 ≤ (x + a) * (y + b) := by
  have scaledX : x * (T + s) ≤ (x + a) * T := by linarith
  have scaledY : y * (T + s) ≤ (y + b) * T := by linarith
  have both : x * (T + s) * (y * (T + s)) ≤ (x + a) * T * ((y + b) * T) :=
    mul_le_mul scaledX scaledY (by positivity) (le_trans (by positivity) scaledX)
  have scaled : T ^ 2 * (T + s) ^ 2 ≤ T ^ 2 * ((x + a) * (y + b)) :=
    calc T ^ 2 * (T + s) ^ 2 ≤ x * y * (T + s) ^ 2 := mul_le_mul_of_nonneg_right invariant (sq_nonneg _)
      _ = x * (T + s) * (y * (T + s)) := by ring
      _ ≤ (x + a) * T * ((y + b) * T) := both
      _ = T ^ 2 * ((x + a) * (y + b)) := by ring
  exact le_of_mul_le_mul_left scaled (by positivity)

/-- Selling `dx` for `dy`, where `dy` is rounded down from `γ * y * dx / (M * x + γ * dx)`,
never lowers the product of the reserves and leaves some of `y`. -/
theorem product_le_of_send {M γ x y dx dy : α} (fee : 0 < γ) (feeLe : γ ≤ M) (positiveX : 0 < x)
    (positiveY : 0 < y) (nonnegDx : 0 ≤ dx) (nonnegDy : 0 ≤ dy)
    (rounded : dy * (M * x + γ * dx) ≤ γ * (y * dx)) :
    x * y ≤ (x + dx) * (y - dy) ∧ dy < y := by
  have feeX : dy * (γ * x) ≤ dy * (M * x) :=
    mul_le_mul_of_nonneg_left (mul_le_mul_of_nonneg_right feeLe positiveX.le) nonnegDy
  have inFee : γ * (dy * (x + dx)) ≤ γ * (y * dx) :=
    calc γ * (dy * (x + dx)) = dy * (γ * x) + dy * (γ * dx) := by ring
      _ ≤ dy * (M * x) + dy * (γ * dx) := add_le_add feeX le_rfl
      _ = dy * (M * x + γ * dx) := by ring
      _ ≤ γ * (y * dx) := rounded
  have received : dy * (x + dx) ≤ y * dx := le_of_mul_le_mul_left inFee fee
  have short : dy * (x + dx) < y * (x + dx) := by nlinarith
  exact ⟨by linarith, lt_of_mul_lt_mul_right short (by positivity)⟩

/-- Buying exactly `dy` for `dx`, where `dx` is rounded up from
`M * x * dy / ((y - dy) * γ)`, never lowers the product of the reserves. -/
theorem product_le_of_receive {M γ x y dx dy : α} (fee : 0 < γ) (feeLe : γ ≤ M) (positiveX : 0 < x)
    (nonnegDy : 0 ≤ dy) (rounded : M * (x * dy) ≤ dx * ((y - dy) * γ)) :
    x * y ≤ (x + dx) * (y - dy) := by
  have inFee : γ * (x * dy) ≤ γ * (dx * (y - dy)) :=
    calc γ * (x * dy) ≤ M * (x * dy) := mul_le_mul_of_nonneg_right feeLe (by positivity)
      _ ≤ dx * ((y - dy) * γ) := rounded
      _ = γ * (dx * (y - dy)) := by ring
  have paid : x * dy ≤ dx * (y - dy) := le_of_mul_le_mul_left inFee fee
  linarith

end ConstantProduct
