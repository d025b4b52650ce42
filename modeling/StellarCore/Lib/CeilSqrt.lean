import Mathlib.Tactic.NormNum
import Mathlib.Tactic.Linarith
import Mathlib.Tactic.Ring

/-!
# Integer Babylonian iteration towards a ceiling square root

For a bound `R`, the step `x ↦ ⌈(x + ⌈R / x⌉) / 2⌉` started anywhere at or
above `s = ⌈√(R + 1)⌉` decreases strictly until it reaches `s`, and `s` is its
only fixed point in that range. Nothing here depends on machine widths; the
callers bound their intermediate values separately.
-/

set_option autoImplicit false

namespace CeilSqrt

/-- One step of the iteration, with both divisions rounded up. -/
def step (R x : Nat) : Nat := (x + (R + x - 1) / x + 1) / 2

/-- `x` lies at or above the ceiling square root of `R + 1`. -/
def Above (R x : Nat) : Prop := R + 1 ≤ x * x

/-- `x` is exactly the ceiling square root of `R + 1`. -/
def IsCeilSqrt (R x : Nat) : Prop := R + 1 ≤ x * x ∧ (x - 1) * (x - 1) ≤ R

instance (R x : Nat) : Decidable (Above R x) := inferInstanceAs (Decidable (_ ≤ _))

/-- The rounded-up quotient `⌈R / x⌉`, described by the two products that bracket it. -/
theorem ceilDiv_spec (R x : Nat) (positive : 0 < x) :
    R ≤ x * ((R + x - 1) / x) ∧ x * ((R + x - 1) / x) < R + x := by
  have division := Nat.div_add_mod (R + x - 1) x
  have remainder := Nat.mod_lt (R + x - 1) positive
  constructor <;> omega

theorem above_pos {R x : Nat} (above : Above R x) : 0 < x := by
  rcases Nat.eq_zero_or_pos x with rfl | positive
  · simp [Above] at above
  · exact positive

/-- The step never falls below the ceiling square root once it starts above it. -/
theorem step_above {R x : Nat} (above : Above R x) : Above R (step R x) := by
  have positive := above_pos above
  obtain ⟨lower, upper⟩ := ceilDiv_spec R x positive
  unfold Above at above ⊢
  unfold step
  set y := (R + x - 1) / x with hy
  -- `2 * step ≥ x + y`, and `x * y ≥ R`; the cases `|x - y| ≤ 1` need `x * x > R`.
  have twice : x + y ≤ 2 * ((x + y + 1) / 2) := by omega
  rcases Nat.lt_or_ge (x + 1) y with far | near
  · nlinarith
  rcases Nat.lt_or_ge (y + 1) x with far' | near'
  · nlinarith
  · have : x ≤ (x + y + 1) / 2 ∨ x + 1 ≤ (x + y + 1) / 2 ∨ y = x - 1 := by omega
    rcases this with big | big | below
    · nlinarith
    · nlinarith
    · have : (x + y + 1) / 2 = x := by omega
      rw [this]
      exact above

/-- Strictly above the ceiling square root, the step strictly decreases. -/
theorem step_lt {R x : Nat} (above : Above R x) (strict : R + 1 ≤ (x - 1) * (x - 1)) :
    step R x < x := by
  have positive := above_pos above
  obtain ⟨lower, upper⟩ := ceilDiv_spec R x positive
  unfold step
  set y := (R + x - 1) / x
  have small : y + 2 ≤ x := by
    by_contra large
    have : x - 1 ≤ y := by omega
    have : x * (x - 1) ≤ x * y := Nat.mul_le_mul_left x this
    have : (x - 1) * (x - 1) + (x - 1) = x * (x - 1) := by
      rcases x with _ | x
      · omega
      · simp only [Nat.add_sub_cancel]; ring
    omega
  omega

/-- The ceiling square root is a fixed point of the step. -/
theorem step_eq_self {R x : Nat} (exact : IsCeilSqrt R x) : step R x = x := by
  obtain ⟨above, below⟩ := exact
  have positive := above_pos above
  obtain ⟨lower, upper⟩ := ceilDiv_spec R x positive
  unfold step
  set y := (R + x - 1) / x
  have atMost : y ≤ x := by
    by_contra large
    have : x * (x + 1) ≤ x * y := Nat.mul_le_mul_left x (by omega)
    have : x * (x + 1) = x * x + x := by ring
    omega
  have atLeast : x - 1 ≤ y := by
    by_contra small
    have : x * y + x ≤ x * (x - 1) := by
      have := Nat.mul_le_mul_left x (show y + 1 ≤ x - 1 by omega)
      rw [Nat.mul_add, Nat.mul_one] at this
      exact this
    have : (x - 1) * (x - 1) + (x - 1) = x * (x - 1) := by
      rcases x with _ | x
      · omega
      · simp only [Nat.add_sub_cancel]; ring
    omega
  omega

/-- Above the ceiling square root, a fixed point of the step is the ceiling square root. -/
theorem isCeilSqrt_of_step_eq {R x : Nat} (above : Above R x) (fixed : step R x = x) :
    IsCeilSqrt R x := by
  refine ⟨above, ?_⟩
  by_contra strict
  have := step_lt above (by omega)
  omega

/-- Above the ceiling square root the step either strictly decreases or stays, and it stays
only at the ceiling square root. -/
theorem step_lt_or_isCeilSqrt {R x : Nat} (above : Above R x) :
    step R x < x ∨ step R x = x ∧ IsCeilSqrt R x := by
  by_cases exact : IsCeilSqrt R x
  · exact .inr ⟨step_eq_self exact, exact⟩
  · refine .inl (step_lt above ?_)
    unfold IsCeilSqrt at exact
    unfold Above at above
    omega

/-- The iterates of the step from a value above the ceiling square root stay above it and
below the value they start from. -/
theorem iterate_above {R x : Nat} (above : Above R x) :
    ∀ n, Above R ((step R)^[n] x) ∧ (step R)^[n] x ≤ x
  | 0 => ⟨above, le_refl x⟩
  | n + 1 => by
    obtain ⟨aboveN, belowN⟩ := iterate_above above n
    rw [Function.iterate_succ_apply']
    refine ⟨step_above aboveN, ?_⟩
    rcases step_lt_or_isCeilSqrt aboveN with smaller | ⟨fixed, -⟩ <;> omega

/-- The ceiling square root is below every value that is above it. -/
theorem le_of_above {R s x : Nat} (exact : IsCeilSqrt R s) (above : Above R x) : s ≤ x := by
  obtain ⟨_, below⟩ := exact
  by_contra small
  have : x ≤ s - 1 := by omega
  have : x * x ≤ (s - 1) * (s - 1) := Nat.mul_le_mul this this
  unfold Above at above
  omega

end CeilSqrt
