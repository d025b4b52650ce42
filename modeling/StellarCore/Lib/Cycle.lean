import Mathlib.Logic.Function.Iterate
import Mathlib.Tactic.Ring

/-!
# Walking a cycle

A step that moves an index on by one, modulo a length, walks a cycle: after `k` steps the
index has moved on by `k`, and it is back where it started exactly when `k` is a multiple of
the length.
-/

set_option autoImplicit false

namespace Cycle

variable {α : Type} (step : α → α) (index : α → Nat) {length : Nat} {P : α → Prop}

/-- A step that keeps `P` and moves the index on by one moves it on by `k` in `k` steps; by
induction on `k`. -/
theorem iterate_index (keeps : ∀ x, P x → P (step x))
    (advances : ∀ x, P x → index (step x) = (index x + 1) % length)
    (bounded : ∀ x, P x → index x < length) {x : α} (start : P x) :
    ∀ k, P (step^[k] x) ∧ index (step^[k] x) = (index x + k) % length := by
  intro k
  induction k with
  | zero => exact ⟨start, (Nat.mod_eq_of_lt (bounded x start)).symm⟩
  | succ k ih =>
    obtain ⟨kept, moved⟩ := ih
    rw [Function.iterate_succ_apply']
    refine ⟨keeps _ kept, ?_⟩
    rw [advances _ kept, moved, Nat.mod_add_mod, Nat.add_assoc]

/-- Moving on from an index below the length comes back to it exactly after a multiple of
the length. -/
theorem add_mod_eq_self_iff {a m : Nat} (lt : a < length) : (a + m) % length = a ↔ length ∣ m := by
  have positive : 0 < length := by omega
  constructor
  · intro back
    rw [Nat.add_mod, Nat.mod_eq_of_lt lt] at back
    have small := Nat.mod_lt m positive
    apply Nat.dvd_of_mod_eq_zero
    by_cases wraps : a + m % length < length
    · rw [Nat.mod_eq_of_lt wraps] at back
      omega
    · rw [Nat.mod_eq_sub_mod (by omega), Nat.mod_eq_of_lt (by omega)] at back
      omega
  · rintro ⟨q, rfl⟩
    rw [Nat.add_mul_mod_self_left, Nat.mod_eq_of_lt lt]

end Cycle
