import Mathlib.Algebra.Order.Group.PosPart
import Mathlib.Algebra.Order.BigOperators.Group.List
import Mathlib.Tactic.Abel

/-!
# Deficits paid down from a stock

A deficit is the positive part `d⁺` of what a demand exceeds. Paying it down by a non-negative
amount and taking the positive part again is one payment of both amounts. A deficit that a
stock covers stays covered when part of the stock pays it, and once a payment covers the
deficit of a demand over a limit, what is left of the stock with the demand stays within it.
-/

set_option autoImplicit false

namespace Deficit

variable {α : Type} [Lattice α] [AddCommGroup α] [AddLeftMono α]

/-- Two payments in a row are one payment of their sum. -/
theorem posPart_sub_posPart {a b : α} (paid : 0 ≤ b) : (a⁺ - b)⁺ = (a - b)⁺ := by
  have unpaid : -b ⊔ 0 = 0 := sup_eq_right.mpr (neg_nonpos.mpr paid)
  rw [posPart_def a, sup_sub, zero_sub, posPart_def, posPart_def, sup_assoc, unpaid]

omit [AddLeftMono α] in
theorem posPart_le_of_le {a s : α} (covered : a ≤ s) (stock : 0 ≤ s) : a⁺ ≤ s :=
  sup_le covered stock

theorem posPart_sub_le {a b s : α} (covered : a ≤ s) (within : b ≤ s) : (a - b)⁺ ≤ s - b :=
  sup_le (sub_le_sub_right covered b) (sub_nonneg.mpr within)

/-- A payment that covers the deficit of `a + r` over a limit brings `a + r` within it. -/
theorem sub_add_le_of_paid {a r limit paid : α} (covered : a + r - limit ≤ paid) :
    a - paid + r ≤ limit := by
  rw [sub_add_eq_add_sub, sub_le_iff_le_add, add_comm limit]
  exact sub_le_iff_le_add.mp covered

/-- What is left of a stock once `removed` and a payment `evicted` of a deficit leave it makes
room for any demand that exceeds `newDemand` by at most `removed`. -/
theorem add_le_of_paid {stock rest removed evicted demand newDemand limit : α}
    (sums : rest + (removed + evicted) = stock) (paid : stock + newDemand - limit ≤ evicted)
    (discounted : demand - removed ≤ newDemand) : rest + demand ≤ limit :=
  calc rest + demand = stock - evicted + (demand - removed) := by rw [← sums]; abel
    _ ≤ stock - evicted + newDemand := add_le_add le_rfl discounted
    _ ≤ limit := sub_add_le_of_paid paid

end Deficit
