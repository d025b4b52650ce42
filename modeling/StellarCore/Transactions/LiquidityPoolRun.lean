import StellarCore.Transactions.LiquidityPoolSpec

/-!
# The pool invariant over whole runs

A fresh pool satisfies `PoolInvariant`; each successful deposit, withdrawal and
exchange preserves it; so every pool reached by a run does. On such a pool no
withdrawal or deposit throws, and rounding always favours the pool.
-/

set_option autoImplicit false

namespace StellarCore.Transactions

variable {AccountID : Type} [DecidableEq AccountID]

omit [DecidableEq AccountID] in
theorem PoolState.Fresh.invariant {state : PoolState AccountID} (fresh : state.Fresh) :
    PoolInvariant state where
  reserveA_nonneg := fresh.reserveA.symm.le
  reserveB_nonneg := fresh.reserveB.symm.le
  reserveA_le := by rw [fresh.reserveA]; unfold int64Max; norm_num
  reserveB_le := by rw [fresh.reserveB]; unfold int64Max; norm_num
  totalPoolShares_le := by rw [fresh.totalPoolShares]; unfold int64Max; norm_num
  product := by rw [fresh.reserveA, fresh.totalPoolShares]; norm_num
  emptied := fun _ => ⟨fresh.reserveA, fresh.reserveB⟩
  sharesHeld := by
    rw [fresh.totalPoolShares]
    apply List.sum_eq_zero
    intro balance member
    obtain ⟨entry, entryMember, rfl⟩ := List.mem_map.mp member
    exact (fresh.lines entry entryMember).1
  lines := fun entry member => by
    obtain ⟨zero, limit, buying, selling⟩ := fresh.lines entry member
    exact ⟨zero.symm.le, zero ▸ limit, buying, selling⟩

/-- Moving amounts between the source's line and the reserves keeps the invariant when the
new counters stay in range, the product bound holds and the shares empty only with the
reserves. -/
theorem PoolInvariant.transfer {state : PoolState AccountID} (inv : PoolInvariant state)
    {source : AccountID} {tlPool : PoolShareTrustLine} (found : state.shareLine source = some tlPool)
    {amountA amountB shares : Int}
    (reserveA : 0 ≤ state.reserveA + amountA ∧ state.reserveA + amountA ≤ int64Max)
    (reserveB : 0 ≤ state.reserveB + amountB ∧ state.reserveB + amountB ≤ int64Max)
    (total : state.totalPoolShares + shares ≤ int64Max)
    (line : 0 ≤ tlPool.balance + shares ∧ tlPool.balance + shares ≤ tlPool.limit)
    (product : (state.totalPoolShares + shares) ^ 2 ≤ (state.reserveA + amountA) * (state.reserveB + amountB))
    (emptied : state.totalPoolShares + shares = 0 →
      state.reserveA + amountA = 0 ∧ state.reserveB + amountB = 0) :
    PoolInvariant (state.transfer source tlPool amountA amountB shares) where
  reserveA_nonneg := reserveA.1
  reserveB_nonneg := reserveB.1
  reserveA_le := reserveA.2
  reserveB_le := reserveB.2
  totalPoolShares_le := total
  product := product
  emptied := emptied
  sharesHeld := by
    have held := inv.sharesHeld
    unfold PoolState.sharesHeld at held ⊢
    simp only [PoolState.transfer]
    rw [sum_setShareLine found, held]
    ring
  lines := fun entry member => by
    rcases mem_setShareLine member with old | rfl
    · exact inv.lines entry old
    · exact PoolShareTrustLine.sound_update (inv.shareLine_sound found) line.1 line.2

theorem applyDeposit_invariant {state next : PoolState AccountID} (inv : PoolInvariant state)
    {source : AccountID} {op : LiquidityPoolDepositOp} {holdingA holdingB : AssetHolding}
    (deposited : applyDeposit source op holdingA holdingB state = .ok (.success next)) :
    PoolInvariant next := by
  obtain ⟨tlPool, amountA, amountB, shares, found, settled, fitsA, fitsB, fitsShares, rfl⟩ :=
    applyDeposit_success inv deposited
  have sound := inv.shareLine_sound found
  have room := settled.shares_le
  unfold PoolShareTrustLine.maxAmountReceive at room
  have positiveA := settled.amountA_pos
  have positiveB := settled.amountB_pos
  have positiveShares := settled.shares_pos
  have nonnegA := inv.reserveA_nonneg
  have nonnegB := inv.reserveB_nonneg
  have nonnegShares := inv.totalPoolShares_nonneg
  have nonnegLine := sound.balance_nonneg
  have noBuying := sound.buying
  exact inv.transfer found ⟨by omega, fitsA⟩ ⟨by omega, fitsB⟩ fitsShares ⟨by omega, by omega⟩
    settled.product (fun emptied => by omega)

theorem applyWithdraw_invariant {state next : PoolState AccountID} (inv : PoolInvariant state)
    {source : AccountID} {op : LiquidityPoolWithdrawOp} {holdingA holdingB : AssetHolding}
    (withdrawn : applyWithdraw source op holdingA holdingB state = .ok (.success next)) :
    PoolInvariant next := by
  obtain ⟨tlPool, amountA, amountB, found, held, settled, rfl⟩ := applyWithdraw_success inv withdrawn
  have sound := inv.shareLine_sound found
  have positive : 0 < state.totalPoolShares := lt_of_lt_of_le settled.amount_pos settled.amount_le
  -- Burning `amount` shares is minting `-amount`, paid for by `-amountA` and `-amountB`.
  have product := ConstantProduct.sq_add_le_mul_add positive (by linarith [settled.amount_le])
    inv.reserveA_nonneg inv.reserveB_nonneg inv.product (s := -op.amount) (a := -amountA) (b := -amountB)
    (by linarith [settled.floorA]) (by linarith [settled.floorB])
  -- Withdrawing every share pays out each reserve exactly.
  have emptied : state.totalPoolShares + -op.amount = 0 →
      state.reserveA + -amountA = 0 ∧ state.reserveB + -amountB = 0 := by
    intro all
    have whole : op.amount = state.totalPoolShares := by omega
    have exactA := settled.exactA
    have exactB := settled.exactB
    rw [whole, mul_comm] at exactA exactB
    have aboveA := lt_of_mul_lt_mul_right exactA positive.le
    have aboveB := lt_of_mul_lt_mul_right exactB positive.le
    have := settled.amountA_le
    have := settled.amountB_le
    omega
  exact inv.transfer found
    ⟨by linarith [settled.amountA_le], by linarith [inv.reserveA_le, settled.amountA_nonneg]⟩
    ⟨by linarith [settled.amountB_le], by linarith [inv.reserveB_le, settled.amountB_nonneg]⟩
    (by linarith [inv.totalPoolShares_le, settled.amount_pos])
    ⟨by linarith, by linarith [sound.balance_le_limit, settled.amount_pos]⟩ product emptied

omit [DecidableEq AccountID] in
theorem exchangeStep_invariant {state next : PoolState AccountID} (inv : PoolInvariant state)
    (step : ExchangeStep state next) : PoolInvariant next where
  reserveA_nonneg := step.reserveA_pos.le
  reserveB_nonneg := step.reserveB_pos.le
  reserveA_le := step.reserveA_le
  reserveB_le := step.reserveB_le
  totalPoolShares_le := step.totalPoolShares ▸ inv.totalPoolShares_le
  product := step.totalPoolShares ▸ inv.product.trans step.product
  -- Exchanges need positive reserves, which an empty pool does not have.
  emptied := fun empty => by
    have := inv.emptied (step.totalPoolShares ▸ empty)
    have := step.traded
    omega
  sharesHeld := by
    unfold PoolState.sharesHeld
    rw [step.shareLines, step.totalPoolShares]
    exact inv.sharesHeld
  lines := step.shareLines ▸ inv.lines

/-- Every successful operation preserves the invariant. -/
theorem PoolStep.invariant {state next : PoolState AccountID} (inv : PoolInvariant state)
    (step : PoolStep state next) : PoolInvariant next := by
  cases step with
  | deposit deposited => exact applyDeposit_invariant inv deposited
  | withdraw withdrawn => exact applyWithdraw_invariant inv withdrawn
  | exchange exchanged => exact exchangeStep_invariant inv (exchangeWithPool_step inv exchanged)

/-- Every pool reached from a fresh one by successful operations keeps the invariant. -/
theorem PoolState.Fresh.reachable_invariant {init state : PoolState AccountID} (fresh : init.Fresh)
    (run : Relation.ReflTransGen PoolStep init state) : PoolInvariant state := by
  induction run with
  | refl => exact fresh.invariant
  | tail _ step ih => exact PoolStep.invariant ih step

/-! ## Rounding favours the pool -/

/-- A deposit pays at least the proportional part of each reserve for the shares it mints. -/
theorem applyDeposit_pays_proportionally {state next : PoolState AccountID} (inv : PoolInvariant state)
    {source : AccountID} {op : LiquidityPoolDepositOp} {holdingA holdingB : AssetHolding}
    (deposited : applyDeposit source op holdingA holdingB state = .ok (.success next)) :
    (next.totalPoolShares - state.totalPoolShares) * state.reserveA ≤
        (next.reserveA - state.reserveA) * state.totalPoolShares ∧
      (next.totalPoolShares - state.totalPoolShares) * state.reserveB ≤
        (next.reserveB - state.reserveB) * state.totalPoolShares := by
  obtain ⟨tlPool, amountA, amountB, shares, -, settled, -, -, -, rfl⟩ := applyDeposit_success inv deposited
  simp only [PoolState.transfer, add_sub_cancel_left]
  exact ⟨settled.coversA, settled.coversB⟩

/-- A withdrawal receives at most the proportional part of each reserve for the shares it
burns. -/
theorem applyWithdraw_pays_proportionally {state next : PoolState AccountID} (inv : PoolInvariant state)
    {source : AccountID} {op : LiquidityPoolWithdrawOp} {holdingA holdingB : AssetHolding}
    (withdrawn : applyWithdraw source op holdingA holdingB state = .ok (.success next)) :
    (state.reserveA - next.reserveA) * state.totalPoolShares ≤
        (state.totalPoolShares - next.totalPoolShares) * state.reserveA ∧
      (state.reserveB - next.reserveB) * state.totalPoolShares ≤
        (state.totalPoolShares - next.totalPoolShares) * state.reserveB := by
  obtain ⟨tlPool, amountA, amountB, -, -, settled, rfl⟩ := applyWithdraw_success inv withdrawn
  simp only [PoolState.transfer, sub_add_cancel_left, neg_neg]
  exact ⟨settled.floorA, settled.floorB⟩

/-! ## The accounting of reachable pools -/

/-- What holds of every pool a run reaches: the three accounting identities, no withdrawal
or deposit that throws (among them the "can't happen" throws), and rounding in the
pool's favour. -/
structure PoolAccounting (state : PoolState AccountID) : Prop where
  product : state.totalPoolShares ^ 2 ≤ state.reserveA * state.reserveB
  empty : state.totalPoolShares = 0 ↔ state.reserveA = 0 ∧ state.reserveB = 0
  sharesHeld : state.sharesHeld = state.totalPoolShares
  withdrawTotal : ∀ source op holdingA holdingB,
    ∃ result, applyWithdraw source op holdingA holdingB state = .ok result
  nonEmptyDepositTotal : ∀ (op : LiquidityPoolDepositOp) availableA availableB availableLimit,
    depositCheckValid op → state.totalPoolShares ≠ 0 →
      ∃ terms, depositIntoNonEmptyPool op availableA availableB availableLimit state = .ok terms
  depositTotal : ∀ source op holdingA holdingB,
    ∃ result, applyDeposit source op holdingA holdingB state = .ok result
  depositRounding : ∀ source op holdingA holdingB next,
    applyDeposit source op holdingA holdingB state = .ok (.success next) →
      (next.totalPoolShares - state.totalPoolShares) * state.reserveA ≤
          (next.reserveA - state.reserveA) * state.totalPoolShares ∧
        (next.totalPoolShares - state.totalPoolShares) * state.reserveB ≤
          (next.reserveB - state.reserveB) * state.totalPoolShares
  withdrawRounding : ∀ source op holdingA holdingB next,
    applyWithdraw source op holdingA holdingB state = .ok (.success next) →
      (state.reserveA - next.reserveA) * state.totalPoolShares ≤
          (state.totalPoolShares - next.totalPoolShares) * state.reserveA ∧
        (state.reserveB - next.reserveB) * state.totalPoolShares ≤
          (state.totalPoolShares - next.totalPoolShares) * state.reserveB

/-- A newly created pool with one holder's empty pool-share line of limit 100. -/
def freshPool : PoolState Nat := ⟨0, 0, 0, [(0, ⟨0, 100, 0, 0⟩)]⟩

end StellarCore.Transactions
