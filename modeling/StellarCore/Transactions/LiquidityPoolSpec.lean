import StellarCore.Transactions.LiquidityPoolInvariant
import StellarCore.Lib.ConstantProduct

/-!
# What each pool operation does on a pool that keeps the invariant

One spec lemma per function of the model: the balance updates, the price check,
the two share computations of a deposit, `doApply` of a deposit and of a
withdrawal, and the arithmetic of an exchange. On a pool that keeps
`PoolInvariant` none of them throws, and each states its result exactly, so the
preservation proofs never unfold the operations.
-/

set_option autoImplicit false

namespace StellarCore.Transactions

variable {AccountID : Type} [DecidableEq AccountID]

/-! ## Balance updates -/

theorem addBalanceInt_of_fits {balance delta maxBalance : Int} (nonneg : 0 ≤ balance)
    (lower : 0 ≤ balance + delta) (upper : balance + delta ≤ maxBalance) :
    addBalanceInt balance delta maxBalance = .ok (some (balance + delta)) := by
  have room : 0 ≤ maxBalance := by omega
  unfold addBalanceInt
  by_cases zero : delta = 0
  · simp [nonneg, room, zero]
  · have inside : ¬ delta < -balance := by omega
    have below : ¬ maxBalance - balance < delta := by omega
    simp [nonneg, room, zero, inside, below]

theorem addPoolBalance_of_fits {balance delta : Int} (nonneg : 0 ≤ balance) (lower : 0 ≤ balance + delta)
    (upper : balance + delta ≤ int64Max) (message : String) :
    addPoolBalance balance delta message = .ok (balance + delta) := by
  simp [addPoolBalance, addBalanceInt_of_fits nonneg lower upper]

/-- What a successful `addBalance` returns: the sum, within range unless nothing changed. -/
theorem addBalanceInt_eq_some {balance delta maxBalance result : Int}
    (updated : addBalanceInt balance delta maxBalance = .ok (some result)) :
    result = balance + delta ∧ (delta = 0 ∨ 0 ≤ result ∧ result ≤ maxBalance) := by
  unfold addBalanceInt at updated
  split_ifs at updated with nonneg room zero inside below
  all_goals simp only [Except.ok.injEq, Option.some.injEq, reduceCtorEq] at updated
  · omega
  · omega

/-- A pool counter that `addPoolBalance` updated stays within `int64`. -/
theorem addPoolBalance_eq_ok {balance delta result : Int} {message : String} (nonneg : 0 ≤ balance)
    (fits : balance ≤ int64Max) (updated : addPoolBalance balance delta message = .ok result) :
    result = balance + delta ∧ 0 ≤ result ∧ result ≤ int64Max := by
  unfold addPoolBalance at updated
  split at updated
  · rename_i added
    cases updated
    have := addBalanceInt_eq_some added
    omega
  · cases updated
  · cases updated

theorem PoolShareTrustLine.addBalance_of_fits {line : PoolShareTrustLine} (sound : line.Sound)
    {delta : Int} (lower : 0 ≤ line.balance + delta) (upper : line.balance + delta ≤ line.limit) :
    line.addBalance delta = .ok (some { line with balance := line.balance + delta }) := by
  unfold PoolShareTrustLine.addBalance
  by_cases zero : delta = 0
  · simp [zero]
  · have fits := addBalanceInt_of_fits sound.balance_nonneg lower upper
    simp only [zero, ↓reduceIte, fits, Except.map_ok', Option.bind_some, sound.buying, sound.selling]
    have notNegative : ¬ line.balance + delta < 0 := by omega
    simpa [notNegative] using upper

theorem PoolShareTrustLine.sound_update {line : PoolShareTrustLine} (sound : line.Sound) {balance : Int}
    (lower : 0 ≤ balance) (upper : balance ≤ line.limit) : { line with balance := balance }.Sound :=
  ⟨lower, upper, sound.buying, sound.selling⟩

/-! ## The price check -/

/-- With non-negative amounts and positive prices `isBadPrice` does not throw, and it
passes only non-zero amounts. -/
theorem isBadPrice_ok {amountA amountB : Int} {minPrice maxPrice : Price} (nonnegA : 0 ≤ amountA)
    (nonnegB : 0 ≤ amountB) (minN : 0 < minPrice.n) (minD : 0 < minPrice.d) (maxN : 0 < maxPrice.n)
    (maxD : 0 < maxPrice.d) :
    ∃ bad, isBadPrice amountA amountB minPrice maxPrice = .ok bad ∧
      (bad = false → amountA ≠ 0 ∧ amountB ≠ 0) := by
  unfold isBadPrice
  by_cases zero : amountA = 0 ∨ amountB = 0
  · exact ⟨true, by simp [zero], by simp⟩
  · simp only [zero, ↓reduceIte, bigMultiply, ge_iff_le, nonnegA, nonnegB, minN.le, minD.le, maxN.le,
      maxD.le, and_self, Except.ok_bind, Except.pure_eq_ok]
    exact ⟨_, rfl, fun _ => not_or.mp zero⟩

/-! ## Deposits -/

/-- What the share computation guarantees of the amounts and the shares a deposit into
`state` settles on. -/
structure DepositSettled (state : PoolState AccountID) (availableA availableB availableLimit : Int)
    (amountA amountB shares : Int) : Prop where
  amountA_pos : 0 < amountA
  amountB_pos : 0 < amountB
  shares_pos : 0 < shares
  amountA_le : amountA ≤ availableA
  amountB_le : amountB ≤ availableB
  shares_le : shares ≤ availableLimit
  coversA : shares * state.reserveA ≤ amountA * state.totalPoolShares
  coversB : shares * state.reserveB ≤ amountB * state.totalPoolShares
  product : (state.totalPoolShares + shares) ^ 2 ≤ (state.reserveA + amountA) * (state.reserveB + amountB)

/-- The deposit terms of a computation that does not throw, and what they guarantee. -/
def DepositTermsSettle (state : PoolState AccountID) (availableA availableB availableLimit : Int)
    (computed : Except String DepositTerms) : Prop :=
  ∃ terms, computed = .ok terms ∧ ∀ amountA amountB shares, terms = .ok (amountA, amountB, shares) →
    DepositSettled state availableA availableB availableLimit amountA amountB shares

theorem depositCheckValid_prices {op : LiquidityPoolDepositOp} (valid : depositCheckValid op) :
    0 < op.maxAmountA ∧ 0 < op.maxAmountB ∧ 0 < op.minPrice.n ∧ 0 < op.minPrice.d ∧
      0 < op.maxPrice.n ∧ 0 < op.maxPrice.d := by
  simp only [depositCheckValid, gt_iff_lt, not_lt, Bool.decide_and, Bool.and_eq_true,
    decide_eq_true_eq] at valid
  omega

omit [DecidableEq AccountID] in
/-- The first deposit takes both maximum amounts and mints their floor geometric mean. -/
theorem depositIntoEmptyPool_settles {state : PoolState AccountID} (inv : PoolInvariant state)
    (empty : state.totalPoolShares = 0) {op : LiquidityPoolDepositOp} (valid : depositCheckValid op)
    (availableA availableB availableLimit : Int) :
    DepositTermsSettle state availableA availableB availableLimit
      (depositIntoEmptyPool op availableA availableB availableLimit) := by
  obtain ⟨positiveA, positiveB, minN, minD, maxN, maxD⟩ := depositCheckValid_prices valid
  obtain ⟨zeroA, zeroB⟩ := inv.emptied empty
  unfold depositIntoEmptyPool
  by_cases under : availableA < op.maxAmountA ∨ availableB < op.maxAmountB
  · exact ⟨.error .underfunded, by simp [under], by simp⟩
  obtain ⟨bad, priced, passes⟩ := isBadPrice_ok positiveA.le positiveB.le minN minD maxN maxD
  cases bad with
  | true => exact ⟨.error .badPrice, by simp [under, priced], by simp⟩
  | false =>
      obtain ⟨nonzeroA, nonzeroB⟩ := passes rfl
      have boundA : op.maxAmountA.toNat ≤ uint64Max := by
        have := op.maxAmountA_le; unfold int64Max at this; unfold uint64Max; omega
      have boundB : op.maxAmountB.toNat ≤ uint64Max := by
        have := op.maxAmountB_le; unfold int64Max at this; unfold uint64Max; omega
      obtain ⟨root, rooted, lower, upper⟩ := bigSquareRoot_spec boundA boundB
      by_cases full : availableLimit < root
      · exact ⟨.error .lineFull, by simp [under, priced, rooted, full], by simp⟩
      refine ⟨.ok (op.maxAmountA, op.maxAmountB, root), by simp [under, priced, rooted, full], ?_⟩
      intro amountA amountB shares settled
      simp only [Except.ok.injEq, Prod.mk.injEq] at settled
      obtain ⟨rfl, rfl, rfl⟩ := settled
      -- The mean of two positive amounts is at least one share.
      have rootPos : 0 < root := by
        rcases Nat.eq_zero_or_pos root with rfl | positive
        · have : 0 < op.maxAmountA.toNat * op.maxAmountB.toNat := Nat.mul_pos (by omega) (by omega)
          omega
        · exact positive
      have square : ((root : Int)) ^ 2 ≤ op.maxAmountA * op.maxAmountB := by
        have cast := Int.ofNat_le.mpr lower
        push_cast [Int.toNat_of_nonneg positiveA.le, Int.toNat_of_nonneg positiveB.le] at cast
        nlinarith
      refine ⟨positiveA, positiveB, by omega, by omega, by omega, by omega, ?_, ?_, ?_⟩
      · simp [zeroA, empty]
      · simp [zeroB, empty]
      · simpa [zeroA, zeroB, empty] using square

/-- When one of the two share quotients fits an `int64`, `minAmongValid` picks one of
them, below both. -/
theorem minAmongValid_of_fits {sharesA sharesB : Int} (fits : sharesA ≤ int64Max ∨ sharesB ≤ int64Max) :
    ∃ shares, minAmongValid (if sharesA ≤ int64Max then some sharesA else none)
        (if sharesB ≤ int64Max then some sharesB else none) = some shares ∧
      shares ≤ sharesA ∧ shares ≤ sharesB ∧ shares ≤ int64Max ∧ (shares = sharesA ∨ shares = sharesB) := by
  by_cases fitsA : sharesA ≤ int64Max <;> by_cases fitsB : sharesB ≤ int64Max
  · exact ⟨min sharesA sharesB, by simp [minAmongValid, fitsA, fitsB], by omega, by omega, by omega, by omega⟩
  · exact ⟨sharesA, by simp [minAmongValid, fitsA, fitsB], by omega, by omega, by omega, by omega⟩
  · exact ⟨sharesB, by simp [minAmongValid, fitsA, fitsB], by omega, by omega, by omega, by omega⟩
  · omega

omit [DecidableEq AccountID] in
/-- A later deposit mints the smaller of the two rounded-down share counts and pays
rounded-up amounts for them; neither "can't happen" throw is reachable. -/
theorem depositIntoNonEmptyPool_settles {state : PoolState AccountID} (inv : PoolInvariant state)
    (shares : state.totalPoolShares ≠ 0) {op : LiquidityPoolDepositOp} (valid : depositCheckValid op)
    (availableA availableB availableLimit : Int) :
    DepositTermsSettle state availableA availableB availableLimit
      (depositIntoNonEmptyPool op availableA availableB availableLimit state) := by
  obtain ⟨positiveA, positiveB, minN, minD, maxN, maxD⟩ := depositCheckValid_prices valid
  have positive : 0 < state.totalPoolShares := lt_of_le_of_ne inv.totalPoolShares_nonneg (Ne.symm shares)
  obtain ⟨reserveA_pos, reserveB_pos⟩ := inv.reserves_pos shares
  obtain ⟨sharesA, dividedA, nonnegA, floorA, -⟩ :=
    bigDivide_roundDown_bracket positive.le positiveA.le reserveA_pos
  obtain ⟨sharesB, dividedB, nonnegB, floorB, -⟩ :=
    bigDivide_roundDown_bracket positive.le positiveB.le reserveB_pos
  -- `T ^ 2 ≤ reserveA * reserveB` puts `T` below one reserve, whose quotient then fits.
  have fits : sharesA ≤ int64Max ∨ sharesB ≤ int64Max := by
    rcases ConstantProduct.le_or_le_of_sq_le_mul inv.reserveA_nonneg inv.reserveB_nonneg inv.product
      with reachesA | reachesB
    · exact .inl ((ConstantProduct.le_of_floor_of_le reserveA_pos positiveA.le reachesA floorA).trans
        op.maxAmountA_le)
    · exact .inr ((ConstantProduct.le_of_floor_of_le reserveB_pos positiveB.le reachesB floorB).trans
        op.maxAmountB_le)
  obtain ⟨minted, chosen, belowA, belowB, -, pickedOne⟩ := minAmongValid_of_fits fits
  have mintedNonneg : 0 ≤ minted := by omega
  obtain ⟨amountA, roundedA, amountA_nonneg, coversA, ceilA⟩ :=
    bigDivide_roundUp_bracket mintedNonneg inv.reserveA_nonneg positive
  obtain ⟨amountB, roundedB, amountB_nonneg, coversB, ceilB⟩ :=
    bigDivide_roundUp_bracket mintedNonneg inv.reserveB_nonneg positive
  -- Paying for at most the rounded-down shares costs at most the maximum amount.
  have fitsA : amountA ≤ int64Max := by
    have := ConstantProduct.lt_add_one_of_ceil positive inv.reserveA_nonneg belowA floorA ceilA
    have := op.maxAmountA_le
    omega
  have fitsB : amountB ≤ int64Max := by
    have := ConstantProduct.lt_add_one_of_ceil positive inv.reserveB_nonneg belowB floorB ceilB
    have := op.maxAmountB_le
    omega
  obtain ⟨bad, priced, passes⟩ := isBadPrice_ok amountA_nonneg amountB_nonneg minN minD maxN maxD
  simp only [depositIntoNonEmptyPool, dividedA, dividedB, Except.ok_bind, chosen, roundedA, roundedB,
    fitsA, fitsB, ↓reduceIte]
  by_cases under : availableA < amountA ∨ availableB < amountB
  · exact ⟨.error .underfunded, by simp [under], by simp⟩
  cases bad with
  | true => exact ⟨.error .badPrice, by simp [under, priced], by simp⟩
  | false =>
      obtain ⟨nonzeroA, nonzeroB⟩ := passes rfl
      by_cases full : availableLimit < minted
      · exact ⟨.error .lineFull, by simp [under, priced, full], by simp⟩
      refine ⟨.ok (amountA, amountB, minted), by simp [under, priced, full], ?_⟩
      intro paidA paidB mintedShares settled
      simp only [Except.ok.injEq, Prod.mk.injEq] at settled
      obtain ⟨rfl, rfl, rfl⟩ := settled
      -- A positive payment rounded up from `minted * reserveA / T` needs `minted > 0`.
      have mintedPos : 0 < minted := by
        rcases mintedNonneg.eq_or_lt with zero | positiveMinted
        · rw [← zero, zero_mul, zero_add] at ceilA
          have : amountA < 1 := lt_of_mul_lt_mul_right (by simpa using ceilA) positive.le
          omega
        · exact positiveMinted
      refine ⟨by omega, by omega, mintedPos, by omega, by omega, by omega, coversA, coversB, ?_⟩
      exact ConstantProduct.sq_add_le_mul_add positive (by omega) inv.reserveA_nonneg inv.reserveB_nonneg
        inv.product coversA coversB

omit [DecidableEq AccountID] in
theorem depositAmounts_settles {state : PoolState AccountID} (inv : PoolInvariant state)
    {op : LiquidityPoolDepositOp} (valid : depositCheckValid op) (holdingA holdingB : AssetHolding)
    (tlPool : PoolShareTrustLine) :
    DepositTermsSettle state holdingA.available holdingB.available tlPool.maxAmountReceive
      (depositAmounts op holdingA holdingB tlPool state) := by
  unfold depositAmounts
  by_cases empty : state.totalPoolShares = 0
  · simpa [empty] using depositIntoEmptyPool_settles inv empty valid _ _ _
  · simpa [empty] using depositIntoNonEmptyPool_settles inv empty valid _ _ _

/-- The pool after `source`, holding `tlPool`, moves `amountA` and `amountB` into the
reserves and `shares` into its line: a deposit, or a withdrawal with negated amounts. -/
def PoolState.transfer (state : PoolState AccountID) (source : AccountID) (tlPool : PoolShareTrustLine)
    (amountA amountB shares : Int) : PoolState AccountID :=
  ⟨state.reserveA + amountA, state.reserveB + amountB, state.totalPoolShares + shares,
    setShareLine state.shareLines source { tlPool with balance := tlPool.balance + shares }⟩

/-- Once the amounts are settled, `doApply` reports a full pool or credits the deposit. -/
theorem depositDoApply_of_settled {state : PoolState AccountID} (inv : PoolInvariant state)
    {source : AccountID} {tlPool : PoolShareTrustLine} (found : state.shareLine source = some tlPool)
    {op : LiquidityPoolDepositOp} {holdingA holdingB : AssetHolding}
    (authorized : holdingA.authorized = true ∧ holdingB.authorized = true) {amountA amountB shares : Int}
    (computed : depositAmounts op holdingA holdingB tlPool state = .ok (.ok (amountA, amountB, shares)))
    (settled : DepositSettled state holdingA.available holdingB.available tlPool.maxAmountReceive
      amountA amountB shares) :
    depositDoApply source op holdingA holdingB state =
      .ok (if int64Max - amountA < state.reserveA ∨ int64Max - amountB < state.reserveB ∨
          int64Max - shares < state.totalPoolShares then .failed .poolFull
        else .success (state.transfer source tlPool amountA amountB shares)) := by
  have sound := inv.shareLine_sound found
  by_cases full : int64Max - amountA < state.reserveA ∨ int64Max - amountB < state.reserveB ∨
      int64Max - shares < state.totalPoolShares
  · simp [depositDoApply, found, authorized, computed, full]
  have positive : ¬ (amountA ≤ 0 ∨ amountB ≤ 0 ∨ shares ≤ 0) := by
    have := settled.amountA_pos; have := settled.amountB_pos; have := settled.shares_pos
    omega
  have paysA : ¬ holdingA.available < amountA := not_lt.mpr settled.amountA_le
  have paysB : ¬ holdingB.available < amountB := not_lt.mpr settled.amountB_le
  -- `POOL_FULL` was not reported, so every counter has room for its credit.
  have creditedA : addPoolBalance state.reserveA amountA "insufficient liquidity pool limit" =
      .ok (state.reserveA + amountA) :=
    addPoolBalance_of_fits inv.reserveA_nonneg (by linarith [settled.amountA_pos, inv.reserveA_nonneg])
      (by omega) _
  have creditedB : addPoolBalance state.reserveB amountB "insufficient liquidity pool limit" =
      .ok (state.reserveB + amountB) :=
    addPoolBalance_of_fits inv.reserveB_nonneg (by linarith [settled.amountB_pos, inv.reserveB_nonneg])
      (by omega) _
  have creditedShares : addPoolBalance state.totalPoolShares shares "insufficient liquidity pool limit" =
      .ok (state.totalPoolShares + shares) :=
    addPoolBalance_of_fits inv.totalPoolShares_nonneg
      (by linarith [settled.shares_pos, inv.totalPoolShares_nonneg]) (by omega) _
  have room := settled.shares_le
  unfold PoolShareTrustLine.maxAmountReceive at room
  have creditedLine : tlPool.addBalance shares = .ok (some { tlPool with balance := tlPool.balance + shares }) :=
    PoolShareTrustLine.addBalance_of_fits sound (by linarith [settled.shares_pos, sound.balance_nonneg])
      (by linarith [sound.buying])
  simp [depositDoApply, found, authorized, computed, full, positive, paysA, paysB, creditedA, creditedB,
    creditedLine, creditedShares, PoolState.transfer]

/-- A deposit into a pool that keeps the invariant never throws, and a success credits
settled terms that leave every counter within `int64`. -/
theorem applyDeposit_cases {state : PoolState AccountID} (inv : PoolInvariant state) (source : AccountID)
    (op : LiquidityPoolDepositOp) (holdingA holdingB : AssetHolding) :
    ∃ result, applyDeposit source op holdingA holdingB state = .ok result ∧
      ∀ next, result = .success next → ∃ tlPool amountA amountB shares,
        state.shareLine source = some tlPool ∧
        DepositSettled state holdingA.available holdingB.available tlPool.maxAmountReceive
          amountA amountB shares ∧
        state.reserveA + amountA ≤ int64Max ∧ state.reserveB + amountB ≤ int64Max ∧
        state.totalPoolShares + shares ≤ int64Max ∧
        next = state.transfer source tlPool amountA amountB shares := by
  unfold applyDeposit
  by_cases valid : depositCheckValid op
  swap
  · exact ⟨.failed .malformed, by simp [valid], by simp⟩
  simp only [valid, ↓reduceIte]
  cases found : state.shareLine source with
  | none => exact ⟨.failed .noTrust, by simp [depositDoApply, found], by simp⟩
  | some tlPool =>
      by_cases authorized : holdingA.authorized = true ∧ holdingB.authorized = true
      swap
      · have refused : ¬ holdingA.authorized = true ∨ ¬ holdingB.authorized = true := by tauto
        refine ⟨.failed .notAuthorized, ?_, by simp⟩
        simp only [depositDoApply, found]
        rw [if_pos refused]
      obtain ⟨terms, computed, settles⟩ := depositAmounts_settles inv valid holdingA holdingB tlPool
      cases terms with
      | error code =>
          exact ⟨.failed code, by simp [depositDoApply, found, authorized, computed], by simp⟩
      | ok amounts =>
          obtain ⟨amountA, amountB, shares⟩ := amounts
          have settled := settles amountA amountB shares rfl
          refine ⟨_, depositDoApply_of_settled inv found authorized computed settled, ?_⟩
          intro next succeeded
          split_ifs at succeeded with full
          cases succeeded
          exact ⟨tlPool, amountA, amountB, shares, rfl, settled, by omega, by omega, by omega, rfl⟩

theorem applyDeposit_success {state next : PoolState AccountID} (inv : PoolInvariant state)
    {source : AccountID} {op : LiquidityPoolDepositOp} {holdingA holdingB : AssetHolding}
    (deposited : applyDeposit source op holdingA holdingB state = .ok (.success next)) :
    ∃ tlPool amountA amountB shares, state.shareLine source = some tlPool ∧
      DepositSettled state holdingA.available holdingB.available tlPool.maxAmountReceive amountA amountB shares ∧
      state.reserveA + amountA ≤ int64Max ∧ state.reserveB + amountB ≤ int64Max ∧
      state.totalPoolShares + shares ≤ int64Max ∧ next = state.transfer source tlPool amountA amountB shares := by
  obtain ⟨result, applied, succeeded⟩ := applyDeposit_cases inv source op holdingA holdingB
  rw [deposited] at applied
  cases applied
  exact succeeded next rfl

/-! ## Withdrawals -/

/-- `getPoolWithdrawalAmount` pays the proportional share of the reserve rounded down, at
most the whole reserve. -/
theorem getPoolWithdrawalAmount_spec {amount total reserve : Int} (positive : 0 < amount)
    (within : amount ≤ total) (nonneg : 0 ≤ reserve) (fits : reserve ≤ int64Max) :
    ∃ paid, getPoolWithdrawalAmount amount total reserve = .ok paid ∧ 0 ≤ paid ∧ paid ≤ reserve ∧
      paid * total ≤ amount * reserve ∧ amount * reserve < (paid + 1) * total := by
  have positiveTotal : 0 < total := by omega
  obtain ⟨paid, divided, nonnegPaid, floor, exact⟩ :=
    bigDivide_roundDown_bracket positive.le nonneg positiveTotal
  have atMost : paid ≤ reserve := ConstantProduct.le_of_floor_of_le positiveTotal nonneg within floor
  refine ⟨paid, ?_, nonnegPaid, atMost, floor, exact⟩
  simp [getPoolWithdrawalAmount, bigDivideOrThrow, not_lt.mpr within, divided, atMost.trans fits]

/-- What a withdrawal of `amount` shares pays out of each reserve. -/
structure WithdrawSettled (state : PoolState AccountID) (amount amountA amountB : Int) : Prop where
  amount_pos : 0 < amount
  amount_le : amount ≤ state.totalPoolShares
  amountA_nonneg : 0 ≤ amountA
  amountB_nonneg : 0 ≤ amountB
  amountA_le : amountA ≤ state.reserveA
  amountB_le : amountB ≤ state.reserveB
  floorA : amountA * state.totalPoolShares ≤ amount * state.reserveA
  floorB : amountB * state.totalPoolShares ≤ amount * state.reserveB
  exactA : amount * state.reserveA < (amountA + 1) * state.totalPoolShares
  exactB : amount * state.reserveB < (amountB + 1) * state.totalPoolShares

/-- A withdrawal from a pool that keeps the invariant never throws; a success burns the
shares from the source's line and pays the rounded-down amounts out of the reserves. -/
theorem applyWithdraw_cases {state : PoolState AccountID} (inv : PoolInvariant state) (source : AccountID)
    (op : LiquidityPoolWithdrawOp) (holdingA holdingB : AssetHolding) :
    ∃ result, applyWithdraw source op holdingA holdingB state = .ok result ∧
      ∀ next, result = .success next → ∃ tlPool amountA amountB,
        state.shareLine source = some tlPool ∧ op.amount ≤ tlPool.balance ∧
        WithdrawSettled state op.amount amountA amountB ∧
        next = state.transfer source tlPool (-amountA) (-amountB) (-op.amount) := by
  unfold applyWithdraw
  by_cases valid : withdrawCheckValid op
  swap
  · exact ⟨.failed .malformed, by simp [valid], by simp⟩
  have positive : 0 < op.amount := by
    simp only [withdrawCheckValid, Bool.decide_and, Bool.and_eq_true, decide_eq_true_eq] at valid
    omega
  simp only [valid, ↓reduceIte]
  cases found : state.shareLine source with
  | none => exact ⟨.failed .noTrust, by simp [withdrawDoApply, found], by simp⟩
  | some tlPool =>
      have sound := inv.shareLine_sound found
      by_cases short : tlPool.availableBalance < op.amount
      · exact ⟨.failed .underfunded, by simp [withdrawDoApply, found, short], by simp⟩
      -- Pool shares carry no liabilities, so the available balance is the whole balance.
      have held : op.amount ≤ tlPool.balance := by
        unfold PoolShareTrustLine.availableBalance at short
        have := sound.selling
        omega
      have within : op.amount ≤ state.totalPoolShares := held.trans (inv.balance_le_total found)
      obtain ⟨amountA, paidA, nonnegA, atMostA, floorA, exactA⟩ :=
        getPoolWithdrawalAmount_spec positive within inv.reserveA_nonneg inv.reserveA_le
      cases addedA : tryAddAssetBalance holdingA op.minAmountA amountA with
      | some code => exact ⟨.failed code, by simp [withdrawDoApply, found, short, paidA, addedA], by simp⟩
      | none =>
          obtain ⟨amountB, paidB, nonnegB, atMostB, floorB, exactB⟩ :=
            getPoolWithdrawalAmount_spec positive within inv.reserveB_nonneg inv.reserveB_le
          cases addedB : tryAddAssetBalance holdingB op.minAmountB amountB with
          | some code =>
              exact ⟨.failed code, by simp [withdrawDoApply, found, short, paidA, addedA, paidB, addedB], by simp⟩
          | none =>
              have debited : tlPool.addBalance (-op.amount) =
                  .ok (some { tlPool with balance := tlPool.balance + -op.amount }) :=
                PoolShareTrustLine.addBalance_of_fits sound (by omega) (by linarith [sound.balance_le_limit])
              have burned : addPoolBalance state.totalPoolShares (-op.amount) "insufficient totalPoolShares" =
                  .ok (state.totalPoolShares + -op.amount) :=
                addPoolBalance_of_fits inv.totalPoolShares_nonneg (by omega)
                  (by linarith [inv.totalPoolShares_le]) _
              have paidOutA : addPoolBalance state.reserveA (-amountA) "insufficient reserveA" =
                  .ok (state.reserveA + -amountA) :=
                addPoolBalance_of_fits inv.reserveA_nonneg (by omega) (by linarith [inv.reserveA_le]) _
              have paidOutB : addPoolBalance state.reserveB (-amountB) "insufficient reserveB" =
                  .ok (state.reserveB + -amountB) :=
                addPoolBalance_of_fits inv.reserveB_nonneg (by omega) (by linarith [inv.reserveB_le]) _
              refine ⟨.success (state.transfer source tlPool (-amountA) (-amountB) (-op.amount)), ?_, ?_⟩
              · simp [withdrawDoApply, found, short, paidA, addedA, paidB, addedB, debited, burned, paidOutA,
                  paidOutB, PoolState.transfer]
              · intro next succeeded
                cases succeeded
                exact ⟨tlPool, amountA, amountB, rfl, held,
                  ⟨positive, within, nonnegA, nonnegB, atMostA, atMostB, floorA, floorB, exactA, exactB⟩, rfl⟩

theorem applyWithdraw_success {state next : PoolState AccountID} (inv : PoolInvariant state)
    {source : AccountID} {op : LiquidityPoolWithdrawOp} {holdingA holdingB : AssetHolding}
    (withdrawn : applyWithdraw source op holdingA holdingB state = .ok (.success next)) :
    ∃ tlPool amountA amountB, state.shareLine source = some tlPool ∧ op.amount ≤ tlPool.balance ∧
      WithdrawSettled state op.amount amountA amountB ∧
      next = state.transfer source tlPool (-amountA) (-amountB) (-op.amount) := by
  obtain ⟨result, applied, succeeded⟩ := applyWithdraw_cases inv source op holdingA holdingB
  rw [withdrawn] at applied
  cases applied
  exact succeeded next rfl

/-! ## Exchanges -/

/-- What an exchange that returns amounts does to the two reserves it trades between. -/
structure ExchangeSettled (reservesToPool reservesFromPool toPool fromPool : Int) : Prop where
  toPool_nonneg : 0 ≤ toPool
  fromPool_nonneg : 0 ≤ fromPool
  fromPool_lt : fromPool < reservesFromPool
  product : reservesToPool * reservesFromPool ≤ (reservesToPool + toPool) * (reservesFromPool - fromPool)

/-- A strict-send exchange puts the whole amount in and takes out the fee-adjusted
constant-product amount rounded down. -/
theorem exchangeWithPoolAmounts_send {reservesToPool maxSendToPool reservesFromPool maxReceiveFromPool : Int}
    {toPool fromPool : Int} (positiveTo : 0 < reservesToPool) (positiveFrom : 0 < reservesFromPool)
    (exchanged : exchangeWithPoolAmounts reservesToPool maxSendToPool reservesFromPool maxReceiveFromPool
      liquidityPoolFeeV18 .pathPaymentStrictSend = .ok (some (toPool, fromPool))) :
    ExchangeSettled reservesToPool reservesFromPool toPool fromPool := by
  simp only [exchangeWithPoolAmounts, liquidityPoolFeeV18] at exchanged
  norm_num [not_le.mpr positiveTo, not_le.mpr positiveFrom] at exchanged
  split_ifs at exchanged with unbounded overflow
  · cases exchanged
  obtain ⟨scaledReserve, reserveScaled, exchanged⟩ := Except.bind_eq_ok_iff.1 exchanged
  obtain ⟨scaledSend, sendScaled, exchanged⟩ := Except.bind_eq_ok_iff.1 exchanged
  obtain ⟨product, multiplied, exchanged⟩ := Except.bind_eq_ok_iff.1 exchanged
  obtain ⟨quotient, divided, exchanged⟩ := Except.bind_eq_ok_iff.1 exchanged
  obtain ⟨-, -, reserveScaled⟩ := bigMultiply_eq_ok reserveScaled
  obtain ⟨-, nonnegSend, sendScaled⟩ := bigMultiply_eq_ok sendScaled
  obtain ⟨-, -, multiplied⟩ := bigMultiply_eq_ok multiplied
  cases quotient with
  | none => cases exchanged
  | some received =>
      simp only at exchanged
      split_ifs at exchanged with tooMuch negative zero
      · cases exchanged
      simp only [Except.ok.injEq, Option.some.injEq, Prod.mk.injEq] at exchanged
      obtain ⟨rfl, rfl⟩ := exchanged
      -- The divisor `10000 * reservesToPool + 9970 * toPool` is within `hugeDivide`'s range.
      have positiveDivisor : 0 < scaledReserve + scaledSend := by omega
      have admitted : scaledReserve + scaledSend ≤ int32Max * int64Max.toNat := by
        rw [int32Max_mul_int64Max]
        unfold int64Max at overflow
        omega
      obtain ⟨-, rounded, -⟩ := hugeDivide_bracket (by norm_num) positiveDivisor admitted .roundDown divided
      have rounded := rounded rfl
      push_cast [reserveScaled, sendScaled, multiplied] at rounded
      obtain ⟨product, short⟩ := ConstantProduct.product_le_of_send (by norm_num) (by norm_num) positiveTo
        positiveFrom nonnegSend (by omega) rounded
      exact ⟨nonnegSend, by omega, short, product⟩

/-- A strict-receive exchange takes exactly the requested amount out and puts in the
fee-adjusted constant-product amount rounded up. -/
theorem exchangeWithPoolAmounts_receive {reservesToPool maxSendToPool reservesFromPool maxReceiveFromPool : Int}
    {toPool fromPool : Int} (positiveTo : 0 < reservesToPool) (positiveFrom : 0 < reservesFromPool)
    (fitsFrom : reservesFromPool ≤ int64Max)
    (exchanged : exchangeWithPoolAmounts reservesToPool maxSendToPool reservesFromPool maxReceiveFromPool
      liquidityPoolFeeV18 .pathPaymentStrictReceive = .ok (some (toPool, fromPool))) :
    ExchangeSettled reservesToPool reservesFromPool toPool fromPool := by
  simp only [exchangeWithPoolAmounts, liquidityPoolFeeV18] at exchanged
  norm_num [not_le.mpr positiveTo, not_le.mpr positiveFrom] at exchanged
  split_ifs at exchanged with unbounded emptying
  · cases exchanged
  obtain ⟨product, multiplied, exchanged⟩ := Except.bind_eq_ok_iff.1 exchanged
  obtain ⟨remaining, remainingScaled, exchanged⟩ := Except.bind_eq_ok_iff.1 exchanged
  obtain ⟨quotient, divided, exchanged⟩ := Except.bind_eq_ok_iff.1 exchanged
  obtain ⟨-, nonnegReceive, multiplied⟩ := bigMultiply_eq_ok multiplied
  obtain ⟨-, -, remainingScaled⟩ := bigMultiply_eq_ok remainingScaled
  cases quotient with
  | none => cases exchanged
  | some paid =>
      simp only at exchanged
      split_ifs at exchanged with negative fits
      · simp only [Except.ok.injEq, Option.some.injEq, Prod.mk.injEq] at exchanged
        obtain ⟨rfl, rfl⟩ := exchanged
        -- The divisor `(reservesFromPool - fromPool) * 9970` is within `hugeDivide`'s range.
        have positiveDivisor : 0 < remaining := by nlinarith
        have admitted : remaining ≤ int32Max * int64Max.toNat := by
          rw [int32Max_mul_int64Max]
          unfold int64Max at fitsFrom
          omega
        obtain ⟨-, -, rounded⟩ := hugeDivide_bracket (by norm_num) positiveDivisor admitted .roundUp divided
        have rounded := rounded rfl
        push_cast [multiplied, remainingScaled] at rounded
        exact ⟨by omega, nonnegReceive, by omega,
          ConstantProduct.product_le_of_receive (by norm_num) (by norm_num) positiveTo nonnegReceive rounded⟩
      · cases exchanged

theorem exchangeWithPoolAmounts_settles {reservesToPool maxSendToPool reservesFromPool maxReceiveFromPool : Int}
    {round : RoundingType} {toPool fromPool : Int} (positiveTo : 0 < reservesToPool)
    (positiveFrom : 0 < reservesFromPool) (fitsFrom : reservesFromPool ≤ int64Max)
    (exchanged : exchangeWithPoolAmounts reservesToPool maxSendToPool reservesFromPool maxReceiveFromPool
      liquidityPoolFeeV18 round = .ok (some (toPool, fromPool))) :
    ExchangeSettled reservesToPool reservesFromPool toPool fromPool := by
  cases round with
  | normal => simp [exchangeWithPoolAmounts, liquidityPoolFeeV18, not_le.mpr positiveTo,
      not_le.mpr positiveFrom] at exchanged
  | pathPaymentStrictSend => exact exchangeWithPoolAmounts_send positiveTo positiveFrom exchanged
  | pathPaymentStrictReceive => exact exchangeWithPoolAmounts_receive positiveTo positiveFrom fitsFrom exchanged

/-- What a successful exchange does to the pool: it trades only against positive reserves,
moves only the reserves, keeps both positive and within `int64`, and never lowers their
product. -/
structure ExchangeStep (state next : PoolState AccountID) : Prop where
  traded : 0 < state.reserveA ∧ 0 < state.reserveB
  totalPoolShares : next.totalPoolShares = state.totalPoolShares
  shareLines : next.shareLines = state.shareLines
  reserveA_pos : 0 < next.reserveA
  reserveB_pos : 0 < next.reserveB
  reserveA_le : next.reserveA ≤ int64Max
  reserveB_le : next.reserveB ≤ int64Max
  product : state.reserveA * state.reserveB ≤ next.reserveA * next.reserveB

omit [DecidableEq AccountID] in
theorem exchangeWithPool_step {state next : PoolState AccountID} (inv : PoolInvariant state)
    {ledgerVersion : Nat} {poolTradingDisabled : Bool} {toPoolAsset : PoolSide}
    {maxSendToPool maxReceiveFromPool : Int} {round : RoundingType} {maxOffersToCross : Int}
    (exchanged : exchangeWithPool ledgerVersion poolTradingDisabled toPoolAsset maxSendToPool
      maxReceiveFromPool round maxOffersToCross state = .ok (some next)) :
    ExchangeStep state next := by
  unfold exchangeWithPool at exchanged
  split_ifs at exchanged with skipped empty
  · cases exchanged
  · cases exchanged
  have positiveA : 0 < state.reserveA := by omega
  have positiveB : 0 < state.reserveB := by omega
  cases toPoolAsset with
  | assetA =>
      obtain ⟨amounts, computed, exchanged⟩ := Except.bind_eq_ok_iff.1 exchanged
      obtain _ | ⟨toPool, fromPool⟩ := amounts
      · cases exchanged
      obtain ⟨reserveA, creditedA, exchanged⟩ := Except.bind_eq_ok_iff.1 exchanged
      obtain ⟨reserveB, debitedB, exchanged⟩ := Except.bind_eq_ok_iff.1 exchanged
      cases exchanged
      have settled := exchangeWithPoolAmounts_settles positiveA positiveB inv.reserveB_le computed
      obtain ⟨rfl, -, fitsA⟩ := addPoolBalance_eq_ok inv.reserveA_nonneg inv.reserveA_le creditedA
      obtain ⟨rfl, -, fitsB⟩ := addPoolBalance_eq_ok inv.reserveB_nonneg inv.reserveB_le debitedB
      refine ⟨⟨positiveA, positiveB⟩, rfl, rfl, by linarith [settled.toPool_nonneg], by linarith [settled.fromPool_lt], fitsA,
        fitsB, ?_⟩
      linarith [settled.product]
  | assetB =>
      obtain ⟨amounts, computed, exchanged⟩ := Except.bind_eq_ok_iff.1 exchanged
      obtain _ | ⟨toPool, fromPool⟩ := amounts
      · cases exchanged
      obtain ⟨reserveA, debitedA, exchanged⟩ := Except.bind_eq_ok_iff.1 exchanged
      obtain ⟨reserveB, creditedB, exchanged⟩ := Except.bind_eq_ok_iff.1 exchanged
      cases exchanged
      have settled := exchangeWithPoolAmounts_settles positiveB positiveA inv.reserveA_le computed
      obtain ⟨rfl, -, fitsA⟩ := addPoolBalance_eq_ok inv.reserveA_nonneg inv.reserveA_le debitedA
      obtain ⟨rfl, -, fitsB⟩ := addPoolBalance_eq_ok inv.reserveB_nonneg inv.reserveB_le creditedB
      refine ⟨⟨positiveA, positiveB⟩, rfl, rfl, by linarith [settled.fromPool_lt], by linarith [settled.toPool_nonneg], fitsA,
        fitsB, ?_⟩
      linarith [settled.product]

end StellarCore.Transactions
