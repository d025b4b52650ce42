import StellarCore.Transactions.LiquidityPool
import StellarCore.Lib.Except

/-!
# Strict exchanges with a pool, for any fee

`exchangeWithPool` in its two path-payment modes computes one floor or ceiling quotient
through `hugeDivide`. Here that quotient is given in closed form over the integers, and the
fee-adjusted constant product `poolKeeps` is shown to hold exactly up to it: the amount a
strict send receives is the greatest amount the product allows, and the amount a strict
receive pays is the least. Both modes return without an error for every reserve and limit
of `int64` range and every fee below `10000` basis points.
-/

set_option autoImplicit false

namespace StellarCore.Transactions

/-- The fee-adjusted constant product does not decrease when `toPool` goes into the pool and
`fromPool` comes out. -/
def poolKeeps (reservesToPool reservesFromPool feeBps toPool fromPool : Int) : Prop :=
  10000 * reservesToPool * reservesFromPool ≤
    (10000 * reservesToPool + (10000 - feeBps) * toPool) * (reservesFromPool - fromPool)

instance (reservesToPool reservesFromPool feeBps toPool fromPool : Int) :
    Decidable (poolKeeps reservesToPool reservesFromPool feeBps toPool fromPool) :=
  inferInstanceAs (Decidable (_ ≤ _))

/-- What a strict send receives: the fee-adjusted quotient rounded down. -/
def sendReceived (reservesToPool reservesFromPool feeBps toPool : Int) : Int :=
  (10000 - feeBps) * (reservesFromPool * toPool) /
    (10000 * reservesToPool + (10000 - feeBps) * toPool)

/-- What a strict receive pays: the fee-adjusted quotient rounded up. -/
def receivePaid (reservesToPool reservesFromPool feeBps fromPool : Int) : Int :=
  let divisor := (reservesFromPool - fromPool) * (10000 - feeBps)
  (10000 * (reservesToPool * fromPool) + divisor - 1) / divisor

/-- What an exchange that returns amounts promises: both amounts in range, the reserve not
emptied nor pushed past `int64`, and the fee-adjusted product kept. -/
structure PoolTraded (reservesToPool reservesFromPool feeBps toPool fromPool : Int) : Prop where
  toPool_nonneg : 0 ≤ toPool
  toPool_le : toPool ≤ int64Max - reservesToPool
  fromPool_nonneg : 0 ≤ fromPool
  fromPool_lt : fromPool < reservesFromPool
  keeps : poolKeeps reservesToPool reservesFromPool feeBps toPool fromPool

section Reserves

variable {reservesToPool reservesFromPool feeBps : Int}

/-- The ranges both modes assume: positive `int64` reserves and a fee below the whole. -/
structure PoolRanges (reservesToPool reservesFromPool feeBps : Int) : Prop where
  to_pos : 0 < reservesToPool
  to_le : reservesToPool ≤ int64Max
  from_pos : 0 < reservesFromPool
  from_le : reservesFromPool ≤ int64Max
  fee_nonneg : 0 ≤ feeBps
  fee_lt : feeBps < 10000

theorem PoolRanges.sendDivisor_pos (ranges : PoolRanges reservesToPool reservesFromPool feeBps)
    {toPool : Int} (nonneg : 0 ≤ toPool) : 0 < 10000 * reservesToPool + (10000 - feeBps) * toPool := by
  have paid : 0 ≤ (10000 - feeBps) * toPool := mul_nonneg (by linarith [ranges.fee_lt]) nonneg
  linarith [ranges.to_pos]

theorem PoolRanges.receiveDivisor_pos (ranges : PoolRanges reservesToPool reservesFromPool feeBps)
    {fromPool : Int} (short : fromPool < reservesFromPool) :
    0 < (reservesFromPool - fromPool) * (10000 - feeBps) :=
  mul_pos (by omega) (by linarith [ranges.fee_lt])

/-- The product holds exactly up to the rounded-down quotient: a strict send's amount is the
greatest the pool can pay. -/
theorem poolKeeps_iff_le_sendReceived (ranges : PoolRanges reservesToPool reservesFromPool feeBps)
    {toPool : Int} (nonneg : 0 ≤ toPool) (fromPool : Int) :
    poolKeeps reservesToPool reservesFromPool feeBps toPool fromPool ↔
      fromPool ≤ sendReceived reservesToPool reservesFromPool feeBps toPool := by
  have positive := ranges.sendDivisor_pos nonneg
  unfold poolKeeps sendReceived
  rw [Int.le_ediv_iff_mul_le positive]
  constructor <;> intro kept <;> nlinarith [kept]

theorem sendReceived_nonneg (ranges : PoolRanges reservesToPool reservesFromPool feeBps)
    {toPool : Int} (nonneg : 0 ≤ toPool) :
    0 ≤ sendReceived reservesToPool reservesFromPool feeBps toPool := by
  unfold sendReceived
  apply Int.ediv_nonneg _ (ranges.sendDivisor_pos nonneg).le
  exact mul_nonneg (by linarith [ranges.fee_lt]) (mul_nonneg ranges.from_pos.le nonneg)

/-- A strict send never takes the whole reserve. -/
theorem sendReceived_lt (ranges : PoolRanges reservesToPool reservesFromPool feeBps)
    {toPool : Int} (nonneg : 0 ≤ toPool) :
    sendReceived reservesToPool reservesFromPool feeBps toPool < reservesFromPool := by
  have positive := ranges.sendDivisor_pos nonneg
  unfold sendReceived
  rw [Int.ediv_lt_iff_lt_mul positive]
  have := ranges.to_pos
  have := ranges.from_pos
  nlinarith

/-- The product holds exactly from the rounded-up quotient on: a strict receive pays the
least the pool accepts. -/
theorem receivePaid_le_iff_poolKeeps (ranges : PoolRanges reservesToPool reservesFromPool feeBps)
    {fromPool : Int} (short : fromPool < reservesFromPool) (toPool : Int) :
    receivePaid reservesToPool reservesFromPool feeBps fromPool ≤ toPool ↔
      poolKeeps reservesToPool reservesFromPool feeBps toPool fromPool := by
  have positive := ranges.receiveDivisor_pos short
  unfold receivePaid poolKeeps
  dsimp only
  rw [← Int.lt_add_one_iff, Int.ediv_lt_iff_lt_mul positive]
  constructor <;> intro kept <;> nlinarith [kept]

theorem receivePaid_nonneg (ranges : PoolRanges reservesToPool reservesFromPool feeBps)
    {fromPool : Int} (nonneg : 0 ≤ fromPool) (short : fromPool < reservesFromPool) :
    0 ≤ receivePaid reservesToPool reservesFromPool feeBps fromPool := by
  have positive := ranges.receiveDivisor_pos short
  have := ranges.to_pos
  unfold receivePaid
  dsimp only
  apply Int.ediv_nonneg _ positive.le
  have : 0 ≤ reservesToPool * fromPool := by positivity
  omega

/-- The division of a strict send always fits: its quotient is below the reserve. -/
theorem hugeDivide_strictSend (ranges : PoolRanges reservesToPool reservesFromPool feeBps)
    {toPool : Int} (nonneg : 0 ≤ toPool) (fits : toPool ≤ int64Max) :
    hugeDivide (10000 - feeBps) (reservesFromPool.toNat * toPool.toNat)
        (Int.toNat 10000 * reservesToPool.toNat + (10000 - feeBps).toNat * toPool.toNat) .roundDown =
      .ok (some (sendReceived reservesToPool reservesFromPool feeBps toPool)) := by
  have paid : 0 ≤ 10000 - feeBps := by linarith [ranges.fee_lt]
  set divisor := Int.toNat 10000 * reservesToPool.toNat + (10000 - feeBps).toNat * toPool.toNat
  have castDivisor : (divisor : Int) = 10000 * reservesToPool + (10000 - feeBps) * toPool := by
    simp only [divisor]
    push_cast [Int.toNat_of_nonneg ranges.to_pos.le, Int.toNat_of_nonneg paid, Int.toNat_of_nonneg nonneg]
    rfl
  have positive : 0 < divisor := by
    have := ranges.sendDivisor_pos nonneg
    omega
  have admitted : divisor ≤ int32Max * int64Max.toNat := by
    have bounded : (divisor : Int) ≤ 20000 * int64Max := by
      rw [castDivisor]
      nlinarith [ranges.to_le, ranges.fee_nonneg]
    rw [int32Max_mul_int64Max]
    unfold int64Max at bounded
    omega
  rw [hugeDivide_of_admitted paid positive admitted]
  have quotient : ((roundedQuotient ((10000 - feeBps).toNat * (reservesFromPool.toNat * toPool.toNat))
      divisor .roundDown : Nat) : Int) = sendReceived reservesToPool reservesFromPool feeBps toPool := by
    rw [roundedQuotient_roundDown, Int.natCast_ediv, castDivisor]
    push_cast [Int.toNat_of_nonneg ranges.from_pos.le, Int.toNat_of_nonneg paid, Int.toNat_of_nonneg nonneg]
    rfl
  have whole : reservesFromPool.toNat * toPool.toNat / divisor ≤ int64Max.toNat := by
    apply Nat.div_le_of_le_mul
    have positiveMax : (0 : Int) ≤ int64Max := by unfold int64Max; norm_num
    have bounded : ((reservesFromPool.toNat * toPool.toNat : Nat) : Int) ≤
        ((divisor * int64Max.toNat : Nat) : Int) := by
      push_cast [Int.toNat_of_nonneg ranges.from_pos.le, Int.toNat_of_nonneg nonneg,
        Int.toNat_of_nonneg positiveMax]
      rw [castDivisor]
      have within : toPool ≤ 10000 * reservesToPool + (10000 - feeBps) * toPool := by
        nlinarith [ranges.to_pos, ranges.fee_lt]
      calc reservesFromPool * toPool ≤ int64Max * toPool := mul_le_mul_of_nonneg_right ranges.from_le nonneg
        _ ≤ int64Max * (10000 * reservesToPool + (10000 - feeBps) * toPool) :=
          mul_le_mul_of_nonneg_left within positiveMax
        _ = _ := mul_comm _ _
    exact_mod_cast bounded
  have received : roundedQuotient ((10000 - feeBps).toNat * (reservesFromPool.toNat * toPool.toNat))
      divisor .roundDown ≤ int64Max.toNat := by
    have := sendReceived_lt ranges nonneg
    have := ranges.from_le
    omega
  rw [if_pos ⟨whole, received⟩, quotient]

/-- The division of a strict receive returns the rounded-up quotient when it fits an `int64`. -/
theorem hugeDivide_strictReceive (ranges : PoolRanges reservesToPool reservesFromPool feeBps)
    {fromPool : Int} (nonneg : 0 ≤ fromPool) (short : fromPool < reservesFromPool) :
    hugeDivide 10000 (reservesToPool.toNat * fromPool.toNat)
        ((reservesFromPool - fromPool).toNat * (10000 - feeBps).toNat) .roundUp =
      .ok (if receivePaid reservesToPool reservesFromPool feeBps fromPool ≤ int64Max then
        some (receivePaid reservesToPool reservesFromPool feeBps fromPool) else none) := by
  have paid : 0 ≤ 10000 - feeBps := by linarith [ranges.fee_lt]
  set divisor := (reservesFromPool - fromPool).toNat * (10000 - feeBps).toNat
  have castDivisor : (divisor : Int) = (reservesFromPool - fromPool) * (10000 - feeBps) := by
    simp only [divisor]
    push_cast [Int.toNat_of_nonneg (show 0 ≤ reservesFromPool - fromPool by omega), Int.toNat_of_nonneg paid]
    rfl
  have positive : 0 < divisor := by
    have := ranges.receiveDivisor_pos short
    omega
  have admitted : divisor ≤ int32Max * int64Max.toNat := by
    have bounded : (divisor : Int) ≤ int64Max * 10000 := by
      rw [castDivisor]
      apply mul_le_mul (by linarith [ranges.from_le]) (by linarith [ranges.fee_nonneg]) paid
      unfold int64Max
      norm_num
    rw [int32Max_mul_int64Max]
    unfold int64Max at bounded
    omega
  rw [hugeDivide_of_admitted (by norm_num) positive admitted]
  set product := reservesToPool.toNat * fromPool.toNat
  have quotient : ((roundedQuotient ((10000 : Int).toNat * product) divisor .roundUp : Nat) : Int) =
      receivePaid reservesToPool reservesFromPool feeBps fromPool := by
    rw [roundedQuotient_roundUp, Int.natCast_ediv, Nat.cast_sub (by omega)]
    push_cast [product, Int.toNat_of_nonneg ranges.to_pos.le, Int.toNat_of_nonneg nonneg]
    rw [castDivisor]
    rfl
  have whole : product / divisor ≤ roundedQuotient ((10000 : Int).toNat * product) divisor .roundUp := by
    rw [roundedQuotient_roundUp]
    apply Nat.div_le_div_right
    have : product ≤ (10000 : Int).toNat * product := Nat.le_mul_of_pos_left product (by norm_num)
    omega
  have castMax : (int64Max.toNat : Int) = int64Max := Int.toNat_of_nonneg (by unfold int64Max; norm_num)
  by_cases small : receivePaid reservesToPool reservesFromPool feeBps fromPool ≤ int64Max
  · have fits : roundedQuotient ((10000 : Int).toNat * product) divisor .roundUp ≤ int64Max.toNat := by
      omega
    rw [if_pos ⟨whole.trans fits, fits⟩, if_pos small, quotient]
  · have exceeds : ¬ roundedQuotient ((10000 : Int).toNat * product) divisor .roundUp ≤ int64Max.toNat := by
      omega
    rw [if_neg (fun fits => exceeds fits.2), if_neg small]

/-- A strict send within range returns: nothing when the amount would push the reserve past
`int64` or buys nothing, and otherwise the whole amount in and the rounded-down quotient out. -/
theorem exchangeWithPoolAmounts_strictSend (ranges : PoolRanges reservesToPool reservesFromPool feeBps)
    {maxSendToPool : Int} (nonneg : 0 ≤ maxSendToPool) (fits : maxSendToPool ≤ int64Max) :
    exchangeWithPoolAmounts reservesToPool maxSendToPool reservesFromPool int64Max feeBps
        .pathPaymentStrictSend =
      .ok (if maxSendToPool > int64Max - reservesToPool then none
        else if sendReceived reservesToPool reservesFromPool feeBps maxSendToPool ≠ 0 then
          some (maxSendToPool, sendReceived reservesToPool reservesFromPool feeBps maxSendToPool)
        else none) := by
  have feeOk : ¬(feeBps < 0 ∨ 10000 ≤ feeBps) := by
    have := ranges.fee_nonneg
    have := ranges.fee_lt
    omega
  have reservesOk : ¬(reservesToPool ≤ 0 ∨ reservesFromPool ≤ 0) := by
    have := ranges.to_pos
    have := ranges.from_pos
    omega
  unfold exchangeWithPoolAmounts
  simp only [feeOk, reservesOk, ↓reduceIte, ne_eq, not_true_eq_false]
  by_cases overflow : maxSendToPool > int64Max - reservesToPool
  · simp only [overflow, ↓reduceIte]
  simp only [overflow, ↓reduceIte]
  rw [bigMultiply_of_nonneg (by norm_num) ranges.to_pos.le, Except.ok_bind,
    bigMultiply_of_nonneg (by linarith [ranges.fee_lt]) nonneg, Except.ok_bind,
    bigMultiply_of_nonneg ranges.from_pos.le nonneg, Except.ok_bind,
    hugeDivide_strictSend ranges nonneg fits, Except.ok_bind]
  dsimp only
  -- Neither defensive check fires: the quotient is in `[0, reservesFromPool)`.
  rw [if_neg (not_lt.mpr (sendReceived_lt ranges nonneg).le),
    if_neg (not_lt.mpr (sendReceived_nonneg ranges nonneg))]
  rfl

/-- A strict receive within range returns: nothing when it would empty the reserve or pay
more than the other reserve can take, and otherwise the rounded-up quotient in and the whole
amount out. -/
theorem exchangeWithPoolAmounts_strictReceive (ranges : PoolRanges reservesToPool reservesFromPool feeBps)
    {maxReceiveFromPool : Int} (nonneg : 0 ≤ maxReceiveFromPool) :
    exchangeWithPoolAmounts reservesToPool int64Max reservesFromPool maxReceiveFromPool feeBps
        .pathPaymentStrictReceive =
      .ok (if maxReceiveFromPool ≥ reservesFromPool then none
        else if receivePaid reservesToPool reservesFromPool feeBps maxReceiveFromPool ≤
            int64Max - reservesToPool then
          some (receivePaid reservesToPool reservesFromPool feeBps maxReceiveFromPool, maxReceiveFromPool)
        else none) := by
  have feeOk : ¬(feeBps < 0 ∨ 10000 ≤ feeBps) := by
    have := ranges.fee_nonneg
    have := ranges.fee_lt
    omega
  have reservesOk : ¬(reservesToPool ≤ 0 ∨ reservesFromPool ≤ 0) := by
    have := ranges.to_pos
    have := ranges.from_pos
    omega
  unfold exchangeWithPoolAmounts
  simp only [feeOk, reservesOk, ↓reduceIte, ne_eq, not_true_eq_false]
  by_cases depleting : maxReceiveFromPool ≥ reservesFromPool
  · simp only [depleting, ↓reduceIte]
  simp only [depleting, ↓reduceIte]
  have short : maxReceiveFromPool < reservesFromPool := not_le.mp depleting
  rw [bigMultiply_of_nonneg ranges.to_pos.le nonneg, Except.ok_bind,
    bigMultiply_of_nonneg (by omega) (by linarith [ranges.fee_lt]), Except.ok_bind,
    hugeDivide_strictReceive ranges nonneg short, Except.ok_bind]
  by_cases fits : receivePaid reservesToPool reservesFromPool feeBps maxReceiveFromPool ≤ int64Max
  · rw [if_pos fits]
    dsimp only
    rw [if_neg (not_lt.mpr (receivePaid_nonneg ranges nonneg short))]
    rfl
  · -- Past `int64` the payment is also past what the other reserve can take.
    have beyond : ¬ receivePaid reservesToPool reservesFromPool feeBps maxReceiveFromPool ≤
        int64Max - reservesToPool := by
      have := ranges.to_pos
      omega
    rw [if_neg fits, if_neg beyond]
    rfl

/-- The divisor bound `hugeDivide` asserts, as an integer. -/
theorem int32Max_mul_int64Max_int : (int32Max : Int) * int64Max = 19807040619342712359383728129 := by
  unfold int32Max int64Max
  norm_num

/-- Both strict modes of `exchangeWithPool`, for any reserves of `int64` range and any fee
below the whole: they return without an error, the divisor handed to `hugeDivide` is within
its bound, and what they trade keeps the fee-adjusted product. The amounts are tight: a strict
send receives the most the product allows, and a strict receive pays the least. -/
theorem exchangeWithPool_strictModes_tight (ranges : PoolRanges reservesToPool reservesFromPool feeBps) :
    (∀ maxSendToPool, 0 ≤ maxSendToPool → maxSendToPool ≤ int64Max →
      10000 * reservesToPool + (10000 - feeBps) * maxSendToPool ≤ int32Max * int64Max ∧
      ∃ result, exchangeWithPoolAmounts reservesToPool maxSendToPool reservesFromPool int64Max feeBps
          .pathPaymentStrictSend = .ok result ∧
        ∀ toPool fromPool, result = some (toPool, fromPool) →
          PoolTraded reservesToPool reservesFromPool feeBps toPool fromPool ∧
          ∀ more, fromPool < more → ¬ poolKeeps reservesToPool reservesFromPool feeBps toPool more) ∧
    (∀ maxReceiveFromPool, 0 ≤ maxReceiveFromPool → maxReceiveFromPool ≤ int64Max →
      (reservesFromPool - maxReceiveFromPool) * (10000 - feeBps) ≤ int32Max * int64Max ∧
      ∃ result, exchangeWithPoolAmounts reservesToPool int64Max reservesFromPool maxReceiveFromPool feeBps
          .pathPaymentStrictReceive = .ok result ∧
        ∀ toPool fromPool, result = some (toPool, fromPool) →
          PoolTraded reservesToPool reservesFromPool feeBps toPool fromPool ∧
          ∀ less, less < toPool → ¬ poolKeeps reservesToPool reservesFromPool feeBps less fromPool) := by
  have fee := ranges.fee_nonneg
  have feeLt := ranges.fee_lt
  constructor
  · intro maxSendToPool nonneg fits
    refine ⟨?_, _, exchangeWithPoolAmounts_strictSend ranges nonneg fits, ?_⟩
    · rw [int32Max_mul_int64Max_int]
      have := ranges.to_le
      unfold int64Max at this fits
      nlinarith
    intro toPool fromPool returned
    split_ifs at returned with overflow received
    obtain ⟨rfl, rfl⟩ := Prod.mk.inj (Option.some.inj returned)
    have greatest := poolKeeps_iff_le_sendReceived ranges nonneg
    refine ⟨⟨nonneg, by omega, sendReceived_nonneg ranges nonneg, sendReceived_lt ranges nonneg,
      (greatest _).mpr le_rfl⟩, ?_⟩
    intro more larger kept
    have := (greatest more).mp kept
    omega
  · intro maxReceiveFromPool nonneg fits
    refine ⟨?_, _, exchangeWithPoolAmounts_strictReceive ranges nonneg, ?_⟩
    · rw [int32Max_mul_int64Max_int]
      have := ranges.from_le
      unfold int64Max at this
      nlinarith
    intro toPool fromPool returned
    split_ifs at returned with depleting paid
    obtain ⟨rfl, rfl⟩ := Prod.mk.inj (Option.some.inj returned)
    have short : maxReceiveFromPool < reservesFromPool := not_le.mp depleting
    have least := receivePaid_le_iff_poolKeeps ranges short
    refine ⟨⟨receivePaid_nonneg ranges nonneg short, paid, nonneg, short, (least _).mp le_rfl⟩, ?_⟩
    intro less smaller kept
    have := (least less).mpr kept
    omega

/-- At a fee of thirty basis points and reserves of a thousand on each side, a strict send
of a hundred returns without an error. -/
theorem exchangeWithPool_strictModes_thirtyBps :
    PoolRanges 1000 1000 30 ∧
      ∃ result, exchangeWithPoolAmounts 1000 100 1000 int64Max 30 .pathPaymentStrictSend = .ok result := by
  have ranges : PoolRanges 1000 1000 30 :=
    ⟨by norm_num, by unfold int64Max; norm_num, by norm_num, by unfold int64Max; norm_num,
      by norm_num, by norm_num⟩
  obtain ⟨-, result, returned, -⟩ :=
    (exchangeWithPool_strictModes_tight ranges).1 100 (by norm_num) (by unfold int64Max; norm_num)
  exact ⟨ranges, result, returned⟩

end Reserves

end StellarCore.Transactions
