import StellarCore.Transactions.OfferExchange
import StellarCore.Lib.Except

/-!
# What crossing two offers computes

`exchangeAmounts` is `exchangeV10WithoutPriceErrorThresholds` over the integers: the same
branches, with every quotient rounded exactly. On positive `int32` prices and `int64` limits
the model returns exactly those amounts: no 128-bit division overflows and neither bounds
check fires. The amounts stay within both offers' limits and are rounded in favour of the
offer that stays in the book, so `applyPriceErrorThresholds` never finds the wrong side
favoured. On top of that come the rounding laws of the path-payment modes and the
idempotence of `adjustOffer`.
-/

set_option autoImplicit false

namespace StellarCore.Transactions

open RoundedDivision

/-- What `exchangeV10` assumes of a price: both parts positive `int32` values. -/
structure PriceInRange (price : Price) : Prop where
  n_pos : 0 < price.n
  n_le : price.n ≤ int32Max
  d_pos : 0 < price.d
  d_le : price.d ≤ int32Max

/-- A limit of an offer: a non-negative `int64`. -/
def AmountInRange (x : Int) : Prop := 0 ≤ x ∧ x ≤ int64Max

/-- `calculateOfferValue` over the integers. -/
def offerValue (priceN priceD maxSend maxReceive : Int) : Int :=
  min (maxSend * priceN) (maxReceive * priceD)

/-- `exchangeV10WithoutPriceErrorThresholds` over the integers. -/
def exchangeAmounts (price : Price) (maxWheatSend maxWheatReceive maxSheepSend maxSheepReceive : Int)
    (round : RoundingType) : ExchangeResultV10 :=
  let wheatValue := offerValue price.n price.d maxWheatSend maxSheepReceive
  let sheepValue := offerValue price.d price.n maxSheepSend maxWheatReceive
  if sheepValue < wheatValue then
    if round = .pathPaymentStrictSend then
      ⟨sheepValue / price.n, min maxSheepSend maxSheepReceive, true⟩
    else if price.n > price.d ∨ round = .pathPaymentStrictReceive then
      ⟨sheepValue / price.n, ceilDiv (sheepValue / price.n * price.n) price.d, true⟩
    else ⟨sheepValue / price.d * price.d / price.n, sheepValue / price.d, true⟩
  else if price.n > price.d then
    ⟨wheatValue / price.n, wheatValue / price.n * price.n / price.d, false⟩
  else ⟨ceilDiv (wheatValue / price.d * price.d) price.n, wheatValue / price.d, false⟩

/-- What the amounts of a crossing promise: within both offers' limits, and rounded in favour
of the offer that stays in the book. -/
structure ExchangeBounded (price : Price) (maxWheatSend maxWheatReceive maxSheepSend maxSheepReceive : Int)
    (result : ExchangeResultV10) : Prop where
  wheat_nonneg : 0 ≤ result.numWheatReceived
  wheat_le_receive : result.numWheatReceived ≤ maxWheatReceive
  wheat_le_send : result.numWheatReceived ≤ maxWheatSend
  sheep_nonneg : 0 ≤ result.numSheepSend
  sheep_le_receive : result.numSheepSend ≤ maxSheepReceive
  sheep_le_send : result.numSheepSend ≤ maxSheepSend
  wheat_favoured : result.wheatStays = true →
    result.numWheatReceived * price.n ≤ result.numSheepSend * price.d
  sheep_favoured : result.wheatStays = false →
    result.numSheepSend * price.d ≤ result.numWheatReceived * price.n

section Branches

variable {price : Price} {maxWheatSend maxWheatReceive maxSheepSend maxSheepReceive : Int}

/-- What the two offer values bound, with the limits they were taken from. -/
structure OfferValues (price : Price) (maxWheatSend maxWheatReceive maxSheepSend maxSheepReceive : Int)
    (wheatValue sheepValue : Int) : Prop where
  wheat_nonneg : 0 ≤ wheatValue
  wheat_le_send : wheatValue ≤ maxWheatSend * price.n
  wheat_le_receive : wheatValue ≤ maxSheepReceive * price.d
  sheep_nonneg : 0 ≤ sheepValue
  sheep_le_send : sheepValue ≤ maxSheepSend * price.d
  sheep_le_receive : sheepValue ≤ maxWheatReceive * price.n

theorem offerValues_of_nonneg (prices : PriceInRange price) (nonnegWheatSend : 0 ≤ maxWheatSend)
    (nonnegWheatReceive : 0 ≤ maxWheatReceive) (nonnegSheepSend : 0 ≤ maxSheepSend)
    (nonnegSheepReceive : 0 ≤ maxSheepReceive) :
    OfferValues price maxWheatSend maxWheatReceive maxSheepSend maxSheepReceive
      (offerValue price.n price.d maxWheatSend maxSheepReceive)
      (offerValue price.d price.n maxSheepSend maxWheatReceive) := by
  have n := prices.n_pos.le
  have d := prices.d_pos.le
  refine ⟨le_min ?_ ?_, min_le_left _ _, min_le_right _ _, le_min ?_ ?_, min_le_left _ _,
    min_le_right _ _⟩ <;> positivity

variable {wheatValue sheepValue : Int}

theorem bounded_wheatStays_strictSend (prices : PriceInRange price)
    (values : OfferValues price maxWheatSend maxWheatReceive maxSheepSend maxSheepReceive wheatValue sheepValue)
    (stays : sheepValue < wheatValue) :
    ExchangeBounded price maxWheatSend maxWheatReceive maxSheepSend maxSheepReceive
      ⟨sheepValue / price.n, min maxSheepSend maxSheepReceive, true⟩ := by
  have received : sheepValue / price.n * price.n ≤ sheepValue := Int.ediv_mul_le _ prices.n_pos.ne'
  have nonnegSheepSend : 0 ≤ maxSheepSend := by
    nlinarith [values.sheep_nonneg, values.sheep_le_send, prices.d_pos]
  have nonnegSheepReceive : 0 ≤ maxSheepReceive := by
    nlinarith [values.sheep_nonneg, values.wheat_le_receive, prices.d_pos]
  refine ⟨Int.ediv_nonneg values.sheep_nonneg prices.n_pos.le,
    ediv_le_of_le_mul prices.n_pos values.sheep_le_receive,
    ediv_le_of_le_mul prices.n_pos (by linarith [values.wheat_le_send]),
    le_min nonnegSheepSend nonnegSheepReceive, min_le_right _ _, min_le_left _ _, ?_, nofun⟩
  intro _
  -- Both sheep limits are worth more than what the wheat received is worth.
  rcases min_choice maxSheepSend maxSheepReceive with chosen | chosen <;> rw [chosen]
  · linarith [values.sheep_le_send]
  · linarith [values.wheat_le_receive]

theorem bounded_wheatStays_wheatDear (prices : PriceInRange price)
    (values : OfferValues price maxWheatSend maxWheatReceive maxSheepSend maxSheepReceive wheatValue sheepValue)
    (stays : sheepValue < wheatValue) :
    ExchangeBounded price maxWheatSend maxWheatReceive maxSheepSend maxSheepReceive
      ⟨sheepValue / price.n, ceilDiv (sheepValue / price.n * price.n) price.d, true⟩ := by
  have nonnegWheat : 0 ≤ sheepValue / price.n := Int.ediv_nonneg values.sheep_nonneg prices.n_pos.le
  refine ⟨nonnegWheat, ediv_le_of_le_mul prices.n_pos values.sheep_le_receive,
    ediv_le_of_le_mul prices.n_pos (by linarith [values.wheat_le_send]),
    ceilDiv_nonneg prices.d_pos (mul_nonneg nonnegWheat prices.n_pos.le),
    ceilDiv_ediv_mul_le prices.n_pos prices.d_pos (by linarith [values.wheat_le_receive]),
    ceilDiv_ediv_mul_le prices.n_pos prices.d_pos values.sheep_le_send,
    fun _ => le_ceilDiv_mul prices.d_pos, nofun⟩

theorem bounded_wheatStays_sheepDear (prices : PriceInRange price)
    (values : OfferValues price maxWheatSend maxWheatReceive maxSheepSend maxSheepReceive wheatValue sheepValue)
    (stays : sheepValue < wheatValue) :
    ExchangeBounded price maxWheatSend maxWheatReceive maxSheepSend maxSheepReceive
      ⟨sheepValue / price.d * price.d / price.n, sheepValue / price.d, true⟩ := by
  have nonnegSheep : 0 ≤ sheepValue / price.d := Int.ediv_nonneg values.sheep_nonneg prices.d_pos.le
  refine ⟨Int.ediv_nonneg (mul_nonneg nonnegSheep prices.d_pos.le) prices.n_pos.le,
    ediv_mul_ediv_le prices.d_pos prices.n_pos values.sheep_le_receive,
    ediv_mul_ediv_le prices.d_pos prices.n_pos (by linarith [values.wheat_le_send]),
    nonnegSheep, ediv_le_of_le_mul prices.d_pos (by linarith [values.wheat_le_receive]),
    ediv_le_of_le_mul prices.d_pos values.sheep_le_send,
    fun _ => Int.ediv_mul_le _ prices.n_pos.ne', nofun⟩

theorem bounded_sheepStays_wheatDear (prices : PriceInRange price)
    (values : OfferValues price maxWheatSend maxWheatReceive maxSheepSend maxSheepReceive wheatValue sheepValue)
    (leaves : wheatValue ≤ sheepValue) :
    ExchangeBounded price maxWheatSend maxWheatReceive maxSheepSend maxSheepReceive
      ⟨wheatValue / price.n, wheatValue / price.n * price.n / price.d, false⟩ := by
  have nonnegWheat : 0 ≤ wheatValue / price.n := Int.ediv_nonneg values.wheat_nonneg prices.n_pos.le
  refine ⟨nonnegWheat, ediv_le_of_le_mul prices.n_pos (by linarith [values.sheep_le_receive]),
    ediv_le_of_le_mul prices.n_pos values.wheat_le_send,
    Int.ediv_nonneg (mul_nonneg nonnegWheat prices.n_pos.le) prices.d_pos.le,
    ediv_mul_ediv_le prices.n_pos prices.d_pos values.wheat_le_receive,
    ediv_mul_ediv_le prices.n_pos prices.d_pos (by linarith [values.sheep_le_send]),
    nofun, fun _ => Int.ediv_mul_le _ prices.d_pos.ne'⟩

theorem bounded_sheepStays_sheepDear (prices : PriceInRange price)
    (values : OfferValues price maxWheatSend maxWheatReceive maxSheepSend maxSheepReceive wheatValue sheepValue)
    (leaves : wheatValue ≤ sheepValue) :
    ExchangeBounded price maxWheatSend maxWheatReceive maxSheepSend maxSheepReceive
      ⟨ceilDiv (wheatValue / price.d * price.d) price.n, wheatValue / price.d, false⟩ := by
  have nonnegSheep : 0 ≤ wheatValue / price.d := Int.ediv_nonneg values.wheat_nonneg prices.d_pos.le
  refine ⟨ceilDiv_nonneg prices.n_pos (mul_nonneg nonnegSheep prices.d_pos.le),
    ceilDiv_ediv_mul_le prices.d_pos prices.n_pos (by linarith [values.sheep_le_receive]),
    ceilDiv_ediv_mul_le prices.d_pos prices.n_pos values.wheat_le_send,
    nonnegSheep, ediv_le_of_le_mul prices.d_pos values.wheat_le_receive,
    ediv_le_of_le_mul prices.d_pos (by linarith [values.sheep_le_send]),
    nofun, fun _ => le_ceilDiv_mul prices.n_pos⟩

end Branches

section Refinement

variable {price : Price} {maxWheatSend maxWheatReceive maxSheepSend maxSheepReceive : Int}

theorem exchangeAmounts_bounded (prices : PriceInRange price) (nonnegWheatSend : 0 ≤ maxWheatSend)
    (nonnegWheatReceive : 0 ≤ maxWheatReceive) (nonnegSheepSend : 0 ≤ maxSheepSend)
    (nonnegSheepReceive : 0 ≤ maxSheepReceive) (round : RoundingType) :
    ExchangeBounded price maxWheatSend maxWheatReceive maxSheepSend maxSheepReceive
      (exchangeAmounts price maxWheatSend maxWheatReceive maxSheepSend maxSheepReceive round) := by
  have values := offerValues_of_nonneg prices nonnegWheatSend nonnegWheatReceive nonnegSheepSend
    nonnegSheepReceive
  unfold exchangeAmounts
  dsimp only
  split_ifs with stays strictSend dear dear'
  · exact bounded_wheatStays_strictSend prices values stays
  · exact bounded_wheatStays_wheatDear prices values stays
  · exact bounded_wheatStays_sheepDear prices values stays
  · exact bounded_sheepStays_wheatDear prices values (not_lt.mp stays)
  · exact bounded_sheepStays_sheepDear prices values (not_lt.mp stays)

theorem calculateOfferValue_eq {priceN priceD maxSend maxReceive : Int} (nonnegN : 0 ≤ priceN)
    (nonnegD : 0 ≤ priceD) (nonnegSend : 0 ≤ maxSend) (nonnegReceive : 0 ≤ maxReceive) :
    calculateOfferValue priceN priceD maxSend maxReceive =
      .ok (offerValue priceN priceD maxSend maxReceive).toNat := by
  unfold calculateOfferValue
  rw [bigMultiply_of_nonneg nonnegSend nonnegN, Except.ok_bind,
    bigMultiply_of_nonneg nonnegReceive nonnegD, Except.ok_bind]
  have cast : ((min (maxSend.toNat * priceN.toNat) (maxReceive.toNat * priceD.toNat) : Nat) : Int) =
      ((offerValue priceN priceD maxSend maxReceive).toNat : Int) := by
    have nonnegValue : 0 ≤ offerValue priceN priceD maxSend maxReceive :=
      le_min (mul_nonneg nonnegSend nonnegN) (mul_nonneg nonnegReceive nonnegD)
    rw [Int.toNat_of_nonneg nonnegValue]
    push_cast [Int.toNat_of_nonneg nonnegN, Int.toNat_of_nonneg nonnegD, Int.toNat_of_nonneg nonnegSend,
      Int.toNat_of_nonneg nonnegReceive]
    rfl
  rw [Nat.cast_inj.mp cast]
  rfl


/-- The two bounds checks at the end of the exchange pass on amounts within the limits. -/
theorem outOfBounds_pass {wheatReceive sheepSend : Int} {wheatStays : Bool}
    (bounded : ExchangeBounded price maxWheatSend maxWheatReceive maxSheepSend maxSheepReceive
      ⟨wheatReceive, sheepSend, wheatStays⟩) :
    (if wheatReceive < 0 ∨ wheatReceive > min maxWheatReceive maxWheatSend then
        (throw "wheatReceive out of bounds" : Except String ExchangeResultV10)
      else if sheepSend < 0 ∨ sheepSend > min maxSheepReceive maxSheepSend then
        throw "sheepSend out of bounds"
      else pure ⟨wheatReceive, sheepSend, wheatStays⟩) = .ok ⟨wheatReceive, sheepSend, wheatStays⟩ := by
  have wheatIn : ¬(wheatReceive < 0 ∨ wheatReceive > min maxWheatReceive maxWheatSend) := by
    have nonneg : 0 ≤ wheatReceive := bounded.wheat_nonneg
    have received : wheatReceive ≤ maxWheatReceive := bounded.wheat_le_receive
    have sent : wheatReceive ≤ maxWheatSend := bounded.wheat_le_send
    omega
  have sheepIn : ¬(sheepSend < 0 ∨ sheepSend > min maxSheepReceive maxSheepSend) := by
    have nonneg : 0 ≤ sheepSend := bounded.sheep_nonneg
    have received : sheepSend ≤ maxSheepReceive := bounded.sheep_le_receive
    have sent : sheepSend ≤ maxSheepSend := bounded.sheep_le_send
    omega
  rw [if_neg wheatIn, if_neg sheepIn]
  rfl

/-- On positive `int32` prices and `int64` limits the model computes the exact amounts: no
division overflows and no bounds check fires. -/
theorem exchangeV10WithoutPriceErrorThresholds_eq (prices : PriceInRange price) (wheatSend : AmountInRange maxWheatSend)
    (wheatReceive : AmountInRange maxWheatReceive) (sheepSend : AmountInRange maxSheepSend)
    (sheepReceive : AmountInRange maxSheepReceive) (round : RoundingType) :
    exchangeV10WithoutPriceErrorThresholds price maxWheatSend maxWheatReceive maxSheepSend maxSheepReceive round =
      .ok (exchangeAmounts price maxWheatSend maxWheatReceive maxSheepSend maxSheepReceive round) := by
  have values := offerValues_of_nonneg prices wheatSend.1 wheatReceive.1 sheepSend.1 sheepReceive.1
  have bounded := exchangeAmounts_bounded prices wheatSend.1 wheatReceive.1 sheepSend.1 sheepReceive.1 round
  unfold exchangeV10WithoutPriceErrorThresholds
  rw [calculateOfferValue_eq prices.n_pos.le prices.d_pos.le wheatSend.1 sheepReceive.1, Except.ok_bind,
    calculateOfferValue_eq prices.d_pos.le prices.n_pos.le sheepSend.1 wheatReceive.1, Except.ok_bind]
  unfold exchangeAmounts at bounded ⊢
  set wheatValue := offerValue price.n price.d maxWheatSend maxSheepReceive
  set sheepValue := offerValue price.d price.n maxSheepSend maxWheatReceive
  have castWheat : (wheatValue.toNat : Int) = wheatValue := Int.toNat_of_nonneg values.wheat_nonneg
  have castSheep : (sheepValue.toNat : Int) = sheepValue := Int.toNat_of_nonneg values.sheep_nonneg
  have fits (x limit : Int) (atMost : x ≤ limit) (limitIn : AmountInRange limit) : x ≤ int64Max :=
    atMost.trans limitIn.2
  by_cases stays : sheepValue < wheatValue
  · have decided : decide (wheatValue.toNat > sheepValue.toNat) = true := by
      simp only [gt_iff_lt, decide_eq_true_eq]
      omega
    simp only [decided, if_true, stays] at bounded ⊢
    by_cases send : round = .pathPaymentStrictSend
    · simp only [send, if_true] at bounded ⊢
      rw [bigDivideOrThrow128_of_fits prices.n_pos (by rw [castSheep]; exact fits _ _ bounded.wheat_le_receive wheatReceive),
        castSheep, Except.ok_bind, Except.pure_eq_ok, Except.ok_bind]
      exact outOfBounds_pass bounded
    by_cases dear : price.n > price.d ∨ round = .pathPaymentStrictReceive
    · simp only [send, dear, if_true, if_false] at bounded ⊢
      rw [bigDivideOrThrow128_of_fits prices.n_pos (by rw [castSheep]; exact fits _ _ bounded.wheat_le_receive wheatReceive),
        castSheep, Except.ok_bind,
        bigDivideOrThrow_of_fits bounded.wheat_nonneg prices.n_pos.le prices.d_pos
          (fits _ _ bounded.sheep_le_send sheepSend), Except.ok_bind, Except.pure_eq_ok, Except.ok_bind]
      exact outOfBounds_pass bounded
    · simp only [send, dear, if_false] at bounded ⊢
      rw [bigDivideOrThrow128_of_fits prices.d_pos (by rw [castSheep]; exact fits _ _ bounded.sheep_le_send sheepSend),
        castSheep, Except.ok_bind,
        bigDivideOrThrow_of_fits bounded.sheep_nonneg prices.d_pos.le prices.n_pos
          (fits _ _ bounded.wheat_le_receive wheatReceive), Except.ok_bind, Except.pure_eq_ok, Except.ok_bind]
      exact outOfBounds_pass bounded
  · have decided : decide (wheatValue.toNat > sheepValue.toNat) = false := by
      simp only [gt_iff_lt, decide_eq_false_iff_not, not_lt]
      omega
    simp only [decided, Bool.false_eq_true, if_false, stays] at bounded ⊢
    by_cases dear : price.n > price.d
    · simp only [dear, if_true] at bounded ⊢
      rw [bigDivideOrThrow128_of_fits prices.n_pos (by rw [castWheat]; exact fits _ _ bounded.wheat_le_send wheatSend),
        castWheat, Except.ok_bind,
        bigDivideOrThrow_of_fits bounded.wheat_nonneg prices.n_pos.le prices.d_pos
          (fits _ _ bounded.sheep_le_send sheepSend), Except.ok_bind, Except.pure_eq_ok, Except.ok_bind]
      exact outOfBounds_pass bounded
    · simp only [dear, if_false] at bounded ⊢
      rw [bigDivideOrThrow128_of_fits prices.d_pos (by rw [castWheat]; exact fits _ _ bounded.sheep_le_receive sheepReceive),
        castWheat, Except.ok_bind,
        bigDivideOrThrow_of_fits bounded.sheep_nonneg prices.d_pos.le prices.n_pos
          (fits _ _ bounded.wheat_le_send wheatSend), Except.ok_bind, Except.pure_eq_ok, Except.ok_bind]
      exact outOfBounds_pass bounded

end Refinement

section Thresholds

variable {price : Price} {wheatReceive sheepSend : Int} {wheatStays : Bool}

theorem checkPriceErrorBound_ok (prices : PriceInRange price) (nonnegWheat : 0 ≤ wheatReceive)
    (nonnegSheep : 0 ≤ sheepSend) (canFavorWheat : Bool) :
    ∃ withinBound, checkPriceErrorBound price wheatReceive sheepSend canFavorWheat = .ok withinBound := by
  unfold checkPriceErrorBound
  dsimp only
  rw [bigMultiply_of_nonneg (by linarith [prices.n_pos]) nonnegWheat, Except.ok_bind,
    bigMultiply_of_nonneg (by linarith [prices.d_pos]) nonnegSheep, Except.ok_bind]
  split
  · exact ⟨true, rfl⟩
  · rw [bigMultiply_of_nonneg prices.n_pos.le nonnegWheat, Except.ok_bind]
    exact ⟨_, rfl⟩

/-- Amounts rounded in favour of the side that stays pass both of the source's checks of the
rounding direction. -/
theorem favouredGuards_pass (prices : PriceInRange price) (nonnegWheat : 0 ≤ wheatReceive)
    (nonnegSheep : 0 ≤ sheepSend)
    (wheatFavoured : wheatStays = true → wheatReceive * price.n ≤ sheepSend * price.d)
    (sheepFavoured : wheatStays = false → sheepSend * price.d ≤ wheatReceive * price.n) :
    ¬(wheatStays = true ∧ sheepSend.toNat * price.d.toNat < wheatReceive.toNat * price.n.toNat) ∧
      ¬((!wheatStays) = true ∧ sheepSend.toNat * price.d.toNat > wheatReceive.toNat * price.n.toNat) := by
  have castSheep : ((sheepSend.toNat * price.d.toNat : Nat) : Int) = sheepSend * price.d := by
    push_cast [Int.toNat_of_nonneg nonnegSheep, Int.toNat_of_nonneg prices.d_pos.le]
    rfl
  have castWheat : ((wheatReceive.toNat * price.n.toNat : Nat) : Int) = wheatReceive * price.n := by
    push_cast [Int.toNat_of_nonneg nonnegWheat, Int.toNat_of_nonneg prices.n_pos.le]
    rfl
  constructor
  · rintro ⟨stays, favouredSheep⟩
    have := wheatFavoured stays
    have cast := Nat.cast_lt (α := Int) |>.mpr favouredSheep
    rw [castSheep, castWheat] at cast
    omega
  · rintro ⟨leaves, favouredWheat⟩
    have := sheepFavoured (by simpa using leaves)
    have cast := Nat.cast_lt (α := Int) |>.mpr favouredWheat
    rw [castSheep, castWheat] at cast
    omega

/-- After favoured amounts, `applyPriceErrorThresholds` either returns or reports one of its
two other errors: the price bound of path payments, or a strict send that sends nothing. -/
theorem applyPriceErrorThresholds_cases (prices : PriceInRange price) (nonnegWheat : 0 ≤ wheatReceive)
    (nonnegSheep : 0 ≤ sheepSend)
    (wheatFavoured : wheatStays = true → wheatReceive * price.n ≤ sheepSend * price.d)
    (sheepFavoured : wheatStays = false → sheepSend * price.d ≤ wheatReceive * price.n)
    (round : RoundingType) :
    (∃ result, applyPriceErrorThresholds price wheatReceive sheepSend wheatStays round = .ok result ∧
        result.wheatStays = wheatStays ∧
        (result.numWheatReceived = wheatReceive ∨ result.numWheatReceived = 0)) ∨
      (round ≠ .normal ∧
        (applyPriceErrorThresholds price wheatReceive sheepSend wheatStays round =
            .error "exceeded price error bound" ∨
          applyPriceErrorThresholds price wheatReceive sheepSend wheatStays round =
            .error "invalid amount of sheep sent")) := by
  obtain ⟨sheepGuard, wheatGuard⟩ :=
    favouredGuards_pass prices nonnegWheat nonnegSheep wheatFavoured sheepFavoured
  unfold applyPriceErrorThresholds
  by_cases traded : wheatReceive > 0 ∧ sheepSend > 0
  · rw [if_pos traded, bigMultiply_of_nonneg nonnegWheat prices.n_pos.le, Except.ok_bind,
      bigMultiply_of_nonneg nonnegSheep prices.d_pos.le, Except.ok_bind, if_neg sheepGuard,
      if_neg wheatGuard]
    by_cases normal : round = .normal
    · obtain ⟨withinBound, checked⟩ := checkPriceErrorBound_ok prices nonnegWheat nonnegSheep false
      rw [if_pos normal, checked, Except.ok_bind]
      left
      cases withinBound
      · exact ⟨_, rfl, rfl, .inr rfl⟩
      · exact ⟨_, rfl, rfl, .inl rfl⟩
    · obtain ⟨withinBound, checked⟩ := checkPriceErrorBound_ok prices nonnegWheat nonnegSheep true
      rw [if_neg normal, checked, Except.ok_bind]
      cases withinBound
      · exact .inr ⟨normal, .inl rfl⟩
      · exact .inl ⟨_, rfl, rfl, .inl rfl⟩
  · rw [if_neg traded]
    cases round with
    | pathPaymentStrictSend =>
        dsimp only
        split_ifs
        · exact .inr ⟨nofun, .inr rfl⟩
        · exact .inl ⟨_, rfl, rfl, .inl rfl⟩
    | normal => exact .inl ⟨_, rfl, rfl, .inr rfl⟩
    | pathPaymentStrictReceive => exact .inl ⟨_, rfl, rfl, .inr rfl⟩

end Thresholds

section Exchange

variable {price : Price} {maxWheatSend maxWheatReceive maxSheepSend maxSheepReceive : Int}

/-- `exchangeV10` is the thresholds applied to the exact amounts. -/
theorem exchangeV10_eq (prices : PriceInRange price) (wheatSend : AmountInRange maxWheatSend)
    (wheatReceive : AmountInRange maxWheatReceive) (sheepSend : AmountInRange maxSheepSend)
    (sheepReceive : AmountInRange maxSheepReceive) (round : RoundingType) :
    exchangeV10 price maxWheatSend maxWheatReceive maxSheepSend maxSheepReceive round =
      let amounts := exchangeAmounts price maxWheatSend maxWheatReceive maxSheepSend maxSheepReceive round
      applyPriceErrorThresholds price amounts.numWheatReceived amounts.numSheepSend amounts.wheatStays round := by
  rw [exchangeV10, exchangeV10WithoutPriceErrorThresholds_eq prices wheatSend wheatReceive sheepSend
    sheepReceive, Except.ok_bind]

/-- In `NORMAL` mode `exchangeV10` returns, and the wheat it moves is what the amounts say or
nothing, when the trade is outside the 1% bound. -/
theorem exchangeV10_normal (prices : PriceInRange price) (wheatSend : AmountInRange maxWheatSend)
    (wheatReceive : AmountInRange maxWheatReceive) (sheepSend : AmountInRange maxSheepSend)
    (sheepReceive : AmountInRange maxSheepReceive) :
    ∃ result, exchangeV10 price maxWheatSend maxWheatReceive maxSheepSend maxSheepReceive .normal =
        .ok result ∧
      (result.numWheatReceived =
          (exchangeAmounts price maxWheatSend maxWheatReceive maxSheepSend maxSheepReceive .normal).numWheatReceived ∨
        result.numWheatReceived = 0) := by
  have bounded := exchangeAmounts_bounded prices wheatSend.1 wheatReceive.1 sheepSend.1 sheepReceive.1 .normal
  rw [exchangeV10_eq prices wheatSend wheatReceive sheepSend sheepReceive]
  rcases applyPriceErrorThresholds_cases prices bounded.wheat_nonneg bounded.sheep_nonneg
      bounded.wheat_favoured bounded.sheep_favoured .normal with
    ⟨result, returned, -, moved⟩ | ⟨notNormal, -⟩
  · exact ⟨result, returned, moved⟩
  · exact absurd rfl notNormal

/-- On positive `int32` prices and `int64` limits, for every rounding mode, the amounts of a
crossing are computed without an error, lie within both offers' limits and favour the offer
that stays in the book; so the thresholds never report the wrong side favoured, and in
`NORMAL` mode `exchangeV10` never reports an error at all. -/
theorem exchangeV10_favours_staying_offer (prices : PriceInRange price)
    (wheatSend : AmountInRange maxWheatSend) (wheatReceive : AmountInRange maxWheatReceive)
    (sheepSend : AmountInRange maxSheepSend) (sheepReceive : AmountInRange maxSheepReceive)
    (round : RoundingType) :
    (∃ result, exchangeV10WithoutPriceErrorThresholds price maxWheatSend maxWheatReceive maxSheepSend
          maxSheepReceive round = .ok result ∧
        ExchangeBounded price maxWheatSend maxWheatReceive maxSheepSend maxSheepReceive result ∧
        applyPriceErrorThresholds price result.numWheatReceived result.numSheepSend result.wheatStays round ≠
          .error "favored sheep when wheat stays" ∧
        applyPriceErrorThresholds price result.numWheatReceived result.numSheepSend result.wheatStays round ≠
          .error "favored wheat when sheep stays") ∧
      ∃ result, exchangeV10 price maxWheatSend maxWheatReceive maxSheepSend maxSheepReceive .normal =
        .ok result := by
  have bounded := exchangeAmounts_bounded prices wheatSend.1 wheatReceive.1 sheepSend.1 sheepReceive.1 round
  -- The only errors left after favoured amounts are the price bound and an empty strict send.
  have refused : ∀ message, applyPriceErrorThresholds price
      (exchangeAmounts price maxWheatSend maxWheatReceive maxSheepSend maxSheepReceive round).numWheatReceived
      (exchangeAmounts price maxWheatSend maxWheatReceive maxSheepSend maxSheepReceive round).numSheepSend
      (exchangeAmounts price maxWheatSend maxWheatReceive maxSheepSend maxSheepReceive round).wheatStays round =
        .error message →
      message = "exceeded price error bound" ∨ message = "invalid amount of sheep sent" := by
    intro message failed
    rcases applyPriceErrorThresholds_cases prices bounded.wheat_nonneg bounded.sheep_nonneg
        bounded.wheat_favoured bounded.sheep_favoured round with
      ⟨result, outcome, -⟩ | ⟨-, outcome | outcome⟩ <;> rw [outcome] at failed <;> cases failed
    · exact .inl rfl
    · exact .inr rfl
  refine ⟨⟨_, exchangeV10WithoutPriceErrorThresholds_eq prices wheatSend wheatReceive sheepSend sheepReceive
    round, bounded, fun failed => ?_, fun failed => ?_⟩, ?_⟩
  · rcases refused _ failed with named | named <;> simp at named
  · rcases refused _ failed with named | named <;> simp at named
  · obtain ⟨result, returned, -⟩ := exchangeV10_normal prices wheatSend wheatReceive sheepSend sheepReceive
    exact ⟨result, returned⟩

/-- At price one and limits of ten on every side, the thresholds find the right side
favoured and `NORMAL` mode returns. -/
theorem exchangeV10_favours_staying_offer_unitPrice :
    PriceInRange ⟨1, 1⟩ ∧ AmountInRange 10 ∧
      ∃ result, exchangeV10 ⟨1, 1⟩ 10 10 10 10 .normal = .ok result := by
  have prices : PriceInRange ⟨1, 1⟩ := ⟨by norm_num, by norm_num [int32Max], by norm_num, by norm_num [int32Max]⟩
  have ten : AmountInRange 10 := ⟨by norm_num, by norm_num [int64Max]⟩
  exact ⟨prices, ten, (exchangeV10_favours_staying_offer prices ten ten ten ten .normal).2⟩

end Exchange

section Rounding

variable {price : Price} {maxWheatSend maxWheatReceive maxSheepSend maxSheepReceive : Int}

theorem exchangeAmounts_wheatStays (round : RoundingType) :
    (exchangeAmounts price maxWheatSend maxWheatReceive maxSheepSend maxSheepReceive round).wheatStays = true ↔
      offerValue price.d price.n maxSheepSend maxWheatReceive <
        offerValue price.n price.d maxWheatSend maxSheepReceive := by
  unfold exchangeAmounts
  dsimp only
  split_ifs with stays <;> simp [stays]

/-- Outside strict sends a crossing moves wheat exactly when it moves sheep. Each branch rounds
one amount down from the other or up to it, and the rounded amount vanishes only with the
other: a positive amount is worth at least one unit of the cheaper asset. -/
theorem exchangeAmounts_zero_iff (prices : PriceInRange price) (nonnegWheatSend : 0 ≤ maxWheatSend)
    (nonnegWheatReceive : 0 ≤ maxWheatReceive) (nonnegSheepSend : 0 ≤ maxSheepSend)
    (nonnegSheepReceive : 0 ≤ maxSheepReceive) {round : RoundingType}
    (notStrictSend : round ≠ .pathPaymentStrictSend) :
    (exchangeAmounts price maxWheatSend maxWheatReceive maxSheepSend maxSheepReceive round).numWheatReceived = 0 ↔
      (exchangeAmounts price maxWheatSend maxWheatReceive maxSheepSend maxSheepReceive round).numSheepSend = 0 := by
  have bounded := exchangeAmounts_bounded prices nonnegWheatSend nonnegWheatReceive nonnegSheepSend
    nonnegSheepReceive round
  have n := prices.n_pos
  have d := prices.d_pos
  unfold exchangeAmounts at bounded ⊢
  dsimp only at bounded ⊢
  rw [if_neg notStrictSend] at bounded ⊢
  by_cases stays : offerValue price.d price.n maxSheepSend maxWheatReceive <
    offerValue price.n price.d maxWheatSend maxSheepReceive
  · rw [if_pos stays] at bounded ⊢
    by_cases dear : price.n > price.d ∨ round = .pathPaymentStrictReceive
    · -- The sheep are the wheat's worth rounded up.
      rw [if_pos dear] at bounded ⊢
      dsimp only at bounded ⊢
      have wheat : 0 ≤ offerValue price.d price.n maxSheepSend maxWheatReceive / price.n :=
        bounded.wheat_nonneg
      constructor
      · intro zero
        rw [zero, zero_mul, ceilDiv_zero d]
      · intro zero
        have := (ceilDiv_le_iff d).mp zero.le
        nlinarith
    · -- The wheat are the sheep's worth rounded down, and a sheep is worth at least a wheat.
      rw [if_neg dear] at bounded ⊢
      dsimp only at bounded ⊢
      have cheaper : price.n ≤ price.d := by omega
      have sheep : 0 ≤ offerValue price.d price.n maxSheepSend maxWheatReceive / price.d :=
        bounded.sheep_nonneg
      constructor
      · intro zero
        by_contra some
        have one : 1 ≤ offerValue price.d price.n maxSheepSend maxWheatReceive / price.d := by omega
        have worth : 1 * price.n ≤
            offerValue price.d price.n maxSheepSend maxWheatReceive / price.d * price.d := by
          nlinarith
        have := (Int.le_ediv_iff_mul_le n).mpr worth
        omega
      · intro zero
        rw [zero, zero_mul, Int.zero_ediv]
  · rw [if_neg stays] at bounded ⊢
    by_cases dear : price.n > price.d
    · -- The sheep are the wheat's worth rounded down, and a wheat is worth more than a sheep.
      rw [if_pos dear] at bounded ⊢
      dsimp only at bounded ⊢
      have wheat : 0 ≤ offerValue price.n price.d maxWheatSend maxSheepReceive / price.n :=
        bounded.wheat_nonneg
      constructor
      · intro zero
        rw [zero, zero_mul, Int.zero_ediv]
      · intro zero
        by_contra some
        have one : 1 ≤ offerValue price.n price.d maxWheatSend maxSheepReceive / price.n := by omega
        have worth : 1 * price.d ≤
            offerValue price.n price.d maxWheatSend maxSheepReceive / price.n * price.n := by
          nlinarith
        have := (Int.le_ediv_iff_mul_le d).mpr worth
        omega
    · -- The wheat are the sheep's worth rounded up.
      rw [if_neg dear] at bounded ⊢
      dsimp only at bounded ⊢
      have sheep : 0 ≤ offerValue price.n price.d maxWheatSend maxSheepReceive / price.d :=
        bounded.sheep_nonneg
      constructor
      · intro zero
        have := (ceilDiv_le_iff n).mp zero.le
        nlinarith
      · intro zero
        rw [zero, zero_mul, ceilDiv_zero n]

/-- The rounding laws of the path-payment modes, on positive `int32` prices and `int64`
limits. Outside strict sends no crossing moves one asset without the other. A strict receive
in which the wheat offer stays and the sheep limit covers the wheat limit receives the whole
wheat limit and pays its worth rounded up. A strict send in which the wheat offer stays sends
the whole of what the sheep side can move. -/
theorem exchangeV10_pathPayment_rounding (prices : PriceInRange price)
    (wheatSend : AmountInRange maxWheatSend) (wheatReceive : AmountInRange maxWheatReceive)
    (sheepSend : AmountInRange maxSheepSend) (sheepReceive : AmountInRange maxSheepReceive)
    (round : RoundingType) :
    ∃ result, exchangeV10WithoutPriceErrorThresholds price maxWheatSend maxWheatReceive maxSheepSend
        maxSheepReceive round = .ok result ∧
      (round ≠ .pathPaymentStrictSend → (result.numWheatReceived = 0 ↔ result.numSheepSend = 0)) ∧
      (round = .pathPaymentStrictReceive → result.wheatStays = true →
        maxWheatReceive * price.n ≤ maxSheepSend * price.d →
          result.numWheatReceived = maxWheatReceive ∧
            result.numSheepSend = ceilDiv (maxWheatReceive * price.n) price.d) ∧
      (round = .pathPaymentStrictSend → result.wheatStays = true →
        result.numSheepSend = min maxSheepSend maxSheepReceive) := by
  refine ⟨_, exchangeV10WithoutPriceErrorThresholds_eq prices wheatSend wheatReceive sheepSend sheepReceive
    round, exchangeAmounts_zero_iff prices wheatSend.1 wheatReceive.1 sheepSend.1 sheepReceive.1, ?_, ?_⟩
  · rintro rfl stays covered
    have stays := (exchangeAmounts_wheatStays _).mp stays
    -- The sheep side is worth the whole wheat limit, which then comes out exactly.
    have worth : offerValue price.d price.n maxSheepSend maxWheatReceive = maxWheatReceive * price.n :=
      min_eq_right covered
    unfold exchangeAmounts
    dsimp only
    rw [if_pos stays, if_neg nofun, if_pos (.inr rfl), worth, mul_ediv_cancel prices.n_pos]
    exact ⟨rfl, rfl⟩
  · rintro rfl stays
    have stays := (exchangeAmounts_wheatStays _).mp stays
    unfold exchangeAmounts
    dsimp only
    rw [if_pos stays, if_pos rfl]

/-- At price one and limits of ten, a strict receive moves as much wheat as sheep. -/
theorem exchangeV10_pathPayment_rounding_unitPrice :
    PriceInRange ⟨1, 1⟩ ∧ AmountInRange 10 ∧
      ∃ result, exchangeV10WithoutPriceErrorThresholds ⟨1, 1⟩ 10 10 10 10 .pathPaymentStrictReceive =
        .ok result ∧ (result.numWheatReceived = 0 ↔ result.numSheepSend = 0) := by
  have prices : PriceInRange ⟨1, 1⟩ := ⟨by norm_num, by norm_num [int32Max], by norm_num, by norm_num [int32Max]⟩
  have ten : AmountInRange 10 := ⟨by norm_num, by norm_num [int64Max]⟩
  obtain ⟨result, returned, zero, -⟩ :=
    exchangeV10_pathPayment_rounding prices ten ten ten ten .pathPaymentStrictReceive
  exact ⟨prices, ten, result, returned, zero nofun⟩

end Rounding

section Adjust

variable {price : Price} {maxWheatSend maxSheepReceive : Int}

theorem int64Max_inRange : AmountInRange int64Max := ⟨by norm_num [int64Max], le_rfl⟩

/-- Against a buyer with no limits the offer never stays: what it can move is worth at most
what an `int64` of either asset is worth. -/
theorem offerLeaves_of_unlimited (prices : PriceInRange price) (send : AmountInRange maxWheatSend)
    (receive : AmountInRange maxSheepReceive) :
    ¬ offerValue price.d price.n int64Max int64Max < offerValue price.n price.d maxWheatSend maxSheepReceive := by
  have sent : maxWheatSend * price.n ≤ int64Max * price.n :=
    mul_le_mul_of_nonneg_right send.2 prices.n_pos.le
  have received : maxSheepReceive * price.d ≤ int64Max * price.d :=
    mul_le_mul_of_nonneg_right receive.2 prices.d_pos.le
  unfold offerValue
  rw [not_lt]
  exact le_min ((min_le_right _ _).trans received) ((min_le_left _ _).trans sent)

/-- The amounts of an adjusted offer are those of the offer it was adjusted from: rounding the
wheat down to a whole multiple of its worth, or the sheep up and back down, changes nothing
the second time. -/
theorem exchangeAmounts_adjusted (prices : PriceInRange price) (send : AmountInRange maxWheatSend)
    (receive : AmountInRange maxSheepReceive) :
    let amounts := exchangeAmounts price maxWheatSend int64Max int64Max maxSheepReceive .normal
    exchangeAmounts price amounts.numWheatReceived int64Max int64Max maxSheepReceive .normal = amounts := by
  intro amounts
  have bounded : ExchangeBounded price maxWheatSend int64Max int64Max maxSheepReceive amounts :=
    exchangeAmounts_bounded prices send.1 int64Max_inRange.1 int64Max_inRange.1 receive.1 .normal
  have adjustedIn : AmountInRange amounts.numWheatReceived :=
    ⟨bounded.wheat_nonneg, bounded.wheat_le_send.trans send.2⟩
  have leaves := offerLeaves_of_unlimited prices send receive
  have leavesAgain := offerLeaves_of_unlimited prices adjustedIn receive
  have n := prices.n_pos
  have d := prices.d_pos
  set wheatValue := offerValue price.n price.d maxWheatSend maxSheepReceive
  have values := offerValues_of_nonneg prices send.1 int64Max_inRange.1 int64Max_inRange.1 receive.1
  by_cases dear : price.n > price.d
  · have computed : amounts = ⟨wheatValue / price.n, wheatValue / price.n * price.n / price.d, false⟩ := by
      simp only [amounts, exchangeAmounts]
      rw [if_neg leaves, if_pos dear]
    rw [computed] at leavesAgain ⊢
    dsimp only at leavesAgain ⊢
    -- The adjusted wheat is worth a whole multiple of the price, below the sheep limit.
    have worth : offerValue price.n price.d (wheatValue / price.n) maxSheepReceive = wheatValue / price.n * price.n :=
      min_eq_left ((Int.ediv_mul_le _ n.ne').trans values.wheat_le_receive)
    unfold exchangeAmounts
    dsimp only
    rw [if_neg leavesAgain, if_pos dear, worth, mul_ediv_cancel n]
  · have computed : amounts = ⟨ceilDiv (wheatValue / price.d * price.d) price.n, wheatValue / price.d, false⟩ := by
      simp only [amounts, exchangeAmounts]
      rw [if_neg leaves, if_neg dear]
    rw [computed] at leavesAgain ⊢
    dsimp only at leavesAgain ⊢
    set sheep := wheatValue / price.d
    set adjusted := ceilDiv (sheep * price.d) price.n
    -- The adjusted wheat is worth at least the sheep it buys and less than one sheep more.
    have lower : sheep * price.d ≤ offerValue price.n price.d adjusted maxSheepReceive :=
      le_min (le_ceilDiv_mul n) ((Int.ediv_mul_le _ d.ne').trans values.wheat_le_receive)
    have upper : offerValue price.n price.d adjusted maxSheepReceive < (sheep + 1) * price.d := by
      have below := (lt_ceilDiv_iff n).mp (sub_one_lt adjusted)
      have within : offerValue price.n price.d adjusted maxSheepReceive ≤ adjusted * price.n := min_le_left _ _
      nlinarith
    unfold exchangeAmounts
    dsimp only
    rw [if_neg leavesAgain, if_neg dear, ediv_eq_of_bounds d lower upper]

/-- An offer with nothing to sell adjusts to nothing. -/
theorem adjustOffer_nothing (prices : PriceInRange price) (receive : AmountInRange maxSheepReceive) :
    adjustOffer price 0 maxSheepReceive = .ok 0 := by
  have nothing : AmountInRange 0 := ⟨le_rfl, by norm_num [int64Max]⟩
  have leaves := offerLeaves_of_unlimited prices nothing receive
  have amounts : (exchangeAmounts price 0 int64Max int64Max maxSheepReceive .normal).numWheatReceived = 0 := by
    unfold exchangeAmounts
    dsimp only
    rw [if_neg leaves]
    have zero : offerValue price.n price.d 0 maxSheepReceive = 0 :=
      le_antisymm (by simp [offerValue]) (offerValues_of_nonneg prices le_rfl le_rfl le_rfl receive.1).wheat_nonneg
    split_ifs <;> simp [zero, ceilDiv_zero prices.n_pos]
  unfold adjustOffer
  rw [exchangeV10_eq prices nothing int64Max_inRange int64Max_inRange receive]
  dsimp only
  rw [amounts]
  simp [applyPriceErrorThresholds]

/-- `adjustOffer` never grows an offer and adjusting an adjusted offer changes nothing, the
1% price bound of `exchangeV10` included: the second pass crosses the same amounts, so the
bound gives the same verdict, and an offer the bound emptied stays empty. -/
theorem adjustOffer_idempotent (prices : PriceInRange price) (send : AmountInRange maxWheatSend)
    (receive : AmountInRange maxSheepReceive) :
    ∃ adjusted, adjustOffer price maxWheatSend maxSheepReceive = .ok adjusted ∧ 0 ≤ adjusted ∧
      adjusted ≤ maxWheatSend ∧ adjustOffer price adjusted maxSheepReceive = .ok adjusted := by
  have bounded := exchangeAmounts_bounded prices send.1 int64Max_inRange.1 int64Max_inRange.1 receive.1 .normal
  obtain ⟨result, returned, kept⟩ := exchangeV10_normal prices send int64Max_inRange int64Max_inRange receive
  have adjustedOnce : adjustOffer price maxWheatSend maxSheepReceive = .ok result.numWheatReceived := by
    rw [adjustOffer, returned, Except.ok_bind]
    rfl
  rcases kept with same | emptied
  · -- The bound kept the trade: the second pass crosses the same amounts.
    have adjustedIn : AmountInRange result.numWheatReceived :=
      ⟨same ▸ bounded.wheat_nonneg, same ▸ bounded.wheat_le_send.trans send.2⟩
    refine ⟨_, adjustedOnce, adjustedIn.1, same ▸ bounded.wheat_le_send, ?_⟩
    rw [adjustOffer, exchangeV10_eq prices adjustedIn int64Max_inRange int64Max_inRange receive, same,
      exchangeAmounts_adjusted prices send receive, ← exchangeV10_eq prices send int64Max_inRange
        int64Max_inRange receive, returned, Except.ok_bind]
    exact congrArg Except.ok same
  · -- The bound emptied the offer, and an empty offer stays empty.
    rw [emptied] at adjustedOnce
    exact ⟨0, adjustedOnce, le_rfl, send.1, adjustOffer_nothing prices receive⟩

/-- At price one, an offer of ten with a sheep limit of five adjusts to a fixed point. -/
theorem adjustOffer_idempotent_unitPrice :
    PriceInRange ⟨1, 1⟩ ∧ AmountInRange 10 ∧ AmountInRange 5 ∧
      ∃ adjusted, adjustOffer ⟨1, 1⟩ 10 5 = .ok adjusted ∧ adjustOffer ⟨1, 1⟩ adjusted 5 = .ok adjusted := by
  have prices : PriceInRange ⟨1, 1⟩ := ⟨by norm_num, by norm_num [int32Max], by norm_num, by norm_num [int32Max]⟩
  have ten : AmountInRange 10 := ⟨by norm_num, by norm_num [int64Max]⟩
  have five : AmountInRange 5 := ⟨by norm_num, by norm_num [int64Max]⟩
  obtain ⟨adjusted, once, -, -, twice⟩ := adjustOffer_idempotent prices ten five
  exact ⟨prices, ten, five, adjusted, once, twice⟩

end Adjust

end StellarCore.Transactions
