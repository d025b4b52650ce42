import StellarCore.Transactions.LiquidityPool

/-!
# Crossing two offers (`exchangeV10`)

`exchangeV10WithoutPriceErrorThresholds` values each side of a crossing in 128 bits,
`price.n` and `price.d` being the worth of one wheat and one sheep, lets the side of greater
value stay in the book, and rounds the amounts in its favour through `bigDivideOrThrow128`
and `bigDivideOrThrow`. `applyPriceErrorThresholds` then checks that the side that stays was
favoured and that the effective price is within 1% of the offered one; in `NORMAL` mode a
trade outside that bound does not happen. `adjustOffer` is what a buyer with no limits would
take of an offer.
-/

set_option autoImplicit false

namespace StellarCore.Transactions

/-- `calculateOfferValue`: what an offer can move, valued in units of `priceN * priceD`. -/
def calculateOfferValue (priceN priceD maxSend maxReceive : Int) : Except String Nat := do
  let sendValue ← bigMultiply maxSend priceN
  let receiveValue ← bigMultiply maxReceive priceD
  pure (min sendValue receiveValue)

/-- `ExchangeResultV10`. -/
structure ExchangeResultV10 where
  numWheatReceived : Int
  numSheepSend : Int
  wheatStays : Bool
deriving DecidableEq, Repr

def exchangeV10WithoutPriceErrorThresholds (price : Price)
    (maxWheatSend maxWheatReceive maxSheepSend maxSheepReceive : Int) (round : RoundingType) :
    Except String ExchangeResultV10 := do
  let wheatValue ← calculateOfferValue price.n price.d maxWheatSend maxSheepReceive
  let sheepValue ← calculateOfferValue price.d price.n maxSheepSend maxWheatReceive
  let wheatStays := decide (wheatValue > sheepValue)
  let (wheatReceive, sheepSend) ←
    if wheatStays then
      if round = .pathPaymentStrictSend then do
        let wheatReceive ← bigDivideOrThrow128 sheepValue price.n .roundDown
        pure (wheatReceive, min maxSheepSend maxSheepReceive)
      -- Wheat is more valuable, or the amount received is the one fixed.
      else if price.n > price.d ∨ round = .pathPaymentStrictReceive then do
        let wheatReceive ← bigDivideOrThrow128 sheepValue price.n .roundDown
        let sheepSend ← bigDivideOrThrow wheatReceive price.n price.d .roundUp
        pure (wheatReceive, sheepSend)
      else do
        let sheepSend ← bigDivideOrThrow128 sheepValue price.d .roundDown
        let wheatReceive ← bigDivideOrThrow sheepSend price.d price.n .roundDown
        pure (wheatReceive, sheepSend)
    else if price.n > price.d then do
      let wheatReceive ← bigDivideOrThrow128 wheatValue price.n .roundDown
      let sheepSend ← bigDivideOrThrow wheatReceive price.n price.d .roundDown
      pure (wheatReceive, sheepSend)
    else do
      let sheepSend ← bigDivideOrThrow128 wheatValue price.d .roundDown
      let wheatReceive ← bigDivideOrThrow sheepSend price.d price.n .roundUp
      pure (wheatReceive, sheepSend)
  if wheatReceive < 0 ∨ wheatReceive > min maxWheatReceive maxWheatSend then
    throw "wheatReceive out of bounds"
  else if sheepSend < 0 ∨ sheepSend > min maxSheepReceive maxSheepSend then
    throw "sheepSend out of bounds"
  else pure ⟨wheatReceive, sheepSend, wheatStays⟩

/-- `checkPriceErrorBound`: the effective price `sheepSend / wheatReceive` is within 1% of
`price`, or, when `canFavorWheat`, errs in favour of the seller of wheat. -/
def checkPriceErrorBound (price : Price) (wheatReceive sheepSend : Int) (canFavorWheat : Bool) :
    Except String Bool := do
  let errN := 100 * price.n
  let errD := 100 * price.d
  let lhs ← bigMultiply errN wheatReceive
  let rhs ← bigMultiply errD sheepSend
  if canFavorWheat ∧ rhs > lhs then pure true
  else do
    let absDiff := if lhs > rhs then lhs - rhs else rhs - lhs
    let cap ← bigMultiply price.n wheatReceive
    pure (decide (absDiff ≤ cap))

def applyPriceErrorThresholds (price : Price) (wheatReceive sheepSend : Int) (wheatStays : Bool)
    (round : RoundingType) : Except String ExchangeResultV10 :=
  if wheatReceive > 0 ∧ sheepSend > 0 then do
    let wheatReceiveValue ← bigMultiply wheatReceive price.n
    let sheepSendValue ← bigMultiply sheepSend price.d
    if wheatStays ∧ sheepSendValue < wheatReceiveValue then throw "favored sheep when wheat stays"
    else if !wheatStays ∧ sheepSendValue > wheatReceiveValue then
      throw "favored wheat when sheep stays"
    else if round = .normal then do
      -- Outside the bound no trade occurs.
      let withinBound ← checkPriceErrorBound price wheatReceive sheepSend false
      pure (if withinBound then ⟨wheatReceive, sheepSend, wheatStays⟩ else ⟨0, 0, wheatStays⟩)
    else do
      let withinBound ← checkPriceErrorBound price wheatReceive sheepSend true
      if withinBound then pure ⟨wheatReceive, sheepSend, wheatStays⟩
      else throw "exceeded price error bound"
  else
    match round with
    | .pathPaymentStrictSend =>
        if sheepSend = 0 then throw "invalid amount of sheep sent"
        else pure ⟨wheatReceive, sheepSend, wheatStays⟩
    | _ => pure ⟨0, 0, wheatStays⟩

def exchangeV10 (price : Price) (maxWheatSend maxWheatReceive maxSheepSend maxSheepReceive : Int)
    (round : RoundingType) : Except String ExchangeResultV10 := do
  let beforeThresholds ← exchangeV10WithoutPriceErrorThresholds price maxWheatSend maxWheatReceive
    maxSheepSend maxSheepReceive round
  applyPriceErrorThresholds price beforeThresholds.numWheatReceived beforeThresholds.numSheepSend
    beforeThresholds.wheatStays round

/-- `adjustOffer`: the amount of an offer that a buyer with no limits would take, so the
largest amount the offer can trade. -/
def adjustOffer (price : Price) (maxWheatSend maxSheepReceive : Int) : Except String Int := do
  let res ← exchangeV10 price maxWheatSend int64Max int64Max maxSheepReceive .normal
  pure res.numWheatReceived

end StellarCore.Transactions
