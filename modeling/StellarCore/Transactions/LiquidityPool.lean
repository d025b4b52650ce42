import StellarCore.Util.Numeric

/-!
# Constant-product liquidity pools

One pool of `LiquidityPoolDepositOpFrame`, `LiquidityPoolWithdrawOpFrame` and
the pool half of `exchangeWithPool` in `OfferExchange.cpp`. The state is the
pool's `LiquidityPoolConstantProduct` body together with the pool-share trust
lines of the accounts that hold shares of it. The asset side of an operation
(the source's trust lines or account for asset A and B) is summarised by what
the operation reads from it: the available balance, the room left to receive,
and authorization.
-/

set_option autoImplicit false

namespace StellarCore.Transactions

/-- `Price` of the ledger XDR: `n / d` with `int32` parts. -/
structure Price where
  n : Int
  d : Int
deriving DecidableEq, Repr

/-- The fields of a pool-share trust line that pool operations read and write. -/
structure PoolShareTrustLine where
  balance : Int
  limit : Int
  buyingLiabilities : Int
  sellingLiabilities : Int
deriving DecidableEq, Repr

/-- `LiquidityPoolConstantProduct` with the pool-share trust lines of its holders. -/
structure PoolState (AccountID : Type) where
  reserveA : Int
  reserveB : Int
  totalPoolShares : Int
  shareLines : List (AccountID × PoolShareTrustLine)
deriving Repr

/-- `LiquidityPoolDepositOp`, for this pool; the amounts are XDR `int64`. -/
structure LiquidityPoolDepositOp where
  maxAmountA : Int
  maxAmountB : Int
  minPrice : Price
  maxPrice : Price
  maxAmountA_le : maxAmountA ≤ int64Max
  maxAmountB_le : maxAmountB ≤ int64Max

/-- `LiquidityPoolWithdrawOp`, for this pool. -/
structure LiquidityPoolWithdrawOp where
  amount : Int
  minAmountA : Int
  minAmountB : Int
deriving DecidableEq, Repr

/-- What an operation reads of the source's holding of one pool asset. -/
structure AssetHolding where
  /-- `getAvailableBalance` of the trust line or account. -/
  available : Int
  /-- The largest amount `addBalance` accepts to credit. -/
  maxReceive : Int
  /-- `isAuthorized` of the trust line; true for the native asset. -/
  authorized : Bool
deriving DecidableEq, Repr

inductive LiquidityPoolDepositResultCode where
  | malformed
  | noTrust
  | notAuthorized
  | underfunded
  | lineFull
  | badPrice
  | poolFull
deriving DecidableEq, Repr

inductive LiquidityPoolWithdrawResultCode where
  | malformed
  | noTrust
  | underfunded
  | lineFull
  | underMinimum
deriving DecidableEq, Repr

/-- The outcome of an operation that did not throw. -/
inductive OpResult (Code σ : Type) where
  | success (state : σ)
  | failed (code : Code)
deriving Repr

variable {AccountID : Type} [DecidableEq AccountID]

/-- `loadPoolShareTrustLine`. -/
def PoolState.shareLine (state : PoolState AccountID) (account : AccountID) :
    Option PoolShareTrustLine :=
  (state.shareLines.find? (·.1 = account)).map (·.2)

/-- Write back the first pool-share trust line of `account`. -/
def setShareLine (lines : List (AccountID × PoolShareTrustLine)) (account : AccountID)
    (line : PoolShareTrustLine) : List (AccountID × PoolShareTrustLine) :=
  match lines with
  | [] => []
  | entry :: rest => if entry.1 = account then (account, line) :: rest else entry :: setShareLine rest account line

/-- `addBalance(int64_t& balance, int64_t delta, int64_t maxBalance)` of `util/types.cpp`. -/
def addBalanceInt (balance delta maxBalance : Int) : Except String (Option Int) :=
  if balance ≥ 0 then
    if maxBalance ≥ 0 then
      if delta = 0 then .ok (some balance)
      else if delta < -balance then .ok none
      else if maxBalance - balance < delta then .ok none
      else .ok (some (balance + delta))
    else .error "maxBalance >= 0"
  else .error "balance >= 0"

/-- `getAvailableBalance` of a pool-share trust line (always authorized, protocol ≥ 10). -/
def PoolShareTrustLine.availableBalance (line : PoolShareTrustLine) : Int :=
  line.balance - line.sellingLiabilities

/-- `getMaxAmountReceive` of a pool-share trust line. -/
def PoolShareTrustLine.maxAmountReceive (line : PoolShareTrustLine) : Int :=
  line.limit - line.balance - line.buyingLiabilities

/-- `addBalance` on a pool-share trust line (`addBalanceSkipAuthorization`). -/
def PoolShareTrustLine.addBalance (line : PoolShareTrustLine) (delta : Int) :
    Except String (Option PoolShareTrustLine) :=
  if delta = 0 then .ok (some line)
  else
    (addBalanceInt line.balance delta line.limit).map fun result =>
      result.bind fun newBalance =>
        if newBalance < line.sellingLiabilities then none
        else if newBalance > line.limit - line.buyingLiabilities then none
        else some { line with balance := newBalance }

/-- `isBadPrice` of `LiquidityPoolDepositOpFrame.cpp`. -/
def isBadPrice (amountA amountB : Int) (minPrice maxPrice : Price) : Except String Bool :=
  if amountA = 0 ∨ amountB = 0 then .ok true
  else do
    let lowA ← bigMultiply amountA minPrice.d
    let lowB ← bigMultiply amountB minPrice.n
    let highA ← bigMultiply amountA maxPrice.d
    let highB ← bigMultiply amountB maxPrice.n
    pure (lowA < lowB ∨ highA > highB)

/-- `LiquidityPoolDepositOpFrame::doCheckValid`. -/
def depositCheckValid (op : LiquidityPoolDepositOp) : Bool :=
  op.maxAmountA > 0 ∧ op.maxAmountB > 0 ∧ op.minPrice.n > 0 ∧ op.minPrice.d > 0 ∧
    op.maxPrice.n > 0 ∧ op.maxPrice.d > 0 ∧
    ¬ op.minPrice.n * op.maxPrice.d > op.minPrice.d * op.maxPrice.n

/-- The amounts and shares a deposit settles on, or the failure code. -/
abbrev DepositTerms := Except LiquidityPoolDepositResultCode (Int × Int × Int)

/-- `depositIntoEmptyPool`. -/
def depositIntoEmptyPool (op : LiquidityPoolDepositOp)
    (availableA availableB availableLimitPoolShares : Int) : Except String DepositTerms :=
  let amountA := op.maxAmountA
  let amountB := op.maxAmountB
  if availableA < amountA ∨ availableB < amountB then .ok (.error .underfunded)
  else
    match isBadPrice amountA amountB op.minPrice op.maxPrice with
    | .error message => .error message
    | .ok true => .ok (.error .badPrice)
    | .ok false =>
        match bigSquareRoot amountA.toNat amountB.toNat with
        | .error message => .error message
        | .ok shares =>
            if availableLimitPoolShares < shares then .ok (.error .lineFull)
            else .ok (.ok (amountA, amountB, shares))

/-- `minAmongValid`. -/
def minAmongValid (x : Option Int) (y : Option Int) : Option Int :=
  match x, y with
  | some x, some y => some (min x y)
  | some x, none => some x
  | none, some y => some y
  | none, none => none

/-- `depositIntoNonEmptyPool`. -/
def depositIntoNonEmptyPool (op : LiquidityPoolDepositOp)
    (availableA availableB availableLimitPoolShares : Int) (state : PoolState AccountID) :
    Except String DepositTerms := do
  let sharesA ← bigDivide state.totalPoolShares op.maxAmountA state.reserveA .roundDown
  let sharesB ← bigDivide state.totalPoolShares op.maxAmountB state.reserveB .roundDown
  match minAmongValid sharesA sharesB with
  | none => throw "both shares calculations overflowed"
  | some amountPoolShares =>
      let amountA ← bigDivide amountPoolShares state.reserveA state.totalPoolShares .roundUp
      let amountB ← bigDivide amountPoolShares state.reserveB state.totalPoolShares .roundUp
      match amountA, amountB with
      | some amountA, some amountB =>
          if availableA < amountA ∨ availableB < amountB then pure (.error .underfunded)
          else
            let bad ← isBadPrice amountA amountB op.minPrice op.maxPrice
            if bad then pure (.error .badPrice)
            else if availableLimitPoolShares < amountPoolShares then pure (.error .lineFull)
            else pure (.ok (amountA, amountB, amountPoolShares))
      | _, _ => throw "amount overflowed"

/-- `addBalance` on the pool body's counters (`stellar::addBalance(x, delta, INT64_MAX)`),
throwing the source's message when it fails. -/
def addPoolBalance (balance delta : Int) (message : String) : Except String Int :=
  match addBalanceInt balance delta int64Max with
  | .ok (some updated) => .ok updated
  | .ok none => .error message
  | .error assertion => .error assertion

/-- The branch of `doApply` that settles the amounts: into a non-empty pool when it has
shares, into an empty one otherwise. -/
def depositAmounts (op : LiquidityPoolDepositOp) (holdingA holdingB : AssetHolding)
    (tlPool : PoolShareTrustLine) (state : PoolState AccountID) : Except String DepositTerms :=
  if state.totalPoolShares ≠ 0 then
    depositIntoNonEmptyPool op holdingA.available holdingB.available tlPool.maxAmountReceive state
  else depositIntoEmptyPool op holdingA.available holdingB.available tlPool.maxAmountReceive

/-- `LiquidityPoolDepositOpFrame::doApply` after the pool-share trust line is loaded. -/
def depositDoApply (source : AccountID) (op : LiquidityPoolDepositOp) (holdingA holdingB : AssetHolding)
    (state : PoolState AccountID) :
    Except String (OpResult LiquidityPoolDepositResultCode (PoolState AccountID)) :=
  match state.shareLine source with
  | none => .ok (.failed .noTrust)
  | some tlPool =>
      if ¬ holdingA.authorized ∨ ¬ holdingB.authorized then .ok (.failed .notAuthorized)
      else do
        let terms ← depositAmounts op holdingA holdingB tlPool state
        match terms with
        | .error code => pure (.failed code)
        | .ok (amountA, amountB, amountPoolShares) =>
            if int64Max - amountA < state.reserveA ∨ int64Max - amountB < state.reserveB ∨
                int64Max - amountPoolShares < state.totalPoolShares then
              pure (.failed .poolFull)
            else if amountA ≤ 0 ∨ amountB ≤ 0 ∨ amountPoolShares ≤ 0 then
              throw "must deposit positive amounts and receive a positive amount of pool shares"
            else do
              -- `updateBalance` on the asset side throws when the source cannot pay.
              if holdingA.available < amountA then throw "insufficient balance"
              let reserveA ← addPoolBalance state.reserveA amountA "insufficient liquidity pool limit"
              if holdingB.available < amountB then throw "insufficient balance"
              let reserveB ← addPoolBalance state.reserveB amountB "insufficient liquidity pool limit"
              let credited ← tlPool.addBalance amountPoolShares
              let tlPool' ← match credited with
                | some line => pure line
                | none => throw "insufficient pool share limit"
              let totalPoolShares ←
                addPoolBalance state.totalPoolShares amountPoolShares "insufficient liquidity pool limit"
              pure (.success ⟨reserveA, reserveB, totalPoolShares, setShareLine state.shareLines source tlPool'⟩)

/-- `OperationFrame::apply` of a deposit: `doCheckValid`, then `doApply`. -/
def applyDeposit (source : AccountID) (op : LiquidityPoolDepositOp) (holdingA holdingB : AssetHolding)
    (state : PoolState AccountID) :
    Except String (OpResult LiquidityPoolDepositResultCode (PoolState AccountID)) :=
  if depositCheckValid op then depositDoApply source op holdingA holdingB state
  else .ok (.failed .malformed)

/-- `getPoolWithdrawalAmount`. -/
def getPoolWithdrawalAmount (amountPoolShares totalPoolShares reserve : Int) : Except String Int :=
  if amountPoolShares > totalPoolShares then .error "Invalid amountPoolShares"
  else bigDivideOrThrow amountPoolShares reserve totalPoolShares .roundDown

/-- `tryAddAssetBalance`: `none` when the credit succeeds, the failure code otherwise. -/
def tryAddAssetBalance (holding : AssetHolding) (minAmount amount : Int) :
    Option LiquidityPoolWithdrawResultCode :=
  if amount < minAmount then some .underMinimum
  else if holding.maxReceive < amount then some .lineFull
  else none

/-- `LiquidityPoolWithdrawOpFrame::doApply`. -/
def withdrawDoApply (source : AccountID) (op : LiquidityPoolWithdrawOp) (holdingA holdingB : AssetHolding)
    (state : PoolState AccountID) :
    Except String (OpResult LiquidityPoolWithdrawResultCode (PoolState AccountID)) :=
  match state.shareLine source with
  | none => .ok (.failed .noTrust)
  | some tlPool =>
      if tlPool.availableBalance < op.amount then .ok (.failed .underfunded)
      else do
        let amountA ← getPoolWithdrawalAmount op.amount state.totalPoolShares state.reserveA
        match tryAddAssetBalance holdingA op.minAmountA amountA with
        | some code => pure (.failed code)
        | none => do
          let amountB ← getPoolWithdrawalAmount op.amount state.totalPoolShares state.reserveB
          match tryAddAssetBalance holdingB op.minAmountB amountB with
          | some code => pure (.failed code)
          | none => do
            let debited ← tlPool.addBalance (-op.amount)
            let tlPool' ← match debited with
              | some line => pure line
              | none => throw "pool withdrawal invalid"
            let totalPoolShares ← addPoolBalance state.totalPoolShares (-op.amount) "insufficient totalPoolShares"
            let reserveA ← addPoolBalance state.reserveA (-amountA) "insufficient reserveA"
            let reserveB ← addPoolBalance state.reserveB (-amountB) "insufficient reserveB"
            pure (.success ⟨reserveA, reserveB, totalPoolShares, setShareLine state.shareLines source tlPool'⟩)

/-- `LiquidityPoolWithdrawOpFrame::doCheckValid`. -/
def withdrawCheckValid (op : LiquidityPoolWithdrawOp) : Bool :=
  op.amount > 0 ∧ op.minAmountA ≥ 0 ∧ op.minAmountB ≥ 0

/-- `OperationFrame::apply` of a withdrawal. -/
def applyWithdraw (source : AccountID) (op : LiquidityPoolWithdrawOp) (holdingA holdingB : AssetHolding)
    (state : PoolState AccountID) :
    Except String (OpResult LiquidityPoolWithdrawResultCode (PoolState AccountID)) :=
  if withdrawCheckValid op then withdrawDoApply source op holdingA holdingB state
  else .ok (.failed .malformed)

/-! ## Trading against the pool -/

/-- `RoundingType` of `OfferExchange.h`. -/
inductive RoundingType where
  | normal
  | pathPaymentStrictSend
  | pathPaymentStrictReceive
deriving DecidableEq, Repr

/-- `LIQUIDITY_POOL_FEE_V18` of the transaction XDR, in basis points. -/
def liquidityPoolFeeV18 : Int := 30

/-- The arithmetic `exchangeWithPool`: the amounts `(toPool, fromPool)` when the exchange
succeeds. -/
def exchangeWithPoolAmounts (reservesToPool maxSendToPool reservesFromPool maxReceiveFromPool feeBps : Int)
    (round : RoundingType) : Except String (Option (Int × Int)) :=
  let maxBps : Int := 10000
  if feeBps < 0 ∨ maxBps ≤ feeBps then .error "Liquidity pool fee out of range"
  else if reservesToPool ≤ 0 ∨ reservesFromPool ≤ 0 then .error "non-positive reserve in exchangeWithPool"
  else
    match round with
    | .pathPaymentStrictSend =>
        if maxReceiveFromPool ≠ int64Max then .error "strict send with bounded receive?"
        -- The whole `maxSendToPool` goes in; what comes out is capped by the reserve.
        else if maxSendToPool > int64Max - reservesToPool then .ok none
        else do
          let toPool := maxSendToPool
          let scaledReserve ← bigMultiply maxBps reservesToPool
          let scaledSend ← bigMultiply (maxBps - feeBps) toPool
          let product ← bigMultiply reservesFromPool toPool
          match ← hugeDivide (maxBps - feeBps) product (scaledReserve + scaledSend) .roundDown with
          | none => pure none
          | some fromPool =>
              if fromPool > reservesFromPool then throw "received too much from pool"
              else if fromPool < 0 then throw "fromPool is negative"
              else pure (if fromPool ≠ 0 then some (toPool, fromPool) else none)
    | .pathPaymentStrictReceive =>
        if maxSendToPool ≠ int64Max then .error "strict receive with bounded send?"
        -- Exactly `maxReceiveFromPool` comes out; it may not empty the reserve.
        else if maxReceiveFromPool ≥ reservesFromPool then .ok none
        else do
          let fromPool := maxReceiveFromPool
          let product ← bigMultiply reservesToPool fromPool
          let remaining ← bigMultiply (reservesFromPool - fromPool) (maxBps - feeBps)
          match ← hugeDivide maxBps product remaining .roundUp with
          | none => pure none
          | some toPool =>
              if toPool < 0 then throw "toPool is negative"
              else pure (if toPool ≤ int64Max - reservesToPool then some (toPool, fromPool) else none)
    | .normal => .error "Invalid rounding type"

/-- Which of the pool's two assets an exchange sends to the pool. -/
inductive PoolSide where
  | assetA
  | assetB
deriving DecidableEq, Repr

/-- The ledger `exchangeWithPool` for this pool: `none` when no exchange happens. -/
def exchangeWithPool (ledgerVersion : Nat) (poolTradingDisabled : Bool) (toPoolAsset : PoolSide)
    (maxSendToPool maxReceiveFromPool : Int) (round : RoundingType) (maxOffersToCross : Int)
    (state : PoolState AccountID) : Except String (Option (PoolState AccountID)) :=
  if ledgerVersion < 18 ∨ poolTradingDisabled ∨ round = .normal ∨ maxOffersToCross = 0 then .ok none
  -- An empty pool (both reserves zero) is skipped, as is any non-positive reserve.
  else if state.reserveA ≤ 0 ∨ state.reserveB ≤ 0 then .ok none
  else
    match toPoolAsset with
    | .assetA => do
        match ← exchangeWithPoolAmounts state.reserveA maxSendToPool state.reserveB maxReceiveFromPool
            liquidityPoolFeeV18 round with
        | none => pure none
        | some (toPool, fromPool) =>
            let reserveA ← addPoolBalance state.reserveA toPool "could not update reserves"
            let reserveB ← addPoolBalance state.reserveB (-fromPool) "could not update reserves"
            pure (some { state with reserveA := reserveA, reserveB := reserveB })
    | .assetB => do
        match ← exchangeWithPoolAmounts state.reserveB maxSendToPool state.reserveA maxReceiveFromPool
            liquidityPoolFeeV18 round with
        | none => pure none
        | some (toPool, fromPool) =>
            let reserveA ← addPoolBalance state.reserveA (-fromPool) "could not update reserves"
            let reserveB ← addPoolBalance state.reserveB toPool "could not update reserves"
            pure (some { state with reserveA := reserveA, reserveB := reserveB })

/-! ## Runs -/

/-- A successful deposit, withdrawal or exchange takes the pool from one state to the next. -/
inductive PoolStep : PoolState AccountID → PoolState AccountID → Prop where
  | deposit {state next : PoolState AccountID} {source : AccountID} {op : LiquidityPoolDepositOp}
      {holdingA holdingB : AssetHolding} :
      applyDeposit source op holdingA holdingB state = .ok (.success next) → PoolStep state next
  | withdraw {state next : PoolState AccountID} {source : AccountID} {op : LiquidityPoolWithdrawOp}
      {holdingA holdingB : AssetHolding} :
      applyWithdraw source op holdingA holdingB state = .ok (.success next) → PoolStep state next
  | exchange {state next : PoolState AccountID} {ledgerVersion : Nat} {poolTradingDisabled : Bool}
      {toPoolAsset : PoolSide} {maxSendToPool maxReceiveFromPool : Int} {round : RoundingType}
      {maxOffersToCross : Int} :
      exchangeWithPool ledgerVersion poolTradingDisabled toPoolAsset maxSendToPool maxReceiveFromPool round
        maxOffersToCross state = .ok (some next) → PoolStep state next

/-- A newly created pool: no reserves, no shares, and share trust lines that hold nothing. -/
structure PoolState.Fresh (state : PoolState AccountID) : Prop where
  reserveA : state.reserveA = 0
  reserveB : state.reserveB = 0
  totalPoolShares : state.totalPoolShares = 0
  lines : ∀ entry ∈ state.shareLines, entry.2.balance = 0 ∧ 0 ≤ entry.2.limit ∧
    entry.2.buyingLiabilities = 0 ∧ entry.2.sellingLiabilities = 0

end StellarCore.Transactions
