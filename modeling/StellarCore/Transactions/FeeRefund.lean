import StellarCore.Transactions.LiquidityPool

/-!
# Soroban fee refunds

`RefundableFeeTracker` of `MutableTransactionResult.cpp` holds the refundable part of a Soroban
transaction's declared resource fee and what the transaction's operation consumes of it: the
rent fee of its ledger changes, and the events fee at the total size of the events it emits.
Every error setter resets what was consumed. After apply, `TransactionFrame::refundSorobanFee`
pays the rest back to the fee source out of the fee pool, and `finalizeFeeRefund` lowers the
result's `feeCharged` by it; a fee bump result before protocol 21 keeps its `feeCharged`.

The fees come from the Soroban host (`compute_rent_fee`, and the events part of
`compute_transaction_resource_fee`); the model takes the events fee as a function of the total
events size. Apply is summarised by what it does to the result: the operation's calls to the
tracker, and the `setInnermostError` calls of validation and of failed operations.
-/

set_option autoImplicit false

namespace StellarCore.Transactions

/-- `TransactionResultCode` of the ledger XDR. -/
inductive TransactionResultCode where
  | feeBumpInnerSuccess
  | success
  | failed
  | tooEarly
  | tooLate
  | missingOperation
  | badSeq
  | badAuth
  | insufficientBalance
  | noAccount
  | insufficientFee
  | badAuthExtra
  | internalError
  | notSupported
  | feeBumpInnerFailed
  | badSponsorship
  | badMinSeqAgeOrGap
  | malformed
  | sorobanInvalid
deriving DecidableEq, Repr

/-- `RefundableFeeTracker`; the events size is a `uint32`. -/
structure RefundableFeeTracker where
  maximumRefundableFee : Int
  consumedContractEventsSizeBytes : Nat
  consumedRentFee : Int
  consumedRefundableFee : Int
deriving DecidableEq, Repr

namespace RefundableFeeTracker

/-- `RefundableFeeTracker(maximumRefundableFee)`. -/
def new (maximumRefundableFee : Int) : RefundableFeeTracker := ⟨maximumRefundableFee, 0, 0, 0⟩

/-- `consumeRefundableSorobanResources`: whether the refundable fee still covers the rent and
events fees consumed so far, and the tracker after the call. `refundableFee` is the refundable
part of `computeSorobanResourceFee` at a total events size, the transaction's other resources
being fixed. -/
def consumeRefundableSorobanResources (refundableFee : Nat → Int) (t : RefundableFeeTracker)
    (contractEventSizeBytes : Nat) (rentFee : Int) : Bool × RefundableFeeTracker :=
  let t := { t with
    consumedContractEventsSizeBytes :=
      (t.consumedContractEventsSizeBytes + contractEventSizeBytes) % 4294967296
    consumedRentFee := t.consumedRentFee + rentFee }
  if t.maximumRefundableFee < t.consumedRentFee then (false, t)
  else
    let t := { t with
      consumedRefundableFee := t.consumedRentFee + refundableFee t.consumedContractEventsSizeBytes }
    if t.maximumRefundableFee < t.consumedRefundableFee then (false, t) else (true, t)

/-- `getFeeRefund`. -/
def getFeeRefund (t : RefundableFeeTracker) : Int := t.maximumRefundableFee - t.consumedRefundableFee

/-- `resetConsumedFee`. -/
def resetConsumedFee (t : RefundableFeeTracker) : RefundableFeeTracker :=
  { t with consumedContractEventsSizeBytes := 0, consumedRentFee := 0, consumedRefundableFee := 0 }

end RefundableFeeTracker

/-- The part of `MutableTransactionResultBase` the fee logic reads and writes: the code and
`feeCharged` of `mTxResult`, and `mRefundableFeeTracker`. -/
structure MutableTransactionResultBase where
  code : TransactionResultCode
  feeCharged : Int
  refundableFeeTracker : Option RefundableFeeTracker
deriving DecidableEq, Repr

/-- `MutableTransactionResult`, or `FeeBumpMutableTransactionResult` with the code and
`feeCharged` of its inner result. -/
inductive MutableTxResult where
  | plain (base : MutableTransactionResultBase)
  | feeBump (base : MutableTransactionResultBase) (innerCode : TransactionResultCode)
      (innerFeeCharged : Int)
deriving DecidableEq, Repr

namespace MutableTxResult

def base : MutableTxResult → MutableTransactionResultBase
  | plain base => base
  | feeBump base _ _ => base

def setBase : MutableTxResult → MutableTransactionResultBase → MutableTxResult
  | plain _, base => plain base
  | feeBump _ innerCode innerFeeCharged, base => feeBump base innerCode innerFeeCharged

/-- The inner result's `feeCharged` of a fee bump. -/
def innerFeeCharged : MutableTxResult → Option Int
  | plain _ => none
  | feeBump _ _ innerFeeCharged => some innerFeeCharged

/-- `isSuccess`. -/
def isSuccess : MutableTxResult → Bool
  | plain base => base.code == .success
  | feeBump base _ _ => base.code == .feeBumpInnerSuccess

/-- Whether `getInnerResult` passes its `releaseAssert`; a plain result has no inner one to
check. -/
def hasInnerResult : MutableTxResult → Bool
  | plain _ => true
  | feeBump base _ _ => base.code == .feeBumpInnerSuccess || base.code == .feeBumpInnerFailed

/-- The result with the given tracker. -/
def setTracker (res : MutableTxResult) (tracker : RefundableFeeTracker) : MutableTxResult :=
  res.setBase { res.base with refundableFeeTracker := some tracker }

/-- `mRefundableFeeTracker->resetConsumedFee()` where there is a tracker. -/
def resetTracker (res : MutableTxResult) : MutableTxResult :=
  res.setBase { res.base with
    refundableFeeTracker := res.base.refundableFeeTracker.map RefundableFeeTracker.resetConsumedFee }

/-- `initializeRefundableFeeTracker`. -/
def initializeRefundableFeeTracker (res : MutableTxResult) (totalRefundableFee : Int) :
    Except String MutableTxResult :=
  match res.base.refundableFeeTracker with
  | some _ => .error "releaseAssert(!mRefundableFeeTracker)"
  | none => .ok (res.setTracker (RefundableFeeTracker.new totalRefundableFee))

/-- `MutableTransactionResultBase::setError`; a failed `releaseAssert` aborts. -/
def setError (res : MutableTxResult) (code : TransactionResultCode) :
    Except String MutableTxResult :=
  if code = res.base.code ∨ res.isSuccess = true then
    let res := res.setBase { res.base with code := code }
    if res.isSuccess = true then .error "releaseAssert(!isSuccess())"
    else .ok res.resetTracker
  else .error "releaseAssert(code == getResultCode() || isSuccess())"

/-- `setInnermostError`: `setError` on a plain result; on a fee bump the inner result takes the
code and the outer one becomes `txFEE_BUMP_INNER_FAILED`. -/
def setInnermostError (res : MutableTxResult) (code : TransactionResultCode) :
    Except String MutableTxResult :=
  match res with
  | plain _ => res.setError code
  | feeBump base innerCode innerFeeCharged =>
      if res.hasInnerResult then
        if code ≠ .success ∧ code ≠ .feeBumpInnerSuccess ∧ code ≠ .feeBumpInnerFailed ∧
            innerCode = .success then
          .ok (feeBump { base with code := .feeBumpInnerFailed } code innerFeeCharged).resetTracker
        else .error "releaseAssert(code != txSUCCESS && code != txFEE_BUMP_INNER_SUCCESS && code != txFEE_BUMP_INNER_FAILED && innerRes.result.code() == txSUCCESS)"
      else .error "releaseAssert(mTxResult.result.code() == txFEE_BUMP_INNER_SUCCESS || mTxResult.result.code() == txFEE_BUMP_INNER_FAILED)"

/-- `finalizeFeeRefund`: the refund comes off `feeCharged`; on a fee bump only from protocol
21, and then off the inner result's `feeCharged` too. -/
def finalizeFeeRefund (res : MutableTxResult) (ledgerVersion : Nat) :
    Except String MutableTxResult :=
  match res with
  | plain base =>
      match base.refundableFeeTracker with
      | none => .ok res
      | some tracker => .ok (plain { base with feeCharged := base.feeCharged - tracker.getFeeRefund })
  | feeBump base innerCode innerFeeCharged =>
      match base.refundableFeeTracker with
      | none => .ok res
      | some tracker =>
          if 21 ≤ ledgerVersion then
            let refund := tracker.getFeeRefund
            if res.hasInnerResult then
              .ok (feeBump { base with feeCharged := base.feeCharged - refund } innerCode
                (innerFeeCharged - refund))
            else .error "releaseAssert(mTxResult.result.code() == txFEE_BUMP_INNER_SUCCESS || mTxResult.result.code() == txFEE_BUMP_INNER_FAILED)"
          else .ok res

end MutableTxResult

/-- The fields of an account entry that `addBalance` reads; `minBalance` is what
`getMinBalance` computes for it. -/
structure AccountEntry where
  balance : Int
  buyingLiabilities : Int
  sellingLiabilities : Int
  minBalance : Int
deriving DecidableEq, Repr

/-- `addBalance(header, entry, delta)` on an account entry: `none` when it refuses. -/
def AccountEntry.addBalance (ledgerVersion : Nat) (acc : AccountEntry) (delta : Int) :
    Except String (Option AccountEntry) :=
  if delta = 0 then .ok (some acc)
  else
    (addBalanceInt acc.balance delta int64Max).map fun result => result.bind fun newBalance =>
      if 10 ≤ ledgerVersion then
        if delta < 0 ∧ newBalance - acc.minBalance < acc.sellingLiabilities then none
        else if newBalance > int64Max - acc.buyingLiabilities then none
        else some { acc with balance := newBalance }
      else some { acc with balance := newBalance }

/-- The ledger as the fee logic sees it: the header's version and fee pool, and the accounts. -/
structure FeeLedger (AccountID : Type) where
  ledgerVersion : Nat
  feePool : Int
  accounts : AccountID → Option AccountEntry

variable {AccountID : Type} [DecidableEq AccountID]

/-- The ledger with one account entry replaced. -/
def FeeLedger.setAccount (ledger : FeeLedger AccountID) (id : AccountID) (acc : AccountEntry) :
    FeeLedger AccountID :=
  { ledger with accounts := Function.update ledger.accounts id (some acc) }

/-- The fee half of `processFeeSeqNum`, the same for a plain transaction and a fee bump: at
most the fee source's balance is taken from it into the fee pool, and that is the fee charged. -/
def chargeFee (ledger : FeeLedger AccountID) (feeSource : AccountID) (fee : Int) :
    Except String (Int × FeeLedger AccountID) :=
  match ledger.accounts feeSource with
  | none => .error "Unexpected database state"
  | some acc =>
      if fee > 0 then
        let fee := min acc.balance fee
        -- the flag of `stellar::addBalance(acc.balance, -fee)` is not checked
        match addBalanceInt acc.balance (-fee) int64Max with
        | .error message => .error message
        | .ok newBalance =>
            .ok (fee, { ledger.setAccount feeSource { acc with balance := newBalance.getD acc.balance }
              with feePool := ledger.feePool + fee })
      else .ok (fee, ledger)

/-- `TransactionFrame::processFeeSeqNum` on a Soroban transaction (protocol 20 on, so the
sequence number is not touched): the fee charged and `createSuccess`. -/
def processFeeSeqNum (ledger : FeeLedger AccountID) (sourceID : AccountID) (fee : Int) :
    Except String (FeeLedger AccountID × MutableTxResult) :=
  (chargeFee ledger sourceID fee).map fun (charged, ledger) =>
    (ledger, .plain ⟨.success, charged, none⟩)

/-- `FeeBumpTransactionFrame::processFeeSeqNum`; `innerFee` is the inner transaction's
`getFee`. -/
def processFeeSeqNumFeeBump (ledger : FeeLedger AccountID) (feeSourceID : AccountID)
    (fee innerFee : Int) : Except String (FeeLedger AccountID × MutableTxResult) :=
  (chargeFee ledger feeSourceID fee).map fun (charged, ledger) =>
    (ledger, .feeBump ⟨.feeBumpInnerSuccess, charged, none⟩ .success innerFee)

/-- `TransactionFrame::refundSorobanFee`: the refund paid, with the ledger and result after it.
Where nothing is paid the nested ledger transaction is not committed. -/
def refundSorobanFee (ledger : FeeLedger AccountID) (feeSource : AccountID)
    (txResult : MutableTxResult) : Except String (Int × FeeLedger AccountID × MutableTxResult) :=
  match txResult.base.refundableFeeTracker with
  | none => .ok (0, ledger, txResult)
  | some refundableFeeTracker =>
      let feeRefund := refundableFeeTracker.getFeeRefund
      if feeRefund = 0 then .ok (0, ledger, txResult)
      else
        match ledger.accounts feeSource with
        -- the account was merged
        | none => .ok (0, ledger, txResult)
        | some feeSourceAccount =>
            match feeSourceAccount.addBalance ledger.ledgerVersion feeRefund with
            | .error message => .error message
            -- liabilities in the way of the refund
            | .ok none => .ok (0, ledger, txResult)
            | .ok (some credited) =>
                match txResult.finalizeFeeRefund ledger.ledgerVersion with
                | .error message => .error message
                | .ok finalized =>
                    .ok (feeRefund, { ledger.setAccount feeSource credited with
                      feePool := ledger.feePool - feeRefund }, finalized)

/-- One event of applying a Soroban transaction, as it touches the result. -/
inductive ApplyEvent where
  /-- A `consumeRefundableSorobanResources` call of the operation, with what it returned. -/
  | consume (contractEventSizeBytes : Nat) (rentFee : Int) (returned : Bool)
  /-- A `setInnermostError` call: failed validation, a failed operation, or an exception. -/
  | setInnermostError (code : TransactionResultCode)
deriving DecidableEq, Repr

/-- What one event does to the result. The operation only runs while the transaction succeeds,
and a call that returns false fails the operation, after which `applyOperations` (or
`parallelApply`) fails the transaction with `txFAILED`. -/
inductive ApplyStep (refundableFee : Nat → Int) :
    MutableTxResult → ApplyEvent → MutableTxResult → Prop where
  | consume {res res' : MutableTxResult} {tracker tracker' : RefundableFeeTracker}
      {contractEventSizeBytes : Nat} {rentFee : Int} {returned : Bool}
      (running : res.isSuccess = true) (tracked : res.base.refundableFeeTracker = some tracker)
      (consumed : tracker.consumeRefundableSorobanResources refundableFee contractEventSizeBytes
        rentFee = (returned, tracker'))
      (after : (if returned then .ok (res.setTracker tracker')
        else (res.setTracker tracker').setInnermostError .failed) = Except.ok res') :
      ApplyStep refundableFee res (.consume contractEventSizeBytes rentFee returned) res'
  | setInnermostError {res res' : MutableTxResult} {code : TransactionResultCode}
      (set : res.setInnermostError code = .ok res') :
      ApplyStep refundableFee res (.setInnermostError code) res'

/-- Apply as a run of events, from the result `initializeRefundableFeeTracker` gives. -/
inductive ApplyRun (refundableFee : Nat → Int) :
    MutableTxResult → List ApplyEvent → MutableTxResult → Prop where
  | done (res : MutableTxResult) : ApplyRun refundableFee res [] res
  | step {res mid res' : MutableTxResult} {event : ApplyEvent} {events : List ApplyEvent} :
      ApplyStep refundableFee res event mid → ApplyRun refundableFee mid events res' →
      ApplyRun refundableFee res (event :: events) res'

end StellarCore.Transactions
