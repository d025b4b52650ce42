import StellarCore.Herder.SurgePricingQueue

/-!
# The transaction queue limiter of `herder/TxQueueLimiter.cpp`

`TxQueueLimiter` keeps the queued transactions in a surge-pricing priority queue with the lowest
fee rate on top, whose lane configuration is the limiter's own, and remembers the bid of the
last transaction it evicted from each lane. `evictTransactions` evicts what
`canFitWithEviction` returned, through a callback that removes a transaction from the queue,
until the new transaction fits; `maxLimits` is `maxScaledLedgerResources`, the value `canAddTx`
sets the generic lane's limit to before it calls `canFitWithEviction`.
-/

set_option autoImplicit false

namespace StellarCore.Herder

/-- `TxQueueLimiter`: the queue `mTxs`, and the evicted bid of each lane as a pair of inclusion
fee and operation count. -/
structure TxQueueLimiter (L n : Nat) where
  mTxs : SurgePricingPriorityQueue L n
  mLaneEvictedInclusionFee : Fin L → Int × Nat

namespace TxQueueLimiter

variable {L n : Nat} [NeZero L]

/-- `addTransaction`. -/
def addTransaction (limiter : TxQueueLimiter L n) (tx : TxPtr) :
    Except String (TxQueueLimiter L n) := do
  let mTxs ← limiter.mTxs.add tx
  pure { limiter with mTxs }

/-- `removeTransaction`. -/
def removeTransaction (limiter : TxQueueLimiter L n) (tx : TxPtr) :
    Except String (TxQueueLimiter L n) := do
  let mTxs ← limiter.mTxs.erase tx
  pure { limiter with mTxs }

/-- The loop of `evictTransactions`: each transaction records its bid, against its own lane when
it was evicted at the lane limit and against the generic lane otherwise, and is evicted; the
loop stops early once the new transaction fits the generic limit and its own lane's. -/
def evictTransactionsLoop (resourcesToFit : Resource n) (txToFitLane : Fin L)
    (maxLimits : Resource n)
    (evict : TxPtr → TxQueueLimiter L n → Except String (TxQueueLimiter L n)) :
    List (TxPtr × Bool) → TxQueueLimiter L n → Except String (TxQueueLimiter L n)
  | [], limiter => pure limiter
  | (tx, evictedDueToLaneLimit) :: rest, limiter => do
      let evictedLane := if evictedDueToLaneLimit then limiter.mTxs.mLaneConfig.getLane tx
        else SurgePricingPriorityQueue.genericLane
      let limiter ← evict tx { limiter with
        mLaneEvictedInclusionFee := Function.update limiter.mLaneEvictedInclusionFee evictedLane
          (tx.inclusionFee, tx.numOperations) }
      let total ← limiter.mTxs.totalResources
      let newTotal ← total.addAssign resourcesToFit
      if newTotal ≤ maxLimits then
        if txToFitLane = SurgePricingPriorityQueue.genericLane then pure limiter
        else do
          let newLane ← (limiter.mTxs.laneResources txToFitLane).addAssign resourcesToFit
          if newLane ≤ limiter.mTxs.mLaneConfig.getLaneLimits txToFitLane then pure limiter
          else evictTransactionsLoop resourcesToFit txToFitLane maxLimits evict rest limiter
      else evictTransactionsLoop resourcesToFit txToFitLane maxLimits evict rest limiter

/-- `evictTransactions`, which asserts at the end that the new transaction fits `maxLimits`. -/
def evictTransactions (limiter : TxQueueLimiter L n) (txsToEvict : List (TxPtr × Bool))
    (txToFit : TxPtr) (evict : TxPtr → TxQueueLimiter L n → Except String (TxQueueLimiter L n))
    (maxLimits : Resource n) : Except String (TxQueueLimiter L n) := do
  let resourcesToFit := limiter.mTxs.mLaneConfig.getTxResources txToFit
  let txToFitLane := limiter.mTxs.mLaneConfig.getLane txToFit
  let limiter ← evictTransactionsLoop resourcesToFit txToFitLane maxLimits evict txsToEvict limiter
  let total ← limiter.mTxs.totalResources
  let newTotal ← total.addAssign resourcesToFit
  if newTotal ≤ maxLimits then pure limiter
  else throw "mTxs->totalResources() + resourcesToFit <= maxLimits"

end TxQueueLimiter

end StellarCore.Herder
