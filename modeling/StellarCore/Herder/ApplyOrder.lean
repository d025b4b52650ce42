import StellarCore.Herder.CombineCandidates
import StellarCore.Lib.StdSort

/-!
# The order a transaction set is applied in

`sortedForApplySequential` (`TxSetFrame.cpp`) orders a sequential phase. It groups the
transactions by source account (`buildAccountTxQueues`), each account's in sequence number
order (`AccountTransactionQueue`). Batch `k` then takes the `k`-th transaction of every
account that has one, and each batch is shuffled by the transaction set's hash
(`ApplyTxSorter`). `sortedForApplyParallel` orders the stages of a parallel phase, and
`sortParallelTxsInHashOrder` (`TxSetUtils.cpp`) puts one in the canonical order of its
encoding.

A transaction is any type with the accessors of `TransactionFrameBase` these read. The
`UnorderedMap` of `buildAccountTxQueues` visits each account once, in an order the standard
leaves open; the models take that order as an argument. `AccountTransactionQueue` keeps an
operation count too, which nothing here reads. The queues the loop of
`sortedForApplySequential` works on are never empty: the constructor asserts it, and the loop
drops each queue it empties. So the assertions of `getTopTx` and `popTopTx` never fail, and
the model leaves them out.
-/

set_option autoImplicit false

namespace StellarCore.Herder

/-- What the apply order reads of a transaction. -/
class TransactionFrameBase (Tx : Type) (AccountID : outParam Type) where
  getSourceID : Tx → AccountID
  getSeqNum : Tx → Int
  getFullHash : Tx → Hash

open TransactionFrameBase

variable {Tx AccountID : Type} [DecidableEq AccountID] [TransactionFrameBase Tx AccountID]

/-- `ApplyTxSorter`: transactions ordered by their full hash XOR the set's hash. -/
def applyTxSorter (mSetHash : Hash) (tx1 tx2 : Tx) : Bool :=
  lessThanXored (getFullHash tx1) (getFullHash tx2) mSetHash

/-- `TxSetUtils::hashTxSorter`. -/
def hashTxSorter (tx1 tx2 : Tx) : Bool := decide (getFullHash tx1 < getFullHash tx2)

/-- The comparator `AccountTransactionQueue` sorts with. -/
def seqNumSorter (tx1 tx2 : Tx) : Bool := decide (getSeqNum tx1 < getSeqNum tx2)

/-- The constructor of `AccountTransactionQueue`: its `mTxs`. -/
def accountTransactionQueue (accountTxs : List Tx) : Except String (List Tx) :=
  if accountTxs.isEmpty then .error "releaseAssert(!mTxs.empty())"
  else pure (StdSort.sort seqNumSorter accountTxs)

/-- The entry of `actTxMap` for an account: its transactions, in the order of the input. -/
def accountTxs (txs : List Tx) (id : AccountID) : List Tx :=
  txs.filter (fun tx => getSourceID tx == id)

/-- `TxSetUtils::buildAccountTxQueues`, where `iterationOrder` is the order the map visits
its accounts in. -/
def buildAccountTxQueues (iterationOrder : List AccountID) (txs : List Tx) :
    Except String (List (List Tx)) :=
  iterationOrder.mapM (fun id => accountTransactionQueue (accountTxs txs id))

/-- The end of a turn of the loop of `sortedForApplySequential`: `popTopTx` on every queue,
and the queues it empties erased. -/
def popTopTxs (txQueues : List (List Tx)) : List (List Tx) :=
  (txQueues.map List.tail).filter (fun txQueue => !txQueue.isEmpty)

/-- A turn leaves fewer transactions and queues than it found: each queue loses its top, and
the queue count drops by the queues erased. -/
theorem length_popTopTxs_le (txQueues : List (List Tx)) :
    ((popTopTxs txQueues).map List.length).sum + (popTopTxs txQueues).length ≤
      (txQueues.map List.length).sum := by
  induction txQueues with
  | nil => simp [popTopTxs]
  | cons txQueue others ih =>
    simp only [popTopTxs] at ih ⊢
    cases txQueue with
    | nil => simpa using ih
    | cons top rest =>
      cases rest with
      -- a queue of one transaction is erased, a longer one loses its top
      | nil => simp at ih ⊢; omega
      | cons next more => simp at ih ⊢; omega

/-- The loop `while (!txQueues.empty())` of `sortedForApplySequential`: each turn takes the
top transaction of every queue, in order, into a new batch. -/
def buildTxBatches (txQueues : List (List Tx)) : List (List Tx) :=
  if txQueues.isEmpty then []
  else
    let curBatch := txQueues.filterMap List.head?
    curBatch :: buildTxBatches (popTopTxs txQueues)
termination_by (txQueues.map List.length).sum + txQueues.length
decreasing_by
  have nonempty : txQueues ≠ [] := by simpa using ‹¬ txQueues.isEmpty = true›
  obtain ⟨txQueue, others, rfl⟩ := List.exists_cons_of_ne_nil nonempty
  have dropped := length_popTopTxs_le (txQueue :: others)
  simp only [List.length_cons] at dropped ⊢
  omega

def sortedForApplySequential (iterationOrder : List AccountID) (txs : List Tx) (txSetHash : Hash) :
    Except String (List Tx) := do
  let txQueues ← buildAccountTxQueues iterationOrder txs
  let txBatches := buildTxBatches txQueues
  -- each batch is sorted by `ApplyTxSorter` and appended
  pure (txBatches.flatMap (StdSort.sort (applyTxSorter txSetHash)))

/-- `TxSetUtils::sortTxsInHashOrder`. -/
def sortTxsInHashOrder (transactions : List Tx) : List Tx :=
  StdSort.sort hashTxSorter transactions

/-- `TxSetUtils::sortParallelTxsInHashOrder`: each thread in hash order, the threads of each
stage by their first transactions, and the stages by their first threads. -/
def sortParallelTxsInHashOrder (stages : List (List (List Tx))) :
    Except String (List (List (List Tx))) := do
  let sortedStages ← stages.mapM fun stage => do
    let stage := stage.map (StdSort.sort hashTxSorter)
    StdSort.checkCompared (fun thread => !thread.isEmpty) "releaseAssert(!a.empty() && !b.empty())"
      stage
    pure (StdSort.sort (StdSort.frontSorter hashTxSorter) stage)
  StdSort.checkCompared (fun stage => !stage.isEmpty) "releaseAssert(!a.empty() && !b.empty())"
    sortedStages
  StdSort.checkCompared (fun stage => stage.head?.all (fun thread => !thread.isEmpty))
    "releaseAssert(!a.front().empty() && !b.front().empty())" sortedStages
  pure (StdSort.sort (StdSort.frontSorter (StdSort.frontSorter hashTxSorter)) sortedStages)

/-- `sortedForApplyParallel`: each cluster by `ApplyTxSorter`, and the stages by their first
clusters; the clusters of a stage keep their order. -/
def sortedForApplyParallel (stages : List (List (List Tx))) (txSetHash : Hash) :
    Except String (List (List (List Tx))) := do
  let sorter := applyTxSorter txSetHash
  let sortedStages := stages.map (fun stage => stage.map (StdSort.sort sorter))
  StdSort.checkCompared (fun stage => !stage.isEmpty) "releaseAssert(!a.empty() && !b.empty())"
    sortedStages
  StdSort.checkCompared (fun stage => stage.head?.all (fun cluster => !cluster.isEmpty))
    "releaseAssert(!a.front().empty() && !b.front().empty())" sortedStages
  pure (StdSort.sort (StdSort.frontSorter (StdSort.frontSorter sorter)) sortedStages)

end StellarCore.Herder
