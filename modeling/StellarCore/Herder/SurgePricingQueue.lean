import StellarCore.Util.TxResource
import StellarCore.Lib.ArgMax
import StellarCore.Lib.OrderedSet

/-!
# The surge-pricing priority queue of `herder/SurgePricingUtils.cpp`

`SurgePricingPriorityQueue` keeps the transactions of each lane in a `std::set` ordered by
its `TxComparator`, and a running count of each lane's resources. A transaction is the
pointer `TransactionFrameBasePtr`: its address, which breaks ties between equal fee rates,
and the fields the queue reads of the transaction behind it. The lane configuration is the
virtual interface `SurgePricingLaneConfig`, through the members the queue calls.

`popTopTxs` runs its outer loop once per queued transaction at most, since every pass that goes
on erases one; its inner loop runs once per lane at most, since every pass that goes on drops
one. Both loops take that bound as fuel, and so do the two loops of `canFitWithEviction`: its
outer loop evicts or moves past one transaction per pass, its inner loop drops one lane per pass.
-/

set_option autoImplicit false

namespace StellarCore.Herder

/-- A `TransactionFrameBasePtr`: the pointer, and what the queue reads of the transaction
behind it. Inclusion fees are never negative, which `bigMultiply` asserts. -/
structure TxPtr where
  address : Nat
  inclusionFee : Int
  fullFee : Int
  numOperations : Nat
  sourceID : Nat
  inclusionFee_nonneg : 0 ≤ inclusionFee
deriving DecidableEq

/-- `feeRate3WayCompare`: `lFeeBid / lNbOps` against `rFeeBid / rNbOps`, by the exact products
`lFeeBid * rNbOps` and `rFeeBid * lNbOps`. -/
def feeRate3WayCompare (lFeeBid : Int) (lNbOps : Nat) (rFeeBid : Int) (rNbOps : Nat) :
    Except String Ordering := do
  let v1 ← bigMultiply lFeeBid rNbOps
  let v2 ← bigMultiply rFeeBid lNbOps
  pure (compare v1 v2)

/-- `computeBetterFee`: one above `refFeeBid * ops / refNbOps` rounded down, or `INT64_MAX` when
that does not fit. -/
def computeBetterFee (tx : TxPtr) (refFeeBid : Int) (refNbOps : Nat) : Except String Int := do
  let v ← bigDivide refFeeBid tx.numOperations refNbOps .roundDown
  pure (match v with
    | some v => if v < int64Max then v + 1 else int64Max
    | none => int64Max)

/-- `SurgePricingPriorityQueue::TxComparator`. -/
structure TxComparator where
  mIsGreater : Bool
  mSeed : Nat
deriving DecidableEq

namespace TxComparator

/-- `txLessThan`: the lower fee rate first, and between equal rates the lower address mixed
with the seed. -/
def txLessThan (c : TxComparator) (tx1 tx2 : TxPtr) : Bool :=
  match feeRate3WayCompare tx1.inclusionFee tx1.numOperations tx2.inclusionFee
      tx2.numOperations with
  | .ok .lt => true
  | .ok .gt => false
  | .ok .eq => (tx1.address ^^^ c.mSeed) < (tx2.address ^^^ c.mSeed)
  | .error _ => false

/-- `operator()`. -/
def call (c : TxComparator) (tx1 tx2 : TxPtr) : Bool := c.txLessThan tx1 tx2 ^^ c.mIsGreater

/-- `compareFeeOnly`. -/
def compareFeeOnly (c : TxComparator) (tx1Bid : Int) (tx1Ops : Nat) (tx2Bid : Int)
    (tx2Ops : Nat) : Except String Bool := do
  let cmp ← feeRate3WayCompare tx1Bid tx1Ops tx2Bid tx2Ops
  pure ((cmp == .lt) ^^ c.mIsGreater)

end TxComparator

/-- The members of `SurgePricingLaneConfig` the queue calls, over `L` lanes and resources of `n`
dimensions. Resources count operations, bytes and ledger entries, so they are never
negative. -/
structure LaneConfig (L n : Nat) where
  getLaneLimits : Fin L → Resource n
  getLane : TxPtr → Fin L
  getTxResources : TxPtr → Resource n
  getTxResources_nonneg : ∀ tx, 0 ≤ getTxResources tx

/-- `SurgePricingPriorityQueue`; its `mLaneLimits` is a reference to the configuration's
limits. -/
structure SurgePricingPriorityQueue (L n : Nat) where
  mComparator : TxComparator
  mLaneConfig : LaneConfig L n
  mLaneCurrentCount : Fin L → Resource n
  mTxSortedSets : Fin L → List TxPtr

/-- `VisitTxResult`. -/
inductive VisitTxResult where
  | skipped
  | rejected
  | processed
deriving DecidableEq, Repr

/-- `LaneIter`: a lane, and its set from the iterator's position on, which is never the
set's end. -/
structure LaneIter (L : Nat) where
  lane : Fin L
  position : List TxPtr
  position_ne_nil : position ≠ []
deriving DecidableEq

/-- The transaction a lane iterator is at. -/
def LaneIter.top {L : Nat} (it : LaneIter L) : TxPtr := it.position.head it.position_ne_nil

namespace SurgePricingPriorityQueue

variable {L n : Nat}

/-- `GENERIC_LANE`. -/
def genericLane [NeZero L] : Fin L := 0

/-- The constructor, with empty sets and zero counts. -/
def make (isHighestPriority : Bool) (settings : LaneConfig L n) (comparisonSeed : Nat) :
    SurgePricingPriorityQueue L n :=
  ⟨⟨isHighestPriority, comparisonSeed⟩, settings, fun _ => 0, fun _ => []⟩

/-- `mLaneLimits`. -/
def mLaneLimits (q : SurgePricingPriorityQueue L n) : Fin L → Resource n :=
  q.mLaneConfig.getLaneLimits

/-- The number of queued transactions. -/
def size (q : SurgePricingPriorityQueue L n) : Nat :=
  ((List.finRange L).map fun lane => (q.mTxSortedSets lane).length).sum

/-- `add`: the lane's count grows only when the set takes the transaction. -/
def add (q : SurgePricingPriorityQueue L n) (tx : TxPtr) :
    Except String (SurgePricingPriorityQueue L n) :=
  let lane := q.mLaneConfig.getLane tx
  let inserted := OrderedSet.insert q.mComparator.call tx (q.mTxSortedSets lane)
  if inserted.2 then do
    let count ← (q.mLaneCurrentCount lane).addAssign (q.mLaneConfig.getTxResources tx)
    pure { q with
      mLaneCurrentCount := Function.update q.mLaneCurrentCount lane count
      mTxSortedSets := Function.update q.mTxSortedSets lane inserted.1 }
  else pure q

/-- `erase (lane, iter)`, for the transaction `tx` the iterator is at. -/
def eraseAt (q : SurgePricingPriorityQueue L n) (lane : Fin L) (tx : TxPtr) :
    Except String (SurgePricingPriorityQueue L n) := do
  let res := q.mLaneConfig.getTxResources tx
  if res ≤ q.mLaneCurrentCount lane then
    let count ← (q.mLaneCurrentCount lane).subAssign res
    pure { q with
      mLaneCurrentCount := Function.update q.mLaneCurrentCount lane count
      mTxSortedSets := Function.update q.mTxSortedSets lane ((q.mTxSortedSets lane).erase tx) }
  else throw "res <= mLaneCurrentCount[lane]"

/-- `erase (tx)`: the set's `find` looks for an equivalent transaction. -/
def erase (q : SurgePricingPriorityQueue L n) (tx : TxPtr) :
    Except String (SurgePricingPriorityQueue L n) :=
  let lane := q.mLaneConfig.getLane tx
  match OrderedSet.find q.mComparator.call tx (q.mTxSortedSets lane) with
  | some found => q.eraseAt lane found
  | none => pure q

/-- `erase (Iterator)`. -/
def eraseIter (q : SurgePricingPriorityQueue L n) (it : LaneIter L) :
    Except String (SurgePricingPriorityQueue L n) :=
  q.eraseAt it.lane it.top

/-- `getTop`: an iterator at the start of every lane that holds a transaction. -/
def getTop (q : SurgePricingPriorityQueue L n) : List (LaneIter L) :=
  (List.finRange L).filterMap fun lane =>
    if nonempty : q.mTxSortedSets lane ≠ [] then some ⟨lane, q.mTxSortedSets lane, nonempty⟩
    else none

/-- `totalResources`: `std::accumulate` of the lane counts through `operator+`. -/
def totalResources (q : SurgePricingPriorityQueue L n) : Except String (Resource n) :=
  (List.finRange L).foldlM (fun res lane => res.addAssign (q.mLaneCurrentCount lane)) 0

/-- `laneResources`. -/
def laneResources (q : SurgePricingPriorityQueue L n) (lane : Fin L) : Resource n :=
  q.mLaneCurrentCount lane

end SurgePricingPriorityQueue

namespace Iterator

variable {L : Nat}

/-- `getMutableInnerIter`: the lane iterator whose transaction the comparator puts first,
`none` at the end. -/
def getMutableInnerIter (comparator : TxComparator) (mIters : List (LaneIter L)) :
    Option (LaneIter L) :=
  ArgMax.scan (fun best it => comparator.call it.top best.top) none mIters

/-- `dropLane`. -/
def dropLane (comparator : TxComparator) (mIters : List (LaneIter L)) : List (LaneIter L) :=
  match getMutableInnerIter comparator mIters with
  | some best => mIters.erase best
  | none => mIters

/-- `advance`: the top lane's iterator moves to the lane's next transaction, and leaves the
iterator at the lane's end. -/
def advance (comparator : TxComparator) (mIters : List (LaneIter L)) :
    Except String (List (LaneIter L)) :=
  match getMutableInnerIter comparator mIters with
  | none => throw "!isEnd()"
  | some best =>
      if next : best.position.tail ≠ [] then
        pure (mIters.map fun it => if it = best then ⟨best.lane, best.position.tail, next⟩ else it)
      else pure (mIters.erase best)

end Iterator

namespace SurgePricingPriorityQueue

variable {L n : Nat} [NeZero L]

/-- Where the inner loop of `popTopTxs` ends: on a transaction to erase as a gap, on one to
visit, or with nothing to pop. -/
inductive TopSearch (L : Nat) where
  | gap (it : LaneIter L)
  | found (it : LaneIter L)
  | stop

/-- The inner loop of `popTopTxs`: without gaps, a limited lane whose top does not fit its own
limit is dropped and the search goes on. -/
def findTop (q : SurgePricingPriorityQueue L n) (allowGaps : Bool)
    (laneLeftUntilLimit : Fin L → Resource n) : Nat → List (LaneIter L) → TopSearch L
  | 0, _ => .stop
  | fuel + 1, currIt =>
      match Iterator.getMutableInnerIter q.mComparator currIt with
      | none => .stop
      | some best =>
          let curr := q.mLaneConfig.getTxResources best.top
          let lane := q.mLaneConfig.getLane best.top
          if (curr.anyGreater (laneLeftUntilLimit lane) ||
              curr.anyGreater (laneLeftUntilLimit genericLane)) then
            if allowGaps then .gap best
            else if (lane != genericLane && curr.anyGreater (laneLeftUntilLimit lane)) then
              findTop q allowGaps laneLeftUntilLimit fuel (Iterator.dropLane q.mComparator currIt)
            else .stop
          else .found best

/-- The state `popTopTxs` works on: the queue, its two output vectors, and the transactions it
has handed to the visitor. -/
structure PopTopTxsState (L n : Nat) where
  queue : SurgePricingPriorityQueue L n
  laneLeftUntilLimit : Fin L → Resource n
  hadTxNotFittingLane : Fin L → Bool
  visited : List TxPtr

/-- The flag `popTopTxs` raises for a transaction it skips: its own lane's when it does not fit
that lane, the generic lane's otherwise. -/
def markNotFitting (config : LaneConfig L n) (laneLeftUntilLimit : Fin L → Resource n)
    (hadTxNotFittingLane : Fin L → Bool) (tx : TxPtr) : Fin L → Bool :=
  let lane := config.getLane tx
  if (config.getTxResources tx).anyGreater (laneLeftUntilLimit lane) then
    Function.update hadTxNotFittingLane lane true
  else Function.update hadTxNotFittingLane genericLane true

/-- What `popTopTxs` books for a visited transaction: a processed one takes its resources from
what is left of the generic lane and of its own lane, a rejected one marks both lanes. -/
def bookVisit (config : LaneConfig L n) (laneLeftUntilLimit : Fin L → Resource n)
    (hadTxNotFittingLane : Fin L → Bool) (tx : TxPtr) :
    VisitTxResult → Except String ((Fin L → Resource n) × (Fin L → Bool))
  | .processed => do
      let res := config.getTxResources tx
      let lane := config.getLane tx
      let generic ← (laneLeftUntilLimit genericLane).subAssign res
      let left := Function.update laneLeftUntilLimit genericLane generic
      if lane ≠ genericLane then
        let own ← (left lane).subAssign res
        pure (Function.update left lane own, hadTxNotFittingLane)
      else pure (left, hadTxNotFittingLane)
  | .rejected =>
      pure (laneLeftUntilLimit, Function.update (Function.update hadTxNotFittingLane genericLane
        true) (config.getLane tx) true)
  | .skipped => pure (laneLeftUntilLimit, hadTxNotFittingLane)

/-- The outer loop of `popTopTxs`, one pass per erased transaction. -/
def popTopTxsLoop (allowGaps : Bool) (visitor : TxPtr → VisitTxResult) :
    Nat → PopTopTxsState L n → Except String (PopTopTxsState L n)
  | 0, _ => throw "fuel"
  | fuel + 1, s =>
      let currIt := s.queue.getTop
      match s.queue.findTop allowGaps s.laneLeftUntilLimit currIt.length currIt with
      | .gap it => do
          let queue ← s.queue.eraseIter it
          popTopTxsLoop allowGaps visitor fuel { s with
            queue
            hadTxNotFittingLane := markNotFitting s.queue.mLaneConfig s.laneLeftUntilLimit
              s.hadTxNotFittingLane it.top }
      | .stop => pure s
      | .found it => do
          let booked ← bookVisit s.queue.mLaneConfig s.laneLeftUntilLimit s.hadTxNotFittingLane
            it.top (visitor it.top)
          let queue ← s.queue.eraseIter it
          popTopTxsLoop allowGaps visitor fuel
            ⟨queue, booked.1, booked.2, s.visited ++ [it.top]⟩

/-- `popTopTxs`, from the lane limits and no flag raised. -/
def popTopTxs (q : SurgePricingPriorityQueue L n) (allowGaps : Bool)
    (visitor : TxPtr → VisitTxResult) : Except String (PopTopTxsState L n) :=
  popTopTxsLoop allowGaps visitor (q.size + 1) ⟨q, q.mLaneLimits, fun _ => false, []⟩

/-- `getMostTopTxsWithinLimits`: the transactions it keeps, and `hadTxNotFittingLane`. -/
def getMostTopTxsWithinLimits (txs : List TxPtr) (laneConfig : LaneConfig L n) (seed : Nat) :
    Except String (List TxPtr × (Fin L → Bool)) := do
  let queue ← txs.foldlM add (make true laneConfig seed)
  let popped ← queue.popTopTxs true fun _ => .processed
  pure (popped.visited, popped.hadTxNotFittingLane)

/-- `visitTopTxs`. -/
def visitTopTxs (q : SurgePricingPriorityQueue L n) (txs : List TxPtr)
    (visitor : TxPtr → VisitTxResult) : Except String (PopTopTxsState L n) := do
  let queue ← txs.foldlM add q
  queue.popTopTxs false visitor

/-- What `canFitWithEviction` has to make room for: the transaction's resources, less the
discount in every dimension where the discount is smaller. -/
def txNewResources (q : SurgePricingPriorityQueue L n) (tx : TxPtr)
    (txDiscount : Option (Resource n)) : Resource n :=
  match txDiscount with
  | some discount => Resource.subtractNonNegative (q.mLaneConfig.getTxResources tx) discount
  | none => q.mLaneConfig.getTxResources tx

/-- The inner loop of `canFitWithEviction`: for a transaction of a limited lane that needs no
more room overall than in its own lane, the cheapest transaction of another lane cannot be
evicted, and that lane is dropped; the flag records that eviction reached the lane limit. -/
def findEvictable (q : SurgePricingPriorityQueue L n) (lane : Fin L)
    (neededTotal neededLane : Resource n) :
    Nat → List (LaneIter L) → Bool → List (LaneIter L) × Bool
  | 0, iter, evictedDueToLaneLimit => (iter, evictedDueToLaneLimit)
  | fuel + 1, iter, evictedDueToLaneLimit =>
      match Iterator.getMutableInnerIter q.mComparator iter with
      | none => (iter, evictedDueToLaneLimit)
      | some best =>
          if (lane == genericLane || lane == q.mLaneConfig.getLane best.top ||
              neededTotal.anyGreater neededLane) then (iter, evictedDueToLaneLimit)
          else findEvictable q lane neededTotal neededLane fuel
            (Iterator.dropLane q.mComparator iter) true

/-- The outer loop of `canFitWithEviction`, one pass per evicted transaction: the cheapest
transaction the inner loop leaves is evicted when it bids a lower fee rate than the new one and
comes from another account, and pays the deficits down. -/
def evictLoop (q : SurgePricingPriorityQueue L n) (tx : TxPtr) (lane : Fin L) :
    Nat → List (LaneIter L) → Resource n → Resource n → List (TxPtr × Bool) →
      Except String ((Bool × Int) × List (TxPtr × Bool))
  | 0, _, _, _, _ => throw "fuel"
  | fuel + 1, iter, neededTotal, neededLane, txsToEvict =>
      if (neededTotal.anyPositive || neededLane.anyPositive) then
        let found := q.findEvictable lane neededTotal neededLane iter.length iter false
        match Iterator.getMutableInnerIter q.mComparator found.1 with
        | none => throw "!iter.isEnd()"
        | some best => do
            let evictTx := best.top
            let evict := q.mLaneConfig.getTxResources evictTx
            let evictLane := q.mLaneConfig.getLane evictTx
            let lower ← q.mComparator.compareFeeOnly evictTx.inclusionFee evictTx.numOperations
              tx.inclusionFee tx.numOperations
            if !lower then
              let minFee ← computeBetterFee tx evictTx.inclusionFee evictTx.numOperations
              pure ((false, minFee + (tx.fullFee - tx.inclusionFee)), txsToEvict)
            else if tx.sourceID = evictTx.sourceID then pure ((false, 0), txsToEvict)
            else
              let txsToEvict := txsToEvict ++ [(evictTx, found.2)]
              let neededTotal := Resource.subtractNonNegative neededTotal evict
              -- only a transaction that counts against the lane's limit pays the lane's deficit
              let neededLane := if (lane == genericLane || lane == evictLane) then
                Resource.subtractNonNegative neededLane evict else neededLane
              if (!neededTotal.anyPositive && !neededLane.anyPositive) then
                pure ((true, 0), txsToEvict)
              else do
                let iter ← Iterator.advance q.mComparator found.1
                evictLoop q tx lane fuel iter neededTotal neededLane txsToEvict
      else throw "false"

/-- `canFitWithEviction`: the pair the source returns (whether the transaction fits once the
returned transactions are evicted, or else the fee it would need), with the transactions it
appends to `txsToEvict` and their `evictedDueToLaneLimit` flags. -/
def canFitWithEviction (q : SurgePricingPriorityQueue L n) (tx : TxPtr)
    (txDiscount : Option (Resource n)) : Except String ((Bool × Int) × List (TxPtr × Bool)) :=
  if q.mComparator.mIsGreater then throw "!mComparator.isGreater()"
  else
    let lane := q.mLaneConfig.getLane tx
    let txNewResources := q.txNewResources tx txDiscount
    if (txNewResources.anyGreater (q.mLaneLimits genericLane) ||
        txNewResources.anyGreater (q.mLaneLimits lane)) then pure ((false, 0), [])
    else do
      let total ← q.totalResources
      if (!total.canAdd txNewResources || !(q.mLaneCurrentCount lane).canAdd txNewResources) then
        pure ((false, 0), [])
      else do
        let newTotalResources ← total.addAssign txNewResources
        let newLaneResources ← (q.mLaneCurrentCount lane).addAssign txNewResources
        if ¬ q.mLaneCurrentCount lane ≤ total then throw "mLaneCurrentCount[lane] <= total"
        else if ¬ q.mLaneLimits lane ≤ q.mLaneLimits genericLane then
          throw "mLaneLimits[lane] <= mLaneLimits[GENERIC_LANE]"
        else if newTotalResources ≤ q.mLaneLimits genericLane ∧
            newLaneResources ≤ q.mLaneLimits lane then pure ((true, 0), [])
        else
          let neededTotal :=
            Resource.subtractNonNegative newTotalResources (q.mLaneLimits genericLane)
          let neededLane := Resource.subtractNonNegative newLaneResources (q.mLaneLimits lane)
          if !(neededTotal.anyPositive || neededLane.anyPositive) then
            throw "neededTotal.anyPositive() || neededLane.anyPositive()"
          else q.evictLoop tx lane (q.size + 1) q.getTop neededTotal neededLane []

end SurgePricingPriorityQueue

/-! ## What `add` and `erase` do to a lane -/

namespace SurgePricingPriorityQueue

variable {L n : Nat} {q q' : SurgePricingPriorityQueue L n} {tx : TxPtr} {lane : Fin L}

/-- The queue with one lane's count and set replaced, as `add` and `erase` leave it. -/
def setLane (q : SurgePricingPriorityQueue L n) (lane : Fin L) (count : Resource n)
    (set : List TxPtr) : SurgePricingPriorityQueue L n :=
  { q with
    mLaneCurrentCount := Function.update q.mLaneCurrentCount lane count
    mTxSortedSets := Function.update q.mTxSortedSets lane set }

@[simp] theorem setLane_mComparator (count : Resource n) (set : List TxPtr) :
    (q.setLane lane count set).mComparator = q.mComparator := rfl

@[simp] theorem setLane_mLaneConfig (count : Resource n) (set : List TxPtr) :
    (q.setLane lane count set).mLaneConfig = q.mLaneConfig := rfl

@[simp] theorem setLane_mLaneCurrentCount (count : Resource n) (set : List TxPtr) :
    (q.setLane lane count set).mLaneCurrentCount =
      Function.update q.mLaneCurrentCount lane count := rfl

@[simp] theorem setLane_mTxSortedSets (count : Resource n) (set : List TxPtr) :
    (q.setLane lane count set).mTxSortedSets = Function.update q.mTxSortedSets lane set := rfl

/-- `add` inserts the transaction into its lane's set and counts its resources, or leaves the
queue as it is when the set holds an equivalent transaction. -/
theorem add_eq_ok (added : q.add tx = .ok q') :
    let lane := q.mLaneConfig.getLane tx
    let inserted := OrderedSet.insert q.mComparator.call tx (q.mTxSortedSets lane)
    inserted.2 = true ∧
        q.mLaneCurrentCount lane + q.mLaneConfig.getTxResources tx ≤ Resource.int64Limit ∧
        q' = q.setLane lane (q.mLaneCurrentCount lane + q.mLaneConfig.getTxResources tx)
          inserted.1 ∨
      inserted.2 = false ∧ q' = q := by
  intro lane inserted
  unfold add at added
  dsimp only at added
  split at added
  · next isInserted =>
      obtain ⟨count, counted, stored⟩ := Except.bind_eq_ok_iff.1 added
      obtain ⟨fits, rfl⟩ := Resource.addAssign_eq_ok_iff.1 counted
      cases stored
      exact .inl ⟨isInserted, fits, rfl⟩
  · next kept =>
      cases added
      exact .inr ⟨by simpa using kept, rfl⟩

/-- `erase` at a lane takes the transaction's resources from the lane's count, which must cover
them, and the transaction from the lane's set. -/
theorem eraseAt_eq_ok_iff : q.eraseAt lane tx = .ok q' ↔
    q.mLaneConfig.getTxResources tx ≤ q.mLaneCurrentCount lane ∧
      q' = q.setLane lane (q.mLaneCurrentCount lane - q.mLaneConfig.getTxResources tx)
        ((q.mTxSortedSets lane).erase tx) := by
  unfold eraseAt
  dsimp only
  split
  · next covered =>
      rw [Resource.subAssign_eq_ok covered, Except.ok_bind, Except.pure_eq_ok, Except.ok.injEq]
      exact ⟨fun stored => ⟨covered, stored.symm⟩, fun ⟨_, stored⟩ => stored.symm⟩
  · next uncovered => simp [uncovered]

end SurgePricingPriorityQueue

/-! ## What the iterators and the loops can return -/

namespace SurgePricingPriorityQueue

variable {L n : Nat} {q : SurgePricingPriorityQueue L n}

/-- `getTop` has one iterator per lane with transactions, at the start of the lane's set. -/
theorem mem_getTop {it : LaneIter L} : it ∈ q.getTop ↔ it.position = q.mTxSortedSets it.lane := by
  obtain ⟨lane, position, nonempty⟩ := it
  simp only [getTop, List.mem_filterMap, List.mem_finRange, true_and]
  constructor
  · rintro ⟨other, found⟩
    split at found
    · cases found
      rfl
    · cases found
  · intro atStart
    subst atStart
    exact ⟨lane, dif_pos nonempty⟩

theorem nodup_getTop : q.getTop.Nodup := by
  refine List.Nodup.filterMap ?_ (List.nodup_finRange L)
  intro lane other it found found'
  simp only [Option.mem_def] at found found'
  split at found
  · split at found'
    · cases found
      cases found'
      rfl
    · cases found'
  · cases found

theorem eq_of_mem_getTop {it it' : LaneIter L} (member : it ∈ q.getTop) (member' : it' ∈ q.getTop)
    (sameLane : it.lane = it'.lane) : it = it' := by
  obtain ⟨lane, position, _⟩ := it
  obtain ⟨lane', position', _⟩ := it'
  have atStart := mem_getTop.1 member
  have atStart' := mem_getTop.1 member'
  simp only at sameLane atStart atStart'
  subst sameLane atStart atStart'
  rfl

end SurgePricingPriorityQueue

namespace Iterator

variable {L : Nat} {comparator : TxComparator} {mIters : List (LaneIter L)}

theorem getMutableInnerIter_mem {best : LaneIter L}
    (found : getMutableInnerIter comparator mIters = some best) : best ∈ mIters :=
  ArgMax.mem_of_scan_none found

theorem getMutableInnerIter_eq_none_iff : getMutableInnerIter comparator mIters = none ↔ mIters = [] := by
  cases mIters with
  | nil => simp [getMutableInnerIter]
  | cons first rest =>
      obtain ⟨best, found⟩ : ∃ best, ArgMax.scan (fun best it => comparator.call it.top best.top)
          (some first) rest = some best := ArgMax.scan_some_isSome first rest
      simp [getMutableInnerIter, found]

theorem dropLane_sublist : (dropLane comparator mIters).Sublist mIters := by
  unfold dropLane
  split
  · exact List.erase_sublist
  · exact List.Sublist.refl _

end Iterator

namespace SurgePricingPriorityQueue

variable {L n : Nat} [NeZero L] {q : SurgePricingPriorityQueue L n} {allowGaps : Bool}
  {laneLeftUntilLimit : Fin L → Resource n}

theorem findTop_zero (currIt : List (LaneIter L)) :
    q.findTop allowGaps laneLeftUntilLimit 0 currIt = .stop := rfl

theorem findTop_succ (fuel : Nat) (currIt : List (LaneIter L)) :
    q.findTop allowGaps laneLeftUntilLimit (fuel + 1) currIt =
      match Iterator.getMutableInnerIter q.mComparator currIt with
      | none => .stop
      | some best =>
          let curr := q.mLaneConfig.getTxResources best.top
          let lane := q.mLaneConfig.getLane best.top
          if (curr.anyGreater (laneLeftUntilLimit lane) ||
              curr.anyGreater (laneLeftUntilLimit genericLane)) then
            if allowGaps then .gap best
            else if (lane != genericLane && curr.anyGreater (laneLeftUntilLimit lane)) then
              q.findTop allowGaps laneLeftUntilLimit fuel (Iterator.dropLane q.mComparator currIt)
            else .stop
          else .found best := rfl

/-- The inner loop of `popTopTxs` ends on one of the iterators it started with. -/
theorem findTop_mem {it : LaneIter L} :
    ∀ {fuel : Nat} {currIt : List (LaneIter L)},
      (q.findTop allowGaps laneLeftUntilLimit fuel currIt = .found it ∨
        q.findTop allowGaps laneLeftUntilLimit fuel currIt = .gap it) → it ∈ currIt
  | 0, _, ended => by simp [findTop_zero] at ended
  | fuel + 1, currIt, ended => by
      rw [findTop_succ] at ended
      split at ended
      · simp at ended
      · next best found =>
          have member := Iterator.getMutableInnerIter_mem found
          dsimp only at ended
          split at ended
          · split at ended
            · simp only [reduceCtorEq, TopSearch.gap.injEq, false_or] at ended
              exact ended ▸ member
            · split at ended
              · exact List.Sublist.subset Iterator.dropLane_sublist (findTop_mem ended)
              · simp at ended
          · simp only [TopSearch.found.injEq, reduceCtorEq, or_false] at ended
            exact ended ▸ member

/-- Without gaps the inner loop never erases a transaction. -/
theorem findTop_ne_gap {it : LaneIter L} :
    ∀ {fuel : Nat} {currIt : List (LaneIter L)},
      q.findTop false laneLeftUntilLimit fuel currIt ≠ .gap it
  | 0, _ => by simp [findTop_zero]
  | fuel + 1, currIt => by
      rw [findTop_succ]
      split
      · simp
      · dsimp only
        split
        · rw [if_neg Bool.false_ne_true]
          split
          · exact findTop_ne_gap
          · simp
        · simp

/-- The inner loop of `popTopTxs` visits only a transaction that fits its own lane and the
generic lane. -/
theorem findTop_found_fits {it : LaneIter L} :
    ∀ {fuel : Nat} {currIt : List (LaneIter L)},
      q.findTop allowGaps laneLeftUntilLimit fuel currIt = .found it →
      ((q.mLaneConfig.getTxResources it.top).anyGreater
          (laneLeftUntilLimit (q.mLaneConfig.getLane it.top)) ||
        (q.mLaneConfig.getTxResources it.top).anyGreater (laneLeftUntilLimit genericLane)) = false
  | 0, _, found => by simp [findTop_zero] at found
  | fuel + 1, currIt, found => by
      rw [findTop_succ] at found
      split at found
      · simp at found
      · dsimp only at found
        split at found
        · split at found
          · simp at found
          · split at found
            · exact findTop_found_fits found
            · simp at found
        · next fits =>
            simp only [TopSearch.found.injEq] at found
            subst found
            simpa using fits

/-- With gaps allowed the inner loop ends on the best iterator: erased when it does not fit. -/
theorem findTop_of_allowGaps {fuel : Nat} {currIt : List (LaneIter L)} {best : LaneIter L}
    (found : Iterator.getMutableInnerIter q.mComparator currIt = some best) :
    q.findTop true laneLeftUntilLimit (fuel + 1) currIt =
      if ((q.mLaneConfig.getTxResources best.top).anyGreater
            (laneLeftUntilLimit (q.mLaneConfig.getLane best.top)) ||
          (q.mLaneConfig.getTxResources best.top).anyGreater (laneLeftUntilLimit genericLane))
      then .gap best else .found best := by
  simp only [findTop_succ, found, if_true]

end SurgePricingPriorityQueue

end StellarCore.Herder
