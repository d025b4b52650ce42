import Mathlib
import StellarCore.Herder.SurgePricingQueueSpec
import StellarCore.Herder.TxQueueLimiter
import StellarCore.Lib.Deficit

/-!
# Eviction from the lowest-fee-first queue

`TxQueueLimiter` keeps its transactions in a queue with the lowest fee rate on top, built by
`add` and `erase`. On such a queue the lane counts are the sums of the lanes' sets, so the
transactions an eviction iterator has still to visit cover what `canFitWithEviction` needs to
free: all of them the deficit against the generic limit, those of the new transaction's lane
the deficit against its lane's limit. The inner loop drops a lane only while the generic
deficit is no larger than the lane's, which keeps both covered, and every eviction pays both
down by what the evicted transaction frees. The loop therefore never runs out of transactions,
and when it answers that the new transaction fits, the transactions it returns free enough:
`evictTransactions` then never fails its assertion.
-/

set_option autoImplicit false

namespace StellarCore.Herder

namespace TxComparator

variable (c : TxComparator) (a b : TxPtr)

theorem txLessThan_self : c.txLessThan a a = false := by
  simp [txLessThan, feeRate3WayCompare_eq]

theorem compareFeeOnly_eq :
    c.compareFeeOnly a.inclusionFee a.numOperations b.inclusionFee b.numOperations =
      .ok ((feeRate3WayCompare a.inclusionFee a.numOperations b.inclusionFee b.numOperations ==
        .ok .lt) ^^ c.mIsGreater) := by
  simp [compareFeeOnly, feeRate3WayCompare_eq]

end TxComparator

/-! ## The fee that beats a bid -/

/-- `computeBetterFee` is the least inclusion fee whose rate over the transaction's operations
beats the reference bid, or `INT64_MAX` when that does not fit. -/
theorem computeBetterFee_eq_min (tx : TxPtr) {refFeeBid : Int} {refNbOps : Nat}
    (nonneg : 0 ≤ refFeeBid) (positive : 0 < refNbOps) :
    ∃ least, IsLeast {x : Int | refFeeBid * tx.numOperations < x * refNbOps} least ∧
      computeBetterFee tx refFeeBid refNbOps = .ok (min least int64Max) := by
  have positive' : (0 : Int) < refNbOps := Int.natCast_pos.mpr positive
  obtain ⟨v, divided, -, below, above⟩ :=
    bigDivide_roundDown_bracket nonneg (Int.natCast_nonneg tx.numOperations) positive'
  refine ⟨v + 1, ⟨above, fun x beats => ?_⟩, ?_⟩
  · -- a fee of at most `v` bids no more than the reference
    by_contra notAbove
    have atMost : x * refNbOps ≤ v * refNbOps :=
      Int.mul_le_mul_of_nonneg_right (by omega) positive'.le
    exact absurd (lt_of_lt_of_le beats (atMost.trans below)) (lt_irrefl _)
  · rw [computeBetterFee, divided, Except.ok_bind]
    by_cases fits : v ≤ int64Max
    · rw [if_pos fits]
      simp only [Except.pure_eq_ok, Except.ok.injEq]
      split <;> omega
    · rw [if_neg fits]
      simp only [Except.pure_eq_ok, Except.ok.injEq]
      omega

/-! ## The queues the limiter keeps -/

namespace SurgePricingPriorityQueue

variable {L n : Nat} {q q' : SurgePricingPriorityQueue L n} {config : LaneConfig L n} {seed : Nat}
  {held : List TxPtr} {tx : TxPtr}

/-- The transactions the queue holds, lane by lane. -/
def queued (q : SurgePricingPriorityQueue L n) : List TxPtr :=
  (List.finRange L).flatMap q.mTxSortedSets

/-- The queues `TxQueueLimiter` keeps: the lowest fee rate on top, built by `add` and `erase`.
`std::set` needs its comparator to be a strict weak order on what it holds, so an added
transaction has an operation, and its address, the pointer, identifies it among the queued
ones. -/
inductive Reachable (config : LaneConfig L n) (seed : Nat) : SurgePricingPriorityQueue L n → Prop
  | make : Reachable config seed (make false config seed)
  | add {q q' : SurgePricingPriorityQueue L n} {tx : TxPtr} : Reachable config seed q →
      0 < tx.numOperations → (∀ b ∈ queued q, b.address = tx.address → b = tx) →
      q.add tx = .ok q' → Reachable config seed q'
  | erase {q q' : SurgePricingPriorityQueue L n} {tx : TxPtr} : Reachable config seed q →
      q.erase tx = .ok q' → Reachable config seed q'

/-- What a reachable queue keeps: the comparator and the configuration it was made with, and
sorted sets of transactions the comparator orders strictly, with their counts. -/
structure Queued (q : SurgePricingPriorityQueue L n) (config : LaneConfig L n) (seed : Nat)
    (held : List TxPtr) : Prop where
  comparator : q.mComparator = ⟨false, seed⟩
  laneConfig : q.mLaneConfig = config
  built : q.Built held
  comparable : Comparable held

theorem Built.mem_queued (built : q.Built held) : tx ∈ queued q ↔ tx ∈ held := by
  simp only [queued, List.mem_flatMap, List.mem_finRange, true_and]
  constructor
  · intro ⟨lane, member⟩
    exact List.mem_of_mem_filter ((built.perm lane).subset member)
  · intro member
    exact ⟨_, (built.perm (q.mLaneConfig.getLane tx)).symm.subset
      (List.mem_filter.mpr ⟨member, by simp⟩)⟩

theorem Built.mem_set (built : q.Built held) (member : tx ∈ held) :
    tx ∈ q.mTxSortedSets (q.mLaneConfig.getLane tx) :=
  (built.perm (q.mLaneConfig.getLane tx)).symm.subset (List.mem_filter.mpr ⟨member, by simp⟩)

theorem Built.lane_of_mem {lane : Fin L} (built : q.Built held)
    (member : tx ∈ q.mTxSortedSets lane) : q.mLaneConfig.getLane tx = lane := by
  simpa using (List.mem_filter.mp ((built.perm lane).subset member)).2

theorem queued_make : (make false config seed).Queued config seed [] :=
  ⟨rfl, rfl, built_make false config seed, ⟨by simp, by simp⟩⟩

/-- On a queue of comparable transactions, the comparator agrees with `before` on every
transaction of a set against a queued one. -/
theorem Queued.call_eq_before (queued : q.Queued config seed held) {a b : TxPtr}
    (memA : a ∈ held) (memB : b ∈ held) : q.mComparator.call a b = q.mComparator.before a b := by
  by_cases same : a = b
  · subst same
    rw [TxComparator.call, TxComparator.txLessThan_self, q.mComparator.before_order.irrefl,
      queued.comparator]
    rfl
  · exact queued.comparable.call_eq_before _ memA memB same

/-- `add` keeps a queue of comparable transactions: it inserts a new transaction, and leaves
the queue as it is when the transaction is already there. -/
theorem Queued.add (queued : q.Queued config seed held) (withOps : 0 < tx.numOperations)
    (pointer : ∀ b ∈ held, b.address = tx.address → b = tx) (added : q.add tx = .ok q') :
    ∃ held', q'.Queued config seed held' := by
  by_cases old : tx ∈ held
  · -- the set holds the transaction, so `insert` meets it and keeps the set
    have agree : OrderedSet.insert q.mComparator.call tx
        (q.mTxSortedSets (q.mLaneConfig.getLane tx)) = OrderedSet.insert q.mComparator.before tx
        (q.mTxSortedSets (q.mLaneConfig.getLane tx)) := by
      refine OrderedSet.insert_congr fun b member => ?_
      have inHeld := List.mem_of_mem_filter ((queued.built.perm _).subset member)
      exact ⟨queued.call_eq_before old inHeld, queued.call_eq_before inHeld old⟩
    have kept := OrderedSet.insert_of_mem q.mComparator.before_order (queued.built.sorted _)
      (queued.built.mem_set old)
    rcases add_eq_ok added with ⟨inserted, -, -⟩ | ⟨-, rfl⟩
    · rw [agree, kept] at inserted
      cases inserted
    · exact ⟨held, queued⟩
  · have comparable' : Comparable (held ++ [tx]) := by
      refine ⟨fun t member => ?_, ?_⟩
      · rcases List.mem_append.mp member with inHeld | isTx
        · exact queued.comparable.withOps t inHeld
        · rw [List.mem_singleton.mp isTx]
          exact withOps
      · rw [List.map_append, List.nodup_append]
        refine ⟨queued.comparable.addresses, List.nodup_singleton _, fun a memA b memB same => ?_⟩
        obtain ⟨t, inHeld, rfl⟩ := List.mem_map.mp memA
        rw [List.map_singleton, List.mem_singleton] at memB
        exact old (pointer t inHeld (same.trans memB) ▸ inHeld)
    obtain ⟨inserted, built'⟩ := queued.built.insert comparable'
    rcases add_eq_ok added with ⟨-, -, rfl⟩ | ⟨kept, -⟩
    · exact ⟨held ++ [tx], queued.comparator, queued.laneConfig, built', comparable'⟩
    · rw [inserted] at kept
      cases kept

/-- `erase` keeps a queue of comparable transactions, whatever it is asked to erase: it
erases the equivalent transaction it finds, if any. -/
theorem Queued.erase (queued : q.Queued config seed held) (erased : q.erase tx = .ok q') :
    ∃ held', q'.Queued config seed held' := by
  obtain ⟨comparator, laneConfig, built, comparable⟩ := queued
  unfold SurgePricingPriorityQueue.erase at erased
  dsimp only at erased
  split at erased
  · next found isFound =>
      obtain ⟨member, -, -⟩ := OrderedSet.find_eq_some isFound
      obtain ⟨q'', erasedAt, built', sameComparator, sameConfig⟩ := built.eraseAt member
      rw [erasedAt] at erased
      cases erased
      exact ⟨held.erase found, sameComparator.trans comparator, sameConfig.trans laneConfig, built',
        comparable.sublist List.erase_sublist⟩
  · cases erased
    exact ⟨held, comparator, laneConfig, built, comparable⟩

/-- Erasing a queued transaction erases that transaction: the comparator orders it against
every other one of its set. -/
theorem Queued.erase_self (queued : q.Queued config seed held) (member : tx ∈ held) :
    ∃ q', q.erase tx = .ok q' ∧ q'.Queued config seed (held.erase tx) := by
  have inSet := queued.built.mem_set member
  have irrefl : q.mComparator.call tx tx = false := by
    rw [queued.call_eq_before member member]
    exact q.mComparator.before_order.irrefl tx
  have found : OrderedSet.find q.mComparator.call tx
      (q.mTxSortedSets (q.mLaneConfig.getLane tx)) = some tx := by
    refine OrderedSet.find_eq_self irrefl inSet fun b memB differ => ?_
    have inHeld := List.mem_of_mem_filter ((queued.built.perm _).subset memB)
    rw [queued.call_eq_before inHeld member, queued.call_eq_before member inHeld]
    exact queued.comparable.before_total _ inHeld member differ
  obtain ⟨q', erasedAt, built', sameComparator, sameConfig⟩ := queued.built.eraseAt inSet
  refine ⟨q', ?_, sameComparator.trans queued.comparator, sameConfig.trans queued.laneConfig,
    built', queued.comparable.sublist List.erase_sublist⟩
  simp only [SurgePricingPriorityQueue.erase, found]
  exact erasedAt

/-- Every reachable queue keeps its invariant. -/
theorem Reachable.queued (reachable : Reachable config seed q) :
    ∃ held, q.Queued config seed held := by
  induction reachable with
  | make => exact ⟨[], queued_make⟩
  | add _ withOps pointer added ih =>
      obtain ⟨held, queued⟩ := ih
      exact queued.add withOps (fun b member => pointer b (queued.built.mem_queued.mpr member))
        added
  | erase _ erased ih =>
      obtain ⟨held, queued⟩ := ih
      exact queued.erase erased

/-! ## The totals of a built queue -/

theorem sum_filter_lanes {M : Type} [AddCommMonoid M] (lane : TxPtr → Fin L) (f : TxPtr → M)
    (txs : List TxPtr) :
    ((List.finRange L).map fun l => ((txs.filter fun tx => lane tx = l).map f).sum).sum =
      (txs.map f).sum := by
  induction txs with
  | nil => simp
  | cons t rest ih =>
      have split : ∀ l, (((t :: rest).filter fun tx => lane tx = l).map f).sum =
          ((rest.filter fun tx => lane tx = l).map f).sum + if lane t = l then f t else 0 := by
        intro l
        by_cases same : lane t = l <;> simp [same, add_comm]
      simp only [split, List.sum_map_add, ih, List.map_cons, List.sum_cons]
      rw [← Fin.sum_univ_def]
      simp [add_comm]

theorem Built.count_eq (built : q.Built held) (lane : Fin L) :
    q.mLaneCurrentCount lane =
      ((held.filter fun tx => q.mLaneConfig.getLane tx = lane).map q.mLaneConfig.getTxResources).sum := by
  rw [built.counts, ((built.perm lane).map _).sum_eq]

theorem Built.count_nonneg (built : q.Built held) (lane : Fin L) : 0 ≤ q.mLaneCurrentCount lane := by
  rw [built.counts]
  exact sum_nonneg_of_config _ _

theorem Built.count_le (built : q.Built held) (lane : Fin L) :
    q.mLaneCurrentCount lane ≤ (held.map q.mLaneConfig.getTxResources).sum := by
  rw [built.count_eq]
  exact sum_le_of_sublist List.filter_sublist

theorem Built.sum_counts (built : q.Built held) :
    ((List.finRange L).map q.mLaneCurrentCount).sum = (held.map q.mLaneConfig.getTxResources).sum := by
  have counts : q.mLaneCurrentCount = fun lane => ((held.filter fun tx =>
      q.mLaneConfig.getLane tx = lane).map q.mLaneConfig.getTxResources).sum := funext built.count_eq
  rw [counts]
  exact sum_filter_lanes _ _ held

theorem Built.size_eq (built : q.Built held) : q.size = held.length := by
  simp only [SurgePricingPriorityQueue.size, fun lane => (built.perm lane).length_eq]
  exact length_filter_lanes _ held

/-- A successful `totalResources` is the sum of the queued transactions' resources. -/
theorem Built.totalResources_eq {total : Resource n} (built : q.Built held)
    (summed : q.totalResources = .ok total) : total = (held.map q.mLaneConfig.getTxResources).sum := by
  rw [Resource.foldlM_addAssign_eq_ok q.mLaneCurrentCount summed, zero_add, built.sum_counts]

/-- `totalResources` succeeds when the queued transactions' resources sum within `int64_t`. -/
theorem Built.totalResources_of_le (built : q.Built held)
    (fits : (held.map q.mLaneConfig.getTxResources).sum ≤ Resource.int64Limit) :
    q.totalResources = .ok (held.map q.mLaneConfig.getTxResources).sum := by
  have sums : 0 + ((List.finRange L).map q.mLaneCurrentCount).sum =
      (held.map q.mLaneConfig.getTxResources).sum := by
    rw [zero_add, built.sum_counts]
  rw [totalResources, Resource.foldlM_addAssign_of_le _ le_rfl
    (fun lane _ => built.count_nonneg lane) (sums ▸ fits), sums]

/-- `totalResources` fails only at the assertion of `operator+=`. -/
theorem totalResources_eq_error {message : String} (failed : q.totalResources = .error message) :
    message = "canAdd(other)" :=
  Resource.foldlM_addAssign_eq_error _ failed

/-- A built queue holds what it is built from, lane by lane. -/
theorem Built.queued_perm (built : q.Built held) : (queued q).Perm held := by
  refine List.perm_iff_count.mpr fun a => ?_
  have perLane : ∀ lane, (q.mTxSortedSets lane).count a =
      if q.mLaneConfig.getLane a = lane then held.count a else 0 := by
    intro lane
    rw [(built.perm lane).count_eq]
    by_cases same : q.mLaneConfig.getLane a = lane
    · rw [if_pos same, List.count_filter (by simp [same])]
    · rw [if_neg same, List.count_eq_zero_of_not_mem (by simp [same])]
  rw [queued, List.count_flatMap]
  simp only [Function.comp_def, perLane]
  rw [← Fin.sum_univ_def]
  simp

theorem Built.nodup_set (built : q.Built held) (comparable : Comparable held) (lane : Fin L) :
    (q.mTxSortedSets lane).Nodup :=
  (built.perm lane).nodup_iff.mpr (comparable.nodup.filter _)

end SurgePricingPriorityQueue

/-! ## The eviction iterator -/

namespace Iterator

variable {L : Nat}

/-- The transactions an iterator has still to visit. -/
def remaining (iter : List (LaneIter L)) : List TxPtr := iter.flatMap LaneIter.position

theorem remaining_perm_erase {iter : List (LaneIter L)} {it : LaneIter L} (member : it ∈ iter) :
    (remaining iter).Perm (it.position ++ remaining (iter.erase it)) := by
  have split := (List.perm_cons_erase member).flatMap_right LaneIter.position
  rwa [List.flatMap_cons] at split

theorem dropLane_eq {comparator : TxComparator} {iter : List (LaneIter L)} {best : LaneIter L}
    (found : getMutableInnerIter comparator iter = some best) :
    dropLane comparator iter = iter.erase best := by
  simp [dropLane, found]

theorem position_eq (it : LaneIter L) : it.position = it.top :: it.position.tail :=
  (List.cons_head_tail it.position_ne_nil).symm

theorem advance_ok {comparator : TxComparator} {iter : List (LaneIter L)} {best : LaneIter L}
    (found : getMutableInnerIter comparator iter = some best) :
    ∃ iter', advance comparator iter = .ok iter' := by
  unfold advance
  rw [found]
  dsimp only
  split
  · exact ⟨_, rfl⟩
  · exact ⟨_, rfl⟩

end Iterator

namespace SurgePricingPriorityQueue

variable {L n : Nat} {q : SurgePricingPriorityQueue L n} {held : List TxPtr}
  {iter iter' : List (LaneIter L)}

/-- An iterator over the queue's sets: each lane at most once, at a suffix of its set. -/
structure Within (q : SurgePricingPriorityQueue L n) (iter : List (LaneIter L)) : Prop where
  suffix : ∀ it ∈ iter, it.position <:+ q.mTxSortedSets it.lane
  lanes : (iter.map LaneIter.lane).Nodup

theorem within_getTop : q.Within q.getTop where
  suffix it member := by
    rw [mem_getTop.1 member]
  lanes := List.Nodup.map_on (fun _ memX _ memY same => eq_of_mem_getTop memX memY same)
    nodup_getTop

theorem remaining_getTop : Iterator.remaining q.getTop = queued q := by
  have lanes : ∀ lanes : List (Fin L), (lanes.filterMap fun lane =>
      if nonempty : q.mTxSortedSets lane ≠ [] then
        some (⟨lane, q.mTxSortedSets lane, nonempty⟩ : LaneIter L) else none).flatMap
        LaneIter.position = lanes.flatMap q.mTxSortedSets := by
    intro lanes
    induction lanes with
    | nil => rfl
    | cons lane rest ih =>
        by_cases empty : q.mTxSortedSets lane = []
        · rw [List.filterMap_cons, dif_neg (not_not.mpr empty), List.flatMap_cons, empty,
            List.nil_append, ih]
        · rw [List.filterMap_cons, dif_pos empty, List.flatMap_cons, List.flatMap_cons, ih]
  exact lanes _

theorem Within.sublist (within : q.Within iter) (sub : iter'.Sublist iter) : q.Within iter' where
  suffix it member := within.suffix it (sub.subset member)
  lanes := (sub.map _).nodup within.lanes

/-- A transaction left in the iterator is queued, in the lane of its iterator. -/
theorem Within.mem_position (within : q.Within iter) (built : q.Built held) {it : LaneIter L}
    {t : TxPtr} (member : it ∈ iter) (inPosition : t ∈ it.position) :
    t ∈ held ∧ q.mLaneConfig.getLane t = it.lane := by
  have inSet := (within.suffix it member).subset inPosition
  exact ⟨List.mem_of_mem_filter ((built.perm it.lane).subset inSet), built.lane_of_mem inSet⟩

theorem Within.mem_remaining (within : q.Within iter) (built : q.Built held) {t : TxPtr}
    (member : t ∈ Iterator.remaining iter) : t ∈ held := by
  obtain ⟨it, inIter, inPosition⟩ := List.mem_flatMap.mp member
  exact (within.mem_position built inIter inPosition).1

/-- The iterators sit in distinct lanes, so what they have still to visit has no repetition. -/
theorem Within.nodup_remaining (within : q.Within iter) (built : q.Built held)
    (comparable : Comparable held) : (Iterator.remaining iter).Nodup := by
  refine List.nodup_flatMap.mpr ⟨fun it member => ?_, ?_⟩
  · exact (built.nodup_set comparable it.lane).sublist (within.suffix it member).sublist
  · refine (List.pairwise_map.mp within.lanes).imp_of_mem fun {a b} memA memB differ => ?_
    intro t inA inB
    exact differ ((within.mem_position built memA inA).2.symm.trans
      (within.mem_position built memB inB).2)

/-- `advance` moves past the best iterator's transaction and nothing else. -/
theorem Within.advance (within : q.Within iter) {best : LaneIter L}
    (found : Iterator.getMutableInnerIter q.mComparator iter = some best)
    (advanced : Iterator.advance q.mComparator iter = .ok iter') :
    (Iterator.remaining iter).Perm (best.top :: Iterator.remaining iter') ∧ q.Within iter' := by
  have member := Iterator.getMutableInnerIter_mem found
  have nodup : iter.Nodup := List.Nodup.of_map LaneIter.lane within.lanes
  have split := Iterator.remaining_perm_erase member
  rw [Iterator.position_eq best, List.cons_append] at split
  unfold Iterator.advance at advanced
  rw [found] at advanced
  dsimp only at advanced
  split at advanced
  · next next =>
      -- the best lane's iterator moves to the next transaction of its set
      cases advanced
      let moved : LaneIter L := ⟨best.lane, best.position.tail, next⟩
      have others : ∀ it ∈ iter.erase best, (if it = best then moved else it) = it :=
        fun it inRest => if_neg fun same => nodup.not_mem_erase (same ▸ inRest)
      have mapped : (iter.map fun it => if it = best then moved else it).Perm
          (moved :: iter.erase best) := by
        have perm := (List.perm_cons_erase member).map fun it => if it = best then moved else it
        rwa [List.map_cons, if_pos rfl, List.map_congr_left others, List.map_id'] at perm
      refine ⟨?_, ⟨fun it inMap => ?_, ?_⟩⟩
      · have remainingMapped := mapped.flatMap_right LaneIter.position
        rw [List.flatMap_cons] at remainingMapped
        exact split.trans (remainingMapped.symm.cons best.top)
      · obtain ⟨old, inIter, rfl⟩ := List.mem_map.mp inMap
        by_cases same : old = best
        · rw [if_pos same]
          exact (List.tail_suffix _).trans (same ▸ within.suffix old inIter)
        · rw [if_neg same]
          exact within.suffix old inIter
      · have sameLanes : (iter.map fun it => if it = best then moved else it).map LaneIter.lane =
            iter.map LaneIter.lane := by
          rw [List.map_map]
          refine List.map_congr_left fun it _ => ?_
          by_cases same : it = best
          · simp [same, moved]
          · simp [same]
        rw [sameLanes]
        exact within.lanes
  · next last =>
      -- the best lane's set ends after this transaction: its iterator leaves
      cases advanced
      have tail : best.position.tail = [] := by simpa using last
      rw [tail] at split
      exact ⟨split, within.sublist List.erase_sublist⟩

end SurgePricingPriorityQueue

/-! ## The inner loop keeps both deficits covered -/

namespace SurgePricingPriorityQueue

variable {L n : Nat} [NeZero L] {q : SurgePricingPriorityQueue L n} {held : List TxPtr}
  {iter : List (LaneIter L)} {lane : Fin L} {neededTotal neededLane : Resource n}

/-- Whether evicting the transaction pays the deficit of `lane`: every transaction does for the
generic lane, the lane's own transactions for a limited lane. -/
def paysLane (config : LaneConfig L n) (lane : Fin L) (t : TxPtr) : Bool :=
  lane == genericLane || lane == config.getLane t

/-- The transactions left in the iterator cover both deficits. -/
structure Covers (config : LaneConfig L n) (lane : Fin L) (iter : List (LaneIter L))
    (neededTotal neededLane : Resource n) : Prop where
  total : neededTotal ≤ ((Iterator.remaining iter).map config.getTxResources).sum
  own : neededLane ≤
    (((Iterator.remaining iter).filter (paysLane config lane)).map config.getTxResources).sum

/-- Dropping a lane that does not pay the lane's deficit keeps both deficits covered while the
generic deficit is no larger than the lane's. -/
theorem Covers.erase (covers : Covers q.mLaneConfig lane iter neededTotal neededLane)
    (within : q.Within iter) (built : q.Built held) {best : LaneIter L} (member : best ∈ iter)
    (notPaying : paysLane q.mLaneConfig lane best.top = false) (below : neededTotal ≤ neededLane) :
    Covers q.mLaneConfig lane (iter.erase best) neededTotal neededLane := by
  have unpaid : best.position.filter (paysLane q.mLaneConfig lane) = [] := by
    refine List.filter_eq_nil_iff.mpr fun t inPosition => ?_
    have sameLane := (within.mem_position built member inPosition).2
    have topLane := (within.mem_position built member (List.head_mem best.position_ne_nil)).2
    rw [Bool.not_eq_true, ← notPaying, paysLane, paysLane, sameLane, ← topLane]
    rfl
  have paying := (Iterator.remaining_perm_erase member).filter (paysLane q.mLaneConfig lane)
  rw [List.filter_append, unpaid, List.nil_append] at paying
  have own : neededLane ≤ (((Iterator.remaining (iter.erase best)).filter
      (paysLane q.mLaneConfig lane)).map q.mLaneConfig.getTxResources).sum := by
    rw [← (paying.map _).sum_eq]
    exact covers.own
  exact ⟨below.trans (own.trans (sum_le_of_sublist List.filter_sublist)), own⟩

/-- The inner loop of `canFitWithEviction` keeps its iterator over the queue with both deficits
covered, and stops on a transaction that may be evicted, or at the end. -/
theorem findEvictable_spec (built : q.Built held) :
    ∀ (fuel : Nat) (iter : List (LaneIter L)) (flag : Bool), q.Within iter →
      Covers q.mLaneConfig lane iter neededTotal neededLane → iter.length ≤ fuel →
      let found := q.findEvictable lane neededTotal neededLane fuel iter flag
      found.1.Sublist iter ∧ q.Within found.1 ∧
        Covers q.mLaneConfig lane found.1 neededTotal neededLane ∧
        ∀ best, Iterator.getMutableInnerIter q.mComparator found.1 = some best →
          (paysLane q.mLaneConfig lane best.top || neededTotal.anyGreater neededLane) = true
  | 0, iter, flag, within, covers, short => by
      have empty : iter = [] := List.eq_nil_of_length_eq_zero (Nat.le_zero.mp short)
      subst empty
      refine ⟨List.Sublist.refl _, within, covers, fun best found => ?_⟩
      simp [findEvictable, Iterator.getMutableInnerIter] at found
  | fuel + 1, iter, flag, within, covers, short => by
      intro found
      cases isBest : Iterator.getMutableInnerIter q.mComparator iter with
      | none =>
          have stays : found = (iter, flag) := by simp [found, findEvictable, isBest]
          rw [stays]
          exact ⟨List.Sublist.refl _, within, covers, fun best other => by simp [isBest] at other⟩
      | some best =>
          have condition : (lane == genericLane || lane == q.mLaneConfig.getLane best.top ||
              neededTotal.anyGreater neededLane) =
              (paysLane q.mLaneConfig lane best.top || neededTotal.anyGreater neededLane) := rfl
          by_cases canEvict :
              (paysLane q.mLaneConfig lane best.top || neededTotal.anyGreater neededLane) = true
          · have stays : found = (iter, flag) := by
              simp only [found, findEvictable, isBest, condition]
              rw [if_pos canEvict]
            rw [stays]
            refine ⟨List.Sublist.refl _, within, covers, fun other isOther => ?_⟩
            rw [isBest, Option.some.injEq] at isOther
            exact isOther ▸ canEvict
          · -- a lane that may not be evicted from is dropped
            have drops : found = q.findEvictable lane neededTotal neededLane fuel
                (iter.erase best) true := by
              simp only [found, findEvictable, isBest, condition]
              rw [if_neg canEvict, Iterator.dropLane_eq isBest]
            have member := Iterator.getMutableInnerIter_mem isBest
            simp only [Bool.or_eq_true, not_or, Bool.not_eq_true] at canEvict
            obtain ⟨notPaying, notGreater⟩ := canEvict
            have covers' := covers.erase within built member notPaying
              (Resource.anyGreater_eq_false_iff.1 notGreater)
            have shorter : (iter.erase best).length ≤ fuel := by
              rw [List.length_erase_of_mem member]
              omega
            obtain ⟨sub, within', covers'', stops⟩ := findEvictable_spec built fuel (iter.erase best)
              true (within.sublist List.erase_sublist) covers' shorter
            rw [drops]
            exact ⟨sub.trans List.erase_sublist, within', covers'', stops⟩

end SurgePricingPriorityQueue

/-! ## The eviction loop answers -/

namespace SurgePricingPriorityQueue

variable {L n : Nat} [NeZero L] {q : SurgePricingPriorityQueue L n} {config : LaneConfig L n}
  {seed : Nat} {held : List TxPtr} {tx : TxPtr} {lane : Fin L}
  {deficitTotal deficitLane : Resource n}

/-- Transactions `canFitWithEviction` may return: distinct queued ones, each bidding a lower fee
rate than the new transaction and sent from another account. -/
structure Evictable (held : List TxPtr) (tx : TxPtr) (evicted : List TxPtr) : Prop where
  nodup : evicted.Nodup
  queued : ∀ e ∈ evicted, e ∈ held
  lower : ∀ e ∈ evicted, feeRate3WayCompare e.inclusionFee e.numOperations tx.inclusionFee
    tx.numOperations = .ok .lt
  otherSource : ∀ e ∈ evicted, e.sourceID ≠ tx.sourceID

theorem Evictable.snoc {evicted : List TxPtr} {e : TxPtr} (evictable : Evictable held tx evicted)
    (fresh : e ∉ evicted) (inHeld : e ∈ held)
    (lower : feeRate3WayCompare e.inclusionFee e.numOperations tx.inclusionFee
      tx.numOperations = .ok .lt) (otherSource : e.sourceID ≠ tx.sourceID) :
    Evictable held tx (evicted ++ [e]) where
  nodup := List.nodup_append.mpr ⟨evictable.nodup, List.nodup_singleton e,
    fun a memA b memB same => fresh (by
      rw [List.mem_singleton.mp memB] at same
      exact same ▸ memA)⟩
  queued x member := by
    rcases List.mem_append.mp member with old | isE
    · exact evictable.queued x old
    · exact List.mem_singleton.mp isE ▸ inHeld
  lower x member := by
    rcases List.mem_append.mp member with old | isE
    · exact evictable.lower x old
    · exact List.mem_singleton.mp isE ▸ lower
  otherSource x member := by
    rcases List.mem_append.mp member with old | isE
    · exact evictable.otherSource x old
    · exact List.mem_singleton.mp isE ▸ otherSource

/-- Evicted transactions that pay both starting deficits. -/
structure Frees (config : LaneConfig L n) (held : List TxPtr) (tx : TxPtr) (lane : Fin L)
    (deficitTotal deficitLane : Resource n) (evicted : List TxPtr) : Prop where
  evictable : Evictable held tx evicted
  total : deficitTotal ≤ (evicted.map config.getTxResources).sum
  own : deficitLane ≤ ((evicted.filter (paysLane config lane)).map config.getTxResources).sum

/-- What the eviction loop answers: room once transactions that pay both deficits are evicted,
or the fee that would beat a queued transaction it could not evict. -/
structure Answers (config : LaneConfig L n) (held : List TxPtr) (tx : TxPtr) (lane : Fin L)
    (deficitTotal deficitLane : Resource n) (r : (Bool × Int) × List (TxPtr × Bool)) : Prop where
  fits : r.1.1 = true → r.1.2 = 0 ∧
    Frees config held tx lane deficitTotal deficitLane (r.2.map Prod.fst)
  fee : r.1.1 = false → r.1.2 ≠ 0 → ∃ e ∈ held,
    computeBetterFee tx e.inclusionFee e.numOperations = .ok (r.1.2 - (tx.fullFee - tx.inclusionFee))

/-- The state of the eviction loop at the top of a pass: an iterator over the queue whose
transactions cover both deficits, what is left of the starting deficits once the evicted
transactions pay them, and evictable transactions the iterator has moved past. -/
structure Evicting (q : SurgePricingPriorityQueue L n) (held : List TxPtr) (tx : TxPtr)
    (lane : Fin L) (deficitTotal deficitLane : Resource n) (iter : List (LaneIter L))
    (neededTotal neededLane : Resource n) (txsToEvict : List (TxPtr × Bool)) : Prop where
  within : q.Within iter
  covers : Covers q.mLaneConfig lane iter neededTotal neededLane
  total : neededTotal = (deficitTotal -
    ((txsToEvict.map Prod.fst).map q.mLaneConfig.getTxResources).sum)⁺
  own : neededLane = (deficitLane - (((txsToEvict.map Prod.fst).filter
    (paysLane q.mLaneConfig lane)).map q.mLaneConfig.getTxResources).sum)⁺
  evictable : Evictable held tx (txsToEvict.map Prod.fst)
  passed : ∀ e ∈ txsToEvict.map Prod.fst, e ∉ Iterator.remaining iter

/-- Paying what is left of a deficit with `r` more leaves the deficit less both payments. -/
theorem subtractNonNegative_deficit {d paid r : Resource n} (nonneg : 0 ≤ r) :
    Resource.subtractNonNegative (d - paid)⁺ r = (d - (paid + r))⁺ := by
  rw [Resource.subtractNonNegative_eq_posPart, Deficit.posPart_sub_posPart nonneg, sub_sub]

omit [NeZero L] in
theorem sum_snoc_filter (config : LaneConfig L n) (p : TxPtr → Bool) (evicted : List TxPtr)
    (e : TxPtr) : (((evicted ++ [e]).filter p).map config.getTxResources).sum =
      ((evicted.filter p).map config.getTxResources).sum +
        if p e then config.getTxResources e else 0 := by
  by_cases pays : p e <;> simp [List.filter_append, pays]

/-- The deficits the loop is left with after evicting `e` are the starting ones less what the
evicted transactions with `e` pay. -/
theorem Evicting.paid {iter : List (LaneIter L)} {neededTotal neededLane : Resource n}
    {txsToEvict : List (TxPtr × Bool)}
    (evicting : Evicting q held tx lane deficitTotal deficitLane iter neededTotal neededLane
      txsToEvict) (e : TxPtr) :
    let evicted := txsToEvict.map Prod.fst ++ [e]
    Resource.subtractNonNegative neededTotal (q.mLaneConfig.getTxResources e) =
        (deficitTotal - (evicted.map q.mLaneConfig.getTxResources).sum)⁺ ∧
      (if paysLane q.mLaneConfig lane e then
          Resource.subtractNonNegative neededLane (q.mLaneConfig.getTxResources e)
        else neededLane) =
        (deficitLane - ((evicted.filter (paysLane q.mLaneConfig lane)).map
          q.mLaneConfig.getTxResources).sum)⁺ := by
  intro evicted
  have nonneg := q.mLaneConfig.getTxResources_nonneg e
  refine ⟨?_, ?_⟩
  · rw [evicting.total, subtractNonNegative_deficit nonneg, List.map_append, List.sum_append,
      List.map_singleton, List.sum_singleton]
  · rw [sum_snoc_filter, evicting.own]
    by_cases pays : paysLane q.mLaneConfig lane e
    · rw [if_pos pays, if_pos pays, subtractNonNegative_deficit nonneg]
    · rw [if_neg pays, if_neg pays, add_zero]

/-- Once both deficits left are paid, the evicted transactions pay the starting ones. -/
theorem frees_of_paid {evicted : List TxPtr} (evictable : Evictable held tx evicted)
    (total : ((deficitTotal - (evicted.map config.getTxResources).sum)⁺).anyPositive = false)
    (own : ((deficitLane - ((evicted.filter (paysLane config lane)).map
      config.getTxResources).sum)⁺).anyPositive = false) :
    Frees config held tx lane deficitTotal deficitLane evicted :=
  ⟨evictable, sub_nonpos.mp (posPart_nonpos.mp (Resource.anyPositive_eq_false_iff.1 total)),
    sub_nonpos.mp (posPart_nonpos.mp (Resource.anyPositive_eq_false_iff.1 own))⟩

/-- A pass that evicts the transaction the inner loop stopped on, and moves past it, keeps the
state of the loop. -/
theorem Evicting.advance {iter found iter' : List (LaneIter L)} {neededTotal neededLane : Resource n}
    {txsToEvict : List (TxPtr × Bool)} (queued : q.Queued config seed held)
    (evicting : Evicting q held tx lane deficitTotal deficitLane iter neededTotal neededLane
      txsToEvict)
    (sub : found.Sublist iter) (within : q.Within found)
    (covers : Covers q.mLaneConfig lane found neededTotal neededLane) {best : LaneIter L}
    (isBest : Iterator.getMutableInnerIter q.mComparator found = some best)
    (lower : feeRate3WayCompare best.top.inclusionFee best.top.numOperations tx.inclusionFee
      tx.numOperations = .ok .lt)
    (otherSource : best.top.sourceID ≠ tx.sourceID)
    (advanced : Iterator.advance q.mComparator found = .ok iter') (flag : Bool) :
    Evicting q held tx lane deficitTotal deficitLane iter'
      (Resource.subtractNonNegative neededTotal (q.mLaneConfig.getTxResources best.top))
      (if paysLane q.mLaneConfig lane best.top then
        Resource.subtractNonNegative neededLane (q.mLaneConfig.getTxResources best.top)
        else neededLane)
      (txsToEvict ++ [(best.top, flag)]) := by
  obtain ⟨moved, within'⟩ := within.advance isBest advanced
  have inFound : best.top ∈ Iterator.remaining found := moved.symm.subset List.mem_cons_self
  have nodup : (best.top :: Iterator.remaining iter').Nodup :=
    moved.nodup_iff.mp (within.nodup_remaining queued.built queued.comparable)
  have fresh : best.top ∉ txsToEvict.map Prod.fst := fun old =>
    evicting.passed _ old ((sub.flatMap _).subset inFound)
  have inHeld := within.mem_remaining queued.built inFound
  obtain ⟨total, own⟩ := evicting.paid best.top
  have evicted : (txsToEvict ++ [(best.top, flag)]).map Prod.fst =
      txsToEvict.map Prod.fst ++ [best.top] := by simp
  refine ⟨within', ⟨?_, ?_⟩, evicted ▸ total, evicted ▸ own,
    evicted ▸ evicting.evictable.snoc fresh inHeld lower otherSource, ?_⟩
  · -- the evicted transaction pays the generic deficit out of what was left
    have sums := (moved.map q.mLaneConfig.getTxResources).sum_eq
    rw [List.map_cons, List.sum_cons] at sums
    have within : q.mLaneConfig.getTxResources best.top ≤
        ((Iterator.remaining found).map q.mLaneConfig.getTxResources).sum := by
      rw [sums]
      exact le_add_of_nonneg_right (sum_nonneg_of_config _ _)
    rw [Resource.subtractNonNegative_eq_posPart]
    calc (neededTotal - q.mLaneConfig.getTxResources best.top)⁺
        ≤ ((Iterator.remaining found).map q.mLaneConfig.getTxResources).sum -
          q.mLaneConfig.getTxResources best.top := Deficit.posPart_sub_le covers.total within
      _ = ((Iterator.remaining iter').map q.mLaneConfig.getTxResources).sum := by
        rw [sums, add_sub_cancel_left]
  · by_cases pays : paysLane q.mLaneConfig lane best.top
    · -- and the lane's deficit when it counts against the lane
      have sums := ((moved.filter (paysLane q.mLaneConfig lane)).map
        q.mLaneConfig.getTxResources).sum_eq
      rw [List.filter_cons_of_pos pays, List.map_cons, List.sum_cons] at sums
      have within : q.mLaneConfig.getTxResources best.top ≤ (((Iterator.remaining found).filter
          (paysLane q.mLaneConfig lane)).map q.mLaneConfig.getTxResources).sum := by
        rw [sums]
        exact le_add_of_nonneg_right (sum_nonneg_of_config _ _)
      rw [if_pos pays, Resource.subtractNonNegative_eq_posPart]
      calc (neededLane - q.mLaneConfig.getTxResources best.top)⁺
          ≤ (((Iterator.remaining found).filter (paysLane q.mLaneConfig lane)).map
            q.mLaneConfig.getTxResources).sum - q.mLaneConfig.getTxResources best.top :=
          Deficit.posPart_sub_le covers.own within
        _ = (((Iterator.remaining iter').filter (paysLane q.mLaneConfig lane)).map
            q.mLaneConfig.getTxResources).sum := by
          rw [sums, add_sub_cancel_left]
    · have sums := ((moved.filter (paysLane q.mLaneConfig lane)).map
        q.mLaneConfig.getTxResources).sum_eq
      rw [List.filter_cons_of_neg pays] at sums
      rw [if_neg pays, ← sums]
      exact covers.own
  · intro x member inRest
    rw [evicted] at member
    rcases List.mem_append.mp member with old | isE
    · exact evicting.passed x old
        ((sub.flatMap _).subset (moved.symm.subset (List.mem_cons_of_mem _ inRest)))
    · rw [List.mem_singleton.mp isE] at inRest
      exact (List.nodup_cons.mp nodup).1 inRest

/-- The eviction loop answers from every state it keeps: it never reaches the end of its
iterator while a deficit is left, since what the iterator still holds covers both. -/
theorem evictLoop_answers (queued : q.Queued config seed held) :
    ∀ (fuel : Nat) (iter : List (LaneIter L)) (neededTotal neededLane : Resource n)
      (txsToEvict : List (TxPtr × Bool)),
      Evicting q held tx lane deficitTotal deficitLane iter neededTotal neededLane txsToEvict →
      (neededTotal.anyPositive || neededLane.anyPositive) = true →
      (Iterator.remaining iter).length < fuel →
      ∃ r, q.evictLoop tx lane fuel iter neededTotal neededLane txsToEvict = .ok r ∧
        Answers q.mLaneConfig held tx lane deficitTotal deficitLane r
  | 0, _, _, _, _, _, _, short => absurd short (Nat.not_lt_zero _)
  | fuel + 1, iter, neededTotal, neededLane, txsToEvict, evicting, positive, short => by
      obtain ⟨sub, within, covers, _⟩ := findEvictable_spec queued.built iter.length iter false
        evicting.within evicting.covers le_rfl
      generalize isFound : q.findEvictable lane neededTotal neededLane iter.length iter false =
        found at sub within covers
      -- a positive deficit the iterator covers leaves a transaction to evict
      obtain ⟨best, isBest⟩ :
          ∃ best, Iterator.getMutableInnerIter q.mComparator found.1 = some best := by
        cases noneLeft : Iterator.getMutableInnerIter q.mComparator found.1 with
        | some best => exact ⟨best, rfl⟩
        | none =>
            have empty := Iterator.getMutableInnerIter_eq_none_iff.1 noneLeft
            have paidTotal : neededTotal.anyPositive = false :=
              Resource.anyPositive_eq_false_iff.2 (by
                simpa [empty, Iterator.remaining] using covers.total)
            have paidLane : neededLane.anyPositive = false :=
              Resource.anyPositive_eq_false_iff.2 (by
                simpa [empty, Iterator.remaining] using covers.own)
            rw [paidTotal, paidLane] at positive
            cases positive
      have member := Iterator.getMutableInnerIter_mem isBest
      have inFound : best.top ∈ Iterator.remaining found.1 :=
        List.mem_flatMap.mpr ⟨best, member, List.head_mem _⟩
      have inHeld := within.mem_remaining queued.built inFound
      have withOps := queued.comparable.withOps _ inHeld
      have lowestFirst : q.mComparator.mIsGreater = false := by rw [queued.comparator]
      rw [evictLoop, if_pos positive]
      simp only [isFound, isBest]
      rw [TxComparator.compareFeeOnly_eq, Except.ok_bind, lowestFirst]
      by_cases lower : feeRate3WayCompare best.top.inclusionFee best.top.numOperations
          tx.inclusionFee tx.numOperations = .ok .lt
      · simp only [lower, beq_self_eq_true, Bool.xor_false, Bool.not_true, Bool.false_eq_true,
          if_false]
        by_cases sameSource : tx.sourceID = best.top.sourceID
        · -- the cheapest transaction left is the new one's account's: no room, no fee
          rw [if_pos sameSource]
          exact ⟨_, rfl, fun isTrue => Bool.noConfusion isTrue,
            fun _ zero => absurd rfl zero⟩
        · rw [if_neg sameSource]
          obtain ⟨total, own⟩ := evicting.paid best.top
          by_cases done : (!(Resource.subtractNonNegative neededTotal
              (q.mLaneConfig.getTxResources best.top)).anyPositive &&
              !(if paysLane q.mLaneConfig lane best.top then
                Resource.subtractNonNegative neededLane (q.mLaneConfig.getTxResources best.top)
                else neededLane).anyPositive) = true
          · -- both deficits are paid: the transaction fits
            have paidDone : ((if (lane == genericLane || lane == q.mLaneConfig.getLane best.top) then
                Resource.subtractNonNegative neededLane (q.mLaneConfig.getTxResources best.top)
                else neededLane)) = (if paysLane q.mLaneConfig lane best.top then
                Resource.subtractNonNegative neededLane (q.mLaneConfig.getTxResources best.top)
                else neededLane) := rfl
            rw [paidDone, if_pos done]
            simp only [Bool.and_eq_true, Bool.not_eq_true'] at done
            refine ⟨_, rfl, fun _ => ⟨rfl, ?_⟩, fun isFalse => Bool.noConfusion isFalse⟩
            have evicted : (txsToEvict ++ [(best.top, found.2)]).map Prod.fst =
                txsToEvict.map Prod.fst ++ [best.top] := by simp
            rw [evicted]
            have fresh : best.top ∉ txsToEvict.map Prod.fst := fun old =>
              evicting.passed _ old ((sub.flatMap _).subset inFound)
            exact frees_of_paid (evicting.evictable.snoc fresh inHeld lower (Ne.symm sameSource))
              (total ▸ done.1) (own ▸ done.2)
          · -- a deficit is left: evict and move on
            have paidDone : ((if (lane == genericLane || lane == q.mLaneConfig.getLane best.top) then
                Resource.subtractNonNegative neededLane (q.mLaneConfig.getTxResources best.top)
                else neededLane)) = (if paysLane q.mLaneConfig lane best.top then
                Resource.subtractNonNegative neededLane (q.mLaneConfig.getTxResources best.top)
                else neededLane) := rfl
            rw [paidDone, if_neg done]
            obtain ⟨iter', advanced⟩ := Iterator.advance_ok isBest
            rw [advanced, Except.ok_bind]
            have evicting' := evicting.advance queued sub within covers isBest lower
              (Ne.symm sameSource) advanced found.2
            have shorter : (Iterator.remaining iter').length < fuel := by
              have moved := ((within.advance isBest advanced).1).length_eq
              have shrunk := ((sub.flatMap LaneIter.position).length_le)
              rw [List.length_cons] at moved
              simp only [Iterator.remaining] at short moved shrunk ⊢
              omega
            have positive' : ((Resource.subtractNonNegative neededTotal
                (q.mLaneConfig.getTxResources best.top)).anyPositive ||
                (if paysLane q.mLaneConfig lane best.top then
                  Resource.subtractNonNegative neededLane (q.mLaneConfig.getTxResources best.top)
                  else neededLane).anyPositive) = true := by
              rw [← Bool.not_or, Bool.not_eq_true', Bool.not_eq_false] at done
              exact done
            exact evictLoop_answers queued fuel iter' _ _ _ evicting' positive' shorter
      · -- the cheapest transaction left bids no lower a rate: the fee that would beat it
        have notLower : (feeRate3WayCompare best.top.inclusionFee best.top.numOperations
            tx.inclusionFee tx.numOperations == .ok .lt) = false := by simpa using lower
        obtain ⟨least, -, better⟩ :=
          computeBetterFee_eq_min tx best.top.inclusionFee_nonneg withOps
        simp only [notLower, Bool.xor_false, Bool.not_false, if_true, better, Except.ok_bind,
          Except.pure_eq_ok]
        refine ⟨_, rfl, fun isTrue => Bool.noConfusion isTrue,
          fun _ _ => ⟨best.top, inHeld, ?_⟩⟩
        rw [better, add_sub_cancel_right]

end SurgePricingPriorityQueue

/-! ## What `canFitWithEviction` answers -/

namespace SurgePricingPriorityQueue

variable {L n : Nat} [NeZero L] {q : SurgePricingPriorityQueue L n} {config : LaneConfig L n}
  {seed : Nat} {held : List TxPtr}

theorem paysLane_of_generic (config : LaneConfig L n) (t : TxPtr) :
    paysLane config genericLane t = true := by
  simp [paysLane]

/-- The transactions that pay a limited lane's deficit are the lane's own. -/
theorem filter_paysLane {lane : Fin L} (config : LaneConfig L n) (limited : lane ≠ genericLane)
    (txs : List TxPtr) :
    txs.filter (paysLane config lane) = txs.filter fun t => config.getLane t = lane := by
  refine List.filter_congr fun t _ => ?_
  have notGeneric : (lane == genericLane) = false := by simpa using limited
  rw [paysLane, notGeneric, Bool.false_or]
  by_cases same : config.getLane t = lane
  · simp [same]
  · simp [same, Ne.symm same]

/-- The eviction loop starts at the top of the queue, with both deficits of the queue and the new
transaction left to pay and nothing evicted. -/
theorem Queued.evicting_getTop (queued : q.Queued config seed held) (tx : TxPtr) (lane : Fin L)
    {deficitTotal deficitLane : Resource n}
    (coversTotal : deficitTotal ≤ (held.map config.getTxResources).sum)
    (coversLane : deficitLane ≤
      ((held.filter (paysLane config lane)).map config.getTxResources).sum) :
    Evicting q held tx lane deficitTotal deficitLane q.getTop deficitTotal⁺ deficitLane⁺ [] := by
  obtain ⟨_, rfl, built, _⟩ := queued
  have remaining := remaining_getTop (q := q) ▸ built.queued_perm
  refine ⟨within_getTop, ⟨?_, ?_⟩, by simp, by simp, ⟨List.nodup_nil, by simp, by simp, by simp⟩,
    by simp⟩
  · rw [(remaining.map _).sum_eq]
    exact Deficit.posPart_le_of_le coversTotal (sum_nonneg_of_config _ _)
  · rw [((remaining.filter _).map _).sum_eq]
    exact Deficit.posPart_le_of_le coversLane (sum_nonneg_of_config _ _)

/-- On a reachable queue whose lane limits lie within the generic one, `canFitWithEviction`
fails only where `totalResources` does, when the queue's total overflows `int64_t`. Otherwise it
answers for the deficits of the queue with the new transaction against the generic limit and
against its lane's limit, and says that it fits only when that sum stays within `int64_t`. -/
theorem Queued.canFitWithEviction_answers (queued : q.Queued config seed held)
    (nested : ∀ l, config.getLaneLimits l ≤ config.getLaneLimits genericLane) (tx : TxPtr)
    (txDiscount : Option (Resource n)) :
    (q.totalResources = .error "canAdd(other)" ∧
      q.canFitWithEviction tx txDiscount = .error "canAdd(other)") ∨
    ∃ r, q.canFitWithEviction tx txDiscount = .ok r ∧
      Answers config held tx (config.getLane tx)
        ((held.map config.getTxResources).sum + q.txNewResources tx txDiscount -
          config.getLaneLimits genericLane)
        (((held.filter fun t => config.getLane t = config.getLane tx).map
          config.getTxResources).sum + q.txNewResources tx txDiscount -
          config.getLaneLimits (config.getLane tx)) r ∧
      (r.1.1 = true → (held.map config.getTxResources).sum + q.txNewResources tx txDiscount ≤
        Resource.int64Limit) := by
  obtain ⟨comparator, rfl, built, comparable⟩ := queued
  have queued : q.Queued q.mLaneConfig seed held := ⟨comparator, rfl, built, comparable⟩
  have lowestFirst : q.mComparator.mIsGreater = false := by rw [comparator]
  unfold SurgePricingPriorityQueue.canFitWithEviction
  rw [if_neg (by simp [lowestFirst])]
  dsimp only
  simp only [mLaneLimits, Resource.subtractNonNegative_eq_posPart]
  set lane := q.mLaneConfig.getLane tx with laneOfTx
  set newResources := q.txNewResources tx txDiscount with isNew
  set total := (held.map q.mLaneConfig.getTxResources).sum with isTotal
  set count := ((held.filter fun t => q.mLaneConfig.getLane t = lane).map
    q.mLaneConfig.getTxResources).sum with isCount
  set G := q.mLaneConfig.getLaneLimits genericLane with isG
  set limit := q.mLaneConfig.getLaneLimits lane with isLimit
  -- a transaction larger than a limit gets no room and no fee
  by_cases tooLarge : (newResources.anyGreater G || newResources.anyGreater limit) = true
  · rw [if_pos tooLarge]
    exact .inr ⟨_, rfl, ⟨fun isTrue => Bool.noConfusion isTrue, fun _ zero => absurd rfl zero⟩,
      fun isTrue => Bool.noConfusion isTrue⟩
  rw [if_neg tooLarge]
  simp only [Bool.or_eq_true, not_or, Bool.not_eq_true, Resource.anyGreater_eq_false_iff] at tooLarge
  obtain ⟨withinG, withinLimit⟩ := tooLarge
  cases summed : q.totalResources with
  | error message =>
      have overflow := totalResources_eq_error summed
      subst overflow
      exact .inl ⟨rfl, rfl⟩
  | ok t =>
      have isT : t = total := built.totalResources_eq summed
      subst isT
      have countLane : q.mLaneCurrentCount lane = count := built.count_eq lane
      have countWithin : count ≤ total := sum_le_of_sublist List.filter_sublist
      rw [Except.ok_bind, countLane]
      -- a sum past `INT64_MAX` gets no room and no fee
      by_cases overflows : (!total.canAdd newResources || !count.canAdd newResources) = true
      · rw [if_pos overflows]
        exact .inr ⟨_, rfl, ⟨fun isTrue => Bool.noConfusion isTrue, fun _ zero => absurd rfl zero⟩,
          fun isTrue => Bool.noConfusion isTrue⟩
      rw [if_neg overflows]
      simp only [Bool.or_eq_true, not_or, Bool.not_eq_true, Bool.not_eq_false',
        Resource.canAdd_eq_true_iff] at overflows
      obtain ⟨fitsTotal, fitsCount⟩ := overflows
      rw [Resource.addAssign_eq_ok fitsTotal, Except.ok_bind, Resource.addAssign_eq_ok fitsCount,
        Except.ok_bind, if_neg (not_not.mpr countWithin), if_neg (not_not.mpr (nested lane))]
      by_cases fit : total + newResources ≤ G ∧ count + newResources ≤ limit
      · -- room without evicting anything
        rw [if_pos fit]
        refine .inr ⟨_, rfl, ⟨fun _ => ⟨rfl, ⟨⟨List.nodup_nil, by simp, by simp, by simp⟩, ?_, ?_⟩⟩,
          fun isFalse => Bool.noConfusion isFalse⟩, fun _ => fitsTotal⟩
        · simpa using fit.1
        · simpa using fit.2
      rw [if_neg fit]
      have positive : ((total + newResources - G)⁺.anyPositive ||
          (count + newResources - limit)⁺.anyPositive) = true := by
        by_contra paid
        simp only [Bool.or_eq_true, not_or, Bool.not_eq_true, Resource.anyPositive_eq_false_iff,
          posPart_nonpos, sub_nonpos] at paid
        exact fit paid
      rw [if_neg (by simp [positive])]
      -- the deficits are covered: all transactions cover the generic one, the lane's own the lane's
      have coversTotal : total + newResources - G ≤ total := by
        rw [add_sub_assoc]
        exact add_le_of_nonpos_right (sub_nonpos.mpr withinG)
      have coversLane : count + newResources - limit ≤
          ((held.filter (paysLane q.mLaneConfig lane)).map q.mLaneConfig.getTxResources).sum := by
        have ownWithin : count + newResources - limit ≤ count := by
          rw [add_sub_assoc]
          exact add_le_of_nonpos_right (sub_nonpos.mpr withinLimit)
        by_cases generic : lane = genericLane
        · rw [List.filter_eq_self.mpr fun t _ => generic ▸ paysLane_of_generic _ t]
          exact ownWithin.trans countWithin
        · rw [filter_paysLane _ generic]
          exact ownWithin
      have fuel : (Iterator.remaining q.getTop).length < q.size + 1 := by
        rw [remaining_getTop, built.queued_perm.length_eq, built.size_eq]
        exact Nat.lt_succ_self _
      obtain ⟨r, loop, answers⟩ := evictLoop_answers queued (q.size + 1) q.getTop _ _ []
        (queued.evicting_getTop tx lane coversTotal coversLane) positive fuel
      exact .inr ⟨r, loop, answers, fun _ => fitsTotal⟩

end SurgePricingPriorityQueue

/-! ## Evicting what `canFitWithEviction` returned -/

namespace SurgePricingPriorityQueue

variable {L n : Nat} {q : SurgePricingPriorityQueue L n} {config : LaneConfig L n}
  {seed : Nat} {held : List TxPtr}

theorem Queued.totalResources_of_le (queued : q.Queued config seed held)
    (fits : (held.map config.getTxResources).sum ≤ Resource.int64Limit) :
    q.totalResources = .ok (held.map config.getTxResources).sum := by
  obtain ⟨_, rfl, built, _⟩ := queued
  exact built.totalResources_of_le fits

theorem Queued.laneResources_eq (queued : q.Queued config seed held) (lane : Fin L) :
    q.laneResources lane =
      ((held.filter fun t => config.getLane t = lane).map config.getTxResources).sum := by
  obtain ⟨_, rfl, built, _⟩ := queued
  exact built.count_eq lane

theorem Queued.laneResources_le (queued : q.Queued config seed held) (lane : Fin L) :
    q.laneResources lane ≤ (held.map config.getTxResources).sum := by
  obtain ⟨_, rfl, built, _⟩ := queued
  exact built.count_le lane

/-- Erasing distinct queued transactions one after another never fails, and leaves the queue
holding the others. -/
theorem Queued.foldlM_erase :
    ∀ {evicted : List TxPtr} {q : SurgePricingPriorityQueue L n} {held : List TxPtr},
      q.Queued config seed held → evicted.Nodup → (∀ e ∈ evicted, e ∈ held) →
      ∃ q' held', evicted.foldlM SurgePricingPriorityQueue.erase q = .ok q' ∧
        q'.Queued config seed held' ∧ (held' ++ evicted).Perm held
  | [], q, held, queued, _, _ => ⟨q, held, rfl, queued, by simp⟩
  | e :: rest, q, held, queued, nodup, inHeld => by
      obtain ⟨fresh, nodupRest⟩ := List.nodup_cons.mp nodup
      have member := inHeld e List.mem_cons_self
      obtain ⟨q₁, erased, queued₁⟩ := queued.erase_self member
      have restInHeld : ∀ x ∈ rest, x ∈ held.erase e := fun x inRest =>
        (List.mem_erase_of_ne fun (same : x = e) => fresh (same ▸ inRest)).mpr
          (inHeld x (List.mem_cons_of_mem e inRest))
      obtain ⟨q', held', folded, queued', perm⟩ := foldlM_erase queued₁ nodupRest restInHeld
      refine ⟨q', held', ?_, queued', ?_⟩
      · rw [List.foldlM_cons, erased, Except.ok_bind, folded]
      · exact List.perm_middle.trans ((perm.cons e).trans (List.perm_cons_erase member).symm)

theorem sum_add_sum_of_perm {held rest removed : List TxPtr} (config : LaneConfig L n)
    (perm : (rest ++ removed).Perm held) :
    (rest.map config.getTxResources).sum + (removed.map config.getTxResources).sum =
      (held.map config.getTxResources).sum := by
  rw [← List.sum_append, ← List.map_append]
  exact (perm.map _).sum_eq

theorem sum_le_of_perm {held rest removed : List TxPtr} (config : LaneConfig L n)
    (perm : (rest ++ removed).Perm held) :
    (rest.map config.getTxResources).sum ≤ (held.map config.getTxResources).sum := by
  rw [← sum_add_sum_of_perm config perm]
  exact le_add_of_nonneg_right (sum_nonneg_of_config config removed)

/-- The resources `canFitWithEviction` counts for a new transaction replacing `oldTx` are at
least what it brings beyond the replaced transaction's. -/
theorem txNewResources_discounted (laneConfig : q.mLaneConfig = config) (tx : TxPtr)
    (oldTx : Option TxPtr) :
    config.getTxResources tx - (oldTx.toList.map config.getTxResources).sum ≤
      q.txNewResources tx (oldTx.map config.getTxResources) := by
  subst laneConfig
  cases oldTx with
  | none => simp [txNewResources]
  | some old =>
      simp only [txNewResources, Option.map_some, Option.toList_some, List.map_cons,
        List.map_nil, List.sum_cons, List.sum_nil, add_zero,
        Resource.subtractNonNegative_eq_posPart]
      exact le_posPart _

variable [NeZero L]

/-- Evicted transactions that pay both deficits of the queue with the new transaction make room
for it: once they, and the transactions `removed` before them, leave the queue, the new
transaction fits the generic limit, and its lane's limit when what was removed was in its lane.
What the new transaction brings may exceed the resources `canFitWithEviction` counted for it by
what was removed. -/
theorem Frees.room {tx : TxPtr} {rest removed evicted : List TxPtr} {newResources : Resource n}
    (frees : Frees config held tx (config.getLane tx)
      ((held.map config.getTxResources).sum + newResources - config.getLaneLimits genericLane)
      (((held.filter fun t => config.getLane t = config.getLane tx).map
        config.getTxResources).sum + newResources - config.getLaneLimits (config.getLane tx))
      evicted)
    (perm : (rest ++ (removed ++ evicted)).Perm held)
    (discounted : config.getTxResources tx - (removed.map config.getTxResources).sum ≤
      newResources) :
    (rest.map config.getTxResources).sum + config.getTxResources tx ≤
        config.getLaneLimits genericLane ∧
      ((∀ t ∈ removed, config.getLane t = config.getLane tx) →
        ((rest.filter fun t => config.getLane t = config.getLane tx).map
          config.getTxResources).sum + config.getTxResources tx ≤
          config.getLaneLimits (config.getLane tx)) := by
  have sums := sum_add_sum_of_perm config perm
  rw [List.map_append, List.sum_append] at sums
  have fitsTotal := Deficit.add_le_of_paid sums frees.total discounted
  refine ⟨fitsTotal, fun inLane => ?_⟩
  by_cases generic : config.getLane tx = genericLane
  · -- the generic lane's own transactions are part of the total
    rw [generic]
    exact (add_le_add (sum_le_of_sublist List.filter_sublist) le_rfl).trans fitsTotal
  · have removedInLane : removed.filter (fun t => config.getLane t = config.getLane tx) = removed :=
      List.filter_eq_self.mpr fun t member => by simpa using inLane t member
    have lanePerm := perm.filter fun t => config.getLane t = config.getLane tx
    rw [List.filter_append, List.filter_append, removedInLane] at lanePerm
    have laneSums := sum_add_sum_of_perm config lanePerm
    rw [List.map_append, List.sum_append] at laneSums
    have own := frees.own
    rw [filter_paysLane _ generic] at own
    exact Deficit.add_le_of_paid laneSums own discounted

end SurgePricingPriorityQueue

namespace TxQueueLimiter

open SurgePricingPriorityQueue

variable {L n : Nat} {config : LaneConfig L n} {seed : Nat}

/-- The callback `TransactionQueue` passes to `evictTransactions`: banning a transaction drops it,
which removes it from the limiter. -/
def removeEvicted (tx : TxPtr) (limiter : TxQueueLimiter L n) : Except String (TxQueueLimiter L n) :=
  limiter.removeTransaction tx

theorem removeEvicted_ok {limiter : TxQueueLimiter L n} {tx : TxPtr}
    {q' : SurgePricingPriorityQueue L n} (erased : limiter.mTxs.erase tx = .ok q')
    (fees : Fin L → Int × Nat) :
    removeEvicted tx { limiter with mLaneEvictedInclusionFee := fees } =
      .ok { limiter with mTxs := q', mLaneEvictedInclusionFee := fees } := by
  simp only [removeEvicted, removeTransaction, erased, Except.ok_bind, Except.pure_eq_ok]

variable [NeZero L]

/-- The loop of `evictTransactions` never fails while the transactions left to evict are queued
and would make room for the new transaction, and it stops with the new transaction fitting. -/
theorem evictTransactionsLoop_ok {resourcesToFit maxLimits : Resource n} (txToFitLane : Fin L)
    (nonneg : 0 ≤ resourcesToFit) :
    ∀ (txsToEvict : List (TxPtr × Bool)) (limiter : TxQueueLimiter L n) (held : List TxPtr),
      limiter.mTxs.Queued config seed held → (txsToEvict.map Prod.fst).Nodup →
      (∀ e ∈ txsToEvict.map Prod.fst, e ∈ held) →
      (held.map config.getTxResources).sum + resourcesToFit ≤ Resource.int64Limit →
      (held.map config.getTxResources).sum -
          ((txsToEvict.map Prod.fst).map config.getTxResources).sum + resourcesToFit ≤ maxLimits →
      ∃ limiter' held', evictTransactionsLoop resourcesToFit txToFitLane maxLimits removeEvicted
          txsToEvict limiter = .ok limiter' ∧ limiter'.mTxs.Queued config seed held' ∧
        (held'.map config.getTxResources).sum + resourcesToFit ≤ Resource.int64Limit ∧
        (held'.map config.getTxResources).sum + resourcesToFit ≤ maxLimits
  | [], limiter, held, queued, _, _, fitsInt, fits => by
      refine ⟨limiter, held, rfl, queued, fitsInt, ?_⟩
      simpa using fits
  | (e, evictedDueToLaneLimit) :: rest, limiter, held, queued, nodup, inHeld, fitsInt, fits => by
      simp only [List.map_cons] at nodup inHeld fits
      obtain ⟨fresh, nodupRest⟩ := List.nodup_cons.mp nodup
      have member := inHeld e List.mem_cons_self
      obtain ⟨q₁, erased, queued₁⟩ := queued.erase_self member
      have split := List.sum_map_erase config.getTxResources member
      -- the queue without `e` still sums within `int64_t` with the new transaction
      have fitsInt₁ : ((held.erase e).map config.getTxResources).sum + resourcesToFit ≤
          Resource.int64Limit := by
        refine le_trans (add_le_add ?_ le_rfl) fitsInt
        rw [← split]
        exact le_add_of_nonneg_left (config.getTxResources_nonneg e)
      have restInHeld : ∀ x ∈ rest.map Prod.fst, x ∈ held.erase e := fun x inRest =>
        (List.mem_erase_of_ne fun (same : x = e) => fresh (same ▸ inRest)).mpr
          (inHeld x (List.mem_cons_of_mem e inRest))
      have fitsRest : ((held.erase e).map config.getTxResources).sum -
          ((rest.map Prod.fst).map config.getTxResources).sum + resourcesToFit ≤ maxLimits := by
        rwa [← split, List.sum_cons, add_sub_add_left_eq_sub] at fits
      have summed := queued₁.totalResources_of_le
        (le_trans (le_add_of_nonneg_right nonneg) fitsInt₁)
      simp only [evictTransactionsLoop, removeEvicted_ok erased, Except.ok_bind, summed,
        Resource.addAssign_eq_ok fitsInt₁]
      by_cases roomTotal : ((held.erase e).map config.getTxResources).sum + resourcesToFit ≤
          maxLimits
      · rw [if_pos roomTotal]
        split
        · exact ⟨_, held.erase e, rfl, queued₁, fitsInt₁, roomTotal⟩
        · -- the lane's count stays within the total
          have laneFits : q₁.laneResources txToFitLane + resourcesToFit ≤ Resource.int64Limit :=
            le_trans (add_le_add (queued₁.laneResources_le txToFitLane) le_rfl) fitsInt₁
          rw [Resource.addAssign_eq_ok laneFits, Except.ok_bind]
          split
          · exact ⟨_, held.erase e, rfl, queued₁, fitsInt₁, roomTotal⟩
          · exact evictTransactionsLoop_ok txToFitLane nonneg rest _ (held.erase e) queued₁
              nodupRest restInHeld fitsInt₁ fitsRest
      · rw [if_neg roomTotal]
        exact evictTransactionsLoop_ok txToFitLane nonneg rest _ (held.erase e) queued₁ nodupRest
          restInHeld fitsInt₁ fitsRest

/-- `evictTransactions` never fails its assertion when the transactions it evicts are distinct
queued ones that make room for the new transaction. -/
theorem evictTransactions_ok {limiter : TxQueueLimiter L n} {held : List TxPtr}
    (queued : limiter.mTxs.Queued config seed held) {txsToEvict : List (TxPtr × Bool)}
    (nodup : (txsToEvict.map Prod.fst).Nodup) (inHeld : ∀ e ∈ txsToEvict.map Prod.fst, e ∈ held)
    (txToFit : TxPtr) {maxLimits : Resource n}
    (fitsInt : (held.map config.getTxResources).sum + config.getTxResources txToFit ≤
      Resource.int64Limit)
    (fits : (held.map config.getTxResources).sum -
        ((txsToEvict.map Prod.fst).map config.getTxResources).sum +
        config.getTxResources txToFit ≤ maxLimits) :
    ∃ limiter', limiter.evictTransactions txsToEvict txToFit removeEvicted maxLimits =
      .ok limiter' := by
  obtain ⟨limiter', held', looped, queued', fitsInt', fits'⟩ :=
    evictTransactionsLoop_ok (config.getLane txToFit) (config.getTxResources_nonneg txToFit)
      txsToEvict limiter held queued nodup inHeld fitsInt fits
  have summed := queued'.totalResources_of_le
    (le_trans (le_add_of_nonneg_right (config.getTxResources_nonneg txToFit)) fitsInt')
  refine ⟨limiter', ?_⟩
  simp only [evictTransactions, queued.laneConfig, looped, summed, Except.ok_bind,
    Resource.addAssign_eq_ok fitsInt', fits', if_true, Except.pure_eq_ok]

end TxQueueLimiter

/-! ## Soundness of `canFitWithEviction` -/

namespace SurgePricingPriorityQueue

variable {L n : Nat} [NeZero L] {q : SurgePricingPriorityQueue L n} {config : LaneConfig L n}
  {seed : Nat}

end SurgePricingPriorityQueue

end StellarCore.Herder
