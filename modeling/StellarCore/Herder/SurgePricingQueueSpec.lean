import StellarCore.Herder.SurgePricingQueue
import StellarCore.Lib.StdSort
import StellarCore.Lib.Except
import Mathlib.Data.Nat.Bitwise
import Mathlib.Algebra.Order.Field.Rat
import Mathlib.Data.Prod.Lex
import Mathlib.Algebra.Order.BigOperators.Group.List
import Mathlib.Algebra.BigOperators.Fin

/-!
# What the surge-pricing queue selects

Over transactions with operations, `txLessThan` compares the key (bid per operation, address
mixed with the seed) in the lexicographic order, so the queue's comparator is a strict order
on transactions at distinct addresses: `TxComparator.before` is that order, best first when
the queue puts the highest fee rate on top.

Every lane's set then holds the lane's transactions in that order, and the lane iterators'
best top is the best transaction of the whole queue. With gaps allowed, each pass of
`popTopTxs` therefore takes the best remaining transaction, which makes
`getMostTopTxsWithinLimits` the greedy scan of all transactions best first. Without gaps,
every visited transaction is the top of its lane's set, so each lane is visited along a prefix
of its order.
-/

set_option autoImplicit false

namespace StellarCore.Herder

/-! ## The comparator's order -/

theorem feeRate3WayCompare_eq (a b : TxPtr) :
    feeRate3WayCompare a.inclusionFee a.numOperations b.inclusionFee b.numOperations =
      .ok (compare (a.inclusionFee.toNat * b.numOperations)
        (b.inclusionFee.toNat * a.numOperations)) := by
  simp [feeRate3WayCompare, bigMultiply_of_nonneg a.inclusionFee_nonneg (Int.natCast_nonneg _),
    bigMultiply_of_nonneg b.inclusionFee_nonneg (Int.natCast_nonneg _)]

namespace TxComparator

/-- The key `txLessThan` orders transactions with operations by: the bid per operation, then
the address mixed with the seed. -/
def key (c : TxComparator) (tx : TxPtr) : Lex (ℚ × Nat) :=
  toLex ((tx.inclusionFee : ℚ) / tx.numOperations, tx.address ^^^ c.mSeed)

/-- The order the queue keeps transactions in: the highest key first when `mIsGreater`. -/
def before (c : TxComparator) (a b : TxPtr) : Bool :=
  if c.mIsGreater then decide (c.key b < c.key a) else decide (c.key a < c.key b)

variable (c : TxComparator) {a b : TxPtr}

theorem inclusionFee_cast (tx : TxPtr) : (tx.inclusionFee : ℚ) = (tx.inclusionFee.toNat : ℚ) := by
  exact_mod_cast (Int.toNat_of_nonneg tx.inclusionFee_nonneg).symm

theorem rate_lt_iff (opsA : 0 < a.numOperations) (opsB : 0 < b.numOperations) :
    (a.inclusionFee : ℚ) / a.numOperations < (b.inclusionFee : ℚ) / b.numOperations ↔
      a.inclusionFee.toNat * b.numOperations < b.inclusionFee.toNat * a.numOperations := by
  rw [div_lt_div_iff₀ (by exact_mod_cast opsA) (by exact_mod_cast opsB), inclusionFee_cast a,
    inclusionFee_cast b]
  norm_cast

theorem rate_eq_iff (opsA : 0 < a.numOperations) (opsB : 0 < b.numOperations) :
    (a.inclusionFee : ℚ) / a.numOperations = (b.inclusionFee : ℚ) / b.numOperations ↔
      a.inclusionFee.toNat * b.numOperations = b.inclusionFee.toNat * a.numOperations := by
  rw [div_eq_div_iff (by exact_mod_cast opsA.ne') (by exact_mod_cast opsB.ne'),
    inclusionFee_cast a, inclusionFee_cast b]
  norm_cast

/-- Between transactions with operations, `txLessThan` compares keys. -/
theorem txLessThan_eq_decide (opsA : 0 < a.numOperations) (opsB : 0 < b.numOperations) :
    c.txLessThan a b = decide (c.key a < c.key b) := by
  rw [txLessThan, feeRate3WayCompare_eq]
  simp only [key, Prod.Lex.toLex_lt_toLex]
  rcases lt_trichotomy (a.inclusionFee.toNat * b.numOperations)
      (b.inclusionFee.toNat * a.numOperations) with below | same | above
  · simp [compare_lt_iff_lt.mpr below, (rate_lt_iff opsA opsB).mpr below]
  · simp [compare_eq_iff_eq.mpr same, (rate_eq_iff opsA opsB).mpr same]
  · have notBelow : ¬ a.inclusionFee.toNat * b.numOperations <
        b.inclusionFee.toNat * a.numOperations := by omega
    simp [compare_gt_iff_gt.mpr above, (rate_lt_iff opsA opsB).not.mpr notBelow,
      (rate_eq_iff opsA opsB).not.mpr above.ne']

/-- Transactions at distinct addresses have distinct keys. -/
theorem key_ne (differ : a.address ≠ b.address) : c.key a ≠ c.key b := by
  intro same
  have mixed := congrArg (fun k : Lex (ℚ × Nat) => (ofLex k).2) same
  exact differ (Nat.xor_left_inj.mp mixed)

theorem before_order : StdSort.StrictWeakOrder c.before := by
  cases greater : c.mIsGreater
  · exact StdSort.StrictWeakOrder.of_key c.key fun a b => by simp [before, greater]
  · exact StdSort.StrictWeakOrder.of_key (fun tx => OrderDual.toDual (c.key tx))
      fun a b => by simp [before, greater]

theorem before_total (differ : a.address ≠ b.address) :
    c.before a b = true ∨ c.before b a = true := by
  rcases lt_or_gt_of_ne (c.key_ne differ) with below | above
  · cases greater : c.mIsGreater <;> simp [before, greater, below]
  · cases greater : c.mIsGreater <;> simp [before, greater, above]

theorem before_asymm (ab : c.before a b = true) : c.before b a = false := by
  cases ba : c.before b a
  · rfl
  · have aa := c.before_order.trans ab ba
    rw [c.before_order.irrefl] at aa
    cases aa

/-- Between transactions with operations at distinct addresses, the queue's comparator is
`before`. -/
theorem call_eq_before (opsA : 0 < a.numOperations) (opsB : 0 < b.numOperations)
    (differ : a.address ≠ b.address) : c.call a b = c.before a b := by
  rw [call, before, txLessThan_eq_decide c opsA opsB]
  cases greater : c.mIsGreater
  · simp
  · rcases lt_or_gt_of_ne (c.key_ne differ) with below | above
    · simp [below, not_lt_of_gt below]
    · simp [above, not_lt_of_gt above]

end TxComparator

/-! ## Transactions the comparator orders -/

/-- Transactions the comparator orders strictly: each has operations, and no two share an
address. -/
structure Comparable (txs : List TxPtr) : Prop where
  withOps : ∀ tx ∈ txs, 0 < tx.numOperations
  addresses : (txs.map TxPtr.address).Nodup

namespace Comparable

variable {txs txs' : List TxPtr} (comparable : Comparable txs)
include comparable

theorem nodup : txs.Nodup := List.Nodup.of_map _ comparable.addresses

theorem perm (perm : txs'.Perm txs) : Comparable txs' :=
  ⟨fun tx member => comparable.withOps tx (perm.subset member),
    (perm.map TxPtr.address).nodup_iff.mpr comparable.addresses⟩

theorem sublist (sub : txs'.Sublist txs) : Comparable txs' :=
  ⟨fun tx member => comparable.withOps tx (sub.subset member),
    (sub.map TxPtr.address).nodup comparable.addresses⟩

theorem address_ne {a b : TxPtr} (memA : a ∈ txs) (memB : b ∈ txs) (differ : a ≠ b) :
    a.address ≠ b.address :=
  fun same => differ (List.inj_on_of_nodup_map comparable.addresses memA memB same)

theorem call_eq_before (c : TxComparator) {a b : TxPtr} (memA : a ∈ txs) (memB : b ∈ txs)
    (differ : a ≠ b) : c.call a b = c.before a b :=
  c.call_eq_before (comparable.withOps a memA) (comparable.withOps b memB)
    (comparable.address_ne memA memB differ)

theorem before_total (c : TxComparator) {a b : TxPtr} (memA : a ∈ txs) (memB : b ∈ txs)
    (differ : a ≠ b) : c.before a b = true ∨ c.before b a = true :=
  c.before_total (comparable.address_ne memA memB differ)

/-- A list of comparable transactions sorted by the comparator is sorted by `before`. -/
theorem pairwise_before (c : TxComparator)
    (ordered : txs.Pairwise fun a b => c.call a b = true) :
    txs.Pairwise fun a b => c.before a b = true := by
  refine (ordered.and comparable.nodup).imp_of_mem ?_
  intro a b memA memB ⟨called, differ⟩
  rwa [← comparable.call_eq_before c memA memB differ]

end Comparable

/-! ## The queue by lanes -/

namespace SurgePricingPriorityQueue

variable {L n : Nat} {q : SurgePricingPriorityQueue L n} {held : List TxPtr}

/-- The queue holds `held` by lanes: each lane's set is the lane's transactions of `held` in the
order of `held`, and each lane's count is the sum of its set's resources. -/
structure Holds (q : SurgePricingPriorityQueue L n) (held : List TxPtr) : Prop where
  sets : ∀ lane, q.mTxSortedSets lane = held.filter fun tx => q.mLaneConfig.getLane tx = lane
  counts : ∀ lane,
    q.mLaneCurrentCount lane = ((q.mTxSortedSets lane).map q.mLaneConfig.getTxResources).sum

theorem Holds.top (holds : q.Holds held) {it : LaneIter L} (member : it ∈ q.getTop) :
    it.top ∈ held ∧ q.mLaneConfig.getLane it.top = it.lane := by
  have atTop : it.top ∈ it.position := List.head_mem _
  rw [mem_getTop.1 member, holds.sets, List.mem_filter, decide_eq_true_eq] at atTop
  exact atTop

theorem Holds.getTop_eq_nil (holds : q.Holds []) : q.getTop = [] := by
  refine List.eq_nil_iff_forall_not_mem.mpr fun it member => ?_
  have atStart := mem_getTop.1 member
  rw [holds.sets, List.filter_nil] at atStart
  exact it.position_ne_nil atStart

theorem length_filter_lanes (lane : TxPtr → Fin L) (held : List TxPtr) :
    ((List.finRange L).map fun l => (held.filter fun tx => lane tx = l).length).sum =
      held.length := by
  induction held with
  | nil => simp
  | cons tx rest ih =>
      have split : ∀ l, ((tx :: rest).filter fun tx => lane tx = l).length =
          (rest.filter fun tx => lane tx = l).length + if lane tx = l then 1 else 0 := by
        intro l
        by_cases same : lane tx = l <;> simp [same]
      simp only [split, List.sum_map_add, ih, List.length_cons, Nat.add_left_cancel_iff]
      rw [← Fin.sum_univ_def]
      simp

theorem Holds.size (holds : q.Holds held) : q.size = held.length := by
  simp only [SurgePricingPriorityQueue.size, holds.sets]
  exact length_filter_lanes _ held

/-- Erasing the top of a lane erases it from what the queue holds. -/
theorem Holds.eraseIter (holds : q.Holds held) {it : LaneIter L} (member : it ∈ q.getTop) :
    ∃ q', q.eraseIter it = .ok q' ∧ q'.Holds (held.erase it.top) ∧
      q'.mComparator = q.mComparator ∧ q'.mLaneConfig = q.mLaneConfig := by
  obtain ⟨_, laneOfTop⟩ := holds.top member
  have inSet : it.top ∈ q.mTxSortedSets it.lane := by
    rw [← mem_getTop.1 member]
    exact List.head_mem _
  have nonneg : ∀ r ∈ (q.mTxSortedSets it.lane).map q.mLaneConfig.getTxResources, 0 ≤ r := by
    simp only [List.mem_map]
    rintro r ⟨tx, -, rfl⟩
    exact q.mLaneConfig.getTxResources_nonneg tx
  have covered : q.mLaneConfig.getTxResources it.top ≤ q.mLaneCurrentCount it.lane := by
    rw [holds.counts]
    exact List.single_le_sum nonneg _ (List.mem_map_of_mem inSet)
  have erased := List.sum_map_erase q.mLaneConfig.getTxResources inSet
  refine ⟨{ q with
      mLaneCurrentCount := Function.update q.mLaneCurrentCount it.lane
        (q.mLaneCurrentCount it.lane - q.mLaneConfig.getTxResources it.top)
      mTxSortedSets := Function.update q.mTxSortedSets it.lane
        ((q.mTxSortedSets it.lane).erase it.top) }, ?_, ⟨fun lane => ?_, fun lane => ?_⟩, rfl, rfl⟩
  · rw [SurgePricingPriorityQueue.eraseIter, eraseAt, if_pos covered,
      Resource.subAssign_eq_ok covered, Except.ok_bind]
    rfl
  · by_cases same : lane = it.lane
    · subst same
      simp only [Function.update_self, holds.sets, List.erase_filter]
    · have notMem : it.top ∉ held.filter fun tx => q.mLaneConfig.getLane tx = lane := by
        simp [laneOfTop, Ne.symm same]
      simp only [Function.update_of_ne same, holds.sets, ← List.erase_filter,
        List.erase_of_not_mem notMem]
  · by_cases same : lane = it.lane
    · subst same
      simp only [Function.update_self, holds.counts]
      exact (eq_sub_of_add_eq' erased).symm
    · simp only [Function.update_of_ne same, holds.counts]

end SurgePricingPriorityQueue

/-! ## The best top is the best transaction -/

namespace SurgePricingPriorityQueue

variable {L n : Nat} {q : SurgePricingPriorityQueue L n} {held : List TxPtr} {t : TxPtr}
  {rest : List TxPtr}

/-- Iterators of a queue at distinct positions are at distinct transactions. -/
theorem Holds.top_ne (holds : q.Holds held) {x y : LaneIter L} (memX : x ∈ q.getTop)
    (memY : y ∈ q.getTop) (differ : x ≠ y) : x.top ≠ y.top := by
  intro same
  apply differ
  refine eq_of_mem_getTop memX memY ?_
  rw [← (holds.top memX).2, ← (holds.top memY).2, same]

/-- On a queue that holds a sorted list, the lane iterators' best top is the list's first
transaction: it is the first of its lane, and it comes before the first of every other lane. -/
theorem Holds.getMutableInnerIter_getTop (holds : q.Holds (t :: rest))
    (comparable : Comparable (t :: rest))
    (sorted : (t :: rest).Pairwise fun a b => q.mComparator.before a b = true) :
    ∃ it, Iterator.getMutableInnerIter q.mComparator q.getTop = some it ∧ it ∈ q.getTop ∧
      it.top = t := by
  have setOfT : q.mTxSortedSets (q.mLaneConfig.getLane t) =
      t :: rest.filter fun tx => q.mLaneConfig.getLane tx = q.mLaneConfig.getLane t := by
    rw [holds.sets]
    simp
  let itT : LaneIter L :=
    ⟨q.mLaneConfig.getLane t, q.mTxSortedSets (q.mLaneConfig.getLane t), by simp [setOfT]⟩
  have memT : itT ∈ q.getTop := mem_getTop.2 rfl
  have topT : itT.top = t := by simp [itT, LaneIter.top, setOfT]
  refine ⟨itT, ?_, memT, topT⟩
  obtain ⟨first, others, split⟩ := List.exists_cons_of_ne_nil (List.ne_nil_of_mem memT)
  have agree : ∀ x ∈ first :: others, ∀ y ∈ first :: others, x ≠ y →
      q.mComparator.call y.top x.top = q.mComparator.before y.top x.top := by
    rw [← split]
    intro x memX y memY differ
    exact comparable.call_eq_before q.mComparator (holds.top memY).1 (holds.top memX).1
      (holds.top_ne memY memX differ.symm)
  have byBefore : Iterator.getMutableInnerIter q.mComparator q.getTop =
      ArgMax.scan (fun best it => q.mComparator.before it.top best.top) none q.getTop := by
    rw [Iterator.getMutableInnerIter, split, ArgMax.scan_none_cons, ArgMax.scan_none_cons]
    exact ArgMax.scan_congr (split ▸ nodup_getTop) agree
  rw [byBefore]
  refine @ArgMax.scan_none_eq_of_best _ (fun best it => q.mComparator.before it.top best.top)
    (fun it => q.mComparator.before_order.irrefl it.top)
    (fun {x y z} (xy : q.mComparator.before y.top x.top = true)
      (yz : q.mComparator.before z.top y.top = true) => q.mComparator.before_order.trans yz xy)
    _ _ memT fun x memX differ => ?_
  -- every other lane's first transaction comes after `t`
  obtain ⟨inHeld, _⟩ := holds.top memX
  have notT : x.top ≠ t := topT ▸ holds.top_ne memX memT differ
  rw [topT]
  exact List.rel_of_pairwise_cons sorted ((List.mem_cons.mp inHeld).resolve_left notT)

end SurgePricingPriorityQueue

/-! ## With gaps allowed, `popTopTxs` scans the queue best first -/

namespace SurgePricingPriorityQueue

variable {L n : Nat} [NeZero L]

/-- What `popTopTxs` has produced so far: its two output vectors and the visited
transactions. -/
structure Scan (L n : Nat) where
  laneLeftUntilLimit : Fin L → Resource n
  hadTxNotFittingLane : Fin L → Bool
  visited : List TxPtr

/-- The outputs of a state of `popTopTxs`. -/
def PopTopTxsState.scan (s : PopTopTxsState L n) : Scan L n :=
  ⟨s.laneLeftUntilLimit, s.hadTxNotFittingLane, s.visited⟩

/-- One pass of `popTopTxs` with gaps allowed, on the transaction `tx` at the top: a gap
when it does not fit, a visit otherwise. -/
def scanTop (config : LaneConfig L n) (visitor : TxPtr → VisitTxResult) (s : Scan L n)
    (tx : TxPtr) : Except String (Scan L n) :=
  let curr := config.getTxResources tx
  let lane := config.getLane tx
  if (curr.anyGreater (s.laneLeftUntilLimit lane) ||
      curr.anyGreater (s.laneLeftUntilLimit genericLane)) then
    pure { s with
      hadTxNotFittingLane := markNotFitting config s.laneLeftUntilLimit s.hadTxNotFittingLane tx }
  else do
    let booked ← bookVisit config s.laneLeftUntilLimit s.hadTxNotFittingLane tx (visitor tx)
    pure ⟨booked.1, booked.2, s.visited ++ [tx]⟩

/-- With gaps allowed, each pass of the loop is a pass of the scan on the best remaining
transaction; the induction is on what the queue holds, best first. -/
theorem popTopTxsLoop_allowGaps (visitor : TxPtr → VisitTxResult) :
    ∀ (held : List TxPtr) (s : PopTopTxsState L n) (fuel : Nat), s.queue.Holds held →
      Comparable held → held.Pairwise (fun a b => s.queue.mComparator.before a b = true) →
      held.length < fuel →
      (popTopTxsLoop true visitor fuel s).map PopTopTxsState.scan =
        held.foldlM (scanTop s.queue.mLaneConfig visitor) s.scan
  | [], s, fuel + 1, holds, _, _, _ => by
      simp [popTopTxsLoop, holds.getTop_eq_nil, findTop_zero, Except.map,
        PopTopTxsState.scan]
  | t :: rest, s, fuel + 1, holds, comparable, sorted, enough => by
      obtain ⟨it, best, member, topT⟩ := holds.getMutableInnerIter_getTop comparable sorted
      obtain ⟨k, length⟩ : ∃ k, s.queue.getTop.length = k + 1 :=
        Nat.exists_eq_add_one.mpr (List.length_pos_of_mem member)
      obtain ⟨q', erased, holds', sameComparator, sameConfig⟩ := holds.eraseIter member
      rw [topT, List.erase_cons_head] at holds'
      have comparableRest := comparable.sublist (List.sublist_cons_self t rest)
      have sortedRest : rest.Pairwise fun a b => q'.mComparator.before a b = true := by
        rw [sameComparator]
        exact (List.pairwise_cons.mp sorted).2
      have enoughRest : rest.length < fuel := by simpa using enough
      have search : s.queue.findTop true s.laneLeftUntilLimit s.queue.getTop.length s.queue.getTop =
          if ((s.queue.mLaneConfig.getTxResources t).anyGreater
                (s.laneLeftUntilLimit (s.queue.mLaneConfig.getLane t)) ||
              (s.queue.mLaneConfig.getTxResources t).anyGreater
                (s.laneLeftUntilLimit genericLane)) then .gap it else .found it := by
        rw [length, findTop_of_allowGaps best, topT]
      by_cases skip : ((s.queue.mLaneConfig.getTxResources t).anyGreater
            (s.laneLeftUntilLimit (s.queue.mLaneConfig.getLane t)) ||
          (s.queue.mLaneConfig.getTxResources t).anyGreater (s.laneLeftUntilLimit genericLane)) = true
      · -- the top does not fit: it is erased as a gap
        rw [if_pos skip] at search
        simp only [popTopTxsLoop, search, erased, Except.ok_bind, List.foldlM_cons, scanTop,
          PopTopTxsState.scan, skip, ↓reduceIte, Except.pure_eq_ok, topT]
        rw [popTopTxsLoop_allowGaps visitor rest _ fuel holds' comparableRest sortedRest enoughRest,
          sameConfig]
        rfl
      · -- the top fits: it is visited, then erased
        rw [if_neg skip] at search
        simp only [popTopTxsLoop, search, erased, Except.ok_bind, List.foldlM_cons, scanTop,
          PopTopTxsState.scan, skip, Except.pure_eq_ok, topT]
        cases bookVisit s.queue.mLaneConfig s.laneLeftUntilLimit s.hadTxNotFittingLane t
            (visitor t) with
        | error e => rfl
        | ok booked =>
            simp only [Except.ok_bind]
            rw [popTopTxsLoop_allowGaps visitor rest _ fuel holds' comparableRest sortedRest
              enoughRest, sameConfig]
            rfl

end SurgePricingPriorityQueue

/-! ## The greedy selection -/

/-- A split of `l ++ [t]` around one element is a split of `l`, or the split at `t`. -/
theorem exists_split_append_singleton {α : Type} {P : List α → α → Prop} {l : List α} {t : α} :
    (∃ pre x post, l ++ [t] = pre ++ x :: post ∧ P pre x) ↔
      (∃ pre x post, l = pre ++ x :: post ∧ P pre x) ∨ P l t := by
  constructor
  · rintro ⟨pre, x, post, split, holds⟩
    rcases List.eq_nil_or_concat post with rfl | ⟨post', y, rfl⟩
    · obtain ⟨rfl, same⟩ := List.append_inj' split rfl
      cases same
      exact .inr holds
    · have split' : l ++ [t] = (pre ++ x :: post') ++ [y] := by simpa using split
      obtain ⟨rfl, -⟩ := List.append_inj' split' rfl
      exact .inl ⟨pre, x, post', rfl, holds⟩
  · rintro (⟨pre, x, post, rfl, holds⟩ | holds)
    · exact ⟨pre, x, post ++ [t], by simp, holds⟩
    · exact ⟨l, t, [], rfl, holds⟩

namespace SurgePricingPriorityQueue

variable {L n : Nat} [NeZero L] (config : LaneConfig L n)

/-- What the transactions in `kept` take of lane `l`'s limit: all of them count against the
generic lane, and a limited lane's own transactions against that lane. -/
def laneUsage (kept : List TxPtr) (l : Fin L) : Resource n :=
  ((kept.filter fun tx => l = genericLane ∨ config.getLane tx = l).map config.getTxResources).sum

/-- `tx` fits lane `l` next to `kept`. -/
def FitsLane (kept : List TxPtr) (tx : TxPtr) (l : Fin L) : Prop :=
  laneUsage config kept l + config.getTxResources tx ≤ config.getLaneLimits l

instance (kept : List TxPtr) (tx : TxPtr) (l : Fin L) : Decidable (FitsLane config kept tx l) :=
  inferInstanceAs (Decidable (_ ≤ _))

/-- `tx` fits next to `kept`: within the generic limit and within its own lane's. -/
def Fits (kept : List TxPtr) (tx : TxPtr) : Prop :=
  FitsLane config kept tx genericLane ∧ FitsLane config kept tx (config.getLane tx)

instance (kept : List TxPtr) (tx : TxPtr) : Decidable (Fits config kept tx) :=
  inferInstanceAs (Decidable (_ ∧ _))

/-- The selection `getMostTopTxsWithinLimits` is for: scan the transactions in order and keep
each one that fits next to those kept before it. -/
def greedySelect (sorted : List TxPtr) : List TxPtr :=
  sorted.foldl (fun kept tx => if Fits config kept tx then kept ++ [tx] else kept) []

/-- Lane `l`'s flag as the scan of `sorted` raises it: some transaction the scan skipped did not
fit lane `l`, its own, or, for the generic lane, fitted its own lane but not the generic
one. -/
def NotFittingRaised (sorted : List TxPtr) (l : Fin L) : Prop :=
  ∃ pre tx post, sorted = pre ++ tx :: post ∧ ¬ Fits config (greedySelect config pre) tx ∧
    (config.getLane tx = l ∧ ¬ FitsLane config (greedySelect config pre) tx l ∨
      l = genericLane ∧ FitsLane config (greedySelect config pre) tx (config.getLane tx))

variable {config}

theorem greedySelect_append_singleton (pre : List TxPtr) (t : TxPtr) :
    greedySelect config (pre ++ [t]) =
      if Fits config (greedySelect config pre) t then greedySelect config pre ++ [t]
      else greedySelect config pre := by
  unfold greedySelect
  rw [List.foldl_append]
  rfl

theorem laneUsage_append_singleton (kept : List TxPtr) (t : TxPtr) (l : Fin L) :
    laneUsage config (kept ++ [t]) l = laneUsage config kept l +
      if l = genericLane ∨ config.getLane t = l then config.getTxResources t else 0 := by
  by_cases counted : l = genericLane ∨ config.getLane t = l <;> simp [laneUsage, counted]

theorem notFittingRaised_append_singleton (pre : List TxPtr) (t : TxPtr) (l : Fin L) :
    NotFittingRaised config (pre ++ [t]) l ↔ NotFittingRaised config pre l ∨
      ¬ Fits config (greedySelect config pre) t ∧
        (config.getLane t = l ∧ ¬ FitsLane config (greedySelect config pre) t l ∨
          l = genericLane ∧ FitsLane config (greedySelect config pre) t (config.getLane t)) :=
  exists_split_append_singleton
    (P := fun pre tx => ¬ Fits config (greedySelect config pre) tx ∧
      (config.getLane tx = l ∧ ¬ FitsLane config (greedySelect config pre) tx l ∨
        l = genericLane ∧ FitsLane config (greedySelect config pre) tx (config.getLane tx)))

/-- What is left of a limit after a usage takes a transaction exactly when the transaction
fits. -/
theorem anyGreater_sub_eq_false_iff {res limit usage : Resource n} :
    res.anyGreater (limit - usage) = false ↔ usage + res ≤ limit := by
  rw [Resource.anyGreater_eq_false_iff, le_sub_iff_add_le, add_comm]

/-- A processed visit takes the transaction's resources from the generic lane and from its
own. -/
theorem bookVisit_processed {left : Fin L → Resource n} {flags : Fin L → Bool} {t : TxPtr}
    (fitsGeneric : config.getTxResources t ≤ left genericLane)
    (fitsOwn : config.getTxResources t ≤ left (config.getLane t)) :
    bookVisit config left flags t .processed =
      .ok (fun l => if l = genericLane ∨ config.getLane t = l then
        left l - config.getTxResources t else left l, flags) := by
  rw [bookVisit, Resource.subAssign_eq_ok fitsGeneric, Except.ok_bind]
  by_cases generic : config.getLane t = genericLane
  · rw [if_neg (not_not.mpr generic)]
    congr 2
    funext l
    by_cases atGeneric : l = genericLane
    · simp [atGeneric]
    · simp [atGeneric, Ne.symm atGeneric, generic]
  · rw [if_pos generic, Function.update_of_ne generic,
      Resource.subAssign_eq_ok fitsOwn, Except.ok_bind]
    congr 2
    funext l
    by_cases atGeneric : l = genericLane
    · subst atGeneric
      simp [Function.update_of_ne (Ne.symm generic)]
    · by_cases atOwn : l = config.getLane t
      · subst atOwn
        simp [atGeneric]
      · simp [atGeneric, Ne.symm atOwn, Function.update_of_ne atOwn]

/-- The flag a skipped transaction raises. -/
theorem markNotFitting_eq_true_iff {left : Fin L → Resource n} {flags : Fin L → Bool}
    {t : TxPtr} {l : Fin L} :
    markNotFitting config left flags t l = true ↔ flags l = true ∨
      (config.getLane t = l ∧ (config.getTxResources t).anyGreater (left l) = true ∨
        l = genericLane ∧ (config.getTxResources t).anyGreater (left (config.getLane t)) = false) := by
  unfold markNotFitting
  split
  · next exceeds =>
      have notFit := Resource.anyGreater_eq_true_iff.1 exceeds
      by_cases atOwn : l = config.getLane t
      · subst atOwn
        simp [exceeds]
      · simp [Function.update_of_ne atOwn, Ne.symm atOwn, notFit]
  · next under =>
      by_cases atGeneric : l = genericLane
      · subst atGeneric
        simp [under]
      · have notOver : ¬ (config.getLane t = l ∧
            (config.getTxResources t).anyGreater (left l) = true) := by
          rintro ⟨rfl, exceeds⟩
          exact under exceeds
        simp [atGeneric, notOver]

end SurgePricingPriorityQueue

namespace SurgePricingPriorityQueue

variable {L n : Nat} [NeZero L] {config : LaneConfig L n}

/-- With a visitor that processes everything, the scan keeps exactly the greedy selection: what
is left of each lane is its limit less what the kept transactions take, and a lane's flag is
raised exactly as `NotFittingRaised` says. The induction adds one transaction at the end. -/
theorem foldlM_scanTop_processed (sorted : List TxPtr) :
    ∃ r, sorted.foldlM (scanTop config fun _ => .processed)
        ⟨config.getLaneLimits, fun _ => false, []⟩ = .ok r ∧
      r.visited = greedySelect config sorted ∧
      (∀ l, r.laneLeftUntilLimit l = config.getLaneLimits l - laneUsage config r.visited l) ∧
      ∀ l, r.hadTxNotFittingLane l = true ↔ NotFittingRaised config sorted l := by
  induction sorted using List.reverseRecOn with
  | nil =>
      refine ⟨_, rfl, rfl, fun l => by simp [laneUsage], fun l => ?_⟩
      simp [NotFittingRaised]
  | append_singleton pre t ih =>
      obtain ⟨r, scanned, visited, left, flags⟩ := ih
      have fitsLane : ∀ l, (config.getTxResources t).anyGreater (r.laneLeftUntilLimit l) = false ↔
          FitsLane config (greedySelect config pre) t l := by
        intro l
        rw [left l, anyGreater_sub_eq_false_iff, visited]
        rfl
      simp only [List.foldlM_append, scanned, Except.ok_bind, List.foldlM_cons, List.foldlM_nil,
        bind_pure]
      by_cases fits : Fits config (greedySelect config pre) t
      · -- `t` fits: the scan visits it and takes its resources
        obtain ⟨fitsGeneric, fitsOwn⟩ := fits
        have underGeneric := (fitsLane genericLane).mpr fitsGeneric
        have underOwn := (fitsLane (config.getLane t)).mpr fitsOwn
        have visit : scanTop config (fun _ => .processed) r t = .ok ⟨fun l =>
            if l = genericLane ∨ config.getLane t = l then
              r.laneLeftUntilLimit l - config.getTxResources t else r.laneLeftUntilLimit l,
            r.hadTxNotFittingLane, r.visited ++ [t]⟩ := by
          rw [Resource.anyGreater_eq_false_iff] at underGeneric underOwn
          simp only [scanTop, bookVisit_processed underGeneric underOwn, (fitsLane _).mpr fitsGeneric,
            (fitsLane _).mpr fitsOwn]
          rfl
        refine ⟨_, visit, ?_, fun l => ?_, fun l => ?_⟩
        · rw [greedySelect_append_singleton, if_pos ⟨fitsGeneric, fitsOwn⟩, visited]
        · simp only [left l, visited, laneUsage_append_singleton]
          split
          · rw [sub_sub]
          · rw [add_zero]
        · rw [flags l, notFittingRaised_append_singleton]
          simp [fitsGeneric, fitsOwn, Fits]
      · -- `t` does not fit: the scan skips it and raises a flag
        have exceeds : ((config.getTxResources t).anyGreater (r.laneLeftUntilLimit (config.getLane t)) ||
            (config.getTxResources t).anyGreater (r.laneLeftUntilLimit genericLane)) = true := by
          rw [Bool.or_eq_true, ← Bool.not_eq_false, ← Bool.not_eq_false, fitsLane, fitsLane]
          exact not_and_or.mp fun bothFit => fits ⟨bothFit.2, bothFit.1⟩
        have skip : scanTop config (fun _ => .processed) r t = .ok { r with
            hadTxNotFittingLane := markNotFitting config r.laneLeftUntilLimit
              r.hadTxNotFittingLane t } := by
          simp only [scanTop, exceeds, ↓reduceIte]
          rfl
        refine ⟨_, skip, ?_, fun l => ?_, fun l => ?_⟩
        · rw [greedySelect_append_singleton, if_neg fits, ← visited]
        · exact left l
        · rw [markNotFitting_eq_true_iff, flags l, notFittingRaised_append_singleton]
          refine or_congr Iff.rfl ⟨fun raised => ⟨fits, ?_⟩, fun skipped => ?_⟩
          · rcases raised with ⟨rfl, exceeds⟩ | ⟨rfl, under⟩
            · exact .inl ⟨rfl, fun fitsOwn => by rw [(fitsLane _).mpr fitsOwn] at exceeds; cases exceeds⟩
            · exact .inr ⟨rfl, (fitsLane _).mp under⟩
          · rcases skipped.2 with ⟨rfl, notOwn⟩ | ⟨rfl, fitsOwn⟩
            · exact .inl ⟨rfl, by rw [← Bool.not_eq_false, fitsLane]; exact notOwn⟩
            · exact .inr ⟨rfl, (fitsLane _).mpr fitsOwn⟩

end SurgePricingPriorityQueue

/-! ## Adding comparable transactions sorts every lane -/

namespace SurgePricingPriorityQueue

variable {L n : Nat} {q : SurgePricingPriorityQueue L n} {added : List TxPtr}

/-- A queue built from `added`: each lane's set holds the lane's transactions of `added`,
sorted by `before`, and each lane's count is the sum of its set's resources. -/
structure Built (q : SurgePricingPriorityQueue L n) (added : List TxPtr) : Prop where
  sorted : ∀ lane, (q.mTxSortedSets lane).Pairwise fun a b => q.mComparator.before a b = true
  perm : ∀ lane,
    (q.mTxSortedSets lane).Perm (added.filter fun tx => q.mLaneConfig.getLane tx = lane)
  counts : ∀ lane,
    q.mLaneCurrentCount lane = ((q.mTxSortedSets lane).map q.mLaneConfig.getTxResources).sum

theorem sum_nonneg_of_config (config : LaneConfig L n) (txs : List TxPtr) :
    0 ≤ (txs.map config.getTxResources).sum :=
  List.sum_nonneg fun r member => by
    obtain ⟨tx, -, rfl⟩ := List.mem_map.mp member
    exact config.getTxResources_nonneg tx

theorem built_make (isHighestPriority : Bool) (config : LaneConfig L n) (seed : Nat) :
    (make isHighestPriority config seed).Built [] :=
  ⟨fun _ => List.Pairwise.nil, fun _ => List.Perm.nil, fun _ => rfl⟩

theorem sum_le_of_sublist {config : LaneConfig L n} {l l' : List TxPtr} (sub : l.Sublist l') :
    (l.map config.getTxResources).sum ≤ (l'.map config.getTxResources).sum := by
  refine (sub.map _).sum_le_sum fun r member => ?_
  obtain ⟨tx, -, rfl⟩ := List.mem_map.mp member
  exact config.getTxResources_nonneg tx

/-- Replacing one lane's set by a sorted list of that lane's transactions of `added'`, counted,
builds the queue from `added'` when the other lanes keep their transactions. -/
theorem Built.setLane (built : q.Built added) {lane : Fin L} {set added' : List TxPtr}
    (sorted : set.Pairwise fun a b => q.mComparator.before a b = true)
    (perm : set.Perm (added'.filter fun tx => q.mLaneConfig.getLane tx = lane))
    (others : ∀ l, l ≠ lane → (added'.filter fun tx => q.mLaneConfig.getLane tx = l) =
      added.filter fun tx => q.mLaneConfig.getLane tx = l) :
    (q.setLane lane (set.map q.mLaneConfig.getTxResources).sum set).Built added' where
  sorted l := by
    by_cases same : l = lane
    · subst same
      simpa using sorted
    · simpa [Function.update_of_ne same] using built.sorted l
  perm l := by
    rw [setLane_mTxSortedSets, setLane_mLaneConfig]
    by_cases same : l = lane
    · subst same
      rw [Function.update_self]
      exact perm
    · rw [Function.update_of_ne same, others l same]
      exact built.perm l
  counts l := by
    by_cases same : l = lane
    · subst same
      simp
    · simpa [Function.update_of_ne same] using built.counts l

/-- A transaction comparable with every one added before goes into its lane's set: the set
takes it, and the queue with that set and the count raised by its resources is built from the
transactions with it. -/
theorem Built.insert {t : TxPtr} (built : q.Built added) (comparable : Comparable (added ++ [t])) :
    (OrderedSet.insert q.mComparator.call t (q.mTxSortedSets (q.mLaneConfig.getLane t))).2 =
        true ∧
      (q.setLane (q.mLaneConfig.getLane t)
        (q.mLaneCurrentCount (q.mLaneConfig.getLane t) + q.mLaneConfig.getTxResources t)
        (OrderedSet.insert q.mComparator.call t
          (q.mTxSortedSets (q.mLaneConfig.getLane t))).1).Built (added ++ [t]) := by
  set lane := q.mLaneConfig.getLane t with laneOfT
  have inAdded : ∀ b ∈ q.mTxSortedSets lane, b ∈ added ++ [t] := fun b member =>
    List.mem_append_left _ (List.mem_of_mem_filter ((built.perm lane).subset member))
  have fresh : t ∉ q.mTxSortedSets lane := fun member => by
    have nodup := comparable.nodup
    rw [List.nodup_append] at nodup
    exact nodup.2.2 t (List.mem_of_mem_filter ((built.perm lane).subset member)) t
      List.mem_cons_self rfl
  have memT : t ∈ added ++ [t] := List.mem_append_right _ List.mem_cons_self
  have agree : OrderedSet.insert q.mComparator.call t (q.mTxSortedSets lane) =
      OrderedSet.insert q.mComparator.before t (q.mTxSortedSets lane) := by
    refine OrderedSet.insert_congr fun b member => ?_
    have differ : t ≠ b := fun same => fresh (same ▸ member)
    exact ⟨comparable.call_eq_before _ memT (inAdded b member) differ,
      comparable.call_eq_before _ (inAdded b member) memT (Ne.symm differ)⟩
  obtain ⟨inserted, sortedSet⟩ := OrderedSet.insert_sorted q.mComparator.before_order
    (built.sorted lane) fun b member =>
      comparable.before_total _ memT (inAdded b member) fun same => fresh (same ▸ member)
  have permSet := ((OrderedSet.insert_cases t _).resolve_right fun kept => by
    rw [kept] at inserted; cases inserted).2
  have counted : q.mLaneCurrentCount lane + q.mLaneConfig.getTxResources t =
      ((OrderedSet.insert q.mComparator.before t (q.mTxSortedSets lane)).1.map
        q.mLaneConfig.getTxResources).sum := by
    rw [built.counts, (permSet.map _).sum_eq, List.map_cons, List.sum_cons, add_comm]
  rw [agree, counted]
  refine ⟨inserted, built.setLane sortedSet ?_ fun l other => ?_⟩
  · simp only [List.filter_append, List.filter_singleton, ← laneOfT, decide_true, cond_true]
    exact permSet.trans ((built.perm _).cons t |>.trans (List.perm_append_singleton _ _).symm)
  · have elsewhere : (decide (q.mLaneConfig.getLane t = l)) = false := by simpa using Ne.symm other
    simp [List.filter_append, elsewhere]

/-- Adding a transaction comparable with every one added before inserts it into its lane's
set, in order, and counts its resources; the sum of all of them fits `int64_t`. -/
theorem Built.add {t : TxPtr} (built : q.Built added) (comparable : Comparable (added ++ [t]))
    (fits : ((added ++ [t]).map q.mLaneConfig.getTxResources).sum ≤ Resource.int64Limit) :
    ∃ q', q.add t = .ok q' ∧ q'.Built (added ++ [t]) ∧ q'.mComparator = q.mComparator ∧
      q'.mLaneConfig = q.mLaneConfig := by
  obtain ⟨inserted, built'⟩ := built.insert comparable
  -- the lane's count and the new transaction stay within `int64_t`
  have fitsLane : q.mLaneCurrentCount (q.mLaneConfig.getLane t) + q.mLaneConfig.getTxResources t ≤
      Resource.int64Limit := by
    refine le_trans ?_ fits
    rw [built.counts, (built.perm _).map _ |>.sum_eq, List.map_append, List.sum_append,
      List.map_singleton, List.sum_singleton]
    exact add_le_add (sum_le_of_sublist List.filter_sublist) le_rfl
  refine ⟨_, ?_, built', rfl, rfl⟩
  simp only [SurgePricingPriorityQueue.add, inserted, if_true, Resource.addAssign_eq_ok fitsLane,
    Except.ok_bind]
  rfl

/-- Erasing a transaction of a lane's set erases it from the transactions the queue is built
from. -/
theorem Built.eraseAt {lane : Fin L} {t : TxPtr} (built : q.Built added)
    (member : t ∈ q.mTxSortedSets lane) :
    ∃ q', q.eraseAt lane t = .ok q' ∧ q'.Built (added.erase t) ∧
      q'.mComparator = q.mComparator ∧ q'.mLaneConfig = q.mLaneConfig := by
  have laneOfT : q.mLaneConfig.getLane t = lane := by
    simpa using (List.mem_filter.mp ((built.perm lane).subset member)).2
  have split := List.sum_map_erase q.mLaneConfig.getTxResources member
  have covered : q.mLaneConfig.getTxResources t ≤ q.mLaneCurrentCount lane := by
    rw [built.counts, ← split]
    exact le_add_of_nonneg_right (sum_nonneg_of_config q.mLaneConfig _)
  have counted : q.mLaneCurrentCount lane - q.mLaneConfig.getTxResources t =
      (((q.mTxSortedSets lane).erase t).map q.mLaneConfig.getTxResources).sum := by
    rw [built.counts, ← split, add_sub_cancel_left]
  refine ⟨_, eraseAt_eq_ok_iff.2 ⟨covered, rfl⟩, ?_, rfl, rfl⟩
  rw [counted]
  refine built.setLane ((built.sorted lane).sublist List.erase_sublist) ?_ fun l other => ?_
  · rw [← List.erase_filter]
    exact (built.perm lane).erase t
  · have notMem : t ∉ added.filter fun tx => q.mLaneConfig.getLane tx = l := by
      simp [laneOfT, Ne.symm other]
    rw [← List.erase_filter, List.erase_of_not_mem notMem]

/-- Adding comparable transactions whose resources sum within `int64_t` never fails. -/
theorem foldlM_add : ∀ (txs added : List TxPtr) (q : SurgePricingPriorityQueue L n),
    q.Built added → Comparable (added ++ txs) →
    ((added ++ txs).map q.mLaneConfig.getTxResources).sum ≤ Resource.int64Limit →
    ∃ q', txs.foldlM add q = .ok q' ∧ q'.Built (added ++ txs) ∧
      q'.mComparator = q.mComparator ∧ q'.mLaneConfig = q.mLaneConfig
  | [], added, q, built, _, _ => ⟨q, rfl, by simpa using built, rfl, rfl⟩
  | t :: rest, added, q, built, comparable, fits => by
      have split : added ++ t :: rest = (added ++ [t]) ++ rest := by simp
      rw [split] at comparable fits
      have fitsT : ((added ++ [t]).map q.mLaneConfig.getTxResources).sum ≤ Resource.int64Limit :=
        le_trans (sum_le_of_sublist (List.sublist_append_left _ _)) fits
      obtain ⟨q', added', built', sameComparator, sameConfig⟩ :=
        built.add (comparable.sublist (List.sublist_append_left _ _)) fitsT
      obtain ⟨q'', folded, built'', sameComparator', sameConfig'⟩ :=
        foldlM_add rest (added ++ [t]) q' built' comparable (sameConfig ▸ fits)
      refine ⟨q'', ?_, split ▸ built'', sameComparator'.trans sameComparator,
        sameConfig'.trans sameConfig⟩
      rw [List.foldlM_cons, added', Except.ok_bind, folded]

/-- Every lane of a built queue is the lane's part of the sorted list: both are sorted by the
strict order `before` and hold the same transactions. -/
theorem Built.holds {txs sorted : List TxPtr} (built : q.Built txs) (perm : sorted.Perm txs)
    (ordered : sorted.Pairwise fun a b => q.mComparator.before a b = true) : q.Holds sorted where
  sets lane := List.Perm.eq_of_pairwise
    (fun a b _ _ ab ba => absurd (q.mComparator.before_asymm ab) (by simp [ba]))
    (built.sorted lane) (ordered.filter _) ((built.perm lane).trans (perm.filter _).symm)
  counts := built.counts

end SurgePricingPriorityQueue

/-! ## Without gaps, `popTopTxs` visits every lane along a prefix -/

namespace SurgePricingPriorityQueue

variable {L n : Nat} [NeZero L] {config : LaneConfig L n}

/-- A visit the inner loop allows always books. -/
theorem bookVisit_ok {left : Fin L → Resource n} {flags : Fin L → Bool} {t : TxPtr}
    (fits : ((config.getTxResources t).anyGreater (left (config.getLane t)) ||
      (config.getTxResources t).anyGreater (left genericLane)) = false)
    (result : VisitTxResult) : ∃ booked, bookVisit config left flags t result = .ok booked := by
  rw [Bool.or_eq_false_iff, Resource.anyGreater_eq_false_iff,
    Resource.anyGreater_eq_false_iff] at fits
  cases result with
  | skipped => exact ⟨_, rfl⟩
  | rejected => exact ⟨_, rfl⟩
  | processed => exact ⟨_, bookVisit_processed fits.2 fits.1⟩

/-- Without gaps every visited transaction is the first of its lane's set, so what has been
visited of a lane and what the lane's set still holds make up the lane as it started. The
induction is on the fuel, one pass per visit. -/
theorem popTopTxsLoop_noGaps (visitor : TxPtr → VisitTxResult) (lanes : Fin L → List TxPtr) :
    ∀ (fuel : Nat) (s : PopTopTxsState L n) (held : List TxPtr), s.queue.mLaneConfig = config →
      s.queue.Holds held → held.length < fuel →
      (∀ l, s.visited.filter (fun tx => config.getLane tx = l) ++ s.queue.mTxSortedSets l =
        lanes l) →
      ∃ r, popTopTxsLoop false visitor fuel s = .ok r ∧
        ∀ l, (r.visited.filter fun tx => config.getLane tx = l) <+: lanes l
  | fuel + 1, s, held, sameConfig, holds, enough, split => by
      rcases search : s.queue.findTop false s.laneLeftUntilLimit s.queue.getTop.length
          s.queue.getTop with it | it | _
      · exact absurd search findTop_ne_gap
      · -- the top that fits is visited, then erased from its lane
        have member := findTop_mem (.inl search)
        obtain ⟨inHeld, laneOfTop⟩ := holds.top member
        obtain ⟨booked, booking⟩ := @bookVisit_ok _ _ _ _ _ s.hadTxNotFittingLane _
          (findTop_found_fits search) (visitor it.top)
        obtain ⟨q', erased, holds', _, sameConfig'⟩ := holds.eraseIter member
        have setsAfter : ∀ l, q'.mTxSortedSets l = (s.queue.mTxSortedSets l).erase it.top := by
          intro l
          rw [holds'.sets, holds.sets, sameConfig', List.erase_filter]
        have splitAfter : ∀ l, (s.visited ++ [it.top]).filter (fun tx => config.getLane tx = l) ++
            q'.mTxSortedSets l = lanes l := by
          intro l
          rw [setsAfter, ← split l, List.filter_append, List.append_assoc]
          congr 1
          by_cases same : l = it.lane
          · have atStart : s.queue.mTxSortedSets l = it.top :: it.position.tail := by
              rw [same, ← mem_getTop.1 member]
              exact (List.cons_head_tail _).symm
            rw [atStart, List.erase_cons_head]
            simp [← sameConfig, laneOfTop, same]
          · have notMem : it.top ∉ s.queue.mTxSortedSets l := by
              rw [holds.sets]
              simp [laneOfTop, Ne.symm same]
            rw [List.erase_of_not_mem notMem]
            simp [← sameConfig, laneOfTop, Ne.symm same]
        have enough' : (held.erase it.top).length < fuel := by
          have nonempty := List.length_pos_of_mem inHeld
          rw [List.length_erase_of_mem inHeld]
          omega
        obtain ⟨r, loop, prefixes⟩ := popTopTxsLoop_noGaps visitor lanes fuel
          ⟨q', booked.1, booked.2, s.visited ++ [it.top]⟩ _ (sameConfig'.trans sameConfig) holds'
          enough' splitAfter
        refine ⟨r, ?_, prefixes⟩
        simp only [popTopTxsLoop, search, booking, erased, Except.ok_bind]
        exact loop
      · -- nothing more can be popped
        exact ⟨s, by simp [popTopTxsLoop, search], fun l => ⟨_, split l⟩⟩

end SurgePricingPriorityQueue

/-! ## The selection of `getMostTopTxsWithinLimits` and the visit of `visitTopTxs` -/

namespace SurgePricingPriorityQueue

variable {L n : Nat} [NeZero L]

end SurgePricingPriorityQueue

end StellarCore.Herder
