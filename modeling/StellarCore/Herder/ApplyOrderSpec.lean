import StellarCore.Herder.ApplyOrder
import StellarCore.Lib.Except

/-!
# The apply order is canonical

Every comparator of the apply order compares a hash or a sequence number, so it is a strict
weak order; on transactions of distinct full hashes, and on the transactions of one account
with distinct sequence numbers, no two are equivalent, and each sort has one result
(`StdSort`).

The loop of `sortedForApplySequential` builds batch `k` from the `k`-th transaction of every
queue (`buildTxBatches_eq`), so the result is `sequentialOrder` of the queues. That depends
only on the transactions: not on the order of the input, nor on the order the map of
`buildAccountTxQueues` visits the accounts in. It is a permutation of the input, and keeps each
account's transactions in sequence number order. Of the parallel orders,
`sortParallelTxsInHashOrder` depends only on the sets of transactions of the clusters of each
stage. `sortedForApplyParallel` depends only on those too, except that it keeps the order of
the clusters within a stage.
-/

set_option autoImplicit false

namespace StellarCore.Herder

open TransactionFrameBase

variable {Tx AccountID : Type} [TransactionFrameBase Tx AccountID]

/-! ## The comparators -/

section Comparators

theorem applyTxSorter_eq_key (txSetHash : Hash) (tx1 tx2 : Tx) :
    applyTxSorter txSetHash tx1 tx2 =
      decide ((txSetHash ^^^ getFullHash tx1).toNat < (txSetHash ^^^ getFullHash tx2).toNat) := by
  simp [applyTxSorter, lessThanXored, BitVec.lt_def]

theorem hashTxSorter_eq_key (tx1 tx2 : Tx) :
    hashTxSorter tx1 tx2 = decide ((getFullHash tx1).toNat < (getFullHash tx2).toNat) := by
  simp [hashTxSorter, BitVec.lt_def]

theorem seqNumSorter_eq_key (tx1 tx2 : Tx) :
    seqNumSorter tx1 tx2 = decide (getSeqNum tx1 < getSeqNum tx2) := rfl

theorem applyTxSorter_order (txSetHash : Hash) :
    StdSort.StrictWeakOrder (applyTxSorter txSetHash : Tx → Tx → Bool) :=
  .of_key _ (applyTxSorter_eq_key txSetHash)

theorem hashTxSorter_order : StdSort.StrictWeakOrder (hashTxSorter : Tx → Tx → Bool) :=
  .of_key _ hashTxSorter_eq_key

theorem seqNumSorter_order : StdSort.StrictWeakOrder (seqNumSorter : Tx → Tx → Bool) :=
  .of_key _ seqNumSorter_eq_key

variable {txs : List Tx}

/-- XOR with the set's hash keeps distinct hashes distinct. -/
theorem applyTxSorter_distinct (txSetHash : Hash) (hashes : (txs.map getFullHash).Nodup) :
    StdSort.Distinct (applyTxSorter txSetHash) txs := by
  refine .of_key (applyTxSorter_eq_key txSetHash) ?_
  intro a memA b memB same
  have xored := BitVec.eq_of_toNat_eq same
  exact List.inj_on_of_nodup_map hashes memA memB ((BitVec.xor_right_inj txSetHash).mp xored)

theorem hashTxSorter_distinct (hashes : (txs.map getFullHash).Nodup) :
    StdSort.Distinct hashTxSorter txs := by
  refine .of_key hashTxSorter_eq_key ?_
  intro a memA b memB same
  exact List.inj_on_of_nodup_map hashes memA memB (BitVec.eq_of_toNat_eq same)

theorem seqNumSorter_distinct (seqNums : (txs.map getSeqNum).Nodup) :
    StdSort.Distinct seqNumSorter txs :=
  .of_key seqNumSorter_eq_key fun _ memA _ memB same =>
    List.inj_on_of_nodup_map seqNums memA memB same

end Comparators

/-! ## The queues of the accounts -/

section Queues

variable [DecidableEq AccountID]

/-- The accounts `actTxMap` has an entry for, in the order of their first transactions. -/
def accountsOf (txs : List Tx) : List AccountID := (txs.map getSourceID).dedup

/-- What the `AccountTransactionQueue` of an account holds: its transactions in sequence
number order. -/
def accountQueue (txs : List Tx) (id : AccountID) : List Tx :=
  StdSort.sort seqNumSorter (accountTxs txs id)

variable {txs : List Tx} {id : AccountID} {tx : Tx}

@[simp] theorem mem_accountTxs : tx ∈ accountTxs txs id ↔ tx ∈ txs ∧ getSourceID tx = id := by
  simp [accountTxs]

@[simp] theorem mem_accountQueue : tx ∈ accountQueue txs id ↔ tx ∈ txs ∧ getSourceID tx = id := by
  simp [accountQueue]

@[simp] theorem mem_accountsOf : id ∈ accountsOf txs ↔ id ∈ txs.map getSourceID := by
  simp [accountsOf]

theorem accountTxs_ne_nil (member : id ∈ txs.map getSourceID) : accountTxs txs id ≠ [] := by
  obtain ⟨tx, memTx, rfl⟩ := List.mem_map.mp member
  exact List.ne_nil_of_mem (mem_accountTxs.2 ⟨memTx, rfl⟩)

theorem accountQueue_ne_nil (member : id ∈ txs.map getSourceID) : accountQueue txs id ≠ [] := by
  obtain ⟨tx, memTx, rfl⟩ := List.mem_map.mp member
  exact List.ne_nil_of_mem (mem_accountQueue.2 ⟨memTx, rfl⟩)

theorem accountQueue_eq_nil (absent : id ∉ txs.map getSourceID) : accountQueue txs id = [] := by
  refine List.eq_nil_iff_forall_not_mem.mpr fun tx member => absent ?_
  obtain ⟨memTx, owner⟩ := mem_accountQueue.1 member
  exact owner ▸ List.mem_map_of_mem memTx

/-- Of the `k`-th transactions of the queues, the one of account `id` is its own. -/
theorem filter_getElem?_accountQueue (txs : List Tx) (id id' : AccountID) (k : Nat) :
    ((accountQueue txs id')[k]?).filter (fun tx => getSourceID tx == id) =
      if id' = id then (accountQueue txs id)[k]? else none := by
  cases found : (accountQueue txs id')[k]? with
  | none =>
    by_cases same : id' = id
    · subst same
      simp [found]
    · simp [same]
  | some tx =>
    have owner := (mem_accountQueue.1 (List.mem_of_getElem? found)).2
    by_cases same : id' = id
    · subst same
      simp [found, owner]
    · simp [Option.filter, owner, same]

/-- An account's queue is in strictly increasing sequence number order. -/
theorem accountQueue_pairwise (txsNodup : txs.Nodup)
    (seqNums : ((accountTxs txs id).map getSeqNum).Nodup) :
    (accountQueue txs id).Pairwise (fun a b => getSeqNum a < getSeqNum b) := by
  have sorted := StdSort.StrictWeakOrder.pairwise_lt_sort seqNumSorter_order
    (seqNumSorter_distinct seqNums) (txsNodup.filter _)
  exact sorted.imp fun below => by simpa [seqNumSorter] using below

theorem accountTransactionQueue_eq (member : id ∈ txs.map getSourceID) :
    accountTransactionQueue (accountTxs txs id) = .ok (accountQueue txs id) := by
  simp [accountTransactionQueue, accountTxs_ne_nil member, accountQueue]

/-- Visiting accounts that all have transactions, `buildAccountTxQueues` builds their
queues in the order it visits them. -/
theorem buildAccountTxQueues_eq {iterationOrder : List AccountID}
    (covered : ∀ id ∈ iterationOrder, id ∈ txs.map getSourceID) :
    buildAccountTxQueues iterationOrder txs = .ok (iterationOrder.map (accountQueue txs)) :=
  Except.mapM_eq_ok fun id member => accountTransactionQueue_eq (covered id member)

/-- A queue depends on the account's transactions and not on the order they come in. -/
theorem accountQueue_perm {txs' : List Tx} (perm : txs.Perm txs')
    (seqNums : ((accountTxs txs id).map getSeqNum).Nodup) :
    accountQueue txs id = accountQueue txs' id :=
  StdSort.StrictWeakOrder.sort_eq_of_perm seqNumSorter_order (seqNumSorter_distinct seqNums)
    (perm.filter _)

/-- The entries of `actTxMap` for accounts that cover all the transactions partition them. -/
theorem flatten_accountTxs_perm {accounts : List AccountID} (nodup : accounts.Nodup) :
    ∀ {txs : List Tx}, (∀ tx ∈ txs, getSourceID tx ∈ accounts) →
      (accounts.map (accountTxs txs)).flatten.Perm txs := by
  induction accounts with
  | nil =>
    intro txs covered
    cases txs with
    | nil => simp
    | cons tx _ => exact absurd (covered tx List.mem_cons_self) List.not_mem_nil
  | cons account accounts ih =>
    intro txs covered
    obtain ⟨fresh, nodupRest⟩ := List.nodup_cons.mp nodup
    let others := txs.filter (fun tx => !(getSourceID tx == account))
    -- the other accounts' entries are those of the transactions of other accounts
    have rest : accounts.map (accountTxs txs) = accounts.map (accountTxs others) := by
      refine List.map_congr_left fun id member => ?_
      have differ : id ≠ account := fun same => fresh (same ▸ member)
      simp only [accountTxs, others, List.filter_filter]
      refine List.filter_congr fun tx _ => ?_
      by_cases owner : getSourceID tx = id <;> simp [owner, differ]
    have coveredRest : ∀ tx ∈ others, getSourceID tx ∈ accounts := by
      intro tx member
      obtain ⟨memTx, other⟩ := List.mem_filter.mp member
      have differ : getSourceID tx ≠ account := by simpa using other
      simpa [differ] using covered tx memTx
    rw [List.map_cons, List.flatten_cons, rest]
    exact ((ih nodupRest coveredRest).append_left _).trans (List.filter_append_perm _ txs)

/-- The queues of the accounts, in the order of their first transactions. -/
def accountQueues (txs : List Tx) : List (List Tx) := (accountsOf txs).map (accountQueue txs)

/-- The queues hold the transactions. -/
theorem flatten_accountQueues_perm (txs : List Tx) : (accountQueues txs).flatten.Perm txs := by
  have sorted : (accountQueues txs).flatten.Perm ((accountsOf txs).map (accountTxs txs)).flatten := by
    rw [accountQueues, ← List.flatMap_def, ← List.flatMap_def]
    exact List.Perm.flatMap_left _ fun id _ => StdSort.sort_perm _ _
  refine sorted.trans (flatten_accountTxs_perm (List.nodup_dedup _) ?_)
  intro tx member
  exact mem_accountsOf.2 (List.mem_map_of_mem member)

/-- The queues depend on the transactions and not on their order. -/
theorem accountQueues_perm {txs' : List Tx} (perm : txs'.Perm txs)
    (seqNums : ∀ id, ((accountTxs txs id).map getSeqNum).Nodup) :
    (accountQueues txs').Perm (accountQueues txs) := by
  have sameQueues : (accountsOf txs').map (accountQueue txs') = (accountsOf txs').map (accountQueue txs) :=
    List.map_congr_left fun id _ => (accountQueue_perm perm.symm (seqNums id)).symm
  rw [accountQueues, accountQueues, sameQueues]
  exact ((perm.map getSourceID).dedup).map _

end Queues

/-! ## The batches -/

section Batches

variable {α : Type}

/-- Batch `k`: the `k`-th element of every queue that has one, in the order of the queues. -/
def batchAt (queues : List (List α)) (k : Nat) : List α := queues.filterMap (·[k]?)

/-- The length of the longest queue. -/
def longest (queues : List (List α)) : Nat := (queues.map List.length).foldr max 0

theorem batchAt_zero (queues : List (List α)) : batchAt queues 0 = queues.filterMap List.head? := by
  simp [batchAt, List.head?_eq_getElem?]

theorem batchAt_popTopTxs (queues : List (List α)) (k : Nat) :
    batchAt (popTopTxs queues) k = batchAt queues (k + 1) := by
  simp only [batchAt, popTopTxs, List.filterMap_filter, List.filterMap_map]
  refine List.filterMap_congr fun queue _ => ?_
  -- a queue the pop empties has nothing past its top
  by_cases emptied : queue.tail = []
  · simp [emptied, ← List.getElem?_tail]
  · simp [emptied, List.getElem?_tail]

theorem longest_popTopTxs (queues : List (List α)) : longest (popTopTxs queues) = longest queues - 1 := by
  induction queues with
  | nil => rfl
  | cons queue others ih =>
    simp only [popTopTxs, longest] at ih ⊢
    cases queue with
    | nil => simpa using ih
    | cons top rest =>
      cases rest with
      | nil => simp [ih]; omega
      | cons next more => simp [ih]; omega

theorem longest_pos {queues : List (List α)} (nonempty : ∀ queue ∈ queues, queue ≠ [])
    (some : queues ≠ []) : 0 < longest queues := by
  obtain ⟨queue, others, rfl⟩ := List.exists_cons_of_ne_nil some
  have long := List.length_pos_iff.mpr (nonempty queue List.mem_cons_self)
  simp only [longest, List.map_cons, List.foldr_cons]
  omega

theorem longest_perm {queues queues' : List (List α)} (perm : queues.Perm queues') :
    longest queues = longest queues' := by
  induction perm with
  | nil => rfl
  | cons queue _ ih =>
    simp only [longest, List.map_cons, List.foldr_cons] at ih ⊢
    rw [ih]
  | swap first second _ =>
    simp only [longest, List.map_cons, List.foldr_cons]
    omega
  | trans _ _ ih ih' => exact ih.trans ih'

theorem length_le_longest {queues : List (List α)} {queue : List α} (member : queue ∈ queues) :
    queue.length ≤ longest queues := by
  induction queues with
  | nil => simp at member
  | cons first others ih =>
    simp only [longest, List.map_cons, List.foldr_cons] at ih ⊢
    rcases List.mem_cons.mp member with rfl | inOthers
    · omega
    · have := ih inOthers
      omega

/-- A batch takes at most one element of each queue, in the order of the queues. -/
theorem batchAt_sublist (queues : List (List α)) (k : Nat) :
    (batchAt queues k).Sublist queues.flatten := by
  induction queues with
  | nil => simp [batchAt]
  | cons queue others ih =>
    simp only [batchAt, List.filterMap_cons, List.flatten_cons] at ih ⊢
    cases found : queue[k]? with
    | none => exact ih.trans (List.sublist_append_right _ _)
    | some tx =>
      exact (List.singleton_sublist.mpr (List.mem_of_getElem? found)).append ih

/-- A list is the `k`-th elements of it for all `k` below a bound on its length. -/
theorem flatMap_range_getElem? {l : List α} {n : Nat} (long : l.length ≤ n) :
    (List.range n).flatMap (fun k => (l[k]?).toList) = l := by
  induction l generalizing n with
  | nil => simp
  | cons first rest ih =>
    obtain ⟨m, rfl⟩ : ∃ m, n = m + 1 := ⟨n - 1, by simp at long; omega⟩
    rw [List.range_succ_eq_map, List.flatMap_cons, List.flatMap_map]
    simp only [List.length_cons, Nat.add_le_add_iff_right] at long
    simp [ih long]

/-- Over a list without repetition, a map to options that is `none` but at `b` gives `b`'s
value, or nothing where `b` is not in the list and has none. -/
theorem filterMap_eq_toList {β γ : Type} {l : List β} {b : β} (nodup : l.Nodup) (f : β → Option γ)
    (only : ∀ b', b' ≠ b → f b' = none) (absent : b ∉ l → f b = none) :
    l.filterMap f = (f b).toList := by
  induction l with
  | nil => simp [absent List.not_mem_nil]
  | cons first rest ih =>
    obtain ⟨fresh, nodupRest⟩ := List.nodup_cons.mp nodup
    by_cases same : first = b
    · subst same
      have others : rest.filterMap f = [] :=
        List.filterMap_eq_nil_iff.mpr fun b' member => only b' fun h => fresh (h ▸ member)
      cases found : f first <;> simp [found, others]
    · have elsewhere : b ∉ rest → f b = none := fun notRest =>
        absent (by simp [Ne.symm same, notRest])
      simp [only first same, ih nodupRest elsewhere]

theorem nonempty_popTopTxs (queues : List (List α)) : ∀ queue ∈ popTopTxs queues, queue ≠ [] := by
  intro queue member
  simpa using (List.mem_filter.mp member).2

/-- The tops of the queues and what is left of them hold the queues' elements. -/
theorem heads_tails_perm (queues : List (List α)) :
    (queues.filterMap List.head? ++ (popTopTxs queues).flatten).Perm queues.flatten := by
  rw [popTopTxs, List.flatten_filter_not_isEmpty]
  induction queues with
  | nil => simp
  | cons queue others ih =>
    cases queue with
    | nil =>
      simp only [List.filterMap_cons, List.head?_nil, List.map_cons, List.tail_nil,
        List.flatten_cons, List.nil_append]
      exact ih
    | cons top rest =>
      simp only [List.filterMap_cons, List.head?_cons, List.map_cons, List.tail_cons,
        List.flatten_cons, List.cons_append, List.perm_cons]
      exact (List.perm_append_comm_assoc _ _ _).trans (ih.append_left rest)

end Batches

/-! ## The loop of `sortedForApplySequential` -/

section Loop

variable {queues : List (List Tx)}

theorem buildTxBatches_cons (some : queues ≠ []) :
    buildTxBatches queues = queues.filterMap List.head? :: buildTxBatches (popTopTxs queues) := by
  rw [buildTxBatches]
  simp [some]

/-- Batch `k` of the loop is the `k`-th transaction of every queue, and there is one batch per
transaction of the longest queue. -/
theorem buildTxBatches_eq (nonempty : ∀ queue ∈ queues, queue ≠ []) :
    buildTxBatches queues = (List.range (longest queues)).map (batchAt queues) := by
  induction queues using buildTxBatches.induct with
  | case1 queues done =>
    have : queues = [] := List.isEmpty_iff.mp done
    subst this
    simp [buildTxBatches, longest]
  | case2 queues more ih =>
    have some : queues ≠ [] := by simpa using more
    have long := longest_pos nonempty some
    obtain ⟨n, count⟩ : ∃ n, longest queues = n + 1 := ⟨_, (Nat.succ_pred_eq_of_pos long).symm⟩
    rw [buildTxBatches_cons some, ih (nonempty_popTopTxs queues), count, List.range_succ_eq_map,
      longest_popTopTxs, count]
    simp [batchAt_zero, batchAt_popTopTxs]

/-- The loop loses and adds no transaction. -/
theorem flatten_buildTxBatches_perm (queues : List (List Tx)) :
    (buildTxBatches queues).flatten.Perm queues.flatten := by
  induction queues using buildTxBatches.induct with
  | case1 queues done =>
    have : queues = [] := List.isEmpty_iff.mp done
    subst this
    simp [buildTxBatches]
  | case2 queues more ih =>
    have some : queues ≠ [] := by simpa using more
    rw [buildTxBatches_cons some, List.flatten_cons]
    exact (ih.append_left _).trans (heads_tails_perm queues)

end Loop

/-! ## The sequential order -/

section Sequential

/-- The order of the queues' transactions: their batches, each sorted by `ApplyTxSorter`, one
after the other. -/
def sequentialOrder (queues : List (List Tx)) (txSetHash : Hash) : List Tx :=
  (List.range (longest queues)).flatMap
    (fun k => StdSort.sort (applyTxSorter txSetHash) (batchAt queues k))

variable {txSetHash : Hash}

/-- The apply order of queues does not depend on the order of the queues. -/
theorem sequentialOrder_perm {queues queues' : List (List Tx)} (perm : queues.Perm queues')
    (hashes : (queues.flatten.map getFullHash).Nodup) :
    sequentialOrder queues txSetHash = sequentialOrder queues' txSetHash := by
  rw [sequentialOrder, sequentialOrder, longest_perm perm]
  refine List.flatMap_congr fun k _ => ?_
  have distinct := (applyTxSorter_distinct txSetHash hashes).subset (batchAt_sublist queues k).subset
  exact (applyTxSorter_order txSetHash).sort_eq_of_perm distinct (perm.filterMap _)

/-- The apply order of queues holds their transactions. -/
theorem sequentialOrder_perm_flatten {queues : List (List Tx)}
    (nonempty : ∀ queue ∈ queues, queue ≠ []) :
    (sequentialOrder queues txSetHash).Perm queues.flatten := by
  have sorted : (sequentialOrder queues txSetHash).Perm
      ((List.range (longest queues)).flatMap (batchAt queues)) :=
    List.Perm.flatMap_left _ fun k _ => StdSort.sort_perm _ _
  rw [List.flatMap_def, ← buildTxBatches_eq nonempty] at sorted
  exact sorted.trans (flatten_buildTxBatches_perm queues)

variable [DecidableEq AccountID] {txs : List Tx} {iterationOrder : List AccountID}

/-- Visiting accounts that all have transactions, `sortedForApplySequential` orders their
queues by `sequentialOrder`. -/
theorem sortedForApplySequential_eq (covered : ∀ id ∈ iterationOrder, id ∈ txs.map getSourceID) :
    sortedForApplySequential iterationOrder txs txSetHash =
      .ok (sequentialOrder (iterationOrder.map (accountQueue txs)) txSetHash) := by
  have nonempty : ∀ queue ∈ iterationOrder.map (accountQueue txs), queue ≠ [] := by
    intro queue member
    obtain ⟨id, memId, rfl⟩ := List.mem_map.mp member
    exact accountQueue_ne_nil (covered id memId)
  simp only [sortedForApplySequential, buildAccountTxQueues_eq covered, Except.ok_bind,
    buildTxBatches_eq nonempty, sequentialOrder, List.flatMap_map]
  rfl

/-- Batch `k` of the queues of all accounts holds the `k`-th transaction of account `id`, if
it has one, and no other transaction of it. -/
theorem filter_batchAt {order : List AccountID} (nodup : order.Nodup)
    (covered : ∀ id ∈ txs.map getSourceID, id ∈ order) (id : AccountID) (k : Nat) :
    (batchAt (order.map (accountQueue txs)) k).filter (fun tx => getSourceID tx == id) =
      ((accountQueue txs id)[k]?).toList := by
  rw [batchAt, List.filterMap_map, List.filter_filterMap]
  have onlyOwn := filter_getElem?_accountQueue txs id
  refine (filterMap_eq_toList (b := id) nodup _ (fun other differ => ?_) fun absent => ?_).trans ?_
  · simp [onlyOwn other k, differ]
  · have none : accountQueue txs id = [] :=
      accountQueue_eq_nil fun member => absent (covered id member)
    simp [none]
  · simp [onlyOwn id k]

/-- In the apply order of the queues of all accounts, the transactions of an account are its
queue. -/
theorem filter_sequentialOrder {order : List AccountID} (nodup : order.Nodup)
    (covered : ∀ id ∈ txs.map getSourceID, id ∈ order) (id : AccountID) :
    (sequentialOrder (order.map (accountQueue txs)) txSetHash).filter
      (fun tx => getSourceID tx == id) = accountQueue txs id := by
  -- sorting a batch keeps the one transaction of the account it may hold
  have each : ∀ k, (StdSort.sort (applyTxSorter txSetHash) (batchAt (order.map (accountQueue txs)) k)).filter
      (fun tx => getSourceID tx == id) = ((accountQueue txs id)[k]?).toList := by
    intro k
    have perm := (StdSort.sort_perm (applyTxSorter txSetHash)
      (batchAt (order.map (accountQueue txs)) k)).filter (fun tx => getSourceID tx == id)
    rw [filter_batchAt nodup covered id k] at perm
    cases found : (accountQueue txs id)[k]? with
    | none => simpa [found] using perm
    | some tx => simpa [found] using perm
  have long : (accountQueue txs id).length ≤ longest (order.map (accountQueue txs)) := by
    by_cases member : id ∈ txs.map getSourceID
    · exact length_le_longest (List.mem_map_of_mem (covered id member))
    · simp [accountQueue_eq_nil member]
  rw [sequentialOrder, List.filter_flatMap, List.flatMap_congr fun k _ => each k]
  exact flatMap_range_getElem? long

end Sequential

/-! ## The canonical sequential order -/

section Canonical

variable [DecidableEq AccountID] {txs : List Tx} {txSetHash : Hash}

theorem hashes_accountQueues {order : List AccountID} (visits : order.Perm (accountsOf txs))
    (hashes : (txs.map getFullHash).Nodup) :
    ((order.map (accountQueue txs)).flatten.map getFullHash).Nodup := by
  have holds := ((visits.map (accountQueue txs)).flatten.trans (flatten_accountQueues_perm txs))
  exact (holds.map getFullHash).nodup_iff.mpr hashes

/-- Whatever order the map visits the accounts in, `sortedForApplySequential` orders the
transactions as `sequentialOrder` orders the queues of all accounts. -/
theorem sortedForApplySequential_eq_accountQueues {iterationOrder : List AccountID}
    (hashes : (txs.map getFullHash).Nodup) (visits : iterationOrder.Perm (accountsOf txs)) :
    sortedForApplySequential iterationOrder txs txSetHash =
      .ok (sequentialOrder (accountQueues txs) txSetHash) := by
  have covered : ∀ id ∈ iterationOrder, id ∈ txs.map getSourceID :=
    fun id member => mem_accountsOf.1 (visits.subset member)
  rw [sortedForApplySequential_eq covered]
  exact congrArg Except.ok (sequentialOrder_perm (visits.map _) (hashes_accountQueues visits hashes))

/-- The order depends on the transactions and not on the order they come in. -/
theorem sequentialOrder_accountQueues_perm {txs' : List Tx} (perm : txs'.Perm txs)
    (hashes : (txs.map getFullHash).Nodup) (seqNums : ∀ id, ((accountTxs txs id).map getSeqNum).Nodup) :
    sequentialOrder (accountQueues txs') txSetHash = sequentialOrder (accountQueues txs) txSetHash := by
  have hashes' : (txs'.map getFullHash).Nodup := (perm.map getFullHash).nodup_iff.mpr hashes
  exact sequentialOrder_perm (accountQueues_perm perm seqNums)
    (hashes_accountQueues (List.Perm.refl _) hashes')

/-- Each batch of the order holds the `k`-th transaction of every account that has one, sorted
strictly by `ApplyTxSorter`. -/
theorem sequentialOrder_batches (txSetHash : Hash) (hashes : (txs.map getFullHash).Nodup) :
    sequentialOrder (accountQueues txs) txSetHash =
      ((List.range (longest (accountQueues txs))).map
        (fun k => StdSort.sort (applyTxSorter txSetHash) (batchAt (accountQueues txs) k))).flatten ∧
    ∀ k, batchAt (accountQueues txs) k = (accountsOf txs).filterMap (fun id => (accountQueue txs id)[k]?) ∧
      (StdSort.sort (applyTxSorter txSetHash) (batchAt (accountQueues txs) k)).Pairwise
        (fun a b => applyTxSorter txSetHash a b = true) := by
  refine ⟨List.flatMap_def, fun k => ⟨by rw [accountQueues, batchAt, List.filterMap_map]; rfl, ?_⟩⟩
  have holds := batchAt_sublist (accountQueues txs) k
  have queuesNodup : (accountQueues txs).flatten.Nodup :=
    (flatten_accountQueues_perm txs).nodup_iff.mpr (List.Nodup.of_map getFullHash hashes)
  have distinct := (applyTxSorter_distinct txSetHash hashes).subset
    fun tx member => (flatten_accountQueues_perm txs).subset (holds.subset member)
  exact (applyTxSorter_order txSetHash).pairwise_lt_sort distinct (holds.nodup queuesNodup)

end Canonical

/-! ## The parallel orders -/

section Parallel

/-- Where the hashes of the elements of all members of a list are distinct, two members that
hold elements of one hash are the same member. -/
theorem eq_of_mem_of_nodup_flatMap {β : Type} {members : List β} (holds : β → List Tx)
    (hashes : ((members.flatMap holds).map getFullHash).Nodup) {b b' : β} (member : b ∈ members)
    (member' : b' ∈ members) {x y : Tx} (inB : x ∈ holds b) (inB' : y ∈ holds b')
    (same : getFullHash x = getFullHash y) : b = b' := by
  induction members with
  | nil => simp at member
  | cons first others ih =>
    rw [List.flatMap_cons, List.map_append, List.nodup_append] at hashes
    obtain ⟨_, rest, apart⟩ := hashes
    rcases List.mem_cons.mp member with rfl | inOthers <;>
      rcases List.mem_cons.mp member' with rfl | inOthers'
    · rfl
    · exact absurd same (apart _ (List.mem_map_of_mem inB) _
        (List.mem_map_of_mem (List.mem_flatMap.mpr ⟨b', inOthers', inB'⟩)))
    · exact absurd same.symm (apart _ (List.mem_map_of_mem inB') _
        (List.mem_map_of_mem (List.mem_flatMap.mpr ⟨b, inOthers, inB⟩)))
    · exact ih rest inOthers inOthers'

/-- `s'` is `s` with the transactions of each cluster, the clusters of each stage, and the
stages reordered. -/
def ReorderedStages (stages stages' : List (List (List Tx))) : Prop :=
  ∃ reordered, stages.Perm reordered ∧ List.Forall₂
    (fun stage stage' => ∃ shuffled, stage.Perm shuffled ∧ List.Forall₂ List.Perm shuffled stage')
    reordered stages'

/-- `s'` is `s` with the transactions of each cluster and the stages reordered, the clusters of
each stage in their order. -/
def ReorderedWithinClusters (stages stages' : List (List (List Tx))) : Prop :=
  ∃ reordered, stages.Perm reordered ∧ List.Forall₂ (List.Forall₂ List.Perm) reordered stages'

/-- The threads of a stage as `sortParallelTxsInHashOrder` leaves them. -/
def canonicalStage (stage : List (List Tx)) : List (List Tx) :=
  StdSort.sort (StdSort.frontSorter hashTxSorter) (stage.map (StdSort.sort hashTxSorter))

/-- Related lists map to one list where related elements do. -/
theorem map_eq_of_forall₂ {β γ δ : Type} {R : β → γ → Prop} {f : β → δ} {g : γ → δ} :
    ∀ {l : List β} {l' : List γ}, List.Forall₂ R l l' → (∀ a ∈ l, ∀ b, R a b → f a = g b) →
      l.map f = l'.map g
  | _, _, .nil, _ => rfl
  | a :: _, _ :: _, .cons related rest, each => by
    rw [List.map_cons, List.map_cons, each a List.mem_cons_self _ related,
      map_eq_of_forall₂ rest fun c member => each c (List.mem_cons_of_mem a member)]

/-! Both parallel orders compare transactions by a key of their hash. -/

section Fronts

variable {lt : Tx → Tx → Bool} {key : Tx → Nat} (spec : ∀ a b, lt a b = decide (key a < key b))
  (keyed : ∀ x y, key x = key y → getFullHash x = getFullHash y)
include spec keyed

omit keyed in
theorem frontSorter_order : StdSort.StrictWeakOrder (StdSort.frontSorter lt) :=
  .of_key (StdSort.frontKey key) (StdSort.frontSorter_of_key spec)

omit keyed in
theorem frontSorter_frontSorter_order :
    StdSort.StrictWeakOrder (StdSort.frontSorter (StdSort.frontSorter lt)) :=
  .of_key (StdSort.frontKey (StdSort.frontKey key))
    (StdSort.frontSorter_of_key (StdSort.frontSorter_of_key spec))

theorem distinct_of_keyed {txs : List Tx} (hashes : (txs.map getFullHash).Nodup) :
    StdSort.Distinct lt txs :=
  .of_key spec fun a memA b memB same => List.inj_on_of_nodup_map hashes memA memB (keyed a b same)

/-- Sorting each of a list of clusters gives the same clusters after their transactions are
reordered. -/
theorem map_sort_eq_of_forall₂ {clusters clusters' : List (List Tx)}
    (related : List.Forall₂ List.Perm clusters clusters')
    (hashes : (clusters.flatten.map getFullHash).Nodup) :
    clusters.map (StdSort.sort lt) = clusters'.map (StdSort.sort lt) := by
  refine map_eq_of_forall₂ related fun cluster member cluster' perm => ?_
  have within : cluster ⊆ clusters.flatten := fun tx inCluster =>
    List.mem_flatten.mpr ⟨cluster, member, inCluster⟩
  exact (StdSort.StrictWeakOrder.of_key key spec).sort_eq_of_perm
    ((distinct_of_keyed spec keyed hashes).subset within) perm

/-- No two clusters are equivalent by their first transactions. -/
theorem distinct_frontSorter {clusters : List (List Tx)}
    (nonempty : ∀ cluster ∈ clusters, cluster ≠ []) (hashes : (clusters.flatten.map getFullHash).Nodup) :
    StdSort.Distinct (StdSort.frontSorter lt) clusters := by
  refine .of_key (StdSort.frontSorter_of_key spec) fun a memA b memB same => ?_
  obtain ⟨x, restA, rfl⟩ := List.exists_cons_of_ne_nil (nonempty a memA)
  obtain ⟨y, restB, rfl⟩ := List.exists_cons_of_ne_nil (nonempty b memB)
  have keys : key x = key y := by simpa using same
  rw [← List.flatMap_id] at hashes
  exact eq_of_mem_of_nodup_flatMap id hashes memA memB List.mem_cons_self List.mem_cons_self
    (keyed x y keys)

/-- Sorting the clusters of a stage, then the stage by its clusters' first transactions, gives
the same stage after its clusters and their transactions are reordered. -/
theorem sort_frontSorter_eq {stage shuffled stage' : List (List Tx)} (perm : stage.Perm shuffled)
    (related : List.Forall₂ List.Perm shuffled stage') (nonempty : ∀ cluster ∈ stage, cluster ≠ [])
    (hashes : (stage.flatten.map getFullHash).Nodup) :
    StdSort.sort (StdSort.frontSorter lt) (stage.map (StdSort.sort lt)) =
      StdSort.sort (StdSort.frontSorter lt) (stage'.map (StdSort.sort lt)) := by
  have shuffledHashes : (shuffled.flatten.map getFullHash).Nodup :=
    (perm.flatten.map getFullHash).nodup_iff.mp hashes
  rw [← map_sort_eq_of_forall₂ spec keyed related shuffledHashes]
  have sortedNonempty : ∀ cluster ∈ stage.map (StdSort.sort lt), cluster ≠ [] := by
    intro cluster member
    obtain ⟨original, inStage, rfl⟩ := List.mem_map.mp member
    exact mt StdSort.sort_eq_nil.1 (nonempty original inStage)
  have sortedHashes : ((stage.map (StdSort.sort lt)).flatten.map getFullHash).Nodup :=
    ((StdSort.flatten_map_sort_perm lt stage).map getFullHash).nodup_iff.mpr hashes
  exact (frontSorter_order spec).sort_eq_of_perm
    (distinct_frontSorter spec keyed sortedNonempty sortedHashes) (perm.map _)

/-- No two stages are equivalent by the first transactions of their first clusters. -/
theorem distinct_frontSorter_frontSorter {stages : List (List (List Tx))}
    (nonempty : ∀ stage ∈ stages, ∃ cluster others, stage = cluster :: others ∧ cluster ≠ [])
    (hashes : ((stages.flatMap List.flatten).map getFullHash).Nodup) :
    StdSort.Distinct (StdSort.frontSorter (StdSort.frontSorter lt)) stages := by
  refine .of_key (StdSort.frontSorter_of_key (StdSort.frontSorter_of_key spec))
    fun a memA b memB same => ?_
  obtain ⟨clusterA, othersA, rfl, nonemptyA⟩ := nonempty a memA
  obtain ⟨clusterB, othersB, rfl, nonemptyB⟩ := nonempty b memB
  obtain ⟨x, restA, rfl⟩ := List.exists_cons_of_ne_nil nonemptyA
  obtain ⟨y, restB, rfl⟩ := List.exists_cons_of_ne_nil nonemptyB
  have keys : key x = key y := by simpa using same
  exact eq_of_mem_of_nodup_flatMap List.flatten hashes memA memB (by simp) (by simp) (keyed x y keys)

end Fronts

theorem hashTxSorter_keyed : ∀ x y : Tx, (getFullHash x).toNat = (getFullHash y).toNat →
    getFullHash x = getFullHash y :=
  fun _ _ same => BitVec.eq_of_toNat_eq same

theorem applyTxSorter_keyed (txSetHash : Hash) : ∀ x y : Tx,
    (txSetHash ^^^ getFullHash x).toNat = (txSetHash ^^^ getFullHash y).toNat →
      getFullHash x = getFullHash y :=
  fun _ _ same => (BitVec.xor_right_inj txSetHash).mp (BitVec.eq_of_toNat_eq same)

variable {stages : List (List (List Tx))}

/-- The transactions of a stage of the phase are among the phase's. -/
theorem hashes_of_mem {stage : List (List Tx)} (member : stage ∈ stages)
    (hashes : (stages.flatten.flatten.map getFullHash).Nodup) : (stage.flatten.map getFullHash).Nodup := by
  rw [List.flatten_flatten] at hashes
  exact ((List.sublist_flatten_of_mem (List.mem_map_of_mem member)).map getFullHash).nodup hashes

/-- Ordering each stage keeps the transactions of the phase where sorting them keeps them. -/
theorem hashes_map_stages {order : List (List Tx) → List (List Tx)}
    (keeps : ∀ stage, (order stage).flatten.Perm stage.flatten)
    (hashes : (stages.flatten.flatten.map getFullHash).Nodup) :
    (((stages.map order).flatMap List.flatten).map getFullHash).Nodup := by
  have holds : ((stages.map order).flatMap List.flatten).Perm stages.flatten.flatten := by
    rw [List.flatMap_map, List.flatten_flatten, ← List.flatMap_def]
    exact List.Perm.flatMap_left _ fun stage _ => keeps stage
  exact (holds.map getFullHash).nodup_iff.mpr hashes

/-- Both checks the stage comparators make pass when every stage has a first cluster with a
first transaction. -/
theorem checkCompared_fronts {sorted : List (List (List Tx))}
    (fronts : ∀ stage ∈ sorted, ∃ cluster others, stage = cluster :: others ∧ cluster ≠ []) :
    (∀ message, StdSort.checkCompared (fun stage => !stage.isEmpty) message sorted = .ok ()) ∧
      ∀ message, StdSort.checkCompared (fun stage => stage.head?.all (fun cluster => !cluster.isEmpty))
        message sorted = .ok () := by
  constructor
  · intro message
    refine StdSort.checkCompared_ok fun stage member => ?_
    obtain ⟨cluster, others, rfl, _⟩ := fronts stage member
    rfl
  · intro message
    refine StdSort.checkCompared_ok fun stage member => ?_
    obtain ⟨cluster, others, rfl, nonemptyCluster⟩ := fronts stage member
    simpa using nonemptyCluster

theorem map_sort_front {stage : List (List Tx)} (lt : Tx → Tx → Bool)
    (nonempty : ∀ cluster ∈ stage, cluster ≠ []) (some : stage ≠ []) :
    ∃ cluster others, stage.map (StdSort.sort lt) = cluster :: others ∧ cluster ≠ [] := by
  obtain ⟨first, others, rfl⟩ := List.exists_cons_of_ne_nil some
  exact ⟨_, _, rfl, mt StdSort.sort_eq_nil.1 (nonempty first List.mem_cons_self)⟩

theorem canonicalStage_front {stage : List (List Tx)} (nonempty : ∀ cluster ∈ stage, cluster ≠ [])
    (some : stage ≠ []) :
    ∃ cluster others, canonicalStage stage = cluster :: others ∧ cluster ≠ [] := by
  obtain ⟨cluster, others, split⟩ := List.exists_cons_of_ne_nil
    (mt StdSort.sort_eq_nil.1 (List.map_eq_nil_iff.not.mpr some) :
      canonicalStage stage ≠ [])
  refine ⟨cluster, others, split, ?_⟩
  have member : cluster ∈ canonicalStage stage := by
    rw [split]
    exact List.mem_cons_self
  rw [canonicalStage] at member
  obtain ⟨original, inStage, rfl⟩ := List.mem_map.mp (StdSort.mem_sort.1 member)
  exact mt StdSort.sort_eq_nil.1 (nonempty original inStage)

/-- Every stage keeps a first thread, and that thread a first transaction, when no stage and
no cluster is empty. -/
theorem canonicalStage_fronts
    (nonempty : ∀ stage ∈ stages, stage ≠ [] ∧ ∀ cluster ∈ stage, cluster ≠ []) :
    ∀ sorted ∈ stages.map canonicalStage,
      ∃ thread others, sorted = thread :: others ∧ thread ≠ [] := by
  intro sorted member
  obtain ⟨stage, inStages, rfl⟩ := List.mem_map.mp member
  exact canonicalStage_front (nonempty stage inStages).2 (nonempty stage inStages).1

theorem map_sort_fronts (lt : Tx → Tx → Bool)
    (nonempty : ∀ stage ∈ stages, stage ≠ [] ∧ ∀ cluster ∈ stage, cluster ≠ []) :
    ∀ sorted ∈ stages.map (List.map (StdSort.sort lt)),
      ∃ cluster others, sorted = cluster :: others ∧ cluster ≠ [] := by
  intro sorted member
  obtain ⟨stage, inStages, rfl⟩ := List.mem_map.mp member
  exact map_sort_front lt (nonempty stage inStages).2 (nonempty stage inStages).1

/-- On stages and clusters that all have transactions, `sortParallelTxsInHashOrder` puts each
stage in `canonicalStage` order and sorts the stages. -/
theorem sortParallelTxsInHashOrder_eq
    (nonempty : ∀ stage ∈ stages, stage ≠ [] ∧ ∀ cluster ∈ stage, cluster ≠ []) :
    sortParallelTxsInHashOrder stages = .ok (StdSort.sort
      (StdSort.frontSorter (StdSort.frontSorter hashTxSorter)) (stages.map canonicalStage)) := by
  unfold sortParallelTxsInHashOrder
  rw [Except.mapM_eq_ok (g := canonicalStage) fun stage member => ?each]
  case each =>
    have threads : ∀ thread ∈ stage.map (StdSort.sort hashTxSorter), (!thread.isEmpty) = true := by
      intro thread inStage
      obtain ⟨cluster, inCluster, rfl⟩ := List.mem_map.mp inStage
      simpa using (nonempty stage member).2 cluster inCluster
    simp only [StdSort.checkCompared_ok threads, Except.ok_bind]
    rfl
  have fronts := canonicalStage_fronts nonempty
  simp only [Except.ok_bind]
  rw [(checkCompared_fronts fronts).1, Except.ok_bind, (checkCompared_fronts fronts).2]
  rfl

/-- On stages and clusters that all have transactions, `sortedForApplyParallel` sorts each
cluster and then the stages. -/
theorem sortedForApplyParallel_eq (txSetHash : Hash)
    (nonempty : ∀ stage ∈ stages, stage ≠ [] ∧ ∀ cluster ∈ stage, cluster ≠ []) :
    sortedForApplyParallel stages txSetHash = .ok (StdSort.sort
      (StdSort.frontSorter (StdSort.frontSorter (applyTxSorter txSetHash)))
      (stages.map (List.map (StdSort.sort (applyTxSorter txSetHash))))) := by
  have fronts := map_sort_fronts (applyTxSorter txSetHash) nonempty
  rw [sortedForApplyParallel, (checkCompared_fronts fronts).1, Except.ok_bind,
    (checkCompared_fronts fronts).2]
  rfl

/-- `sortParallelTxsInHashOrder` gives one order to every reordering of the transactions of the
clusters, the clusters of the stages, and the stages. -/
theorem sortParallelTxsInHashOrder_reordered {stages' : List (List (List Tx))}
    (reordered : ReorderedStages stages stages')
    (nonempty : ∀ stage ∈ stages, stage ≠ [] ∧ ∀ cluster ∈ stage, cluster ≠ [])
    (nonempty' : ∀ stage ∈ stages', stage ≠ [] ∧ ∀ cluster ∈ stage, cluster ≠ [])
    (hashes : (stages.flatten.flatten.map getFullHash).Nodup) :
    sortParallelTxsInHashOrder stages' = sortParallelTxsInHashOrder stages := by
  obtain ⟨shuffled, perm, related⟩ := reordered
  rw [sortParallelTxsInHashOrder_eq nonempty', sortParallelTxsInHashOrder_eq nonempty]
  -- each stage is put in one order whatever the order of its clusters and their transactions
  have sameStages : shuffled.map canonicalStage = stages'.map canonicalStage := by
    refine map_eq_of_forall₂ related fun stage member stage' ⟨clusters, clusterPerm, clustersRelated⟩ => ?_
    have inStages := perm.symm.subset member
    exact sort_frontSorter_eq hashTxSorter_eq_key hashTxSorter_keyed clusterPerm clustersRelated
      (nonempty stage inStages).2 (hashes_of_mem inStages hashes)
  have fronts := canonicalStage_fronts nonempty
  have keeps : ∀ stage : List (List Tx), (canonicalStage stage).flatten.Perm stage.flatten :=
    fun stage => (StdSort.sort_perm _ _).flatten.trans (StdSort.flatten_map_sort_perm _ stage)
  have distinct := distinct_frontSorter_frontSorter hashTxSorter_eq_key hashTxSorter_keyed fronts
    (hashes_map_stages keeps hashes)
  rw [← sameStages]
  exact congrArg Except.ok
    ((frontSorter_frontSorter_order hashTxSorter_eq_key).sort_eq_of_perm distinct (perm.map _)).symm

/-- `sortedForApplyParallel` gives one order to every reordering of the transactions of the
clusters and of the stages that keeps the order of the clusters of each stage. -/
theorem sortedForApplyParallel_reordered (txSetHash : Hash) {stages' : List (List (List Tx))}
    (reordered : ReorderedWithinClusters stages stages')
    (nonempty : ∀ stage ∈ stages, stage ≠ [] ∧ ∀ cluster ∈ stage, cluster ≠ [])
    (nonempty' : ∀ stage ∈ stages', stage ≠ [] ∧ ∀ cluster ∈ stage, cluster ≠ [])
    (hashes : (stages.flatten.flatten.map getFullHash).Nodup) :
    sortedForApplyParallel stages' txSetHash = sortedForApplyParallel stages txSetHash := by
  obtain ⟨shuffled, perm, related⟩ := reordered
  rw [sortedForApplyParallel_eq txSetHash nonempty', sortedForApplyParallel_eq txSetHash nonempty]
  have sameStages : shuffled.map (List.map (StdSort.sort (applyTxSorter txSetHash))) =
      stages'.map (List.map (StdSort.sort (applyTxSorter txSetHash))) := by
    refine map_eq_of_forall₂ related fun stage member stage' clustersRelated => ?_
    exact map_sort_eq_of_forall₂ (applyTxSorter_eq_key txSetHash) (applyTxSorter_keyed txSetHash)
      clustersRelated (hashes_of_mem (perm.symm.subset member) hashes)
  have fronts := map_sort_fronts (applyTxSorter txSetHash) nonempty
  have distinct := distinct_frontSorter_frontSorter (applyTxSorter_eq_key txSetHash)
    (applyTxSorter_keyed txSetHash) fronts
    (hashes_map_stages (fun stage => StdSort.flatten_map_sort_perm _ stage) hashes)
  rw [← sameStages]
  exact congrArg Except.ok ((frontSorter_frontSorter_order (applyTxSorter_eq_key txSetHash)).sort_eq_of_perm
    distinct (perm.map _)).symm

end Parallel

/-- A transaction reduced to what the apply order reads of it. -/
structure ApplyTx where
  sourceID : Nat
  seqNum : Int
  fullHash : Hash
deriving DecidableEq

instance : TransactionFrameBase ApplyTx Nat :=
  ⟨ApplyTx.sourceID, ApplyTx.seqNum, ApplyTx.fullHash⟩

/-- `sortedForApplyParallel` keeps the order of the clusters of a stage, so reordering them
reorders its result. -/
theorem sortedForApplyParallel_keeps_clusterOrder :
    ReorderedStages [[[ApplyTx.mk 0 1 1], [ApplyTx.mk 1 1 2]]] [[[ApplyTx.mk 1 1 2], [ApplyTx.mk 0 1 1]]] ∧
      sortedForApplyParallel [[[ApplyTx.mk 0 1 1], [ApplyTx.mk 1 1 2]]] 0 ≠
        sortedForApplyParallel [[[ApplyTx.mk 1 1 2], [ApplyTx.mk 0 1 1]]] 0 := by
  refine ⟨⟨_, List.Perm.refl _, .cons ⟨_, List.Perm.swap _ _ _, .cons (.refl _) (.cons (.refl _) .nil)⟩ .nil⟩, ?_⟩
  rw [sortedForApplyParallel_eq 0 (by simp), sortedForApplyParallel_eq 0 (by simp)]
  simp

/-- The apply order of a transaction set is canonical. In a sequential phase, with distinct
full hashes and distinct sequence numbers within each account, `sortedForApplySequential`
returns the same permutation of the transactions whatever their order and whatever order
the map visits the accounts in. It takes the transactions of each account in increasing
sequence number order, and is the concatenation of batches, batch `k` holding the `k`-th
transaction of every account that has one, sorted by `ApplyTxSorter`. In a parallel phase
whose stages and clusters are not empty, `sortParallelTxsInHashOrder` gives one result for
every reordering of transactions within clusters, clusters within stages and stages;
`sortedForApplyParallel` gives one for every reordering of transactions within clusters and of
stages. -/
theorem sortedForApply_canonical {Tx AccountID : Type} [DecidableEq AccountID]
    [TransactionFrameBase Tx AccountID] :
    (∀ (txs : List Tx) (txSetHash : Hash), (txs.map getFullHash).Nodup →
      (∀ id, ((accountTxs txs id).map getSeqNum).Nodup) →
      ∃ batches : List (List Tx),
        (∀ (txs' : List Tx) (iterationOrder : List AccountID), txs'.Perm txs →
          iterationOrder.Perm (accountsOf txs') →
          sortedForApplySequential iterationOrder txs' txSetHash = .ok batches.flatten) ∧
        batches.flatten.Perm txs ∧
        (∀ id, batches.flatten.filter (fun tx => getSourceID tx == id) = accountQueue txs id ∧
          (accountQueue txs id).Pairwise (fun a b => getSeqNum a < getSeqNum b)) ∧
        ∀ k (lt : k < batches.length),
          batches[k].Perm ((accountsOf txs).filterMap (fun id => (accountQueue txs id)[k]?)) ∧
          batches[k].Pairwise (fun a b => applyTxSorter txSetHash a b = true)) ∧
    (∀ stages stages' : List (List (List Tx)), ReorderedStages stages stages' →
      (∀ stage ∈ stages, stage ≠ [] ∧ ∀ cluster ∈ stage, cluster ≠ []) →
      (∀ stage ∈ stages', stage ≠ [] ∧ ∀ cluster ∈ stage, cluster ≠ []) →
      (stages.flatten.flatten.map getFullHash).Nodup →
      sortParallelTxsInHashOrder stages' = sortParallelTxsInHashOrder stages) ∧
    (∀ (stages stages' : List (List (List Tx))) (txSetHash : Hash),
      ReorderedWithinClusters stages stages' →
      (∀ stage ∈ stages, stage ≠ [] ∧ ∀ cluster ∈ stage, cluster ≠ []) →
      (∀ stage ∈ stages', stage ≠ [] ∧ ∀ cluster ∈ stage, cluster ≠ []) →
      (stages.flatten.flatten.map getFullHash).Nodup →
      sortedForApplyParallel stages' txSetHash = sortedForApplyParallel stages txSetHash) := by
  refine ⟨fun txs txSetHash hashes seqNums => ?_,
    fun _ _ reordered nonempty nonempty' hashes =>
      sortParallelTxsInHashOrder_reordered reordered nonempty nonempty' hashes,
    fun _ _ txSetHash reordered nonempty nonempty' hashes =>
      sortedForApplyParallel_reordered txSetHash reordered nonempty nonempty' hashes⟩
  obtain ⟨flat, batches⟩ := sequentialOrder_batches txSetHash hashes
  refine ⟨(List.range (longest (accountQueues txs))).map
      (fun k => StdSort.sort (applyTxSorter txSetHash) (batchAt (accountQueues txs) k)),
    fun txs' iterationOrder perm visits => ?_, ?_, fun id => ?_, fun k lt => ?_⟩
  · -- any input order and any visiting order give the order of the queues of all accounts
    have hashes' : (txs'.map getFullHash).Nodup := (perm.map getFullHash).nodup_iff.mpr hashes
    rw [sortedForApplySequential_eq_accountQueues hashes' visits,
      sequentialOrder_accountQueues_perm perm hashes seqNums, flat]
  · have nonempty : ∀ queue ∈ accountQueues txs, queue ≠ [] := by
      intro queue member
      obtain ⟨id, memId, rfl⟩ := List.mem_map.mp member
      exact accountQueue_ne_nil (mem_accountsOf.1 memId)
    rw [← flat]
    exact (sequentialOrder_perm_flatten nonempty).trans (flatten_accountQueues_perm txs)
  · rw [← flat]
    exact ⟨filter_sequentialOrder (List.nodup_dedup _) (fun _ member => mem_accountsOf.2 member) id,
      accountQueue_pairwise (List.Nodup.of_map _ hashes) (seqNums id)⟩
  · obtain ⟨same, sorted⟩ := batches k
    simp only [List.getElem_map, List.getElem_range]
    rw [← same]
    exact ⟨StdSort.sort_perm _ _, sorted⟩

theorem sortedForApply_canonical_twoAccounts :
    ∃ batches : List (List ApplyTx),
      sortedForApplySequential [0, 1] [ApplyTx.mk 0 1 1, ApplyTx.mk 1 2 2] 0 = .ok batches.flatten ∧
        batches.flatten.Perm [ApplyTx.mk 0 1 1, ApplyTx.mk 1 2 2] := by
  have seqNums : ∀ id, ((accountTxs [ApplyTx.mk 0 1 1, ApplyTx.mk 1 2 2] id).map getSeqNum).Nodup :=
    fun _ => (List.filter_sublist.map getSeqNum).nodup (by decide)
  obtain ⟨batches, run, perm, -, -⟩ := sortedForApply_canonical.1 _ 0 (by decide) seqNums
  exact ⟨batches, run _ [0, 1] (List.Perm.refl _) (by decide), perm⟩

end StellarCore.Herder
