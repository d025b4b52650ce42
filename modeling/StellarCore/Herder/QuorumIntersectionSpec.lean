import StellarCore.Herder.QuorumIntersection
import StellarCore.Lib.Contraction
import StellarCore.Util.TarjanSCCSpec

/-!
# The quorum intersection checker decides quorum intersection

A quorum of the checker's graph is a nonempty set of nodes that holds a slice of each of its
nodes. The slice test only grows with the node set, so `contractToMaximalQuorum` is the
contraction of `Lib.Contraction`: it returns the greatest quorum inside its nodes, or nothing.

The slice test of a node reads only the nodes its quorum set depends on, which are its
successors in the graph Tarjan's calculator is given. Cut down to the first listed SCC it
meets, a quorum is still a quorum, so when no SCC holds a quorum there is none, and when two
do their greatest quorums are disjoint. With one scan SCC, two disjoint quorums give a minimal
quorum of at most half the scan SCC whose complement holds a quorum. The enumerator never
prunes the branch whose committed nodes stay inside such a quorum and whose perimeter holds it,
so it finds one exactly when there is one; and whatever it reports is a real split.
-/

set_option autoImplicit false

namespace StellarCore.Herder

open Contraction Components TarjanSCCCalculator

variable {n : Nat} (mGraph : Fin n → QBitSet (Fin n))

/-- A quorum of the checker's graph: a nonempty set of nodes that holds a slice of each of its
nodes. -/
def IsQuorum (Q : Finset (Fin n)) : Prop :=
  Q.Nonempty ∧ ∀ i ∈ Q, containsQuorumSlice Q (mGraph i) = true

/-- A quorum with no other quorum inside it. -/
def IsMinimalQuorum (M : Finset (Fin n)) : Prop :=
  IsQuorum mGraph M ∧ ∀ Q ⊆ M, IsQuorum mGraph Q → Q = M

/-- Two disjoint quorums, as `getPotentialSplit` reports a split of the network. -/
def IsSplit (split : Finset (Fin n) × Finset (Fin n)) : Prop :=
  IsQuorum mGraph split.1 ∧ IsQuorum mGraph split.2 ∧ Disjoint split.1 split.2

variable {mGraph}

/-! ## The contraction -/

section Contract

variable {nodes Q : Finset (Fin n)}

theorem containsQuorumSliceForNode_eq_true_iff {bs : Finset (Fin n)} {node : Fin n} :
    containsQuorumSliceForNode mGraph bs node = true ↔
      node ∈ bs ∧ containsQuorumSlice bs (mGraph node) = true := by
  unfold containsQuorumSliceForNode
  by_cases member : node ∈ bs <;> simp [member]

theorem containsQuorumSliceForNode_monotone :
    Contraction.Monotone (containsQuorumSliceForNode mGraph) := by
  intro small large sub node kept
  rw [containsQuorumSliceForNode_eq_true_iff] at kept ⊢
  exact ⟨sub kept.1, containsQuorumSlice_mono sub _ kept.2⟩

theorem supported_iff :
    Supported (containsQuorumSliceForNode mGraph) Q ↔
      ∀ i ∈ Q, containsQuorumSlice Q (mGraph i) = true := by
  constructor
  · intro supported i member
    exact (containsQuorumSliceForNode_eq_true_iff.1 (supported i member)).2
  · intro slices i member
    exact containsQuorumSliceForNode_eq_true_iff.2 ⟨member, slices i member⟩

theorem isQuorum_iff :
    IsQuorum mGraph Q ↔ Q.Nonempty ∧ Supported (containsQuorumSliceForNode mGraph) Q := by
  rw [IsQuorum, supported_iff]

theorem isMinimalQuorum_iff :
    IsMinimalQuorum mGraph Q ↔ MinimalSupported (containsQuorumSliceForNode mGraph) Q := by
  simp only [IsMinimalQuorum, MinimalSupported, isQuorum_iff, and_imp, and_assoc]

theorem contractLoop_eq : ∀ (fuel : Nat) (nodes : Finset (Fin n)),
    contractLoop mGraph fuel nodes =
      Contraction.loop (containsQuorumSliceForNode mGraph) setBits fuel nodes
  | 0, _ => rfl
  | fuel + 1, nodes => by
      rw [contractLoop, Contraction.loop, contractLoop_eq fuel]
      rfl

/-- `contractToMaximalQuorum` returns the greatest set inside its nodes that holds a slice of
each of its nodes: its fuel, one pass more than the nodes, is always enough. -/
theorem contractToMaximalQuorum_isCore (nodes : Finset (Fin n)) :
    IsCore (containsQuorumSliceForNode mGraph) nodes (contractToMaximalQuorum mGraph nodes) := by
  rw [contractToMaximalQuorum, contractLoop_eq]
  exact loop_isCore containsQuorumSliceForNode_monotone
    (fun _ _ member => TarjanSCCCalculator.mem_setBits.2 member) (Nat.lt_succ_self _)

theorem contractToMaximalQuorum_subset : contractToMaximalQuorum mGraph nodes ⊆ nodes :=
  (contractToMaximalQuorum_isCore nodes).subset

/-- Every quorum inside the nodes is inside their contraction. -/
theorem subset_contractToMaximalQuorum (sub : Q ⊆ nodes) (quorum : IsQuorum mGraph Q) :
    Q ⊆ contractToMaximalQuorum mGraph nodes :=
  (contractToMaximalQuorum_isCore nodes).greatest Q sub (isQuorum_iff.1 quorum).2

theorem isQuorum_contractToMaximalQuorum
    (nonempty : (contractToMaximalQuorum mGraph nodes).Nonempty) :
    IsQuorum mGraph (contractToMaximalQuorum mGraph nodes) :=
  isQuorum_iff.2 ⟨nonempty, (contractToMaximalQuorum_isCore nodes).supported⟩

/-- The contraction is nonempty exactly when the nodes hold a quorum. -/
theorem contractToMaximalQuorum_nonempty_iff :
    (contractToMaximalQuorum mGraph nodes).Nonempty ↔ ∃ Q ⊆ nodes, IsQuorum mGraph Q := by
  simp only [isQuorum_iff]
  exact (contractToMaximalQuorum_isCore nodes).nonempty_iff

/-- What the debug assertion of `isMinimalQuorum` checks of its argument, a contraction:
contracting it again changes nothing. -/
theorem contractToMaximalQuorum_idem :
    contractToMaximalQuorum mGraph (contractToMaximalQuorum mGraph nodes) =
      contractToMaximalQuorum mGraph nodes :=
  (contractToMaximalQuorum_isCore _).unique (contractToMaximalQuorum_isCore nodes).self

/-- `contractToMaximalQuorum` returns the greatest quorum inside its nodes, or nothing when they
hold none. -/
theorem contractToMaximalQuorum_greatest (nodes : Finset (Fin n)) :
    contractToMaximalQuorum mGraph nodes ⊆ nodes ∧
      (∀ Q ⊆ nodes, IsQuorum mGraph Q → Q ⊆ contractToMaximalQuorum mGraph nodes) ∧
      (contractToMaximalQuorum mGraph nodes = ∅ ∨
        IsQuorum mGraph (contractToMaximalQuorum mGraph nodes)) := by
  refine ⟨contractToMaximalQuorum_subset, fun Q sub quorum => subset_contractToMaximalQuorum sub quorum,
    ?_⟩
  rcases (contractToMaximalQuorum mGraph nodes).eq_empty_or_nonempty with empty | nonempty
  · exact .inl empty
  · exact .inr (isQuorum_contractToMaximalQuorum nonempty)

theorem contractToMaximalQuorum_ne_empty (sub : Q ⊆ nodes) (quorum : IsQuorum mGraph Q) :
    contractToMaximalQuorum mGraph nodes ≠ ∅ :=
  Finset.nonempty_iff_ne_empty.mp (quorum.1.mono (subset_contractToMaximalQuorum sub quorum))

theorem isAQuorum_eq_true_iff : isAQuorum mGraph nodes = true ↔ ∃ Q ⊆ nodes, IsQuorum mGraph Q := by
  rw [isAQuorum, decide_eq_true_iff, ← Finset.nonempty_iff_ne_empty,
    contractToMaximalQuorum_nonempty_iff]

/-- On a quorum, `isMinimalQuorum` decides minimality by leaving out one node at a time. -/
theorem isMinimalQuorum_eq_true_iff (quorum : IsQuorum mGraph Q) :
    isMinimalQuorum mGraph Q = true ↔ IsMinimalQuorum mGraph Q := by
  obtain ⟨nonempty, supported⟩ := isQuorum_iff.1 quorum
  rw [isMinimalQuorum, if_neg (Finset.nonempty_iff_ne_empty.mp nonempty), List.all_eq_true,
    isMinimalQuorum_iff, minimalSupported_iff nonempty supported]
  simp only [TarjanSCCCalculator.mem_setBits, Bool.not_eq_eq_eq_not, Bool.not_true,
    Bool.eq_false_iff, ne_eq, isAQuorum_eq_true_iff, isQuorum_iff]

end Contract

/-! ## The split node -/

section Split

variable {σ : Type} (randUniform : Nat → Nat → σ → Nat × σ) {mRemaining : Finset (Fin n)}

/-- A pass of the inner loop of `pickSplitNode` keeps its choice or chooses the node it counts. -/
theorem countInDegree_maxNode (count : SplitCount σ n) (j : Fin n) :
    (countInDegree randUniform count j).maxNode = count.maxNode ∨
      (countInDegree randUniform count j).maxNode = j := by
  unfold countInDegree
  dsimp only
  split
  · split
    · -- a tie: the draw decides
      obtain ⟨draw, randEngine⟩ := randUniform 0 (count.maxCount + 1) count.randEngine
      dsimp only
      split
      · exact .inl rfl
      · exact .inr rfl
    · exact .inr rfl
  · exact .inl rfl

/-- Counting only remaining nodes keeps the choice among the remaining nodes. -/
theorem foldl_countInDegree_maxNode : ∀ {js : List (Fin n)}, (∀ j ∈ js, j ∈ mRemaining) →
    ∀ (count : SplitCount σ n), count.maxNode ∈ mRemaining →
      (js.foldl (countInDegree randUniform) count).maxNode ∈ mRemaining
  | [], _, _, chosen => chosen
  | j :: rest, members, count, chosen => by
      rw [List.foldl_cons]
      refine foldl_countInDegree_maxNode
        (fun j' member => members j' (List.mem_cons_of_mem j member)) _ ?_
      rcases countInDegree_maxNode randUniform count j with same | counted
      · rw [same]
        exact chosen
      · rw [counted]
        exact members j List.mem_cons_self

variable (mGraph) in
/-- On remaining nodes, `pickSplitNode` passes its `releaseAssert` and picks a remaining node,
whatever the engine draws. -/
theorem pickSplitNode_of_nonempty (nonempty : mRemaining.Nonempty) (randEngine : σ) :
    ∃ split randEngine', pickSplitNode mGraph randUniform mRemaining randEngine =
      some (split, randEngine') ∧ split ∈ mRemaining := by
  rw [pickSplitNode, dif_pos nonempty]
  refine ⟨_, _, rfl, ?_⟩
  -- the outer loop runs the inner one over remaining successors only
  have outer : ∀ (is : List (Fin n)) (count : SplitCount σ n), count.maxNode ∈ mRemaining →
      (is.foldl (fun count i => (setBits ((mGraph i).mAllSuccessors ∩ mRemaining)).foldl
        (countInDegree randUniform) count) count).maxNode ∈ mRemaining := by
    intro is
    induction is with
    | nil => exact fun _ chosen => chosen
    | cons i rest ih =>
        intro count chosen
        rw [List.foldl_cons]
        refine ih _ (foldl_countInDegree_maxNode randUniform (fun j member => ?_) count chosen)
        exact (Finset.mem_inter.mp (TarjanSCCCalculator.mem_setBits.1 member)).2
  exact outer _ _ (Finset.max'_mem mRemaining nonempty)

end Split

/-! ## The enumerator -/

section Enumerator

variable {σ : Type} {randUniform : Nat → Nat → σ → Nat × σ} {mScanSCC : Finset (Fin n)}

variable (mGraph) in
/-- What the enumerator looks for in the scan SCC: a minimal quorum of at most half of it whose
complement in it holds a quorum. -/
structure IsWitness (mScanSCC M : Finset (Fin n)) : Prop where
  subset : M ⊆ mScanSCC
  minimal : IsMinimalQuorum mGraph M
  small : M.card ≤ maxCommit mScanSCC
  disjoint : ∃ Q ⊆ mScanSCC \ M, IsQuorum mGraph Q

variable (mGraph) in
/-- What the enumerator of `mCommitted` and `mRemaining` answers: a true answer notes a witness
with a disjoint quorum, and every witness that commits the committed nodes and stays in the
perimeter is found. -/
structure Answers (mScanSCC mCommitted mRemaining : Finset (Fin n))
    (result : Bool × SearchState σ n) : Prop where
  sound : result.1 = true → IsSplit mGraph result.2.mPotentialSplit ∧
    IsWitness mGraph mScanSCC result.2.mPotentialSplit.1
  complete : (∃ M, IsWitness mGraph mScanSCC M ∧ mCommitted ⊆ M ∧ M ⊆ mCommitted ∪ mRemaining) →
    result.1 = true

variable (mGraph randUniform mScanSCC) in
/-- Every enumerator inside the scan SCC with fewer remaining nodes than `fuel` returns, and
answers. -/
def AnswersWith (fuel : Nat) : Prop :=
  ∀ (mCommitted mRemaining : Finset (Fin n)) (st : SearchState σ n),
    mCommitted ∪ mRemaining ⊆ mScanSCC → mRemaining.card < fuel → ∃ result, anyMinQuorumHasDisjointQuorum mGraph randUniform mScanSCC fuel mCommitted
      mRemaining st = some result ∧ Answers mGraph mScanSCC mCommitted mRemaining result

variable {M mCommitted mRemaining : Finset (Fin n)}

theorem hasDisjointQuorum_fst_eq_true_iff (st : SearchState σ n) :
    (hasDisjointQuorum mGraph mScanSCC M st).1 = true ↔
      ∃ Q ⊆ mScanSCC \ M, IsQuorum mGraph Q := by
  rw [← contractToMaximalQuorum_nonempty_iff, Finset.nonempty_iff_ne_empty, hasDisjointQuorum]
  by_cases found : contractToMaximalQuorum mGraph (mScanSCC \ M) = ∅ <;> simp [found]

/-- What `hasDisjointQuorum` notes, when it finds a quorum outside a quorum, is that quorum and a
quorum of the rest of the scan SCC. -/
theorem hasDisjointQuorum_noted (quorum : IsQuorum mGraph M) (st : SearchState σ n)
    (found : (hasDisjointQuorum mGraph mScanSCC M st).1 = true) :
    IsSplit mGraph (hasDisjointQuorum mGraph mScanSCC M st).2.mPotentialSplit ∧
      (hasDisjointQuorum mGraph mScanSCC M st).2.mPotentialSplit.1 = M := by
  unfold hasDisjointQuorum at found ⊢
  dsimp only at found ⊢
  split
  · next nonempty =>
      refine ⟨⟨quorum,
        isQuorum_contractToMaximalQuorum (Finset.nonempty_iff_ne_empty.mpr nonempty), ?_⟩, rfl⟩
      exact Finset.disjoint_of_subset_right contractToMaximalQuorum_subset Finset.disjoint_sdiff
  · next empty => simp [empty] at found

theorem IsWitness.card_le_maxCommit (witness : IsWitness mGraph mScanSCC M)
    (committed : mCommitted ⊆ M) : mCommitted.card ≤ maxCommit mScanSCC :=
  (Finset.card_le_card committed).trans witness.small

/-- Committed nodes inside a minimal quorum that hold a quorum contract to it. -/
theorem IsWitness.contractToMaximalQuorum_eq (witness : IsWitness mGraph mScanSCC M)
    (committed : mCommitted ⊆ M) (nonempty : contractToMaximalQuorum mGraph mCommitted ≠ ∅) :
    contractToMaximalQuorum mGraph mCommitted = M :=
  witness.minimal.2 _ (Finset.Subset.trans contractToMaximalQuorum_subset committed)
    (isQuorum_contractToMaximalQuorum (Finset.nonempty_iff_ne_empty.mpr nonempty))

theorem answers_false (st : SearchState σ n)
    (none : ¬ ∃ M, IsWitness mGraph mScanSCC M ∧ mCommitted ⊆ M ∧ M ⊆ mCommitted ∪ mRemaining) :
    Answers mGraph mScanSCC mCommitted mRemaining (false, st) :=
  ⟨fun found => absurd found Bool.false_ne_true, fun witness => absurd witness none⟩

/-- Early exit 3: few committed nodes that hold a minimal quorum answer whether the rest of the
scan SCC holds a quorum. -/
theorem answers_hasDisjointQuorum (st : SearchState σ n) (inside : mCommitted ⊆ mScanSCC)
    (few : mCommitted.card ≤ maxCommit mScanSCC)
    (nonempty : contractToMaximalQuorum mGraph mCommitted ≠ ∅)
    (minimal : isMinimalQuorum mGraph (contractToMaximalQuorum mGraph mCommitted) = true) :
    Answers mGraph mScanSCC mCommitted mRemaining
      (hasDisjointQuorum mGraph mScanSCC (contractToMaximalQuorum mGraph mCommitted) st) := by
  have quorum := isQuorum_contractToMaximalQuorum (Finset.nonempty_iff_ne_empty.mpr nonempty)
  constructor
  · intro found
    obtain ⟨isSplit, noted⟩ := hasDisjointQuorum_noted quorum st found
    refine ⟨isSplit, ?_⟩
    rw [noted]
    exact ⟨Finset.Subset.trans contractToMaximalQuorum_subset inside,
      (isMinimalQuorum_eq_true_iff quorum).mp minimal,
      (Finset.card_le_card contractToMaximalQuorum_subset).trans few,
      (hasDisjointQuorum_fst_eq_true_iff st).mp found⟩
  · rintro ⟨M, witness, committed, -⟩
    rw [witness.contractToMaximalQuorum_eq committed nonempty, hasDisjointQuorum_fst_eq_true_iff]
    exact witness.disjoint

/-- A witness between the committed nodes and the perimeter lies in the branch that leaves a
remaining node out or in the one that commits it. -/
theorem between_erase_or_insert {split : Fin n} (member : split ∈ mRemaining)
    (committed : mCommitted ⊆ M) (perimeter : M ⊆ mCommitted ∪ mRemaining) :
    (mCommitted ⊆ M ∧ M ⊆ mCommitted ∪ mRemaining.erase split) ∨
      (insert split mCommitted ⊆ M ∧ M ⊆ insert split mCommitted ∪ mRemaining.erase split) := by
  by_cases chosen : split ∈ M
  · refine .inr ⟨Finset.insert_subset chosen committed, fun x inM => ?_⟩
    rw [Finset.insert_union, ← Finset.union_insert, Finset.insert_erase member]
    exact perimeter inM
  · refine .inl ⟨committed, fun x inM => ?_⟩
    have outside : x ≠ split := fun same => chosen (same ▸ inM)
    rcases Finset.mem_union.mp (perimeter inM) with inCommitted | inRemaining
    · exact Finset.mem_union_left _ inCommitted
    · exact Finset.mem_union_right _ (Finset.mem_erase.mpr ⟨outside, inRemaining⟩)

/-- One level of the enumerator answers for its branch when the levels below answer for theirs:
each early exit only prunes branches without a witness, and a split node passes each witness to
one of its two branches. -/
theorem answersWith_succ {fuel : Nat} (below : AnswersWith mGraph randUniform mScanSCC fuel) :
    AnswersWith mGraph randUniform mScanSCC (fuel + 1) := by
  intro mCommitted mRemaining st inside enough
  rw [anyMinQuorumHasDisjointQuorum]
  dsimp only
  split
  next tooMany =>
    refine ⟨_, rfl, answers_false st ?_⟩
    rintro ⟨M, witness, committed, -⟩
    exact absurd (witness.card_le_maxCommit committed) (Nat.not_le.mpr tooMany)
  next few =>
  split
  next nonempty =>
    split
    next minimal =>
      exact ⟨_, rfl, answers_hasDisjointQuorum st (Finset.union_subset_left inside)
        (Nat.not_lt.mp few) nonempty minimal⟩
    next notMinimal =>
      refine ⟨_, rfl, answers_false st ?_⟩
      rintro ⟨M, witness, committed, -⟩
      rw [witness.contractToMaximalQuorum_eq committed nonempty] at notMinimal
      exact notMinimal ((isMinimalQuorum_eq_true_iff witness.minimal.1).mpr witness.minimal)
  next empty =>
  split
  next noExtension =>
    refine ⟨_, rfl, answers_false st ?_⟩
    rintro ⟨M, witness, -, perimeter⟩
    exact contractToMaximalQuorum_ne_empty perimeter witness.minimal.1 noExtension
  split
  next notExtended =>
    refine ⟨_, rfl, answers_false st ?_⟩
    rintro ⟨M, witness, committed, perimeter⟩
    exact notExtended
      (committed.trans (subset_contractToMaximalQuorum perimeter witness.minimal.1))
  split
  next noneRemaining =>
    -- a witness would be the committed nodes, which hold no quorum
    refine ⟨_, rfl, answers_false st ?_⟩
    rintro ⟨M, witness, -, perimeter⟩
    rw [noneRemaining, Finset.union_empty] at perimeter
    exact empty (contractToMaximalQuorum_ne_empty perimeter witness.minimal.1)
  next remaining =>
  obtain ⟨split, mRand, picked, member⟩ :=
    pickSplitNode_of_nonempty mGraph randUniform (Finset.nonempty_iff_ne_empty.mpr remaining)
      st.mRand
  have fewer : (mRemaining.erase split).card < fuel :=
    (Finset.card_erase_lt_of_mem member).trans_le (Nat.lt_succ_iff.mp enough)
  have insideExcluded : mCommitted ∪ mRemaining.erase split ⊆ mScanSCC :=
    (Finset.union_subset_union_right (Finset.erase_subset _ _)).trans inside
  have insideIncluded : insert split mCommitted ∪ mRemaining.erase split ⊆ mScanSCC := by
    rw [Finset.insert_union, ← Finset.union_insert, Finset.insert_erase member]
    exact inside
  obtain ⟨excluded, runExcluded, answersExcluded⟩ :=
    below mCommitted (mRemaining.erase split) { st with mRand := mRand } insideExcluded fewer
  rw [picked]
  simp only [Option.bind_eq_bind, Option.bind_some, runExcluded]
  by_cases found : excluded.1 = true
  · rw [if_pos found]
    exact ⟨_, rfl, fun _ => answersExcluded.sound found, fun _ => rfl⟩
  · rw [if_neg found]
    obtain ⟨included, runIncluded, answersIncluded⟩ :=
      below (insert split mCommitted) (mRemaining.erase split) excluded.2 insideIncluded fewer
    refine ⟨included, runIncluded, answersIncluded.sound, ?_⟩
    rintro ⟨M, witness, committed, perimeter⟩
    rcases between_erase_or_insert member committed perimeter with left | right
    · exact absurd (answersExcluded.complete ⟨M, witness, left⟩) found
    · exact answersIncluded.complete ⟨M, witness, right⟩

theorem answersWith : ∀ fuel, AnswersWith mGraph randUniform mScanSCC fuel
  | 0 => fun _ _ _ _ enough => absurd enough (Nat.not_lt_zero _)
  | fuel + 1 => answersWith_succ (answersWith fuel)

/-- With nothing committed and the whole scan SCC remaining, every witness is in the perimeter. -/
theorem Answers.complete_of_isWitness {result : Bool × SearchState σ n}
    (answers : Answers mGraph mScanSCC ∅ mScanSCC result) (witness : IsWitness mGraph mScanSCC M) :
    result.1 = true :=
  answers.complete ⟨M, witness, Finset.empty_subset M, (Finset.empty_union mScanSCC).symm ▸ witness.subset⟩

/-- The enumerator as `networkEnjoysQuorumIntersection` starts it, with nothing committed and the
whole scan SCC remaining, returns; it answers true exactly when the scan SCC has a minimal quorum
of at most half of it whose complement in it holds a quorum, and then notes such a quorum with a
disjoint one. -/
theorem anyMinQuorumHasDisjointQuorum_decides (mScanSCC : Finset (Fin n)) (st : SearchState σ n) :
    ∃ result, anyMinQuorumHasDisjointQuorum mGraph randUniform mScanSCC (mScanSCC.card + 1) ∅
        mScanSCC st = some result ∧
      (result.1 = true ↔ ∃ M, IsWitness mGraph mScanSCC M) ∧
      (result.1 = true → IsSplit mGraph result.2.mPotentialSplit ∧
        IsWitness mGraph mScanSCC result.2.mPotentialSplit.1) := by
  have enumerator : AnswersWith mGraph randUniform mScanSCC (mScanSCC.card + 1) := answersWith _
  obtain ⟨result, run, answers⟩ :=
    enumerator ∅ mScanSCC st (Finset.empty_union mScanSCC).subset (Nat.lt_succ_self _)
  refine ⟨result, run, ⟨fun found => ⟨_, (answers.sound found).2⟩, ?_⟩, answers.sound⟩
  rintro ⟨M, witness⟩
  exact answers.complete_of_isWitness witness

end Enumerator

/-! ## The first stage and the answer -/

section Scan

variable {σ : Type} {cs : List (Finset (Fin n))} {scanSCC S : Finset (Fin n)}

/-- SCCs that hold no quorum leave the first stage where it was. -/
theorem scanSCCs_append_of_empty {pre : List (Finset (Fin n))}
    (empty : ∀ C ∈ pre, contractToMaximalQuorum mGraph C = ∅) (cs : List (Finset (Fin n)))
    (scanSCC : Finset (Fin n)) (st : SearchState σ n) :
    scanSCCs mGraph (pre ++ cs) scanSCC st = scanSCCs mGraph cs scanSCC st := by
  induction pre with
  | nil => rfl
  | cons C pre ih =>
      rw [List.cons_append, scanSCCs, if_neg (not_not.mpr (empty C List.mem_cons_self))]
      exact ih fun C' member => empty C' (List.mem_cons_of_mem C member)

theorem scanSCCs_of_forall_empty (empty : ∀ C ∈ cs, contractToMaximalQuorum mGraph C = ∅)
    (scanSCC : Finset (Fin n)) (st : SearchState σ n) :
    scanSCCs mGraph cs scanSCC st = (scanSCC, false, st) := by
  rw [← List.append_nil cs, scanSCCs_append_of_empty empty]
  rfl

variable (mGraph) in
/-- The SCCs hold no quorum, or a first one does. -/
theorem forall_empty_or_exists_first (cs : List (Finset (Fin n))) :
    (∀ C ∈ cs, contractToMaximalQuorum mGraph C = ∅) ∨
      ∃ pre S post, cs = pre ++ S :: post ∧ (∀ C ∈ pre, contractToMaximalQuorum mGraph C = ∅) ∧
        contractToMaximalQuorum mGraph S ≠ ∅ := by
  cases found : cs.find? (fun C => contractToMaximalQuorum mGraph C ≠ ∅) with
  | none =>
      refine .inl fun C member => ?_
      simpa using List.find?_eq_none.mp found C member
  | some S =>
      obtain ⟨quorum, pre, post, split, before⟩ := List.find?_eq_some_iff_append.mp found
      exact .inr ⟨pre, S, post, split, fun C member => by simpa using before C member,
        by simpa using quorum⟩

/-- Once it has a scan SCC, the first stage keeps it, and notes its greatest quorum with that of
the next SCC that holds one. -/
theorem scanSCCs_of_ne_empty (scanning : scanSCC ≠ ∅) (cs : List (Finset (Fin n)))
    (st : SearchState σ n) :
    (∀ C ∈ cs, contractToMaximalQuorum mGraph C = ∅) ∧
        scanSCCs mGraph cs scanSCC st = (scanSCC, false, st) ∨
      ∃ T ∈ cs, contractToMaximalQuorum mGraph T ≠ ∅ ∧
        scanSCCs mGraph cs scanSCC st = (scanSCC, true, noteFoundDisjointQuorums st
          (contractToMaximalQuorum mGraph scanSCC) (contractToMaximalQuorum mGraph T)) := by
  rcases forall_empty_or_exists_first mGraph cs with empty | ⟨pre, T, post, rfl, before, quorum⟩
  · exact .inl ⟨empty, scanSCCs_of_forall_empty empty scanSCC st⟩
  · refine .inr ⟨T, List.mem_append_right _ List.mem_cons_self, quorum, ?_⟩
    rw [scanSCCs_append_of_empty before, scanSCCs, if_pos quorum, if_neg scanning]

variable (mGraph) in
/-- Every two quorums share a node. -/
def EnjoysQuorumIntersection : Prop :=
  ∀ Q₁ Q₂, IsQuorum mGraph Q₁ → IsQuorum mGraph Q₂ → (Q₁ ∩ Q₂).Nonempty

theorem IsSplit.not_enjoysQuorumIntersection {split : Finset (Fin n) × Finset (Fin n)}
    (isSplit : IsSplit mGraph split) : ¬ EnjoysQuorumIntersection mGraph := by
  intro enjoys
  obtain ⟨left, right, apart⟩ := isSplit
  exact Finset.disjoint_iff_inter_eq_empty.mp apart ▸ enjoys _ _ left right |>.ne_empty rfl

section Decomposition

variable (decomposition : IsDecomposition (Successor fun i => (mGraph i).mAllSuccessors) cs)
include decomposition

/-- Cut down to the first listed SCC it meets, a quorum is still a quorum: the successors of
its nodes there stay in the SCC, and a slice test reads only successors. -/
theorem exists_isQuorum_inter {Q : Finset (Fin n)} (quorum : IsQuorum mGraph Q) :
    ∃ C ∈ cs, IsQuorum mGraph (Q ∩ C) := by
  obtain ⟨C, listed, ⟨x, inQ, inC⟩, closed⟩ := decomposition.exists_closed quorum.1
  refine ⟨C, listed, ⟨x, Finset.mem_inter.mpr ⟨inQ, inC⟩⟩, fun i member => ?_⟩
  obtain ⟨iInQ, iInC⟩ := Finset.mem_inter.mp member
  have same : Q ∩ C ∩ (mGraph i).mAllSuccessors = Q ∩ (mGraph i).mAllSuccessors := by
    ext y
    simp only [Finset.mem_inter]
    constructor
    · rintro ⟨⟨yInQ, -⟩, successor⟩
      exact ⟨yInQ, successor⟩
    · rintro ⟨yInQ, successor⟩
      exact ⟨⟨yInQ, closed i iInC y yInQ successor⟩, successor⟩
  rw [containsQuorumSlice_congr _ same]
  exact quorum.2 i iInQ

/-- When no SCC holds a quorum, there is no quorum. -/
theorem enjoysQuorumIntersection_of_forall_empty
    (empty : ∀ C ∈ cs, contractToMaximalQuorum mGraph C = ∅) : EnjoysQuorumIntersection mGraph := by
  intro Q _ quorum _
  obtain ⟨C, listed, inter⟩ := exists_isQuorum_inter decomposition quorum
  exact absurd (empty C listed) (contractToMaximalQuorum_ne_empty Finset.inter_subset_right inter)

/-- When only the scan SCC holds a quorum, every quorum holds one inside the scan SCC. -/
theorem isQuorum_inter_of_unique
    (unique : ∀ C ∈ cs, contractToMaximalQuorum mGraph C ≠ ∅ → C = S) {Q : Finset (Fin n)}
    (quorum : IsQuorum mGraph Q) : IsQuorum mGraph (Q ∩ S) := by
  obtain ⟨C, listed, inter⟩ := exists_isQuorum_inter decomposition quorum
  rw [← unique C listed (contractToMaximalQuorum_ne_empty Finset.inter_subset_right inter)]
  exact inter

/-- When only the scan SCC holds a quorum and quorum intersection fails, the enumerator has a
witness: two disjoint quorums in the scan SCC leave one of at most half of it. -/
theorem exists_isWitness (unique : ∀ C ∈ cs, contractToMaximalQuorum mGraph C ≠ ∅ → C = S)
    (fails : ¬ EnjoysQuorumIntersection mGraph) : ∃ M, IsWitness mGraph S M := by
  simp only [EnjoysQuorumIntersection, not_forall, Finset.not_nonempty_iff_eq_empty] at fails
  obtain ⟨Q₁, Q₂, quorum₁, quorum₂, apart⟩ := fails
  obtain ⟨nonempty₁, supported₁⟩ := isQuorum_iff.1 (isQuorum_inter_of_unique decomposition unique quorum₁)
  obtain ⟨nonempty₂, supported₂⟩ := isQuorum_iff.1 (isQuorum_inter_of_unique decomposition unique quorum₂)
  have interApart : Disjoint (Q₁ ∩ S) (Q₂ ∩ S) :=
    (Finset.disjoint_iff_inter_eq_empty.mpr apart).mono Finset.inter_subset_left
      Finset.inter_subset_left
  obtain ⟨M, sub, minimal, small, V, outside, nonemptyV, supportedV⟩ :=
    exists_small_minimalSupported Finset.inter_subset_right Finset.inter_subset_right interApart
      nonempty₁ nonempty₂ supported₁ supported₂
  exact ⟨M, sub, isMinimalQuorum_iff.2 minimal, small, V, outside,
    isQuorum_iff.2 ⟨nonemptyV, supportedV⟩⟩

end Decomposition

end Scan

section Answer

variable {σ : Type} (randUniform : Nat → Nat → σ → Nat × σ)

/-- Two SCCs that hold quorums give two disjoint quorums. -/
theorem isSplit_contractToMaximalQuorum {S T : Finset (Fin n)} (apart : Disjoint S T)
    (quorumS : contractToMaximalQuorum mGraph S ≠ ∅)
    (quorumT : contractToMaximalQuorum mGraph T ≠ ∅) :
    IsSplit mGraph (contractToMaximalQuorum mGraph S, contractToMaximalQuorum mGraph T) :=
  ⟨isQuorum_contractToMaximalQuorum (Finset.nonempty_iff_ne_empty.mpr quorumS),
    isQuorum_contractToMaximalQuorum (Finset.nonempty_iff_ne_empty.mpr quorumT),
    apart.mono contractToMaximalQuorum_subset contractToMaximalQuorum_subset⟩

/-- On SCCs that decompose the checker's graph, `networkEnjoysQuorumIntersection` returns, answers
true exactly when every two quorums share a node, and answers false with two disjoint quorums
noted. -/
theorem networkEnjoysQuorumIntersection_of_isDecomposition (qic : QuorumIntersectionCheckerImpl σ n)
    (decomposition :
      IsDecomposition (Successor fun i => (qic.mGraph i).mAllSuccessors) qic.mTSC.mSCCs) :
    ∃ answer qic', qic.networkEnjoysQuorumIntersection randUniform = some (answer, qic') ∧
      (answer = true ↔ EnjoysQuorumIntersection qic.mGraph) ∧
      (answer = false → IsSplit qic.mGraph qic'.getPotentialSplit) := by
  obtain ⟨mGraph, mTSC, search⟩ := qic
  dsimp only at decomposition ⊢
  unfold QuorumIntersectionCheckerImpl.networkEnjoysQuorumIntersection
  dsimp only
  rcases forall_empty_or_exists_first mGraph mTSC.mSCCs with
    empty | ⟨pre, S, post, split, before, quorum⟩
  · -- no SCC holds a quorum, so there is none
    rw [scanSCCs_of_forall_empty empty]
    dsimp only
    rw [if_pos rfl]
    exact ⟨true, _, rfl, iff_of_true rfl (enjoysQuorumIntersection_of_forall_empty decomposition empty),
      nofun⟩
  have scanning : S ≠ ∅ := fun empty =>
    quorum (Finset.subset_empty.mp (empty ▸ contractToMaximalQuorum_subset))
  rw [split, scanSCCs_append_of_empty before, scanSCCs, if_pos quorum, if_pos rfl]
  rcases scanSCCs_of_ne_empty scanning post search with ⟨empty, run⟩ | ⟨T, listed, quorumT, run⟩
  · -- the scan SCC alone holds quorums: the enumerator answers
    rw [run]
    dsimp only
    rw [if_neg scanning, Bool.not_false, if_pos rfl]
    have enumerator : AnswersWith mGraph randUniform S (S.card + 1) := answersWith _
    obtain ⟨⟨found, search'⟩, enumerated, answers⟩ :=
      enumerator ∅ S search (Finset.empty_union S).subset (Nat.lt_succ_self _)
    rw [enumerated]
    refine ⟨!found, _, rfl, ?_, ?_⟩
    · have unique : ∀ C ∈ mTSC.mSCCs, contractToMaximalQuorum mGraph C ≠ ∅ → C = S := by
        intro C listedC quorumC
        rw [split] at listedC
        rcases List.mem_append.mp listedC with inPre | inRest
        · exact absurd (before C inPre) quorumC
        · rcases List.mem_cons.mp inRest with same | inPost
          · exact same
          · exact absurd (empty C inPost) quorumC
      cases found
      · refine iff_of_true rfl (Classical.byContradiction fun fails => ?_)
        obtain ⟨M, witness⟩ := exists_isWitness decomposition unique fails
        exact Bool.false_ne_true (answers.complete_of_isWitness witness)
      · exact iff_of_false Bool.false_ne_true (answers.sound rfl).1.not_enjoysQuorumIntersection
    · intro reported
      rw [Bool.not_eq_false'] at reported
      exact (answers.sound reported).1
  · -- a second SCC holds a quorum: its greatest quorum and the scan SCC's are disjoint
    have apart : Disjoint S T := List.rel_of_pairwise_cons
      (List.pairwise_append.mp (split ▸ decomposition.disjoint)).2.1 listed
    have isSplit := isSplit_contractToMaximalQuorum apart quorum quorumT
    rw [run]
    dsimp only
    rw [if_neg scanning, Bool.not_true, if_neg Bool.false_ne_true]
    exact ⟨false, _, rfl, iff_of_false Bool.false_ne_true isSplit.not_enjoysQuorumIntersection,
      fun _ => isSplit⟩

/-- `QuorumIntersectionCheckerImpl` decides quorum intersection: built on the graph of the
numbered nodes, `networkEnjoysQuorumIntersection` returns, answers true exactly when every two
quorums share a node, and when it answers false `getPotentialSplit` returns two disjoint
quorums. -/
theorem networkEnjoysQuorumIntersection_decides (mRand : σ) :
    ∃ qic answer qic', QuorumIntersectionCheckerImpl.create mGraph mRand = some qic ∧
      qic.networkEnjoysQuorumIntersection randUniform = some (answer, qic') ∧
      (answer = true ↔ EnjoysQuorumIntersection mGraph) ∧
      (answer = false → IsSplit mGraph qic'.getPotentialSplit) := by
  have cleared : Roots (fun i => (mGraph i).mAllSuccessors) [] (cleared n) := roots_cleared
  obtain ⟨mTSC, run, -⟩ := Roots.run (List.finRange n) cleared
  have built : buildSCCs mGraph = some mTSC := run
  obtain ⟨answer, qic', answered, decides, reported⟩ :=
    networkEnjoysQuorumIntersection_of_isDecomposition randUniform ⟨mGraph, mTSC, ⟨mRand, (∅, ∅)⟩⟩
      (isDecomposition_of_calculateSCCs built)
  refine ⟨_, answer, qic', ?_, answered, decides, reported⟩
  rw [QuorumIntersectionCheckerImpl.create, built]
  rfl

end Answer

end StellarCore.Herder
