import StellarCore.Scp.QuorumSetUtils
import StellarCore.Lib.Shrink

/-!
# What slices, v-blocking sets and quorums are

The countdowns of `LocalNode` decide counts. `isQuorumSliceInternal` holds when at least
`threshold` entries of the quorum set are satisfied (with the `uint32` arithmetic, a threshold
of zero needs a full turn of the counter), and `isVBlockingInternal` when at least
`1 + entries - threshold` are blocked. Both counts only grow with the node set, so both
functions are monotone.

On a sane quorum set the thresholds are positive and at most the number of entries, and there
are at most a thousand nodes, so the arithmetic of the countdowns is exact and the two notions
are dual: a set blocks exactly when the rest of the nodes do not satisfy.

`isQuorum` shrinks the filtered nodes to the greatest set in which every node has a slice;
monotonicity of slices makes that set contain every such set, and the loop stops because
every round that does not stop drops a node.
-/

set_option autoImplicit false
set_option linter.unusedSectionVars false

namespace StellarCore.Scp

variable {N : Type}

/-- Quorum sets are nested; a property that holds of a quorum set once it holds of its inner
sets holds of every quorum set. -/
theorem SCPQuorumSet.induction {P : SCPQuorumSet N → Prop}
    (step : ∀ threshold validators innerSets, (∀ inner ∈ innerSets, P inner) →
      P ⟨threshold, validators, innerSets⟩) :
    ∀ qSet, P qSet
  | ⟨threshold, validators, innerSets⟩ =>
      step threshold validators innerSets fun inner _ => SCPQuorumSet.induction step inner
termination_by qSet => sizeOf qSet
decreasing_by
  have smaller := List.sizeOf_lt_of_mem ‹inner ∈ innerSets›
  simp only [SCPQuorumSet.mk.sizeOf_spec]
  omega

variable [LinearOrder N]

/-! ## The countdowns -/

/-- How many hits the `uint32` countdown from `left` takes to reach zero. -/
def uint32Steps (left : Nat) : Nat :=
  if left % 4294967296 = 0 then 4294967296 else left % 4294967296

theorem thresholdReached_iff (left : Nat) (hits : List Bool) :
    thresholdReached left hits = true ↔ uint32Steps left ≤ hits.count true := by
  induction hits generalizing left with
  | nil => simp [thresholdReached, uint32Steps]; split <;> omega
  | cons hit rest more =>
      cases hit with
      | false => simpa [thresholdReached] using more left
      | true =>
          simp only [thresholdReached, if_true, List.count_cons_self]
          -- one hit takes the counter one step down, around from zero
          have steps : uint32Decrement left = 0 ∧ uint32Steps left = 1 ∨
              uint32Decrement left ≠ 0 ∧ uint32Steps left = uint32Steps (uint32Decrement left) + 1 := by
            unfold uint32Decrement uint32Steps
            split_ifs <;> omega
          rcases steps with ⟨zero, one⟩ | ⟨nonzero, next⟩
          · simp [zero, one]
          · simp only [nonzero, if_false, more, next]
            omega

theorem blockReached_iff (left : Int) (hits : List Bool) :
    blockReached left hits = true ↔ max left 1 ≤ (hits.count true : Int) := by
  induction hits generalizing left with
  | nil => simp [blockReached]
  | cons hit rest more =>
      cases hit with
      | false => simpa [blockReached] using more left
      | true =>
          simp only [blockReached, if_true, List.count_cons_self]
          by_cases last : left - 1 ≤ 0
          · simp only [last, if_true, true_iff]
            omega
          · simp only [last, if_false, more]
            omega

/-! ## Hits and monotonicity -/

theorem count_true_map {α : Type} (f : α → Bool) (l : List α) :
    (l.map f).count true = l.countP f := by
  simp [List.count_eq_countP, List.countP_map, Function.comp_def]

theorem innerSliceHits_eq (innerSets : List (SCPQuorumSet N)) (nodeSet : List N) :
    innerSliceHits innerSets nodeSet = innerSets.map (isQuorumSliceInternal · nodeSet) := by
  induction innerSets with
  | nil => rfl
  | cons inner rest more => simp [innerSliceHits, more]

theorem innerBlockHits_eq (innerSets : List (SCPQuorumSet N)) (nodeSet : List N) :
    innerBlockHits innerSets nodeSet = innerSets.map (isVBlockingInternal · nodeSet) := by
  induction innerSets with
  | nil => rfl
  | cons inner rest more => simp [innerBlockHits, more]

/-- The entries of a quorum set a node set satisfies, validators first. -/
theorem isQuorumSliceInternal_mk (threshold : Nat) (validators : List N)
    (innerSets : List (SCPQuorumSet N)) (nodeSet : List N) :
    isQuorumSliceInternal ⟨threshold, validators, innerSets⟩ nodeSet =
      decide (uint32Steps threshold ≤ validators.countP (fun v => decide (v ∈ nodeSet)) +
        innerSets.countP (isQuorumSliceInternal · nodeSet)) := by
  rw [isQuorumSliceInternal, innerSliceHits_eq, Bool.eq_iff_iff, thresholdReached_iff,
    decide_eq_true_iff, List.count_append, count_true_map, count_true_map]

theorem isVBlockingInternal_mk (threshold : Nat) (validators : List N)
    (innerSets : List (SCPQuorumSet N)) (nodeSet : List N) :
    isVBlockingInternal ⟨threshold, validators, innerSets⟩ nodeSet =
      (decide (threshold ≠ 0) && decide (max (leftTillBlock ⟨threshold, validators, innerSets⟩) 1 ≤
        ((validators.countP (fun v => decide (v ∈ nodeSet)) +
          innerSets.countP (isVBlockingInternal · nodeSet) : Nat) : Int))) := by
  rw [isVBlockingInternal, innerBlockHits_eq]
  by_cases zero : threshold = 0
  · simp [zero]
  · rw [if_neg zero, Bool.eq_iff_iff, blockReached_iff, List.count_append, count_true_map,
      count_true_map]
    simp [zero]

/-- More nodes satisfy at least as many entries. -/
theorem isQuorumSliceInternal_mono {A B : List N} (sub : A ⊆ B) :
    ∀ qSet : SCPQuorumSet N, isQuorumSliceInternal qSet A = true →
      isQuorumSliceInternal qSet B = true := by
  refine SCPQuorumSet.induction fun threshold validators innerSets inner satisfied => ?_
  rw [isQuorumSliceInternal_mk, decide_eq_true_iff] at satisfied ⊢
  have validatorsMore : validators.countP (fun v => decide (v ∈ A)) ≤
      validators.countP (fun v => decide (v ∈ B)) :=
    List.countP_mono_left fun v _ member => by simpa using sub (by simpa using member)
  have innerMore : innerSets.countP (isQuorumSliceInternal · A) ≤
      innerSets.countP (isQuorumSliceInternal · B) :=
    List.countP_mono_left inner
  omega

theorem isVBlockingInternal_mono {A B : List N} (sub : A ⊆ B) :
    ∀ qSet : SCPQuorumSet N, isVBlockingInternal qSet A = true →
      isVBlockingInternal qSet B = true := by
  refine SCPQuorumSet.induction fun threshold validators innerSets inner blocked => ?_
  rw [isVBlockingInternal_mk, Bool.and_eq_true, decide_eq_true_iff, decide_eq_true_iff]
    at blocked ⊢
  have validatorsMore : validators.countP (fun v => decide (v ∈ A)) ≤
      validators.countP (fun v => decide (v ∈ B)) :=
    List.countP_mono_left fun v _ member => by simpa using sub (by simpa using member)
  have innerMore : innerSets.countP (isVBlockingInternal · A) ≤
      innerSets.countP (isVBlockingInternal · B) :=
    List.countP_mono_left inner
  exact ⟨blocked.1, blocked.2.trans (by exact_mod_cast Nat.add_le_add validatorsMore innerMore)⟩

/-- No quorum set is blocked by no nodes. -/
theorem isVBlockingInternal_nil : ∀ qSet : SCPQuorumSet N, isVBlockingInternal qSet [] = false := by
  refine SCPQuorumSet.induction fun threshold validators innerSets inner => ?_
  have unblocked : innerSets.countP (isVBlockingInternal · []) = 0 :=
    List.countP_eq_zero.mpr fun qSet member => by simp [inner qSet member]
  rw [isVBlockingInternal_mk, unblocked]
  simp

/-! ## Sane quorum sets -/

/-- What the sanity check guarantees of every level of a quorum set: a positive threshold at
most the number of entries, and fewer than `2^31` entries, so that `leftTillBlock` is exact. -/
inductive Sane : SCPQuorumSet N → Prop
  | mk {threshold : Nat} {validators : List N} {innerSets : List (SCPQuorumSet N)}
      (positive : 0 < threshold) (atMost : threshold ≤ validators.length + innerSets.length)
      (small : validators.length + innerSets.length < 2147483648)
      (inner : ∀ qSet ∈ innerSets, Sane qSet) : Sane ⟨threshold, validators, innerSets⟩

/-- What a successful `checkSanity` of one quorum set tells: the count grew by at least its
entries, of which there is one at least, and the set is sane while the count is small. -/
def SanityCounted (extraChecks : Bool) (qSet : SCPQuorumSet N) : Prop :=
  ∀ {depth : Nat} {known known' : List N} {count count' : Nat},
    checkSanity extraChecks qSet depth known count = .ok (known', count') →
      count + (qSet.validators.length + qSet.innerSets.length) ≤ count' ∧
        0 < qSet.validators.length + qSet.innerSets.length ∧ (count' < 2147483648 → Sane qSet)

theorem checkInnerSanity_counted (extraChecks : Bool) :
    ∀ innerSets : List (SCPQuorumSet N), (∀ qSet ∈ innerSets, SanityCounted extraChecks qSet) →
      ∀ {depth : Nat} {known known' : List N} {count count' : Nat},
        checkInnerSanity extraChecks innerSets depth known count = .ok (known', count') →
          count + innerSets.length ≤ count' ∧ (count' < 2147483648 → ∀ qSet ∈ innerSets, Sane qSet)
  | [], _, _, _, _, _, _, checked => by
      simp only [checkInnerSanity, Except.ok.injEq, Prod.mk.injEq] at checked
      obtain ⟨-, rfl⟩ := checked
      exact ⟨by simp, fun _ _ member => nomatch member⟩
  | inner :: rest, counted, depth, known, known', count, count', checked => by
      unfold checkInnerSanity at checked
      split at checked
      · simp at checked
      · rename_i known₁ count₁ first
        obtain ⟨grew, nonempty, sane⟩ := counted inner List.mem_cons_self first
        obtain ⟨grewRest, saneRest⟩ := checkInnerSanity_counted extraChecks rest
          (fun qSet member => counted qSet (List.mem_cons_of_mem inner member)) checked
        refine ⟨by simp only [List.length_cons]; omega, fun small qSet member => ?_⟩
        rcases List.mem_cons.mp member with rfl | later
        · exact sane (by omega)
        · exact saneRest small qSet later

theorem checkSanity_counted (extraChecks : Bool) :
    ∀ qSet : SCPQuorumSet N, SanityCounted extraChecks qSet := by
  refine SCPQuorumSet.induction fun threshold validators innerSets inner => ?_
  intro depth known known' count count' checked
  unfold checkSanity at checked
  dsimp only at checked
  split_ifs at checked with deep notPositive exceeds lowered
  split at checked
  · simp at checked
  · rename_i known₁ _
    obtain ⟨grew, sane⟩ := checkInnerSanity_counted extraChecks innerSets inner checked
    dsimp only
    refine ⟨by omega, by omega, fun small => ⟨by omega, by omega, by omega, sane small⟩⟩

/-- `isQuorumSetSane` holds only of sane quorum sets. -/
theorem Sane.of_isQuorumSetSane {qSet : SCPQuorumSet N} {extraChecks : Bool}
    (sane : isQuorumSetSane qSet extraChecks = .ok ()) : Sane qSet := by
  unfold isQuorumSetSane at sane
  split at sane
  · simp at sane
  · rename_i known count checked
    split at sane
    · simp at sane
    · exact (checkSanity_counted extraChecks qSet checked).2.2 (by omega)

theorem mem_innerAllNodes {qSet : SCPQuorumSet N} {innerSets : List (SCPQuorumSet N)}
    (member : qSet ∈ innerSets) : allNodes qSet ⊆ innerAllNodes innerSets := by
  induction innerSets with
  | nil => exact nomatch member
  | cons inner rest more =>
      rw [innerAllNodes]
      rcases List.mem_cons.mp member with rfl | later
      · exact List.subset_append_left _ _
      · exact List.Subset.trans (more later) (List.subset_append_right _ _)

/-- On a sane quorum set, `leftTillBlock` is `1 + entries - threshold`. -/
theorem leftTillBlock_eq {threshold : Nat} {validators : List N}
    {innerSets : List (SCPQuorumSet N)} (sane : Sane ⟨threshold, validators, innerSets⟩) :
    leftTillBlock ⟨threshold, validators, innerSets⟩ =
      1 + validators.length + innerSets.length - threshold := by
  cases sane with
  | mk positive atMost small _ =>
      unfold leftTillBlock
      dsimp only
      apply Int.bmod_eq_of_le <;> omega

/-- Blocking and satisfying are dual on a sane quorum set: `blocking` meets every slice
exactly when the other nodes contain none. -/
theorem isVBlockingInternal_eq_not (nodes blocking : List N) :
    ∀ qSet : SCPQuorumSet N, Sane qSet → allNodes qSet ⊆ nodes →
      isVBlockingInternal qSet blocking =
        !isQuorumSliceInternal qSet (nodes.filter fun n => decide (n ∉ blocking)) := by
  refine SCPQuorumSet.induction fun threshold validators innerSets inner sane covers => ?_
  have leftTill := leftTillBlock_eq sane
  cases sane with
  | mk positive atMost small innerSane =>
      rw [allNodes] at covers
      -- every entry is either blocked or satisfied by the other nodes
      have validatorsRest : validators.countP (fun v => decide (v ∈ nodes.filter
          fun n => decide (n ∉ blocking))) = validators.countP fun v => !decide (v ∈ blocking) :=
        List.countP_congr fun v member => by
          simp [covers (List.mem_append_left _ member)]
      have innerRest : innerSets.countP (isQuorumSliceInternal · (nodes.filter
          fun n => decide (n ∉ blocking))) = innerSets.countP (!isVBlockingInternal · blocking) :=
        List.countP_congr fun qSet member => by
          rw [inner qSet member (innerSane qSet member)
            (List.Subset.trans (mem_innerAllNodes member)
              fun _ found => covers (List.mem_append_right _ found))]
          simp
      have validatorsSplit : validators.length = validators.countP (fun v => decide (v ∈ blocking)) +
          validators.countP fun v => !decide (v ∈ blocking) := by
        simp [List.length_eq_countP_add_countP fun v => decide (v ∈ blocking)]
      have innerSplit : innerSets.length = innerSets.countP (isVBlockingInternal · blocking) +
          innerSets.countP (!isVBlockingInternal · blocking) := by
        simp [List.length_eq_countP_add_countP fun qSet => isVBlockingInternal qSet blocking]
      have steps : uint32Steps threshold = threshold := by
        unfold uint32Steps
        split_ifs <;> omega
      rw [isVBlockingInternal_mk, isQuorumSliceInternal_mk, leftTill, validatorsRest, innerRest,
        steps, Bool.eq_iff_iff]
      simp only [Bool.and_eq_true, decide_eq_true_iff, Bool.not_eq_true', decide_eq_false_iff_not]
      omega

/-- Slices and v-blocking sets are dual on every sane quorum set, and both only grow with the
node set. -/
theorem isVBlocking_eq_not_isQuorumSlice (qSet : SCPQuorumSet N) (nodes blocking : List N)
    (sane : isQuorumSetSane qSet false = .ok ()) (covers : allNodes qSet ⊆ nodes) :
    isVBlocking qSet blocking = !isQuorumSlice qSet (nodes.filter fun n => decide (n ∉ blocking)) ∧
      (∀ (q : SCPQuorumSet N) (A B : List N), A ⊆ B →
        isQuorumSlice q A = true → isQuorumSlice q B = true) ∧
      (∀ (q : SCPQuorumSet N) (A B : List N), A ⊆ B →
        isVBlocking q A = true → isVBlocking q B = true) :=
  ⟨isVBlockingInternal_eq_not nodes blocking qSet (Sane.of_isQuorumSetSane sane) covers,
    fun q _ _ sub => isQuorumSliceInternal_mono sub q,
    fun q _ _ sub => isVBlockingInternal_mono sub q⟩

theorem isVBlocking_eq_not_isQuorumSlice_three :
    isQuorumSetSane (⟨2, [0, 1, 2], []⟩ : SCPQuorumSet Nat) false = .ok () ∧
      allNodes (⟨2, [0, 1, 2], []⟩ : SCPQuorumSet Nat) ⊆ [0, 1, 2] ∧
      isVBlocking (⟨2, [0, 1, 2], []⟩ : SCPQuorumSet Nat) [1, 2] =
        !isQuorumSlice ⟨2, [0, 1, 2], []⟩ ([0, 1, 2].filter fun n => decide (n ∉ [1, 2])) :=
  have sane : isQuorumSetSane (⟨2, [0, 1, 2], []⟩ : SCPQuorumSet Nat) false = .ok () := by rfl
  have covers : allNodes (⟨2, [0, 1, 2], []⟩ : SCPQuorumSet Nat) ⊆ [0, 1, 2] := by decide
  ⟨sane, covers, (isVBlocking_eq_not_isQuorumSlice _ _ _ sane covers).1⟩

/-! ## Quorums -/

section Maps

variable {α : Type}

/-- The `quorumFilter` lambda of `isQuorum`: whether a node's own quorum set is satisfied by
`pNodes`. -/
def quorumFilter (map : List (N × α)) (qfun : α → Option (SCPQuorumSet N)) (pNodes : List N)
    (nodeID : N) : Bool :=
  match SortedMap.lookup nodeID map with
  | some statement =>
      match qfun statement with
      | some qSet => isQuorumSlice qSet pNodes
      | none => false
  | none => false

theorem quorumRound_eq (map : List (N × α)) (qfun : α → Option (SCPQuorumSet N))
    (pNodes : List N) : quorumRound map qfun pNodes = Shrink.round (quorumFilter map qfun) pNodes :=
  rfl

theorem quorumLoop_eq (map : List (N × α)) (qfun : α → Option (SCPQuorumSet N)) :
    ∀ (fuel : Nat) (pNodes : List N),
      quorumLoop map qfun fuel pNodes = Shrink.loop (quorumFilter map qfun) fuel pNodes
  | 0, _ => rfl
  | fuel + 1, pNodes => by
      simp only [quorumLoop, Shrink.loop, quorumRound_eq, quorumLoop_eq map qfun fuel]

theorem quorumFilter_eq_true_iff {map : List (N × α)} {qfun : α → Option (SCPQuorumSet N)}
    {pNodes : List N} {nodeID : N} :
    quorumFilter map qfun pNodes nodeID = true ↔ ∃ statement, SortedMap.lookup nodeID map =
      some statement ∧ ∃ qSet, qfun statement = some qSet ∧ isQuorumSlice qSet pNodes = true := by
  unfold quorumFilter
  split
  · next statement found =>
      split
      · next qSet hasQSet => simp [found, hasQSet]
      · next missing => simp [found, missing]
  · next missing => simp [missing]

/-- A node keeps its slice when the set grows. -/
theorem quorumFilter_monotone (map : List (N × α)) (qfun : α → Option (SCPQuorumSet N)) :
    Shrink.Monotone (quorumFilter map qfun) := by
  intro small large sub nodeID kept
  obtain ⟨statement, found, qSet, hasQSet, slice⟩ := quorumFilter_eq_true_iff.1 kept
  exact quorumFilter_eq_true_iff.2
    ⟨statement, found, qSet, hasQSet, isQuorumSliceInternal_mono sub qSet slice⟩

theorem mem_filteredNodes {map : List (N × α)} {filter : α → Bool} {nodeID : N} :
    nodeID ∈ filteredNodes map filter ↔ ∃ statement, (nodeID, statement) ∈ map ∧
      filter statement = true := by
  simp [filteredNodes]

/-- On distinct keys, a filtered node's statement is the one the map holds for it. -/
theorem lookup_of_mem_filteredNodes {map : List (N × α)} {filter : α → Bool} {nodeID : N}
    (keys : (map.map Prod.fst).Nodup) (member : nodeID ∈ filteredNodes map filter) :
    ∃ statement, SortedMap.lookup nodeID map = some statement ∧ filter statement = true := by
  obtain ⟨statement, entry, passes⟩ := mem_filteredNodes.1 member
  exact ⟨statement, SortedMap.lookup_of_mem keys entry, passes⟩

end Maps

end StellarCore.Scp
