import StellarCore.Scp.QuorumSetNormalForm
import Mathlib.Data.Finset.Card

/-!
# Quorum slices in the quorum intersection checker

The checker (herder/QuorumIntersectionCheckerImpl.cpp) converts each quorum set into a
`QBitSet`, whose node sets are bit sets over the nodes that have quorum sets. A validator with
no quorum set gets no bit and is dropped, and the threshold is kept. `containsQuorumSlice`
decides what `LocalNode::isQuorumSlice` decides with three shortcuts: it accepts at once when
the validators alone reach the threshold, rejects when all the nodes the quorum set depends on
cannot reach it, and leaves the loop over the inner sets as soon as enough of them failed.

The second shortcut counts each node once, however many inner sets it helps. It is exact when
the inner sets share no node and each needs one of its nodes to be satisfied: on a sane quorum
set, where thresholds are positive and no node comes twice at any depth. There the checker and
`LocalNode` agree on every set of nodes that have quorum sets.
-/

set_option autoImplicit false

namespace StellarCore.Herder

open Scp

/-- `QBitSet`. A bit set stands for the set of the nodes whose bits are set: the checker's bit
numbers only rename the nodes that have quorum sets. -/
structure QBitSet (N : Type) where
  mThreshold : Nat
  mNodes : Finset N
  mInnerSets : List (QBitSet N)

variable {N : Type} [LinearOrder N]

namespace QBitSet

mutual

/-- `mAllSuccessors`: every node the quorum set depends on, at any depth. -/
def mAllSuccessors : QBitSet N → Finset N
  | ⟨_, nodes, innerSets⟩ => getSuccessors nodes innerSets

/-- `QBitSet::getSuccessors`: the nodes, joined with the successors of each inner set. -/
def getSuccessors (out : Finset N) : List (QBitSet N) → Finset N
  | [] => out
  | inner :: rest => getSuccessors (out ∪ mAllSuccessors inner) rest

end

end QBitSet

mutual

/-- `QuorumIntersectionCheckerImpl::containsQuorumSlice`. -/
def containsQuorumSlice (bs : Finset N) : QBitSet N → Bool
  | qbs@⟨threshold, nodes, innerSets⟩ =>
    let intersecting := (bs ∩ nodes).card
    if intersecting ≥ threshold then true
    else
      let innerThreshold := threshold - intersecting
      if innerThreshold > innerSets.length then false
      else if (bs ∩ qbs.mAllSuccessors).card < threshold then false
      else containsInnerSlices bs innerSets innerThreshold (innerSets.length - innerThreshold + 1)

/-- The loop of `containsQuorumSlice` over the inner sets, with the successes it still needs
and the failures it still allows. -/
def containsInnerSlices (bs : Finset N) : List (QBitSet N) → Nat → Nat → Bool
  | [], _, _ => false
  | inner :: rest, innerThreshold, innerFailLimit =>
    if containsQuorumSlice bs inner then
      if innerThreshold - 1 = 0 then true
      else containsInnerSlices bs rest (innerThreshold - 1) innerFailLimit
    else if innerFailLimit - 1 = 0 then false
    else containsInnerSlices bs rest innerThreshold (innerFailLimit - 1)

end

mutual

/-- `QuorumIntersectionCheckerImpl::convertSCPQuorumSet`, with `mPubKeyBitNums` given by the
nodes it numbers: those that have quorum sets. -/
def convertSCPQuorumSet (mPubKeyBitNums : Finset N) : SCPQuorumSet N → QBitSet N
  | ⟨threshold, validators, innerSets⟩ =>
    ⟨threshold, (validators.filter (· ∈ mPubKeyBitNums)).toFinset,
      convertInnerSets mPubKeyBitNums innerSets⟩

/-- `convertSCPQuorumSet` of each inner set. -/
def convertInnerSets (mPubKeyBitNums : Finset N) : List (SCPQuorumSet N) → List (QBitSet N)
  | [] => []
  | inner :: rest => convertSCPQuorumSet mPubKeyBitNums inner :: convertInnerSets mPubKeyBitNums rest

end

namespace QBitSet

omit [LinearOrder N] in
/-- `QBitSet`s are nested; a property that holds of one once it holds of its inner sets holds
of all. -/
theorem induction {P : QBitSet N → Prop}
    (step : ∀ threshold nodes innerSets, (∀ inner ∈ innerSets, P inner) →
      P ⟨threshold, nodes, innerSets⟩) :
    ∀ qbs, P qbs
  | ⟨threshold, nodes, innerSets⟩ =>
    step threshold nodes innerSets fun inner _ => induction step inner
termination_by qbs => sizeOf qbs
decreasing_by
  have smaller := List.sizeOf_lt_of_mem ‹inner ∈ innerSets›
  simp only [QBitSet.mk.sizeOf_spec]
  omega

@[simp] theorem mAllSuccessors_mk (threshold : Nat) (nodes : Finset N)
    (innerSets : List (QBitSet N)) :
    mAllSuccessors ⟨threshold, nodes, innerSets⟩ = getSuccessors nodes innerSets := rfl

theorem subset_getSuccessors : ∀ (out : Finset N) (innerSets : List (QBitSet N)),
    out ⊆ getSuccessors out innerSets
  | _, [] => Finset.Subset.refl _
  | out, inner :: rest =>
    Finset.subset_union_left.trans (subset_getSuccessors (out ∪ mAllSuccessors inner) rest)

theorem mAllSuccessors_subset_getSuccessors : ∀ (out : Finset N) {innerSets : List (QBitSet N)}
    {inner : QBitSet N}, inner ∈ innerSets → inner.mAllSuccessors ⊆ getSuccessors out innerSets
  | _, [], _, member => absurd member List.not_mem_nil
  | out, first :: rest, inner, member => by
    rw [getSuccessors]
    cases List.mem_cons.mp member with
    | inl here =>
      subst here
      exact Finset.subset_union_right.trans (subset_getSuccessors _ rest)
    | inr later => exact mAllSuccessors_subset_getSuccessors _ later

/-- Where the successors of the inner sets are apart from each other and from what is already
collected, each satisfied inner set adds a node of `bs` of its own. -/
theorem card_getSuccessors_ge (bs : Finset N) : ∀ (out : Finset N) (innerSets : List (QBitSet N)),
    (∀ inner ∈ innerSets, Disjoint out inner.mAllSuccessors) →
    innerSets.Pairwise (fun inner inner' => Disjoint inner.mAllSuccessors inner'.mAllSuccessors) →
    (∀ inner ∈ innerSets, containsQuorumSlice bs inner = true →
      (bs ∩ inner.mAllSuccessors).Nonempty) →
    (bs ∩ out).card + innerSets.countP (containsQuorumSlice bs ·) ≤
      (bs ∩ getSuccessors out innerSets).card
  | out, [], _, _, _ => by simp [getSuccessors]
  | out, inner :: rest, apart, pairwise, needsNode => by
    obtain ⟨firstApart, restApart⟩ := List.pairwise_cons.mp pairwise
    -- the inner set's successors join what is collected, still apart from the rest
    have joined : ∀ later ∈ rest, Disjoint (out ∪ inner.mAllSuccessors) later.mAllSuccessors :=
      fun later member => Finset.disjoint_union_left.mpr
        ⟨apart later (List.mem_cons_of_mem inner member), firstApart later member⟩
    have more := card_getSuccessors_ge bs (out ∪ inner.mAllSuccessors) rest joined restApart
      fun later member => needsNode later (List.mem_cons_of_mem inner member)
    have split : (bs ∩ (out ∪ inner.mAllSuccessors)).card =
        (bs ∩ out).card + (bs ∩ inner.mAllSuccessors).card := by
      rw [Finset.inter_union_distrib_left, Finset.card_union_of_disjoint
        ((apart inner List.mem_cons_self).mono Finset.inter_subset_right Finset.inter_subset_right)]
    have own : (if containsQuorumSlice bs inner then 1 else 0) ≤ (bs ∩ inner.mAllSuccessors).card := by
      split
      · exact Finset.card_pos.mpr (needsNode inner List.mem_cons_self ‹_›)
      · exact Nat.zero_le _
    rw [getSuccessors, List.countP_cons]
    omega

end QBitSet

/-- The loop over the inner sets, started with successes needed and failures allowed that add
up to one more than the inner sets, decides whether enough inner sets are satisfied. -/
theorem containsInnerSlices_eq (bs : Finset N) : ∀ (innerSets : List (QBitSet N))
    (innerThreshold innerFailLimit : Nat), 1 ≤ innerThreshold → 1 ≤ innerFailLimit →
      innerThreshold + innerFailLimit = innerSets.length + 1 →
      containsInnerSlices bs innerSets innerThreshold innerFailLimit =
        decide (innerThreshold ≤ innerSets.countP (containsQuorumSlice bs ·))
  | [], innerThreshold, _, needed, _, _ => by
    simp only [containsInnerSlices, List.countP_nil]
    exact (decide_eq_false (by omega)).symm
  | inner :: rest, innerThreshold, innerFailLimit, needed, allowed, total => by
    rw [containsInnerSlices, List.countP_cons, List.length_cons] at *
    by_cases satisfied : containsQuorumSlice bs inner = true
    · -- a success: done at the last one needed, else one fewer needed
      simp only [satisfied, if_true]
      split
      · exact (decide_eq_true (by omega)).symm
      · rw [containsInnerSlices_eq bs rest (innerThreshold - 1) innerFailLimit (by omega) allowed
          (by omega)]
        exact decide_eq_decide.mpr (by omega)
    · -- a failure: done at the last one allowed, else one fewer allowed
      have bounded : rest.countP (containsQuorumSlice bs ·) ≤ rest.length := List.countP_le_length
      simp only [satisfied, Bool.false_eq_true, if_false, Nat.add_zero]
      split
      · exact (decide_eq_false (by omega)).symm
      · exact containsInnerSlices_eq bs rest innerThreshold (innerFailLimit - 1) needed (by omega)
          (by omega)

/-- Where every satisfied entry brings a node of `bs` of its own to the nodes the quorum set
depends on, the shortcuts of `containsQuorumSlice` are exact: it decides whether the satisfied
entries reach the threshold. -/
theorem containsQuorumSlice_eq_of_covered (bs : Finset N) {threshold : Nat} {nodes : Finset N}
    {innerSets : List (QBitSet N)}
    (covered : (bs ∩ nodes).card + innerSets.countP (containsQuorumSlice bs ·) ≤
      (bs ∩ QBitSet.getSuccessors nodes innerSets).card) :
    containsQuorumSlice bs ⟨threshold, nodes, innerSets⟩ =
      decide (threshold ≤ (bs ∩ nodes).card + innerSets.countP (containsQuorumSlice bs ·)) := by
  have bounded : innerSets.countP (containsQuorumSlice bs ·) ≤ innerSets.length :=
    List.countP_le_length
  rw [containsQuorumSlice]
  dsimp only
  split
  · -- the validators alone reach the threshold
    exact (decide_eq_true (by omega)).symm
  split
  · -- too few inner sets are left to reach it
    exact (decide_eq_false (by omega)).symm
  by_cases short : (bs ∩ QBitSet.mAllSuccessors ⟨threshold, nodes, innerSets⟩).card < threshold
  · -- the nodes depended on cannot reach it, so neither can the entries
    rw [if_pos short]
    rw [QBitSet.mAllSuccessors_mk] at short
    exact (decide_eq_false (by omega)).symm
  · rw [if_neg short, containsInnerSlices_eq bs innerSets _ _ (by omega) (by omega) (by omega)]
    exact decide_eq_decide.mpr (by omega)

/-- What `containsQuorumSlice` decides, shortcuts included: the validators reach the threshold,
or the inner sets can make up the rest, the nodes depended on reach it, and enough inner sets
are satisfied. -/
theorem containsQuorumSlice_mk_eq_true_iff (bs : Finset N) (threshold : Nat) (nodes : Finset N)
    (innerSets : List (QBitSet N)) :
    containsQuorumSlice bs ⟨threshold, nodes, innerSets⟩ = true ↔
      threshold ≤ (bs ∩ nodes).card ∨
        (threshold - (bs ∩ nodes).card ≤ innerSets.length ∧
          threshold ≤ (bs ∩ QBitSet.getSuccessors nodes innerSets).card ∧
          threshold - (bs ∩ nodes).card ≤ innerSets.countP (containsQuorumSlice bs ·)) := by
  rw [containsQuorumSlice]
  dsimp only
  split
  · simp only [true_iff]
    exact .inl ‹_›
  split
  · simp only [Bool.false_eq_true, false_iff, not_or, not_and]
    omega
  rw [QBitSet.mAllSuccessors_mk]
  split
  · simp only [Bool.false_eq_true, false_iff, not_or, not_and]
    omega
  · rw [containsInnerSlices_eq bs innerSets _ _ (by omega) (by omega) (by omega), decide_eq_true_iff]
    omega

/-- A node set that holds a slice of a quorum set still holds one with more nodes. -/
theorem containsQuorumSlice_mono {bs bs' : Finset N} (sub : bs ⊆ bs') :
    ∀ qbs : QBitSet N, containsQuorumSlice bs qbs = true → containsQuorumSlice bs' qbs = true := by
  refine QBitSet.induction fun threshold nodes innerSets inner => ?_
  have more : ∀ s : Finset N, (bs ∩ s).card ≤ (bs' ∩ s).card := fun s =>
    Finset.card_le_card (Finset.inter_subset_inter_right sub)
  have moreInner : innerSets.countP (containsQuorumSlice bs ·) ≤
      innerSets.countP (containsQuorumSlice bs' ·) :=
    List.countP_mono_left fun qbs member satisfied => inner qbs member satisfied
  have moreNodes := more nodes
  have moreSuccessors := more (QBitSet.getSuccessors nodes innerSets)
  rw [containsQuorumSlice_mk_eq_true_iff, containsQuorumSlice_mk_eq_true_iff]
  omega

/-- Two node sets that agree on the nodes a quorum set depends on agree on a slice of it. -/
theorem containsInnerSlices_congr {bs bs' : Finset N} : ∀ {innerSets : List (QBitSet N)},
    (∀ inner ∈ innerSets, containsQuorumSlice bs inner = containsQuorumSlice bs' inner) →
    ∀ innerThreshold innerFailLimit, containsInnerSlices bs innerSets innerThreshold innerFailLimit =
      containsInnerSlices bs' innerSets innerThreshold innerFailLimit
  | [], _, _, _ => rfl
  | inner :: rest, same, innerThreshold, innerFailLimit => by
      have later : ∀ innerThreshold innerFailLimit,
          containsInnerSlices bs rest innerThreshold innerFailLimit =
            containsInnerSlices bs' rest innerThreshold innerFailLimit :=
        containsInnerSlices_congr fun qbs member => same qbs (List.mem_cons_of_mem inner member)
      rw [containsInnerSlices, containsInnerSlices, same inner List.mem_cons_self, later, later]

/-- `containsQuorumSlice` reads a node set only on the nodes the quorum set depends on. -/
theorem containsQuorumSlice_congr : ∀ (qbs : QBitSet N) {bs bs' : Finset N},
    bs ∩ qbs.mAllSuccessors = bs' ∩ qbs.mAllSuccessors →
      containsQuorumSlice bs qbs = containsQuorumSlice bs' qbs := by
  refine QBitSet.induction fun threshold nodes innerSets inner => ?_
  intro bs bs' same
  rw [QBitSet.mAllSuccessors_mk] at same
  -- agreement on the successors is agreement on every part of them
  have restrict : ∀ {part : Finset N}, part ⊆ QBitSet.getSuccessors nodes innerSets →
      bs ∩ part = bs' ∩ part := fun {part} sub => by
    have narrowed := congrArg (· ∩ part) same
    simpa only [Finset.inter_assoc, Finset.inter_eq_right.mpr sub] using narrowed
  have onInner : ∀ qbs ∈ innerSets, containsQuorumSlice bs qbs = containsQuorumSlice bs' qbs :=
    fun qbs member => inner qbs member (restrict (QBitSet.mAllSuccessors_subset_getSuccessors nodes member))
  rw [containsQuorumSlice, containsQuorumSlice]
  dsimp only
  rw [QBitSet.mAllSuccessors_mk, restrict (QBitSet.subset_getSuccessors nodes innerSets), same,
    containsInnerSlices_congr onInner]

/-- A `QBitSet` whose thresholds are positive and whose entries share no node, at every depth:
what a sane quorum set converts to. -/
inductive Separated : QBitSet N → Prop
  | mk {threshold : Nat} {nodes : Finset N} {innerSets : List (QBitSet N)}
      (positive : 1 ≤ threshold)
      (apart : ∀ inner ∈ innerSets, Disjoint nodes inner.mAllSuccessors)
      (pairwise : innerSets.Pairwise fun inner inner' =>
        Disjoint inner.mAllSuccessors inner'.mAllSuccessors)
      (separated : ∀ inner ∈ innerSets, Separated inner) :
      Separated ⟨threshold, nodes, innerSets⟩

/-- A separated quorum set is only satisfied by a node set that holds one of its nodes. -/
theorem Separated.needsNode {qbs : QBitSet N} (separated : Separated qbs) (bs : Finset N) :
    containsQuorumSlice bs qbs = true → (bs ∩ qbs.mAllSuccessors).Nonempty := by
  induction separated with
  | @mk threshold nodes innerSets positive apart pairwise _ needsNode =>
    intro satisfied
    rw [containsQuorumSlice_eq_of_covered bs
      (QBitSet.card_getSuccessors_ge bs _ _ apart pairwise needsNode), decide_eq_true_iff] at satisfied
    rw [QBitSet.mAllSuccessors_mk]
    by_cases direct : 1 ≤ (bs ∩ nodes).card
    · -- one of its own nodes
      obtain ⟨node, member⟩ := Finset.card_pos.mp direct
      exact ⟨node, Finset.inter_subset_inter_left (QBitSet.subset_getSuccessors nodes innerSets) member⟩
    · -- a node of a satisfied inner set
      have some : 0 < innerSets.countP (containsQuorumSlice bs ·) := by omega
      obtain ⟨inner, member, innerSatisfied⟩ := List.countP_pos_iff.mp some
      obtain ⟨node, found⟩ := needsNode inner member innerSatisfied
      exact ⟨node, Finset.inter_subset_inter_left
        (QBitSet.mAllSuccessors_subset_getSuccessors nodes member) found⟩

/-- On a separated quorum set `containsQuorumSlice` decides whether the satisfied entries reach
the threshold. -/
theorem Separated.containsQuorumSlice_eq {threshold : Nat} {nodes : Finset N}
    {innerSets : List (QBitSet N)} (separated : Separated ⟨threshold, nodes, innerSets⟩)
    (bs : Finset N) :
    containsQuorumSlice bs ⟨threshold, nodes, innerSets⟩ =
      decide (threshold ≤ (bs ∩ nodes).card + innerSets.countP (containsQuorumSlice bs ·)) := by
  cases separated with
  | mk positive apart pairwise separated =>
    exact containsQuorumSlice_eq_of_covered bs (QBitSet.card_getSuccessors_ge bs _ _ apart pairwise
      fun inner member => (separated inner member).needsNode bs)

/-! ## Converting a quorum set -/

section Convert

variable (mPubKeyBitNums : Finset N)

theorem convertInnerSets_eq : ∀ innerSets : List (SCPQuorumSet N),
    convertInnerSets mPubKeyBitNums innerSets = innerSets.map (convertSCPQuorumSet mPubKeyBitNums)
  | [] => rfl
  | inner :: rest => by rw [convertInnerSets, convertInnerSets_eq rest, List.map_cons]

/-- The loop of `getSuccessors` over converted inner sets collects their numbered nodes. -/
theorem getSuccessors_convertInnerSets : ∀ (out : Finset N) (innerSets : List (SCPQuorumSet N)),
    (∀ inner ∈ innerSets, (convertSCPQuorumSet mPubKeyBitNums inner).mAllSuccessors =
      ((allNodes inner).filter (· ∈ mPubKeyBitNums)).toFinset) →
    QBitSet.getSuccessors out (convertInnerSets mPubKeyBitNums innerSets) =
      out ∪ ((innerAllNodes innerSets).filter (· ∈ mPubKeyBitNums)).toFinset
  | out, [], _ => by simp [convertInnerSets, QBitSet.getSuccessors, innerAllNodes]
  | out, inner :: rest, collected => by
    rw [convertInnerSets, QBitSet.getSuccessors, getSuccessors_convertInnerSets _ rest
      fun later member => collected later (List.mem_cons_of_mem inner member),
      collected inner List.mem_cons_self, innerAllNodes, List.filter_append, List.toFinset_append,
      Finset.union_assoc]

/-- The nodes a converted quorum set depends on are its nodes that have quorum sets. -/
theorem mAllSuccessors_convertSCPQuorumSet : ∀ qSet : SCPQuorumSet N,
    (convertSCPQuorumSet mPubKeyBitNums qSet).mAllSuccessors =
      ((allNodes qSet).filter (· ∈ mPubKeyBitNums)).toFinset := by
  refine SCPQuorumSet.induction fun threshold validators innerSets inner => ?_
  rw [convertSCPQuorumSet, QBitSet.mAllSuccessors_mk,
    getSuccessors_convertInnerSets mPubKeyBitNums _ innerSets inner, allNodes, List.filter_append,
    List.toFinset_append]

/-- A sane quorum set converts to a separated one: thresholds are positive, and the nodes of
its entries, distinct in the quorum set, stay apart once numbered. -/
theorem separated_convertSCPQuorumSet : ∀ qSet : SCPQuorumSet N, Sane qSet →
    (allNodes qSet).Nodup → Separated (convertSCPQuorumSet mPubKeyBitNums qSet) := by
  refine SCPQuorumSet.induction fun threshold validators innerSets inner sane distinct => ?_
  cases sane with
  | mk positive atMost small innerSane =>
    rw [allNodes, List.nodup_append, innerAllNodes_eq, List.nodup_flatMap] at distinct
    obtain ⟨-, ⟨innerDistinct, innerApart⟩, apart⟩ := distinct
    rw [convertSCPQuorumSet, convertInnerSets_eq]
    refine .mk positive (fun converted member => ?_) ?_ (fun converted member => ?_)
    · -- the validators share no node with an inner set
      obtain ⟨qSet, inSets, rfl⟩ := List.mem_map.mp member
      rw [mAllSuccessors_convertSCPQuorumSet, Finset.disjoint_left]
      intro node validator nested
      simp only [List.mem_toFinset, List.mem_filter] at validator nested
      exact apart node validator.1 node (List.mem_flatMap.mpr ⟨qSet, inSets, nested.1⟩) rfl
    · -- nor do two inner sets
      rw [List.pairwise_map]
      refine innerApart.imp fun {first second} apartNodes => ?_
      rw [mAllSuccessors_convertSCPQuorumSet, mAllSuccessors_convertSCPQuorumSet,
        Finset.disjoint_left]
      intro node inFirst inSecond
      simp only [List.mem_toFinset, List.mem_filter] at inFirst inSecond
      exact apartNodes inFirst.1 inSecond.1
    · obtain ⟨qSet, inSets, rfl⟩ := List.mem_map.mp member
      exact inner qSet inSets (innerSane qSet inSets) (innerDistinct qSet inSets)

/-- Among numbered nodes, the converted validators a node set holds are as many as the
validators it holds. -/
theorem card_inter_numbered {nodeSet validators : List N}
    (numbered : ∀ node ∈ nodeSet, node ∈ mPubKeyBitNums) (distinct : validators.Nodup) :
    (nodeSet.toFinset ∩ (validators.filter (· ∈ mPubKeyBitNums)).toFinset).card =
      validators.countP fun validator => decide (validator ∈ nodeSet) := by
  have held : nodeSet.toFinset ∩ (validators.filter (· ∈ mPubKeyBitNums)).toFinset =
      (validators.filter fun validator => decide (validator ∈ nodeSet)).toFinset := by
    ext node
    simp only [Finset.mem_inter, List.mem_toFinset, List.mem_filter, decide_eq_true_eq]
    constructor
    · intro found
      exact ⟨found.2.1, found.1⟩
    · intro found
      exact ⟨found.2, found.1, numbered node found.2⟩
  rw [held, List.toFinset_card_of_nodup (distinct.filter _), List.countP_eq_length_filter]

end Convert

/-- On a sane quorum set whose nodes are distinct, `containsQuorumSlice` of the conversion
holds for a set of numbered nodes exactly when `isQuorumSliceInternal` holds for it. -/
theorem containsQuorumSlice_convert (mPubKeyBitNums : Finset N) {nodeSet : List N}
    (numbered : ∀ node ∈ nodeSet, node ∈ mPubKeyBitNums) :
    ∀ qSet : SCPQuorumSet N, Sane qSet → (allNodes qSet).Nodup →
      containsQuorumSlice nodeSet.toFinset (convertSCPQuorumSet mPubKeyBitNums qSet) =
        isQuorumSliceInternal qSet nodeSet := by
  refine SCPQuorumSet.induction fun threshold validators innerSets inner sane distinct => ?_
  have separated := separated_convertSCPQuorumSet mPubKeyBitNums _ sane distinct
  cases sane with
  | mk positive atMost small innerSane =>
    rw [allNodes, List.nodup_append, innerAllNodes_eq, List.nodup_flatMap] at distinct
    obtain ⟨validatorsDistinct, ⟨innerDistinct, -⟩, -⟩ := distinct
    -- each inner set is decided alike, by induction
    have innerAgree : (innerSets.map (convertSCPQuorumSet mPubKeyBitNums)).countP
        (containsQuorumSlice nodeSet.toFinset ·) = innerSets.countP (isQuorumSliceInternal · nodeSet) := by
      rw [List.countP_map]
      refine List.countP_congr fun qSet member => ?_
      rw [Function.comp_apply, inner qSet member (innerSane qSet member) (innerDistinct qSet member)]
    have steps : uint32Steps threshold = threshold := by
      unfold uint32Steps
      split_ifs <;> omega
    rw [convertSCPQuorumSet, convertInnerSets_eq] at separated ⊢
    rw [separated.containsQuorumSlice_eq, card_inter_numbered mPubKeyBitNums numbered validatorsDistinct,
      innerAgree, isQuorumSliceInternal_mk, steps]

/-- For every quorum set `isQuorumSetSane` accepts and every set of nodes that have quorum sets,
the checker's `containsQuorumSlice` of the converted quorum set answers as
`LocalNode::isQuorumSlice`: none of its shortcuts changes the answer. -/
theorem containsQuorumSlice_eq_isQuorumSlice {qSet : SCPQuorumSet N} {extraChecks : Bool}
    (sane : isQuorumSetSane qSet extraChecks = .ok ()) (mPubKeyBitNums : Finset N)
    {nodeSet : List N} (numbered : ∀ node ∈ nodeSet, node ∈ mPubKeyBitNums) :
    containsQuorumSlice nodeSet.toFinset (convertSCPQuorumSet mPubKeyBitNums qSet) =
      isQuorumSlice qSet nodeSet :=
  containsQuorumSlice_convert mPubKeyBitNums numbered qSet (Sane.of_isQuorumSetSane sane)
    (isQuorumSetSane_iff.1 sane).2.1

/-- Two of three entries, one of them an inner set of two, where validator `1` has no quorum
set: the nodes `0` and `2` are a slice for both. -/
theorem containsQuorumSlice_eq_isQuorumSlice_nested :
    isQuorumSetSane (⟨2, [0, 1], [⟨1, [2, 3], []⟩]⟩ : SCPQuorumSet Nat) false = .ok () ∧
      (∀ node ∈ [0, 2], node ∈ ({0, 2, 3} : Finset Nat)) ∧
      containsQuorumSlice [0, 2].toFinset (convertSCPQuorumSet {0, 2, 3} ⟨2, [0, 1], [⟨1, [2, 3], []⟩]⟩) =
        isQuorumSlice (⟨2, [0, 1], [⟨1, [2, 3], []⟩]⟩ : SCPQuorumSet Nat) [0, 2] := by
  have sane : isQuorumSetSane (⟨2, [0, 1], [⟨1, [2, 3], []⟩]⟩ : SCPQuorumSet Nat) false = .ok () := by
    rfl
  have numbered : ∀ node ∈ [0, 2], node ∈ ({0, 2, 3} : Finset Nat) := by decide
  exact ⟨sane, numbered, containsQuorumSlice_eq_isQuorumSlice sane {0, 2, 3} numbered⟩

/-- Without sanity the union test is not exact: two inner sets on the one node `0` are both
satisfied by it, but it is counted once, and the checker rejects the slice `LocalNode`
accepts. -/
example : containsQuorumSlice ({0} : Finset Nat)
      (convertSCPQuorumSet {0} ⟨2, [], [⟨1, [0], []⟩, ⟨1, [0], []⟩]⟩) = false ∧
    isQuorumSlice (⟨2, [], [⟨1, [0], []⟩, ⟨1, [0], []⟩]⟩ : SCPQuorumSet Nat) [0] = true := by
  decide

end StellarCore.Herder
