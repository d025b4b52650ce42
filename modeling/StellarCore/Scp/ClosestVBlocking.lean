import StellarCore.Scp.QuorumSetSanity
import StellarCore.Lib.LeastSum

/-!
# The closest v-blocking completion

`LocalNode::findClosestVBlocking` tells how far the good nodes `nodes` are from losing a
quorum set: it returns good nodes that, together with the nodes of the quorum set outside
`nodes`, block it. On a sane quorum set the answer holds no more of the quorum set's nodes than
any other such completion, and it is empty exactly when the failed nodes block the quorum set
already.

Blocking a level means blocking `leftTillBlock` of its entries. An entry that the failed nodes
do not block costs what its own answer holds: one node for a validator and, by induction, the
least completion of an inner set. The entries hold disjoint nodes, so a completion pays for
each entry it blocks. `findClosestVBlocking` takes the cheapest entries still needed,
validators first and then the inner sets by size, and by `LeastSum` no choice of as many
entries costs less. `greedyCompletion` is what it computes on a level from the answers of the
inner sets.
-/

set_option autoImplicit false

namespace StellarCore.Scp

open LeastSum

variable {N : Type} [LinearOrder N]

/-! ## What a level computes -/

theorem sizeDecrement_eq {left : Nat} (positive : 0 < left)
    (small : left < 18446744073709551616) : sizeDecrement left = left - 1 := by
  unfold sizeDecrement
  omega

omit [LinearOrder N] in
/-- The countdown of `closestLoop` from a positive `size_t`: it returns early exactly when the
blocked entries reach `left`, and otherwise keeps what the other entries need, in order. -/
theorem closestLoop_eq {α β : Type} (blocked : α → Bool) (need : α → β) :
    ∀ (entries : List α) {left : Nat}, 0 < left → left < 18446744073709551616 →
      closestLoop blocked need left entries =
        if left ≤ entries.countP blocked then none
        else some (left - entries.countP blocked, (entries.filter (!blocked ·)).map need)
  | [], left, positive, _ => by
    rw [closestLoop, List.countP_nil, if_neg (by omega)]
    rfl
  | entry :: rest, left, positive, small => by
    rw [closestLoop]
    cases hit : blocked entry with
    | true =>
      rw [if_pos rfl, sizeDecrement_eq positive small, List.countP_cons_of_pos hit,
        List.filter_cons_of_neg (by simp [hit])]
      by_cases last : left - 1 = 0
      · rw [if_pos last, if_pos (by omega)]
      · rw [if_neg last, closestLoop_eq blocked need rest (by omega) (by omega)]
        by_cases enough : left - 1 ≤ rest.countP blocked
        · rw [if_pos enough, if_pos (by omega)]
        · rw [if_neg enough, if_neg (by omega), Nat.sub_sub, Nat.add_comm 1]
    | false =>
      rw [if_neg (by simp), closestLoop_eq blocked need rest positive small,
        List.countP_cons_of_neg (by simp [hit]), List.filter_cons_of_pos (by simp [hit])]
      by_cases enough : left ≤ rest.countP blocked
      · rw [if_pos enough, if_pos enough]
        rfl
      · rw [if_neg enough, if_neg enough]
        rfl

theorem innerClosestVBlocking_eq (innerSets : List (SCPQuorumSet N)) (nodes : List N)
    (excluded : Option N) :
    innerClosestVBlocking innerSets nodes excluded =
      innerSets.map (findClosestVBlocking · nodes excluded) := by
  induction innerSets with
  | nil => rfl
  | cons inner rest ih => rw [innerClosestVBlocking, ih, List.map_cons]

/-- The answers that are not empty, by increasing size: `resInternals`. -/
def bySize (answers : List (List N)) : List (List N) :=
  (answers.filter (!·.isEmpty)).insertionSort fun v₁ v₂ => v₁.length ≤ v₂.length

/-- How many entries of a level are left to block once the failed nodes have blocked theirs:
`leftTillBlock` after the two loops. -/
def stillNeeded (nodes : List N) (threshold : Nat) (validators : List N)
    (answers : List (List N)) : Nat :=
  1 + validators.length + answers.length - threshold -
    (validators.countP (· ∉ nodes) + answers.countP List.isEmpty)

/-- What `findClosestVBlocking` returns on a level of threshold `threshold` from its validators
and the answers of its inner sets, when no validator is excluded and `leftTillBlock` does not
wrap: the good validators and then the smallest answers, as many as are still needed. -/
def greedyCompletion (nodes : List N) (threshold : Nat) (validators : List N)
    (answers : List (List N)) : List N :=
  let left := stillNeeded nodes threshold validators answers
  (validators.filter (· ∈ nodes)).take left ++
    ((bySize answers).take (left - (validators.filter (· ∈ nodes)).length)).flatten

theorem findClosestVBlocking_mk {threshold : Nat} {validators : List N}
    {innerSets : List (SCPQuorumSet N)} (sane : Sane ⟨threshold, validators, innerSets⟩)
    (nodes : List N) :
    findClosestVBlocking ⟨threshold, validators, innerSets⟩ nodes none =
      greedyCompletion nodes threshold validators
        (innerSets.map (findClosestVBlocking · nodes none)) := by
  obtain ⟨positive, atMost, small, -⟩ := sane
  have start : (1 + validators.length + innerSets.length + 18446744073709551616 - threshold) %
      18446744073709551616 = 1 + validators.length + innerSets.length - threshold := by
    omega
  have unexcluded : validators.filter (fun validator => none != some validator) = validators :=
    List.filter_eq_self.mpr fun _ _ => rfl
  rw [findClosestVBlocking, innerClosestVBlocking_eq]
  simp only [start, unexcluded]
  rw [closestLoop_eq _ _ validators (by omega) (by omega)]
  unfold greedyCompletion stillNeeded
  rw [List.length_map]
  -- the early returns leave nothing to take
  by_cases first : 1 + validators.length + innerSets.length - threshold ≤
      validators.countP fun validator => decide (validator ∉ nodes)
  · rw [if_pos first, Nat.sub_eq_zero_of_le (by omega)]
    simp
  · rw [if_neg first]
    dsimp only
    rw [closestLoop_eq _ _ _ (by omega) (by omega)]
    by_cases second : 1 + validators.length + innerSets.length - threshold -
        validators.countP (fun validator => decide (validator ∉ nodes)) ≤
      (innerSets.map (findClosestVBlocking · nodes none)).countP List.isEmpty
    · rw [if_pos second, Nat.sub_eq_zero_of_le (by omega)]
      simp
    · have good : (fun validator => !decide (validator ∉ nodes)) = (· ∈ nodes) := by
        funext validator
        simp
      rw [if_neg second]
      simp only [List.map_id, good, List.length_take]
      unfold bySize
      -- `res.resize(leftTillBlock)` and then `leftTillBlock -= res.size()`
      congr 1
      · rw [Nat.sub_sub]
      · congr 2
        omega

/-! ## The answers of the inner sets, by size -/

omit [LinearOrder N] in
theorem bySize_perm (answers : List (List N)) :
    (bySize answers).Perm (answers.filter (!·.isEmpty)) :=
  List.perm_insertionSort _ _

omit [LinearOrder N] in
theorem pairwise_length_bySize (answers : List (List N)) :
    ((bySize answers).map List.length).Pairwise (· ≤ ·) := by
  have : Std.Total fun v₁ v₂ : List N => v₁.length ≤ v₂.length := ⟨fun _ _ => le_total _ _⟩
  have : IsTrans (List N) fun v₁ v₂ => v₁.length ≤ v₂.length := ⟨fun _ _ _ => le_trans⟩
  exact List.pairwise_map.mpr (List.pairwise_insertionSort _ _)

omit [LinearOrder N] in
theorem mem_bySize {answers : List (List N)} {answer : List N} :
    answer ∈ bySize answers ↔ answer ∈ answers ∧ answer ≠ [] := by
  rw [(bySize_perm answers).mem_iff, List.mem_filter, Bool.not_eq_true', List.isEmpty_eq_false_iff]

omit [LinearOrder N] in
theorem one_le_of_mem_bySize {answers : List (List N)} {length : Nat}
    (member : length ∈ (bySize answers).map List.length) : 1 ≤ length := by
  obtain ⟨answer, inBySize, rfl⟩ := List.mem_map.mp member
  exact List.length_pos_iff.mpr (mem_bySize.1 inBySize).2

omit [LinearOrder N] in
theorem length_bySize_add (answers : List (List N)) :
    (bySize answers).length + answers.countP List.isEmpty = answers.length := by
  have split := List.length_eq_countP_add_countP List.isEmpty (l := answers)
  have nonempty : answers.countP (fun answer => decide ¬answer.isEmpty = true) =
      answers.countP (!·.isEmpty) :=
    List.countP_congr fun answer _ => by simp
  rw [(bySize_perm answers).length_eq, ← List.countP_eq_length_filter]
  omega

theorem length_filter_mem_add (nodes validators : List N) :
    (validators.filter (· ∈ nodes)).length + validators.countP (· ∉ nodes) = validators.length := by
  have split := List.length_eq_countP_add_countP (· ∈ nodes) (l := validators)
  have outside : validators.countP (fun validator => decide ¬decide (validator ∈ nodes) = true) =
      validators.countP (· ∉ nodes) :=
    List.countP_congr fun validator _ => by simp
  rw [← List.countP_eq_length_filter]
  omega

/-- The length of `greedyCompletion`: the good validators taken, and the sizes of the smallest
answers taken. -/
theorem length_greedyCompletion (nodes : List N) (threshold : Nat) (validators : List N)
    (answers : List (List N)) :
    (greedyCompletion nodes threshold validators answers).length =
      min (stillNeeded nodes threshold validators answers) (validators.filter (· ∈ nodes)).length +
        (((bySize answers).map List.length).take
          (stillNeeded nodes threshold validators answers -
            (validators.filter (· ∈ nodes)).length)).sum := by
  rw [greedyCompletion, List.length_append, List.length_take, List.length_flatten, List.map_take]

/-! ## Counting the entries of a level -/

omit [LinearOrder N] in
theorem allNodes_mk (threshold : Nat) (validators : List N) (innerSets : List (SCPQuorumSet N)) :
    allNodes ⟨threshold, validators, innerSets⟩ = validators ++ innerAllNodes innerSets := by
  rw [allNodes]

omit [LinearOrder N] in
theorem allNodes_sublist_innerAllNodes {qSet : SCPQuorumSet N} :
    ∀ {innerSets : List (SCPQuorumSet N)}, qSet ∈ innerSets →
      (allNodes qSet).Sublist (innerAllNodes innerSets)
  | inner :: rest, member => by
    rw [innerAllNodes]
    rcases List.mem_cons.mp member with rfl | later
    · exact List.sublist_append_left _ _
    · exact (allNodes_sublist_innerAllNodes later).trans (List.sublist_append_right _ _)

/-- On a sane level, a node set blocks the quorum set exactly when it blocks `leftTillBlock` of
its entries. -/
theorem isVBlockingInternal_sane_iff {threshold : Nat} {validators : List N}
    {innerSets : List (SCPQuorumSet N)} (sane : Sane ⟨threshold, validators, innerSets⟩)
    (nodeSet : List N) :
    isVBlockingInternal ⟨threshold, validators, innerSets⟩ nodeSet = true ↔
      1 + validators.length + innerSets.length - threshold ≤
        validators.countP (· ∈ nodeSet) + innerSets.countP (isVBlockingInternal · nodeSet) := by
  have leftTill := leftTillBlock_eq sane
  obtain ⟨positive, atMost, -, -⟩ := sane
  rw [isVBlockingInternal_mk, leftTill, Bool.and_eq_true, decide_eq_true_iff, decide_eq_true_iff]
  omega

/-- Over inner sets with disjoint nodes, what `others` holds of the nodes of some of them is no
more than what it holds of the nodes of all. -/
theorem sum_countP_allNodes_le (others : List N) (p : SCPQuorumSet N → Bool) :
    ∀ {innerSets : List (SCPQuorumSet N)}, (innerAllNodes innerSets).Nodup →
      ((innerSets.filter p).map fun qSet => others.countP (· ∈ allNodes qSet)).sum ≤
        others.countP (· ∈ innerAllNodes innerSets)
  | [], _ => by simp
  | qSet :: rest, nodup => by
    rw [innerAllNodes] at nodup ⊢
    obtain ⟨-, nodupRest, disjoint⟩ := List.nodup_append.mp nodup
    have more := sum_countP_allNodes_le others p nodupRest
    rw [countP_mem_append (fun a member found => disjoint a member a found rfl) others,
      List.filter_cons]
    split
    · rw [List.map_cons, List.sum_cons]
      omega
    · omega

/-- The answers of inner sets with disjoint nodes, each inside its inner set, are distinct when
they are not empty. -/
theorem nodup_filter_answers {answer : SCPQuorumSet N → List N} :
    ∀ {innerSets : List (SCPQuorumSet N)}, (innerAllNodes innerSets).Nodup →
      (∀ qSet ∈ innerSets, answer qSet ⊆ allNodes qSet) →
      ((innerSets.map answer).filter (!·.isEmpty)).Nodup
  | [], _, _ => List.nodup_nil
  | qSet :: rest, nodup, inside => by
    rw [innerAllNodes] at nodup
    obtain ⟨-, nodupRest, disjoint⟩ := List.nodup_append.mp nodup
    have distinct := nodup_filter_answers nodupRest fun q member =>
      inside q (List.mem_cons_of_mem _ member)
    rw [List.map_cons, List.filter_cons]
    split
    · rename_i nonempty
      refine List.nodup_cons.mpr ⟨fun found => ?_, distinct⟩
      -- the answer of `qSet` holds a node of `qSet`, which no other inner set holds
      obtain ⟨q, member, same⟩ := List.mem_map.mp (List.mem_of_mem_filter found)
      obtain ⟨a, inAnswer⟩ := List.exists_mem_of_ne_nil (answer qSet)
        (by simpa using nonempty)
      exact disjoint a (inside qSet List.mem_cons_self inAnswer) a
        (mem_innerAllNodes member (inside q (List.mem_cons_of_mem _ member) (same ▸ inAnswer)))
        rfl
    · exact distinct

/-! ## The least completion -/

/-- What an answer `closest` for the good nodes `nodes` promises of a quorum set, with
`failed` the nodes of the quorum set outside `nodes`: good nodes of the quorum set that block
it with the failed ones, none when the failed nodes block it already, and no more than any
other good nodes that block it with the failed ones hold of its nodes. -/
structure ClosestCompletion (nodes failed : List N) (qSet : SCPQuorumSet N) (closest : List N) :
    Prop where
  good : closest ⊆ nodes
  inside : closest ⊆ allNodes qSet
  nil_iff : closest = [] ↔ isVBlockingInternal qSet failed = true
  blocks : isVBlockingInternal qSet (failed ++ closest) = true
  least : ∀ others : List N, others ⊆ nodes →
    isVBlockingInternal qSet (failed ++ others) = true →
      closest.length ≤ others.countP (· ∈ allNodes qSet)

section Level

variable {nodes failed : List N} {threshold : Nat} {validators : List N}
  {innerSets : List (SCPQuorumSet N)} {answer : SCPQuorumSet N → List N}

omit [LinearOrder N] in
theorem mem_failed_iff
    (failedOn : ∀ n ∈ allNodes ⟨threshold, validators, innerSets⟩, n ∈ failed ↔ n ∉ nodes)
    {v : N} (member : v ∈ validators) : v ∈ failed ↔ v ∉ nodes :=
  failedOn v (by rw [allNodes_mk]; exact List.mem_append_left _ member)

theorem countP_failed_innerSets
    (answers : ∀ qSet ∈ innerSets, ClosestCompletion nodes failed qSet (answer qSet)) :
    innerSets.countP (isVBlockingInternal · failed) =
      (innerSets.map answer).countP List.isEmpty := by
  rw [List.countP_map]
  exact List.countP_congr fun qSet member => by
    simp [List.isEmpty_iff, (answers qSet member).nil_iff]

/-- The validators that `failed ++ others` blocks: the failed ones and those `others` holds. -/
theorem countP_blocked_validators
    (failedOn : ∀ n ∈ allNodes ⟨threshold, validators, innerSets⟩, n ∈ failed ↔ n ∉ nodes)
    {others : List N} (good : others ⊆ nodes) :
    validators.countP (· ∈ failed ++ others) =
      validators.countP (· ∉ nodes) + validators.countP (· ∈ others) := by
  rw [← countP_or_of_disjoint validators fun v member outside => by
    simpa using fun inOthers => absurd (good inOthers) (by simpa using outside)]
  exact List.countP_congr fun v member => by simp [mem_failed_iff failedOn member]

/-- The inner sets that `failed ++ others` blocks: those the failed nodes block, whose answers
are empty, and those with an answer that `failed ++ others` blocks. -/
theorem countP_blocked_innerSets
    (answers : ∀ qSet ∈ innerSets, ClosestCompletion nodes failed qSet (answer qSet))
    (others : List N) :
    innerSets.countP (isVBlockingInternal · (failed ++ others)) =
      (innerSets.map answer).countP List.isEmpty +
        innerSets.countP fun qSet =>
          !(answer qSet).isEmpty && isVBlockingInternal qSet (failed ++ others) := by
  rw [← countP_failed_innerSets answers, ← countP_or_of_disjoint innerSets fun qSet member blocked => by
    simp [(answers qSet member).nil_iff.mpr blocked]]
  refine List.countP_congr fun qSet member => ?_
  -- an inner set with an empty answer is blocked by the failed nodes alone
  by_cases empty : answer qSet = []
  · have blocked := (answers qSet member).nil_iff.mp empty
    simp [blocked, isVBlockingInternal_mono (List.subset_append_left _ _) qSet blocked]
  · have failedAlone : isVBlockingInternal qSet failed = false := by
      simpa using mt (answers qSet member).nil_iff.mpr empty
    simp [empty, failedAlone]

theorem isVBlockingInternal_failed_iff (sane : Sane ⟨threshold, validators, innerSets⟩)
    (failedOn : ∀ n ∈ allNodes ⟨threshold, validators, innerSets⟩, n ∈ failed ↔ n ∉ nodes)
    (answers : ∀ qSet ∈ innerSets, ClosestCompletion nodes failed qSet (answer qSet)) :
    isVBlockingInternal ⟨threshold, validators, innerSets⟩ failed = true ↔
      stillNeeded nodes threshold validators (innerSets.map answer) = 0 := by
  have validatorsFailed : validators.countP (· ∈ failed) = validators.countP (· ∉ nodes) :=
    List.countP_congr fun v member => by simp [mem_failed_iff failedOn member]
  rw [isVBlockingInternal_sane_iff sane, validatorsFailed, countP_failed_innerSets answers,
    stillNeeded, List.length_map]
  omega

/-- Every node `greedyCompletion` takes is a good validator or in the answer of an inner set. -/
theorem mem_greedyCompletion {n : N}
    (member : n ∈ greedyCompletion nodes threshold validators (innerSets.map answer)) :
    (n ∈ validators ∧ n ∈ nodes) ∨ ∃ qSet ∈ innerSets, n ∈ answer qSet := by
  rw [greedyCompletion, List.mem_append] at member
  rcases member with fromValidators | fromInner
  · exact .inl (by simpa using List.mem_of_mem_take fromValidators)
  · obtain ⟨taken, chosen, inTaken⟩ := List.mem_flatten.mp fromInner
    obtain ⟨inAnswers, -⟩ := mem_bySize.1 (List.mem_of_mem_take chosen)
    obtain ⟨qSet, member, rfl⟩ := List.mem_map.mp inAnswers
    exact .inr ⟨qSet, member, inTaken⟩

theorem greedyCompletion_good
    (answers : ∀ qSet ∈ innerSets, ClosestCompletion nodes failed qSet (answer qSet)) :
    greedyCompletion nodes threshold validators (innerSets.map answer) ⊆ nodes := by
  intro n member
  rcases mem_greedyCompletion member with ⟨-, good⟩ | ⟨qSet, inner, inAnswer⟩
  · exact good
  · exact (answers qSet inner).good inAnswer

theorem greedyCompletion_inside
    (answers : ∀ qSet ∈ innerSets, ClosestCompletion nodes failed qSet (answer qSet)) :
    greedyCompletion nodes threshold validators (innerSets.map answer) ⊆
      allNodes ⟨threshold, validators, innerSets⟩ := by
  intro n member
  rw [allNodes_mk]
  rcases mem_greedyCompletion member with ⟨validator, -⟩ | ⟨qSet, inner, inAnswer⟩
  · exact List.mem_append_left _ validator
  · exact List.mem_append_right _ (mem_innerAllNodes inner ((answers qSet inner).inside inAnswer))

/-- `greedyCompletion` takes nothing exactly when the failed nodes block the level: while
entries are still needed, a good validator or an answer that is not empty is left to take. -/
theorem greedyCompletion_eq_nil_iff (sane : Sane ⟨threshold, validators, innerSets⟩)
    (failedOn : ∀ n ∈ allNodes ⟨threshold, validators, innerSets⟩, n ∈ failed ↔ n ∉ nodes)
    (answers : ∀ qSet ∈ innerSets, ClosestCompletion nodes failed qSet (answer qSet)) :
    greedyCompletion nodes threshold validators (innerSets.map answer) = [] ↔
      isVBlockingInternal ⟨threshold, validators, innerSets⟩ failed = true := by
  rw [isVBlockingInternal_failed_iff sane failedOn answers, ← List.length_eq_zero_iff,
    length_greedyCompletion]
  constructor
  · intro nothing
    have counts := length_filter_mem_add nodes validators
    have countsInner := length_bySize_add (innerSets.map answer)
    have taken := List.length_le_sum_of_one_le (((bySize (innerSets.map answer)).map
      List.length).take (stillNeeded nodes threshold validators (innerSets.map answer) -
        (validators.filter (· ∈ nodes)).length)) fun _ member =>
      one_le_of_mem_bySize (List.mem_of_mem_take member)
    rw [List.length_take, List.length_map] at taken
    obtain ⟨positive, atMost, -, -⟩ := sane
    unfold stillNeeded at nothing taken ⊢
    rw [List.length_map] at nothing taken countsInner ⊢
    omega
  · intro zero
    simp [zero]

/-- `greedyCompletion` and the failed nodes block the level: they block `leftTillBlock`
entries, the failed ones, the good validators taken and the inner sets whose answers are
taken. -/
theorem greedyCompletion_blocks (sane : Sane ⟨threshold, validators, innerSets⟩)
    (nodup : (allNodes ⟨threshold, validators, innerSets⟩).Nodup)
    (failedOn : ∀ n ∈ allNodes ⟨threshold, validators, innerSets⟩, n ∈ failed ↔ n ∉ nodes)
    (answers : ∀ qSet ∈ innerSets, ClosestCompletion nodes failed qSet (answer qSet)) :
    isVBlockingInternal ⟨threshold, validators, innerSets⟩
      (failed ++ greedyCompletion nodes threshold validators (innerSets.map answer)) = true := by
  rw [allNodes_mk] at nodup
  obtain ⟨nodupValidators, nodupInner, -⟩ := List.nodup_append.mp nodup
  have counts := length_filter_mem_add nodes validators
  have countsInner := length_bySize_add (innerSets.map answer)
  have bounds : 0 < threshold ∧ threshold ≤ validators.length + innerSets.length := by
    obtain ⟨positive, atMost, -, -⟩ := sane
    exact ⟨positive, atMost⟩
  set left := stillNeeded nodes threshold validators (innerSets.map answer) with leftEq
  set res := validators.filter (· ∈ nodes) with resEq
  set chosen := (bySize (innerSets.map answer)).take (left - res.length) with chosenEq
  have closestEq : greedyCompletion nodes threshold validators (innerSets.map answer) =
      res.take left ++ chosen.flatten := rfl
  -- the good validators taken are blocked
  have validatorsTaken : min left res.length ≤
      validators.countP (· ∈ greedyCompletion nodes threshold validators (innerSets.map answer)) := by
    have resTaken : (res.take left).Sublist validators :=
      (List.take_sublist _ _).trans List.filter_sublist
    rw [← List.length_take, ← countP_mem_of_subset nodupValidators
      (nodupValidators.sublist resTaken) resTaken.subset]
    exact List.countP_mono_left fun v _ taken => by
      simpa [closestEq] using Or.inl (by simpa using taken)
  -- the inner sets whose answers are taken are blocked
  have innerTaken : chosen.length ≤ innerSets.countP fun qSet => !(answer qSet).isEmpty &&
      isVBlockingInternal qSet (failed ++ greedyCompletion nodes threshold validators
        (innerSets.map answer)) := by
    have distinct := nodup_filter_answers nodupInner fun qSet member => (answers qSet member).inside
    have chosenSub : chosen ⊆ (innerSets.map answer).filter (!·.isEmpty) := fun v taken =>
      (bySize_perm _).subset (List.mem_of_mem_take taken)
    have nodupChosen : chosen.Nodup :=
      ((bySize_perm _).nodup_iff.mpr distinct).sublist (List.take_sublist _ _)
    rw [← countP_mem_of_subset distinct nodupChosen chosenSub]
    refine (List.filter_sublist.countP_le).trans ?_
    rw [List.countP_map]
    refine List.countP_mono_left fun qSet member taken => ?_
    have taken : answer qSet ∈ chosen := by simpa using taken
    have nonempty := (mem_bySize.1 (List.mem_of_mem_take taken)).2
    have within : failed ++ answer qSet ⊆ failed ++ greedyCompletion nodes threshold validators
        (innerSets.map answer) := by
      intro n found
      rcases List.mem_append.mp found with inFailed | inAnswer
      · exact List.mem_append_left _ inFailed
      · rw [closestEq]
        exact List.mem_append_right _
          (List.mem_append_right _ (List.mem_flatten.mpr ⟨_, taken, inAnswer⟩))
    simp [nonempty, isVBlockingInternal_mono within qSet (answers qSet member).blocks]
  have good : greedyCompletion nodes threshold validators (innerSets.map answer) ⊆ nodes :=
    greedyCompletion_good answers
  have validatorsCount := countP_blocked_validators failedOn good
  have innerCount := countP_blocked_innerSets answers
    (greedyCompletion nodes threshold validators (innerSets.map answer))
  have chosenLength : chosen.length = min (left - res.length)
      (bySize (innerSets.map answer)).length := List.length_take
  rw [isVBlockingInternal_sane_iff sane]
  unfold stillNeeded at leftEq
  rw [List.length_map] at leftEq countsInner
  omega

/-- No good nodes that block the level with the failed ones hold fewer of its nodes than
`greedyCompletion` takes. They block `leftTillBlock` entries that the failed nodes do not, and
pay one node for a validator and, by induction, the size of its answer for an inner set, the
entries holding disjoint nodes; the cheapest as many entries cost what `greedyCompletion`
takes (`LeastSum`). -/
theorem greedyCompletion_least (sane : Sane ⟨threshold, validators, innerSets⟩)
    (nodup : (allNodes ⟨threshold, validators, innerSets⟩).Nodup)
    (failedOn : ∀ n ∈ allNodes ⟨threshold, validators, innerSets⟩, n ∈ failed ↔ n ∉ nodes)
    (answers : ∀ qSet ∈ innerSets, ClosestCompletion nodes failed qSet (answer qSet))
    {others : List N} (good : others ⊆ nodes)
    (blocked : isVBlockingInternal ⟨threshold, validators, innerSets⟩ (failed ++ others) = true) :
    (greedyCompletion nodes threshold validators (innerSets.map answer)).length ≤
      others.countP (· ∈ allNodes ⟨threshold, validators, innerSets⟩) := by
  have entries := (isVBlockingInternal_sane_iff sane _).mp blocked
  rw [allNodes_mk] at nodup ⊢
  obtain ⟨nodupValidators, nodupInner, disjoint⟩ := List.nodup_append.mp nodup
  have validatorsCount := countP_blocked_validators failedOn good
  have innerCount := countP_blocked_innerSets answers others
  set left := stillNeeded nodes threshold validators (innerSets.map answer) with leftEq
  set res := validators.filter (· ∈ nodes) with resEq
  set paidInner := innerSets.filter fun qSet =>
    !(answer qSet).isEmpty && isVBlockingInternal qSet (failed ++ others) with paidInnerEq
  -- the costs of the entries still to block, cheapest first, and of those `others` blocks
  set costs := List.replicate res.length 1 ++ (bySize (innerSets.map answer)).map List.length
  set paid := List.replicate (validators.countP (· ∈ others)) 1 ++
    paidInner.map fun qSet => (answer qSet).length
  have sorted : costs.Pairwise (· ≤ ·) :=
    List.pairwise_append.mpr ⟨List.pairwise_replicate.mpr (.inr le_rfl),
      pairwise_length_bySize _, fun _ one _ size =>
        (List.eq_of_mem_replicate one) ▸ one_le_of_mem_bySize size⟩
  have keptFew : validators.countP (· ∈ others) ≤ res.length := by
    rw [resEq, ← List.countP_eq_length_filter]
    exact List.countP_mono_left fun v _ inOthers => by simpa using good (by simpa using inOthers)
  have picked : paid.Subperm costs := by
    refine List.Subperm.append ((List.replicate_sublist_replicate 1).mpr keptFew).subperm ?_
    have fromAnswers : (paidInner.map fun qSet => (answer qSet).length).Sublist
        (((innerSets.map answer).filter (!·.isEmpty)).map List.length) := by
      rw [List.filter_map, List.map_map, paidInnerEq]
      refine (List.monotone_filter_right innerSets fun qSet both => ?_).map _
      simp only [Bool.and_eq_true] at both
      simpa using both.1
    exact fromAnswers.subperm.trans ((bySize_perm _).map List.length).symm.subperm
  -- the greedy choice costs the cheapest `left` entries
  have cheapest : (costs.take left).sum =
      (greedyCompletion nodes threshold validators (innerSets.map answer)).length := by
    rw [length_greedyCompletion, List.take_append, List.take_replicate, List.sum_append,
      List.sum_replicate, List.length_replicate, smul_eq_mul, mul_one]
  -- `others` pays for at least `left` entries
  have enough : left ≤ paid.length := by
    rw [List.length_append, List.length_replicate, List.length_map, paidInnerEq,
      ← List.countP_eq_length_filter]
    unfold stillNeeded at leftEq
    rw [List.length_map] at leftEq
    omega
  -- each entry paid for holds that many nodes of `others`
  have paidFor : paid.sum ≤ others.countP (· ∈ validators ++ innerAllNodes innerSets) := by
    rw [countP_mem_append (fun a member found => disjoint a member a found rfl), List.sum_append,
      List.sum_replicate, smul_eq_mul, mul_one]
    refine Nat.add_le_add (countP_mem_le_countP_mem nodupValidators others) ?_
    refine (List.sum_le_sum fun qSet member => ?_).trans (sum_countP_allNodes_le others _ nodupInner)
    obtain ⟨member, both⟩ := List.mem_filter.mp member
    simp only [Bool.and_eq_true] at both
    exact (answers qSet member).least others good both.2
  rw [← cheapest]
  exact (sum_take_le_of_subperm_of_le sorted (fun _ _ => Nat.zero_le _) picked enough).trans paidFor

end Level

/-- `findClosestVBlocking` keeps its promise on every sane quorum set whose nodes are distinct,
by induction on the quorum set. -/
theorem closestCompletion_findClosestVBlocking (nodes failed : List N) :
    ∀ qSet : SCPQuorumSet N, Sane qSet → (allNodes qSet).Nodup →
      (∀ n ∈ allNodes qSet, n ∈ failed ↔ n ∉ nodes) →
        ClosestCompletion nodes failed qSet (findClosestVBlocking qSet nodes none) := by
  refine SCPQuorumSet.induction fun threshold validators innerSets inner sane nodup failedOn => ?_
  have innerSane : ∀ qSet ∈ innerSets, Sane qSet := by
    obtain ⟨-, -, -, innerSane⟩ := sane
    exact innerSane
  have answers : ∀ qSet ∈ innerSets,
      ClosestCompletion nodes failed qSet (findClosestVBlocking qSet nodes none) := by
    intro qSet member
    have within : (allNodes qSet).Sublist (allNodes ⟨threshold, validators, innerSets⟩) := by
      rw [allNodes_mk]
      exact (allNodes_sublist_innerAllNodes member).trans (List.sublist_append_right _ _)
    exact inner qSet member (innerSane qSet member) (nodup.sublist within) fun n found =>
      failedOn n (within.subset found)
  rw [findClosestVBlocking_mk sane]
  exact ⟨greedyCompletion_good answers, greedyCompletion_inside answers,
    greedyCompletion_eq_nil_iff sane failedOn answers,
    greedyCompletion_blocks sane nodup failedOn answers,
    fun _ good blocked => greedyCompletion_least sane nodup failedOn answers good blocked⟩

/-- `findClosestVBlocking` with no node excluded, on a sane quorum set and the good nodes
`nodes`: it returns good nodes that, with the nodes of the quorum set outside `nodes`, block
it; no good nodes that do so are fewer; and it returns nothing exactly when the nodes outside
`nodes` block the quorum set already. -/
theorem findClosestVBlocking_least {qSet : SCPQuorumSet N} {extraChecks : Bool}
    (sane : isQuorumSetSane qSet extraChecks = .ok ()) (nodes : List N) :
    findClosestVBlocking qSet nodes none ⊆ nodes ∧
      isVBlocking qSet ((allNodes qSet).filter (· ∉ nodes) ++
        findClosestVBlocking qSet nodes none) = true ∧
      (∀ others : List N, others ⊆ nodes →
        isVBlocking qSet ((allNodes qSet).filter (· ∉ nodes) ++ others) = true →
          (findClosestVBlocking qSet nodes none).length ≤ others.length) ∧
      (findClosestVBlocking qSet nodes none = [] ↔
        isVBlocking qSet ((allNodes qSet).filter (· ∉ nodes)) = true) := by
  have closest := closestCompletion_findClosestVBlocking nodes
    ((allNodes qSet).filter (· ∉ nodes)) qSet (Sane.of_isQuorumSetSane sane)
    (isQuorumSetSane_iff.1 sane).2.1 fun n member => by simp [member]
  exact ⟨closest.good, closest.blocks,
    fun others good blocked => (closest.least others good blocked).trans List.countP_le_length,
    closest.nil_iff⟩

theorem findClosestVBlocking_least_nested :
    isQuorumSetSane (⟨2, [1, 2], [⟨2, [3, 4, 5], []⟩]⟩ : SCPQuorumSet Nat) false = .ok () ∧
      findClosestVBlocking (⟨2, [1, 2], [⟨2, [3, 4, 5], []⟩]⟩ : SCPQuorumSet Nat) [1, 3, 4, 5]
        none = [1] ∧
      ∀ others : List Nat, others ⊆ [1, 3, 4, 5] →
        isVBlocking (⟨2, [1, 2], [⟨2, [3, 4, 5], []⟩]⟩ : SCPQuorumSet Nat) ([2] ++ others) = true →
          1 ≤ others.length :=
  have least := (findClosestVBlocking_least (show isQuorumSetSane
    (⟨2, [1, 2], [⟨2, [3, 4, 5], []⟩]⟩ : SCPQuorumSet Nat) false = .ok () by rfl) [1, 3, 4, 5]).2.2.1
  ⟨by rfl, by rfl, least⟩

end StellarCore.Scp
