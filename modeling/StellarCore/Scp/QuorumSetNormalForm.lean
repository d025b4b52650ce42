import StellarCore.Scp.QuorumSetSanity
import StellarCore.Lib.LexCompare
import Mathlib.Data.List.Perm.Basic

/-!
# `normalizeQSet` keeps what a quorum set means

Slices and v-blocking sets count the entries of a quorum set (its validators and its inner
sets) that a node set satisfies or blocks, against the threshold and the number of entries.
Both passes of `normalizeQSet` keep the threshold of every level and replace its entries by
entries that mean the same, up to order: `normalizeQSetSimplify` turns an inner set
`{ t: 1, v: { node } }` into the validator `node`, and `{ t: 1, { innerSet } }` into
`innerSet`; `normalizeQuorumSetReorder` sorts. So every node set satisfies and blocks the
normalised set as it did the original, over the same nodes, and no rule of `checkSanity`
that held before fails after.

The output of the first pass has nothing left to simplify, sorting does not change that, and
sorting a sorted quorum set changes nothing, because `qSetCompareInt` is a total order:
`normalizeQSet` is idempotent.
-/

set_option autoImplicit false

namespace StellarCore.Scp

variable {N : Type} [LinearOrder N]

/-! ## Entries -/

/-- The entries of a quorum set: its validators, then its inner sets. -/
def entries (qSet : SCPQuorumSet N) : List (N ⊕ SCPQuorumSet N) :=
  qSet.validators.map .inl ++ qSet.innerSets.map .inr

/-- Whether a node set satisfies an entry. -/
def entrySatisfied (nodeSet : List N) : N ⊕ SCPQuorumSet N → Bool
  | .inl node => decide (node ∈ nodeSet)
  | .inr qSet => isQuorumSliceInternal qSet nodeSet

/-- Whether a node set blocks an entry. -/
def entryBlocked (nodeSet : List N) : N ⊕ SCPQuorumSet N → Bool
  | .inl node => decide (node ∈ nodeSet)
  | .inr qSet => isVBlockingInternal qSet nodeSet

/-- The nodes of an entry. -/
def entryNodes : N ⊕ SCPQuorumSet N → List N
  | .inl node => [node]
  | .inr qSet => allNodes qSet

omit [LinearOrder N] in
theorem length_entries (qSet : SCPQuorumSet N) :
    (entries qSet).length = qSet.validators.length + qSet.innerSets.length := by
  simp [entries]

theorem isQuorumSliceInternal_entries (qSet : SCPQuorumSet N) (nodeSet : List N) :
    isQuorumSliceInternal qSet nodeSet =
      decide (uint32Steps qSet.threshold ≤ (entries qSet).countP (entrySatisfied nodeSet)) := by
  obtain ⟨threshold, validators, innerSets⟩ := qSet
  rw [isQuorumSliceInternal_mk]
  simp [entries, List.countP_append, Function.comp_def, entrySatisfied]

theorem isVBlockingInternal_entries (qSet : SCPQuorumSet N) (nodeSet : List N) :
    isVBlockingInternal qSet nodeSet =
      (decide (qSet.threshold ≠ 0) && decide (max (leftTillBlock qSet) 1 ≤
        (((entries qSet).countP (entryBlocked nodeSet) : Nat) : Int))) := by
  obtain ⟨threshold, validators, innerSets⟩ := qSet
  rw [isVBlockingInternal_mk]
  simp [entries, List.countP_append, Function.comp_def, entryBlocked]

omit [LinearOrder N] in
/-- `leftTillBlock` reads only the threshold and the number of entries. -/
theorem leftTillBlock_congr {qSet qSet' : SCPQuorumSet N} (threshold : qSet'.threshold = qSet.threshold)
    (length : (entries qSet').length = (entries qSet).length) :
    leftTillBlock qSet' = leftTillBlock qSet := by
  rw [length_entries, length_entries] at length
  unfold leftTillBlock
  rw [threshold]
  congr 1
  omega

omit [LinearOrder N] in
theorem innerAllNodes_eq (innerSets : List (SCPQuorumSet N)) :
    innerAllNodes innerSets = innerSets.flatMap allNodes := by
  induction innerSets with
  | nil => rfl
  | cons inner rest ih => rw [innerAllNodes, ih, List.flatMap_cons]

omit [LinearOrder N] in
theorem allNodes_entries (qSet : SCPQuorumSet N) :
    allNodes qSet = (entries qSet).flatMap entryNodes := by
  obtain ⟨threshold, validators, innerSets⟩ := qSet
  simp [allNodes, entries, innerAllNodes_eq, List.flatMap_map, entryNodes]

/-! ## Meaning -/

/-- Two entries that every node set satisfies and blocks alike, with the same nodes. -/
structure SameMeaning (entry entry' : N ⊕ SCPQuorumSet N) : Prop where
  satisfied : ∀ nodeSet, entrySatisfied nodeSet entry' = entrySatisfied nodeSet entry
  blocked : ∀ nodeSet, entryBlocked nodeSet entry' = entryBlocked nodeSet entry
  nodes : (entryNodes entry').Perm (entryNodes entry)

theorem SameMeaning.refl (entry : N ⊕ SCPQuorumSet N) : SameMeaning entry entry :=
  ⟨fun _ => rfl, fun _ => rfl, .refl _⟩

theorem SameMeaning.trans {entry entry' entry'' : N ⊕ SCPQuorumSet N}
    (first : SameMeaning entry entry') (second : SameMeaning entry' entry'') :
    SameMeaning entry entry'' :=
  ⟨fun nodeSet => (second.satisfied nodeSet).trans (first.satisfied nodeSet),
    fun nodeSet => (second.blocked nodeSet).trans (first.blocked nodeSet),
    second.nodes.trans first.nodes⟩

/-- A quorum set means what another does when it has the same threshold and its entries are,
up to order, entries meaning what the other's do. -/
theorem sameMeaning_of_entries {qSet qSet' : SCPQuorumSet N}
    {f : N ⊕ SCPQuorumSet N → N ⊕ SCPQuorumSet N} (threshold : qSet'.threshold = qSet.threshold)
    (perm : (entries qSet').Perm ((entries qSet).map f))
    (same : ∀ entry ∈ entries qSet, SameMeaning entry (f entry)) :
    SameMeaning (.inr qSet) (.inr qSet') := by
  have satisfiedCount : ∀ nodeSet, (entries qSet').countP (entrySatisfied nodeSet) =
      (entries qSet).countP (entrySatisfied nodeSet) := by
    intro nodeSet
    rw [perm.countP_eq, List.countP_map]
    exact List.countP_congr fun entry member => by
      simp [(same entry member).satisfied nodeSet]
  have blockedCount : ∀ nodeSet, (entries qSet').countP (entryBlocked nodeSet) =
      (entries qSet).countP (entryBlocked nodeSet) := by
    intro nodeSet
    rw [perm.countP_eq, List.countP_map]
    exact List.countP_congr fun entry member => by
      simp [(same entry member).blocked nodeSet]
  have leftTill := leftTillBlock_congr threshold (by rw [perm.length_eq, List.length_map])
  refine ⟨fun nodeSet => ?_, fun nodeSet => ?_, ?_⟩
  · simp only [entrySatisfied]
    rw [isQuorumSliceInternal_entries, isQuorumSliceInternal_entries, satisfiedCount, threshold]
  · simp only [entryBlocked]
    rw [isVBlockingInternal_entries, isVBlockingInternal_entries, blockedCount, threshold,
      leftTill]
  · simp only [entryNodes]
    rw [allNodes_entries, allNodes_entries]
    refine (perm.flatMap_right entryNodes).trans ?_
    rw [List.flatMap_map]
    exact List.Perm.flatMap_left _ fun entry member => (same entry member).nodes

/-! ## Simplification -/

/-- Where `normalizeQSetSimplify` puts a simplified inner set: a singleton
`{ t: 1, v: { node } }` becomes the validator `node`, any other stays an inner set. -/
def simplifiedEntry : SCPQuorumSet N → N ⊕ SCPQuorumSet N
  | ⟨1, [node], []⟩ => .inl node
  | qSet => .inr qSet

/-- The last step of `normalizeQSetSimplify`: `{ t: 1, { innerSet } }` becomes `innerSet`. -/
def collapseQSet (threshold : Nat) (validators : List N) (innerSets : List (SCPQuorumSet N)) :
    SCPQuorumSet N :=
  match threshold, validators, innerSets with
  | 1, [], [inner] => inner
  | threshold, validators, innerSets => ⟨threshold, validators, innerSets⟩

theorem simplifiedEntry_meaning (qSet : SCPQuorumSet N) :
    SameMeaning (.inr qSet) (simplifiedEntry qSet) := by
  unfold simplifiedEntry
  split
  · rename_i node
    refine ⟨fun nodeSet => ?_, fun nodeSet => ?_, .refl _⟩
    · by_cases member : node ∈ nodeSet <;>
        simp [entrySatisfied, isQuorumSliceInternal_mk, uint32Steps, member]
    · have leftTill : leftTillBlock (⟨1, [node], []⟩ : SCPQuorumSet N) = 1 := by
        simp [leftTillBlock]
      by_cases member : node ∈ nodeSet <;>
        simp [entryBlocked, isVBlockingInternal_mk, leftTill, member]
  · exact .refl _

theorem collapseQSet_meaning (threshold : Nat) (validators : List N)
    (innerSets : List (SCPQuorumSet N)) :
    SameMeaning (.inr ⟨threshold, validators, innerSets⟩)
      (.inr (collapseQSet threshold validators innerSets)) := by
  unfold collapseQSet
  split
  · rename_i inner
    have leftTill : leftTillBlock (⟨1, [], [inner]⟩ : SCPQuorumSet N) = 1 := by
      simp [leftTillBlock]
    refine ⟨fun nodeSet => ?_, fun nodeSet => ?_, ?_⟩
    · cases satisfied : isQuorumSliceInternal inner nodeSet <;>
        simp [entrySatisfied, isQuorumSliceInternal_mk, uint32Steps, satisfied]
    · cases blocked : isVBlockingInternal inner nodeSet <;>
        simp [entryBlocked, isVBlockingInternal_mk, leftTill, blocked]
    · simp [entryNodes, allNodes, innerAllNodes]
  · exact .refl _

omit [LinearOrder N] in
theorem eq_of_simplifiedEntry_eq_inr {qSet qSet' : SCPQuorumSet N}
    (kept : simplifiedEntry qSet = .inr qSet') : qSet' = qSet := by
  unfold simplifiedEntry at kept
  split at kept
  · cases kept
  · exact (Sum.inr.inj kept).symm

/-- The simplified inner sets, as entries: the validators merged from singletons and the
inner sets that remain. -/
theorem simplifyInnerSets_perm (idToRemove : Option N) :
    ∀ innerSets : List (SCPQuorumSet N),
      ((simplifyInnerSets idToRemove innerSets).1.map Sum.inl ++
          (simplifyInnerSets idToRemove innerSets).2.map Sum.inr : List (N ⊕ SCPQuorumSet N)).Perm
        (innerSets.map fun inner => simplifiedEntry (normalizeQSetSimplify idToRemove inner))
  | [] => .refl _
  | inner :: rest => by
    have ih := simplifyInnerSets_perm idToRemove rest
    rcases rested : simplifyInnerSets idToRemove rest with ⟨merged, remaining⟩
    rw [rested] at ih
    rw [simplifyInnerSets, rested]
    dsimp only at ih ⊢
    -- the simplified inner set either joins the validators or stays an inner set
    split
    · rename_i node singleton
      simp only [List.map_cons, singleton]
      exact ih.cons _
    · rename_i notSingleton
      have entry : simplifiedEntry (normalizeQSetSimplify idToRemove inner) =
          .inr (normalizeQSetSimplify idToRemove inner) := by
        unfold simplifiedEntry
        split
        · rename_i node singleton
          exact absurd singleton (notSingleton node)
        · rfl
      simp only [List.map_cons, entry]
      exact List.perm_middle.trans (ih.cons _)

theorem normalizeQSetSimplify_none {threshold : Nat} {validators merged : List N}
    {innerSets remaining : List (SCPQuorumSet N)}
    (simplified : simplifyInnerSets none innerSets = (merged, remaining)) :
    normalizeQSetSimplify none ⟨threshold, validators, innerSets⟩ =
      collapseQSet threshold (validators ++ merged) remaining := by
  rw [normalizeQSetSimplify, simplified]
  rfl

/-- The entries of a quorum set after its inner sets are simplified, up to order. -/
theorem entries_simplify_perm {threshold : Nat} {validators merged : List N}
    {innerSets remaining : List (SCPQuorumSet N)}
    (simplified : simplifyInnerSets none innerSets = (merged, remaining)) :
    (entries ⟨threshold, validators ++ merged, remaining⟩).Perm
      ((entries ⟨threshold, validators, innerSets⟩).map
        (Sum.elim .inl fun inner => simplifiedEntry (normalizeQSetSimplify none inner))) := by
  have inner := simplifyInnerSets_perm none innerSets
  rw [simplified] at inner
  simp only [entries, List.map_append, List.map_map, List.append_assoc]
  refine List.Perm.append ?_ ?_
  · simp [Function.comp_def]
  · simpa [Function.comp_def] using inner

theorem simplify_meaning : ∀ qSet : SCPQuorumSet N,
    SameMeaning (.inr qSet) (.inr (normalizeQSetSimplify none qSet)) := by
  refine SCPQuorumSet.induction fun threshold validators innerSets inner => ?_
  rcases simplified : simplifyInnerSets none innerSets with ⟨merged, remaining⟩
  rw [normalizeQSetSimplify_none simplified]
  have entriesMeaning : SameMeaning (.inr ⟨threshold, validators, innerSets⟩)
      (.inr ⟨threshold, validators ++ merged, remaining⟩) := by
    refine sameMeaning_of_entries rfl (entries_simplify_perm simplified) fun entry member => ?_
    simp only [entries, List.mem_append, List.mem_map] at member
    -- validators stay, and inner sets are simplified
    rcases member with ⟨node, -, rfl⟩ | ⟨qSet, member, rfl⟩
    · exact .refl _
    · exact (inner qSet member).trans (simplifiedEntry_meaning _)
  exact entriesMeaning.trans (collapseQSet_meaning _ _ _)

/-- What is left of the inner sets after simplification: simplified inner sets, none of them a
singleton. -/
theorem mem_simplifyInnerSets {innerSets remaining : List (SCPQuorumSet N)} {merged : List N}
    (simplified : simplifyInnerSets none innerSets = (merged, remaining))
    {qSet : SCPQuorumSet N} (member : qSet ∈ remaining) :
    ∃ inner ∈ innerSets, normalizeQSetSimplify none inner = qSet ∧
      simplifiedEntry (normalizeQSetSimplify none inner) = .inr qSet := by
  have perm := simplifyInnerSets_perm none innerSets
  rw [simplified] at perm
  have entry : (.inr qSet : N ⊕ SCPQuorumSet N) ∈
      innerSets.map fun inner => simplifiedEntry (normalizeQSetSimplify none inner) :=
    perm.subset (List.mem_append_right _ (List.mem_map_of_mem member))
  obtain ⟨inner, member', kept⟩ := List.mem_map.mp entry
  exact ⟨inner, member', (eq_of_simplifiedEntry_eq_inr kept).symm, kept⟩

theorem length_simplifyInnerSets {innerSets remaining : List (SCPQuorumSet N)} {merged : List N}
    (simplified : simplifyInnerSets none innerSets = (merged, remaining)) :
    merged.length + remaining.length = innerSets.length := by
  have perm := simplifyInnerSets_perm none innerSets
  rw [simplified] at perm
  simpa using perm.length_eq

omit [LinearOrder N] in
/-- The two outcomes of the last step of `normalizeQSetSimplify`. -/
theorem collapseQSet_cases (threshold : Nat) (validators : List N)
    (innerSets : List (SCPQuorumSet N)) :
    (threshold = 1 ∧ validators = [] ∧
        ∃ inner, innerSets = [inner] ∧ collapseQSet threshold validators innerSets = inner) ∨
      ((threshold, validators.length, innerSets.length) ≠ (1, 0, 1) ∧
        collapseQSet threshold validators innerSets = ⟨threshold, validators, innerSets⟩) := by
  by_cases collapsed : (threshold, validators.length, innerSets.length) = (1, 0, 1)
  · simp only [Prod.mk.injEq, List.length_eq_zero_iff, List.length_eq_one_iff] at collapsed
    obtain ⟨rfl, rfl, inner, rfl⟩ := collapsed
    exact .inl ⟨rfl, rfl, inner, rfl, rfl⟩
  · refine .inr ⟨collapsed, ?_⟩
    unfold collapseQSet
    split
    · simp at collapsed
    · rfl

/-! ## Reordering -/

/-- `qSetCompareInt` compares nodes by their order. -/
theorem compareNodes_eq (l r : N) : compareNodes l r = compare l r := by
  unfold compareNodes
  rcases lt_trichotomy l r with below | rfl | above
  · rw [if_pos below, compare_lt_iff_lt.mpr below]
  · rw [if_neg (lt_irrefl l), if_neg (lt_irrefl l), compare_eq_iff_eq.mpr rfl]
  · rw [if_neg (not_lt_of_gt above), if_pos above, compare_gt_iff_gt.mpr above]

theorem validatorsCompare_eq : ∀ ls rs : List N,
    validatorsCompare ls rs = List.compareLex compare ls rs
  | [], [] => by rw [validatorsCompare, List.compareLex_nil_nil]
  | [], _ :: _ => by rw [validatorsCompare, List.compareLex_nil_cons]
  | _ :: _, [] => by rw [validatorsCompare, List.compareLex_cons_nil]
  | l :: ls, r :: rs => by
    rw [validatorsCompare, List.compareLex_cons_cons, ← compareNodes_eq, validatorsCompare_eq ls rs]
    cases compareNodes l r <;> rfl

theorem innerSetsCompare_eq : ∀ ls rs : List (SCPQuorumSet N),
    innerSetsCompare ls rs = List.compareLex qSetCompareInt ls rs
  | [], [] => by rw [innerSetsCompare, List.compareLex_nil_nil]
  | [], _ :: _ => by rw [innerSetsCompare, List.compareLex_nil_cons]
  | _ :: _, [] => by rw [innerSetsCompare, List.compareLex_cons_nil]
  | l :: ls, r :: rs => by
    rw [innerSetsCompare, List.compareLex_cons_cons, innerSetsCompare_eq ls rs]
    cases qSetCompareInt l r <;> rfl

/-- `qSetCompareInt` compares the validators, then the inner sets, then the threshold. -/
theorem qSetCompareInt_eq (l r : SCPQuorumSet N) :
    qSetCompareInt l r = (List.compareLex compare l.validators r.validators).then
      ((List.compareLex qSetCompareInt l.innerSets r.innerSets).then
        (compare l.threshold r.threshold)) := by
  obtain ⟨lt, lv, li⟩ := l
  obtain ⟨rt, rv, ri⟩ := r
  rw [qSetCompareInt, ← validatorsCompare_eq, ← innerSetsCompare_eq]
  cases validatorsCompare lv rv <;> cases innerSetsCompare li ri <;> rfl

/-- `qSetCompareInt` is a lawful comparison: by induction on the quorum set, it is the
lexicographic comparison of lawful parts. -/
theorem qSetCompareInt_lawful : ∀ qSet : SCPQuorumSet N, LexCompare.LawfulAt qSetCompareInt qSet := by
  refine SCPQuorumSet.induction fun threshold validators innerSets inner => ?_
  have rest : LexCompare.LawfulAt (fun p p' : List (SCPQuorumSet N) × Nat =>
      (List.compareLex qSetCompareInt p.1 p'.1).then (compare p.2 p'.2)) (innerSets, threshold) :=
    @LexCompare.LawfulAt.then _ _ _ _ _ _ Prod.fst Prod.snd _ (fun _ _ => rfl)
      (LexCompare.LawfulAt.compareLex inner) (LexCompare.LawfulAt.compare threshold)
      fun _ sameInner sameThreshold => Prod.ext sameInner sameThreshold
  refine @LexCompare.LawfulAt.then _ _ _ _ _ _ SCPQuorumSet.validators
    (fun qSet => (qSet.innerSets, qSet.threshold)) _ qSetCompareInt_eq
    (LexCompare.LawfulAt.compareLex fun node _ => LexCompare.LawfulAt.compare node) rest ?_
  rintro ⟨threshold', validators', innerSets'⟩ sameValidators sameRest
  cases sameValidators
  cases sameRest
  rfl

theorem pairwise_sortInnerSets (innerSets : List (SCPQuorumSet N)) :
    (innerSets.insertionSort fun l r => qSetCompareInt l r ≠ .gt).Pairwise
      fun l r => qSetCompareInt l r ≠ .gt :=
  haveI := LexCompare.total_not_gt (@qSetCompareInt_lawful N _)
  haveI := LexCompare.trans_not_gt (@qSetCompareInt_lawful N _)
  List.pairwise_insertionSort _ _

theorem reorderInnerSets_eq (innerSets : List (SCPQuorumSet N)) :
    reorderInnerSets innerSets = innerSets.map normalizeQuorumSetReorder := by
  induction innerSets with
  | nil => rfl
  | cons inner rest ih => rw [reorderInnerSets, ih, List.map_cons]

theorem normalizeQuorumSetReorder_mk (threshold : Nat) (validators : List N)
    (innerSets : List (SCPQuorumSet N)) :
    normalizeQuorumSetReorder ⟨threshold, validators, innerSets⟩ =
      ⟨threshold, validators.insertionSort (· ≤ ·),
        (innerSets.map normalizeQuorumSetReorder).insertionSort
          fun l r => qSetCompareInt l r ≠ .gt⟩ := by
  rw [normalizeQuorumSetReorder, reorderInnerSets_eq]

/-- Every inner set of a reordered quorum set is one of its inner sets, reordered. -/
theorem mem_sortInnerSets {innerSets : List (SCPQuorumSet N)} {qSet : SCPQuorumSet N}
    (member : qSet ∈ (innerSets.map normalizeQuorumSetReorder).insertionSort
      fun l r => qSetCompareInt l r ≠ .gt) :
    ∃ inner ∈ innerSets, normalizeQuorumSetReorder inner = qSet :=
  List.mem_map.mp ((List.perm_insertionSort _ _).mem_iff.mp member)

theorem entries_reorder_perm (threshold : Nat) (validators : List N)
    (innerSets : List (SCPQuorumSet N)) :
    (entries (normalizeQuorumSetReorder ⟨threshold, validators, innerSets⟩)).Perm
      ((entries ⟨threshold, validators, innerSets⟩).map
        (Sum.elim .inl fun inner => .inr (normalizeQuorumSetReorder inner))) := by
  rw [normalizeQuorumSetReorder_mk]
  simp only [entries, List.map_append, List.map_map]
  refine List.Perm.append ?_ ?_
  · exact ((List.perm_insertionSort _ _).map _).trans (by simp [Function.comp_def])
  · exact ((List.perm_insertionSort _ _).map _).trans (by simp [Function.comp_def])

theorem reorder_meaning : ∀ qSet : SCPQuorumSet N,
    SameMeaning (.inr qSet) (.inr (normalizeQuorumSetReorder qSet)) := by
  refine SCPQuorumSet.induction fun threshold validators innerSets inner => ?_
  refine sameMeaning_of_entries (by rw [normalizeQuorumSetReorder_mk])
    (entries_reorder_perm threshold validators innerSets) fun entry member => ?_
  simp only [entries, List.mem_append, List.mem_map] at member
  -- validators stay, and inner sets are reordered
  rcases member with ⟨node, -, rfl⟩ | ⟨qSet, member, rfl⟩
  · exact .refl _
  · exact inner qSet member

/-- Reordering a reordered quorum set changes nothing: sorting is the identity on sorted lists,
and by induction every inner set of a reordered set is itself reordered. -/
theorem normalizeQuorumSetReorder_idem : ∀ qSet : SCPQuorumSet N,
    normalizeQuorumSetReorder (normalizeQuorumSetReorder qSet) = normalizeQuorumSetReorder qSet := by
  refine SCPQuorumSet.induction fun threshold validators innerSets inner => ?_
  have reordered : ∀ qSet ∈ (innerSets.map normalizeQuorumSetReorder).insertionSort
      (fun l r => qSetCompareInt l r ≠ .gt), normalizeQuorumSetReorder qSet = qSet := by
    intro qSet member
    obtain ⟨inner', member', rfl⟩ := mem_sortInnerSets member
    exact inner inner' member'
  rw [normalizeQuorumSetReorder_mk, normalizeQuorumSetReorder_mk, List.map_congr_left reordered,
    List.map_id', (List.pairwise_insertionSort (fun a b : N => a ≤ b) validators).insertionSort_eq,
    (pairwise_sortInnerSets _).insertionSort_eq]

/-! ## The normal form -/

/-- How many validators and inner sets a level has, with its threshold. -/
def shape (qSet : SCPQuorumSet N) : Nat × Nat × Nat :=
  (qSet.threshold, qSet.validators.length, qSet.innerSets.length)

omit [LinearOrder N] in
theorem shape_eq_singleton_iff {qSet : SCPQuorumSet N} :
    shape qSet = (1, 1, 0) ↔ ∃ node, qSet = ⟨1, [node], []⟩ := by
  obtain ⟨threshold, validators, innerSets⟩ := qSet
  simp only [shape, Prod.mk.injEq, List.length_eq_one_iff, List.length_eq_zero_iff,
    SCPQuorumSet.mk.injEq]
  constructor
  · rintro ⟨rfl, ⟨node, rfl⟩, rfl⟩
    exact ⟨node, rfl, rfl, rfl⟩
  · rintro ⟨node, rfl, rfl, rfl⟩
    exact ⟨rfl, ⟨node, rfl⟩, rfl⟩

omit [LinearOrder N] in
theorem shape_ne_of_simplifiedEntry_eq_inr {qSet qSet' : SCPQuorumSet N}
    (kept : simplifiedEntry qSet = .inr qSet') : shape qSet ≠ (1, 1, 0) := by
  intro singleton
  obtain ⟨node, rfl⟩ := shape_eq_singleton_iff.1 singleton
  cases kept

theorem shape_reorder (qSet : SCPQuorumSet N) :
    shape (normalizeQuorumSetReorder qSet) = shape qSet := by
  obtain ⟨threshold, validators, innerSets⟩ := qSet
  simp [normalizeQuorumSetReorder_mk, shape, List.length_insertionSort]

/-- The quorum sets `normalizeQSetSimplify` leaves as they are: no level is
`{ t: 1, { innerSet } }` and no inner set is a singleton `{ t: 1, v: { node } }`. -/
inductive Simplified : SCPQuorumSet N → Prop
  | mk {threshold : Nat} {validators : List N} {innerSets : List (SCPQuorumSet N)}
      (uncollapsed : (threshold, validators.length, innerSets.length) ≠ (1, 0, 1))
      (unmerged : ∀ qSet ∈ innerSets, shape qSet ≠ (1, 1, 0))
      (inner : ∀ qSet ∈ innerSets, Simplified qSet) : Simplified ⟨threshold, validators, innerSets⟩

theorem simplifyInnerSets_of_simplified {innerSets : List (SCPQuorumSet N)}
    (fixed : ∀ qSet ∈ innerSets, normalizeQSetSimplify none qSet = qSet ∧ shape qSet ≠ (1, 1, 0)) :
    simplifyInnerSets none innerSets = ([], innerSets) := by
  induction innerSets with
  | nil => rfl
  | cons inner rest ih =>
    obtain ⟨same, notSingleton⟩ := fixed inner List.mem_cons_self
    rw [simplifyInnerSets, ih fun qSet member => fixed qSet (List.mem_cons_of_mem inner member), same]
    dsimp only
    split
    · exact absurd rfl notSingleton
    · rfl

theorem Simplified.simplify_eq {qSet : SCPQuorumSet N} (simplified : Simplified qSet) :
    normalizeQSetSimplify none qSet = qSet := by
  induction simplified with
  | @mk threshold validators innerSets uncollapsed unmerged _ fixed =>
    have kept := simplifyInnerSets_of_simplified fun qSet member =>
      ⟨fixed qSet member, unmerged qSet member⟩
    rw [normalizeQSetSimplify_none kept, List.append_nil]
    rcases collapseQSet_cases threshold validators innerSets with ⟨rfl, rfl, inner, rfl, -⟩ | ⟨-, kept⟩
    · exact absurd rfl uncollapsed
    · exact kept

/-- What `normalizeQSetSimplify` returns is simplified: by induction, the inner sets that remain
are simplified and no singleton, and a collapse returns one of them. -/
theorem simplified_simplify : ∀ qSet : SCPQuorumSet N,
    Simplified (normalizeQSetSimplify none qSet) := by
  refine SCPQuorumSet.induction fun threshold validators innerSets inner => ?_
  rcases simplified : simplifyInnerSets none innerSets with ⟨merged, remaining⟩
  rw [normalizeQSetSimplify_none simplified]
  have remainder : ∀ qSet ∈ remaining, Simplified qSet ∧ shape qSet ≠ (1, 1, 0) := by
    intro qSet member
    obtain ⟨inner', member', rfl, kept⟩ := mem_simplifyInnerSets simplified member
    exact ⟨inner inner' member', shape_ne_of_simplifiedEntry_eq_inr kept⟩
  rcases collapseQSet_cases threshold (validators ++ merged) remaining with
    ⟨-, -, qSet, rfl, collapsed⟩ | ⟨uncollapsed, kept⟩
  · rw [collapsed]
    exact (remainder qSet (List.mem_singleton_self qSet)).1
  · rw [kept]
    exact .mk uncollapsed (fun qSet member => (remainder qSet member).2)
      fun qSet member => (remainder qSet member).1

theorem Simplified.reorder {qSet : SCPQuorumSet N} (simplified : Simplified qSet) :
    Simplified (normalizeQuorumSetReorder qSet) := by
  induction simplified with
  | @mk threshold validators innerSets uncollapsed unmerged _ reordered =>
    rw [normalizeQuorumSetReorder_mk]
    refine .mk (by simpa [List.length_insertionSort] using uncollapsed)
      (fun qSet member => ?_) fun qSet member => ?_
    · obtain ⟨inner, member', rfl⟩ := mem_sortInnerSets member
      rw [shape_reorder]
      exact unmerged inner member'
    · obtain ⟨inner, member', rfl⟩ := mem_sortInnerSets member
      exact reordered inner member'

/-! ## Sanity -/

variable {extraChecks : Bool}

/-- Simplifying keeps the number of entries of each level, so no rule of `checkSanity` breaks;
a collapse returns an inner set, sane one level deeper. -/
theorem saneLevels_simplify : ∀ qSet : SCPQuorumSet N, ∀ {depth : Nat},
    SaneLevels extraChecks depth qSet → SaneLevels extraChecks depth (normalizeQSetSimplify none qSet) := by
  refine SCPQuorumSet.induction fun threshold validators innerSets inner => ?_
  rintro depth ⟨shallow, positive, atMost, majority, innerSane⟩
  rcases simplified : simplifyInnerSets none innerSets with ⟨merged, remaining⟩
  rw [normalizeQSetSimplify_none simplified]
  have length := length_simplifyInnerSets simplified
  have remainder : ∀ qSet ∈ remaining, SaneLevels extraChecks (depth + 1) qSet := by
    intro qSet member
    obtain ⟨inner', member', rfl, -⟩ := mem_simplifyInnerSets simplified member
    exact inner inner' member' (innerSane inner' member')
  rcases collapseQSet_cases threshold (validators ++ merged) remaining with
    ⟨-, -, qSet, rfl, collapsed⟩ | ⟨-, kept⟩
  · rw [collapsed]
    exact (remainder qSet (List.mem_singleton_self qSet)).mono (Nat.le_succ depth)
  · rw [kept]
    refine .mk shallow positive ?_ ?_ remainder
    · rw [List.length_append]
      omega
    · intro checked
      have majority := majority checked
      rw [List.length_append]
      omega

theorem SaneLevels.reorder {depth : Nat} {qSet : SCPQuorumSet N}
    (sane : SaneLevels extraChecks depth qSet) :
    SaneLevels extraChecks depth (normalizeQuorumSetReorder qSet) := by
  induction sane with
  | @mk depth threshold validators innerSets shallow positive atMost majority _ reordered =>
    rw [normalizeQuorumSetReorder_mk]
    refine .mk shallow positive ?_ ?_ fun qSet member => ?_
    · simpa [List.length_insertionSort] using atMost
    · simpa [List.length_insertionSort] using majority
    · obtain ⟨inner, member', rfl⟩ := mem_sortInnerSets member
      exact reordered inner member'

/-! ## `normalizeQSet` -/

theorem normalizeQSet_meaning (qSet : SCPQuorumSet N) :
    SameMeaning (.inr qSet) (.inr (normalizeQSet qSet none)) :=
  (simplify_meaning qSet).trans (reorder_meaning _)

/-- `normalizeQSet` with no node removed keeps what a quorum set means: every node set is a
slice of the normalised set exactly when it is one of the original, blocks it exactly when it
blocks the original, and the two sets hold the same nodes, each as many times. -/
theorem normalizeQSet_keeps_meaning (qSet : SCPQuorumSet N) :
    (∀ nodeSet, isQuorumSlice (normalizeQSet qSet none) nodeSet = isQuorumSlice qSet nodeSet) ∧
      (∀ nodeSet, isVBlocking (normalizeQSet qSet none) nodeSet = isVBlocking qSet nodeSet) ∧
      (allNodes (normalizeQSet qSet none)).Perm (allNodes qSet) :=
  ⟨(normalizeQSet_meaning qSet).satisfied, (normalizeQSet_meaning qSet).blocked,
    (normalizeQSet_meaning qSet).nodes⟩

/-- `normalizeQSet` with no node removed turns a sane quorum set into a sane one. -/
theorem normalizeQSet_sane {qSet : SCPQuorumSet N}
    (sane : isQuorumSetSane qSet extraChecks = .ok ()) :
    isQuorumSetSane (normalizeQSet qSet none) extraChecks = .ok () := by
  obtain ⟨levels, nodup, atLeastOne, atMost⟩ := isQuorumSetSane_iff.1 sane
  have nodes : (allNodes (normalizeQSet qSet none)).Perm (allNodes qSet) :=
    (normalizeQSet_meaning qSet).nodes
  refine isQuorumSetSane_iff.2 ⟨(saneLevels_simplify qSet levels).reorder,
    nodes.nodup_iff.mpr nodup, ?_, ?_⟩
  · rw [nodes.length_eq]
    exact atLeastOne
  · rw [nodes.length_eq]
    exact atMost

theorem normalizeQSet_sane_nested :
    isQuorumSetSane (⟨1, [], [⟨2, [3, 1, 2], []⟩]⟩ : SCPQuorumSet Nat) true = .ok () ∧
      isQuorumSetSane (normalizeQSet (⟨1, [], [⟨2, [3, 1, 2], []⟩]⟩ : SCPQuorumSet Nat) none)
        true = .ok () :=
  ⟨by rfl, normalizeQSet_sane (by rfl)⟩

/-- `normalizeQSet` with no node removed is idempotent: what it returns is simplified, stays so
once reordered, and reordering twice is reordering once. -/
theorem normalizeQSet_idempotent (qSet : SCPQuorumSet N) :
    normalizeQSet (normalizeQSet qSet none) none = normalizeQSet qSet none := by
  rw [normalizeQSet, normalizeQSet, (simplified_simplify qSet).reorder.simplify_eq,
    normalizeQuorumSetReorder_idem]

end StellarCore.Scp
