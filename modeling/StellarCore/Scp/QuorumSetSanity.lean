import StellarCore.Scp.Quorum

/-!
# What `isQuorumSetSane` accepts

`checkSanity` stops at the first level that breaks one of its rules, and its duplicate check
at the first node it has seen before. So a walk succeeds exactly when every level keeps the
rules (`SaneLevels`) and no node comes twice; the known nodes are then the set of all the
nodes seen, and the count is their number. `isQuorumSetSane` accepts exactly the quorum sets
whose levels keep the rules and whose nodes are distinct and between one and a thousand.
-/

set_option autoImplicit false

namespace StellarCore.Scp

variable {N : Type}

/-- The rules `checkSanity` enforces of a quorum set at nesting `depth`, and of its inner sets
one level deeper. -/
inductive SaneLevels (extraChecks : Bool) : Nat → SCPQuorumSet N → Prop
  | mk {depth threshold : Nat} {validators : List N} {innerSets : List (SCPQuorumSet N)}
      (shallow : depth ≤ maximumQuorumNestingLevel) (positive : 1 ≤ threshold)
      (atMost : threshold ≤ validators.length + innerSets.length)
      (majority : extraChecks = true →
        validators.length + innerSets.length - threshold + 1 ≤ threshold)
      (inner : ∀ qSet ∈ innerSets, SaneLevels extraChecks (depth + 1) qSet) :
      SaneLevels extraChecks depth ⟨threshold, validators, innerSets⟩

theorem saneLevels_mk_iff {extraChecks : Bool} {depth threshold : Nat} {validators : List N}
    {innerSets : List (SCPQuorumSet N)} :
    SaneLevels extraChecks depth ⟨threshold, validators, innerSets⟩ ↔
      depth ≤ maximumQuorumNestingLevel ∧ 1 ≤ threshold ∧
        threshold ≤ validators.length + innerSets.length ∧
        (extraChecks = true → validators.length + innerSets.length - threshold + 1 ≤ threshold) ∧
        ∀ qSet ∈ innerSets, SaneLevels extraChecks (depth + 1) qSet := by
  constructor
  · rintro ⟨shallow, positive, atMost, majority, inner⟩
    exact ⟨shallow, positive, atMost, majority, inner⟩
  · rintro ⟨shallow, positive, atMost, majority, inner⟩
    exact .mk shallow positive atMost majority inner

/-- Levels that keep the rules keep them nearer the top. -/
theorem SaneLevels.mono {extraChecks : Bool} {depth : Nat} {qSet : SCPQuorumSet N}
    (sane : SaneLevels extraChecks depth qSet) :
    ∀ {depth'}, depth' ≤ depth → SaneLevels extraChecks depth' qSet := by
  induction sane with
  | mk shallow positive atMost majority _ inner =>
    intro depth' above
    exact .mk (by omega) positive atMost majority fun qSet member => inner qSet member (by omega)

variable [LinearOrder N]

/-- The duplicate check succeeds exactly when the validators are new and distinct, and then
inserts them into the known nodes. -/
theorem insertKnownNodes_eq_ok : ∀ {validators known known' : List N},
    known.Pairwise (· < ·) → (insertKnownNodes validators known = .ok known' ↔
      (known ++ validators).Nodup ∧ known' = SortedList.insertAll validators known)
  | [], known, known', sorted => by
    simp [insertKnownNodes, SortedList.insertAll, sorted.nodup, eq_comm]
  | validator :: rest, known, known', sorted => by
    unfold insertKnownNodes
    by_cases seen : validator ∈ known
    · have repeated : ¬ (known ++ validator :: rest).Nodup := fun nodup =>
        (List.nodup_append.mp nodup).2.2 validator seen validator List.mem_cons_self rfl
      simp [seen, repeated]
    · have moved : (SortedList.insert validator known ++ rest).Perm (known ++ validator :: rest) :=
        ((SortedList.insert_perm sorted seen).append_right rest).trans List.perm_middle.symm
      rw [if_neg seen, insertKnownNodes_eq_ok (SortedList.pairwise_insert sorted), moved.nodup_iff]
      rfl

/-- What `checkSanity` computes, from every depth, known nodes and count: it succeeds exactly
when the levels keep the rules and the nodes are new and distinct, and then adds the nodes to
the known ones and their number to the count. -/
def SanityWalk (extraChecks : Bool) (qSet : SCPQuorumSet N) : Prop :=
  ∀ (depth : Nat) (known : List N) (count : Nat), known.Pairwise (· < ·) →
    ∀ result : List N × Nat, checkSanity extraChecks qSet depth known count = .ok result ↔
      (SaneLevels extraChecks depth qSet ∧ (known ++ allNodes qSet).Nodup) ∧
        result = (SortedList.insertAll (allNodes qSet) known, count + (allNodes qSet).length)

theorem checkInnerSanity_eq_ok (extraChecks : Bool) :
    ∀ {innerSets : List (SCPQuorumSet N)}, (∀ qSet ∈ innerSets, SanityWalk extraChecks qSet) →
      ∀ (depth : Nat) (known : List N) (count : Nat), known.Pairwise (· < ·) →
        ∀ result : List N × Nat,
          checkInnerSanity extraChecks innerSets depth known count = .ok result ↔
            ((∀ qSet ∈ innerSets, SaneLevels extraChecks depth qSet) ∧
              (known ++ innerAllNodes innerSets).Nodup) ∧
              result = (SortedList.insertAll (innerAllNodes innerSets) known,
                count + (innerAllNodes innerSets).length)
  | [], _, depth, known, count, sorted, result => by
    simp [checkInnerSanity, innerAllNodes, SortedList.insertAll, sorted.nodup, eq_comm]
  | inner :: rest, walks, depth, known, count, sorted, result => by
    have first := walks inner List.mem_cons_self depth known count sorted
    have others := checkInnerSanity_eq_ok extraChecks
      (fun qSet member => walks qSet (List.mem_cons_of_mem inner member))
    rw [checkInnerSanity, innerAllNodes]
    cases checked : checkSanity extraChecks inner depth known count with
    | error message =>
      -- the first inner set fails its walk, so it breaks a rule or repeats a node
      simp only [reduceCtorEq, false_iff, not_and]
      rintro ⟨sane, nodup⟩ -
      have passes := (first _).mpr ⟨⟨sane inner List.mem_cons_self,
        nodup.sublist (by simp)⟩, rfl⟩
      rw [checked] at passes
      cases passes
    | ok walked =>
      obtain ⟨⟨saneFirst, nodupFirst⟩, rfl⟩ := (first _).mp checked
      dsimp only
      rw [others _ _ _ (SortedList.pairwise_insertAll _ sorted) result,
        SortedList.nodup_insertAll_append sorted nodupFirst, SortedList.insertAll_append,
        List.length_append, Nat.add_assoc, List.forall_mem_cons]
      constructor
      · rintro ⟨⟨sane, nodup⟩, rfl⟩
        exact ⟨⟨⟨saneFirst, sane⟩, nodup⟩, rfl⟩
      · rintro ⟨⟨⟨-, sane⟩, nodup⟩, rfl⟩
        exact ⟨⟨sane, nodup⟩, rfl⟩

theorem checkSanity_eq_ok (extraChecks : Bool) : ∀ qSet : SCPQuorumSet N,
    SanityWalk extraChecks qSet := by
  refine SCPQuorumSet.induction fun threshold validators innerSets inner => ?_
  intro depth known count sorted result
  rw [allNodes, saneLevels_mk_iff]
  unfold checkSanity
  dsimp only
  split_ifs with deep notPositive exceeds lowered
  -- each rule `checkSanity` stops at is one `SaneLevels` asks for
  · simp only [false_iff]
    rintro ⟨⟨⟨shallow, -⟩, -⟩, -⟩
    omega
  · simp only [false_iff]
    rintro ⟨⟨⟨-, positive, -⟩, -⟩, -⟩
    omega
  · simp only [false_iff]
    rintro ⟨⟨⟨-, -, atMost, -⟩, -⟩, -⟩
    omega
  · simp only [Bool.and_eq_true, decide_eq_true_eq] at lowered
    simp only [false_iff]
    rintro ⟨⟨⟨-, -, -, majority, -⟩, -⟩, -⟩
    have := majority lowered.1
    omega
  · cases inserted : insertKnownNodes validators known with
    | error message =>
      simp only [reduceCtorEq, false_iff, not_and]
      rintro ⟨-, nodup⟩ -
      have passes : insertKnownNodes validators known = .ok (SortedList.insertAll validators known) :=
        (insertKnownNodes_eq_ok sorted).mpr ⟨nodup.sublist (by simp), rfl⟩
      rw [inserted] at passes
      cases passes
    | ok known₁ =>
      obtain ⟨nodupFirst, rfl⟩ := (insertKnownNodes_eq_ok sorted).mp inserted
      dsimp only
      rw [checkInnerSanity_eq_ok extraChecks inner _ _ _ (SortedList.pairwise_insertAll _ sorted) result,
        SortedList.nodup_insertAll_append sorted nodupFirst, SortedList.insertAll_append,
        List.length_append, Nat.add_assoc]
      simp only [Bool.and_eq_true, decide_eq_true_eq, not_and, not_lt] at lowered
      constructor
      · rintro ⟨⟨sane, nodup⟩, rfl⟩
        exact ⟨⟨⟨by omega, by omega, by omega, by omega, sane⟩, nodup⟩, rfl⟩
      · rintro ⟨⟨⟨-, -, -, -, sane⟩, nodup⟩, rfl⟩
        exact ⟨⟨sane, nodup⟩, rfl⟩

/-- `isQuorumSetSane` accepts exactly the quorum sets whose levels keep the rules and whose
nodes are distinct and between one and a thousand. -/
theorem isQuorumSetSane_iff {qSet : SCPQuorumSet N} {extraChecks : Bool} :
    isQuorumSetSane qSet extraChecks = .ok () ↔
      SaneLevels extraChecks 0 qSet ∧ (allNodes qSet).Nodup ∧
        1 ≤ (allNodes qSet).length ∧ (allNodes qSet).length ≤ 1000 := by
  have walk := checkSanity_eq_ok extraChecks qSet 0 [] 0 List.Pairwise.nil
  unfold isQuorumSetSane
  cases checked : checkSanity extraChecks qSet 0 [] 0 with
  | error message =>
    simp only [reduceCtorEq, false_iff, not_and]
    intro sane nodup _
    have passes := (walk _).mpr ⟨⟨sane, nodup⟩, rfl⟩
    rw [checked] at passes
    cases passes
  | ok walked =>
    obtain ⟨⟨sane, nodup⟩, rfl⟩ := (walk _).mp checked
    simp only [List.nil_append, Nat.zero_add] at nodup ⊢
    split_ifs with outside
    · simp only [false_iff, not_and]
      rintro - - atLeastOne atMost
      omega
    · exact iff_of_true rfl ⟨sane, nodup, by omega, by omega⟩

end StellarCore.Scp
