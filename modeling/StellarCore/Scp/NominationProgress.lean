import StellarCore.Scp.BallotProgress

/-!
# What the nomination protocol keeps, and how it moves

The votes `X`, the accepted values `Y` and the candidates `Z` stay strictly increasing with
`Z ⊆ Y ⊆ X`, and only grow. The functions that do not emit (the loops of `processEnvelope`
and `nominate`) change nothing else the protocol's checks read, and each one that reports a
change has added a vote or an accepted value.

That last fact is what keeps the node's own statements valid: the statement `emitNomination`
builds is processed as the node's own, and `NominationProtocol::processEnvelope` refuses it
unless it is newer than the node's latest recorded nomination. The latest one was built from
sets that were at most the present ones, and since then a vote or an accepted value was
added, so the new statement is strictly newer.
-/

set_option autoImplicit false
set_option linter.unusedSectionVars false

namespace StellarCore.Scp

namespace NominationProtocol

variable {N V H : Type} [LinearOrder N] [LinearOrder V] [DecidableEq H]

/-! ## The sets -/

/-- `X`, `Y` and `Z` are strictly increasing, with `Z ⊆ Y ⊆ X`. -/
structure SetsWellFormed (np : NominationProtocol N V H) : Prop where
  votes_sorted : np.votes.Pairwise (· < ·)
  accepted_sorted : np.accepted.Pairwise (· < ·)
  candidates_sorted : np.candidates.Pairwise (· < ·)
  candidates_subset : np.candidates ⊆ np.accepted
  accepted_subset : np.accepted ⊆ np.votes

/-- `X`, `Y` and `Z` only grow. -/
structure SetsGrow (np np' : NominationProtocol N V H) : Prop where
  votes : np.votes ⊆ np'.votes
  accepted : np.accepted ⊆ np'.accepted
  candidates : np.candidates ⊆ np'.candidates

theorem SetsGrow.refl (np : NominationProtocol N V H) : SetsGrow np np :=
  ⟨List.Subset.refl _, List.Subset.refl _, List.Subset.refl _⟩

theorem SetsGrow.trans {np₁ np₂ np₃ : NominationProtocol N V H} (h₁₂ : SetsGrow np₁ np₂)
    (h₂₃ : SetsGrow np₂ np₃) : SetsGrow np₁ np₃ :=
  ⟨List.Subset.trans h₁₂.votes h₂₃.votes, List.Subset.trans h₁₂.accepted h₂₃.accepted,
    List.Subset.trans h₁₂.candidates h₂₃.candidates⟩

/-- A change of the sets alone: they stay well formed and only grow. -/
structure SetsStep (np np' : NominationProtocol N V H) : Prop extends SetsGrow np np' where
  wellFormed : SetsWellFormed np'
  latestNominations : np'.latestNominations = np.latestNominations
  lastEnvelope : np'.lastEnvelope = np.lastEnvelope

theorem SetsStep.refl {np : NominationProtocol N V H} (wellFormed : SetsWellFormed np) :
    SetsStep np np :=
  ⟨SetsGrow.refl np, wellFormed, rfl, rfl⟩

theorem SetsStep.trans {np₁ np₂ np₃ : NominationProtocol N V H} (h₁₂ : SetsStep np₁ np₂)
    (h₂₃ : SetsStep np₂ np₃) : SetsStep np₁ np₃ :=
  ⟨h₁₂.toSetsGrow.trans h₂₃.toSetsGrow, h₂₃.wellFormed,
    h₂₃.latestNominations.trans h₁₂.latestNominations, h₂₃.lastEnvelope.trans h₁₂.lastEnvelope⟩

/-- A vote or an accepted value was added. -/
def Grew (np np' : NominationProtocol N V H) : Prop :=
  (∃ v ∈ np'.votes, v ∉ np.votes) ∨ ∃ v ∈ np'.accepted, v ∉ np.accepted

theorem Grew.of_grow {np₁ np₂ np₃ : NominationProtocol N V H} (grew : Grew np₁ np₂)
    (grow : SetsGrow np₂ np₃) : Grew np₁ np₃ := by
  rcases grew with ⟨v, member, absent⟩ | ⟨v, member, absent⟩
  · exact .inl ⟨v, grow.votes member, absent⟩
  · exact .inr ⟨v, grow.accepted member, absent⟩

theorem Grew.of_grown {np₁ np₂ np₃ : NominationProtocol N V H} (grow : SetsGrow np₁ np₂)
    (grew : Grew np₂ np₃) : Grew np₁ np₃ := by
  rcases grew with ⟨v, member, absent⟩ | ⟨v, member, absent⟩
  · exact .inl ⟨v, member, fun old => absent (grow.votes old)⟩
  · exact .inr ⟨v, member, fun old => absent (grow.accepted old)⟩

theorem subset_insert (a : V) (l : List V) : l ⊆ SortedList.insert a l :=
  fun _ member => SortedList.mem_insert.2 (.inr member)

theorem mem_insert_self (a : V) (l : List V) : a ∈ SortedList.insert a l :=
  SortedList.mem_insert.2 (.inl rfl)

section Insert

variable {np : NominationProtocol N V H} (wellFormed : SetsWellFormed np) (x : V)

include wellFormed

/-- A new vote. -/
theorem SetsStep.insertVote : SetsStep np { np with votes := SortedList.insert x np.votes } :=
  ⟨⟨subset_insert x _, List.Subset.refl _, List.Subset.refl _⟩,
    ⟨SortedList.pairwise_insert wellFormed.votes_sorted, wellFormed.accepted_sorted,
      wellFormed.candidates_sorted, wellFormed.candidates_subset,
      List.Subset.trans wellFormed.accepted_subset (subset_insert x _)⟩, rfl, rfl⟩

/-- A new accepted value, which is voted for as well. -/
theorem SetsStep.insertAccepted :
    SetsStep np { np with
      accepted := SortedList.insert x np.accepted
      votes := SortedList.insert x np.votes } := by
  refine ⟨⟨subset_insert x _, subset_insert x _, List.Subset.refl _⟩,
    ⟨SortedList.pairwise_insert wellFormed.votes_sorted,
      SortedList.pairwise_insert wellFormed.accepted_sorted, wellFormed.candidates_sorted,
      List.Subset.trans wellFormed.candidates_subset (subset_insert x _), fun y member => ?_⟩,
    rfl, rfl⟩
  rcases SortedList.mem_insert.1 member with rfl | accepted
  · exact mem_insert_self y _
  · exact subset_insert x _ (wellFormed.accepted_subset accepted)

/-- A new candidate, among the accepted values. -/
theorem SetsStep.insertCandidate (accepted : x ∈ np.accepted) :
    SetsStep np { np with candidates := SortedList.insert x np.candidates } := by
  refine ⟨⟨List.Subset.refl _, List.Subset.refl _, subset_insert x _⟩,
    ⟨wellFormed.votes_sorted, wellFormed.accepted_sorted,
      SortedList.pairwise_insert wellFormed.candidates_sorted, fun y member => ?_,
      wellFormed.accepted_subset⟩, rfl, rfl⟩
  rcases SortedList.mem_insert.1 member with rfl | candidate
  · exact accepted
  · exact wellFormed.candidates_subset candidate

end Insert

/-! ## The loops that do not emit -/

section Loops

variable (scp : SCP N V H)

@[simp] theorem acceptVotes_nil (np : NominationProtocol N V H) :
    acceptVotes scp np [] = (false, np) := rfl

@[simp] theorem acceptVotes_cons (np : NominationProtocol N V H) (v : V) (rest : List V) :
    acceptVotes scp np (v :: rest) =
      ((acceptVote scp np v).1 || (acceptVotes scp (acceptVote scp np v).2 rest).1,
        (acceptVotes scp (acceptVote scp np v).2 rest).2) := rfl

@[simp] theorem promoteCandidates_nil (np : NominationProtocol N V H) :
    promoteCandidates scp np [] = (false, np) := rfl

@[simp] theorem promoteCandidates_cons (np : NominationProtocol N V H) (a : V) (rest : List V) :
    promoteCandidates scp np (a :: rest) =
      ((promoteCandidate scp np a).1 || (promoteCandidates scp (promoteCandidate scp np a).2 rest).1,
        (promoteCandidates scp (promoteCandidate scp np a).2 rest).2) := rfl

/-- A change `acceptVote` reports has added a vote or an accepted value. -/
theorem acceptVote_step {np : NominationProtocol N V H} (wellFormed : SetsWellFormed np)
    (v : V) :
    SetsStep np (acceptVote scp np v).2 ∧
      ((acceptVote scp np v).1 = true → Grew np (acceptVote scp np v).2) := by
  unfold acceptVote
  split
  · exact ⟨.refl wellFormed, nofun⟩
  split
  · split
    · rename_i notAccepted _ _
      exact ⟨.insertAccepted wellFormed v, fun _ => .inr ⟨v, mem_insert_self v _, notAccepted⟩⟩
    · split
      · rename_i toVote _
        split
        · exact ⟨.refl wellFormed, nofun⟩
        · rename_i notVoted
          exact ⟨.insertVote wellFormed toVote,
            fun _ => .inl ⟨toVote, mem_insert_self toVote _, notVoted⟩⟩
      · exact ⟨.refl wellFormed, nofun⟩
  · exact ⟨.refl wellFormed, nofun⟩

theorem acceptVotes_step (votes : List V) {np : NominationProtocol N V H}
    (wellFormed : SetsWellFormed np) :
    SetsStep np (acceptVotes scp np votes).2 ∧
      ((acceptVotes scp np votes).1 = true → Grew np (acceptVotes scp np votes).2) := by
  induction votes generalizing np with
  | nil => exact ⟨.refl wellFormed, nofun⟩
  | cons v rest more =>
      obtain ⟨first, firstGrew⟩ := acceptVote_step scp wellFormed v
      obtain ⟨after, afterGrew⟩ := more first.wellFormed
      refine ⟨first.trans after, fun modified => ?_⟩
      rcases Bool.or_eq_true_iff.mp modified with changed | changed
      · exact (firstGrew changed).of_grow after.toSetsGrow
      · exact (afterGrew changed).of_grown first.toSetsGrow

theorem promoteCandidate_step {np : NominationProtocol N V H} (wellFormed : SetsWellFormed np)
    {a : V} (accepted : a ∈ np.accepted) : SetsStep np (promoteCandidate scp np a).2 := by
  unfold promoteCandidate
  split
  · exact .refl wellFormed
  split
  · exact .insertCandidate wellFormed a accepted
  · exact .refl wellFormed

/-- The loop over values already accepted keeps `Z ⊆ Y`. -/
theorem promoteCandidates_step (values : List V) {np : NominationProtocol N V H}
    (wellFormed : SetsWellFormed np) (accepted : values ⊆ np.accepted) :
    SetsStep np (promoteCandidates scp np values).2 := by
  induction values generalizing np with
  | nil => exact .refl wellFormed
  | cons a rest more =>
      have first := promoteCandidate_step scp wellFormed (accepted List.mem_cons_self)
      exact first.trans (more first.wellFormed
        (List.Subset.trans (List.Subset.trans (List.subset_cons_self a rest) accepted)
          first.accepted))

/-- `pickValue` only ever picks a value not voted for yet. -/
theorem pickValue_fresh {np : NominationProtocol N V H} {acc acc' : Option V × Nat × Bool}
    {value : V} (fresh : ∀ v ∈ acc.1, v ∉ np.votes) (picked : pickValue scp np acc value = .ok acc') :
    ∀ v ∈ acc'.1, v ∉ np.votes := by
  obtain ⟨newVote, newHash, found⟩ := acc
  unfold pickValue at picked
  dsimp only at picked
  cases valueToNominate : (if scp.driver.validateValue value true == .fullyValidatedValue then
      some value else scp.driver.extractValidValue value) with
  | none =>
      rw [valueToNominate] at picked
      exact Except.ok.inj picked ▸ fresh
  | some v =>
      rw [valueToNominate] at picked
      dsimp only at picked
      split at picked
      · exact Except.ok.inj picked ▸ fresh
      · rename_i notVoted
        split at picked
        · simp at picked
        · split at picked
          · intro w member
            rw [← Except.ok.inj picked, Option.mem_def, Option.some.injEq] at member
            exact member ▸ notVoted
          · exact Except.ok.inj picked ▸ fresh

/-- A new value from a nomination is not voted for yet. -/
theorem getNewValueFromNomination_fresh {np : NominationProtocol N V H} {nom : SCPNomination V H}
    {v : V} (found : getNewValueFromNomination scp np nom = .ok (some v)) : v ∉ np.votes := by
  -- both folds keep every picked value unvoted
  have fold : ∀ (l : List V) (init r : Option V × Nat × Bool), (∀ w ∈ init.1, w ∉ np.votes) →
      l.foldlM (pickValue scp np) init = .ok r → ∀ w ∈ r.1, w ∉ np.votes :=
    Except.foldlM_invariant (fun acc => ∀ w ∈ acc.1, w ∉ np.votes)
      fun _ _ _ fresh picked => pickValue_fresh scp fresh picked
  unfold getNewValueFromNomination at found
  split at found
  · simp at found
  · rename_i acc accepted
    have fresh := fold _ _ _ (by simp) accepted
    split at found
    · exact fresh v (Except.ok.inj found)
    · split at found
      · simp at found
      · rename_i votes
        exact fold _ _ _ fresh votes v (Except.ok.inj found)

end Loops

end NominationProtocol

end StellarCore.Scp
