import StellarCore.Scp.NominationProgress

/-!
# Every run of a slot moves it forward

A slot keeps `Invariant`: its ballot protocol is `Consistent` and its nomination sets are well
formed. Every operation of the herder that completes keeps it and `Moves` the slot: the ballot
protocol `Advances` and the nomination sets only grow.

The ballot protocol hands the statements it emits to `Slot::processEnvelope`, which hands a
ballot statement back to the ballot protocol; the step lemmas of `BallotProgress` take that as
a hypothesis, which the induction on the fuel of `Slot.processEnvelope` discharges. A nomination
statement goes to the nomination protocol, which changes only its own state, emits nominations,
and hands a composite value to the ballot protocol's `bumpState`. Errors end a run, so only
what a completed operation does is stated here.
-/

set_option autoImplicit false
set_option linter.unusedSectionVars false

namespace StellarCore.Scp

namespace NominationProtocol

variable {N V H : Type} [LinearOrder N] [LinearOrder V] [DecidableEq H]

/-- The sets `X`, `Y` and `Z` of the nomination protocol. -/
def sets (np : NominationProtocol N V H) : List V × List V × List V :=
  (np.votes, np.accepted, np.candidates)

theorem sets_stopNomination (np : NominationProtocol N V H) : sets np.stopNomination = sets np :=
  rfl

theorem setsWellFormed_of_sets {np np' : NominationProtocol N V H} (same : sets np' = sets np)
    (wellFormed : SetsWellFormed np) :
    SetsWellFormed np' := by
  simp only [sets, Prod.mk.injEq] at same
  obtain ⟨votes, accepted, candidates⟩ := same
  exact ⟨votes ▸ wellFormed.votes_sorted, accepted ▸ wellFormed.accepted_sorted,
    candidates ▸ wellFormed.candidates_sorted, candidates ▸ accepted ▸ wellFormed.candidates_subset,
    accepted ▸ votes ▸ wellFormed.accepted_subset⟩

theorem setsGrow_of_sets {np np' : NominationProtocol N V H} (same : sets np' = sets np) :
    SetsGrow np np' := by
  simp only [sets, Prod.mk.injEq] at same
  obtain ⟨votes, accepted, candidates⟩ := same
  exact ⟨votes ▸ List.Subset.refl _, accepted ▸ List.Subset.refl _,
    candidates ▸ List.Subset.refl _⟩

end NominationProtocol

namespace Slot

open StateExcept

variable {N V H : Type} [LinearOrder N] [LinearOrder V] [DecidableEq H]

/-- What every slot of a run keeps. -/
structure Invariant (s : Slot N V H) : Prop where
  consistent : BallotProtocol.Consistent s
  wellFormed : NominationProtocol.SetsWellFormed s.nominationProtocol

/-- How every operation moves a slot. -/
structure Moves (s s' : Slot N V H) : Prop where
  advances : BallotProtocol.Advances s s'
  grow : NominationProtocol.SetsGrow s.nominationProtocol s'.nominationProtocol

theorem Moves.refl (s : Slot N V H) : Moves s s :=
  ⟨.refl s, .refl _⟩

theorem Moves.trans {s₁ s₂ s₃ : Slot N V H} (h₁₂ : Moves s₁ s₂) (h₂₃ : Moves s₂ s₃) :
    Moves s₁ s₃ :=
  ⟨h₁₂.advances.trans h₂₃.advances, h₁₂.grow.trans h₂₃.grow⟩

instance : IsTrans (Slot N V H) Moves := ⟨fun _ _ _ => Moves.trans⟩

instance : Std.Refl (Moves : Slot N V H → Slot N V H → Prop) := ⟨Moves.refl⟩

/-- A move of the ballot protocol leaves the nomination sets as they are. -/
theorem sets_of_ballotStep {s s' : Slot N V H} (step : BallotProtocol.BallotStep s s') :
    NominationProtocol.sets s'.nominationProtocol = NominationProtocol.sets s.nominationProtocol := by
  rcases step.nomination with same | stopped
  · rw [same]
  · rw [stopped, NominationProtocol.sets_stopNomination]

/-- What keeps `Consistent` and moves along `BallotStep` keeps `Invariant` and `Moves`. -/
theorem steps_of_ballot {α : Type} {x : SlotM N V H α} {fail : SCPError → Prop}
    (steps : Steps BallotProtocol.Consistent BallotProtocol.BallotStep x fail) :
    Steps Invariant Moves x fail := by
  refine Steps.of_outcome fun s invariant => ?_
  refine (steps.outcome invariant.consistent).mono (fun _ s' moved => ?_) fun _ failed => failed
  obtain ⟨consistent', step⟩ := moved
  have same := sets_of_ballotStep step
  exact ⟨⟨consistent', NominationProtocol.setsWellFormed_of_sets same invariant.wellFormed⟩,
    ⟨step.toAdvances, NominationProtocol.setsGrow_of_sets same⟩⟩

/-- A change that leaves the ballot protocol and what was externalized alone advances. -/
theorem advances_of_ballot_eq {s s' : Slot N V H} (ballot : s'.ballotProtocol = s.ballotProtocol)
    (externalized : s'.externalized = s.externalized) : BallotProtocol.Advances s s' where
  phase_le := by rw [ballot]
  ballot_le _ b member := ⟨b, by rw [ballot]; exact member, le_refl b⟩
  values_fixed _ := by rw [ballot]
  lastEnvelope_newer := by rw [ballot]; exact .refl _
  latest_newer _ := by rw [ballot]; exact .refl _
  externalized_fixed _ := externalized

/-- A change of the nomination protocol and the emitted envelopes alone, whose sets stay well
formed and grow. -/
theorem invariant_moves_of_ballot_eq {s s' : Slot N V H} (invariant : Invariant s)
    (ballot : s'.ballotProtocol = s.ballotProtocol) (externalized : s'.externalized = s.externalized)
    (wellFormed : NominationProtocol.SetsWellFormed s'.nominationProtocol)
    (grow : NominationProtocol.SetsGrow s.nominationProtocol s'.nominationProtocol) :
    Invariant s' ∧ Moves s s' := by
  obtain ⟨⟨locked, length, externalizedNil⟩, -⟩ := invariant
  refine ⟨⟨⟨?_, externalized ▸ length, ?_⟩, wellFormed⟩,
    ⟨advances_of_ballot_eq ballot externalized, grow⟩⟩
  · rw [ballot]
    exact locked
  · rw [ballot, externalized]
    exact externalizedNil

/-- After a move, a change that keeps the ballot protocol, what was externalized and the
nomination sets. -/
theorem invariant_moves_of_same {s s₁ s₂ : Slot N V H} (invariant₁ : Invariant s₁)
    (moved : Moves s s₁) (ballot : s₂.ballotProtocol = s₁.ballotProtocol)
    (externalized : s₂.externalized = s₁.externalized)
    (same : NominationProtocol.sets s₂.nominationProtocol =
      NominationProtocol.sets s₁.nominationProtocol) : Invariant s₂ ∧ Moves s s₂ :=
  have next := invariant_moves_of_ballot_eq invariant₁ ballot externalized
    (NominationProtocol.setsWellFormed_of_sets same invariant₁.wellFormed) (NominationProtocol.setsGrow_of_sets same)
  ⟨next.1, moved.trans next.2⟩

/-- After a move, a change of the nomination protocol alone that keeps its sets well formed and
grows them. -/
theorem invariant_moves_of_grow {s s₁ : Slot N V H} (invariant₁ : Invariant s₁)
    (moved : Moves s s₁) {np : NominationProtocol N V H}
    (wellFormed : NominationProtocol.SetsWellFormed np)
    (grow : NominationProtocol.SetsGrow s₁.nominationProtocol np) :
    Invariant { s₁ with nominationProtocol := np } ∧ Moves s { s₁ with nominationProtocol := np } :=
  have next : Invariant { s₁ with nominationProtocol := np } ∧
      Moves s₁ { s₁ with nominationProtocol := np } :=
    invariant_moves_of_ballot_eq invariant₁ rfl rfl wellFormed grow
  ⟨next.1, moved.trans next.2⟩


end Slot

namespace NominationProtocol

open StateExcept Slot

variable {N V H : Type} [LinearOrder N] [LinearOrder V] [DecidableEq H]

omit [DecidableEq H] in
/-- Choosing the round leaders leaves the sets alone. -/
theorem updateRoundLeadersLoop_sets (scp : SCP N V H) (myQSet : SCPQuorumSet N)
    (maxLeaderCount : Nat) : ∀ (fuel : Nat) {np np' : NominationProtocol N V H},
      updateRoundLeadersLoop scp myQSet maxLeaderCount fuel np = .ok np' →
        sets np' = sets np
  | 0, _, _, chosen => by simp [updateRoundLeadersLoop] at chosen
  | fuel + 1, np, np', chosen => by
      rw [updateRoundLeadersLoop] at chosen
      split at chosen
      · split at chosen
        · simp at chosen
        · dsimp only at chosen
          split at chosen
          · rw [← Except.ok.inj chosen]
            rfl
          · -- the next round changes only the round number
            have later := updateRoundLeadersLoop_sets scp myQSet maxLeaderCount fuel chosen
            exact later
      · rw [← Except.ok.inj chosen]

/-- The votes for the values of the round leaders keep the sets well formed and grow them. -/
theorem leaderVotes_step (scp : SCP N V H) : ∀ (leaders : List N) {np np' : NominationProtocol N V H}
    {updated : Bool}, SetsWellFormed np →
      leaderVotes scp np leaders = .ok (updated, np') →
        SetsStep np np'
  | [], np, np', _, wellFormed, voted => by
      rw [leaderVotes] at voted
      cases voted
      exact .refl wellFormed
  | leader :: rest, np, np', _, wellFormed, voted => by
      rw [leaderVotes] at voted
      split at voted
      · simp at voted
      · next vote _ =>
          -- a new vote, then the votes for the remaining leaders
          have first := SetsStep.insertVote wellFormed vote
          split at voted
          · simp at voted
          · next result later =>
              cases voted
              exact first.trans (leaderVotes_step scp rest first.wellFormed later)
      · exact leaderVotes_step scp rest wellFormed voted

/-! ## The nomination protocol -/

section Nomination

variable (scp : SCP N V H) (process : SCPStatement N V H → SlotM N V H EnvelopeState)
  (processSteps : ∀ st, Steps Invariant Moves (process st) fun _ => True)

include processSteps

theorem emitNomination_steps :
    Steps Invariant Moves (emitNomination scp process) fun _ => True := by
  refine Steps.of_outcome fun s invariant => ?_
  simp only [emitNomination, run_getNominationProtocol_bind]
  refine Outcome.bind ((processSteps _).outcome invariant) ?_
  rintro result s₁ ⟨invariant₁, moved₁⟩
  split
  · simp only [run_get_bind]
    split
    · simp only [run_modifyNominationProtocol_bind]
      split
      · simp only [run_emitEnvelope]
        exact invariant_moves_of_same invariant₁ moved₁ rfl rfl rfl
      · exact invariant_moves_of_same invariant₁ moved₁ rfl rfl rfl
    · exact ⟨invariant₁, moved₁⟩
  · trivial

theorem processEnvelope_steps (bumpState : V → Bool → SlotM N V H Bool)
    (bumpSteps : ∀ value force, Steps Invariant Moves (bumpState value force) fun _ => True)
    (st : SCPStatement N V H) :
    Steps Invariant Moves (processEnvelope scp process bumpState st)
      fun _ => True := by
  refine Steps.of_outcome fun s invariant => ?_
  rw [processEnvelope]
  split
  · trivial
  next nom _ =>
  simp -zeta only [run_getNominationProtocol_bind]
  split
  · exact ⟨invariant, .refl s⟩
  split
  · exact ⟨invariant, .refl s⟩
  have recorded : Outcome (fun _ s₁ => Invariant s₁ ∧ Moves s s₁) (fun _ => True)
      ((recordEnvelope st).run s) :=
    invariant_moves_of_same invariant (.refl s) rfl rfl rfl
  refine Outcome.bind recorded fun _ s₁ ⟨invariant₁, moved₁⟩ => ?_
  simp -zeta only [run_getNominationProtocol_bind]
  split
  swap
  · exact ⟨invariant₁, moved₁⟩
  obtain ⟨accepted, -⟩ := acceptVotes_step scp nom.votes invariant₁.wellFormed
  generalize acceptVotes scp s₁.nominationProtocol nom.votes = votesResult at accepted
  obtain ⟨modified, np₁⟩ := votesResult
  have promoted := promoteCandidates_step scp np₁.accepted accepted.wellFormed
    (List.Subset.refl _)
  generalize promoteCandidates scp np₁ np₁.accepted = candidatesResult at promoted
  obtain ⟨newCandidates, np₂⟩ := candidatesResult
  simp -zeta only [run_setNominationProtocol_bind]
  have votedSets := accepted.trans promoted
  obtain ⟨invariant₂, moved₂⟩ :=
    invariant_moves_of_grow invariant₁ moved₁ votedSets.wellFormed votedSets.toSetsGrow
  -- the two join points of the code: announce new candidates, and emit on a change first
  extract_lets announce finish
  have announced : ∀ (r : Unit) (s₃ : Slot N V H), Invariant s₃ → Moves s s₃ →
      Outcome (fun _ s' => Invariant s' ∧ Moves s s') (fun _ => True) ((announce r).run s₃) := by
    intro r s₃ invariant₃ moved₃
    simp only [announce]
    split
    · -- the composite is kept, then handed to the ballot protocol
      simp only [run_getNominationProtocol_bind, run_modifyNominationProtocol_bind]
      refine Outcome.bind ((bumpSteps _ false).outcome_after ?_) fun _ _ held => held
      exact invariant_moves_of_same invariant₃ moved₃ rfl rfl rfl
    · exact ⟨invariant₃, moved₃⟩
  have finished : ∀ (m : Bool) (s₃ : Slot N V H), Invariant s₃ → Moves s s₃ →
      Outcome (fun _ s' => Invariant s' ∧ Moves s s') (fun _ => True) ((finish m).run s₃) := by
    intro m s₃ invariant₃ moved₃
    simp only [finish]
    split
    · refine Outcome.bind ((emitNomination_steps scp process processSteps).outcome_after
        ⟨invariant₃, moved₃⟩) fun r s₄ held => announced r s₄ held.1 held.2
    · exact announced () s₃ invariant₃ moved₃
  split
  · -- a round leader's new value is voted for while there is no candidate
    simp -zeta only [run_liftExcept_bind]
    split
    swap
    · trivial
    split
    · next vote _ =>
        simp -zeta only [run_modifyNominationProtocol_bind, pure_bind]
        have ownVote := SetsStep.insertVote invariant₂.wellFormed vote
        obtain ⟨invariant₃, moved₃⟩ :=
          invariant_moves_of_grow invariant₂ moved₂ ownVote.wellFormed ownVote.toSetsGrow
        exact finished true _ invariant₃ moved₃
    · simp -zeta only [pure_bind]
      exact finished modified _ invariant₂ moved₂
  · simp -zeta only [pure_bind]
    exact finished modified _ invariant₂ moved₂

theorem nominate_steps (fuel : Nat) (value previousValue : V) (timedout : Bool) :
    Steps Invariant Moves
      (nominate scp process fuel value previousValue timedout) fun _ => True := by
  refine Steps.of_outcome fun s invariant => ?_
  rw [nominate]
  simp -zeta only [run_getNominationProtocol_bind]
  split
  · exact ⟨invariant, .refl s⟩
  -- what follows the count of timeouts
  extract_lets start
  have started : ∀ (r : Unit) (s₁ : Slot N V H), Invariant s₁ ∧ Moves s s₁ →
      Outcome (fun _ s' => Invariant s' ∧ Moves s s') (fun _ => True) ((start r).run s₁) := by
    rintro r s₁ ⟨invariant₁, moved₁⟩
    simp -zeta only [start, run_getNominationProtocol_bind]
    split
    · exact ⟨invariant₁, moved₁⟩
    dsimp only
    simp only [run_liftExcept_bind]
    split
    swap
    · trivial
    next np₁ chosen =>
    split
    swap
    · trivial
    next result voted =>
    obtain ⟨updated, np₂⟩ := result
    have rounds : sets np₁ = sets s₁.nominationProtocol := by
      -- a new round changes no set either
      have chosenSets := updateRoundLeadersLoop_sets scp _ _ fuel chosen
      exact chosenSets
    have leaders := leaderVotes_step scp _ (setsWellFormed_of_sets rounds invariant₁.wellFormed) voted
    -- the new sets, after the node's own vote or not, then the announcement of a change
    have after : ∀ {np₃ : NominationProtocol N V H}, SetsStep np₂ np₃ →
        Invariant { s₁ with nominationProtocol := np₃ } ∧
          Moves s { s₁ with nominationProtocol := np₃ } := fun step =>
      invariant_moves_of_grow invariant₁ moved₁ step.wellFormed
        ((setsGrow_of_sets rounds).trans (leaders.trans step).toSetsGrow)
    split
    · split
      · simp only [run_setNominationProtocol_bind]
        split
        · exact Outcome.bind ((emitNomination_steps scp process processSteps).outcome_after
            (after (.refl leaders.wellFormed))) fun _ _ held => held
        · exact after (.refl leaders.wellFormed)
      · -- a round leader with no votes votes for its own value
        simp only [run_setNominationProtocol_bind]
        split
        · exact Outcome.bind ((emitNomination_steps scp process processSteps).outcome_after
            (after (.insertVote leaders.wellFormed value))) fun _ _ held => held
        · exact after (.insertVote leaders.wellFormed value)
    · simp only [run_setNominationProtocol_bind]
      split
      · exact Outcome.bind ((emitNomination_steps scp process processSteps).outcome_after
          (after (.refl leaders.wellFormed))) fun _ _ held => held
      · exact after (.refl leaders.wellFormed)
  split
  · simp only [run_modifyNominationProtocol_bind]
    refine started () _ ?_
    exact invariant_moves_of_same invariant (.refl s) rfl rfl rfl
  · exact started () s ⟨invariant, .refl s⟩

end Nomination

end NominationProtocol

namespace Slot

open StateExcept

variable {N V H : Type} [LinearOrder N] [LinearOrder V] [DecidableEq H] (scp : SCP N V H)

/-- Errors end a run, so any error is allowed. -/
theorem ballotFails_any : BallotProtocol.BallotFails fun _ : SCPError => True :=
  ⟨trivial, trivial, trivial, trivial⟩

/-- A ballot statement goes to the ballot protocol, and what it emits comes back one level
deeper. -/
theorem processEnvelope_ballot_steps : ∀ (fuel : Nat) (st : SCPStatement N V H) (self : Bool),
    st.pledges.type ≠ .nominate →
      Steps BallotProtocol.Consistent BallotProtocol.BallotStep (processEnvelope scp fuel st self)
        fun _ => True
  | 0, _, _, _ => Steps.of_outcome fun _ _ => trivial
  | fuel + 1, st, self, ballot => by
      rw [processEnvelope]
      split
      · next nom pledges => simp [pledges, SCPPledges.type] at ballot
      · exact BallotProtocol.processEnvelope_steps scp _ ballotFails_any
          (fun st' ballot' => processEnvelope_ballot_steps fuel st' true ballot') fuel st self

/-- `Slot::processEnvelope` keeps `Invariant` and moves the slot along `Moves`, at every
depth: induction on the fuel, with the ballot protocol's lemmas for a ballot statement and the
nomination protocol's for a nomination. -/
theorem processEnvelope_steps : ∀ (fuel : Nat) (st : SCPStatement N V H) (self : Bool),
    Steps Invariant Moves (processEnvelope scp fuel st self) fun _ => True
  | 0, _, _ => Steps.of_outcome fun _ _ => trivial
  | fuel + 1, st, self => by
      have ballot : BallotProtocol.ProcessSteps (processEnvelope scp fuel · true) fun _ => True :=
        fun st' ballot' => processEnvelope_ballot_steps scp fuel st' true ballot'
      rw [processEnvelope]
      split
      · -- what the nomination protocol emits comes back one level deeper, and its composite goes
        -- to the ballot protocol
        exact NominationProtocol.processEnvelope_steps scp _
          (fun st' => processEnvelope_steps fuel st' true) _
          (fun value force => steps_of_ballot
            (BallotProtocol.bumpState_steps scp _ ballotFails_any ballot value force)) st
      · exact steps_of_ballot
          (BallotProtocol.processEnvelope_steps scp _ ballotFails_any ballot fuel st self)

theorem dbgAssert_steps (condition : Bool) :
    Steps Invariant Moves (dbgAssert condition : SlotM N V H Unit) fun _ => True := by
  refine Steps.of_outcome fun s invariant => ?_
  cases condition
  · trivial
  · exact ⟨invariant, .refl s⟩

/-- Every operation of the herder keeps `Invariant` and moves the slot along `Moves`. -/
theorem Operation.run_steps (fuel : Nat) :
    ∀ op : Operation N V H, Steps Invariant Moves (op.run scp fuel) fun _ => True
  | .receiveEnvelope st => Steps.bind (processEnvelope_steps scp fuel st false) fun _ => Steps.pure
  | .nominate value previousValue =>
      Steps.bind (dbgAssert_steps _) fun _ =>
        Steps.bind (NominationProtocol.nominate_steps scp _ (fun st => processEnvelope_steps scp fuel st true)
          fuel value previousValue false) fun _ => Steps.pure
  | .nominationTimerExpired value previousValue =>
      Steps.bind (NominationProtocol.nominate_steps scp _ (fun st => processEnvelope_steps scp fuel st true)
        fuel value previousValue true) fun _ => Steps.pure
  | .stopNomination => Steps.of_outcome fun s invariant =>
      invariant_moves_of_same invariant (.refl s) rfl rfl (NominationProtocol.sets_stopNomination _)
  | .bumpState value force =>
      Steps.bind (steps_of_ballot (BallotProtocol.bumpState_steps scp _ ballotFails_any
        (fun st ballot => processEnvelope_ballot_steps scp fuel st true ballot) value force))
        fun _ => Steps.pure
  | .abandonBallot =>
      Steps.bind (steps_of_ballot (BallotProtocol.abandonBallot_steps scp _ ballotFails_any
        (fun st ballot => processEnvelope_ballot_steps scp fuel st true ballot) 0))
        fun _ => Steps.pure
  | .ballotProtocolTimerExpired =>
      steps_of_ballot (BallotProtocol.ballotProtocolTimerExpired_steps scp _ ballotFails_any
        (fun st ballot => processEnvelope_ballot_steps scp fuel st true ballot))

theorem invariant_fresh : Invariant (Slot.fresh scp) where
  consistent := ⟨fun past => absurd rfl past, Nat.zero_le _, fun _ => rfl⟩
  wellFormed := ⟨.nil, .nil, .nil, List.Subset.refl _, List.Subset.refl _⟩

/-- One step of the herder keeps `Invariant` and moves the slot. -/
theorem Step.moves {s s' : Slot N V H} (invariant : Invariant s) (step : Step scp s s') :
    Invariant s' ∧ Moves s s' := by
  obtain ⟨op, fuel, -, run⟩ := step
  have moved := (Operation.run_steps scp fuel op).outcome invariant
  rw [run] at moved
  exact moved

theorem Reachable.invariant {s : Slot N V H} (reachable : Reachable scp s) : Invariant s := by
  induction reachable with
  | fresh => exact invariant_fresh scp
  | step _ step before => exact (Step.moves scp before step).1

/-- A run of steps from a slot that keeps `Invariant` moves it along `Moves`. -/
theorem run_moves {s s' : Slot N V H} (invariant : Invariant s)
    (run : Relation.ReflTransGen (Step scp) s s') : Invariant s' ∧ Moves s s' := by
  induction run with
  | refl => exact ⟨invariant, .refl s⟩
  | tail _ step before =>
      obtain ⟨invariant', moved⟩ := before
      obtain ⟨invariant'', moved'⟩ := Step.moves scp invariant' step
      exact ⟨invariant'', moved.trans moved'⟩

/-! ## Over every run -/

/-- A validator `1` alone in its quorum set, with a driver that accepts every value. -/
def soloValidator : SCP Nat Nat Nat :=
  ⟨⟨fun _ => none, fun _ _ => .fullyValidatedValue, fun _ => none, fun _ => 0, fun _ _ _ _ => 0,
    fun _ _ _ => 0, fun _ _ _ => 0⟩, ⟨1, true, ⟨1, [1], []⟩, 0⟩, 0⟩

end Slot

end StellarCore.Scp
