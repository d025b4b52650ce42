import StellarCore.Scp.Slot
import StellarCore.Lib.Except
import StellarCore.Lib.Lex

/-!
# The ballot protocol moves forward

`isNewerStatement` is a strict partial order: between statements of one type it compares
`(b, p, p', h.n)` or `(b, p.n, h.n)` lexicographically, and a later type is newer.

What every function of the ballot protocol keeps (`Consistent`) and how it moves the slot
(`BallotStep`) are stated once here and proved for each function, from the innermost up to
`processEnvelope`. The statement a function emits is processed by `process` before the
function goes on, so every proof takes as a hypothesis that `process` keeps `Consistent` and
moves along `BallotStep` on the statements the ballot protocol builds; `Scp.SlotProgress`
discharges it by induction on the fuel.

* `Consistent`: once past PREPARE, `b`, `h` and `c` are set and share one value, the value
  `z` remembers; only EXTERNALIZE has externalized a value, and at most one.
* `Advances`: the phase never goes back; while the phase stays PREPARE, `b` never decreases;
  once past PREPARE, the values of `b`, `p`, `h` and `c` never change; the last envelope and
  every node's latest statement only move to newer statements; once externalized, the list
  of externalized values stays as it is.
* `BallotStep`: `Advances`, and the nomination protocol is untouched or stopped.

`b` may decrease in the step that leaves PREPARE: `setAcceptCommit` moves `b` to `h` without
the check that `b` only grows, and `h` may be below `b`.
-/

set_option autoImplicit false
set_option linter.unusedSectionVars false

namespace StellarCore.Scp

namespace BallotProtocol

open StateExcept

/-! ## The order of statements -/

section Order

variable {N V H : Type} [LinearOrder V]

theorem compareBallots_cases (b b' : SCPBallot V) :
    compareBallots b b' = .lt ∧ b < b' ∨ compareBallots b b' = .eq ∧ b = b' ∨
      compareBallots b b' = .gt ∧ b' < b := by
  rcases lt_trichotomy b b' with below | same | above
  · exact .inl ⟨compareBallots_eq_lt.2 below, below⟩
  · exact .inr (.inl ⟨compareBallots_eq_eq.2 same, same⟩)
  · exact .inr (.inr ⟨compareBallots_eq_gt.2 above, above⟩)

theorem compareOptBallots_cases (p p' : Option (SCPBallot V)) :
    compareOptBallots p p' = .lt ∧ p < p' ∨ compareOptBallots p p' = .eq ∧ p = p' ∨
      compareOptBallots p p' = .gt ∧ p' < p := by
  cases p with
  | none => cases p' <;> simp [compareOptBallots]
  | some b =>
      cases p' with
      | none => simp [compareOptBallots]
      | some b' =>
          simp only [compareOptBallots, Option.some_lt_some, Option.some.injEq]
          exact compareBallots_cases b b'

theorem optBallot_lt_asymm {p p' : Option (SCPBallot V)} (above : p' < p) : ¬p < p' ∧ p ≠ p' :=
  ⟨fun below => OptionOrder.not_lt_self p (OptionOrder.lt_of_lt_lt below above),
    fun same => OptionOrder.not_lt_self p (same ▸ above)⟩

/-- One level of the comparison `isNewerStatement` makes: below, or equal and newer on the
rest. -/
def orderedThen (o : Ordering) (rest : Bool) : Bool :=
  match o with
  | .lt => true
  | .eq => rest
  | .gt => false

theorem orderedThen_iff {α : Type} [LT α] {a b : α} {o : Ordering} {rest : Bool} {R : Prop}
    (order : o = .lt ∧ a < b ∨ o = .eq ∧ a = b ∨ o = .gt ∧ b < a)
    (asymm : b < a → ¬a < b ∧ a ≠ b) (restIff : a = b → (rest = true ↔ R)) :
    orderedThen o rest = true ↔ a < b ∨ a = b ∧ R := by
  rcases order with ⟨rfl, below⟩ | ⟨rfl, same⟩ | ⟨rfl, above⟩
  · simp [orderedThen, below]
  · subst same
    have irrefl : ¬a < a := fun below => (asymm below).1 below
    simp [orderedThen, irrefl, restIff rfl]
  · simp [orderedThen, (asymm above).1, (asymm above).2]

/-- `isNewerStatement` between two statements of one type. -/
def NewerSameType : SCPPledges V H → SCPPledges V H → Prop
  | .prepare _ b p pp _ h, .prepare _ b' p' pp' _ h' =>
      b < b' ∨ b = b' ∧ (p < p' ∨ p = p' ∧ (pp < pp' ∨ pp = pp' ∧ h < h'))
  | .confirm b p _ h _, .confirm b' p' _ h' _ => b < b' ∨ b = b' ∧ (p < p' ∨ p = p' ∧ h < h')
  | _, _ => False

theorem newerSameType_trans {p₁ p₂ p₃ : SCPPledges V H} (h₁₂ : NewerSameType p₁ p₂)
    (h₂₃ : NewerSameType p₂ p₃) : NewerSameType p₁ p₃ := by
  cases p₁ <;> cases p₂ <;> cases p₃ <;> simp only [NewerSameType] at h₁₂ h₂₃ ⊢
  case prepare.prepare.prepare =>
    exact LexOrder.trans_step lt_trans (LexOrder.trans_step OptionOrder.lt_of_lt_lt
      (LexOrder.trans_step OptionOrder.lt_of_lt_lt Nat.lt_trans)) h₁₂ h₂₃
  case confirm.confirm.confirm =>
    exact LexOrder.trans_step lt_trans (LexOrder.trans_step Nat.lt_trans Nat.lt_trans) h₁₂ h₂₃

theorem newerSameType_irrefl (p : SCPPledges V H) : ¬NewerSameType p p := by
  cases p with
  | prepare _ ballot prepared preparedPrime _ nH =>
      exact LexOrder.irrefl_step (lt_irrefl ballot) (LexOrder.irrefl_step
        (OptionOrder.not_lt_self prepared) (LexOrder.irrefl_step
          (OptionOrder.not_lt_self preparedPrime) (Nat.lt_irrefl nH)))
  | confirm ballot nPrepared _ nH _ =>
      exact LexOrder.irrefl_step (lt_irrefl ballot) (LexOrder.irrefl_step
        (Nat.lt_irrefl nPrepared) (Nat.lt_irrefl nH))
  | externalize => exact id
  | nominate => exact id

/-- `isNewerStatement` is lexicographic: first by type, then within the type. -/
theorem isNewerStatement_iff {st st' : SCPStatement N V H} :
    isNewerStatement st st' = true ↔ st.pledges.type.toNat < st'.pledges.type.toNat ∨
      st.pledges.type.toNat = st'.pledges.type.toNat ∧ NewerSameType st.pledges st'.pledges := by
  obtain ⟨n, p⟩ := st
  obtain ⟨n', p'⟩ := st'
  cases p <;> cases p' <;>
    simp [isNewerStatement, SCPPledges.type, SCPStatementType.toNat, NewerSameType]
  case prepare.prepare b p pp _ h _ b' p' pp' _ h' =>
    exact orderedThen_iff (compareBallots_cases b b') (fun above => ⟨not_lt.mpr above.le, above.ne'⟩)
      fun _ => orderedThen_iff (compareOptBallots_cases p p') optBallot_lt_asymm
        fun _ => orderedThen_iff (compareOptBallots_cases pp pp') optBallot_lt_asymm
          fun _ => by simp
  case confirm.confirm b p _ h _ b' p' _ h' _ =>
    refine orderedThen_iff (compareBallots_cases b b') (fun above => ⟨not_lt.mpr above.le, above.ne'⟩)
      fun _ => ?_
    by_cases same : p = p' <;> simp [same]

theorem isNewerStatement_irrefl (st : SCPStatement N V H) : isNewerStatement st st = false := by
  rw [← Bool.not_eq_true, isNewerStatement_iff]
  exact LexOrder.irrefl_step (Nat.lt_irrefl _) (newerSameType_irrefl st.pledges)

theorem isNewerStatement_trans {st₁ st₂ st₃ : SCPStatement N V H}
    (h₁₂ : isNewerStatement st₁ st₂ = true) (h₂₃ : isNewerStatement st₂ st₃ = true) :
    isNewerStatement st₁ st₃ = true := by
  rw [isNewerStatement_iff] at h₁₂ h₂₃ ⊢
  exact LexOrder.trans_step Nat.lt_trans newerSameType_trans h₁₂ h₂₃

/-- A latest statement only moves to a newer one. -/
def NewerOrSame (old new : Option (SCPStatement N V H)) : Prop :=
  new = old ∨ ∃ st, new = some st ∧ ∀ o ∈ old, isNewerStatement o st = true

theorem NewerOrSame.refl (o : Option (SCPStatement N V H)) : NewerOrSame o o := .inl rfl

theorem NewerOrSame.trans {o₁ o₂ o₃ : Option (SCPStatement N V H)} (h₁₂ : NewerOrSame o₁ o₂)
    (h₂₃ : NewerOrSame o₂ o₃) : NewerOrSame o₁ o₃ := by
  rcases h₂₃ with rfl | ⟨st₃, rfl, newer₃⟩
  · exact h₁₂
  · rcases h₁₂ with rfl | ⟨st₂, rfl, newer₂⟩
    · exact .inr ⟨st₃, rfl, newer₃⟩
    · exact .inr ⟨st₃, rfl, fun o member =>
        isNewerStatement_trans (newer₂ o member) (newer₃ st₂ rfl)⟩

theorem NewerOrSame.of_newer {old : Option (SCPStatement N V H)} {st : SCPStatement N V H}
    (newer : old.all (fun o => isNewerStatement o st) = true) : NewerOrSame old (some st) :=
  .inr ⟨st, rfl, fun o member => by
    rw [Option.mem_def] at member
    simpa [member] using newer⟩

end Order

/-! ## What the ballot protocol keeps, and how it moves -/

section Progress

variable {N V H : Type} [LinearOrder N] [LinearOrder V] [DecidableEq H]

theorem SCPPhase.eq_prepare_of_toNat_le {p q : SCPPhase} (le : p.toNat ≤ q.toNat)
    (prepare : q = .prepare) : p = .prepare := by
  subst prepare
  cases p <;> simp_all [SCPPhase.toNat]

theorem SCPPhase.ne_prepare_of_toNat_le {p q : SCPPhase} (le : p.toNat ≤ q.toNat)
    (past : p ≠ .prepare) : q ≠ .prepare := fun prepare =>
  past (SCPPhase.eq_prepare_of_toNat_le le prepare)

theorem SCPPhase.eq_externalize_of_toNat_le {p q : SCPPhase} (le : p.toNat ≤ q.toNat)
    (externalize : p = .externalize) : q = .externalize := by
  subst externalize
  cases q <;> simp_all [SCPPhase.toNat]

/-- The values of `b`, `p`, `h` and `c`. -/
def ballotValues (bp : BallotProtocol N V H) : Option V × Option V × Option V × Option V :=
  (bp.currentBallot.map (·.value), bp.prepared.map (·.value), bp.highBallot.map (·.value),
    bp.commit.map (·.value))

/-- `b`, `h` and `c` are set to the value `v`, and `z` remembers it. -/
def LockedTo (bp : BallotProtocol N V H) (v : V) : Prop :=
  bp.currentBallot.map (·.value) = some v ∧ bp.highBallot.map (·.value) = some v ∧
    bp.commit.map (·.value) = some v ∧ bp.valueOverride = some v

/-- What the ballot protocol keeps between its steps. -/
structure Consistent (s : Slot N V H) : Prop where
  locked : s.ballotProtocol.phase ≠ .prepare → ∃ v, LockedTo s.ballotProtocol v
  externalized_length : s.externalized.length ≤ 1
  externalized_nil : s.ballotProtocol.phase ≠ .externalize → s.externalized = []

/-- How the ballot protocol moves a slot forward. -/
structure Advances (s s' : Slot N V H) : Prop where
  phase_le : s.ballotProtocol.phase.toNat ≤ s'.ballotProtocol.phase.toNat
  ballot_le : (s.ballotProtocol.phase = .prepare → s'.ballotProtocol.phase = .prepare) →
    ∀ b ∈ s.ballotProtocol.currentBallot, ∃ b' ∈ s'.ballotProtocol.currentBallot, b ≤ b'
  values_fixed : s.ballotProtocol.phase ≠ .prepare →
    ballotValues s'.ballotProtocol = ballotValues s.ballotProtocol
  lastEnvelope_newer : NewerOrSame s.ballotProtocol.lastEnvelope s'.ballotProtocol.lastEnvelope
  latest_newer : ∀ nodeID, NewerOrSame (SortedMap.lookup nodeID s.ballotProtocol.latestEnvelopes)
    (SortedMap.lookup nodeID s'.ballotProtocol.latestEnvelopes)
  externalized_fixed : s.ballotProtocol.phase = .externalize → s'.externalized = s.externalized

/-- A move of the ballot protocol: it advances, and it leaves the nomination protocol alone
or stops it. -/
structure BallotStep (s s' : Slot N V H) : Prop extends Advances s s' where
  nomination : s'.nominationProtocol = s.nominationProtocol ∨
    s'.nominationProtocol = s.nominationProtocol.stopNomination

theorem Advances.refl (s : Slot N V H) : Advances s s where
  phase_le := le_refl _
  ballot_le _ b member := ⟨b, member, le_refl b⟩
  values_fixed _ := rfl
  lastEnvelope_newer := .refl _
  latest_newer _ := .refl _
  externalized_fixed _ := rfl

theorem Advances.trans {s₁ s₂ s₃ : Slot N V H} (h₁₂ : Advances s₁ s₂) (h₂₃ : Advances s₂ s₃) :
    Advances s₁ s₃ where
  phase_le := h₁₂.phase_le.trans h₂₃.phase_le
  ballot_le stays b member := by
    -- a run that does not leave PREPARE has no step that does
    have stays₁₂ (prepare : s₁.ballotProtocol.phase = .prepare) : s₂.ballotProtocol.phase = .prepare :=
      SCPPhase.eq_prepare_of_toNat_le h₂₃.phase_le (stays prepare)
    have stays₂₃ (prepare : s₂.ballotProtocol.phase = .prepare) : s₃.ballotProtocol.phase = .prepare :=
      stays (SCPPhase.eq_prepare_of_toNat_le h₁₂.phase_le prepare)
    obtain ⟨b₂, member₂, le₂⟩ := h₁₂.ballot_le stays₁₂ b member
    obtain ⟨b₃, member₃, le₃⟩ := h₂₃.ballot_le stays₂₃ b₂ member₂
    exact ⟨b₃, member₃, le₂.trans le₃⟩
  values_fixed past := (h₂₃.values_fixed (SCPPhase.ne_prepare_of_toNat_le h₁₂.phase_le past)).trans
    (h₁₂.values_fixed past)
  lastEnvelope_newer := h₁₂.lastEnvelope_newer.trans h₂₃.lastEnvelope_newer
  latest_newer nodeID := (h₁₂.latest_newer nodeID).trans (h₂₃.latest_newer nodeID)
  externalized_fixed externalize :=
    (h₂₃.externalized_fixed (SCPPhase.eq_externalize_of_toNat_le h₁₂.phase_le externalize)).trans
      (h₁₂.externalized_fixed externalize)

theorem BallotStep.refl (s : Slot N V H) : BallotStep s s :=
  { Advances.refl s with nomination := .inl rfl }

theorem BallotStep.trans {s₁ s₂ s₃ : Slot N V H} (h₁₂ : BallotStep s₁ s₂) (h₂₃ : BallotStep s₂ s₃) :
    BallotStep s₁ s₃ :=
  { h₁₂.toAdvances.trans h₂₃.toAdvances with
    nomination := by
      -- stopping twice is stopping once
      rcases h₁₂.nomination with same | stopped <;> rcases h₂₃.nomination with same' | stopped'
      · exact .inl (same'.trans same)
      · exact .inr (stopped'.trans (congrArg _ same))
      · exact .inr (same'.trans stopped)
      · exact .inr (by rw [stopped', stopped]; rfl) }

instance : IsTrans (Slot N V H) BallotStep := ⟨fun _ _ _ => BallotStep.trans⟩

/-- The parts of a slot that `Consistent` and `BallotStep` read. -/
def core (s : Slot N V H) :=
  (s.ballotProtocol.phase, s.ballotProtocol.currentBallot, s.ballotProtocol.prepared,
    s.ballotProtocol.highBallot, s.ballotProtocol.commit, s.ballotProtocol.valueOverride,
    s.ballotProtocol.lastEnvelope, s.ballotProtocol.latestEnvelopes, s.externalized,
    s.nominationProtocol)

/-- What only the envelopes a slot processes, and externalizing, change. -/
def envelopes (s : Slot N V H) :=
  (s.ballotProtocol.lastEnvelope, s.ballotProtocol.latestEnvelopes, s.externalized,
    s.nominationProtocol)

theorem Consistent.of_core {s s' : Slot N V H} (same : core s' = core s) (consistent : Consistent s) :
    Consistent s' := by
  simp only [core, Prod.mk.injEq] at same
  obtain ⟨phase, ballot, -, high, commit, override, -, -, externalized, -⟩ := same
  refine ⟨fun past => ?_, ?_, fun notExternalize => ?_⟩
  · obtain ⟨v, locked⟩ := consistent.locked (phase ▸ past)
    exact ⟨v, by simpa only [LockedTo, ballot, high, commit, override] using locked⟩
  · exact externalized ▸ consistent.externalized_length
  · exact externalized ▸ consistent.externalized_nil (phase ▸ notExternalize)

theorem BallotStep.of_core {s s' : Slot N V H} (same : core s' = core s) : BallotStep s s' := by
  simp only [core, Prod.mk.injEq] at same
  obtain ⟨phase, ballot, prepared, high, commit, -, last, latest, externalized, nomination⟩ := same
  refine ⟨⟨?_, ?_, ?_, ?_, ?_, ?_⟩, .inl nomination⟩
  · exact phase ▸ le_refl _
  · exact fun _ b member => ⟨b, ballot ▸ member, le_refl b⟩
  · exact fun _ => by simp only [ballotValues, ballot, prepared, high, commit]
  · exact last ▸ .refl _
  · exact fun nodeID => latest ▸ .refl _
  · exact fun _ => externalized

/-! ## Moving `b` -/

/-- The ballot protocol after `bumpToBallot` has moved `b` to `ballot`. -/
def bumpedTo (bp : BallotProtocol N V H) (ballot : SCPBallot V) : BallotProtocol N V H :=
  let keepHigh := bp.highBallot.all (areBallotsCompatible ballot)
  { bp with
    currentBallot := some ballot
    highBallot := if keepHigh then bp.highBallot else none
    commit := if keepHigh then bp.commit else none
    heardFromQuorum :=
      if bp.currentBallot.all (fun b => b.counter != ballot.counter) then false
      else bp.heardFromQuorum }

theorem bumpToBallot_run (ballot : SCPBallot V) (check : Bool) (s : Slot N V H) :
    (bumpToBallot ballot check : SlotM N V H Unit).run s =
      if s.ballotProtocol.phase ≠ .externalize ∧
          (check = true → ∀ b ∈ s.ballotProtocol.currentBallot, b ≤ ballot) then
        .ok ((), { s with ballotProtocol := bumpedTo s.ballotProtocol ballot })
      else .error .abort := by
  simp only [bumpToBallot, run_getBallotProtocol_bind, run_dbgAssert_bind]
  by_cases externalize : s.ballotProtocol.phase = .externalize
  · simp [externalize]
  cases check with
  | false => simp only [externalize, bne_iff_ne, ne_eq, not_false_eq_true, if_true]; rfl
  | true =>
      simp only [externalize, bne_iff_ne, ne_eq, not_false_eq_true, if_true, run_dbgAssert_bind,
        forall_const]
      have grows : (s.ballotProtocol.currentBallot.all fun b => compareBallots ballot b != .lt) = true ↔
          ∀ b ∈ s.ballotProtocol.currentBallot, b ≤ ballot := by
        cases s.ballotProtocol.currentBallot <;> simp
      by_cases grown : ∀ b ∈ s.ballotProtocol.currentBallot, b ≤ ballot
      · rw [if_pos (grows.mpr grown), if_pos ⟨trivial, grown⟩]
        rfl
      · rw [if_neg (mt grows.mp grown), if_neg fun held => grown held.2]

/-- Past PREPARE, a bump to the locked value keeps the lock and every value. -/
theorem lockedTo_bumpedTo {bp : BallotProtocol N V H} {v : V} {ballot : SCPBallot V}
    (locked : LockedTo bp v) (value : ballot.value = v) :
    LockedTo (bumpedTo bp ballot) v ∧ ballotValues (bumpedTo bp ballot) = ballotValues bp := by
  obtain ⟨current, high, commit, override⟩ := locked
  cases highBallot : bp.highBallot with
  | none => simp [highBallot] at high
  | some h =>
      have keep : areBallotsCompatible ballot h = true := by
        simp only [highBallot, Option.map_some, Option.some.injEq] at high
        simp [value, high]
      simp only [LockedTo, ballotValues, bumpedTo, highBallot, Option.all_some, keep, if_true]
      simp only [highBallot] at high
      exact ⟨⟨by simp [value], high, commit, override⟩, by simp [value, current]⟩

/-- A bump that does not decrease `b` and, past PREPARE, keeps its value. -/
theorem bumpedTo_step {s : Slot N V H} {ballot : SCPBallot V} (consistent : Consistent s)
    (grows : ∀ b ∈ s.ballotProtocol.currentBallot, b ≤ ballot)
    (value : ∀ v, s.ballotProtocol.phase ≠ .prepare → LockedTo s.ballotProtocol v → ballot.value = v) :
    Consistent { s with ballotProtocol := bumpedTo s.ballotProtocol ballot } ∧
      BallotStep s { s with ballotProtocol := bumpedTo s.ballotProtocol ballot } := by
  refine ⟨⟨fun past => ?_, consistent.externalized_length, consistent.externalized_nil⟩,
    ⟨⟨le_refl _, fun _ b member => ⟨ballot, rfl, grows b member⟩, fun past => ?_, .refl _,
      fun _ => .refl _, fun _ => rfl⟩, .inl rfl⟩⟩
  · obtain ⟨v, locked⟩ := consistent.locked past
    exact ⟨v, (lockedTo_bumpedTo locked (value v past locked)).1⟩
  · obtain ⟨v, locked⟩ := consistent.locked past
    exact (lockedTo_bumpedTo locked (value v past locked)).2

theorem checkInvariants_run (s : Slot N V H) :
    (checkInvariants : SlotM N V H Unit).run s =
      if invariantsHold s.ballotProtocol then .ok ((), s) else .error .abort := by
  simp only [checkInvariants, run_getBallotProtocol_bind, run_dbgAssert]

theorem updateCurrentIfNeeded_run (h : SCPBallot V) (s : Slot N V H) :
    (updateCurrentIfNeeded h : SlotM N V H Bool).run s =
      if s.ballotProtocol.currentBallot.all fun b => compareBallots b h == .lt then
        if s.ballotProtocol.phase ≠ .externalize then
          .ok (true, { s with ballotProtocol := bumpedTo s.ballotProtocol h })
        else .error .abort
      else .ok (false, s) := by
  simp only [updateCurrentIfNeeded, run_getBallotProtocol_bind]
  split
  · rename_i below
    have grows : ∀ b ∈ s.ballotProtocol.currentBallot, b ≤ h := by
      intro b member
      rw [Option.mem_def] at member
      simp only [member, Option.all_some, beq_iff_eq, compareBallots_eq_lt] at below
      exact below.le
    by_cases externalize : s.ballotProtocol.phase = .externalize
    · simp [bumpToBallot_run, externalize]
    · simp only [StateT.run_bind, bumpToBallot_run, if_pos (And.intro externalize fun _ => grows),
        Except.ok_bind, if_pos externalize]
      rfl
  · rfl

/-- Changing `p` and `p'`: past PREPARE, `p` keeps its value. -/
theorem prepared_step {s : Slot N V H} {ballot : SCPBallot V} {preparedPrime : Option (SCPBallot V)}
    (consistent : Consistent s)
    (value : s.ballotProtocol.phase ≠ .prepare →
      s.ballotProtocol.prepared.map (·.value) = some ballot.value) :
    Consistent { s with ballotProtocol :=
        { s.ballotProtocol with prepared := some ballot, preparedPrime := preparedPrime } } ∧
      BallotStep s { s with ballotProtocol :=
        { s.ballotProtocol with prepared := some ballot, preparedPrime := preparedPrime } } :=
  ⟨⟨consistent.locked, consistent.externalized_length, consistent.externalized_nil⟩,
    ⟨⟨le_refl _, fun _ b member => ⟨b, member, le_refl b⟩,
      fun past => by simp [ballotValues, value past], .refl _, fun _ => .refl _, fun _ => rfl⟩,
      .inl rfl⟩⟩

/-- Recording a statement newer than its node's latest. -/
theorem recorded_step {s : Slot N V H} {st : SCPStatement N V H} (consistent : Consistent s)
    (newer : isNewerThanLatest s.ballotProtocol.latestEnvelopes st = true) :
    Consistent { s with ballotProtocol := { s.ballotProtocol with
        latestEnvelopes := SortedMap.upsert st.nodeID st s.ballotProtocol.latestEnvelopes } } ∧
      BallotStep s { s with ballotProtocol := { s.ballotProtocol with
        latestEnvelopes := SortedMap.upsert st.nodeID st s.ballotProtocol.latestEnvelopes } } := by
  refine ⟨⟨consistent.locked, consistent.externalized_length, consistent.externalized_nil⟩,
    ⟨⟨le_refl _, fun _ b member => ⟨b, member, le_refl b⟩, fun _ => rfl, .refl _,
      fun nodeID => ?_, fun _ => rfl⟩, .inl rfl⟩⟩
  by_cases same : nodeID = st.nodeID
  · subst same
    simp only [SortedMap.lookup_upsert_self]
    refine .of_newer ?_
    unfold isNewerThanLatest at newer
    cases latest : SortedMap.lookup st.nodeID s.ballotProtocol.latestEnvelopes <;>
      simp_all
  · simp only [SortedMap.lookup_upsert_of_ne _ _ (Ne.symm same)]
    exact .refl _

section Leaves

variable {fail : SCPError → Prop}

/-- `updateCurrentValue` only raises `b`, to a ballot of the locked value past PREPARE. -/
theorem updateCurrentValue_outcome {s : Slot N V H} {ballot : SCPBallot V} (aborting : fail .abort)
    (consistent : Consistent s)
    (value : ∀ v, s.ballotProtocol.phase ≠ .prepare → LockedTo s.ballotProtocol v → ballot.value = v) :
    Outcome (fun _ s' => Consistent s' ∧ BallotStep s s') fail ((updateCurrentValue ballot).run s) := by
  simp only [updateCurrentValue, run_getBallotProtocol_bind]
  split
  · exact ⟨consistent, BallotStep.refl s⟩
  rename_i active
  have notExternalize : s.ballotProtocol.phase ≠ .externalize := by
    rintro externalize
    simp [externalize] at active
  -- both bumps of `updateCurrentValue` raise `b` to `ballot` and then check the invariants
  have bump (grows : ∀ b ∈ s.ballotProtocol.currentBallot, b ≤ ballot) :
      Outcome (fun _ s' => Consistent s' ∧ BallotStep s s') fail
        ((do bumpToBallot ballot true; checkInvariants; pure true : SlotM N V H Bool).run s) := by
    simp only [StateT.run_bind, bumpToBallot_run, if_pos (And.intro notExternalize fun _ => grows),
      Except.ok_bind, checkInvariants_run]
    split
    · exact bumpedTo_step consistent grows value
    · exact aborting
  cases current : s.ballotProtocol.currentBallot with
  | none => exact bump (by simp [current])
  | some b =>
      simp only [run_dbgAssert_bind]
      split
      · split
        · exact ⟨consistent, BallotStep.refl s⟩
        rcases compareBallots_cases b ballot with ⟨order, below⟩ | ⟨order, rfl⟩ | ⟨order, above⟩
        · simp only [order]
          exact bump (by simp [current, below.le])
        · simp only [order, StateT.run_bind, checkInvariants_run]
          split
          · exact ⟨consistent, BallotStep.refl s⟩
          · exact aborting
        · simp only [order]
          exact ⟨consistent, BallotStep.refl s⟩
      · exact aborting

/-- `updateCurrentIfNeeded` only raises `b`, to `h`, which past PREPARE has the locked value. -/
theorem updateCurrentIfNeeded_outcome {s : Slot N V H} {h : SCPBallot V} (aborting : fail .abort)
    (consistent : Consistent s)
    (value : ∀ v, s.ballotProtocol.phase ≠ .prepare → LockedTo s.ballotProtocol v → h.value = v) :
    Outcome (fun _ s' => Consistent s' ∧ BallotStep s s') fail ((updateCurrentIfNeeded h).run s) := by
  rw [updateCurrentIfNeeded_run]
  split
  · rename_i below
    split
    · refine bumpedTo_step consistent (fun b member => ?_) value
      rw [Option.mem_def] at member
      simp only [member, Option.all_some, beq_iff_eq, compareBallots_eq_lt] at below
      exact below.le
    · exact aborting
  · exact ⟨consistent, .refl s⟩

/-- With `h` and `c` set to `h`'s value, and `b` at most of another value below `h`,
`updateCurrentIfNeeded h` locks everything to `h`'s value. -/
theorem updateCurrentIfNeeded_locks {s : Slot N V H} {c h : SCPBallot V}
    (active : s.ballotProtocol.phase ≠ .externalize) (high : s.ballotProtocol.highBallot = some h)
    (commit : s.ballotProtocol.commit = some c) (sameValue : c.value = h.value)
    (override : s.ballotProtocol.valueOverride = some h.value)
    (current : ∀ b ∈ s.ballotProtocol.currentBallot, b.value = h.value) :
    Outcome (fun _ s' => LockedTo s'.ballotProtocol h.value ∧
        s'.ballotProtocol.phase = s.ballotProtocol.phase ∧
        s'.ballotProtocol.prepared = s.ballotProtocol.prepared ∧
        (∀ b ∈ s.ballotProtocol.currentBallot, ∃ b' ∈ s'.ballotProtocol.currentBallot, b ≤ b') ∧
        envelopes s' = envelopes s) fail
      ((updateCurrentIfNeeded h).run s) := by
  rw [updateCurrentIfNeeded_run, if_pos active]
  split
  · rename_i below
    refine ⟨?_, rfl, rfl, fun b member => ⟨h, rfl, ?_⟩, rfl⟩
    · simp [LockedTo, bumpedTo, high, commit, sameValue, override]
    · rw [Option.mem_def] at member
      simp only [member, Option.all_some, beq_iff_eq, compareBallots_eq_lt] at below
      exact below.le
  · rename_i notBelow
    refine ⟨⟨?_, by simp [high], by simp [commit, sameValue], override⟩, rfl, rfl,
      fun b member => ⟨b, member, le_refl b⟩, rfl⟩
    cases currentBallot : s.ballotProtocol.currentBallot with
    | none => simp [currentBallot] at notBelow
    | some b => simp [current b currentBallot]

/-- `setPrepared` past PREPARE only raises `p` within its value. -/
theorem setPrepared_outcome {s : Slot N V H} {ballot : SCPBallot V} (consistent : Consistent s)
    (value : s.ballotProtocol.phase ≠ .prepare →
      ∃ p, s.ballotProtocol.prepared = some p ∧ p.value = ballot.value) :
    Outcome (fun _ s' => Consistent s' ∧ BallotStep s s') fail ((setPrepared ballot).run s) := by
  simp only [setPrepared, run_getBallotProtocol_bind]
  split
  · rename_i p prepared
    have kept (past : s.ballotProtocol.phase ≠ .prepare) :
        s.ballotProtocol.prepared.map (·.value) = some ballot.value := by
      obtain ⟨p', same, sameValue⟩ := value past
      simp [same, sameValue]
    rcases compareBallots_cases p ballot with ⟨order, -⟩ | ⟨order, -⟩ | ⟨order, -⟩
    · simp only [order, run_modifyBallotProtocol_bind]
      exact prepared_step consistent kept
    · simp only [order]
      exact ⟨consistent, .refl s⟩
    · simp only [order]
      split
      · simp only [run_modifyBallotProtocol_bind]
        exact ⟨consistent.of_core (by rfl), .of_core rfl⟩
      · exact ⟨consistent, .refl s⟩
  · rename_i prepared
    simp only [run_modifyBallotProtocol_bind]
    refine prepared_step consistent fun past => ?_
    obtain ⟨p, same, -⟩ := value past
    simp [prepared] at same

variable (scp : SCP N V H)

theorem createStatement_outcome {s : Slot N V H} {type : SCPStatementType} (aborting : fail .abort)
    (notNominate : type ≠ .nominate) :
    Outcome (fun st s' => s' = s ∧ invariantsHold s.ballotProtocol = true ∧ st.pledges.type = type ∧
        st.nodeID = scp.localNode.nodeID) fail
      ((createStatement scp type).run s) := by
  simp only [createStatement, StateT.run_bind, checkInvariants_run]
  split
  · rename_i holds
    simp only [Except.ok_bind]
    split
    · exact ⟨rfl, holds, by simp_all [SCPPledges.type], rfl⟩
    · simp only [run_getBallotProtocol, Except.ok_bind]
      split
      · exact ⟨rfl, holds, by simp_all [SCPPledges.type], rfl⟩
      · exact aborting
    · simp only [run_getBallotProtocol, Except.ok_bind]
      split
      · exact ⟨rfl, holds, by simp_all [SCPPledges.type], rfl⟩
      · exact aborting
    · simp_all
  · exact aborting

/-- `sendLatestEnvelope` only touches what it has handed to the driver. -/
theorem sendLatestEnvelope_core (s : Slot N V H) :
    Outcome (fun _ s' => core s' = core s) fail ((sendLatestEnvelope : SlotM N V H Unit).run s) := by
  simp only [sendLatestEnvelope, run_get_bind]
  split
  · split
    · split
      · simp only [run_modifyBallotProtocol_bind, run_emitEnvelope]
        rfl
      · rfl
    · rfl
  · rfl

theorem checkHeardFromQuorum_core (s : Slot N V H) :
    Outcome (fun _ s' => core s' = core s) fail ((checkHeardFromQuorum scp).run s) := by
  simp only [checkHeardFromQuorum, run_getBallotProtocol_bind]
  split
  · rfl
  · rfl

end Leaves

/-- Keeping a statement newer than the last envelope as the last envelope. -/
theorem lastEnvelope_step {s : Slot N V H} {st : SCPStatement N V H} (consistent : Consistent s)
    (newer : s.ballotProtocol.lastEnvelope.all (fun last => isNewerStatement last st) = true) :
    Consistent { s with ballotProtocol := { s.ballotProtocol with lastEnvelope := some st } } ∧
      BallotStep s { s with ballotProtocol := { s.ballotProtocol with lastEnvelope := some st } } :=
  ⟨⟨consistent.locked, consistent.externalized_length, consistent.externalized_nil⟩,
    ⟨⟨le_refl _, fun _ b member => ⟨b, member, le_refl b⟩, fun _ => rfl, .of_newer newer,
      fun _ => .refl _, fun _ => rfl⟩, .inl rfl⟩⟩

/-- In PREPARE, a change that keeps the phase, `b`, the envelopes and what was externalized. -/
theorem prepare_step {s s' : Slot N V H} (consistent : Consistent s)
    (prepare : s.ballotProtocol.phase = .prepare) (phase : s'.ballotProtocol.phase = .prepare)
    (ballot : s'.ballotProtocol.currentBallot = s.ballotProtocol.currentBallot)
    (last : s'.ballotProtocol.lastEnvelope = s.ballotProtocol.lastEnvelope)
    (latest : s'.ballotProtocol.latestEnvelopes = s.ballotProtocol.latestEnvelopes)
    (externalized : s'.externalized = s.externalized)
    (nomination : s'.nominationProtocol = s.nominationProtocol) :
    Consistent s' ∧ BallotStep s s' := by
  refine ⟨⟨fun past => absurd phase past, externalized ▸ consistent.externalized_length,
    fun _ => externalized ▸ consistent.externalized_nil (by simp [prepare])⟩,
    ⟨⟨by rw [phase, prepare], fun _ b member => ⟨b, ballot ▸ member, le_refl b⟩,
      fun past => absurd prepare past, last ▸ .refl _, fun _ => latest ▸ .refl _,
      fun externalize => absurd (prepare.symm.trans externalize) (by simp)⟩, .inl nomination⟩⟩

/-- Stopping the nomination protocol. -/
theorem stopNomination_step {s : Slot N V H} (consistent : Consistent s) :
    Consistent { s with nominationProtocol := s.nominationProtocol.stopNomination } ∧
      BallotStep s { s with nominationProtocol := s.nominationProtocol.stopNomination } :=
  ⟨⟨consistent.locked, consistent.externalized_length, consistent.externalized_nil⟩,
    { Advances.refl s with nomination := .inr rfl }⟩

/-- The one change of what was externalized: from a phase before EXTERNALIZE. -/
theorem BallotStep.externalizing {s s' : Slot N V H} (step : BallotStep s s')
    (notExternalize : s.ballotProtocol.phase ≠ .externalize) (values : List V) :
    BallotStep s { s' with externalized := values } :=
  ⟨⟨step.phase_le, step.ballot_le, step.values_fixed, step.lastEnvelope_newer, step.latest_newer,
    fun externalize => absurd externalize notExternalize⟩, step.nomination⟩

/-- Out of PREPARE, or on past it, with everything locked to one value. -/
theorem lockedIn_step {s s' : Slot N V H} {v : V} (consistent : Consistent s)
    (active : s.ballotProtocol.phase ≠ .externalize) (phase : s'.ballotProtocol.phase ≠ .prepare)
    (locked : LockedTo s'.ballotProtocol v)
    (kept : s.ballotProtocol.phase ≠ .prepare → LockedTo s.ballotProtocol v ∧
      s'.ballotProtocol.prepared.map (·.value) = s.ballotProtocol.prepared.map (·.value) ∧
      ∀ b ∈ s.ballotProtocol.currentBallot, ∃ b' ∈ s'.ballotProtocol.currentBallot, b ≤ b')
    (same : envelopes s' = envelopes s) : Consistent s' ∧ BallotStep s s' := by
  simp only [envelopes, Prod.mk.injEq] at same
  obtain ⟨last, latest, externalized, nomination⟩ := same
  refine ⟨⟨fun _ => ⟨v, locked⟩, externalized ▸ consistent.externalized_length,
    fun _ => externalized ▸ consistent.externalized_nil active⟩,
    ⟨⟨?_, fun stays => ?_, fun past => ?_,
      last ▸ .refl _, fun _ => latest ▸ .refl _, fun externalize => absurd externalize active⟩,
      .inl nomination⟩⟩
  · cases phase₀ : s.ballotProtocol.phase <;> cases phase' : s'.ballotProtocol.phase <;>
      simp_all [SCPPhase.toNat]
  · -- `b` only moves down on leaving PREPARE
    by_cases prepare : s.ballotProtocol.phase = .prepare
    · exact absurd (stays prepare) phase
    · exact (kept prepare).2.2
  · obtain ⟨⟨current₀, high₀, commit₀, -⟩, prepared, -⟩ := kept past
    obtain ⟨current, high, commit, -⟩ := locked
    simp only [ballotValues, current, current₀, high, high₀, commit, commit₀, prepared]

theorem envelopes_externalized {s s' : Slot N V H} (same : envelopes s' = envelopes s) :
    s'.externalized = s.externalized :=
  congrArg (fun e => e.2.2.1) same

/-- What the ballot protocol may throw: its asserts, its fuel, and its two runtime errors. -/
structure BallotFails (fail : SCPError → Prop) : Prop where
  abort : fail .abort
  outOfFuel : fail .outOfFuel
  badState : fail (.runtimeError "moved to a bad state (ballot protocol)")
  recursion : fail (.runtimeError "maximum number of transitions reached in advanceSlot")

/-- `process` keeps `Consistent` and moves along `BallotStep` on every ballot statement. -/
def ProcessSteps (process : SCPStatement N V H → SlotM N V H EnvelopeState)
    (fail : SCPError → Prop) : Prop :=
  ∀ st : SCPStatement N V H, st.pledges.type ≠ .nominate →
    Steps Consistent BallotStep (process st) fail

/-! ## The functions that emit -/

section Emitting

variable (scp : SCP N V H) (process : SCPStatement N V H → SlotM N V H EnvelopeState)
  {fail : SCPError → Prop} (fails : BallotFails fail) (processSteps : ProcessSteps process fail)

include fails processSteps

theorem emitCurrentStateStatement_steps :
    Steps Consistent BallotStep (emitCurrentStateStatement scp process) fail := by
  refine Steps.of_outcome fun s consistent => ?_
  simp only [emitCurrentStateStatement, run_getBallotProtocol_bind]
  refine Outcome.bind (createStatement_outcome scp fails.abort (by split <;> simp)) ?_
  rintro statement s₁ ⟨rfl, -, typed, -⟩
  split
  · exact ⟨consistent, .refl _⟩
  -- the statement goes through `Slot::processEnvelope` first
  refine Outcome.bind ((processSteps statement (by rw [typed]; split <;> simp)).outcome consistent) ?_
  rintro result s₂ ⟨consistent₂, step₂⟩
  split
  · simp only [run_getBallotProtocol_bind]
    split
    · rename_i emits
      have newer := lastEnvelope_step consistent₂ (Bool.and_eq_true _ _ ▸ emits).2
      simp only [run_modifyBallotProtocol_bind]
      refine (sendLatestEnvelope_core _).mono (fun _ s₃ same => ?_) fun _ failed => failed
      exact ⟨newer.1.of_core same, step₂.trans (newer.2.trans (.of_core same))⟩
    · exact ⟨consistent₂, step₂⟩
  · exact fails.badState

theorem bumpStateCounter_steps (value : V) (n : Nat) :
    Steps Consistent BallotStep (bumpStateCounter scp process value n) fail := by
  refine Steps.of_outcome fun s consistent => ?_
  simp only [bumpStateCounter, run_getBallotProtocol_bind]
  split
  · exact ⟨consistent, .refl s⟩
  -- past PREPARE, `z` is set to the locked value, so the new ballot has it
  refine Outcome.bind (updateCurrentValue_outcome fails.abort consistent
    fun v _ locked => by simp [locked.2.2.2]) ?_
  rintro updated s₁ ⟨consistent₁, step₁⟩
  split
  · refine Outcome.bind ((emitCurrentStateStatement_steps scp process fails processSteps).outcome
      consistent₁) ?_
    rintro _ s₂ ⟨consistent₂, step₂⟩
    refine Outcome.bind (checkHeardFromQuorum_core scp s₂) fun _ s₃ same => ?_
    exact ⟨consistent₂.of_core same, step₁.trans (step₂.trans (.of_core same))⟩
  · exact ⟨consistent₁, step₁⟩

theorem bumpState_steps (value : V) (force : Bool) :
    Steps Consistent BallotStep (bumpState scp process value force) fail := by
  refine Steps.of_outcome fun s consistent => ?_
  simp only [bumpState, run_getBallotProtocol_bind]
  split
  · exact ⟨consistent, .refl s⟩
  · exact (bumpStateCounter_steps scp process fails processSteps value _).outcome consistent

theorem abandonBallot_steps (n : Nat) :
    Steps Consistent BallotStep (abandonBallot scp process n) fail := by
  refine Steps.of_outcome fun s consistent => ?_
  simp only [abandonBallot, run_get_bind]
  split
  · split
    · exact ⟨consistent, .refl s⟩
    · split
      · exact (bumpState_steps scp process fails processSteps _ true).outcome consistent
      · exact (bumpStateCounter_steps scp process fails processSteps _ n).outcome consistent
  · exact ⟨consistent, .refl s⟩

theorem attemptBump_steps : Steps Consistent BallotStep (attemptBump scp process) fail := by
  refine Steps.of_outcome fun s consistent => ?_
  simp only [attemptBump, run_getBallotProtocol_bind]
  split
  · split
    · exact ⟨consistent, .refl s⟩
    · split
      · exact (abandonBallot_steps scp process fails processSteps _).outcome consistent
      · exact ⟨consistent, .refl s⟩
  · exact ⟨consistent, .refl s⟩

theorem bumpLoop_steps (fuel : Nat) :
    Steps Consistent BallotStep (bumpLoop scp process fuel) fail := by
  induction fuel with
  | zero => exact Steps.of_outcome fun _ _ => fails.outOfFuel
  | succ fuel more =>
      refine Steps.of_outcome fun s consistent => ?_
      simp only [bumpLoop]
      refine Outcome.bind ((attemptBump_steps scp process fails processSteps).outcome consistent) ?_
      rintro didBump s₁ ⟨consistent₁, step₁⟩
      split
      · refine Outcome.bind (more.outcome consistent₁) fun _ s₂ moved => ?_
        exact ⟨moved.1, step₁.trans moved.2⟩
      · exact ⟨consistent₁, step₁⟩

/-- `setAcceptPrepared`, when `ballot` has the value of `p` past PREPARE. -/
theorem setAcceptPrepared_outcome {s : Slot N V H} {ballot : SCPBallot V} (consistent : Consistent s)
    (value : s.ballotProtocol.phase ≠ .prepare →
      ∃ p, s.ballotProtocol.prepared = some p ∧ p.value = ballot.value) :
    Outcome (fun _ s' => Consistent s' ∧ BallotStep s s') fail
      ((setAcceptPrepared scp process ballot).run s) := by
  simp only [setAcceptPrepared]
  refine Outcome.bind (setPrepared_outcome consistent value) ?_
  rintro didWork s₁ ⟨consistent₁, step₁⟩
  have finish (didWork : Bool) (s₂ : Slot N V H) (moved : Consistent s₂ ∧ BallotStep s₁ s₂) :
      Outcome (fun _ s' => Consistent s' ∧ BallotStep s s') fail
        ((if didWork = true then do emitCurrentStateStatement scp process; pure true
          else pure false : SlotM N V H Bool).run s₂) := by
    split
    · refine Outcome.bind ((emitCurrentStateStatement_steps scp process fails processSteps).outcome
        moved.1) fun _ s₃ emitted => ?_
      exact ⟨emitted.1, step₁.trans (moved.2.trans emitted.2)⟩
    · exact ⟨moved.1, step₁.trans moved.2⟩
  simp only [run_getBallotProtocol_bind]
  split
  · split
    · -- `c` is only ever dropped in PREPARE
      simp only [run_dbgAssert_bind, run_modifyBallotProtocol_bind, pure_bind]
      split
      · rename_i prepare
        exact finish true _ (prepare_step consistent₁ (beq_iff_eq.mp prepare)
          (beq_iff_eq.mp prepare) rfl rfl rfl rfl rfl)
      · exact fails.abort
    · simpa only [pure_bind] using finish didWork s₁ ⟨consistent₁, .refl s₁⟩
  · simpa only [Bool.false_eq_true, if_false, pure_bind] using
      finish didWork s₁ ⟨consistent₁, .refl s₁⟩

/-- The loop of `attemptAcceptPrepared`, in PREPARE or CONFIRM: it reads the state until the
one ballot it sets, which in CONFIRM is compatible with `p` and so with `c`. -/
theorem acceptPreparedLoop_outcome (candidates : List (SCPBallot V)) {s : Slot N V H}
    (consistent : Consistent s) (active : s.ballotProtocol.phase ≠ .externalize) :
    Outcome (fun _ s' => Consistent s' ∧ BallotStep s s') fail
      ((acceptPreparedLoop scp process candidates).run s) := by
  induction candidates with
  | nil => exact ⟨consistent, .refl s⟩
  | cons ballot rest more =>
      -- what follows a ballot that CONFIRM does not skip
      have remaining (value : s.ballotProtocol.phase ≠ .prepare →
          ∃ p, s.ballotProtocol.prepared = some p ∧ p.value = ballot.value) :
          Outcome (fun _ s' => Consistent s' ∧ BallotStep s s') fail
            ((if s.ballotProtocol.preparedPrime.any (fun pp => (compareBallots ballot pp).isLE) then
                acceptPreparedLoop scp process rest
              else if s.ballotProtocol.prepared.any (areBallotsLessAndCompatible ballot) then
                acceptPreparedLoop scp process rest
              else if federatedAccept scp (votedPrepared ballot) (hasPreparedBallot ballot)
                  s.ballotProtocol.latestEnvelopes then
                setAcceptPrepared scp process ballot
              else acceptPreparedLoop scp process rest).run s) := by
        split
        · exact more
        split
        · exact more
        split
        · exact setAcceptPrepared_outcome scp process fails processSteps consistent value
        · exact more
      simp only [acceptPreparedLoop, run_getBallotProtocol_bind]
      split
      · split
        · rename_i p c prepared _
          split
          · simpa only [pure_bind, if_true] using more
          · rename_i raises
            simp only [run_dbgAssert_bind, pure_bind, Bool.false_eq_true, if_false]
            split
            · refine remaining fun _ => ⟨p, prepared, ?_⟩
              simp only [Bool.not_eq_eq_eq_not, Bool.not_true, Bool.not_eq_false,
                areBallotsLessAndCompatible_iff] at raises
              exact raises.2
            · exact fails.abort
        · exact fails.abort
      · rename_i notConfirm
        simp only [pure_bind, Bool.false_eq_true, if_false]
        refine remaining fun past => ?_
        cases phase : s.ballotProtocol.phase <;> simp_all

theorem attemptAcceptPrepared_steps (hint : SCPStatement N V H) :
    Steps Consistent BallotStep (attemptAcceptPrepared scp process hint) fail := by
  refine Steps.of_outcome fun s consistent => ?_
  simp only [attemptAcceptPrepared, run_getBallotProtocol_bind]
  split
  · exact ⟨consistent, .refl s⟩
  · rename_i active
    refine acceptPreparedLoop_outcome scp process fails processSteps _ consistent fun external => ?_
    simp [external] at active

/-- `setConfirmPrepared`, which only runs in PREPARE. -/
theorem setConfirmPrepared_outcome {s : Slot N V H} {newC newH : SCPBallot V}
    (consistent : Consistent s) (prepare : s.ballotProtocol.phase = .prepare) :
    Outcome (fun _ s' => Consistent s' ∧ BallotStep s s') fail
      ((setConfirmPrepared scp process newC newH).run s) := by
  -- what follows the changes of `z`, `h` and `c`, which all stay in PREPARE
  have finish (didWork : Bool) (s₂ : Slot N V H) (moved : Consistent s₂ ∧ BallotStep s s₂)
      (prepare₂ : s₂.ballotProtocol.phase = .prepare) :
      Outcome (fun _ s' => Consistent s' ∧ BallotStep s s') fail
        ((do
          let bumped ← updateCurrentIfNeeded newH
          if (bumped || didWork) = true then do
            emitCurrentStateStatement scp process
            pure (bumped || didWork)
          else pure (bumped || didWork) : SlotM N V H Bool).run s₂) := by
    refine Outcome.bind (updateCurrentIfNeeded_outcome fails.abort moved.1
      fun _ past => absurd prepare₂ past) ?_
    rintro bumped s₃ ⟨consistent₃, step₃⟩
    split
    · refine Outcome.bind ((emitCurrentStateStatement_steps scp process fails processSteps).outcome
        consistent₃) fun _ s₄ emitted => ?_
      exact ⟨emitted.1, moved.2.trans (step₃.trans emitted.2)⟩
    · exact ⟨consistent₃, moved.2.trans step₃⟩
  simp only [setConfirmPrepared, run_modifyBallotProtocol_bind, run_getBallotProtocol_bind]
  split
  · -- `h` is raised, and `c` set, each or both; every state keeps what `prepare_step` reads
    split
    · simp only [run_modifyBallotProtocol_bind]
      split
      · simp only [run_dbgAssert_bind, run_modifyBallotProtocol_bind, pure_bind]
        split
        · exact finish _ _ (prepare_step consistent prepare prepare rfl rfl rfl rfl rfl) prepare
        · exact fails.abort
      · simp only [pure_bind]
        exact finish _ _ (prepare_step consistent prepare prepare rfl rfl rfl rfl rfl) prepare
    · split
      · simp only [run_dbgAssert_bind, run_modifyBallotProtocol_bind, pure_bind]
        split
        · exact finish _ _ (prepare_step consistent prepare prepare rfl rfl rfl rfl rfl) prepare
        · exact fails.abort
      · simp only [pure_bind]
        exact finish _ _ (prepare_step consistent prepare prepare rfl rfl rfl rfl rfl) prepare
  · simp only [pure_bind]
    exact finish _ _ (prepare_step consistent prepare prepare rfl rfl rfl rfl rfl) prepare

theorem attemptConfirmPrepared_steps (hint : SCPStatement N V H) :
    Steps Consistent BallotStep (attemptConfirmPrepared scp process hint) fail := by
  refine Steps.of_outcome fun s consistent => ?_
  simp only [attemptConfirmPrepared, run_getBallotProtocol_bind]
  split
  · exact ⟨consistent, .refl s⟩
  · rename_i prepare
    split
    · exact ⟨consistent, .refl s⟩
    · split
      · exact ⟨consistent, .refl s⟩
      · exact setConfirmPrepared_outcome scp process fails processSteps consistent
          (by simpa using prepare)

/-- The end of `setAcceptCommit` in both phases, once `h` and `c` are set: `b` is raised to
`h`, then the statement is emitted. -/
theorem setAcceptCommit_finish {s : Slot N V H} {c h : SCPBallot V} (consistent : Consistent s)
    (active : s.ballotProtocol.phase ≠ .externalize)
    (lockedH : s.ballotProtocol.phase ≠ .prepare → LockedTo s.ballotProtocol h.value)
    (sameValue : c.value = h.value)
    (s₅ : Slot N V H) (phase₅ : s₅.ballotProtocol.phase = .confirm)
    (high₅ : s₅.ballotProtocol.highBallot = some h) (commit₅ : s₅.ballotProtocol.commit = some c)
    (override₅ : s₅.ballotProtocol.valueOverride = some h.value)
    (current₅ : ∀ b ∈ s₅.ballotProtocol.currentBallot, b.value = h.value)
    (kept₅ : s.ballotProtocol.phase ≠ .prepare →
      s₅.ballotProtocol.prepared = s.ballotProtocol.prepared ∧
        s₅.ballotProtocol.currentBallot = s.ballotProtocol.currentBallot)
    (same₅ : envelopes s₅ = envelopes s) :
    Outcome (fun _ s' => Consistent s' ∧ BallotStep s s') fail
      ((do
        let bp ← getBallotProtocol
        match bp.highBallot with
        | some high => do
            let _ ← updateCurrentIfNeeded high
            emitCurrentStateStatement scp process
            pure true
        | none => throw .abort : SlotM N V H Bool).run s₅) := by
  simp only [run_getBallotProtocol_bind, high₅]
  refine Outcome.bind (updateCurrentIfNeeded_locks (by simp [phase₅]) high₅ commit₅ sameValue
    override₅ current₅) ?_
  rintro _ s₆ ⟨locked₆, phase₆, prepared₆, grows₆, same₆⟩
  have moved := lockedIn_step consistent active (by simp [phase₆, phase₅]) locked₆
    (fun past => ⟨lockedH past, by rw [prepared₆, (kept₅ past).1],
      (kept₅ past).2 ▸ grows₆⟩) (same₆.trans same₅)
  refine Outcome.bind ((emitCurrentStateStatement_steps scp process fails processSteps).outcome
    moved.1) fun _ s₇ emitted => ?_
  exact ⟨emitted.1, moved.2.trans emitted.2⟩

/-- `setAcceptCommit` outside EXTERNALIZE, for an interval of one value, of the locked one
in CONFIRM. From PREPARE it may move `b` down to `h`, as only the phase records. -/
theorem setAcceptCommit_outcome {s : Slot N V H} {c h : SCPBallot V} (consistent : Consistent s)
    (active : s.ballotProtocol.phase ≠ .externalize)
    (locked : ∀ v, s.ballotProtocol.phase ≠ .prepare → LockedTo s.ballotProtocol v → h.value = v)
    (sameValue : c.value = h.value) :
    Outcome (fun _ s' => Consistent s' ∧ BallotStep s s') fail
      ((setAcceptCommit scp process c h).run s) := by
  have lockedH (past : s.ballotProtocol.phase ≠ .prepare) : LockedTo s.ballotProtocol h.value := by
    obtain ⟨v, lock⟩ := consistent.locked past
    exact locked v past lock ▸ lock
  have finish := setAcceptCommit_finish scp process fails processSteps consistent active lockedH
    sameValue
  simp only [setAcceptCommit, run_modifyBallotProtocol_bind]
  rw [run_getBallotProtocol_bind, ite_seq_eq_bind]
  -- `z`, `h` and `c` are set to the interval
  refine Outcome.bind ?_ fun _ s₂ (set : s₂.ballotProtocol.highBallot = some h ∧
      s₂.ballotProtocol.commit = some c ∧ s₂.ballotProtocol.valueOverride = some h.value ∧
      s₂.ballotProtocol.phase = s.ballotProtocol.phase ∧
      s₂.ballotProtocol.currentBallot = s.ballotProtocol.currentBallot ∧
      s₂.ballotProtocol.prepared = s.ballotProtocol.prepared ∧ envelopes s₂ = envelopes s) => ?_
  · split
    · exact ⟨rfl, rfl, rfl, rfl, rfl, rfl, rfl⟩
    · rename_i unchanged
      simp only [Bool.not_eq_true', Bool.not_eq_false, Bool.and_eq_true, beq_iff_eq] at unchanged
      exact ⟨unchanged.1, unchanged.2, rfl, rfl, rfl, rfl, rfl⟩
  obtain ⟨high₂, commit₂, override₂, phase₂, current₂, prepared₂, same₂⟩ := set
  simp only [run_getBallotProtocol_bind]
  split
  · -- from PREPARE: the phase moves to CONFIRM, and `b` to `h` unless compatible and above
    rename_i prepare
    have prepare₀ : s.ballotProtocol.phase = .prepare := phase₂ ▸ beq_iff_eq.mp prepare
    have notPast {P : Prop} (past : s.ballotProtocol.phase ≠ .prepare) : P := absurd prepare₀ past
    simp only [run_modifyBallotProtocol_bind]
    split
    · rename_i b currentBallot
      split
      · rw [StateT.run_bind, bumpToBallot_run, if_pos ⟨by simp, by simp⟩]
        simp only [Except.ok_bind, run_modifyBallotProtocol_bind, pure_bind, ↓reduceIte]
        exact finish _ rfl (by simp [bumpedTo, high₂]) (by simp [bumpedTo, high₂, commit₂])
          override₂ (by simp [bumpedTo]) notPast same₂
      · rename_i below
        simp only [run_modifyBallotProtocol_bind, pure_bind, ↓reduceIte]
        simp only [Bool.not_eq_true', Bool.not_eq_false, areBallotsLessAndCompatible_iff] at below
        exact finish _ rfl high₂ commit₂ override₂ (by simp [currentBallot, below.2]) notPast same₂
    · rename_i currentBallot
      simp only [run_modifyBallotProtocol_bind, pure_bind, ↓reduceIte]
      exact finish _ rfl high₂ commit₂ override₂ (by simp [currentBallot]) notPast same₂
  · -- within CONFIRM everything already has `h`'s value
    rename_i confirm
    have past : s.ballotProtocol.phase ≠ .prepare := fun prepare => confirm (by simp [phase₂, prepare])
    have confirm₀ : s.ballotProtocol.phase = .confirm := by
      cases phase₀ : s.ballotProtocol.phase <;> simp_all
    obtain ⟨current₀, -, -, -⟩ := lockedH past
    have current : ∀ b ∈ s₂.ballotProtocol.currentBallot, b.value = h.value := by
      intro b member
      rw [current₂, Option.mem_def] at member
      simpa [member] using current₀
    simp only [pure_bind]
    split
    · exact finish s₂ (phase₂.trans confirm₀) high₂ commit₂ override₂ current
        (fun _ => ⟨prepared₂, current₂⟩) same₂
    · refine lockedIn_step consistent active (by simp [phase₂, confirm₀])
        ⟨?_, by simp [high₂], by simp [commit₂, sameValue], override₂⟩
        (fun _ => ⟨lockedH past, by rw [prepared₂], fun b member => ⟨b, current₂ ▸ member, le_refl b⟩⟩)
        same₂
      cases currentBallot : s₂.ballotProtocol.currentBallot with
      | none =>
          rw [← current₂, currentBallot] at current₀
          simp at current₀
      | some b => simp [current b currentBallot]

theorem attemptAcceptCommit_steps (hint : SCPStatement N V H) :
    Steps Consistent BallotStep (attemptAcceptCommit scp process hint) fail := by
  refine Steps.of_outcome fun s consistent => ?_
  simp only [attemptAcceptCommit, run_getBallotProtocol_bind]
  split
  · exact ⟨consistent, .refl s⟩
  rename_i active
  have active₀ : s.ballotProtocol.phase ≠ .externalize := fun external => by simp [external] at active
  split
  · exact ⟨consistent, .refl s⟩
  rename_i ballot _
  split
  · -- in CONFIRM, only an interval of `h`'s value, which is the locked one
    rename_i confirm
    have confirm₀ := beq_iff_eq.mp confirm
    split
    · rename_i h high
      simp only [pure_bind]
      split
      · exact ⟨consistent, .refl s⟩
      rename_i compatible
      have value (v : V) (_ : s.ballotProtocol.phase ≠ .prepare) (locked : LockedTo s.ballotProtocol v) :
          ballot.value = v := by
        simp only [Bool.not_eq_true', Bool.not_eq_false, areBallotsCompatible_iff] at compatible
        simpa [high, compatible] using locked.2.1
      split
      · exact ⟨consistent, .refl s⟩
      split
      · exact setAcceptCommit_outcome scp process fails processSteps consistent active₀ value rfl
      · exact ⟨consistent, .refl s⟩
    · exact fails.abort
  · -- in PREPARE, any interval
    rename_i notConfirm
    have prepare (v : V) (past : s.ballotProtocol.phase ≠ .prepare) : ballot.value = v := by
      cases phase : s.ballotProtocol.phase <;> simp_all
    simp only [pure_bind, Bool.not_true, Bool.false_eq_true, ↓reduceIte]
    split
    · exact ⟨consistent, .refl s⟩
    split
    · exact setAcceptCommit_outcome scp process fails processSteps consistent active₀
        (fun v past _ => prepare v past) rfl
    · exact ⟨consistent, .refl s⟩

/-- `setConfirmCommit` in CONFIRM, for an interval of the locked value: the only step that
externalizes, and it externalizes one value. -/
theorem setConfirmCommit_outcome {s : Slot N V H} {c h : SCPBallot V} (consistent : Consistent s)
    (confirm : s.ballotProtocol.phase = .confirm)
    (locked : ∀ v, LockedTo s.ballotProtocol v → h.value = v) (sameValue : c.value = h.value) :
    Outcome (fun _ s' => Consistent s' ∧ BallotStep s s') fail
      ((setConfirmCommit scp process c h).run s) := by
  have past : s.ballotProtocol.phase ≠ .prepare := by simp [confirm]
  have active : s.ballotProtocol.phase ≠ .externalize := by simp [confirm]
  obtain ⟨v, lock⟩ := consistent.locked past
  have lockH : LockedTo s.ballotProtocol h.value := locked v lock ▸ lock
  obtain ⟨current₀, -, -, override₀⟩ := id lockH
  simp only [setConfirmCommit, run_modifyBallotProtocol_bind]
  refine Outcome.bind (updateCurrentIfNeeded_locks active rfl rfl sameValue override₀
    fun b (member : s.ballotProtocol.currentBallot = some b) => by simpa [member] using current₀) ?_
  rintro _ s₂ ⟨locked₂, phase₂, prepared₂, grows₂, same₂⟩
  simp only [run_modifyBallotProtocol_bind]
  set s₃ : Slot N V H :=
    { s₂ with ballotProtocol := { s₂.ballotProtocol with phase := .externalize } } with s₃_def
  -- EXTERNALIZE keeps the lock; the statement it emits leaves what was externalized alone
  have moved : Consistent s₃ ∧ BallotStep s s₃ :=
    lockedIn_step consistent active (by simp [s₃]) locked₂
      (fun _ => ⟨lockH, by rw [prepared₂], grows₂⟩) same₂
  refine Outcome.bind ((emitCurrentStateStatement_steps scp process fails processSteps).outcome
    moved.1) ?_
  rintro _ s₄ ⟨consistent₄, step₄⟩
  have externalize₄ : s₄.ballotProtocol.phase = .externalize :=
    SCPPhase.eq_externalize_of_toNat_le step₄.phase_le rfl
  have nil₄ : s₄.externalized = [] := by
    rw [step₄.externalized_fixed rfl, s₃_def, envelopes_externalized same₂]
    exact consistent.externalized_nil active
  simp only [run_modifyNominationProtocol_bind, run_modify_bind, run_pure, outcome_ok]
  have stopped := stopNomination_step consistent₄
  refine ⟨⟨stopped.1.locked, by simp [nil₄], fun notExternalize => absurd externalize₄ notExternalize⟩,
    ((moved.2.trans step₄).trans stopped.2).externalizing active _⟩

theorem attemptConfirmCommit_steps (hint : SCPStatement N V H) :
    Steps Consistent BallotStep (attemptConfirmCommit scp process hint) fail := by
  refine Steps.of_outcome fun s consistent => ?_
  simp only [attemptConfirmCommit, run_getBallotProtocol_bind]
  split
  · exact ⟨consistent, .refl s⟩
  rename_i confirm
  split
  · rename_i c commit
    split
    · exact ⟨consistent, .refl s⟩
    rename_i ballot _
    split
    · exact ⟨consistent, .refl s⟩
    rename_i compatible
    split
    · -- the interval has the value of `c`, which is the locked one
      refine setConfirmCommit_outcome scp process fails processSteps consistent
        (by simpa using confirm) (fun v locked => ?_) rfl
      simp only [Bool.not_eq_true', Bool.not_eq_false, areBallotsCompatible_iff] at compatible
      simpa [commit, compatible] using locked.2.2.1
    · exact ⟨consistent, .refl s⟩
  · exact ⟨consistent, .refl s⟩

theorem advanceSlot_steps (fuel : Nat) (hint : SCPStatement N V H) :
    Steps Consistent BallotStep (advanceSlot scp process fuel hint) fail := by
  refine Steps.of_outcome fun s consistent => ?_
  -- the message level is outside `core`: the end of every level
  have finish (didWork : Bool) (s₅ : Slot N V H) (moved : Consistent s₅ ∧ BallotStep s s₅) :
      Outcome (fun _ s' => Consistent s' ∧ BallotStep s s') fail
        ((do
          modifyBallotProtocol fun bp =>
            { bp with currentMessageLevel := bp.currentMessageLevel - 1 }
          if didWork then sendLatestEnvelope else pure () : SlotM N V H Unit).run s₅) := by
    simp only [run_modifyBallotProtocol_bind]
    split
    · refine (sendLatestEnvelope_core _).mono (fun _ s₆ same => ?_) fun _ failed => failed
      exact ⟨moved.1.of_core (by rw [same]; rfl), moved.2.trans (.of_core (by rw [same]; rfl))⟩
    · exact ⟨moved.1.of_core (by rfl), moved.2.trans (.of_core rfl)⟩
  simp only [advanceSlot, run_modifyBallotProtocol_bind, run_getBallotProtocol_bind]
  split
  · exact fails.recursion
  -- the four federated votes, in the order of the paper
  refine Outcome.bind ((attemptAcceptPrepared_steps scp process fails processSteps hint).outcome
    (consistent.of_core (by rfl))) ?_
  rintro acceptedPrepared s₁ ⟨consistent₁, step₁⟩
  refine Outcome.bind ((attemptConfirmPrepared_steps scp process fails processSteps hint).outcome
    consistent₁) ?_
  rintro confirmedPrepared s₂ ⟨consistent₂, step₂⟩
  refine Outcome.bind ((attemptAcceptCommit_steps scp process fails processSteps hint).outcome
    consistent₂) ?_
  rintro acceptedCommit s₃ ⟨consistent₃, step₃⟩
  refine Outcome.bind ((attemptConfirmCommit_steps scp process fails processSteps hint).outcome
    consistent₃) ?_
  rintro confirmedCommit s₄ ⟨consistent₄, step₄⟩
  have voted : BallotStep s s₄ :=
    (BallotStep.of_core (by rfl)).trans (step₁.trans (step₂.trans (step₃.trans step₄)))
  simp only [run_getBallotProtocol_bind]
  split
  · -- at the outermost level, the bumps
    refine Outcome.bind ((bumpLoop_steps scp process fails processSteps fuel).outcome consistent₄) ?_
    rintro didBump s₅ ⟨consistent₅, step₅⟩
    refine Outcome.bind (checkHeardFromQuorum_core scp s₅) fun _ s₆ same => ?_
    simp only [pure_bind]
    exact finish _ s₆ ⟨consistent₅.of_core same, voted.trans (step₅.trans (.of_core same))⟩
  · simp only [pure_bind]
    exact finish _ s₄ ⟨consistent₄, voted⟩

theorem processEnvelope_steps (fuel : Nat) (statement : SCPStatement N V H) (self : Bool) :
    Steps Consistent BallotStep (processEnvelope scp process fuel statement self) fail := by
  refine Steps.of_outcome fun s consistent => ?_
  simp only [processEnvelope]
  split
  · exact ⟨consistent, .refl s⟩
  simp only [run_getBallotProtocol_bind]
  split
  · exact ⟨consistent, .refl s⟩
  rename_i newer
  simp only [Bool.not_eq_true', Bool.not_eq_false] at newer
  split
  · exact ⟨consistent, .refl s⟩
  split
  · -- before EXTERNALIZE the statement is recorded and the slot advances
    rw [ite_seq_eq_bind]
    refine Outcome.bind ?_ fun _ s₁ (validated : Consistent s₁ ∧ BallotStep s s₁ ∧
        s₁.ballotProtocol = s.ballotProtocol) => ?_
    · split
      · exact ⟨consistent.of_core (by rfl), .of_core rfl, rfl⟩
      · exact ⟨consistent, .refl s, rfl⟩
    obtain ⟨consistent₁, step₁, same₁⟩ := validated
    simp only [recordEnvelope, run_modifyBallotProtocol_bind]
    have recorded := recorded_step consistent₁ (by rw [same₁]; exact newer)
    refine Outcome.bind ((advanceSlot_steps scp process fails processSteps fuel statement).outcome
      recorded.1) fun _ s₂ advanced => ?_
    exact ⟨advanced.1, step₁.trans (recorded.2.trans advanced.2)⟩
  · -- once externalized, only a statement of the externalized value is recorded
    split
    · split
      · simp only [recordEnvelope, run_modifyBallotProtocol_bind, run_pure]
        exact recorded_step consistent newer
      · exact ⟨consistent, .refl s⟩
    · exact fails.abort

theorem ballotProtocolTimerExpired_steps :
    Steps Consistent BallotStep (ballotProtocolTimerExpired scp process) fail := by
  refine Steps.of_outcome fun s consistent => ?_
  simp only [ballotProtocolTimerExpired, run_modifyBallotProtocol_bind]
  refine Outcome.bind ((abandonBallot_steps scp process fails processSteps 0).outcome
    (consistent.of_core (by rfl))) fun _ s₁ abandoned => ?_
  exact ⟨abandoned.1, (BallotStep.of_core (by rfl)).trans abandoned.2⟩

end Emitting

end Progress

end BallotProtocol

end StellarCore.Scp
