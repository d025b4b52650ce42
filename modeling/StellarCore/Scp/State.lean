import StellarCore.Scp.QuorumSetUtils
import StellarCore.Lib.Triple

/-!
# The state of one slot

A `Slot` holds the state of its `BallotProtocol` and `NominationProtocol`, whether its values
are fully validated, and what it has handed to the driver: the envelopes given to
`SCPDriver::emitEnvelope` and the values given to `SCPDriver::valueExternalized`, in order.
The other driver notifications and the timers change nothing the protocol reads and are left
out; a timer firing is an operation of its own in `Scp.Slot`.

The protocol code runs in `SlotM`: it reads and writes the slot and may stop with an
`SCPError`. The driver and the local node are fixed for a run and are passed as an `SCP`.
-/

set_option autoImplicit false

namespace StellarCore.Scp

/-- The callbacks of `SCPDriver` the protocol's decisions depend on, for one slot. -/
structure SCPDriver (N V H : Type) where
  /-- The quorum set with a given hash, if known. -/
  getQSet : H → Option (SCPQuorumSet N)
  /-- `validateValue (slotIndex, value, nomination)`. -/
  validateValue : V → Bool → ValidationLevel
  /-- A fully valid value derived from one that is not, if any. -/
  extractValidValue : V → Option V
  /-- The composite of the candidates (a non-empty set). -/
  combineCandidates : List V → V
  /-- `computeHashNode (slotIndex, previousValue, isPriority, roundNumber, nodeID)`. -/
  computeHashNode : V → Bool → Nat → N → Nat
  /-- `computeValueHash (slotIndex, previousValue, roundNumber, value)`. -/
  computeValueHash : V → Nat → V → Nat
  /-- `getNodeWeight (nodeID, qset, isLocalNode)`. -/
  getNodeWeight : N → SCPQuorumSet N → Bool → Nat

/-- The local node: its identity, whether it validates, and its quorum set with its hash. -/
structure LocalNode (N H : Type) where
  nodeID : N
  isValidator : Bool
  qSet : SCPQuorumSet N
  qSetHash : H

/-- What a slot is run against. `emptyValue` is the empty opaque `Value`: the value of a
default-constructed ballot, and the one `Value::empty()` recognises. -/
structure SCP (N V H : Type) where
  driver : SCPDriver N V H
  localNode : LocalNode N H
  emptyValue : V

/-- The state of `NominationProtocol`. The sets `X`, `Y`, `Z` are strictly increasing lists;
the latest nominations are a map from node to statement, by node. -/
structure NominationProtocol (N V H : Type) where
  roundNumber : Nat
  votes : List V
  accepted : List V
  candidates : List V
  latestNominations : List (N × SCPStatement N V H)
  lastEnvelope : Option (SCPStatement N V H)
  roundLeaders : List N
  nominationStarted : Bool
  latestCompositeCandidate : Option V
  previousValue : V
  timerExpCount : Nat

/-- The state of `BallotProtocol`: `b`, `p`, `p'`, `h`, `c`, the phase, the latest ballot
statement of every node, and the bookkeeping of message levels and emitted envelopes. -/
structure BallotProtocol (N V H : Type) where
  heardFromQuorum : Bool
  phase : SCPPhase
  currentBallot : Option (SCPBallot V)
  prepared : Option (SCPBallot V)
  preparedPrime : Option (SCPBallot V)
  highBallot : Option (SCPBallot V)
  commit : Option (SCPBallot V)
  latestEnvelopes : List (N × SCPStatement N V H)
  valueOverride : Option V
  currentMessageLevel : Nat
  timerExpCount : Nat
  lastEnvelope : Option (SCPStatement N V H)
  lastEnvelopeEmit : Option (SCPStatement N V H)

structure Slot (N V H : Type) where
  ballotProtocol : BallotProtocol N V H
  nominationProtocol : NominationProtocol N V H
  fullyValidated : Bool
  /-- The envelopes handed to `SCPDriver::emitEnvelope`, oldest first. -/
  emitted : List (SCPStatement N V H)
  /-- The values handed to `SCPDriver::valueExternalized`, oldest first. -/
  externalized : List V

abbrev SlotM (N V H : Type) := StateT (Slot N V H) (Except SCPError)

variable {N V H : Type}

/-- A new `NominationProtocol`: round zero, nothing voted, not started. -/
def NominationProtocol.fresh (scp : SCP N V H) : NominationProtocol N V H :=
  ⟨0, [], [], [], [], none, [], false, none, scp.emptyValue, 0⟩

/-- A new `BallotProtocol`: phase `PREPARE`, no ballots. -/
def BallotProtocol.fresh : BallotProtocol N V H :=
  ⟨false, .prepare, none, none, none, none, none, [], none, 0, 0, none, none⟩

/-- `Slot::Slot`: both protocols fresh; values count as fully validated on a validator. -/
def Slot.fresh (scp : SCP N V H) : Slot N V H :=
  ⟨BallotProtocol.fresh, NominationProtocol.fresh scp, scp.localNode.isValidator, [], []⟩

/-- `NominationProtocol::stopNomination`. -/
def NominationProtocol.stopNomination (np : NominationProtocol N V H) : NominationProtocol N V H :=
  { np with nominationStarted := false }

/-! ## Reading and writing the slot -/

def getBallotProtocol : SlotM N V H (BallotProtocol N V H) := do
  return (← get).ballotProtocol

def modifyBallotProtocol (f : BallotProtocol N V H → BallotProtocol N V H) : SlotM N V H Unit :=
  modify fun slot => { slot with ballotProtocol := f slot.ballotProtocol }

def getNominationProtocol : SlotM N V H (NominationProtocol N V H) := do
  return (← get).nominationProtocol

def setNominationProtocol (np : NominationProtocol N V H) : SlotM N V H Unit :=
  modify fun slot => { slot with nominationProtocol := np }

def modifyNominationProtocol (f : NominationProtocol N V H → NominationProtocol N V H) :
    SlotM N V H Unit :=
  modify fun slot => { slot with nominationProtocol := f slot.nominationProtocol }

/-- `SCPDriver::emitEnvelope`. -/
def emitEnvelope (statement : SCPStatement N V H) : SlotM N V H Unit :=
  modify fun slot => { slot with emitted := slot.emitted ++ [statement] }

/-- `dbgAssert`: the process aborts when the condition fails. -/
def dbgAssert (condition : Bool) : SlotM N V H Unit :=
  if condition then pure () else throw .abort

/-- A computation of the protocol that does not touch the slot. -/
def liftExcept {α : Type} (result : Except SCPError α) : SlotM N V H α :=
  match result with
  | .ok a => pure a
  | .error e => throw e

/-! ## Running the accessors forwards -/

section Run

variable {β : Type}

@[simp] theorem run_getBallotProtocol (s : Slot N V H) :
    (getBallotProtocol : SlotM N V H (BallotProtocol N V H)).run s = .ok (s.ballotProtocol, s) := rfl

@[simp] theorem run_getNominationProtocol (s : Slot N V H) :
    (getNominationProtocol : SlotM N V H (NominationProtocol N V H)).run s =
      .ok (s.nominationProtocol, s) := rfl

@[simp] theorem run_getBallotProtocol_bind (f : BallotProtocol N V H → SlotM N V H β)
    (s : Slot N V H) : (getBallotProtocol >>= f).run s = (f s.ballotProtocol).run s := rfl

@[simp] theorem run_modifyBallotProtocol (g : BallotProtocol N V H → BallotProtocol N V H)
    (s : Slot N V H) :
    (modifyBallotProtocol g).run s = .ok ((), { s with ballotProtocol := g s.ballotProtocol }) := rfl

@[simp] theorem run_modifyBallotProtocol_bind (g : BallotProtocol N V H → BallotProtocol N V H)
    (f : Unit → SlotM N V H β) (s : Slot N V H) :
    (modifyBallotProtocol g >>= f).run s =
      (f ()).run { s with ballotProtocol := g s.ballotProtocol } := rfl

@[simp] theorem run_getNominationProtocol_bind (f : NominationProtocol N V H → SlotM N V H β)
    (s : Slot N V H) : (getNominationProtocol >>= f).run s = (f s.nominationProtocol).run s := rfl

@[simp] theorem run_modifyNominationProtocol
    (g : NominationProtocol N V H → NominationProtocol N V H) (s : Slot N V H) :
    (modifyNominationProtocol g).run s =
      .ok ((), { s with nominationProtocol := g s.nominationProtocol }) := rfl

@[simp] theorem run_modifyNominationProtocol_bind
    (g : NominationProtocol N V H → NominationProtocol N V H) (f : Unit → SlotM N V H β)
    (s : Slot N V H) :
    (modifyNominationProtocol g >>= f).run s =
      (f ()).run { s with nominationProtocol := g s.nominationProtocol } := rfl

@[simp] theorem run_setNominationProtocol (np : NominationProtocol N V H) (s : Slot N V H) :
    (setNominationProtocol np).run s = .ok ((), { s with nominationProtocol := np }) := rfl

@[simp] theorem run_setNominationProtocol_bind (np : NominationProtocol N V H)
    (f : Unit → SlotM N V H β) (s : Slot N V H) :
    (setNominationProtocol np >>= f).run s = (f ()).run { s with nominationProtocol := np } := rfl

@[simp] theorem run_emitEnvelope (statement : SCPStatement N V H) (s : Slot N V H) :
    (emitEnvelope statement).run s = .ok ((), { s with emitted := s.emitted ++ [statement] }) := rfl

@[simp] theorem run_dbgAssert_bind (condition : Bool) (f : Unit → SlotM N V H β) (s : Slot N V H) :
    (dbgAssert condition >>= f).run s = if condition then (f ()).run s else .error .abort := by
  cases condition <;> rfl

@[simp] theorem run_dbgAssert (condition : Bool) (s : Slot N V H) :
    (dbgAssert condition).run s = if condition then .ok ((), s) else .error .abort := by
  cases condition <;> rfl

@[simp] theorem run_liftExcept_bind {α : Type} (result : Except SCPError α)
    (f : α → SlotM N V H β) (s : Slot N V H) :
    (liftExcept result >>= f).run s =
      match result with
      | .ok a => (f a).run s
      | .error e => .error e := by
  cases result <;> rfl

end Run

/-! ## Federated voting on the latest statements -/

section Federated

variable [LinearOrder N] (scp : SCP N V H)

/-- `Slot::getQuorumSetFromStatement`: an `EXTERNALIZE` statement stands for the singleton
quorum set of its node; the others name their quorum set by hash. -/
def getQuorumSetFromStatement (st : SCPStatement N V H) : Option (SCPQuorumSet N) :=
  match st.pledges with
  | .prepare quorumSetHash .. => scp.driver.getQSet quorumSetHash
  | .confirm _ _ _ _ quorumSetHash => scp.driver.getQSet quorumSetHash
  | .externalize .. => some (buildSingletonQSet st.nodeID)
  | .nominate nomination => scp.driver.getQSet nomination.quorumSetHash

/-- `Slot::federatedAccept`: a v-blocking set accepted, or a quorum voted or accepted. -/
def federatedAccept (voted accepted : SCPStatement N V H → Bool)
    (envs : List (N × SCPStatement N V H)) : Bool :=
  isVBlockingMap scp.localNode.qSet envs accepted ||
    isQuorum scp.localNode.qSet envs (getQuorumSetFromStatement scp) fun st =>
      accepted st || voted st

/-- `Slot::federatedRatify`: a quorum voted. -/
def federatedRatify (voted : SCPStatement N V H → Bool) (envs : List (N × SCPStatement N V H)) :
    Bool :=
  isQuorum scp.localNode.qSet envs (getQuorumSetFromStatement scp) voted

end Federated

/-! ## Frame lemmas of the slot accessors -/

section Accessors

open StateExcept

variable {pre : Slot N V H → Prop} {fail : SCPError → Prop}

theorem getBallotProtocol_triple {post : BallotProtocol N V H → Slot N V H → Prop}
    (establish : ∀ s, pre s → post s.ballotProtocol s) :
    Triple pre getBallotProtocol post fail :=
  fun s holds => establish s holds

theorem getNominationProtocol_triple {post : NominationProtocol N V H → Slot N V H → Prop}
    (establish : ∀ s, pre s → post s.nominationProtocol s) :
    Triple pre getNominationProtocol post fail :=
  fun s holds => establish s holds

theorem modifyBallotProtocol_triple {post : Unit → Slot N V H → Prop}
    {f : BallotProtocol N V H → BallotProtocol N V H}
    (establish : ∀ s, pre s → post () { s with ballotProtocol := f s.ballotProtocol }) :
    Triple pre (modifyBallotProtocol f) post fail :=
  fun s holds => establish s holds

theorem modifyNominationProtocol_triple {post : Unit → Slot N V H → Prop}
    {f : NominationProtocol N V H → NominationProtocol N V H}
    (establish : ∀ s, pre s → post () { s with nominationProtocol := f s.nominationProtocol }) :
    Triple pre (modifyNominationProtocol f) post fail :=
  fun s holds => establish s holds

theorem setNominationProtocol_triple {post : Unit → Slot N V H → Prop}
    {np : NominationProtocol N V H}
    (establish : ∀ s, pre s → post () { s with nominationProtocol := np }) :
    Triple pre (setNominationProtocol np) post fail :=
  fun s holds => establish s holds

theorem emitEnvelope_triple {post : Unit → Slot N V H → Prop} {statement : SCPStatement N V H}
    (establish : ∀ s, pre s → post () { s with emitted := s.emitted ++ [statement] }) :
    Triple pre (emitEnvelope statement) post fail :=
  fun s holds => establish s holds

theorem dbgAssert_triple {post : Unit → Slot N V H → Prop} {condition : Bool}
    (establish : ∀ s, pre s → condition = true → post () s)
    (aborting : condition = false → ∀ s, pre s → fail .abort) :
    Triple pre (dbgAssert condition) post fail := by
  unfold dbgAssert
  cases condition with
  | true => exact Triple.pure fun s holds => establish s holds rfl
  | false => exact Triple.throw (aborting rfl)

theorem liftExcept_triple {α : Type} {post : α → Slot N V H → Prop} {result : Except SCPError α}
    (establish : ∀ a, result = .ok a → ∀ s, pre s → post a s)
    (failing : ∀ e, result = .error e → fail e) :
    Triple pre (liftExcept result) post fail := by
  unfold liftExcept
  cases result with
  | ok a => exact Triple.pure (establish a rfl)
  | error e => exact Triple.throw fun _ _ => failing e rfl

end Accessors

end StellarCore.Scp
