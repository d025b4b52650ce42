import StellarCore.Scp.BallotProtocol
import StellarCore.Scp.NominationProtocol

/-!
# A slot and the operations on it (`Slot.cpp`, `SCP.cpp`)

`Slot::processEnvelope` hands a statement to the protocol of its type. The statements a
protocol emits come back to it as the local node's own, which is where the recursion of the
protocol lies; `fuel` bounds its depth (the code's own bound, `MAX_ADVANCE_SLOT_RECURSION`,
is part of the ballot protocol). An exception escapes `Slot::processEnvelope` and `SCP`, so
an error ends a run.

An operation is what the herder does with one slot: hand it a statement of another node
(`HerderImpl::recvSCPEnvelope` drops the local node's own), nominate a value, let the
nomination or the ballot timer fire, stop nominating, or bump or abandon the ballot. The
timers are not tracked: a timer may fire at any time, which only adds runs.
-/

set_option autoImplicit false

namespace StellarCore.Scp

namespace Slot

variable {N V H : Type} [LinearOrder N] [LinearOrder V] [DecidableEq H] (scp : SCP N V H)

/-- `Slot::processEnvelope`: a `NOMINATE` statement goes to the nomination protocol, the
others to the ballot protocol; what either emits is processed again as the node's own. -/
def processEnvelope : Nat → SCPStatement N V H → Bool → SlotM N V H EnvelopeState
  | 0, _, _ => throw .outOfFuel
  | fuel + 1, statement, self =>
      match statement.pledges with
      | .nominate _ =>
          NominationProtocol.processEnvelope scp (processEnvelope fuel · true)
            (BallotProtocol.bumpState scp (processEnvelope fuel · true)) statement
      | _ => BallotProtocol.processEnvelope scp (processEnvelope fuel · true) fuel statement self

/-- What the herder can do with a slot. -/
inductive Operation (N V H : Type) where
  /-- `SCP::receiveEnvelope` with a statement of another node. -/
  | receiveEnvelope (statement : SCPStatement N V H)
  /-- `SCP::nominate`. -/
  | nominate (value previousValue : V)
  /-- The nomination timer: `Slot::nominate` with `timedout`. -/
  | nominationTimerExpired (value previousValue : V)
  /-- `SCP::stopNomination`. -/
  | stopNomination
  /-- `Slot::bumpState`. -/
  | bumpState (value : V) (force : Bool)
  /-- `Slot::abandonBallot`. -/
  | abandonBallot
  /-- The ballot timer: `BallotProtocol::ballotProtocolTimerExpired`. -/
  | ballotProtocolTimerExpired

/-- The herder only hands the slot statements of other nodes. -/
def Operation.admissible : Operation N V H → Bool
  | .receiveEnvelope statement => statement.nodeID != scp.localNode.nodeID
  | _ => true

/-- An operation, with `fuel` for the recursion of the protocol and the loops it bounds. -/
def Operation.run (fuel : Nat) : Operation N V H → SlotM N V H Unit
  | .receiveEnvelope statement => do
      let _ ← processEnvelope scp fuel statement false
  | .nominate value previousValue => do
      dbgAssert scp.localNode.isValidator
      let _ ← NominationProtocol.nominate scp (processEnvelope scp fuel · true) fuel value
        previousValue false
  | .nominationTimerExpired value previousValue => do
      let _ ← NominationProtocol.nominate scp (processEnvelope scp fuel · true) fuel value
        previousValue true
  | .stopNomination => modifyNominationProtocol NominationProtocol.stopNomination
  | .bumpState value force => do
      let _ ← BallotProtocol.bumpState scp (processEnvelope scp fuel · true) value force
  | .abandonBallot => do
      let _ ← BallotProtocol.abandonBallot scp (processEnvelope scp fuel · true) 0
  | .ballotProtocolTimerExpired =>
      BallotProtocol.ballotProtocolTimerExpired scp (processEnvelope scp fuel · true)

/-- One operation of the herder that completes. -/
def Step (slot slot' : Slot N V H) : Prop :=
  ∃ (op : Operation N V H) (fuel : Nat), op.admissible scp = true ∧
    (op.run scp fuel).run slot = .ok ((), slot')

/-- The states of a slot that the herder can bring about from a new slot. -/
inductive Reachable : Slot N V H → Prop
  | fresh : Reachable (Slot.fresh scp)
  | step {slot slot' : Slot N V H} : Reachable slot → Step scp slot slot' → Reachable slot'

end Slot

end StellarCore.Scp
