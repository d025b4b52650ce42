import StellarCore.Overlay.FlowControl

/-!
# A connection between two peers

What a peer does with flow control (overlay/Peer.cpp), and two peers joined by one FIFO wire
in each direction.

A read message is begun in the constructor of `CapacityTrackedMessage`, and the peer drops the
remote peer with "unexpected flood message, peer at capacity" when it finds no capacity. It is
then received: a `SEND_MORE_EXTENDED` is checked by `isSendMoreValid` and applied by
`maybeReleaseCapacity`. It is ended when its tracker goes away, and `endMessageProcessing`
may grant capacity back with `sendSendMore`. An increase of the largest transaction raises
the byte capacity and grants the increase.

`Connection.step` is one action of either side, and `Connection.Reachable` is every state a run
of actions in any order reaches from the end of the handshake.
-/

set_option autoImplicit false

namespace StellarCore.Overlay

/-- The two ends of a connection. -/
inductive Side where
  | initiator
  | acceptor
deriving DecidableEq, Repr

namespace Side

def other : Side → Side
  | initiator => acceptor
  | acceptor => initiator

@[simp] theorem other_other (side : Side) : side.other.other = side := by
  cases side <;> rfl

@[simp] theorem other_ne (side : Side) : side.other ≠ side := by
  cases side <;> simp [other]

@[simp] theorem ne_other (side : Side) : side ≠ side.other := fun same =>
  other_ne side same.symm

theorem eq_or_eq_other (side side' : Side) : side' = side ∨ side' = side.other := by
  cases side <;> cases side' <;> simp [other]

end Side

/-- `Peer::sendSendMore`: the grant as it goes on the wire. -/
def sendSendMore (numMessages numBytes : Nat) : StellarMessage :=
  .sendMoreExtended numMessages numBytes

/-- One side of a connection: its flow control, and the messages it has read and not yet
finished with. -/
structure PeerState where
  flowControl : FlowControl
  /-- Read and begun, not yet received. -/
  reading : List StellarMessage
  /-- Received, with their trackers still alive. -/
  processing : List StellarMessage

/-- Two peers, and what each has written that the other has not read yet, oldest first. -/
structure Connection where
  peer : Side → PeerState
  wire : Side → List StellarMessage

/-- What may happen next on a connection. An action that cannot happen in the state it is
tried in (a read of an empty wire, say) leaves the state as it is. -/
inductive Action where
  /-- `Peer::sendMessage`: a flood message goes to the outbound queues, any other message
  straight to the wire. -/
  | send (side : Side) (env : OutboundQueueEnv) (msg : StellarMessage) (id : Nat)
  /-- A write of the next batch of flood messages. -/
  | sendBatch (side : Side)
  /-- The write handler's `processSentMessages`. -/
  | sent (side : Side) (sentMessages : Fin 4 → List Nat)
  /-- The side reads the oldest message the other side wrote, and begins processing it. -/
  | read (side : Side)
  /-- `Peer::recvMessage` of a message read before. -/
  | recv (side : Side) (msg : StellarMessage)
  /-- The tracker of a received message goes away. -/
  | finish (side : Side) (msg : StellarMessage)
  /-- `Peer::handleMaxTxSizeIncrease`. -/
  | maxTxSizeIncrease (side : Side) (increase : UInt32)

/-- After an action: the connection goes on, or a side drops the other with a reason. -/
inductive Outcome where
  | next (connection : Connection)
  | dropped (side : Side) (reason : String)

namespace Connection

variable (cfg : Side → Config)

/-- Replace one side's state. -/
def setPeer (c : Connection) (side : Side) (state : PeerState) : Connection :=
  { c with peer := Function.update c.peer side state }

/-- Replace one side's flow control. -/
def setFlowControl (c : Connection) (side : Side) (fc : FlowControl) : Connection :=
  c.setPeer side { c.peer side with flowControl := fc }

/-- The side writes messages after what it wrote before. -/
def write (c : Connection) (side : Side) (msgs : List StellarMessage) : Connection :=
  { c with wire := Function.update c.wire side (c.wire side ++ msgs) }

@[simp] theorem setPeer_peer (c : Connection) (side : Side) (state : PeerState) :
    (c.setPeer side state).peer = Function.update c.peer side state := rfl

@[simp] theorem setPeer_wire (c : Connection) (side : Side) (state : PeerState) :
    (c.setPeer side state).wire = c.wire := rfl

@[simp] theorem setFlowControl_peer (c : Connection) (side : Side) (fc : FlowControl) :
    (c.setFlowControl side fc).peer =
      Function.update c.peer side { c.peer side with flowControl := fc } := rfl

@[simp] theorem setFlowControl_wire (c : Connection) (side : Side) (fc : FlowControl) :
    (c.setFlowControl side fc).wire = c.wire := rfl

@[simp] theorem write_peer (c : Connection) (side : Side) (msgs : List StellarMessage) :
    (c.write side msgs).peer = c.peer := rfl

@[simp] theorem write_wire (c : Connection) (side : Side) (msgs : List StellarMessage) :
    (c.write side msgs).wire = Function.update c.wire side (c.wire side ++ msgs) := rfl

/-- `Peer::sendMessage`. Honest peers send grants only from flow control, so a grant handed
to it here is not sent. -/
def send (c : Connection) (side : Side) (env : OutboundQueueEnv) (msg : StellarMessage)
    (id : Nat) : Except String Outcome :=
  if isFloodMessage msg then do
    let fc ← (c.peer side).flowControl.addMsgAndMaybeTrimQueue (cfg side) env msg id
    pure (.next (c.setFlowControl side fc))
  else
    match msg with
    | .sendMoreExtended .. => pure (.next c)
    | _ => pure (.next (c.write side [msg]))

/-- `getNextBatchToSend`, and the batch onto the wire in order. -/
def sendBatch (c : Connection) (side : Side) : Except String Outcome := do
  let (batch, fc) ← (c.peer side).flowControl.getNextBatchToSend
  pure (.next ((c.setFlowControl side fc).write side (batch.map (·.mMessage))))

def sent (c : Connection) (side : Side) (sentMessages : Fin 4 → List Nat) :
    Except String Outcome := do
  let fc ← (c.peer side).flowControl.processSentMessages sentMessages
  pure (.next (c.setFlowControl side fc))

/-- The side reads only while its flow control can read, and drops the other side when a
flood message it reads finds no capacity (`Peer::beginMessageProcessing`). -/
def read (c : Connection) (side : Side) : Except String Outcome :=
  match c.wire side.other with
  | [] => pure (.next c)
  | msg :: rest => do
      if ← (c.peer side).flowControl.canRead then
        let (began, fc) ← (c.peer side).flowControl.beginMessageProcessing (cfg side) msg
        if began then
          pure (.next ({ c.setPeer side { c.peer side with
              flowControl := fc
              reading := (c.peer side).reading ++ [msg] } with
            wire := Function.update c.wire side.other rest }))
        else pure (.dropped side "unexpected flood message, peer at capacity")
      else pure (.next c)

/-- `Peer::recvMessage` as far as flow control goes: a grant that is not valid drops the other
side, and a valid one is applied. -/
def recv (c : Connection) (side : Side) (msg : StellarMessage) : Except String Outcome :=
  let state := c.peer side
  if msg ∈ state.reading then
    let received : PeerState :=
      { state with reading := state.reading.erase msg, processing := state.processing ++ [msg] }
    match msg with
    | .sendMoreExtended .. =>
        let (valid, errorMsg) := state.flowControl.isSendMoreValid msg
        if valid then do
          let fc ← state.flowControl.maybeReleaseCapacity msg
          pure (.next (c.setPeer side { received with flowControl := fc }))
        else pure (.dropped side errorMsg)
    | _ => pure (.next (c.setPeer side received))
  else pure (.next c)

/-- `Peer::endMessageProcessing`: a grant with anything in it goes on the wire, its counts
narrowed to `uint32`. -/
def finish (c : Connection) (side : Side) (msg : StellarMessage) : Except String Outcome :=
  let state := c.peer side
  if msg ∈ state.processing then do
    let (res, fc) ← state.flowControl.endMessageProcessing (cfg side) msg
    let c := c.setPeer side { state with flowControl := fc, processing := state.processing.erase msg }
    if 0 < res.numFloodMessages ∨ 0 < res.numFloodBytes then
      pure (.next (c.write side
        [sendSendMore (res.numFloodMessages % 2 ^ 32) (res.numFloodBytes % 2 ^ 32)]))
    else pure (.next c)
  else pure (.next c)

/-- `Peer::handleMaxTxSizeIncrease`: raise the byte capacity and tell the other side. -/
def maxTxSizeIncrease (c : Connection) (side : Side) (increase : UInt32) :
    Except String Outcome :=
  if 0 < increase.toNat then do
    let fc ← (c.peer side).flowControl.handleTxSizeIncrease increase.toNat
    pure (.next ((c.setFlowControl side fc).write side [sendSendMore 0 increase.toNat]))
  else pure (.next c)

def step (c : Connection) : Action → Except String Outcome
  | .send side env msg id => c.send cfg side env msg id
  | .sendBatch side => c.sendBatch side
  | .sent side sentMessages => c.sent side sentMessages
  | .read side => c.read cfg side
  | .recv side msg => c.recv side msg
  | .finish side msg => c.finish cfg side msg
  | .maxTxSizeIncrease side increase => c.maxTxSizeIncrease side increase

/-- A connection right after the handshake: each flow control is fresh, and each side has
written its first grant (`Peer::recvAuth`), of its whole flood capacity in messages and in
bytes. -/
def init (bytesTotal : Side → Nat) : Connection where
  peer side := ⟨FlowControl.init (cfg side) (bytesTotal side), [], []⟩
  wire side := [sendSendMore (cfg side).PEER_FLOOD_READING_CAPACITY (bytesTotal side)]

/-- The states runs of actions reach from the end of a handshake in which each side's byte
capacity is what `getFlowControlBytesTotal` gave for its largest transaction. -/
inductive Reachable : Connection → Prop
  | init (bytesTotal maxTxSize : Side → Nat)
      (computed : ∀ side, getFlowControlBytesTotal (cfg side) (maxTxSize side) = .ok (bytesTotal side))
      (positive : ∀ side, 0 < bytesTotal side) :
      Reachable (init cfg bytesTotal)
  | step {c c' : Connection} (action : Action) :
      Reachable c → c.step cfg action = .ok (.next c') → Reachable c'

end Connection

end StellarCore.Overlay
