import Mathlib
import StellarCore.Lib.Except

/-!
# Flow control capacity

What a peer keeps, in one unit, for the flood traffic of one connection
(overlay/FlowControlCapacity.{h,cpp}). It has the capacity it has left for reading. It has the
limits that capacity returns to. It has the outbound capacity the other peer has granted it.
A message counts one in the message unit and its XDR size in the byte unit. Only flood
messages take flood capacity, and only the message unit limits the total of what is read.

The operations of the base class take the unit's two virtual members as arguments: the
limits (`getCapacityLimits`) and the count of a message (`getMsgResourceCount`).
`FlowControlMessageCapacity` and `FlowControlByteCapacity` supply them.
-/

set_option autoImplicit false

namespace StellarCore.Overlay

/-- The messages flow control tells apart, with what it reads of each. The rest of a message
is abstracted by its size. `other` stands for every message type that is not flooded and
is not a grant: HELLO, AUTH, PEERS, GET_TX_SET, TX_SET and so on. -/
inductive StellarMessage where
  /-- SCP_MESSAGE: the statement's slot, the rest of the statement (what the herder compares)
  and the size of the envelope. -/
  | scpMessage (slotIndex statement envelopeSize : Nat)
  /-- TRANSACTION, with the size of its envelope. -/
  | transaction (envelopeSize : Nat)
  /-- FLOOD_DEMAND, with the number of transaction hashes it asks for. -/
  | floodDemand (txHashes : Nat)
  /-- FLOOD_ADVERT, with the number of transaction hashes it announces. -/
  | floodAdvert (txHashes : Nat)
  /-- SEND_MORE_EXTENDED: a grant of capacity in both units. -/
  | sendMoreExtended (numMessages numBytes : Nat)
  | other (bodySize : Nat)
deriving DecidableEq, Repr

namespace StellarMessage

/-- `xdr::xdr_size` of a message: four bytes for its type, then the body. A vector of hashes
is its length, then 32 bytes for each hash. -/
def xdrSize : StellarMessage → Nat
  | scpMessage _ _ envelopeSize => 4 + envelopeSize
  | transaction envelopeSize => 4 + envelopeSize
  | floodDemand txHashes => 8 + 32 * txHashes
  | floodAdvert txHashes => 8 + 32 * txHashes
  | sendMoreExtended _ _ => 12
  | other bodySize => 4 + bodySize

theorem xdrSize_pos (msg : StellarMessage) : 0 < msg.xdrSize := by
  cases msg <;> simp only [xdrSize] <;> omega

end StellarMessage

/-- `OverlayManager::isFloodMessage`. -/
def isFloodMessage : StellarMessage → Bool
  | .scpMessage .. | .transaction _ | .floodDemand _ | .floodAdvert _ => true
  | .sendMoreExtended .. | .other _ => false

/-- What flow control reads of a node's `Config`, with the bounds `Config` enforces when it
loads them: every count is a `uint32`, the message batch is at least one, and each batch is at
most its capacity. -/
structure Config where
  PEER_READING_CAPACITY : Nat
  PEER_FLOOD_READING_CAPACITY : Nat
  FLOW_CONTROL_SEND_MORE_BATCH_SIZE : Nat
  PEER_FLOOD_READING_CAPACITY_BYTES : Nat
  FLOW_CONTROL_SEND_MORE_BATCH_SIZE_BYTES : Nat
  OUTBOUND_TX_QUEUE_BYTE_LIMIT : Nat
  readingCapacity_lt : PEER_READING_CAPACITY < 2 ^ 32
  floodReadingCapacity_lt : PEER_FLOOD_READING_CAPACITY < PEER_READING_CAPACITY
  sendMoreBatchSize_pos : 0 < FLOW_CONTROL_SEND_MORE_BATCH_SIZE
  sendMoreBatchSize_le : FLOW_CONTROL_SEND_MORE_BATCH_SIZE ≤ PEER_FLOOD_READING_CAPACITY
  floodReadingCapacityBytes_lt : PEER_FLOOD_READING_CAPACITY_BYTES < 2 ^ 32
  sendMoreBatchSizeBytes_le :
    FLOW_CONTROL_SEND_MORE_BATCH_SIZE_BYTES ≤ PEER_FLOOD_READING_CAPACITY_BYTES

/-- The defaults `Config::Config` sets. The byte parameters left at zero let the capacity make
room for the largest transaction. -/
def Config.defaults : Config where
  PEER_READING_CAPACITY := 201
  PEER_FLOOD_READING_CAPACITY := 200
  FLOW_CONTROL_SEND_MORE_BATCH_SIZE := 40
  PEER_FLOOD_READING_CAPACITY_BYTES := 0
  FLOW_CONTROL_SEND_MORE_BATCH_SIZE_BYTES := 0
  OUTBOUND_TX_QUEUE_BYTE_LIMIT := 1024 * 1024 * 3
  readingCapacity_lt := by decide
  floodReadingCapacity_lt := by decide
  sendMoreBatchSize_pos := by decide
  sendMoreBatchSize_le := by decide
  floodReadingCapacityBytes_lt := by decide
  sendMoreBatchSizeBytes_le := by decide

def INITIAL_PEER_FLOOD_READING_CAPACITY_BYTES : Nat := 300000

def INITIAL_FLOW_CONTROL_SEND_MORE_BATCH_SIZE_BYTES : Nat := 100000

/-- `OverlayManager::getFlowControlBytesTotal`. When the byte parameters are left out of the
configuration, the capacity makes room for the largest transaction. The sum is a `uint32`. -/
def getFlowControlBytesTotal (cfg : Config) (maxTxSize : Nat) : Except String Nat :=
  if maxTxSize = 0 then .error "releaseAssert(maxTxSize > 0)"
  else if cfg.PEER_FLOOD_READING_CAPACITY_BYTES = 0 ∧
      cfg.FLOW_CONTROL_SEND_MORE_BATCH_SIZE_BYTES = 0 then
    if ¬ (INITIAL_PEER_FLOOD_READING_CAPACITY_BYTES -
        INITIAL_FLOW_CONTROL_SEND_MORE_BATCH_SIZE_BYTES ≥ maxTxSize) then
      .ok ((maxTxSize + INITIAL_FLOW_CONTROL_SEND_MORE_BATCH_SIZE_BYTES) % 2 ^ 32)
    else .ok INITIAL_PEER_FLOOD_READING_CAPACITY_BYTES
  else .ok cfg.PEER_FLOOD_READING_CAPACITY_BYTES

/-- `OverlayManager::getFlowControlBytesBatch`. -/
def getFlowControlBytesBatch (cfg : Config) : Nat :=
  if cfg.PEER_FLOOD_READING_CAPACITY_BYTES = 0 ∧
      cfg.FLOW_CONTROL_SEND_MORE_BATCH_SIZE_BYTES = 0 then
    INITIAL_FLOW_CONTROL_SEND_MORE_BATCH_SIZE_BYTES
  else cfg.FLOW_CONTROL_SEND_MORE_BATCH_SIZE_BYTES

/-- The byte capacity is a `uint32`. -/
theorem getFlowControlBytesTotal_lt {cfg : Config} {maxTxSize total : Nat}
    (computed : getFlowControlBytesTotal cfg maxTxSize = .ok total) : total < 2 ^ 32 := by
  unfold getFlowControlBytesTotal at computed
  split at computed
  · cases computed
  split at computed
  · split at computed
    · rw [← Except.ok.inj computed]
      exact Nat.mod_lt _ (Nat.two_pow_pos 32)
    · rw [← Except.ok.inj computed]
      decide
  · rw [← Except.ok.inj computed]
    exact cfg.floodReadingCapacityBytes_lt

/-- `FlowControlCapacity::ReadingCapacity`: the capacity for flood messages, and the capacity
for all messages when the unit limits it. -/
structure ReadingCapacity where
  mFloodCapacity : Nat
  mTotalCapacity : Option Nat
deriving DecidableEq, Repr

/-- The members of `FlowControlCapacity`. -/
structure FlowControlCapacity where
  mCapacity : ReadingCapacity
  mOutboundCapacity : Nat
deriving DecidableEq, Repr

namespace FlowControlCapacity

variable (getCapacityLimits : ReadingCapacity) (getMsgResourceCount : StellarMessage → Nat)

def checkCapacityInvariants (c : FlowControlCapacity) : Except String Unit :=
  if getCapacityLimits.mFloodCapacity < c.mCapacity.mFloodCapacity then
    .error "releaseAssert(getCapacityLimits().mFloodCapacity >= mCapacity.mFloodCapacity)"
  else
    match getCapacityLimits.mTotalCapacity, c.mCapacity.mTotalCapacity with
    | some _, none => .error "releaseAssert(mCapacity.mTotalCapacity)"
    | some limit, some total =>
        if limit < total then
          .error "releaseAssert(*getCapacityLimits().mTotalCapacity >= *mCapacity.mTotalCapacity)"
        else .ok ()
    | none, some _ => .error "releaseAssert(!mCapacity.mTotalCapacity)"
    | none, none => .ok ()

def hasOutboundCapacity (c : FlowControlCapacity) (msg : StellarMessage) : Bool :=
  decide (getMsgResourceCount msg ≤ c.mOutboundCapacity)

def lockOutboundCapacity (c : FlowControlCapacity) (msg : StellarMessage) :
    Except String FlowControlCapacity :=
  if isFloodMessage msg then
    if hasOutboundCapacity getMsgResourceCount c msg then
      .ok { c with mOutboundCapacity := c.mOutboundCapacity - getMsgResourceCount msg }
    else .error "releaseAssert(hasOutboundCapacity(msg))"
  else .ok c

/-- The take of `lockLocalCapacity` from the total capacity, when the unit limits it. -/
def lockTotalCapacity : Option Nat → Nat → Except String (Option Nat)
  | some total, msgResources =>
      if total < msgResources then .error "releaseAssert(*mCapacity.mTotalCapacity >= msgResources)"
      else .ok (some (total - msgResources))
  | none, _ => .ok none

/-- Take the message's resources from the reading capacity. For a flood message without
flood capacity the answer is `false`, and the total capacity stays taken. -/
def lockLocalCapacity (c : FlowControlCapacity) (msg : StellarMessage) :
    Except String (Bool × FlowControlCapacity) := do
  checkCapacityInvariants getCapacityLimits c
  let msgResources := getMsgResourceCount msg
  let mTotalCapacity ← lockTotalCapacity c.mCapacity.mTotalCapacity msgResources
  let c := { c with mCapacity := { c.mCapacity with mTotalCapacity } }
  if isFloodMessage msg then
    if c.mCapacity.mFloodCapacity < msgResources then pure (false, c)
    else
      pure (true, { c with
        mCapacity := { c.mCapacity with
          mFloodCapacity := c.mCapacity.mFloodCapacity - msgResources } })
  else pure (true, c)

/-- Give the message's resources back; the result is the flood capacity released. -/
def releaseLocalCapacity (c : FlowControlCapacity) (msg : StellarMessage) :
    Except String (Nat × FlowControlCapacity) := do
  let resourcesFreed := getMsgResourceCount msg
  let c := { c with
    mCapacity := { c.mCapacity with
      mTotalCapacity := c.mCapacity.mTotalCapacity.map (· + resourcesFreed) } }
  let (releasedFloodCapacity, c) :=
    if isFloodMessage msg then
      (resourcesFreed, { c with
        mCapacity := { c.mCapacity with
          mFloodCapacity := c.mCapacity.mFloodCapacity + resourcesFreed } })
    else (0, c)
  checkCapacityInvariants getCapacityLimits c
  pure (releasedFloodCapacity, c)

end FlowControlCapacity

namespace FlowControlMessageCapacity

/-- Each message takes one unit of capacity. -/
def getMsgResourceCount (_ : StellarMessage) : Nat := 1

def getCapacityLimits (cfg : Config) : ReadingCapacity :=
  ⟨cfg.PEER_FLOOD_READING_CAPACITY, some cfg.PEER_READING_CAPACITY⟩

/-- The constructor: the capacity starts at its limits, with nothing granted yet. -/
def init (cfg : Config) : FlowControlCapacity := ⟨getCapacityLimits cfg, 0⟩

def releaseOutboundCapacity (c : FlowControlCapacity) :
    StellarMessage → Except String FlowControlCapacity
  | .sendMoreExtended numMessages _ =>
      .ok { c with mOutboundCapacity := c.mOutboundCapacity + numMessages }
  | _ => .error "releaseAssert(msg.type() == SEND_MORE_EXTENDED)"

def canRead (c : FlowControlCapacity) : Except String Bool :=
  match c.mCapacity.mTotalCapacity with
  | some total => .ok (decide (0 < total))
  | none => .error "releaseAssert(mCapacity.mTotalCapacity)"

end FlowControlMessageCapacity

/-- `FlowControlByteCapacity`: its limits are a member, raised when the largest transaction
grows. -/
structure FlowControlByteCapacity extends FlowControlCapacity where
  mCapacityLimits : ReadingCapacity
deriving DecidableEq, Repr

namespace FlowControlByteCapacity

/-- A message takes its size in bytes (`msgBodySize`). -/
def getMsgResourceCount (msg : StellarMessage) : Nat := msg.xdrSize

def getCapacityLimits (c : FlowControlByteCapacity) : ReadingCapacity := c.mCapacityLimits

/-- The constructor, from the byte capacity of the connection. -/
def init (capacity : Nat) : FlowControlByteCapacity :=
  ⟨⟨⟨capacity, none⟩, 0⟩, ⟨capacity, none⟩⟩

def releaseOutboundCapacity (c : FlowControlByteCapacity) :
    StellarMessage → Except String FlowControlByteCapacity
  | .sendMoreExtended _ numBytes =>
      .ok { c with mOutboundCapacity := c.mOutboundCapacity + numBytes }
  | _ => .error "releaseAssert(msg.type() == SEND_MORE_EXTENDED)"

def canRead (c : FlowControlByteCapacity) : Except String Bool :=
  match c.mCapacity.mTotalCapacity with
  | some _ => .error "releaseAssert(!mCapacity.mTotalCapacity)"
  | none => .ok true

def handleTxSizeIncrease (c : FlowControlByteCapacity) (increase : Nat) :
    FlowControlByteCapacity :=
  { c with
    mCapacity := { c.mCapacity with mFloodCapacity := c.mCapacity.mFloodCapacity + increase }
    mCapacityLimits := { c.mCapacityLimits with
      mFloodCapacity := c.mCapacityLimits.mFloodCapacity + increase } }

end FlowControlByteCapacity

end StellarCore.Overlay
