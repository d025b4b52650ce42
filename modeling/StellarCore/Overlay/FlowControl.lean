import StellarCore.Overlay.FlowControlCapacity

/-!
# Flow control of one peer

overlay/FlowControl.{h,cpp}: the two capacities of one connection, the queues of flood
messages that wait for outbound capacity, and the counters of what was processed since the
last grant.

A message is queued by `addMsgAndMaybeTrimQueue`, which may drop older messages. It is sent
by `getNextBatchToSend`, which locks outbound capacity for it. It leaves its queue in
`processSentMessages` once written. On the reading side a message is begun
(`beginMessageProcessing` locks local capacity) and ended (`endMessageProcessing` releases it
and says when to grant it back).
-/

set_option autoImplicit false

namespace StellarCore.Overlay

/-- `FlowControl::QueuedOutboundMessage`. The message is held by a shared pointer, and
`processSentMessages` compares pointers: `id` is that pointer. -/
structure QueuedOutboundMessage where
  mMessage : StellarMessage
  id : Nat
  mBeingSent : Bool
deriving DecidableEq, Repr

/-- What `endMessageProcessing` returns: the flood capacity to grant back, and the count of
messages read when that count reaches `PEER_READING_CAPACITY`. -/
structure SendMoreCapacity where
  numFloodMessages : Nat
  numFloodBytes : Nat
  numTotalMessages : Nat
deriving DecidableEq, Repr

/-- What `addMsgAndMaybeTrimQueue` reads of the herder and the ledger manager when it runs. -/
structure OutboundQueueEnv where
  /-- `Herder::getMaxTxSize`. -/
  maxTxSize : Nat
  /-- `LedgerManager::getLastMaxTxSetSizeOps`: the limit of every queue but the SCP one. -/
  lastMaxTxSetSizeOps : Nat
  minLedgerSeqToRemember : Nat
  mostRecentCheckpointSeq : Nat
  isNewerNominationOrBallotSt : StellarMessage → StellarMessage → Bool

/-- The members of `FlowControl` that flow control reads and writes. The four outbound queues
hold SCP messages, transactions, demands and adverts, and are sent in that order. -/
structure FlowControl where
  mFlowControlCapacity : FlowControlCapacity
  mFlowControlBytesCapacity : FlowControlByteCapacity
  mOutboundQueues : Fin 4 → List QueuedOutboundMessage
  mFloodDataProcessed : Nat
  mFloodDataProcessedBytes : Nat
  mTotalMsgsProcessed : Nat
  mAdvertQueueTxHashCount : Nat
  mDemandQueueTxHashCount : Nat
  mTxQueueByteCount : Nat

namespace FlowControl

variable (cfg : Config)

/-- The constructor, with the byte capacity the overlay manager gives the connection. -/
def init (bytesTotal : Nat) : FlowControl where
  mFlowControlCapacity := FlowControlMessageCapacity.init cfg
  mFlowControlBytesCapacity := FlowControlByteCapacity.init bytesTotal
  mOutboundQueues := fun _ => []
  mFloodDataProcessed := 0
  mFloodDataProcessedBytes := 0
  mTotalMsgsProcessed := 0
  mAdvertQueueTxHashCount := 0
  mDemandQueueTxHashCount := 0
  mTxQueueByteCount := 0

/-- Replace one outbound queue. -/
def setQueue (fc : FlowControl) (i : Fin 4) (queue : List QueuedOutboundMessage) :
    FlowControl :=
  { fc with mOutboundQueues := Function.update fc.mOutboundQueues i queue }

@[simp] theorem setQueue_mOutboundQueues (fc : FlowControl) (i : Fin 4)
    (queue : List QueuedOutboundMessage) :
    (fc.setQueue i queue).mOutboundQueues = Function.update fc.mOutboundQueues i queue := rfl

@[simp] theorem setQueue_mFlowControlCapacity (fc : FlowControl) (i : Fin 4)
    (queue : List QueuedOutboundMessage) :
    (fc.setQueue i queue).mFlowControlCapacity = fc.mFlowControlCapacity := rfl

@[simp] theorem setQueue_mFlowControlBytesCapacity (fc : FlowControl) (i : Fin 4)
    (queue : List QueuedOutboundMessage) :
    (fc.setQueue i queue).mFlowControlBytesCapacity = fc.mFlowControlBytesCapacity := rfl

@[simp] theorem setQueue_mFloodDataProcessed (fc : FlowControl) (i : Fin 4)
    (queue : List QueuedOutboundMessage) :
    (fc.setQueue i queue).mFloodDataProcessed = fc.mFloodDataProcessed := rfl

@[simp] theorem setQueue_mFloodDataProcessedBytes (fc : FlowControl) (i : Fin 4)
    (queue : List QueuedOutboundMessage) :
    (fc.setQueue i queue).mFloodDataProcessedBytes = fc.mFloodDataProcessedBytes := rfl

def hasOutboundCapacity (fc : FlowControl) (msg : StellarMessage) : Bool :=
  fc.mFlowControlCapacity.hasOutboundCapacity FlowControlMessageCapacity.getMsgResourceCount
      msg &&
    fc.mFlowControlBytesCapacity.hasOutboundCapacity FlowControlByteCapacity.getMsgResourceCount
      msg

/-- Lock outbound capacity for a message in both units. -/
def lockOutboundCapacity (fc : FlowControl) (msg : StellarMessage) :
    Except String FlowControl := do
  let msgCap ← fc.mFlowControlCapacity.lockOutboundCapacity
    FlowControlMessageCapacity.getMsgResourceCount msg
  let byteCap ← fc.mFlowControlBytesCapacity.lockOutboundCapacity
    FlowControlByteCapacity.getMsgResourceCount msg
  pure { fc with
    mFlowControlCapacity := msgCap
    mFlowControlBytesCapacity := { fc.mFlowControlBytesCapacity with
      toFlowControlCapacity := byteCap } }

/-- On `SEND_MORE_EXTENDED`, add what it grants to the outbound capacity of both units. -/
def maybeReleaseCapacity (fc : FlowControl) (msg : StellarMessage) :
    Except String FlowControl :=
  match msg with
  | .sendMoreExtended .. => do
      let msgCap ← FlowControlMessageCapacity.releaseOutboundCapacity fc.mFlowControlCapacity msg
      let byteCap ←
        FlowControlByteCapacity.releaseOutboundCapacity fc.mFlowControlBytesCapacity msg
      pure { fc with mFlowControlCapacity := msgCap, mFlowControlBytesCapacity := byteCap }
  | _ => pure fc

/-- The inner loop of `getNextBatchToSend`, over one queue. It stops at the first message
the outbound capacity cannot take, and skips the messages already being sent. It locks
outbound capacity for each other message and marks it as being sent. The batch holds the
copies taken before the mark. -/
def sendFromQueue (fc : FlowControl) :
    List QueuedOutboundMessage →
      Except String (List QueuedOutboundMessage × List QueuedOutboundMessage × FlowControl)
  | [] => pure ([], [], fc)
  | outboundMsg :: rest =>
      if !fc.hasOutboundCapacity outboundMsg.mMessage then pure ([], outboundMsg :: rest, fc)
      else if outboundMsg.mBeingSent then do
        let (batch, rest, fc) ← sendFromQueue fc rest
        pure (batch, outboundMsg :: rest, fc)
      else do
        let fc ← fc.lockOutboundCapacity outboundMsg.mMessage
        let (batch, rest, fc) ← sendFromQueue fc rest
        pure (outboundMsg :: batch, { outboundMsg with mBeingSent := true } :: rest, fc)

/-- The outer loop of `getNextBatchToSend`, over the queues in the order given. -/
def sendFromQueues (fc : FlowControl) :
    List (Fin 4) → Except String (List QueuedOutboundMessage × FlowControl)
  | [] => pure ([], fc)
  | i :: rest => do
      let (batch, queue, fc) ← sendFromQueue fc (fc.mOutboundQueues i)
      let (more, fc) ← sendFromQueues (fc.setQueue i queue) rest
      pure (batch ++ more, fc)

def getNextBatchToSend (fc : FlowControl) :
    Except String (List QueuedOutboundMessage × FlowControl) :=
  sendFromQueues fc (List.finRange 4)

/-- The outbound queue a flood message waits in. -/
def getMessagePriority : StellarMessage → Except String (Fin 4)
  | .scpMessage .. => .ok 0
  | .transaction _ => .ok 1
  | .floodDemand _ => .ok 2
  | .floodAdvert _ => .ok 3
  | _ => .error "Unknown message type in getMessagePriority"

/-- The counters a queued message leaves when it is popped in `processSentMessages`. -/
def releaseQueuedMessage (fc : FlowControl) : StellarMessage → Except String FlowControl
  | msg@(.transaction _) =>
      let s := FlowControlByteCapacity.getMsgResourceCount msg
      if fc.mTxQueueByteCount < s then .error "releaseAssert(mTxQueueByteCount >= s)"
      else .ok { fc with mTxQueueByteCount := fc.mTxQueueByteCount - s }
  | .scpMessage .. => .ok fc
  | .floodDemand s =>
      if fc.mDemandQueueTxHashCount < s then .error "releaseAssert(mDemandQueueTxHashCount >= s)"
      else .ok { fc with mDemandQueueTxHashCount := fc.mDemandQueueTxHashCount - s }
  | .floodAdvert s =>
      if fc.mAdvertQueueTxHashCount < s then .error "releaseAssert(mAdvertQueueTxHashCount >= s)"
      else .ok { fc with mAdvertQueueTxHashCount := fc.mAdvertQueueTxHashCount - s }
  | _ => .error "Unknown message type in processSentMessages"

/-- The inner loop of `processSentMessages`, over the messages written from one queue. A
written message that is still at the front is popped; any other was already cleaned up from
the front, and is skipped. -/
def popSent (fc : FlowControl) :
    List QueuedOutboundMessage → List Nat → Except String (List QueuedOutboundMessage × FlowControl)
  | queue, [] => pure (queue, fc)
  | [], _ :: items => popSent fc [] items
  | front :: queue, item :: items =>
      if item ≠ front.id then popSent fc (front :: queue) items
      else do
        let fc ← fc.releaseQueuedMessage front.mMessage
        popSent fc queue items

/-- The outer loop of `processSentMessages`, over the queues in the order given. -/
def processSentQueues (sentMessages : Fin 4 → List Nat) (fc : FlowControl) :
    List (Fin 4) → Except String FlowControl
  | [] => pure fc
  | i :: rest => do
      let (queue, fc) ← popSent fc (fc.mOutboundQueues i) (sentMessages i)
      processSentQueues sentMessages (fc.setQueue i queue) rest

def processSentMessages (fc : FlowControl) (sentMessages : Fin 4 → List Nat) :
    Except String FlowControl :=
  processSentQueues sentMessages fc (List.finRange 4)

/-- An SCP message for a slot the node no longer keeps, other than the last checkpoint's. -/
def tooOld (env : OutboundQueueEnv) (queued : QueuedOutboundMessage) : Bool :=
  match queued.mMessage with
  | .scpMessage slotIndex .. =>
      decide (slotIndex < env.minLedgerSeqToRemember) &&
        decide (slotIndex ≠ env.mostRecentCheckpointSeq)
  | _ => false

/-- The SCP loop of `addMsgAndMaybeTrimQueue`, over the queue before its back, which is the
message just added. It skips what is being sent and erases what is too old. The first message
the back supersedes takes the back's place, once. After that the loop only erases, and when
nothing was superseded it reaches the back itself, which it may erase too. -/
def trimScpQueue (env : OutboundQueueEnv) (back : QueuedOutboundMessage) :
    List QueuedOutboundMessage → Except String (List QueuedOutboundMessage)
  | [] => pure (if !back.mBeingSent && tooOld env back then [] else [back])
  | it :: rest =>
      if it.mBeingSent then (it :: ·) <$> trimScpQueue env back rest
      else if tooOld env it then trimScpQueue env back rest
      else if env.isNewerNominationOrBallotSt it.mMessage back.mMessage then
        if back.mBeingSent then .error "releaseAssert(!queue.back().mBeingSent)"
        else pure (back :: rest.filter fun queued => queued.mBeingSent || !tooOld env queued)
      else (it :: ·) <$> trimScpQueue env back rest

/-- Queue a flood message, and trim its queue: transactions over the size limit are not
queued, a queue of transactions, demands or adverts over its limit is dropped whole, and SCP
messages are trimmed by slot and by what supersedes them. -/
def addMsgAndMaybeTrimQueue (env : OutboundQueueEnv) (fc : FlowControl)
    (msg : StellarMessage) (id : Nat) : Except String FlowControl :=
  let limit := env.lastMaxTxSetSizeOps
  let entry : QueuedOutboundMessage := ⟨msg, id, false⟩
  match msg with
  | .scpMessage .. => do
      let queue ← trimScpQueue env entry (fc.mOutboundQueues 0)
      pure (fc.setQueue 0 queue)
  | .transaction _ =>
      let bytes := FlowControlByteCapacity.getMsgResourceCount msg
      -- a transaction over the byte limit would not be flooded anyway
      if env.maxTxSize < bytes then pure fc
      else
        let fc := { fc with mTxQueueByteCount := fc.mTxQueueByteCount + bytes }
        let queue := fc.mOutboundQueues 1 ++ [entry]
        -- at the limit the node is far behind: drop the entire queue
        if limit < queue.length ∨ cfg.OUTBOUND_TX_QUEUE_BYTE_LIMIT < fc.mTxQueueByteCount then
          pure { fc.setQueue 1 [] with mTxQueueByteCount := 0 }
        else pure (fc.setQueue 1 queue)
  | .floodDemand s =>
      let fc := { fc with mDemandQueueTxHashCount := fc.mDemandQueueTxHashCount + s }
      if limit < fc.mDemandQueueTxHashCount then
        pure { fc.setQueue 2 [] with mDemandQueueTxHashCount := 0 }
      else pure (fc.setQueue 2 (fc.mOutboundQueues 2 ++ [entry]))
  | .floodAdvert s =>
      let fc := { fc with mAdvertQueueTxHashCount := fc.mAdvertQueueTxHashCount + s }
      if limit < fc.mAdvertQueueTxHashCount then
        pure { fc.setQueue 3 [] with mAdvertQueueTxHashCount := 0 }
      else pure (fc.setQueue 3 (fc.mOutboundQueues 3 ++ [entry]))
  | _ => .error "Unknown message type in addMsgAndMaybeTrimQueue"

/-- Lock local capacity for a message read: the message unit first, then, only if that
succeeded, the byte unit. -/
def beginMessageProcessing (fc : FlowControl) (msg : StellarMessage) :
    Except String (Bool × FlowControl) := do
  let (locked, msgCap) ← fc.mFlowControlCapacity.lockLocalCapacity
    (FlowControlMessageCapacity.getCapacityLimits cfg)
    FlowControlMessageCapacity.getMsgResourceCount msg
  let fc := { fc with mFlowControlCapacity := msgCap }
  if locked then do
    let (locked, byteCap) ← fc.mFlowControlBytesCapacity.lockLocalCapacity
      fc.mFlowControlBytesCapacity.mCapacityLimits FlowControlByteCapacity.getMsgResourceCount msg
    pure (locked, { fc with
      mFlowControlBytesCapacity := { fc.mFlowControlBytesCapacity with
        toFlowControlCapacity := byteCap } })
  else pure (false, fc)

/-- Release the local capacity of a processed message, and grant back what was processed once
a batch of messages or of bytes is reached. -/
def endMessageProcessing (fc : FlowControl) (msg : StellarMessage) :
    Except String (SendMoreCapacity × FlowControl) := do
  let (released, msgCap) ← fc.mFlowControlCapacity.releaseLocalCapacity
    (FlowControlMessageCapacity.getCapacityLimits cfg)
    FlowControlMessageCapacity.getMsgResourceCount msg
  let (releasedBytes, byteCap) ← fc.mFlowControlBytesCapacity.releaseLocalCapacity
    fc.mFlowControlBytesCapacity.mCapacityLimits FlowControlByteCapacity.getMsgResourceCount msg
  let processed := fc.mFloodDataProcessed + released
  let processedBytes := fc.mFloodDataProcessedBytes + releasedBytes
  let totalProcessed := fc.mTotalMsgsProcessed + 1
  if cfg.FLOW_CONTROL_SEND_MORE_BATCH_SIZE < processed then
    .error "releaseAssert(mFloodDataProcessed <= FLOW_CONTROL_SEND_MORE_BATCH_SIZE)"
  else
    let shouldSendMore := processed == cfg.FLOW_CONTROL_SEND_MORE_BATCH_SIZE ||
      decide (getFlowControlBytesBatch cfg ≤ processedBytes)
    let readingBatchDone := totalProcessed == cfg.PEER_READING_CAPACITY
    -- a full count of messages read is reported and restarts; a grant hands back what was
    -- processed, and both flood counters restart
    pure (⟨if shouldSendMore then processed else 0, if shouldSendMore then processedBytes else 0,
        if readingBatchDone then totalProcessed else 0⟩, { fc with
      mFlowControlCapacity := msgCap
      mFlowControlBytesCapacity := { fc.mFlowControlBytesCapacity with
        toFlowControlCapacity := byteCap }
      mFloodDataProcessed := if shouldSendMore then 0 else processed
      mFloodDataProcessedBytes := if shouldSendMore then 0 else processedBytes
      mTotalMsgsProcessed := if readingBatchDone then 0 else totalProcessed })

/-- Whether a grant may be applied; when it may not, the message the peer is dropped with.
A grant must carry bytes (it may carry no messages, for an upgrade), and must not overflow
the `uint64` outbound capacities. -/
def isSendMoreValid (fc : FlowControl) : StellarMessage → Bool × String
  | .sendMoreExtended numMessages numBytes =>
      if numBytes = 0 then (false, "invalid message SEND_MORE_EXTENDED")
      else if 2 ^ 64 - 1 - fc.mFlowControlCapacity.mOutboundCapacity < numMessages ∨
          2 ^ 64 - 1 - fc.mFlowControlBytesCapacity.mOutboundCapacity < numBytes then
        (false, "Peer capacity overflow")
      else (true, "")
  | _ => (false, "unexpected message type")

/-- Raise the byte capacity and its limit by the growth of the largest transaction. -/
def handleTxSizeIncrease (fc : FlowControl) (increase : Nat) : Except String FlowControl :=
  if increase = 0 then .error "releaseAssert(increase > 0)"
  else .ok { fc with
    mFlowControlBytesCapacity := fc.mFlowControlBytesCapacity.handleTxSizeIncrease increase }

def canRead (fc : FlowControl) : Except String Bool := do
  if ← FlowControlByteCapacity.canRead fc.mFlowControlBytesCapacity then
    FlowControlMessageCapacity.canRead fc.mFlowControlCapacity
  else pure false

end FlowControl

end StellarCore.Overlay
