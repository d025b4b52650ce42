import StellarCore.Overlay.Connection
import StellarCore.Overlay.FlowControlSpec

/-!
# Flow control between two honest peers

The books of a connection, and what every run keeps of them.

Each side keeps books of what it has read (`SideBooks`): a message read holds its flood
capacity until it is ended, every message read holds one unit of the total, and the processed
counters stay under their batches. For each direction and unit the capacity is conserved
(`Balanced`). The sender's outbound capacity, the flood on the wire, the grants the receiver
wrote and the sender has not applied, and what the receiver processed and has not granted
back add up to the receiver's flood capacity.

Each action is taken apart once (`send_next` to `maxTxSizeIncrease_next`: what a step that goes
on did), and every invariant is derived from those. The books hold while the byte limits fit
the `uint32` counts of a grant (`Fits`); past that, the grant `endMessageProcessing` hands back
is narrowed, and the books no longer balance.
-/

set_option autoImplicit false

namespace StellarCore.Overlay

namespace Side

@[simp] theorem update_other {α : Type} (f : Side → α) (side : Side) (a : α) :
    Function.update f side a side.other = f side.other :=
  Function.update_of_ne (other_ne side) a f

@[simp] theorem update_other_self {α : Type} (f : Side → α) (side : Side) (a : α) :
    Function.update f side.other a side = f side :=
  Function.update_of_ne (ne_other side) a f

end Side

/-- The messages a side has read and not finished with: they hold its reading capacity. -/
def PeerState.inProcess (state : PeerState) : List StellarMessage :=
  state.reading ++ state.processing

/-- Receiving a message moves it to those being processed: what is in process stays. -/
theorem PeerState.floodSum_received {state : PeerState} {msg : StellarMessage}
    (member : msg ∈ state.reading) (fc : FlowControl) (u : CapacityUnit) :
    u.floodSum (inProcess { state with
      flowControl := fc
      reading := state.reading.erase msg
      processing := state.processing ++ [msg] }) = u.floodSum state.inProcess := by
  have moved := u.floodSum_erase member
  simp only [inProcess, CapacityUnit.floodSum_append, CapacityUnit.floodSum_cons,
    CapacityUnit.floodSum_nil]
  omega

theorem PeerState.length_received {state : PeerState} {msg : StellarMessage}
    (member : msg ∈ state.reading) (fc : FlowControl) :
    (inProcess { state with
      flowControl := fc
      reading := state.reading.erase msg
      processing := state.processing ++ [msg] }).length = state.inProcess.length := by
  have shorter := List.length_erase_of_mem member
  have nonempty := List.length_pos_of_mem member
  simp only [inProcess, List.length_append, List.length_cons, List.length_nil, shorter]
  omega

/-- A grant carries bytes; `isSendMoreValid` refuses one that does not. -/
def CarriesBytes : StellarMessage → Prop
  | .sendMoreExtended _ numBytes => 0 < numBytes
  | _ => True

namespace Connection

open FlowControl (QueueBooks SameCapacities SameReading Ended)

variable (cfg : Side → Config)

/-- What one side's flow control keeps of what it has read, and of its queues. -/
structure SideBooks (config : Config) (state : PeerState) : Prop where
  queues : QueueBooks state.flowControl
  flood : ∀ u : CapacityUnit, (u.capacity state.flowControl).mCapacity.mFloodCapacity +
    u.floodSum state.inProcess = (u.limits config state.flowControl).mFloodCapacity
  total : state.flowControl.mFlowControlCapacity.mCapacity.mTotalCapacity =
    some (config.PEER_READING_CAPACITY - state.inProcess.length)
  inProcess_le : state.inProcess.length ≤ config.PEER_READING_CAPACITY
  bytesTotal : state.flowControl.mFlowControlBytesCapacity.mCapacity.mTotalCapacity = none
  bytesLimitsTotal :
    state.flowControl.mFlowControlBytesCapacity.mCapacityLimits.mTotalCapacity = none
  processed_lt : state.flowControl.mFloodDataProcessed < config.FLOW_CONTROL_SEND_MORE_BATCH_SIZE
  processed_le : state.flowControl.mFloodDataProcessed ≤ state.flowControl.mFloodDataProcessedBytes

/-- The byte limit of a side, raised by each increase of the largest transaction. -/
def byteLimit (c : Connection) (side : Side) : Nat :=
  (c.peer side).flowControl.mFlowControlBytesCapacity.mCapacityLimits.mFloodCapacity

/-- Both byte limits fit the `uint32` counts of a grant. -/
def Fits (c : Connection) : Prop :=
  ∀ side, c.byteLimit side < 2 ^ 32

/-- What `side` may still send to the other side in a unit, as the connection holds it: its
outbound capacity, the flood it wrote that is not read yet, the grants the other side wrote
that `side` has not applied yet, and what the other side processed and has not granted back. -/
def outstanding (c : Connection) (side : Side) (u : CapacityUnit) : Nat :=
  (u.capacity (c.peer side).flowControl).mOutboundCapacity + u.floodSum (c.wire side) +
    u.grantSum (c.wire side.other) + u.grantSum (c.peer side).reading +
    u.processed (c.peer side.other).flowControl

/-- The books of the flood from `side` balance in the unit: what is outstanding is what the
other side can still read. -/
def Balanced (c : Connection) (side : Side) (u : CapacityUnit) : Prop :=
  c.outstanding side u = (u.capacity (c.peer side.other).flowControl).mCapacity.mFloodCapacity

/-- The invariant of a connection between honest peers: the books of each side and of each
direction, and every grant not yet applied carries bytes. -/
structure Invariant (c : Connection) : Prop where
  sides : ∀ side, SideBooks (cfg side) (c.peer side)
  balanced : ∀ side u, c.Balanced side u
  wires : ∀ side, ∀ msg ∈ c.wire side, CarriesBytes msg
  readings : ∀ side, ∀ msg ∈ (c.peer side).reading, CarriesBytes msg

/-- A side can always end a message it has read: the capacity it gives back fits the limits,
and the counter of messages processed stays within its batch. -/
theorem SideBooks.ended {config : Config} {state : PeerState} (books : SideBooks config state)
    {msg : StellarMessage} (member : msg ∈ state.inProcess) :
    ∃ res fc, state.flowControl.endMessageProcessing config msg = .ok (res, fc) ∧
      Ended config state.flowControl msg res fc := by
  apply FlowControl.endMessageProcessing_ok
  · intro u
    apply FlowControlCapacity.checkCapacityInvariants_ok
    · have taken := u.floodResources_le_floodSum member
      have flood := books.flood u
      show (u.capacity state.flowControl).mCapacity.mFloodCapacity + u.floodResources msg ≤ _
      omega
    · have nonempty := List.length_pos_of_mem member
      have bounded := books.inProcess_le
      cases u
      · simp only [CapacityUnit.limits, CapacityUnit.capacity, FlowControlCapacity.releasedLocal,
          FlowControlMessageCapacity.getCapacityLimits, books.total, Option.map_some, TotalFits,
          CapacityUnit.getMsgResourceCount, FlowControlMessageCapacity.getMsgResourceCount]
        omega
      · simp only [CapacityUnit.limits, CapacityUnit.capacity, FlowControlCapacity.releasedLocal,
          books.bytesTotal, books.bytesLimitsTotal, Option.map_none, TotalFits]
  · have below := books.processed_lt
    have one := CapacityUnit.floodResources_messages_le_one msg
    omega

/-! ## What one step does -/

section Steps

variable {cfg} {c c' : Connection} {s : Side}

/-- Sending a flood message queues it, a grant is not sent, and any other message goes on the
wire. -/
theorem send_next {env : OutboundQueueEnv} {msg : StellarMessage} {id : Nat}
    (books : QueueBooks (c.peer s).flowControl)
    (stepped : c.send cfg s env msg id = .ok (.next c')) :
    (∃ fc, QueueBooks fc ∧ SameCapacities (c.peer s).flowControl fc ∧
        c' = c.setFlowControl s fc) ∨
      c' = c ∨ ∃ bodySize, c' = c.write s [.other bodySize] := by
  unfold send at stepped
  split at stepped
  · next flood =>
      obtain ⟨fc, added, books', same⟩ :=
        FlowControl.addMsgAndMaybeTrimQueue_ok (cfg s) env books flood id
      rw [added, Except.ok_bind] at stepped
      cases stepped
      exact .inl ⟨fc, books', same, rfl⟩
  · next notFlood =>
      cases msg with
      | sendMoreExtended =>
          cases stepped
          exact .inr (.inl rfl)
      | other bodySize =>
          cases stepped
          exact .inr (.inr ⟨bodySize, rfl⟩)
      | _ => exact absurd rfl notFlood

theorem sendBatch_next (books : QueueBooks (c.peer s).flowControl)
    (stepped : c.sendBatch s = .ok (.next c')) :
    ∃ msgs queues, c' = (c.setFlowControl s { FlowControl.afterBatch msgs (c.peer s).flowControl
        with mOutboundQueues := queues }).write s msgs ∧
      QueueBooks { FlowControl.afterBatch msgs (c.peer s).flowControl with
        mOutboundQueues := queues } ∧
      (∀ u : CapacityUnit,
        u.floodSum msgs ≤ (u.capacity (c.peer s).flowControl).mOutboundCapacity) ∧
      ∀ msg ∈ msgs, isFloodMessage msg = true := by
  obtain ⟨batch, queues, got, fits, books', flood⟩ := FlowControl.getNextBatchToSend_books books
  unfold sendBatch at stepped
  rw [got, Except.ok_bind] at stepped
  cases stepped
  exact ⟨batch.map (·.mMessage), queues, rfl, books', fits, flood⟩

theorem sent_next {sentMessages : Fin 4 → List Nat} (books : QueueBooks (c.peer s).flowControl)
    (stepped : c.sent s sentMessages = .ok (.next c')) :
    ∃ fc, QueueBooks fc ∧ SameCapacities (c.peer s).flowControl fc ∧
      c' = c.setFlowControl s fc := by
  obtain ⟨fc, processed, books', same⟩ := FlowControl.processSentMessages_ok books sentMessages
  unfold Connection.sent at stepped
  rw [processed, Except.ok_bind] at stepped
  cases stepped
  exact ⟨fc, books', same, rfl⟩

/-- A read that goes on either reads nothing, or takes the oldest message off the wire while
the total capacity lasts, and locks its capacity. -/
theorem read_next (books : SideBooks (cfg s) (c.peer s))
    (stepped : c.read cfg s = .ok (.next c')) :
    c' = c ∨ ∃ msg rest, c.wire s.other = msg :: rest ∧
      (c.peer s).inProcess.length < (cfg s).PEER_READING_CAPACITY ∧
      (∀ u : CapacityUnit, u.floodResources msg ≤
        (u.capacity (c.peer s).flowControl).mCapacity.mFloodCapacity) ∧
      c' = { c.setPeer s { c.peer s with
          flowControl := (c.peer s).flowControl.mapCapacities fun u cap =>
            cap.lockedLocal u.getMsgResourceCount msg
          reading := (c.peer s).reading ++ [msg] } with
        wire := Function.update c.wire s.other rest } := by
  unfold read at stepped
  split at stepped
  · cases stepped
    exact .inl rfl
  · next msg rest oldest =>
      rw [FlowControl.canRead_eq books.bytesTotal books.total, Except.ok_bind] at stepped
      split at stepped
      · next room =>
          obtain ⟨⟨began, fc⟩, begun, rest⟩ := Except.bind_eq_ok_iff.1 stepped
          cases began
          · cases rest
          · cases rest
            obtain ⟨flood, rfl⟩ := FlowControl.beginMessageProcessing_eq_true (cfg s) begun
            have room : 0 < (cfg s).PEER_READING_CAPACITY - (c.peer s).inProcess.length :=
              of_decide_eq_true room
            exact .inr ⟨msg, rest, oldest, by omega, flood, rfl⟩
      · cases stepped
        exact .inl rfl

/-- A message received moves from the read messages to those being processed; a grant
releases outbound capacity. -/
theorem recv_next {msg : StellarMessage} (stepped : c.recv s msg = .ok (.next c')) :
    c' = c ∨ msg ∈ (c.peer s).reading ∧ c' = c.setPeer s { c.peer s with
      flowControl := (c.peer s).flowControl.mapCapacities fun u cap =>
        { cap with mOutboundCapacity := cap.mOutboundCapacity + u.granted msg }
      reading := (c.peer s).reading.erase msg
      processing := (c.peer s).processing ++ [msg] } := by
  unfold recv at stepped
  dsimp only at stepped
  split at stepped
  · next member =>
      refine .inr ⟨member, ?_⟩
      cases msg with
      | sendMoreExtended numMessages numBytes =>
          dsimp only at stepped
          split at stepped
          · rw [FlowControl.maybeReleaseCapacity_eq, Except.ok_bind] at stepped
            cases stepped
            rfl
          · cases stepped
      | _ =>
          cases stepped
          rw [FlowControl.mapCapacities_release_of_granted_zero _ fun u => by cases u <;> rfl]
  · cases stepped
    exact .inl rfl

/-- Ending a message gives back its capacity, and writes the grant `endMessageProcessing`
hands back when it has anything in it. -/
theorem finish_next {msg : StellarMessage} (books : SideBooks (cfg s) (c.peer s))
    (stepped : c.finish cfg s msg = .ok (.next c')) :
    c' = c ∨ msg ∈ (c.peer s).processing ∧ ∃ res fc,
      Ended (cfg s) (c.peer s).flowControl msg res fc ∧
      let ended := c.setPeer s { c.peer s with
        flowControl := fc
        processing := (c.peer s).processing.erase msg }
      c' = if 0 < res.numFloodMessages ∨ 0 < res.numFloodBytes then
        ended.write s [sendSendMore (res.numFloodMessages % 2 ^ 32) (res.numFloodBytes % 2 ^ 32)]
      else ended := by
  unfold finish at stepped
  dsimp only at stepped
  split at stepped
  · next member =>
      obtain ⟨res, fc, ended, facts⟩ := books.ended (List.mem_append_right _ member)
      rw [ended, Except.ok_bind] at stepped
      refine .inr ⟨member, res, fc, facts, ?_⟩
      split at stepped
      · next granted =>
          cases stepped
          dsimp only at granted ⊢
          rw [if_pos granted]
      · next nothing =>
          cases stepped
          dsimp only at nothing ⊢
          rw [if_neg nothing]
  · cases stepped
    exact .inl rfl

theorem maxTxSizeIncrease_next {increase : UInt32}
    (stepped : c.maxTxSizeIncrease s increase = .ok (.next c')) :
    c' = c ∨ 0 < increase.toNat ∧ c' = (c.setFlowControl s { (c.peer s).flowControl with
      mFlowControlBytesCapacity :=
        (c.peer s).flowControl.mFlowControlBytesCapacity.handleTxSizeIncrease increase.toNat }).write
      s [sendSendMore 0 increase.toNat] := by
  unfold maxTxSizeIncrease at stepped
  split at stepped
  · next positive =>
      rw [FlowControl.handleTxSizeIncrease_eq positive, Except.ok_bind] at stepped
      cases stepped
      exact .inr ⟨positive, rfl⟩
  · cases stepped
    exact .inl rfl

end Steps

/-! ## The books of each side -/

section SideBooks

variable {config : Config} {state : PeerState}

@[simp] theorem capacity_withQueues (u : CapacityUnit) (fc : FlowControl)
    (queues : Fin 4 → List QueuedOutboundMessage) :
    u.capacity { fc with mOutboundQueues := queues } = u.capacity fc := by
  cases u <;> rfl

@[simp] theorem processed_withQueues (u : CapacityUnit) (fc : FlowControl)
    (queues : Fin 4 → List QueuedOutboundMessage) :
    u.processed { fc with mOutboundQueues := queues } = u.processed fc := by
  cases u <;> rfl

/-- The books of a side hold after a change that reads alike and keeps what is in process. -/
theorem SideBooks.of_sameReading {state' : PeerState} (books : SideBooks config state)
    (queues : QueueBooks state'.flowControl) (same : SameReading state.flowControl state'.flowControl)
    (flood : ∀ u : CapacityUnit, u.floodSum state'.inProcess = u.floodSum state.inProcess)
    (length : state'.inProcess.length = state.inProcess.length) : SideBooks config state' where
  queues := queues
  flood u := by
    have limits : u.limits config state'.flowControl = u.limits config state.flowControl := by
      cases u
      · rfl
      · exact congrArg (fun limits => limits) same.limits
    rw [same.capacity u, flood u, limits]
    exact books.flood u
  total := by
    have messages : state'.flowControl.mFlowControlCapacity.mCapacity =
        state.flowControl.mFlowControlCapacity.mCapacity := same.capacity .messages
    rw [messages, length]
    exact books.total
  inProcess_le := length ▸ books.inProcess_le
  bytesTotal := by
    have bytes : state'.flowControl.mFlowControlBytesCapacity.mCapacity =
        state.flowControl.mFlowControlBytesCapacity.mCapacity := same.capacity .bytes
    rw [bytes]
    exact books.bytesTotal
  bytesLimitsTotal := by
    rw [same.limits]
    exact books.bytesLimitsTotal
  processed_lt := by
    have messages : state'.flowControl.mFloodDataProcessed = state.flowControl.mFloodDataProcessed :=
      same.processed .messages
    rw [messages]
    exact books.processed_lt
  processed_le := by
    have messages : state'.flowControl.mFloodDataProcessed = state.flowControl.mFloodDataProcessed :=
      same.processed .messages
    have bytes : state'.flowControl.mFloodDataProcessedBytes =
        state.flowControl.mFloodDataProcessedBytes := same.processed .bytes
    rw [messages, bytes]
    exact books.processed_le

/-- Reading a message locks its capacity and one unit of the total. -/
theorem SideBooks.read {msg : StellarMessage} (books : SideBooks config state)
    (room : state.inProcess.length < config.PEER_READING_CAPACITY)
    (fits : ∀ u : CapacityUnit, u.floodResources msg ≤
      (u.capacity state.flowControl).mCapacity.mFloodCapacity) :
    SideBooks config { state with
      flowControl := state.flowControl.mapCapacities fun u cap =>
        cap.lockedLocal u.getMsgResourceCount msg
      reading := state.reading ++ [msg] } where
  queues := books.queues.of_sameQueues (FlowControl.sameQueues_mapCapacities
    (fun u cap => cap.lockedLocal u.getMsgResourceCount msg) state.flowControl)
  flood u := by
    have before := books.flood u
    have fit := fits u
    simp only [PeerState.inProcess, FlowControl.capacity_mapCapacities,
      FlowControl.limits_mapCapacities, CapacityUnit.floodSum_append, CapacityUnit.floodSum_cons,
      CapacityUnit.floodSum_nil] at before ⊢
    show (u.capacity state.flowControl).mCapacity.mFloodCapacity - u.floodResources msg + _ = _
    omega
  total := by
    have before := books.total
    simp only [PeerState.inProcess, List.length_append, List.length_cons, List.length_nil] at room ⊢
    simp only [FlowControl.mapCapacities_mFlowControlCapacity, FlowControlCapacity.lockedLocal,
      before, Option.map_some, CapacityUnit.getMsgResourceCount,
      FlowControlMessageCapacity.getMsgResourceCount, PeerState.inProcess, List.length_append]
    congr 1
    omega
  inProcess_le := by
    simp only [PeerState.inProcess, List.length_append, List.length_cons, List.length_nil] at room ⊢
    omega
  bytesTotal := by
    simp only [FlowControl.mapCapacities_bytesCapacity, FlowControlCapacity.lockedLocal]
    rw [books.bytesTotal]
    rfl
  bytesLimitsTotal := books.bytesLimitsTotal
  processed_lt := books.processed_lt
  processed_le := books.processed_le

/-- Ending a message gives back its capacity and its unit of the total. -/
theorem SideBooks.finish {msg : StellarMessage} {res : SendMoreCapacity} {fc : FlowControl}
    (books : SideBooks config state) (member : msg ∈ state.processing)
    (ended : Ended config state.flowControl msg res fc) :
    SideBooks config { state with
      flowControl := fc
      processing := state.processing.erase msg } where
  queues := books.queues.of_sameQueues ended.queues
  flood u := by
    have before := books.flood u
    have released := u.floodSum_erase member
    simp only [PeerState.inProcess, CapacityUnit.floodSum_append] at before ⊢
    rw [ended.capacity u, ended.limits u]
    show (u.capacity state.flowControl).mCapacity.mFloodCapacity + u.floodResources msg + _ = _
    omega
  total := by
    have before := books.total
    have bounded := books.inProcess_le
    have shorter := List.length_erase_of_mem member
    have nonempty := List.length_pos_of_mem member
    have messages := ended.capacity .messages
    simp only [CapacityUnit.capacity] at messages
    simp only [PeerState.inProcess, List.length_append] at before bounded ⊢
    simp only [messages, FlowControlCapacity.releasedLocal, before, Option.map_some,
      CapacityUnit.getMsgResourceCount, FlowControlMessageCapacity.getMsgResourceCount, shorter]
    congr 1
    omega
  inProcess_le := by
    have bounded := books.inProcess_le
    have shorter := List.length_erase_of_mem member
    simp only [PeerState.inProcess, List.length_append] at bounded ⊢
    omega
  bytesTotal := by
    have bytes := ended.capacity .bytes
    simp only [CapacityUnit.capacity] at bytes
    show fc.mFlowControlBytesCapacity.toFlowControlCapacity.mCapacity.mTotalCapacity = none
    rw [bytes]
    simp only [FlowControlCapacity.releasedLocal]
    rw [books.bytesTotal]
    rfl
  bytesLimitsTotal := by
    have limits := ended.limits .bytes
    simp only [CapacityUnit.limits] at limits
    rw [limits]
    exact books.bytesLimitsTotal
  processed_lt := ended.processed_lt
  processed_le := by
    have messages := ended.processed .messages
    have bytes := ended.processed .bytes
    have before := books.processed_le
    have flood := CapacityUnit.floodResources_messages_le_bytes msg
    simp only [CapacityUnit.processed, CapacityUnit.ofSendMore] at messages bytes
    show fc.mFloodDataProcessed ≤ fc.mFloodDataProcessedBytes
    rcases ended.grantOrCounters with ⟨none, noBytes⟩ | ⟨reset, resetBytes⟩
    · omega
    · omega

/-- Raising the byte capacity raises its limit with it. -/
theorem SideBooks.maxTxSizeIncrease {increase : Nat} (books : SideBooks config state) :
    SideBooks config { state with
      flowControl := { state.flowControl with
        mFlowControlBytesCapacity :=
          state.flowControl.mFlowControlBytesCapacity.handleTxSizeIncrease increase } } where
  queues := books.queues.of_sameQueues ⟨rfl, fun _ => rfl⟩
  flood u := by
    have before := books.flood u
    simp only [PeerState.inProcess] at before ⊢
    cases u
    · exact before
    · simp only [CapacityUnit.capacity, CapacityUnit.limits,
        FlowControlByteCapacity.handleTxSizeIncrease] at before ⊢
      omega
  total := books.total
  inProcess_le := books.inProcess_le
  bytesTotal := books.bytesTotal
  bytesLimitsTotal := books.bytesLimitsTotal
  processed_lt := books.processed_lt
  processed_le := books.processed_le

end SideBooks

/-! ## Each side's books over a run -/

section Runs

variable {c c' : Connection}

theorem sideBooks_setPeer {s : Side} {state : PeerState}
    (books : ∀ side, SideBooks (cfg side) (c.peer side)) (fresh : SideBooks (cfg s) state) :
    ∀ side, SideBooks (cfg side) ((c.setPeer s state).peer side) := by
  intro side
  rcases Side.eq_or_eq_other s side with rfl | rfl
  · simpa using fresh
  · simpa using books s.other

/-- Every step keeps the books of both sides. -/
theorem sideBooks_step {action : Action} (books : ∀ side, SideBooks (cfg side) (c.peer side))
    (stepped : c.step cfg action = .ok (.next c')) :
    ∀ side, SideBooks (cfg side) (c'.peer side) := by
  cases action with
  | send s env msg id =>
      rcases send_next (books s).queues stepped with ⟨fc, queues, same, rfl⟩ | rfl | ⟨_, rfl⟩
      · exact sideBooks_setPeer cfg books
          ((books s).of_sameReading queues same.sameReading (fun _ => rfl) rfl)
      · exact books
      · exact books
  | sendBatch s =>
      obtain ⟨msgs, queues, rfl, queued, -, -⟩ := sendBatch_next (books s).queues stepped
      have same := (FlowControl.sameReading_mapOutbound (c.peer s).flowControl
        fun u out => out - u.floodSum msgs).withQueues queues
      exact sideBooks_setPeer cfg books
        ((books s).of_sameReading queued same (fun _ => rfl) rfl)
  | sent s sentMessages =>
      obtain ⟨fc, queues, same, rfl⟩ := sent_next (books s).queues stepped
      exact sideBooks_setPeer cfg books
        ((books s).of_sameReading queues same.sameReading (fun _ => rfl) rfl)
  | read s =>
      rcases read_next (books s) stepped with rfl | ⟨msg, rest, -, room, fits, rfl⟩
      · exact books
      · exact sideBooks_setPeer cfg books ((books s).read room fits)
  | recv s msg =>
      rcases recv_next stepped with rfl | ⟨member, rfl⟩
      · exact books
      · have same := FlowControl.sameReading_mapOutbound (c.peer s).flowControl
          fun u out => out + u.granted msg
        have queues := (books s).queues.of_sameQueues (FlowControl.sameQueues_mapCapacities
          (fun u cap => { cap with mOutboundCapacity := cap.mOutboundCapacity + u.granted msg })
          (c.peer s).flowControl)
        exact sideBooks_setPeer cfg books ((books s).of_sameReading queues same
          ((c.peer s).floodSum_received member _) ((c.peer s).length_received member _))
  | finish s msg =>
      rcases finish_next (books s) stepped with rfl | ⟨member, res, fc, ended, rfl⟩
      · exact books
      · dsimp only
        split
        · exact sideBooks_setPeer cfg books ((books s).finish member ended)
        · exact sideBooks_setPeer cfg books ((books s).finish member ended)
  | maxTxSizeIncrease s increase =>
      rcases maxTxSizeIncrease_next stepped with rfl | ⟨-, rfl⟩
      · exact books
      · exact sideBooks_setPeer cfg books (books s).maxTxSizeIncrease

theorem sideBooks_init (bytesTotal : Side → Nat) :
    ∀ side, SideBooks (cfg side) ((init cfg bytesTotal).peer side) := by
  intro side
  exact {
    queues := FlowControl.queueBooks_init (cfg side) (bytesTotal side)
    flood := fun u => by cases u <;> rfl
    total := rfl
    inProcess_le := Nat.zero_le _
    bytesTotal := rfl
    bytesLimitsTotal := rfl
    processed_lt := (cfg side).sendMoreBatchSize_pos
    processed_le := le_rfl }

/-- In every reachable state both sides keep their books. -/
theorem reachable_sideBooks (reachable : Reachable cfg c) :
    ∀ side, SideBooks (cfg side) (c.peer side) := by
  induction reachable with
  | init bytesTotal _ _ _ => exact sideBooks_init cfg bytesTotal
  | step _ _ stepped books => exact sideBooks_step cfg books stepped

theorem byteLimit_setPeer_le {s : Side} {state : PeerState}
    (grows : c.byteLimit s ≤
      state.flowControl.mFlowControlBytesCapacity.mCapacityLimits.mFloodCapacity) :
    ∀ side, c.byteLimit side ≤ (c.setPeer s state).byteLimit side := by
  intro side
  rcases Side.eq_or_eq_other s side with rfl | rfl
  · simpa [byteLimit] using grows
  · simp [byteLimit]

/-- Byte limits only grow. -/
theorem byteLimit_le_step {action : Action} (books : ∀ side, SideBooks (cfg side) (c.peer side))
    (stepped : c.step cfg action = .ok (.next c')) : ∀ side, c.byteLimit side ≤ c'.byteLimit side := by
  cases action with
  | send s env msg id =>
      rcases send_next (books s).queues stepped with ⟨fc, -, same, rfl⟩ | rfl | ⟨_, rfl⟩
      · apply byteLimit_setPeer_le
        simp only [byteLimit, same.bytes, le_refl]
      · exact fun _ => le_rfl
      · exact fun _ => le_rfl
  | sendBatch s =>
      obtain ⟨msgs, queues, rfl, -, -, -⟩ := sendBatch_next (books s).queues stepped
      exact byteLimit_setPeer_le le_rfl
  | sent s sentMessages =>
      obtain ⟨fc, -, same, rfl⟩ := sent_next (books s).queues stepped
      apply byteLimit_setPeer_le
      simp only [byteLimit, same.bytes, le_refl]
  | read s =>
      rcases read_next (books s) stepped with rfl | ⟨msg, rest, -, -, -, rfl⟩
      · exact fun _ => le_rfl
      · exact byteLimit_setPeer_le le_rfl
  | recv s msg =>
      rcases recv_next stepped with rfl | ⟨-, rfl⟩
      · exact fun _ => le_rfl
      · exact byteLimit_setPeer_le le_rfl
  | finish s msg =>
      rcases finish_next (books s) stepped with rfl | ⟨-, res, fc, ended, rfl⟩
      · exact fun _ => le_rfl
      · have limits := ended.limits .bytes
        simp only [CapacityUnit.limits] at limits
        have kept : c.byteLimit s ≤ fc.mFlowControlBytesCapacity.mCapacityLimits.mFloodCapacity := by
          rw [limits]
          rfl
        dsimp only
        split
        · exact byteLimit_setPeer_le kept
        · exact byteLimit_setPeer_le kept
  | maxTxSizeIncrease s increase =>
      rcases maxTxSizeIncrease_next stepped with rfl | ⟨-, rfl⟩
      · exact fun _ => le_rfl
      · exact byteLimit_setPeer_le (Nat.le_add_right _ _)

/-- A state that fits came from one that fits. -/
theorem Fits.of_step {action : Action} (books : ∀ side, SideBooks (cfg side) (c.peer side))
    (stepped : c.step cfg action = .ok (.next c')) (fits : c'.Fits) : c.Fits := fun side =>
  Nat.lt_of_le_of_lt (byteLimit_le_step cfg books stepped side) (fits side)

end Runs

/-! ## The books of each direction -/

section Balance

variable {c : Connection} {s side : Side} {u : CapacityUnit}

theorem carriesBytes_of_isFloodMessage {msg : StellarMessage} (flood : isFloodMessage msg = true) :
    CarriesBytes msg := by
  cases msg with
  | sendMoreExtended => exact absurd flood Bool.false_ne_true
  | _ => trivial

/-- A flood capacity limit fits a `uint32`: the message limit by the configuration, the byte
limit while the connection fits. -/
theorem limit_lt (fits : c.Fits) (side : Side) (u : CapacityUnit) :
    (u.limits (cfg side) (c.peer side).flowControl).mFloodCapacity < 2 ^ 32 := by
  cases u
  · have below := (cfg side).floodReadingCapacity_lt
    have bounded := (cfg side).readingCapacity_lt
    show (cfg side).PEER_FLOOD_READING_CAPACITY < 2 ^ 32
    omega
  · exact fits side

/-- Changing the queues of a side leaves the books of both directions. -/
theorem balanced_setFlowControl {fc : FlowControl} (same : SameCapacities (c.peer s).flowControl fc)
    (balanced : c.Balanced side u) : (c.setFlowControl s fc).Balanced side u := by
  unfold Balanced outstanding at balanced ⊢
  rcases Side.eq_or_eq_other s side with rfl | rfl
  · simpa [same.capacity u] using balanced
  · simpa [same.capacity u, same.processed' u] using balanced

/-- A message that is neither flooded nor a grant leaves the books. -/
theorem balanced_write_other {bodySize : Nat} (balanced : c.Balanced side u) :
    (c.write s [.other bodySize]).Balanced side u := by
  have nothing : u.floodResources (.other bodySize) = 0 ∧ u.granted (.other bodySize) = 0 := by
    cases u <;> exact ⟨rfl, rfl⟩
  unfold Balanced outstanding at balanced ⊢
  rcases Side.eq_or_eq_other s side with rfl | rfl
  · simpa [nothing] using balanced
  · simpa [nothing] using balanced

/-- A batch moves from the outbound capacity onto the wire. -/
theorem balanced_sendBatch {msgs : List StellarMessage} {queues : Fin 4 → List QueuedOutboundMessage}
    (fits : u.floodSum msgs ≤ (u.capacity (c.peer s).flowControl).mOutboundCapacity)
    (flood : ∀ msg ∈ msgs, isFloodMessage msg = true) (balanced : c.Balanced side u) :
    ((c.setFlowControl s { FlowControl.afterBatch msgs (c.peer s).flowControl with
      mOutboundQueues := queues }).write s msgs).Balanced side u := by
  have noGrants := u.grantSum_eq_zero_of_flood flood
  unfold Balanced outstanding at balanced ⊢
  rcases Side.eq_or_eq_other s side with rfl | rfl
  · simp only [write_peer, write_wire, setFlowControl_peer, setFlowControl_wire,
      Function.update_self, Side.update_other, capacity_withQueues] at fits ⊢
    simp only [FlowControl.afterBatch, FlowControl.capacity_mapCapacities,
      CapacityUnit.floodSum_append] at fits ⊢
    omega
  · simp only [write_peer, write_wire, setFlowControl_peer, setFlowControl_wire,
      Function.update_self, Side.update_other, Side.other_other,
      capacity_withQueues, processed_withQueues] at balanced ⊢
    simp only [FlowControl.afterBatch, FlowControl.capacity_mapCapacities,
      FlowControl.processed_mapCapacities, CapacityUnit.grantSum_append, noGrants] at balanced ⊢
    omega

/-- Reading moves a message from the wire to the reader: its flood from the wire into the
reader's locked capacity, and a grant from the wire into what the reader has read. -/
theorem balanced_read {msg : StellarMessage} {rest : List StellarMessage}
    (oldest : c.wire s.other = msg :: rest)
    (fits : u.floodResources msg ≤ (u.capacity (c.peer s).flowControl).mCapacity.mFloodCapacity)
    (balanced : c.Balanced side u) :
    ({ c.setPeer s { c.peer s with
        flowControl := (c.peer s).flowControl.mapCapacities fun u cap =>
          cap.lockedLocal u.getMsgResourceCount msg
        reading := (c.peer s).reading ++ [msg] } with
      wire := Function.update c.wire s.other rest } : Connection).Balanced side u := by
  unfold Balanced outstanding at balanced ⊢
  rcases Side.eq_or_eq_other s side with rfl | rfl
  · rw [oldest] at balanced
    simp only [setPeer_peer, Function.update_self, Side.update_other, Side.update_other_self,
      FlowControl.capacity_mapCapacities, CapacityUnit.grantSum_cons, CapacityUnit.grantSum_append,
      CapacityUnit.grantSum_nil, FlowControlCapacity.lockedLocal] at balanced ⊢
    omega
  · rw [Side.other_other, oldest] at balanced
    simp only [setPeer_peer, Function.update_self, Side.update_other, Side.update_other_self,
      Side.other_other, FlowControl.capacity_mapCapacities, FlowControl.processed_mapCapacities,
      CapacityUnit.floodSum_cons, FlowControlCapacity.lockedLocal] at balanced ⊢
    simp only [CapacityUnit.floodResources] at fits balanced ⊢
    omega

/-- Receiving a grant moves it from what was read into the outbound capacity. -/
theorem balanced_recv {msg : StellarMessage} (member : msg ∈ (c.peer s).reading)
    (balanced : c.Balanced side u) :
    (c.setPeer s { c.peer s with
      flowControl := (c.peer s).flowControl.mapCapacities fun u cap =>
        { cap with mOutboundCapacity := cap.mOutboundCapacity + u.granted msg }
      reading := (c.peer s).reading.erase msg
      processing := (c.peer s).processing ++ [msg] }).Balanced side u := by
  have applied := u.grantSum_erase member
  unfold Balanced outstanding at balanced ⊢
  rcases Side.eq_or_eq_other s side with rfl | rfl
  · simp only [setPeer_peer, setPeer_wire, Function.update_self, Side.update_other,
      FlowControl.capacity_mapCapacities] at balanced ⊢
    omega
  · simp only [setPeer_peer, setPeer_wire, Function.update_self, Side.update_other,
      Side.other_other, FlowControl.capacity_mapCapacities,
      FlowControl.processed_mapCapacities] at balanced ⊢
    exact balanced

/-- A raise of the byte capacity is granted to the other side at once. -/
theorem balanced_maxTxSizeIncrease {increase : Nat} (balanced : c.Balanced side u) :
    ((c.setFlowControl s { (c.peer s).flowControl with
      mFlowControlBytesCapacity :=
        (c.peer s).flowControl.mFlowControlBytesCapacity.handleTxSizeIncrease increase }).write
      s [sendSendMore 0 increase]).Balanced side u := by
  unfold Balanced outstanding at balanced ⊢
  rcases Side.eq_or_eq_other s side with rfl | rfl
  · cases u <;>
      simpa [CapacityUnit.capacity, CapacityUnit.floodResources, floodResourceCount, sendSendMore,
        isFloodMessage, FlowControlByteCapacity.handleTxSizeIncrease] using balanced
  · cases u
    · simpa [CapacityUnit.capacity, CapacityUnit.processed, CapacityUnit.granted,
        sendSendMore] using balanced
    · simp [CapacityUnit.capacity, CapacityUnit.processed, CapacityUnit.granted, sendSendMore,
        FlowControlByteCapacity.handleTxSizeIncrease] at balanced ⊢
      omega

/-- Ending a message gives its flood back to the reader's capacity by way of the processed
counters, and what `endMessageProcessing` hands back goes on the wire as a grant. -/
theorem balanced_finish {msg : StellarMessage} {res : SendMoreCapacity} {fc : FlowControl}
    {grant : List StellarMessage} (ended : Ended (cfg s) (c.peer s).flowControl msg res fc)
    (granted : u.grantSum grant = u.ofSendMore res) (noFlood : u.floodSum grant = 0)
    (balanced : c.Balanced side u) :
    ((c.setPeer s { c.peer s with
      flowControl := fc
      processing := (c.peer s).processing.erase msg }).write s grant).Balanced side u := by
  have processed := ended.processed u
  have capacity := ended.capacity u
  unfold Balanced outstanding at balanced ⊢
  rcases Side.eq_or_eq_other s side with rfl | rfl
  · simp only [write_peer, write_wire, setPeer_peer, setPeer_wire, Function.update_self,
      Side.update_other, capacity, FlowControlCapacity.releasedLocal,
      CapacityUnit.floodSum_append, noFlood] at balanced ⊢
    omega
  · simp only [write_peer, write_wire, setPeer_peer, setPeer_wire, Function.update_self,
      Side.update_other, Side.other_other, capacity, FlowControlCapacity.releasedLocal,
      CapacityUnit.grantSum_append, granted] at balanced ⊢
    simp only [CapacityUnit.floodResources] at processed
    omega

/-- What a side hands back never exceeds what it can read, so it fits its `uint32` while the
limits do. -/
theorem ofSendMore_lt (cfg : Side → Config) {msg : StellarMessage} {res : SendMoreCapacity}
    {fc : FlowControl} (inv : Invariant cfg c) (fits : c.Fits) (member : msg ∈ (c.peer s).processing)
    (ended : Ended (cfg s) (c.peer s).flowControl msg res fc) (u : CapacityUnit) :
    u.ofSendMore res < 2 ^ 32 := by
  have balanced := inv.balanced s.other u
  have flood := (inv.sides s).flood u
  have taken : u.floodResources msg ≤ u.floodSum (c.peer s).inProcess :=
    u.floodResources_le_floodSum (List.mem_append_right (c.peer s).reading member)
  have limit := limit_lt cfg fits s u
  have processed := ended.processed u
  unfold Balanced outstanding at balanced
  rw [Side.other_other] at balanced
  omega

/-- The grant as it goes on the wire gives what `endMessageProcessing` handed back, once its
counts fit their `uint32`. -/
theorem granted_sendSendMore {res : SendMoreCapacity} (fits : ∀ u : CapacityUnit, u.ofSendMore res < 2 ^ 32)
    (u : CapacityUnit) :
    u.granted (sendSendMore (res.numFloodMessages % 2 ^ 32) (res.numFloodBytes % 2 ^ 32)) =
      u.ofSendMore res := by
  have messages := fits .messages
  have bytes := fits .bytes
  simp only [CapacityUnit.ofSendMore] at messages bytes
  cases u
  · simp only [CapacityUnit.granted, sendSendMore, CapacityUnit.ofSendMore, Nat.mod_eq_of_lt messages]
  · simp only [CapacityUnit.granted, sendSendMore, CapacityUnit.ofSendMore, Nat.mod_eq_of_lt bytes]

theorem write_nil (c : Connection) (side : Side) : c.write side [] = c := by
  simp [write]

/-- Every step keeps the books of both directions, while the limits fit. -/
theorem balanced_step {c' : Connection} {action : Action} (inv : Invariant cfg c) (fits : c.Fits)
    (stepped : c.step cfg action = .ok (.next c')) : ∀ side u, c'.Balanced side u := by
  intro side u
  have balanced := inv.balanced side u
  cases action with
  | send s env msg id =>
      rcases send_next (inv.sides s).queues stepped with ⟨fc, -, same, rfl⟩ | rfl | ⟨_, rfl⟩
      · exact balanced_setFlowControl same balanced
      · exact balanced
      · exact balanced_write_other balanced
  | sendBatch s =>
      obtain ⟨msgs, queues, rfl, -, batchFits, flood⟩ := sendBatch_next (inv.sides s).queues stepped
      exact balanced_sendBatch (batchFits u) flood balanced
  | sent s sentMessages =>
      obtain ⟨fc, -, same, rfl⟩ := sent_next (inv.sides s).queues stepped
      exact balanced_setFlowControl same balanced
  | read s =>
      rcases read_next (inv.sides s) stepped with rfl | ⟨msg, rest, oldest, -, room, rfl⟩
      · exact balanced
      · exact balanced_read oldest (room u) balanced
  | recv s msg =>
      rcases recv_next stepped with rfl | ⟨member, rfl⟩
      · exact balanced
      · exact balanced_recv member balanced
  | finish s msg =>
      rcases finish_next (inv.sides s) stepped with rfl | ⟨member, res, fc, ended, rfl⟩
      · exact balanced
      · have bounded := ofSendMore_lt cfg inv fits member ended
        dsimp only
        split
        · apply balanced_finish cfg ended _ _ balanced
          · simp only [CapacityUnit.grantSum_cons, CapacityUnit.grantSum_nil,
              granted_sendSendMore bounded, Nat.add_zero]
          · simp [CapacityUnit.floodResources, floodResourceCount, sendSendMore, isFloodMessage]
        · next silent =>
            -- nothing was handed back, so nothing goes on the wire
            rw [← write_nil (c.setPeer s _) s]
            apply balanced_finish cfg ended _ rfl balanced
            simp only [not_or, Nat.not_lt, Nat.le_zero] at silent
            cases u <;> simp [CapacityUnit.ofSendMore, silent]
  | maxTxSizeIncrease s increase =>
      rcases maxTxSizeIncrease_next stepped with rfl | ⟨-, rfl⟩
      · exact balanced
      · exact balanced_maxTxSizeIncrease balanced

theorem wires_write {msgs : List StellarMessage}
    (wires : ∀ side, ∀ msg ∈ c.wire side, CarriesBytes msg)
    (carried : ∀ msg ∈ msgs, CarriesBytes msg) :
    ∀ side, ∀ msg ∈ (c.write s msgs).wire side, CarriesBytes msg := by
  intro side msg member
  rcases Side.eq_or_eq_other s side with rfl | rfl
  · simp only [write_wire, Function.update_self, List.mem_append] at member
    rcases member with old | new
    · exact wires side msg old
    · exact carried msg new
  · simp only [write_wire, Side.update_other] at member
    exact wires s.other msg member

theorem readings_setPeer {state : PeerState}
    (readings : ∀ side, ∀ msg ∈ (c.peer side).reading, CarriesBytes msg)
    (carried : ∀ msg ∈ state.reading, CarriesBytes msg) :
    ∀ side, ∀ msg ∈ ((c.setPeer s state).peer side).reading, CarriesBytes msg := by
  intro side
  rcases Side.eq_or_eq_other s side with rfl | rfl
  · simpa using carried
  · simpa using readings s.other

/-- Every grant a step writes carries bytes, and so does every grant it reads. -/
theorem carried_step {c' : Connection} {action : Action} (inv : Invariant cfg c) (fits : c.Fits)
    (stepped : c.step cfg action = .ok (.next c')) :
    (∀ side, ∀ msg ∈ c'.wire side, CarriesBytes msg) ∧
      ∀ side, ∀ msg ∈ (c'.peer side).reading, CarriesBytes msg := by
  have wires := inv.wires
  have readings := inv.readings
  cases action with
  | send s env msg id =>
      rcases send_next (inv.sides s).queues stepped with ⟨fc, -, -, rfl⟩ | rfl | ⟨_, rfl⟩
      · exact ⟨wires, readings_setPeer readings (readings s)⟩
      · exact ⟨wires, readings⟩
      · refine ⟨wires_write wires ?_, readings⟩
        intro msg member
        rw [List.mem_singleton.mp member]
        trivial
  | sendBatch s =>
      obtain ⟨msgs, queues, rfl, -, -, flood⟩ := sendBatch_next (inv.sides s).queues stepped
      exact ⟨wires_write wires fun msg member => carriesBytes_of_isFloodMessage (flood msg member),
        readings_setPeer readings (readings s)⟩
  | sent s sentMessages =>
      obtain ⟨fc, -, -, rfl⟩ := sent_next (inv.sides s).queues stepped
      exact ⟨wires, readings_setPeer readings (readings s)⟩
  | read s =>
      rcases read_next (inv.sides s) stepped with rfl | ⟨msg, rest, oldest, -, -, rfl⟩
      · exact ⟨wires, readings⟩
      · have head : CarriesBytes msg := wires s.other msg (by rw [oldest]; exact List.mem_cons_self)
        refine ⟨fun side m member => ?_, readings_setPeer readings fun m member => ?_⟩
        · rcases Side.eq_or_eq_other s side with rfl | rfl
          · simp only [Side.update_other_self] at member
            exact wires side m member
          · simp only [Function.update_self] at member
            exact wires s.other m (by rw [oldest]; exact List.mem_cons_of_mem msg member)
        · rcases List.mem_append.mp member with old | new
          · exact readings s m old
          · rw [List.mem_singleton.mp new]
            exact head
  | recv s msg =>
      rcases recv_next stepped with rfl | ⟨-, rfl⟩
      · exact ⟨wires, readings⟩
      · exact ⟨wires, readings_setPeer readings fun m member =>
          readings s m (List.mem_of_mem_erase member)⟩
  | finish s msg =>
      rcases finish_next (inv.sides s) stepped with rfl | ⟨member, res, fc, ended, rfl⟩
      · exact ⟨wires, readings⟩
      · have kept : ∀ side, ∀ m ∈ ((c.setPeer s { c.peer s with
            flowControl := fc
            processing := (c.peer s).processing.erase msg }).peer side).reading,
            CarriesBytes m :=
          readings_setPeer readings (readings s)
        dsimp only
        split
        · next granted =>
            -- a grant counts at least as many bytes as messages, so it carries bytes
            have bounded := ofSendMore_lt cfg inv fits member ended
            have bytes := ended.messages_le_bytes (inv.sides s).processed_le
            have fitsBytes := bounded .bytes
            simp only [CapacityUnit.ofSendMore] at fitsBytes
            refine ⟨wires_write wires fun m new => ?_, kept⟩
            rw [List.mem_singleton.mp new]
            show 0 < res.numFloodBytes % 2 ^ 32
            rw [Nat.mod_eq_of_lt fitsBytes]
            omega
        · exact ⟨wires, kept⟩
  | maxTxSizeIncrease s increase =>
      rcases maxTxSizeIncrease_next stepped with rfl | ⟨positive, rfl⟩
      · exact ⟨wires, readings⟩
      · refine ⟨wires_write wires fun m new => ?_, readings_setPeer readings (readings s)⟩
        rw [List.mem_singleton.mp new]
        exact positive

end Balance

/-! ## Runs -/

section Invariant

variable {c c' : Connection}

theorem invariant_init {bytesTotal : Side → Nat} (positive : ∀ side, 0 < bytesTotal side) :
    Invariant cfg (init cfg bytesTotal) where
  sides := sideBooks_init cfg bytesTotal
  balanced side u := by
    cases u <;> simp [Balanced, outstanding, init, FlowControl.init, CapacityUnit.capacity,
      CapacityUnit.processed, CapacityUnit.floodSum, CapacityUnit.grantSum,
      CapacityUnit.floodResources, floodResourceCount, CapacityUnit.granted, sendSendMore,
      isFloodMessage, FlowControlMessageCapacity.init, FlowControlMessageCapacity.getCapacityLimits,
      FlowControlByteCapacity.init]
  wires side msg member := by
    simp only [init, List.mem_singleton] at member
    rw [member]
    exact positive side
  readings side msg member := absurd member List.not_mem_nil

theorem invariant_step {action : Action} (inv : Invariant cfg c) (fits : c.Fits)
    (stepped : c.step cfg action = .ok (.next c')) : Invariant cfg c' :=
  have carried := carried_step cfg inv fits stepped
  ⟨sideBooks_step cfg inv.sides stepped, balanced_step cfg inv fits stepped, carried.1, carried.2⟩

/-- Every reachable state whose byte limits fit keeps the invariant. -/
theorem invariant_of_reachable (reachable : Reachable cfg c) (fits : c.Fits) : Invariant cfg c := by
  revert fits
  induction reachable with
  | init bytesTotal _ _ positive => exact fun _ => invariant_init cfg positive
  | step _ reached stepped ih =>
      intro fits
      -- limits only grow, so the state before fits too
      have before := Fits.of_step cfg (reachable_sideBooks cfg reached) stepped fits
      exact invariant_step cfg (ih before) before stepped

/-- Actions one after the other, until one drops a side. -/
def run (c : Connection) : List Action → Except String Outcome
  | [] => pure (.next c)
  | action :: rest => do
      match ← c.step cfg action with
      | .next c' => c'.run rest
      | .dropped side reason => pure (.dropped side reason)

/-- Whether an outcome is a drop by `side` for `reason`. -/
def Outcome.droppedBy : Except String Outcome → Side → String → Bool
  | .ok (.dropped side reason), side', reason' => side == side' && reason == reason'
  | _, _, _ => false

theorem Outcome.eq_of_droppedBy {outcome : Except String Outcome} {side : Side} {reason : String}
    (dropped : Outcome.droppedBy outcome side reason = true) :
    outcome = .ok (.dropped side reason) := by
  unfold Outcome.droppedBy at dropped
  split at dropped
  · simp only [Bool.and_eq_true, beq_iff_eq] at dropped
    rw [dropped.1, dropped.2]
  · cases dropped

/-- A run that ends in a drop passes through a reachable state in which one action drops. -/
theorem dropped_of_run : ∀ {c : Connection} {actions : List Action} {side : Side}
    {reason : String}, Reachable cfg c → c.run cfg actions = .ok (.dropped side reason) →
    ∃ c', Reachable cfg c' ∧ ∃ action, c'.step cfg action = .ok (.dropped side reason)
  | _, [], _, _, _, ran => by cases ran
  | c, action :: rest, _, _, reachable, ran => by
      rw [run] at ran
      obtain ⟨outcome, stepped, continued⟩ := Except.bind_eq_ok_iff.1 ran
      cases outcome with
      | next c' => exact dropped_of_run (Reachable.step action reachable stepped) continued
      | dropped =>
          cases continued
          exact ⟨c, reachable, action, stepped⟩

end Invariant

/-! ## No action fails and no side is dropped -/

section Progress

variable {c : Connection}

/-- A message on the wire always finds the reader's flood capacity: the books of its direction
hold it. -/
theorem floodResources_le_capacity (inv : Invariant cfg c) {s : Side} {msg : StellarMessage}
    {rest : List StellarMessage} (oldest : c.wire s.other = msg :: rest) (u : CapacityUnit) :
    u.floodResources msg ≤ (u.capacity (c.peer s).flowControl).mCapacity.mFloodCapacity := by
  have balanced := inv.balanced s.other u
  unfold Balanced outstanding at balanced
  rw [oldest, Side.other_other] at balanced
  simp only [CapacityUnit.floodSum_cons] at balanced
  omega

/-- A side that can read begins the oldest message on the wire. -/
theorem beginMessageProcessing_true (inv : Invariant cfg c) {s : Side} {msg : StellarMessage}
    {rest : List StellarMessage} (oldest : c.wire s.other = msg :: rest)
    (room : 0 < (cfg s).PEER_READING_CAPACITY - (c.peer s).inProcess.length) :
    (c.peer s).flowControl.beginMessageProcessing (cfg s) msg =
      .ok (true, (c.peer s).flowControl.mapCapacities fun u cap =>
        cap.lockedLocal u.getMsgResourceCount msg) := by
  have books := inv.sides s
  apply FlowControl.beginMessageProcessing_eq
  · intro u
    apply FlowControlCapacity.checkCapacityInvariants_ok
    · have flood := books.flood u
      omega
    · cases u
      · simp only [CapacityUnit.limits, CapacityUnit.capacity, books.total,
          FlowControlMessageCapacity.getCapacityLimits, TotalFits]
        omega
      · simp only [CapacityUnit.limits, CapacityUnit.capacity, books.bytesTotal,
          books.bytesLimitsTotal, TotalFits]
  · intro u total isTotal
    cases u
    · simp only [CapacityUnit.capacity, books.total, Option.some.injEq] at isTotal
      show 1 ≤ total
      omega
    · simp only [CapacityUnit.capacity, books.bytesTotal, reduceCtorEq] at isTotal
  · exact floodResources_le_capacity cfg inv oldest

theorem read_ok (inv : Invariant cfg c) (s : Side) : ∃ c', c.read cfg s = .ok (.next c') := by
  have books := inv.sides s
  unfold read
  cases oldest : c.wire s.other with
  | nil => exact ⟨c, rfl⟩
  | cons msg rest =>
      simp only [FlowControl.canRead_eq books.bytesTotal books.total, Except.ok_bind]
      by_cases room : 0 < (cfg s).PEER_READING_CAPACITY - (c.peer s).inProcess.length
      · rw [if_pos (decide_eq_true room), beginMessageProcessing_true cfg inv oldest room,
          Except.ok_bind]
        exact ⟨_, rfl⟩
      · rw [if_neg (by simpa using room)]
        exact ⟨c, rfl⟩

/-- A grant an honest peer reads is valid: it carries bytes, and the outbound capacity it
raises stays within what the other side can read. -/
theorem recv_ok (inv : Invariant cfg c) (fits : c.Fits) (s : Side) (msg : StellarMessage) :
    ∃ c', c.recv s msg = .ok (.next c') := by
  unfold recv
  dsimp only
  by_cases member : msg ∈ (c.peer s).reading
  · rw [if_pos member]
    cases msg with
    | sendMoreExtended numMessages numBytes =>
        have positive : 0 < numBytes := inv.readings s _ member
        have bounded : ∀ u : CapacityUnit, (u.capacity (c.peer s).flowControl).mOutboundCapacity +
            u.granted (.sendMoreExtended numMessages numBytes) < 2 ^ 64 := by
          intro u
          have balanced := inv.balanced s u
          have taken := u.granted_le_grantSum member
          have flood := (inv.sides s.other).flood u
          have limit := limit_lt cfg fits s.other u
          unfold Balanced outstanding at balanced
          omega
        dsimp only
        rw [FlowControl.isSendMoreValid_eq positive bounded]
        dsimp only
        rw [if_pos rfl, FlowControl.maybeReleaseCapacity_eq, Except.ok_bind]
        exact ⟨_, rfl⟩
    | _ => exact ⟨_, rfl⟩
  · rw [if_neg member]
    exact ⟨c, rfl⟩

theorem finish_ok (inv : Invariant cfg c) (s : Side) (msg : StellarMessage) :
    ∃ c', c.finish cfg s msg = .ok (.next c') := by
  unfold finish
  dsimp only
  by_cases member : msg ∈ (c.peer s).processing
  · obtain ⟨res, fc, ended, -⟩ := (inv.sides s).ended (List.mem_append_right _ member)
    rw [if_pos member, ended, Except.ok_bind]
    dsimp only
    by_cases granted : 0 < res.numFloodMessages ∨ 0 < res.numFloodBytes
    · rw [if_pos granted]
      exact ⟨_, rfl⟩
    · rw [if_neg granted]
      exact ⟨_, rfl⟩
  · rw [if_neg member]
    exact ⟨c, rfl⟩

/-- Between honest peers no action fails on an assert or drops the other side. -/
theorem step_ok (inv : Invariant cfg c) (fits : c.Fits) (action : Action) :
    ∃ c', c.step cfg action = .ok (.next c') := by
  cases action with
  | send s env msg id =>
      show ∃ c', c.send cfg s env msg id = _
      unfold send
      by_cases flood : isFloodMessage msg = true
      · obtain ⟨fc, added, -, -⟩ :=
          FlowControl.addMsgAndMaybeTrimQueue_ok (cfg s) env (inv.sides s).queues flood id
        rw [if_pos flood, added, Except.ok_bind]
        exact ⟨_, rfl⟩
      · rw [if_neg flood]
        cases msg with
        | sendMoreExtended => exact ⟨c, rfl⟩
        | other => exact ⟨_, rfl⟩
        | _ => exact absurd rfl flood
  | sendBatch s =>
      obtain ⟨batch, queues, got, -⟩ := FlowControl.getNextBatchToSend_ok (c.peer s).flowControl
      show ∃ c', c.sendBatch s = _
      unfold sendBatch
      rw [got, Except.ok_bind]
      exact ⟨_, rfl⟩
  | sent s sentMessages =>
      obtain ⟨fc, processed, -, -⟩ :=
        FlowControl.processSentMessages_ok (inv.sides s).queues sentMessages
      show ∃ c', c.sent s sentMessages = _
      unfold Connection.sent
      rw [processed, Except.ok_bind]
      exact ⟨_, rfl⟩
  | read s => exact read_ok cfg inv s
  | recv s msg => exact recv_ok cfg inv fits s msg
  | finish s msg => exact finish_ok cfg inv s msg
  | maxTxSizeIncrease s increase =>
      show ∃ c', c.maxTxSizeIncrease s increase = _
      unfold maxTxSizeIncrease
      by_cases positive : 0 < increase.toNat
      · rw [if_pos positive, FlowControl.handleTxSizeIncrease_eq positive, Except.ok_bind]
        exact ⟨_, rfl⟩
      · rw [if_neg positive]
        exact ⟨c, rfl⟩

end Progress

end Connection

end StellarCore.Overlay
