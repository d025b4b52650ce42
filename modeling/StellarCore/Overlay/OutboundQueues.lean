import StellarCore.Overlay.FlowControlSpec

/-!
# The outbound queues over a run

`getNextBatchToSend` hands flood messages to the write queue of `TCPPeer`. Once the socket has
written a prefix of that queue, its write handler reports the flood messages among them, by
the queue of their priority, and `processSentMessages` pops each one it finds at the front of
its queue. Messages are matched by pointer: `QueuedOutboundMessage.id` is that pointer.

`Outbound` is one peer's flow control with that write queue, and `Outbound.Step` its moves:
a new message object queued, a batch handed out, the report of a written prefix, and what
changes only capacities. Over every run the counters hold what their queues hold, no assertion
fails, SCP trimming keeps every message being sent, and what `processSentMessages` pops was
handed out and written.
-/

set_option autoImplicit false

namespace StellarCore.Overlay

/-- The pointers of a list are distinct in a sub-multiset of it too. -/
theorem nodup_map_of_subperm {α β : Type} (f : α → β) {l l' : List α} (sub : l'.Subperm l)
    (distinct : (l.map f).Nodup) : (l'.map f).Nodup := by
  obtain ⟨l'', perm, sublist⟩ := sub
  exact (perm.map f).nodup_iff.mp ((sublist.map f).nodup distinct)

namespace FlowControl

/-! ## What handing out a batch does to a queue -/

/-- `getNextBatchToSend` leaves a queued message as it is, or marks one not being sent as being
sent. -/
def Marks (q q' : QueuedOutboundMessage) : Prop :=
  q' = q ∨ q.mBeingSent = false ∧ q' = { q with mBeingSent := true }

theorem Marks.refl (q : QueuedOutboundMessage) : Marks q q := .inl rfl

theorem Marks.trans {q q' q'' : QueuedOutboundMessage} (first : Marks q q')
    (second : Marks q' q'') : Marks q q'' := by
  cases second with
  | inl same =>
    subst same
    exact first
  | inr marked =>
    obtain ⟨notSent, rfl⟩ := marked
    cases first with
    | inl same =>
      subst same
      exact .inr ⟨notSent, rfl⟩
    | inr earlier =>
      -- a message marked once is being sent, and is not marked again
      obtain ⟨_, rfl⟩ := earlier
      cases notSent

theorem Marks.id_eq {q q' : QueuedOutboundMessage} (marks : Marks q q') :
    q'.id = q.id ∧ q'.mMessage = q.mMessage := by
  cases marks with
  | inl same => exact ⟨congrArg (·.id) same, congrArg (·.mMessage) same⟩
  | inr marked => exact ⟨congrArg (·.id) marked.2, congrArg (·.mMessage) marked.2⟩

/-- A message being sent is left as it is. -/
theorem Marks.eq_of_beingSent {q q' : QueuedOutboundMessage} (marks : Marks q q')
    (beingSent : q.mBeingSent = true) : q' = q := by
  cases marks with
  | inl same => exact same
  | inr marked => exact absurd (beingSent.symm.trans marked.1) Bool.noConfusion

theorem forall₂_marks_refl : ∀ queue : List QueuedOutboundMessage, List.Forall₂ Marks queue queue
  | [] => .nil
  | q :: queue => .cons (Marks.refl q) (forall₂_marks_refl queue)

theorem forall₂_marks_trans : ∀ {queue queue' queue'' : List QueuedOutboundMessage},
    List.Forall₂ Marks queue queue' → List.Forall₂ Marks queue' queue'' →
      List.Forall₂ Marks queue queue''
  | [], [], [], .nil, .nil => .nil
  | _ :: _, _ :: _, _ :: _, .cons first firstRest, .cons second secondRest =>
    .cons (first.trans second) (forall₂_marks_trans firstRest secondRest)

theorem forall₂_marks_ids : ∀ {queue queue' : List QueuedOutboundMessage},
    List.Forall₂ Marks queue queue' → queue'.map (·.id) = queue.map (·.id)
  | [], [], .nil => rfl
  | _ :: _, _ :: _, .cons marks rest => by
    rw [List.map_cons, List.map_cons, marks.id_eq.1, forall₂_marks_ids rest]

theorem exists_of_forall₂_marks : ∀ {queue queue' : List QueuedOutboundMessage},
    List.Forall₂ Marks queue queue' → ∀ q' ∈ queue', ∃ q ∈ queue, Marks q q'
  | [], [], .nil, _, member => absurd member List.not_mem_nil
  | q :: _, _ :: _, .cons marks rest, q', member => by
    cases List.mem_cons.mp member with
    | inl here =>
      subst here
      exact ⟨q, List.mem_cons_self, marks⟩
    | inr later =>
      obtain ⟨old, oldMember, oldMarks⟩ := exists_of_forall₂_marks rest q' later
      exact ⟨old, List.mem_cons_of_mem q oldMember, oldMarks⟩

/-- A message being sent stays in its queue. -/
theorem mem_of_forall₂_marks : ∀ {queue queue' : List QueuedOutboundMessage},
    List.Forall₂ Marks queue queue' → ∀ q ∈ queue, q.mBeingSent = true → q ∈ queue'
  | [], [], .nil, _, member, _ => absurd member List.not_mem_nil
  | _ :: _, q' :: _, .cons marks rest, q, member, beingSent => by
    cases List.mem_cons.mp member with
    | inl here =>
      subst here
      rw [← marks.eq_of_beingSent beingSent]
      exact List.mem_cons_self
    | inr later => exact List.mem_cons_of_mem q' (mem_of_forall₂_marks rest q later beingSent)

theorem lockOutboundCapacity_queues {fc fc' : FlowControl} {msg : StellarMessage}
    (locked : fc.lockOutboundCapacity msg = .ok fc') : fc'.mOutboundQueues = fc.mOutboundQueues := by
  obtain ⟨msgCap, -, rest⟩ := Except.bind_eq_ok_iff.1 locked
  obtain ⟨byteCap, -, done⟩ := Except.bind_eq_ok_iff.1 rest
  cases done
  rfl

/-- One queue of `getNextBatchToSend` marks what it hands out and leaves the rest, and changes
no queue of the flow control. -/
theorem sendFromQueue_marks : ∀ (fc : FlowControl) (queue : List QueuedOutboundMessage)
    {batch queue' : List QueuedOutboundMessage} {fc' : FlowControl},
    fc.sendFromQueue queue = .ok (batch, queue', fc') →
      List.Forall₂ Marks queue queue' ∧ (∀ w ∈ batch, { w with mBeingSent := true } ∈ queue') ∧
        fc'.mOutboundQueues = fc.mOutboundQueues
  | fc, [], batch, queue', fc', sent => by
    cases sent
    exact ⟨.nil, fun _ member => absurd member List.not_mem_nil, rfl⟩
  | fc, outboundMsg :: rest, batch, queue', fc', sent => by
    rw [sendFromQueue] at sent
    split at sent
    · -- no capacity: the queue is left as it is
      cases sent
      exact ⟨forall₂_marks_refl _, fun _ member => absurd member List.not_mem_nil, rfl⟩
    split at sent
    · -- already being sent: skipped
      obtain ⟨⟨batch₁, rest₁, fc₁⟩, got, done⟩ := Except.bind_eq_ok_iff.1 sent
      cases done
      obtain ⟨marks, handed, queues⟩ := sendFromQueue_marks fc rest got
      exact ⟨.cons (Marks.refl _) marks, fun w member => List.mem_cons_of_mem _ (handed w member),
        queues⟩
    · rename_i notSent
      obtain ⟨fc₁, locked, more⟩ := Except.bind_eq_ok_iff.1 sent
      obtain ⟨⟨batch₁, rest₁, fc₂⟩, got, done⟩ := Except.bind_eq_ok_iff.1 more
      cases done
      obtain ⟨marks, handed, queues⟩ := sendFromQueue_marks fc₁ rest got
      refine ⟨.cons (.inr ⟨Bool.eq_false_iff.mpr notSent, rfl⟩) marks, fun w member => ?_,
        queues.trans (lockOutboundCapacity_queues locked)⟩
      cases List.mem_cons.mp member with
      | inl here =>
        subst here
        exact List.mem_cons_self
      | inr later => exact List.mem_cons_of_mem _ (handed w later)

/-- `getNextBatchToSend` over queues in a given order: each queue only has messages marked,
and each message of the batch is marked in some queue. -/
theorem sendFromQueues_marks : ∀ (fc : FlowControl) (order : List (Fin 4))
    {batch : List QueuedOutboundMessage} {fc' : FlowControl},
    fc.sendFromQueues order = .ok (batch, fc') →
      (∀ i, List.Forall₂ Marks (fc.mOutboundQueues i) (fc'.mOutboundQueues i)) ∧
        ∀ w ∈ batch, ∃ i, { w with mBeingSent := true } ∈ fc'.mOutboundQueues i
  | fc, [], batch, fc', sent => by
    cases sent
    exact ⟨fun i => forall₂_marks_refl _, fun _ member => absurd member List.not_mem_nil⟩
  | fc, i :: order, batch, fc', sent => by
    obtain ⟨⟨batch₁, queue, fc₁⟩, got, more⟩ := Except.bind_eq_ok_iff.1 sent
    obtain ⟨⟨batch₂, fc₂⟩, gotMore, done⟩ := Except.bind_eq_ok_iff.1 more
    cases done
    obtain ⟨marks, handed, queues⟩ := sendFromQueue_marks fc _ got
    obtain ⟨marksMore, handedMore⟩ := sendFromQueues_marks _ order gotMore
    -- the queues the rest of the order starts from
    have first : ∀ j, List.Forall₂ Marks (fc.mOutboundQueues j)
        ((fc₁.setQueue i queue).mOutboundQueues j) := by
      intro j
      by_cases here : j = i
      · subst here
        simpa using marks
      · simpa [Function.update_of_ne here, queues] using forall₂_marks_refl (fc.mOutboundQueues j)
    refine ⟨fun j => forall₂_marks_trans (first j) (marksMore j), fun w member => ?_⟩
    cases List.mem_append.mp member with
    | inl early =>
      have kept : { w with mBeingSent := true } ∈ (fc₁.setQueue i queue).mOutboundQueues i := by
        simpa using handed w early
      exact ⟨i, mem_of_forall₂_marks (marksMore i) _ kept rfl⟩
    | inr late => exact handedMore w late

theorem getNextBatchToSend_marks {fc fc' : FlowControl} {batch : List QueuedOutboundMessage}
    (got : fc.getNextBatchToSend = .ok (batch, fc')) :
    (∀ i, List.Forall₂ Marks (fc.mOutboundQueues i) (fc'.mOutboundQueues i)) ∧
      ∀ w ∈ batch, ∃ i, { w with mBeingSent := true } ∈ fc'.mOutboundQueues i :=
  sendFromQueues_marks fc (List.finRange 4) got

/-! ## What a report pops -/

theorem releaseQueuedMessage_queues {fc fc' : FlowControl} {msg : StellarMessage}
    (released : fc.releaseQueuedMessage msg = .ok fc') : fc'.mOutboundQueues = fc.mOutboundQueues := by
  cases msg with
  | scpMessage =>
    cases released
    rfl
  | transaction | floodDemand | floodAdvert =>
    simp only [releaseQueuedMessage] at released
    split at released
    · cases released
    · cases released
      rfl
  | sendMoreExtended | other => cases released

/-- One queue of `processSentMessages` pops a prefix of the queue, each message of it named by
the report. -/
theorem popSent_pops : ∀ (fc : FlowControl) (queue : List QueuedOutboundMessage) (items : List Nat)
    {queue' : List QueuedOutboundMessage} {fc' : FlowControl},
    fc.popSent queue items = .ok (queue', fc') →
      (∃ popped, queue' = queue.drop popped ∧ ∀ q ∈ queue.take popped, q.id ∈ items) ∧
        fc'.mOutboundQueues = fc.mOutboundQueues
  | fc, queue, [], queue', fc', done => by
    cases done
    exact ⟨⟨0, rfl, fun _ member => absurd member List.not_mem_nil⟩, rfl⟩
  | fc, [], item :: items, queue', fc', done => by
    rw [popSent] at done
    obtain ⟨⟨popped, same, named⟩, queues⟩ := popSent_pops fc [] items done
    exact ⟨⟨popped, same, fun q member => List.mem_cons_of_mem item (named q member)⟩, queues⟩
  | fc, front :: queue, item :: items, queue', fc', done => by
    rw [popSent] at done
    split at done
    · -- not the front: the item is skipped
      obtain ⟨⟨popped, same, named⟩, queues⟩ := popSent_pops fc (front :: queue) items done
      exact ⟨⟨popped, same, fun q member => List.mem_cons_of_mem item (named q member)⟩, queues⟩
    · rename_i atFront
      obtain ⟨fc₁, released, more⟩ := Except.bind_eq_ok_iff.1 done
      obtain ⟨⟨popped, same, named⟩, queues⟩ := popSent_pops fc₁ queue items more
      refine ⟨⟨popped + 1, by simpa using same, fun q member => ?_⟩,
        queues.trans (releaseQueuedMessage_queues released)⟩
      rw [List.take_succ_cons] at member
      cases List.mem_cons.mp member with
      | inl here =>
        subst here
        exact List.mem_cons.mpr (.inl (of_not_not atFront).symm)
      | inr later => exact List.mem_cons_of_mem item (named q later)

/-- `processSentMessages` over queues in a given order pops a prefix of each queue, each
message of it named in the report for that queue. -/
theorem processSentQueues_pops (sentMessages : Fin 4 → List Nat) : ∀ (order : List (Fin 4))
    (fc : FlowControl) {fc' : FlowControl},
    fc.processSentQueues sentMessages order = .ok fc' →
      ∀ i, ∃ popped, fc'.mOutboundQueues i = (fc.mOutboundQueues i).drop popped ∧
        ∀ q ∈ (fc.mOutboundQueues i).take popped, q.id ∈ sentMessages i
  | [], fc, fc', done, i => by
    cases done
    exact ⟨0, rfl, fun _ member => absurd member List.not_mem_nil⟩
  | j :: order, fc, fc', done, i => by
    obtain ⟨⟨queue, fc₁⟩, popped, more⟩ := Except.bind_eq_ok_iff.1 done
    obtain ⟨⟨count, same, named⟩, queues⟩ := popSent_pops fc _ _ popped
    obtain ⟨countMore, sameMore, namedMore⟩ := processSentQueues_pops sentMessages order _ more i
    by_cases here : i = j
    · -- the queue was popped here, then perhaps again later in the order
      subst here
      simp only [setQueue_mOutboundQueues, Function.update_self, same] at sameMore namedMore
      refine ⟨count + countMore, by rw [sameMore, List.drop_drop], fun q member => ?_⟩
      rw [List.take_add] at member
      cases List.mem_append.mp member with
      | inl early => exact named q early
      | inr late => exact namedMore q late
    · simp only [setQueue_mOutboundQueues, Function.update_of_ne here, queues] at sameMore namedMore
      exact ⟨countMore, sameMore, namedMore⟩

theorem processSentMessages_pops {fc fc' : FlowControl} {sentMessages : Fin 4 → List Nat}
    (done : fc.processSentMessages sentMessages = .ok fc') (i : Fin 4) :
    ∃ popped, fc'.mOutboundQueues i = (fc.mOutboundQueues i).drop popped ∧
      ∀ q ∈ (fc.mOutboundQueues i).take popped, q.id ∈ sentMessages i :=
  processSentQueues_pops sentMessages (List.finRange 4) fc done i

/-! ## What queueing a message does to the queues -/

/-- The SCP trim keeps a sub-multiset of the queue and the new message, and keeps every message
being sent, in order. -/
theorem trimScpQueue_keeps (env : OutboundQueueEnv) {back : QueuedOutboundMessage}
    (fresh : back.mBeingSent = false) : ∀ (queue : List QueuedOutboundMessage)
    {kept : List QueuedOutboundMessage}, trimScpQueue env back queue = .ok kept →
      kept.Subperm (back :: queue) ∧ kept.filter (·.mBeingSent) = queue.filter (·.mBeingSent)
  | [], kept, trimmed => by
    rw [trimScpQueue] at trimmed
    cases trimmed
    split
    · exact ⟨List.nil_subperm, rfl⟩
    · exact ⟨List.Subperm.refl _, by simp [fresh]⟩
  | it :: rest, kept, trimmed => by
    -- the queue with `it` kept in front of what the trim keeps of the rest
    have keepIt : ∀ {kept'}, trimScpQueue env back rest = .ok kept' →
        (it :: kept').Subperm (back :: it :: rest) ∧
          (it :: kept').filter (·.mBeingSent) = (it :: rest).filter (·.mBeingSent) := by
      intro kept' trimmedRest
      obtain ⟨sub, sameSent⟩ := trimScpQueue_keeps env fresh rest trimmedRest
      refine ⟨((List.subperm_cons it).mpr sub).trans (List.Perm.swap back it rest).subperm, ?_⟩
      rw [List.filter_cons, List.filter_cons, sameSent]
    rw [trimScpQueue] at trimmed
    split at trimmed
    · obtain ⟨kept', trimmedRest, rfl⟩ := Except.map_eq_ok_iff.1 trimmed
      exact keepIt trimmedRest
    rename_i notSent
    split at trimmed
    · -- too old: erased
      obtain ⟨sub, sameSent⟩ := trimScpQueue_keeps env fresh rest trimmed
      refine ⟨sub.trans ((List.subperm_cons back).mpr (List.Subperm.cons_self)), ?_⟩
      rw [sameSent, List.filter_cons, if_neg notSent]
    split at trimmed
    · -- superseded: the new message takes its place, and the rest is only erased from
      rw [if_neg (by simp [fresh])] at trimmed
      cases trimmed
      refine ⟨(List.Sublist.cons_cons back ((List.filter_sublist).trans
        (List.sublist_cons_self it rest))).subperm, ?_⟩
      rw [List.filter_cons, if_neg (by simp [fresh]), List.filter_filter, List.filter_cons,
        if_neg notSent]
      congr 1
      funext queued
      cases queued.mBeingSent <;> rfl
    · obtain ⟨kept', trimmedRest, rfl⟩ := Except.map_eq_ok_iff.1 trimmed
      exact keepIt trimmedRest

theorem subperm_setQueue {fc : FlowControl} {i : Fin 4} {queue : List QueuedOutboundMessage}
    {new : QueuedOutboundMessage} (sub : queue.Subperm (new :: fc.mOutboundQueues i)) (j : Fin 4) :
    ((fc.setQueue i queue).mOutboundQueues j).Subperm (new :: fc.mOutboundQueues j) := by
  by_cases here : j = i
  · subst here
    simpa using sub
  · simpa [Function.update_of_ne here] using List.Subperm.cons_self

/-- Queueing a message keeps, of each queue and the new message, a sub-multiset, and keeps the
messages of the SCP queue that are being sent. -/
theorem addMsgAndMaybeTrimQueue_queues (cfg : Config) (env : OutboundQueueEnv)
    {fc fc' : FlowControl} {msg : StellarMessage} {id : Nat}
    (queued : fc.addMsgAndMaybeTrimQueue cfg env msg id = .ok fc') :
    (∀ i, (fc'.mOutboundQueues i).Subperm (⟨msg, id, false⟩ :: fc.mOutboundQueues i)) ∧
      (fc'.mOutboundQueues 0).filter (·.mBeingSent) = (fc.mOutboundQueues 0).filter (·.mBeingSent) := by
  -- a queue other than the SCP one emptied, or with the message at its back
  have dropped : ∀ i, i ≠ 0 → (∀ j, ((fc.setQueue i []).mOutboundQueues j).Subperm
      (⟨msg, id, false⟩ :: fc.mOutboundQueues j)) ∧
        ((fc.setQueue i []).mOutboundQueues 0).filter (·.mBeingSent) =
          (fc.mOutboundQueues 0).filter (·.mBeingSent) := fun i other =>
    ⟨subperm_setQueue List.nil_subperm, by simp [Function.update_of_ne other.symm]⟩
  have appended : ∀ i, i ≠ 0 → (∀ j, ((fc.setQueue i (fc.mOutboundQueues i ++ [⟨msg, id, false⟩])).mOutboundQueues j).Subperm
      (⟨msg, id, false⟩ :: fc.mOutboundQueues j)) ∧
        ((fc.setQueue i (fc.mOutboundQueues i ++ [⟨msg, id, false⟩])).mOutboundQueues 0).filter
          (·.mBeingSent) = (fc.mOutboundQueues 0).filter (·.mBeingSent) := fun i other =>
    ⟨subperm_setQueue (List.perm_append_singleton _ _).subperm,
      by simp [Function.update_of_ne other.symm]⟩
  cases msg with
  | scpMessage =>
    obtain ⟨kept, trimmed, done⟩ := Except.bind_eq_ok_iff.1 queued
    cases done
    obtain ⟨sub, sameSent⟩ := trimScpQueue_keeps env rfl _ trimmed
    exact ⟨subperm_setQueue sub, by simpa using sameSent⟩
  | transaction =>
    simp only [addMsgAndMaybeTrimQueue] at queued
    split at queued
    · cases queued
      exact ⟨fun _ => List.Subperm.cons_self, rfl⟩
    split at queued
    · cases queued
      exact dropped 1 (by decide)
    · cases queued
      exact appended 1 (by decide)
  | floodDemand =>
    simp only [addMsgAndMaybeTrimQueue] at queued
    split at queued
    · cases queued
      exact dropped 2 (by decide)
    · cases queued
      exact appended 2 (by decide)
  | floodAdvert =>
    simp only [addMsgAndMaybeTrimQueue] at queued
    split at queued
    · cases queued
      exact dropped 3 (by decide)
    · cases queued
      exact appended 3 (by decide)
  | sendMoreExtended | other => cases queued

end FlowControl

/-! ## The sending side of a peer -/

/-- `getMessagePriority` as a test of one queue. -/
def hasPriority (msg : StellarMessage) (i : Fin 4) : Bool :=
  match FlowControl.getMessagePriority msg with
  | .ok j => decide (j = i)
  | .error _ => false

theorem hasPriority_iff {msg : StellarMessage} {i : Fin 4} :
    hasPriority msg i = true ↔ FlowControl.getMessagePriority msg = .ok i := by
  unfold hasPriority
  split <;> rename_i priority <;> simp [priority]

/-- The report the write handler of `TCPPeer` builds once the first messages of the write
queue are written: their pointers, by the queue of their priority. -/
def sentMessagesOf (written : List QueuedOutboundMessage) (i : Fin 4) : List Nat :=
  (written.filter fun w => hasPriority w.mMessage i).map (·.id)

/-- One peer's sending side: its flow control, and the flood messages handed to the write
queue and not yet reported written, oldest first. -/
structure Outbound where
  flowControl : FlowControl
  writeQueue : List QueuedOutboundMessage

namespace Outbound

/-- The peer holds a pointer: a message in its queues or in its write queue has it. -/
def Holds (s : Outbound) (id : Nat) : Prop :=
  (∃ i, ∃ q ∈ s.flowControl.mOutboundQueues i, q.id = id) ∨ ∃ w ∈ s.writeQueue, w.id = id

/-- The moves of the sending side. -/
inductive Step (cfg : Config) : Outbound → Outbound → Prop
  /-- `Peer::sendMessage` of a flood message. It is a new message object, so its pointer is
  none the peer still holds. -/
  | add {s : Outbound} {fc' : FlowControl} (env : OutboundQueueEnv) (msg : StellarMessage)
      (id : Nat) (flood : isFloodMessage msg = true) (fresh : ¬s.Holds id)
      (queued : s.flowControl.addMsgAndMaybeTrimQueue cfg env msg id = .ok fc') :
      Step cfg s ⟨fc', s.writeQueue⟩
  /-- `getNextBatchToSend`, its batch to the back of the write queue. -/
  | send {s : Outbound} {batch : List QueuedOutboundMessage} {fc' : FlowControl}
      (got : s.flowControl.getNextBatchToSend = .ok (batch, fc')) :
      Step cfg s ⟨fc', s.writeQueue ++ batch⟩
  /-- The write handler, once the first `count` messages of the write queue are written. -/
  | written {s : Outbound} {fc' : FlowControl} (count : Nat)
      (processed : s.flowControl.processSentMessages (sentMessagesOf (s.writeQueue.take count)) =
        .ok fc') :
      Step cfg s ⟨fc', s.writeQueue.drop count⟩
  /-- Grants and the reading side, which leave the queues and their counters alone. -/
  | capacity {s : Outbound} {fc' : FlowControl} (same : FlowControl.SameQueues s.flowControl fc') :
      Step cfg s ⟨fc', s.writeQueue⟩

/-- The states runs of moves reach from a fresh flow control. -/
inductive Reachable (cfg : Config) : Outbound → Prop
  | init (bytesTotal : Nat) : Reachable cfg ⟨FlowControl.init cfg bytesTotal, []⟩
  | step {s s' : Outbound} : Reachable cfg s → Step cfg s s' → Reachable cfg s'

/-- The messages of the write queue waiting for one queue's report. -/
def inFlightOf (writeQueue : List QueuedOutboundMessage) (i : Fin 4) : List QueuedOutboundMessage :=
  writeQueue.filter fun w => hasPriority w.mMessage i

/-- A queue and the messages of its priority in the write queue agree: the queue's pointers
are distinct, and a queued message whose pointer is in the write queue is being sent and is the
message handed out. -/
structure InFlight (queue inFlight : List QueuedOutboundMessage) : Prop where
  distinct : (queue.map (·.id)).Nodup
  marked : ∀ q ∈ queue, ∀ w ∈ inFlight, w.id = q.id → q.mBeingSent = true ∧ w.mMessage = q.mMessage

/-- What every run keeps: the books of the queues, and each queue in agreement with the write
queue. -/
structure Books (s : Outbound) : Prop where
  queues : FlowControl.QueueBooks s.flowControl
  inFlight : ∀ i, InFlight (s.flowControl.mOutboundQueues i) (inFlightOf s.writeQueue i)

theorem inFlightOf_append (writeQueue batch : List QueuedOutboundMessage) (i : Fin 4) :
    inFlightOf (writeQueue ++ batch) i = inFlightOf writeQueue i ++ inFlightOf batch i :=
  List.filter_append _ _

theorem InFlight.mono {queue queue' inFlight inFlight' : List QueuedOutboundMessage}
    (agree : InFlight queue inFlight) (sub : queue'.Subperm queue) (fewer : inFlight' ⊆ inFlight) :
    InFlight queue' inFlight' where
  distinct := nodup_map_of_subperm _ sub agree.distinct
  marked q member w written := agree.marked q (sub.subset member) w (fewer written)

/-- A message whose pointer is new joins a queue in agreement. -/
theorem InFlight.cons_fresh {queue inFlight : List QueuedOutboundMessage}
    (agree : InFlight queue inFlight) {new : QueuedOutboundMessage}
    (freshQueue : new.id ∉ queue.map (·.id)) (freshWritten : ∀ w ∈ inFlight, w.id ≠ new.id) :
    InFlight (new :: queue) inFlight where
  distinct := List.nodup_cons.mpr ⟨freshQueue, agree.distinct⟩
  marked q member w written same := by
    cases List.mem_cons.mp member with
    | inl here =>
      subst here
      exact absurd same (freshWritten w written)
    | inr old => exact agree.marked q old w written same

/-- Handing out a batch keeps a queue in agreement with the write queue it grows: the queue's
messages are left or marked, and what of the batch has its priority is marked in it. -/
theorem InFlight.handOut {queue queue' inFlight batch : List QueuedOutboundMessage}
    (agree : InFlight queue inFlight) (marks : List.Forall₂ FlowControl.Marks queue queue')
    (handed : ∀ w ∈ batch, { w with mBeingSent := true } ∈ queue') :
    InFlight queue' (inFlight ++ batch) := by
  have distinct : (queue'.map (·.id)).Nodup := by
    rw [FlowControl.forall₂_marks_ids marks]
    exact agree.distinct
  refine ⟨distinct, fun q' member w written same => ?_⟩
  cases List.mem_append.mp written with
  | inl before =>
    -- handed out before: the queued message was being sent, and is left as it is
    obtain ⟨q, old, marked⟩ := FlowControl.exists_of_forall₂_marks marks q' member
    obtain ⟨sameId, sameMessage⟩ := marked.id_eq
    obtain ⟨beingSent, message⟩ := agree.marked q old w before (same.trans sameId)
    rw [marked.eq_of_beingSent beingSent]
    exact ⟨beingSent, message⟩
  | inr now =>
    -- handed out now: the pointer names one message of the queue, the one just marked
    have one : q' = { w with mBeingSent := true } :=
      List.inj_on_of_nodup_map distinct member (handed w now) same.symm
    subst one
    exact ⟨rfl, rfl⟩

theorem books_init (cfg : Config) (bytesTotal : Nat) :
    Books ⟨FlowControl.init cfg bytesTotal, []⟩ where
  queues := FlowControl.queueBooks_init cfg bytesTotal
  inFlight _ := ⟨List.nodup_nil, fun _ member => absurd member List.not_mem_nil⟩

section Steps

variable {cfg : Config} {s : Outbound}

theorem Books.add (books : Books s) {fc' : FlowControl} {env : OutboundQueueEnv}
    {msg : StellarMessage} {id : Nat} (flood : isFloodMessage msg = true) (fresh : ¬s.Holds id)
    (queued : s.flowControl.addMsgAndMaybeTrimQueue cfg env msg id = .ok fc') :
    Books ⟨fc', s.writeQueue⟩ := by
  obtain ⟨fc'', queued', queues, -⟩ :=
    FlowControl.addMsgAndMaybeTrimQueue_ok cfg env books.queues flood id
  rw [queued, Except.ok.injEq] at queued'
  subst queued'
  obtain ⟨kept, -⟩ := FlowControl.addMsgAndMaybeTrimQueue_queues cfg env queued
  refine ⟨queues, fun i => ((books.inFlight i).cons_fresh ?_ ?_).mono (kept i)
    fun _ written => written⟩
  · intro held
    obtain ⟨q, member, same⟩ := List.mem_map.mp held
    exact fresh (.inl ⟨i, q, member, same⟩)
  · intro w written same
    exact fresh (.inr ⟨w, List.mem_of_mem_filter written, same⟩)

theorem Books.send (books : Books s) {batch : List QueuedOutboundMessage} {fc' : FlowControl}
    (got : s.flowControl.getNextBatchToSend = .ok (batch, fc')) :
    Books ⟨fc', s.writeQueue ++ batch⟩ := by
  obtain ⟨batch', queues, got', -, queueBooks, -⟩ := FlowControl.getNextBatchToSend_books books.queues
  rw [got, Except.ok.injEq, Prod.mk.injEq] at got'
  obtain ⟨rfl, rfl⟩ := got'
  obtain ⟨marks, handed⟩ := FlowControl.getNextBatchToSend_marks got
  refine ⟨queueBooks, fun i => ?_⟩
  rw [inFlightOf_append]
  refine (books.inFlight i).handOut (marks i) fun w written => ?_
  -- a message of the batch with this queue's priority was marked in this queue
  obtain ⟨writtenHanded, priority⟩ := List.mem_filter.mp written
  obtain ⟨j, marked⟩ := handed w writtenHanded
  have inQueue := queueBooks.priority j _ marked
  rw [hasPriority_iff.1 priority, Except.ok.injEq] at inQueue
  subst inQueue
  exact marked

theorem Books.written (books : Books s) {fc' : FlowControl} (count : Nat)
    (processed : s.flowControl.processSentMessages (sentMessagesOf (s.writeQueue.take count)) =
      .ok fc') :
    Books ⟨fc', s.writeQueue.drop count⟩ := by
  obtain ⟨fc'', processed', queues, -⟩ :=
    FlowControl.processSentMessages_ok books.queues (sentMessagesOf (s.writeQueue.take count))
  rw [processed, Except.ok.injEq] at processed'
  subst processed'
  refine ⟨queues, fun i => ?_⟩
  obtain ⟨popped, remaining, -⟩ := FlowControl.processSentMessages_pops processed i
  rw [remaining]
  exact (books.inFlight i).mono (List.drop_sublist _ _).subperm
    ((List.drop_sublist count s.writeQueue).filter _).subset

theorem Books.capacity (books : Books s) {fc' : FlowControl}
    (same : FlowControl.SameQueues s.flowControl fc') : Books ⟨fc', s.writeQueue⟩ where
  queues := books.queues.of_sameQueues same
  inFlight i := by
    rw [same.queues]
    exact books.inFlight i

theorem Books.step (books : Books s) {s' : Outbound} (step : Step cfg s s') : Books s' := by
  cases step with
  | add env msg id flood fresh queued => exact books.add flood fresh queued
  | send got => exact books.send got
  | written count processed => exact books.written count processed
  | capacity same => exact books.capacity same

/-- What a report of written messages pops from a queue was being sent, and is a message of
the report as it was handed out. -/
theorem Books.popped (books : Books s) {fc' : FlowControl} (count : Nat)
    (processed : s.flowControl.processSentMessages (sentMessagesOf (s.writeQueue.take count)) =
      .ok fc') (i : Fin 4) :
    ∃ popped, fc'.mOutboundQueues i = (s.flowControl.mOutboundQueues i).drop popped ∧
      ∀ q ∈ (s.flowControl.mOutboundQueues i).take popped, q.mBeingSent = true ∧
        ∃ w ∈ s.writeQueue.take count, w.id = q.id ∧ w.mMessage = q.mMessage := by
  obtain ⟨popped, remaining, named⟩ := FlowControl.processSentMessages_pops processed i
  refine ⟨popped, remaining, fun q member => ?_⟩
  obtain ⟨w, reported, same⟩ := List.mem_map.mp (named q member)
  obtain ⟨written, priority⟩ := List.mem_filter.mp reported
  have inFlight : w ∈ inFlightOf s.writeQueue i :=
    List.mem_filter.mpr ⟨List.mem_of_mem_take written, priority⟩
  obtain ⟨beingSent, message⟩ :=
    (books.inFlight i).marked q (List.mem_of_mem_take member) w inFlight same
  exact ⟨beingSent, w, written, same, message⟩

end Steps

theorem Reachable.books {cfg : Config} {s : Outbound} (reachable : Reachable cfg s) : Books s := by
  induction reachable with
  | init bytesTotal => exact books_init cfg bytesTotal
  | step _ step books => exact books.step step

/-- Over every run of queueing, handing out and reports of what was written: each queue holds
messages of its priority only and each counter what its queue holds, neither
`processSentMessages` nor the queueing of a flood message fails an assertion, the SCP queue
keeps every message being sent, and what a report pops was being sent and is a message the
report names, as it was handed out. -/
theorem outboundQueues_exact {cfg : Config} {s : Outbound} (reachable : Reachable cfg s) :
    (∀ i, ∀ q ∈ s.flowControl.mOutboundQueues i,
      FlowControl.getMessagePriority q.mMessage = .ok i) ∧
    s.flowControl.mTxQueueByteCount = FlowControl.queuedSum (s.flowControl.mOutboundQueues 1) ∧
    s.flowControl.mDemandQueueTxHashCount =
      FlowControl.queuedSum (s.flowControl.mOutboundQueues 2) ∧
    s.flowControl.mAdvertQueueTxHashCount =
      FlowControl.queuedSum (s.flowControl.mOutboundQueues 3) ∧
    (∀ sentMessages, ∃ fc', s.flowControl.processSentMessages sentMessages = .ok fc') ∧
    (∀ env msg id, isFloodMessage msg = true → ∃ fc',
      s.flowControl.addMsgAndMaybeTrimQueue cfg env msg id = .ok fc' ∧
        (fc'.mOutboundQueues 0).filter (·.mBeingSent) =
          (s.flowControl.mOutboundQueues 0).filter (·.mBeingSent)) ∧
    ∀ count fc',
      s.flowControl.processSentMessages (sentMessagesOf (s.writeQueue.take count)) = .ok fc' →
        ∀ i, ∃ popped, fc'.mOutboundQueues i = (s.flowControl.mOutboundQueues i).drop popped ∧
          ∀ q ∈ (s.flowControl.mOutboundQueues i).take popped, q.mBeingSent = true ∧
            ∃ w ∈ s.writeQueue.take count, w.id = q.id ∧ w.mMessage = q.mMessage := by
  have books := reachable.books
  refine ⟨books.queues.priority, books.queues.counted 1, books.queues.counted 2,
    books.queues.counted 3, fun sentMessages => ?_, fun env msg id flood => ?_,
    fun count fc' processed => books.popped count processed⟩
  · obtain ⟨fc', processed, -⟩ := FlowControl.processSentMessages_ok books.queues sentMessages
    exact ⟨fc', processed⟩
  · obtain ⟨fc', queued, -⟩ := FlowControl.addMsgAndMaybeTrimQueue_ok cfg env books.queues flood id
    exact ⟨fc', queued, (FlowControl.addMsgAndMaybeTrimQueue_queues cfg env queued).2⟩

/-- A fresh peer queues a transaction under a new pointer: the transaction queue holds it, and
its counter what the queue holds. -/
theorem outboundQueues_exact_queuedTransaction :
    ∃ s, Reachable Config.defaults s ∧
      s.flowControl.mOutboundQueues 1 = [⟨.transaction 100, 7, false⟩] ∧
      s.flowControl.mTxQueueByteCount = FlowControl.queuedSum (s.flowControl.mOutboundQueues 1) := by
  have start : Reachable Config.defaults ⟨FlowControl.init Config.defaults 300000, []⟩ :=
    .init 300000
  have fresh : ¬(⟨FlowControl.init Config.defaults 300000, []⟩ : Outbound).Holds 7 := by
    intro held
    cases held with
    | inl queued =>
      obtain ⟨i, q, member, -⟩ := queued
      exact absurd member List.not_mem_nil
    | inr written =>
      obtain ⟨w, member, -⟩ := written
      exact absurd member List.not_mem_nil
  have added := start.step
    (Step.add ⟨1000, 100, 0, 0, fun _ _ => false⟩ (.transaction 100) 7 rfl fresh rfl)
  obtain ⟨-, counted, -⟩ := outboundQueues_exact added
  exact ⟨_, added, rfl, counted⟩

end Outbound

end StellarCore.Overlay
