import Mathlib.Algebra.BigOperators.Group.List.Basic
import Mathlib.Tactic.FinCases
import Mathlib.Data.Fintype.Basic
import StellarCore.Overlay.FlowControl

/-!
# What the flow control operations do

One lemma per operation of `FlowControlCapacity` and `FlowControl`. Each says what the
operation returns when the capacities it reads are consistent. The connection proofs cite
these lemmas and never unfold the operations.

The two units are treated alike through `CapacityUnit`: a unit names the capacity of a
`FlowControl` it reads, its flood limit, its counter of processed resources and what a grant
gives it. `FlowControl.mapCapacities` changes both capacities at once, which is how every
operation here changes them.
-/

set_option autoImplicit false

namespace StellarCore.Overlay

/-- The flood capacity a message takes in a unit: its count if it is a flood message. -/
def floodResourceCount (getMsgResourceCount : StellarMessage → Nat) (msg : StellarMessage) :
    Nat :=
  if isFloodMessage msg then getMsgResourceCount msg else 0

/-- The total capacity against its limit, as `checkCapacityInvariants` requires them: both
present with the capacity below the limit, or both absent. -/
def TotalFits : Option Nat → Option Nat → Prop
  | some limit, some total => total ≤ limit
  | none, none => True
  | _, _ => False

namespace FlowControlCapacity

variable {getCapacityLimits : ReadingCapacity} {getMsgResourceCount : StellarMessage → Nat}
  {c : FlowControlCapacity} {msg : StellarMessage}

/-- The capacity after `lockLocalCapacity` took a message. -/
def lockedLocal (getMsgResourceCount : StellarMessage → Nat) (c : FlowControlCapacity)
    (msg : StellarMessage) : FlowControlCapacity :=
  ⟨⟨c.mCapacity.mFloodCapacity - floodResourceCount getMsgResourceCount msg,
    c.mCapacity.mTotalCapacity.map (· - getMsgResourceCount msg)⟩, c.mOutboundCapacity⟩

/-- The capacity after `releaseLocalCapacity` gave a message back. -/
def releasedLocal (getMsgResourceCount : StellarMessage → Nat) (c : FlowControlCapacity)
    (msg : StellarMessage) : FlowControlCapacity :=
  ⟨⟨c.mCapacity.mFloodCapacity + floodResourceCount getMsgResourceCount msg,
    c.mCapacity.mTotalCapacity.map (· + getMsgResourceCount msg)⟩, c.mOutboundCapacity⟩

theorem checkCapacityInvariants_ok
    (flood : c.mCapacity.mFloodCapacity ≤ getCapacityLimits.mFloodCapacity)
    (total : TotalFits getCapacityLimits.mTotalCapacity c.mCapacity.mTotalCapacity) :
    checkCapacityInvariants getCapacityLimits c = .ok () := by
  unfold checkCapacityInvariants
  rw [if_neg (Nat.not_lt.mpr flood)]
  revert total
  cases getCapacityLimits.mTotalCapacity with
  | none =>
      cases c.mCapacity.mTotalCapacity with
      | none => intro _; rfl
      | some total => intro fits; exact fits.elim
  | some limit =>
      cases c.mCapacity.mTotalCapacity with
      | none => intro fits; exact fits.elim
      | some total =>
          intro fits
          exact if_neg (Nat.not_lt.mpr fits)

/-- A successful check gives back the consistency it checks. -/
theorem consistent_of_checkCapacityInvariants
    (checked : checkCapacityInvariants getCapacityLimits c = .ok ()) :
    c.mCapacity.mFloodCapacity ≤ getCapacityLimits.mFloodCapacity ∧
      TotalFits getCapacityLimits.mTotalCapacity c.mCapacity.mTotalCapacity := by
  unfold checkCapacityInvariants at checked
  split at checked
  · cases checked
  next above =>
    refine ⟨Nat.not_lt.mp above, ?_⟩
    cases limit : getCapacityLimits.mTotalCapacity with
    | none =>
        cases total : c.mCapacity.mTotalCapacity with
        | none => trivial
        | some total' =>
            rw [limit, total] at checked
            cases checked
    | some limit' =>
        cases total : c.mCapacity.mTotalCapacity with
        | none =>
            rw [limit, total] at checked
            cases checked
        | some total' =>
            simp only [limit, total] at checked
            split at checked
            · cases checked
            · next fits => exact Nat.not_lt.mp fits

theorem lockTotalCapacity_eq_ok {total total' : Option Nat} {msgResources : Nat} :
    lockTotalCapacity total msgResources = .ok total' ↔
      (∀ t, total = some t → msgResources ≤ t) ∧ total' = total.map (· - msgResources) := by
  cases total with
  | none => simp [lockTotalCapacity, eq_comm]
  | some t =>
      by_cases short : t < msgResources
      · simp only [lockTotalCapacity, if_pos short, reduceCtorEq, false_iff, not_and]
        intro fits
        exact absurd (fits t rfl) (Nat.not_le.mpr short)
      · simp [lockTotalCapacity, short, Nat.not_lt.mp short, eq_comm]

/-- `lockLocalCapacity` answers `true` exactly when the message fits the flood capacity, and
the total capacity must hold it, or the assert fires. -/
theorem lockLocalCapacity_eq_true {c' : FlowControlCapacity}
    (locked : c.lockLocalCapacity getCapacityLimits getMsgResourceCount msg = .ok (true, c')) :
    checkCapacityInvariants getCapacityLimits c = .ok () ∧
      (∀ total, c.mCapacity.mTotalCapacity = some total → getMsgResourceCount msg ≤ total) ∧
      floodResourceCount getMsgResourceCount msg ≤ c.mCapacity.mFloodCapacity ∧
      c' = c.lockedLocal getMsgResourceCount msg := by
  unfold lockLocalCapacity at locked
  obtain ⟨⟨⟩, checked, locked⟩ := Except.bind_eq_ok_iff.1 locked
  dsimp only at locked
  obtain ⟨total', totalLocked, locked⟩ := Except.bind_eq_ok_iff.1 locked
  obtain ⟨totalFits, rfl⟩ := lockTotalCapacity_eq_ok.1 totalLocked
  refine ⟨checked, totalFits, ?_⟩
  simp only [floodResourceCount, lockedLocal]
  split at locked
  · next isFlood =>
      rw [if_pos isFlood]
      split at locked
      · cases locked
      · next fits =>
          cases locked
          exact ⟨Nat.not_lt.mp fits, rfl⟩
  · next notFlood =>
      rw [if_neg notFlood]
      cases locked
      exact ⟨Nat.zero_le _, rfl⟩

theorem lockLocalCapacity_eq
    (checked : checkCapacityInvariants getCapacityLimits c = .ok ())
    (total : ∀ total, c.mCapacity.mTotalCapacity = some total → getMsgResourceCount msg ≤ total)
    (flood : floodResourceCount getMsgResourceCount msg ≤ c.mCapacity.mFloodCapacity) :
    c.lockLocalCapacity getCapacityLimits getMsgResourceCount msg =
      .ok (true, c.lockedLocal getMsgResourceCount msg) := by
  unfold lockLocalCapacity
  rw [checked, Except.ok_bind]
  dsimp only
  rw [lockTotalCapacity_eq_ok.2 ⟨total, rfl⟩, Except.ok_bind]
  simp only [floodResourceCount, lockedLocal] at flood ⊢
  split
  · next isFlood =>
      rw [if_pos isFlood] at flood
      rw [if_neg (Nat.not_lt.mpr flood)]
      rfl
  · rfl

theorem releaseLocalCapacity_eq
    (checked : checkCapacityInvariants getCapacityLimits
      (c.releasedLocal getMsgResourceCount msg) = .ok ()) :
    c.releaseLocalCapacity getCapacityLimits getMsgResourceCount msg =
      .ok (floodResourceCount getMsgResourceCount msg, c.releasedLocal getMsgResourceCount msg) := by
  unfold releaseLocalCapacity
  simp only [floodResourceCount, releasedLocal] at checked ⊢
  split
  · next isFlood =>
      simp only [isFlood, if_true] at checked ⊢
      rw [checked]
      rfl
  · next notFlood =>
      simp only [notFlood, Bool.false_eq_true, if_false, Nat.add_zero] at checked ⊢
      rw [checked]
      rfl

theorem lockOutboundCapacity_eq (has : getMsgResourceCount msg ≤ c.mOutboundCapacity) :
    c.lockOutboundCapacity getMsgResourceCount msg =
      .ok { c with
        mOutboundCapacity :=
          c.mOutboundCapacity - floodResourceCount getMsgResourceCount msg } := by
  by_cases isFlood : isFloodMessage msg = true
  · simp only [lockOutboundCapacity, floodResourceCount, hasOutboundCapacity, isFlood, if_true,
      decide_eq_true has]
  · simp only [lockOutboundCapacity, floodResourceCount, isFlood, Bool.false_eq_true, if_false,
      Nat.sub_zero]

end FlowControlCapacity

/-- The two units flow control counts in. -/
inductive CapacityUnit where
  | messages
  | bytes
deriving DecidableEq, Repr

namespace CapacityUnit

def getMsgResourceCount : CapacityUnit → StellarMessage → Nat
  | messages => FlowControlMessageCapacity.getMsgResourceCount
  | bytes => FlowControlByteCapacity.getMsgResourceCount

/-- The flood capacity a message takes in the unit. -/
def floodResources (u : CapacityUnit) : StellarMessage → Nat :=
  floodResourceCount u.getMsgResourceCount

/-- What a grant gives the unit. -/
def granted : CapacityUnit → StellarMessage → Nat
  | messages, .sendMoreExtended numMessages _ => numMessages
  | bytes, .sendMoreExtended _ numBytes => numBytes
  | _, _ => 0

/-- What `endMessageProcessing` hands back in the unit. -/
def ofSendMore : CapacityUnit → SendMoreCapacity → Nat
  | messages, res => res.numFloodMessages
  | bytes, res => res.numFloodBytes

def capacity : CapacityUnit → FlowControl → FlowControlCapacity
  | messages, fc => fc.mFlowControlCapacity
  | bytes, fc => fc.mFlowControlBytesCapacity.toFlowControlCapacity

/-- `getCapacityLimits` of the unit. -/
def limits : CapacityUnit → Config → FlowControl → ReadingCapacity
  | messages, cfg, _ => FlowControlMessageCapacity.getCapacityLimits cfg
  | bytes, _, fc => fc.mFlowControlBytesCapacity.mCapacityLimits

/-- The unit's counter of flood resources processed and not yet granted back. -/
def processed : CapacityUnit → FlowControl → Nat
  | messages, fc => fc.mFloodDataProcessed
  | bytes, fc => fc.mFloodDataProcessedBytes

/-- The flood resources of a list of messages. -/
def floodSum (u : CapacityUnit) (msgs : List StellarMessage) : Nat :=
  (msgs.map u.floodResources).sum

/-- What the grants of a list of messages give. -/
def grantSum (u : CapacityUnit) (msgs : List StellarMessage) : Nat :=
  (msgs.map u.granted).sum

variable (u : CapacityUnit)

@[simp] theorem floodSum_nil : u.floodSum [] = 0 := rfl

@[simp] theorem floodSum_cons (msg : StellarMessage) (msgs : List StellarMessage) :
    u.floodSum (msg :: msgs) = u.floodResources msg + u.floodSum msgs := by
  simp [floodSum]

@[simp] theorem floodSum_append (msgs msgs' : List StellarMessage) :
    u.floodSum (msgs ++ msgs') = u.floodSum msgs + u.floodSum msgs' := by
  simp [floodSum]

@[simp] theorem grantSum_nil : u.grantSum [] = 0 := rfl

@[simp] theorem grantSum_cons (msg : StellarMessage) (msgs : List StellarMessage) :
    u.grantSum (msg :: msgs) = u.granted msg + u.grantSum msgs := by
  simp [grantSum]

@[simp] theorem grantSum_append (msgs msgs' : List StellarMessage) :
    u.grantSum (msgs ++ msgs') = u.grantSum msgs + u.grantSum msgs' := by
  simp [grantSum]

theorem floodSum_erase {msg : StellarMessage} {msgs : List StellarMessage} (member : msg ∈ msgs) :
    u.floodResources msg + u.floodSum (msgs.erase msg) = u.floodSum msgs :=
  List.sum_map_erase u.floodResources member

theorem grantSum_erase {msg : StellarMessage} {msgs : List StellarMessage} (member : msg ∈ msgs) :
    u.granted msg + u.grantSum (msgs.erase msg) = u.grantSum msgs :=
  List.sum_map_erase u.granted member

theorem floodResources_le_floodSum {msg : StellarMessage} {msgs : List StellarMessage}
    (member : msg ∈ msgs) : u.floodResources msg ≤ u.floodSum msgs := by
  rw [← floodSum_erase u member]
  exact Nat.le_add_right _ _

theorem granted_le_grantSum {msg : StellarMessage} {msgs : List StellarMessage}
    (member : msg ∈ msgs) : u.granted msg ≤ u.grantSum msgs := by
  rw [← grantSum_erase u member]
  exact Nat.le_add_right _ _

/-- A flood message takes one message and at least as many bytes. -/
theorem floodResources_messages_le_bytes (msg : StellarMessage) :
    messages.floodResources msg ≤ bytes.floodResources msg := by
  simp only [floodResources, floodResourceCount, getMsgResourceCount,
    FlowControlMessageCapacity.getMsgResourceCount, FlowControlByteCapacity.getMsgResourceCount]
  split
  · exact msg.xdrSize_pos
  · exact Nat.le_refl 0

theorem floodResources_messages_le_one (msg : StellarMessage) : messages.floodResources msg ≤ 1 := by
  simp only [floodResources, floodResourceCount, getMsgResourceCount,
    FlowControlMessageCapacity.getMsgResourceCount]
  split <;> omega

theorem floodResources_le (msg : StellarMessage) :
    u.floodResources msg ≤ u.getMsgResourceCount msg := by
  simp only [floodResources, floodResourceCount]
  split <;> omega

/-- A flood message is no grant. -/
theorem granted_of_isFloodMessage {msg : StellarMessage} (flood : isFloodMessage msg = true) :
    u.granted msg = 0 := by
  cases u <;> cases msg <;> simp_all [granted, isFloodMessage]

/-- A message that is neither flooded nor a grant takes nothing and gives nothing. -/
theorem floodResources_of_not_isFloodMessage {msg : StellarMessage}
    (notFlood : isFloodMessage msg = false) : u.floodResources msg = 0 := by
  simp [floodResources, floodResourceCount, notFlood]

/-- A batch of flood messages grants nothing. -/
theorem grantSum_eq_zero_of_flood : ∀ {msgs : List StellarMessage},
    (∀ msg ∈ msgs, isFloodMessage msg = true) → u.grantSum msgs = 0
  | [], _ => rfl
  | msg :: rest, flood => by
      rw [grantSum_cons, u.granted_of_isFloodMessage (flood msg List.mem_cons_self),
        grantSum_eq_zero_of_flood fun other member => flood other (List.mem_cons_of_mem msg member)]

end CapacityUnit

namespace FlowControl

/-- Change both capacities, each by what the function does in its unit. -/
def mapCapacities (f : CapacityUnit → FlowControlCapacity → FlowControlCapacity)
    (fc : FlowControl) : FlowControl :=
  { fc with
    mFlowControlCapacity := f .messages fc.mFlowControlCapacity
    mFlowControlBytesCapacity := { fc.mFlowControlBytesCapacity with
      toFlowControlCapacity := f .bytes fc.mFlowControlBytesCapacity.toFlowControlCapacity } }

variable (f g : CapacityUnit → FlowControlCapacity → FlowControlCapacity) (fc : FlowControl)
  (u : CapacityUnit)

@[simp] theorem capacity_mapCapacities : u.capacity (fc.mapCapacities f) = f u (u.capacity fc) := by
  cases u <;> rfl

@[simp] theorem limits_mapCapacities (cfg : Config) :
    u.limits cfg (fc.mapCapacities f) = u.limits cfg fc := by
  cases u <;> rfl

@[simp] theorem processed_mapCapacities : u.processed (fc.mapCapacities f) = u.processed fc := by
  cases u <;> rfl

@[simp] theorem mapCapacities_mapCapacities :
    (fc.mapCapacities f).mapCapacities g = fc.mapCapacities fun u c => g u (f u c) := rfl

@[simp] theorem mapCapacities_mOutboundQueues :
    (fc.mapCapacities f).mOutboundQueues = fc.mOutboundQueues := rfl

@[simp] theorem mapCapacities_mFlowControlCapacity :
    (fc.mapCapacities f).mFlowControlCapacity = f .messages fc.mFlowControlCapacity := rfl

@[simp] theorem mapCapacities_mCapacityLimits :
    (fc.mapCapacities f).mFlowControlBytesCapacity.mCapacityLimits =
      fc.mFlowControlBytesCapacity.mCapacityLimits := rfl

@[simp] theorem mapCapacities_bytesCapacity :
    (fc.mapCapacities f).mFlowControlBytesCapacity.mCapacity = (f .bytes
      fc.mFlowControlBytesCapacity.toFlowControlCapacity).mCapacity := rfl

theorem hasOutboundCapacity_eq_true {msg : StellarMessage} :
    fc.hasOutboundCapacity msg = true ↔
      ∀ u : CapacityUnit, u.getMsgResourceCount msg ≤ (u.capacity fc).mOutboundCapacity := by
  simp only [hasOutboundCapacity, FlowControlCapacity.hasOutboundCapacity, Bool.and_eq_true,
    decide_eq_true_eq]
  constructor
  · rintro ⟨messages, bytes⟩ u
    cases u
    · exact messages
    · exact bytes
  · intro each
    exact ⟨each .messages, each .bytes⟩

/-- Each outbound capacity less what a batch of messages took in its unit. -/
def afterBatch (batch : List StellarMessage) (fc : FlowControl) : FlowControl :=
  fc.mapCapacities fun u c =>
    { c with mOutboundCapacity := c.mOutboundCapacity - u.floodSum batch }

theorem afterBatch_nil : afterBatch [] fc = fc := rfl

theorem afterBatch_afterBatch (batch batch' : List StellarMessage) :
    afterBatch batch' (afterBatch batch fc) = afterBatch (batch ++ batch') fc := by
  simp only [afterBatch, mapCapacities_mapCapacities, CapacityUnit.floodSum_append, Nat.sub_sub]

/-- Outbound capacity locked for a message that fits it, in both units. -/
theorem lockOutboundCapacity_eq {msg : StellarMessage} (has : fc.hasOutboundCapacity msg = true) :
    fc.lockOutboundCapacity msg = .ok (afterBatch [msg] fc) := by
  have fits := (hasOutboundCapacity_eq_true fc).mp has
  have messagesFit : FlowControlMessageCapacity.getMsgResourceCount msg ≤
      fc.mFlowControlCapacity.mOutboundCapacity := fits .messages
  have bytesFit : FlowControlByteCapacity.getMsgResourceCount msg ≤
      fc.mFlowControlBytesCapacity.mOutboundCapacity := fits .bytes
  unfold lockOutboundCapacity
  rw [FlowControlCapacity.lockOutboundCapacity_eq messagesFit, Except.ok_bind,
    FlowControlCapacity.lockOutboundCapacity_eq bytesFit, Except.ok_bind]
  rfl

/-- A grant adds to the outbound capacity of each unit what it grants there. -/
theorem maybeReleaseCapacity_eq (msg : StellarMessage) :
    fc.maybeReleaseCapacity msg = .ok (fc.mapCapacities fun u c =>
      { c with mOutboundCapacity := c.mOutboundCapacity + u.granted msg }) := by
  cases msg <;> rfl

/-- A message that grants nothing releases nothing. -/
theorem mapCapacities_release_of_granted_zero {msg : StellarMessage}
    (nothing : ∀ u : CapacityUnit, u.granted msg = 0) :
    (fc.mapCapacities fun u c =>
      { c with mOutboundCapacity := c.mOutboundCapacity + u.granted msg }) = fc := by
  simp [nothing, mapCapacities]

/-- One queue of `getNextBatchToSend`: it never fails, the batch comes out of the queue and
fits the outbound capacity, and the queue keeps its messages. -/
theorem sendFromQueue_ok : ∀ (fc : FlowControl) (queue : List QueuedOutboundMessage),
    ∃ batch queue', fc.sendFromQueue queue =
        .ok (batch, queue', afterBatch (batch.map (·.mMessage)) fc) ∧
      (∀ u : CapacityUnit,
        u.floodSum (batch.map (·.mMessage)) ≤ (u.capacity fc).mOutboundCapacity) ∧
      queue'.map (·.mMessage) = queue.map (·.mMessage) ∧ batch ⊆ queue
  | fc, [] => ⟨[], [], rfl, fun _ => Nat.zero_le _, rfl, List.nil_subset _⟩
  | fc, outboundMsg :: rest => by
      by_cases has : fc.hasOutboundCapacity outboundMsg.mMessage = true
      · by_cases beingSent : outboundMsg.mBeingSent = true
        · -- already being sent: skipped
          obtain ⟨batch, rest', sent, fits, same, sub⟩ := sendFromQueue_ok fc rest
          refine ⟨batch, outboundMsg :: rest', ?_, fits, by simp [same],
            List.subset_cons_of_subset _ sub⟩
          rw [sendFromQueue, if_neg (by simp [has]), if_pos beingSent, sent]
          rfl
        · -- locked and marked, then the rest of the queue from the smaller capacity
          have taken := (hasOutboundCapacity_eq_true fc).mp has
          obtain ⟨batch, rest', sent, fits, same, sub⟩ :=
            sendFromQueue_ok (afterBatch [outboundMsg.mMessage] fc) rest
          refine ⟨outboundMsg :: batch, { outboundMsg with mBeingSent := true } :: rest', ?_,
            fun u => ?_, by simp [same], List.cons_subset_cons _ sub⟩
          · rw [sendFromQueue, if_neg (by simp [has]), if_neg beingSent,
              lockOutboundCapacity_eq fc has, Except.ok_bind]
            rw [sent, Except.ok_bind, afterBatch_afterBatch]
            rfl
          · have first := u.floodResources_le outboundMsg.mMessage
            have more := fits u
            simp only [afterBatch, capacity_mapCapacities, CapacityUnit.floodSum_cons,
              CapacityUnit.floodSum_nil, Nat.add_zero] at more
            simp only [List.map_cons, CapacityUnit.floodSum_cons]
            have whole := taken u
            omega
      · refine ⟨[], outboundMsg :: rest, ?_, fun _ => Nat.zero_le _, rfl, List.nil_subset _⟩
        rw [sendFromQueue, if_pos (by simp [has])]
        rfl

@[simp] theorem capacity_setQueue (i : Fin 4) (queue : List QueuedOutboundMessage) :
    u.capacity (fc.setQueue i queue) = u.capacity fc := by
  cases u <;> rfl

/-- `getNextBatchToSend` over queues in a given order: it never fails, the batch fits the
outbound capacity and comes out of the queues, and each queue keeps its messages. -/
theorem sendFromQueues_ok : ∀ (fc : FlowControl) (order : List (Fin 4)),
    ∃ batch queues, fc.sendFromQueues order =
        .ok (batch, { afterBatch (batch.map (·.mMessage)) fc with mOutboundQueues := queues }) ∧
      (∀ u : CapacityUnit,
        u.floodSum (batch.map (·.mMessage)) ≤ (u.capacity fc).mOutboundCapacity) ∧
      (∀ i, (queues i).map (·.mMessage) = (fc.mOutboundQueues i).map (·.mMessage)) ∧
      ∀ q ∈ batch, ∃ i, q.mMessage ∈ (fc.mOutboundQueues i).map (·.mMessage)
  | fc, [] =>
      ⟨[], fc.mOutboundQueues, rfl, fun _ => Nat.zero_le _, fun _ => rfl,
        fun _ member => absurd member List.not_mem_nil⟩
  | fc, i :: order => by
      obtain ⟨batch, queue, sent, fits, same, sub⟩ := sendFromQueue_ok fc (fc.mOutboundQueues i)
      obtain ⟨more, queues, sentMore, fitsMore, sameMore, subMore⟩ :=
        sendFromQueues_ok ((afterBatch (batch.map (·.mMessage)) fc).setQueue i queue) order
      -- the queues after the first one was sent from hold the messages they held before
      have updatedSame : ∀ j,
          (((afterBatch (batch.map (·.mMessage)) fc).setQueue i queue).mOutboundQueues j).map
            (·.mMessage) = (fc.mOutboundQueues j).map (·.mMessage) := by
        intro j
        by_cases here : j = i
        · subst here
          simp [afterBatch, same]
        · simp [afterBatch, Function.update_of_ne here]
      refine ⟨batch ++ more, queues, ?_, fun u => ?_, fun j => ?_, fun q member => ?_⟩
      · rw [sendFromQueues, sent, Except.ok_bind]
        dsimp only
        rw [sentMore, Except.ok_bind, List.map_append, ← afterBatch_afterBatch]
        rfl
      · have first := fits u
        have second := fitsMore u
        simp only [afterBatch, capacity_setQueue, capacity_mapCapacities] at second
        simp only [List.map_append, CapacityUnit.floodSum_append]
        omega
      · rw [sameMore j, updatedSame j]
      · rcases List.mem_append.mp member with early | late
        · exact ⟨i, List.mem_map_of_mem (sub early)⟩
        · obtain ⟨j, found⟩ := subMore q late
          exact ⟨j, updatedSame j ▸ found⟩

theorem getNextBatchToSend_ok :
    ∃ batch queues, fc.getNextBatchToSend =
        .ok (batch, { afterBatch (batch.map (·.mMessage)) fc with mOutboundQueues := queues }) ∧
      (∀ u : CapacityUnit,
        u.floodSum (batch.map (·.mMessage)) ≤ (u.capacity fc).mOutboundCapacity) ∧
      (∀ i, (queues i).map (·.mMessage) = (fc.mOutboundQueues i).map (·.mMessage)) ∧
      ∀ q ∈ batch, ∃ i, q.mMessage ∈ (fc.mOutboundQueues i).map (·.mMessage) :=
  sendFromQueues_ok fc (List.finRange 4)

/-! ## The outbound queues -/

/-- Two flow controls that agree on both capacities and on the processed counters: what the
queue operations leave alone. -/
structure SameCapacities (fc fc' : FlowControl) : Prop where
  messages : fc'.mFlowControlCapacity = fc.mFlowControlCapacity
  bytes : fc'.mFlowControlBytesCapacity = fc.mFlowControlBytesCapacity
  processed : fc'.mFloodDataProcessed = fc.mFloodDataProcessed
  processedBytes : fc'.mFloodDataProcessedBytes = fc.mFloodDataProcessedBytes

theorem SameCapacities.refl (fc : FlowControl) : SameCapacities fc fc := ⟨rfl, rfl, rfl, rfl⟩

theorem SameCapacities.trans {fc fc' fc'' : FlowControl} (first : SameCapacities fc fc')
    (second : SameCapacities fc' fc'') : SameCapacities fc fc'' :=
  ⟨second.messages.trans first.messages, second.bytes.trans first.bytes,
    second.processed.trans first.processed, second.processedBytes.trans first.processedBytes⟩

theorem SameCapacities.capacity {fc fc' : FlowControl} (same : SameCapacities fc fc')
    (u : CapacityUnit) : u.capacity fc' = u.capacity fc := by
  cases u
  · exact same.messages
  · exact congrArg FlowControlByteCapacity.toFlowControlCapacity same.bytes

theorem SameCapacities.limits {fc fc' : FlowControl} (same : SameCapacities fc fc')
    (u : CapacityUnit) (cfg : Config) : u.limits cfg fc' = u.limits cfg fc := by
  cases u
  · rfl
  · exact congrArg FlowControlByteCapacity.mCapacityLimits same.bytes

theorem SameCapacities.processed' {fc fc' : FlowControl} (same : SameCapacities fc fc')
    (u : CapacityUnit) : u.processed fc' = u.processed fc := by
  cases u
  · exact same.processed
  · exact same.processedBytes

/-- The counter a queue keeps of a message in it: the bytes of a transaction, the hashes of a
demand or an advert. SCP messages are not counted. -/
def queuedCount : StellarMessage → Nat
  | msg@(.transaction _) => FlowControlByteCapacity.getMsgResourceCount msg
  | .floodDemand s => s
  | .floodAdvert s => s
  | _ => 0

/-- What the counter of a queue should hold. -/
def queuedSum (queue : List QueuedOutboundMessage) : Nat :=
  (queue.map fun queued => queuedCount queued.mMessage).sum

@[simp] theorem queuedSum_nil : queuedSum [] = 0 := rfl

@[simp] theorem queuedSum_cons (queued : QueuedOutboundMessage)
    (queue : List QueuedOutboundMessage) :
    queuedSum (queued :: queue) = queuedCount queued.mMessage + queuedSum queue := by
  simp [queuedSum]

@[simp] theorem queuedSum_append (queue queue' : List QueuedOutboundMessage) :
    queuedSum (queue ++ queue') = queuedSum queue + queuedSum queue' := by
  simp [queuedSum]

/-- The counter kept for each queue; the SCP queue has none. -/
def queueCounter (fc : FlowControl) : Fin 4 → Nat
  | ⟨0, _⟩ => 0
  | ⟨1, _⟩ => fc.mTxQueueByteCount
  | ⟨2, _⟩ => fc.mDemandQueueTxHashCount
  | _ => fc.mAdvertQueueTxHashCount

@[simp] theorem queueCounter_setQueue (i j : Fin 4) (queue : List QueuedOutboundMessage) :
    (fc.setQueue i queue).queueCounter j = fc.queueCounter j := rfl

/-- Every queued message waits in the queue of its priority, and each counter holds what
its queue holds. -/
structure QueueBooks (fc : FlowControl) : Prop where
  priority : ∀ i, ∀ queued ∈ fc.mOutboundQueues i, getMessagePriority queued.mMessage = .ok i
  counted : ∀ i, fc.queueCounter i = queuedSum (fc.mOutboundQueues i)

theorem queueBooks_init (cfg : Config) (bytesTotal : Nat) : QueueBooks (init cfg bytesTotal) where
  priority _ _ member := absurd member List.not_mem_nil
  counted i := by
    fin_cases i <;> rfl

/-- The books hold after one queue and its counter change, when the new queue keeps to its
priority and its counter holds it. -/
theorem QueueBooks.replace {fc fc' : FlowControl} (books : QueueBooks fc) (i : Fin 4)
    (queues : ∀ j, j ≠ i → fc'.mOutboundQueues j = fc.mOutboundQueues j)
    (counters : ∀ j, j ≠ i → fc'.queueCounter j = fc.queueCounter j)
    (priority : ∀ queued ∈ fc'.mOutboundQueues i, getMessagePriority queued.mMessage = .ok i)
    (counted : fc'.queueCounter i = queuedSum (fc'.mOutboundQueues i)) : QueueBooks fc' where
  priority j queued member := by
    by_cases here : j = i
    · subst here
      exact priority queued member
    · rw [queues j here] at member
      exact books.priority j queued member
  counted j := by
    by_cases here : j = i
    · subst here
      exact counted
    · rw [counters j here, queues j here]
      exact books.counted j

theorem isFloodMessage_of_priority {msg : StellarMessage} {i : Fin 4}
    (priority : getMessagePriority msg = .ok i) : isFloodMessage msg = true := by
  cases msg <;> simp_all [getMessagePriority, isFloodMessage]

/-- Only SCP messages go to queue 0, and they are not counted. -/
theorem queuedCount_of_scp {msg : StellarMessage} (scp : getMessagePriority msg = .ok 0) :
    queuedCount msg = 0 := by
  cases msg <;> first | rfl | simp [getMessagePriority] at scp

theorem queuedSum_of_scp {queue : List QueuedOutboundMessage}
    (scp : ∀ queued ∈ queue, getMessagePriority queued.mMessage = .ok 0) : queuedSum queue = 0 := by
  induction queue with
  | nil => rfl
  | cons queued rest ih =>
      rw [queuedSum_cons, ih fun q member => scp q (List.mem_cons_of_mem queued member),
        queuedCount_of_scp (scp queued List.mem_cons_self)]

/-- The books read only the messages of each queue. -/
theorem queuedSum_eq_of_messages {queue queue' : List QueuedOutboundMessage}
    (same : queue'.map (·.mMessage) = queue.map (·.mMessage)) :
    queuedSum queue' = queuedSum queue := by
  have counts := congrArg (fun msgs => (msgs.map queuedCount).sum) same
  simp only [List.map_map] at counts
  exact counts

theorem QueueBooks.of_messages {fc fc' : FlowControl} (books : QueueBooks fc)
    (messages : ∀ i, (fc'.mOutboundQueues i).map (·.mMessage) =
      (fc.mOutboundQueues i).map (·.mMessage))
    (counters : ∀ i, fc'.queueCounter i = fc.queueCounter i) : QueueBooks fc' where
  priority i queued member := by
    have moved : queued.mMessage ∈ (fc.mOutboundQueues i).map (·.mMessage) := by
      rw [← messages i]
      exact List.mem_map_of_mem member
    obtain ⟨old, oldMember, same⟩ := List.mem_map.mp moved
    rw [← same]
    exact books.priority i old oldMember
  counted i := by
    rw [counters i, books.counted i, queuedSum_eq_of_messages (messages i)]

/-- A batch is taken from the queues, so it holds flood messages only, and the books of what
is left still hold. -/
theorem getNextBatchToSend_books {fc : FlowControl} (books : QueueBooks fc) :
    ∃ batch queues, fc.getNextBatchToSend =
        .ok (batch, { afterBatch (batch.map (·.mMessage)) fc with mOutboundQueues := queues }) ∧
      (∀ u : CapacityUnit,
        u.floodSum (batch.map (·.mMessage)) ≤ (u.capacity fc).mOutboundCapacity) ∧
      QueueBooks { afterBatch (batch.map (·.mMessage)) fc with mOutboundQueues := queues } ∧
      ∀ msg ∈ batch.map (·.mMessage), isFloodMessage msg = true := by
  obtain ⟨batch, queues, got, fits, kept, taken⟩ := getNextBatchToSend_ok fc
  refine ⟨batch, queues, got, fits, books.of_messages kept fun i => rfl, fun msg member => ?_⟩
  obtain ⟨q, inBatch, rfl⟩ := List.mem_map.mp member
  obtain ⟨i, queued⟩ := taken q inBatch
  obtain ⟨old, oldMember, same⟩ := List.mem_map.mp queued
  exact isFloodMessage_of_priority (same ▸ books.priority i old oldMember)

/-- Popping a message leaves its own counter less what it counted, and nothing else. -/
theorem releaseQueuedMessage_ok {msg : StellarMessage} {i : Fin 4}
    (priority : getMessagePriority msg = .ok i) (counted : queuedCount msg ≤ fc.queueCounter i) :
    ∃ fc', fc.releaseQueuedMessage msg = .ok fc' ∧
      fc'.queueCounter i = fc.queueCounter i - queuedCount msg ∧
      (∀ j, j ≠ i → fc'.queueCounter j = fc.queueCounter j) ∧
      SameCapacities fc fc' ∧ fc'.mOutboundQueues = fc.mOutboundQueues := by
  cases msg with
  | scpMessage =>
      cases priority
      exact ⟨fc, rfl, rfl, fun _ _ => rfl, .refl fc, rfl⟩
  | transaction =>
      cases priority
      refine ⟨_, if_neg (Nat.not_lt.mpr counted), rfl, fun j other => ?_, ⟨rfl, rfl, rfl, rfl⟩, rfl⟩
      fin_cases j <;> first | rfl | exact absurd rfl other
  | floodDemand =>
      cases priority
      refine ⟨_, if_neg (Nat.not_lt.mpr counted), rfl, fun j other => ?_, ⟨rfl, rfl, rfl, rfl⟩, rfl⟩
      fin_cases j <;> first | rfl | exact absurd rfl other
  | floodAdvert =>
      cases priority
      refine ⟨_, if_neg (Nat.not_lt.mpr counted), rfl, fun j other => ?_, ⟨rfl, rfl, rfl, rfl⟩, rfl⟩
      fin_cases j <;> first | rfl | exact absurd rfl other
  | sendMoreExtended => cases priority
  | other => cases priority

/-- One queue of `processSentMessages`: what it pops is a prefix of the queue, and the
queue's counter follows. -/
theorem popSent_ok {i : Fin 4} : ∀ (items : List Nat) (fc : FlowControl)
    (queue : List QueuedOutboundMessage),
    (∀ queued ∈ queue, getMessagePriority queued.mMessage = .ok i) →
    fc.queueCounter i = queuedSum queue →
    ∃ popped fc', fc.popSent queue items = .ok (queue.drop popped, fc') ∧
      fc'.queueCounter i = queuedSum (queue.drop popped) ∧
      (∀ j, j ≠ i → fc'.queueCounter j = fc.queueCounter j) ∧
      SameCapacities fc fc' ∧ fc'.mOutboundQueues = fc.mOutboundQueues
  | [], fc, queue, _, counted =>
      ⟨0, fc, rfl, counted, fun _ _ => rfl, .refl fc, rfl⟩
  | _ :: items, fc, [], _, counted => by
      obtain ⟨popped, fc', done, rest⟩ := popSent_ok items fc [] (fun _ member =>
        absurd member List.not_mem_nil) counted
      exact ⟨popped, fc', by rw [popSent, done], rest⟩
  | item :: items, fc, front :: queue, priority, counted => by
      by_cases written : item ≠ front.id
      · obtain ⟨popped, fc', done, rest⟩ := popSent_ok items fc (front :: queue) priority counted
        exact ⟨popped, fc', by rw [popSent, if_pos written, done], rest⟩
      · -- the written message is at the front: it leaves, with its count
        rw [queuedSum_cons] at counted
        obtain ⟨fc₁, released, counter, others, same, queues⟩ := releaseQueuedMessage_ok fc
          (priority front List.mem_cons_self) (by omega)
        obtain ⟨popped, fc', done, counter', others', same', queues'⟩ :=
          popSent_ok items fc₁ queue (fun q member => priority q (List.mem_cons_of_mem front member))
            (by omega)
        refine ⟨popped + 1, fc', ?_, counter', fun j other => ?_, same.trans same', ?_⟩
        · rw [popSent, if_neg written, released, Except.ok_bind, done]
          rfl
        · rw [others' j other, others j other]
        · rw [queues', queues]

theorem processSentQueues_ok (sentMessages : Fin 4 → List Nat) : ∀ (order : List (Fin 4))
    (fc : FlowControl), QueueBooks fc →
    ∃ fc', fc.processSentQueues sentMessages order = .ok fc' ∧ QueueBooks fc' ∧
      SameCapacities fc fc'
  | [], fc, books => ⟨fc, rfl, books, .refl fc⟩
  | i :: order, fc, books => by
      obtain ⟨popped, fc₁, done, counter, others, same, queues⟩ :=
        popSent_ok (sentMessages i) fc (fc.mOutboundQueues i) (books.priority i) (books.counted i)
      -- the popped queue goes back in its place, and the books still hold
      have books₁ : QueueBooks (fc₁.setQueue i ((fc.mOutboundQueues i).drop popped)) :=
        books.replace i (fun j here => by simp [Function.update_of_ne here, queues])
          (fun j here => by simp [others j here])
          (fun queued member => books.priority i queued (List.mem_of_mem_drop (by simpa using member)))
          (by simp [counter])
      obtain ⟨fc', finished, books', same'⟩ := processSentQueues_ok sentMessages order _ books₁
      have replaced : SameCapacities fc₁ (fc₁.setQueue i ((fc.mOutboundQueues i).drop popped)) :=
        ⟨rfl, rfl, rfl, rfl⟩
      refine ⟨fc', ?_, books', same.trans (replaced.trans same')⟩
      rw [processSentQueues, done, Except.ok_bind]
      exact finished

theorem processSentMessages_ok {fc : FlowControl} (books : QueueBooks fc)
    (sentMessages : Fin 4 → List Nat) :
    ∃ fc', fc.processSentMessages sentMessages = .ok fc' ∧ QueueBooks fc' ∧ SameCapacities fc fc' :=
  processSentQueues_ok sentMessages (List.finRange 4) fc books

/-- The SCP trim never fails on a message just queued, and keeps only messages it was
given. -/
theorem trimScpQueue_ok (env : OutboundQueueEnv) {back : QueuedOutboundMessage}
    (fresh : back.mBeingSent = false) : ∀ queue : List QueuedOutboundMessage,
    ∃ kept, trimScpQueue env back queue = .ok kept ∧ kept ⊆ back :: queue
  | [] => ⟨_, rfl, by split <;> simp⟩
  | it :: rest => by
      obtain ⟨kept, trimmed, sub⟩ := trimScpQueue_ok env fresh rest
      have wider : back :: rest ⊆ back :: it :: rest := by
        intro q member
        rcases List.mem_cons.mp member with rfl | later
        · exact List.mem_cons_self
        · exact List.mem_cons_of_mem _ (List.mem_cons_of_mem _ later)
      have keepIt : it :: kept ⊆ back :: it :: rest := by
        intro q member
        rcases List.mem_cons.mp member with rfl | later
        · exact List.mem_cons_of_mem _ List.mem_cons_self
        · exact wider (sub later)
      rw [trimScpQueue]
      split
      · exact ⟨it :: kept, by rw [trimmed]; rfl, keepIt⟩
      split
      · exact ⟨kept, trimmed, fun q member => wider (sub member)⟩
      split
      · -- the new message takes the place of the one it supersedes
        rw [if_neg (by simp [fresh])]
        refine ⟨_, rfl, fun q member => ?_⟩
        rcases List.mem_cons.mp member with rfl | filtered
        · exact List.mem_cons_self
        · exact wider (List.mem_cons_of_mem _ (List.mem_of_mem_filter filtered))
      · exact ⟨it :: kept, by rw [trimmed]; rfl, keepIt⟩

/-- The books hold after queue `i` is dropped with its counter. -/
theorem QueueBooks.dropQueue {fc fc' : FlowControl} (books : QueueBooks fc) (i : Fin 4)
    (queues : fc'.mOutboundQueues = Function.update fc.mOutboundQueues i [])
    (counters : ∀ j, j ≠ i → fc'.queueCounter j = fc.queueCounter j)
    (counted : fc'.queueCounter i = 0) : QueueBooks fc' := by
  refine books.replace i (fun j here => by rw [queues, Function.update_of_ne here]) counters
    (fun queued member => ?_) ?_
  · rw [queues, Function.update_self] at member
    exact absurd member List.not_mem_nil
  · rw [counted, queues, Function.update_self, queuedSum_nil]

/-- The books hold after queue `i` takes a message of its own priority at the back and its
counter grows by what the message counts. -/
theorem QueueBooks.pushBack {fc fc' : FlowControl} (books : QueueBooks fc) (i : Fin 4)
    {entry : QueuedOutboundMessage}
    (queues : fc'.mOutboundQueues =
      Function.update fc.mOutboundQueues i (fc.mOutboundQueues i ++ [entry]))
    (priority : getMessagePriority entry.mMessage = .ok i)
    (counters : ∀ j, j ≠ i → fc'.queueCounter j = fc.queueCounter j)
    (counted : fc'.queueCounter i = fc.queueCounter i + queuedCount entry.mMessage) :
    QueueBooks fc' := by
  refine books.replace i (fun j here => by rw [queues, Function.update_of_ne here]) counters
    (fun queued member => ?_) ?_
  · rw [queues, Function.update_self, List.mem_append, List.mem_singleton] at member
    rcases member with old | rfl
    · exact books.priority i queued old
    · exact priority
  · rw [counted, queues, Function.update_self, queuedSum_append, queuedSum_cons, queuedSum_nil,
      Nat.add_zero, books.counted i]

/-- Queueing a flood message never fails, keeps the books, and leaves the capacities. -/
theorem addMsgAndMaybeTrimQueue_ok (cfg : Config) (env : OutboundQueueEnv) {fc : FlowControl}
    (books : QueueBooks fc) {msg : StellarMessage} (flood : isFloodMessage msg = true)
    (id : Nat) :
    ∃ fc', fc.addMsgAndMaybeTrimQueue cfg env msg id = .ok fc' ∧ QueueBooks fc' ∧
      SameCapacities fc fc' := by
  cases msg with
  | scpMessage slotIndex statement envelopeSize =>
      obtain ⟨kept, trimmed, sub⟩ := trimScpQueue_ok env
        (rfl : (⟨.scpMessage slotIndex statement envelopeSize, id, false⟩ :
          QueuedOutboundMessage).mBeingSent = false) (fc.mOutboundQueues 0)
      have priority : ∀ queued ∈ kept, getMessagePriority queued.mMessage = .ok 0 := by
        intro queued member
        rcases List.mem_cons.mp (sub member) with rfl | old
        · rfl
        · exact books.priority 0 queued old
      refine ⟨fc.setQueue 0 kept, ?_, ?_, ⟨rfl, rfl, rfl, rfl⟩⟩
      · simp only [addMsgAndMaybeTrimQueue, trimmed]
        rfl
      · exact books.replace 0 (fun j here => by simp [Function.update_of_ne here])
          (fun j _ => by simp) (by simpa using priority)
          (by rw [queueCounter_setQueue, setQueue_mOutboundQueues, Function.update_self,
            queuedSum_of_scp priority]; rfl)
  | transaction envelopeSize =>
      simp only [addMsgAndMaybeTrimQueue]
      split
      · exact ⟨fc, rfl, books, .refl fc⟩
      split
      · -- the whole queue is dropped with its counter
        exact ⟨_, rfl, books.dropQueue 1 rfl
          (fun j other => by fin_cases j <;> first | rfl | exact absurd rfl other) rfl,
          ⟨rfl, rfl, rfl, rfl⟩⟩
      · exact ⟨_, rfl, books.pushBack 1 rfl rfl
          (fun j other => by fin_cases j <;> first | rfl | exact absurd rfl other) rfl,
          ⟨rfl, rfl, rfl, rfl⟩⟩
  | floodDemand s =>
      simp only [addMsgAndMaybeTrimQueue]
      split
      · exact ⟨_, rfl, books.dropQueue 2 rfl
          (fun j other => by fin_cases j <;> first | rfl | exact absurd rfl other) rfl,
          ⟨rfl, rfl, rfl, rfl⟩⟩
      · exact ⟨_, rfl, books.pushBack 2 rfl rfl
          (fun j other => by fin_cases j <;> first | rfl | exact absurd rfl other) rfl,
          ⟨rfl, rfl, rfl, rfl⟩⟩
  | floodAdvert s =>
      simp only [addMsgAndMaybeTrimQueue]
      split
      · exact ⟨_, rfl, books.dropQueue 3 rfl
          (fun j other => by fin_cases j <;> first | rfl | exact absurd rfl other) rfl,
          ⟨rfl, rfl, rfl, rfl⟩⟩
      · exact ⟨_, rfl, books.pushBack 3 rfl rfl
          (fun j other => by fin_cases j <;> first | rfl | exact absurd rfl other) rfl,
          ⟨rfl, rfl, rfl, rfl⟩⟩
  | sendMoreExtended => cases flood
  | other => cases flood

/-! ## The reading side and the grants -/

/-- Two flow controls with the same queues and queue counters: what the reading side and the
grants leave alone. -/
structure SameQueues (fc fc' : FlowControl) : Prop where
  queues : fc'.mOutboundQueues = fc.mOutboundQueues
  counters : ∀ i, fc'.queueCounter i = fc.queueCounter i

theorem QueueBooks.of_sameQueues {fc fc' : FlowControl} (books : QueueBooks fc)
    (same : SameQueues fc fc') : QueueBooks fc' where
  priority i queued member := books.priority i queued (same.queues ▸ member)
  counted i := by rw [same.counters i, same.queues, books.counted i]

theorem sameQueues_mapCapacities : SameQueues fc (fc.mapCapacities f) where
  queues := rfl
  counters _ := rfl

/-- Two flow controls that read alike: the same reading capacities, byte limits and processed
counters. What the sending side keeps (outbound capacities, queues) may differ. -/
structure SameReading (fc fc' : FlowControl) : Prop where
  capacity : ∀ u : CapacityUnit, (u.capacity fc').mCapacity = (u.capacity fc).mCapacity
  limits : fc'.mFlowControlBytesCapacity.mCapacityLimits =
    fc.mFlowControlBytesCapacity.mCapacityLimits
  processed : ∀ u : CapacityUnit, u.processed fc' = u.processed fc

theorem SameCapacities.sameReading {fc fc' : FlowControl} (same : SameCapacities fc fc') :
    SameReading fc fc' where
  capacity u := by rw [same.capacity u]
  limits := congrArg FlowControlByteCapacity.mCapacityLimits same.bytes
  processed := same.processed'

/-- Sending and granting change only outbound capacities and queues. -/
theorem sameReading_mapOutbound (g : CapacityUnit → Nat → Nat) :
    SameReading fc (fc.mapCapacities fun u c =>
      { c with mOutboundCapacity := g u c.mOutboundCapacity }) where
  capacity u := by cases u <;> rfl
  limits := rfl
  processed u := by cases u <;> rfl

theorem SameReading.withQueues {fc fc' : FlowControl} (same : SameReading fc fc')
    (queues : Fin 4 → List QueuedOutboundMessage) :
    SameReading fc { fc' with mOutboundQueues := queues } where
  capacity u := by
    rw [← same.capacity u]
    cases u <;> rfl
  limits := same.limits
  processed u := by
    rw [← same.processed u]
    cases u <;> rfl

/-- A message read is begun only when both units' flood capacities hold it, and then both
capacities lock it. -/
theorem beginMessageProcessing_eq_true (cfg : Config) {fc fc' : FlowControl}
    {msg : StellarMessage} (began : fc.beginMessageProcessing cfg msg = .ok (true, fc')) :
    (∀ u : CapacityUnit, u.floodResources msg ≤ (u.capacity fc).mCapacity.mFloodCapacity) ∧
      fc' = fc.mapCapacities fun u c => c.lockedLocal u.getMsgResourceCount msg := by
  unfold beginMessageProcessing at began
  obtain ⟨⟨locked, msgCap⟩, messagesLocked, rest⟩ := Except.bind_eq_ok_iff.1 began
  dsimp only at rest
  split at rest
  · next lockedMessages =>
      obtain ⟨⟨lockedBytes, byteCap⟩, bytesLocked, rest⟩ := Except.bind_eq_ok_iff.1 rest
      cases rest
      rw [lockedMessages] at messagesLocked
      obtain ⟨-, -, messagesFit, rfl⟩ :=
        FlowControlCapacity.lockLocalCapacity_eq_true messagesLocked
      obtain ⟨-, -, bytesFit, rfl⟩ := FlowControlCapacity.lockLocalCapacity_eq_true bytesLocked
      refine ⟨fun u => ?_, rfl⟩
      cases u
      · exact messagesFit
      · exact bytesFit
  · cases rest

theorem beginMessageProcessing_eq (cfg : Config) {fc : FlowControl} {msg : StellarMessage}
    (checked : ∀ u : CapacityUnit,
      FlowControlCapacity.checkCapacityInvariants (u.limits cfg fc) (u.capacity fc) = .ok ())
    (total : ∀ (u : CapacityUnit) (t : Nat), (u.capacity fc).mCapacity.mTotalCapacity = some t →
      u.getMsgResourceCount msg ≤ t)
    (flood : ∀ u : CapacityUnit, u.floodResources msg ≤ (u.capacity fc).mCapacity.mFloodCapacity) :
    fc.beginMessageProcessing cfg msg =
      .ok (true, fc.mapCapacities fun u c => c.lockedLocal u.getMsgResourceCount msg) := by
  have messagesLocked : fc.mFlowControlCapacity.lockLocalCapacity
      (FlowControlMessageCapacity.getCapacityLimits cfg)
      FlowControlMessageCapacity.getMsgResourceCount msg =
      .ok (true, fc.mFlowControlCapacity.lockedLocal
        FlowControlMessageCapacity.getMsgResourceCount msg) :=
    FlowControlCapacity.lockLocalCapacity_eq (checked .messages) (total .messages) (flood .messages)
  have bytesLocked : fc.mFlowControlBytesCapacity.lockLocalCapacity
      fc.mFlowControlBytesCapacity.mCapacityLimits FlowControlByteCapacity.getMsgResourceCount msg =
      .ok (true, fc.mFlowControlBytesCapacity.lockedLocal
        FlowControlByteCapacity.getMsgResourceCount msg) :=
    FlowControlCapacity.lockLocalCapacity_eq (checked .bytes) (total .bytes) (flood .bytes)
  unfold beginMessageProcessing
  rw [messagesLocked, Except.ok_bind]
  dsimp only
  rw [if_pos rfl, bytesLocked, Except.ok_bind]
  rfl

/-- What `endMessageProcessing` did when it ended `msg` with the grant `res` and left `fc'`:
the message's capacity is back, the flood it took joined the processed counters, and once a
batch of messages or of bytes was reached the counters were handed back as the grant and
restarted. The message counter stays below its batch. -/
structure Ended (cfg : Config) (fc : FlowControl) (msg : StellarMessage) (res : SendMoreCapacity)
    (fc' : FlowControl) : Prop where
  queues : SameQueues fc fc'
  capacity : ∀ u : CapacityUnit,
    u.capacity fc' = (u.capacity fc).releasedLocal u.getMsgResourceCount msg
  limits : ∀ u : CapacityUnit, u.limits cfg fc' = u.limits cfg fc
  processed : ∀ u : CapacityUnit,
    u.processed fc' + u.ofSendMore res = u.processed fc + u.floodResources msg
  grantOrCounters : (res.numFloodMessages = 0 ∧ res.numFloodBytes = 0) ∨
    (fc'.mFloodDataProcessed = 0 ∧ fc'.mFloodDataProcessedBytes = 0)
  processed_lt : fc'.mFloodDataProcessed < cfg.FLOW_CONTROL_SEND_MORE_BATCH_SIZE

/-- A grant counts at least as many bytes as messages, since every flood message takes a
byte or more. -/
theorem Ended.messages_le_bytes {cfg : Config} {fc fc' : FlowControl} {msg : StellarMessage}
    {res : SendMoreCapacity} (ended : Ended cfg fc msg res fc')
    (before : fc.mFloodDataProcessed ≤ fc.mFloodDataProcessedBytes) :
    res.numFloodMessages ≤ res.numFloodBytes := by
  have messages := ended.processed .messages
  have bytes := ended.processed .bytes
  have flood := CapacityUnit.floodResources_messages_le_bytes msg
  simp only [CapacityUnit.processed, CapacityUnit.ofSendMore] at messages bytes
  rcases ended.grantOrCounters with ⟨none, noBytes⟩ | ⟨reset, resetBytes⟩
  · omega
  · omega

theorem endMessageProcessing_ok (cfg : Config) {fc : FlowControl} {msg : StellarMessage}
    (checked : ∀ u : CapacityUnit, FlowControlCapacity.checkCapacityInvariants (u.limits cfg fc)
      ((u.capacity fc).releasedLocal u.getMsgResourceCount msg) = .ok ())
    (fits : fc.mFloodDataProcessed + CapacityUnit.messages.floodResources msg ≤
      cfg.FLOW_CONTROL_SEND_MORE_BATCH_SIZE) :
    ∃ res fc', fc.endMessageProcessing cfg msg = .ok (res, fc') ∧ Ended cfg fc msg res fc' := by
  have messagesReleased : fc.mFlowControlCapacity.releaseLocalCapacity
      (FlowControlMessageCapacity.getCapacityLimits cfg)
      FlowControlMessageCapacity.getMsgResourceCount msg =
      .ok (CapacityUnit.messages.floodResources msg, fc.mFlowControlCapacity.releasedLocal
        FlowControlMessageCapacity.getMsgResourceCount msg) :=
    FlowControlCapacity.releaseLocalCapacity_eq (checked .messages)
  have bytesReleased : fc.mFlowControlBytesCapacity.releaseLocalCapacity
      fc.mFlowControlBytesCapacity.mCapacityLimits FlowControlByteCapacity.getMsgResourceCount msg =
      .ok (CapacityUnit.bytes.floodResources msg, fc.mFlowControlBytesCapacity.releasedLocal
        FlowControlByteCapacity.getMsgResourceCount msg) :=
    FlowControlCapacity.releaseLocalCapacity_eq (checked .bytes)
  unfold endMessageProcessing
  rw [messagesReleased, Except.ok_bind]
  dsimp only
  rw [bytesReleased, Except.ok_bind]
  dsimp only
  rw [if_neg (Nat.not_lt.mpr fits)]
  refine ⟨_, _, rfl, ⟨⟨rfl, fun i => rfl⟩, fun u => ?_, fun u => ?_, fun u => ?_, ?_, ?_⟩⟩
  · cases u <;> rfl
  · cases u <;> rfl
  -- whether a grant is due decides both the counters and the grant
  · cases u <;> dsimp only [CapacityUnit.processed, CapacityUnit.ofSendMore] <;> split_ifs <;>
      simp
  · split_ifs <;> simp
  · dsimp only
    split_ifs with should
    · exact cfg.sendMoreBatchSize_pos
    · simp only [Bool.or_eq_true, beq_iff_eq, decide_eq_true_eq, not_or] at should
      exact Nat.lt_of_le_of_ne fits should.1

theorem canRead_eq {fc : FlowControl} {total : Nat}
    (bytes : fc.mFlowControlBytesCapacity.mCapacity.mTotalCapacity = none)
    (messages : fc.mFlowControlCapacity.mCapacity.mTotalCapacity = some total) :
    fc.canRead = .ok (decide (0 < total)) := by
  simp [canRead, FlowControlByteCapacity.canRead, FlowControlMessageCapacity.canRead, bytes,
    messages]

/-- A grant that carries bytes and does not overflow either outbound capacity is valid. -/
theorem isSendMoreValid_eq {fc : FlowControl} {numMessages numBytes : Nat}
    (positive : 0 < numBytes)
    (fits : ∀ u : CapacityUnit, (u.capacity fc).mOutboundCapacity +
      u.granted (.sendMoreExtended numMessages numBytes) < 2 ^ 64) :
    fc.isSendMoreValid (.sendMoreExtended numMessages numBytes) = (true, "") := by
  have messagesFit := fits .messages
  have bytesFit := fits .bytes
  simp only [CapacityUnit.capacity, CapacityUnit.granted] at messagesFit bytesFit
  simp only [isSendMoreValid, Nat.pos_iff_ne_zero.mp positive, if_false]
  rw [if_neg (by omega)]

theorem handleTxSizeIncrease_eq {fc : FlowControl} {increase : Nat} (positive : 0 < increase) :
    fc.handleTxSizeIncrease increase = .ok { fc with
      mFlowControlBytesCapacity := fc.mFlowControlBytesCapacity.handleTxSizeIncrease increase } :=
  if_neg (Nat.pos_iff_ne_zero.mp positive)

end FlowControl

end StellarCore.Overlay
