import StellarCore.Transactions.FeeRefund
import StellarCore.Transactions.LiquidityPoolSpec
import StellarCore.Lib.Except

/-!
# What a Soroban transaction is refunded

Over a whole apply, the tracker of a transaction that still succeeds holds exactly what its
operation's calls consumed, all of which the refundable fee covered; the tracker of a failed
transaction is reset. So the refund `getFeeRefund` lies between zero and the refundable fee, and
is all of it after a failure. `refundSorobanFee` then moves exactly the refund from the fee pool
to the fee source, or changes nothing, and `finalizeFeeRefund` takes it off `feeCharged` except
on a fee bump before protocol 21.
-/

set_option autoImplicit false

namespace StellarCore.Transactions

/-! ## The tracker -/

namespace RefundableFeeTracker

variable {refundableFee : Nat → Int}

theorem resetConsumedFee_eq (t : RefundableFeeTracker) :
    t.resetConsumedFee = new t.maximumRefundableFee := rfl

theorem consumeRefundableSorobanResources_maximum {t t' : RefundableFeeTracker}
    {contractEventSizeBytes : Nat} {rentFee : Int} {returned : Bool}
    (consumed : t.consumeRefundableSorobanResources refundableFee contractEventSizeBytes rentFee =
      (returned, t')) :
    t'.maximumRefundableFee = t.maximumRefundableFee := by
  unfold consumeRefundableSorobanResources at consumed
  dsimp only at consumed
  split_ifs at consumed <;> simp only [Prod.mk.injEq] at consumed <;> rw [← consumed.2]

/-- A call that returns true adds its size and rent fee, and the refundable fee covers both
its rent and the events fee at the new size. -/
theorem consumeRefundableSorobanResources_true {t t' : RefundableFeeTracker}
    {contractEventSizeBytes : Nat} {rentFee : Int}
    (consumed : t.consumeRefundableSorobanResources refundableFee contractEventSizeBytes rentFee =
      (true, t')) :
    t' = ⟨t.maximumRefundableFee, (t.consumedContractEventsSizeBytes + contractEventSizeBytes) %
        4294967296, t.consumedRentFee + rentFee, t.consumedRentFee + rentFee +
        refundableFee ((t.consumedContractEventsSizeBytes + contractEventSizeBytes) % 4294967296)⟩ ∧
      t'.consumedRefundableFee ≤ t.maximumRefundableFee := by
  unfold consumeRefundableSorobanResources at consumed
  dsimp only at consumed
  split_ifs at consumed with rentTooHigh eventsTooHigh
  · simp at consumed
  · simp at consumed
  · simp only [Prod.mk.injEq, true_and] at consumed
    subst consumed
    exact ⟨rfl, by simpa using eventsTooHigh⟩

end RefundableFeeTracker

/-! ## The results -/

namespace MutableTxResult

@[simp] theorem base_setBase (res : MutableTxResult) (base : MutableTransactionResultBase) :
    (res.setBase base).base = base := by
  cases res <;> rfl

@[simp] theorem innerFeeCharged_setBase (res : MutableTxResult) (base : MutableTransactionResultBase) :
    (res.setBase base).innerFeeCharged = res.innerFeeCharged := by
  cases res <;> rfl

@[simp] theorem isSuccess_setTracker (res : MutableTxResult) (tracker : RefundableFeeTracker) :
    (res.setTracker tracker).isSuccess = res.isSuccess := by
  cases res <;> rfl

@[simp] theorem hasInnerResult_setTracker (res : MutableTxResult) (tracker : RefundableFeeTracker) :
    (res.setTracker tracker).hasInnerResult = res.hasInnerResult := by
  cases res <;> rfl

@[simp] theorem tracker_setTracker (res : MutableTxResult) (tracker : RefundableFeeTracker) :
    (res.setTracker tracker).base.refundableFeeTracker = some tracker := by
  simp [setTracker]

@[simp] theorem feeCharged_setTracker (res : MutableTxResult) (tracker : RefundableFeeTracker) :
    (res.setTracker tracker).base.feeCharged = res.base.feeCharged := by
  simp [setTracker]

@[simp] theorem innerFeeCharged_setTracker (res : MutableTxResult)
    (tracker : RefundableFeeTracker) :
    (res.setTracker tracker).innerFeeCharged = res.innerFeeCharged := by
  simp [setTracker]

/-- What a successful `setInnermostError` does: the transaction has failed, the tracker is
reset, and the fees charged stay. -/
theorem setInnermostError_ok {res res' : MutableTxResult} {code : TransactionResultCode}
    (set : res.setInnermostError code = .ok res') :
    res'.isSuccess = false ∧ res'.hasInnerResult = true ∧
      res'.base.refundableFeeTracker =
        res.base.refundableFeeTracker.map RefundableFeeTracker.resetConsumedFee ∧
      res'.base.feeCharged = res.base.feeCharged ∧ res'.innerFeeCharged = res.innerFeeCharged := by
  cases res with
  | plain base =>
      simp only [setInnermostError, setError] at set
      split_ifs at set with allowed stillSuccess
      simp only [Except.ok.injEq] at set
      subst set
      simp_all [resetTracker, setBase, MutableTxResult.base, isSuccess, hasInnerResult,
        MutableTxResult.innerFeeCharged]
  | feeBump base innerCode innerFeeCharged =>
      simp only [setInnermostError] at set
      split_ifs at set with readable allowed
      simp only [Except.ok.injEq] at set
      subst set
      simp [resetTracker, setBase, MutableTxResult.base, isSuccess, hasInnerResult,
        MutableTxResult.innerFeeCharged]

theorem initializeRefundableFeeTracker_eq {res started : MutableTxResult} {totalRefundableFee : Int}
    (init : res.initializeRefundableFeeTracker totalRefundableFee = .ok started) :
    started = res.setTracker (RefundableFeeTracker.new totalRefundableFee) := by
  unfold initializeRefundableFeeTracker at init
  split at init
  · cases init
  · exact (Except.ok.inj init).symm

end MutableTxResult

/-! ## Apply -/

namespace ApplyEvent

/-- The events size an event adds to the tracker's total. -/
def sizeAdded : ApplyEvent → Nat
  | consume contractEventSizeBytes _ _ => contractEventSizeBytes
  | setInnermostError _ => 0

/-- The rent fee an event adds to the tracker's total. -/
def rentAdded : ApplyEvent → Int
  | consume _ rentFee _ => rentFee
  | setInnermostError _ => 0

/-- A call that returned true. -/
def accepted : ApplyEvent → Bool
  | consume _ _ returned => returned
  | setInnermostError _ => false

end ApplyEvent

/-- The events size the calls of a run add up to, as a `uint32`. -/
def consumedSize (events : List ApplyEvent) : Nat :=
  (events.map ApplyEvent.sizeAdded).sum % 4294967296

/-- The rent fee the calls of a run add up to. -/
def consumedRent (events : List ApplyEvent) : Int := (events.map ApplyEvent.rentAdded).sum

/-- The tracker after calls that all returned true. -/
def trackerAfter (refundableFee : Nat → Int) (maximum : Int) (events : List ApplyEvent) :
    RefundableFeeTracker :=
  ⟨maximum, consumedSize events, consumedRent events,
    consumedRent events + refundableFee (consumedSize events)⟩

theorem consumedSize_append_consume (events : List ApplyEvent) (contractEventSizeBytes : Nat)
    (rentFee : Int) (returned : Bool) :
    consumedSize (events ++ [.consume contractEventSizeBytes rentFee returned]) =
      (consumedSize events + contractEventSizeBytes) % 4294967296 := by
  simp [consumedSize, ApplyEvent.sizeAdded, Nat.add_mod]

theorem consumedRent_append_consume (events : List ApplyEvent) (contractEventSizeBytes : Nat)
    (rentFee : Int) (returned : Bool) :
    consumedRent (events ++ [.consume contractEventSizeBytes rentFee returned]) =
      consumedRent events + rentFee := by
  simp [consumedRent, ApplyEvent.rentAdded]

variable {refundableFee : Nat → Int} {maximum : Int}

/-- What a run keeps of the result: a transaction that still succeeds has a tracker holding
what its calls consumed, every one of which returned true; a failed one has a reset tracker. -/
structure Tracks (refundableFee : Nat → Int) (maximum : Int) (events : List ApplyEvent)
    (res : MutableTxResult) : Prop where
  hasInnerResult : res.hasInnerResult = true
  tracker : (res.isSuccess = true ∧ (∀ event ∈ events, event.accepted = true) ∧
      res.base.refundableFeeTracker = some (trackerAfter refundableFee maximum events) ∧
      (trackerAfter refundableFee maximum events).consumedRefundableFee ≤ maximum) ∨
    (res.isSuccess = false ∧
      res.base.refundableFeeTracker = some (RefundableFeeTracker.new maximum))

theorem Tracks.tracked {events : List ApplyEvent} {res : MutableTxResult}
    (tracks : Tracks refundableFee maximum events res) :
    ∃ tracker, res.base.refundableFeeTracker = some tracker ∧
      tracker.maximumRefundableFee = maximum := by
  rcases tracks.tracker with ⟨-, -, tracked, -⟩ | ⟨-, tracked⟩
  · exact ⟨_, tracked, rfl⟩
  · exact ⟨_, tracked, rfl⟩

/-- Whatever came before, a failure leaves a reset tracker. -/
theorem Tracks.of_setInnermostError {events : List ApplyEvent} {res res' : MutableTxResult}
    {tracker : RefundableFeeTracker} {code : TransactionResultCode}
    (tracked : res.base.refundableFeeTracker = some tracker)
    (maximumKept : tracker.maximumRefundableFee = maximum)
    (set : res.setInnermostError code = .ok res') : Tracks refundableFee maximum events res' := by
  obtain ⟨failed, readable, reset, -, -⟩ := MutableTxResult.setInnermostError_ok set
  refine ⟨readable, .inr ⟨failed, ?_⟩⟩
  rw [reset, tracked, Option.map_some, RefundableFeeTracker.resetConsumedFee_eq, maximumKept]

/-- One event keeps what the run holds of the result. -/
theorem ApplyStep.tracks {events : List ApplyEvent} {res res' : MutableTxResult}
    {event : ApplyEvent} (tracks : Tracks refundableFee maximum events res)
    (step : ApplyStep refundableFee res event res') :
    Tracks refundableFee maximum (events ++ [event]) res' := by
  cases step with
  | @consume _ tracker tracker' contractEventSizeBytes rentFee returned running tracked
      consumed after =>
      -- the operation runs, so the tracker holds what the earlier calls consumed
      obtain ⟨-, accepted, current, -⟩ := tracks.tracker.resolve_right (by simp [running])
      rw [current, Option.some.injEq] at tracked
      subst tracked
      cases returned with
      | true =>
          simp only [if_true, Except.ok.injEq] at after
          subst after
          obtain ⟨rfl, covered⟩ :=
            RefundableFeeTracker.consumeRefundableSorobanResources_true consumed
          have sums : trackerAfter refundableFee maximum
              (events ++ [.consume contractEventSizeBytes rentFee true]) =
                ⟨maximum, (consumedSize events + contractEventSizeBytes) % 4294967296,
                  consumedRent events + rentFee, consumedRent events + rentFee +
                    refundableFee ((consumedSize events + contractEventSizeBytes) % 4294967296)⟩ := by
            simp only [trackerAfter, consumedSize_append_consume, consumedRent_append_consume]
          refine ⟨by simpa using tracks.hasInnerResult, .inl ⟨by simpa using running, ?_, ?_, ?_⟩⟩
          · intro event member
            rcases List.mem_append.mp member with earlier | now
            · exact accepted event earlier
            · rw [List.mem_singleton.mp now]
              rfl
          · rw [MutableTxResult.tracker_setTracker, sums]
            rfl
          · rw [sums]
            exact covered
      | false =>
          simp only [Bool.false_eq_true, if_false] at after
          exact Tracks.of_setInnermostError (MutableTxResult.tracker_setTracker _ _)
            (RefundableFeeTracker.consumeRefundableSorobanResources_maximum consumed) after
  | setInnermostError set =>
      obtain ⟨tracker, tracked, maximumKept⟩ := tracks.tracked
      exact Tracks.of_setInnermostError tracked maximumKept set

/-- A whole run keeps what it holds of the result. -/
theorem ApplyRun.tracks {events : List ApplyEvent} {res res' : MutableTxResult}
    (run : ApplyRun refundableFee res events res') :
    ∀ {done : List ApplyEvent}, Tracks refundableFee maximum done res →
      Tracks refundableFee maximum (done ++ events) res' := by
  induction run with
  | done => simp
  | step step _ more =>
      intro done tracks
      simpa using more (step.tracks tracks)

/-- Apply never touches the fees charged. -/
theorem ApplyStep.feeCharged_eq {res res' : MutableTxResult} {event : ApplyEvent}
    (step : ApplyStep refundableFee res event res') :
    res'.base.feeCharged = res.base.feeCharged ∧ res'.innerFeeCharged = res.innerFeeCharged := by
  cases step with
  | @consume _ _ tracker' _ _ returned _ _ _ after =>
      cases returned with
      | true =>
          simp only [if_true, Except.ok.injEq] at after
          subst after
          simp
      | false =>
          simp only [Bool.false_eq_true, if_false] at after
          obtain ⟨-, -, -, feeCharged, innerFeeCharged⟩ := MutableTxResult.setInnermostError_ok after
          simp [feeCharged, innerFeeCharged]
  | setInnermostError set =>
      obtain ⟨-, -, -, feeCharged, innerFeeCharged⟩ := MutableTxResult.setInnermostError_ok set
      exact ⟨feeCharged, innerFeeCharged⟩

theorem ApplyRun.feeCharged_eq {events : List ApplyEvent} {res res' : MutableTxResult}
    (run : ApplyRun refundableFee res events res') :
    res'.base.feeCharged = res.base.feeCharged ∧ res'.innerFeeCharged = res.innerFeeCharged := by
  induction run with
  | done => exact ⟨rfl, rfl⟩
  | step step _ more =>
      obtain ⟨feeCharged, innerFeeCharged⟩ := step.feeCharged_eq
      exact ⟨more.1.trans feeCharged, more.2.trans innerFeeCharged⟩

/-- A fresh result passes its first checks, so the empty run tracks it. -/
theorem Tracks.start (noEventsFee : refundableFee 0 = 0) (refundable : 0 ≤ maximum)
    {charged started : MutableTxResult} (running : charged.isSuccess = true)
    (readable : charged.hasInnerResult = true)
    (init : charged.initializeRefundableFeeTracker maximum = .ok started) :
    Tracks refundableFee maximum [] started := by
  rw [MutableTxResult.initializeRefundableFeeTracker_eq init]
  have empty : trackerAfter refundableFee maximum [] = RefundableFeeTracker.new maximum := by
    simp [trackerAfter, consumedSize, consumedRent, noEventsFee, RefundableFeeTracker.new]
  refine ⟨by simpa using readable, .inl ⟨by simpa using running, by simp, ?_, ?_⟩⟩
  · rw [empty, MutableTxResult.tracker_setTracker]
  · simp [empty, RefundableFeeTracker.new, refundable]

theorem consumedRent_nonneg {events : List ApplyEvent}
    (rentNonneg : ∀ event ∈ events, 0 ≤ event.rentAdded) : 0 ≤ consumedRent events :=
  List.sum_nonneg fun rent member => by
    obtain ⟨event, found, rfl⟩ := List.mem_map.mp member
    exact rentNonneg event found

/-- The refund a run leaves: between zero and the refundable fee, all of it after a failure, and
what the calls left of it after a success. -/
theorem Tracks.getFeeRefund {events : List ApplyEvent} {res : MutableTxResult}
    {tracker : RefundableFeeTracker} (tracks : Tracks refundableFee maximum events res)
    (tracked : res.base.refundableFeeTracker = some tracker) (refundable : 0 ≤ maximum)
    (eventsFeeNonneg : ∀ size, 0 ≤ refundableFee size)
    (rentNonneg : ∀ event ∈ events, 0 ≤ event.rentAdded) :
    0 ≤ tracker.getFeeRefund ∧ tracker.getFeeRefund ≤ maximum ∧
      (res.isSuccess = false → tracker.getFeeRefund = maximum) ∧
      (res.isSuccess = true → (∀ event ∈ events, event.accepted = true) ∧
        tracker.getFeeRefund =
          maximum - (consumedRent events + refundableFee (consumedSize events))) := by
  rcases tracks.tracker with ⟨running, accepted, current, covered⟩ | ⟨failed, current⟩
  · rw [tracked, Option.some.injEq] at current
    subst current
    have rentNonneg := consumedRent_nonneg rentNonneg
    have eventsNonneg := eventsFeeNonneg (consumedSize events)
    have refund : (trackerAfter refundableFee maximum events).getFeeRefund =
        maximum - (consumedRent events + refundableFee (consumedSize events)) := rfl
    simp only [trackerAfter] at covered
    rw [refund]
    refine ⟨by omega, by omega, fun failed => by simp [running] at failed, fun _ => ⟨accepted, rfl⟩⟩
  · rw [tracked, Option.some.injEq] at current
    subst current
    simp [RefundableFeeTracker.getFeeRefund, RefundableFeeTracker.new, refundable, failed]

/-! ## The refund -/

section Refund

variable {AccountID : Type} [DecidableEq AccountID]

theorem addBalanceInt_ok {balance maxBalance : Int} (delta : Int) (nonneg : 0 ≤ balance)
    (room : 0 ≤ maxBalance) : ∃ result, addBalanceInt balance delta maxBalance = .ok result := by
  unfold addBalanceInt
  simp only [ge_iff_le, nonneg, room, if_true]
  split_ifs <;> exact ⟨_, rfl⟩

/-- On a non-negative balance `addBalance` does not throw. -/
theorem AccountEntry.addBalance_ok {acc : AccountEntry} (ledgerVersion : Nat) (delta : Int)
    (solvent : 0 ≤ acc.balance) : ∃ result, acc.addBalance ledgerVersion delta = .ok result := by
  unfold AccountEntry.addBalance
  by_cases zero : delta = 0
  · exact ⟨_, if_pos zero⟩
  · rw [if_neg zero]
    obtain ⟨result, summed⟩ :=
      addBalanceInt_ok delta solvent (show (0 : Int) ≤ int64Max by unfold int64Max; norm_num)
    exact ⟨_, by rw [summed]; rfl⟩

/-- What `addBalance` credits when it accepts. -/
theorem AccountEntry.addBalance_balance {ledgerVersion : Nat} {acc acc' : AccountEntry}
    {delta : Int} (added : acc.addBalance ledgerVersion delta = .ok (some acc')) :
    acc'.balance = acc.balance + delta := by
  unfold AccountEntry.addBalance at added
  by_cases zero : delta = 0
  · rw [if_pos zero] at added
    simp only [Except.ok.injEq, Option.some.injEq] at added
    subst added
    simp [zero]
  · rw [if_neg zero] at added
    cases summed : addBalanceInt acc.balance delta int64Max with
    | error message =>
        rw [summed] at added
        cases added
    | ok result =>
        obtain ⟨newBalance, rfl⟩ : ∃ newBalance, result = some newBalance := by
          cases result with
          | none =>
              rw [summed] at added
              cases added
          | some newBalance => exact ⟨newBalance, rfl⟩
        have sum := (addBalanceInt_eq_some summed).1
        rw [summed] at added
        simp only [Except.map_ok', Except.ok.injEq, Option.bind_some] at added
        -- the liability checks from protocol 10 either refuse or store the new balance
        split_ifs at added <;> cases added
        all_goals exact sum

/-- `amount` moves from the fee pool to the fee source, and nothing else changes. -/
structure FeeLedger.Transfer (ledger ledger' : FeeLedger AccountID) (feeSource : AccountID)
    (amount : Int) : Prop where
  ledgerVersion : ledger'.ledgerVersion = ledger.ledgerVersion
  feePool : ledger'.feePool = ledger.feePool - amount
  credited : ∀ acc, ledger.accounts feeSource = some acc →
    ∃ acc', ledger'.accounts feeSource = some acc' ∧ acc'.balance = acc.balance + amount
  others : ∀ id, id ≠ feeSource → ledger'.accounts id = ledger.accounts id

theorem FeeLedger.transfer_setAccount {ledger : FeeLedger AccountID} {feeSource : AccountID}
    {acc acc' : AccountEntry} {amount feePool : Int} (found : ledger.accounts feeSource = some acc)
    (balance : acc'.balance = acc.balance + amount) (pool : feePool = ledger.feePool - amount) :
    FeeLedger.Transfer ledger { ledger.setAccount feeSource acc' with feePool := feePool }
      feeSource amount where
  ledgerVersion := rfl
  feePool := pool
  credited := fun other found' => by
    rw [found, Option.some.injEq] at found'
    subst found'
    exact ⟨acc', by simp [FeeLedger.setAccount], balance⟩
  others := fun id other => by simp [FeeLedger.setAccount, other]

/-- The fee charge takes exactly what it reports from the fee source into the fee pool. -/
theorem chargeFee_transfer {ledger ledger' : FeeLedger AccountID} {feeSource : AccountID}
    {fee charged : Int} {acc : AccountEntry} (found : ledger.accounts feeSource = some acc)
    (valid : 0 ≤ acc.balance ∧ acc.balance ≤ int64Max) (feeNonneg : 0 ≤ fee)
    (charge : chargeFee ledger feeSource fee = .ok (charged, ledger')) :
    FeeLedger.Transfer ledger ledger' feeSource (-charged) := by
  unfold chargeFee at charge
  rw [found] at charge
  dsimp only at charge
  split_ifs at charge with positive
  · have taken : addBalanceInt acc.balance (-min acc.balance fee) int64Max =
        .ok (some (acc.balance + -min acc.balance fee)) :=
      addBalanceInt_of_fits valid.1 (by omega) (by omega)
    rw [taken] at charge
    simp only [Except.ok.injEq, Prod.mk.injEq] at charge
    obtain ⟨rfl, rfl⟩ := charge
    exact FeeLedger.transfer_setAccount found (by simp) (by omega)
  · simp only [Except.ok.injEq, Prod.mk.injEq] at charge
    obtain ⟨rfl, rfl⟩ := charge
    have zero : fee = 0 := by omega
    subst zero
    exact ⟨rfl, by simp, fun acc' found' => ⟨acc', found', by simp⟩, fun _ _ => rfl⟩

/-- The fee source exists and `addBalance` accepts the refund. -/
def CanRefund (ledger : FeeLedger AccountID) (feeSource : AccountID) (refund : Int) : Prop :=
  0 < refund ∧ ∃ acc acc', ledger.accounts feeSource = some acc ∧
    acc.addBalance ledger.ledgerVersion refund = .ok (some acc')

/-- What `finalizeFeeRefund` does to the fees charged: the refund comes off, except on a fee
bump before protocol 21, which stays as it is. -/
theorem finalizeFeeRefund_ok {res : MutableTxResult} {tracker : RefundableFeeTracker}
    (tracked : res.base.refundableFeeTracker = some tracker)
    (readable : res.hasInnerResult = true) (ledgerVersion : Nat) :
    ∃ final, res.finalizeFeeRefund ledgerVersion = .ok final ∧
      (res.innerFeeCharged = none ∨ 21 ≤ ledgerVersion →
        final.base.feeCharged = res.base.feeCharged - tracker.getFeeRefund ∧
        final.innerFeeCharged = res.innerFeeCharged.map (· - tracker.getFeeRefund)) ∧
      (res.innerFeeCharged ≠ none → ledgerVersion < 21 → final = res) := by
  cases res with
  | plain base =>
      simp only [MutableTxResult.base] at tracked
      refine ⟨.plain { base with feeCharged := base.feeCharged - tracker.getFeeRefund },
        by simp [MutableTxResult.finalizeFeeRefund, tracked], fun _ => ?_, ?_⟩
      · simp [MutableTxResult.base, MutableTxResult.innerFeeCharged]
      · simp [MutableTxResult.innerFeeCharged]
  | feeBump base innerCode innerFeeCharged =>
      simp only [MutableTxResult.base] at tracked
      by_cases recent : 21 ≤ ledgerVersion
      · refine ⟨.feeBump { base with feeCharged := base.feeCharged - tracker.getFeeRefund }
            innerCode (innerFeeCharged - tracker.getFeeRefund),
          by simp [MutableTxResult.finalizeFeeRefund, tracked, recent, readable],
          fun _ => ?_, fun _ old => absurd recent (by omega)⟩
        simp [MutableTxResult.base, MutableTxResult.innerFeeCharged]
      · refine ⟨.feeBump base innerCode innerFeeCharged,
          by simp [MutableTxResult.finalizeFeeRefund, tracked, recent], fun reflected => ?_,
          fun _ _ => rfl⟩
        simp [MutableTxResult.innerFeeCharged] at reflected
        omega

/-- With nothing to pay, `refundSorobanFee` changes nothing. -/
theorem refundSorobanFee_of_not_canRefund {ledger : FeeLedger AccountID} {feeSource : AccountID}
    {res : MutableTxResult} {tracker : RefundableFeeTracker}
    (tracked : res.base.refundableFeeTracker = some tracker) (nonneg : 0 ≤ tracker.getFeeRefund)
    (solvent : ∀ acc, ledger.accounts feeSource = some acc → 0 ≤ acc.balance)
    (cannot : ¬CanRefund ledger feeSource tracker.getFeeRefund) :
    refundSorobanFee ledger feeSource res = .ok (0, ledger, res) := by
  unfold refundSorobanFee
  rw [tracked]
  dsimp only
  split_ifs with zero
  · rfl
  · have positive : 0 < tracker.getFeeRefund := by omega
    cases found : ledger.accounts feeSource with
    | none => rfl
    | some acc =>
        obtain ⟨result, added⟩ :=
          AccountEntry.addBalance_ok ledger.ledgerVersion tracker.getFeeRefund (solvent acc found)
        cases result with
        | none => simp only [added]
        | some acc' => exact absurd ⟨positive, acc, acc', found, added⟩ cannot

/-- With the fee source there to take it, `refundSorobanFee` pays the whole refund out of the
fee pool and finalizes the result. -/
theorem refundSorobanFee_of_canRefund {ledger : FeeLedger AccountID} {feeSource : AccountID}
    {res : MutableTxResult} {tracker : RefundableFeeTracker}
    (tracked : res.base.refundableFeeTracker = some tracker) (readable : res.hasInnerResult = true)
    (can : CanRefund ledger feeSource tracker.getFeeRefund) :
    ∃ ledger' final, refundSorobanFee ledger feeSource res = .ok (tracker.getFeeRefund, ledger', final) ∧
      FeeLedger.Transfer ledger ledger' feeSource tracker.getFeeRefund ∧
      res.finalizeFeeRefund ledger.ledgerVersion = .ok final := by
  obtain ⟨positive, acc, acc', found, added⟩ := can
  obtain ⟨final, finalized, -⟩ := finalizeFeeRefund_ok tracked readable ledger.ledgerVersion
  refine ⟨_, final, ?_, FeeLedger.transfer_setAccount found
    (AccountEntry.addBalance_balance added) rfl, finalized⟩
  unfold refundSorobanFee
  rw [tracked]
  dsimp only
  rw [if_neg (by omega), found]
  dsimp only
  rw [added]
  dsimp only
  rw [finalized]

/-- `processFeeSeqNum`, plain or fee bump, charges through `chargeFee` and creates a succeeding
result without a tracker that records the fee charged. -/
theorem processFeeSeqNum_fresh {ledger ledger' : FeeLedger AccountID} {feeSource : AccountID}
    {fee : Int} {charged : MutableTxResult}
    (charge : processFeeSeqNum ledger feeSource fee = .ok (ledger', charged) ∨
      ∃ innerFee, processFeeSeqNumFeeBump ledger feeSource fee innerFee = .ok (ledger', charged)) :
    chargeFee ledger feeSource fee = .ok (charged.base.feeCharged, ledger') ∧
      charged.isSuccess = true ∧ charged.hasInnerResult = true := by
  rcases charge with plain | ⟨innerFee, bumped⟩
  · obtain ⟨⟨amount, ledger''⟩, charging, created⟩ := Except.map_eq_ok_iff.1 plain
    simp only [Prod.mk.injEq] at created
    obtain ⟨rfl, rfl⟩ := created
    exact ⟨charging, rfl, rfl⟩
  · obtain ⟨⟨amount, ledger''⟩, charging, created⟩ := Except.map_eq_ok_iff.1 bumped
    simp only [Prod.mk.injEq] at created
    obtain ⟨rfl, rfl⟩ := created
    exact ⟨charging, rfl, rfl⟩

/-- What `refundSorobanFee` does with the refund `refund` of `applied`, a result charged as
`charged`: where the fee source can take it, it moves from the fee pool to the fee source and
comes off the fees charged (on a fee bump only from protocol 21); otherwise nothing changes. -/
structure RefundSettles (ledger : FeeLedger AccountID) (feeSource : AccountID)
    (charged applied : MutableTxResult) (refund refunded : Int) (ledger' : FeeLedger AccountID)
    (final : MutableTxResult) : Prop where
  paid : CanRefund ledger feeSource refund →
    refunded = refund ∧ FeeLedger.Transfer ledger ledger' feeSource refunded ∧
      (charged.innerFeeCharged = none ∨ 21 ≤ ledger.ledgerVersion →
        final.base.feeCharged = charged.base.feeCharged - refunded ∧
        final.innerFeeCharged = charged.innerFeeCharged.map (· - refunded)) ∧
      (charged.innerFeeCharged ≠ none → ledger.ledgerVersion < 21 →
        final = applied ∧ final.base.feeCharged = charged.base.feeCharged)
  unpaid : ¬CanRefund ledger feeSource refund →
    refunded = 0 ∧ ledger' = ledger ∧ final = applied ∧
      final.base.feeCharged = charged.base.feeCharged

/-- `refundSorobanFee` on a result whose fees are those charged settles its refund. -/
theorem refundSorobanFee_settles {ledger : FeeLedger AccountID} {feeSource : AccountID}
    {charged applied : MutableTxResult} {tracker : RefundableFeeTracker}
    (tracked : applied.base.refundableFeeTracker = some tracker)
    (readable : applied.hasInnerResult = true) (nonneg : 0 ≤ tracker.getFeeRefund)
    (solvent : ∀ acc, ledger.accounts feeSource = some acc → 0 ≤ acc.balance)
    (feeChargedKept : applied.base.feeCharged = charged.base.feeCharged)
    (innerKept : applied.innerFeeCharged = charged.innerFeeCharged) :
    ∃ refunded ledger' final,
      refundSorobanFee ledger feeSource applied = .ok (refunded, ledger', final) ∧
        RefundSettles ledger feeSource charged applied tracker.getFeeRefund refunded ledger' final := by
  by_cases can : CanRefund ledger feeSource tracker.getFeeRefund
  · obtain ⟨ledger', final, refunding, transfer, finalized⟩ :=
      refundSorobanFee_of_canRefund tracked readable can
    obtain ⟨final', finalized', reflected, kept⟩ :=
      finalizeFeeRefund_ok tracked readable ledger.ledgerVersion
    rw [finalized, Except.ok.injEq] at finalized'
    subst finalized'
    refine ⟨_, ledger', final, refunding, ⟨fun _ => ⟨rfl, transfer, fun recent => ?_,
      fun bumped old => ?_⟩, fun cannot => absurd can cannot⟩⟩
    · rw [← feeChargedKept, ← innerKept]
      exact reflected (innerKept ▸ recent)
    · have same := kept (innerKept ▸ bumped) old
      exact ⟨same, same ▸ feeChargedKept⟩
  · exact ⟨0, ledger, applied, refundSorobanFee_of_not_canRefund tracked nonneg solvent can,
      ⟨fun can' => absurd can' can, fun _ => ⟨rfl, rfl, rfl, feeChargedKept⟩⟩⟩

end Refund

/-! ## The refund of a Soroban transaction -/

section Transaction

variable {AccountID : Type} [DecidableEq AccountID]

/-- Over the whole life of a Soroban transaction, plain or fee bump: `processFeeSeqNum` takes
the fee charged from the fee source; after any run of apply the refund lies between zero and
the refundable fee, is all of it after a failure and what the accepted calls left of it after a
success; and `refundSorobanFee` settles it. -/
theorem sorobanRefund_exact (refundableFee : Nat → Int)
    (eventsFeeNonneg : ∀ size, 0 ≤ refundableFee size) (noEventsFee : refundableFee 0 = 0)
    {ledger₀ ledger₁ : FeeLedger AccountID} {feeSource : AccountID} {fee refundable : Int}
    {charged started applied : MutableTxResult} {events : List ApplyEvent}
    (feeSourceValid : ∃ acc, ledger₀.accounts feeSource = some acc ∧ 0 ≤ acc.balance ∧
      acc.balance ≤ int64Max)
    (feeNonneg : 0 ≤ fee)
    (charge : processFeeSeqNum ledger₀ feeSource fee = .ok (ledger₁, charged) ∨
      ∃ innerFee, processFeeSeqNumFeeBump ledger₀ feeSource fee innerFee = .ok (ledger₁, charged))
    (refundableNonneg : 0 ≤ refundable)
    (init : charged.initializeRefundableFeeTracker refundable = .ok started)
    (run : ApplyRun refundableFee started events applied)
    (rentNonneg : ∀ event ∈ events, 0 ≤ event.rentAdded)
    (ledger : FeeLedger AccountID)
    (solvent : ∀ acc, ledger.accounts feeSource = some acc → 0 ≤ acc.balance) :
    FeeLedger.Transfer ledger₀ ledger₁ feeSource (-charged.base.feeCharged) ∧
      ∃ tracker, applied.base.refundableFeeTracker = some tracker ∧
        0 ≤ tracker.getFeeRefund ∧ tracker.getFeeRefund ≤ refundable ∧
        (applied.isSuccess = false → tracker.getFeeRefund = refundable) ∧
        (applied.isSuccess = true → (∀ event ∈ events, event.accepted = true) ∧
          tracker.getFeeRefund =
            refundable - (consumedRent events + refundableFee (consumedSize events))) ∧
        ∃ refunded ledger' final,
          refundSorobanFee ledger feeSource applied = .ok (refunded, ledger', final) ∧
            RefundSettles ledger feeSource charged applied tracker.getFeeRefund refunded ledger'
              final := by
  obtain ⟨acc₀, found₀, valid₀⟩ := feeSourceValid
  obtain ⟨charging, running, readable⟩ := processFeeSeqNum_fresh charge
  have debited := chargeFee_transfer found₀ valid₀ feeNonneg charging
  -- the run keeps its invariant and the fees from the fresh result on
  have tracks := run.tracks (Tracks.start noEventsFee refundableNonneg running readable init)
  rw [List.nil_append] at tracks
  obtain ⟨feeChargedKept, innerKept⟩ := run.feeCharged_eq
  rw [MutableTxResult.initializeRefundableFeeTracker_eq init,
    MutableTxResult.feeCharged_setTracker] at feeChargedKept
  rw [MutableTxResult.initializeRefundableFeeTracker_eq init,
    MutableTxResult.innerFeeCharged_setTracker] at innerKept
  obtain ⟨tracker, tracked, -⟩ := tracks.tracked
  obtain ⟨nonneg, atMost, failedAll, succeeded⟩ :=
    tracks.getFeeRefund tracked refundableNonneg eventsFeeNonneg rentNonneg
  exact ⟨debited, tracker, tracked, nonneg, atMost, failedAll, succeeded,
    refundSorobanFee_settles tracked tracks.hasInnerResult nonneg solvent feeChargedKept innerKept⟩

/-- A plain transaction whose one call takes 5 in rent and 10 bytes of events, with the events
fee one per byte, is refunded 15 of its 30. -/
theorem sorobanRefund_exact_paid :
    ∃ (ledger₁ : FeeLedger Nat) (charged started applied : MutableTxResult),
      processFeeSeqNum ⟨21, 0, fun _ => some ⟨100, 0, 0, 0⟩⟩ 0 50 = .ok (ledger₁, charged) ∧
      charged.initializeRefundableFeeTracker 30 = .ok started ∧
      ApplyRun (fun size => size) started [.consume 10 5 true] applied ∧
      ∃ refunded ledger' final, refundSorobanFee ledger₁ 0 applied = .ok (refunded, ledger', final) ∧
        RefundSettles ledger₁ 0 charged applied 15 refunded ledger' final := by
  have consumed : (RefundableFeeTracker.new 30).consumeRefundableSorobanResources (fun size => size)
      10 5 = (true, ⟨30, 10, 5, 15⟩) := rfl
  have run : ApplyRun (fun size => size) ((MutableTxResult.plain ⟨.success, 50, none⟩).setTracker
      (RefundableFeeTracker.new 30)) [.consume 10 5 true]
      ((MutableTxResult.plain ⟨.success, 50, none⟩).setTracker ⟨30, 10, 5, 15⟩) :=
    .step (.consume rfl rfl consumed rfl) (.done _)
  have valid : ∃ acc, (⟨21, 0, fun _ => some ⟨100, 0, 0, 0⟩⟩ : FeeLedger Nat).accounts 0 = some acc ∧
      0 ≤ acc.balance ∧ acc.balance ≤ int64Max :=
    ⟨⟨100, 0, 0, 0⟩, rfl, by decide, by decide⟩
  have charge : processFeeSeqNum (⟨21, 0, fun _ => some ⟨100, 0, 0, 0⟩⟩ : FeeLedger Nat) 0 50 =
      .ok ({ (⟨21, 0, fun _ => some ⟨100, 0, 0, 0⟩⟩ : FeeLedger Nat).setAccount 0 ⟨50, 0, 0, 0⟩ with
        feePool := 0 + 50 }, .plain ⟨.success, 50, none⟩) := rfl
  have solvent : ∀ acc, ({ (⟨21, 0, fun _ => some ⟨100, 0, 0, 0⟩⟩ : FeeLedger Nat).setAccount 0
      ⟨50, 0, 0, 0⟩ with feePool := 0 + 50 } : FeeLedger Nat).accounts 0 = some acc →
        0 ≤ acc.balance := fun acc found => by
    simp only [FeeLedger.setAccount, Function.update_self, Option.some.injEq] at found
    subst found
    decide
  obtain ⟨-, tracker, tracked, -, -, -, -, settled⟩ := sorobanRefund_exact (fun size => size)
    (fun size => Int.natCast_nonneg size) rfl valid (by decide) (.inl charge) (by decide) rfl run
    (by simp [ApplyEvent.rentAdded]) _ solvent
  cases tracked
  exact ⟨_, _, _, _, rfl, rfl, run, settled⟩

/-- A fee bump refunded before protocol 21: the fee source paid 50 and got 30 back, but the
result still records a fee of 50. -/
theorem feeBump_refund_keeps_feeCharged :
    ∃ (ledger₁ ledger₂ : FeeLedger Nat) (charged started final : MutableTxResult),
      processFeeSeqNumFeeBump ⟨20, 0, fun _ => some ⟨100, 0, 0, 0⟩⟩ 0 50 40 =
        .ok (ledger₁, charged) ∧
      charged.initializeRefundableFeeTracker 30 = .ok started ∧
      ApplyRun (fun _ => 0) started [] started ∧
      refundSorobanFee ledger₁ 0 started = .ok (30, ledger₂, final) ∧
      (ledger₁.accounts 0).map AccountEntry.balance = some 50 ∧
      (ledger₂.accounts 0).map AccountEntry.balance = some 80 ∧ final.base.feeCharged = 50 :=
  ⟨_, _, _, _, _, rfl, rfl, .done _, rfl, rfl, rfl, rfl⟩

end Transaction

end StellarCore.Transactions
