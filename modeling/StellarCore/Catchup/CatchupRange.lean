import StellarCore.History.HistoryManager
import StellarCore.Lib.Except

/-!
# Catchup ranges (`CatchupRange`)

A node whose last closed ledger is `lcl` catches up to `toLedger` either by replaying every
ledger after `lcl`, or, from genesis, by applying the buckets of a checkpoint's last ledger and
replaying every ledger after that one. `calculateCatchupRange` picks between them in five cases,
keeping at least `count` ledgers of replay, and the constructors of `CatchupRange` check the
result with `checkInvariants`.

Under its preconditions the calculation never trips an assertion: every range it returns is
exact, in that the ledgers the node ends with lead without a gap to `toLedger`, and bucket
application starts at the last ledger before the checkpoint holding the first ledger asked for.
-/

set_option autoImplicit false

namespace StellarCore.Catchup

open History

/-- `LedgerManager::GENESIS_LEDGER_SEQ`. -/
def genesisLedgerSeq : UInt32 := 1

/-- `LedgerRange`: `mCount` ledgers from `mFirst`. Its constructor's `releaseAssert` is the field
`valid`, so no other range can be built. -/
structure LedgerRange where
  mFirst : UInt32
  mCount : UInt32
  valid : mCount = 0 ∨ 0 < mFirst
deriving DecidableEq

/-- The constructor `LedgerRange(first, count)`. -/
def LedgerRange.make (first count : UInt32) : Except String LedgerRange :=
  if valid : count = 0 ∨ 0 < first then .ok ⟨first, count, valid⟩
  else .error "releaseAssert(count == 0 || mFirst > 0)"

/-- `LedgerRange::limit`: the exclusive end, in `uint32_t`. -/
def LedgerRange.limit (range : LedgerRange) : UInt32 := range.mFirst + range.mCount

/-- `LedgerRange::last`: the inclusive end. -/
def LedgerRange.last (range : LedgerRange) : Except String UInt32 :=
  if range.mCount = 0 then .error "last() cannot be called on LedgerRange when mCount == 0"
  else .ok (range.limit - 1)

/-- The fields of `CatchupConfiguration` the range calculation reads. -/
structure CatchupConfiguration where
  toLedger : UInt32
  count : UInt32

/-- `CatchupConfiguration::CURRENT`. -/
def CatchupConfiguration.current : UInt32 := 0

/-- `CatchupRange`: whether and where to apply buckets, then which ledgers to replay. -/
structure CatchupRange where
  mApplyBuckets : Bool
  mApplyBucketsAtLedger : UInt32
  mReplayRange : LedgerRange

namespace CatchupRange

def applyBuckets (range : CatchupRange) : Bool := range.mApplyBuckets

def replayLedgers (range : CatchupRange) : Bool := range.mReplayRange.mCount > 0

/-- `CatchupRange::checkInvariants`. -/
def checkInvariants (range : CatchupRange) : Except String Unit :=
  if !(range.applyBuckets || range.replayLedgers) then
    .error "releaseAssert(applyBuckets() || replayLedgers())"
  else if !range.applyBuckets && range.replayLedgers then
    -- Cases 1, 2 and 4: no buckets, only replay.
    if range.mApplyBucketsAtLedger ≠ 0 then .error "releaseAssert(mApplyBucketsAtLedger == 0)"
    else if range.mReplayRange.mFirst = 0 then .error "releaseAssert(mReplayRange.mFirst != 0)"
    else .ok ()
  else if range.applyBuckets && range.replayLedgers then
    -- Case 5: buckets and replay.
    if range.mApplyBucketsAtLedger = 0 then .error "releaseAssert(mApplyBucketsAtLedger != 0)"
    else if range.mReplayRange.mFirst = 0 then .error "releaseAssert(mReplayRange.mFirst != 0)"
    else if range.mApplyBucketsAtLedger + 1 ≠ range.mReplayRange.mFirst then
      .error "releaseAssert(mApplyBucketsAtLedger + 1 == mReplayRange.mFirst)"
    else .ok ()
  else
    -- Case 3: buckets only, no replay.
    if !(range.applyBuckets && !range.replayLedgers) then
      .error "releaseAssert(applyBuckets() && !replayLedgers())"
    else if range.mReplayRange.mFirst ≠ 0 then .error "releaseAssert(mReplayRange.mFirst == 0)"
    else .ok ()

/-- `CatchupRange(applyBucketsAtLedger)`: buckets only. -/
def ofApplyBuckets (applyBucketsAtLedger : UInt32) : Except String CatchupRange := do
  let range : CatchupRange := ⟨true, applyBucketsAtLedger, ← LedgerRange.make 0 0⟩
  range.checkInvariants
  pure range

/-- `CatchupRange(replayRange)`: replay only. -/
def ofReplayRange (replayRange : LedgerRange) : Except String CatchupRange := do
  let range : CatchupRange := ⟨false, 0, replayRange⟩
  range.checkInvariants
  pure range

/-- `CatchupRange(applyBucketsAtLedger, replayRange)`: buckets, then replay. -/
def ofApplyBucketsAndReplay (applyBucketsAtLedger : UInt32) (replayRange : LedgerRange) :
    Except String CatchupRange := do
  let range : CatchupRange := ⟨true, applyBucketsAtLedger, replayRange⟩
  range.checkInvariants
  pure range

/-- `CatchupRange::last`: the ledger the node ends with. -/
def last (range : CatchupRange) : Except String UInt32 :=
  if range.mReplayRange.mCount ≠ 0 then range.mReplayRange.last
  else if range.mApplyBuckets then .ok range.mApplyBucketsAtLedger
  else .error "releaseAssert(mApplyBuckets)"

end CatchupRange

/-- `checkCatchupPreconditions`. -/
def checkCatchupPreconditions (lastClosedLedger : UInt32) (configuration : CatchupConfiguration) :
    Except String Unit :=
  if lastClosedLedger < genesisLedgerSeq then .error "lastClosedLedger == 0"
  else if configuration.toLedger ≤ lastClosedLedger then
    .error "configuration.toLedger() <= lastClosedLedger"
  else if configuration.toLedger ≤ genesisLedgerSeq then
    .error "configuration.toLedger() <= LedgerManager::GENESIS_LEDGER_SEQ"
  else if configuration.toLedger = CatchupConfiguration.current then
    .error "configuration.toLedger() == CatchupConfiguration::CURRENT"
  else .ok ()

/-- `calculateCatchupRange`. -/
def calculateCatchupRange (lcl : UInt32) (cfg : CatchupConfiguration) (hm : Config) :
    Except String CatchupRange := do
  checkCatchupPreconditions lcl cfg
  let init := genesisLedgerSeq
  let fullReplayCount := cfg.toLedger - lcl
  -- Case 1: replay from LCL as we're already past genesis.
  if lcl > init then
    CatchupRange.ofReplayRange (← LedgerRange.make (lcl + 1) fullReplayCount)
  else if lcl ≠ init then
    .error "releaseAssert(lcl == init)"
  else
    let fullReplay ← LedgerRange.make (init + 1) fullReplayCount
    -- Case 2: full replay because count >= target - init.
    if cfg.count ≥ fullReplayCount then
      CatchupRange.ofReplayRange fullReplay
    -- Case 3: buckets only, when targeting the exact end of a checkpoint.
    else if cfg.count = 0 ∧ isLastLedgerInCheckpoint cfg.toLedger hm = true then
      CatchupRange.ofApplyBuckets cfg.toLedger
    else
      let targetStart := cfg.toLedger - cfg.count + 1
      let firstInCheckpoint := firstLedgerInCheckpointContaining targetStart hm
      -- Case 4: target is inside first checkpoint, just replay.
      if firstInCheckpoint = init then
        CatchupRange.ofReplayRange fullReplay
      -- Case 5: apply buckets, then replay.
      else
        let applyBucketsAt ← lastLedgerBeforeCheckpointContaining targetStart hm
        CatchupRange.ofApplyBucketsAndReplay applyBucketsAt
          (← LedgerRange.make firstInCheckpoint (cfg.toLedger - applyBucketsAt))

/-- `CatchupRange(lastClosedLedger, configuration, historyManager)`. -/
def CatchupRange.ofConfiguration (lastClosedLedger : UInt32) (configuration : CatchupConfiguration)
    (historyManager : Config) : Except String CatchupRange := do
  let range ← calculateCatchupRange lastClosedLedger configuration historyManager
  range.checkInvariants
  pure range

/-! ## The constructors -/

theorem LedgerRange.make_eq {first count : UInt32} (valid : count = 0 ∨ 0 < first) :
    LedgerRange.make first count = .ok ⟨first, count, valid⟩ :=
  dif_pos valid

/-- The last ledger of a non-empty range is one before its exclusive end, also where that end
wraps to `0`. -/
theorem LedgerRange.last_eq {range : LedgerRange} (nonempty : range.mCount ≠ 0) {ledger : UInt32}
    (ends : range.mFirst.toNat + range.mCount.toNat = ledger.toNat + 1) :
    range.last = .ok ledger := by
  unfold LedgerRange.last LedgerRange.limit
  rw [if_neg nonempty]
  congr 1
  apply UInt32.toNat_inj.mp
  have bounded := ledger.toNat_lt
  simp only [UInt32.toNat_sub, UInt32.toNat_add, UInt32.toNat_one]
  omega

namespace CatchupRange

/-- A range built by a constructor passed `checkInvariants`. -/
theorem checkInvariants_of_pure {range built : CatchupRange}
    (returned : (range.checkInvariants >>= fun _ => pure range) = .ok built) :
    built.checkInvariants = .ok () := by
  obtain ⟨⟨⟩, checked, returned⟩ := Except.bind_eq_ok_iff.1 returned
  cases returned
  exact checked

theorem checkInvariants_of_ofReplayRange {replayRange : LedgerRange} {range : CatchupRange}
    (built : ofReplayRange replayRange = .ok range) : range.checkInvariants = .ok () :=
  checkInvariants_of_pure built

theorem checkInvariants_of_ofApplyBucketsAndReplay {applyBucketsAtLedger : UInt32}
    {replayRange : LedgerRange} {range : CatchupRange}
    (built : ofApplyBucketsAndReplay applyBucketsAtLedger replayRange = .ok range) :
    range.checkInvariants = .ok () :=
  checkInvariants_of_pure built

theorem checkInvariants_of_ofApplyBuckets {applyBucketsAtLedger : UInt32} {range : CatchupRange}
    (built : ofApplyBuckets applyBucketsAtLedger = .ok range) : range.checkInvariants = .ok () := by
  unfold ofApplyBuckets at built
  obtain ⟨replay, -, built⟩ := Except.bind_eq_ok_iff.1 built
  exact checkInvariants_of_pure built

theorem ofReplayRange_eq {replayRange : LedgerRange} (nonempty : replayRange.mCount ≠ 0)
    (started : replayRange.mFirst ≠ 0) : ofReplayRange replayRange = .ok ⟨false, 0, replayRange⟩ := by
  simp [ofReplayRange, checkInvariants, applyBuckets, replayLedgers, UInt32.pos_iff_ne_zero,
    nonempty, started]

theorem ofApplyBuckets_eq (applyBucketsAtLedger : UInt32) :
    ofApplyBuckets applyBucketsAtLedger = .ok ⟨true, applyBucketsAtLedger, ⟨0, 0, .inl rfl⟩⟩ := by
  simp [ofApplyBuckets, LedgerRange.make_eq, checkInvariants, applyBuckets, replayLedgers]

theorem ofApplyBucketsAndReplay_eq {applyBucketsAtLedger : UInt32} {replayRange : LedgerRange}
    (nonempty : replayRange.mCount ≠ 0) (nonzero : applyBucketsAtLedger ≠ 0)
    (follows : applyBucketsAtLedger + 1 = replayRange.mFirst) :
    ofApplyBucketsAndReplay applyBucketsAtLedger replayRange =
      .ok ⟨true, applyBucketsAtLedger, replayRange⟩ := by
  have started : replayRange.mFirst ≠ 0 := by
    rcases replayRange.valid with empty | positive
    · exact absurd empty nonempty
    · exact UInt32.pos_iff_ne_zero.mp positive
  simp [ofApplyBucketsAndReplay, checkInvariants, applyBuckets, replayLedgers,
    UInt32.pos_iff_ne_zero, nonempty, nonzero, started, follows]

end CatchupRange

/-! ## The calculation -/

/-- Of the four preconditions only the first two bind: a target past the last closed ledger is
past genesis and is not `CURRENT`. -/
theorem checkCatchupPreconditions_eq_ok {lastClosedLedger : UInt32}
    {configuration : CatchupConfiguration} :
    checkCatchupPreconditions lastClosedLedger configuration = .ok () ↔
      1 ≤ lastClosedLedger.toNat ∧ lastClosedLedger.toNat < configuration.toLedger.toNat := by
  unfold checkCatchupPreconditions genesisLedgerSeq CatchupConfiguration.current
  simp only [UInt32.lt_iff_toNat_lt, UInt32.le_iff_toNat_le, ← UInt32.toNat_inj]
  split_ifs <;> simp_all <;> omega

/-- Every range the calculation returns passed `checkInvariants` in its constructor. -/
theorem checkInvariants_of_calculateCatchupRange {lcl : UInt32} {cfg : CatchupConfiguration}
    {hm : Config} {range : CatchupRange} (calculated : calculateCatchupRange lcl cfg hm = .ok range) :
    range.checkInvariants = .ok () := by
  unfold calculateCatchupRange at calculated
  obtain ⟨⟨⟩, -, calculated⟩ := Except.bind_eq_ok_iff.1 calculated
  dsimp only at calculated
  by_cases past : lcl > genesisLedgerSeq
  · rw [if_pos past] at calculated
    obtain ⟨replay, -, built⟩ := Except.bind_eq_ok_iff.1 calculated
    exact CatchupRange.checkInvariants_of_ofReplayRange built
  rw [if_neg past] at calculated
  by_cases genesis : lcl ≠ genesisLedgerSeq
  · rw [if_pos genesis] at calculated
    cases calculated
  rw [if_neg genesis] at calculated
  -- the cases from genesis share the full replay range
  obtain ⟨fullReplay, -, calculated⟩ := Except.bind_eq_ok_iff.1 calculated
  by_cases full : cfg.count ≥ cfg.toLedger - lcl
  · rw [if_pos full] at calculated
    exact CatchupRange.checkInvariants_of_ofReplayRange calculated
  rw [if_neg full] at calculated
  by_cases bucketsOnly : cfg.count = 0 ∧ isLastLedgerInCheckpoint cfg.toLedger hm = true
  · rw [if_pos bucketsOnly] at calculated
    exact CatchupRange.checkInvariants_of_ofApplyBuckets calculated
  rw [if_neg bucketsOnly] at calculated
  by_cases firstCheckpoint :
      firstLedgerInCheckpointContaining (cfg.toLedger - cfg.count + 1) hm = genesisLedgerSeq
  · rw [if_pos firstCheckpoint] at calculated
    exact CatchupRange.checkInvariants_of_ofReplayRange calculated
  rw [if_neg firstCheckpoint] at calculated
  obtain ⟨applyBucketsAt, -, calculated⟩ := Except.bind_eq_ok_iff.1 calculated
  obtain ⟨replay, -, built⟩ := Except.bind_eq_ok_iff.1 calculated
  exact CatchupRange.checkInvariants_of_ofApplyBucketsAndReplay built

/-- The public constructor's second `checkInvariants` never fails: it is the calculation. -/
theorem ofConfiguration_eq (lcl : UInt32) (cfg : CatchupConfiguration) (hm : Config) :
    CatchupRange.ofConfiguration lcl cfg hm = calculateCatchupRange lcl cfg hm := by
  unfold CatchupRange.ofConfiguration
  cases calculated : calculateCatchupRange lcl cfg hm with
  | error message => rfl
  | ok range =>
    rw [Except.ok_bind, checkInvariants_of_calculateCatchupRange calculated]
    rfl

/-! ## Exactness -/

/-- What a catchup range from `lcl` has to be: the node ends at the target with no ledger
missing, replays at least the ledgers asked for, and applies buckets only from genesis, at the
end of a checkpoint, and no further back than the checkpoint holding the first ledger asked for. -/
structure ExactRange (lcl : UInt32) (configuration : CatchupConfiguration) (hm : Config)
    (range : CatchupRange) : Prop where
  last : range.last = .ok configuration.toLedger
  replayEnds : range.mReplayRange.mCount = 0 ∨ range.mReplayRange.last = .ok configuration.toLedger
  replayFromLcl : range.mApplyBuckets = false → range.mReplayRange.mFirst.toNat = lcl.toNat + 1
  bucketsAtCheckpoint : range.mApplyBuckets = true →
    lcl = genesisLedgerSeq ∧ isLastLedgerInCheckpoint range.mApplyBucketsAtLedger hm = true ∧
      (range.mReplayRange.mCount ≠ 0 →
        range.mReplayRange.mFirst.toNat = range.mApplyBucketsAtLedger.toNat + 1)
  replaysEnough : min configuration.count.toNat (configuration.toLedger.toNat - lcl.toNat) ≤
    range.mReplayRange.mCount.toNat
  bucketsNearTarget : range.mApplyBuckets = true →
    range.mReplayRange.mCount.toNat < configuration.count.toNat + (getCheckpointFrequency hm).toNat ∧
      (getCheckpointFrequency hm).toNat ≤
        configuration.toLedger.toNat - configuration.count.toNat + 1 ∧
      range.mApplyBucketsAtLedger.toNat + 1 =
        (configuration.toLedger.toNat - configuration.count.toNat + 1) /
          (getCheckpointFrequency hm).toNat * (getCheckpointFrequency hm).toNat

theorem genesisLedgerSeq_toNat : genesisLedgerSeq.toNat = 1 := rfl

theorem genesisLedgerSeq_lt_iff {ledger : UInt32} : genesisLedgerSeq < ledger ↔ 1 < ledger.toNat :=
  UInt32.lt_iff_toNat_lt

theorem eq_genesisLedgerSeq_iff {ledger : UInt32} : ledger = genesisLedgerSeq ↔ ledger.toNat = 1 :=
  UInt32.toNat_inj.symm

section Exact

variable {lcl : UInt32} {configuration : CatchupConfiguration} {hm : Config}

/-- A replay of every ledger after `lcl` is exact. -/
theorem exactRange_of_replay {range : CatchupRange}
    (ahead : lcl.toNat < configuration.toLedger.toNat) (replayOnly : range.mApplyBuckets = false)
    (first : range.mReplayRange.mFirst.toNat = lcl.toNat + 1)
    (count : range.mReplayRange.mCount.toNat = configuration.toLedger.toNat - lcl.toNat) :
    ExactRange lcl configuration hm range := by
  have nonempty : range.mReplayRange.mCount ≠ 0 := by
    intro empty
    rw [empty, UInt32.toNat_zero] at count
    omega
  have ends : range.mReplayRange.last = .ok configuration.toLedger :=
    LedgerRange.last_eq nonempty (by omega)
  have noBuckets : range.mApplyBuckets ≠ true := by simp [replayOnly]
  refine ⟨?_, .inr ends, fun _ => first, fun applied => absurd applied noBuckets, by omega,
    fun applied => absurd applied noBuckets⟩
  rw [CatchupRange.last, if_pos nonempty, ends]

/-- Buckets applied from genesis at the last ledger before the checkpoint holding the first
ledger asked for, then a replay of every ledger after it, are exact. -/
theorem exactRange_of_buckets {range : CatchupRange} (genesis : lcl = genesisLedgerSeq)
    (applied : range.mApplyBuckets = true)
    (reaches : range.mApplyBucketsAtLedger.toNat ≤ configuration.toLedger.toNat)
    (count : range.mReplayRange.mCount.toNat =
      configuration.toLedger.toNat - range.mApplyBucketsAtLedger.toNat)
    (first : range.mReplayRange.mCount ≠ 0 →
      range.mReplayRange.mFirst.toNat = range.mApplyBucketsAtLedger.toNat + 1)
    (start : (getCheckpointFrequency hm).toNat ≤
      configuration.toLedger.toNat - configuration.count.toNat + 1)
    (aligned : range.mApplyBucketsAtLedger.toNat + 1 =
      (configuration.toLedger.toNat - configuration.count.toNat + 1) /
        (getCheckpointFrequency hm).toNat * (getCheckpointFrequency hm).toNat) :
    ExactRange lcl configuration hm range := by
  have frequency : 0 < (getCheckpointFrequency hm).toNat := by
    rcases getCheckpointFrequency_cases hm with freq | freq <;> omega
  have below := Nat.div_mul_le_self (configuration.toLedger.toNat - configuration.count.toNat + 1)
    (getCheckpointFrequency hm).toNat
  have above := Nat.lt_div_mul_add
    (a := configuration.toLedger.toNat - configuration.count.toNat + 1) frequency
  have lastInCheckpoint : isLastLedgerInCheckpoint range.mApplyBucketsAtLedger hm = true := by
    rw [isLastLedgerInCheckpoint_iff, aligned]
    exact Nat.mul_mod_left _ _
  have atGenesis : lcl.toNat = 1 := by rw [genesis]; rfl
  -- with no replay, the buckets are those of the target itself
  have ends : range.last = .ok configuration.toLedger ∧
      (range.mReplayRange.mCount = 0 ∨ range.mReplayRange.last = .ok configuration.toLedger) := by
    by_cases empty : range.mReplayRange.mCount = 0
    · have target : range.mApplyBucketsAtLedger = configuration.toLedger := by
        rw [empty, UInt32.toNat_zero] at count
        exact UInt32.toNat_inj.mp (by omega)
      refine ⟨?_, .inl empty⟩
      rw [CatchupRange.last, if_neg (not_not.mpr empty), if_pos applied, target]
    · have ends : range.mReplayRange.last = .ok configuration.toLedger :=
        LedgerRange.last_eq empty (by rw [first empty]; omega)
      refine ⟨?_, .inr ends⟩
      rw [CatchupRange.last, if_pos empty, ends]
  refine ⟨ends.1, ends.2, fun replayOnly => by simp [applied] at replayOnly,
    fun _ => ⟨genesis, lastInCheckpoint, first⟩, by omega, fun _ => ⟨by omega, start, aligned⟩⟩

end Exact

/-! ## The five cases -/

section Cases

variable (hm : Config) {lcl : UInt32} {cfg : CatchupConfiguration}
  (started : 1 ≤ lcl.toNat) (ahead : lcl.toNat < cfg.toLedger.toNat)

include ahead in
theorem fullReplayCount_toNat : (cfg.toLedger - lcl).toNat = cfg.toLedger.toNat - lcl.toNat :=
  UInt32.toNat_sub_of_le _ _ (UInt32.le_iff_toNat_le.mpr ahead.le)

include ahead in
theorem fullReplayCount_ne_zero : cfg.toLedger - lcl ≠ 0 := fun empty => by
  have counted := fullReplayCount_toNat ahead
  rw [empty, UInt32.toNat_zero] at counted
  omega

/-- Off case 3, the first ledger asked for is `toLedger - count + 1` without a wrap: a zero count
at `UINT32_MAX` would be the end of a checkpoint. -/
theorem targetStart_toNat (fewer : cfg.count.toNat < cfg.toLedger.toNat - 1)
    (notBucketsOnly : ¬(cfg.count = 0 ∧ isLastLedgerInCheckpoint cfg.toLedger hm = true)) :
    (cfg.toLedger - cfg.count + 1).toNat = cfg.toLedger.toNat - cfg.count.toNat + 1 := by
  have bounded := cfg.toLedger.toNat_lt
  have counted : (cfg.toLedger - cfg.count).toNat = cfg.toLedger.toNat - cfg.count.toNat :=
    UInt32.toNat_sub_of_le _ _ (UInt32.le_iff_toNat_le.mpr (by omega))
  have noWrap : cfg.toLedger.toNat - cfg.count.toNat + 1 < 2 ^ 32 := by
    by_cases zero : cfg.count = 0
    · have notLast : ¬ isLastLedgerInCheckpoint cfg.toLedger hm = true := fun last =>
        notBucketsOnly ⟨zero, last⟩
      rw [isLastLedgerInCheckpoint_iff] at notLast
      rw [zero, UInt32.toNat_zero]
      rcases getCheckpointFrequency_cases hm with freq | freq <;> rw [freq] at notLast <;> omega
    · have : cfg.count.toNat ≠ 0 := fun counted => zero (UInt32.toNat_inj.mp counted)
      omega
  rw [UInt32.toNat_add, counted, UInt32.toNat_one, Nat.mod_eq_of_lt noWrap]

include started ahead

/-- Case 1: past genesis, replay every ledger after `lcl`. -/
theorem calculateCatchupRange_pastGenesis (past : 1 < lcl.toNat) :
    ∃ range, calculateCatchupRange lcl cfg hm = .ok range ∧ ExactRange lcl cfg hm range := by
  have next : (lcl + 1).toNat = lcl.toNat + 1 := by
    have := cfg.toLedger.toNat_lt
    rw [UInt32.toNat_add, UInt32.toNat_one]
    omega
  have positive : 0 < lcl + 1 := UInt32.lt_iff_toNat_lt.mpr (by rw [next, UInt32.toNat_zero]; omega)
  have counted := fullReplayCount_toNat ahead
  refine ⟨⟨false, 0, ⟨lcl + 1, cfg.toLedger - lcl, .inr positive⟩⟩, ?_,
    exactRange_of_replay ahead rfl next counted⟩
  unfold calculateCatchupRange
  rw [checkCatchupPreconditions_eq_ok.2 ⟨started, ahead⟩, Except.ok_bind]
  dsimp only
  rw [if_pos (genesisLedgerSeq_lt_iff.2 past), LedgerRange.make_eq (.inr positive), Except.ok_bind,
    CatchupRange.ofReplayRange_eq (fullReplayCount_ne_zero ahead) (UInt32.pos_iff_ne_zero.mp positive)]

section Genesis

variable (genesis : lcl.toNat = 1)
include genesis

/-- From genesis the calculation passes case 1 and its assertion, and builds the full replay. -/
theorem calculateCatchupRange_of_genesis :
    calculateCatchupRange lcl cfg hm =
      (if cfg.count ≥ cfg.toLedger - lcl then CatchupRange.ofReplayRange
          ⟨genesisLedgerSeq + 1, cfg.toLedger - lcl, .inr (by decide)⟩
        else if cfg.count = 0 ∧ isLastLedgerInCheckpoint cfg.toLedger hm = true then
          CatchupRange.ofApplyBuckets cfg.toLedger
        else if firstLedgerInCheckpointContaining (cfg.toLedger - cfg.count + 1) hm =
            genesisLedgerSeq then
          CatchupRange.ofReplayRange ⟨genesisLedgerSeq + 1, cfg.toLedger - lcl, .inr (by decide)⟩
        else do
          let applyBucketsAt ← lastLedgerBeforeCheckpointContaining (cfg.toLedger - cfg.count + 1) hm
          CatchupRange.ofApplyBucketsAndReplay applyBucketsAt
            (← LedgerRange.make (firstLedgerInCheckpointContaining (cfg.toLedger - cfg.count + 1) hm)
              (cfg.toLedger - applyBucketsAt))) := by
  have notPast : ¬ lcl > genesisLedgerSeq := fun past => by
    have := genesisLedgerSeq_lt_iff.1 past
    omega
  unfold calculateCatchupRange
  rw [checkCatchupPreconditions_eq_ok.2 ⟨started, ahead⟩, Except.ok_bind]
  dsimp only
  rw [if_neg notPast, if_neg (not_not.mpr (eq_genesisLedgerSeq_iff.2 genesis)),
    LedgerRange.make_eq (.inr (by decide)), Except.ok_bind]

omit started in
theorem exactRange_fullReplay :
    ExactRange lcl cfg hm ⟨false, 0, ⟨genesisLedgerSeq + 1, cfg.toLedger - lcl, .inr (by decide)⟩⟩ :=
  exactRange_of_replay ahead rfl (by rw [genesis]; rfl) (fullReplayCount_toNat ahead)

/-- Case 2: the count reaches back to genesis, replay everything. -/
theorem calculateCatchupRange_fullReplay (full : cfg.toLedger.toNat - 1 ≤ cfg.count.toNat) :
    ∃ range, calculateCatchupRange lcl cfg hm = .ok range ∧ ExactRange lcl cfg hm range := by
  have covers : cfg.count ≥ cfg.toLedger - lcl := by
    rw [ge_iff_le, UInt32.le_iff_toNat_le, fullReplayCount_toNat ahead]
    omega
  refine ⟨_, ?_, exactRange_fullReplay hm ahead genesis⟩
  rw [calculateCatchupRange_of_genesis hm started ahead genesis, if_pos covers,
    CatchupRange.ofReplayRange_eq (fullReplayCount_ne_zero ahead) (show genesisLedgerSeq + 1 ≠ 0 by decide)]

/-- Case 3: no replay asked for, and the target ends a checkpoint: apply its buckets only. -/
theorem calculateCatchupRange_bucketsOnly (zero : cfg.count = 0)
    (lastInCheckpoint : isLastLedgerInCheckpoint cfg.toLedger hm = true) :
    ∃ range, calculateCatchupRange lcl cfg hm = .ok range ∧ ExactRange lcl cfg hm range := by
  have counted : cfg.count.toNat = 0 := by rw [zero]; rfl
  have notFull : ¬ cfg.count ≥ cfg.toLedger - lcl := by
    rw [ge_iff_le, UInt32.le_iff_toNat_le, fullReplayCount_toNat ahead]
    omega
  have divides := Nat.dvd_of_mod_eq_zero ((isLastLedgerInCheckpoint_iff hm cfg.toLedger).mp lastInCheckpoint)
  refine ⟨⟨true, cfg.toLedger, ⟨0, 0, .inl rfl⟩⟩, ?_,
    exactRange_of_buckets (eq_genesisLedgerSeq_iff.2 genesis) rfl le_rfl (by simp)
      (fun nonempty => absurd rfl nonempty) ?_ ?_⟩
  · rw [calculateCatchupRange_of_genesis hm started ahead genesis, if_neg notFull,
      if_pos ⟨zero, lastInCheckpoint⟩, CatchupRange.ofApplyBuckets_eq]
  · rw [counted, Nat.sub_zero]
    exact Nat.le_of_dvd (by omega) divides
  · rw [counted, Nat.sub_zero, Nat.div_mul_cancel divides]

omit started in
theorem not_full (fewer : cfg.count.toNat < cfg.toLedger.toNat - 1) :
    ¬ cfg.count ≥ cfg.toLedger - lcl := by
  rw [ge_iff_le, UInt32.le_iff_toNat_le, fullReplayCount_toNat ahead]
  omega

section Partial

variable (fewer : cfg.count.toNat < cfg.toLedger.toNat - 1)
  (notBucketsOnly : ¬(cfg.count = 0 ∧ isLastLedgerInCheckpoint cfg.toLedger hm = true))
include fewer notBucketsOnly

/-- Case 4: the first ledger asked for is in the first checkpoint, replay everything. -/
theorem calculateCatchupRange_firstCheckpoint
    (inFirst : cfg.toLedger.toNat - cfg.count.toNat + 1 < (getCheckpointFrequency hm).toNat) :
    ∃ range, calculateCatchupRange lcl cfg hm = .ok range ∧ ExactRange lcl cfg hm range := by
  have firstInCheckpoint :
      firstLedgerInCheckpointContaining (cfg.toLedger - cfg.count + 1) hm = genesisLedgerSeq := by
    rw [eq_genesisLedgerSeq_iff, firstLedgerInCheckpointContaining_toNat,
      targetStart_toNat hm fewer notBucketsOnly, if_pos inFirst]
  refine ⟨_, ?_, exactRange_fullReplay hm ahead genesis⟩
  rw [calculateCatchupRange_of_genesis hm started ahead genesis,
    if_neg (not_full ahead genesis fewer), if_neg notBucketsOnly,
    if_pos firstInCheckpoint,
    CatchupRange.ofReplayRange_eq (fullReplayCount_ne_zero ahead) (show genesisLedgerSeq + 1 ≠ 0 by decide)]

/-- Case 5: apply the buckets of the last ledger before the checkpoint holding the first ledger
asked for, then replay from the start of that checkpoint. -/
theorem calculateCatchupRange_bucketsAndReplay
    (pastFirst : (getCheckpointFrequency hm).toNat ≤ cfg.toLedger.toNat - cfg.count.toNat + 1) :
    ∃ range, calculateCatchupRange lcl cfg hm = .ok range ∧ ExactRange lcl cfg hm range := by
  have firstValue : (firstLedgerInCheckpointContaining (cfg.toLedger - cfg.count + 1) hm).toNat =
      (cfg.toLedger.toNat - cfg.count.toNat + 1) / (getCheckpointFrequency hm).toNat *
        (getCheckpointFrequency hm).toNat := by
    rw [firstLedgerInCheckpointContaining_toNat, targetStart_toNat hm fewer notBucketsOnly,
      if_neg (by omega)]
  rw [calculateCatchupRange_of_genesis hm started ahead genesis,
    if_neg (not_full ahead genesis fewer), if_neg notBucketsOnly,
    lastLedgerBeforeCheckpointContaining_eq]
  generalize firstLedgerInCheckpointContaining (cfg.toLedger - cfg.count + 1) hm = first at firstValue ⊢
  -- a zero count asks for `toLedger + 1`, which off case 3 does not start a checkpoint
  have unaligned : cfg.count.toNat = 0 →
      (cfg.toLedger.toNat + 1) % (getCheckpointFrequency hm).toNat ≠ 0 := fun zero aligned =>
    notBucketsOnly ⟨UInt32.toNat_inj.mp zero, (isLastLedgerInCheckpoint_iff hm cfg.toLedger).mpr aligned⟩
  have within : 8 ≤ first.toNat ∧ first.toNat ≤ cfg.toLedger.toNat := by
    rw [firstValue]
    rcases getCheckpointFrequency_cases hm with freq | freq <;> rw [freq] at pastFirst unaligned ⊢ <;>
      omega
  have buckets : (first - 1).toNat = first.toNat - 1 :=
    UInt32.toNat_sub_of_le _ _ (UInt32.le_iff_toNat_le.mpr (by rw [UInt32.toNat_one]; omega))
  have replayed : (cfg.toLedger - (first - 1)).toNat = cfg.toLedger.toNat - (first - 1).toNat :=
    UInt32.toNat_sub_of_le _ _ (UInt32.le_iff_toNat_le.mpr (by omega))
  have positive : 0 < first := UInt32.lt_iff_toNat_lt.mpr (by rw [UInt32.toNat_zero]; omega)
  have nonempty : cfg.toLedger - (first - 1) ≠ 0 := fun empty => by
    rw [empty, UInt32.toNat_zero] at replayed
    omega
  have nonzero : first - 1 ≠ 0 := fun zero => by
    rw [zero, UInt32.toNat_zero] at buckets
    omega
  have notGenesis : first ≠ genesisLedgerSeq := fun atGenesis => by
    rw [eq_genesisLedgerSeq_iff] at atGenesis
    omega
  have reaches : (first - 1).toNat ≤ cfg.toLedger.toNat := by omega
  have follows : first.toNat = (first - 1).toNat + 1 := by omega
  have aligned : (first - 1).toNat + 1 = (cfg.toLedger.toNat - cfg.count.toNat + 1) /
      (getCheckpointFrequency hm).toNat * (getCheckpointFrequency hm).toNat := by omega
  refine ⟨⟨true, first - 1, ⟨first, cfg.toLedger - (first - 1), .inr positive⟩⟩, ?_,
    exactRange_of_buckets (eq_genesisLedgerSeq_iff.2 genesis) rfl reaches replayed
      (fun _ => follows) pastFirst aligned⟩
  rw [if_neg notGenesis]
  simp only [Except.ok_bind]
  rw [LedgerRange.make_eq (.inr positive), Except.ok_bind,
    CatchupRange.ofApplyBucketsAndReplay_eq nonempty nonzero (UInt32.sub_add_cancel first 1)]

end Partial

end Genesis

/-- Under its preconditions `calculateCatchupRange` returns an exact range in each of its five
cases. -/
theorem calculateCatchupRange_isExact :
    ∃ range, calculateCatchupRange lcl cfg hm = .ok range ∧ ExactRange lcl cfg hm range := by
  by_cases past : 1 < lcl.toNat
  · exact calculateCatchupRange_pastGenesis hm started ahead past
  have genesis : lcl.toNat = 1 := by omega
  by_cases full : cfg.toLedger.toNat - 1 ≤ cfg.count.toNat
  · exact calculateCatchupRange_fullReplay hm started ahead genesis full
  have fewer : cfg.count.toNat < cfg.toLedger.toNat - 1 := by omega
  by_cases bucketsOnly : cfg.count = 0 ∧ isLastLedgerInCheckpoint cfg.toLedger hm = true
  · exact calculateCatchupRange_bucketsOnly hm started ahead genesis bucketsOnly.1 bucketsOnly.2
  by_cases inFirst :
      cfg.toLedger.toNat - cfg.count.toNat + 1 < (getCheckpointFrequency hm).toNat
  · exact calculateCatchupRange_firstCheckpoint hm started ahead genesis fewer bucketsOnly inFirst
  · exact calculateCatchupRange_bucketsAndReplay hm started ahead genesis fewer bucketsOnly
      (by omega)

end Cases

/-- From genesis to ledger `100` keeping `10` ledgers of replay, with checkpoints of `64`: apply
the buckets of `63`, then replay `64` to `100`. -/
example : (calculateCatchupRange 1 ⟨100, 10⟩ ⟨false⟩).map
    (fun range => (range.mApplyBucketsAtLedger, range.mReplayRange.mFirst, range.mReplayRange.mCount)) =
      .ok (63, 64, 37) := by decide

/-- From every last closed ledger past `0` to every later target, with every count and either
checkpoint frequency, `CatchupRange(lcl, configuration, hm)` trips no assertion and returns the
exact range `calculateCatchupRange` computes; and every ledger past `0` lies in the checkpoint the
helpers name, whose bounds are `sizeOfCheckpointContaining` apart. -/
theorem catchupRange_exact (hm : Config) {lcl toLedger : UInt32} (count : UInt32)
    (started : 1 ≤ lcl.toNat) (ahead : lcl.toNat < toLedger.toNat) :
    (∃ range, CatchupRange.ofConfiguration lcl ⟨toLedger, count⟩ hm = .ok range ∧
      calculateCatchupRange lcl ⟨toLedger, count⟩ hm = .ok range ∧
      ExactRange lcl ⟨toLedger, count⟩ hm range) ∧
    ∀ ledger : UInt32, 1 ≤ ledger.toNat →
      (firstLedgerInCheckpointContaining ledger hm).toNat ≤ ledger.toNat ∧
      ledger.toNat ≤ (checkpointContainingLedger ledger hm).toNat ∧
      (checkpointContainingLedger ledger hm).toNat + 1 =
        (firstLedgerInCheckpointContaining ledger hm).toNat +
          (sizeOfCheckpointContaining ledger hm).toNat := by
  obtain ⟨range, calculated, exact⟩ : ∃ range,
      calculateCatchupRange lcl ⟨toLedger, count⟩ hm = .ok range ∧
        ExactRange lcl ⟨toLedger, count⟩ hm range :=
    calculateCatchupRange_isExact hm started ahead
  refine ⟨⟨range, ?_, calculated, exact⟩, fun ledger positive => checkpoint_bounds hm ledger positive⟩
  rw [ofConfiguration_eq, calculated]

theorem catchupRange_exact_fromGenesis :
    (1 ≤ (1 : UInt32).toNat ∧ (1 : UInt32).toNat < (100 : UInt32).toNat) ∧
      ∃ range, CatchupRange.ofConfiguration 1 ⟨100, 10⟩ ⟨false⟩ = .ok range ∧
        ExactRange 1 ⟨100, 10⟩ ⟨false⟩ range := by
  have started : 1 ≤ (1 : UInt32).toNat := by decide
  have ahead : (1 : UInt32).toNat < (100 : UInt32).toNat := by decide
  obtain ⟨⟨range, built, -, exact⟩, -⟩ := catchupRange_exact ⟨false⟩ 10 started ahead
  exact ⟨⟨started, ahead⟩, range, built, exact⟩

end StellarCore.Catchup
