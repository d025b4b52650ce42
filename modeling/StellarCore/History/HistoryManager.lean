import Mathlib.Tactic.NormNum

/-!
# Checkpoint arithmetic of `HistoryManager`

History is published in checkpoints of `getCheckpointFrequency` ledgers, each named by its last
ledger, one before a multiple of the frequency. Ledger `0` does not exist, so the first
checkpoint is one ledger short. The helpers compute in `uint32_t`: for the ledgers of the last
checkpoint below `2^32` the product `((ledger / freq) + 1) * freq` wraps to `0`, and taking one
away wraps it back to `UINT32_MAX`, its last ledger. Since both frequencies divide `2^32`, every
helper returns the exact value of its `Nat` reading.
-/

set_option autoImplicit false

namespace StellarCore.History

/-- The part of `Config` the checkpoint helpers read. -/
structure Config where
  ARTIFICIALLY_ACCELERATE_TIME_FOR_TESTING : Bool

/-- `HistoryManager::getCheckpointFrequency`. -/
def getCheckpointFrequency (cfg : Config) : UInt32 :=
  if cfg.ARTIFICIALLY_ACCELERATE_TIME_FOR_TESTING then 8 else 64

/-- `HistoryManager::checkpointContainingLedger`: the last ledger of the checkpoint. -/
def checkpointContainingLedger (ledger : UInt32) (cfg : Config) : UInt32 :=
  let freq := getCheckpointFrequency cfg
  (ledger / freq + 1) * freq - 1

/-- `HistoryManager::isLastLedgerInCheckpoint`. -/
def isLastLedgerInCheckpoint (ledger : UInt32) (cfg : Config) : Bool :=
  checkpointContainingLedger ledger cfg == ledger

/-- `HistoryManager::sizeOfCheckpointContaining`. -/
def sizeOfCheckpointContaining (ledger : UInt32) (cfg : Config) : UInt32 :=
  let freq := getCheckpointFrequency cfg
  if ledger < freq then freq - 1 else freq

/-- `HistoryManager::firstLedgerInCheckpointContaining`. -/
def firstLedgerInCheckpointContaining (ledger : UInt32) (cfg : Config) : UInt32 :=
  let last := checkpointContainingLedger ledger cfg
  let size := sizeOfCheckpointContaining ledger cfg
  last - (size - 1)

/-- `HistoryManager::lastLedgerBeforeCheckpointContaining`. -/
def lastLedgerBeforeCheckpointContaining (ledger : UInt32) (cfg : Config) : Except String UInt32 :=
  let last := checkpointContainingLedger ledger cfg
  let size := sizeOfCheckpointContaining ledger cfg
  if last ≥ size then .ok (last - size) else .error "releaseAssert(last >= size)"

theorem getCheckpointFrequency_cases (cfg : Config) :
    (getCheckpointFrequency cfg).toNat = 8 ∨ (getCheckpointFrequency cfg).toNat = 64 := by
  unfold getCheckpointFrequency
  cases cfg.ARTIFICIALLY_ACCELERATE_TIME_FOR_TESTING with
  | true => exact .inl rfl
  | false => exact .inr rfl

section Frequency

variable (cfg : Config) (ledger : UInt32)

/-- The wrap of `((ledger / freq) + 1) * freq` at `2^32` is undone by taking one away. -/
theorem checkpointContainingLedger_toNat :
    (checkpointContainingLedger ledger cfg).toNat =
      (ledger.toNat / (getCheckpointFrequency cfg).toNat + 1) * (getCheckpointFrequency cfg).toNat - 1 := by
  have bounded := ledger.toNat_lt
  unfold checkpointContainingLedger
  simp only [UInt32.toNat_sub, UInt32.toNat_mul, UInt32.toNat_add, UInt32.toNat_div, UInt32.toNat_one]
  rcases getCheckpointFrequency_cases cfg with freq | freq <;> rw [freq] <;> omega

theorem sizeOfCheckpointContaining_toNat :
    (sizeOfCheckpointContaining ledger cfg).toNat =
      if ledger.toNat < (getCheckpointFrequency cfg).toNat then (getCheckpointFrequency cfg).toNat - 1
      else (getCheckpointFrequency cfg).toNat := by
  have atLeastOne : 1 ≤ getCheckpointFrequency cfg := by
    rw [UInt32.le_iff_toNat_le]
    rcases getCheckpointFrequency_cases cfg with freq | freq <;> rw [freq] <;> decide
  unfold sizeOfCheckpointContaining
  dsimp only
  rw [apply_ite UInt32.toNat, UInt32.toNat_sub_of_le _ _ atLeastOne, UInt32.toNat_one]
  exact if_congr UInt32.lt_iff_toNat_lt rfl rfl

/-- The first ledger of a checkpoint is `1` for the first one and a multiple of the frequency
after. -/
theorem firstLedgerInCheckpointContaining_toNat :
    (firstLedgerInCheckpointContaining ledger cfg).toNat =
      if ledger.toNat < (getCheckpointFrequency cfg).toNat then 1
      else ledger.toNat / (getCheckpointFrequency cfg).toNat * (getCheckpointFrequency cfg).toNat := by
  have bounded := ledger.toNat_lt
  have last := checkpointContainingLedger_toNat cfg ledger
  have size := sizeOfCheckpointContaining_toNat cfg ledger
  unfold firstLedgerInCheckpointContaining
  simp only [UInt32.toNat_sub, UInt32.toNat_one]
  rcases getCheckpointFrequency_cases cfg with freq | freq <;> rw [freq] at last size ⊢ <;>
    split_ifs at size ⊢ <;> omega

/-- `lastLedgerBeforeCheckpointContaining` never trips its assertion: it is one before the first
ledger of the checkpoint. -/
theorem lastLedgerBeforeCheckpointContaining_eq :
    lastLedgerBeforeCheckpointContaining ledger cfg =
      .ok (firstLedgerInCheckpointContaining ledger cfg - 1) := by
  have bounded := ledger.toNat_lt
  have last := checkpointContainingLedger_toNat cfg ledger
  have size := sizeOfCheckpointContaining_toNat cfg ledger
  have first := firstLedgerInCheckpointContaining_toNat cfg ledger
  unfold lastLedgerBeforeCheckpointContaining
  have covers : sizeOfCheckpointContaining ledger cfg ≤ checkpointContainingLedger ledger cfg := by
    rw [UInt32.le_iff_toNat_le]
    rcases getCheckpointFrequency_cases cfg with freq | freq <;> rw [freq] at last size <;>
      split_ifs at size <;> omega
  rw [if_pos covers]
  congr 1
  apply UInt32.toNat_inj.mp
  simp only [UInt32.toNat_sub, UInt32.toNat_one] at first ⊢
  rcases getCheckpointFrequency_cases cfg with freq | freq <;> rw [freq] at last size first <;>
    split_ifs at size first <;> omega

theorem isLastLedgerInCheckpoint_iff :
    isLastLedgerInCheckpoint ledger cfg = true ↔
      (ledger.toNat + 1) % (getCheckpointFrequency cfg).toNat = 0 := by
  have last := checkpointContainingLedger_toNat cfg ledger
  unfold isLastLedgerInCheckpoint
  rw [beq_iff_eq, ← UInt32.toNat_inj, last]
  rcases getCheckpointFrequency_cases cfg with freq | freq <;> rw [freq] <;> omega

/-- Every ledger lies in the checkpoint the helpers name, between its first and its last ledger,
and the checkpoint holds `sizeOfCheckpointContaining` ledgers. -/
theorem checkpoint_bounds (positive : 1 ≤ ledger.toNat) :
    (firstLedgerInCheckpointContaining ledger cfg).toNat ≤ ledger.toNat ∧
      ledger.toNat ≤ (checkpointContainingLedger ledger cfg).toNat ∧
      (checkpointContainingLedger ledger cfg).toNat + 1 =
        (firstLedgerInCheckpointContaining ledger cfg).toNat +
          (sizeOfCheckpointContaining ledger cfg).toNat := by
  rw [firstLedgerInCheckpointContaining_toNat, checkpointContainingLedger_toNat,
    sizeOfCheckpointContaining_toNat]
  rcases getCheckpointFrequency_cases cfg with freq | freq <;> rw [freq] <;> split_ifs <;> omega

end Frequency

end StellarCore.History
