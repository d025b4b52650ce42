import StellarCore.Bucket.EvictionScan

/-!
# What one call of `addBatchInternal` does to every level

The loop of `addBatchInternal` walks the levels from the last one down, and each turn touches
only the level that spills and the one below it. `spilledUpTo` says what the turns `k .. 1`
leave at each level, read off the level's own spill and the spill of the level above it;
`spillLevels_eq` proves it by induction on the turns, and `addBatchInternal_eq` adds level 0.
`addBatches` runs the call for the ledgers `1 .. n` from a fresh bucket list.
-/

set_option autoImplicit false

namespace StellarCore.Bucket

section Spill

variable {B : Type} (empty : B) (merge : B → B → B)

/-- A level after the turns `k, k - 1, …, 1` of the loop of `addBatchInternal`: turn `j + 1`
snaps it when level `j` spills, and turn `j` commits it and starts its next merge when level
`j - 1` spills. -/
def spilledUpTo (currLedger k : Nat) (levels : Nat → BucketLevel B) (j : Nat) : BucketLevel B :=
  let level := levels j
  let snapped := j + 1 ≤ k ∧ levelShouldSpill currLedger j = true
  let curr := if snapped then empty else level.mCurr
  let snap := if snapped then level.mCurr else level.mSnap
  if 1 ≤ j ∧ j ≤ k ∧ levelShouldSpill currLedger (j - 1) = true then
    let committed := level.mNextCurr.getD curr
    { mCurr := committed, mSnap := snap,
      mNextCurr := some (merge (if shouldMergeWithEmptyCurr currLedger j then empty else committed)
        (levels (j - 1)).mCurr) }
  else { mCurr := curr, mSnap := snap, mNextCurr := level.mNextCurr }

theorem spilledUpTo_mSnap (currLedger k : Nat) (levels : Nat → BucketLevel B) (j : Nat) :
    (spilledUpTo empty merge currLedger k levels j).mSnap =
      if j + 1 ≤ k ∧ levelShouldSpill currLedger j = true then (levels j).mCurr else (levels j).mSnap := by
  unfold spilledUpTo
  dsimp only
  split_ifs <;> rfl

theorem spilledUpTo_mCurr (currLedger k : Nat) (levels : Nat → BucketLevel B) (j : Nat) :
    (spilledUpTo empty merge currLedger k levels j).mCurr =
      let curr := if j + 1 ≤ k ∧ levelShouldSpill currLedger j = true then empty else (levels j).mCurr
      if 1 ≤ j ∧ j ≤ k ∧ levelShouldSpill currLedger (j - 1) = true then (levels j).mNextCurr.getD curr
      else curr := by
  unfold spilledUpTo
  dsimp only
  split_ifs <;> rfl

theorem spilledUpTo_mNextCurr (currLedger k : Nat) (levels : Nat → BucketLevel B) (j : Nat) :
    (spilledUpTo empty merge currLedger k levels j).mNextCurr =
      if 1 ≤ j ∧ j ≤ k ∧ levelShouldSpill currLedger (j - 1) = true then
        some (merge (if shouldMergeWithEmptyCurr currLedger j then empty
          else (spilledUpTo empty merge currLedger k levels j).mCurr) (levels (j - 1)).mCurr)
      else (levels j).mNextCurr := by
  unfold spilledUpTo
  dsimp only
  split_ifs <;> rfl

theorem spilledUpTo_zero (currLedger : Nat) (levels : Nat → BucketLevel B) :
    spilledUpTo empty merge currLedger 0 levels = levels := by
  funext j
  simp only [spilledUpTo]
  rw [if_neg (by omega), if_neg (by omega), if_neg (by omega)]

theorem commit_eq (level : BucketLevel B) :
    level.commit = { level with mCurr := level.mNextCurr.getD level.mCurr, mNextCurr := none } := by
  obtain ⟨curr, snap, next⟩ := level
  cases next <;> rfl

theorem spilledUpTo_succ (currLedger k : Nat) (levels : Nat → BucketLevel B) :
    spilledUpTo empty merge currLedger k (if levelShouldSpill currLedger k then
        Function.update (Function.update levels k ((levels k).snap empty).2) (k + 1)
          { (levels (k + 1)).commit with
            mNextCurr := some (merge (if shouldMergeWithEmptyCurr currLedger (k + 1) then empty
              else (levels (k + 1)).commit.mCurr) (levels k).mCurr) }
        else levels) = spilledUpTo empty merge currLedger (k + 1) levels := by
  funext j
  by_cases spills : levelShouldSpill currLedger k = true
  · rw [if_pos spills]
    rcases Nat.lt_trichotomy j k with below | rfl | above
    · simp [spilledUpTo, show j ≠ k by omega, show j ≠ k + 1 by omega,
        show j - 1 ≠ k by omega, show j - 1 ≠ k + 1 by omega, show j + 1 ≤ k by omega,
        show j ≤ k by omega, show j ≤ k + 1 by omega]
    · cases j with
      | zero => simp [spilledUpTo, spills, BucketLevel.snap]
      | succ j => simp [spilledUpTo, spills, BucketLevel.snap,
          show j ≠ j + 1 + 1 by omega]
    · rcases Nat.lt_or_ge (k + 1) j with far | next
      · simp [spilledUpTo, show j ≠ k by omega, show j ≠ k + 1 by omega, show ¬ j ≤ k by omega,
          show ¬ j ≤ k + 1 by omega, show ¬ j + 1 ≤ k by omega, show ¬ j + 1 ≤ k + 1 by omega]
      · obtain rfl : j = k + 1 := by omega
        simp [spilledUpTo, spills, commit_eq, show ¬ k + 1 + 1 ≤ k by omega]
  · -- Without the spill of level `k`, turn `k + 1` changes nothing, and neither does the
    -- condition of either turn that names it.
    rw [if_neg spills]
    have snapped : (j + 1 ≤ k ∧ levelShouldSpill currLedger j = true) ↔
        (j + 1 ≤ k + 1 ∧ levelShouldSpill currLedger j = true) :=
      and_congr_left fun spill => ⟨fun _ => by omega, fun _ => by
        by_contra early
        exact spills (show j = k by omega ▸ spill)⟩
    have committed : (1 ≤ j ∧ j ≤ k ∧ levelShouldSpill currLedger (j - 1) = true) ↔
        (1 ≤ j ∧ j ≤ k + 1 ∧ levelShouldSpill currLedger (j - 1) = true) :=
      and_congr_right fun _ => and_congr_left fun spill => ⟨fun _ => by omega, fun _ => by
        by_contra late
        exact spills (show j - 1 = k by omega ▸ spill)⟩
    simp only [spilledUpTo, snapped, committed]

/-- The loop of `addBatchInternal` from turn `k` down, in closed form: it never fails, since
every level it prepares has just committed. -/
theorem spillLevels_eq (currLedger k : Nat) (levels : Nat → BucketLevel B) :
    spillLevels empty merge currLedger k levels = .ok (spilledUpTo empty merge currLedger k levels) := by
  induction k generalizing levels with
  | zero => rw [spillLevels, spilledUpTo_zero]; rfl
  | succ k ih =>
    rw [spillLevels, spillInto_eq, Nat.add_sub_cancel, Except.ok_bind, ih, spilledUpTo_succ]

/-- `addBatchInternal` in closed form, when level 0 has no merge pending: the loop, then level 0
merges the batch into its `curr` at once. -/
theorem addBatchInternal_eq {currLedger : Nat} (nonzero : currLedger ≠ 0) (batch : B)
    {levels : Nat → BucketLevel B} (clear : (levels 0).mNextCurr = none) :
    addBatchInternal empty merge currLedger batch levels =
      .ok (Function.update (spilledUpTo empty merge currLedger (kNumLevels - 1) levels) 0
        { spilledUpTo empty merge currLedger (kNumLevels - 1) levels 0 with
          mCurr := merge (spilledUpTo empty merge currLedger (kNumLevels - 1) levels 0).mCurr batch }) := by
  have first : (spilledUpTo empty merge currLedger (kNumLevels - 1) levels 0).mNextCurr = none := by
    simp [spilledUpTo, clear]
  rw [addBatchInternal, if_neg nonzero, spillLevels_eq, Except.ok_bind, BucketLevel.prepareFirstLevel,
    BucketLevel.prepare_of_clear empty merge first, Except.ok_bind]
  simp [shouldMergeWithEmptyCurr, commit_eq, first]

end Spill

/-- `BucketLevel(i)`: both buckets empty and no merge. -/
def BucketLevel.fresh {B : Type} (empty : B) : BucketLevel B := ⟨empty, empty, none⟩

section Run

variable {B : Type} (empty : B) (merge : B → B → B)

/-- The bucket list of `BucketListBase()`, every level fresh, after the batches of ledgers
`1 .. n` are added in turn. -/
def addBatches (batch : Nat → B) : Nat → Except String (Nat → BucketLevel B)
  | 0 => pure fun _ => BucketLevel.fresh empty
  | n + 1 => do
    let levels ← addBatches batch n
    addBatchInternal empty merge (n + 1) (batch (n + 1)) levels

end Run

end StellarCore.Bucket
