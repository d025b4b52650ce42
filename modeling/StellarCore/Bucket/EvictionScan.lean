import StellarCore.Bucket.BucketList
import StellarCore.Bucket.LiveBucketList
import StellarCore.Lib.Cycle
import StellarCore.Lib.Except

/-!
# The eviction scan never keeps a stale offset, and cycles over the scanned buckets

A bucket of the list changes only where `addBatchInternal` spills: a level's `curr` when the
level above spills into it or the level itself spills, its `snap` when it spills. Since a
level that spills makes every level above it spill too, the single test of
`updateStartingEvictionIterator` on the level above covers both changes of a `curr`, and so
an iterator written before a batch never points into a changed bucket with a stale offset.

`updateEvictionIterAndRecordStats` moves the iterator along the cycle `scanBucket`: both
buckets of each level from the first scanned one down, then the last level's `curr`.
-/

set_option autoImplicit false

namespace StellarCore.Bucket

open Scp (uint32Max)

section Spill

variable {ledger level : Nat}

/-- Below the last level, a level spills at the multiples of its half. -/
theorem levelShouldSpill_iff (notLast : level < kNumLevels - 1) (fits : ledger ≤ uint32Max) :
    levelShouldSpill ledger level = true ↔ ledger % levelHalf level = 0 := by
  have inRange : level < kNumLevels := by omega
  have nested : levelHalf level ∣ levelSize level := ⟨2, by rw [levelSize_eq_two_mul, mul_comm]⟩
  have halfLe := Nat.mod_le ledger (levelHalf level)
  have sizeLe := Nat.mod_le ledger (levelSize level)
  rw [levelShouldSpill, if_neg (by omega), roundDown_levelHalf inRange fits,
    roundDown_levelSize inRange fits]
  simp only [Bool.or_eq_true, beq_iff_eq]
  constructor
  · rintro (aligned | aligned)
    · omega
    · exact AlignDown.mod_eq_zero_of_dvd nested (by omega)
  · intro aligned
    left
    omega

theorem levelShouldSpill_last (ledger : Nat) : levelShouldSpill ledger (kNumLevels - 1) = false := by
  simp [levelShouldSpill]

/-- A level that spills makes the level above it spill: each spill period divides the next. -/
theorem levelShouldSpill_of_succ (inRange : level + 1 < kNumLevels) (fits : ledger ≤ uint32Max)
    (spills : levelShouldSpill ledger (level + 1) = true) : levelShouldSpill ledger level = true := by
  by_cases last : level + 1 = kNumLevels - 1
  · rw [last, levelShouldSpill_last] at spills
    contradiction
  · have nested : levelHalf level ∣ levelHalf (level + 1) :=
      ⟨4, by rw [levelHalf_succ, levelSize_eq_two_mul]; ring⟩
    rw [levelShouldSpill_iff (by omega) fits] at spills ⊢
    exact AlignDown.mod_eq_zero_of_dvd nested spills

end Spill

section Frame

variable {B : Type} (empty : B) (merge : B → B → B) {currLedger : Nat}

theorem spillInto_eq (i : Nat) (levels : Nat → BucketLevel B) :
    spillInto empty merge currLedger i levels =
      .ok (if levelShouldSpill currLedger (i - 1) then
        Function.update (Function.update levels (i - 1) ((levels (i - 1)).snap empty).2) i
          { (levels i).commit with
            mNextCurr := some (merge
              (if shouldMergeWithEmptyCurr currLedger i then empty else (levels i).commit.mCurr)
              (levels (i - 1)).mCurr) }
      else levels) := by
  unfold spillInto
  split
  · simp only [BucketLevel.snap]
    rw [BucketLevel.prepare_of_clear empty merge (BucketLevel.commit_mNextCurr _)]
    rfl
  · rfl

/-- A turn of the loop replaces a `curr` only at the two levels of a spill. -/
theorem spillInto_mCurr {i : Nat} {levels levels' : Nat → BucketLevel B}
    (turn : spillInto empty merge currLedger i levels = .ok levels') (j : Nat) :
    (levels' j).mCurr = (levels j).mCurr ∨
      (levelShouldSpill currLedger (i - 1) = true ∧ (j = i ∨ j = i - 1)) := by
  rw [spillInto_eq, Except.ok.injEq] at turn
  subst turn
  by_cases spills : levelShouldSpill currLedger (i - 1) = true
  · by_cases touched : j = i ∨ j = i - 1
    · exact Or.inr ⟨spills, touched⟩
    · left
      rw [if_pos spills, Function.update_of_ne (by omega), Function.update_of_ne (by omega)]
  · left
    rw [if_neg spills]

/-- A turn of the loop replaces a `snap` only at the level that spills. -/
theorem spillInto_mSnap {i : Nat} {levels levels' : Nat → BucketLevel B}
    (turn : spillInto empty merge currLedger i levels = .ok levels') (j : Nat) :
    (levels' j).mSnap = (levels j).mSnap ∨ (levelShouldSpill currLedger (i - 1) = true ∧ j = i - 1) := by
  rw [spillInto_eq, Except.ok.injEq] at turn
  subst turn
  by_cases spills : levelShouldSpill currLedger (i - 1) = true
  · rw [if_pos spills]
    by_cases snapped : j = i - 1
    · by_cases same : j = i
      · -- Only at level 0 is `i - 1 = i`; the prepared level is written last and keeps `snap`.
        left
        rw [same, Function.update_self, BucketLevel.commit_mSnap]
      · exact Or.inr ⟨spills, snapped⟩
    · left
      by_cases same : j = i
      · rw [same, Function.update_self, BucketLevel.commit_mSnap]
      · rw [Function.update_of_ne same, Function.update_of_ne snapped]
  · left
    rw [if_neg spills]

/-- What every turn of the loop keeps, the loop keeps; by induction on the levels left. -/
theorem spillLevels_keeps (P : (Nat → BucketLevel B) → Prop) :
    ∀ i, (∀ k levels levels', 0 < k → k ≤ i →
        spillInto empty merge currLedger k levels = .ok levels' → P levels → P levels') →
      ∀ levels levels', spillLevels empty merge currLedger i levels = .ok levels' →
        P levels → P levels' := by
  intro i
  induction i with
  | zero =>
    intro _ levels levels' run kept
    rw [spillLevels, Except.pure_eq_ok, Except.ok.injEq] at run
    exact run ▸ kept
  | succ i ih =>
    intro turns levels levels' run kept
    rw [spillLevels] at run
    obtain ⟨middle, turned, rest⟩ := Except.bind_eq_ok_iff.1 run
    exact ih (fun k ls ls' pos le => turns k ls ls' pos (by omega)) middle levels' rest
      (turns (i + 1) levels middle (by omega) le_rfl turned kept)

/-- A batch that is added went through the whole loop, and then only level 0 changed. -/
theorem addBatchInternal_ok {batch : B} {levels levels' : Nat → BucketLevel B}
    (added : addBatchInternal empty merge currLedger batch levels = .ok levels') :
    ∃ spilled first, spillLevels empty merge currLedger (kNumLevels - 1) levels = .ok spilled ∧
      levels' = Function.update spilled 0 first := by
  have nonzero : currLedger ≠ 0 := by
    rintro rfl
    rw [addBatchInternal, if_pos rfl] at added
    cases added
  rw [addBatchInternal, if_neg nonzero] at added
  obtain ⟨spilled, looped, rest⟩ := Except.bind_eq_ok_iff.1 added
  obtain ⟨first, -, done⟩ := Except.bind_eq_ok_iff.1 rest
  rw [Except.pure_eq_ok, Except.ok.injEq] at done
  exact ⟨spilled, first.commit, looped, done.symm⟩

/-- A level's `curr` is replaced by a batch only when the level above it spills: its own
spill, which also replaces it, makes the level above spill too. -/
theorem addBatchInternal_mCurr (fits : currLedger ≤ uint32Max) {batch : B}
    {levels levels' : Nat → BucketLevel B}
    (added : addBatchInternal empty merge currLedger batch levels = .ok levels') {level : Nat}
    (inner : 0 < level) (quiet : levelShouldSpill currLedger (level - 1) = false) :
    (levels' level).mCurr = (levels level).mCurr := by
  obtain ⟨spilled, first, looped, rfl⟩ := addBatchInternal_ok empty merge added
  rw [Function.update_of_ne (by omega)]
  refine spillLevels_keeps empty merge (fun ls => (ls level).mCurr = (levels level).mCurr)
    (kNumLevels - 1) ?_ levels spilled looped rfl
  intro k ls ls' _ bounded turn kept
  rcases spillInto_mCurr empty merge turn level with same | ⟨spills, touched⟩
  · exact same.trans kept
  · rcases touched with rfl | rfl
    · rw [quiet] at spills
      contradiction
    · -- The level spilled itself, so the level above spilled too.
      have above := levelShouldSpill_of_succ (show k - 1 - 1 + 1 < kNumLevels by omega) fits
        (by rw [show k - 1 - 1 + 1 = k - 1 by omega]; exact spills)
      rw [quiet] at above
      contradiction

/-- A level's `snap` is replaced by a batch only when the level spills. -/
theorem addBatchInternal_mSnap {batch : B} {levels levels' : Nat → BucketLevel B}
    (added : addBatchInternal empty merge currLedger batch levels = .ok levels') {level : Nat}
    (inner : 0 < level) (quiet : levelShouldSpill currLedger level = false) :
    (levels' level).mSnap = (levels level).mSnap := by
  obtain ⟨spilled, first, looped, rfl⟩ := addBatchInternal_ok empty merge added
  rw [Function.update_of_ne (by omega)]
  refine spillLevels_keeps empty merge (fun ls => (ls level).mSnap = (levels level).mSnap)
    (kNumLevels - 1) ?_ levels spilled looped rfl
  intro k ls ls' _ _ turn kept
  rcases spillInto_mSnap empty merge turn level with same | ⟨spills, rfl⟩
  · exact same.trans kept
  · rw [quiet] at spills
    contradiction

end Frame

/-- The bucket an iterator points into. -/
def bucketAt {B : Type} (levels : Nat → BucketLevel B) (iter : EvictionIterator) : B :=
  if iter.isCurrBucket then (levels iter.bucketListLevel).mCurr
  else (levels iter.bucketListLevel).mSnap

section Starting

variable {firstScanLevel ledgerSeq : Nat} {iter : EvictionIterator}

/-- An iterator above the first scanned level starts over from its level. -/
theorem updateStartingEvictionIterator_reset (first : 0 < firstScanLevel)
    (below : iter.bucketListLevel < firstScanLevel) :
    updateStartingEvictionIterator iter firstScanLevel ledgerSeq = .ok ⟨firstScanLevel, true, 0⟩ := by
  unfold updateStartingEvictionIterator
  simp only [if_pos below, if_true, if_neg first.ne']
  split <;> rfl

/-- Otherwise it goes back to the start of its bucket when the bucket took a spill at the
previous ledger. -/
theorem updateStartingEvictionIterator_eq (first : 0 < firstScanLevel)
    (scanned : firstScanLevel ≤ iter.bucketListLevel) :
    updateStartingEvictionIterator iter firstScanLevel ledgerSeq =
      .ok (if (if iter.isCurrBucket then levelShouldSpill (ledgerSeq - 1) (iter.bucketListLevel - 1)
          else levelShouldSpill (ledgerSeq - 1) iter.bucketListLevel)
        then { iter with bucketFileOffset := 0 } else iter) := by
  unfold updateStartingEvictionIterator
  simp only [if_neg (Nat.not_lt.mpr scanned)]
  cases iter.isCurrBucket
  · simp only [Bool.false_eq_true, if_false]
    split <;> rfl
  · simp only [if_true, if_neg (show iter.bucketListLevel ≠ 0 by omega)]
    split <;> rfl

/-- The offset an iterator keeps after `updateStartingEvictionIterator` is one into a bucket
that no batch since it was written has replaced. -/
theorem updateStartingEvictionIterator_fresh {B : Type} (empty : B) (merge : B → B → B)
    {batch : B} {levels levels' : Nat → BucketLevel B} (fits : ledgerSeq - 1 ≤ uint32Max)
    (first : 0 < firstScanLevel)
    (added : addBatchInternal empty merge (ledgerSeq - 1) batch levels = .ok levels') :
    ∃ started, updateStartingEvictionIterator iter firstScanLevel ledgerSeq = .ok started ∧
      (bucketAt levels' iter ≠ bucketAt levels iter → started.bucketFileOffset = 0) := by
  by_cases below : iter.bucketListLevel < firstScanLevel
  · exact ⟨_, updateStartingEvictionIterator_reset first below, fun _ => rfl⟩
  · have scanned : firstScanLevel ≤ iter.bucketListLevel := by omega
    refine ⟨_, updateStartingEvictionIterator_eq first scanned, fun changed => ?_⟩
    unfold bucketAt at changed
    cases curr : iter.isCurrBucket
    · -- A `snap` changes only when its level spills.
      rw [curr] at changed
      simp only [Bool.false_eq_true, if_false] at changed ⊢
      by_cases spills : levelShouldSpill (ledgerSeq - 1) iter.bucketListLevel = true
      · rw [if_pos spills]
      · exact absurd (addBatchInternal_mSnap empty merge added (by omega)
          (Bool.eq_false_iff.mpr spills)) changed
    · -- A `curr` changes only when the level above spills.
      rw [curr] at changed
      simp only [if_true] at changed ⊢
      by_cases spills : levelShouldSpill (ledgerSeq - 1) (iter.bucketListLevel - 1) = true
      · rw [if_pos spills]
      · exact absurd (addBatchInternal_mCurr empty merge fits added (by omega)
          (Bool.eq_false_iff.mpr spills)) changed

end Starting

section Scan

/-- Where the scan from `firstScanLevel` stands at an iterator: the `curr` and `snap` of each
level in turn. -/
def scanIndex (firstScanLevel : Nat) (iter : EvictionIterator) : Nat :=
  2 * (iter.bucketListLevel - firstScanLevel) + if iter.isCurrBucket then 0 else 1

/-- How many buckets a cycle of the scan from `firstScanLevel` visits. -/
def scanLength (firstScanLevel : Nat) : Nat := 2 * (kNumLevels - firstScanLevel) - 1

/-- The `index`-th bucket of the scan's cycle, as its level and whether it is the `curr`: the
`curr` and `snap` of each level from `firstScanLevel` above the last, then the last `curr`. -/
def scanBucket (firstScanLevel index : Nat) : Nat × Bool :=
  if index < 2 * (kNumLevels - 1 - firstScanLevel) then
    (firstScanLevel + index / 2, index % 2 == 0)
  else (kNumLevels - 1, true)

/-- The iterators of a scan's cycle: a level from the first scanned one on, and never the
`snap` of the last level, which has none. -/
structure InScan (firstScanLevel : Nat) (iter : EvictionIterator) : Prop where
  from_first : firstScanLevel ≤ iter.bucketListLevel
  below_levels : iter.bucketListLevel < kNumLevels
  last_curr : iter.bucketListLevel = kNumLevels - 1 → iter.isCurrBucket = true

variable {firstScanLevel : Nat} {iter startIter : EvictionIterator}

/-- A `snap` of the cycle is never on the last level. -/
theorem InScan.snap_notLast (scan : InScan firstScanLevel iter) (snap : iter.isCurrBucket = false) :
    iter.bucketListLevel ≠ kNumLevels - 1 := by
  intro lastLevel
  have curr := scan.last_curr lastLevel
  rw [snap] at curr
  contradiction

theorem scanIndex_lt (scan : InScan firstScanLevel iter) :
    scanIndex firstScanLevel iter < scanLength firstScanLevel := by
  have from_first := scan.from_first
  have below := scan.below_levels
  unfold scanIndex scanLength
  cases curr : iter.isCurrBucket
  · have notLast := scan.snap_notLast curr
    simp only [Bool.false_eq_true, if_false]
    omega
  · simp only [if_true, Nat.add_zero]
    omega

theorem scanBucket_scanIndex (scan : InScan firstScanLevel iter) :
    scanBucket firstScanLevel (scanIndex firstScanLevel iter) = (iter.bucketListLevel, iter.isCurrBucket) := by
  have from_first := scan.from_first
  have below := scan.below_levels
  unfold scanBucket scanIndex
  cases curr : iter.isCurrBucket
  · have notLast := scan.snap_notLast curr
    simp only [Bool.false_eq_true, if_false]
    rw [if_pos (by omega), Prod.mk.injEq]
    constructor
    · omega
    · simp only [beq_eq_false_iff_ne, ne_eq]
      omega
  · simp only [if_true, Nat.add_zero]
    split_ifs with within
    · rw [Prod.mk.injEq]
      constructor
      · omega
      · simp only [beq_iff_eq]
        omega
    · rw [Prod.mk.injEq]
      exact ⟨by omega, rfl⟩

/-- Two iterators of the cycle stand at the same place exactly when they point at the same
bucket. -/
theorem scanIndex_eq_iff {other : EvictionIterator} (scan : InScan firstScanLevel iter)
    (otherScan : InScan firstScanLevel other) :
    scanIndex firstScanLevel iter = scanIndex firstScanLevel other ↔
      iter.bucketListLevel = other.bucketListLevel ∧ iter.isCurrBucket = other.isCurrBucket := by
  constructor
  · intro same
    have := congrArg (scanBucket firstScanLevel) same
    rw [scanBucket_scanIndex scan, scanBucket_scanIndex otherScan, Prod.mk.injEq] at this
    exact this
  · rintro ⟨level, curr⟩
    unfold scanIndex
    rw [level, curr]

/-- One step of the scan keeps the iterator in the cycle and moves it to the next bucket. -/
theorem updateEvictionIter_step (first : 0 < firstScanLevel) (scan : InScan firstScanLevel iter) :
    InScan firstScanLevel (updateEvictionIterAndRecordStats iter startIter firstScanLevel).1 ∧
      scanIndex firstScanLevel (updateEvictionIterAndRecordStats iter startIter firstScanLevel).1 =
        (scanIndex firstScanLevel iter + 1) % scanLength firstScanLevel := by
  have from_first := scan.from_first
  have below := scan.below_levels
  have last := scan.last_curr
  unfold updateEvictionIterAndRecordStats
  by_cases toSnap : iter.isCurrBucket = true ∧ iter.bucketListLevel ≠ kNumLevels - 1
  · -- From a level's `curr` to its `snap`.
    rw [if_pos toSnap]
    refine ⟨⟨from_first, below, fun lastLevel => absurd lastLevel toSnap.2⟩, ?_⟩
    unfold scanIndex scanLength
    simp only [toSnap.1, if_true, Bool.false_eq_true, if_false, Nat.add_zero]
    rw [Nat.mod_eq_of_lt (by omega)]
  · rw [if_neg toSnap]
    by_cases wraps : iter.bucketListLevel + 1 = kNumLevels
    · -- From the last level's `curr` back to the first scanned level.
      have curr : iter.isCurrBucket = true := last (by omega)
      simp only [wraps, if_true]
      refine ⟨⟨le_rfl, by simp only; omega, fun _ => rfl⟩, ?_⟩
      unfold scanIndex scanLength
      simp only [curr, if_true, Nat.sub_self, Nat.mul_zero, Nat.add_zero]
      rw [show 2 * (iter.bucketListLevel - firstScanLevel) + 1 = 2 * (kNumLevels - firstScanLevel) - 1 by
        omega, Nat.mod_self]
    · -- From a level's `snap` to the next level's `curr`.
      have snap : iter.isCurrBucket = false := by
        cases curr : iter.isCurrBucket
        · rfl
        · exact absurd ⟨curr, by omega⟩ toSnap
      simp only [wraps, if_false]
      refine ⟨⟨by simp only; omega, by simp only; omega, fun _ => rfl⟩, ?_⟩
      unfold scanIndex scanLength
      simp only [snap, if_true, Bool.false_eq_true, if_false, Nat.add_zero]
      rw [Nat.mod_eq_of_lt (by omega)]
      omega

/-- The flag returned is whether the scan is back at the bucket it started from. -/
theorem updateEvictionIter_flag :
    (updateEvictionIterAndRecordStats iter startIter firstScanLevel).2 = true ↔
      (updateEvictionIterAndRecordStats iter startIter firstScanLevel).1.bucketListLevel =
          startIter.bucketListLevel ∧
        (updateEvictionIterAndRecordStats iter startIter firstScanLevel).1.isCurrBucket =
          startIter.isCurrBucket := by
  unfold updateEvictionIterAndRecordStats
  simp only [Bool.and_eq_true, beq_iff_eq]

end Scan

end StellarCore.Bucket
