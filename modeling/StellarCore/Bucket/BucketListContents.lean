import StellarCore.Bucket.AddBatch
import StellarCore.Bucket.BucketListSizes
import Mathlib.Order.Interval.Multiset
import Mathlib.Order.Interval.Finset.Nat
import Mathlib.Algebra.BigOperators.Group.Finset.Basic

/-!
# The buckets hold the ledgers the size functions say

Run `addBatchInternal` with buckets that record the ledgers they hold: a bucket is a multiset
of ledger numbers, the empty bucket is empty, a merge adds up, and the batch of ledger `n` is
`{n}`. Then after the ledgers `1 .. n` each level's `curr` and `snap` hold exactly the runs of
ledgers that `BucketListSizes` bounds (`Holds`), and so the runs that `sizeOfCurr`,
`sizeOfSnap` and the `oldestLedgerIn*` functions of the source describe: the two halves of
`BucketListBase` agree, and no ledger is lost or held twice.

The induction carries the pending merges too. The merge a level starts when the level above
it spills is what its `curr` will be at the next such spill (`Pending`), so committing it
then lands on the bounds of that ledger. One ledger is one `addBatchInternal`, taken level by
level through its closed form `spilledUpTo`.
-/

set_option autoImplicit false

namespace StellarCore.Bucket

open Scp (uint32Max)

/-- A level below the last spills at the multiples of its half. -/
def SpillsAt (ledger level : Nat) : Prop := level < kNumLevels - 1 ∧ ledger % levelHalf level = 0

theorem levelShouldSpill_iff_spillsAt {ledger level : Nat} (fits : ledger ≤ uint32Max)
    (inRange : level < kNumLevels) : levelShouldSpill ledger level = true ↔ SpillsAt ledger level := by
  by_cases last : level = kNumLevels - 1
  · rw [last, levelShouldSpill_last]
    simp [SpillsAt]
  · rw [levelShouldSpill_iff (by omega) fits]
    exact ⟨fun aligned => ⟨by omega, aligned⟩, And.right⟩

section Held

variable {n level : Nat}

theorem steadyThroughCurr_pos (level : Nat) : 0 < steadyThroughCurr level := by
  cases level with
  | zero => simp [steadyThroughCurr_zero]
  | succ level => simp [steadyThroughCurr_succ, levelHalf_pos]

theorem levelHalf_succ_eq (level : Nat) : levelHalf (level + 1) = 4 * levelHalf level := by
  rw [levelHalf_succ, levelSize_eq_two_mul]
  ring

theorem levelHalf_dvd_succ (level : Nat) : levelHalf level ∣ levelHalf (level + 1) :=
  ⟨4, by rw [levelHalf_succ_eq, Nat.mul_comm]⟩

theorem SpillsAt.of_succ {ledger : Nat} (spills : SpillsAt ledger (level + 1)) : SpillsAt ledger level :=
  ⟨by have := spills.1; omega, AlignDown.mod_eq_zero_of_dvd (levelHalf_dvd_succ level) spills.2⟩

theorem heldThroughCurr_last (v : Nat) : heldThroughCurr v (kNumLevels - 1) = v := by
  simp [heldThroughCurr]

/-- Off a spill of `level`, the oldest ledger of its `curr` stays where it was. -/
theorem sub_heldThroughCurr_succ (quiet : ¬ SpillsAt (n + 1) level) :
    n + 1 - heldThroughCurr (n + 1) level = n - heldThroughCurr n level := by
  unfold heldThroughCurr
  split_ifs with notLast
  · exact AlignDown.succ_sub_min_add_mod (fun aligned => quiet ⟨notLast, aligned⟩) _
  · omega

theorem sub_heldThroughSnap_succ (quiet : ¬ SpillsAt (n + 1) level) :
    n + 1 - heldThroughSnap (n + 1) level = n - heldThroughSnap n level := by
  unfold heldThroughSnap
  split_ifs with notLast
  · exact AlignDown.succ_sub_min_add_mod (fun aligned => quiet ⟨notLast, aligned⟩) _
  · omega

theorem heldThroughCurr_of_spillsAt {v : Nat} (spills : SpillsAt v level) :
    heldThroughCurr v level = min v (steadyThroughCurr level) := by
  rw [heldThroughCurr, if_pos spills.1, spills.2, Nat.add_zero]

theorem heldThroughSnap_of_spillsAt {v : Nat} (spills : SpillsAt v level) :
    heldThroughSnap v level = min v (steadyThroughCurr level + levelHalf level) := by
  rw [heldThroughSnap, if_pos spills.1, spills.2, Nat.add_zero]

/-- Just before a spill of `level`, its `curr` has taken in all but one ledger of the spill. -/
theorem heldThroughCurr_of_succ_spillsAt (spills : SpillsAt (n + 1) level) :
    heldThroughCurr n level = min n (steadyThroughCurr level + levelHalf level - 1) := by
  have := levelHalf_pos level
  rw [heldThroughCurr, if_pos spills.1, AlignDown.mod_of_succ_aligned (levelHalf_pos level) spills.2]
  omega

theorem heldThroughSnap_of_succ_spillsAt (spills : SpillsAt (n + 1) level) :
    heldThroughSnap n level = min n (steadyThroughCurr level + 2 * levelHalf level - 1) := by
  have := levelHalf_pos level
  rw [heldThroughSnap, if_pos spills.1, AlignDown.mod_of_succ_aligned (levelHalf_pos level) spills.2]
  omega

/-- Just before a spill of `level`, the levels above it hold all their steady ledgers but one. -/
theorem heldBelow_of_succ_spillsAt (spills : SpillsAt (n + 1) level) :
    heldBelow n level = min n (steadyThroughCurr level - 1) := by
  cases level with
  | zero => simp [heldBelow_zero, steadyThroughCurr_zero]
  | succ level =>
    rw [heldBelow_succ, heldThroughSnap_of_succ_spillsAt spills.of_succ, steadyThroughCurr_succ]

end Held

/-! ## The ledgers each bucket holds -/

/-- Two runs of ledgers that meet make one. -/
theorem Ico_add_Ico {a b b' c : Nat} (meet : b = b') (first : a ≤ b) (second : b' ≤ c) :
    Multiset.Ico a b + Multiset.Ico b' c = Multiset.Ico a c := by
  subst meet
  exact Multiset.Ico_add_Ico_eq_Ico first second

/-- The ledgers a level's `curr` holds after ledger `n`, oldest first. -/
def currLedgers (n level : Nat) : Multiset Nat :=
  Multiset.Ico (n - heldThroughCurr n level + 1) (n - heldBelow n level + 1)

def snapLedgers (n level : Nat) : Multiset Nat :=
  Multiset.Ico (n - heldThroughSnap n level + 1) (n - heldThroughCurr n level + 1)

/-- The first ledger after `n` at which `level` spills. -/
def nextSpill (n level : Nat) : Nat := n - n % levelHalf level + levelHalf level

/-- The merge pending at a level after ledger `n`: none before the level above it first
spills, and otherwise the `curr` the level will have at that level's next spill, as far as
that ledger is a `uint32_t`. -/
def Pending (n : Nat) : Nat → Option (Multiset Nat) → Prop
  | 0, next => next = none
  | level + 1, next =>
    if n < levelHalf level then next = none
    else nextSpill n level ≤ uint32Max → next = some (currLedgers (nextSpill n level) (level + 1))

/-- The bucket list after ledger `n`, with buckets that record the ledgers they hold. -/
structure Holds (n : Nat) (levels : Nat → BucketLevel (Multiset Nat)) : Prop where
  curr : ∀ level < kNumLevels, (levels level).mCurr = currLedgers n level
  snap : ∀ level < kNumLevels, (levels level).mSnap = snapLedgers n level
  next : ∀ level < kNumLevels, Pending n level (levels level).mNextCurr

theorem holds_fresh : Holds 0 fun _ => BucketLevel.fresh 0 := by
  refine ⟨fun level _ => ?_, fun level _ => ?_, fun level _ => ?_⟩
  · simp [BucketLevel.fresh, currLedgers]
  · simp [BucketLevel.fresh, snapLedgers]
  · cases level with
    | zero => rfl
    | succ level => simp [Pending, BucketLevel.fresh, levelHalf_pos]

section Step

variable {n level : Nat}

theorem snapLedgers_succ_of_quiet (quiet : ¬ SpillsAt (n + 1) level) :
    snapLedgers (n + 1) level = snapLedgers n level := by
  rw [snapLedgers, snapLedgers, sub_heldThroughSnap_succ quiet, sub_heldThroughCurr_succ quiet]

theorem currLedgers_succ_of_quiet (quiet : ¬ SpillsAt (n + 1) level) :
    currLedgers (n + 1) (level + 1) = currLedgers n (level + 1) := by
  simp only [currLedgers, heldBelow_succ]
  rw [sub_heldThroughSnap_succ quiet, sub_heldThroughCurr_succ fun spills => quiet spills.of_succ]

theorem pending_succ_of_quiet (quiet : ¬ SpillsAt (n + 1) level) (notLast : level < kNumLevels - 1)
    {next : Option (Multiset Nat)} (pending : Pending n (level + 1) next) :
    Pending (n + 1) (level + 1) next := by
  have unaligned : (n + 1) % levelHalf level ≠ 0 := fun aligned => quiet ⟨notLast, aligned⟩
  have step := AlignDown.pred_mod_of_mod_ne_zero unaligned
  rw [Nat.add_sub_cancel] at step
  have same : nextSpill (n + 1) level = nextSpill n level := by
    unfold nextSpill
    omega
  have early : n + 1 < levelHalf level ↔ n < levelHalf level := by
    refine ⟨fun _ => by omega, fun below => ?_⟩
    by_contra late
    exact unaligned (by rw [show n + 1 = levelHalf level by omega, Nat.mod_self])
  simp only [Pending] at pending ⊢
  rw [same]
  simp only [early]
  exact pending

/-- At a spill of `level`, the merge pending at the level below becomes its `curr`; before the
first spill there is none, and the `curr` left in place holds nothing either way. -/
theorem committed_eq (fits : n + 1 ≤ uint32Max) (spills : SpillsAt (n + 1) level)
    {next : Option (Multiset Nat)} (pending : Pending n (level + 1) next) {curr : Multiset Nat}
    (early : n < levelHalf level → curr = currLedgers n (level + 1)) :
    next.getD curr = currLedgers (n + 1) (level + 1) := by
  have previous := AlignDown.mod_of_succ_aligned (levelHalf_pos level) spills.2
  simp only [Pending] at pending
  split_ifs at pending with below
  · have first : n + 1 = levelHalf level := by
      by_contra later
      have aligned := spills.2
      rw [Nat.mod_eq_of_lt (by omega)] at aligned
      omega
    have oldSnap : heldThroughSnap n level = n :=
      heldThroughSnap_of_below (by rw [levelSize_eq_two_mul]; omega)
    have newSnap := heldThroughSnap_of_spillsAt spills
    have oldBound := heldThroughCurr_le n (level + 1)
    have newBound := heldThroughCurr_le (n + 1) (level + 1)
    have oldHolds := heldBelow_le_heldThroughCurr n (level + 1)
    have newHolds := heldBelow_le_heldThroughCurr (n + 1) (level + 1)
    simp only [heldBelow_succ] at oldHolds newHolds
    rw [pending, Option.getD_none, early below, currLedgers, currLedgers, heldBelow_succ, heldBelow_succ]
    congr 1 <;> omega
  · have spill : nextSpill n level = n + 1 := by
      have := levelHalf_pos level
      unfold nextSpill
      omega
    rw [spill] at pending
    rw [pending fits]
    rfl

/-- At a spill of `level + 1`, the `curr` it had becomes its `snap`. -/
theorem currLedgers_eq_snapLedgers (spills : SpillsAt (n + 1) (level + 1)) :
    currLedgers n (level + 1) = snapLedgers (n + 1) (level + 1) := by
  have := levelHalf_pos level
  rw [currLedgers, snapLedgers, heldBelow, heldThroughCurr_of_succ_spillsAt spills,
    heldThroughSnap_of_succ_spillsAt spills.of_succ, heldThroughSnap_of_spillsAt spills,
    heldThroughCurr_of_spillsAt spills, steadyThroughCurr, levelHalf_succ_eq]
  congr 1 <;> omega

/-- At a spill of `level`, the merge started at the level below is its `curr`, or nothing when
that `curr` snaps first, with the `curr` of `level`: what the level below will hold at the
next spill of `level`. -/
theorem pending_merge (inRange : level + 1 < kNumLevels) (spills : SpillsAt (n + 1) level) :
    Pending (n + 1) (level + 1)
      (some ((if shouldMergeWithEmptyCurr (n + 1) (level + 1) then 0 else currLedgers (n + 1) (level + 1)) +
        currLedgers n level)) := by
  have halfPos := levelHalf_pos level
  have steadyPos := steadyThroughCurr_pos level
  have started : ¬ n + 1 < levelHalf level := fun below => by
    have aligned := spills.2
    rw [Nat.mod_eq_of_lt below] at aligned
    omega
  simp only [Pending]
  rw [if_neg started]
  intro spillFits
  have spill : nextSpill (n + 1) level = n + 1 + levelHalf level := by
    unfold nextSpill
    rw [spills.2, Nat.sub_zero]
  rw [spill] at spillFits ⊢
  have nextSpills : SpillsAt (n + 1 + levelHalf level) level :=
    ⟨spills.1, by rw [Nat.add_mod_right, spills.2]⟩
  have empty : shouldMergeWithEmptyCurr (n + 1) (level + 1) = true ↔
      SpillsAt (n + 1 + levelHalf level) (level + 1) := by
    have aligned : roundDown (n + 1) (levelHalf level) = n + 1 := by
      rw [roundDown_levelHalf (by omega) (by omega), spills.2, Nat.sub_zero]
    rw [shouldMergeWithEmptyCurr, if_pos (Nat.succ_ne_zero level)]
    simp only [Nat.add_sub_cancel, aligned]
    exact levelShouldSpill_iff_spillsAt spillFits inRange
  have below : currLedgers n level = Multiset.Ico (n - min n (steadyThroughCurr level + levelHalf level - 1) + 1)
      (n - min n (steadyThroughCurr level - 1) + 1) := by
    rw [currLedgers, heldThroughCurr_of_succ_spillsAt spills, heldBelow_of_succ_spillsAt spills]
  have ordered := heldBelow_le_heldThroughCurr (n + 1) (level + 1)
  have currBelow : heldBelow (n + 1) (level + 1) = min (n + 1) (steadyThroughCurr level + levelHalf level) :=
    heldThroughSnap_of_spillsAt spills
  rw [Option.some.injEq, below]
  unfold currLedgers
  rw [show heldBelow (n + 1 + levelHalf level) (level + 1) = _ from heldThroughSnap_of_spillsAt nextSpills,
    currBelow]
  rw [currBelow] at ordered
  split_ifs with merged
  · rw [zero_add, heldThroughCurr_of_spillsAt (empty.mp merged), steadyThroughCurr_succ]
    congr 1 <;> omega
  · rw [Ico_add_Ico (by omega) (by omega) (by omega)]
    congr 1
    · by_cases last : level + 1 = kNumLevels - 1
      · rw [last, heldThroughCurr_last, heldThroughCurr_last]
        omega
      · -- Neither spill empties the level below, so its `curr` moves on by half the level above.
        have unaligned : (n + 1 + levelHalf level) % levelHalf (level + 1) ≠ 0 := fun aligned =>
          merged (empty.mpr ⟨by omega, aligned⟩)
        rw [heldThroughCurr, heldThroughCurr, if_pos (by omega), if_pos (by omega),
          AlignDown.add_mod_of_dvd (levelHalf_dvd_succ level) spills.2 unaligned]
        omega
    · omega

variable {levels : Nat → BucketLevel (Multiset Nat)}

theorem levelHalf_zero : levelHalf 0 = 2 := rfl

/-- Level 0 after the loop and the batch of ledger `n + 1`. -/
theorem spilled_zero_holds (holds : Holds n levels) (fits : n + 1 ≤ uint32Max) :
    let spilled := spilledUpTo (0 : Multiset Nat) (· + ·) (n + 1) (kNumLevels - 1) levels 0
    spilled.mCurr + {n + 1} = currLedgers (n + 1) 0 ∧ spilled.mSnap = snapLedgers (n + 1) 0 ∧
      spilled.mNextCurr = none := by
  intro spilled
  have spillIff := levelShouldSpill_iff_spillsAt fits (show 0 < kNumLevels by decide)
  have mCurr := spilledUpTo_mCurr 0 (· + ·) (n + 1) (kNumLevels - 1) levels 0
  have mSnap := spilledUpTo_mSnap 0 (· + ·) (n + 1) (kNumLevels - 1) levels 0
  have mNext := spilledUpTo_mNextCurr 0 (· + ·) (n + 1) (kNumLevels - 1) levels 0
  have batch : ({n + 1} : Multiset Nat) = Multiset.Ico (n + 1) (n + 1 + 1) := by
    rw [Multiset.Ico, Nat.Ico_succ_singleton, Finset.singleton_val]
  have lone : heldBelow (n + 1) 0 = 0 := rfl
  dsimp only at mCurr
  rw [if_neg (by omega)] at mCurr mNext
  refine ⟨?_, ?_, mNext.trans (holds.next 0 (by decide))⟩
  · rw [mCurr, batch]
    split_ifs with spills
    · rw [zero_add, currLedgers, lone, heldThroughCurr_of_spillsAt (spillIff.mp spills.2)]
      congr 1
      simp [steadyThroughCurr_zero]
    · have quiet : ¬ SpillsAt (n + 1) 0 := fun q => spills ⟨by decide, spillIff.mpr q⟩
      rw [holds.curr 0 (by decide), currLedgers, currLedgers, lone, heldBelow,
        Ico_add_Ico (by omega) (by omega) (by omega), sub_heldThroughCurr_succ quiet, Nat.sub_zero]
  · rw [mSnap]
    split_ifs with spills
    · have aligned := spillIff.mp spills.2
      rw [holds.curr 0 (by decide), currLedgers, snapLedgers, heldBelow,
        heldThroughCurr_of_succ_spillsAt aligned, heldThroughSnap_of_spillsAt aligned,
        heldThroughCurr_of_spillsAt aligned, levelHalf_zero, steadyThroughCurr]
      congr 1 <;> omega
    · have quiet : ¬ SpillsAt (n + 1) 0 := fun q => spills ⟨by decide, spillIff.mpr q⟩
      rw [holds.snap 0 (by decide), snapLedgers_succ_of_quiet quiet]

/-- A level above 0 after the loop of ledger `n + 1`: it moves only when the level above it
spills. -/
theorem spilled_succ_holds (holds : Holds n levels) (fits : n + 1 ≤ uint32Max)
    (inRange : level + 1 < kNumLevels) :
    let spilled := spilledUpTo (0 : Multiset Nat) (· + ·) (n + 1) (kNumLevels - 1) levels (level + 1)
    spilled.mCurr = currLedgers (n + 1) (level + 1) ∧ spilled.mSnap = snapLedgers (n + 1) (level + 1) ∧
      Pending (n + 1) (level + 1) spilled.mNextCurr := by
  intro spilled
  have spillIff := levelShouldSpill_iff_spillsAt fits (show level < kNumLevels by omega)
  have snapIff := levelShouldSpill_iff_spillsAt fits inRange
  have mCurr := spilledUpTo_mCurr 0 (· + ·) (n + 1) (kNumLevels - 1) levels (level + 1)
  have mSnap := spilledUpTo_mSnap 0 (· + ·) (n + 1) (kNumLevels - 1) levels (level + 1)
  have mNext := spilledUpTo_mNextCurr 0 (· + ·) (n + 1) (kNumLevels - 1) levels (level + 1)
  dsimp only at mCurr
  simp only [Nat.add_sub_cancel] at mCurr mNext
  by_cases spills : SpillsAt (n + 1) level
  · -- The level above spills: commit the pending merge, snap if this level spills too, and
    -- start the next merge.
    rw [if_pos ⟨by omega, spills.1, spillIff.mpr spills⟩] at mCurr mNext
    have curr : spilled.mCurr = currLedgers (n + 1) (level + 1) := by
      rw [mCurr]
      refine committed_eq fits spills (holds.next (level + 1) inRange) fun early => ?_
      rw [if_neg, holds.curr (level + 1) inRange]
      rintro ⟨_, snaps⟩
      have aligned := (snapIff.mp snaps).2
      rw [Nat.mod_eq_of_lt (by rw [levelHalf_succ_eq]; omega)] at aligned
      omega
    refine ⟨curr, ?_, ?_⟩
    · rw [mSnap]
      split_ifs with snaps
      · rw [holds.curr (level + 1) inRange]
        exact currLedgers_eq_snapLedgers (snapIff.mp snaps.2)
      · rw [holds.snap (level + 1) inRange,
          snapLedgers_succ_of_quiet fun quiet => snaps ⟨quiet.1, snapIff.mpr quiet⟩]
    · rw [mNext, curr, holds.curr level (by omega)]
      exact pending_merge inRange spills
  · -- The level above does not spill: nothing here moves.
    have snapQuiet : ¬ SpillsAt (n + 1) (level + 1) := fun snaps => spills snaps.of_succ
    rw [if_neg fun committing => spills (spillIff.mp committing.2.2)] at mCurr mNext
    rw [if_neg fun snapping => snapQuiet (snapIff.mp snapping.2)] at mCurr mSnap
    refine ⟨?_, ?_, ?_⟩
    · rw [mCurr, holds.curr _ inRange, currLedgers_succ_of_quiet spills]
    · rw [mSnap, holds.snap _ inRange, snapLedgers_succ_of_quiet snapQuiet]
    · rw [mNext]
      exact pending_succ_of_quiet spills (by omega) (holds.next _ inRange)

/-- One ledger keeps the bucket list as `Holds` says: `addBatchInternal` succeeds and every
level holds what the bounds of the next ledger say. -/
theorem holds_succ (holds : Holds n levels) (fits : n + 1 ≤ uint32Max) :
    ∃ next, addBatchInternal 0 (· + ·) (n + 1) {n + 1} levels = .ok next ∧ Holds (n + 1) next := by
  refine ⟨_, addBatchInternal_eq 0 (· + ·) (Nat.succ_ne_zero n) {n + 1} (holds.next 0 (by decide)), ?_⟩
  obtain ⟨curr₀, snap₀, next₀⟩ := spilled_zero_holds holds fits
  refine ⟨fun level inRange => ?_, fun level inRange => ?_, fun level inRange => ?_⟩
  · cases level with
    | zero => rw [Function.update_self]; exact curr₀
    | succ level =>
      rw [Function.update_of_ne (Nat.succ_ne_zero level)]
      exact (spilled_succ_holds holds fits inRange).1
  · cases level with
    | zero => rw [Function.update_self]; exact snap₀
    | succ level =>
      rw [Function.update_of_ne (Nat.succ_ne_zero level)]
      exact (spilled_succ_holds holds fits inRange).2.1
  · cases level with
    | zero => rw [Function.update_self]; exact next₀
    | succ level =>
      rw [Function.update_of_ne (Nat.succ_ne_zero level)]
      exact (spilled_succ_holds holds fits inRange).2.2

end Step

/-- Adding the batches of ledgers `1 .. n` to a fresh bucket list succeeds, and leaves every
level as `Holds` says; by induction on the ledgers, one `holds_succ` each. -/
theorem addBatches_holds (n : Nat) (fits : n ≤ uint32Max) :
    ∃ levels, addBatches (0 : Multiset Nat) (· + ·) (fun ledger => {ledger}) n = .ok levels ∧
      Holds n levels := by
  induction n with
  | zero => exact ⟨_, rfl, holds_fresh⟩
  | succ n ih =>
    obtain ⟨levels, added, holds⟩ := ih (by omega)
    rw [addBatches, added, Except.ok_bind]
    exact holds_succ holds fits

/-- The buckets of the levels above `k` together hold the newest `heldBelow n k` ledgers, each
once: by induction on `k`, each level's `snap` and `curr` extending the run down. -/
theorem Holds.sum_ledgers {n : Nat} {levels : Nat → BucketLevel (Multiset Nat)} (holds : Holds n levels) :
    ∀ k ≤ kNumLevels, ∑ level ∈ Finset.range k, ((levels level).mCurr + (levels level).mSnap) =
      Multiset.Ico (n - heldBelow n k + 1) (n + 1) := by
  intro k
  induction k with
  | zero => intro _; simp [heldBelow_zero]
  | succ k ih =>
    intro inRange
    have ordered := heldBelow_le_heldThroughCurr n k
    have currFirst := heldThroughCurr_le_heldThroughSnap n k
    rw [Finset.sum_range_succ_comm, add_comm (levels k).mCurr, add_assoc, ih (by omega),
      holds.curr k (by omega), holds.snap k (by omega), currLedgers, snapLedgers,
      Ico_add_Ico rfl (by omega) (by omega), Ico_add_Ico rfl (by omega) (by omega), heldBelow]

/-- A bucket with the bounds of `Holds` is the run of ledgers the source's size functions give:
from its oldest ledger, as many as its size. -/
theorem Ico_eq_oldest {n below through : Nat} (ordered : below ≤ through) (bounded : through ≤ n) :
    Multiset.Ico (n - through + 1) (n - below + 1) =
      Multiset.Ico (if below < through then n - through + 1 else uint32Max)
        ((if below < through then n - through + 1 else uint32Max) + (through - below)) := by
  split_ifs with holds
  · congr 1
    omega
  · rw [Multiset.Ico_eq_zero_of_le (by omega), Multiset.Ico_eq_zero_of_le (by omega)]

/-- The bucket list the code builds holds what its size functions say. After the batches of
ledgers `1 .. n` are added in turn to a fresh bucket list (each batch a bucket of its one
ledger, merges adding buckets up), every ledger `1 .. n` is in exactly one bucket, once; and
each level's `curr` and `snap` hold exactly the ledgers from `oldestLedgerInCurr` and
`oldestLedgerInSnap`, as many as `sizeOfCurr` and `sizeOfSnap` say. -/
theorem addBatches_ledgers (n : Nat) (pos : 0 < n) (fits : n ≤ uint32Max) :
    ∃ levels, addBatches (0 : Multiset Nat) (· + ·) (fun ledger => {ledger}) n = .ok levels ∧
      ∑ level ∈ Finset.range kNumLevels, ((levels level).mCurr + (levels level).mSnap) =
        Multiset.Ico 1 (n + 1) ∧
      ∀ level < kNumLevels, ∃ currSize oldestCurr snapSize oldestSnap,
        sizeOfCurr n level = .ok currSize ∧ oldestLedgerInCurr n level = .ok oldestCurr ∧
        (levels level).mCurr = Multiset.Ico oldestCurr (oldestCurr + currSize) ∧
        sizeOfSnap n level = .ok snapSize ∧ oldestLedgerInSnap n level = .ok oldestSnap ∧
        (levels level).mSnap = Multiset.Ico oldestSnap (oldestSnap + snapSize) := by
  obtain ⟨levels, added, holds⟩ := addBatches_holds n fits
  refine ⟨levels, added, ?_, fun level inRange => ?_⟩
  · rw [holds.sum_ledgers kNumLevels le_rfl, heldBelow_kNumLevels, Nat.sub_self]
  · have above := sizeBelow_eq pos fits level inRange.le
    have ordered := heldBelow_le_heldThroughCurr n level
    have currFirst := heldThroughCurr_le_heldThroughSnap n level
    have bounded := heldThroughSnap_le n level
    refine ⟨_, _, _, _, sizeOfCurr_eq pos fits inRange above, oldestLedgerInCurr_eq pos fits inRange, ?_,
      sizeOfSnap_eq pos fits inRange above, oldestLedgerInSnap_eq pos fits inRange, ?_⟩
    · rw [holds.curr level inRange, currLedgers, Ico_eq_oldest ordered (by omega)]
    · rw [holds.snap level inRange, snapLedgers, Ico_eq_oldest currFirst bounded]

theorem addBatches_ledgers_three :
    0 < 3 ∧ 3 ≤ uint32Max ∧
      ∃ levels, addBatches (0 : Multiset Nat) (· + ·) (fun ledger => {ledger}) 3 = .ok levels ∧
        ∑ level ∈ Finset.range kNumLevels, ((levels level).mCurr + (levels level).mSnap) =
          Multiset.Ico 1 (3 + 1) ∧
        ∀ level < kNumLevels, ∃ currSize oldestCurr snapSize oldestSnap,
          sizeOfCurr 3 level = .ok currSize ∧ oldestLedgerInCurr 3 level = .ok oldestCurr ∧
          (levels level).mCurr = Multiset.Ico oldestCurr (oldestCurr + currSize) ∧
          sizeOfSnap 3 level = .ok snapSize ∧ oldestLedgerInSnap 3 level = .ok oldestSnap ∧
          (levels level).mSnap = Multiset.Ico oldestSnap (oldestSnap + snapSize) :=
  ⟨by decide, by decide, addBatches_ledgers 3 (by decide) (by decide)⟩

end StellarCore.Bucket
