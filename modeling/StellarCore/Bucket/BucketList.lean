import StellarCore.Bucket.BucketListBase

/-!
# Adding a batch to the bucket list (`BucketListBase::addBatchInternal`)

Each level holds a `curr` and a `snap` bucket and `mNextCurr`, the merge that will become its
next `curr`. Adding the batch of ledger `currLedger` walks the levels from the last to level 1:
where level `i - 1` spills, its `curr` becomes its `snap`, and level `i` commits its pending
merge and starts the next one, of its `curr` (or of nothing, by `shouldMergeWithEmptyCurr`)
with that `snap`. Level 0 then merges the batch into its `curr` at once.

Buckets are values of a type `B` with an empty bucket and a merge; the bucket of a batch is
given. Merges are taken as resolved (`resolveAnyReadyFutures`), so a live `mNextCurr` is the
bucket it resolves to. The shadow lists only decide which entries a merge drops in old
protocols; they change no bucket's place in the list and are left out.
-/

set_option autoImplicit false

namespace StellarCore.Bucket

/-- `BucketLevel`: `mNextCurr` is `none` when clear and the merged bucket when live. -/
structure BucketLevel (B : Type) where
  mCurr : B
  mSnap : B
  mNextCurr : Option B

namespace BucketLevel

variable {B : Type} (empty : B) (merge : B → B → B)

/-- `commit`: a live merge becomes `curr`, and `setCurr` clears `mNextCurr`. -/
def commit (level : BucketLevel B) : BucketLevel B :=
  match level.mNextCurr with
  | some merged => { level with mCurr := merged, mNextCurr := none }
  | none => level

/-- `snap`: `curr` moves to `snap`, an empty bucket takes its place, and the new `snap` is
returned. -/
def snap (level : BucketLevel B) : B × BucketLevel B :=
  (level.mCurr, { level with mSnap := level.mCurr, mCurr := empty })

/-- `prepare`: start the merge of this level's `curr`, or of an empty bucket when the `curr`
is about to be snapshotted, with the `snap` spilled from the level above. -/
def prepare (levelIndex currLedger : Nat) (snap : B) (level : BucketLevel B) :
    Except String (BucketLevel B) :=
  if level.mNextCurr.isSome then .error "releaseAssert(!hasInProgressMerge())"
  else
    let curr := if shouldMergeWithEmptyCurr currLedger levelIndex then empty else level.mCurr
    pure { level with mNextCurr := some (merge curr snap) }

/-- `prepareFirstLevel`: level 0 merges the batch's bucket as the `snap` of a level above it;
the in-memory merge and the fallback to `prepare` leave the same bucket in `mNextCurr`. -/
def prepareFirstLevel (currLedger : Nat) (batch : B) (level : BucketLevel B) :
    Except String (BucketLevel B) :=
  prepare empty merge 0 currLedger batch level

@[simp] theorem commit_mNextCurr (level : BucketLevel B) : (commit level).mNextCurr = none := by
  unfold commit
  split <;> simp_all

@[simp] theorem commit_mSnap (level : BucketLevel B) : (commit level).mSnap = level.mSnap := by
  unfold commit
  split <;> rfl

theorem prepare_of_clear {levelIndex currLedger : Nat} {snap : B} {level : BucketLevel B}
    (clear : level.mNextCurr = none) :
    prepare empty merge levelIndex currLedger snap level =
      .ok { level with
        mNextCurr := some (merge (if shouldMergeWithEmptyCurr currLedger levelIndex then empty
          else level.mCurr) snap) } := by
  rw [prepare, clear]
  rfl

end BucketLevel

section AddBatch

variable {B : Type} (empty : B) (merge : B → B → B)

/-- One turn of the loop of `addBatchInternal`: when level `i - 1` spills, its `curr` becomes
its `snap`, and level `i` commits its merge and prepares the next with that `snap`. -/
def spillInto (currLedger i : Nat) (levels : Nat → BucketLevel B) :
    Except String (Nat → BucketLevel B) :=
  if levelShouldSpill currLedger (i - 1) then do
    let (snap, above) := (levels (i - 1)).snap empty
    let prepared ← (levels i).commit.prepare empty merge i currLedger snap
    pure (Function.update (Function.update levels (i - 1) above) i prepared)
  else pure levels

/-- The loop `for (i = kNumLevels - 1; i != 0; --i)`, from level `i` down to level 1. -/
def spillLevels (currLedger : Nat) : Nat → (Nat → BucketLevel B) → Except String (Nat → BucketLevel B)
  | 0, levels => pure levels
  | i + 1, levels => do
    let levels ← spillInto empty merge currLedger (i + 1) levels
    spillLevels currLedger i levels

/-- `addBatchInternal`, with the bucket of the batch given: the levels spill from the last
to the first, then level 0 merges the batch into its `curr`. -/
def addBatchInternal (currLedger : Nat) (batch : B) (levels : Nat → BucketLevel B) :
    Except String (Nat → BucketLevel B) :=
  if currLedger = 0 then .error "releaseAssert(currLedger > 0)"
  else do
    let levels ← spillLevels empty merge currLedger (kNumLevels - 1) levels
    let first ← (levels 0).prepareFirstLevel empty merge currLedger batch
    pure (Function.update levels 0 first.commit)

end AddBatch

end StellarCore.Bucket
