import StellarCore.Bucket.BucketListBase

/-!
# The eviction scan's iterator (`LiveBucketList.cpp`)

The eviction scan walks the buckets of the live bucket list from `firstScanLevel` down,
`curr` then `snap` of each level and only the `curr` of the last level, keeping its place in
an `EvictionIterator`. `updateStartingEvictionIterator` runs at the start of a ledger's scan
and moves the iterator to the start of its bucket when the bucket changed since it was
written; `updateEvictionIterAndRecordStats` moves it to the next bucket once a bucket is
scanned.

The statistics `updateEvictionIterAndRecordStats` submits at the end of a cycle are metrics
only, and are left out with the `stats` and `counters` arguments.
-/

set_option autoImplicit false

namespace StellarCore.Bucket

/-- `EvictionIterator` of `Stellar-contract-config-setting.x`. -/
structure EvictionIterator where
  bucketListLevel : Nat
  isCurrBucket : Bool
  bucketFileOffset : Nat
deriving DecidableEq, Repr

def updateStartingEvictionIterator (iter : EvictionIterator) (firstScanLevel ledgerSeq : Nat) :
    Except String EvictionIterator :=
  -- An upgrade may have moved the first scanned level past the iterator.
  let iter :=
    if iter.bucketListLevel < firstScanLevel then
      { bucketFileOffset := 0, isCurrBucket := true, bucketListLevel := firstScanLevel }
    else iter
  if iter.isCurrBucket then
    if iter.bucketListLevel = 0 then .error "releaseAssert(iter.bucketListLevel != 0)"
    else if levelShouldSpill (ledgerSeq - 1) (iter.bucketListLevel - 1) then
      pure { iter with bucketFileOffset := 0 }
    else pure iter
  else if levelShouldSpill (ledgerSeq - 1) iter.bucketListLevel then
    pure { iter with bucketFileOffset := 0 }
  else pure iter

/-- `updateEvictionIterAndRecordStats`: the iterator moved to the start of the next bucket,
and whether that is the bucket the scan of this ledger started in. -/
def updateEvictionIterAndRecordStats (iter startIter : EvictionIterator)
    (configFirstScanLevel : Nat) : EvictionIterator × Bool :=
  let iter :=
    if iter.isCurrBucket ∧ iter.bucketListLevel ≠ kNumLevels - 1 then
      { iter with isCurrBucket := false, bucketFileOffset := 0 }
    else
      let iter := { iter with
        bucketListLevel := iter.bucketListLevel + 1, isCurrBucket := true, bucketFileOffset := 0 }
      -- Past the last level the scan cycles back to its first level.
      if iter.bucketListLevel = kNumLevels then { iter with bucketListLevel := configFirstScanLevel }
      else iter
  (iter, iter.bucketListLevel == startIter.bucketListLevel && iter.isCurrBucket == startIter.isCurrBucket)

end StellarCore.Bucket
