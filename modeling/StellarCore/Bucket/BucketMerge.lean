import StellarCore.Bucket.LedgerCmpSpec

/-!
# Merging live buckets

`BucketBase::merge` reads the old and the new bucket with two `BucketInputIterator`s and writes
the merged bucket through a `BucketOutputIterator`, in one pass (`mergeInternal`). An entry whose
key only one input holds is taken as it is (`mergeCasesWithDefaultAcceptance`); two entries of
one key are combined by the table of `LiveBucket::mergeCasesWithEqualKeys`, where a creation
(`INITENTRY`) and an update (`LIVEENTRY`) make a fresher creation, a creation and a deletion
(`DEADENTRY`) make nothing, and a deletion and a creation make an update. Before protocol 12, an
entry the newer levels (the shadows) hold is left out by `LiveBucket::maybePut`; from protocol
11, creations and deletions are always kept. The output iterator writes the metadata first from
protocol 11, holds back the last entry until a greater one comes, and at the bottom level drops
deletions.

`LiveBucket::fresh` writes the bucket of one ledger's changes, sorted by key
(`convertToBucketEntry`). `LiveBucket::mergeInMemory` merges the in-memory entries of level 0,
which has no shadows, and writes what it collected. A read (`SearchableBucketListSnapshotBase::load`) asks the buckets of
the list newest first, and the first that holds the key answers.

Buckets are their records, in file order. The merge counters and metrics are left out; the
input iterator reads a whole file before the merge starts, where the source reads it lazily.
-/

set_option autoImplicit false

namespace StellarCore.Bucket

variable {T : KeyTypes} {Body : LedgerEntryType → Type}

/-- `LiveBucket::FIRST_PROTOCOL_SUPPORTING_INITENTRY_AND_METAENTRY`. -/
def FIRST_PROTOCOL_SUPPORTING_INITENTRY_AND_METAENTRY : Nat := 11

/-- `LiveBucket::FIRST_PROTOCOL_SHADOWS_REMOVED`. -/
def FIRST_PROTOCOL_SHADOWS_REMOVED : Nat := 12

/-- `LiveBucket::checkProtocolLegality`: before protocol 11 a bucket holds no INIT or META
entry. -/
def checkProtocolLegality (entry : BucketEntry T Body) (protocolVersion : Nat) :
    Except String Unit :=
  if protocolVersion < FIRST_PROTOCOL_SUPPORTING_INITENTRY_AND_METAENTRY ∧
      (entry.type = .initentry ∨ entry.type = .metaentry) then
    .error ("unsupported entry type " ++ (if entry.type = .initentry then "INIT" else "META") ++
      " in protocol " ++ toString protocolVersion ++ " bucket")
  else .ok ()

/-- `LiveBucket::isTombstoneEntry`. -/
def isTombstoneEntry (e : BucketEntry T Body) : Bool := decide (e.type = .deadentry)

/-! ## Reading and writing bucket files -/

/-- `BucketInputIterator<LiveBucket>::loadEntry`, run over the records of a bucket file, with the
iterator's metadata and whether it has seen it or another record. A META record must come first
and once, and sets the metadata; every other record is yielded, checked against the protocol of
the metadata once there is some. -/
def loadEntries (mMetadata : BucketMetadata) (mSeenMetadata mSeenOtherEntries : Bool) :
    List (BucketEntry T Body) → Except String (BucketMetadata × List (BucketEntry T Body))
  | [] => .ok (mMetadata, [])
  | .metaEntry metadata :: records =>
      if mSeenMetadata then .error "Malformed bucket: multiple META entries."
      else if mSeenOtherEntries then .error "Malformed bucket: META after other entries."
      else loadEntries metadata true mSeenOtherEntries records
  | entry :: records => do
      if mSeenMetadata then checkProtocolLegality entry mMetadata.ledgerVersion
      let (metadata, entries) ← loadEntries mMetadata mSeenMetadata true records
      pure (metadata, entry :: entries)

/-- A `BucketInputIterator` on a bucket file: the metadata it reports (`getMetadata`), zero for a
file without a META record, and the entries it yields. -/
def BucketInputIterator.read (file : List (BucketEntry T Body)) :
    Except String (BucketMetadata × List (BucketEntry T Body)) :=
  loadEntries ⟨0⟩ false false file

/-- `BucketOutputIterator<LiveBucket>`: the records written to its file (`mOut`), the entry held
back (`mBuf`), and its settings. -/
structure BucketOutputIterator (T : KeyTypes) (Body : LedgerEntryType → Type) where
  mKeepTombstoneEntries : Bool
  mMeta : BucketMetadata
  mPutMeta : Bool
  mBuf : Option (BucketEntry T Body)
  mOut : List (BucketEntry T Body)

namespace BucketOutputIterator

/-- `BucketOutputIterator<LiveBucket>::put`. -/
def put (out : BucketOutputIterator T Body) (e : BucketEntry T Body) :
    Except String (BucketOutputIterator T Body) := do
  checkProtocolLegality e out.mMeta.ledgerVersion
  if e.type = .metaentry ∧ out.mPutMeta then
    throw "putting META entry in bucket after initial entry"
  else if !out.mKeepTombstoneEntries && isTombstoneEntry e then pure out
  else
    match out.mBuf with
    | none => pure { out with mBuf := some e }
    | some buf =>
        -- `e` below the held-back entry: entries out of order
        if compareLive e buf then throw "releaseAssert(!mCmp(e, *mBuf))"
        -- a greater key writes the held-back entry, the same key replaces it
        else if compareLive buf e then pure { out with mBuf := some e, mOut := out.mOut ++ [buf] }
        else pure { out with mBuf := some e }

/-- The constructor of `BucketOutputIterator<LiveBucket>`: from protocol 11 the metadata is the
first record. -/
def init (keepTombstoneEntries : Bool) (metadata : BucketMetadata) :
    Except String (BucketOutputIterator T Body) :=
  let out : BucketOutputIterator T Body := ⟨keepTombstoneEntries, metadata, false, none, []⟩
  if FIRST_PROTOCOL_SUPPORTING_INITENTRY_AND_METAENTRY ≤ metadata.ledgerVersion then
    (fun out => { out with mPutMeta := true }) <$> out.put (.metaEntry metadata)
  else .ok out

/-- `getBucket`: the held-back entry is written last, and the records of the file are the
bucket; a file with no record is the empty bucket. -/
def getBucket (out : BucketOutputIterator T Body) : List (BucketEntry T Body) :=
  out.mOut ++ out.mBuf.toList

end BucketOutputIterator

/-! ## The merge -/

/-- The decisions of `LiveBucket::updateMergeCountersForProtocolVersion`, besides its counters:
from protocol 11 shadowed INIT and DEAD entries are kept, and from protocol 12 a merge has no
shadows. -/
def updateMergeCountersForProtocolVersion {E : Type} (protocolVersion : Nat)
    (shadowIterators : List (List E)) : Except String Bool :=
  let keepShadowedLifecycleEntries :=
    !decide (protocolVersion < FIRST_PROTOCOL_SUPPORTING_INITENTRY_AND_METAENTRY)
  if protocolVersion < FIRST_PROTOCOL_SHADOWS_REMOVED then .ok keepShadowedLifecycleEntries
  else if !shadowIterators.isEmpty then .error "Shadows are not supported"
  else .ok keepShadowedLifecycleEntries

/-- `calculateMergeProtocolVersion`: the protocol of a merge is the greatest of its inputs', a
shadow counting only before protocol 12, and may not exceed `maxProtocolVersion`; with it comes
whether shadowed INIT and DEAD entries are kept. -/
def calculateMergeProtocolVersion {E : Type} (maxProtocolVersion : Nat)
    (oi ni : BucketMetadata × List E) (shadowIterators : List (BucketMetadata × List E)) :
    Except String (Nat × Bool) :=
  let protocolVersion := shadowIterators.foldl (fun protocolVersion si =>
      if si.1.ledgerVersion < FIRST_PROTOCOL_SHADOWS_REMOVED then
        max si.1.ledgerVersion protocolVersion
      else protocolVersion)
    (max oi.1.ledgerVersion ni.1.ledgerVersion)
  if maxProtocolVersion < protocolVersion then
    .error ("bucket protocol version " ++ toString protocolVersion ++
      " exceeds maxProtocolVersion " ++ toString maxProtocolVersion)
  else
    (fun keep => (protocolVersion, keep)) <$>
      updateMergeCountersForProtocolVersion protocolVersion (shadowIterators.map Prod.snd)

/-- What a merge of live buckets changes besides its inputs: the shadow iterators, each the
entries of its shadow not yet passed, and what `putFunc` writes to. -/
structure LiveMergeState (T : KeyTypes) (Body : LedgerEntryType → Type) (Out : Type) where
  shadowIterators : List (List (BucketEntry T Body))
  out : Out

/-- The loop of `LiveBucket::maybePut` over the shadow iterators: each is moved on past the
entries below `entry`, and the first that then stands at an entry not above it shadows it. The
iterators after that one are not moved. -/
def scanShadows (entry : BucketEntry T Body) :
    List (List (BucketEntry T Body)) → List (List (BucketEntry T Body)) × Bool
  | [] => ([], false)
  | si :: rest =>
      let si := si.dropWhile fun s => compareLive s entry
      if si.head?.any fun s => !compareLive entry s then (si :: rest, true)
      else
        let scanned := scanShadows entry rest
        (si :: scanned.1, scanned.2)

section Put

variable {Out : Type} (putFunc : Out → BucketEntry T Body → Except String Out)

/-- `LiveBucket::maybePut`: with `keepShadowedLifecycleEntries`, INIT and DEAD entries are
always put; any other entry is put unless a shadow holds its key. -/
def maybePut (entry : BucketEntry T Body) (keepShadowedLifecycleEntries : Bool)
    (state : LiveMergeState T Body Out) : Except String (LiveMergeState T Body Out) :=
  if keepShadowedLifecycleEntries ∧ (entry.type = .initentry ∨ entry.type = .deadentry) then
    (fun out => { state with out }) <$> putFunc state.out entry
  else
    let scanned := scanShadows entry state.shadowIterators
    if scanned.2 then .ok { state with shadowIterators := scanned.1 }
    else (fun out => ⟨scanned.1, out⟩) <$> putFunc state.out entry

/-- What `mergeCasesWithDefaultAcceptance` does with the entry it takes: check it against the
protocol of the merge, and put it unless shadowed. -/
def acceptEntry (protocolVersion : Nat) (keepShadowedLifecycleEntries : Bool)
    (state : LiveMergeState T Body Out) (entry : BucketEntry T Body) :
    Except String (LiveMergeState T Body Out) := do
  checkProtocolLegality entry protocolVersion
  maybePut putFunc entry keepShadowedLifecycleEntries state

/-- `LiveBucket::mergeCasesWithEqualKeys`, for an old and a new entry of one key. -/
def mergeCasesWithEqualKeys (protocolVersion : Nat) (keepShadowedLifecycleEntries : Bool)
    (state : LiveMergeState T Body Out) (oldEntry newEntry : BucketEntry T Body) :
    Except String (LiveMergeState T Body Out) := do
  checkProtocolLegality oldEntry protocolVersion
  checkProtocolLegality newEntry protocolVersion
  match oldEntry, newEntry with
  -- the only legal new INIT merges a delete and a create to an update
  | .deadEntry _, .initEntry e => maybePut putFunc (.liveEntry e) keepShadowedLifecycleEntries state
  | _, .initEntry _ => throw "Malformed bucket: old non-DEAD + new INIT."
  -- a create and an update make a fresher create, a create and a delete nothing
  | .initEntry _, .liveEntry e => maybePut putFunc (.initEntry e) keepShadowedLifecycleEntries state
  | .initEntry _, _ => pure state
  | _, _ => maybePut putFunc newEntry keepShadowedLifecycleEntries state

end Put

section MergeInternal

variable {E σ : Type} (cmp : E → E → Bool) (accept : σ → E → Except String σ)
  (mergeCasesWithEqualKeys : σ → E → E → Except String σ)

/-- `BucketBase::mergeInternal`, over the entries the old and the new input have still to yield:
while either has some, the entry of smaller key is taken alone (`accept`, the cases of
`mergeCasesWithDefaultAcceptance`), and two entries of one key are merged together. -/
def mergeInternal : List E → List E → σ → Except String σ
  | [], [], state => .ok state
  | oldEntry :: old, [], state => do
      mergeInternal old [] (← accept state oldEntry)
  | [], newEntry :: new, state => do
      mergeInternal [] new (← accept state newEntry)
  | oldEntry :: old, newEntry :: new, state =>
      if cmp oldEntry newEntry then do
        mergeInternal old (newEntry :: new) (← accept state oldEntry)
      else if cmp newEntry oldEntry then do
        mergeInternal (oldEntry :: old) new (← accept state newEntry)
      else do
        mergeInternal old new (← mergeCasesWithEqualKeys state oldEntry newEntry)
termination_by old new => old.length + new.length

end MergeInternal

/-- `BucketBase<LiveBucket>::merge`, on the records of the old bucket, the new one and the
shadows: the records of the merged bucket. -/
def merge (maxProtocolVersion : Nat) (oldBucket newBucket : List (BucketEntry T Body))
    (shadows : List (List (BucketEntry T Body))) (keepTombstoneEntries : Bool) :
    Except String (List (BucketEntry T Body)) := do
  let oi ← BucketInputIterator.read oldBucket
  let ni ← BucketInputIterator.read newBucket
  let shadowIterators ← shadows.mapM BucketInputIterator.read
  let (protocolVersion, keepShadowedLifecycleEntries) ←
    calculateMergeProtocolVersion maxProtocolVersion oi ni shadowIterators
  let out ← BucketOutputIterator.init keepTombstoneEntries ⟨protocolVersion⟩
  let state ← mergeInternal compareLive
    (acceptEntry BucketOutputIterator.put protocolVersion keepShadowedLifecycleEntries)
    (mergeCasesWithEqualKeys BucketOutputIterator.put protocolVersion keepShadowedLifecycleEntries)
    oi.2 ni.2 ⟨shadowIterators.map Prod.snd, out⟩
  pure state.out.getBucket

/-- `LiveBucket::mergeInMemory`, on the in-memory entries of two buckets of level 0: the merged
entries are collected, then written to the new bucket's file. -/
def mergeInMemory (maxProtocolVersion : Nat) (oldEntries newEntries : List (BucketEntry T Body)) :
    Except String (List (BucketEntry T Body)) := do
  -- the first level never has shadows
  let keepShadowedLifecycleEntries ←
    updateMergeCountersForProtocolVersion maxProtocolVersion ([] : List (List (BucketEntry T Body)))
  let pushBack := fun (mergedEntries : List (BucketEntry T Body)) entry =>
    (.ok (mergedEntries ++ [entry]) : Except String _)
  let state ← mergeInternal compareLive
    (acceptEntry pushBack maxProtocolVersion keepShadowedLifecycleEntries)
    (mergeCasesWithEqualKeys pushBack maxProtocolVersion keepShadowedLifecycleEntries)
    oldEntries newEntries ⟨[], []⟩
  let out ← BucketOutputIterator.init true ⟨maxProtocolVersion⟩
  let out ← state.out.foldlM BucketOutputIterator.put out
  pure out.getBucket

/-! ## Fresh buckets -/

/-- The three loops of `LiveBucket::convertToBucketEntry`: the created entries (as INIT entries,
or as LIVE ones when `useInit` is off), the updated ones and the keys of the deleted ones. -/
def changedEntries (useInit : Bool) (initEntries liveEntries : List (LedgerEntry T Body))
    (deadEntries : List (LedgerKey T)) : List (BucketEntry T Body) :=
  initEntries.map (fun e => if useInit then .initEntry e else .liveEntry e) ++
    liveEntries.map .liveEntry ++ deadEntries.map .deadEntry

/-- `LiveBucket::convertToBucketEntry`: the changed entries sorted by `BucketEntryIdCmp` (the
ordering `std::sort` is given, as a `≤`). No two neighbours may be of one key. -/
def convertToBucketEntry (useInit : Bool) (initEntries liveEntries : List (LedgerEntry T Body))
    (deadEntries : List (LedgerKey T)) : Except String (List (BucketEntry T Body)) :=
  let bucket := (changedEntries useInit initEntries liveEntries deadEntries).mergeSort
    fun lhs rhs => !compareLive rhs lhs
  if bucket.IsChain (fun lhs rhs => compareLive lhs rhs = true) then .ok bucket
  else .error "releaseAssert(std::adjacent_find(...) == bucket.end())"

/-- `LiveBucket::fresh`: the bucket of one ledger's changes, written through an output iterator
that keeps tombstones. From protocol 11 created entries are INIT entries. -/
def fresh (protocolVersion : Nat) (initEntries liveEntries : List (LedgerEntry T Body))
    (deadEntries : List (LedgerKey T)) : Except String (List (BucketEntry T Body)) := do
  let useInit := decide (FIRST_PROTOCOL_SUPPORTING_INITENTRY_AND_METAENTRY ≤ protocolVersion)
  let entries ← convertToBucketEntry useInit initEntries liveEntries deadEntries
  let out ← BucketOutputIterator.init true ⟨protocolVersion⟩
  let out ← entries.foldlM BucketOutputIterator.put out
  pure out.getBucket

/-! ## Reading the bucket list -/

/-- `BucketSnapshotBase::getBucketEntry`: the entry of a bucket for a key, as its index finds
it. -/
def getBucketEntry (k : LedgerKey T) (bucket : List (BucketEntry T Body)) :
    Option (BucketEntry T Body) :=
  bucket.find? fun e => e.idKey = k

/-- `LiveBucket::bucketEntryToLoadResult`: nothing for a tombstone, else the ledger entry. A key
never finds the metadata, whose union arm has no ledger entry. -/
def bucketEntryToLoadResult : BucketEntry T Body → Option (LedgerEntry T Body)
  | .liveEntry e => some e
  | .initEntry e => some e
  | _ => none

/-- `SearchableBucketListSnapshotBase::load` over the buckets of a bucket list, newest first
(`loopAllBuckets`: each level's curr, then its snap): the first bucket that holds the key
answers. -/
def load (k : LedgerKey T) : List (List (BucketEntry T Body)) → Option (LedgerEntry T Body)
  | [] => none
  | bucket :: older =>
      match getBucketEntry k bucket with
      | some be => bucketEntryToLoadResult be
      | none => load k older

end StellarCore.Bucket
