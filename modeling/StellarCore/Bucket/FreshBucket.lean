import StellarCore.Bucket.BucketMergeSpec

/-!
# Fresh buckets and the in-memory merge of level 0

Each ledger's changes become a bucket through `LiveBucket::fresh`: its created, updated and
deleted entries, sorted by key. Level 0 merges that bucket into its `curr` in memory
(`LiveBucket::mergeInMemory`), where the other levels merge bucket files (`BucketBase::merge`).

A fresh bucket is well formed, and on top of a bucket list it makes every key load as the
ledger's changes leave it (`applyChanges`), the lifecycle invariant kept. The in-memory merge
writes the bucket the file merge writes, so the two paths of
`BucketLevel<LiveBucket>::prepareFirstLevel` agree.
-/

set_option autoImplicit false

namespace StellarCore.Bucket

open MergeJoin

variable {T : KeyTypes} {Body : LedgerEntryType → Type}

/-! ## What a ledger's changes do -/

/-- The entry a key has after a ledger's changes: the created or updated entry of that key, none
if the key is deleted, and else the entry it had. -/
def applyChanges (initEntries liveEntries : List (LedgerEntry T Body))
    (deadEntries : List (LedgerKey T)) (state : LedgerKey T → Option (LedgerEntry T Body))
    (k : LedgerKey T) : Option (LedgerEntry T Body) :=
  match (initEntries ++ liveEntries).find? fun e => ledgerEntryKey e = k with
  | some e => some e
  | none => if k ∈ deadEntries then none else state k

/-! ## Sorting the changes -/

/-- The `≤` that `convertToBucketEntry` sorts by is the order of keys. -/
theorem not_compareLive_eq (a b : BucketEntry T Body) :
    (!compareLive b a) = decide (a.idKey ≤ b.idKey) := by
  rw [compareLive_eq]
  by_cases below : a.idKey ≤ b.idKey
  · simp [below, not_lt.mpr below]
  · simp [below, lt_of_not_ge below]

/-- Sorted by `BucketEntryIdCmp`, entries of distinct keys are in increasing key order. -/
theorem pairwise_mergeSort_of_nodup {l : List (BucketEntry T Body)}
    (distinct : (l.map BucketEntry.idKey).Nodup) :
    (l.mergeSort fun lhs rhs => !compareLive rhs lhs).Pairwise (·.idKey < ·.idKey) := by
  have trans : ∀ a b c : BucketEntry T Body, (!compareLive b a) = true →
      (!compareLive c b) = true → (!compareLive c a) = true := by
    intro a b c first second
    simp only [not_compareLive_eq, decide_eq_true_eq] at first second ⊢
    exact le_trans first second
  have total : ∀ a b : BucketEntry T Body, ((!compareLive b a) || !compareLive a b) = true := by
    intro a b
    simpa [not_compareLive_eq] using le_total a.idKey b.idKey
  have sorted := List.pairwise_mergeSort trans total l
  have distinctSorted := ((List.mergeSort_perm l fun lhs rhs => !compareLive rhs lhs).map
    BucketEntry.idKey).nodup_iff.mpr distinct
  rw [List.Nodup, List.pairwise_map] at distinctSorted
  refine (sorted.and distinctSorted).imp fun both => lt_of_le_of_ne ?_ both.2
  simpa [not_compareLive_eq] using both.1

/-- The keys of the changes: those of the created entries, of the updated ones and the deleted
keys. -/
theorem changedEntries_keys (useInit : Bool) (initEntries liveEntries : List (LedgerEntry T Body))
    (deadEntries : List (LedgerKey T)) :
    (changedEntries useInit initEntries liveEntries deadEntries).map BucketEntry.idKey =
      (initEntries.map ledgerEntryKey ++ liveEntries.map ledgerEntryKey ++ deadEntries).map
        ((↑) : LedgerKey T → WithBot (LedgerKey T)) := by
  simp only [changedEntries, List.map_append, List.map_map]
  congr 2
  · refine List.map_congr_left fun e _ => ?_
    cases useInit <;> rfl

/-- Changes of distinct keys are sorted into increasing key order; a key changed twice fails the
release assertion. -/
theorem convertToBucketEntry_ok_iff (useInit : Bool)
    (initEntries liveEntries : List (LedgerEntry T Body)) (deadEntries : List (LedgerKey T)) :
    (∃ entries, convertToBucketEntry useInit initEntries liveEntries deadEntries = .ok entries) ↔
      (initEntries.map ledgerEntryKey ++ liveEntries.map ledgerEntryKey ++ deadEntries).Nodup := by
  rw [← List.nodup_map_iff WithBot.coe_injective, ← changedEntries_keys useInit]
  set changes := changedEntries useInit initEntries liveEntries deadEntries
  have reordered := List.mergeSort_perm changes fun lhs rhs => !compareLive rhs lhs
  constructor
  · rintro ⟨entries, converted⟩
    simp only [convertToBucketEntry] at converted
    split_ifs at converted with chain
    -- neighbours in increasing key order are all in increasing key order
    have increasing : ((changes.mergeSort fun lhs rhs => !compareLive rhs lhs).map
        BucketEntry.idKey).Pairwise (· < ·) := by
      rw [← List.isChain_iff_pairwise, List.isChain_map]
      exact chain.imp fun a b below => by simpa [compareLive_eq] using below
    exact (reordered.map BucketEntry.idKey).nodup_iff.mp (increasing.imp ne_of_lt)
  · intro distinct
    refine ⟨_, if_pos ?_⟩
    exact (pairwise_mergeSort_of_nodup distinct).isChain.imp fun a b below => by
      simpa [compareLive_eq] using below

/-- Changes of distinct keys convert to a reordering of them in increasing key order. -/
theorem convertToBucketEntry_spec (useInit : Bool)
    {initEntries liveEntries : List (LedgerEntry T Body)} {deadEntries : List (LedgerKey T)}
    (distinct : (initEntries.map ledgerEntryKey ++ liveEntries.map ledgerEntryKey ++
      deadEntries).Nodup) :
    ∃ entries, convertToBucketEntry useInit initEntries liveEntries deadEntries = .ok entries ∧
      entries.Perm (changedEntries useInit initEntries liveEntries deadEntries) ∧
      entries.Pairwise (·.idKey < ·.idKey) := by
  have keys : ((changedEntries useInit initEntries liveEntries deadEntries).map
      BucketEntry.idKey).Nodup := by
    rw [changedEntries_keys, List.nodup_map_iff WithBot.coe_injective]
    exact distinct
  obtain ⟨entries, converted⟩ := (convertToBucketEntry_ok_iff useInit _ _ _).mpr distinct
  refine ⟨entries, converted, ?_⟩
  simp only [convertToBucketEntry] at converted
  split_ifs at converted
  cases converted
  exact ⟨List.mergeSort_perm _ _, pairwise_mergeSort_of_nodup keys⟩

/-! ## Fresh buckets -/

/-- A created entry among the changes is one of the ledger's created entries. -/
theorem mem_initEntries_of_changed {useInit : Bool}
    {initEntries liveEntries : List (LedgerEntry T Body)} {deadEntries : List (LedgerKey T)}
    {e : LedgerEntry T Body}
    (member : .initEntry e ∈ changedEntries useInit initEntries liveEntries deadEntries) :
    e ∈ initEntries := by
  simp only [changedEntries, List.mem_append, List.mem_map] at member
  rcases member with (⟨e', created, made⟩ | ⟨_, _, made⟩) | ⟨_, _, made⟩
  · cases useInit <;> simp_all
  · cases made
  · cases made

/-- The changes of a ledger are takeable at its protocol: they are INIT entries only from
protocol 11. -/
theorem takeable_changedEntries (protocolVersion : Nat)
    (initEntries liveEntries : List (LedgerEntry T Body)) (deadEntries : List (LedgerKey T)) :
    ∀ e ∈ changedEntries
        (decide (FIRST_PROTOCOL_SUPPORTING_INITENTRY_AND_METAENTRY ≤ protocolVersion))
        initEntries liveEntries deadEntries,
      Takeable protocolVersion e := by
  intro e member
  simp only [changedEntries, List.mem_append, List.mem_map] at member
  rcases member with (⟨e', -, rfl⟩ | ⟨e', -, rfl⟩) | ⟨k, -, rfl⟩
  · by_cases recent : FIRST_PROTOCOL_SUPPORTING_INITENTRY_AND_METAENTRY ≤ protocolVersion
    · simp [recent, Takeable, BucketEntry.type, checkProtocolLegality, not_lt.mpr recent]
    · simp [recent, takeable_liveEntry]
  · exact takeable_liveEntry protocolVersion e'
  · simp [Takeable, BucketEntry.type, checkProtocolLegality]

/-- The bucket of a ledger whose changes are of distinct keys: the metadata of its protocol from
protocol 11, then its changes in increasing key order. -/
theorem fresh_spec {protocolVersion : Nat} {initEntries liveEntries : List (LedgerEntry T Body)}
    {deadEntries : List (LedgerKey T)}
    (distinct : (initEntries.map ledgerEntryKey ++ liveEntries.map ledgerEntryKey ++
      deadEntries).Nodup) :
    ∃ entries, fresh protocolVersion initEntries liveEntries deadEntries =
        .ok (metadataRecords protocolVersion ++ entries) ∧
      entries.Perm (changedEntries
        (decide (FIRST_PROTOCOL_SUPPORTING_INITENTRY_AND_METAENTRY ≤ protocolVersion))
        initEntries liveEntries deadEntries) ∧
      entries.Pairwise (·.idKey < ·.idKey) ∧ ∀ e ∈ entries, Takeable protocolVersion e := by
  obtain ⟨entries, converted, reordered, sorted⟩ := convertToBucketEntry_spec
    (decide (FIRST_PROTOCOL_SUPPORTING_INITENTRY_AND_METAENTRY ≤ protocolVersion)) distinct
  have takeable : ∀ e ∈ entries, Takeable protocolVersion e := fun e member =>
    takeable_changedEntries protocolVersion initEntries liveEntries deadEntries e
      (reordered.subset member)
  -- the output iterator keeps tombstones, so it writes every entry after the metadata
  have above : ∀ r ∈ (metadataRecords protocolVersion : List (BucketEntry T Body)),
      ∀ e ∈ entries, r.idKey < e.idKey := by
    intro r inFront e member
    rw [metadataRecords_idKey _ r inFront]
    exact bot_lt_iff_ne_bot.mpr fun isBot =>
      (takeable e member).1 ((BucketEntry.idKey_eq_bot_iff e).mp isBot)
  refine ⟨entries, ?_, reordered, sorted, takeable⟩
  simp only [fresh, converted, BucketOutputIterator.init_eq, Except.ok_bind]
  rw [BucketOutputIterator.foldlM_put_given sorted above (fun e member => (takeable e member).2)
    (fun e member => (takeable e member).1)]
  simp

/-! ## Reading a fresh bucket -/

/-- Reading through the changes of a ledger: a created or updated entry answers, a deletion
answers nothing, and a key the ledger leaves alone reads on below. -/
theorem bind_changedEntries (useInit : Bool) (initEntries liveEntries : List (LedgerEntry T Body))
    (deadEntries : List (LedgerKey T)) (k : LedgerKey T) {older : Option (BucketEntry T Body)}
    {state : LedgerKey T → Option (LedgerEntry T Body)}
    (reads : state k = older.bind bucketEntryToLoadResult) :
    ((findKey BucketEntry.idKey k (changedEntries useInit initEntries liveEntries deadEntries)).or
        older).bind bucketEntryToLoadResult =
      applyChanges initEntries liveEntries deadEntries state k := by
  have created : ((fun a : BucketEntry T Body => decide (a.idKey = k)) ∘
      fun e => if useInit then .initEntry e else .liveEntry e) =
      fun e => decide (ledgerEntryKey e = k) := by
    funext e
    cases useInit <;> simp [BucketEntry.idKey]
  have updated : ((fun a : BucketEntry T Body => decide (a.idKey = k)) ∘ .liveEntry) =
      fun e => decide (ledgerEntryKey e = k) := by
    funext e
    simp [BucketEntry.idKey]
  have deleted : ((fun a : BucketEntry T Body => decide (a.idKey = k)) ∘ .deadEntry) =
      fun k' => decide (k' = k) := by
    funext k'
    simp [BucketEntry.idKey]
  simp only [findKey, changedEntries, List.find?_append, List.find?_map, applyChanges, created,
    updated, deleted]
  -- the created entries come first, then the updated ones, then the deletions
  cases foundCreated : initEntries.find? fun e => decide (ledgerEntryKey e = k) with
  | some e => cases useInit <;> simp [bucketEntryToLoadResult]
  | none =>
      cases foundUpdated : liveEntries.find? fun e => decide (ledgerEntryKey e = k) with
      | some e => simp [bucketEntryToLoadResult]
      | none =>
          by_cases gone : k ∈ deadEntries
          · obtain ⟨k', foundDeleted⟩ : ∃ k', deadEntries.find? (fun k' => decide (k' = k)) = some k' :=
              Option.ne_none_iff_exists'.mp fun absent =>
                List.find?_eq_none.mp absent k gone (decide_eq_true rfl)
            simp [foundDeleted, gone, bucketEntryToLoadResult]
          · have absent : deadEntries.find? (fun k' => decide (k' = k)) = none :=
              List.find?_eq_none.mpr fun k' member same => gone (of_decide_eq_true same ▸ member)
            simp [absent, gone, reads]

/-- A key finds in a bucket of reordered changes the change of that key. -/
theorem getBucketEntry_reordered {protocolVersion : Nat} {entries changes : List (BucketEntry T Body)}
    (reordered : entries.Perm changes) (sorted : entries.Pairwise (·.idKey < ·.idKey))
    (takeable : ∀ e ∈ entries, Takeable protocolVersion e) (k : LedgerKey T) :
    getBucketEntry k (metadataRecords protocolVersion ++ entries) =
      findKey BucketEntry.idKey k changes := by
  have distinct : (entries.map BucketEntry.idKey).Nodup :=
    List.pairwise_map.mpr (sorted.imp ne_of_lt)
  rw [(wellFormed_metadataRecords sorted takeable).getBucketEntry_eq,
    bucketEntries_metadataRecords fun e member => (takeable e member).1,
    getBucketEntry_eq_findKey]
  exact findKey_perm reordered distinct k

/-- `LiveBucket::fresh` puts a ledger's changes on top of a bucket list as the ledger makes them.
For changes of distinct keys the bucket is well formed, and every key then loads what the
changes leave of what it loaded before. Where every created key loaded nothing before, every
INIT entry still follows a deletion or nothing. -/
theorem fresh_applies_changes (protocolVersion : Nat)
    (initEntries liveEntries : List (LedgerEntry T Body)) (deadEntries : List (LedgerKey T))
    (rest : List (List (BucketEntry T Body)))
    (distinct : (initEntries.map ledgerEntryKey ++ liveEntries.map ledgerEntryKey ++
      deadEntries).Nodup) :
    ∃ bucket, fresh protocolVersion initEntries liveEntries deadEntries = .ok bucket ∧
      WellFormed bucket ∧
      (∀ k, load k (bucket :: rest) =
        applyChanges initEntries liveEntries deadEntries (fun k' => load k' rest) k) ∧
      (InitAfterDead rest → (∀ e ∈ initEntries, load (ledgerEntryKey e) rest = none) →
        InitAfterDead (bucket :: rest)) := by
  obtain ⟨entries, made, reordered, sorted, takeable⟩ := fresh_spec distinct
  have found := getBucketEntry_reordered reordered sorted takeable
  refine ⟨_, made, wellFormed_metadataRecords sorted takeable, fun k => ?_,
    fun kept absent => InitAfterDead.cons (fun k e createdHere => ?_) kept⟩
  · rw [load_eq, findEntry_cons, found]
    exact bind_changedEntries _ _ _ _ k (load_eq k rest)
  · -- a creation in the bucket is one of the ledger's, of that key
    rw [found] at createdHere
    have matched := List.find?_some createdHere
    have atKey : ledgerEntryKey e = k := by simpa [BucketEntry.idKey] using matched
    rw [← atKey]
    exact absent e (mem_initEntries_of_changed (List.mem_of_find?_eq_some createdHere))

theorem fresh_applies_changes_threeAccounts :
    ∃ bucket, fresh 23 ([⟨5, .account 1 ()⟩] : List (LedgerEntry natKeys fun _ => Unit))
        [⟨5, .account (2 : Nat) ()⟩] [.account (3 : Nat)] = .ok bucket ∧ WellFormed bucket ∧
      (∀ k, load k (bucket :: []) = applyChanges [⟨5, .account (1 : Nat) ()⟩]
        [⟨5, .account (2 : Nat) ()⟩] [.account (3 : Nat)] (fun k' => load k' []) k) ∧
      (InitAfterDead ([] : List (List (BucketEntry natKeys fun _ => Unit))) →
        (∀ e ∈ ([⟨5, .account 1 ()⟩] : List (LedgerEntry natKeys fun _ => Unit)),
          load (ledgerEntryKey e) ([] : List (List (BucketEntry natKeys fun _ => Unit))) = none) →
        InitAfterDead (bucket :: [])) := by
  refine fresh_applies_changes 23 _ _ _ [] ?_
  simp [ledgerEntryKey, LedgerEntryData.identity]

/-! ## The in-memory merge of level 0 -/

/-- Level 0 has no shadows, so its merge counters only decide whether lifecycle entries are kept:
from protocol 11. -/
theorem updateMergeCountersForProtocolVersion_nil {E : Type} (protocolVersion : Nat) :
    updateMergeCountersForProtocolVersion protocolVersion ([] : List (List E)) =
      .ok (!decide (protocolVersion < FIRST_PROTOCOL_SUPPORTING_INITENTRY_AND_METAENTRY)) := by
  unfold updateMergeCountersForProtocolVersion
  split_ifs <;> simp_all

/-- The in-memory merge of two runs in increasing key order, mergeable at `maxProtocolVersion`:
the metadata of that protocol from protocol 11, then what each item of their merge-join
leaves. -/
theorem mergeInMemory_spec {maxProtocolVersion : Nat}
    {oldEntries newEntries : List (BucketEntry T Body)}
    (sortedOld : oldEntries.Pairwise (·.idKey < ·.idKey))
    (sortedNew : newEntries.Pairwise (·.idKey < ·.idKey))
    (mergeable : ∀ j ∈ mergeJoin compareLive oldEntries newEntries,
      Mergeable maxProtocolVersion j) :
    mergeInMemory maxProtocolVersion oldEntries newEntries =
      .ok (metadataRecords maxProtocolVersion ++
        (mergeJoin compareLive oldEntries newEntries).filterMap
          (mergeOutput
            (!decide (maxProtocolVersion < FIRST_PROTOCOL_SUPPORTING_INITENTRY_AND_METAENTRY)) [])) := by
  -- the merge collects what each item leaves, with no shadow to hide it
  have start : AtKey (fun out records => out = records) ([] : List (List (BucketEntry T Body))) ⊥ []
      (⟨[], []⟩ : LiveMergeState T Body (List (BucketEntry T Body))) :=
    ⟨rfl, List.Forall₂.nil⟩
  obtain ⟨state, run, collected⟩ := mergeInternal_spec (appends_pushBack maxProtocolVersion)
    (!decide (maxProtocolVersion < FIRST_PROTOCOL_SUPPORTING_INITENTRY_AND_METAENTRY))
    (fun _ member => by cases member) sortedOld sortedNew mergeable (by simp) start
  obtain ⟨sorted, takeable⟩ := mergeOutputs_spec sortedOld sortedNew mergeable
    (!decide (maxProtocolVersion < FIRST_PROTOCOL_SUPPORTING_INITENTRY_AND_METAENTRY)) []
  have above : ∀ r ∈ (metadataRecords maxProtocolVersion : List (BucketEntry T Body)),
      ∀ e ∈ (mergeJoin compareLive oldEntries newEntries).filterMap
        (mergeOutput (!decide (maxProtocolVersion <
          FIRST_PROTOCOL_SUPPORTING_INITENTRY_AND_METAENTRY)) []), r.idKey < e.idKey := by
    intro r inFront e member
    rw [metadataRecords_idKey _ r inFront]
    exact bot_lt_iff_ne_bot.mpr fun isBot =>
      (takeable e member).1 ((BucketEntry.idKey_eq_bot_iff e).mp isBot)
  -- then writes what it collected through an output iterator that keeps tombstones
  simp only [mergeInMemory, updateMergeCountersForProtocolVersion_nil, Except.ok_bind]
  rw [run, Except.ok_bind, collected, List.nil_append, BucketOutputIterator.init_eq,
    Except.ok_bind, BucketOutputIterator.foldlM_put_given sorted above
      (fun e member => (takeable e member).2) (fun e member => (takeable e member).1)]
  simp

/-- `BucketLevel<LiveBucket>::prepareFirstLevel` merges a ledger's fresh bucket into level 0's
`curr` in memory (`LiveBucket::mergeInMemory`) where `prepare` would merge the two files
(`BucketBase::merge`), and both write the same bucket. This takes a well-formed `curr` of the
ledger's protocol at most, changes of distinct keys, and every created key reading nothing in
`curr`. -/
theorem mergeInMemory_eq_merge (protocolVersion : Nat) (curr : List (BucketEntry T Body))
    (initEntries liveEntries : List (LedgerEntry T Body)) (deadEntries : List (LedgerKey T))
    (wellFormed : WellFormed curr) (fits : bucketVersion curr ≤ protocolVersion)
    (distinct : (initEntries.map ledgerEntryKey ++ liveEntries.map ledgerEntryKey ++
      deadEntries).Nodup)
    (created : ∀ e ∈ initEntries, load (ledgerEntryKey e) [curr] = none) :
    ∃ snap merged, fresh protocolVersion initEntries liveEntries deadEntries = .ok snap ∧
      merge protocolVersion curr snap [] true = .ok merged ∧
      mergeInMemory protocolVersion (bucketEntries curr) (bucketEntries snap) = .ok merged := by
  obtain ⟨entries, made, reordered, sorted, takeable⟩ := fresh_spec distinct
  have notMeta : ∀ e ∈ entries, e.type ≠ .metaentry := fun e member => (takeable e member).1
  have snapWellFormed := wellFormed_metadataRecords sorted takeable
  have snapFits : bucketVersion (metadataRecords protocolVersion ++ entries) ≤ protocolVersion :=
    bucketVersion_metadataRecords_le notMeta
  -- a creation of the ledger is over a deletion in `curr`, if over anything
  have createsOverDead : ∀ x ∈ bucketEntries curr,
      ∀ y ∈ bucketEntries (metadataRecords protocolVersion ++ entries),
      x.idKey = y.idKey → y.type = .initentry → x.type = .deadentry := by
    intro x inCurr y inSnap same isInit
    rw [bucketEntries_metadataRecords notMeta] at inSnap
    cases y with
    | initEntry e =>
        have absent := created e (mem_initEntries_of_changed (reordered.subset inSnap))
        have found := wellFormed.getBucketEntry_of_mem inCurr same
        have notMetaCurr := wellFormed.entries_not_meta x inCurr
        rw [load_eq, findEntry_cons, found, Option.some_or] at absent
        cases x with
        | deadEntry _ => rfl
        | liveEntry _ | initEntry _ => simp [bucketEntryToLoadResult] at absent
        | metaEntry _ => exact absurd rfl notMetaCurr
    | liveEntry _ | deadEntry _ | metaEntry _ => cases isInit
  obtain ⟨mergedVersion, -, -, snapBelow, bounded, merged⟩ := merge_spec true
    (by simpa using ⟨wellFormed, snapWellFormed⟩) (by simpa using ⟨fits, snapFits⟩)
    (fun nonempty => absurd rfl nonempty) createsOverDead
  have mergeable := mergeable_of_wellFormed wellFormed snapWellFormed fits snapFits
    createsOverDead
  refine ⟨_, _, made, merged, ?_⟩
  rw [mergeInMemory_spec wellFormed.entries_sorted snapWellFormed.entries_sorted mergeable]
  -- the file merge is of the fresh bucket's protocol, or both are before protocol 11
  have sameVersion : mergedVersion = protocolVersion ∨
      (mergedVersion < FIRST_PROTOCOL_SUPPORTING_INITENTRY_AND_METAENTRY ∧
        protocolVersion < FIRST_PROTOCOL_SUPPORTING_INITENTRY_AND_METAENTRY) := by
    by_cases recent : FIRST_PROTOCOL_SUPPORTING_INITENTRY_AND_METAENTRY ≤ protocolVersion
    · rw [bucketVersion_metadataRecords recent] at snapBelow
      exact Or.inl (le_antisymm bounded snapBelow)
    · exact Or.inr ⟨lt_of_le_of_lt bounded (not_le.mp recent), not_le.mp recent⟩
  rcases sameVersion with same | ⟨mergedOld, old⟩
  · subst same
    simp
  · simp [metadataRecords_of_lt mergedOld, metadataRecords_of_lt old, mergedOld, old]

theorem mergeInMemory_eq_merge_recreated :
    ∃ snap merged, fresh 23 ([⟨5, .account 1 ()⟩] : List (LedgerEntry natKeys fun _ => Unit)) [] [] =
        .ok snap ∧
      merge 23 [.metaEntry ⟨23⟩, .deadEntry (.account 1)] snap [] true = .ok merged ∧
      mergeInMemory 23 (bucketEntries [.metaEntry ⟨23⟩, .deadEntry (.account 1)])
        (bucketEntries snap) = .ok merged := by
  refine mergeInMemory_eq_merge 23 _ _ _ _ ⟨?_, ?_⟩ (by simp [bucketVersion]) (by simp)
    (by simp [load_eq, findEntry_cons, findEntry_nil, getBucketEntry, BucketEntry.idKey,
      ledgerEntryKey, LedgerEntryData.identity, bucketEntryToLoadResult])
  · simp [BucketEntry.idKey]
  · simp [BucketEntry.type]

end StellarCore.Bucket
