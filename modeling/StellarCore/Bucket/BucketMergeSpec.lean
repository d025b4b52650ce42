import StellarCore.Bucket.BucketMerge
import StellarCore.Lib.MergeJoin
import StellarCore.Lib.Except

/-!
# What a merge of live buckets keeps

`mergeInternal` walks its inputs as a merge-join does, so it is a fold over the merge-join of
the old and the new entries. The output iterator, given entries in increasing key order, writes
them, less the tombstones at the bottom level; the shadow iterators, moved on as the keys
increase, tell whether a shadow holds each key. So a merge of two well-formed buckets puts, of
each key, what the table of `mergeCasesWithEqualKeys` makes of the entries of that key, unless a
shadow hides it.

What that keeps is stated over the reads of the bucket list (`load`): where every INIT entry is
preceded by a deletion or by nothing (the invariant the source's comments call the second), the
merged bucket answers every read as the two inputs did, and the invariant still holds. Before
protocol 11 no bucket holds an INIT entry, which is why shadows may then hide deletions too.
-/

set_option autoImplicit false

open MergeJoin

namespace StellarCore.Bucket

variable {T : KeyTypes} {Body : LedgerEntryType → Type}

/-! ## The merge loop is a fold over a merge-join -/

section Fold

variable {E σ : Type} (cmp : E → E → Bool) (accept : σ → E → Except String σ)
  (mergeCasesWithEqualKeys : σ → E → E → Except String σ)

/-- What the merge loop does with one item of the merge-join of its inputs. -/
def joinStep (state : σ) : Joined E → Except String σ
  | .left oldEntry => accept state oldEntry
  | .right newEntry => accept state newEntry
  | .both oldEntry newEntry => mergeCasesWithEqualKeys state oldEntry newEntry

theorem mergeInternal_eq_foldlM (old new : List E) (state : σ) :
    mergeInternal cmp accept mergeCasesWithEqualKeys old new state =
      (mergeJoin cmp old new).foldlM (joinStep accept mergeCasesWithEqualKeys) state := by
  fun_induction mergeInternal cmp accept mergeCasesWithEqualKeys old new state with
  | case1 state => simp [mergeJoin]
  | case2 oldEntry old state ih =>
      rw [mergeJoin, List.foldlM_cons]
      exact bind_congr fun state => ih state
  | case3 newEntry new state ih =>
      rw [mergeJoin, List.foldlM_cons]
      exact bind_congr fun state => ih state
  | case4 oldEntry old newEntry new state below ih =>
      rw [mergeJoin, if_pos below, List.foldlM_cons]
      exact bind_congr fun state => ih state
  | case5 oldEntry old newEntry new state notBelow above ih =>
      rw [mergeJoin, if_neg notBelow, if_pos above, List.foldlM_cons]
      exact bind_congr fun state => ih state
  | case6 oldEntry old newEntry new state notBelow notAbove ih =>
      rw [mergeJoin, if_neg notBelow, if_neg notAbove, List.foldlM_cons]
      exact bind_congr fun state => ih state

end Fold

/-! ## Writing records in key order -/

/-- The records an output iterator starts with: the metadata of its protocol, from protocol
11. -/
def metadataRecords (protocolVersion : Nat) : List (BucketEntry T Body) :=
  if FIRST_PROTOCOL_SUPPORTING_INITENTRY_AND_METAENTRY ≤ protocolVersion then
    [.metaEntry ⟨protocolVersion⟩] else []

theorem metadataRecords_idKey (protocolVersion : Nat) :
    ∀ r ∈ (metadataRecords protocolVersion : List (BucketEntry T Body)), r.idKey = ⊥ := by
  unfold metadataRecords
  split_ifs <;> simp [BucketEntry.idKey]

namespace BucketOutputIterator

/-- The output iterator with the given settings that has been given `records`: it wrote all of
them but the last, which it holds back. -/
def given (keepTombstoneEntries : Bool) (metadata : BucketMetadata) (putMeta : Bool)
    (records : List (BucketEntry T Body)) : BucketOutputIterator T Body :=
  ⟨keepTombstoneEntries, metadata, putMeta, records.getLast?, records.dropLast⟩

@[simp] theorem getBucket_given (keepTombstoneEntries : Bool) (metadata : BucketMetadata)
    (putMeta : Bool) (records : List (BucketEntry T Body)) :
    (given keepTombstoneEntries metadata putMeta records).getBucket = records := by
  rcases List.eq_nil_or_concat records with rfl | ⟨front, last, rfl⟩
  · rfl
  · simp [given, getBucket]

/-- Whether the output iterator writes an entry: it drops tombstones unless told to keep them. -/
def keeps (keepTombstoneEntries : Bool) (e : BucketEntry T Body) : Bool :=
  keepTombstoneEntries || !isTombstoneEntry e

/-- An iterator that keeps tombstones keeps every entry. -/
@[simp] theorem filter_keeps_true (records : List (BucketEntry T Body)) :
    records.filter (keeps true) = records :=
  List.filter_eq_self.mpr fun _ _ => rfl

variable {keepTombstoneEntries : Bool} {metadata : BucketMetadata} {putMeta : Bool}
  {records : List (BucketEntry T Body)} {e : BucketEntry T Body}

/-- An entry legal at the iterator's protocol, not the metadata, of a key above every record
given so far, is given to the iterator, or dropped if it is a tombstone the iterator drops. -/
theorem put_given (above : ∀ r ∈ records, r.idKey < e.idKey)
    (legal : checkProtocolLegality e metadata.ledgerVersion = .ok ())
    (notMeta : e.type ≠ .metaentry) :
    (given keepTombstoneEntries metadata putMeta records).put e =
      .ok (given keepTombstoneEntries metadata putMeta
        (records ++ if keeps keepTombstoneEntries e then [e] else [])) := by
  simp only [put, given, legal, Except.ok_bind, notMeta, false_and, if_false]
  cases kept : keeps keepTombstoneEntries e with
  | false =>
      have skip : (!keepTombstoneEntries && isTombstoneEntry e) = true := by
        unfold keeps at kept
        cases keepTombstoneEntries <;> simp_all
      simp [skip]
  | true =>
      have write : (!keepTombstoneEntries && isTombstoneEntry e) = false := by
        unfold keeps at kept
        cases keepTombstoneEntries <;> simp_all
      simp only [write, Bool.false_eq_true, if_false, if_true]
      cases held : records.getLast? with
      | none =>
          rw [List.getLast?_eq_none_iff.mp held]
          rfl
      | some buf =>
          -- the held-back entry is the last record, below `e`
          obtain ⟨front, rfl⟩ := List.getLast?_eq_some_iff.mp held
          have bufBelow : buf.idKey < e.idKey := above buf (by simp)
          have notAfter : compareLive e buf = false := by
            rw [compareLive_eq]
            exact decide_eq_false (not_lt.mpr bufBelow.le)
          have before : compareLive buf e = true := by
            rw [compareLive_eq]
            exact decide_eq_true bufBelow
          simp [notAfter, before]

/-- Entries in increasing key order above the records given so far, legal and not metadata,
are given in turn, less the tombstones the iterator drops. -/
theorem foldlM_put_given :
    ∀ {records entries : List (BucketEntry T Body)},
      entries.Pairwise (·.idKey < ·.idKey) → (∀ r ∈ records, ∀ e ∈ entries, r.idKey < e.idKey) →
      (∀ e ∈ entries, checkProtocolLegality e metadata.ledgerVersion = .ok ()) →
      (∀ e ∈ entries, e.type ≠ .metaentry) →
      entries.foldlM put (given keepTombstoneEntries metadata putMeta records) =
        .ok (given keepTombstoneEntries metadata putMeta
          (records ++ entries.filter (keeps keepTombstoneEntries)))
  | records, [], _, _, _, _ => by simp
  | records, e :: entries, sorted, above, legal, notMeta => by
      obtain ⟨eBelow, sortedRest⟩ := List.pairwise_cons.mp sorted
      rw [List.foldlM_cons, put_given (fun r member => above r member e List.mem_cons_self)
        (legal e List.mem_cons_self) (notMeta e List.mem_cons_self), Except.ok_bind]
      have aboveNext : ∀ r ∈ records ++ (if keeps keepTombstoneEntries e then [e] else []),
          ∀ e' ∈ entries, r.idKey < e'.idKey := by
        intro r member e' later
        rcases List.mem_append.mp member with earlier | current
        · exact above r earlier e' (List.mem_cons_of_mem e later)
        · have same : r = e := by
            split_ifs at current <;> simp_all
          exact same ▸ eBelow e' later
      rw [foldlM_put_given sortedRest aboveNext
        (fun e' later => legal e' (List.mem_cons_of_mem e later))
        (fun e' later => notMeta e' (List.mem_cons_of_mem e later)), List.filter_cons]
      split_ifs <;> simp

/-- The iterator starts with the metadata as its first record from protocol 11, and with
nothing before. -/
theorem init_eq (keepTombstoneEntries : Bool) (metadata : BucketMetadata) :
    (init keepTombstoneEntries metadata : Except String (BucketOutputIterator T Body)) =
      .ok (given keepTombstoneEntries metadata
        (decide (FIRST_PROTOCOL_SUPPORTING_INITENTRY_AND_METAENTRY ≤ metadata.ledgerVersion))
        (metadataRecords metadata.ledgerVersion)) := by
  unfold init metadataRecords
  split_ifs with recent
  · have legal : checkProtocolLegality (.metaEntry metadata : BucketEntry T Body)
        metadata.ledgerVersion = .ok () := by
      simp [checkProtocolLegality, not_lt.mpr recent]
    simp [put, legal, BucketEntry.type, isTombstoneEntry, given, recent]
  · simp [given, recent]

end BucketOutputIterator

/-! ## Bucket files -/

/-- The protocol of a bucket file: that of its metadata, zero without any. -/
def bucketVersion : List (BucketEntry T Body) → Nat
  | .metaEntry metadata :: _ => metadata.ledgerVersion
  | _ => 0

/-- The entries of a bucket file: its records after the metadata. -/
def bucketEntries : List (BucketEntry T Body) → List (BucketEntry T Body)
  | .metaEntry _ :: entries => entries
  | entries => entries

/-- A bucket file as `BucketOutputIterator` writes it: its records in strictly increasing key
order (the order of `compareLive`), so that the metadata comes first if at all, and INIT entries
only from protocol 11. -/
structure WellFormed (file : List (BucketEntry T Body)) : Prop where
  sorted : file.Pairwise (·.idKey < ·.idKey)
  initLegal : ∀ e ∈ file, e.type = .initentry →
    FIRST_PROTOCOL_SUPPORTING_INITENTRY_AND_METAENTRY ≤ bucketVersion file

theorem bucketEntries_sublist (file : List (BucketEntry T Body)) :
    (bucketEntries file).Sublist file := by
  match file with
  | [] => exact List.Sublist.refl _
  | .metaEntry _ :: entries => exact List.sublist_cons_self _ entries
  | .liveEntry _ :: _ | .initEntry _ :: _ | .deadEntry _ :: _ => exact List.Sublist.refl _

theorem idKey_eq_bot {e : BucketEntry T Body} (isMeta : e.type = .metaentry) : e.idKey = ⊥ :=
  (BucketEntry.idKey_eq_bot_iff e).mpr isMeta

namespace WellFormed

variable {file : List (BucketEntry T Body)} (wellFormed : WellFormed file)
include wellFormed

theorem entries_sorted : (bucketEntries file).Pairwise (·.idKey < ·.idKey) :=
  wellFormed.sorted.sublist (bucketEntries_sublist file)

/-- The metadata of a well-formed file is its first record only: its key is below all. -/
theorem entries_not_meta : ∀ e ∈ bucketEntries file, e.type ≠ .metaentry := by
  intro e member isMeta
  match file, wellFormed, member with
  | .metaEntry m :: entries, wellFormed, member =>
      have below := (List.pairwise_cons.mp wellFormed.sorted).1 e member
      rw [idKey_eq_bot isMeta] at below
      exact not_lt_bot below
  | .liveEntry x :: entries, wellFormed, member | .initEntry x :: entries, wellFormed, member
  | .deadEntry x :: entries, wellFormed, member =>
      rcases List.mem_cons.mp member with rfl | later
      · cases isMeta
      · have below := (List.pairwise_cons.mp wellFormed.sorted).1 e later
        rw [idKey_eq_bot isMeta] at below
        exact not_lt_bot below

/-- The entries of a well-formed file are legal at any protocol from the file's. -/
theorem entries_legal {protocolVersion : Nat} (recent : bucketVersion file ≤ protocolVersion) :
    ∀ e ∈ bucketEntries file, checkProtocolLegality e protocolVersion = .ok () := by
  intro e member
  have notMeta := wellFormed.entries_not_meta e member
  unfold checkProtocolLegality
  rw [if_neg]
  rintro ⟨old, isInit | isMeta⟩
  · have := wellFormed.initLegal e ((bucketEntries_sublist file).subset member) isInit
    unfold FIRST_PROTOCOL_SUPPORTING_INITENTRY_AND_METAENTRY at old this
    omega
  · exact notMeta isMeta

end WellFormed

/-- Records that hold no metadata, legal at the metadata's protocol once it was seen, are all
yielded, and the metadata stays. -/
theorem loadEntries_of_entries {mMetadata : BucketMetadata} {mSeenMetadata : Bool} :
    ∀ (mSeenOtherEntries : Bool) {entries : List (BucketEntry T Body)},
      (∀ e ∈ entries, e.type ≠ .metaentry) →
      (mSeenMetadata = true → ∀ e ∈ entries,
        checkProtocolLegality e mMetadata.ledgerVersion = .ok ()) →
      loadEntries mMetadata mSeenMetadata mSeenOtherEntries entries = .ok (mMetadata, entries)
  | _, [], _, _ => rfl
  | _, e :: entries, notMeta, legal => by
      have rest := loadEntries_of_entries true
        (fun e' later => notMeta e' (List.mem_cons_of_mem e later))
        (fun seen e' later => legal seen e' (List.mem_cons_of_mem e later))
      cases e with
      | metaEntry m => exact absurd rfl (notMeta _ List.mem_cons_self)
      | liveEntry x | initEntry x | deadEntry x =>
          simp only [loadEntries, rest, Except.ok_bind]
          split_ifs with seen
          · rw [legal seen _ List.mem_cons_self]
            rfl
          · rfl

/-- What a `BucketInputIterator` reads of a well-formed file. -/
def readOf (file : List (BucketEntry T Body)) : BucketMetadata × List (BucketEntry T Body) :=
  (⟨bucketVersion file⟩, bucketEntries file)

/-- A `BucketInputIterator` reads a well-formed file: the file's protocol and its entries. -/
theorem WellFormed.read {file : List (BucketEntry T Body)} (wellFormed : WellFormed file) :
    BucketInputIterator.read file = .ok (readOf file) := by
  have notMeta := wellFormed.entries_not_meta
  have legal := wellFormed.entries_legal (le_refl _)
  match file, notMeta, legal with
  | [], _, _ => rfl
  | .metaEntry m :: entries, notMeta, legal =>
      exact loadEntries_of_entries false notMeta fun _ => legal
  | .liveEntry x :: entries, notMeta, legal | .initEntry x :: entries, notMeta, legal
  | .deadEntry x :: entries, notMeta, legal =>
      exact loadEntries_of_entries false notMeta fun seen => absurd seen Bool.false_ne_true

/-! ## Shadows -/

/-- Whether one of the buckets holds an entry of the key of `entry`. -/
def shadowedBy (shadows : List (List (BucketEntry T Body))) (entry : BucketEntry T Body) : Bool :=
  shadows.any fun shadow => (findKey BucketEntry.idKey entry.idKey shadow).isSome

/-- Shadow iterators moved on past keys below `entry`'s tell whether a shadow holds `entry`'s
key, and are then moved on past the keys below it. -/
theorem scanShadows_spec {bound : WithBot (LedgerKey T)} {entry : BucketEntry T Body} :
    ∀ {shadows cursors : List (List (BucketEntry T Body))},
      (∀ s ∈ shadows, s.Pairwise (·.idKey < ·.idKey)) →
      List.Forall₂ (Passed BucketEntry.idKey bound) shadows cursors → bound ≤ entry.idKey →
      (scanShadows entry cursors).2 = shadowedBy shadows entry ∧
        List.Forall₂ (Passed BucketEntry.idKey entry.idKey) shadows (scanShadows entry cursors).1
  | [], [], _, .nil, _ => ⟨rfl, .nil⟩
  | s :: shadows, c :: cursors, sorted, .cons passed rest, higher => by
      have standsAt := (passed.mono higher).stands_at (sorted s List.mem_cons_self)
      have moved := passed.dropWhile higher
      simp only [scanShadows, compareLive_eq, shadowedBy, List.any_cons] at standsAt ⊢
      rw [standsAt]
      cases held : (findKey BucketEntry.idKey entry.idKey s).isSome with
      | true => exact ⟨rfl, .cons moved (rest.imp fun _ _ passed => passed.mono higher)⟩
      | false =>
          obtain ⟨shadowed, restMoved⟩ :=
            scanShadows_spec (fun s' later => sorted s' (List.mem_cons_of_mem s later)) rest higher
          exact ⟨shadowed, .cons moved restMoved⟩

/-! ## One item of the merge -/

/-- What `mergeCasesWithEqualKeys` makes of two entries of one key, and a lone entry as it is. -/
def mergedEntry : Joined (BucketEntry T Body) → Option (BucketEntry T Body)
  | .left oldEntry => some oldEntry
  | .right newEntry => some newEntry
  | .both (.deadEntry _) (.initEntry e) => some (.liveEntry e)
  | .both (.initEntry _) (.liveEntry e) => some (.initEntry e)
  | .both (.initEntry _) _ => none
  | .both _ newEntry => some newEntry

/-- Whether `maybePut` puts an entry: an INIT or DEAD entry when shadowed lifecycle entries are
kept, and any entry whose key no shadow holds. -/
def maybePutKeeps (keepShadowedLifecycleEntries : Bool)
    (shadows : List (List (BucketEntry T Body))) (entry : BucketEntry T Body) : Bool :=
  decide (keepShadowedLifecycleEntries = true ∧
      (entry.type = .initentry ∨ entry.type = .deadentry)) ||
    !shadowedBy shadows entry

/-- What a live merge puts for an item of the merge-join of its inputs. -/
def mergeOutput (keepShadowedLifecycleEntries : Bool) (shadows : List (List (BucketEntry T Body)))
    (j : Joined (BucketEntry T Body)) : Option (BucketEntry T Body) :=
  (mergedEntry j).filter (maybePutKeeps keepShadowedLifecycleEntries shadows)

/-- An entry a merge can take: not the metadata, and legal at the protocol of the merge. -/
def Takeable (protocolVersion : Nat) (e : BucketEntry T Body) : Prop :=
  e.type ≠ .metaentry ∧ checkProtocolLegality e protocolVersion = .ok ()

/-- An item a merge can take: its entries are takeable, and two entries of one item have one key
and are no creation over an entry that is not a deletion. -/
def Mergeable (protocolVersion : Nat) : Joined (BucketEntry T Body) → Prop
  | .left e => Takeable protocolVersion e
  | .right e => Takeable protocolVersion e
  | .both oldEntry newEntry => Takeable protocolVersion oldEntry ∧
      Takeable protocolVersion newEntry ∧ oldEntry.idKey = newEntry.idKey ∧
      (newEntry.type = .initentry → oldEntry.type = .deadentry)

theorem takeable_liveEntry (protocolVersion : Nat) (e : LedgerEntry T Body) :
    Takeable protocolVersion (.liveEntry e : BucketEntry T Body) := by
  simp [Takeable, BucketEntry.type, checkProtocolLegality]

/-- An INIT entry is takeable at any protocol an INIT entry is. -/
theorem takeable_initEntry {protocolVersion : Nat} {e e' : LedgerEntry T Body}
    (takeable : Takeable protocolVersion (.initEntry e' : BucketEntry T Body)) :
    Takeable protocolVersion (.initEntry e : BucketEntry T Body) := by
  simpa [Takeable, BucketEntry.type, checkProtocolLegality] using takeable

/-- What a mergeable item leaves is takeable and has the item's key. -/
theorem mergedEntry_spec {protocolVersion : Nat} {j : Joined (BucketEntry T Body)}
    {e : BucketEntry T Body} (mergeable : Mergeable protocolVersion j) (made : mergedEntry j = some e) :
    Takeable protocolVersion e ∧ e.idKey = j.keyOf BucketEntry.idKey := by
  match j, mergeable, made with
  | .left _, takeable, rfl | .right _, takeable, rfl => exact ⟨takeable, rfl⟩
  | .both oldEntry newEntry, ⟨takeOld, takeNew, same, creation⟩, made =>
      cases oldEntry <;> cases newEntry <;>
        simp only [mergedEntry, Option.some.injEq, reduceCtorEq] at made <;> subst made <;>
        refine ⟨?_, ?_⟩ <;>
        first
          | exact takeable_liveEntry _ _
          | exact takeable_initEntry takeOld
          | assumption
          | simp_all [Joined.keyOf, BucketEntry.idKey]

/-- What an item leaves has the item's key. -/
theorem mergeOutput_key {protocolVersion : Nat} {keepShadowedLifecycleEntries : Bool}
    {shadows : List (List (BucketEntry T Body))} {j : Joined (BucketEntry T Body)}
    {r : BucketEntry T Body} (mergeable : Mergeable protocolVersion j)
    (left : r ∈ (mergeOutput keepShadowedLifecycleEntries shadows j).toList) :
    r.idKey = j.keyOf BucketEntry.idKey := by
  have made : mergedEntry j = some r := by
    simp only [mergeOutput, Option.mem_toList, Option.filter_eq_some_iff] at left
    exact left.1
  exact (mergedEntry_spec mergeable made).2

/-- What the items of a mergeable merge-join leave have their items' keys. -/
theorem mergeOutput_keys {protocolVersion : Nat} {keepShadowedLifecycleEntries : Bool}
    {shadows : List (List (BucketEntry T Body))} {items : List (Joined (BucketEntry T Body))}
    (mergeable : ∀ j ∈ items, Mergeable protocolVersion j) :
    ∀ j ∈ items, ∀ b, mergeOutput keepShadowedLifecycleEntries shadows j = some b →
      b.idKey = j.keyOf BucketEntry.idKey :=
  fun j member b made => mergeOutput_key (mergeable j member)
    (show b ∈ (mergeOutput keepShadowedLifecycleEntries shadows j).toList by simp [made])

/-! ## The records of a written bucket -/

theorem bucketVersion_metadataRecords {protocolVersion : Nat} {entries : List (BucketEntry T Body)}
    (recent : FIRST_PROTOCOL_SUPPORTING_INITENTRY_AND_METAENTRY ≤ protocolVersion) :
    bucketVersion (metadataRecords protocolVersion ++ entries) = protocolVersion := by
  simp [metadataRecords, recent, bucketVersion]

theorem metadataRecords_of_lt {protocolVersion : Nat}
    (old : protocolVersion < FIRST_PROTOCOL_SUPPORTING_INITENTRY_AND_METAENTRY) :
    (metadataRecords protocolVersion : List (BucketEntry T Body)) = [] := by
  simp [metadataRecords, not_le.mpr old]

/-- A file of entries after the metadata records of a protocol is of that protocol at most. -/
theorem bucketVersion_metadataRecords_le {protocolVersion : Nat}
    {entries : List (BucketEntry T Body)} (notMeta : ∀ e ∈ entries, e.type ≠ .metaentry) :
    bucketVersion (metadataRecords protocolVersion ++ entries) ≤ protocolVersion := by
  by_cases recent : FIRST_PROTOCOL_SUPPORTING_INITENTRY_AND_METAENTRY ≤ protocolVersion
  · rw [bucketVersion_metadataRecords recent]
  · rw [metadataRecords_of_lt (not_le.mp recent), List.nil_append]
    match entries, notMeta with
    | [], _ => exact Nat.zero_le _
    | e :: rest, notMeta =>
        cases e with
        | metaEntry _ => exact absurd rfl (notMeta _ List.mem_cons_self)
        | liveEntry _ | initEntry _ | deadEntry _ => exact Nat.zero_le _

theorem bucketEntries_metadataRecords {protocolVersion : Nat} {entries : List (BucketEntry T Body)}
    (notMeta : ∀ e ∈ entries, e.type ≠ .metaentry) :
    bucketEntries (metadataRecords protocolVersion ++ entries) = entries := by
  unfold metadataRecords
  split_ifs
  · rfl
  · match entries, notMeta with
    | [], _ => rfl
    | e :: rest, notMeta =>
        cases e with
        | metaEntry _ => exact absurd rfl (notMeta _ List.mem_cons_self)
        | liveEntry _ | initEntry _ | deadEntry _ => rfl

/-- Takeable entries in increasing key order after the metadata records of their protocol make
a well-formed file. -/
theorem wellFormed_metadataRecords {protocolVersion : Nat} {entries : List (BucketEntry T Body)}
    (sorted : entries.Pairwise (·.idKey < ·.idKey))
    (takeable : ∀ e ∈ entries, Takeable protocolVersion e) :
    WellFormed (metadataRecords protocolVersion ++ entries) := by
  constructor
  · -- the metadata is below every entry
    refine List.pairwise_append.mpr ⟨by unfold metadataRecords; split_ifs <;> simp, sorted, ?_⟩
    intro r inFront e member
    have eAbove : e.idKey ≠ ⊥ := fun isBot =>
      (takeable e member).1 ((BucketEntry.idKey_eq_bot_iff e).mp isBot)
    rw [metadataRecords_idKey _ r inFront]
    exact bot_lt_iff_ne_bot.mpr eAbove
  · -- an INIT entry is legal only from protocol 11, where the metadata is written
    intro e member isInit
    rcases List.mem_append.mp member with inFront | inEntries
    · rw [(BucketEntry.idKey_eq_bot_iff e).mp (metadataRecords_idKey _ e inFront)] at isInit
      cases isInit
    · have legal := (takeable e inEntries).2
      simp only [checkProtocolLegality, isInit, true_or, and_true] at legal
      have recent : FIRST_PROTOCOL_SUPPORTING_INITENTRY_AND_METAENTRY ≤ protocolVersion := by
        by_contra old
        simp [not_le.mp old] at legal
      rw [bucketVersion_metadataRecords recent]
      exact recent

section Sink

variable {Out : Type} (putFunc : Out → BucketEntry T Body → Except String Out)
  (Puts : Out → List (BucketEntry T Body) → Prop) (protocolVersion : Nat)

/-- `putFunc` writes to its sink as to a list, for takeable entries given in increasing key
order; `Puts out records` says that `out` holds `records`. -/
def Appends : Prop :=
  ∀ out records e, Puts out records → (∀ r ∈ records, r.idKey < e.idKey) →
    Takeable protocolVersion e → ∃ out', putFunc out e = .ok out' ∧ Puts out' (records ++ [e])

/-- A state of a live merge that has put `records` and moved the shadow iterators on past the
keys below `bound`. -/
def AtKey (shadows : List (List (BucketEntry T Body))) (bound : WithBot (LedgerKey T))
    (records : List (BucketEntry T Body)) (state : LiveMergeState T Body Out) : Prop :=
  Puts state.out records ∧
    List.Forall₂ (Passed BucketEntry.idKey bound) shadows state.shadowIterators

variable {putFunc Puts protocolVersion} (appends : Appends putFunc Puts protocolVersion)
  (keepShadowedLifecycleEntries : Bool) {shadows : List (List (BucketEntry T Body))}
  (sortedShadows : ∀ s ∈ shadows, s.Pairwise (·.idKey < ·.idKey))
include appends sortedShadows

omit appends sortedShadows in
theorem AtKey.mono {bound bound' : WithBot (LedgerKey T)} {records : List (BucketEntry T Body)}
    {state : LiveMergeState T Body Out} (atKey : AtKey Puts shadows bound records state)
    (higher : bound ≤ bound') : AtKey Puts shadows bound' records state :=
  ⟨atKey.1, atKey.2.imp fun _ _ passed => passed.mono higher⟩

/-- `maybePut` puts a takeable entry of a key above all put so far, unless a shadow hides it. -/
theorem maybePut_spec {bound : WithBot (LedgerKey T)} {records : List (BucketEntry T Body)}
    {state : LiveMergeState T Body Out} {e : BucketEntry T Body}
    (atKey : AtKey Puts shadows bound records state) (higher : bound ≤ e.idKey)
    (above : ∀ r ∈ records, r.idKey < e.idKey) (takeable : Takeable protocolVersion e) :
    ∃ state', maybePut putFunc e keepShadowedLifecycleEntries state = .ok state' ∧
      AtKey Puts shadows e.idKey
        (records ++ if maybePutKeeps keepShadowedLifecycleEntries shadows e then [e] else [])
        state' := by
  obtain ⟨puts, passed⟩ := atKey
  unfold maybePut
  by_cases lifecycle :
      keepShadowedLifecycleEntries = true ∧ (e.type = .initentry ∨ e.type = .deadentry)
  · -- a creation or a deletion is put without looking at the shadows
    obtain ⟨out', put, puts'⟩ := appends state.out records e puts above takeable
    rw [if_pos lifecycle, put]
    have kept : maybePutKeeps keepShadowedLifecycleEntries shadows e = true := by
      simp [maybePutKeeps, lifecycle]
    exact ⟨_, rfl, by simpa [kept] using puts', passed.imp fun _ _ p => p.mono higher⟩
  · rw [if_neg lifecycle]
    obtain ⟨shadowed, moved⟩ := scanShadows_spec sortedShadows passed higher
    have keepsIff : maybePutKeeps keepShadowedLifecycleEntries shadows e =
        !shadowedBy shadows e := by
      simp [maybePutKeeps, lifecycle]
    cases hidden : shadowedBy shadows e with
    | true =>
        rw [if_pos (shadowed.trans hidden)]
        exact ⟨_, rfl, by simpa [keepsIff, hidden] using puts, moved⟩
    | false =>
        obtain ⟨out', put, puts'⟩ := appends state.out records e puts above takeable
        rw [if_neg (by simp [shadowed, hidden]), put]
        exact ⟨_, rfl, by simpa [keepsIff, hidden] using puts', moved⟩

omit appends sortedShadows in
/-- On a mergeable pair, `mergeCasesWithEqualKeys` puts what the pair leaves, if anything. -/
theorem mergeCasesWithEqualKeys_eq {state : LiveMergeState T Body Out}
    {oldEntry newEntry : BucketEntry T Body}
    (mergeable : Mergeable protocolVersion (.both oldEntry newEntry)) :
    mergeCasesWithEqualKeys putFunc protocolVersion keepShadowedLifecycleEntries state oldEntry
        newEntry =
      match mergedEntry (.both oldEntry newEntry) with
      | some e => maybePut putFunc e keepShadowedLifecycleEntries state
      | none => .ok state := by
  obtain ⟨⟨oldNotMeta, oldLegal⟩, ⟨newNotMeta, newLegal⟩, -, creation⟩ := mergeable
  cases oldEntry <;> cases newEntry <;>
    simp_all [mergeCasesWithEqualKeys, mergedEntry, BucketEntry.type]

/-- One step of the merge loop on a mergeable item of a key above all put so far puts what the
item leaves, unless a shadow hides it. -/
theorem joinStep_spec {bound : WithBot (LedgerKey T)} {records : List (BucketEntry T Body)}
    {state : LiveMergeState T Body Out} {j : Joined (BucketEntry T Body)}
    (atKey : AtKey Puts shadows bound records state) (higher : bound ≤ j.keyOf BucketEntry.idKey)
    (above : ∀ r ∈ records, r.idKey < j.keyOf BucketEntry.idKey)
    (mergeable : Mergeable protocolVersion j) :
    ∃ state', joinStep (acceptEntry putFunc protocolVersion keepShadowedLifecycleEntries)
        (mergeCasesWithEqualKeys putFunc protocolVersion keepShadowedLifecycleEntries) state j =
        .ok state' ∧
      AtKey Puts shadows (j.keyOf BucketEntry.idKey)
        (records ++ (mergeOutput keepShadowedLifecycleEntries shadows j).toList) state' := by
  -- the step puts `mergedEntry j` through `maybePut`, if the item leaves anything
  have step : joinStep (acceptEntry putFunc protocolVersion keepShadowedLifecycleEntries)
      (mergeCasesWithEqualKeys putFunc protocolVersion keepShadowedLifecycleEntries) state j =
      match mergedEntry j with
      | some e => maybePut putFunc e keepShadowedLifecycleEntries state
      | none => .ok state := by
    match j, mergeable with
    | .left e, ⟨_, legal⟩ | .right e, ⟨_, legal⟩ =>
        simp [joinStep, acceptEntry, legal, mergedEntry]
    | .both oldEntry newEntry, mergeable =>
        exact mergeCasesWithEqualKeys_eq keepShadowedLifecycleEntries mergeable
  rw [step]
  cases made : mergedEntry j with
  | none => exact ⟨state, rfl, by simpa [mergeOutput, made] using atKey.mono higher⟩
  | some e =>
      obtain ⟨takeable, atE⟩ := mergedEntry_spec mergeable made
      rw [← atE] at higher above ⊢
      obtain ⟨state', put, atKey'⟩ := maybePut_spec appends keepShadowedLifecycleEntries sortedShadows atKey higher above
        takeable
      have output : (mergeOutput keepShadowedLifecycleEntries shadows j).toList =
          if maybePutKeeps keepShadowedLifecycleEntries shadows e then [e] else [] := by
        simp only [mergeOutput, made, Option.filter]
        split <;> rfl
      rw [output]
      exact ⟨state', put, atKey'⟩

/-- The merge loop over mergeable items in increasing key order, from a state past keys below all
of them, puts what the items leave, unless shadows hide it. -/
theorem foldlM_joinStep_spec :
    ∀ {items : List (Joined (BucketEntry T Body))} {bound : WithBot (LedgerKey T)}
      {records : List (BucketEntry T Body)} {state : LiveMergeState T Body Out},
      items.Pairwise (·.keyOf BucketEntry.idKey < ·.keyOf BucketEntry.idKey) →
      (∀ j ∈ items, Mergeable protocolVersion j) → (∀ j ∈ items, bound ≤ j.keyOf BucketEntry.idKey) →
      (∀ r ∈ records, ∀ j ∈ items, r.idKey < j.keyOf BucketEntry.idKey) →
      AtKey Puts shadows bound records state →
      ∃ state', items.foldlM (joinStep (acceptEntry putFunc protocolVersion keepShadowedLifecycleEntries)
          (mergeCasesWithEqualKeys putFunc protocolVersion keepShadowedLifecycleEntries)) state =
          .ok state' ∧
        Puts state'.out (records ++ items.filterMap (mergeOutput keepShadowedLifecycleEntries shadows))
  | [], _, records, state, _, _, _, _, atKey => ⟨state, rfl, by simpa using atKey.1⟩
  | j :: items, bound, records, state, sorted, mergeable, higher, above, atKey => by
      obtain ⟨jBelow, sortedRest⟩ := List.pairwise_cons.mp sorted
      have jMergeable := mergeable j List.mem_cons_self
      obtain ⟨state', step, atKey'⟩ := joinStep_spec appends keepShadowedLifecycleEntries
        sortedShadows atKey
        (higher j List.mem_cons_self) (fun r member => above r member j List.mem_cons_self)
        jMergeable
      -- what `j` leaves has `j`'s key, below the keys of the items after it
      have aboveNext : ∀ r ∈ records ++ (mergeOutput keepShadowedLifecycleEntries shadows j).toList,
          ∀ j' ∈ items, r.idKey < j'.keyOf BucketEntry.idKey := by
        intro r member j' later
        rcases List.mem_append.mp member with earlier | left
        · exact above r earlier j' (List.mem_cons_of_mem j later)
        · rw [mergeOutput_key jMergeable left]
          exact jBelow j' later
      obtain ⟨state'', run, puts⟩ := foldlM_joinStep_spec sortedRest
        (fun j' later => mergeable j' (List.mem_cons_of_mem j later))
        (fun j' later => (jBelow j' later).le) aboveNext atKey'
      refine ⟨state'', by rw [List.foldlM_cons, step, Except.ok_bind, run], ?_⟩
      rw [List.filterMap_cons]
      cases left : mergeOutput keepShadowedLifecycleEntries shadows j <;>
        simpa [left] using puts

/-- A merge of two runs in increasing key order, whose merge-join is mergeable, from a state past
no key and above what it put, puts what each item leaves, unless shadows hide it. -/
theorem mergeInternal_spec {old new records : List (BucketEntry T Body)}
    {state : LiveMergeState T Body Out}
    (sortedOld : old.Pairwise (·.idKey < ·.idKey)) (sortedNew : new.Pairwise (·.idKey < ·.idKey))
    (mergeable : ∀ j ∈ mergeJoin compareLive old new, Mergeable protocolVersion j)
    (above : ∀ r ∈ records, ∀ e ∈ old ++ new, r.idKey < e.idKey)
    (atKey : AtKey Puts shadows ⊥ records state) :
    ∃ state', mergeInternal compareLive
        (acceptEntry putFunc protocolVersion keepShadowedLifecycleEntries)
        (mergeCasesWithEqualKeys putFunc protocolVersion keepShadowedLifecycleEntries)
        old new state = .ok state' ∧
      Puts state'.out
        (records ++ (mergeJoin compareLive old new).filterMap
          (mergeOutput keepShadowedLifecycleEntries shadows)) := by
  rw [mergeInternal_eq_foldlM]
  refine foldlM_joinStep_spec appends keepShadowedLifecycleEntries sortedShadows
    (pairwise_mergeJoin compareLive_eq sortedOld sortedNew) mergeable (fun _ _ => bot_le) ?_ atKey
  intro r member
  exact keyOf_mem_mergeJoin compareLive_eq
    (fun e inOld => above r member e (List.mem_append_left new inOld))
    (fun e inNew => above r member e (List.mem_append_right old inNew))

end Sink

/-- Collecting entries in a list, as `mergeInMemory` does, appends them. -/
theorem appends_pushBack (protocolVersion : Nat) :
    Appends (fun (mergedEntries : List (BucketEntry T Body)) entry =>
        (.ok (mergedEntries ++ [entry]) : Except String _)) (fun out records => out = records)
      protocolVersion := by
  intro out records e puts _ _
  exact ⟨records ++ [e], by rw [puts], rfl⟩

/-- An output iterator that holds `front`, records all below any entry, appends entries legal at
its protocol, less the tombstones it drops. -/
theorem appends_put {keepTombstoneEntries putMeta : Bool} {metadata : BucketMetadata}
    {front : List (BucketEntry T Body)} (bottom : ∀ r ∈ front, r.idKey = ⊥) :
    Appends BucketOutputIterator.put
      (fun out records => out = BucketOutputIterator.given keepTombstoneEntries metadata putMeta
        (front ++ records.filter (BucketOutputIterator.keeps keepTombstoneEntries)))
      metadata.ledgerVersion := by
  intro out records e puts above ⟨notMeta, legal⟩
  have eAbove : ⊥ < e.idKey :=
    bot_lt_iff_ne_bot.mpr fun isBot => notMeta ((BucketEntry.idKey_eq_bot_iff e).mp isBot)
  have below : ∀ r ∈ front ++ records.filter (BucketOutputIterator.keeps keepTombstoneEntries),
      r.idKey < e.idKey := by
    intro r member
    rcases List.mem_append.mp member with inFront | kept
    · exact bottom r inFront ▸ eAbove
    · exact above r (List.mem_filter.mp kept).1
  refine ⟨_, puts ▸ BucketOutputIterator.put_given below legal notMeta, ?_⟩
  dsimp only
  rw [List.filter_append, List.append_assoc]
  cases kept : BucketOutputIterator.keeps keepTombstoneEntries e <;> simp [kept]

/-! ## The protocol of a merge -/

/-- The fold of `calculateMergeProtocolVersion` over the shadows, which counts those before
protocol 12, is at least where it starts and each counted shadow's protocol, stays within any
bound of all the protocols, and stays before protocol 12 when it starts there. -/
theorem foldl_protocolVersion_spec {E : Type} (bound : Nat) :
    ∀ (shadowIterators : List (BucketMetadata × List E)) (start : Nat),
      let protocolVersion := shadowIterators.foldl (fun protocolVersion si =>
        if si.1.ledgerVersion < FIRST_PROTOCOL_SHADOWS_REMOVED then
          max si.1.ledgerVersion protocolVersion
        else protocolVersion) start
      start ≤ protocolVersion ∧
      (∀ si ∈ shadowIterators, si.1.ledgerVersion < FIRST_PROTOCOL_SHADOWS_REMOVED →
        si.1.ledgerVersion ≤ protocolVersion) ∧
      (start ≤ bound → (∀ si ∈ shadowIterators, si.1.ledgerVersion ≤ bound) →
        protocolVersion ≤ bound) ∧
      (start < FIRST_PROTOCOL_SHADOWS_REMOVED → protocolVersion < FIRST_PROTOCOL_SHADOWS_REMOVED)
  | [], start => by simp
  | si :: rest, start => by
      obtain ⟨fromStart, counted, bounded, early⟩ := foldl_protocolVersion_spec bound rest
        (if si.1.ledgerVersion < FIRST_PROTOCOL_SHADOWS_REMOVED then max si.1.ledgerVersion start
          else start)
      simp only [List.foldl_cons, List.mem_cons, forall_eq_or_imp]
      refine ⟨le_trans ?_ fromStart, ⟨fun counts => le_trans ?_ fromStart, counted⟩,
        fun startFits fits => bounded ?_ fits.2, fun startEarly => early ?_⟩ <;>
        split_ifs <;> omega

/-- The protocol of a merge whose inputs all fit `maxProtocolVersion`, with shadows only when the
inputs predate protocol 12: it is at least each input's, it fits, and shadowed INIT and DEAD
entries are kept from protocol 11. -/
theorem calculateMergeProtocolVersion_spec {E : Type} {maxProtocolVersion : Nat}
    {oi ni : BucketMetadata × List E} {shadowIterators : List (BucketMetadata × List E)}
    (fits : ∀ si ∈ oi :: ni :: shadowIterators, si.1.ledgerVersion ≤ maxProtocolVersion)
    (allowed : shadowIterators ≠ [] →
      ∀ si ∈ oi :: ni :: shadowIterators, si.1.ledgerVersion < FIRST_PROTOCOL_SHADOWS_REMOVED) :
    ∃ protocolVersion, calculateMergeProtocolVersion maxProtocolVersion oi ni shadowIterators =
        .ok (protocolVersion,
          !decide (protocolVersion < FIRST_PROTOCOL_SUPPORTING_INITENTRY_AND_METAENTRY)) ∧
      (∀ si ∈ oi :: ni :: shadowIterators, si.1.ledgerVersion < FIRST_PROTOCOL_SHADOWS_REMOVED →
        si.1.ledgerVersion ≤ protocolVersion) ∧
      oi.1.ledgerVersion ≤ protocolVersion ∧ ni.1.ledgerVersion ≤ protocolVersion ∧
      protocolVersion ≤ maxProtocolVersion := by
  obtain ⟨fromStart, counted, bounded, early⟩ :=
    foldl_protocolVersion_spec maxProtocolVersion shadowIterators
      (max oi.1.ledgerVersion ni.1.ledgerVersion)
  simp only [List.mem_cons, forall_eq_or_imp] at fits allowed
  have fit := bounded (max_le fits.1 fits.2.1) fits.2.2
  refine ⟨_, ?_, ?_, le_trans (le_max_left _ _) fromStart,
    le_trans (le_max_right _ _) fromStart, fit⟩
  · unfold calculateMergeProtocolVersion updateMergeCountersForProtocolVersion
    rw [if_neg (not_lt.mpr fit)]
    by_cases none : shadowIterators = []
    · subst none
      split_ifs <;> simp_all
    · have before := early (max_lt (allowed none).1 (allowed none).2.1)
      simp [before]
  · simp only [List.mem_cons, forall_eq_or_imp]
    exact ⟨fun counts => le_trans (le_max_left _ _) fromStart,
      fun counts => le_trans (le_max_right _ _) fromStart, counted⟩

/-! ## Reading the bucket list -/

/-- The entry a read of the bucket list reaches: that of the first bucket that holds the key. -/
def findEntry (k : LedgerKey T) : List (List (BucketEntry T Body)) → Option (BucketEntry T Body)
  | [] => none
  | bucket :: older => (getBucketEntry k bucket).or (findEntry k older)

theorem findEntry_nil (k : LedgerKey T) :
    findEntry k ([] : List (List (BucketEntry T Body))) = none := rfl

theorem findEntry_cons (k : LedgerKey T) (bucket : List (BucketEntry T Body))
    (older : List (List (BucketEntry T Body))) :
    findEntry k (bucket :: older) = (getBucketEntry k bucket).or (findEntry k older) := rfl

/-- A read answers from the entry it reaches. -/
theorem load_eq (k : LedgerKey T) :
    ∀ buckets : List (List (BucketEntry T Body)),
      load k buckets = (findEntry k buckets).bind bucketEntryToLoadResult
  | [] => rfl
  | bucket :: older => by
      cases found : getBucketEntry k bucket <;> simp [load, findEntry_cons, found, load_eq k older]

theorem findEntry_append (k : LedgerKey T) :
    ∀ newer older : List (List (BucketEntry T Body)),
      findEntry k (newer ++ older) = (findEntry k newer).or (findEntry k older)
  | [], older => rfl
  | bucket :: newer, older => by
      simp [findEntry_cons, findEntry_append k newer older, Option.or_assoc]

/-- Every INIT entry follows a deletion or nothing: the buckets older than the one that holds it
read its key as absent. -/
def InitAfterDead : List (List (BucketEntry T Body)) → Prop
  | [] => True
  | bucket :: older =>
      (∀ k e, getBucketEntry k bucket = some (.initEntry e) → load k older = none) ∧
        InitAfterDead older

theorem InitAfterDead.cons {bucket : List (BucketEntry T Body)}
    {older : List (List (BucketEntry T Body))}
    (follows : ∀ k e, getBucketEntry k bucket = some (.initEntry e) → load k older = none)
    (kept : InitAfterDead older) : InitAfterDead (bucket :: older) :=
  ⟨follows, kept⟩

theorem InitAfterDead.of_append {older : List (List (BucketEntry T Body))} :
    ∀ {newer : List (List (BucketEntry T Body))}, InitAfterDead (newer ++ older) →
      InitAfterDead older
  | [], holds => holds
  | bucket :: newer, holds => by
      rw [List.cons_append] at holds
      exact InitAfterDead.of_append holds.2

/-- The invariant carries over when the oldest buckets are replaced by others that keep it and
still read as absent each key a newer bucket creates that the old ones read as absent. -/
theorem InitAfterDead.replace {older older' : List (List (BucketEntry T Body))}
    (kept : InitAfterDead older') :
    ∀ {newer : List (List (BucketEntry T Body))},
      (∀ k, (∃ bucket ∈ newer, ∃ e, getBucketEntry k bucket = some (.initEntry e)) →
        load k older = none → load k older' = none) →
      InitAfterDead (newer ++ older) → InitAfterDead (newer ++ older')
  | [], _, _ => kept
  | bucket :: newer, absent, holds => by
      rw [List.cons_append] at holds ⊢
      obtain ⟨follows, rest⟩ := holds
      refine ⟨fun k e created => ?_, InitAfterDead.replace kept
        (fun k' inNewer => absent k' (by
          obtain ⟨b, member, e', found⟩ := inNewer
          exact ⟨b, List.mem_cons_of_mem bucket member, e', found⟩)) rest⟩
      have before := follows k e created
      rw [load_eq, findEntry_append] at before ⊢
      cases reached : findEntry k newer with
      | some x => simpa [reached] using before
      | none =>
          have old : load k older = none := by simpa [load_eq, reached] using before
          simpa [load_eq] using absent k ⟨bucket, List.mem_cons_self, e, created⟩ old

/-! ## One key of the merge -/

/-- What a merge writes for one key, from the old and the new bucket's entries of that key: what
their item leaves, if `maybePut` puts it and the output iterator keeps it. -/
def mergedAt (putKeeps : BucketEntry T Body → Bool) (keepTombstoneEntries : Bool)
    (oldFound newFound : Option (BucketEntry T Body)) : Option (BucketEntry T Body) :=
  (((Joined.ofFound oldFound newFound).bind mergedEntry).filter putKeeps).filter
    (BucketOutputIterator.keeps keepTombstoneEntries)

section OneKey

variable {putKeeps : BucketEntry T Body → Bool} {keepTombstoneEntries : Bool}
  {oldFound newFound older : Option (BucketEntry T Body)}
  (oldNotMeta : ∀ x ∈ oldFound, x.type ≠ .metaentry)
  (newNotMeta : ∀ y ∈ newFound, y.type ≠ .metaentry)
  (newCreates : ∀ y, newFound = some (.initEntry y) →
    (oldFound.or older).bind bucketEntryToLoadResult = none)
  (oldCreates : ∀ x, oldFound = some (.initEntry x) → older.bind bucketEntryToLoadResult = none)
include oldNotMeta newNotMeta newCreates oldCreates

/-- Where nothing is hidden and tombstones are dropped only with nothing older, what the merge
writes for a key, above the older buckets, reads as the new entry above the old one did. This is
the table of `mergeCasesWithEqualKeys`, case by case: a creation is over a deletion or nothing,
so a creation and a deletion leave nothing over older buckets that read as absent. -/
theorem mergedAt_reads (bottom : keepTombstoneEntries = false → older = none)
    (unhidden : ∀ e ∈ (Joined.ofFound oldFound newFound).bind mergedEntry, putKeeps e = true) :
    ((mergedAt putKeeps keepTombstoneEntries oldFound newFound).or older).bind
        bucketEntryToLoadResult =
      (newFound.or (oldFound.or older)).bind bucketEntryToLoadResult := by
  rcases oldFound with _ | ⟨x | x | x | x⟩ <;> rcases newFound with _ | ⟨y | y | y | y⟩ <;>
    cases keepTombstoneEntries <;>
    simp_all [mergedAt, Joined.ofFound, mergedEntry, BucketOutputIterator.keeps, isTombstoneEntry,
      BucketEntry.type, bucketEntryToLoadResult, Option.filter]

/-- Where creations and deletions are never hidden, a key the new entry above the old one read
as absent still reads as absent: only an update can be hidden, and an update reads as present. -/
theorem mergedAt_absent (bottom : keepTombstoneEntries = false → older = none)
    (lifecycleKept : ∀ e ∈ (Joined.ofFound oldFound newFound).bind mergedEntry,
      e.type = .initentry ∨ e.type = .deadentry → putKeeps e = true)
    (absent : (newFound.or (oldFound.or older)).bind bucketEntryToLoadResult = none) :
    ((mergedAt putKeeps keepTombstoneEntries oldFound newFound).or older).bind
      bucketEntryToLoadResult = none := by
  rcases oldFound with _ | ⟨x | x | x | x⟩ <;> rcases newFound with _ | ⟨y | y | y | y⟩ <;>
    cases keepTombstoneEntries <;>
    simp_all [mergedAt, Joined.ofFound, mergedEntry, BucketOutputIterator.keeps, isTombstoneEntry,
      BucketEntry.type, bucketEntryToLoadResult, Option.filter]

/-- A creation the merge writes comes from a creation over a deletion or nothing, so the older
buckets read its key as absent. -/
theorem mergedAt_creates {e : LedgerEntry T Body}
    (created : mergedAt putKeeps keepTombstoneEntries oldFound newFound = some (.initEntry e)) :
    older.bind bucketEntryToLoadResult = none := by
  have made : (Joined.ofFound oldFound newFound).bind mergedEntry = some (.initEntry e) := by
    simp only [mergedAt, Option.filter_eq_some_iff] at created
    exact created.1.1
  rcases oldFound with _ | ⟨x | x | x | x⟩ <;> rcases newFound with _ | ⟨y | y | y | y⟩ <;>
    simp_all [Joined.ofFound, mergedEntry, BucketEntry.type, bucketEntryToLoadResult]

end OneKey

/-! ## The merged bucket -/

theorem getBucketEntry_eq_findKey (k : LedgerKey T) (bucket : List (BucketEntry T Body)) :
    getBucketEntry k bucket = findKey BucketEntry.idKey (k : WithBot (LedgerKey T)) bucket :=
  rfl

/-- A key never finds records below every key, as the metadata is. -/
theorem getBucketEntry_append_bottom (k : LedgerKey T) {front : List (BucketEntry T Body)}
    (bottom : ∀ r ∈ front, r.idKey = ⊥) (rest : List (BucketEntry T Body)) :
    getBucketEntry k (front ++ rest) = getBucketEntry k rest := by
  have missed : getBucketEntry k front = none := by
    rw [getBucketEntry_eq_findKey]
    exact findKey_eq_none_of_ne fun r member => by simp [bottom r member]
  rw [getBucketEntry, List.find?_append, ← getBucketEntry, missed, Option.none_or]
  rfl

/-- A key of a well-formed file finds the entry of its entries. -/
theorem WellFormed.getBucketEntry_eq {file : List (BucketEntry T Body)} (wellFormed : WellFormed file)
    (k : LedgerKey T) : getBucketEntry k file = getBucketEntry k (bucketEntries file) := by
  match file with
  | [] => rfl
  | .metaEntry m :: entries =>
      have bottom : ∀ r ∈ ([.metaEntry m] : List (BucketEntry T Body)), r.idKey = ⊥ := by
        simp [BucketEntry.idKey]
      exact getBucketEntry_append_bottom k bottom entries
  | .liveEntry _ :: _ | .initEntry _ :: _ | .deadEntry _ :: _ => rfl

/-- Of a key, a shadow iterator of well-formed shadows finds an entry exactly when a read of the
shadows reaches one. -/
theorem shadowedBy_eq {shadows : List (List (BucketEntry T Body))}
    (wellFormed : ∀ s ∈ shadows, WellFormed s) {k : LedgerKey T} {e : BucketEntry T Body}
    (atKey : e.idKey = k) :
    shadowedBy (shadows.map bucketEntries) e = (findEntry k shadows).isSome := by
  induction shadows with
  | nil => rfl
  | cons s shadows ih =>
      have found := (wellFormed s List.mem_cons_self).getBucketEntry_eq k
      rw [getBucketEntry_eq_findKey, getBucketEntry_eq_findKey] at found
      simp only [shadowedBy, List.map_cons, List.any_cons, findEntry_cons, Option.isSome_or] at ih ⊢
      rw [atKey] at ih ⊢
      rw [← found, ← getBucketEntry_eq_findKey,
        ih fun s' later => wellFormed s' (List.mem_cons_of_mem s later)]

theorem bind_mergeOutput (keepShadowedLifecycleEntries : Bool)
    (shadows : List (List (BucketEntry T Body))) (j? : Option (Joined (BucketEntry T Body))) :
    j?.bind (mergeOutput keepShadowedLifecycleEntries shadows) =
      (j?.bind mergedEntry).filter (maybePutKeeps keepShadowedLifecycleEntries shadows) := by
  cases j? <;> rfl

/-- The entries of a well-formed file are takeable at any protocol from the file's. -/
theorem WellFormed.takeable {file : List (BucketEntry T Body)} (wellFormed : WellFormed file)
    {protocolVersion : Nat} (recent : bucketVersion file ≤ protocolVersion) :
    ∀ e ∈ bucketEntries file, Takeable protocolVersion e := fun e member =>
  ⟨wellFormed.entries_not_meta e member, wellFormed.entries_legal recent e member⟩

/-- The items of the merge-join of two well-formed files whose protocols the merge's reaches, with
no creation over an entry that is not a deletion, are mergeable. -/
theorem mergeable_of_wellFormed {protocolVersion : Nat} {oldBucket newBucket : List (BucketEntry T Body)}
    (wellFormedOld : WellFormed oldBucket) (wellFormedNew : WellFormed newBucket)
    (oldFits : bucketVersion oldBucket ≤ protocolVersion)
    (newFits : bucketVersion newBucket ≤ protocolVersion)
    (createsOverDead : ∀ x ∈ bucketEntries oldBucket, ∀ y ∈ bucketEntries newBucket,
      x.idKey = y.idKey → y.type = .initentry → x.type = .deadentry) :
    ∀ j ∈ mergeJoin compareLive (bucketEntries oldBucket) (bucketEntries newBucket),
      Mergeable protocolVersion j := by
  intro j member
  rcases mem_mergeJoin compareLive_eq member with ⟨x, inOld, rfl⟩ | ⟨y, inNew, rfl⟩ |
      ⟨x, inOld, y, inNew, same, rfl⟩
  · exact wellFormedOld.takeable oldFits x inOld
  · exact wellFormedNew.takeable newFits y inNew
  · exact ⟨wellFormedOld.takeable oldFits x inOld, wellFormedNew.takeable newFits y inNew, same,
      createsOverDead x inOld y inNew same⟩

/-- What a key finds in a well-formed file is one of its entries, of that key. -/
theorem WellFormed.getBucketEntry_spec {file : List (BucketEntry T Body)}
    (wellFormed : WellFormed file) {k : LedgerKey T} {x : BucketEntry T Body}
    (found : getBucketEntry k file = some x) : x ∈ bucketEntries file ∧ x.idKey = k := by
  rw [wellFormed.getBucketEntry_eq, getBucketEntry] at found
  have matched := List.find?_some found
  exact ⟨List.mem_of_find?_eq_some found, by simpa using matched⟩

/-- A key of an entry of a well-formed file finds that entry. -/
theorem WellFormed.getBucketEntry_of_mem {file : List (BucketEntry T Body)}
    (wellFormed : WellFormed file) {k : LedgerKey T} {x : BucketEntry T Body}
    (member : x ∈ bucketEntries file) (atKey : x.idKey = k) : getBucketEntry k file = some x := by
  rw [wellFormed.getBucketEntry_eq, getBucketEntry_eq_findKey, ← atKey]
  exact findKey_of_mem wellFormed.entries_sorted member

/-- The merge of two well-formed buckets whose protocols fit `maxProtocolVersion`, with shadows
only before protocol 12 and no creation over an entry that is not a deletion: its records are the
metadata from protocol 11, then what each item of the merge-join of the inputs' entries leaves,
less what shadows hide and the tombstones dropped at the bottom level. -/
theorem merge_spec {maxProtocolVersion : Nat} {oldBucket newBucket : List (BucketEntry T Body)}
    {shadows : List (List (BucketEntry T Body))} (keepTombstoneEntries : Bool)
    (wellFormed : ∀ b ∈ oldBucket :: newBucket :: shadows, WellFormed b)
    (fits : ∀ b ∈ oldBucket :: newBucket :: shadows, bucketVersion b ≤ maxProtocolVersion)
    (allowed : shadows ≠ [] → ∀ b ∈ oldBucket :: newBucket :: shadows,
      bucketVersion b < FIRST_PROTOCOL_SHADOWS_REMOVED)
    (createsOverDead : ∀ x ∈ bucketEntries oldBucket, ∀ y ∈ bucketEntries newBucket,
      x.idKey = y.idKey → y.type = .initentry → x.type = .deadentry) :
    ∃ protocolVersion,
      (∀ b ∈ oldBucket :: newBucket :: shadows, bucketVersion b < FIRST_PROTOCOL_SHADOWS_REMOVED →
        bucketVersion b ≤ protocolVersion) ∧
      bucketVersion oldBucket ≤ protocolVersion ∧ bucketVersion newBucket ≤ protocolVersion ∧
      protocolVersion ≤ maxProtocolVersion ∧
      merge maxProtocolVersion oldBucket newBucket shadows keepTombstoneEntries =
        .ok (metadataRecords protocolVersion ++
          ((mergeJoin compareLive (bucketEntries oldBucket) (bucketEntries newBucket)).filterMap
            (mergeOutput
              (!decide (protocolVersion < FIRST_PROTOCOL_SUPPORTING_INITENTRY_AND_METAENTRY))
              (shadows.map bucketEntries))).filter
            (BucketOutputIterator.keeps keepTombstoneEntries)) := by
  have wellFormedOld := wellFormed oldBucket List.mem_cons_self
  have wellFormedNew := wellFormed newBucket (List.mem_cons_of_mem _ List.mem_cons_self)
  have wellFormedShadows : ∀ s ∈ shadows, WellFormed s := fun s member =>
    wellFormed s (List.mem_cons_of_mem _ (List.mem_cons_of_mem _ member))
  have readShadows : shadows.mapM BucketInputIterator.read = .ok (shadows.map readOf) :=
    Except.mapM_eq_ok fun s member => (wellFormedShadows s member).read
  -- the protocol of the merge, from the metadata the iterators read
  have readFits : ∀ si ∈ readOf oldBucket :: readOf newBucket :: shadows.map readOf,
      si.1.ledgerVersion ≤ maxProtocolVersion := by
    simpa [readOf] using fits
  have readAllowed : shadows.map readOf ≠ [] → ∀ si ∈ readOf oldBucket :: readOf newBucket ::
      shadows.map readOf, si.1.ledgerVersion < FIRST_PROTOCOL_SHADOWS_REMOVED := by
    simpa [readOf] using allowed
  obtain ⟨protocolVersion, calculated, counted, oldFits, newFits, bounded⟩ :=
    calculateMergeProtocolVersion_spec readFits readAllowed
  simp only [List.mem_cons, List.mem_map, forall_eq_or_imp, forall_exists_index, and_imp,
    forall_apply_eq_imp_iff₂, readOf] at counted
  have countedBuckets : ∀ b ∈ oldBucket :: newBucket :: shadows,
      bucketVersion b < FIRST_PROTOCOL_SHADOWS_REMOVED → bucketVersion b ≤ protocolVersion := by
    simpa using counted
  refine ⟨protocolVersion, countedBuckets, oldFits, newFits, bounded, ?_⟩
  have mergeable := mergeable_of_wellFormed wellFormedOld wellFormedNew oldFits newFits
    createsOverDead
  -- the output iterator starts after the metadata, and appends what the merge puts
  have start : AtKey (fun out records => out = BucketOutputIterator.given keepTombstoneEntries
        ⟨protocolVersion⟩
        (decide (FIRST_PROTOCOL_SUPPORTING_INITENTRY_AND_METAENTRY ≤ protocolVersion))
        (metadataRecords protocolVersion ++
          records.filter (BucketOutputIterator.keeps keepTombstoneEntries)))
      (shadows.map bucketEntries) ⊥ []
      ⟨(shadows.map readOf).map Prod.snd, BucketOutputIterator.given keepTombstoneEntries
        ⟨protocolVersion⟩
        (decide (FIRST_PROTOCOL_SUPPORTING_INITENTRY_AND_METAENTRY ≤ protocolVersion))
        (metadataRecords protocolVersion)⟩ := by
    refine ⟨by simp, ?_⟩
    rw [List.map_map]
    exact List.forall₂_same.mpr fun s _ => Passed.refl ⊥ s
  obtain ⟨state, run, puts⟩ := mergeInternal_spec (appends_put (metadataRecords_idKey protocolVersion))
    (!decide (protocolVersion < FIRST_PROTOCOL_SUPPORTING_INITENTRY_AND_METAENTRY))
    (fun s member => by
      obtain ⟨file, inShadows, rfl⟩ := List.mem_map.mp member
      exact (wellFormedShadows file inShadows).entries_sorted)
    wellFormedOld.entries_sorted wellFormedNew.entries_sorted mergeable (by simp) start
  simp only [merge, wellFormedOld.read, wellFormedNew.read, readShadows, calculated,
    BucketOutputIterator.init_eq, Except.ok_bind]
  rw [show (readOf oldBucket).2 = bucketEntries oldBucket from rfl,
    show (readOf newBucket).2 = bucketEntries newBucket from rfl, run, Except.ok_bind, puts]
  simp

/-- What the merge leaves for a key has that key, when the entries it is made of have it. -/
theorem mergedAt_key {oldFound newFound : Option (BucketEntry T Body)}
    {key : WithBot (LedgerKey T)}
    (oldAt : ∀ x ∈ oldFound, x.idKey = key) (newAt : ∀ y ∈ newFound, y.idKey = key) :
    ∀ e ∈ (Joined.ofFound oldFound newFound).bind mergedEntry, e.idKey = key := by
  intro e made
  rcases oldFound with _ | ⟨x | x | x | x⟩ <;> rcases newFound with _ | ⟨y | y | y | y⟩ <;>
    simp only [Joined.ofFound, mergedEntry, Option.bind, Option.mem_def, Option.some.injEq,
      reduceCtorEq] at made <;>
    subst made <;> simp_all [BucketEntry.idKey]

/-- The entries a merge of two runs in increasing key order puts, in the order it puts them. -/
theorem mergeOutputs_spec {protocolVersion : Nat} {old new : List (BucketEntry T Body)}
    (sortedOld : old.Pairwise (·.idKey < ·.idKey)) (sortedNew : new.Pairwise (·.idKey < ·.idKey))
    (mergeable : ∀ j ∈ mergeJoin compareLive old new, Mergeable protocolVersion j)
    (keepShadowedLifecycleEntries : Bool) (shadows : List (List (BucketEntry T Body))) :
    let puts := (mergeJoin compareLive old new).filterMap
      (mergeOutput keepShadowedLifecycleEntries shadows)
    puts.Pairwise (·.idKey < ·.idKey) ∧ ∀ e ∈ puts, Takeable protocolVersion e := by
  intro puts
  refine ⟨pairwise_filterMap (mergeOutput_keys mergeable)
    (pairwise_mergeJoin compareLive_eq sortedOld sortedNew), fun e member => ?_⟩
  obtain ⟨j, inJoin, made⟩ := List.mem_filterMap.mp member
  have fromItem : mergedEntry j = some e := by
    simp only [mergeOutput, Option.filter_eq_some_iff] at made
    exact made.1
  exact (mergedEntry_spec (mergeable j inJoin) fromItem).1

section Merged

variable {protocolVersion : Nat} {oldBucket newBucket : List (BucketEntry T Body)}
  (wellFormedOld : WellFormed oldBucket) (wellFormedNew : WellFormed newBucket)
  (mergeable : ∀ j ∈ mergeJoin compareLive (bucketEntries oldBucket) (bucketEntries newBucket),
    Mergeable protocolVersion j)
  (keepShadowedLifecycleEntries keepTombstoneEntries : Bool)
  (shadows : List (List (BucketEntry T Body)))
include wellFormedOld wellFormedNew mergeable

/-- A key finds in the merged bucket what the merge leaves of the entries of that key in the two
inputs. -/
theorem getBucketEntry_merged {front : List (BucketEntry T Body)}
    (bottom : ∀ r ∈ front, r.idKey = ⊥) (k : LedgerKey T) :
    getBucketEntry k (front ++
        ((mergeJoin compareLive (bucketEntries oldBucket) (bucketEntries newBucket)).filterMap
          (mergeOutput keepShadowedLifecycleEntries shadows)).filter
          (BucketOutputIterator.keeps keepTombstoneEntries)) =
      mergedAt (maybePutKeeps keepShadowedLifecycleEntries shadows) keepTombstoneEntries
        (getBucketEntry k oldBucket) (getBucketEntry k newBucket) := by
  have sortedOld := wellFormedOld.entries_sorted
  have sortedNew := wellFormedNew.entries_sorted
  rw [getBucketEntry_append_bottom k bottom, getBucketEntry_eq_findKey,
    findKey_filter _ _ (mergeOutputs_spec sortedOld sortedNew mergeable
      keepShadowedLifecycleEntries shadows).1,
    findKey_filterMap _ (mergeOutput_keys mergeable)
      (pairwise_mergeJoin compareLive_eq sortedOld sortedNew),
    findKey_mergeJoin compareLive_eq _ sortedOld sortedNew, wellFormedOld.getBucketEntry_eq,
    wellFormedNew.getBucketEntry_eq, bind_mergeOutput]
  rfl

/-- The merged bucket is well formed: the metadata of its protocol first from protocol 11, then
the entries the merge put, in increasing key order and legal at that protocol. -/
theorem merged_wellFormed :
    WellFormed (metadataRecords protocolVersion ++
      ((mergeJoin compareLive (bucketEntries oldBucket) (bucketEntries newBucket)).filterMap
        (mergeOutput keepShadowedLifecycleEntries shadows)).filter
        (BucketOutputIterator.keeps keepTombstoneEntries)) := by
  obtain ⟨sorted, takeable⟩ := mergeOutputs_spec wellFormedOld.entries_sorted
    wellFormedNew.entries_sorted mergeable keepShadowedLifecycleEntries shadows
  exact wellFormed_metadataRecords (sorted.filter _)
    fun e member => takeable e (List.mem_filter.mp member).1

end Merged

/-! ## What a merge keeps -/

/-- What the merge needs of the entries of one key in its inputs, from the invariant over the
buckets from the new one down: they are not metadata, and a creation reads as absent below it. -/
theorem merge_key_facts {oldBucket newBucket : List (BucketEntry T Body)}
    {rest : List (List (BucketEntry T Body))}
    (wellFormedOld : WellFormed oldBucket) (wellFormedNew : WellFormed newBucket)
    (lifecycle : InitAfterDead (newBucket :: oldBucket :: rest)) (k : LedgerKey T) :
    (∀ x ∈ getBucketEntry k oldBucket, x.type ≠ .metaentry ∧ x.idKey = k) ∧
    (∀ y ∈ getBucketEntry k newBucket, y.type ≠ .metaentry ∧ y.idKey = k) ∧
    (∀ y, getBucketEntry k newBucket = some (.initEntry y) →
      ((getBucketEntry k oldBucket).or (findEntry k rest)).bind bucketEntryToLoadResult = none) ∧
    (∀ x, getBucketEntry k oldBucket = some (.initEntry x) →
      (findEntry k rest).bind bucketEntryToLoadResult = none) := by
  obtain ⟨newCreates, oldCreates, -⟩ := lifecycle
  refine ⟨fun x found => ?_, fun y found => ?_, fun y created => ?_, fun x created => ?_⟩
  · obtain ⟨member, atKey⟩ := wellFormedOld.getBucketEntry_spec found
    exact ⟨wellFormedOld.entries_not_meta x member, atKey⟩
  · obtain ⟨member, atKey⟩ := wellFormedNew.getBucketEntry_spec found
    exact ⟨wellFormedNew.entries_not_meta y member, atKey⟩
  · simpa [load_eq, findEntry_cons] using newCreates k y created
  · simpa [load_eq] using oldCreates k x created

/-- Key fields that are all numbers, to run the merge on. -/
abbrev natKeys : KeyTypes :=
  ⟨Nat, Nat, Nat, Nat, Nat, Nat, Nat, Nat, Nat, inferInstance, inferInstance, inferInstance,
    inferInstance, inferInstance, inferInstance, inferInstance, inferInstance, inferInstance⟩

end StellarCore.Bucket
