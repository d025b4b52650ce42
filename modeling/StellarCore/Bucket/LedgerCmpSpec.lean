import StellarCore.Bucket.LedgerCmp
import StellarCore.Lib.Lex
import StellarCore.Lib.StdSort
import Mathlib.Data.Prod.Lex
import Mathlib.Order.WithBot

/-!
# The identity comparators are the order of ledger keys

XDR orders a union by its discriminant and then by the arm, and a struct lexicographically by
its fields in declaration order. On `LedgerKey` that is the lexicographic order on the sum of
its arms, each arm the lexicographic product of its fields. `LedgerEntryIdCmp` compares exactly
that order on the keys of what it is given, so it is a strict weak order whose equivalent values
are those of one key; the bucket comparators compare the same keys with the metadata below
every key.
-/

set_option autoImplicit false

namespace StellarCore.Bucket

variable {T : KeyTypes} {Body : LedgerEntryType → Type}

theorem lexCompare_eq {α : Type} [LinearOrder α] (lhs1 rhs1 : α) (rest : Bool) :
    lexCompare lhs1 rhs1 rest = decide (lhs1 < rhs1 ∨ lhs1 = rhs1 ∧ rest = true) := by
  unfold lexCompare
  rcases lt_trichotomy lhs1 rhs1 with below | same | above
  · simp [below]
  · simp [same]
  · simp [above, not_lt_of_gt above, ne_of_gt above]

/-! ## The XDR order on ledger keys -/

namespace LedgerKey

/-- The arm of `LedgerKey` for each type: its fields in declaration order. -/
@[reducible] def Arm (T : KeyTypes) : LedgerEntryType → Type
  | .account => T.AccountID
  | .trustline => T.AccountID ×ₗ T.TrustLineAsset
  | .offer => T.AccountID ×ₗ Int
  | .data => T.AccountID ×ₗ T.String64
  | .claimableBalance => T.ClaimableBalanceID
  | .liquidityPool => T.PoolID
  | .contractData => T.SCAddress ×ₗ T.SCVal ×ₗ ContractDataDurability
  | .contractCode => T.Hash
  | .configSetting => T.ConfigSettingID
  | .ttl => T.Hash

instance armOrder : (t : LedgerEntryType) → LinearOrder (Arm T t)
  | .account => inferInstanceAs (LinearOrder T.AccountID)
  | .trustline => inferInstanceAs (LinearOrder (T.AccountID ×ₗ T.TrustLineAsset))
  -- the computable order on the integers, not the conditionally complete one,
  -- so that the key order can be evaluated
  | .offer => @Prod.Lex.instLinearOrder T.AccountID Int _ Int.instLinearOrder
  | .data => inferInstanceAs (LinearOrder (T.AccountID ×ₗ T.String64))
  | .claimableBalance => inferInstanceAs (LinearOrder T.ClaimableBalanceID)
  | .liquidityPool => inferInstanceAs (LinearOrder T.PoolID)
  | .contractData =>
      inferInstanceAs (LinearOrder (T.SCAddress ×ₗ T.SCVal ×ₗ ContractDataDurability))
  | .contractCode => inferInstanceAs (LinearOrder T.Hash)
  | .configSetting => inferInstanceAs (LinearOrder T.ConfigSettingID)
  | .ttl => inferInstanceAs (LinearOrder T.Hash)

/-- A key as its type and the arm of that type. -/
def toSigma : LedgerKey T → Σₗ t, Arm T t
  | .account a => toLex ⟨.account, a⟩
  | .trustLine a b => toLex ⟨.trustline, toLex (a, b)⟩
  | .offer a b => toLex ⟨.offer, toLex (a, b)⟩
  | .data a b => toLex ⟨.data, toLex (a, b)⟩
  | .claimableBalance a => toLex ⟨.claimableBalance, a⟩
  | .liquidityPool a => toLex ⟨.liquidityPool, a⟩
  | .contractData a b c => toLex ⟨.contractData, toLex (a, toLex (b, c))⟩
  | .contractCode a => toLex ⟨.contractCode, a⟩
  | .configSetting a => toLex ⟨.configSetting, a⟩
  | .ttl a => toLex ⟨.ttl, a⟩

def ofSigma (arm : Σₗ t, Arm T t) : LedgerKey T :=
  match ofLex arm with
  | ⟨.account, a⟩ => .account a
  | ⟨.trustline, p⟩ => .trustLine (ofLex p).1 (ofLex p).2
  | ⟨.offer, p⟩ => .offer (ofLex p).1 (ofLex p).2
  | ⟨.data, p⟩ => .data (ofLex p).1 (ofLex p).2
  | ⟨.claimableBalance, a⟩ => .claimableBalance a
  | ⟨.liquidityPool, a⟩ => .liquidityPool a
  | ⟨.contractData, p⟩ => .contractData (ofLex p).1 (ofLex (ofLex p).2).1 (ofLex (ofLex p).2).2
  | ⟨.contractCode, a⟩ => .contractCode a
  | ⟨.configSetting, a⟩ => .configSetting a
  | ⟨.ttl, a⟩ => .ttl a

theorem ofSigma_toSigma (k : LedgerKey T) : ofSigma k.toSigma = k := by
  cases k <;> rfl

/-- The XDR `operator<` of `LedgerKey`. -/
instance : LinearOrder (LedgerKey T) :=
  LinearOrder.lift' toSigma (Function.LeftInverse.injective ofSigma_toSigma)

theorem lt_iff_toSigma {a b : LedgerKey T} : a < b ↔ a.toSigma < b.toSigma := Iff.rfl

theorem toSigma_fst (k : LedgerKey T) : k.toSigma.1 = k.type := by
  cases k <;> rfl

/-- Keys of different types compare as their types. -/
theorem lt_of_type_lt {a b : LedgerKey T} (below : a.type < b.type) : a < b := by
  rw [lt_iff_toSigma, Sigma.Lex.lt_def]
  left
  rw [toSigma_fst, toSigma_fst]
  exact below

theorem mk_lt_mk_iff {t : LedgerEntryType} {a b : Arm T t} :
    (toLex ⟨t, a⟩ : Σₗ t, Arm T t) < toLex ⟨t, b⟩ ↔ a < b :=
  SigmaLexOrder.mk_lt_mk_iff

/-- Keys of one type compare as `LedgerEntryIdCmp` compares their fields. -/
theorem compareIdentity_eq {a b : LedgerKey T} (same : a.type = b.type) :
    compareIdentity a b = decide (a < b) := by
  cases a <;> cases b <;> simp only [LedgerKey.type, reduceCtorEq] at same <;>
    simp only [compareIdentity, lt_iff_toSigma, toSigma, mk_lt_mk_iff,
      Prod.Lex.toLex_lt_toLex, lexCompare_eq, decide_eq_true_eq]

end LedgerKey

/-! ## `LedgerEntryIdCmp` -/

theorem Identified.type_eq (a : Identified T Body) : a.type = a.identity.type := by
  cases a with
  | entry data => cases data <;> rfl
  | key k => rfl

/-- `LedgerEntryIdCmp` compares the keys of what it is given in the XDR order. -/
theorem ledgerEntryIdCmp_eq (a b : Identified T Body) :
    ledgerEntryIdCmp a b = decide (a.identity < b.identity) := by
  unfold ledgerEntryIdCmp
  rw [Identified.type_eq a, Identified.type_eq b]
  rcases lt_trichotomy a.identity.type b.identity.type with below | same | above
  · rw [if_pos below, decide_eq_true (LedgerKey.lt_of_type_lt below)]
  · rw [same, if_neg (lt_irrefl _), if_neg (lt_irrefl _), LedgerKey.compareIdentity_eq same]
  · rw [if_neg (lt_asymm above), if_pos above,
      decide_eq_false (lt_asymm (LedgerKey.lt_of_type_lt above))]

/-! ## `BucketEntryIdCmp` -/

/-- The key a live bucket entry carries, below every key for the metadata. -/
def BucketEntry.idKey : BucketEntry T Body → WithBot (LedgerKey T)
  | .liveEntry e => ledgerEntryKey e
  | .initEntry e => ledgerEntryKey e
  | .deadEntry k => k
  | .metaEntry _ => ⊥

/-- The key a hot-archive bucket entry carries, below every key for the metadata. -/
def HotArchiveBucketEntry.idKey : HotArchiveBucketEntry T Body → WithBot (LedgerKey T)
  | .archivedEntry e => ledgerEntryKey e
  | .key k => k
  | .metaEntry _ => ⊥

theorem BucketEntry.idKey_eq_bot_iff (a : BucketEntry T Body) :
    a.idKey = ⊥ ↔ a.type = .metaentry := by
  cases a <;> simp [idKey, type]

theorem HotArchiveBucketEntry.idKey_eq_bot_iff (a : HotArchiveBucketEntry T Body) :
    a.idKey = ⊥ ↔ a.type = .hotArchiveMetaentry := by
  cases a <;> simp [idKey, type]

/-- `compareLive` compares the keys the entries carry, the metadata below every key. -/
theorem compareLive_eq (a b : BucketEntry T Body) :
    compareLive a b = decide (a.idKey < b.idKey) := by
  cases a <;> cases b <;>
    simp [compareLive, BucketEntry.type, BucketEntryType.toInt, BucketEntry.idKey,
      ledgerEntryIdCmp_eq, Identified.identity, ledgerEntryKey] <;>
    congr 1

/-- `compareHotArchive` compares the keys the entries carry, the metadata below every key. -/
theorem compareHotArchive_eq (a b : HotArchiveBucketEntry T Body) :
    compareHotArchive a b = decide (a.idKey < b.idKey) := by
  cases a <;> cases b <;>
    simp [compareHotArchive, HotArchiveBucketEntry.type, HotArchiveBucketEntryType.toInt,
      HotArchiveBucketEntry.idKey, ledgerEntryIdCmp_eq, Identified.identity, ledgerEntryKey] <;>
    congr 1

theorem withBot_eq_iff {α : Type} {a b : WithBot α} :
    a = b ↔ a = ⊥ ∧ b = ⊥ ∨ ∃ k : α, a = k ∧ b = k := by
  cases a <;> cases b <;> simp [eq_comm]

/-- `LedgerEntryIdCmp` compares entries and keys in any mix by the XDR order of their keys (an
entry's key is `LedgerEntryKey`), so it is a strict weak order whose equivalent values are those
of one key. `BucketEntryIdCmp` is a strict weak order on the entries of a live and of a
hot-archive bucket: two entries are equivalent when both are metadata or both carry one key,
whatever their tags, and the metadata is below every other entry. -/
theorem ledgerCmp_keyOrder :
    (∀ a b : Identified T Body, ledgerEntryIdCmp a b = decide (a.identity < b.identity)) ∧
    (∀ e : LedgerEntry T Body,
      (Identified.entry e.data : Identified T Body).identity = ledgerEntryKey e) ∧
    (∀ k : LedgerKey T, (Identified.key k : Identified T Body).identity = k) ∧
    StdSort.StrictWeakOrder (@ledgerEntryIdCmp T Body) ∧
    (∀ a b : Identified T Body,
      ledgerEntryIdCmp a b = false ∧ ledgerEntryIdCmp b a = false ↔ a.identity = b.identity) ∧
    StdSort.StrictWeakOrder (@compareLive T Body) ∧
    (∀ a b : BucketEntry T Body, compareLive a b = false ∧ compareLive b a = false ↔
      a.type = .metaentry ∧ b.type = .metaentry ∨
        ∃ k : LedgerKey T, a.idKey = k ∧ b.idKey = k) ∧
    (∀ a b : BucketEntry T Body, a.type = .metaentry → b.type ≠ .metaentry →
      compareLive a b = true) ∧
    StdSort.StrictWeakOrder (@compareHotArchive T Body) ∧
    (∀ a b : HotArchiveBucketEntry T Body,
      compareHotArchive a b = false ∧ compareHotArchive b a = false ↔
        a.type = .hotArchiveMetaentry ∧ b.type = .hotArchiveMetaentry ∨
          ∃ k : LedgerKey T, a.idKey = k ∧ b.idKey = k) ∧
    (∀ a b : HotArchiveBucketEntry T Body, a.type = .hotArchiveMetaentry →
      b.type ≠ .hotArchiveMetaentry → compareHotArchive a b = true) := by
  refine ⟨ledgerEntryIdCmp_eq, fun e => rfl, fun k => rfl,
    StdSort.StrictWeakOrder.of_key _ ledgerEntryIdCmp_eq,
    StdSort.equivalent_iff_of_key ledgerEntryIdCmp_eq,
    StdSort.StrictWeakOrder.of_key _ compareLive_eq, fun a b => ?_, fun a b isMeta other => ?_,
    StdSort.StrictWeakOrder.of_key _ compareHotArchive_eq, fun a b => ?_,
    fun a b isMeta other => ?_⟩
  · rw [StdSort.equivalent_iff_of_key compareLive_eq, withBot_eq_iff,
      BucketEntry.idKey_eq_bot_iff, BucketEntry.idKey_eq_bot_iff]
  · have above : b.idKey ≠ ⊥ := fun isBot => other ((BucketEntry.idKey_eq_bot_iff b).mp isBot)
    rw [compareLive_eq, decide_eq_true_eq, (BucketEntry.idKey_eq_bot_iff a).mpr isMeta]
    exact bot_lt_iff_ne_bot.mpr above
  · rw [StdSort.equivalent_iff_of_key compareHotArchive_eq, withBot_eq_iff,
      HotArchiveBucketEntry.idKey_eq_bot_iff, HotArchiveBucketEntry.idKey_eq_bot_iff]
  · have above : b.idKey ≠ ⊥ := fun isBot =>
      other ((HotArchiveBucketEntry.idKey_eq_bot_iff b).mp isBot)
    rw [compareHotArchive_eq, decide_eq_true_eq,
      (HotArchiveBucketEntry.idKey_eq_bot_iff a).mpr isMeta]
    exact bot_lt_iff_ne_bot.mpr above

end StellarCore.Bucket
