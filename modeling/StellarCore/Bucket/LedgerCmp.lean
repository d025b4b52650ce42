import Mathlib

/-!
# The identity comparators of `bucket/LedgerCmp.h`

`LedgerEntryIdCmp` orders ledger entries and ledger keys, in any mix, by identity: the entry
type first, then the fields that identify an entry of that type, compared as `lexCompare`
compares them. `BucketEntryIdCmp` orders the entries of a live bucket and of a hot-archive
bucket: the metadata first, then by the identity of the entry or key they carry.
`LedgerEntryKey` of `util/types.cpp` copies the identifying fields of an entry into its key.

The XDR types of the identifying fields stay abstract: `KeyTypes` gives one type for each, with
the strict total order XDR's generated `operator<` gives it. The rest of an entry, which no
comparison reads, is one payload type for each entry type.
-/

set_option autoImplicit false

namespace StellarCore.Bucket

/-! ## The XDR types -/

/-- `LedgerEntryType`, numbered as in the XDR. -/
inductive LedgerEntryType
  | account
  | trustline
  | offer
  | data
  | claimableBalance
  | liquidityPool
  | contractData
  | contractCode
  | configSetting
  | ttl
deriving DecidableEq, Repr

namespace LedgerEntryType

def toNat : LedgerEntryType → Nat
  | account => 0
  | trustline => 1
  | offer => 2
  | data => 3
  | claimableBalance => 4
  | liquidityPool => 5
  | contractData => 6
  | contractCode => 7
  | configSetting => 8
  | ttl => 9

def ofNat? : Nat → Option LedgerEntryType
  | 0 => some account
  | 1 => some trustline
  | 2 => some offer
  | 3 => some data
  | 4 => some claimableBalance
  | 5 => some liquidityPool
  | 6 => some contractData
  | 7 => some contractCode
  | 8 => some configSetting
  | 9 => some ttl
  | _ => none

theorem ofNat?_toNat (t : LedgerEntryType) : ofNat? t.toNat = some t := by
  cases t <;> rfl

theorem toNat_injective : Function.Injective toNat := fun a b same =>
  Option.some.inj ((ofNat?_toNat a).symm.trans (same ▸ ofNat?_toNat b))

/-- Enumerations compare as the integers they stand for. -/
instance : LinearOrder LedgerEntryType := LinearOrder.lift' toNat toNat_injective

end LedgerEntryType

/-- `ContractDataDurability`. -/
inductive ContractDataDurability
  | temporary
  | persistent
deriving DecidableEq, Repr

namespace ContractDataDurability

def toNat : ContractDataDurability → Nat
  | temporary => 0
  | persistent => 1

theorem toNat_injective : Function.Injective toNat := by
  intro a b same
  cases a <;> cases b <;> first | rfl | cases same

instance : LinearOrder ContractDataDurability := LinearOrder.lift' toNat toNat_injective

end ContractDataDurability

/-- The XDR types of the fields that identify a ledger entry, each ordered by the strict total
order of its generated `operator<`. -/
structure KeyTypes where
  AccountID : Type
  TrustLineAsset : Type
  String64 : Type
  ClaimableBalanceID : Type
  PoolID : Type
  SCAddress : Type
  SCVal : Type
  Hash : Type
  ConfigSettingID : Type
  accountIDOrder : LinearOrder AccountID
  trustLineAssetOrder : LinearOrder TrustLineAsset
  string64Order : LinearOrder String64
  claimableBalanceIDOrder : LinearOrder ClaimableBalanceID
  poolIDOrder : LinearOrder PoolID
  scAddressOrder : LinearOrder SCAddress
  scValOrder : LinearOrder SCVal
  hashOrder : LinearOrder Hash
  configSettingIDOrder : LinearOrder ConfigSettingID

attribute [instance] KeyTypes.accountIDOrder KeyTypes.trustLineAssetOrder KeyTypes.string64Order
  KeyTypes.claimableBalanceIDOrder KeyTypes.poolIDOrder KeyTypes.scAddressOrder
  KeyTypes.scValOrder KeyTypes.hashOrder KeyTypes.configSettingIDOrder

variable {T : KeyTypes} {Body : LedgerEntryType → Type}

/-- `LedgerKey`: an entry type, and the fields that identify an entry of that type. -/
inductive LedgerKey (T : KeyTypes)
  | account (accountID : T.AccountID)
  | trustLine (accountID : T.AccountID) (asset : T.TrustLineAsset)
  | offer (sellerID : T.AccountID) (offerID : Int)
  | data (accountID : T.AccountID) (dataName : T.String64)
  | claimableBalance (balanceID : T.ClaimableBalanceID)
  | liquidityPool (liquidityPoolID : T.PoolID)
  | contractData (contract : T.SCAddress) (key : T.SCVal) (durability : ContractDataDurability)
  | contractCode (hash : T.Hash)
  | configSetting (configSettingID : T.ConfigSettingID)
  | ttl (keyHash : T.Hash)

/-- `LedgerKey::type()`. -/
def LedgerKey.type : LedgerKey T → LedgerEntryType
  | .account .. => .account
  | .trustLine .. => .trustline
  | .offer .. => .offer
  | .data .. => .data
  | .claimableBalance .. => .claimableBalance
  | .liquidityPool .. => .liquidityPool
  | .contractData .. => .contractData
  | .contractCode .. => .contractCode
  | .configSetting .. => .configSetting
  | .ttl .. => .ttl

/-- `LedgerEntry::_data_t`: for each type, the fields that identify the entry and the rest of it,
a payload of `Body` of that type. A configuration setting is a union on `ConfigSettingID`, and
its discriminant `configSettingID()` identifies it. -/
inductive LedgerEntryData (T : KeyTypes) (Body : LedgerEntryType → Type)
  | account (accountID : T.AccountID) (rest : Body .account)
  | trustLine (accountID : T.AccountID) (asset : T.TrustLineAsset) (rest : Body .trustline)
  | offer (sellerID : T.AccountID) (offerID : Int) (rest : Body .offer)
  | data (accountID : T.AccountID) (dataName : T.String64) (rest : Body .data)
  | claimableBalance (balanceID : T.ClaimableBalanceID) (rest : Body .claimableBalance)
  | liquidityPool (liquidityPoolID : T.PoolID) (rest : Body .liquidityPool)
  | contractData (contract : T.SCAddress) (key : T.SCVal) (durability : ContractDataDurability)
      (rest : Body .contractData)
  | contractCode (hash : T.Hash) (rest : Body .contractCode)
  | configSetting (configSettingID : T.ConfigSettingID) (rest : Body .configSetting)
  | ttl (keyHash : T.Hash) (rest : Body .ttl)

/-- `LedgerEntry`; its extension is never compared and is left out. -/
structure LedgerEntry (T : KeyTypes) (Body : LedgerEntryType → Type) where
  lastModifiedLedgerSeq : Nat
  data : LedgerEntryData T Body

/-- `LedgerEntry::_data_t::type()`. -/
def LedgerEntryData.type : LedgerEntryData T Body → LedgerEntryType
  | .account .. => .account
  | .trustLine .. => .trustline
  | .offer .. => .offer
  | .data .. => .data
  | .claimableBalance .. => .claimableBalance
  | .liquidityPool .. => .liquidityPool
  | .contractData .. => .contractData
  | .contractCode .. => .contractCode
  | .configSetting .. => .configSetting
  | .ttl .. => .ttl

/-- The identifying fields of an entry, as its arm accessors (`account()`, `trustLine()`, ...)
read them. -/
def LedgerEntryData.identity : LedgerEntryData T Body → LedgerKey T
  | .account accountID _ => .account accountID
  | .trustLine accountID asset _ => .trustLine accountID asset
  | .offer sellerID offerID _ => .offer sellerID offerID
  | .data accountID dataName _ => .data accountID dataName
  | .claimableBalance balanceID _ => .claimableBalance balanceID
  | .liquidityPool liquidityPoolID _ => .liquidityPool liquidityPoolID
  | .contractData contract key durability _ => .contractData contract key durability
  | .contractCode hash _ => .contractCode hash
  | .configSetting configSettingID _ => .configSetting configSettingID
  | .ttl keyHash _ => .ttl keyHash

/-- `LedgerEntryKey` of `util/types.cpp`: the key of the entry's type with its identifying
fields copied. -/
def ledgerEntryKey (e : LedgerEntry T Body) : LedgerKey T := e.data.identity

/-! ## `LedgerEntryIdCmp` -/

/-- `lexCompare (lhs1, rhs1, args...)`: `lhs1 < rhs1`, or on a tie the comparison of the rest.
The one-pair overload is `lhs1 < rhs1`. -/
def lexCompare {α : Type} [LT α] [DecidableRel (α := α) (· < ·)] (lhs1 rhs1 : α) (rest : Bool) :
    Bool :=
  if lhs1 < rhs1 then true else if rhs1 < lhs1 then false else rest

/-- What `LedgerEntryIdCmp` compares, in any mix: the data of a ledger entry, or a ledger key. -/
inductive Identified (T : KeyTypes) (Body : LedgerEntryType → Type)
  | entry (data : LedgerEntryData T Body)
  | key (key : LedgerKey T)

namespace Identified

/-- `type()`. -/
def type : Identified T Body → LedgerEntryType
  | entry data => data.type
  | key k => k.type

/-- The identifying fields the arm accessors read: a key's own, or an entry's. -/
def identity : Identified T Body → LedgerKey T
  | entry data => data.identity
  | key k => k

end Identified

/-- The `switch (aty)` of `LedgerEntryIdCmp`, over the identifying fields of two values of one
type; the `return false` after it is the last arm. -/
def compareIdentity : LedgerKey T → LedgerKey T → Bool
  | .account a, .account b => decide (a < b)
  | .trustLine a1 a2, .trustLine b1 b2 => lexCompare a1 b1 (decide (a2 < b2))
  | .offer a1 a2, .offer b1 b2 => lexCompare a1 b1 (decide (a2 < b2))
  | .data a1 a2, .data b1 b2 => lexCompare a1 b1 (decide (a2 < b2))
  | .claimableBalance a, .claimableBalance b => decide (a < b)
  | .liquidityPool a, .liquidityPool b => decide (a < b)
  | .contractData a1 a2 a3, .contractData b1 b2 b3 =>
      lexCompare a1 b1 (lexCompare a2 b2 (decide (a3 < b3)))
  | .contractCode a, .contractCode b => decide (a < b)
  | .configSetting a, .configSetting b => decide (a < b)
  | .ttl a, .ttl b => decide (a < b)
  | _, _ => false

/-- `LedgerEntryIdCmp::operator()`. -/
def ledgerEntryIdCmp (a b : Identified T Body) : Bool :=
  let aty := a.type
  let bty := b.type
  if aty < bty then true
  else if aty > bty then false
  else compareIdentity a.identity b.identity

/-! ## `BucketEntryIdCmp` -/

/-- `BucketMetadata`; its extension is never compared and is left out. -/
structure BucketMetadata where
  ledgerVersion : Nat

/-- `BucketEntryType`, numbered as in the XDR. -/
inductive BucketEntryType
  | metaentry
  | liveentry
  | deadentry
  | initentry
deriving DecidableEq, Repr

def BucketEntryType.toInt : BucketEntryType → Int
  | metaentry => -1
  | liveentry => 0
  | deadentry => 1
  | initentry => 2

/-- `BucketEntry` of a live bucket: an entry updated (`LIVEENTRY`) or created (`INITENTRY`), the
key of a deleted entry (`DEADENTRY`), or the bucket's metadata. -/
inductive BucketEntry (T : KeyTypes) (Body : LedgerEntryType → Type)
  | liveEntry (entry : LedgerEntry T Body)
  | initEntry (entry : LedgerEntry T Body)
  | deadEntry (key : LedgerKey T)
  | metaEntry (metadata : BucketMetadata)

def BucketEntry.type : BucketEntry T Body → BucketEntryType
  | .liveEntry _ => .liveentry
  | .initEntry _ => .initentry
  | .deadEntry _ => .deadentry
  | .metaEntry _ => .metaentry

/-- `BucketEntryIdCmp<LiveBucket>::compareLive`. Every value of the XDR enumeration is one of
the four arms, so its `Malformed bucket` throws are never reached. -/
def compareLive (a b : BucketEntry T Body) : Bool :=
  let aty := a.type
  let bty := b.type
  -- METAENTRY sorts below all other entries
  if aty = .metaentry ∨ bty = .metaentry then decide (aty.toInt < bty.toInt)
  else
    match a, b with
    | .liveEntry x, .liveEntry y | .liveEntry x, .initEntry y
    | .initEntry x, .liveEntry y | .initEntry x, .initEntry y =>
        ledgerEntryIdCmp (.entry x.data) (.entry y.data)
    | .liveEntry x, .deadEntry k | .initEntry x, .deadEntry k =>
        ledgerEntryIdCmp (.entry x.data) (.key k)
    | .deadEntry k, .liveEntry y | .deadEntry k, .initEntry y =>
        ledgerEntryIdCmp (.key k) (.entry y.data)
    | .deadEntry k, .deadEntry k' =>
        ledgerEntryIdCmp (.key k : Identified T Body) (.key k')
    | _, _ => false

/-- `HotArchiveBucketEntryType`, numbered as in the XDR. -/
inductive HotArchiveBucketEntryType
  | hotArchiveMetaentry
  | hotArchiveArchived
  | hotArchiveLive
deriving DecidableEq, Repr

def HotArchiveBucketEntryType.toInt : HotArchiveBucketEntryType → Int
  | hotArchiveMetaentry => -1
  | hotArchiveArchived => 0
  | hotArchiveLive => 1

/-- `HotArchiveBucketEntry`: an archived entry, the key of an entry restored to the live bucket
list, or the bucket's metadata. -/
inductive HotArchiveBucketEntry (T : KeyTypes) (Body : LedgerEntryType → Type)
  | archivedEntry (entry : LedgerEntry T Body)
  | key (key : LedgerKey T)
  | metaEntry (metadata : BucketMetadata)

def HotArchiveBucketEntry.type : HotArchiveBucketEntry T Body → HotArchiveBucketEntryType
  | .archivedEntry _ => .hotArchiveArchived
  | .key _ => .hotArchiveLive
  | .metaEntry _ => .hotArchiveMetaentry

/-- `BucketEntryIdCmp<HotArchiveBucket>::compareHotArchive`; as in `compareLive`, the throws
are never reached. -/
def compareHotArchive (a b : HotArchiveBucketEntry T Body) : Bool :=
  let aty := a.type
  let bty := b.type
  -- METAENTRY sorts below all other entries
  if aty = .hotArchiveMetaentry ∨ bty = .hotArchiveMetaentry then decide (aty.toInt < bty.toInt)
  else
    match a, b with
    | .archivedEntry x, .archivedEntry y => ledgerEntryIdCmp (.entry x.data) (.entry y.data)
    | .archivedEntry x, .key k => ledgerEntryIdCmp (.entry x.data) (.key k)
    | .key k, .archivedEntry y => ledgerEntryIdCmp (.key k) (.entry y.data)
    | .key k, .key k' => ledgerEntryIdCmp (.key k : Identified T Body) (.key k')
    | _, _ => false

end StellarCore.Bucket
