import StellarCore.Lib.SortedList
import StellarCore.Lib.Except
import Mathlib.Data.BitVec

/-!
# Combining nomination candidates, and validating a value

`HerderSCPDriver::combineCandidates` builds the composite value from the candidates that
nomination confirmed. It takes the transaction set and close time of the candidate whose
transaction set `compareTxSets` ranks highest, under a seed that XORs the hashes of all
candidates. For each upgrade type it takes the upgrade with the largest parameter.
`validateValue` is what every node checks of a value: fully for the next ledger, partially for
past or future ones.

Values are modelled parsed. A value's bytes come from `wrapStellarValue`, which serialises
without checking the bound of `UpgradeType upgrades<6>`, and parsing fails exactly when that
bound is exceeded. A `Hash` is 32 bytes compared lexicographically, which is the order of the
big-endian number they spell, so it is a `BitVec 256`. The transaction sets a node holds, the
signature check, `Upgrades::isValid`, the value hash and the clock are oracles of the
environment.
-/

set_option autoImplicit false

namespace StellarCore.Herder

/-- A SHA-256 hash, as the big-endian number of its 32 bytes. -/
abbrev Hash := BitVec 256

/-- `LedgerUpgradeType`. -/
inductive LedgerUpgradeType where
  | version
  | baseFee
  | maxTxSetSize
  | baseReserve
  | flags
  | config
  | maxSorobanTxSetSize
deriving DecidableEq, Repr

/-- The XDR value of an upgrade type. -/
def LedgerUpgradeType.toNat : LedgerUpgradeType → Nat
  | version => 1
  | baseFee => 2
  | maxTxSetSize => 3
  | baseReserve => 4
  | flags => 5
  | config => 6
  | maxSorobanTxSetSize => 7

theorem LedgerUpgradeType.toNat_injective : Function.Injective LedgerUpgradeType.toNat := by
  intro a b same
  cases a <;> cases b <;> first | rfl | cases same

/-- Upgrade types are ordered by their XDR values, as the keys of a `std::map`. -/
instance : LinearOrder LedgerUpgradeType :=
  LinearOrder.lift' LedgerUpgradeType.toNat LedgerUpgradeType.toNat_injective

/-- `ConfigUpgradeSetKey`. -/
structure ConfigUpgradeSetKey where
  contractID : Hash
  contentHash : Hash
deriving DecidableEq, Repr

/-- `LedgerUpgrade`: one parameter for each upgrade type. -/
inductive LedgerUpgrade where
  | version (newLedgerVersion : Nat)
  | baseFee (newBaseFee : Nat)
  | maxTxSetSize (newMaxTxSetSize : Nat)
  | baseReserve (newBaseReserve : Nat)
  | flags (newFlags : Nat)
  | config (newConfig : ConfigUpgradeSetKey)
  | maxSorobanTxSetSize (newMaxSorobanTxSetSize : Nat)
deriving DecidableEq, Repr

/-- `LedgerUpgrade::type()`. -/
def LedgerUpgrade.type : LedgerUpgrade → LedgerUpgradeType
  | version _ => .version
  | baseFee _ => .baseFee
  | maxTxSetSize _ => .maxTxSetSize
  | baseReserve _ => .baseReserve
  | flags _ => .flags
  | config _ => .config
  | maxSorobanTxSetSize _ => .maxSorobanTxSetSize

/-- The switch of `combineCandidates` for an upgrade whose type is already in the map. -/
def combineUpgrade : LedgerUpgrade → LedgerUpgrade → LedgerUpgrade
  | .version cl, .version l => .version (max cl l)
  | .baseFee cl, .baseFee l => .baseFee (max cl l)
  | .maxTxSetSize cl, .maxTxSetSize l => .maxTxSetSize (max cl l)
  | .baseReserve cl, .baseReserve l => .baseReserve (max cl l)
  | .flags cl, .flags l => .flags (max cl l)
  | .config cl, .config l =>
      if cl.contractID < l.contractID then .config l
      else if cl.contractID = l.contractID ∧ cl.contentHash < l.contentHash then .config l
      else .config cl
  | .maxSorobanTxSetSize cl, .maxSorobanTxSetSize l => .maxSorobanTxSetSize (max cl l)
  -- the map is keyed by type: an upgrade is never combined with one of another type
  | cl, _ => cl

/-- `LedgerCloseValueSignature`. -/
structure LedgerCloseValueSignature where
  nodeID : Nat
  signature : Nat
deriving DecidableEq, Repr

/-- `StellarValue`; `ext` is `none` for `STELLAR_VALUE_BASIC`. -/
structure StellarValue where
  txSetHash : Hash
  closeTime : Nat
  upgrades : List LedgerUpgrade
  ext : Option LedgerCloseValueSignature
deriving DecidableEq, Repr

/-- What combining and validation read of a transaction set prepared for apply. -/
structure ApplicableTxSetFrame where
  /-- `size(header)`. -/
  size : Nat
  /-- `getTotalInclusionFees()`. -/
  totalInclusionFees : Int
  /-- `getTotalFees(header)`. -/
  totalFees : Int
  /-- `checkValid` at a close-time offset used as both bounds. -/
  checkValid : Nat → Bool

/-- What combining and validation read of a received transaction set. -/
structure TxSetXDRFrame where
  previousLedgerHash : Hash
  encodedSize : Nat
  /-- `prepareForApply` against the last closed ledger; `none` when it fails. -/
  prepareForApply : Option ApplicableTxSetFrame

/-- The fields of the last closed ledger that combining and validation read. -/
structure LedgerHeaderHistoryEntry where
  hash : Hash
  ledgerSeq : Nat
  ledgerVersion : Nat
  /-- `header.scpValue.closeTime`. -/
  closeTime : Nat

/-- What `HerderSCPDriver` reads of the rest of the node. -/
structure HerderEnv where
  lcl : LedgerHeaderHistoryEntry
  /-- `mPendingEnvelopes.getTxSet`. -/
  getTxSet : Hash → Option TxSetXDRFrame
  /-- `verifyStellarValueSignature`, which signs the tx set hash and the close time. -/
  verifySignature : Hash → Nat → LedgerCloseValueSignature → Bool
  /-- `Upgrades::isValid` of one upgrade, for nomination or not. -/
  isValidUpgrade : LedgerUpgrade → Bool → Bool
  /-- `sha256` of a value's encoding. -/
  valueHash : StellarValue → Hash
  timeNow : Nat
  isTracking : Bool
  nextConsensusLedgerIndex : Nat
  trackingConsensusCloseTime : Nat

/-! ## Combining -/

/-- `lessThanXored`: compare two hashes after XOR with the seed. -/
def lessThanXored (l r x : Hash) : Bool := decide (x ^^^ l < x ^^^ r)

/-- `compareTxSets`: whether `l` ranks below `r`. -/
def compareTxSets (l r : ApplicableTxSetFrame) (lh rh : Hash) (lEncodedSize rEncodedSize : Nat)
    (header : LedgerHeaderHistoryEntry) (s : Hash) : Bool :=
  if l.size ≠ r.size then decide (l.size < r.size)
  else if 20 ≤ header.ledgerVersion ∧ l.totalInclusionFees ≠ r.totalInclusionFees then
    decide (l.totalInclusionFees < r.totalInclusionFees)
  else if 11 ≤ header.ledgerVersion ∧ l.totalFees ≠ r.totalFees then
    decide (l.totalFees < r.totalFees)
  -- from the Soroban protocol on, the smaller encoding ranks higher
  else if 20 ≤ header.ledgerVersion ∧ lEncodedSize ≠ rEncodedSize then
    decide (lEncodedSize > rEncodedSize)
  else lessThanXored lh rh s

/-- One upgrade of the loop of `combineCandidates`: emplaced when its type is new, combined
with the upgrade of its type otherwise. -/
def addUpgrade (upgrades : List (LedgerUpgradeType × LedgerUpgrade))
    (lupgrade : LedgerUpgrade) : List (LedgerUpgradeType × LedgerUpgrade) :=
  match SortedMap.lookup lupgrade.type upgrades with
  | none => SortedMap.upsert lupgrade.type lupgrade upgrades
  | some clUpgrade => SortedMap.upsert lupgrade.type (combineUpgrade clUpgrade lupgrade) upgrades

/-- The upgrades the loop over the candidates collects, keyed by type. -/
def collectUpgrades (candidateValues : List StellarValue) :
    List (LedgerUpgradeType × LedgerUpgrade) :=
  candidateValues.foldl (fun upgrades sv => sv.upgrades.foldl addUpgrade upgrades) []

/-- `candidatesHash`: the XOR of the hashes of all candidates, from the same loop. -/
def candidatesHash (env : HerderEnv) (candidateValues : List StellarValue) : Hash :=
  candidateValues.foldl (fun seed sv => seed ^^^ env.valueHash sv) 0

/-- The loop of `combineCandidates` that picks the highest transaction set. Every candidate's
set must be known and prepare for apply; only sets built on the last closed ledger compete,
and a later one replaces the highest only when it ranks strictly above it. -/
def highestCandidate (env : HerderEnv) (seed : Hash) :
    Option (StellarValue × TxSetXDRFrame × ApplicableTxSetFrame) → List StellarValue →
      Except String (Option (StellarValue × TxSetXDRFrame × ApplicableTxSetFrame))
  | highest, [] => .ok highest
  | highest, sv :: rest =>
      match env.getTxSet sv.txSetHash with
      | none => .error "releaseAssert(cTxSet)"
      | some cTxSet =>
          match cTxSet.prepareForApply with
          | none => .error "releaseAssert(cApplicableTxSet)"
          | some cApplicableTxSet =>
              if cTxSet.previousLedgerHash = env.lcl.hash then
                match highest with
                | none => highestCandidate env seed (some (sv, cTxSet, cApplicableTxSet)) rest
                | some (highestValue, highestTxSet, highestApplicableTxSet) =>
                    if compareTxSets highestApplicableTxSet cApplicableTxSet
                        highestValue.txSetHash sv.txSetHash highestTxSet.encodedSize
                        cTxSet.encodedSize env.lcl seed then
                      highestCandidate env seed (some (sv, cTxSet, cApplicableTxSet)) rest
                    else highestCandidate env seed highest rest
              else highestCandidate env seed highest rest

/-- `combineCandidates`, over the candidates in the order of the set. -/
def combineCandidates (env : HerderEnv) (candidates : List StellarValue) :
    Except String StellarValue := do
  let upgrades := collectUpgrades candidates
  let highest ← highestCandidate env (candidatesHash env candidates) none candidates
  match highest with
  | none => throw "No highest candidate transaction set found"
  | some (comp, _, _) => pure { comp with upgrades := upgrades.map Prod.snd }

/-! ## Validation -/

/-- `SCPDriver::ValidationLevel`. -/
inductive ValidationLevel where
  | invalidValue
  | maybeValidValue
  | fullyValidatedValue
deriving DecidableEq, Repr

/-- `Herder::MAX_TIME_SLIP_SECONDS`. -/
def maxTimeSlipSeconds : Nat := 60

/-- `checkCloseTime`: after the last close, and not too far in the future. -/
def checkCloseTime (env : HerderEnv) (lastCloseTime : Nat) (b : StellarValue) : Bool :=
  decide (lastCloseTime < b.closeTime) && decide (b.closeTime ≤ env.timeNow + maxTimeSlipSeconds)

/-- `checkAndCacheTxSetValid`, whose cache only remembers what it computes. -/
def checkAndCacheTxSetValid (env : HerderEnv) (txSet : TxSetXDRFrame)
    (closeTimeOffset : Nat) : Bool :=
  if txSet.previousLedgerHash = env.lcl.hash then
    match txSet.prepareForApply with
    | none => false
    | some applicableTxSet => applicableTxSet.checkValid closeTimeOffset
  else false

/-- `validatePastOrFutureValue`. -/
def validatePastOrFutureValue (env : HerderEnv) (slotIndex : Nat) (b : StellarValue) :
    ValidationLevel :=
  let closeTimeOk :=
    if slotIndex = env.lcl.ledgerSeq then b.closeTime = env.lcl.closeTime
    else if slotIndex < env.lcl.ledgerSeq then b.closeTime < env.lcl.closeTime
    else checkCloseTime env env.lcl.closeTime b
  if !closeTimeOk then .invalidValue
  else if !env.isTracking then .maybeValidValue
  else if env.nextConsensusLedgerIndex > slotIndex then .maybeValidValue
  else if env.nextConsensusLedgerIndex < slotIndex then .invalidValue
  else if !checkCloseTime env env.trackingConsensusCloseTime b then .invalidValue
  else .maybeValidValue

/-- `validateValueAgainstLocalState`: full checks for the next ledger only. -/
def validateValueAgainstLocalState (env : HerderEnv) (slotIndex : Nat) (b : StellarValue) :
    ValidationLevel :=
  if slotIndex = env.lcl.ledgerSeq + 1 then
    if !checkCloseTime env env.lcl.closeTime b then .invalidValue
    else
      match env.getTxSet b.txSetHash with
      | none => .invalidValue
      | some txSet =>
          if checkAndCacheTxSetValid env txSet (b.closeTime - env.lcl.closeTime) then
            .fullyValidatedValue
          else .invalidValue
  else validatePastOrFutureValue env slotIndex b

/-- The loop of `validateValue` over the upgrades: each valid, and of a type above the type
before it (`none` before the first). -/
def upgradesValid (env : HerderEnv) (nomination : Bool) :
    Option LedgerUpgradeType → List LedgerUpgrade → Bool
  | _, [] => true
  | lastUpgradeType, upgrade :: rest =>
      env.isValidUpgrade upgrade nomination &&
        (match lastUpgradeType with
          | none => true
          | some last => decide (last < upgrade.type)) &&
        upgradesValid env nomination (some upgrade.type) rest

/-- `validateValue`. -/
def validateValue (env : HerderEnv) (slotIndex : Nat) (b : StellarValue) (nomination : Bool) :
    ValidationLevel :=
  -- `xdr_from_opaque` rejects more upgrades than `upgrades<6>` allows
  if 6 < b.upgrades.length then .invalidValue
  else
    match b.ext with
    | none => .invalidValue
    | some lcValueSignature =>
        if !env.verifySignature b.txSetHash b.closeTime lcValueSignature then .invalidValue
        else
          let res := validateValueAgainstLocalState env slotIndex b
          if res = .invalidValue then .invalidValue
          else if upgradesValid env nomination none b.upgrades then res
          else .invalidValue

end StellarCore.Herder
