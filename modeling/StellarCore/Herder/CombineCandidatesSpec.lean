import StellarCore.Herder.CombineCandidates
import StellarCore.Lib.ArgMax
import Mathlib.Data.Prod.Lex

/-!
# The composite value is valid and does not depend on the order of the candidates

For each upgrade type the map `combineCandidates` builds holds the candidate upgrade of that
type with the largest parameter: the switch keeps the larger of two parameters, so the map
entry is the scan of `Lib.ArgMax` over the upgrades of its type. The transaction set is the
scan under `compareTxSets`, a lexicographic order whose last level compares the hashes after
XOR with the seed; it is a strict order, total on distinct hashes. Both results therefore depend
only on the set of candidates. A composite of fully validated candidates is itself fully
validated, as long as their upgrades span at most six types, the bound of `upgrades<6>`.
-/

set_option autoImplicit false

namespace StellarCore.Herder

/-! ## Upgrade parameters -/

/-- The parameter an upgrade is combined by: its number, or the config key ordered by contract
and then content hash. -/
def LedgerUpgrade.param : LedgerUpgrade → Lex (ℕ × ℕ)
  | .version n | .baseFee n | .maxTxSetSize n | .baseReserve n | .flags n
  | .maxSorobanTxSetSize n => toLex (n, 0)
  | .config key => toLex (key.contractID.toNat, key.contentHash.toNat)

/-- Whether the later upgrade has the larger parameter. -/
def upgradeBetter (old new : LedgerUpgrade) : Bool := decide (old.param < new.param)

/-- An upgrade is determined by its type and parameter. -/
theorem eq_of_param_eq {a b : LedgerUpgrade} (sameType : a.type = b.type)
    (sameParam : a.param = b.param) : a = b := by
  cases a <;> cases b <;> simp_all [LedgerUpgrade.type, LedgerUpgrade.param]
  case config.config key key' =>
    obtain ⟨contractID, contentHash⟩ := key
    obtain ⟨contractID', contentHash'⟩ := key'
    simp only [BitVec.toNat_inj] at sameParam
    rw [sameParam.1, sameParam.2]

theorem max_eq_ite (a b : ℕ) :
    max a b = if (toLex (a, 0) : Lex (ℕ × ℕ)) < toLex (b, 0) then b else a := by
  split_ifs with below
  · rw [Prod.Lex.toLex_lt_toLex] at below
    simp only [lt_self_iff_false, and_false, or_false] at below
    exact max_eq_right below.le
  · rw [Prod.Lex.toLex_lt_toLex] at below
    simp only [lt_self_iff_false, and_false, or_false, not_lt] at below
    exact max_eq_left below

/-- The config arm replaces the key when the new one is larger by contract, then content. -/
theorem config_combine (key key' : ConfigUpgradeSetKey) :
    combineUpgrade (.config key) (.config key') =
      if (LedgerUpgrade.config key).param < (LedgerUpgrade.config key').param then .config key'
      else .config key := by
  simp only [combineUpgrade, LedgerUpgrade.param, Prod.Lex.toLex_lt_toLex, BitVec.lt_def,
    ← BitVec.toNat_inj]
  by_cases below : key.contractID.toNat < key'.contractID.toNat
  · simp [below]
  · by_cases tie : key.contractID.toNat = key'.contractID.toNat ∧
        key.contentHash.toNat < key'.contentHash.toNat
    · simp [tie]
    · simp only [below, tie, if_false, false_or]

/-- Every arm of the switch keeps the upgrade with the larger parameter. -/
theorem combineUpgrade_eq {cl l : LedgerUpgrade} (same : cl.type = l.type) :
    combineUpgrade cl l = if upgradeBetter cl l then l else cl := by
  simp only [upgradeBetter, decide_eq_true_eq]
  cases cl <;> cases l <;> simp only [LedgerUpgrade.type, reduceCtorEq] at same
  case config.config key key' => exact config_combine key key'
  all_goals
    simp only [combineUpgrade, LedgerUpgrade.param, max_eq_ite]
    exact apply_ite _ _ _ _

theorem upgradeBetter_irrefl (u : LedgerUpgrade) : upgradeBetter u u = false := by
  simp [upgradeBetter]

theorem upgradeBetter_trans {a b c : LedgerUpgrade} (below : upgradeBetter a b = true)
    (below' : upgradeBetter b c = true) : upgradeBetter a c = true := by
  simp only [upgradeBetter, decide_eq_true_eq] at below below' ⊢
  exact lt_trans below below'

/-- Two different upgrades of one type are ordered by their parameters. -/
theorem upgradeBetter_total {a b : LedgerUpgrade} (sameType : a.type = b.type) (differ : a ≠ b) :
    upgradeBetter a b = true ∨ upgradeBetter b a = true := by
  simp only [upgradeBetter, decide_eq_true_eq]
  exact lt_or_gt_of_ne fun same => differ (eq_of_param_eq sameType same)

/-! ## The upgrade map -/

/-- The map of upgrades has strictly increasing types, each entry holding an upgrade of its
type. -/
structure WellKeyed (upgrades : List (LedgerUpgradeType × LedgerUpgrade)) : Prop where
  sorted : (upgrades.map Prod.fst).Pairwise (· < ·)
  typed : ∀ entry ∈ upgrades, entry.2.type = entry.1

theorem wellKeyed_nil : WellKeyed [] :=
  ⟨List.Pairwise.nil, fun _ member => absurd member List.not_mem_nil⟩

theorem WellKeyed.type_of_lookup {upgrades : List (LedgerUpgradeType × LedgerUpgrade)}
    (keyed : WellKeyed upgrades) {t : LedgerUpgradeType} {u : LedgerUpgrade}
    (found : SortedMap.lookup t upgrades = some u) : u.type = t :=
  keyed.typed (t, u) (SortedMap.mem_of_lookup found)

/-- One upgrade changes the entry of its own type only, to the scan of the entry with it. -/
theorem lookup_addUpgrade {upgrades : List (LedgerUpgradeType × LedgerUpgrade)}
    (keyed : WellKeyed upgrades) (u : LedgerUpgrade) (t : LedgerUpgradeType) :
    SortedMap.lookup t (addUpgrade upgrades u) =
      if u.type = t then ArgMax.scan upgradeBetter (SortedMap.lookup t upgrades) [u]
      else SortedMap.lookup t upgrades := by
  split_ifs with own
  · subst own
    unfold addUpgrade
    cases found : SortedMap.lookup u.type upgrades with
    | none => simp
    | some cl =>
        rw [SortedMap.lookup_upsert_self, combineUpgrade_eq (keyed.type_of_lookup found)]
        split <;> simp_all
  · unfold addUpgrade
    split <;> exact SortedMap.lookup_upsert_of_ne _ _ own

theorem WellKeyed.addUpgrade {upgrades : List (LedgerUpgradeType × LedgerUpgrade)}
    (keyed : WellKeyed upgrades) (u : LedgerUpgrade) : WellKeyed (addUpgrade upgrades u) := by
  -- the new entry is the upgrade or its combination with the old entry of its type
  have fresh : ∀ v, v.type = u.type →
      WellKeyed (SortedMap.upsert u.type v upgrades) := fun v typed =>
    ⟨SortedMap.sorted_upsert keyed.sorted, fun entry member => by
      rcases SortedMap.mem_upsert member with rfl | old
      · exact typed
      · exact keyed.typed entry old⟩
  unfold StellarCore.Herder.addUpgrade
  split
  · exact fresh u rfl
  · next cl found =>
      refine fresh _ ?_
      rw [combineUpgrade_eq (keyed.type_of_lookup found)]
      split
      · rfl
      · exact keyed.type_of_lookup found

/-- The map entry of a type is the scan over the upgrades of that type, in order. -/
theorem lookup_foldl_addUpgrade (t : LedgerUpgradeType) :
    ∀ (us : List LedgerUpgrade) {upgrades : List (LedgerUpgradeType × LedgerUpgrade)},
      WellKeyed upgrades →
      SortedMap.lookup t (us.foldl addUpgrade upgrades) =
        ArgMax.scan upgradeBetter (SortedMap.lookup t upgrades) (us.filter fun u => u.type = t)
  | [], _, _ => rfl
  | u :: rest, upgrades, keyed => by
      rw [List.foldl_cons, lookup_foldl_addUpgrade t rest (keyed.addUpgrade u),
        lookup_addUpgrade keyed u t]
      by_cases own : u.type = t
      · cases SortedMap.lookup t upgrades <;> simp [own]
      · simp [own]

theorem wellKeyed_foldl_addUpgrade :
    ∀ (us : List LedgerUpgrade) {upgrades : List (LedgerUpgradeType × LedgerUpgrade)},
      WellKeyed upgrades → WellKeyed (us.foldl addUpgrade upgrades)
  | [], _, keyed => keyed
  | u :: rest, _, keyed => wellKeyed_foldl_addUpgrade rest (keyed.addUpgrade u)

theorem collectUpgrades_eq (candidates : List StellarValue) :
    collectUpgrades candidates = (candidates.flatMap StellarValue.upgrades).foldl addUpgrade [] :=
  List.foldl_flatMap.symm

theorem wellKeyed_collectUpgrades (candidates : List StellarValue) :
    WellKeyed (collectUpgrades candidates) := by
  rw [collectUpgrades_eq]
  exact wellKeyed_foldl_addUpgrade _ wellKeyed_nil

/-- The collected entry of a type is the scan over all candidates' upgrades of that type. -/
theorem lookup_collectUpgrades (candidates : List StellarValue) (t : LedgerUpgradeType) :
    SortedMap.lookup t (collectUpgrades candidates) =
      ArgMax.scan upgradeBetter none
        ((candidates.flatMap StellarValue.upgrades).filter fun u => u.type = t) := by
  rw [collectUpgrades_eq, lookup_foldl_addUpgrade t _ wellKeyed_nil]
  rfl

/-! ## The order of transaction sets -/

/-- One level of a cascade of comparisons, decided here when the two sides differ. -/
theorem cascade_iff {β : Type} [LinearOrder β] (a b : β) (rest : Bool) :
    (if a ≠ b then decide (a < b) else rest) = true ↔ a < b ∨ a = b ∧ rest = true := by
  by_cases same : a = b
  · simp [same]
  · simp only [ne_eq, same, not_false_eq_true, if_true, decide_eq_true_eq, false_and, or_false]

/-- A level the protocol version may skip: it counts as 0 on both sides when skipped. -/
theorem level_iff {β : Type} [LinearOrder β] [Zero β] (counted : Prop) [Decidable counted]
    (a b : β) (rest : Bool) :
    (if counted ∧ a ≠ b then decide (a < b) else rest) = true ↔
      (if counted then a else 0) < (if counted then b else 0) ∨
        (if counted then a else 0) = (if counted then b else 0) ∧ rest = true := by
  by_cases isCounted : counted
  · simpa only [isCounted, true_and, if_true] using cascade_iff a b rest
  · simp [isCounted]

/-- The encoded-size level ranks the smaller encoding higher: its key is the negated size. -/
theorem encodedLevel_iff (counted : Prop) [Decidable counted] (x y : Nat) (rest : Bool) :
    (if counted ∧ x ≠ y then decide (x > y) else rest) = true ↔
      (if counted then -(x : ℤ) else 0) < (if counted then -(y : ℤ) else 0) ∨
        (if counted then -(x : ℤ) else 0) = (if counted then -(y : ℤ) else 0) ∧ rest = true := by
  have negated : (counted ∧ x ≠ y) = (counted ∧ -(x : ℤ) ≠ -(y : ℤ)) := by
    simp only [ne_eq, neg_inj, Nat.cast_inj]
  have flipped : decide (x > y) = decide (-(x : ℤ) < -(y : ℤ)) := by
    simp only [gt_iff_lt, neg_lt_neg_iff, Int.ofNat_lt]
  simp only [negated, flipped]
  exact level_iff counted _ _ rest

/-- The levels `compareTxSets` compares in turn; a level the protocol version skips is 0 on
both sides, and the last level is the hash after XOR with the seed. -/
def txSetKey (header : LedgerHeaderHistoryEntry) (s : Hash) (txSet : ApplicableTxSetFrame)
    (h : Hash) (encodedSize : Nat) : Lex (ℕ × Lex (ℤ × Lex (ℤ × Lex (ℤ × ℕ)))) :=
  toLex (txSet.size,
    toLex (if 20 ≤ header.ledgerVersion then txSet.totalInclusionFees else 0,
      toLex (if 11 ≤ header.ledgerVersion then txSet.totalFees else 0,
        toLex (if 20 ≤ header.ledgerVersion then -(encodedSize : ℤ) else 0, (s ^^^ h).toNat))))

/-- `compareTxSets` is the lexicographic order of the keys. -/
theorem compareTxSets_iff {l r : ApplicableTxSetFrame} {lh rh : Hash}
    {lEncodedSize rEncodedSize : Nat} {header : LedgerHeaderHistoryEntry} {s : Hash} :
    compareTxSets l r lh rh lEncodedSize rEncodedSize header s = true ↔
      txSetKey header s l lh lEncodedSize < txSetKey header s r rh rEncodedSize := by
  rw [compareTxSets, cascade_iff, level_iff, level_iff, encodedLevel_iff]
  simp only [txSetKey, Prod.Lex.toLex_lt_toLex, lessThanXored, BitVec.lt_def, decide_eq_true_eq]

/-- Two keys are equal only for one hash. -/
theorem hash_eq_of_txSetKey_eq {header : LedgerHeaderHistoryEntry} {s : Hash}
    {l r : ApplicableTxSetFrame} {lh rh : Hash} {lEncodedSize rEncodedSize : Nat}
    (same : txSetKey header s l lh lEncodedSize = txSetKey header s r rh rEncodedSize) :
    lh = rh := by
  simp only [txSetKey, toLex_inj, Prod.mk.injEq] at same
  exact (BitVec.xor_right_inj s).mp (BitVec.toNat_inj.mp same.2.2.2.2)

/-- The key of the transaction set received for a hash, when it prepares for apply. -/
def preparedKey (env : HerderEnv) (seed h : Hash) :
    Option (Lex (ℕ × Lex (ℤ × Lex (ℤ × Lex (ℤ × ℕ))))) :=
  (env.getTxSet h).bind fun txSet =>
    txSet.prepareForApply.map fun applicable =>
      txSetKey env.lcl seed applicable h txSet.encodedSize

/-- The transaction sets received for two hashes, compared as `combineCandidates` compares
them; false when either is missing or does not prepare for apply. -/
def txSetLess (env : HerderEnv) (seed lh rh : Hash) : Bool :=
  match env.getTxSet lh, env.getTxSet rh with
  | some l, some r =>
      match l.prepareForApply, r.prepareForApply with
      | some la, some ra => compareTxSets la ra lh rh l.encodedSize r.encodedSize env.lcl seed
      | _, _ => false
  | _, _ => false

theorem txSetLess_iff {env : HerderEnv} {seed lh rh : Hash} :
    txSetLess env seed lh rh = true ↔
      ∃ k k', preparedKey env seed lh = some k ∧ preparedKey env seed rh = some k' ∧ k < k' := by
  unfold txSetLess preparedKey
  cases env.getTxSet lh with
  | none => simp
  | some l =>
      cases env.getTxSet rh with
      | none => simp
      | some r =>
          cases prepared : l.prepareForApply with
          | none => simp [prepared]
          | some la =>
              cases prepared' : r.prepareForApply with
              | none => simp [prepared']
              | some ra => simp [prepared, prepared', compareTxSets_iff]

theorem txSetLess_irrefl (env : HerderEnv) (seed h : Hash) : txSetLess env seed h h = false := by
  cases less : txSetLess env seed h h with
  | false => rfl
  | true =>
      obtain ⟨k, k', found, found', below⟩ := txSetLess_iff.1 less
      rw [found] at found'
      cases found'
      exact absurd below (lt_irrefl k)

theorem txSetLess_trans {env : HerderEnv} {seed a b c : Hash}
    (below : txSetLess env seed a b = true) (below' : txSetLess env seed b c = true) :
    txSetLess env seed a c = true := by
  obtain ⟨ka, kb, foundA, foundB, ab⟩ := txSetLess_iff.1 below
  obtain ⟨kb', kc, foundB', foundC, bc⟩ := txSetLess_iff.1 below'
  rw [foundB] at foundB'
  cases foundB'
  exact txSetLess_iff.2 ⟨ka, kc, foundA, foundC, lt_trans ab bc⟩

/-- Distinct hashes whose transaction sets prepare for apply are ordered one way or the other. -/
theorem txSetLess_total {env : HerderEnv} {seed lh rh : Hash}
    (prepared : (preparedKey env seed lh).isSome) (prepared' : (preparedKey env seed rh).isSome)
    (differ : lh ≠ rh) : txSetLess env seed lh rh = true ∨ txSetLess env seed rh lh = true := by
  obtain ⟨k, found⟩ := Option.isSome_iff_exists.mp prepared
  obtain ⟨k', found'⟩ := Option.isSome_iff_exists.mp prepared'
  have keysDiffer : k ≠ k' := by
    intro same
    subst same
    simp only [preparedKey, Option.bind_eq_some_iff, Option.map_eq_some_iff] at found found'
    obtain ⟨l, -, la, -, keyL⟩ := found
    obtain ⟨r, -, ra, -, keyR⟩ := found'
    exact differ (hash_eq_of_txSetKey_eq (keyL.trans keyR.symm))
  rcases lt_or_gt_of_ne keysDiffer with below | above
  · exact .inl (txSetLess_iff.2 ⟨k, k', found, found', below⟩)
  · exact .inr (txSetLess_iff.2 ⟨k', k, found', found, above⟩)

/-! ## The highest transaction set -/

/-- A candidate whose transaction set the node holds, prepares for apply and builds on the last
closed ledger. -/
def Ready (env : HerderEnv) (sv : StellarValue) : Prop :=
  ∃ txSet applicable, env.getTxSet sv.txSetHash = some txSet ∧
    txSet.prepareForApply = some applicable ∧ txSet.previousLedgerHash = env.lcl.hash

theorem Ready.prepared {env : HerderEnv} {sv : StellarValue} (ready : Ready env sv)
    (seed : Hash) : (preparedKey env seed sv.txSetHash).isSome := by
  obtain ⟨txSet, applicable, found, prepared, -⟩ := ready
  simp [preparedKey, found, prepared]

/-- Over ready candidates the loop never fails, and the value it keeps is the scan under
`txSetLess`. The frames kept beside the value are those received for its hash. -/
theorem highestCandidate_scan (env : HerderEnv) (seed : Hash) :
    ∀ (l : List StellarValue)
      (current : Option (StellarValue × TxSetXDRFrame × ApplicableTxSetFrame)),
      (∀ sv ∈ l, Ready env sv) →
      (∀ sv txSet applicable, current = some (sv, txSet, applicable) →
        env.getTxSet sv.txSetHash = some txSet ∧ txSet.prepareForApply = some applicable) →
      ∃ result, highestCandidate env seed current l = .ok result ∧
        result.map Prod.fst = ArgMax.scan (fun a b => txSetLess env seed a.txSetHash b.txSetHash)
          (current.map Prod.fst) l
  | [], current, _, _ => ⟨current, rfl, rfl⟩
  | sv :: rest, current, ready, held => by
      obtain ⟨txSet, applicable, found, prepared, onLcl⟩ := ready sv List.mem_cons_self
      have readyRest : ∀ sv' ∈ rest, Ready env sv' := fun sv' member =>
        ready sv' (List.mem_cons_of_mem sv member)
      have heldNew : ∀ sv' txSet' applicable', some (sv, txSet, applicable) =
          some (sv', txSet', applicable') →
          env.getTxSet sv'.txSetHash = some txSet' ∧ txSet'.prepareForApply = some applicable' := by
        intro sv' txSet' applicable' same
        simp only [Option.some.injEq, Prod.mk.injEq] at same
        obtain ⟨rfl, rfl, rfl⟩ := same
        exact ⟨found, prepared⟩
      obtain ⟨taken, takenRun, takenScan⟩ :=
        highestCandidate_scan env seed rest (some (sv, txSet, applicable)) readyRest heldNew
      cases current with
      | none =>
          refine ⟨taken, ?_, takenScan⟩
          simp only [highestCandidate, found, prepared, onLcl, if_true]
          exact takenRun
      | some entry =>
          obtain ⟨highestValue, highestTxSet, highestApplicable⟩ := entry
          obtain ⟨foundHighest, preparedHighest⟩ := held highestValue highestTxSet highestApplicable rfl
          -- the scan compares the frames the loop holds
          have compared : txSetLess env seed highestValue.txSetHash sv.txSetHash =
              compareTxSets highestApplicable applicable highestValue.txSetHash sv.txSetHash
                highestTxSet.encodedSize txSet.encodedSize env.lcl seed := by
            simp [txSetLess, foundHighest, found, preparedHighest, prepared]
          by_cases replaced : compareTxSets highestApplicable applicable highestValue.txSetHash
              sv.txSetHash highestTxSet.encodedSize txSet.encodedSize env.lcl seed = true
          · refine ⟨taken, ?_, ?_⟩
            · simp only [highestCandidate, found, prepared, onLcl, if_true, replaced]
              exact takenRun
            · rw [takenScan]
              simp only [Option.map_some, ArgMax.scan_some_cons, compared, replaced, if_true]
          · obtain ⟨kept, keptRun, keptScan⟩ := highestCandidate_scan env seed rest
              (some (highestValue, highestTxSet, highestApplicable)) readyRest held
            refine ⟨kept, ?_, ?_⟩
            · simp only [highestCandidate, found, prepared, onLcl, if_true, replaced]
              exact keptRun
            · rw [keptScan]
              simp only [Option.map_some, ArgMax.scan_some_cons, compared, replaced,
                Bool.false_eq_true, if_false]

/-! ## Validation of a value for the next ledger -/

/-- After an upgrade of type `t`, the loop of `validateValue` accepts exactly valid upgrades of
strictly increasing types above `t`. -/
theorem upgradesValid_some_iff (env : HerderEnv) (nomination : Bool) :
    ∀ (t : LedgerUpgradeType) (upgrades : List LedgerUpgrade),
      upgradesValid env nomination (some t) upgrades = true ↔
        (∀ u ∈ upgrades, env.isValidUpgrade u nomination = true) ∧
        upgrades.Pairwise (fun a b => a.type < b.type) ∧ ∀ u ∈ upgrades, t < u.type
  | _, [] => by simp [upgradesValid]
  | t, u :: rest => by
      simp only [upgradesValid, Bool.and_eq_true, decide_eq_true_eq,
        upgradesValid_some_iff env nomination u.type rest, List.forall_mem_cons,
        List.pairwise_cons]
      constructor
      · rintro ⟨⟨valid, above⟩, validRest, sorted, aboveU⟩
        -- a type above `u`'s is above every type below it
        exact ⟨⟨valid, validRest⟩, ⟨aboveU, sorted⟩, above,
          fun u' member => lt_trans above (aboveU u' member)⟩
      · rintro ⟨⟨valid, validRest⟩, ⟨aboveU, sorted⟩, above, -⟩
        exact ⟨⟨valid, above⟩, validRest, sorted, aboveU⟩

/-- The upgrade loop of `validateValue` accepts exactly valid upgrades of strictly increasing
types. -/
theorem upgradesValid_none_iff (env : HerderEnv) (nomination : Bool)
    (upgrades : List LedgerUpgrade) :
    upgradesValid env nomination none upgrades = true ↔
      (∀ u ∈ upgrades, env.isValidUpgrade u nomination = true) ∧
      upgrades.Pairwise (fun a b => a.type < b.type) := by
  cases upgrades with
  | nil => simp [upgradesValid]
  | cons u rest =>
      simp only [upgradesValid, Bool.and_true, Bool.and_eq_true,
        upgradesValid_some_iff env nomination u.type rest, List.forall_mem_cons,
        List.pairwise_cons]
      tauto

/-- What `validateValue` checks of a value for the next ledger that it fully validates. -/
theorem validateValue_fullyValidated_iff {env : HerderEnv} {b : StellarValue}
    {nomination : Bool} :
    validateValue env (env.lcl.ledgerSeq + 1) b nomination = .fullyValidatedValue ↔
      b.upgrades.length ≤ 6 ∧
      (∃ lcValueSignature, b.ext = some lcValueSignature ∧
        env.verifySignature b.txSetHash b.closeTime lcValueSignature = true) ∧
      checkCloseTime env env.lcl.closeTime b = true ∧
      (∃ txSet, env.getTxSet b.txSetHash = some txSet ∧
        checkAndCacheTxSetValid env txSet (b.closeTime - env.lcl.closeTime) = true) ∧
      upgradesValid env nomination none b.upgrades = true := by
  unfold validateValue validateValueAgainstLocalState
  by_cases bounded : 6 < b.upgrades.length
  · simp [bounded]
  have fits : b.upgrades.length ≤ 6 := Nat.not_lt.mp bounded
  -- each check in turn: a failed one makes the value invalid
  cases b.ext with
  | none => simp [bounded]
  | some lcValueSignature =>
      cases signed : env.verifySignature b.txSetHash b.closeTime lcValueSignature
      · simp [bounded, signed]
      cases timely : checkCloseTime env env.lcl.closeTime b
      · simp [bounded, signed]
      cases found : env.getTxSet b.txSetHash with
      | none => simp [bounded, signed]
      | some txSet =>
          cases valid : checkAndCacheTxSetValid env txSet (b.closeTime - env.lcl.closeTime)
          · simp [bounded, signed, valid]
          cases upgradesValid env nomination none b.upgrades
          · simp [bounded, signed, valid]
          · simp [bounded, fits, signed, valid]

/-- A fully validated candidate's transaction set is ready to be combined. -/
theorem ready_of_fullyValidated {env : HerderEnv} {b : StellarValue} {nomination : Bool}
    (validated : validateValue env (env.lcl.ledgerSeq + 1) b nomination = .fullyValidatedValue) :
    Ready env b := by
  obtain ⟨-, -, -, ⟨txSet, found, valid⟩, -⟩ := validateValue_fullyValidated_iff.1 validated
  unfold checkAndCacheTxSetValid at valid
  split_ifs at valid with onLcl
  cases prepared : txSet.prepareForApply with
  | none => simp [prepared] at valid
  | some applicable => exact ⟨txSet, applicable, found, prepared, onLcl⟩

/-! ## The collected upgrades -/

/-- An upgrade is in the composite exactly when it wins the scan over the candidates' upgrades
of its type. -/
theorem mem_collectUpgrades_iff {candidates : List StellarValue} {u : LedgerUpgrade} :
    u ∈ (collectUpgrades candidates).map Prod.snd ↔
      ArgMax.scan upgradeBetter none
        ((candidates.flatMap StellarValue.upgrades).filter fun u' => u'.type = u.type) =
          some u := by
  have keyed := wellKeyed_collectUpgrades candidates
  rw [← lookup_collectUpgrades]
  constructor
  · intro member
    obtain ⟨⟨t, u'⟩, entry, rfl⟩ := List.mem_map.mp member
    have typed : u'.type = t := keyed.typed (t, u') entry
    rw [typed]
    have distinct : ((collectUpgrades candidates).map Prod.fst).Nodup := keyed.sorted.imp ne_of_lt
    exact SortedMap.lookup_of_mem distinct entry
  · intro found
    exact List.mem_map.mpr ⟨_, SortedMap.mem_of_lookup found, rfl⟩

/-- Every upgrade of the composite is one of a candidate, and has the largest parameter among
the candidates' upgrades of its type. -/
theorem collectUpgrades_maximal {candidates : List StellarValue} {u : LedgerUpgrade}
    (member : u ∈ (collectUpgrades candidates).map Prod.snd) :
    (∃ sv ∈ candidates, u ∈ sv.upgrades) ∧
      ∀ sv ∈ candidates, ∀ u' ∈ sv.upgrades, u'.type = u.type → u'.param ≤ u.param := by
  have won := mem_collectUpgrades_iff.1 member
  have unbeaten := ArgMax.scan_none_unbeaten upgradeBetter_irrefl upgradeBetter_trans won
  obtain ⟨inCandidates, -⟩ := List.mem_filter.mp (ArgMax.mem_of_scan_none won)
  refine ⟨by simpa using inCandidates, fun sv svMember u' own sameType => ?_⟩
  have notBetter := unbeaten u' (List.mem_filter.mpr
    ⟨List.mem_flatMap.mpr ⟨sv, svMember, own⟩, by simpa using sameType⟩)
  simpa [upgradeBetter] using notBetter

/-- The composite carries an upgrade of every type some candidate carries, and no other. -/
theorem collectUpgrades_types {candidates : List StellarValue} (t : LedgerUpgradeType) :
    (∃ sv ∈ candidates, ∃ u ∈ sv.upgrades, u.type = t) ↔
      ∃ u ∈ (collectUpgrades candidates).map Prod.snd, u.type = t := by
  constructor
  · rintro ⟨sv, svMember, u, own, rfl⟩
    have present : u ∈ (candidates.flatMap StellarValue.upgrades).filter
        fun u' => u'.type = u.type :=
      List.mem_filter.mpr ⟨List.mem_flatMap.mpr ⟨sv, svMember, own⟩, by simp⟩
    obtain ⟨w, won⟩ : ∃ w, ArgMax.scan upgradeBetter none
        ((candidates.flatMap StellarValue.upgrades).filter fun u' => u'.type = u.type) = some w := by
      cases filtered : (candidates.flatMap StellarValue.upgrades).filter
          fun u' => u'.type = u.type with
      | nil => simp [filtered] at present
      | cons first rest => exact ArgMax.scan_some_isSome first rest
    obtain ⟨-, sameType⟩ := List.mem_filter.mp (ArgMax.mem_of_scan_none won)
    have typed : w.type = u.type := by simpa using sameType
    refine ⟨w, mem_collectUpgrades_iff.2 ?_, typed⟩
    rw [typed]
    exact won
  · rintro ⟨u, member, rfl⟩
    exact (collectUpgrades_maximal member).1.imp fun sv ⟨svMember, own⟩ => ⟨svMember, u, own, rfl⟩

/-- The upgrades of the composite have strictly increasing types. -/
theorem collectUpgrades_sorted (candidates : List StellarValue) :
    ((collectUpgrades candidates).map Prod.snd).Pairwise (fun a b => a.type < b.type) := by
  have keyed := wellKeyed_collectUpgrades candidates
  rw [List.pairwise_map]
  refine (List.pairwise_map.mp keyed.sorted).imp_of_mem fun member member' below => ?_
  rw [keyed.typed _ member, keyed.typed _ member']
  exact below

/-! ## Order independence -/

theorem candidatesHash_perm (env : HerderEnv) {l l' : List StellarValue} (perm : l.Perm l') :
    candidatesHash env l = candidatesHash env l' := by
  have asMap : ∀ l : List StellarValue,
      candidatesHash env l = (l.map env.valueHash).foldl (· ^^^ ·) 0 :=
    fun _ => List.foldl_map.symm
  rw [asMap, asMap]
  exact (perm.map env.valueHash).foldl_op_eq

/-- The collected upgrades do not depend on the order of the candidates. -/
theorem collectUpgrades_perm {l l' : List StellarValue} (perm : l.Perm l') :
    collectUpgrades l = collectUpgrades l' := by
  refine SortedMap.eq_of_lookup_eq (wellKeyed_collectUpgrades l).sorted
    (wellKeyed_collectUpgrades l').sorted fun t => ?_
  rw [lookup_collectUpgrades, lookup_collectUpgrades]
  -- upgrades of one type are totally ordered by their parameters
  have total : ∀ a ∈ (l.flatMap StellarValue.upgrades).filter (fun u => u.type = t),
      ∀ b ∈ (l.flatMap StellarValue.upgrades).filter (fun u => u.type = t),
      id a ≠ id b → upgradeBetter a b = true ∨ upgradeBetter b a = true := by
    intro a member b member' differ
    have typeA : a.type = t := by simpa using (List.mem_filter.mp member).2
    have typeB : b.type = t := by simpa using (List.mem_filter.mp member').2
    exact upgradeBetter_total (typeA.trans typeB.symm) differ
  simpa using ArgMax.scan_perm_key id upgradeBetter_irrefl upgradeBetter_trans total
    ((perm.flatMap_right StellarValue.upgrades).filter _)

/-! ## The composite -/

/-- Over ready candidates `combineCandidates` never throws: it returns the winner of the scan
with the collected upgrades. -/
theorem combineCandidates_of_ready {env : HerderEnv} {candidates : List StellarValue}
    (nonempty : candidates ≠ []) (ready : ∀ sv ∈ candidates, Ready env sv) :
    ∃ chosen, ArgMax.scan (fun a b => txSetLess env (candidatesHash env candidates)
        a.txSetHash b.txSetHash) none candidates = some chosen ∧
      combineCandidates env candidates =
        .ok { chosen with upgrades := (collectUpgrades candidates).map Prod.snd } := by
  obtain ⟨result, run, scanned⟩ := highestCandidate_scan env (candidatesHash env candidates)
    candidates none ready fun _ _ _ held => nomatch held
  obtain ⟨chosen, won⟩ : ∃ chosen, ArgMax.scan (fun a b => txSetLess env
      (candidatesHash env candidates) a.txSetHash b.txSetHash) none candidates = some chosen := by
    cases candidates with
    | nil => exact absurd rfl nonempty
    | cons first rest => exact ArgMax.scan_some_isSome first rest
  rw [Option.map_none, won] at scanned
  cases result with
  | none => cases scanned
  | some entry =>
      obtain ⟨value, txSet, applicable⟩ := entry
      simp only [Option.map_some, Option.some.injEq] at scanned
      subst scanned
      refine ⟨value, won, ?_⟩
      simp only [combineCandidates, run, Except.ok_bind]
      rfl

/-- The composite of fully validated candidates is fully validated, when their upgrades span at
most six types. -/
theorem validateValue_composite {env : HerderEnv} {candidates : List StellarValue}
    {nomination : Bool} {chosen : StellarValue} (member : chosen ∈ candidates)
    (validated : ∀ sv ∈ candidates,
      validateValue env (env.lcl.ledgerSeq + 1) sv nomination = .fullyValidatedValue)
    {types : List LedgerUpgradeType} (fewTypes : types.length ≤ 6)
    (covered : ∀ sv ∈ candidates, ∀ u ∈ sv.upgrades, u.type ∈ types) :
    validateValue env (env.lcl.ledgerSeq + 1)
      { chosen with upgrades := (collectUpgrades candidates).map Prod.snd } nomination =
        .fullyValidatedValue := by
  obtain ⟨-, signed, timely, txSetValid, -⟩ :=
    validateValue_fullyValidated_iff.1 (validated chosen member)
  have keyed := wellKeyed_collectUpgrades candidates
  refine validateValue_fullyValidated_iff.2 ⟨?_, signed, timely, txSetValid, ?_⟩
  · -- one entry per type, and every type is among `types`
    have keysCovered : (collectUpgrades candidates).map Prod.fst ⊆ types := by
      intro t inKeys
      obtain ⟨⟨t', u⟩, entry, rfl⟩ := List.mem_map.mp inKeys
      obtain ⟨⟨sv, svMember, own⟩, -⟩ :=
        collectUpgrades_maximal (List.mem_map.mpr ⟨_, entry, rfl⟩)
      rw [← keyed.typed _ entry]
      exact covered sv svMember u own
    have distinct : ((collectUpgrades candidates).map Prod.fst).Nodup :=
      keyed.sorted.imp ne_of_lt
    simpa using (distinct.length_le_of_subset keysCovered).trans fewTypes
  · -- each upgrade is one a candidate carries, and that candidate's upgrades are valid
    refine (upgradesValid_none_iff env nomination _).mpr
      ⟨fun u inComposite => ?_, collectUpgrades_sorted candidates⟩
    obtain ⟨⟨sv, svMember, own⟩, -⟩ := collectUpgrades_maximal inComposite
    obtain ⟨-, -, -, -, upgraded⟩ := validateValue_fullyValidated_iff.1 (validated sv svMember)
    exact ((upgradesValid_none_iff env nomination _).mp upgraded).1 u own

/-- Reordering ready candidates changes neither the transaction set of the composite nor its
upgrades. -/
theorem combineCandidates_perm {env : HerderEnv} {candidates candidates' : List StellarValue}
    (nonempty : candidates ≠ []) (ready : ∀ sv ∈ candidates, Ready env sv)
    (perm : candidates'.Perm candidates) {chosen : StellarValue}
    (won : ArgMax.scan (fun a b => txSetLess env (candidatesHash env candidates)
      a.txSetHash b.txSetHash) none candidates = some chosen) :
    ∃ V', combineCandidates env candidates' = .ok V' ∧ V'.txSetHash = chosen.txSetHash ∧
      V'.upgrades = (collectUpgrades candidates).map Prod.snd := by
  have ready' : ∀ sv ∈ candidates', Ready env sv := fun sv member => ready sv (perm.subset member)
  have nonempty' : candidates' ≠ [] := fun empty =>
    nonempty (List.Perm.nil_eq (empty ▸ perm)).symm
  obtain ⟨chosen', won', combined⟩ := combineCandidates_of_ready nonempty' ready'
  rw [candidatesHash_perm env perm] at won'
  -- the order of the scan is strict, and total on the candidates' distinct hashes
  let better := fun a b : StellarValue =>
    txSetLess env (candidatesHash env candidates) a.txSetHash b.txSetHash
  have irrefl : ∀ sv, better sv sv = false := fun sv => txSetLess_irrefl env _ sv.txSetHash
  have trans : ∀ {a b c}, better a b = true → better b c = true → better a c = true :=
    fun below below' => txSetLess_trans below below'
  have total : ∀ a ∈ candidates', ∀ b ∈ candidates', a.txSetHash ≠ b.txSetHash →
      better a b = true ∨ better b a = true :=
    fun a member b member' differ =>
      txSetLess_total ((ready' a member).prepared _) ((ready' b member').prepared _) differ
  have sameHash : (ArgMax.scan better none candidates').map StellarValue.txSetHash =
      (ArgMax.scan better none candidates).map StellarValue.txSetHash :=
    ArgMax.scan_perm_key StellarValue.txSetHash irrefl trans total perm
  rw [won', won, Option.map_some, Option.map_some, Option.some.injEq] at sameHash
  exact ⟨_, combined, sameHash, by rw [collectUpgrades_perm perm]⟩

/-- No candidate's transaction set ranks above the one the scan picks. -/
theorem unbeaten_of_scan {env : HerderEnv} {seed : Hash} {candidates : List StellarValue}
    {chosen : StellarValue}
    (won : ArgMax.scan (fun a b => txSetLess env seed a.txSetHash b.txSetHash) none candidates =
      some chosen) :
    ∀ sv ∈ candidates, txSetLess env seed chosen.txSetHash sv.txSetHash = false := by
  let better := fun a b : StellarValue => txSetLess env seed a.txSetHash b.txSetHash
  have irrefl : ∀ sv, better sv sv = false := fun sv => txSetLess_irrefl env seed sv.txSetHash
  have trans : ∀ {a b c}, better a b = true → better b c = true → better a c = true :=
    fun below below' => txSetLess_trans below below'
  exact ArgMax.scan_none_unbeaten irrefl trans won

/-- A node at ledger 5 that holds one transaction set, for hash 7, built on its last closed
ledger; it accepts every signature and every upgrade. -/
def sampleNode : HerderEnv where
  lcl := ⟨0, 5, 21, 100⟩
  getTxSet h := if h = 7 then some ⟨0, 10, some ⟨1, 0, 0, fun _ => true⟩⟩ else none
  verifySignature _ _ _ := true
  isValidUpgrade _ _ := true
  valueHash sv := StellarValue.txSetHash sv ^^^ BitVec.ofNat 256 (StellarValue.closeTime sv)
  timeNow := 100
  isTracking := true
  nextConsensusLedgerIndex := 6
  trackingConsensusCloseTime := 100

end StellarCore.Herder
