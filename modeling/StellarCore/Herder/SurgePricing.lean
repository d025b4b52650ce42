import StellarCore.Util.Numeric
import StellarCore.Lib.Except
import Mathlib.Data.List.GetD

/-!
# Surge-priced base fees of a transaction set phase

`applySurgePricing` of `TxSetFrame.cpp`, after the builder has picked the transactions of a
phase: the lowest per-operation bid of each lane (`computePerOpFee`), then the base fee of each
lane (`computeLaneBaseFee`), which every transaction of the lane is charged. `checkFeeMap` is
what a node that receives the set checks of the result.

The builder (`buildSurgePricedSequentialPhase` or the parallel Soroban builder) is not modelled:
its output, the transactions it included and whether some transaction did not fit each lane,
is an input here, and the stages of a parallel phase are visited in order as one list.
-/

set_option autoImplicit false

namespace StellarCore.Herder

/-- What surge pricing reads of a transaction; its inclusion fee is an `int64`. -/
structure TxFrame where
  inclusionFee : Int
  numOperations : Nat
  isSoroban : Bool
  hasDexOperations : Bool
  inclusionFee_le : inclusionFee ≤ int64Max

/-- The fields of the last closed ledger header that surge pricing reads; the base fee is a
`uint32`. -/
structure LedgerHeader where
  ledgerVersion : Nat
  baseFee : Int
  baseFee_nonneg : 0 ≤ baseFee
  baseFee_lt : baseFee < 2 ^ 32

/-- The phases of a generalized transaction set. -/
inductive TxSetPhase where
  | classic
  | soroban
deriving DecidableEq, Repr

/-- `SurgePricingPriorityQueue::GENERIC_LANE`. -/
def genericLane : Nat := 0

/-- `DexLimitingLaneConfig::DEX_LANE`. -/
def dexLane : Nat := 1

/-- `SurgePricingLaneConfig`, through the lanes it defines. -/
inductive SurgePricingLaneConfig where
  /-- `DexLimitingLaneConfig`, with a DEX lane when a DEX operations limit is set. -/
  | dexLimiting (hasDexLimit : Bool)
  /-- `SorobanGenericLaneConfig`. -/
  | sorobanGeneric
deriving DecidableEq, Repr

namespace SurgePricingLaneConfig

/-- The size of `getLaneLimits()`. -/
def laneCount : SurgePricingLaneConfig → Nat
  | dexLimiting hasDexLimit => if hasDexLimit then 2 else 1
  | sorobanGeneric => 1

/-- `getLane`. -/
def getLane (config : SurgePricingLaneConfig) (tx : TxFrame) : Except String Nat :=
  match config with
  | dexLimiting _ =>
      .ok (if config.laneCount > dexLane ∧ tx.hasDexOperations = true then dexLane
        else genericLane)
  | sorobanGeneric => if tx.isSoroban then .ok genericLane else .error "Invalid tx: non-Soroban"

end SurgePricingLaneConfig

/-- `createSurgePricingLangeConfig`, through the lanes it creates; `hasDexLimit` is whether
`MAX_DEX_TX_OPERATIONS_IN_TX_SET` is set. -/
def createSurgePricingLaneConfig (phase : TxSetPhase) (hasDexLimit : Bool) :
    SurgePricingLaneConfig :=
  match phase with
  | .classic => .dexLimiting hasDexLimit
  | .soroban => .sorobanGeneric

/-- `computePerOpFee`: the bid per operation, rounded down from the Soroban protocol (20) on. -/
def computePerOpFee (tx : TxFrame) (ledgerVersion : Nat) : Except String Int :=
  let rounding := if 20 ≤ ledgerVersion then Rounding.roundDown else Rounding.roundUp
  bigDivideOrThrow tx.inclusionFee 1 tx.numOperations rounding

/-- The loop of `applySurgePricing` that lowers `lowestLaneFee[lane]` to the per-operation bid
of every included transaction of the lane. -/
def lowestLaneFees (config : SurgePricingLaneConfig) (ledgerVersion : Nat) :
    List TxFrame → List Int → Except String (List Int)
  | [], lowestLaneFee => .ok lowestLaneFee
  | tx :: rest, lowestLaneFee => do
      let lane ← config.getLane tx
      let perOpFee ← computePerOpFee tx ledgerVersion
      lowestLaneFees config ledgerVersion rest
        (lowestLaneFee.set lane (min (lowestLaneFee.getD lane 0) perOpFee))

/-- `computeLaneBaseFee`: the header's base fee, raised to the lowest bid of the set when the
generic lane was full, and to the lowest bid of a limited lane when that lane was full. -/
def computeLaneBaseFee (header : LedgerHeader) (lowestLaneFee : List Int)
    (hadTxNotFittingLane : List Bool) : List Int :=
  let minBaseFee := lowestLaneFee.min?.getD header.baseFee
  (List.range lowestLaneFee.length).map fun lane =>
    let laneBaseFee :=
      if hadTxNotFittingLane.getD genericLane false then minBaseFee else header.baseFee
    if lane ≠ genericLane ∧ hadTxNotFittingLane.getD lane false then lowestLaneFee.getD lane 0
    else laneBaseFee

/-- `applySurgePricing` on the builder's output: the inclusion fee map, in the order of the
included transactions. -/
def applySurgePricing (config : SurgePricingLaneConfig) (header : LedgerHeader)
    (includedTxs : List TxFrame) (hadTxNotFittingLane : List Bool) :
    Except String (List (TxFrame × Option Int)) := do
  let lowestLaneFee ← lowestLaneFees config header.ledgerVersion includedTxs
    (List.replicate config.laneCount int64Max)
  let laneBaseFee := computeLaneBaseFee header lowestLaneFee hadTxNotFittingLane
  includedTxs.mapM fun tx => do
    let lane ← config.getLane tx
    pure (tx, some (laneBaseFee.getD lane 0))

/-- `getMinInclusionFee`. -/
def getMinInclusionFee (tx : TxFrame) (header : LedgerHeader) (baseFee : Option Int) : Int :=
  let effectiveBaseFee :=
    match baseFee with
    | some fee => max header.baseFee fee
    | none => header.baseFee
  effectiveBaseFee * max 1 (tx.numOperations : Int)

/-- `checkFeeMap`. -/
def checkFeeMap (feeMap : List (TxFrame × Option Int)) (header : LedgerHeader) : Bool :=
  feeMap.all fun (tx, fee) =>
    match fee with
    | none => true
    | some fee =>
        !decide (fee < header.baseFee) &&
          !decide (tx.inclusionFee < getMinInclusionFee tx header (some fee))

/-! ## Per-operation bids and the lowest bid of each lane -/

/-- An entry read within the bounds of a list is one of its elements. -/
theorem getD_mem_of_lt {α : Type} {l : List α} {i : Nat} {d : α} (inRange : i < l.length) :
    l.getD i d ∈ l := by
  rw [List.getD_eq_getElem _ _ inRange]
  exact List.getElem_mem inRange

section Bids

variable {config : SurgePricingLaneConfig} {header : LedgerHeader}

theorem getLane_lt {tx : TxFrame} {lane : Nat} (found : config.getLane tx = .ok lane) :
    lane < config.laneCount := by
  cases config with
  | dexLimiting hasDexLimit =>
      simp only [SurgePricingLaneConfig.getLane, Except.ok.injEq] at found
      subst found
      -- the DEX lane is only chosen when the configuration has it
      cases hasDexLimit <;> split <;> simp_all [SurgePricingLaneConfig.laneCount, genericLane]
  | sorobanGeneric =>
      simp only [SurgePricingLaneConfig.getLane] at found
      split at found
      · cases found
        simp [SurgePricingLaneConfig.laneCount, genericLane]
      · cases found

/-- Every transaction has a lane, except a classic one in the Soroban phase. -/
theorem getLane_ok {tx : TxFrame} (sorobanPhase : config = .sorobanGeneric → tx.isSoroban = true) :
    ∃ lane, config.getLane tx = .ok lane := by
  cases config with
  | dexLimiting _ => exact ⟨_, rfl⟩
  | sorobanGeneric => exact ⟨genericLane, by simp [SurgePricingLaneConfig.getLane, sorobanPhase rfl]⟩

/-- From the Soroban protocol on, the bid per operation is the inclusion fee divided by the
operations, rounded down. -/
theorem computePerOpFee_spec {tx : TxFrame} {ledgerVersion : Nat} (version : 20 ≤ ledgerVersion)
    (operations : 0 < tx.numOperations) (nonneg : 0 ≤ tx.inclusionFee) :
    ∃ perOpFee, computePerOpFee tx ledgerVersion = .ok perOpFee ∧ 0 ≤ perOpFee ∧
      perOpFee * tx.numOperations ≤ tx.inclusionFee ∧
      tx.inclusionFee < (perOpFee + 1) * tx.numOperations := by
  obtain ⟨quotient, divided, quotientNonneg, below, above⟩ :=
    bigDivide_roundDown_bracket nonneg (by decide : (0 : Int) ≤ 1)
      (by exact_mod_cast operations : (0 : Int) < tx.numOperations)
  have operationsPos : (1 : Int) ≤ tx.numOperations := by exact_mod_cast operations
  have fits : quotient ≤ int64Max := by
    have := tx.inclusionFee_le
    nlinarith
  refine ⟨quotient, ?_, quotientNonneg, by simpa using below, by simpa using above⟩
  simp [computePerOpFee, version, bigDivideOrThrow, divided, fits]

/-- A bid of at least the base fee per operation gives a per-operation bid of at least it. -/
theorem baseFee_le_perOpFee {tx : TxFrame} {perOpFee : Int} (operations : 0 < tx.numOperations)
    (bid : header.baseFee * max 1 (tx.numOperations : Int) ≤ tx.inclusionFee)
    (above : tx.inclusionFee < (perOpFee + 1) * tx.numOperations) : header.baseFee ≤ perOpFee := by
  have operationsPos : (0 : Int) < tx.numOperations := by exact_mod_cast operations
  rw [max_eq_right (by omega)] at bid
  have : header.baseFee < perOpFee + 1 := lt_of_mul_lt_mul_right (lt_of_le_of_lt bid above)
    operationsPos.le
  omega

/-- A bid of at least the base fee for every operation is not negative. -/
theorem inclusionFee_nonneg {tx : TxFrame}
    (bid : header.baseFee * max 1 (tx.numOperations : Int) ≤ tx.inclusionFee) :
    0 ≤ tx.inclusionFee :=
  le_trans (mul_nonneg header.baseFee_nonneg (by omega)) bid

/-- A fee per operation at most the bid per operation is covered by the inclusion fee. -/
theorem mul_le_inclusionFee {tx : TxFrame} {ledgerVersion : Nat} {perOpFee fee : Int}
    (version : 20 ≤ ledgerVersion) (operations : 0 < tx.numOperations)
    (nonneg : 0 ≤ tx.inclusionFee) (perOp : computePerOpFee tx ledgerVersion = .ok perOpFee)
    (below : fee ≤ perOpFee) : fee * max 1 (tx.numOperations : Int) ≤ tx.inclusionFee := by
  obtain ⟨quotient, divided, -, covered, -⟩ := computePerOpFee_spec version operations nonneg
  rw [perOp, Except.ok.injEq] at divided
  rw [← divided] at covered
  have operationsPos : (0 : Int) < tx.numOperations := by exact_mod_cast operations
  rw [max_eq_right (by omega)]
  calc fee * tx.numOperations ≤ perOpFee * tx.numOperations :=
        mul_le_mul_of_nonneg_right below operationsPos.le
    _ ≤ tx.inclusionFee := covered

theorem baseFee_le_int64Max (header : LedgerHeader) : header.baseFee ≤ int64Max := by
  have := header.baseFee_lt
  unfold int64Max
  omega

/-- What the loop over the included transactions leaves: every lane's lowest bid stays at
least the base fee and only goes down, and lies at or below the bid of each transaction of the
lane. -/
theorem lowestLaneFees_spec {txs : List TxFrame} (version : 20 ≤ header.ledgerVersion)
    (sorobanPhase : config = .sorobanGeneric → ∀ tx ∈ txs, tx.isSoroban = true)
    (operations : ∀ tx ∈ txs, 0 < tx.numOperations)
    (bids : ∀ tx ∈ txs, header.baseFee * max 1 (tx.numOperations : Int) ≤ tx.inclusionFee) :
    ∀ (lowest₀ : List Int), lowest₀.length = config.laneCount →
      (∀ fee ∈ lowest₀, header.baseFee ≤ fee) →
      ∃ lowest, lowestLaneFees config header.ledgerVersion txs lowest₀ = .ok lowest ∧
        lowest.length = lowest₀.length ∧
        (∀ fee ∈ lowest, header.baseFee ≤ fee) ∧
        (∀ lane, lowest.getD lane 0 ≤ lowest₀.getD lane 0) ∧
        ∀ tx ∈ txs, ∃ lane perOpFee, config.getLane tx = .ok lane ∧
          computePerOpFee tx header.ledgerVersion = .ok perOpFee ∧
          lowest.getD lane 0 ≤ perOpFee := by
  induction txs with
  | nil =>
      intro lowest₀ _ bounded
      exact ⟨lowest₀, rfl, rfl, bounded, fun _ => le_refl _, fun _ member => nomatch member⟩
  | cons tx rest more =>
      intro lowest₀ sized bounded
      obtain ⟨lane, laned⟩ := getLane_ok fun soroban => sorobanPhase soroban tx List.mem_cons_self
      have inLanes : lane < lowest₀.length := sized ▸ getLane_lt laned
      obtain ⟨perOpFee, perOp, -, -, above⟩ := computePerOpFee_spec version
        (operations tx List.mem_cons_self) (inclusionFee_nonneg (bids tx List.mem_cons_self))
      have atLeast := baseFee_le_perOpFee (operations tx List.mem_cons_self)
        (bids tx List.mem_cons_self) above
      -- the lane's entry becomes the smaller of itself and this bid
      set lowered := lowest₀.set lane (min (lowest₀.getD lane 0) perOpFee) with lowered_def
      have loweredLength : lowered.length = lowest₀.length := List.length_set
      have loweredAt : ∀ other, lowered.getD other 0 =
          if other = lane then min (lowest₀.getD lane 0) perOpFee else lowest₀.getD other 0 := by
        intro other
        by_cases same : other = lane
        · subst same
          simp [lowered_def, inLanes]
        · simp [lowered_def, List.getD_eq_getElem?_getD, Ne.symm same, same]
      have loweredBounded : ∀ fee ∈ lowered, header.baseFee ≤ fee := by
        intro fee member
        rcases List.mem_or_eq_of_mem_set member with old | rfl
        · exact bounded fee old
        · exact le_min (bounded _ (getD_mem_of_lt inLanes)) atLeast
      obtain ⟨lowest, run, length, bounded', lower, covers⟩ := more
        (fun soroban tx' member => sorobanPhase soroban tx' (List.mem_cons_of_mem tx member))
        (fun tx' member => operations tx' (List.mem_cons_of_mem tx member))
        (fun tx' member => bids tx' (List.mem_cons_of_mem tx member))
        lowered (loweredLength.trans sized) loweredBounded
      refine ⟨lowest, ?_, length.trans loweredLength, bounded', fun other => ?_, ?_⟩
      · simp only [lowestLaneFees, laned, perOp, Except.ok_bind]
        exact run
      · refine (lower other).trans ?_
        rw [loweredAt]
        split
        · next same => exact same ▸ min_le_left _ _
        · exact le_refl _
      · intro tx' member
        rcases List.mem_cons.mp member with rfl | later
        · refine ⟨lane, perOpFee, laned, perOp, (lower lane).trans ?_⟩
          rw [loweredAt, if_pos rfl]
          exact min_le_right _ _
        · exact covers tx' later

end Bids

/-! ## The base fee of each lane -/

section LaneBaseFee

variable {header : LedgerHeader} {lowestLaneFee : List Int} {hadTxNotFittingLane : List Bool}

@[simp] theorem length_computeLaneBaseFee :
    (computeLaneBaseFee header lowestLaneFee hadTxNotFittingLane).length =
      lowestLaneFee.length := by
  simp [computeLaneBaseFee]

theorem computeLaneBaseFee_getD {lane : Nat} (inRange : lane < lowestLaneFee.length) :
    (computeLaneBaseFee header lowestLaneFee hadTxNotFittingLane).getD lane 0 =
      if lane ≠ genericLane ∧ hadTxNotFittingLane.getD lane false = true then
        lowestLaneFee.getD lane 0
      else if hadTxNotFittingLane.getD genericLane false = true then
        lowestLaneFee.min?.getD header.baseFee
      else header.baseFee := by
  simp [computeLaneBaseFee, List.getD_eq_getElem?_getD, inRange]

/-- The lowest bid of the whole set lies between the base fee and every lane's lowest bid. -/
theorem minBaseFee_bounds (bounded : ∀ fee ∈ lowestLaneFee, header.baseFee ≤ fee) :
    header.baseFee ≤ lowestLaneFee.min?.getD header.baseFee ∧
      ∀ fee ∈ lowestLaneFee, lowestLaneFee.min?.getD header.baseFee ≤ fee := by
  cases found : lowestLaneFee.min? with
  | none =>
      rw [List.min?_eq_none_iff] at found
      subst found
      simp
  | some least =>
      obtain ⟨member, least_le⟩ := List.min?_eq_some_iff.mp found
      exact ⟨bounded least member, least_le⟩

/-- Each lane's base fee lies between the header's base fee and the lowest bid of the lane. -/
theorem computeLaneBaseFee_bounds (bounded : ∀ fee ∈ lowestLaneFee, header.baseFee ≤ fee)
    {lane : Nat} (inRange : lane < lowestLaneFee.length) :
    header.baseFee ≤ (computeLaneBaseFee header lowestLaneFee hadTxNotFittingLane).getD lane 0 ∧
      (computeLaneBaseFee header lowestLaneFee hadTxNotFittingLane).getD lane 0 ≤
        lowestLaneFee.getD lane 0 := by
  have atLane : lowestLaneFee.getD lane 0 ∈ lowestLaneFee := getD_mem_of_lt inRange
  obtain ⟨minLower, minUpper⟩ := minBaseFee_bounds bounded
  rw [computeLaneBaseFee_getD inRange]
  split_ifs
  · exact ⟨bounded _ atLane, le_refl _⟩
  · exact ⟨minLower, minUpper _ atLane⟩
  · exact ⟨le_refl _, bounded _ atLane⟩

/-- No lane's base fee is below the generic lane's: a limited lane only departs from it when it
was full, for the lowest bid of the lane. -/
theorem generic_le_computeLaneBaseFee (bounded : ∀ fee ∈ lowestLaneFee, header.baseFee ≤ fee)
    {lane : Nat} (inRange : lane < lowestLaneFee.length) :
    (computeLaneBaseFee header lowestLaneFee hadTxNotFittingLane).getD genericLane 0 ≤
      (computeLaneBaseFee header lowestLaneFee hadTxNotFittingLane).getD lane 0 := by
  have atLane : lowestLaneFee.getD lane 0 ∈ lowestLaneFee := getD_mem_of_lt inRange
  obtain ⟨-, minUpper⟩ := minBaseFee_bounds bounded
  rw [computeLaneBaseFee_getD (by simp only [genericLane]; omega), computeLaneBaseFee_getD inRange]
  split_ifs <;> first
    | exact le_refl _
    | exact minUpper _ atLane
    | exact bounded _ atLane
    | simp_all

/-- When every lane took all its transactions, every lane pays the header's base fee. -/
theorem computeLaneBaseFee_of_all_fit
    (allFit : ∀ notFitting ∈ hadTxNotFittingLane, notFitting = false)
    {lane : Nat} (inRange : lane < lowestLaneFee.length) :
    (computeLaneBaseFee header lowestLaneFee hadTxNotFittingLane).getD lane 0 = header.baseFee := by
  have none : ∀ other, hadTxNotFittingLane.getD other false = false := by
    intro other
    rw [List.getD_eq_getElem?_getD]
    cases found : hadTxNotFittingLane[other]? with
    | none => rfl
    | some notFitting => exact allFit notFitting (List.mem_of_getElem? found)
  rw [computeLaneBaseFee_getD inRange]
  simp only [none]
  simp

end LaneBaseFee

/-! ## The fee map a node builds passes its own check -/

/-- `checkFeeMap` accepts a map exactly when every fee in it is at least the header's base fee
and every transaction bids at least its minimum inclusion fee under it. -/
theorem checkFeeMap_iff {feeMap : List (TxFrame × Option Int)} {header : LedgerHeader} :
    checkFeeMap feeMap header = true ↔ ∀ tx fee, (tx, some fee) ∈ feeMap →
      header.baseFee ≤ fee ∧ getMinInclusionFee tx header (some fee) ≤ tx.inclusionFee := by
  simp only [checkFeeMap, List.all_eq_true]
  constructor
  · intro accepted tx fee member
    simpa using accepted _ member
  · rintro accepted ⟨tx, _ | fee⟩ member
    · rfl
    · simpa using accepted tx fee member

theorem getMinInclusionFee_of_le {tx : TxFrame} {header : LedgerHeader} {fee : Int}
    (atLeast : header.baseFee ≤ fee) :
    getMinInclusionFee tx header (some fee) = fee * max 1 (tx.numOperations : Int) := by
  simp [getMinInclusionFee, max_eq_right atLeast]

end StellarCore.Herder
