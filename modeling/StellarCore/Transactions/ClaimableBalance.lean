import Mathlib.Tactic.NormNum
import StellarCore.Lib.Except

/-!
# Claim predicates of claimable balances

A claimable balance names, for each claimant, a `ClaimPredicate` on the close time of the
ledger that claims it. At creation `validatePredicate` checks the predicate's shape and its
times, and `updatePredicatesForApply` turns every time relative to the creation close time into
an absolute one, saturating at `INT64_MAX`. At claim time the other `validatePredicate`
evaluates the stored predicate and throws on a relative time.

On every predicate creation accepts, the conversion and the evaluation never throw and never
index a missing child, and the evaluation gives the predicate's meaning in exact arithmetic at
every claim time below `INT64_MAX`. At `INT64_MAX` itself a saturated relative time reads false.
-/

set_option autoImplicit false

namespace StellarCore.Transactions

/-- `ClaimPredicate`. The `and` and `or` lists hold at most two predicates on the wire. -/
inductive ClaimPredicate where
  | unconditional
  | and (andPredicates : List ClaimPredicate)
  | or (orPredicates : List ClaimPredicate)
  | not (notPredicate : Option ClaimPredicate)
  | beforeAbsoluteTime (absBefore : Int64)
  | beforeRelativeTime (relBefore : Int64)

/-- `std::vector::at` past the end. -/
def outOfRange : String := "std::out_of_range"

/-- `*pred.notPredicate()` of an empty pointer, which the source dereferences unchecked. -/
def nullNotPredicate : String := "null notPredicate"

/-- `relativeToAbsolute`: `closeTime + relative`, or `INT64_MAX` where that would pass it. -/
def relativeToAbsolute (closeTime : UInt64) (relative : Int64) : Int64 :=
  if closeTime > (Int64.maxValue - relative).toUInt64 then Int64.maxValue
  else (closeTime + relative.toUInt64).toInt64

/-- `updatePredicatesForApply`: the predicate with every relative time made absolute. -/
def updatePredicatesForApply (pred : ClaimPredicate) (closeTime : UInt64) :
    Except String ClaimPredicate :=
  match pred with
  | .and andPredicates =>
    match andPredicates with
    | first :: second :: rest => do
      let first ← updatePredicatesForApply first closeTime
      let second ← updatePredicatesForApply second closeTime
      pure (.and (first :: second :: rest))
    | [first] => do
      let _ ← updatePredicatesForApply first closeTime
      .error outOfRange
    | [] => .error outOfRange
  | .or orPredicates =>
    match orPredicates with
    | first :: second :: rest => do
      let first ← updatePredicatesForApply first closeTime
      let second ← updatePredicatesForApply second closeTime
      pure (.or (first :: second :: rest))
    | [first] => do
      let _ ← updatePredicatesForApply first closeTime
      .error outOfRange
    | [] => .error outOfRange
  | .not (some notPredicate) => do
    pure (.not (some (← updatePredicatesForApply notPredicate closeTime)))
  | .not none => .error nullNotPredicate
  | .beforeRelativeTime relBefore =>
    .ok (.beforeAbsoluteTime (relativeToAbsolute closeTime relBefore))
  | .beforeAbsoluteTime absBefore => .ok (.beforeAbsoluteTime absBefore)
  | .unconditional => .ok .unconditional

namespace CreateClaimableBalanceOpFrame

/-- `validatePredicate(pred, depth)` of `CreateClaimableBalanceOpFrame`. -/
def validatePredicate (pred : ClaimPredicate) (depth : Nat) : Bool :=
  if depth > 4 then false
  else
    match pred with
    | .unconditional => true
    | .and andPredicates =>
      match andPredicates with
      | [first, second] => validatePredicate first (depth + 1) && validatePredicate second (depth + 1)
      | _ => false
    | .or orPredicates =>
      match orPredicates with
      | [first, second] => validatePredicate first (depth + 1) && validatePredicate second (depth + 1)
      | _ => false
    | .not none => false
    | .not (some notPredicate) => validatePredicate notPredicate (depth + 1)
    | .beforeAbsoluteTime absBefore => decide (absBefore ≥ 0)
    | .beforeRelativeTime relBefore => decide (relBefore ≥ 0)

end CreateClaimableBalanceOpFrame

namespace ClaimClaimableBalanceOpFrame

/-- `validatePredicate(pred, closeTime)` of `ClaimClaimableBalanceOpFrame`. The operands of
`&&` and `||` are evaluated in order, so the second child is only indexed when the first does
not decide. -/
def validatePredicate (pred : ClaimPredicate) (closeTime : UInt64) : Except String Bool :=
  match pred with
  | .unconditional => .ok true
  | .and andPredicates =>
    match andPredicates with
    | first :: rest => do
      if ← validatePredicate first closeTime then
        match rest with
        | second :: _ => validatePredicate second closeTime
        | [] => .error outOfRange
      else pure false
    | [] => .error outOfRange
  | .or orPredicates =>
    match orPredicates with
    | first :: rest => do
      if ← validatePredicate first closeTime then pure true
      else
        match rest with
        | second :: _ => validatePredicate second closeTime
        | [] => .error outOfRange
    | [] => .error outOfRange
  | .not (some notPredicate) => do pure !(← validatePredicate notPredicate closeTime)
  | .not none => .error nullNotPredicate
  | .beforeAbsoluteTime absBefore => .ok (decide (absBefore.toUInt64 > closeTime))
  | .beforeRelativeTime _ => .error "Invalid ClaimPredicate"

end ClaimClaimableBalanceOpFrame

/-! ## What creation accepts, and what a predicate means -/

/-- The predicates `validatePredicate(pred, depth)` accepts: at most four levels below `depth`,
`and` and `or` with exactly two children, `not` with one, and times that are not negative. -/
inductive Accepted : Nat → ClaimPredicate → Prop
  | unconditional {depth : Nat} : depth ≤ 4 → Accepted depth .unconditional
  | and {depth : Nat} {first second : ClaimPredicate} : depth ≤ 4 →
      Accepted (depth + 1) first → Accepted (depth + 1) second → Accepted depth (.and [first, second])
  | or {depth : Nat} {first second : ClaimPredicate} : depth ≤ 4 →
      Accepted (depth + 1) first → Accepted (depth + 1) second → Accepted depth (.or [first, second])
  | not {depth : Nat} {notPredicate : ClaimPredicate} : depth ≤ 4 →
      Accepted (depth + 1) notPredicate → Accepted depth (.not (some notPredicate))
  | beforeAbsoluteTime {depth : Nat} {absBefore : Int64} : depth ≤ 4 → 0 ≤ absBefore →
      Accepted depth (.beforeAbsoluteTime absBefore)
  | beforeRelativeTime {depth : Nat} {relBefore : Int64} : depth ≤ 4 → 0 ≤ relBefore →
      Accepted depth (.beforeRelativeTime relBefore)

/-- Predicates of the shape creation accepts with no `BEFORE_RELATIVE_TIME` node: what the
ledger stores. -/
inductive Absolute : ClaimPredicate → Prop
  | unconditional : Absolute .unconditional
  | and {first second : ClaimPredicate} : Absolute first → Absolute second →
      Absolute (.and [first, second])
  | or {first second : ClaimPredicate} : Absolute first → Absolute second →
      Absolute (.or [first, second])
  | not {notPredicate : ClaimPredicate} : Absolute notPredicate → Absolute (.not (some notPredicate))
  | beforeAbsoluteTime {absBefore : Int64} : 0 ≤ absBefore → Absolute (.beforeAbsoluteTime absBefore)

/-- Whether a predicate of a balance created at close time `createdAt` holds at close time
`claimedAt`, in exact arithmetic. Shapes creation rejects hold nowhere. -/
def ClaimPredicate.holdsAt (createdAt claimedAt : Int) : ClaimPredicate → Bool
  | .unconditional => true
  | .and [first, second] => first.holdsAt createdAt claimedAt && second.holdsAt createdAt claimedAt
  | .or [first, second] => first.holdsAt createdAt claimedAt || second.holdsAt createdAt claimedAt
  | .not (some notPredicate) => !notPredicate.holdsAt createdAt claimedAt
  | .beforeAbsoluteTime absBefore => decide (claimedAt < absBefore.toInt)
  | .beforeRelativeTime relBefore => decide (claimedAt < createdAt + relBefore.toInt)
  | _ => false

open CreateClaimableBalanceOpFrame in
theorem validatePredicate_eq_true_iff {pred : ClaimPredicate} {depth : Nat} :
    validatePredicate pred depth = true ↔ Accepted depth pred := by
  fun_induction validatePredicate pred depth with
  | case1 pred depth deep =>
    simp only [Bool.false_eq_true, false_iff]
    intro accepted
    cases accepted <;> omega
  | case2 depth shallow => exact iff_of_true rfl (.unconditional (by omega))
  | case3 depth shallow first second firstIff secondIff =>
    rw [Bool.and_eq_true, firstIff, secondIff]
    constructor
    · rintro ⟨firstAccepted, secondAccepted⟩
      exact .and (by omega) firstAccepted secondAccepted
    · intro accepted
      cases accepted with
      | and _ firstAccepted secondAccepted => exact ⟨firstAccepted, secondAccepted⟩
  | case4 depth shallow andPredicates notPair =>
    simp only [Bool.false_eq_true, false_iff]
    intro accepted
    cases accepted with
    | and => exact notPair _ _ rfl
  | case5 depth shallow first second firstIff secondIff =>
    rw [Bool.and_eq_true, firstIff, secondIff]
    constructor
    · rintro ⟨firstAccepted, secondAccepted⟩
      exact .or (by omega) firstAccepted secondAccepted
    · intro accepted
      cases accepted with
      | or _ firstAccepted secondAccepted => exact ⟨firstAccepted, secondAccepted⟩
  | case6 depth shallow orPredicates notPair =>
    simp only [Bool.false_eq_true, false_iff]
    intro accepted
    cases accepted with
    | or => exact notPair _ _ rfl
  | case7 depth shallow =>
    simp only [Bool.false_eq_true, false_iff]
    intro accepted
    cases accepted
  | case8 depth shallow notPredicate notIff =>
    rw [notIff]
    constructor
    · exact .not (by omega)
    · intro accepted
      cases accepted with
      | not _ accepted => exact accepted
  | case9 depth shallow absBefore =>
    rw [decide_eq_true_iff]
    constructor
    · exact .beforeAbsoluteTime (by omega)
    · intro accepted
      cases accepted with
      | beforeAbsoluteTime _ nonneg => exact nonneg
  | case10 depth shallow relBefore =>
    rw [decide_eq_true_iff]
    constructor
    · exact .beforeRelativeTime (by omega)
    · intro accepted
      cases accepted with
      | beforeRelativeTime _ nonneg => exact nonneg

/-! ## The casts between `int64_t` and `uint64_t` -/

/-- `static_cast<uint64_t>` of an `int64_t` is its value modulo `2^64`. -/
theorem toNat_toUInt64 (x : Int64) : (x.toUInt64.toNat : Int) = x.toInt % 2 ^ 64 := by
  have := x.toUInt64.toNat_lt
  rw [Int64.toInt, BitVec.toInt_eq_toNat_cond]
  simp only [Int64.toBitVec, UInt64.toNat] at *
  split <;> omega

/-- A `uint64_t` read as an `int64_t` is itself below `2^63`, and `2^64` less above. -/
theorem toInt_toInt64 (u : UInt64) :
    u.toInt64.toInt = if u.toNat < 2 ^ 63 then (u.toNat : Int) else u.toNat - 2 ^ 64 := by
  have := u.toNat_lt
  show u.toBitVec.toInt = _
  rw [BitVec.toInt_eq_toNat_cond]
  simp only [UInt64.toNat] at *
  split <;> split <;> omega

theorem zero_le_iff_toInt {x : Int64} : 0 ≤ x ↔ 0 ≤ x.toInt := by
  rw [Int64.le_iff_toInt_le, Int64.toInt_zero]

/-- From a creation close time up to `INT64_MAX`, a relative time that is not negative becomes
the exact sum, saturated at `INT64_MAX`. -/
theorem relativeToAbsolute_toInt {closeTime : UInt64} {relative : Int64}
    (inRange : closeTime.toNat ≤ 2 ^ 63 - 1) (nonneg : 0 ≤ relative.toInt) :
    (relativeToAbsolute closeTime relative).toInt =
      min ((closeTime.toNat : Int) + relative.toInt) (2 ^ 63 - 1) := by
  have below := Int64.toInt_lt relative
  have room : ((Int64.maxValue - relative).toUInt64.toNat : Int) = 2 ^ 63 - 1 - relative.toInt := by
    rw [toNat_toUInt64, Int64.toInt_sub, Int64.toInt_maxValue,
      Int.bmod_eq_of_le (by omega) (by omega)]
    omega
  have relativeNat := toNat_toUInt64 relative
  unfold relativeToAbsolute
  split_ifs with saturated
  · rw [gt_iff_lt, UInt64.lt_iff_toNat_lt] at saturated
    rw [Int64.toInt_maxValue]
    omega
  · rw [gt_iff_lt, UInt64.lt_iff_toNat_lt] at saturated
    have sum : (closeTime + relative.toUInt64).toNat = closeTime.toNat + relative.toUInt64.toNat := by
      rw [UInt64.toNat_add]
      omega
    rw [toInt_toInt64, sum, if_pos (by omega)]
    omega

/-- An absolute time that is not negative is after the claim's close time exactly when the
`uint64_t` comparison says so. -/
theorem toUInt64_gt_iff {absBefore : Int64} {closeTime : UInt64} (nonneg : 0 ≤ absBefore.toInt) :
    absBefore.toUInt64 > closeTime ↔ (closeTime.toNat : Int) < absBefore.toInt := by
  have cast := toNat_toUInt64 absBefore
  have below := Int64.toInt_lt absBefore
  rw [gt_iff_lt, UInt64.lt_iff_toNat_lt]
  omega

/-! ## The conversion and the evaluation -/

/-- On a predicate creation accepts, from a creation close time up to `INT64_MAX`, the
conversion succeeds with a stored predicate that means, at every claim time below `INT64_MAX`,
what the original means. -/
theorem updatePredicatesForApply_accepted {closeTime : UInt64} (inRange : closeTime.toNat ≤ 2 ^ 63 - 1)
    {depth : Nat} {pred : ClaimPredicate} (accepted : Accepted depth pred) :
    ∃ stored, updatePredicatesForApply pred closeTime = .ok stored ∧ Absolute stored ∧
      ∀ createdAt claimedAt : Int, claimedAt < 2 ^ 63 - 1 →
        stored.holdsAt createdAt claimedAt = pred.holdsAt closeTime.toNat claimedAt := by
  induction accepted with
  | unconditional => exact ⟨_, rfl, .unconditional, fun _ _ _ => rfl⟩
  | and _ _ _ firstIH secondIH =>
    obtain ⟨first, firstUpdated, firstAbsolute, firstMeaning⟩ := firstIH
    obtain ⟨second, secondUpdated, secondAbsolute, secondMeaning⟩ := secondIH
    refine ⟨.and [first, second], ?_, .and firstAbsolute secondAbsolute,
      fun createdAt claimedAt below => ?_⟩
    · simp [updatePredicatesForApply, firstUpdated, secondUpdated]
    · simp only [ClaimPredicate.holdsAt, firstMeaning createdAt claimedAt below,
        secondMeaning createdAt claimedAt below]
  | or _ _ _ firstIH secondIH =>
    obtain ⟨first, firstUpdated, firstAbsolute, firstMeaning⟩ := firstIH
    obtain ⟨second, secondUpdated, secondAbsolute, secondMeaning⟩ := secondIH
    refine ⟨.or [first, second], ?_, .or firstAbsolute secondAbsolute,
      fun createdAt claimedAt below => ?_⟩
    · simp [updatePredicatesForApply, firstUpdated, secondUpdated]
    · simp only [ClaimPredicate.holdsAt, firstMeaning createdAt claimedAt below,
        secondMeaning createdAt claimedAt below]
  | not _ _ notIH =>
    obtain ⟨negated, updated, absolute, meaning⟩ := notIH
    refine ⟨.not (some negated), ?_, .not absolute, fun createdAt claimedAt below => ?_⟩
    · simp [updatePredicatesForApply, updated]
    · simp only [ClaimPredicate.holdsAt, meaning createdAt claimedAt below]
  | beforeAbsoluteTime _ nonneg => exact ⟨_, rfl, .beforeAbsoluteTime nonneg, fun _ _ _ => rfl⟩
  | @beforeRelativeTime _ relBefore _ nonneg =>
    -- the saturated time `INT64_MAX` only differs from the exact sum at `INT64_MAX` itself
    have nonnegInt := zero_le_iff_toInt.1 nonneg
    have absolute := relativeToAbsolute_toInt inRange nonnegInt
    have stored : 0 ≤ (relativeToAbsolute closeTime relBefore).toInt := by
      rw [absolute]
      exact le_min (by omega) (by norm_num)
    refine ⟨_, rfl, .beforeAbsoluteTime (zero_le_iff_toInt.2 stored),
      fun createdAt claimedAt below => ?_⟩
    simp only [ClaimPredicate.holdsAt, absolute, decide_eq_decide]
    omega

/-- A stored predicate is left as it is by a second conversion, at any close time. -/
theorem updatePredicatesForApply_absolute {pred : ClaimPredicate} (absolute : Absolute pred)
    (closeTime : UInt64) : updatePredicatesForApply pred closeTime = .ok pred := by
  induction absolute with
  | unconditional => rfl
  | and _ _ firstSame secondSame => simp [updatePredicatesForApply, firstSame, secondSame]
  | or _ _ firstSame secondSame => simp [updatePredicatesForApply, firstSame, secondSame]
  | not _ same => simp [updatePredicatesForApply, same]
  | beforeAbsoluteTime _ => rfl

/-- On a stored predicate, the claim-time evaluation never throws and gives its meaning. -/
theorem validatePredicate_absolute {pred : ClaimPredicate} (absolute : Absolute pred)
    (closeTime : UInt64) (createdAt : Int) :
    ClaimClaimableBalanceOpFrame.validatePredicate pred closeTime =
      .ok (pred.holdsAt createdAt closeTime.toNat) := by
  induction absolute with
  | unconditional => rfl
  | @and first second _ _ firstIH secondIH =>
    simp only [ClaimClaimableBalanceOpFrame.validatePredicate, firstIH, Except.ok_bind,
      ClaimPredicate.holdsAt]
    cases first.holdsAt createdAt closeTime.toNat with
    | true => simp [secondIH]
    | false => rfl
  | @or first second _ _ firstIH secondIH =>
    simp only [ClaimClaimableBalanceOpFrame.validatePredicate, firstIH, Except.ok_bind,
      ClaimPredicate.holdsAt]
    cases first.holdsAt createdAt closeTime.toNat with
    | true => rfl
    | false => simp [secondIH]
  | not _ notIH => simp [ClaimClaimableBalanceOpFrame.validatePredicate, notIH, ClaimPredicate.holdsAt]
  | beforeAbsoluteTime nonneg =>
    simp only [ClaimClaimableBalanceOpFrame.validatePredicate, ClaimPredicate.holdsAt]
    rw [decide_eq_decide.mpr (toUInt64_gt_iff (zero_le_iff_toInt.1 nonneg))]

end StellarCore.Transactions
