import StellarCore.Lib.CeilSqrt
import StellarCore.Lib.RoundedDivision
import Mathlib.Data.Rat.Floor

/-!
# Wide-integer helpers of `util/numeric.cpp`

`int64_t` values are modelled as `Int` and `uint64_t`/`uint128_t` values as
`Nat`; every function keeps the range checks of the source, so a result is
only produced where the C++ value fits. A `releaseAssertOrThrow` or a `throw`
is an `Except.error` carrying the message the source raises.
-/

set_option autoImplicit false

namespace StellarCore

/-- `Rounding` of `util/numeric.h`. -/
inductive Rounding where
  | roundDown
  | roundUp
deriving DecidableEq, Repr

def int64Max : Int := 2 ^ 63 - 1
def uint64Max : Nat := 2 ^ 64 - 1
def uint128Max : Nat := 2 ^ 128 - 1
def int32Max : Nat := 2 ^ 31 - 1

/-- The quotient `x / c` rounded as requested, computed as the source computes it. -/
def roundedQuotient (x c : Nat) : Rounding → Nat
  | .roundDown => x / c
  | .roundUp => (x + c - 1) / c

/-- `bigDivideUnsigned`: `A * B / C` in 128 bits, `none` when it does not fit 64 bits. -/
def bigDivideUnsigned (A B C : Nat) (rounding : Rounding) : Except String (Option Nat) :=
  if C > 0 then
    let x := roundedQuotient (A * B) C rounding
    .ok (if x ≤ uint64Max then some x else none)
  else .error "C > 0"

/-- `bigDivide`: the signed front end, `none` when the quotient exceeds `INT64_MAX`. -/
def bigDivide (A B C : Int) (rounding : Rounding) : Except String (Option Int) :=
  if A ≥ 0 ∧ B ≥ 0 ∧ C > 0 then
    (bigDivideUnsigned A.toNat B.toNat C.toNat rounding).map fun result =>
      result.bind fun r2 => if (r2 : Int) ≤ int64Max then some (r2 : Int) else none
  else .error "(A >= 0) && (B >= 0) && (C > 0)"

/-- `bigDivideOrThrow`. -/
def bigDivideOrThrow (A B C : Int) (rounding : Rounding) : Except String Int :=
  match bigDivide A B C rounding with
  | .ok (some result) => .ok result
  | .ok none => .error "overflow while performing bigDivide"
  | .error message => .error message

/-- `bigDivideUnsigned128`: `a / B` for a 128-bit `a`, `none` when it does not fit 64 bits. -/
def bigDivideUnsigned128 (a B : Nat) (rounding : Rounding) : Except String (Option Nat) :=
  if B ≠ 0 then
    if rounding = .roundUp ∧ a > uint128Max - (B - 1) then .ok none
    else
      let x := roundedQuotient a B rounding
      .ok (if x ≤ uint64Max then some x else none)
  else .error "B != 0"

/-- `bigDivide128`: the signed front end of `bigDivideUnsigned128`, `none` when the quotient
exceeds `INT64_MAX`. -/
def bigDivide128 (a : Nat) (B : Int) (rounding : Rounding) : Except String (Option Int) :=
  if B > 0 then
    (bigDivideUnsigned128 a B.toNat rounding).map fun result =>
      result.bind fun r2 => if (r2 : Int) ≤ int64Max then some (r2 : Int) else none
  else .error "B > 0"

/-- `bigDivideOrThrow128`. -/
def bigDivideOrThrow128 (a : Nat) (B : Int) (rounding : Rounding) : Except String Int :=
  match bigDivide128 a B rounding with
  | .ok (some result) => .ok result
  | .ok none => .error "overflow while performing bigDivide"
  | .error message => .error message

/-- `bigMultiply`: the exact 128-bit product of two non-negative `int64_t`. -/
def bigMultiply (a b : Int) : Except String Nat :=
  if a ≥ 0 ∧ b ≥ 0 then .ok (a.toNat * b.toNat) else .error "(a >= 0) && (b >= 0)"

/-- `uint128_bits`: the position of the highest set bit, `0` for `0`. -/
def uint128Bits (x : Nat) : Nat := if x = 0 then 0 else Nat.log2 x + 1

/-- The `while (x != prev)` loop of `bigSquareRootCeil`, with an iteration budget. -/
def bigSquareRootCeilLoop (R : Nat) : Nat → Nat → Nat → Except String Nat
  | 0, _, _ => .error "bigSquareRootCeil: iteration budget exhausted"
  | fuel + 1, x, prev =>
      if x = prev then .ok x
      else
        match bigDivideUnsigned128 R x .roundUp with
        | .error message => .error message
        | .ok none => .error "Overflow during bigSquareRoot"
        | .ok (some y) =>
            -- The first branch computes in 128 bits and truncates back to 64.
            let next := if uint64Max - x ≤ y then ((1 + x + y) / 2) % 2 ^ 64 else (x + y + 1) / 2
            bigSquareRootCeilLoop R fuel next x

/-- The iteration budget: the loop value is a `uint64_t` that decreases at every pass. -/
def bigSquareRootFuel : Nat := 2 ^ 64 + 1

/-- `bigSquareRootCeil`: `⌈√(a * b)⌉` by the integer Babylonian method. -/
def bigSquareRootCeil (a b : Nat) : Except String Nat :=
  if a = 0 ∨ b = 0 then .ok 0
  else
    let R := a * b - 1
    let numBits := uint128Bits R / 2 + 1
    let x := if numBits ≥ 64 then uint64Max else 2 ^ numBits
    bigSquareRootCeilLoop R bigSquareRootFuel x 0

/-- `bigSquareRoot`: the `x` with `x * x ≤ a * b < (x + 1) * (x + 1)`. -/
def bigSquareRoot (a b : Nat) : Except String Nat :=
  match bigSquareRootCeil a b with
  | .ok sqrtCeil => .ok (if sqrtCeil * sqrtCeil ≤ a * b then sqrtCeil else sqrtCeil - 1)
  | .error message => .error message

/-- `hugeDivide`: `a * B / C` for `C ≤ INT32_MAX * INT64_MAX`, through `B = Q * C + R`. -/
def hugeDivide (a : Int) (B C : Nat) (rounding : Rounding) : Except String (Option Int) :=
  if a ≥ 0 then
    if C ≠ 0 then
      if C ≤ int32Max * int64Max.toNat then
        let Q := B / C
        let R := B % C
        if Q > int64Max.toNat then .ok none
        else
          let A := a.toNat
          let res := A * Q + roundedQuotient (A * R) C rounding
          .ok (if res ≤ int64Max.toNat then some (res : Int) else none)
      else .error "C <= i32_max * i64_max"
    else .error "C != 0ul"
  else .error "a >= 0"

/-! ## Exactness of the division helpers -/

@[simp] theorem roundedQuotient_roundDown (x c : Nat) : roundedQuotient x c .roundDown = x / c := rfl

@[simp] theorem roundedQuotient_roundUp (x c : Nat) :
    roundedQuotient x c .roundUp = (x + c - 1) / c := rfl

theorem roundedQuotient_le_of_le {x y c : Nat} (rounding : Rounding) (smaller : x ≤ y) :
    roundedQuotient x c rounding ≤ roundedQuotient y c rounding := by
  cases rounding with
  | roundDown => exact Nat.div_le_div_right smaller
  | roundUp => exact Nat.div_le_div_right (by omega)

/-- Rounding up overshoots by less than one divisor. -/
theorem roundUp_mul_bounds (x c : Nat) (positive : 0 < c) :
    x ≤ (x + c - 1) / c * c ∧ (x + c - 1) / c * c < x + c := by
  have division := Nat.div_add_mod (x + c - 1) c
  have remainder := Nat.mod_lt (x + c - 1) positive
  constructor
  · rw [Nat.mul_comm]; omega
  · rw [Nat.mul_comm]; omega

/-- Rounding down undershoots by less than one divisor. -/
theorem roundDown_mul_bounds (x c : Nat) (positive : 0 < c) :
    x / c * c ≤ x ∧ x < (x / c + 1) * c := by
  have division := Nat.div_add_mod x c
  have remainder := Nat.mod_lt x positive
  constructor
  · rw [Nat.mul_comm]; omega
  · rw [Nat.add_mul, Nat.one_mul, Nat.mul_comm]; omega

theorem bigDivideUnsigned_of_pos {A B C : Nat} (positive : 0 < C) (rounding : Rounding) :
    bigDivideUnsigned A B C rounding =
      .ok (if roundedQuotient (A * B) C rounding ≤ uint64Max then
        some (roundedQuotient (A * B) C rounding) else none) := by
  simp [bigDivideUnsigned, positive]

/-- Narrowing a `uint64_t` result to `int64_t`, as the signed front ends do after the unsigned
division, keeps exactly the results up to `INT64_MAX`. -/
theorem narrowToInt64 (x : Nat) :
    (if x ≤ uint64Max then some x else none).bind
        (fun r2 : Nat => if (r2 : Int) ≤ int64Max then some (r2 : Int) else none) =
      if (x : Int) ≤ int64Max then some (x : Int) else none := by
  by_cases fitsSigned : (x : Int) ≤ int64Max
  · have fitsUnsigned : x ≤ uint64Max := by
      unfold int64Max at fitsSigned
      unfold uint64Max
      omega
    rw [if_pos fitsUnsigned, Option.bind_some, if_pos fitsSigned]
  · rw [if_neg fitsSigned]
    split
    · rw [Option.bind_some, if_neg fitsSigned]
    · rfl

/-- For non-negative operands `bigDivide` yields the rounded quotient exactly when it
fits an `int64_t`. -/
theorem bigDivide_of_nonneg {A B C : Int} (nonnegA : 0 ≤ A) (nonnegB : 0 ≤ B) (positiveC : 0 < C)
    (rounding : Rounding) :
    bigDivide A B C rounding =
      .ok (if (roundedQuotient (A.toNat * B.toNat) C.toNat rounding : Int) ≤ int64Max then
        some (roundedQuotient (A.toNat * B.toNat) C.toNat rounding : Int) else none) := by
  have positive : 0 < C.toNat := by omega
  rw [bigDivide, if_pos ⟨nonnegA, nonnegB, positiveC⟩, bigDivideUnsigned_of_pos positive,
    Except.map, narrowToInt64]

/-- `hugeDivide` splits `B` as `Q * C + R`; the two halves recombine to the rounded
quotient of `a * B` by `C`. -/
theorem hugeDivide_recombine (A B C : Nat) (positive : 0 < C) (rounding : Rounding) :
    A * (B / C) + roundedQuotient (A * (B % C)) C rounding = roundedQuotient (A * B) C rounding := by
  have split : A * B = A * (B % C) + C * (A * (B / C)) := by
    conv_lhs => rw [← Nat.mod_add_div B C]
    ring
  cases rounding with
  | roundDown =>
      simp only [roundedQuotient_roundDown, split, Nat.add_mul_div_left _ _ positive]
      omega
  | roundUp =>
      simp only [roundedQuotient_roundUp]
      rw [split, show A * (B % C) + C * (A * (B / C)) + C - 1 = A * (B % C) + C - 1 + C * (A * (B / C))
        by have := Nat.zero_le (A * (B % C)); omega, Nat.add_mul_div_left _ _ positive]
      omega

/-- Within its admitted divisor range `hugeDivide` agrees with exact arithmetic. -/
theorem hugeDivide_of_admitted {a : Int} {B C : Nat} (nonneg : 0 ≤ a) (positive : 0 < C)
    (admitted : C ≤ int32Max * int64Max.toNat) (rounding : Rounding) :
    hugeDivide a B C rounding =
      .ok (if B / C ≤ int64Max.toNat ∧ roundedQuotient (a.toNat * B) C rounding ≤ int64Max.toNat then
        some (roundedQuotient (a.toNat * B) C rounding : Int) else none) := by
  have recombined := hugeDivide_recombine a.toNat B C positive rounding
  simp only [hugeDivide, nonneg, ne_eq, Nat.pos_iff_ne_zero.mp positive, not_false_eq_true,
    admitted, ↓reduceIte, recombined]
  by_cases small : B / C ≤ int64Max.toNat
  · simp [small]
  · simp [small, show B / C > int64Max.toNat by omega]

/-- Rounding down, a successful `bigDivide` of non-negative operands is the exact quotient
bracketed from below. -/
theorem bigDivide_roundDown_bracket {A B C : Int} (nonnegA : 0 ≤ A) (nonnegB : 0 ≤ B) (positiveC : 0 < C) :
    ∃ q : Int, bigDivide A B C .roundDown = .ok (if q ≤ int64Max then some q else none) ∧
      0 ≤ q ∧ q * C ≤ A * B ∧ A * B < (q + 1) * C := by
  obtain ⟨lower, upper⟩ := roundDown_mul_bounds (A.toNat * B.toNat) C.toNat (by omega)
  refine ⟨_, bigDivide_of_nonneg nonnegA nonnegB positiveC .roundDown, by positivity, ?_, ?_⟩
  · have cast := Int.ofNat_le.mpr lower
    push_cast [roundedQuotient, Int.toNat_of_nonneg nonnegA, Int.toNat_of_nonneg nonnegB,
      Int.toNat_of_nonneg positiveC.le] at cast ⊢
    exact cast
  · have cast := Int.ofNat_lt.mpr upper
    push_cast [roundedQuotient, Int.toNat_of_nonneg nonnegA, Int.toNat_of_nonneg nonnegB,
      Int.toNat_of_nonneg positiveC.le] at cast ⊢
    exact cast

/-- Rounding up, a successful `bigDivide` of non-negative operands is the exact quotient
bracketed from above. -/
theorem bigDivide_roundUp_bracket {A B C : Int} (nonnegA : 0 ≤ A) (nonnegB : 0 ≤ B) (positiveC : 0 < C) :
    ∃ q : Int, bigDivide A B C .roundUp = .ok (if q ≤ int64Max then some q else none) ∧
      0 ≤ q ∧ A * B ≤ q * C ∧ q * C < A * B + C := by
  obtain ⟨lower, upper⟩ := roundUp_mul_bounds (A.toNat * B.toNat) C.toNat (by omega)
  refine ⟨_, bigDivide_of_nonneg nonnegA nonnegB positiveC .roundUp, by positivity, ?_, ?_⟩
  · have cast := Int.ofNat_le.mpr lower
    push_cast [roundedQuotient, Int.toNat_of_nonneg nonnegA, Int.toNat_of_nonneg nonnegB,
      Int.toNat_of_nonneg positiveC.le] at cast ⊢
    exact cast
  · have cast := Int.ofNat_lt.mpr upper
    push_cast [roundedQuotient, Int.toNat_of_nonneg nonnegA, Int.toNat_of_nonneg nonnegB,
      Int.toNat_of_nonneg positiveC.le] at cast ⊢
    exact cast

/-- What a `hugeDivide` that returns a value promises: the rounded quotient of `a * B` by `C`. -/
theorem hugeDivide_bracket {a : Int} {B C : Nat} (nonneg : 0 ≤ a) (positive : 0 < C)
    (admitted : C ≤ int32Max * int64Max.toNat) (rounding : Rounding) {r : Int}
    (result : hugeDivide a B C rounding = .ok (some r)) :
    0 ≤ r ∧ (rounding = .roundDown → r * C ≤ a * B) ∧ (rounding = .roundUp → a * B ≤ r * C) := by
  rw [hugeDivide_of_admitted nonneg positive admitted] at result
  split at result
  · obtain rfl := Option.some.inj (Except.ok.inj result)
    refine ⟨by positivity, ?_, ?_⟩
    · rintro rfl
      have cast := Int.ofNat_le.mpr (roundDown_mul_bounds (a.toNat * B) C positive).1
      push_cast [roundedQuotient, Int.toNat_of_nonneg nonneg] at cast ⊢
      exact cast
    · rintro rfl
      have cast := Int.ofNat_le.mpr (roundUp_mul_bounds (a.toNat * B) C positive).1
      push_cast [roundedQuotient, Int.toNat_of_nonneg nonneg] at cast ⊢
      exact cast
  · cases result

/-- The exact quotient a rounding asks for. -/
def Rounding.divide : Rounding → Int → Int → Int
  | .roundDown, a, c => a / c
  | .roundUp, a, c => RoundedDivision.ceilDiv a c

theorem natCast_roundedQuotient (x c : Nat) (positive : 0 < c) (rounding : Rounding) :
    ((roundedQuotient x c rounding : Nat) : Int) = rounding.divide x c := by
  cases rounding with
  | roundDown => simp [roundedQuotient, Rounding.divide]
  | roundUp => exact RoundedDivision.natCast_ceilDiv x c positive

/-- `bigDivideOrThrow` of non-negative operands returns the exact rounded quotient whenever it
fits an `int64_t`. -/
theorem bigDivideOrThrow_of_fits {A B C : Int} (nonnegA : 0 ≤ A) (nonnegB : 0 ≤ B) (positiveC : 0 < C)
    {rounding : Rounding} (fits : rounding.divide (A * B) C ≤ int64Max) :
    bigDivideOrThrow A B C rounding = .ok (rounding.divide (A * B) C) := by
  have quotient : ((roundedQuotient (A.toNat * B.toNat) C.toNat rounding : Nat) : Int) =
      rounding.divide (A * B) C := by
    rw [natCast_roundedQuotient _ _ (by omega)]
    push_cast [Int.toNat_of_nonneg nonnegA, Int.toNat_of_nonneg nonnegB,
      Int.toNat_of_nonneg positiveC.le]
    rfl
  rw [bigDivideOrThrow, bigDivide_of_nonneg nonnegA nonnegB positiveC, quotient, if_pos fits]

/-- `bigDivideOrThrow128` rounding down returns the exact quotient whenever it fits an
`int64_t`. -/
theorem bigDivideOrThrow128_of_fits {a : Nat} {B : Int} (positive : 0 < B)
    (fits : (a : Int) / B ≤ int64Max) : bigDivideOrThrow128 a B .roundDown = .ok ((a : Int) / B) := by
  have quotient : ((a / B.toNat : Nat) : Int) = (a : Int) / B := by
    rw [Int.natCast_ediv, Int.toNat_of_nonneg positive.le]
  have unsigned : a / B.toNat ≤ uint64Max := by
    unfold int64Max at fits
    unfold uint64Max
    omega
  have nonzero : B.toNat ≠ 0 := by omega
  unfold bigDivideOrThrow128 bigDivide128 bigDivideUnsigned128
  simp [Except.map, positive, nonzero, unsigned, quotient, fits]

/-! ## The big-division helpers against exact arithmetic -/

/-- The quotient a rounding asks for, in exact rational arithmetic. -/
def Rounding.exact : Rounding → ℚ → Int
  | .roundDown, q => ⌊q⌋
  | .roundUp, q => ⌈q⌉

/-- Both roundings of the source are exact: rounding down is the floor of the rational quotient,
and rounding up by `(x + c - 1) / c` is its ceiling. -/
theorem natCast_roundedQuotient_eq_exact (x c : Nat) (positive : 0 < c) (rounding : Rounding) :
    ((roundedQuotient x c rounding : Nat) : Int) = rounding.exact ((x : ℚ) / c) := by
  cases rounding with
  | roundDown =>
      rw [roundedQuotient_roundDown, Rounding.exact, Rat.floor_natCast_div_natCast,
        Int.natCast_div]
  | roundUp =>
      obtain ⟨lower, upper⟩ := roundUp_mul_bounds x c positive
      have divisor : (0 : ℚ) < c := Nat.cast_pos.mpr positive
      have lower' : (x : ℚ) ≤ ((x + c - 1) / c : Nat) * c := by exact_mod_cast lower
      have upper' : (((x + c - 1) / c : Nat) : ℚ) * c < x + c := by exact_mod_cast upper
      rw [roundedQuotient_roundUp, Rounding.exact, eq_comm, Int.ceil_eq_iff, Int.cast_natCast]
      constructor
      · rw [lt_div_iff₀ divisor]
        linarith
      · rw [div_le_iff₀ divisor]
        exact lower'

theorem ratCast_toNat {z : Int} (nonneg : 0 ≤ z) : ((z.toNat : Nat) : ℚ) = (z : ℚ) := by
  exact_mod_cast Int.toNat_of_nonneg nonneg

/-- `bigDivideUnsigned` multiplies and rounds 64-bit operands in 128 bits without wrapping. -/
theorem bigDivideUnsigned_noWrap {A B C : Nat} (narrowA : A ≤ uint64Max) (narrowB : B ≤ uint64Max)
    (narrowC : C ≤ uint64Max) : A * B + C - 1 ≤ uint128Max := by
  have product := Nat.mul_le_mul narrowA narrowB
  unfold uint64Max at product narrowC
  unfold uint128Max
  omega

/-- The guard of `bigDivideUnsigned128`: when `a + b - 1` would wrap `uint128_t`, the quotient
rounded up exceeds `UINT64_MAX` anyway. -/
theorem uint64Max_lt_of_guard {a B : Nat} (positive : 0 < B) (narrow : B ≤ uint64Max)
    (guard : a > uint128Max - (B - 1)) : uint64Max < roundedQuotient a B .roundUp := by
  rw [roundedQuotient_roundUp]
  by_contra fits
  have below := (Nat.div_lt_iff_lt_mul positive).mp (Nat.lt_succ_of_le (not_lt.mp fits))
  have bound := Nat.mul_le_mul_left (uint64Max + 1) narrow
  unfold uint64Max at below bound
  unfold uint128Max at guard
  omega

theorem bigDivideUnsigned128_of_pos {a B : Nat} (positive : 0 < B) (narrow : B ≤ uint64Max)
    (rounding : Rounding) :
    bigDivideUnsigned128 a B rounding =
      .ok (if roundedQuotient a B rounding ≤ uint64Max then
        some (roundedQuotient a B rounding) else none) := by
  rw [bigDivideUnsigned128, if_pos (Nat.pos_iff_ne_zero.mp positive)]
  by_cases guard : rounding = .roundUp ∧ a > uint128Max - (B - 1)
  · obtain ⟨rfl, above⟩ := guard
    rw [if_pos ⟨rfl, above⟩, if_neg (not_le.mpr (uint64Max_lt_of_guard positive narrow above))]
  · rw [if_neg guard]

/-- The largest divisor `hugeDivide` admits. -/
theorem int32Max_mul_int64Max : int32Max * int64Max.toNat = 19807040619342712359383728129 := by
  unfold int32Max int64Max
  rfl

/-- The rounded quotient of `A * R` by `C` is at most `A` when `R < C`: the second half of
`hugeDivide` adds at most `A`. -/
theorem roundedQuotient_mul_le {A R C : Nat} (below : R < C) (rounding : Rounding) :
    roundedQuotient (A * R) C rounding ≤ A := by
  have positive : 0 < C := by omega
  have product : A * R + C - 1 < (A + 1) * C := by
    have := Nat.mul_le_mul_left A (show R ≤ C - 1 by omega)
    have expand : (A + 1) * C = A * (C - 1) + A + C := by
      rcases C with _ | C
      · omega
      · simp only [Nat.add_sub_cancel]; ring
    omega
  have roundedUp : (A * R + C - 1) / C ≤ A :=
    Nat.lt_succ_iff.mp ((Nat.div_lt_iff_lt_mul positive).mpr product)
  cases rounding with
  | roundDown => exact le_trans (Nat.div_le_div_right (by omega)) roundedUp
  | roundUp => exact roundedUp

theorem bigMultiply_of_nonneg {a b : Int} (nonnegA : 0 ≤ a) (nonnegB : 0 ≤ b) :
    bigMultiply a b = .ok (a.toNat * b.toNat) := by
  simp [bigMultiply, nonnegA, nonnegB]

/-- A product that `bigMultiply` returned is the product of two non-negative factors. -/
theorem bigMultiply_eq_ok {a b : Int} {product : Nat} (multiplied : bigMultiply a b = .ok product) :
    0 ≤ a ∧ 0 ≤ b ∧ (product : Int) = a * b := by
  unfold bigMultiply at multiplied
  split_ifs at multiplied with nonneg
  cases multiplied
  obtain ⟨nonnegA, nonnegB⟩ := nonneg
  refine ⟨nonnegA, nonnegB, ?_⟩
  push_cast [Int.toNat_of_nonneg nonnegA, Int.toNat_of_nonneg nonnegB]
  rfl

/-! ## `bigSquareRoot` -/

theorem uint128Bits_bound (R : Nat) : R + 1 ≤ 2 ^ uint128Bits R := by
  unfold uint128Bits
  split
  · simp_all
  · exact Nat.lt_log2_self

/-- The seed of `bigSquareRootCeil` lies above `⌈√(R + 1)⌉` and fits 64 bits. -/
theorem bigSquareRootCeil_seed {R : Nat} (bounded : R + 1 ≤ uint64Max * uint64Max) :
    let numBits := uint128Bits R / 2 + 1
    let x := if numBits ≥ 64 then uint64Max else 2 ^ numBits
    CeilSqrt.Above R x ∧ x ≤ uint64Max := by
  intro numBits x
  by_cases wide : numBits ≥ 64
  · simp only [x, wide, ↓reduceIte]
    exact ⟨bounded, le_refl _⟩
  · simp only [x, wide, ↓reduceIte]
    refine ⟨?_, ?_⟩
    · have bits := uint128Bits_bound R
      have doubled : uint128Bits R ≤ 2 * numBits := by omega
      unfold CeilSqrt.Above
      rw [← pow_two, ← pow_mul]
      calc R + 1 ≤ 2 ^ uint128Bits R := bits
        _ ≤ 2 ^ (numBits * 2) := Nat.pow_le_pow_right (by norm_num) (by omega)
    · calc 2 ^ numBits ≤ 2 ^ 63 := Nat.pow_le_pow_right (by norm_num) (by omega)
        _ ≤ uint64Max := by norm_num [uint64Max]

/-- Above `⌈√(R + 1)⌉` the source's pass computes the library step, without overflow. -/
theorem bigSquareRootCeil_pass {R x : Nat} (bounded : R + 1 ≤ uint64Max * uint64Max)
    (above : CeilSqrt.Above R x) (fits : x ≤ uint64Max) :
    bigDivideUnsigned128 R x .roundUp = .ok (some ((R + x - 1) / x)) ∧
      (if uint64Max - x ≤ (R + x - 1) / x then ((1 + x + (R + x - 1) / x) / 2) % 2 ^ 64
        else (x + (R + x - 1) / x + 1) / 2) = CeilSqrt.step R x := by
  have positive := CeilSqrt.above_pos above
  obtain ⟨lower, upper⟩ := CeilSqrt.ceilDiv_spec R x positive
  have quotientSmall : (R + x - 1) / x ≤ x := by
    by_contra large
    have : x * (x + 1) ≤ x * ((R + x - 1) / x) := Nat.mul_le_mul_left x (by omega)
    unfold CeilSqrt.Above at above
    nlinarith
  have noWrap : ¬ R > uint128Max - (x - 1) := by
    have : uint64Max * uint64Max + uint64Max ≤ uint128Max := by norm_num [uint64Max, uint128Max]
    have : x - 1 ≤ uint64Max := by omega
    omega
  refine ⟨?_, ?_⟩
  · simp [bigDivideUnsigned128, Nat.pos_iff_ne_zero.mp positive, noWrap,
      show (R + x - 1) / x ≤ uint64Max by omega]
  · unfold CeilSqrt.step
    split
    · rw [Nat.mod_eq_of_lt (by unfold uint64Max at fits; omega)]
      omega
    · rfl

/-- With enough budget the loop stops at `⌈√(R + 1)⌉`. -/
theorem bigSquareRootCeilLoop_spec {R : Nat} (bounded : R + 1 ≤ uint64Max * uint64Max) :
    ∀ (fuel x prev : Nat), CeilSqrt.Above R x → x ≤ uint64Max →
      (prev = 0 ∧ 0 < x ∨ CeilSqrt.Above R prev ∧ x = CeilSqrt.step R prev) →
      (x + 2 ≤ fuel ∨ x = prev ∧ 1 ≤ fuel) →
      ∃ s, bigSquareRootCeilLoop R fuel x prev = .ok s ∧ CeilSqrt.IsCeilSqrt R s := by
  intro fuel
  induction fuel with
  | zero => intro x prev _ _ _ budget; omega
  | succ fuel ih =>
      intro x prev above fits history budget
      by_cases stopped : x = prev
      · subst stopped
        refine ⟨x, by simp [bigSquareRootCeilLoop], ?_⟩
        rcases history with ⟨rfl, positive⟩ | ⟨abovePrev, fixed⟩
        · omega
        · exact CeilSqrt.isCeilSqrt_of_step_eq abovePrev fixed.symm
      · obtain ⟨divided, passed⟩ := bigSquareRootCeil_pass bounded above fits
        have room : x + 1 ≤ fuel := by omega
        have next := CeilSqrt.step_above above
        have shrinks : CeilSqrt.step R x ≤ x := by
          rcases CeilSqrt.step_lt_or_isCeilSqrt above with smaller | ⟨fixed, -⟩ <;> omega
        have unfolded : bigSquareRootCeilLoop R (fuel + 1) x prev =
            bigSquareRootCeilLoop R fuel (CeilSqrt.step R x) x := by
          simp only [bigSquareRootCeilLoop, stopped, ↓reduceIte, divided]
          rw [passed]
        rw [unfolded]
        refine ih (CeilSqrt.step R x) x next (by omega) (.inr ⟨above, rfl⟩) ?_
        rcases Nat.lt_or_ge (CeilSqrt.step R x) x with smaller | same
        · exact .inl (by omega)
        · exact .inr ⟨by omega, by omega⟩

/-- `bigSquareRootCeil` returns `⌈√(a * b)⌉` for 64-bit operands, without throwing. -/
theorem bigSquareRootCeil_spec {a b : Nat} (boundA : a ≤ uint64Max) (boundB : b ≤ uint64Max) :
    ∃ s, bigSquareRootCeil a b = .ok s ∧
      (a * b = 0 ∧ s = 0 ∨ 0 < a * b ∧ CeilSqrt.IsCeilSqrt (a * b - 1) s) := by
  by_cases zero : a = 0 ∨ b = 0
  · refine ⟨0, by simp [bigSquareRootCeil, zero], .inl ⟨?_, rfl⟩⟩
    rcases zero with rfl | rfl <;> simp
  · have positive : 0 < a * b := Nat.pos_of_ne_zero (by rw [Nat.mul_ne_zero_iff]; omega)
    have bounded : a * b - 1 + 1 ≤ uint64Max * uint64Max := by
      have := Nat.mul_le_mul boundA boundB
      omega
    obtain ⟨seedAbove, seedFits⟩ := bigSquareRootCeil_seed bounded
    -- the loop value is a `uint64_t` that only decreases, so the budget is never reached
    obtain ⟨s, looped, ceiling⟩ := bigSquareRootCeilLoop_spec bounded bigSquareRootFuel _ 0 seedAbove
      seedFits (.inl ⟨rfl, CeilSqrt.above_pos seedAbove⟩) (.inl (by
        have maximum : uint64Max = 2 ^ 64 - 1 := rfl
        unfold bigSquareRootFuel; omega))
    exact ⟨s, by simpa [bigSquareRootCeil, zero] using looped, .inr ⟨positive, ceiling⟩⟩

/-- `bigSquareRoot` returns the floor square root of `a * b` for 64-bit operands, without
throwing. -/
theorem bigSquareRoot_spec {a b : Nat} (boundA : a ≤ uint64Max) (boundB : b ≤ uint64Max) :
    ∃ r, bigSquareRoot a b = .ok r ∧ r * r ≤ a * b ∧ a * b < (r + 1) * (r + 1) := by
  obtain ⟨s, ceilingRun, ⟨product, rfl⟩ | ⟨positive, sAbove, sBelow⟩⟩ :=
    bigSquareRootCeil_spec boundA boundB
  · exact ⟨0, by simp [bigSquareRoot, ceilingRun, product], by simp [product], by simp [product]⟩
  · by_cases square : s * s ≤ a * b
    · refine ⟨s, by simp [bigSquareRoot, ceilingRun, square], square, ?_⟩
      have expand : (s + 1) * (s + 1) = s * s + 2 * s + 1 := by ring
      omega
    · refine ⟨s - 1, by simp [bigSquareRoot, ceilingRun, square], by omega, ?_⟩
      have : s - 1 + 1 = s := by
        rcases Nat.eq_zero_or_pos s with rfl | _
        · simp at square
        · omega
      rw [this]
      omega

/-- `bigSquareRoot` stops for all 64-bit operands without throwing and returns the floor square
root of `a * b`; `bigSquareRootCeil` returns the least `s` with `a * b ≤ s * s`, the fixed point
its loop reaches: from the seed, every value of the loop fits 64 bits and lies at or above
`⌈√(a * b)⌉`, and each pass strictly decreases it until the pass leaves it unchanged, at
`⌈√(a * b)⌉`. -/
theorem bigSquareRoot_exact {a b : Nat} (boundA : a ≤ uint64Max) (boundB : b ≤ uint64Max) :
    (∃ r, bigSquareRoot a b = .ok r ∧ r * r ≤ a * b ∧ a * b < (r + 1) * (r + 1)) ∧
      (∃ s, bigSquareRootCeil a b = .ok s ∧ a * b ≤ s * s ∧ ∀ t, a * b ≤ t * t → s ≤ t) ∧
      (0 < a * b → ∀ n,
        let x := (CeilSqrt.step (a * b - 1))^[n]
          (if uint128Bits (a * b - 1) / 2 + 1 ≥ 64 then uint64Max
            else 2 ^ (uint128Bits (a * b - 1) / 2 + 1))
        a * b ≤ x * x ∧ x ≤ uint64Max ∧
          (CeilSqrt.step (a * b - 1) x < x ∨
            CeilSqrt.step (a * b - 1) x = x ∧ (x - 1) * (x - 1) < a * b)) := by
  refine ⟨bigSquareRoot_spec boundA boundB, ?_, ?_⟩
  · obtain ⟨s, ceilingRun, ⟨product, rfl⟩ | ⟨positive, exact⟩⟩ :=
      bigSquareRootCeil_spec boundA boundB
    · exact ⟨0, ceilingRun, by simp [product], fun t _ => Nat.zero_le t⟩
    · have covers : a * b ≤ s * s := by
        have := exact.1
        omega
      refine ⟨s, ceilingRun, covers, fun t coversT => CeilSqrt.le_of_above exact ?_⟩
      unfold CeilSqrt.Above
      omega
  · intro positive n
    have bounded : a * b - 1 + 1 ≤ uint64Max * uint64Max := by
      have := Nat.mul_le_mul boundA boundB
      omega
    obtain ⟨seedAbove, seedFits⟩ := bigSquareRootCeil_seed bounded
    obtain ⟨aboveN, belowN⟩ := CeilSqrt.iterate_above seedAbove n
    unfold CeilSqrt.Above at aboveN
    refine ⟨by omega, le_trans belowN seedFits, ?_⟩
    rcases CeilSqrt.step_lt_or_isCeilSqrt (by exact aboveN) with smaller | ⟨fixed, -, below⟩
    · exact .inl smaller
    · exact .inr ⟨fixed, by omega⟩

theorem bigSquareRoot_exact_sixty : (15 ≤ uint64Max ∧ 4 ≤ uint64Max) ∧
    ∃ r, bigSquareRoot 15 4 = .ok r ∧ r * r ≤ 15 * 4 ∧ 15 * 4 < (r + 1) * (r + 1) :=
  ⟨⟨by decide, by decide⟩, (bigSquareRoot_exact (by decide) (by decide)).1⟩

end StellarCore
