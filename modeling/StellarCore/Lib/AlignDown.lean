import Mathlib.Data.Nat.Bitwise
import Mathlib.Tactic.Ring

/-!
# Aligning down to a power of two

Clearing the low bits of a `w`-bit word, `v & ~(2^k - 1)`, is the largest multiple of `2^k`
below `v`, that is `v - v % 2^k`. The lemmas after it are the arithmetic of such aligned
values for nested moduli `m ∣ M`: how the remainders compare, what is left of one remainder
after aligning to the other, and what aligning `v - 1` gives.
-/

set_option autoImplicit false

namespace AlignDown

variable {v m M : Nat}

/-- The mask of a `w`-bit complement of `2^k - 1` clears exactly the low `k` bits. -/
theorem land_two_pow_sub_two_pow {w k : Nat} (hk : k ≤ w) (hv : v < 2 ^ w) :
    v &&& (2 ^ w - 2 ^ k) = v - v % 2 ^ k := by
  have mask : 2 ^ w - 2 ^ k = (2 ^ (w - k) - 1) <<< k := by
    rw [Nat.shiftLeft_eq, Nat.sub_mul, one_mul, ← pow_add, Nat.sub_add_cancel hk]
  have cleared : v - v % 2 ^ k = (v >>> k) <<< k := by
    rw [Nat.shiftLeft_eq, Nat.shiftRight_eq_div_pow]
    have := Nat.mod_add_div v (2 ^ k)
    rw [Nat.mul_comm]
    omega
  rw [mask, cleared]
  apply Nat.eq_of_testBit_eq
  intro i
  simp only [Nat.testBit_and, Nat.testBit_shiftLeft, Nat.testBit_two_pow_sub_one,
    Nat.testBit_shiftRight]
  by_cases low : k ≤ i
  · -- Above the mask's top bit `v` has no bits either.
    by_cases high : i < w
    · simp [low, Nat.add_sub_cancel' low, show i - k < w - k by omega]
    · have absent : v.testBit i = false :=
        Nat.testBit_lt_two_pow (lt_of_lt_of_le hv (Nat.pow_le_pow_right (by norm_num) (by omega)))
      simp [low, Nat.add_sub_cancel' low, absent]
  · simp [low]

theorem sub_mod_eq_zero_iff (pos : 0 < m) : v - v % m = 0 ↔ v < m := by
  have quotient : v - v % m = m * (v / m) := by
    have := Nat.mod_add_div v m
    omega
  rw [quotient, Nat.mul_eq_zero, Nat.div_eq_zero_iff]
  omega

theorem sub_mod_eq_self_iff : v - v % m = v ↔ v % m = 0 := by
  have := Nat.mod_le v m
  omega

/-- A remainder modulo a divisor is at most the remainder modulo the multiple. -/
theorem mod_le_mod_of_dvd (dvd : m ∣ M) : v % m ≤ v % M := by
  rw [← Nat.mod_mod_of_dvd v dvd]
  exact Nat.mod_le _ _

theorem mod_eq_zero_of_dvd (dvd : m ∣ M) (aligned : v % M = 0) : v % m = 0 := by
  rw [← Nat.mod_mod_of_dvd v dvd, aligned, Nat.zero_mod]

/-- Aligning to the finer modulus loses no more than aligning to the coarser one. -/
theorem sub_mod_le_sub_mod_of_dvd (dvd : m ∣ M) : v - v % M ≤ v - v % m :=
  Nat.sub_le_sub_left (mod_le_mod_of_dvd dvd) v

/-- Aligning down to `m` leaves the remainder modulo `M` less what it cleared. -/
theorem sub_mod_mod_of_dvd (dvd : m ∣ M) (pos : 0 < M) :
    (v - v % m) % M = v % M - v % m := by
  have below : v % m ≤ v % M := mod_le_mod_of_dvd dvd
  have split : v - v % m = (v % M - v % m) + M * (v / M) := by
    have := Nat.mod_add_div v M
    omega
  rw [split, Nat.add_mul_mod_self_left, Nat.mod_eq_of_lt (by have := Nat.mod_lt v pos; omega)]

/-- Taking away less than the remainder takes it from the remainder. -/
theorem sub_mod_of_le_mod {d : Nat} (le : d ≤ v % M) : (v - d) % M = v % M - d := by
  rcases Nat.eq_zero_or_pos M with zero | pos
  · simp [zero]
  · have split : v - d = (v % M - d) + M * (v / M) := by
      have := Nat.mod_add_div v M
      omega
    rw [split, Nat.add_mul_mod_self_left, Nat.mod_eq_of_lt (by have := Nat.mod_lt v pos; omega)]

/-- The predecessor of a multiple of `m` is `m - 1` past the multiple before it. -/
theorem pred_mod_of_mod_eq_zero (pos : 0 < m) (nonzero : 0 < v) (aligned : v % m = 0) :
    (v - 1) % m = m - 1 := by
  obtain ⟨q, rfl⟩ := Nat.dvd_of_mod_eq_zero aligned
  have : 0 < q := Nat.pos_of_mul_pos_left nonzero
  have split : m * q - 1 = (m - 1) + m * (q - 1) := by
    obtain ⟨r, rfl⟩ := Nat.exists_eq_add_of_lt this
    obtain ⟨n, rfl⟩ := Nat.exists_eq_add_of_lt pos
    simp only [zero_add, Nat.add_sub_cancel]
    ring_nf
    omega
  rw [split, Nat.add_mul_mod_self_left, Nat.mod_eq_of_lt (by omega)]

/-- Off a multiple of `m`, the predecessor only loses one from the remainder. -/
theorem pred_mod_of_mod_ne_zero (unaligned : v % m ≠ 0) : (v - 1) % m = v % m - 1 :=
  sub_mod_of_le_mod (Nat.one_le_iff_ne_zero.mpr unaligned)

theorem sub_mod_self_mod (v m : Nat) : (v - v % m) % m = 0 :=
  Nat.sub_mod_eq_zero_of_mod_eq (Nat.mod_mod v m).symm

/-- Aligning down never goes below the modulus itself. -/
theorem le_sub_mod_of_le (pos : 0 < M) (le : M ≤ v) : M ≤ v - v % M := by
  have := Nat.mod_add_div v M
  have quotient : 1 ≤ v / M := (Nat.one_le_div_iff pos).mpr le
  have := Nat.mul_le_mul_left M quotient
  omega

/-- A multiple of `m` that is not one of `M` is at least `m` past the multiple of `M` below. -/
theorem le_mod_of_dvd (dvd : m ∣ M) (aligned : v % m = 0) (unaligned : v % M ≠ 0) :
    m ≤ v % M := by
  have divides : m ∣ v % M := by
    apply Nat.dvd_of_mod_eq_zero
    rw [Nat.mod_mod_of_dvd v dvd, aligned]
  exact Nat.le_of_dvd (Nat.pos_of_ne_zero unaligned) divides

/-- Just before a multiple of `m`, the remainder is `m - 1`. -/
theorem mod_of_succ_aligned (pos : 0 < m) (aligned : (v + 1) % m = 0) : v % m = m - 1 := by
  have previous := pred_mod_of_mod_eq_zero pos (Nat.add_one_pos v) aligned
  rwa [Nat.add_sub_cancel] at previous

/-- Off a multiple of `m`, the successor stays as far below a bound that grows with the
remainder. -/
theorem succ_sub_min_add_mod (unaligned : (v + 1) % m ≠ 0) (K : Nat) :
    v + 1 - min (v + 1) (K + (v + 1) % m) = v - min v (K + v % m) := by
  have step := pred_mod_of_mod_ne_zero unaligned
  rw [Nat.add_sub_cancel] at step
  omega

/-- The next multiple of `m` after an aligned `v` that is not a multiple of `M` is `m` further
into the remainder modulo `M`. -/
theorem add_mod_of_dvd (dvd : m ∣ M) (aligned : v % m = 0) (unaligned : (v + m) % M ≠ 0) :
    (v + m) % M = v % M + m := by
  rcases Nat.eq_zero_or_pos M with zero | pos
  · simp [zero]
  · have divides : m ∣ v % M := Nat.dvd_of_mod_eq_zero (by rw [Nat.mod_mod_of_dvd v dvd, aligned])
    have below := Nat.mod_lt v pos
    have fits : m ≤ M - v % M := Nat.le_of_dvd (by omega) (Nat.dvd_sub dvd divides)
    have split : v + m = (v % M + m) + M * (v / M) := by
      have := Nat.mod_add_div v M
      omega
    rcases Nat.lt_or_ge (v % M + m) M with inside | full
    · rw [split, Nat.add_mul_mod_self_left, Nat.mod_eq_of_lt inside]
    · exfalso
      apply unaligned
      rw [split, Nat.add_mul_mod_self_left, show v % M + m = M by omega, Nat.mod_self]

end AlignDown
