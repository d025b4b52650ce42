import StellarCore.Bucket.BucketListBase
import StellarCore.Lib.Except

/-!
# How the bucket list tiles the ledger history

At ledger `n` the bucket list holds the ledgers `1 .. n`, newest first: level 0's `curr`,
level 0's `snap`, level 1's `curr`, and so on down to the last level's `curr`. The abstract
layer says how many of the newest ledgers are held up to a level's `curr` and up to its
`snap` (`heldThroughCurr`, `heldThroughSnap`): a level below the last holds a steady prefix
`steadyThroughCurr` plus what has come in since its last spill, and the last level holds the
rest. The sizes of the source are the differences of consecutive bounds, which is the tiling:
no gap, no overlap, and the last bound is `n`.

`sizeOfCurr` recurses on the ledger of the previous spill into the level; its spec lemma
`sizeOfCurr_above` reads the recursion in remainders, and `sizeOfCurr_of_above` solves it by
strong induction on the ledger. The levels are then taken bottom-up, since a level below the
threshold falls back on the sizes of the levels above it.
-/

set_option autoImplicit false

namespace StellarCore.Bucket

open Scp (uint32Max)

/-- The ledgers held up to a level's `curr` right after that level snapped: one ledger at
level 0, and each level adds its `snap` and the next level's first spill. -/
def steadyThroughCurr : Nat → Nat
  | 0 => 1
  | level + 1 => steadyThroughCurr level + 2 * levelHalf level

/-- How many of the newest ledgers are held up to and including `level`'s `curr`. -/
def heldThroughCurr (n level : Nat) : Nat :=
  if level < kNumLevels - 1 then min n (steadyThroughCurr level + n % levelHalf level) else n

/-- How many of the newest ledgers are held up to and including `level`'s `snap`. -/
def heldThroughSnap (n level : Nat) : Nat :=
  if level < kNumLevels - 1 then
    min n (steadyThroughCurr level + levelHalf level + n % levelHalf level)
  else n

/-- How many of the newest ledgers are held above `level`. -/
def heldBelow (n : Nat) : Nat → Nat
  | 0 => 0
  | level + 1 => heldThroughSnap n level

theorem steadyThroughCurr_zero : steadyThroughCurr 0 = 1 := rfl

theorem steadyThroughCurr_succ (level : Nat) :
    steadyThroughCurr (level + 1) = steadyThroughCurr level + 2 * levelHalf level := rfl

theorem heldBelow_zero (n : Nat) : heldBelow n 0 = 0 := rfl

theorem heldBelow_succ (n level : Nat) : heldBelow n (level + 1) = heldThroughSnap n level := rfl

section Closed

variable {n level : Nat}

theorem steadyThroughCurr_lt (level : Nat) : steadyThroughCurr level < levelHalf level := by
  induction level with
  | zero => simp [steadyThroughCurr_zero, levelHalf_eq]
  | succ level ih =>
    rw [steadyThroughCurr_succ, levelHalf_succ, levelSize_eq_two_mul]
    omega

theorem heldThroughCurr_le_heldThroughSnap (n level : Nat) :
    heldThroughCurr n level ≤ heldThroughSnap n level := by
  unfold heldThroughCurr heldThroughSnap
  split_ifs <;> omega

theorem heldThroughSnap_le (n level : Nat) : heldThroughSnap n level ≤ n := by
  unfold heldThroughSnap
  split_ifs <;> omega

theorem heldThroughCurr_le (n level : Nat) : heldThroughCurr n level ≤ n :=
  le_trans (heldThroughCurr_le_heldThroughSnap n level) (heldThroughSnap_le n level)

/-- What a level's `snap` holds is never more than the next `curr` starts past it. -/
theorem heldThroughSnap_le_heldThroughCurr (n level : Nat) :
    heldThroughSnap n level ≤ heldThroughCurr n (level + 1) := by
  have remainder := Nat.mod_lt n (levelHalf_pos level)
  unfold heldThroughCurr heldThroughSnap
  rw [steadyThroughCurr_succ, levelHalf_succ, levelSize_eq_two_mul]
  split_ifs <;> omega

theorem heldBelow_le_heldThroughCurr (n level : Nat) : heldBelow n level ≤ heldThroughCurr n level := by
  cases level with
  | zero => exact Nat.zero_le _
  | succ level => exact heldThroughSnap_le_heldThroughCurr n level

theorem heldThroughSnap_last (n : Nat) : heldThroughSnap n (kNumLevels - 1) = n := by
  simp [heldThroughSnap]

/-- Past the level's half, the steady prefix and the remainder are all below `n`. -/
theorem heldThroughCurr_of_above (notLast : level < kNumLevels - 1) (above : levelHalf level ≤ n) :
    heldThroughCurr n level = steadyThroughCurr level + n % levelHalf level := by
  have steady := steadyThroughCurr_lt level
  have remainder : n % levelHalf level + levelHalf level ≤ n := by
    have := Nat.mod_add_div n (levelHalf level)
    have quotient : 1 ≤ n / levelHalf level := (Nat.one_le_div_iff (levelHalf_pos level)).mpr above
    have := Nat.mul_le_mul_left (levelHalf level) quotient
    omega
  rw [heldThroughCurr, if_pos notLast]
  omega

theorem heldThroughSnap_of_above (notLast : level < kNumLevels - 1) (above : levelSize level ≤ n) :
    heldThroughSnap n level = steadyThroughCurr level + levelHalf level + n % levelHalf level := by
  have steady := steadyThroughCurr_lt level
  have remainder : n % levelHalf level + 2 * levelHalf level ≤ n := by
    have := Nat.mod_add_div n (levelHalf level)
    have quotient : 2 ≤ n / levelHalf level :=
      (Nat.le_div_iff_mul_le (levelHalf_pos level)).mpr (by rw [← levelSize_eq_two_mul]; exact above)
    have := Nat.mul_le_mul_left (levelHalf level) quotient
    omega
  rw [heldThroughSnap, if_pos notLast]
  omega

/-- Below the level's half everything not above the level is in its `curr`. -/
theorem heldThroughCurr_of_below (below : n < levelHalf level) : heldThroughCurr n level = n := by
  rw [heldThroughCurr, Nat.mod_eq_of_lt below]
  split_ifs <;> omega

theorem heldThroughSnap_of_below (below : n < levelSize level) : heldThroughSnap n level = n := by
  have halves := levelSize_eq_two_mul level
  have remainder : n < levelHalf level ∨ n % levelHalf level + levelHalf level = n := by
    by_cases small : n < levelHalf level
    · exact Or.inl small
    · right
      have split := Nat.mod_add_div n (levelHalf level)
      have : n / levelHalf level = 1 := by
        apply le_antisymm
        · exact Nat.lt_succ_iff.mp ((Nat.div_lt_iff_lt_mul (levelHalf_pos level)).mpr (by omega))
        · exact (Nat.one_le_div_iff (levelHalf_pos level)).mpr (by omega)
      rw [this, Nat.mul_one] at split
      exact split
  rw [heldThroughSnap]
  rcases remainder with small | large
  · rw [Nat.mod_eq_of_lt small]
    split_ifs <;> omega
  · split_ifs <;> omega

/-- A `curr` past its level's half holds the previous level's spill size, plus what came since
the level's own last spill, less what the previous level has not spilled yet. -/
theorem currSize_of_above (notLast : level + 1 < kNumLevels - 1)
    (above : levelHalf (level + 1) ≤ n) :
    heldThroughCurr n (level + 1) - heldBelow n (level + 1) =
      levelHalf level + n % levelHalf (level + 1) - n % levelHalf level := by
  have lower : levelSize level ≤ n := by
    rw [levelHalf_succ] at above
    omega
  have dvd : levelHalf level ∣ levelHalf (level + 1) :=
    ⟨4, by rw [levelHalf_succ, levelSize_eq_two_mul]; ring⟩
  have remainders := AlignDown.mod_le_mod_of_dvd (v := n) dvd
  rw [heldBelow_succ, heldThroughCurr_of_above notLast above,
    heldThroughSnap_of_above (by omega) lower, steadyThroughCurr_succ]
  omega

/-- A full level's `snap` holds half the level. -/
theorem snapSize_of_above (notLast : level < kNumLevels - 1) (above : levelSize level ≤ n) :
    heldThroughSnap n level - heldThroughCurr n level = levelHalf level := by
  have half : levelHalf level ≤ n := by
    rw [levelSize_eq_two_mul] at above
    omega
  rw [heldThroughSnap_of_above notLast above, heldThroughCurr_of_above notLast half]
  omega

theorem snapSize_le_levelHalf (n level : Nat) :
    heldThroughSnap n level - heldThroughCurr n level ≤ levelHalf level := by
  unfold heldThroughSnap heldThroughCurr
  split_ifs <;> omega

/-- Whatever a level's `snap` holds, its `curr` holds something: the `curr` starts with the
spill from the level above, which a `snap` is never shorter than. -/
theorem currSize_pos_of_snap (snapHolds : heldThroughCurr n level < heldThroughSnap n level) :
    heldBelow n level < heldThroughCurr n level := by
  cases level with
  | zero =>
    unfold heldThroughCurr heldThroughSnap at snapHolds
    rw [heldBelow_zero, heldThroughCurr]
    rw [steadyThroughCurr_zero] at snapHolds ⊢
    split_ifs at snapHolds ⊢ <;> omega
  | succ level =>
    have remainder := Nat.mod_lt n (levelHalf_pos level)
    unfold heldThroughCurr heldThroughSnap at snapHolds
    rw [heldBelow_succ, heldThroughCurr, heldThroughSnap]
    rw [steadyThroughCurr_succ, levelHalf_succ, levelSize_eq_two_mul] at snapHolds ⊢
    split_ifs at snapHolds ⊢ <;> omega

/-- A level's `curr` holding anything means the `snap` above it does. -/
theorem snapHolds_of_currHolds (notLast : level < kNumLevels - 1)
    (currHolds : heldBelow n (level + 1) < heldThroughCurr n (level + 1)) :
    heldThroughCurr n level < heldThroughSnap n level := by
  have positive := levelHalf_pos level
  have bounded := heldThroughCurr_le n (level + 1)
  rw [heldBelow_succ] at currHolds
  unfold heldThroughCurr heldThroughSnap at currHolds ⊢
  split_ifs at currHolds ⊢ <;> omega

theorem heldBelow_kNumLevels (n : Nat) : heldBelow n kNumLevels = n := heldThroughSnap_last n

end Closed

section Spec

variable {ledger level : Nat}

theorem sizeOfCurr_levelZero (nonzero : ledger ≠ 0) :
    sizeOfCurr ledger 0 = pure (if ledger = 1 then 1 else 1 + ledger % 2) := by
  rw [sizeOfCurr, if_neg nonzero, if_neg (by simp [kNumLevels]), if_pos rfl]

/-- The last level, and a level not yet past its half, hold what the levels above do not. -/
theorem sizeOfCurr_whole (nonzero : ledger ≠ 0) (inRange : level < kNumLevels) (inner : level ≠ 0)
    (whole : level = kNumLevels - 1 ∨ ledger < levelHalf level) (fits : ledger ≤ uint32Max) :
    sizeOfCurr ledger level = (do
      let blsize ← sizeBelow ledger level
      pure (ledger - blsize)) := by
  rw [sizeOfCurr, if_neg nonzero, if_neg (not_not.mpr inRange), if_neg inner]
  simp only
  rw [if_neg]
  rintro ⟨notLast, spilled⟩
  rw [roundDown_levelHalf inRange fits, Ne, AlignDown.sub_mod_eq_zero_iff (levelHalf_pos level)]
    at spilled
  omega

/-- `sizeOfCurr` past the level's half, read in remainders: a fresh spill from the level
above is one spill size, and otherwise the size is that at the previous spill into the level,
plus one spill size when the level above has just spilled. -/
theorem sizeOfCurr_above (notLast : level + 1 < kNumLevels - 1)
    (above : levelHalf (level + 1) ≤ ledger) (fits : ledger ≤ uint32Max) :
    sizeOfCurr ledger (level + 1) =
      if ledger % levelHalf (level + 1) = 0 then pure (levelHalf level)
      else if ledger % levelHalf level = 0 then do
        let previous ← sizeOfCurr (ledger - levelHalf level) (level + 1)
        pure (previous + levelHalf level)
      else sizeOfCurr (ledger - ledger % levelHalf level) (level + 1) := by
  have inRange : level + 1 < kNumLevels := by omega
  have below : level < kNumLevels := by omega
  have positive := levelHalf_pos (level + 1)
  have halfPositive := levelHalf_pos level
  have nonzero : ledger ≠ 0 := by omega
  have predFits : ledger - 1 ≤ uint32Max := by omega
  -- The four sizes nest, each dividing the next.
  have halfSize : levelHalf level ∣ levelSize level := ⟨2, by rw [levelSize_eq_two_mul, mul_comm]⟩
  have sizeHalf : levelSize level ∣ levelHalf (level + 1) := ⟨2, by rw [levelHalf_succ, mul_comm]⟩
  have nextSize : levelHalf (level + 1) ∣ levelSize (level + 1) :=
    ⟨2, by rw [levelSize_eq_two_mul, mul_comm]⟩
  have halfHalf := dvd_trans halfSize sizeHalf
  have halfBelow : levelHalf level ≤ ledger := le_trans (Nat.le_of_dvd positive halfHalf) above
  have sizeDelta : 1 <<< (2 * (level + 1) - 1) = levelHalf level := by
    rw [levelHalf_eq, Nat.shiftLeft_eq, one_mul, show 2 * (level + 1) - 1 = 2 * level + 1 by omega]
  -- The previous relevant ledger is `ledger - 1` rounded down to the finest of the sizes.
  have previous :
      max (max (max (roundDown (ledger - 1) (levelHalf level)) (roundDown (ledger - 1) (levelSize level)))
        (roundDown (ledger - 1) (levelHalf (level + 1)))) (roundDown (ledger - 1) (levelSize (level + 1))) =
        ledger - 1 - (ledger - 1) % levelHalf level := by
    rw [roundDown_levelHalf below predFits, roundDown_levelSize below predFits,
      roundDown_levelHalf inRange predFits, roundDown_levelSize inRange predFits,
      max_eq_left (AlignDown.sub_mod_le_sub_mod_of_dvd halfSize),
      max_eq_left (AlignDown.sub_mod_le_sub_mod_of_dvd halfHalf),
      max_eq_left (AlignDown.sub_mod_le_sub_mod_of_dvd (dvd_trans halfHalf nextSize))]
  have spilled : level + 1 ≠ kNumLevels - 1 ∧ roundDown ledger (levelHalf (level + 1)) ≠ 0 := by
    rw [roundDown_levelHalf inRange fits]
    exact ⟨by omega, fun cleared => absurd ((AlignDown.sub_mod_eq_zero_iff positive).mp cleared) (by omega)⟩
  have full : (roundDown ledger (levelHalf (level + 1)) = ledger ∨
      roundDown ledger (levelSize (level + 1)) = ledger) ↔ ledger % levelHalf (level + 1) = 0 := by
    rw [roundDown_levelHalf inRange fits, roundDown_levelSize inRange fits,
      AlignDown.sub_mod_eq_self_iff, AlignDown.sub_mod_eq_self_iff]
    exact ⟨fun aligned => aligned.elim id (AlignDown.mod_eq_zero_of_dvd nextSize), Or.inl⟩
  have half : (roundDown ledger (levelHalf level) = ledger ∨
      roundDown ledger (levelSize level) = ledger) ↔ ledger % levelHalf level = 0 := by
    rw [roundDown_levelHalf below fits, roundDown_levelSize below fits,
      AlignDown.sub_mod_eq_self_iff, AlignDown.sub_mod_eq_self_iff]
    exact ⟨fun aligned => aligned.elim id (AlignDown.mod_eq_zero_of_dvd halfSize), Or.inl⟩
  rw [sizeOfCurr, if_neg nonzero, if_neg (not_not.mpr inRange), if_neg (Nat.succ_ne_zero level)]
  simp only [Nat.add_sub_cancel]
  rw [if_pos spilled, sizeDelta, previous]
  by_cases aligned : ledger % levelHalf (level + 1) = 0
  · rw [if_pos (full.mpr aligned), if_pos aligned]
  · rw [if_neg (mt full.mp aligned), if_neg aligned]
    by_cases halfAligned : ledger % levelHalf level = 0
    · have back : ledger - 1 - (levelHalf level - 1) = ledger - levelHalf level := by omega
      rw [if_pos (half.mpr halfAligned), if_pos halfAligned,
        AlignDown.pred_mod_of_mod_eq_zero (levelHalf_pos level) (by omega) halfAligned, back]
    · have back : ledger - 1 - (ledger % levelHalf level - 1) = ledger - ledger % levelHalf level := by
        have := Nat.mod_le ledger (levelHalf level)
        omega
      rw [if_neg (mt half.mp halfAligned), if_neg halfAligned,
        AlignDown.pred_mod_of_mod_ne_zero halfAligned, back]

/-- Past the level's half, the recursion of `sizeOfCurr` gives one spill size plus what came
since the level's own last spill, less what the level above holds back; by strong induction
on the ledger, each call being at an earlier spill into the level. -/
theorem sizeOfCurr_of_above (notLast : level + 1 < kNumLevels - 1) :
    ∀ ledger, levelHalf (level + 1) ≤ ledger → ledger ≤ uint32Max →
      sizeOfCurr ledger (level + 1) =
        .ok (levelHalf level + ledger % levelHalf (level + 1) - ledger % levelHalf level) := by
  have positive := levelHalf_pos level
  have nextPositive := levelHalf_pos (level + 1)
  have halfHalf : levelHalf level ∣ levelHalf (level + 1) :=
    ⟨4, by rw [levelHalf_succ, levelSize_eq_two_mul]; ring⟩
  intro ledger
  induction ledger using Nat.strong_induction_on with
  | _ ledger ih =>
  intro above fits
  have remainders := AlignDown.mod_le_mod_of_dvd (v := ledger) halfHalf
  rw [sizeOfCurr_above notLast above fits]
  by_cases aligned : ledger % levelHalf (level + 1) = 0
  · rw [if_pos aligned, aligned, AlignDown.mod_eq_zero_of_dvd halfHalf aligned]
    rfl
  · rw [if_neg aligned]
    by_cases halfAligned : ledger % levelHalf level = 0
    · -- The previous spill into the level was one spill size back.
      have spillBack : levelHalf level ≤ ledger % levelHalf (level + 1) :=
        AlignDown.le_mod_of_dvd halfHalf halfAligned aligned
      have earlier : levelHalf (level + 1) ≤ ledger - levelHalf level := by
        have := AlignDown.le_sub_mod_of_le (levelHalf_pos (level + 1)) above
        omega
      have remainder := AlignDown.sub_mod_of_le_mod spillBack
      have cleared : (ledger - levelHalf level) % levelHalf level = 0 :=
        Nat.sub_mod_eq_zero_of_mod_eq (by rw [halfAligned, Nat.mod_self])
      rw [if_pos halfAligned, ih (ledger - levelHalf level) (by omega) earlier (by omega), Except.ok_bind, remainder,
        cleared, halfAligned]
      congr 1
      omega
    · -- The level above has not spilled since the previous spill into this level.
      have earlier : levelHalf (level + 1) ≤ ledger - ledger % levelHalf level :=
        le_trans (AlignDown.le_sub_mod_of_le (levelHalf_pos (level + 1)) above)
          (AlignDown.sub_mod_le_sub_mod_of_dvd halfHalf)
      have earlierLt : ledger - ledger % levelHalf level < ledger := by
        have := Nat.mod_le ledger (levelHalf level)
        omega
      rw [if_neg halfAligned, ih (ledger - ledger % levelHalf level) earlierLt earlier (by omega),
        AlignDown.sub_mod_mod_of_dvd halfHalf (levelHalf_pos (level + 1)),
        AlignDown.sub_mod_self_mod]
      congr 1
      omega

theorem sizeOfSnap_last (nonzero : ledger ≠ 0) : sizeOfSnap ledger (kNumLevels - 1) = pure 0 := by
  rw [sizeOfSnap, if_neg nonzero, if_neg (by simp [kNumLevels]), if_pos rfl]

theorem sizeOfSnap_full (notLast : level < kNumLevels - 1) (above : levelSize level ≤ ledger)
    (fits : ledger ≤ uint32Max) : sizeOfSnap ledger level = pure (levelHalf level) := by
  have positive : 0 < levelSize level := by
    rw [levelSize_eq_two_mul]
    exact Nat.mul_pos (by norm_num) (levelHalf_pos level)
  have full : roundDown ledger (levelSize level) ≠ 0 := by
    rw [roundDown_levelSize (by omega) fits, Ne, AlignDown.sub_mod_eq_zero_iff positive]
    omega
  rw [sizeOfSnap, if_neg (by omega), if_neg (by omega), if_neg (by omega), if_pos full]

theorem sizeOfSnap_filling (nonzero : ledger ≠ 0) (notLast : level < kNumLevels - 1)
    (below : ledger < levelSize level) (fits : ledger ≤ uint32Max) :
    sizeOfSnap ledger level = (do
      let size ← sizeBelow ledger level
      let curr ← sizeOfCurr ledger level
      pure (ledger - (size + curr))) := by
  have empty : ¬ roundDown ledger (levelSize level) ≠ 0 := by
    rw [roundDown_levelSize (by omega) fits, not_not, Nat.mod_eq_of_lt below, Nat.sub_self]
  rw [sizeOfSnap, if_neg nonzero, if_neg (by omega), if_neg (by omega), if_neg empty]

end Spec

section Refinement

variable {n : Nat}

/-- Given the levels above it, a level's `curr` holds what its bounds say. -/
theorem sizeOfCurr_eq (pos : 0 < n) (fits : n ≤ uint32Max) {level : Nat} (inRange : level < kNumLevels)
    (above : sizeBelow n level = .ok (heldBelow n level)) :
    sizeOfCurr n level = .ok (heldThroughCurr n level - heldBelow n level) := by
  cases level with
  | zero =>
    -- Level 0 holds the newest ledger and, at odd ledgers, the one before.
    have value : (if n = 1 then 1 else 1 + n % 2) = min n (steadyThroughCurr 0 + n % levelHalf 0) := by
      have := Nat.mod_lt n (show 0 < 2 by norm_num)
      rw [steadyThroughCurr_zero, levelHalf_eq]
      split_ifs with one
      · subst one
        rfl
      · simp only [Nat.mul_zero, Nat.zero_add, pow_one]
        omega
    rw [sizeOfCurr_levelZero (by omega), heldBelow_zero, heldThroughCurr,
      if_pos (show 0 < kNumLevels - 1 by simp [kNumLevels]), Nat.sub_zero, ← value]
    rfl
  | succ level =>
    by_cases whole : level + 1 = kNumLevels - 1 ∨ n < levelHalf (level + 1)
    · have held : heldThroughCurr n (level + 1) = n := by
        rcases whole with last | below
        · rw [heldThroughCurr, if_neg (by omega)]
        · exact heldThroughCurr_of_below below
      rw [sizeOfCurr_whole (by omega) inRange (Nat.succ_ne_zero level) whole fits, above,
        Except.ok_bind, held]
      rfl
    · have notLast : level + 1 < kNumLevels - 1 := by omega
      have past : levelHalf (level + 1) ≤ n := by omega
      rw [sizeOfCurr_of_above notLast n past fits, currSize_of_above notLast past]

/-- Given the levels above it, a level's `snap` holds what its bounds say. -/
theorem sizeOfSnap_eq (pos : 0 < n) (fits : n ≤ uint32Max) {level : Nat} (inRange : level < kNumLevels)
    (above : sizeBelow n level = .ok (heldBelow n level)) :
    sizeOfSnap n level = .ok (heldThroughSnap n level - heldThroughCurr n level) := by
  by_cases last : level = kNumLevels - 1
  · subst last
    rw [sizeOfSnap_last (by omega), heldThroughSnap_last, heldThroughCurr, if_neg (lt_irrefl _),
      Nat.sub_self]
    rfl
  · have notLast : level < kNumLevels - 1 := by omega
    by_cases full : levelSize level ≤ n
    · rw [sizeOfSnap_full notLast full fits, snapSize_of_above notLast full]
      rfl
    · have short : n < levelSize level := by omega
      have ordered := heldBelow_le_heldThroughCurr n level
      rw [sizeOfSnap_filling (by omega) notLast short fits, above, Except.ok_bind,
        sizeOfCurr_eq pos fits inRange above, Except.ok_bind, heldThroughSnap_of_below short]
      exact congrArg Except.ok (by omega)

/-- The loop over the levels above `level` adds up to their bounds; by induction on the level,
each step adding one level's `curr` and `snap`. -/
theorem sizeBelow_eq (pos : 0 < n) (fits : n ≤ uint32Max) :
    ∀ level ≤ kNumLevels, sizeBelow n level = .ok (heldBelow n level) := by
  intro level
  induction level with
  | zero =>
    intro _
    rw [sizeBelow, heldBelow_zero]
    rfl
  | succ level ih =>
    intro inRange
    have above := ih (by omega)
    have ordered := heldBelow_le_heldThroughCurr n level
    have currFirst := heldThroughCurr_le_heldThroughSnap n level
    rw [sizeBelow, above, Except.ok_bind, sizeOfCurr_eq pos fits (by omega) above, Except.ok_bind,
      sizeOfSnap_eq pos fits (by omega) above, Except.ok_bind, heldBelow_succ]
    exact congrArg Except.ok (by omega)

theorem oldestLedgerInCurr_eq (pos : 0 < n) (fits : n ≤ uint32Max) {level : Nat}
    (inRange : level < kNumLevels) :
    oldestLedgerInCurr n level =
      .ok (if heldBelow n level < heldThroughCurr n level then n - heldThroughCurr n level + 1
        else uint32Max) := by
  have above := sizeBelow_eq pos fits level inRange.le
  have bounded := heldThroughCurr_le n level
  rw [oldestLedgerInCurr, if_neg (by omega), if_neg (not_not.mpr inRange),
    sizeOfCurr_eq pos fits inRange above, Except.ok_bind]
  by_cases holds : heldBelow n level < heldThroughCurr n level
  · rw [if_neg (by omega), if_pos holds, above, Except.ok_bind]
    exact congrArg Except.ok (by omega)
  · rw [if_pos (by omega), if_neg holds]
    rfl

theorem oldestLedgerInSnap_eq (pos : 0 < n) (fits : n ≤ uint32Max) {level : Nat}
    (inRange : level < kNumLevels) :
    oldestLedgerInSnap n level =
      .ok (if heldThroughCurr n level < heldThroughSnap n level then n - heldThroughSnap n level + 1
        else uint32Max) := by
  have above := sizeBelow_eq pos fits level inRange.le
  have through := sizeBelow_eq pos fits (level + 1) inRange
  have bounded := heldThroughSnap_le n level
  rw [oldestLedgerInSnap, if_neg (by omega), if_neg (not_not.mpr inRange),
    sizeOfSnap_eq pos fits inRange above, Except.ok_bind]
  by_cases holds : heldThroughCurr n level < heldThroughSnap n level
  · rw [if_neg (by omega), if_pos holds, through, Except.ok_bind, heldBelow_succ]
    rfl
  · rw [if_pos (by omega), if_neg holds]
    rfl

end Refinement

end StellarCore.Bucket
