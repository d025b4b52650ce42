import StellarCore.Util.Numeric
import StellarCore.Lib.Except
import Mathlib.Algebra.Order.Pi
import Mathlib.Algebra.Order.Group.PosPart
import Mathlib.Algebra.Order.BigOperators.Group.List

/-!
# Resource vectors of `util/TxResource.cpp`

A `Resource` holds one `int64_t` per dimension. Every resource a surge-pricing queue compares
has the dimension of its lane limits, so a resource is `Fin n → Int` and the source's
`releaseAssert`s that two resources have one size always pass. `operator<=` is the
componentwise order of functions; `operator+=` and `operator-=` keep their assertions.
-/

set_option autoImplicit false

namespace StellarCore

abbrev Resource (n : Nat) := Fin n → Int

namespace Resource

variable {n : Nat}

instance (lhs rhs : Resource n) : Decidable (lhs ≤ rhs) :=
  decidable_of_iff (∀ i, lhs i ≤ rhs i) Iff.rfl

/-- `anyGreater`: some dimension of `lhs` is above that of `rhs`. -/
def anyGreater (lhs rhs : Resource n) : Bool := decide (∃ i, rhs i < lhs i)

/-- `Resource::anyPositive`. -/
def anyPositive (r : Resource n) : Bool := decide (∃ i, 0 < r i)

/-- `subtractNonNegative`: the dimensions of `lhs` above `rhs` keep the difference, the others
become zero. -/
def subtractNonNegative (lhs rhs : Resource n) : Resource n :=
  fun i => if lhs i > rhs i then lhs i - rhs i else 0

/-- `Resource::canAdd`: no dimension of the sum passes `INT64_MAX`. -/
def canAdd (self other : Resource n) : Bool := decide (∀ i, ¬ int64Max - self i < other i)

/-- `Resource::operator+=`, and `operator+` through it. -/
def addAssign (self other : Resource n) : Except String (Resource n) :=
  if canAdd self other then .ok (self + other) else .error "canAdd(other)"

/-- `Resource::operator-=`. -/
def subAssign (self other : Resource n) : Except String (Resource n) :=
  if other ≤ self then .ok (self - other) else .error "mResources[i] >= other.mResources[i]"

/-- The resource that is `INT64_MAX` in every dimension. -/
def int64Limit : Resource n := fun _ => int64Max

@[simp] theorem anyGreater_eq_false_iff {lhs rhs : Resource n} :
    anyGreater lhs rhs = false ↔ lhs ≤ rhs := by
  simp [anyGreater, Pi.le_def]

theorem anyGreater_eq_true_iff {lhs rhs : Resource n} :
    anyGreater lhs rhs = true ↔ ¬ lhs ≤ rhs := by
  rw [← Bool.not_eq_false, anyGreater_eq_false_iff]

@[simp] theorem anyPositive_eq_false_iff {r : Resource n} : anyPositive r = false ↔ r ≤ 0 := by
  simp [anyPositive, Pi.le_def]

theorem subtractNonNegative_apply (lhs rhs : Resource n) (i : Fin n) :
    subtractNonNegative lhs rhs i = max (lhs i - rhs i) 0 := by
  simp only [subtractNonNegative, gt_iff_lt]
  split <;> omega

/-- `subtractNonNegative` is the positive part of the difference. -/
theorem subtractNonNegative_eq_posPart (lhs rhs : Resource n) :
    subtractNonNegative lhs rhs = (lhs - rhs)⁺ := by
  funext i
  rw [subtractNonNegative_apply, Pi.posPart_apply, Pi.sub_apply, posPart_def]

theorem canAdd_eq_true_iff {self other : Resource n} :
    canAdd self other = true ↔ self + other ≤ int64Limit := by
  simp only [canAdd, decide_eq_true_eq, Pi.le_def, Pi.add_apply, int64Limit]
  exact forall_congr' fun i => by omega

theorem addAssign_eq_ok {self other : Resource n} (fits : self + other ≤ int64Limit) :
    addAssign self other = .ok (self + other) := by
  rw [addAssign, if_pos (canAdd_eq_true_iff.2 fits)]

theorem subAssign_eq_ok {self other : Resource n} (covered : other ≤ self) :
    subAssign self other = .ok (self - other) := by
  rw [subAssign, if_pos covered]

theorem addAssign_eq_ok_iff {self other sum : Resource n} :
    addAssign self other = .ok sum ↔ self + other ≤ int64Limit ∧ sum = self + other := by
  unfold addAssign
  split
  · next fits => simp [canAdd_eq_true_iff.1 fits, eq_comm]
  · next overflows =>
      simp only [reduceCtorEq, false_iff, not_and]
      intro fits
      exact absurd (canAdd_eq_true_iff.2 fits) overflows

theorem subAssign_eq_ok_iff {self other difference : Resource n} :
    subAssign self other = .ok difference ↔ other ≤ self ∧ difference = self - other := by
  unfold subAssign
  split
  · next covered => simp [covered, eq_comm]
  · next uncovered => simp [uncovered]

section Accumulate

variable {β : Type} (f : β → Resource n)

/-- A successful `std::accumulate` through `operator+=` is the sum. -/
theorem foldlM_addAssign_eq_ok : ∀ {xs : List β} {init total : Resource n},
    xs.foldlM (fun res x => res.addAssign (f x)) init = .ok total →
      total = init + (xs.map f).sum
  | [], init, total, summed => by
      simp only [List.foldlM_nil, Except.pure_eq_ok, Except.ok.injEq] at summed
      simp [summed]
  | x :: rest, init, total, summed => by
      rw [List.foldlM_cons] at summed
      obtain ⟨partialSum, added, more⟩ := Except.bind_eq_ok_iff.1 summed
      rw [foldlM_addAssign_eq_ok more, (addAssign_eq_ok_iff.1 added).2, List.map_cons,
        List.sum_cons, add_assoc]

/-- `std::accumulate` through `operator+=` fails only at the assertion of `operator+=`. -/
theorem foldlM_addAssign_eq_error : ∀ {xs : List β} {init : Resource n} {message : String},
    xs.foldlM (fun res x => res.addAssign (f x)) init = .error message →
      message = "canAdd(other)"
  | [], _, _, failed => by simp at failed
  | x :: rest, init, message, failed => by
      rw [List.foldlM_cons] at failed
      rcases Except.bind_eq_error_iff.1 failed with first | ⟨_, _, more⟩
      · unfold addAssign at first
        split at first
        · cases first
        · injection first with same
          exact same.symm
      · exact foldlM_addAssign_eq_error more

/-- Non-negative resources whose sum fits `int64_t` accumulate without failing. -/
theorem foldlM_addAssign_of_le : ∀ {xs : List β} {init : Resource n}, 0 ≤ init →
    (∀ x ∈ xs, 0 ≤ f x) → init + (xs.map f).sum ≤ int64Limit →
      xs.foldlM (fun res x => res.addAssign (f x)) init = .ok (init + (xs.map f).sum)
  | [], init, _, _, _ => by simp
  | x :: rest, init, start, nonneg, fits => by
      have restNonneg : ∀ y ∈ rest, 0 ≤ f y := fun y member => nonneg y (List.mem_cons_of_mem x member)
      have sumRest : 0 ≤ (rest.map f).sum := List.sum_nonneg fun r member => by
        obtain ⟨y, inRest, rfl⟩ := List.mem_map.mp member
        exact restNonneg y inRest
      rw [List.map_cons, List.sum_cons, ← add_assoc] at fits
      have fitsFirst : init + f x ≤ int64Limit := le_trans (le_add_of_nonneg_right sumRest) fits
      rw [List.foldlM_cons, addAssign_eq_ok fitsFirst, Except.ok_bind,
        foldlM_addAssign_of_le (add_nonneg start (nonneg x List.mem_cons_self)) restNonneg fits,
        List.map_cons, List.sum_cons, add_assoc]

end Accumulate

end Resource

end StellarCore
