import Mathlib.Order.WithBot
import Mathlib.Data.List.Nodup

/-!
# `std::sort` under its *Compare* requirement

`std::sort (first, last, comp)` asks of `comp` that it be a strict weak order, and leaves the
range ordered so that no element is `comp`-less than one before it; the order of equivalent
elements (neither less than the other) is left open. `sort` is a merge sort that keeps `a`
before `b` unless `comp b a`. When no two distinct elements of the range are equivalent there
is one such order: every result `std::sort` may produce is `sort`, and it depends only on the
elements of the range, not on the order they come in.

A comparator that `releaseAssert`s something of its arguments fails as soon as an element
that breaks it is compared; with two or more elements every element is compared, which
`checkCompared` models.
-/

set_option autoImplicit false

namespace StdSort

variable {α β : Type}

/-- The requirement *Compare*: a strict weak order, where being above `a` and below `c`
splits every `a < c`. -/
structure StrictWeakOrder (lt : α → α → Bool) : Prop where
  irrefl : ∀ a, lt a a = false
  trans : ∀ {a b c}, lt a b = true → lt b c = true → lt a c = true
  split : ∀ {a b c}, lt a c = true → lt a b = true ∨ lt b c = true

/-- `std::sort (first, last, lt)`. -/
def sort (lt : α → α → Bool) (xs : List α) : List α := xs.mergeSort (fun a b => !lt b a)

/-- No two distinct elements of `xs` are equivalent under `lt`. -/
def Distinct (lt : α → α → Bool) (xs : List α) : Prop :=
  ∀ a ∈ xs, ∀ b ∈ xs, lt a b = false → lt b a = false → a = b

/-- The `releaseAssert`s a comparator makes of each of its arguments, over a range it sorts. -/
def checkCompared (ok : α → Bool) (message : String) (xs : List α) : Except String Unit :=
  if 2 ≤ xs.length ∧ xs.any (fun a => !ok a) then .error message else pure ()

/-- A comparator of ranges by their first elements. The source's comparators assert first
that neither range is empty, so the value this gives an empty range is never read; ranking it
first keeps the comparator a strict weak order. -/
def frontSorter (lt : α → α → Bool) : List α → List α → Bool
  | [], _ :: _ => true
  | x :: _, y :: _ => lt x y
  | _, [] => false

variable {lt : α → α → Bool}

theorem sort_perm (lt : α → α → Bool) (xs : List α) : (sort lt xs).Perm xs :=
  List.mergeSort_perm _ _

@[simp] theorem mem_sort {xs : List α} {a : α} : a ∈ sort lt xs ↔ a ∈ xs :=
  (sort_perm lt xs).mem_iff

@[simp] theorem sort_singleton (a : α) : sort lt [a] = [a] := List.mergeSort_singleton a

@[simp] theorem sort_eq_nil {xs : List α} : sort lt xs = [] ↔ xs = [] := by
  rw [← List.length_eq_zero_iff, (sort_perm lt xs).length_eq, List.length_eq_zero_iff]

/-- Sorting each of a list of ranges keeps the elements they hold. -/
theorem flatten_map_sort_perm (lt : α → α → Bool) (ranges : List (List α)) :
    (ranges.map (sort lt)).flatten.Perm ranges.flatten := by
  induction ranges with
  | nil => rfl
  | cons range others ih => exact (sort_perm lt range).append ih

theorem checkCompared_ok {ok : α → Bool} {xs : List α} {message : String}
    (all : ∀ a ∈ xs, ok a = true) : checkCompared ok message xs = .ok () := by
  have none : xs.any (fun a => !ok a) = false := by simpa using all
  rw [checkCompared, if_neg (by simp [none])]
  rfl

/-- A comparison of keys in a linear order is a strict weak order. -/
theorem StrictWeakOrder.of_key [LinearOrder β] (key : α → β)
    (spec : ∀ a b, lt a b = decide (key a < key b)) : StrictWeakOrder lt where
  irrefl a := by simp [spec]
  trans {a b c} ab bc := by
    simp only [spec, decide_eq_true_eq] at ab bc ⊢
    exact ab.trans bc
  split {a b c} ac := by
    simp only [spec, decide_eq_true_eq] at ac ⊢
    rcases lt_or_ge (key a) (key b) with below | above
    · exact .inl below
    · exact .inr (lt_of_le_of_lt above ac)

/-- The key of a range's first element, below every key when the range is empty. -/
def frontKey (key : α → β) : List α → WithBot β
  | [] => ⊥
  | x :: _ => key x

@[simp] theorem frontKey_cons (key : α → β) (x : α) (xs : List α) :
    frontKey key (x :: xs) = key x := rfl

/-- Ranges compared by their first elements compare their `frontKey`s. -/
theorem frontSorter_of_key [LinearOrder β] {key : α → β}
    (spec : ∀ a b, lt a b = decide (key a < key b)) (xs ys : List α) :
    frontSorter lt xs ys = decide (frontKey key xs < frontKey key ys) := by
  cases xs <;> cases ys <;> simp [frontSorter, frontKey, spec]

theorem Distinct.of_key [LinearOrder β] {key : α → β} {xs : List α}
    (spec : ∀ a b, lt a b = decide (key a < key b))
    (injective : ∀ a ∈ xs, ∀ b ∈ xs, key a = key b → a = b) : Distinct lt xs := by
  intro a memA b memB ab ba
  simp only [spec, decide_eq_false_iff_not, not_lt] at ab ba
  exact injective a memA b memB (le_antisymm ba ab)

/-- Under a comparison of keys in a linear order, two elements are equivalent exactly when
their keys are equal. -/
theorem equivalent_iff_of_key [LinearOrder β] {key : α → β}
    (spec : ∀ a b, lt a b = decide (key a < key b)) (a b : α) :
    lt a b = false ∧ lt b a = false ↔ key a = key b := by
  simp only [spec, decide_eq_false_iff_not, not_lt]
  exact ⟨fun ⟨ba, ab⟩ => le_antisymm ab ba, fun same => ⟨same.ge, same.le⟩⟩

theorem Distinct.subset {xs ys : List α} (distinct : Distinct lt xs) (sub : ys ⊆ xs) :
    Distinct lt ys :=
  fun a memA b memB => distinct a (sub memA) b (sub memB)

section Sorted

variable (order : StrictWeakOrder lt)
include order

/-- `sort` meets the postcondition of `std::sort`. -/
theorem StrictWeakOrder.pairwise_sort (xs : List α) :
    (sort lt xs).Pairwise (fun a b => lt b a = false) := by
  have sorted := @List.pairwise_mergeSort _ (fun a b => !lt b a) ?trans ?total xs
  · simpa [sort] using sorted
  case trans =>
    intro a b c ab bc
    simp only [Bool.not_eq_eq_eq_not, Bool.not_true] at ab bc ⊢
    cases ca : lt c a
    · rfl
    -- `c < a` would put `b` above `c` or below `a`
    · rcases order.split ca with cb | ba
      · rw [cb] at bc; contradiction
      · rw [ba] at ab; contradiction
  case total =>
    intro a b
    cases ab : lt a b
    · simp
    · cases ba : lt b a
      · simp
      · have aa := order.trans ab ba
        rw [order.irrefl] at aa
        contradiction

/-- Every order `std::sort` may leave a range of pairwise non-equivalent elements in is
`sort`'s. -/
theorem StrictWeakOrder.eq_sort {xs ys : List α} (distinct : Distinct lt xs) (perm : ys.Perm xs)
    (sorted : ys.Pairwise (fun a b => lt b a = false)) : ys = sort lt xs := by
  refine List.Perm.eq_of_pairwise ?_ sorted (order.pairwise_sort xs)
    (perm.trans (sort_perm lt xs).symm)
  intro a b memA memB ba ab
  exact distinct a (perm.subset memA) b (mem_sort.1 memB) ab ba

/-- Sorting pairwise non-equivalent elements does not depend on the order they come in. -/
theorem StrictWeakOrder.sort_eq_of_perm {xs ys : List α} (distinct : Distinct lt xs)
    (perm : xs.Perm ys) : sort lt xs = sort lt ys :=
  (order.eq_sort distinct ((sort_perm lt ys).trans perm.symm) (order.pairwise_sort ys)).symm

/-- Distinct elements that are pairwise non-equivalent are sorted strictly. -/
theorem StrictWeakOrder.pairwise_lt_sort {xs : List α} (distinct : Distinct lt xs)
    (nodup : xs.Nodup) : (sort lt xs).Pairwise (fun a b => lt a b = true) := by
  have sortedNodup : (sort lt xs).Nodup := (sort_perm lt xs).nodup_iff.mpr nodup
  refine ((order.pairwise_sort xs).and sortedNodup).imp_of_mem ?_
  intro a b memA memB ⟨ba, differ⟩
  cases ab : lt a b
  · exact absurd (distinct a (mem_sort.1 memA) b (mem_sort.1 memB) ab ba) differ
  · rfl

end Sorted

end StdSort
