import Mathlib.Algebra.Order.BigOperators.Group.List
import Mathlib.Algebra.Order.Monoid.Defs
import Mathlib.Data.List.Perm.Subperm

/-!
# Picks from a list: how many, and the least sum

Of all the ways to pick `k` elements of a list, the first `k` of the list sorted increasingly
have the least sum. So a greedy choice of the cheapest items is optimal whenever any `k` items
will do; with nonnegative elements, picking more costs no less.

Counting the members of a pick: a list of distinct elements holds each element of a pick at
most once, and membership in two disjoint lists is counted by adding.
-/

set_option autoImplicit false

namespace LeastSum

variable {α : Type} [AddCommMonoid α] [LinearOrder α] [IsOrderedAddMonoid α]

/-- The first `s.length` elements of a sorted list sum to no more than the elements `s` picked
from it, by induction on the list: its head is either picked, or no greater than any pick. -/
theorem sum_take_le_of_subperm : ∀ {l s : List α}, l.Pairwise (· ≤ ·) → s.Subperm l →
    (l.take s.length).sum ≤ s.sum
  | [], s, _, picked => by
    rw [List.subperm_nil.mp picked]
    rfl
  | a :: l, s, sorted, picked => by
    obtain ⟨least, sorted⟩ := List.pairwise_cons.mp sorted
    by_cases member : a ∈ s
    · have perm := List.perm_cons_erase member
      have rest : (s.erase a).Subperm l := by simpa using picked.erase a
      rw [perm.length_eq, List.length_cons, List.take_succ_cons, List.sum_cons, perm.sum_eq,
        List.sum_cons]
      exact add_le_add_right (sum_take_le_of_subperm sorted rest) a
    · have rest : s.Subperm l := by simpa [List.erase_of_not_mem member] using picked.erase a
      cases s with
      | nil => exact le_refl _
      | cons b s =>
        have within : s.length < l.length := rest.length_le
        have more := sum_take_le_of_subperm sorted rest
        rw [List.length_cons, List.sum_take_succ l s.length within] at more
        rw [List.length_cons, List.take_succ_cons, List.sum_cons]
        calc a + (l.take s.length).sum
            ≤ l[s.length] + (l.take s.length).sum :=
              add_le_add_left (least _ (List.getElem_mem within)) _
          _ = (l.take s.length).sum + l[s.length] := add_comm _ _
          _ ≤ (b :: s).sum := more

/-- Of nonnegative elements, the first `m` sum to no more than the first `n ≥ m`. -/
theorem sum_take_le_sum_take {l : List α} (nonneg : ∀ a ∈ l, 0 ≤ a) {m n : Nat} (fewer : m ≤ n) :
    (l.take m).sum ≤ (l.take n).sum :=
  (List.take_sublist_take_left fewer).sum_le_sum fun a member =>
    nonneg a (List.mem_of_mem_take member)

/-- Picking at least `k` nonnegative elements of a sorted list costs no less than its first `k`. -/
theorem sum_take_le_of_subperm_of_le {l s : List α} (sorted : l.Pairwise (· ≤ ·))
    (nonneg : ∀ a ∈ l, 0 ≤ a) (picked : s.Subperm l) {k : Nat} (enough : k ≤ s.length) :
    (l.take k).sum ≤ s.sum :=
  (sum_take_le_sum_take nonneg enough).trans (sum_take_le_of_subperm sorted picked)

section Counting

variable {β : Type} [DecidableEq β]

omit [DecidableEq β] in
/-- Elements satisfying one of two predicates that no element satisfies both are counted by
adding. -/
theorem countP_or_of_disjoint {p q : β → Bool} (l : List β)
    (disjoint : ∀ b ∈ l, p b = true → q b = false) :
    l.countP (fun b => p b || q b) = l.countP p + l.countP q := by
  induction l with
  | nil => rfl
  | cons b l ih =>
    have head := disjoint b List.mem_cons_self
    rw [List.countP_cons, List.countP_cons, List.countP_cons,
      ih fun c member => disjoint c (List.mem_cons_of_mem b member)]
    cases hp : p b <;> cases hq : q b <;> simp_all <;> omega

/-- A list of distinct elements holds each element of a pick of distinct ones of it once. -/
theorem countP_mem_of_subset {l picked : List β} (nodup : l.Nodup) (distinct : picked.Nodup)
    (sub : picked ⊆ l) : l.countP (· ∈ picked) = picked.length := by
  rw [List.countP_eq_length_filter]
  refine ((List.perm_ext_iff_of_nodup (nodup.filter _) distinct).mpr fun b => ?_).length_eq
  simp only [List.mem_filter, decide_eq_true_eq]
  exact ⟨And.right, fun member => ⟨sub member, member⟩⟩

/-- The distinct elements of `l` that `others` holds are no more than the elements of `others`
that are in `l`. -/
theorem countP_mem_le_countP_mem {l : List β} (nodup : l.Nodup) (others : List β) :
    l.countP (· ∈ others) ≤ others.countP (· ∈ l) := by
  rw [List.countP_eq_length_filter, List.countP_eq_length_filter]
  refine (List.Nodup.subperm (nodup.filter _) fun b member => ?_).length_le
  simp only [List.mem_filter, decide_eq_true_eq] at member ⊢
  exact ⟨member.2, member.1⟩

/-- Membership in two disjoint lists is counted by adding. -/
theorem countP_mem_append {A B : List β} (disjoint : ∀ b ∈ A, b ∉ B) (others : List β) :
    others.countP (· ∈ A ++ B) = others.countP (· ∈ A) + others.countP (· ∈ B) := by
  rw [← countP_or_of_disjoint others fun b _ inA => by simpa using disjoint b (by simpa using inA)]
  exact List.countP_congr fun b _ => by simp

end Counting

end LeastSum
