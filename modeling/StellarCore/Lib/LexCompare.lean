import Mathlib.Order.Defs.LinearOrder
import Mathlib.Order.Defs.Unbundled

/-!
# Three-way comparisons of nested data

A comparison of nested data, such as trees whose nodes hold lists of subtrees compared
lexicographically, is lawful by induction on the data. So the laws are stated of one value
as the first argument: `LawfulAt cmp a`. `List.compareLex` is lawful at every list whose
elements it compares lawfully, and `Ordering.then` of two lawful comparisons of the parts of
a value is lawful at it. Under a comparison lawful everywhere, "not greater" is a total
preorder, which is what sorting by it needs.
-/

set_option autoImplicit false

namespace LexCompare

variable {α β γ : Type} {cmp : α → α → Ordering}

/-- The laws of a three-way comparison with `a` as its first argument. -/
structure LawfulAt (cmp : α → α → Ordering) (a : α) : Prop where
  swap : ∀ b, cmp b a = (cmp a b).swap
  eq_of_eq : ∀ {b}, cmp a b = .eq → a = b
  lt_of_lt_of_isLE : ∀ {b c}, cmp a b = .lt → (cmp b c).isLE → cmp a c = .lt

theorem LawfulAt.isLE_trans {a b c : α} (lawful : LawfulAt cmp a) (ab : (cmp a b).isLE)
    (bc : (cmp b c).isLE) : (cmp a c).isLE := by
  cases order : cmp a b with
  | lt => rw [lawful.lt_of_lt_of_isLE order bc]; rfl
  | eq => rw [lawful.eq_of_eq order]; exact bc
  | gt => rw [order] at ab; contradiction

/-- A linear order's `compare` is lawful everywhere. -/
theorem LawfulAt.compare [LinearOrder β] (a : β) : LawfulAt compare a where
  swap b := by
    rcases lt_trichotomy a b with below | rfl | above
    · rw [compare_lt_iff_lt.mpr below, compare_gt_iff_gt.mpr below]; rfl
    · rw [compare_eq_iff_eq.mpr rfl]; rfl
    · rw [compare_gt_iff_gt.mpr above, compare_lt_iff_lt.mpr above]; rfl
  eq_of_eq := compare_eq_iff_eq.mp
  lt_of_lt_of_isLE {b c} ab bc := by
    have below : b ≤ c := compare_le_iff_le.mp fun gt => by rw [gt] at bc; contradiction
    exact compare_lt_iff_lt.mpr (lt_of_lt_of_le (compare_lt_iff_lt.mp ab) below)

/-- `List.compareLex` is lawful at a list whose elements the comparison is lawful at. -/
theorem LawfulAt.compareLex :
    ∀ {xs : List α}, (∀ x ∈ xs, LawfulAt cmp x) → LawfulAt (List.compareLex cmp) xs
  | [], _ => {
      swap := fun ys => by cases ys <;> rfl
      eq_of_eq := fun {ys} same => by
        cases ys with
        | nil => rfl
        | cons y ys => cases same
      lt_of_lt_of_isLE := fun {ys zs} xy yz => by
        cases zs with
        | nil =>
          cases ys with
          | nil => cases xy
          | cons y ys => cases yz
        | cons z zs => rfl }
  | x :: xs, lawful => by
    have head := lawful x List.mem_cons_self
    have tail := LawfulAt.compareLex fun y member => lawful y (List.mem_cons_of_mem x member)
    refine ⟨fun ys => ?_, fun {ys} same => ?_, fun {ys zs} xy yz => ?_⟩
    · cases ys with
      | nil => rfl
      | cons y ys =>
        rw [List.compareLex_cons_cons, List.compareLex_cons_cons, head.swap, tail.swap,
          Ordering.swap_then]
    · cases ys with
      | nil => cases same
      | cons y ys =>
        rw [List.compareLex_cons_cons, Ordering.then_eq_eq] at same
        rw [head.eq_of_eq same.1, tail.eq_of_eq same.2]
    · cases ys with
      | nil => cases xy
      | cons y ys =>
        cases zs with
        | nil => cases yz
        | cons z zs =>
          rw [List.compareLex_cons_cons, Ordering.then_eq_lt] at xy ⊢
          rw [List.compareLex_cons_cons, Ordering.isLE_then_iff_or] at yz
          -- the first elements decide, or they are equal and the tails decide
          rcases xy with first | ⟨same, rest⟩
          · have yz' : (cmp y z).isLE := by
              rcases yz with less | ⟨equal, -⟩ <;> simp [*]
            exact .inl (head.lt_of_lt_of_isLE first yz')
          · rw [head.eq_of_eq same]
            rcases yz with less | ⟨equal, restLE⟩
            · exact .inl less
            · exact .inr ⟨equal, tail.lt_of_lt_of_isLE rest restLE⟩

/-- Comparing two parts of a value in turn is lawful at a value that the parts determine and
whose parts are compared lawfully. -/
theorem LawfulAt.then {cmp₁ : β → β → Ordering} {cmp₂ : γ → γ → Ordering} {f : α → β}
    {g : α → γ} {a : α} (spec : ∀ x y, cmp x y = (cmp₁ (f x) (f y)).then (cmp₂ (g x) (g y)))
    (first : LawfulAt cmp₁ (f a)) (second : LawfulAt cmp₂ (g a))
    (determined : ∀ b, f a = f b → g a = g b → a = b) : LawfulAt cmp a where
  swap b := by rw [spec, spec, first.swap, second.swap, Ordering.swap_then]
  eq_of_eq {b} same := by
    rw [spec, Ordering.then_eq_eq] at same
    exact determined b (first.eq_of_eq same.1) (second.eq_of_eq same.2)
  lt_of_lt_of_isLE {b c} ab bc := by
    rw [spec, Ordering.then_eq_lt] at ab ⊢
    rw [spec, Ordering.isLE_then_iff_or] at bc
    rcases ab with less | ⟨same, rest⟩
    · have bcFirst : (cmp₁ (f b) (f c)).isLE := by
        rcases bc with below | ⟨equal, -⟩ <;> simp [*]
      exact .inl (first.lt_of_lt_of_isLE less bcFirst)
    · rw [first.eq_of_eq same]
      rcases bc with below | ⟨equal, restLE⟩
      · exact .inl below
      · exact .inr ⟨equal, second.lt_of_lt_of_isLE rest restLE⟩

section Everywhere

variable (lawful : ∀ a, LawfulAt cmp a)
include lawful

/-- "Not greater" is total. -/
theorem total_not_gt : Std.Total fun a b => cmp a b ≠ .gt where
  total a b := by
    rw [(lawful a).swap b]
    cases cmp a b <;> simp

/-- "Not greater" is transitive. -/
theorem trans_not_gt : IsTrans α fun a b => cmp a b ≠ .gt where
  trans a b c ab bc := by
    have le := (lawful a).isLE_trans (Ordering.isLE_iff_ne_gt.mpr ab) (Ordering.isLE_iff_ne_gt.mpr bc)
    exact Ordering.isLE_iff_ne_gt.mp le

end Everywhere

end LexCompare
