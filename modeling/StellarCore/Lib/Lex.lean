import Mathlib.Order.Defs.LinearOrder
import Mathlib.Data.Sigma.Order

/-!
# Lexicographic strict orders, and the order of `Option`

A lexicographic comparison is a strict order on the first component and, on a tie, the
comparison of the rest. `LexOrder.trans_step` and `LexOrder.irrefl_step` are the two facts one
level of such a comparison passes down, so that a comparison of several levels is transitive
and irreflexive by one application per level.

On a sigma type ordered lexicographically, two elements of one index compare as in that
index's type, and elements of two indices compare as the indices.

`Option` is ordered by the core instances, with `none` below every `some`; over a preorder
this order is transitive and its strict part irreflexive.
-/

set_option autoImplicit false

namespace LexOrder

variable {α : Type} [LT α] {a b c : α} {P Q R : Prop}

/-- One level of a lexicographic order passes transitivity down from the levels below. -/
theorem trans_step (lt_trans : ∀ {x y z : α}, x < y → y < z → x < z) (rest : P → Q → R) :
    (a < b ∨ a = b ∧ P) → (b < c ∨ b = c ∧ Q) → (a < c ∨ a = c ∧ R)
  | .inl below, .inl below' => .inl (lt_trans below below')
  | .inl below, .inr ⟨same, _⟩ => .inl (same ▸ below)
  | .inr ⟨same, _⟩, .inl below' => .inl (same ▸ below')
  | .inr ⟨same, p⟩, .inr ⟨same', q⟩ => .inr ⟨same.trans same', rest p q⟩

/-- One level of a lexicographic order passes irreflexivity down from the levels below. -/
theorem irrefl_step (lt_irrefl : ¬a < a) (rest : ¬P) : ¬(a < a ∨ a = a ∧ P)
  | .inl below => lt_irrefl below
  | .inr ⟨_, p⟩ => rest p

end LexOrder

namespace SigmaLexOrder

variable {ι : Type} {α : ι → Type}

theorem mk_lt_mk_iff [Preorder ι] [∀ i, LT (α i)] {i : ι} {a b : α i} :
    toLex (⟨i, a⟩ : Sigma α) < toLex ⟨i, b⟩ ↔ a < b := by
  show Sigma.Lex (· < ·) (fun _ => (· < ·)) ⟨i, a⟩ ⟨i, b⟩ ↔ a < b
  rw [Sigma.lex_iff]
  simp

theorem mk_lt_mk_of_lt [LT ι] [∀ i, LT (α i)] {i j : ι} (below : i < j) (a : α i) (b : α j) :
    toLex (⟨i, a⟩ : Sigma α) < toLex ⟨j, b⟩ :=
  Sigma.Lex.left a b below

end SigmaLexOrder

namespace OptionOrder

variable {α : Type} [Preorder α]

theorem lt_of_lt_lt {a b c : Option α} (below : a < b) (below' : b < c) : a < c := by
  cases a with
  | none => cases b <;> cases c <;> simp_all
  | some x =>
      cases b with
      | none => simp at below
      | some y =>
          cases c with
          | none => simp at below'
          | some z =>
              rw [Option.some_lt_some] at below below' ⊢
              exact lt_trans below below'

theorem not_lt_self (a : Option α) : ¬a < a := by
  cases a with
  | none => simp
  | some x => simp

end OptionOrder
