import Mathlib.Data.List.Basic

/-!
# Shrinking a list to its greatest self-supporting part

A round keeps the elements of a list that the list itself supports, and rounds repeat until
one drops nothing. When support only grows with the list, every part of the start whose
elements all support themselves inside it survives every round, and a loop given one round
more than the length of the start stops at a list that supports all its elements: a round
that does not stop drops an element. The result is then the greatest self-supporting part.
-/

set_option autoImplicit false

namespace Shrink

variable {α : Type} (keep : List α → α → Bool)

/-- One round: keep the elements the current list supports. -/
def round (current : List α) : List α := current.filter (keep current)

/-- Rounds until one drops nothing, at most `fuel` of them. -/
def loop : Nat → List α → List α
  | 0, current => current
  | fuel + 1, current =>
      if current.length = (round keep current).length then round keep current
      else loop fuel (round keep current)

/-- Every element of `part` is supported by `part` itself. -/
def Supported (part : List α) : Prop := ∀ a ∈ part, keep part a = true

/-- Support only grows with the list. -/
def Monotone : Prop := ∀ {small large : List α}, small ⊆ large → ∀ a, keep small a = true →
  keep large a = true

variable {keep}

theorem loop_succ (fuel : Nat) (current : List α) : loop keep (fuel + 1) current =
    if current.length = (round keep current).length then round keep current
    else loop keep fuel (round keep current) := rfl

theorem round_sublist (current : List α) : (round keep current).Sublist current :=
  List.filter_sublist

/-- A round that drops nothing leaves the list as it is. -/
theorem round_eq_of_length {current : List α}
    (same : current.length = (round keep current).length) : round keep current = current :=
  (round_sublist current).eq_of_length same.symm

theorem supported_of_round_eq {current : List α} (fixed : round keep current = current) :
    Supported keep current := by
  intro a member
  rw [← fixed] at member
  exact (List.mem_filter.mp member).2

/-- A self-supporting part of the list survives a round. -/
theorem subset_round (mono : Monotone keep) {part current : List α} (sub : part ⊆ current)
    (supported : Supported keep part) : part ⊆ round keep current := fun a member =>
  List.mem_filter.mpr ⟨sub member, mono sub a (supported a member)⟩

theorem loop_sublist : ∀ (fuel : Nat) (current : List α), (loop keep fuel current).Sublist current
  | 0, _ => List.Sublist.refl _
  | fuel + 1, current => by
      rw [loop_succ]
      split
      · exact round_sublist current
      · exact (loop_sublist fuel _).trans (round_sublist current)

/-- Every self-supporting part of the start survives the whole loop. -/
theorem subset_loop (mono : Monotone keep) {part : List α} (supported : Supported keep part) :
    ∀ (fuel : Nat) (current : List α), part ⊆ current → part ⊆ loop keep fuel current
  | 0, _, sub => sub
  | fuel + 1, current, sub => by
      have kept := subset_round mono sub supported
      rw [loop_succ]
      split
      · exact kept
      · exact subset_loop mono supported fuel _ kept

/-- Given more rounds than the start has elements, the loop stops at a fixpoint of the round:
each round before it drops an element. -/
theorem round_loop :
    ∀ (fuel : Nat) (current : List α), current.length < fuel →
      round keep (loop keep fuel current) = loop keep fuel current
  | 0, _, enough => absurd enough (Nat.not_lt_zero _)
  | fuel + 1, current, enough => by
      rw [loop_succ]
      split
      · next same => rw [round_eq_of_length same, round_eq_of_length same]
      · next dropped =>
          have shorter : (round keep current).length < current.length :=
            Nat.lt_of_le_of_ne (round_sublist current).length_le (Ne.symm dropped)
          exact round_loop fuel _ (by omega)

theorem loop_supported {fuel : Nat} {current : List α} (enough : current.length < fuel) :
    Supported keep (loop keep fuel current) :=
  supported_of_round_eq (round_loop fuel current enough)

end Shrink
