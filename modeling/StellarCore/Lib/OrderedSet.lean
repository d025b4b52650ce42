import StellarCore.Lib.StdSort
import Mathlib.Data.List.Perm.Basic

/-!
# `std::set` under a comparator

A set ordered by `comp` is the list of its elements in that order. `insert` walks to the first
element the new one is `comp`-less than and reports whether it inserted: it leaves the set as
it is when it meets an element equivalent to the new one, neither less than the other. `find`
looks for an equivalent element. Whatever the comparator, an insertion that reports success
adds exactly the new element; under a strict weak order it keeps the set sorted.
-/

set_option autoImplicit false

namespace OrderedSet

variable {α : Type} (comp : α → α → Bool)

/-- `std::set::insert`, with the flag of the pair it returns. -/
def insert (a : α) : List α → List α × Bool
  | [] => ([a], true)
  | b :: rest =>
      if comp a b then (a :: b :: rest, true)
      else if comp b a then ((b :: (insert a rest).1), (insert a rest).2)
      else (b :: rest, false)

/-- `std::set::find`: an element equivalent to `a`. -/
def find (a : α) (set : List α) : Option α := set.find? fun b => !comp b a && !comp a b

variable {comp}

theorem insert_cons (a b : α) (rest : List α) : insert comp a (b :: rest) =
    if comp a b then (a :: b :: rest, true)
    else if comp b a then ((b :: (insert comp a rest).1), (insert comp a rest).2)
    else (b :: rest, false) := rfl

/-- An insertion either adds exactly the new element or leaves the set as it was. -/
theorem insert_cases (a : α) :
    ∀ l : List α, (insert comp a l).2 = true ∧ (insert comp a l).1.Perm (a :: l) ∨
      insert comp a l = (l, false)
  | [] => .inl ⟨rfl, .refl _⟩
  | b :: rest => by
      rw [insert_cons]
      split
      · exact .inl ⟨rfl, .refl _⟩
      split
      · rcases insert_cases a rest with ⟨inserted, perm⟩ | kept
        · exact .inl ⟨inserted, (perm.cons b).trans (.swap a b rest)⟩
        · rw [kept]
          exact .inr rfl
      · exact .inr rfl

/-- Insertion reads the comparator only between the new element and the set's elements. -/
theorem insert_congr {comp' : α → α → Bool} {a : α} :
    ∀ {l : List α}, (∀ b ∈ l, comp a b = comp' a b ∧ comp b a = comp' b a) →
      insert comp a l = insert comp' a l
  | [], _ => rfl
  | b :: rest, agree => by
      obtain ⟨before, after⟩ := agree b List.mem_cons_self
      have agreeRest : ∀ c ∈ rest, comp a c = comp' a c ∧ comp c a = comp' c a :=
        fun c member => agree c (List.mem_cons_of_mem b member)
      simp only [insert_cons, before, after, insert_congr agreeRest]

theorem find_eq_some {a b : α} {set : List α} (found : find comp a set = some b) :
    b ∈ set ∧ comp b a = false ∧ comp a b = false := by
  have equivalent := List.find?_some found
  simp only [Bool.and_eq_true, Bool.not_eq_true'] at equivalent
  exact ⟨List.mem_of_find?_eq_some found, equivalent⟩

/-- `find` returns the element itself when the comparator orders it against every other
element of the set. -/
theorem find_eq_self {a : α} (irrefl : comp a a = false) :
    ∀ {set : List α}, a ∈ set → (∀ b ∈ set, b ≠ a → comp b a = true ∨ comp a b = true) →
      find comp a set = some a
  | b :: rest, member, comparable => by
      unfold find
      rw [List.find?_cons]
      by_cases same : b = a
      · subst same
        simp [irrefl]
      · have later : a ∈ rest := (List.mem_cons.mp member).resolve_left (Ne.symm same)
        have unequal : (!comp b a && !comp a b) = false := by
          rcases comparable b List.mem_cons_self same with below | above
          · simp [below]
          · simp [above]
        rw [unequal]
        exact find_eq_self irrefl later fun c inRest => comparable c (List.mem_cons_of_mem b inRest)

section StrictWeakOrder

variable (order : StdSort.StrictWeakOrder comp)
include order

/-- Under a strict weak order, inserting an element that is comparable with every element of
a sorted set inserts it and keeps the set sorted. -/
theorem insert_sorted {a : α} :
    ∀ {l : List α}, l.Pairwise (fun x y => comp x y = true) →
      (∀ b ∈ l, comp a b = true ∨ comp b a = true) →
      (insert comp a l).2 = true ∧ (insert comp a l).1.Pairwise (fun x y => comp x y = true)
  | [], _, _ => ⟨rfl, List.pairwise_singleton _ a⟩
  | b :: rest, sorted, comparable => by
      obtain ⟨first, sortedRest⟩ := List.pairwise_cons.mp sorted
      rw [insert_cons]
      split
      · next below =>
          refine ⟨rfl, List.pairwise_cons.mpr ⟨fun c member => ?_, sorted⟩⟩
          rcases List.mem_cons.mp member with rfl | later
          · exact below
          · exact order.trans below (first c later)
      split
      · next _ above =>
          obtain ⟨inserted, sortedSet⟩ :=
            insert_sorted sortedRest fun c member => comparable c (List.mem_cons_of_mem b member)
          have perm := ((insert_cases a rest).resolve_right fun kept => by
            rw [kept] at inserted; cases inserted).2
          refine ⟨inserted, List.pairwise_cons.mpr ⟨fun c member => ?_, sortedSet⟩⟩
          rcases List.mem_cons.mp (perm.subset member) with rfl | later
          · exact above
          · exact first c later
      · next below above =>
          rcases comparable b List.mem_cons_self with less | less
          · exact absurd less below
          · exact absurd less above

/-- Inserting an element already in a sorted set leaves the set as it is. -/
theorem insert_of_mem {a : α} :
    ∀ {l : List α}, l.Pairwise (fun x y => comp x y = true) → a ∈ l → insert comp a l = (l, false)
  | b :: rest, sorted, member => by
      obtain ⟨first, sortedRest⟩ := List.pairwise_cons.mp sorted
      rw [insert_cons]
      rcases List.mem_cons.mp member with rfl | later
      · simp [order.irrefl]
      · have below : comp b a = true := first a later
        have notAbove : comp a b = false := by
          cases above : comp a b with
          | false => rfl
          | true => simpa [order.irrefl] using order.trans below above
        rw [if_neg (by simp [notAbove]), if_pos below, insert_of_mem sortedRest later]

end StrictWeakOrder

end OrderedSet
