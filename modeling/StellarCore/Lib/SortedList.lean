import Mathlib

/-!
# Ordered containers as strictly increasing lists

`std::set` keeps its elements, and `std::map` its keys, in increasing order without
repetition. Modelled as strictly increasing lists, `SortedList.insert` is the set's
insertion, `SortedList.includes` is `std::includes` as the standard library runs it, and
`SortedMap.upsert` is the map's assignment `m[k] = v`. On strictly increasing lists,
`includes` decides inclusion in one pass.
-/

set_option autoImplicit false

namespace SortedList

variable {α : Type} [LinearOrder α]

/-- The equality test of a linear order is lawful. Stated once, so that every definition that
decides membership in a list of such elements uses this one proof. -/
instance lawfulBEq : LawfulBEq α := inferInstance

/-- `std::set::insert`: an element that is already present leaves the set unchanged. -/
def insert (a : α) : List α → List α
  | [] => [a]
  | b :: rest => if a < b then a :: b :: rest else if a = b then b :: rest else b :: insert a rest

/-- `std::includes (first1, last1, first2, last2)`: one pass over both ranges, which
answers whether the second is contained in the first when both are sorted. -/
def includes : List α → List α → Bool
  | _, [] => true
  | [], _ :: _ => false
  | a :: rest, b :: other =>
      if b < a then false else if a < b then includes rest (b :: other) else includes rest other

theorem insert_nil (a : α) : insert a [] = [a] := rfl

theorem insert_cons (a b : α) (rest : List α) : insert a (b :: rest) =
    if a < b then a :: b :: rest else if a = b then b :: rest else b :: insert a rest := rfl

@[simp] theorem mem_insert {a x : α} {l : List α} : x ∈ insert a l ↔ x = a ∨ x ∈ l := by
  induction l with
  | nil => simp [insert_nil]
  | cons b rest ih =>
      rw [insert_cons]
      split_ifs with below same
      · simp
      · subst same
        rw [List.mem_cons]
        exact or_self_left.symm
      · rw [List.mem_cons, List.mem_cons, ih]
        exact or_left_comm

/-- Inserting keeps a set strictly increasing. -/
theorem pairwise_insert {a : α} {l : List α} (sorted : l.Pairwise (· < ·)) :
    (insert a l).Pairwise (· < ·) := by
  induction l with
  | nil => simp [insert_nil]
  | cons b rest ih =>
      obtain ⟨above, sortedRest⟩ := List.pairwise_cons.mp sorted
      rw [insert_cons]
      split_ifs with below same
      · refine List.pairwise_cons.mpr ⟨?_, sorted⟩
        intro x member
        rcases List.mem_cons.mp member with rfl | member
        · exact below
        · exact below.trans (above x member)
      · exact sorted
      · refine List.pairwise_cons.mpr ⟨?_, ih sortedRest⟩
        intro x member
        have split : x = a ∨ x ∈ rest := mem_insert.1 member
        rcases split with rfl | member
        · exact lt_of_le_of_ne (not_lt.mp below) (Ne.symm same)
        · exact above x member

/-- Inserting an element of a set leaves it unchanged (`insert(...).second` is false). -/
theorem insert_of_mem {a : α} {l : List α} (sorted : l.Pairwise (· < ·)) (member : a ∈ l) :
    insert a l = l := by
  induction l with
  | nil => simp at member
  | cons b rest ih =>
      obtain ⟨above, sortedRest⟩ := List.pairwise_cons.mp sorted
      rw [insert_cons]
      split_ifs with below same
      · -- every element of a sorted list is at least its head
        rcases List.mem_cons.mp member with rfl | inRest
        · exact absurd below (lt_irrefl a)
        · exact absurd (above a inRest) (lt_asymm below)
      · rfl
      · rcases List.mem_cons.mp member with rfl | inRest
        · exact absurd rfl same
        · rw [ih sortedRest inRest]

/-- Inserting a new element makes the set one longer. -/
theorem length_insert_of_not_mem {a : α} {l : List α} (absent : a ∉ l) :
    (insert a l).length = l.length + 1 := by
  induction l with
  | nil => rfl
  | cons b rest ih =>
      have fresh : a ≠ b := fun same => absent (same ▸ List.mem_cons_self)
      have absentRest : a ∉ rest := fun member => absent (List.mem_cons_of_mem b member)
      rw [insert_cons]
      simp only [fresh, if_false]
      split_ifs
      · rfl
      · simp [ih absentRest]

/-- Inserting a new element is adding it, up to order. -/
theorem insert_perm {a : α} {l : List α} (sorted : l.Pairwise (· < ·)) (absent : a ∉ l) :
    (insert a l).Perm (a :: l) := by
  refine (List.perm_ext_iff_of_nodup (pairwise_insert sorted).nodup
    (List.nodup_cons.mpr ⟨absent, sorted.nodup⟩)).mpr fun x => ?_
  simp

/-- The set after inserting the elements of `l` in turn. -/
def insertAll (l set : List α) : List α := l.foldl (fun set a => insert a set) set

theorem insertAll_append (l l' set : List α) :
    insertAll (l ++ l') set = insertAll l' (insertAll l set) :=
  List.foldl_append

theorem pairwise_insertAll : ∀ (l : List α) {set : List α}, set.Pairwise (· < ·) →
    (insertAll l set).Pairwise (· < ·)
  | [], _, sorted => sorted
  | _ :: rest, _, sorted => pairwise_insertAll rest (pairwise_insert sorted)

/-- Inserting distinct new elements is appending them, up to order. -/
theorem insertAll_perm : ∀ (l : List α) {set : List α}, set.Pairwise (· < ·) →
    (set ++ l).Nodup → (insertAll l set).Perm (set ++ l)
  | [], set, _, _ => by simp [insertAll]
  | a :: rest, set, sorted, nodup => by
    have absent : a ∉ set := fun member =>
      (List.nodup_append.mp nodup).2.2 a member a List.mem_cons_self rfl
    have moved : (insert a set ++ rest).Perm (set ++ a :: rest) :=
      ((insert_perm sorted absent).append_right rest).trans List.perm_middle.symm
    exact (insertAll_perm rest (pairwise_insert sorted) (moved.nodup_iff.mpr nodup)).trans moved

/-- After inserting distinct new elements, more elements are new exactly when they would have
been new before. -/
theorem nodup_insertAll_append {set l l' : List α} (sorted : set.Pairwise (· < ·))
    (nodup : (set ++ l).Nodup) : (insertAll l set ++ l').Nodup ↔ (set ++ (l ++ l')).Nodup := by
  rw [← List.append_assoc]
  exact ((insertAll_perm l sorted nodup).append_right l').nodup_iff

/-- In a strictly increasing list, every element below the first one a search finds fails
the search. -/
theorem find?_sorted {p : α → Bool} {l : List α} {found : α} (sorted : l.Pairwise (· < ·))
    (first : l.find? p = some found) : ∀ a ∈ l, a < found → p a = false := by
  obtain ⟨-, before, after, rfl, skipped⟩ := List.find?_eq_some_iff_append.mp first
  intro a member below
  rcases List.mem_append.mp member with earlier | later
  · simpa using skipped a earlier
  · -- everything from the found element on is at least it
    have atLeast : ∀ b ∈ found :: after, found ≤ b := by
      intro b inRest
      rcases List.mem_cons.mp inRest with rfl | inAfter
      · exact le_refl _
      · exact le_of_lt ((List.pairwise_cons.mp (List.pairwise_append.mp sorted).2.1).1 b inAfter)
    exact absurd below (not_lt.mpr (atLeast a later))

/-- On strictly increasing lists, `std::includes` decides inclusion. -/
theorem includes_iff {l m : List α} (sortedL : l.Pairwise (· < ·))
    (sortedM : m.Pairwise (· < ·)) : includes l m = true ↔ m ⊆ l := by
  induction l generalizing m with
  | nil =>
      cases m with
      | nil => simp [includes]
      | cons b other => simp [includes]
  | cons a rest ih =>
      obtain ⟨aboveA, sortedRest⟩ := List.pairwise_cons.mp sortedL
      cases m with
      | nil => simp [includes]
      | cons b other =>
          obtain ⟨aboveB, sortedOther⟩ := List.pairwise_cons.mp sortedM
          unfold includes
          split_ifs with below above
          · -- `b` lies below every element of `a :: rest`
            simp only [false_iff]
            intro covered
            rcases List.mem_cons.mp (covered List.mem_cons_self) with same | inRest
            · exact lt_irrefl a (same ▸ below)
            · exact lt_asymm below (aboveA b inRest)
          · -- `a` lies below every element of `b :: other`, so `a` covers none of them
            rw [ih sortedRest sortedM]
            constructor
            · exact fun covered => List.Subset.trans covered (List.subset_cons_self a rest)
            · intro covered x member
              rcases List.mem_cons.mp (covered member) with rfl | inRest
              · rcases List.mem_cons.mp member with same | inOther
                · exact absurd (same ▸ above) (lt_irrefl x)
                · exact absurd (above.trans (aboveB x inOther)) (lt_irrefl x)
              · exact inRest
          · -- `a = b`: match the heads and compare the tails
            have same : a = b := le_antisymm (not_lt.mp below) (not_lt.mp above)
            subst same
            rw [ih sortedRest sortedOther, List.cons_subset]
            constructor
            · intro covered
              refine ⟨List.mem_cons_self, List.Subset.trans covered (List.subset_cons_self a rest)⟩
            · rintro ⟨-, covered⟩ x member
              rcases List.mem_cons.mp (covered member) with rfl | inRest
              · exact absurd (aboveB x member) (lt_irrefl x)
              · exact inRest

end SortedList

namespace SortedMap

variable {κ β : Type} [LinearOrder κ]

/-- The value a `std::map` holds for a key (`find`). -/
def lookup (k : κ) : List (κ × β) → Option β
  | [] => none
  | (k', v) :: rest => if k' = k then some v else lookup k rest

/-- `m[k] = v` on a `std::map`: the entry for `k` is replaced, or inserted in key order. -/
def upsert (k : κ) (v : β) : List (κ × β) → List (κ × β)
  | [] => [(k, v)]
  | (k', v') :: rest =>
      if k < k' then (k, v) :: (k', v') :: rest
      else if k = k' then (k, v) :: rest
      else (k', v') :: upsert k v rest

@[simp] theorem lookup_nil (k : κ) : lookup k ([] : List (κ × β)) = none := rfl

theorem lookup_cons (k k' : κ) (v : β) (rest : List (κ × β)) :
    lookup k ((k', v) :: rest) = if k' = k then some v else lookup k rest := rfl

theorem upsert_nil (k : κ) (v : β) : upsert k v [] = [(k, v)] := rfl

theorem upsert_cons (k k' : κ) (v v' : β) (rest : List (κ × β)) :
    upsert k v ((k', v') :: rest) =
      if k < k' then (k, v) :: (k', v') :: rest
      else if k = k' then (k, v) :: rest
      else (k', v') :: upsert k v rest := rfl

@[simp] theorem lookup_upsert_self (k : κ) (v : β) (l : List (κ × β)) :
    lookup k (upsert k v l) = some v := by
  induction l with
  | nil => simp [upsert_nil, lookup_cons]
  | cons entry rest ih =>
      obtain ⟨key, value⟩ := entry
      rw [upsert_cons]
      split_ifs with below same
      · simp [lookup_cons]
      · simp [lookup_cons]
      · simp [lookup_cons, ih, Ne.symm same]

theorem lookup_upsert_of_ne {k k' : κ} (v : β) (l : List (κ × β)) (other : k ≠ k') :
    lookup k' (upsert k v l) = lookup k' l := by
  induction l with
  | nil => simp [upsert_nil, lookup_cons, other]
  | cons entry rest ih =>
      obtain ⟨key, value⟩ := entry
      rw [upsert_cons]
      split_ifs with below same
      · simp [lookup_cons, other]
      · subst same
        simp [lookup_cons, other]
      · simp [lookup_cons, ih]

theorem mem_upsert {k : κ} {v : β} {l : List (κ × β)} {entry : κ × β}
    (member : entry ∈ upsert k v l) : entry = (k, v) ∨ entry ∈ l := by
  induction l with
  | nil => simpa [upsert_nil] using member
  | cons head rest ih =>
      obtain ⟨key, value⟩ := head
      rw [upsert_cons] at member
      split_ifs at member
      · simpa using member
      · rcases List.mem_cons.mp member with rfl | inRest
        · exact .inl rfl
        · exact .inr (List.mem_cons_of_mem _ inRest)
      · rcases List.mem_cons.mp member with rfl | inRest
        · exact .inr List.mem_cons_self
        · rcases ih inRest with rfl | inRest
          · exact .inl rfl
          · exact .inr (List.mem_cons_of_mem _ inRest)

theorem mem_of_lookup {k : κ} {v : β} {l : List (κ × β)} (found : lookup k l = some v) :
    (k, v) ∈ l := by
  induction l with
  | nil => simp at found
  | cons head rest ih =>
      obtain ⟨key, value⟩ := head
      rw [lookup_cons] at found
      split_ifs at found with same
      · subst same
        simp only [Option.some.injEq] at found
        subst found
        exact List.mem_cons_self
      · exact List.mem_cons_of_mem _ (ih found)

/-- On distinct keys, an entry is what the map holds for its key. -/
theorem lookup_of_mem {k : κ} {v : β} {l : List (κ × β)} (keys : (l.map Prod.fst).Nodup)
    (member : (k, v) ∈ l) : lookup k l = some v := by
  induction l with
  | nil => simp at member
  | cons head rest ih =>
      obtain ⟨key, value⟩ := head
      rw [List.map_cons, List.nodup_cons] at keys
      rcases List.mem_cons.mp member with same | later
      · simp only [Prod.mk.injEq] at same
        obtain ⟨rfl, rfl⟩ := same
        simp [lookup_cons]
      · have inKeys : k ∈ rest.map Prod.fst := List.mem_map.mpr ⟨_, later, rfl⟩
        have other : key ≠ k := fun same => keys.1 (same ▸ inKeys)
        simp only [lookup_cons, other, if_false]
        exact ih keys.2 later

theorem lookup_eq_none_of_not_mem {k : κ} {l : List (κ × β)} (absent : k ∉ l.map Prod.fst) :
    lookup k l = none := by
  cases found : lookup k l with
  | none => rfl
  | some v => exact absurd (List.mem_map.mpr ⟨_, mem_of_lookup found, rfl⟩) absent

theorem mem_keys_upsert {k k' : κ} {v : β} {l : List (κ × β)} :
    k' ∈ (upsert k v l).map Prod.fst ↔ k' = k ∨ k' ∈ l.map Prod.fst := by
  induction l with
  | nil => simp [upsert_nil]
  | cons head rest ih =>
      obtain ⟨key, value⟩ := head
      rw [upsert_cons]
      split_ifs with below same
      · simp only [List.map_cons, List.mem_cons]
      · subst same
        simp only [List.map_cons, List.mem_cons]
        exact or_self_left.symm
      · simp only [List.map_cons, List.mem_cons, ih]
        exact or_left_comm

/-- Assignment keeps the keys of a map strictly increasing. -/
theorem sorted_upsert {k : κ} {v : β} {l : List (κ × β)}
    (sorted : (l.map Prod.fst).Pairwise (· < ·)) :
    ((upsert k v l).map Prod.fst).Pairwise (· < ·) := by
  induction l with
  | nil => simp [upsert_nil]
  | cons head rest ih =>
      obtain ⟨key, value⟩ := head
      rw [List.map_cons, List.pairwise_cons] at sorted
      obtain ⟨above, sortedRest⟩ := sorted
      rw [upsert_cons]
      split_ifs with below same
      · rw [List.map_cons, List.pairwise_cons]
        refine ⟨fun k' member => ?_, by
          rw [List.map_cons, List.pairwise_cons]
          exact ⟨above, sortedRest⟩⟩
        have listed : k' ∈ key :: rest.map Prod.fst := member
        rcases List.mem_cons.mp listed with rfl | later
        · exact below
        · exact below.trans (above k' later)
      · subst same
        rw [List.map_cons, List.pairwise_cons]
        exact ⟨above, sortedRest⟩
      · rw [List.map_cons, List.pairwise_cons]
        refine ⟨fun k' member => ?_, ih sortedRest⟩
        have split : k' = k ∨ k' ∈ rest.map Prod.fst := mem_keys_upsert.1 member
        rcases split with rfl | later
        · exact lt_of_le_of_ne (not_lt.mp below) (Ne.symm same)
        · exact above k' later

/-- Two maps with strictly increasing keys that hold the same value for every key are equal. -/
theorem eq_of_lookup_eq : ∀ {l l' : List (κ × β)}, (l.map Prod.fst).Pairwise (· < ·) →
    (l'.map Prod.fst).Pairwise (· < ·) → (∀ k, lookup k l = lookup k l') → l = l'
  | [], [], _, _, _ => rfl
  | [], (k, v) :: _, _, _, same => by simpa [lookup_cons] using same k
  | (k, v) :: _, [], _, _, same => by simpa [lookup_cons] using same k
  | (k, v) :: rest, (k', v') :: rest', sorted, sorted', same => by
      rw [List.map_cons, List.pairwise_cons] at sorted sorted'
      -- a key below the other map's first key is in neither map's rest
      have absent : ∀ {j : κ} {tail : List (κ × β)} {first : κ},
          (∀ k ∈ tail.map Prod.fst, first < k) → j ≤ first → lookup j tail = none :=
        fun {j} {tail} {first} above atMost => lookup_eq_none_of_not_mem fun member =>
          absurd (above j member) (not_lt.mpr atMost)
      have heads : k = k' := by
        by_contra differ
        rcases lt_or_gt_of_ne differ with below | below
        · have := same k
          simp [lookup_cons, Ne.symm differ, absent sorted'.1 below.le] at this
        · have := same k'
          simp [lookup_cons, differ, absent sorted.1 below.le] at this
      subst heads
      have values : v = v' := by simpa [lookup_cons] using same k
      subst values
      refine congrArg _ (eq_of_lookup_eq sorted.2 sorted'.2 fun j => ?_)
      by_cases at_k : j = k
      · subst at_k
        rw [absent sorted.1 le_rfl, absent sorted'.1 le_rfl]
      · simpa [lookup_cons, Ne.symm at_k] using same j

end SortedMap
