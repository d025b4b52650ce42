import Mathlib

/-!
# Strongly connected components

Two elements are in one strongly connected component of a relation when each reaches the
other along it. A decomposition lists the components as finite sets: every element is in
exactly one, two elements share one exactly when they reach each other, and an edge between
two components goes from a later one to an earlier one. The components are fixed by the
relation, so a decomposition lists exactly the nonempty components. A list built by appending
components, each of whose edges leads into itself or into a component already listed, is in
that order.
-/

set_option autoImplicit false

namespace Components

open Relation

variable {α : Type} (r : α → α → Prop)

/-- `x` and `y` reach each other along `r`. -/
def Mutual (x y : α) : Prop := ReflTransGen r x y ∧ ReflTransGen r y x

variable {r}

theorem Mutual.refl (x : α) : Mutual r x x := ⟨.refl, .refl⟩

theorem Mutual.symm {x y : α} (both : Mutual r x y) : Mutual r y x := ⟨both.2, both.1⟩

theorem Mutual.trans {x y z : α} (xy : Mutual r x y) (yz : Mutual r y z) : Mutual r x z :=
  ⟨xy.1.trans yz.1, yz.2.trans xy.2⟩

/-- A path from inside `s` to outside it crosses one edge that leaves `s`. -/
theorem exists_exit {s : Set α} {a b : α} (path : ReflTransGen r a b) (start : a ∈ s)
    (outside : b ∉ s) :
    ∃ x y, x ∈ s ∧ y ∉ s ∧ r x y ∧ ReflTransGen r a x ∧ ReflTransGen r y b := by
  induction path with
  | refl => exact absurd start outside
  | @tail c d _ edge ih =>
      by_cases inside : c ∈ s
      · exact ⟨c, d, inside, outside, edge, ‹ReflTransGen r a c›, .refl⟩
      · obtain ⟨x, y, xIn, yOut, xy, ax, yc⟩ := ih inside
        exact ⟨x, y, xIn, yOut, xy, ax, yc.tail edge⟩

variable (r)

/-- `C` is the component of each of its members. -/
def IsComponent (C : Finset α) : Prop := ∀ x ∈ C, ∀ y, y ∈ C ↔ Mutual r x y

/-- Every edge out of a listed set goes into it or into a set listed before it. -/
def EdgesEarlier (cs : List (Finset α)) : Prop :=
  ∀ pre C post, cs = pre ++ C :: post →
    ∀ x ∈ C, ∀ y, r x y → y ∈ C ∨ ∃ D ∈ pre, y ∈ D

/-- The strongly connected components of `r`, each listed once, in reverse topological order. -/
structure IsDecomposition (cs : List (Finset α)) : Prop where
  nonempty : ∀ C ∈ cs, C.Nonempty
  cover : ∀ x, ∃ C ∈ cs, x ∈ C
  disjoint : cs.Pairwise Disjoint
  same_iff : ∀ x y, (∃ C ∈ cs, x ∈ C ∧ y ∈ C) ↔ Mutual r x y
  reverse_topological : ∀ (i j : Fin cs.length) (a b : α),
    a ∈ cs[i] → b ∈ cs[j] → r a b → i ≠ j → j < i

variable {r}

theorem IsComponent.mem_iff {C : Finset α} (component : IsComponent r C) {x y : α}
    (member : x ∈ C) : y ∈ C ↔ Mutual r x y :=
  component x member y

/-- Two components that share a member are the same. -/
theorem IsComponent.eq_of_mem {C D : Finset α} (left : IsComponent r C) (right : IsComponent r D)
    {x : α} (inC : x ∈ C) (inD : x ∈ D) : C = D := by
  ext y
  rw [left.mem_iff inC, right.mem_iff inD]

theorem edgesEarlier_nil : EdgesEarlier r ([] : List (Finset α)) := by
  intro pre C post split
  exact absurd split.symm (by simp)

/-- Appending a set whose edges lead into itself or into a listed set keeps the order. -/
theorem EdgesEarlier.append {cs : List (Finset α)} (earlier : EdgesEarlier r cs)
    {C : Finset α} (closed : ∀ x ∈ C, ∀ y, r x y → y ∈ C ∨ ∃ D ∈ cs, y ∈ D) :
    EdgesEarlier r (cs ++ [C]) := by
  intro pre D post split x member y edge
  cases post using List.reverseRecOn with
  | nil =>
      obtain ⟨rfl, rfl⟩ : cs = pre ∧ C = D := by simpa using split
      exact closed x member y edge
  | append_singleton post last _ =>
      have split' : cs ++ [C] = (pre ++ D :: post) ++ [last] := by simpa using split
      exact earlier pre D post (List.append_inj' split' rfl).1 x member y edge

/-- Two disjoint listed sets that share a member are the same. -/
theorem eq_of_mem_of_mem {cs : List (Finset α)} (disjoint : cs.Pairwise Disjoint)
    {C D : Finset α} (listedC : C ∈ cs) (listedD : D ∈ cs) {x : α} (inC : x ∈ C)
    (inD : x ∈ D) : C = D := by
  induction cs with
  | nil => simp at listedC
  | cons E rest ih =>
      obtain ⟨apart, restDisjoint⟩ := List.pairwise_cons.mp disjoint
      rcases List.mem_cons.mp listedC with rfl | restC <;>
        rcases List.mem_cons.mp listedD with rfl | restD
      · rfl
      · exact absurd inD (Finset.disjoint_left.mp (apart D restD) inC)
      · exact absurd inC (Finset.disjoint_left.mp (apart C restC) inD)
      · exact ih restDisjoint restC restD

/-- The positions of two disjoint listed sets that share a member are the same. -/
theorem index_eq_of_mem_of_mem {cs : List (Finset α)} (disjoint : cs.Pairwise Disjoint)
    {i j : Fin cs.length} {x : α} (left : x ∈ cs[i]) (right : x ∈ cs[j]) : i = j := by
  by_contra differ
  rcases lt_or_gt_of_ne differ with below | above
  · exact Finset.disjoint_left.mp (List.pairwise_iff_getElem.mp disjoint i j i.2 j.2 below)
      left right
  · exact Finset.disjoint_left.mp (List.pairwise_iff_getElem.mp disjoint j i j.2 i.2 above)
      right left

theorem EdgesEarlier.reverse_topological {cs : List (Finset α)} (earlier : EdgesEarlier r cs)
    (disjoint : cs.Pairwise Disjoint) (i j : Fin cs.length) (a b : α) (source : a ∈ cs[i])
    (target : b ∈ cs[j]) (edge : r a b) (differ : i ≠ j) : j < i := by
  have split : cs = cs.take i ++ cs[i] :: cs.drop (i + 1) := by simp
  rcases earlier _ _ _ split a source b edge with same | ⟨D, before, member⟩
  · exact absurd (index_eq_of_mem_of_mem disjoint same target) differ
  · obtain ⟨k, below, rfl⟩ := List.getElem_of_mem before
    have bound : k < i := lt_of_lt_of_le below (List.length_take_le _ _)
    have inK : b ∈ cs[(⟨k, bound.trans i.2⟩ : Fin cs.length)] := by
      simpa using member
    rw [← index_eq_of_mem_of_mem disjoint inK target]
    exact bound

/-- A list of disjoint components that covers everything, in the order of its edges, is the
decomposition. -/
theorem IsDecomposition.of_components {cs : List (Finset α)}
    (nonempty : ∀ C ∈ cs, C.Nonempty) (cover : ∀ x, ∃ C ∈ cs, x ∈ C)
    (disjoint : cs.Pairwise Disjoint) (components : ∀ C ∈ cs, IsComponent r C)
    (earlier : EdgesEarlier r cs) : IsDecomposition r cs where
  nonempty := nonempty
  cover := cover
  disjoint := disjoint
  same_iff x y := by
    constructor
    · rintro ⟨C, listed, left, right⟩
      exact ((components C listed).mem_iff left).mp right
    · intro both
      obtain ⟨C, listed, member⟩ := cover x
      exact ⟨C, listed, member, ((components C listed).mem_iff member).mpr both⟩
  reverse_topological := earlier.reverse_topological disjoint

/-- Each listed set of a decomposition is a component. -/
theorem IsDecomposition.isComponent {cs : List (Finset α)} (decomposition : IsDecomposition r cs)
    {C : Finset α} (listed : C ∈ cs) : IsComponent r C := by
  intro x member y
  constructor
  · intro other
    exact (decomposition.same_iff x y).mp ⟨C, listed, member, other⟩
  · intro both
    obtain ⟨D, listedD, inD, yInD⟩ := (decomposition.same_iff x y).mpr both
    rwa [eq_of_mem_of_mem decomposition.disjoint listed listedD member inD]

/-- The components are fixed by the relation: two decompositions list the same sets. -/
theorem IsDecomposition.mem_iff {cs ds : List (Finset α)} (left : IsDecomposition r cs)
    (right : IsDecomposition r ds) {C : Finset α} (listed : C ∈ cs) : C ∈ ds := by
  obtain ⟨x, member⟩ := left.nonempty C listed
  obtain ⟨D, listedD, inD⟩ := right.cover x
  rw [(left.isComponent listed).eq_of_mem (right.isComponent listedD) member inD]
  exact listedD

/-- The sets a decomposition lists are exactly the nonempty components. -/
theorem IsDecomposition.mem_iff_isComponent {cs : List (Finset α)}
    (decomposition : IsDecomposition r cs) {C : Finset α} :
    C ∈ cs ↔ C.Nonempty ∧ IsComponent r C := by
  constructor
  · intro listed
    exact ⟨decomposition.nonempty C listed, decomposition.isComponent listed⟩
  · rintro ⟨⟨x, member⟩, component⟩
    obtain ⟨D, listed, inD⟩ := decomposition.cover x
    rw [component.eq_of_mem (decomposition.isComponent listed) member inD]
    exact listed

/-- The first listed component that a nonempty set meets keeps inside itself every edge from it
into the set: a later component is never reached along a reverse topological order. -/
theorem IsDecomposition.exists_closed {cs : List (Finset α)} (decomposition : IsDecomposition r cs)
    {T : Finset α} (nonempty : T.Nonempty) :
    ∃ C ∈ cs, (∃ x ∈ T, x ∈ C) ∧ ∀ x ∈ C, ∀ y ∈ T, r x y → y ∈ C := by
  classical
  -- the positions of the listed components that meet `T`
  let meets := (Finset.univ : Finset (Fin cs.length)).filter fun i => ∃ x ∈ T, x ∈ cs[i]
  obtain ⟨x, inT⟩ := nonempty
  obtain ⟨D, listed, inD⟩ := decomposition.cover x
  obtain ⟨k, bound, rfl⟩ := List.getElem_of_mem listed
  have some : meets.Nonempty :=
    ⟨⟨k, bound⟩, Finset.mem_filter.mpr ⟨Finset.mem_univ _, x, inT, inD⟩⟩
  obtain ⟨i, first, least⟩ := meets.exists_min_image id some
  refine ⟨cs[i], List.getElem_mem i.2, (Finset.mem_filter.mp first).2, fun a inC b bInT edge => ?_⟩
  obtain ⟨E, listedE, inE⟩ := decomposition.cover b
  obtain ⟨j, jBound, rfl⟩ := List.getElem_of_mem listedE
  by_cases same : (⟨j, jBound⟩ : Fin cs.length) = i
  · rw [← same]
    exact inE
  · have earlier := decomposition.reverse_topological i ⟨j, jBound⟩ a b inC inE edge (Ne.symm same)
    have notBefore := least ⟨j, jBound⟩ (Finset.mem_filter.mpr ⟨Finset.mem_univ _, b, bInT, inE⟩)
    exact absurd notBefore (not_le.mpr earlier)

end Components
