import Mathlib

/-!
# Merge-join of two runs sorted by key

Two lists whose keys strictly increase are walked together, as a merge of two sorted runs walks
them: the head of smaller key is taken alone, and two heads of one key are taken as a pair. The
joined list has one item for every key of either run, in increasing key order, and the item of
a key is made of the elements of that key in the two runs.

A cursor over a run that only moves forward, past the elements below each key it is asked
about, answers whether the run holds the key, as long as the keys asked about increase.
-/

set_option autoImplicit false

namespace MergeJoin

/-- One item of a merge-join: an element of the left run alone, of the right run alone, or the
elements of one key in both. -/
inductive Joined (α : Type)
  | left (a : α)
  | right (b : α)
  | both (a b : α)

variable {α : Type}

/-- The merge-join of two runs whose elements `lt` compares: the smaller head is taken alone,
and two heads neither of which is below the other are taken together. -/
def mergeJoin (lt : α → α → Bool) : List α → List α → List (Joined α)
  | [], [] => []
  | a :: as, [] => .left a :: mergeJoin lt as []
  | [], b :: bs => .right b :: mergeJoin lt [] bs
  | a :: as, b :: bs =>
      if lt a b then .left a :: mergeJoin lt as (b :: bs)
      else if lt b a then .right b :: mergeJoin lt (a :: as) bs
      else .both a b :: mergeJoin lt as bs
termination_by as bs => as.length + bs.length

/-- The item for the elements of one key that the two runs hold, if either holds one. -/
def Joined.ofFound : Option α → Option α → Option (Joined α)
  | none, none => none
  | some a, none => some (.left a)
  | none, some b => some (.right b)
  | some a, some b => some (.both a b)

section Keyed

variable {κ : Type} (key : α → κ)

/-- The key of a joined item: that of its first element. -/
def Joined.keyOf : Joined α → κ
  | .left a => key a
  | .right b => key b
  | .both a _ => key a

/-- An item made of two runs: an element of the left one alone, one of the right one alone, or
an element of each of one key. -/
def Joined.From (l r : List α) (j : Joined α) : Prop :=
  (∃ a ∈ l, j = .left a) ∨ (∃ b ∈ r, j = .right b) ∨ ∃ a ∈ l, ∃ b ∈ r, key a = key b ∧ j = .both a b

variable {key} in
theorem Joined.From.mono {l r l' r' : List α} {j : Joined α} (made : j.From key l r)
    (subL : l ⊆ l') (subR : r ⊆ r') : j.From key l' r' := by
  rcases made with ⟨a, inL, rfl⟩ | ⟨b, inR, rfl⟩ | ⟨a, inL, b, inR, same, rfl⟩
  · exact .inl ⟨a, subL inL, rfl⟩
  · exact .inr (.inl ⟨b, subR inR, rfl⟩)
  · exact .inr (.inr ⟨a, subL inL, b, subR inR, same, rfl⟩)

variable [LinearOrder κ]

/-- The element of a run with a given key. -/
def findKey (k : κ) (l : List α) : Option α := l.find? fun a => key a = k

variable {key}

theorem findKey_cons (k : κ) (a : α) (l : List α) :
    findKey key k (a :: l) = if key a = k then some a else findKey key k l := by
  by_cases hit : key a = k <;> simp [findKey, hit]

/-- The element of a run with strictly increasing keys at its own key is itself. -/
theorem findKey_of_mem {l : List α} (sorted : l.Pairwise (key · < key ·)) {a : α} (member : a ∈ l) :
    findKey key (key a) l = some a := by
  induction l with
  | nil => cases member
  | cons b l ih =>
      obtain ⟨below, sortedRest⟩ := List.pairwise_cons.mp sorted
      rw [findKey_cons]
      rcases List.mem_cons.mp member with rfl | later
      · simp
      · rw [if_neg (below a later).ne, ih sortedRest later]

/-- A run with no element of key `k` holds none. -/
theorem findKey_eq_none_of_ne {k : κ} {l : List α} (other : ∀ a ∈ l, key a ≠ k) :
    findKey key k l = none :=
  List.find?_eq_none.mpr fun a member hit => other a member (of_decide_eq_true hit)

/-- In a list of distinct keys, a key finds exactly the member of that key. -/
theorem findKey_eq_some_iff {k : κ} {l : List α} (distinct : (l.map key).Nodup) {a : α} :
    findKey key k l = some a ↔ a ∈ l ∧ key a = k := by
  constructor
  · intro found
    have matched := List.find?_some found
    exact ⟨List.mem_of_find?_eq_some found, by simpa using matched⟩
  · rintro ⟨member, rfl⟩
    cases found : findKey key (key a) l with
    | none => exact absurd (decide_eq_true rfl) (List.find?_eq_none.mp found a member)
    | some b =>
        have matched := List.find?_some found
        have same : key b = key a := by simpa using matched
        rw [List.inj_on_of_nodup_map distinct (List.mem_of_find?_eq_some found) member same]

/-- Two orders of a list of distinct keys find the same member for every key. -/
theorem findKey_perm {l l' : List α} (reordered : l.Perm l') (distinct : (l.map key).Nodup)
    (k : κ) : findKey key k l = findKey key k l' := by
  have distinct' : (l'.map key).Nodup := (reordered.map key).nodup_iff.mp distinct
  refine Option.ext fun a => ?_
  rw [findKey_eq_some_iff distinct, findKey_eq_some_iff distinct', reordered.mem_iff]

section Sorted

variable {lt : α → α → Bool} (compares : ∀ a b, lt a b = decide (key a < key b))
include compares

theorem eq_of_not_lt {a b : α} (notBelow : lt a b = false) (notAbove : lt b a = false) :
    key a = key b := by
  rw [compares, decide_eq_false_iff_not] at notBelow notAbove
  exact le_antisymm (not_lt.mp notAbove) (not_lt.mp notBelow)

/-- An item of a merge-join is an element of the left run alone, one of the right run alone, or
an element of each of one key. -/
theorem mem_mergeJoin :
    ∀ {l r : List α} {j : Joined α}, j ∈ mergeJoin lt l r → j.From key l r
  | [], [], j, member => by simp [mergeJoin] at member
  | a :: as, [], j, member => by
      rw [mergeJoin] at member
      rcases List.mem_cons.mp member with rfl | rest
      · exact .inl ⟨a, List.mem_cons_self, rfl⟩
      · exact (mem_mergeJoin rest).mono (List.subset_cons_self a as) (List.Subset.refl _)
  | [], b :: bs, j, member => by
      rw [mergeJoin] at member
      rcases List.mem_cons.mp member with rfl | rest
      · exact .inr (.inl ⟨b, List.mem_cons_self, rfl⟩)
      · exact (mem_mergeJoin rest).mono (List.Subset.refl _) (List.subset_cons_self b bs)
  | a :: as, b :: bs, j, member => by
      rw [mergeJoin] at member
      split_ifs at member with below above
      · rcases List.mem_cons.mp member with rfl | rest
        · exact .inl ⟨a, List.mem_cons_self, rfl⟩
        · exact (mem_mergeJoin rest).mono (List.subset_cons_self a as) (List.Subset.refl _)
      · rcases List.mem_cons.mp member with rfl | rest
        · exact .inr (.inl ⟨b, List.mem_cons_self, rfl⟩)
        · exact (mem_mergeJoin rest).mono (List.Subset.refl _) (List.subset_cons_self b bs)
      · rcases List.mem_cons.mp member with rfl | rest
        · exact .inr (.inr ⟨a, List.mem_cons_self, b, List.mem_cons_self,
            eq_of_not_lt compares (by simpa using below) (by simpa using above), rfl⟩)
        · exact (mem_mergeJoin rest).mono (List.subset_cons_self a as) (List.subset_cons_self b bs)
termination_by l r => l.length + r.length

/-- Every key of a merge-join is a key of one of its runs. -/
theorem keyOf_mem_mergeJoin {p : κ → Prop} {l r : List α} (left : ∀ a ∈ l, p (key a))
    (right : ∀ b ∈ r, p (key b)) : ∀ j ∈ mergeJoin lt l r, p (j.keyOf key) := by
  intro j member
  rcases mem_mergeJoin compares member with ⟨a, inL, rfl⟩ | ⟨b, inR, rfl⟩ | ⟨a, inL, b, -, -, rfl⟩
  · exact left a inL
  · exact right b inR
  · exact left a inL

/-- The keys of the merge-join of two runs with strictly increasing keys strictly increase. -/
theorem pairwise_mergeJoin :
    ∀ {l r : List α}, l.Pairwise (key · < key ·) → r.Pairwise (key · < key ·) →
      (mergeJoin lt l r).Pairwise (·.keyOf key < ·.keyOf key)
  | [], [], _, _ => by simp [mergeJoin]
  | a :: as, [], left, _ => by
      obtain ⟨above, sortedAs⟩ := List.pairwise_cons.mp left
      rw [mergeJoin]
      exact List.pairwise_cons.mpr ⟨keyOf_mem_mergeJoin compares above (by simp),
        pairwise_mergeJoin sortedAs List.Pairwise.nil⟩
  | [], b :: bs, _, right => by
      obtain ⟨above, sortedBs⟩ := List.pairwise_cons.mp right
      rw [mergeJoin]
      exact List.pairwise_cons.mpr ⟨keyOf_mem_mergeJoin compares (by simp) above,
        pairwise_mergeJoin List.Pairwise.nil sortedBs⟩
  | a :: as, b :: bs, left, right => by
      obtain ⟨aBelow, sortedAs⟩ := List.pairwise_cons.mp left
      obtain ⟨bBelow, sortedBs⟩ := List.pairwise_cons.mp right
      rw [mergeJoin]
      split_ifs with below above
      · -- `a` is taken alone: everything after it is above `a`, `b` and its run included
        have aLt : key a < key b := of_decide_eq_true ((compares a b).symm.trans below)
        refine List.pairwise_cons.mpr ⟨keyOf_mem_mergeJoin compares aBelow ?_, ?_⟩
        · intro c member
          rcases List.mem_cons.mp member with rfl | inBs
          · exact aLt
          · exact aLt.trans (bBelow c inBs)
        · exact pairwise_mergeJoin sortedAs right
      · have bLt : key b < key a := of_decide_eq_true ((compares b a).symm.trans above)
        refine List.pairwise_cons.mpr ⟨keyOf_mem_mergeJoin compares ?_ bBelow, ?_⟩
        · intro c member
          rcases List.mem_cons.mp member with rfl | inAs
          · exact bLt
          · exact bLt.trans (aBelow c inAs)
        · exact pairwise_mergeJoin left sortedBs
      · -- a pair: its key is that of both heads, below both remaining runs
        have same : key a = key b :=
          eq_of_not_lt compares (by simpa using below) (by simpa using above)
        refine List.pairwise_cons.mpr ⟨keyOf_mem_mergeJoin compares aBelow ?_, ?_⟩
        · intro c inBs
          show key a < key c
          rw [same]
          exact bBelow c inBs
        · exact pairwise_mergeJoin sortedAs sortedBs
termination_by l r => l.length + r.length

/-- The item of a key in the merge-join of two runs with strictly increasing keys is made of the
elements of that key in the two runs. -/
theorem findKey_mergeJoin (k : κ) :
    ∀ {l r : List α}, l.Pairwise (key · < key ·) → r.Pairwise (key · < key ·) →
      findKey (Joined.keyOf key) k (mergeJoin lt l r) =
        Joined.ofFound (findKey key k l) (findKey key k r)
  | [], [], _, _ => by simp [mergeJoin, findKey, Joined.ofFound]
  | a :: as, [], left, _ => by
      rw [mergeJoin, findKey_cons, findKey_cons,
        findKey_mergeJoin k (List.pairwise_cons.mp left).2 List.Pairwise.nil]
      by_cases hit : key a = k <;> simp [hit, Joined.keyOf, findKey, Joined.ofFound]
  | [], b :: bs, _, right => by
      rw [mergeJoin, findKey_cons, findKey_cons,
        findKey_mergeJoin k List.Pairwise.nil (List.pairwise_cons.mp right).2]
      by_cases hit : key b = k <;> simp [hit, Joined.keyOf, findKey, Joined.ofFound]
  | a :: as, b :: bs, left, right => by
      obtain ⟨aBelow, sortedAs⟩ := List.pairwise_cons.mp left
      obtain ⟨bBelow, sortedBs⟩ := List.pairwise_cons.mp right
      rw [mergeJoin]
      split_ifs with below above
      · have aLt : key a < key b := of_decide_eq_true ((compares a b).symm.trans below)
        rw [findKey_cons k (Joined.left a), findKey_mergeJoin k sortedAs right,
          findKey_cons k a as]
        by_cases hit : key a = k
        · -- the key is `a`'s, and the right run starts above it
          have absent : findKey key k (b :: bs) = none := findKey_eq_none_of_ne fun c member => ne_of_gt <| by
            rcases List.mem_cons.mp member with rfl | inBs
            · exact hit ▸ aLt
            · exact hit ▸ aLt.trans (bBelow c inBs)
          simp [hit, Joined.keyOf, absent, Joined.ofFound]
        · simp [hit, Joined.keyOf]
      · have bLt : key b < key a := of_decide_eq_true ((compares b a).symm.trans above)
        rw [findKey_cons k (Joined.right b), findKey_mergeJoin k left sortedBs,
          findKey_cons k b bs]
        by_cases hit : key b = k
        · have absent : findKey key k (a :: as) = none := findKey_eq_none_of_ne fun c member => ne_of_gt <| by
            rcases List.mem_cons.mp member with rfl | inAs
            · exact hit ▸ bLt
            · exact hit ▸ bLt.trans (aBelow c inAs)
          simp [hit, Joined.keyOf, absent, Joined.ofFound]
        · simp [hit, Joined.keyOf]
      · have same : key a = key b :=
          eq_of_not_lt compares (by simpa using below) (by simpa using above)
        rw [findKey_cons k (Joined.both a b), findKey_mergeJoin k sortedAs sortedBs,
          findKey_cons k a as, findKey_cons k b bs]
        by_cases hit : key a = k
        · simp [hit, ← same, Joined.keyOf, Joined.ofFound]
        · simp [hit, ← same, Joined.keyOf]
termination_by l r => l.length + r.length

end Sorted

/-! ## Keeping some items -/

section FilterMap

variable {γ β : Type} {keyOf : γ → κ} {keyB : β → κ} {f : γ → Option β}

/-- Keeping, of each item, at most one element of its key keeps the keys strictly increasing. -/
theorem pairwise_filterMap {l : List γ} (keeps : ∀ g ∈ l, ∀ b, f g = some b → keyB b = keyOf g)
    (sorted : l.Pairwise (keyOf · < keyOf ·)) : (l.filterMap f).Pairwise (keyB · < keyB ·) := by
  rw [List.pairwise_filterMap]
  refine sorted.imp_of_mem fun {g g'} member member' below b kept b' kept' => ?_
  rw [keeps g member b kept, keeps g' member' b' kept']
  exact below

/-- Keeping, of each item, at most one element of its key, the element of a key is what is kept
of the item of that key. -/
theorem findKey_filterMap (k : κ) :
    ∀ {l : List γ}, (∀ g ∈ l, ∀ b, f g = some b → keyB b = keyOf g) →
      l.Pairwise (keyOf · < keyOf ·) → findKey keyB k (l.filterMap f) = (findKey keyOf k l).bind f
  | [], _, _ => rfl
  | g :: l, keeps, sorted => by
      obtain ⟨below, sortedRest⟩ := List.pairwise_cons.mp sorted
      have rest := findKey_filterMap k (fun g' member => keeps g' (List.mem_cons_of_mem g member))
        sortedRest
      rw [List.filterMap_cons, findKey_cons]
      by_cases hit : keyOf g = k
      · -- the rest of the run is above `k`, so only what `g` leaves can be found
        have absent : findKey keyOf k l = none :=
          findKey_eq_none_of_ne fun g' member => ne_of_gt (hit ▸ below g' member)
        rw [if_pos hit, Option.bind_some]
        cases kept : f g with
        | none => simp [rest, absent]
        | some b =>
            have atKey : keyB b = k := (keeps g List.mem_cons_self b kept).trans hit
            simp [findKey_cons, atKey]
      · rw [if_neg hit]
        cases kept : f g with
        | none => exact rest
        | some b =>
            have other : keyB b ≠ k := (keeps g List.mem_cons_self b kept).trans_ne hit
            simp [findKey_cons, other, rest]

/-- Filtering a run with strictly increasing keys filters the element of each key. -/
theorem findKey_filter (k : κ) (p : γ → Bool) {l : List γ}
    (sorted : l.Pairwise (keyOf · < keyOf ·)) :
    findKey keyOf k (l.filter p) = (findKey keyOf k l).filter p := by
  rw [← List.filterMap_eq_filter, findKey_filterMap k _ sorted]
  · cases findKey keyOf k l <;> simp [Option.guard, Option.filter]
  · intro g _ b kept
    simp only [Option.guard_eq_some_iff] at kept
    rw [kept.1]

end FilterMap

/-! ## Cursors -/

/-- A cursor over a run: what is left of the run once elements all below `bound` were passed. -/
def Passed (key : α → κ) (bound : κ) (run cursor : List α) : Prop :=
  ∃ passed, run = passed ++ cursor ∧ ∀ a ∈ passed, key a < bound

theorem Passed.refl (bound : κ) (run : List α) : Passed key bound run run :=
  ⟨[], rfl, by simp⟩

theorem Passed.mono {bound bound' : κ} {run cursor : List α} (passed : Passed key bound run cursor)
    (higher : bound ≤ bound') : Passed key bound' run cursor := by
  obtain ⟨pre, split, below⟩ := passed
  exact ⟨pre, split, fun a member => (below a member).trans_le higher⟩

/-- Moving a cursor on past the elements below `k` passes elements below `k` only. -/
theorem Passed.dropWhile {bound k : κ} {run cursor : List α} (passed : Passed key bound run cursor)
    (higher : bound ≤ k) : Passed key k run (cursor.dropWhile fun a => key a < k) := by
  obtain ⟨pre, rfl, below⟩ := passed.mono higher
  clear passed
  induction cursor generalizing pre with
  | nil => exact ⟨pre, rfl, below⟩
  | cons a rest ih =>
      rw [List.dropWhile_cons]
      by_cases under : key a < k
      · rw [if_pos (decide_eq_true under)]
        have passedA : ∀ c ∈ pre ++ [a], key c < k := by
          intro c member
          rcases List.mem_append.mp member with earlier | last
          · exact below c earlier
          · exact List.mem_singleton.mp last ▸ under
        simpa using ih (pre ++ [a]) passedA
      · rw [if_neg (by simpa using under)]
        exact ⟨pre, rfl, below⟩

/-- Moved on past the elements below `k`, a cursor over a run with strictly increasing keys
stands at an element not above `k` exactly when the run holds an element of key `k`. -/
theorem Passed.stands_at {k : κ} {run cursor : List α} (sorted : run.Pairwise (key · < key ·))
    (passed : Passed key k run cursor) :
    ((cursor.dropWhile fun a => key a < k).head?.any fun a => !decide (k < key a)) =
      (findKey key k run).isSome := by
  have moved := List.head?_dropWhile_not (fun a => decide (key a < k)) cursor
  have passed' := passed.dropWhile (le_refl k)
  generalize cursor.dropWhile (fun a => decide (key a < k)) = rest at moved passed' ⊢
  obtain ⟨pre, rfl, below⟩ := passed'
  have before : findKey key k pre = none :=
    findKey_eq_none_of_ne fun a member => (below a member).ne
  have sortedRest := (List.pairwise_append.mp sorted).2.1
  rw [findKey, List.find?_append, ← findKey, ← findKey, before, Option.none_or]
  cases rest with
  | nil => rfl
  | cons a after =>
      have notBelow : ¬ key a < k := by simpa using moved
      have above := (List.pairwise_cons.mp sortedRest).1
      rw [findKey_cons]
      by_cases hit : key a = k
      · simp [hit]
      · -- `a` is above `k`, and the rest of the run above `a`
        have aAbove : k < key a := lt_of_le_of_ne (not_lt.mp notBelow) (Ne.symm hit)
        rw [if_neg hit, findKey_eq_none_of_ne fun c member => (aAbove.trans (above c member)).ne']
        simp [aAbove]

end Keyed

end MergeJoin
