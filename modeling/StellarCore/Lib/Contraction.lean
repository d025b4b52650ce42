import Mathlib

/-!
# Contracting a finite set to its greatest self-supporting part

`keep s a` tells whether the set `s` supports its element `a`, and support only grows with the
set. A set is self-supporting when it supports each of its elements. The core of `s` is the
self-supporting part of `s` that holds every self-supporting part of `s`; there is at most one.

A sweep visits elements in some order and drops each one the current set does not support, so
that what it dropped is already gone when the later ones are tested. A self-supporting part
survives a sweep, and a sweep over all the elements of a set that drops nothing shows that the
set supports them. Sweeps repeated until one drops nothing or leaves nothing, given one sweep
more than the set has elements, end at the core.

A nonempty self-supporting set with no nonempty self-supporting proper part is minimal; every
nonempty self-supporting set holds one, and a set is minimal exactly when leaving out any one
of its elements leaves nothing self-supporting. Two disjoint nonempty self-supporting parts of
a set give a minimal part of at most half its size whose complement holds another.
-/

set_option autoImplicit false

namespace Contraction

variable {α : Type} (keep : Finset α → α → Bool)

/-- `s` supports each of its elements. -/
def Supported (s : Finset α) : Prop := ∀ a ∈ s, keep s a = true

/-- Support only grows with the set. -/
def Monotone : Prop :=
  ∀ {small large : Finset α}, small ⊆ large → ∀ a, keep small a = true → keep large a = true

/-- `c` is the greatest self-supporting part of `s`. -/
structure IsCore (s c : Finset α) : Prop where
  subset : c ⊆ s
  supported : Supported keep c
  greatest : ∀ t ⊆ s, Supported keep t → t ⊆ c

/-- A nonempty self-supporting set whose only nonempty self-supporting part is itself. -/
def MinimalSupported (m : Finset α) : Prop :=
  m.Nonempty ∧ Supported keep m ∧ ∀ t ⊆ m, t.Nonempty → Supported keep t → t = m

variable {keep}

theorem supported_empty : Supported keep ∅ := fun a member =>
  absurd member (Finset.notMem_empty a)

section Core

variable {s c : Finset α}

theorem IsCore.unique {c' : Finset α} (left : IsCore keep s c) (right : IsCore keep s c') :
    c = c' :=
  Finset.Subset.antisymm (right.greatest c left.subset left.supported)
    (left.greatest c' right.subset right.supported)

theorem IsCore.mono {s' c' : Finset α} (small : IsCore keep s c) (large : IsCore keep s' c')
    (sub : s ⊆ s') : c ⊆ c' :=
  large.greatest c (small.subset.trans sub) small.supported

/-- The core is its own core. -/
theorem IsCore.self (core : IsCore keep s c) : IsCore keep c c :=
  ⟨Finset.Subset.refl c, core.supported, fun _ sub _ => sub⟩

/-- The core is nonempty exactly when some nonempty part supports itself. -/
theorem IsCore.nonempty_iff (core : IsCore keep s c) :
    c.Nonempty ↔ ∃ t ⊆ s, t.Nonempty ∧ Supported keep t := by
  constructor
  · intro nonempty
    exact ⟨c, core.subset, nonempty, core.supported⟩
  · rintro ⟨t, sub, nonempty, supported⟩
    exact nonempty.mono (core.greatest t sub supported)

end Core

section Minimal

/-- Every nonempty self-supporting set holds a minimal one. -/
theorem exists_minimalSupported : ∀ (t : Finset α), t.Nonempty → Supported keep t →
    ∃ m ⊆ t, MinimalSupported keep m := by
  intro t
  induction t using Finset.strongInduction with
  | H t ih =>
    intro nonempty supported
    by_cases smaller : ∃ u ⊆ t, u.Nonempty ∧ Supported keep u ∧ u ≠ t
    · -- a smaller self-supporting part holds a minimal one
      obtain ⟨u, sub, uNonempty, uSupported, differ⟩ := smaller
      obtain ⟨m, mSub, minimal⟩ :=
        ih u (Finset.ssubset_iff_subset_ne.mpr ⟨sub, differ⟩) uNonempty uSupported
      exact ⟨m, mSub.trans sub, minimal⟩
    · refine ⟨t, Finset.Subset.refl t, nonempty, supported, fun u sub uNonempty uSupported => ?_⟩
      by_contra differ
      exact smaller ⟨u, sub, uNonempty, uSupported, differ⟩

/-- A part of a minimal set whose core is nonempty is the whole set. -/
theorem MinimalSupported.eq_of_core {m t c : Finset α} (minimal : MinimalSupported keep m)
    (sub : t ⊆ m) (core : IsCore keep t c) (nonempty : c.Nonempty) : t = m := by
  have whole : c = m := minimal.2.2 c (core.subset.trans sub) nonempty core.supported
  exact Finset.Subset.antisymm sub (whole ▸ core.subset)

end Minimal

/-! ## Sweeps -/

section Sweep

variable [DecidableEq α]

variable (keep) in
/-- One sweep over `order`: each element that the current set does not support is dropped. -/
def sweep (order : List α) (s : Finset α) : Finset α :=
  order.foldl (fun current a => if keep current a then current else current.erase a) s

variable (keep) in
/-- Sweeps over the elements of the current set, in the order `order` lists them, until one
drops nothing or leaves nothing; at most `fuel` of them. -/
def loop (order : Finset α → List α) : Nat → Finset α → Finset α
  | 0, s => s
  | fuel + 1, s =>
      let swept := sweep keep (order s) s
      if swept.card = s.card ∨ swept = ∅ then swept else loop order fuel swept

@[simp] theorem sweep_nil (s : Finset α) : sweep keep [] s = s := rfl

@[simp] theorem sweep_cons (a : α) (rest : List α) (s : Finset α) :
    sweep keep (a :: rest) s = sweep keep rest (if keep s a then s else s.erase a) := rfl

theorem sweep_subset : ∀ (order : List α) (s : Finset α), sweep keep order s ⊆ s
  | [], _ => Finset.Subset.refl _
  | a :: rest, s => by
      rw [sweep_cons]
      refine (sweep_subset rest _).trans ?_
      split
      · exact Finset.Subset.refl s
      · exact Finset.erase_subset a s

/-- A self-supporting part survives a sweep. -/
theorem subset_sweep (mono : Monotone keep) {t : Finset α} (supported : Supported keep t) :
    ∀ (order : List α) (s : Finset α), t ⊆ s → t ⊆ sweep keep order s
  | [], _, sub => sub
  | a :: rest, s, sub => by
      rw [sweep_cons]
      refine subset_sweep mono supported rest _ ?_
      split
      · exact sub
      · rename_i dropped
        intro b member
        have other : b ≠ a := by
          rintro rfl
          exact dropped (mono sub b (supported b member))
        exact Finset.mem_erase.mpr ⟨other, sub member⟩

/-- A sweep that ends where it started found each element of the order in the set supported
by the set. -/
theorem keep_of_sweep_eq : ∀ (order : List α) {s : Finset α}, sweep keep order s = s →
    ∀ a ∈ order, a ∈ s → keep s a = true
  | [], _, _, a, listed, _ => absurd listed List.not_mem_nil
  | b :: rest, s, same, a, listed, member => by
      rw [sweep_cons] at same
      by_cases kept : keep s b = true
      · rw [if_pos kept] at same
        rcases List.mem_cons.mp listed with rfl | later
        · exact kept
        · exact keep_of_sweep_eq rest same a later member
      · rw [if_neg kept] at same
        by_cases present : b ∈ s
        · -- `b` was dropped, yet the sweep ended at `s`, which holds it
          have gone := sweep_subset rest (s.erase b) (same ▸ present)
          exact absurd gone (Finset.notMem_erase b s)
        · rw [Finset.erase_eq_of_notMem present] at same
          rcases List.mem_cons.mp listed with rfl | later
          · exact absurd member present
          · exact keep_of_sweep_eq rest same a later member

/-- A sweep over all the elements of a set that keeps their number shows the set supports
them. -/
theorem supported_of_card_sweep {order : List α} {s : Finset α} (covers : ∀ a ∈ s, a ∈ order)
    (same : (sweep keep order s).card = s.card) : Supported keep s := by
  have equal := Finset.eq_of_subset_of_card_le (sweep_subset order s) same.ge
  exact fun a member => keep_of_sweep_eq order equal a (covers a member) member

section Loop

variable {order : Finset α → List α}

theorem loop_succ (fuel : Nat) (s : Finset α) : loop keep order (fuel + 1) s =
    if (sweep keep (order s) s).card = s.card ∨ sweep keep (order s) s = ∅ then
      sweep keep (order s) s
    else loop keep order fuel (sweep keep (order s) s) := rfl

theorem loop_subset : ∀ (fuel : Nat) (s : Finset α), loop keep order fuel s ⊆ s
  | 0, _ => Finset.Subset.refl _
  | fuel + 1, s => by
      rw [loop_succ]
      split
      · exact sweep_subset _ s
      · exact (loop_subset fuel _).trans (sweep_subset _ s)

/-- Every self-supporting part of the start survives the whole loop. -/
theorem subset_loop (mono : Monotone keep) {t : Finset α} (supported : Supported keep t) :
    ∀ (fuel : Nat) (s : Finset α), t ⊆ s → t ⊆ loop keep order fuel s
  | 0, _, sub => sub
  | fuel + 1, s, sub => by
      have kept := subset_sweep mono supported (order s) s sub
      rw [loop_succ]
      split
      · exact kept
      · exact subset_loop mono supported fuel _ kept

/-- Given more sweeps than the start has elements, the loop ends at a self-supporting set:
every sweep before the last drops an element. -/
theorem loop_supported (covers : ∀ s, ∀ a ∈ s, a ∈ order s) :
    ∀ (fuel : Nat) (s : Finset α), s.card < fuel → Supported keep (loop keep order fuel s)
  | 0, _, enough => absurd enough (Nat.not_lt_zero _)
  | fuel + 1, s, enough => by
      rw [loop_succ]
      split
      · rename_i stops
        rcases stops with same | empty
        · rw [Finset.eq_of_subset_of_card_le (sweep_subset _ s) same.ge]
          exact supported_of_card_sweep (covers s) same
        · rw [empty]
          exact supported_empty
      · rename_i goesOn
        have shorter : (sweep keep (order s) s).card < s.card :=
          lt_of_le_of_ne (Finset.card_le_card (sweep_subset _ s)) (not_or.mp goesOn).1
        exact loop_supported covers fuel _ (by omega)

/-- Given more sweeps than the start has elements, the loop ends at the core. -/
theorem loop_isCore (mono : Monotone keep) (covers : ∀ s, ∀ a ∈ s, a ∈ order s) {fuel : Nat}
    {s : Finset α} (enough : s.card < fuel) : IsCore keep s (loop keep order fuel s) where
  subset := loop_subset fuel s
  supported := loop_supported covers fuel s enough
  greatest _ sub supported := subset_loop mono supported fuel s sub

end Loop




/-- A nonempty self-supporting set is minimal exactly when nothing nonempty supports itself
once any one element is left out. -/
theorem minimalSupported_iff {m : Finset α} (nonempty : m.Nonempty) (supported : Supported keep m) :
    MinimalSupported keep m ↔
      ∀ a ∈ m, ¬ ∃ t ⊆ m.erase a, t.Nonempty ∧ Supported keep t := by
  constructor
  · rintro minimal a member ⟨t, sub, tNonempty, tSupported⟩
    have whole := minimal.2.2 t (sub.trans (Finset.erase_subset a m)) tNonempty tSupported
    exact Finset.notMem_erase a m (sub (whole ▸ member))
  · intro none
    refine ⟨nonempty, supported, fun t sub tNonempty tSupported => ?_⟩
    by_contra differ
    obtain ⟨a, inM, notInT⟩ :=
      Finset.exists_of_ssubset (Finset.ssubset_iff_subset_ne.mpr ⟨sub, differ⟩)
    refine none a inM ⟨t, fun b inT => Finset.mem_erase.mpr ⟨?_, sub inT⟩, tNonempty, tSupported⟩
    rintro rfl
    exact notInT inT

/-- Two disjoint nonempty self-supporting parts of `s` give a minimal part of at most half of
`s`, whose complement in `s` holds a nonempty self-supporting part. -/
theorem exists_small_minimalSupported {s t u : Finset α} (tSub : t ⊆ s) (uSub : u ⊆ s)
    (apart : Disjoint t u) (tNonempty : t.Nonempty) (uNonempty : u.Nonempty)
    (tSupported : Supported keep t) (uSupported : Supported keep u) :
    ∃ m ⊆ s, MinimalSupported keep m ∧ m.card ≤ s.card / 2 ∧
      ∃ v ⊆ s \ m, v.Nonempty ∧ Supported keep v := by
  obtain ⟨m, mSub, mMinimal⟩ := exists_minimalSupported t tNonempty tSupported
  obtain ⟨m', mSub', mMinimal'⟩ := exists_minimalSupported u uNonempty uSupported
  have disjoint : Disjoint m m' := apart.mono mSub mSub'
  -- the two minimal parts fit in `s` side by side, so one has at most half of it
  have total : m.card + m'.card ≤ s.card := by
    rw [← Finset.card_union_of_disjoint disjoint]
    exact Finset.card_le_card (Finset.union_subset (mSub.trans tSub) (mSub'.trans uSub))
  by_cases small : m.card ≤ s.card / 2
  · refine ⟨m, mSub.trans tSub, mMinimal, small, m', ?_, mMinimal'.1, mMinimal'.2.1⟩
    exact Finset.subset_sdiff.mpr ⟨mSub'.trans uSub, disjoint.symm⟩
  · refine ⟨m', mSub'.trans uSub, mMinimal', by omega, m, ?_, mMinimal.1, mMinimal.2.1⟩
    exact Finset.subset_sdiff.mpr ⟨mSub.trans tSub, disjoint⟩


end Sweep

end Contraction
