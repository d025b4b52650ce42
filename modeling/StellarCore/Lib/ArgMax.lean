import Mathlib.Data.List.Perm.Basic

/-!
# The best element of a scan

A scan keeps the best element seen so far and replaces it by a later one only when that one
is strictly better. Over a strict order the result is an element nothing in the list beats.
When the order separates any two elements of different keys, all unbeaten elements share
one key, so the key of the result does not depend on the order of the list.
-/

set_option autoImplicit false

namespace ArgMax

variable {α κ : Type} (better : α → α → Bool)

/-- Scan a list, keeping the current best unless a later element is strictly better. -/
def scan : Option α → List α → Option α
  | current, [] => current
  | none, a :: rest => scan (some a) rest
  | some b, a :: rest => scan (if better b a then some a else some b) rest

/-- No element of the list is better than `b`. -/
def Unbeaten (l : List α) (b : α) : Prop := ∀ a ∈ l, better b a = false

variable {better}

@[simp] theorem scan_nil (current : Option α) : scan better current [] = current := rfl

@[simp] theorem scan_none_cons (a : α) (rest : List α) :
    scan better none (a :: rest) = scan better (some a) rest := rfl

@[simp] theorem scan_some_cons (b a : α) (rest : List α) :
    scan better (some b) (a :: rest) =
      scan better (if better b a then some a else some b) rest := rfl

theorem scan_some_isSome (b : α) : ∀ l : List α, ∃ r, scan better (some b) l = some r
  | [] => ⟨b, rfl⟩
  | a :: rest => by
      rw [scan_some_cons]
      split
      · exact scan_some_isSome a rest
      · exact scan_some_isSome b rest

/-- The result is the start or an element of the list. -/
theorem mem_of_scan_some : ∀ {b r : α} {l : List α}, scan better (some b) l = some r →
    r = b ∨ r ∈ l
  | _, _, [], found => .inl (Option.some.inj found).symm
  | b, r, a :: rest, found => by
      rw [scan_some_cons] at found
      split at found
      · rcases mem_of_scan_some found with rfl | later
        · exact .inr List.mem_cons_self
        · exact .inr (List.mem_cons_of_mem a later)
      · rcases mem_of_scan_some found with rfl | later
        · exact .inl rfl
        · exact .inr (List.mem_cons_of_mem a later)

theorem mem_of_scan_none {r : α} {l : List α} (found : scan better none l = some r) : r ∈ l := by
  cases l with
  | nil => cases found
  | cons a rest =>
      rcases mem_of_scan_some found with rfl | later
      · exact List.mem_cons_self
      · exact List.mem_cons_of_mem a later

/-- A scan compares only distinct elements of a list without repetitions, so two orders that
agree on those give one result. -/
theorem scan_congr {better' : α → α → Bool} :
    ∀ {b : α} {l : List α}, (b :: l).Nodup →
      (∀ x ∈ b :: l, ∀ y ∈ b :: l, x ≠ y → better x y = better' x y) →
      scan better (some b) l = scan better' (some b) l
  | _, [], _, _ => rfl
  | b, a :: rest, nodup, agree => by
      obtain ⟨notMem, nodupRest⟩ := List.nodup_cons.mp nodup
      have differ : b ≠ a := fun same => notMem (same ▸ List.mem_cons_self)
      have agreeOn : ∀ {l' : List α}, l' ⊆ b :: a :: rest → ∀ x ∈ l', ∀ y ∈ l', x ≠ y →
          better x y = better' x y :=
        fun sub x memX y memY => agree x (sub memX) y (sub memY)
      rw [scan_some_cons, scan_some_cons,
        agree b List.mem_cons_self a (List.mem_cons_of_mem b List.mem_cons_self) differ]
      split
      · exact scan_congr nodupRest (agreeOn fun _ member => List.mem_cons_of_mem b member)
      · exact scan_congr (List.nodup_cons.mpr ⟨fun member => notMem (List.mem_cons_of_mem a member),
          (List.nodup_cons.mp nodupRest).2⟩)
          (agreeOn (List.cons_subset_cons b (List.subset_cons_self a rest)))

section StrictOrder

variable (irrefl : ∀ a, better a a = false)
  (trans : ∀ {a b c : α}, better a b = true → better b c = true → better a c = true)
include irrefl trans

/-- The result of a scan from `b` is `b` or better than it, and nothing the scan saw beats
it. -/
theorem scan_some_unbeaten : ∀ {b r : α} {l : List α}, scan better (some b) l = some r →
    (r = b ∨ better b r = true) ∧ Unbeaten better (b :: l) r
  | b, r, [], found => by
      cases found
      refine ⟨.inl rfl, fun a member => ?_⟩
      rw [List.mem_singleton.mp member]
      exact irrefl _
  | b, r, a :: rest, found => by
      rw [scan_some_cons] at found
      split at found
      · next replaced =>
          -- `a` took over: `r` is `a` or better than it, so better than `b`
          obtain ⟨above, unbeaten⟩ := scan_some_unbeaten found
          have fromB : better b r = true := by
            rcases above with rfl | above
            · exact replaced
            · exact trans replaced above
          refine ⟨.inr fromB, fun c member => ?_⟩
          rcases List.mem_cons.mp member with rfl | later
          · cases beats : better r c with
            | false => rfl
            | true => simpa [irrefl] using trans fromB beats
          · exact unbeaten c later
      · next kept =>
          obtain ⟨above, unbeaten⟩ := scan_some_unbeaten found
          refine ⟨above, fun c member => ?_⟩
          rcases List.mem_cons.mp member with rfl | member
          · exact unbeaten c List.mem_cons_self
          rcases List.mem_cons.mp member with rfl | later
          · -- `b` kept its place against `c`, and `r` is `b` or better than it
            rcases above with rfl | above
            · simpa using kept
            · cases beats : better r c with
              | false => rfl
              | true => simp [trans above beats] at kept
          · exact unbeaten c (List.mem_cons_of_mem b later)

theorem scan_none_unbeaten {r : α} {l : List α} (found : scan better none l = some r) :
    Unbeaten better l r := by
  cases l with
  | nil => cases found
  | cons a rest => exact (scan_some_unbeaten irrefl trans found).2

/-- An element better than every other element of the list is what the scan finds. -/
theorem scan_none_eq_of_best {w : α} {l : List α} (member : w ∈ l)
    (best : ∀ a ∈ l, a ≠ w → better a w = true) : scan better none l = some w := by
  cases l with
  | nil => cases member
  | cons a rest =>
      obtain ⟨r, found⟩ : ∃ r, scan better (some a) rest = some r := scan_some_isSome a rest
      have unbeaten := scan_none_unbeaten irrefl trans (l := a :: rest) found
      have mem : r ∈ a :: rest := mem_of_scan_none (l := a :: rest) found
      rw [scan_none_cons, found]
      by_contra differ
      have beaten := best r mem fun same => differ (congrArg some same)
      rw [unbeaten w member] at beaten
      cases beaten

end StrictOrder

section Key

variable (key : α → κ) {l : List α}

/-- Two unbeaten elements have one key when the order separates any two of different keys. -/
theorem key_eq_of_unbeaten
    (total : ∀ a ∈ l, ∀ b ∈ l, key a ≠ key b → better a b = true ∨ better b a = true)
    {r r' : α} (member : r ∈ l) (member' : r' ∈ l) (unbeaten : Unbeaten better l r)
    (unbeaten' : Unbeaten better l r') : key r = key r' := by
  by_contra differ
  rcases total r member r' member' differ with beats | beats
  · simp [unbeaten r' member'] at beats
  · simp [unbeaten' r member] at beats

/-- The key of the result does not depend on the order of the list. -/
theorem scan_perm_key (irrefl : ∀ a, better a a = false)
    (trans : ∀ {a b c : α}, better a b = true → better b c = true → better a c = true)
    (total : ∀ a ∈ l, ∀ b ∈ l, key a ≠ key b → better a b = true ∨ better b a = true)
    {l' : List α} (perm : l.Perm l') :
    (scan better none l).map key = (scan better none l').map key := by
  cases l with
  | nil => rw [List.nil_perm.mp perm]
  | cons a rest =>
      obtain ⟨r, found⟩ : ∃ r, scan better (some a) rest = some r := scan_some_isSome a rest
      cases l' with
      | nil => exact absurd perm.length_eq (by simp)
      | cons a' rest' =>
          obtain ⟨r', found'⟩ : ∃ r', scan better (some a') rest' = some r' :=
            scan_some_isSome a' rest'
          have member := mem_of_scan_none (l := a :: rest) found
          have member' := perm.symm.subset (mem_of_scan_none (l := a' :: rest') found')
          have unbeaten := scan_none_unbeaten irrefl trans (l := a :: rest) found
          have unbeaten' : Unbeaten better (a :: rest) r' := fun c inList =>
            scan_none_unbeaten irrefl trans (l := a' :: rest') found' c (perm.subset inList)
          simp only [scan_none_cons, found, found', Option.map_some]
          rw [key_eq_of_unbeaten key total member member' unbeaten unbeaten']

end Key

end ArgMax
