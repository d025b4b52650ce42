import Mathlib.Logic.Basic

/-!
# Rules for computations in `Except`

The simp set that runs a `do` block of `Except` forwards once its first steps are
known, and the inversion rules that take a successful or failed bind apart.
-/

set_option autoImplicit false

namespace Except

variable {ε α β : Type _}

@[simp] theorem ok_bind (a : α) (f : α → Except ε β) : (Except.ok a >>= f) = f a := rfl

@[simp] theorem error_bind (e : ε) (f : α → Except ε β) : (Except.error e >>= f) = .error e := rfl

@[simp] theorem pure_eq_ok (a : α) : (pure a : Except ε α) = .ok a := rfl

@[simp] theorem throw_eq_error (e : ε) : (throw e : Except ε α) = .error e := rfl

@[simp] theorem map_ok' (f : α → β) (a : α) : Except.map f (.ok a : Except ε α) = .ok (f a) := rfl

@[simp] theorem map_error' (f : α → β) (e : ε) : Except.map f (.error e : Except ε α) = .error e := rfl

@[simp] theorem ite_bind {c : Prop} [Decidable c] (x y : Except ε α) (f : α → Except ε β) :
    (if c then x else y) >>= f = if c then x >>= f else y >>= f := by
  split <;> rfl

/-- A map succeeds exactly when what it maps does. -/
theorem map_eq_ok_iff {f : α → β} {x : Except ε α} {b : β} :
    x.map f = .ok b ↔ ∃ a, x = .ok a ∧ f a = b := by
  cases x with
  | error e => simp [Except.map]
  | ok a => simp [Except.map]

/-- A bind succeeds exactly when both of its halves do. -/
theorem bind_eq_ok_iff {x : Except ε α} {f : α → Except ε β} {b : β} :
    x >>= f = .ok b ↔ ∃ a, x = .ok a ∧ f a = .ok b := by
  cases x with
  | error e => simp
  | ok a => simp

/-- A bind fails when its first half does, or when its continuation does. -/
theorem bind_eq_error_iff {x : Except ε α} {f : α → Except ε β} {e : ε} :
    x >>= f = .error e ↔ x = .error e ∨ ∃ a, x = .ok a ∧ f a = .error e := by
  cases x with
  | error e' => simp
  | ok a => simp

/-- A map over a list succeeds with the pointwise results when every element does. -/
theorem mapM_eq_ok {f : α → Except ε β} {g : α → β} :
    ∀ {l : List α}, (∀ a ∈ l, f a = .ok (g a)) → l.mapM f = .ok (l.map g)
  | [], _ => rfl
  | a :: rest, each => by
      rw [List.mapM_cons, each a List.mem_cons_self,
        mapM_eq_ok fun b member => each b (List.mem_cons_of_mem a member)]
      rfl

/-- What every step of a fold keeps holds of the fold's result. -/
theorem foldlM_invariant {f : β → α → Except ε β} (P : β → Prop)
    (step : ∀ b a b', P b → f b a = .ok b' → P b') :
    ∀ (l : List α) (init r : β), P init → l.foldlM f init = .ok r → P r
  | [], init, r, holds, done => by
      simp only [List.foldlM_nil, pure_eq_ok, ok.injEq] at done
      exact done ▸ holds
  | a :: rest, init, r, holds, done => by
      rw [List.foldlM_cons] at done
      obtain ⟨b, first, more⟩ := bind_eq_ok_iff.1 done
      exact foldlM_invariant P step rest b r (step init a b holds first) more

end Except
