import Mathlib.Logic.Basic
import Mathlib.Order.Defs.Unbundled

/-!
# Hoare triples for stateful computations that can fail

A computation in `StateT σ (Except ε)` ends either normally, with a result and a new
state, or with an error and no state. `Triple pre x post fail` says that from every state
satisfying `pre`, a normal end satisfies `post` and an error satisfies `fail`. With
`fail := fun _ => True` this is partial correctness; a `fail` that excludes an error says
that this error never happens.

The rules follow the shape of the computation: one for each of `pure`, `bind`, `get`,
`set`, `modify`, `throw` and `if`, and the rule of consequence. `Steps inv rel x` packages
the common case of a computation that keeps an invariant and relates its first and last
state by a preorder; `Steps.bind` composes such computations.

A proof about one run goes forwards instead: the simp set of this file executes `get`,
`modify`, `pure` and `throw` and distributes `if` over the rest of the block, and
`Outcome.bind` crosses a call whose outcome a lemma describes.
-/

set_option autoImplicit false

namespace StateExcept

variable {σ ε α β : Type}

/-- What a postcondition and a failure condition say of one outcome. -/
def Outcome (post : α → σ → Prop) (fail : ε → Prop) : Except ε (α × σ) → Prop
  | .ok (a, s) => post a s
  | .error e => fail e

@[simp] theorem outcome_ok {post : α → σ → Prop} {fail : ε → Prop} (a : α) (s : σ) :
    Outcome post fail (.ok (a, s)) = post a s := rfl

@[simp] theorem outcome_error {post : α → σ → Prop} {fail : ε → Prop} (e : ε) :
    Outcome post fail (.error e : Except ε (α × σ)) = fail e := rfl

/-- From every state satisfying `pre`, `x` ends in `post` or fails in `fail`. -/
def Triple (pre : σ → Prop) (x : StateT σ (Except ε) α) (post : α → σ → Prop)
    (fail : ε → Prop) : Prop :=
  ∀ s, pre s → Outcome post fail (x.run s)

namespace Triple

variable {pre : σ → Prop} {post : α → σ → Prop} {fail : ε → Prop}

theorem pure {a : α} (establish : ∀ s, pre s → post a s) :
    Triple pre (Pure.pure a : StateT σ (Except ε) α) post fail :=
  fun s holds => establish s holds

theorem bind {x : StateT σ (Except ε) α} {f : α → StateT σ (Except ε) β}
    {mid : α → σ → Prop} {post : β → σ → Prop} (first : Triple pre x mid fail)
    (rest : ∀ a, Triple (mid a) (f a) post fail) : Triple pre (x >>= f) post fail := by
  intro s holds
  have outcome := first s holds
  simp only [StateT.run_bind]
  revert outcome
  cases x.run s with
  | error e => exact id
  | ok result =>
      obtain ⟨a, s'⟩ := result
      exact rest a s'

theorem get {post : σ → σ → Prop} (establish : ∀ s, pre s → post s s) :
    Triple pre (MonadState.get : StateT σ (Except ε) σ) post fail :=
  fun s holds => establish s holds

theorem set {post : PUnit → σ → Prop} {s' : σ} (establish : ∀ s, pre s → post ⟨⟩ s') :
    Triple pre (MonadStateOf.set s' : StateT σ (Except ε) PUnit) post fail :=
  fun s holds => establish s holds

theorem modify {post : PUnit → σ → Prop} {f : σ → σ} (establish : ∀ s, pre s → post ⟨⟩ (f s)) :
    Triple pre (modify f : StateT σ (Except ε) PUnit) post fail :=
  fun s holds => establish s holds

theorem throw {e : ε} (failing : ∀ s, pre s → fail e) :
    Triple pre (MonadExcept.throw e : StateT σ (Except ε) α) post fail :=
  fun s holds => failing s holds

theorem ite {c : Prop} [Decidable c] {t e : StateT σ (Except ε) α}
    (onTrue : c → Triple pre t post fail) (onFalse : ¬c → Triple pre e post fail) :
    Triple pre (if c then t else e) post fail := by
  by_cases holds : c
  · rw [if_pos holds]
    exact onTrue holds
  · rw [if_neg holds]
    exact onFalse holds

theorem conseq {pre' : σ → Prop} {post' : α → σ → Prop} {fail' : ε → Prop}
    {x : StateT σ (Except ε) α} (triple : Triple pre x post fail)
    (weaken : ∀ s, pre' s → pre s) (strengthen : ∀ a s, post a s → post' a s)
    (failing : ∀ e, fail e → fail' e) : Triple pre' x post' fail' := by
  intro s holds
  have outcome := triple s (weaken s holds)
  revert outcome
  cases x.run s with
  | error e => exact failing e
  | ok result => exact strengthen result.1 result.2

/-- A precondition may be proved one initial state at a time. -/
theorem of_forall {x : StateT σ (Except ε) α}
    (each : ∀ s₀, pre s₀ → Triple (fun s => s = s₀) x post fail) : Triple pre x post fail :=
  fun s holds => each s holds s rfl

/-- Two postconditions proved separately hold together; the failure condition is shared. -/
theorem and {x : StateT σ (Except ε) α} {post' : α → σ → Prop}
    (left : Triple pre x post fail) (right : Triple pre x post' fail) :
    Triple pre x (fun a s => post a s ∧ post' a s) fail := by
  intro s holds
  have outcomeLeft := left s holds
  have outcomeRight := right s holds
  revert outcomeLeft outcomeRight
  cases x.run s with
  | error e => exact fun failed _ => failed
  | ok result => exact fun one other => ⟨one, other⟩

end Triple

/-! ## Running a computation forwards -/

section Run

variable {fail : ε → Prop}

@[simp] theorem run_get_bind (f : σ → StateT σ (Except ε) β) (s : σ) :
    ((get : StateT σ (Except ε) σ) >>= f).run s = (f s).run s := rfl

@[simp] theorem run_modify (g : σ → σ) (s : σ) :
    (modify g : StateT σ (Except ε) PUnit).run s = .ok (⟨⟩, g s) := rfl

@[simp] theorem run_modify_bind (g : σ → σ) (f : PUnit → StateT σ (Except ε) β) (s : σ) :
    ((modify g : StateT σ (Except ε) PUnit) >>= f).run s = (f ⟨⟩).run (g s) := rfl

@[simp] theorem run_pure (a : α) (s : σ) : (pure a : StateT σ (Except ε) α).run s = .ok (a, s) :=
  rfl

@[simp] theorem run_throw (e : ε) (s : σ) : (throw e : StateT σ (Except ε) α).run s = .error e :=
  rfl

@[simp] theorem run_throw_bind (e : ε) (f : α → StateT σ (Except ε) β) (s : σ) :
    ((throw e : StateT σ (Except ε) α) >>= f).run s = .error e := rfl

@[simp] theorem ite_bind {c : Prop} [Decidable c] (x y : StateT σ (Except ε) α)
    (f : α → StateT σ (Except ε) β) :
    (if c then x else y) >>= f = if c then x >>= f else y >>= f := by
  split <;> rfl

@[simp] theorem run_ite {c : Prop} [Decidable c] (x y : StateT σ (Except ε) α) (s : σ) :
    (if c then x else y).run s = if c then x.run s else y.run s := by
  split <;> rfl

/-- A conditional action followed by a common continuation, as the do-notation inlines it into
both branches, is the action or nothing followed by the continuation. -/
theorem ite_seq_eq_bind {c : Prop} [Decidable c] (x : StateT σ (Except ε) PUnit)
    (k : StateT σ (Except ε) β) :
    (if c then x >>= fun _ => k else k) = (if c then x else pure ⟨⟩) >>= fun _ => k := by
  split <;> rfl

/-- The outcome of a bind: what the first computation ends in, the rest continues from. -/
theorem Outcome.bind {x : StateT σ (Except ε) α} {f : α → StateT σ (Except ε) β} {s : σ}
    {mid : α → σ → Prop} {post : β → σ → Prop} (first : Outcome mid fail (x.run s))
    (rest : ∀ a s', mid a s' → Outcome post fail ((f a).run s')) :
    Outcome post fail ((x >>= f).run s) := by
  simp only [StateT.run_bind]
  revert first
  cases x.run s with
  | error e => exact id
  | ok result => exact rest result.1 result.2

theorem Outcome.mono {post post' : α → σ → Prop} {fail' : ε → Prop} {r : Except ε (α × σ)}
    (outcome : Outcome post fail r) (strengthen : ∀ a s, post a s → post' a s)
    (failing : ∀ e, fail e → fail' e) : Outcome post' fail' r := by
  revert outcome
  cases r with
  | error e => exact failing e
  | ok result => exact strengthen result.1 result.2

end Run

/-- `x` keeps `inv` and moves along `rel`; it fails only in `fail`. -/
def Steps (inv : σ → Prop) (rel : σ → σ → Prop) (x : StateT σ (Except ε) α)
    (fail : ε → Prop) : Prop :=
  ∀ s₀, Triple (fun s => inv s ∧ s = s₀) x (fun _ s => inv s ∧ rel s₀ s) fail

namespace Steps

variable {inv : σ → Prop} {rel : σ → σ → Prop} {fail : ε → Prop}

theorem bind [IsTrans σ rel] {x : StateT σ (Except ε) α} {f : α → StateT σ (Except ε) β}
    (first : Steps inv rel x fail) (rest : ∀ a, Steps inv rel (f a) fail) :
    Steps inv rel (x >>= f) fail := by
  intro s₀
  refine Triple.bind (first s₀) fun a => ?_
  refine Triple.of_forall fun s₁ held => ?_
  refine (rest a s₁).conseq (fun s same => ⟨same ▸ held.1, same⟩) ?_ (fun _ failed => failed)
  exact fun _ s result => ⟨result.1, IsTrans.trans _ _ _ held.2 result.2⟩

theorem pure [Std.Refl rel] {a : α} : Steps inv rel (Pure.pure a : StateT σ (Except ε) α) fail :=
  fun _ s held => ⟨held.1, held.2 ▸ Std.Refl.refl s⟩

/-- A computation that keeps `inv` from every state moves along `rel`. -/
theorem of_outcome {x : StateT σ (Except ε) α}
    (outcome : ∀ s, inv s → Outcome (fun _ s' => inv s' ∧ rel s s') fail (x.run s)) :
    Steps inv rel x fail := by
  intro s₀ s held
  rw [held.2]
  exact outcome s₀ (held.2 ▸ held.1)

theorem outcome {x : StateT σ (Except ε) α} (steps : Steps inv rel x fail) {s : σ} (holds : inv s) :
    Outcome (fun _ s' => inv s' ∧ rel s s') fail (x.run s) :=
  steps s s ⟨holds, rfl⟩

/-- After a run that kept `inv` and moved along `rel`, a computation that keeps `inv` moves the
first state along `rel` too. -/
theorem outcome_after [IsTrans σ rel] {x : StateT σ (Except ε) α} (steps : Steps inv rel x fail)
    {s₀ s : σ} (held : inv s ∧ rel s₀ s) :
    Outcome (fun _ s' => inv s' ∧ rel s₀ s') fail (x.run s) :=
  (steps.outcome held.1).mono (fun _ _ result => ⟨result.1, IsTrans.trans _ _ _ held.2 result.2⟩)
    fun _ failed => failed

theorem triple {x : StateT σ (Except ε) α} (steps : Steps inv rel x fail) :
    Triple inv x (fun _ s => inv s) fail :=
  Triple.of_forall fun s₀ held =>
    (steps s₀).conseq (fun _ same => ⟨same ▸ held, same⟩) (fun _ _ result => result.1)
      (fun _ failed => failed)

end Steps

end StateExcept
