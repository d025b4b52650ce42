import StellarCore.Util.TarjanSCC
import StellarCore.Lib.Components

/-!
# `calculateSCCs` lists the strongly connected components

The argument is a contract for `scc i`, proved by induction on the fuel and, inside one call,
by induction on the successor bits. Between the calls the state is well formed (`Wf`): the
indices are below `mIndex` and tell the visited nodes apart, the stack holds the visited nodes
with `mOnStack`, and every emitted bit set is a component whose edges lead into it or into an
earlier one, holding exactly the visited nodes off the stack.

`scc i` starts from a state where `i` has no index and every node on the stack reaches `i`
(`Pre`). It leaves the nodes it did not reach as they were and pushes nodes that reach `i`
and that `i` reaches (`Post`). Its low link is the index of a node below it on the stack that
it reaches, or its own index; and it is at most the index of every node of the old stack that
one of the new nodes has an edge to. So when the low link is the index, no path from `i`
leaves the new nodes except into emitted components, and the nodes above `i` are its
component. The loop of `calculateSCCs` then leaves the stack empty after each root, and every
node in exactly one emitted set, so the emitted sets are exactly the components.
-/

set_option autoImplicit false

namespace StellarCore

namespace TarjanSCCCalculator

open Components Relation

variable {n : Nat}

/-- The edges of the graph `calculateSCCs` is given: from a node to each of its successor
bits. -/
def Successor (getNodeSuccessors : Fin n → Finset (Fin n)) (x y : Fin n) : Prop :=
  y ∈ getNodeSuccessors x

/-- A node that `scc` has reached: it has an index. -/
def Visited (tsc : TarjanSCCCalculator n) (x : Fin n) : Prop := (tsc.mNodes x).mIndex ≠ -1

/-- The nodes without an index. -/
def unvisited (tsc : TarjanSCCCalculator n) : Finset (Fin n) :=
  Finset.univ.filter fun x => (tsc.mNodes x).mIndex = -1

/-- The nodes reached since the state `tsc`. -/
def New (tsc tsc' : TarjanSCCCalculator n) (x : Fin n) : Prop := tsc'.Visited x ∧ ¬ tsc.Visited x

@[simp] theorem mem_setBits {bits : Finset (Fin n)} {x : Fin n} :
    x ∈ setBits bits ↔ x ∈ bits := by
  simp [setBits]

theorem mem_unvisited {tsc : TarjanSCCCalculator n} {x : Fin n} :
    x ∈ unvisited tsc ↔ ¬ tsc.Visited x := by
  simp [unvisited, Visited]

section Fields

variable {tsc : TarjanSCCCalculator n} {i x : Fin n}

@[simp] theorem visit_mNodes_self :
    (tsc.visit i).mNodes i = { mIndex := tsc.mIndex, mLowLink := tsc.mIndex, mOnStack := true } := by
  simp [visit]

theorem visit_mNodes_of_ne (other : x ≠ i) : (tsc.visit i).mNodes x = tsc.mNodes x := by
  simp [visit, Function.update_of_ne other]

@[simp] theorem visit_mStack : (tsc.visit i).mStack = i :: tsc.mStack := rfl

@[simp] theorem visit_mIndex : (tsc.visit i).mIndex = tsc.mIndex + 1 := rfl

@[simp] theorem visit_mSCCs : (tsc.visit i).mSCCs = tsc.mSCCs := rfl

theorem setLowLink_mNodes_of_ne {lowLink : Int} (other : x ≠ i) :
    (tsc.setLowLink i lowLink).mNodes x = tsc.mNodes x := by
  simp [setLowLink, Function.update_of_ne other]

@[simp] theorem setLowLink_lowLink_self {lowLink : Int} :
    ((tsc.setLowLink i lowLink).mNodes i).mLowLink = lowLink := by
  simp [setLowLink]

@[simp] theorem setLowLink_index {lowLink : Int} :
    ((tsc.setLowLink i lowLink).mNodes x).mIndex = (tsc.mNodes x).mIndex := by
  by_cases same : x = i
  · subst same
    simp [setLowLink]
  · rw [setLowLink_mNodes_of_ne same]

@[simp] theorem setLowLink_onStack {lowLink : Int} :
    ((tsc.setLowLink i lowLink).mNodes x).mOnStack = (tsc.mNodes x).mOnStack := by
  by_cases same : x = i
  · subst same
    simp [setLowLink]
  · rw [setLowLink_mNodes_of_ne same]

@[simp] theorem setLowLink_mStack {lowLink : Int} : (tsc.setLowLink i lowLink).mStack = tsc.mStack :=
  rfl

@[simp] theorem setLowLink_mIndex {lowLink : Int} : (tsc.setLowLink i lowLink).mIndex = tsc.mIndex :=
  rfl

@[simp] theorem setLowLink_mSCCs {lowLink : Int} : (tsc.setLowLink i lowLink).mSCCs = tsc.mSCCs :=
  rfl

@[simp] theorem setLowLink_visited {lowLink : Int} :
    (tsc.setLowLink i lowLink).Visited x ↔ tsc.Visited x := by
  simp [Visited]

end Fields

/-! ## The state between the calls -/

variable (g : Fin n → Finset (Fin n))

/-- What holds of the state between the calls of `scc`. -/
structure Wf (tsc : TarjanSCCCalculator n) : Prop where
  index_nonneg : 0 ≤ tsc.mIndex
  index_lt : ∀ x, tsc.Visited x → (tsc.mNodes x).mIndex < tsc.mIndex
  index_inj : ∀ x y, tsc.Visited x → tsc.Visited y →
    (tsc.mNodes x).mIndex = (tsc.mNodes y).mIndex → x = y
  stack_nodup : tsc.mStack.Nodup
  stack_visited : ∀ x ∈ tsc.mStack, tsc.Visited x
  onStack_iff : ∀ x, (tsc.mNodes x).mOnStack = true ↔ x ∈ tsc.mStack
  components : ∀ C ∈ tsc.mSCCs, IsComponent (Successor g) C
  nonempty : ∀ C ∈ tsc.mSCCs, C.Nonempty
  disjoint : tsc.mSCCs.Pairwise Disjoint
  emitted_iff : ∀ x, (∃ C ∈ tsc.mSCCs, x ∈ C) ↔ tsc.Visited x ∧ x ∉ tsc.mStack
  edgesEarlier : EdgesEarlier (Successor g) tsc.mSCCs

variable {g}

theorem wf_cleared : Wf g (cleared n) where
  index_nonneg := le_rfl
  index_lt x fresh := absurd rfl fresh
  index_inj x _ fresh := absurd rfl fresh
  stack_nodup := List.nodup_nil
  stack_visited x member := absurd member List.not_mem_nil
  onStack_iff x := by simp [cleared]
  components C member := absurd member List.not_mem_nil
  nonempty C member := absurd member List.not_mem_nil
  disjoint := List.Pairwise.nil
  emitted_iff x := by simp [cleared, Visited]
  edgesEarlier := edgesEarlier_nil

theorem Wf.setLowLink {tsc : TarjanSCCCalculator n} (wf : Wf g tsc) (i : Fin n) (lowLink : Int) :
    Wf g (tsc.setLowLink i lowLink) where
  index_nonneg := wf.index_nonneg
  index_lt x := by simpa using wf.index_lt x
  index_inj x y := by simpa using wf.index_inj x y
  stack_nodup := wf.stack_nodup
  stack_visited x := by simpa using wf.stack_visited x
  onStack_iff x := by simpa using wf.onStack_iff x
  components := wf.components
  nonempty := wf.nonempty
  disjoint := wf.disjoint
  emitted_iff x := by simpa using wf.emitted_iff x
  edgesEarlier := wf.edgesEarlier

theorem Wf.not_emitted_of_unvisited {tsc : TarjanSCCCalculator n} (wf : Wf g tsc) {x : Fin n}
    (fresh : ¬ tsc.Visited x) {C : Finset (Fin n)} (listed : C ∈ tsc.mSCCs) : x ∉ C :=
  fun member => fresh ((wf.emitted_iff x).mp ⟨C, listed, member⟩).1

theorem Wf.visit {tsc : TarjanSCCCalculator n} (wf : Wf g tsc) {i : Fin n}
    (fresh : ¬ tsc.Visited i) : Wf g (tsc.visit i) := by
  have visited_iff : ∀ x, (tsc.visit i).Visited x ↔ x = i ∨ tsc.Visited x := by
    intro x
    by_cases same : x = i
    · subst same
      simp only [Visited, visit_mNodes_self, true_or, iff_true]
      have := wf.index_nonneg
      omega
    · simp [Visited, visit_mNodes_of_ne same, same]
  have index_of_ne : ∀ x, x ≠ i → ((tsc.visit i).mNodes x).mIndex = (tsc.mNodes x).mIndex :=
    fun x other => by rw [visit_mNodes_of_ne other]
  refine ⟨by simpa using wf.index_nonneg.trans (Int.le_add_one le_rfl), ?_, ?_, ?_, ?_, ?_,
    wf.components, wf.nonempty, wf.disjoint, ?_, wf.edgesEarlier⟩
  · intro x visited
    by_cases same : x = i
    · subst same
      simp
    · have := wf.index_lt x (((visited_iff x).mp visited).resolve_left same)
      rw [index_of_ne x same, visit_mIndex]
      omega
  · intro x y visitedX visitedY equal
    by_cases sameX : x = i <;> by_cases sameY : y = i
    · rw [sameX, sameY]
    · have below := wf.index_lt y (((visited_iff y).mp visitedY).resolve_left sameY)
      rw [sameX, index_of_ne y sameY] at equal
      simp only [visit_mNodes_self] at equal
      omega
    · have below := wf.index_lt x (((visited_iff x).mp visitedX).resolve_left sameX)
      rw [sameY, index_of_ne x sameX] at equal
      simp only [visit_mNodes_self] at equal
      omega
    · rw [index_of_ne x sameX, index_of_ne y sameY] at equal
      exact wf.index_inj x y (((visited_iff x).mp visitedX).resolve_left sameX)
        (((visited_iff y).mp visitedY).resolve_left sameY) equal
  · exact List.nodup_cons.mpr ⟨fun member => fresh (wf.stack_visited i member), wf.stack_nodup⟩
  · intro x member
    rcases List.mem_cons.mp member with same | below
    · exact (visited_iff x).mpr (.inl same)
    · exact (visited_iff x).mpr (.inr (wf.stack_visited x below))
  · intro x
    by_cases same : x = i
    · subst same
      simp
    · rw [visit_mNodes_of_ne same, wf.onStack_iff x, visit_mStack, List.mem_cons]
      simp [same]
  · intro x
    by_cases same : x = i
    · subst same
      simp only [visit_mSCCs, visit_mStack, List.mem_cons_self, not_true_eq_false, and_false,
        iff_false, not_exists, not_and]
      exact fun C listed => wf.not_emitted_of_unvisited fresh listed
    · rw [visit_mSCCs, wf.emitted_iff x, visited_iff x, visit_mStack, List.mem_cons]
      simp [same]

/-! ## The pop loop -/

/-- Popping `N ++ i :: rest` down to `i` leaves `rest`, clears `mOnStack` of `i` and of `N`,
and sets their bits. -/
theorem popSCC_append (i : Fin n) (rest : List (Fin n)) :
    ∀ (N : List (Fin n)) (nodes : Fin n → SCCNode) (newScc : Finset (Fin n)), i ∉ N →
      ∃ nodes' newScc', popSCC i (N ++ i :: rest) nodes newScc = some (rest, nodes', newScc') ∧
        (∀ x, x ∈ newScc' ↔ x ∈ newScc ∨ x ∈ i :: N) ∧
        (∀ x ∈ i :: N, nodes' x = { nodes x with mOnStack := false }) ∧
        ∀ x ∉ i :: N, nodes' x = nodes x
  | [], nodes, newScc, _ => by
      refine ⟨Function.update nodes i { nodes i with mOnStack := false }, insert i newScc,
        by simp [popSCC], fun x => by simp [or_comm], fun x popped => ?_, fun x kept => ?_⟩
      · rw [List.mem_singleton.mp popped]
        simp
      · refine Function.update_of_ne (fun (same : x = i) => kept ?_) _ _
        exact same ▸ List.mem_singleton_self i
  | j :: N, nodes, newScc, notIn => by
      have other : j ≠ i := fun same => notIn (same ▸ List.mem_cons_self)
      obtain ⟨nodes', newScc', popped, members, cleared, kept⟩ := popSCC_append i rest N
        (Function.update nodes j { nodes j with mOnStack := false }) (insert j newScc)
        (fun member => notIn (List.mem_cons_of_mem j member))
      refine ⟨nodes', newScc', by simpa [popSCC, other] using popped, fun x => ?_,
        fun x member => ?_, fun x notPopped => ?_⟩
      · rw [members x]
        simp only [Finset.mem_insert, List.mem_cons]
        tauto
      · by_cases again : x ∈ i :: N
        · rw [cleared x again]
          by_cases atJ : x = j
          · subst atJ
            simp
          · rw [Function.update_of_ne atJ]
        · have atJ : x = j := by
            simp only [List.mem_cons] at member again
            tauto
          subst atJ
          rw [kept x again]
          simp
      · simp only [List.mem_cons, not_or] at notPopped
        rw [kept x (by simp [notPopped.1, notPopped.2.2]), Function.update_of_ne notPopped.2.1]

/-! ## The contract of `scc` -/

section Contract

variable {tsc cur tsc' : TarjanSCCCalculator n} {i j x : Fin n}

/-- `tsc'` leaves every node that `tsc` had reached as it was. -/
def Keeps (tsc tsc' : TarjanSCCCalculator n) : Prop :=
  ∀ x, tsc.Visited x → tsc'.mNodes x = tsc.mNodes x

theorem Keeps.visited (keeps : Keeps tsc tsc') (visited : tsc.Visited x) : tsc'.Visited x := by
  unfold Visited
  rw [keeps x visited]
  exact visited

theorem Keeps.trans (first : Keeps tsc cur) (second : Keeps cur tsc') : Keeps tsc tsc' :=
  fun x visited => (second x (first.visited visited)).trans (first x visited)

theorem Keeps.setLowLink (keeps : Keeps tsc tsc') (fresh : ¬ tsc.Visited i) (lowLink : Int) :
    Keeps tsc (tsc'.setLowLink i lowLink) := by
  intro x visited
  have other : x ≠ i := fun same => fresh (same ▸ visited)
  rw [setLowLink_mNodes_of_ne other, keeps x visited]

theorem Keeps.card_unvisited_lt (keeps : Keeps tsc tsc') (reached : New tsc tsc' i) :
    (unvisited tsc').card < (unvisited tsc).card := by
  refine Finset.card_lt_card (Finset.ssubset_iff_of_subset ?_ |>.mpr ⟨i, ?_, ?_⟩)
  · intro x member
    rw [mem_unvisited] at member ⊢
    exact fun visited => member (keeps.visited visited)
  · exact mem_unvisited.2 reached.2
  · exact fun member => mem_unvisited.1 member reached.1

theorem new_trans_iff (first : Keeps tsc cur) (second : Keeps cur tsc') :
    New tsc tsc' x ↔ New tsc cur x ∨ New cur tsc' x := by
  constructor
  · rintro ⟨visited, fresh⟩
    by_cases before : cur.Visited x
    · exact .inl ⟨before, fresh⟩
    · exact .inr ⟨visited, before⟩
  · rintro (⟨visited, fresh⟩ | ⟨visited, fresh⟩)
    · exact ⟨second.visited visited, fresh⟩
    · exact ⟨visited, fun old => fresh (first.visited old)⟩

@[simp] theorem new_setLowLink {lowLink : Int} :
    New tsc (tsc'.setLowLink i lowLink) x ↔ New tsc tsc' x := by
  simp [New]

theorem visited_of_index_eq {c : Int} (index : (tsc.mNodes x).mIndex = c) (nonneg : 0 ≤ c) :
    tsc.Visited x := by
  unfold Visited
  omega

theorem Wf.index_lt_of_mem_stack (wf : Wf g tsc) (member : x ∈ tsc.mStack) :
    (tsc.mNodes x).mIndex < tsc.mIndex :=
  wf.index_lt x (wf.stack_visited x member)

variable (g)

/-- What `scc i` needs of the state it starts from: `i` has no index yet, and every node on
the stack reaches `i`. -/
structure Pre (tsc : TarjanSCCCalculator n) (i : Fin n) : Prop where
  wf : Wf g tsc
  fresh : ¬ tsc.Visited i
  stack_reaches : ∀ y ∈ tsc.mStack, ReflTransGen (Successor g) y i

/-- The loop of `scc i` over its successors, once those in `seen` are done, against the state
`tsc` that `scc i` started from. -/
structure Loop (tsc : TarjanSCCCalculator n) (i : Fin n) (seen : List (Fin n))
    (cur : TarjanSCCCalculator n) : Prop where
  wf : Wf g cur
  keeps : Keeps tsc cur
  index_self : (cur.mNodes i).mIndex = tsc.mIndex
  new_index : ∀ x, New tsc cur x → tsc.mIndex ≤ (cur.mNodes x).mIndex
  reaches_new : ∀ x, New tsc cur x → ReflTransGen (Successor g) i x
  lowLink_le : (cur.mNodes i).mLowLink ≤ tsc.mIndex
  lowLink_sound : (cur.mNodes i).mLowLink < tsc.mIndex → ∃ y ∈ tsc.mStack,
    (tsc.mNodes y).mIndex = (cur.mNodes i).mLowLink ∧ ReflTransGen (Successor g) i y
  lowLink_complete : ∀ u y, New tsc cur u → (u = i → y ∈ seen) → y ∈ tsc.mStack →
    Successor g u y → (cur.mNodes i).mLowLink ≤ (tsc.mNodes y).mIndex
  successors_visited : ∀ u y, New tsc cur u → (u = i → y ∈ seen) → Successor g u y →
    cur.Visited y
  stack : ∃ N, cur.mStack = N ++ i :: tsc.mStack ∧
    ∀ u ∈ N, New tsc cur u ∧ ReflTransGen (Successor g) u i

/-- What `scc i` leaves, against the state `tsc` it started from. -/
structure Post (tsc : TarjanSCCCalculator n) (i : Fin n) (tsc' : TarjanSCCCalculator n) :
    Prop where
  wf : Wf g tsc'
  keeps : Keeps tsc tsc'
  index_self : (tsc'.mNodes i).mIndex = tsc.mIndex
  new_index : ∀ x, New tsc tsc' x → tsc.mIndex ≤ (tsc'.mNodes x).mIndex
  reaches_new : ∀ x, New tsc tsc' x → ReflTransGen (Successor g) i x
  lowLink_le : (tsc'.mNodes i).mLowLink ≤ tsc.mIndex
  lowLink_sound : (tsc'.mNodes i).mLowLink < tsc.mIndex → ∃ y ∈ tsc.mStack,
    (tsc.mNodes y).mIndex = (tsc'.mNodes i).mLowLink ∧ ReflTransGen (Successor g) i y
  lowLink_complete : ∀ u y, New tsc tsc' u → y ∈ tsc.mStack → Successor g u y →
    (tsc'.mNodes i).mLowLink ≤ (tsc.mNodes y).mIndex
  successors_visited : ∀ u y, New tsc tsc' u → Successor g u y → tsc'.Visited y
  stack : ∃ N, tsc'.mStack = N ++ tsc.mStack ∧
    (∀ u ∈ N, New tsc tsc' u ∧ ReflTransGen (Successor g) u i) ∧
    ((tsc'.mNodes i).mLowLink = tsc.mIndex → N = [])

variable {g} {seen : List (Fin n)}

theorem Pre.loop_visit (pre : Pre g tsc i) : Loop g tsc i [] (tsc.visit i) := by
  have newIff : ∀ x, New tsc (tsc.visit i) x ↔ x = i := by
    intro x
    by_cases same : x = i
    · subst same
      refine iff_of_true ⟨?_, pre.fresh⟩ rfl
      exact visited_of_index_eq (by simp) pre.wf.index_nonneg
    · refine iff_of_false (fun reached => reached.2 ?_) same
      have := reached.1
      rwa [Visited, visit_mNodes_of_ne same] at this
  refine ⟨pre.wf.visit pre.fresh, ?_, by simp, ?_, ?_, by simp, ?_, ?_, ?_, ⟨[], rfl, by simp⟩⟩
  · intro x visited
    exact visit_mNodes_of_ne fun same => pre.fresh (same ▸ visited)
  · intro x reached
    rw [(newIff x).mp reached]
    simp
  · intro x reached
    rw [(newIff x).mp reached]
  · simp
  · intro u y reached scope
    exact absurd (scope ((newIff u).mp reached)) List.not_mem_nil
  · intro u y reached scope
    exact absurd (scope ((newIff u).mp reached)) List.not_mem_nil

theorem Loop.new_self (pre : Pre g tsc i) (loop : Loop g tsc i seen cur) : New tsc cur i :=
  ⟨visited_of_index_eq loop.index_self pre.wf.index_nonneg, pre.fresh⟩

theorem Loop.index_lt (pre : Pre g tsc i) (loop : Loop g tsc i seen cur) :
    tsc.mIndex < cur.mIndex :=
  loop.index_self ▸ loop.wf.index_lt i (loop.new_self pre).1

/-- A node on the stack whose index is below `i`'s was on the stack before `scc i`. -/
theorem Loop.mem_old_stack (pre : Pre g tsc i) (loop : Loop g tsc i seen cur) {y : Fin n}
    (member : y ∈ cur.mStack)
    (below : (cur.mNodes y).mIndex < tsc.mIndex) :
    y ∈ tsc.mStack ∧ (tsc.mNodes y).mIndex = (cur.mNodes y).mIndex := by
  obtain ⟨N, stackCur, pushed⟩ := loop.stack
  rw [stackCur] at member
  rcases List.mem_append.mp member with inN | atOrBelow
  · exact absurd (loop.new_index y (pushed y inN).1) (not_le.mpr below)
  · rcases List.mem_cons.mp atOrBelow with rfl | old
    · exact absurd loop.index_self below.ne
    · exact ⟨old, (congrArg SCCNode.mIndex (loop.keeps y (pre.wf.stack_visited y old))).symm⟩

theorem Loop.stack_reaches (pre : Pre g tsc i) (loop : Loop g tsc i seen cur) {y : Fin n}
    (member : y ∈ cur.mStack) : ReflTransGen (Successor g) y i := by
  obtain ⟨N, stackCur, pushed⟩ := loop.stack
  rw [stackCur] at member
  rcases List.mem_append.mp member with inN | atOrBelow
  · exact (pushed y inN).2
  · rcases List.mem_cons.mp atOrBelow with rfl | old
    · exact .refl
    · exact pre.stack_reaches y old

theorem Loop.mem_stack_of_old (loop : Loop g tsc i seen cur) {y : Fin n} (old : y ∈ tsc.mStack) :
    y ∈ cur.mStack := by
  obtain ⟨N, stackCur, -⟩ := loop.stack
  rw [stackCur]
  exact List.mem_append_right _ (List.mem_cons_of_mem _ old)

theorem Loop.self_mem_stack (loop : Loop g tsc i seen cur) : i ∈ cur.mStack := by
  obtain ⟨N, stackCur, -⟩ := loop.stack
  rw [stackCur]
  exact List.mem_append_right _ List.mem_cons_self

theorem scope_of_all (all : ∀ y, Successor g i y → y ∈ seen) {u y : Fin n}
    (edge : Successor g u y) : u = i → y ∈ seen :=
  fun isI => all y (isI ▸ edge)

theorem scope_of_ne {u y : Fin n} (scope : u = i → y ∈ seen ++ [j]) (other : ¬ (u = i ∧ y = j)) :
    u = i → y ∈ seen := by
  intro isI
  rcases List.mem_append.mp (scope isI) with inSeen | isJ
  · exact inSeen
  · exact absurd ⟨isI, List.mem_singleton.mp isJ⟩ other

/-- The pass over a successor `j` without an index: `scc j` runs, then `i` takes the lower of
the two low links. -/
theorem Loop.child (pre : Pre g tsc i) (loop : Loop g tsc i seen cur) (edge : Successor g i j)
    (white : ¬ cur.Visited j) {cur₁ : TarjanSCCCalculator n} (post : Post g cur j cur₁) :
    Loop g tsc i (seen ++ [j])
      (cur₁.setLowLink i (min (cur₁.mNodes i).mLowLink (cur₁.mNodes j).mLowLink)) := by
  have selfNew := loop.new_self pre
  have atI : cur₁.mNodes i = cur.mNodes i := post.keeps i selfNew.1
  have newIff : ∀ x, New tsc cur₁ x ↔ New tsc cur x ∨ New cur cur₁ x :=
    fun x => new_trans_iff loop.keeps post.keeps
  have counter := loop.index_lt pre
  obtain ⟨N, stackCur, pushed⟩ := loop.stack
  obtain ⟨N₁, stackCur₁, pushed₁, popped₁⟩ := post.stack
  refine ⟨post.wf.setLowLink i _, (loop.keeps.trans post.keeps).setLowLink pre.fresh _,
    by simp [atI, loop.index_self], ?_, ?_, ?_, ?_, ?_, ?_, ?_⟩
  · intro x reached
    rw [setLowLink_index]
    rcases (newIff x).mp (new_setLowLink.1 reached) with old | fresh
    · rw [post.keeps x old.1]
      exact loop.new_index x old
    · have := post.new_index x fresh
      omega
  · intro x reached
    rcases (newIff x).mp (new_setLowLink.1 reached) with old | fresh
    · exact loop.reaches_new x old
    · exact .head edge (post.reaches_new x fresh)
  · rw [setLowLink_lowLink_self, atI]
    exact (min_le_left _ _).trans loop.lowLink_le
  · rw [setLowLink_lowLink_self, atI]
    intro below
    rcases le_total (cur.mNodes i).mLowLink (cur₁.mNodes j).mLowLink with first | second
    · rw [min_eq_left first] at below ⊢
      exact loop.lowLink_sound below
    · rw [min_eq_right second] at below ⊢
      -- the child's low link is a node below `j`, and below `i` too: it was on the stack before
      obtain ⟨y, member, index, reaches⟩ := post.lowLink_sound (below.trans counter)
      obtain ⟨old, same⟩ := loop.mem_old_stack pre member (by rw [index]; exact below)
      exact ⟨y, old, same.trans index, .head edge reaches⟩
  · intro u y reached scope old edgeUY
    rw [setLowLink_lowLink_self, atI]
    rcases (newIff u).mp (new_setLowLink.1 reached) with oldNew | fresh
    · by_cases atJ : u = i ∧ y = j
      · rw [← atJ.2] at white
        exact absurd (loop.keeps.visited (pre.wf.stack_visited y old)) white
      · exact (min_le_left _ _).trans
          (loop.lowLink_complete u y oldNew (scope_of_ne scope atJ) old edgeUY)
    · have bound := post.lowLink_complete u y fresh (loop.mem_stack_of_old old) edgeUY
      rw [loop.keeps y (pre.wf.stack_visited y old)] at bound
      exact (min_le_right _ _).trans bound
  · intro u y reached scope edgeUY
    rw [setLowLink_visited]
    rcases (newIff u).mp (new_setLowLink.1 reached) with oldNew | fresh
    · by_cases atJ : u = i ∧ y = j
      · rw [atJ.2]
        exact visited_of_index_eq post.index_self loop.wf.index_nonneg
      · exact post.keeps.visited (loop.successors_visited u y oldNew (scope_of_ne scope atJ) edgeUY)
    · exact post.successors_visited u y fresh edgeUY
  · refine ⟨N₁ ++ N, by rw [setLowLink_mStack, stackCur₁, stackCur, List.append_assoc], ?_⟩
    intro u member
    rcases List.mem_append.mp member with inN₁ | inN
    · obtain ⟨fresh, reachesJ⟩ := pushed₁ u inN₁
      refine ⟨new_setLowLink.2 ((newIff u).mpr (.inr fresh)), reachesJ.trans ?_⟩
      -- `j` stayed on the stack, so its low link is a node below it, which reaches `i`
      have below : (cur₁.mNodes j).mLowLink < cur.mIndex :=
        lt_of_le_of_ne post.lowLink_le fun same => List.ne_nil_of_mem inN₁ (popped₁ same)
      obtain ⟨y, onStack, -, reaches⟩ := post.lowLink_sound below
      exact reaches.trans (loop.stack_reaches pre onStack)
    · obtain ⟨oldNew, reaches⟩ := pushed u inN
      exact ⟨new_setLowLink.2 ((newIff u).mpr (.inl oldNew)), reaches⟩

/-- The pass over a successor `j` still on the stack: `i` takes `j`'s index if it is lower. -/
theorem Loop.onStack (pre : Pre g tsc i) (loop : Loop g tsc i seen cur) (edge : Successor g i j)
    (onStack : (cur.mNodes j).mOnStack = true) :
    Loop g tsc i (seen ++ [j])
      (cur.setLowLink i (min (cur.mNodes i).mLowLink (cur.mNodes j).mIndex)) := by
  have member : j ∈ cur.mStack := (loop.wf.onStack_iff j).mp onStack
  refine ⟨loop.wf.setLowLink i _, loop.keeps.setLowLink pre.fresh _,
    by simp [loop.index_self], ?_, ?_, ?_, ?_, ?_, ?_, ?_⟩
  · intro x reached
    rw [setLowLink_index]
    exact loop.new_index x (new_setLowLink.1 reached)
  · intro x reached
    exact loop.reaches_new x (new_setLowLink.1 reached)
  · rw [setLowLink_lowLink_self]
    exact (min_le_left _ _).trans loop.lowLink_le
  · rw [setLowLink_lowLink_self]
    intro below
    rcases le_total (cur.mNodes i).mLowLink (cur.mNodes j).mIndex with first | second
    · rw [min_eq_left first] at below ⊢
      exact loop.lowLink_sound below
    · rw [min_eq_right second] at below ⊢
      obtain ⟨old, same⟩ := loop.mem_old_stack pre member below
      exact ⟨j, old, same, .single edge⟩
  · intro u y reached scope old edgeUY
    rw [setLowLink_lowLink_self]
    by_cases atJ : u = i ∧ y = j
    · rw [atJ.2] at old ⊢
      rw [← loop.keeps j (pre.wf.stack_visited j old)]
      exact min_le_right _ _
    · exact (min_le_left _ _).trans
        (loop.lowLink_complete u y (new_setLowLink.1 reached) (scope_of_ne scope atJ) old edgeUY)
  · intro u y reached scope edgeUY
    rw [setLowLink_visited]
    by_cases atJ : u = i ∧ y = j
    · rw [atJ.2]
      exact loop.wf.stack_visited j member
    · exact loop.successors_visited u y (new_setLowLink.1 reached) (scope_of_ne scope atJ) edgeUY
  · obtain ⟨N, stackCur, pushed⟩ := loop.stack
    exact ⟨N, stackCur, fun u inN => ⟨new_setLowLink.2 (pushed u inN).1, (pushed u inN).2⟩⟩

/-- The pass over a successor `j` that is already in an emitted component changes nothing. -/
theorem Loop.emitted (loop : Loop g tsc i seen cur) (visited : cur.Visited j)
    (offStack : (cur.mNodes j).mOnStack = false) :
    Loop g tsc i (seen ++ [j]) cur := by
  refine { loop with lowLink_complete := ?_, successors_visited := ?_ }
  · intro u y reached scope old edgeUY
    by_cases atJ : u = i ∧ y = j
    · rw [atJ.2] at old
      have member := loop.mem_stack_of_old old
      rw [← loop.wf.onStack_iff j, offStack] at member
      exact absurd member Bool.false_ne_true
    · exact loop.lowLink_complete u y reached (scope_of_ne scope atJ) old edgeUY
  · intro u y reached scope edgeUY
    by_cases atJ : u = i ∧ y = j
    · exact atJ.2 ▸ visited
    · exact loop.successors_visited u y reached (scope_of_ne scope atJ) edgeUY

/-- One pass of the loop over a successor keeps the loop's invariant, given the contract of
the nested `scc` at the remaining fuel. -/
theorem Loop.edge {fuel : Nat} (pre : Pre g tsc i) (loop : Loop g tsc i seen cur)
    (edge : Successor g i j) (fuel_le : (unvisited tsc).card ≤ fuel + 1)
    (ih : ∀ tsc j, Pre g tsc j → (unvisited tsc).card ≤ fuel →
      ∃ tsc', scc g fuel j tsc = some tsc' ∧ Post g tsc j tsc') :
    ∃ cur', sccEdge (scc g fuel) i j cur = some cur' ∧ Loop g tsc i (seen ++ [j]) cur' := by
  unfold sccEdge
  split
  · rename_i white
    have fresh : ¬ cur.Visited j := fun visited => visited white
    have childFuel : (unvisited cur).card ≤ fuel := by
      have := loop.keeps.card_unvisited_lt (loop.new_self pre)
      omega
    obtain ⟨cur₁, run, post⟩ := ih cur j
      ⟨loop.wf, fresh, fun y member => (loop.stack_reaches pre member).tail edge⟩ childFuel
    exact ⟨_, by simp [run], loop.child pre edge fresh post⟩
  · rename_i visited
    split
    · rename_i onStack
      exact ⟨_, rfl, loop.onStack pre edge onStack⟩
    · rename_i offStack
      exact ⟨cur, rfl, loop.emitted visited (by simpa using offStack)⟩

/-- The whole loop over the successors keeps the loop's invariant. -/
theorem Loop.run {fuel : Nat} (pre : Pre g tsc i) (fuel_le : (unvisited tsc).card ≤ fuel + 1)
    (ih : ∀ tsc j, Pre g tsc j → (unvisited tsc).card ≤ fuel →
      ∃ tsc', scc g fuel j tsc = some tsc' ∧ Post g tsc j tsc') :
    ∀ (js : List (Fin n)) {seen : List (Fin n)} {cur : TarjanSCCCalculator n},
      (∀ j ∈ js, Successor g i j) → Loop g tsc i seen cur →
      ∃ cur', js.foldlM (fun cur j => sccEdge (scc g fuel) i j cur) cur = some cur' ∧
        Loop g tsc i (seen ++ js) cur'
  | [], _, cur, _, loop => ⟨cur, rfl, by simpa using loop⟩
  | j :: js, _, _, edges, loop => by
      obtain ⟨cur₁, step, loop₁⟩ := loop.edge pre (edges j List.mem_cons_self) fuel_le ih
      obtain ⟨cur₂, rest, loop₂⟩ := Loop.run pre fuel_le ih js
        (fun k member => edges k (List.mem_cons_of_mem _ member)) loop₁
      exact ⟨cur₂, by simp [List.foldlM_cons, step, rest], by simpa using loop₂⟩

/-- When `i` stays on the stack, the loop's invariant over all its successors is the
contract. -/
theorem Loop.post_of_ne (pre : Pre g tsc i) (loop : Loop g tsc i seen cur)
    (all : ∀ y, Successor g i y → y ∈ seen)
    (differ : (cur.mNodes i).mLowLink ≠ (cur.mNodes i).mIndex) : Post g tsc i cur := by
  obtain ⟨N, stackCur, pushed⟩ := loop.stack
  refine ⟨loop.wf, loop.keeps, loop.index_self, loop.new_index, loop.reaches_new,
    loop.lowLink_le, loop.lowLink_sound, ?_, ?_, ⟨N ++ [i], by simp [stackCur], ?_, ?_⟩⟩
  · intro u y reached old edgeUY
    exact loop.lowLink_complete u y reached (scope_of_all all edgeUY) old edgeUY
  · intro u y reached edgeUY
    exact loop.successors_visited u y reached (scope_of_all all edgeUY) edgeUY
  · intro u member
    rcases List.mem_append.mp member with inN | isI
    · exact pushed u inN
    · rw [List.mem_singleton.mp isI]
      exact ⟨loop.new_self pre, .refl⟩
  · intro same
    exact absurd (same.trans loop.index_self.symm) differ

/-- When `i`'s low link is its index after the loop, the nodes above it on the stack and `i`
are the nodes that reach `i` and that `i` reaches: a path from `i` that left the new nodes
would cross an edge into the old stack, which would have lowered the low link, or into an
emitted component, which would then hold `i`. -/
theorem Loop.mem_root_iff (pre : Pre g tsc i) (loop : Loop g tsc i seen cur)
    (all : ∀ y, Successor g i y → y ∈ seen) (root : (cur.mNodes i).mLowLink = tsc.mIndex)
    {N : List (Fin n)} (stackCur : cur.mStack = N ++ i :: tsc.mStack)
    (pushed : ∀ u ∈ N, New tsc cur u ∧ ReflTransGen (Successor g) u i) (y : Fin n) :
    y ∈ i :: N ↔ Mutual (Successor g) i y := by
  constructor
  · intro member
    rcases List.mem_cons.mp member with rfl | inN
    · exact .refl y
    · exact ⟨loop.reaches_new y (pushed y inN).1, (pushed y inN).2⟩
  · intro both
    have fresh : New tsc cur y := by
      by_contra old
      obtain ⟨u, v, newU, oldV, edgeUV, toU, fromV⟩ :=
        exists_exit (s := {x | New tsc cur x}) both.1 (loop.new_self pre) old
      have scope := scope_of_all all edgeUV
      have visitedV : tsc.Visited v := by
        by_contra freshV
        exact oldV ⟨loop.successors_visited u v newU scope edgeUV, freshV⟩
      by_cases onStack : v ∈ tsc.mStack
      · have lowered := loop.lowLink_complete u v newU scope onStack edgeUV
        have below := pre.wf.index_lt v visitedV
        omega
      · obtain ⟨D, listed, inD⟩ := (pre.wf.emitted_iff v).mpr ⟨visitedV, onStack⟩
        have iInD : i ∈ D :=
          ((pre.wf.components D listed).mem_iff inD).mpr ⟨fromV.trans both.2, toU.tail edgeUV⟩
        exact pre.wf.not_emitted_of_unvisited pre.fresh listed iInD
    have onCur : y ∈ cur.mStack := by
      by_contra offStack
      obtain ⟨D, listed, inD⟩ := (loop.wf.emitted_iff y).mpr ⟨fresh.1, offStack⟩
      have iInD : i ∈ D := ((loop.wf.components D listed).mem_iff inD).mpr both.symm
      exact ((loop.wf.emitted_iff i).mp ⟨D, listed, iInD⟩).2 loop.self_mem_stack
    rw [stackCur] at onCur
    rcases List.mem_append.mp onCur with inN | atOrBelow
    · exact List.mem_cons_of_mem _ inN
    · rcases List.mem_cons.mp atOrBelow with rfl | below
      · exact List.mem_cons_self
      · exact absurd (pre.wf.stack_visited y below) fresh.2

/-- When `i`'s low link is its index after the loop, an edge from `i` or a node above it
leads to one of them or into an emitted component. -/
theorem Loop.edges_of_root (pre : Pre g tsc i) (loop : Loop g tsc i seen cur)
    (all : ∀ y, Successor g i y → y ∈ seen) (root : (cur.mNodes i).mLowLink = tsc.mIndex)
    {N : List (Fin n)} (stackCur : cur.mStack = N ++ i :: tsc.mStack)
    (pushed : ∀ u ∈ N, New tsc cur u ∧ ReflTransGen (Successor g) u i) :
    ∀ x ∈ i :: N, ∀ y, Successor g x y → y ∈ i :: N ∨ ∃ D ∈ cur.mSCCs, y ∈ D := by
  intro x member y edge
  have newX : New tsc cur x := by
    rcases List.mem_cons.mp member with rfl | inN
    · exact loop.new_self pre
    · exact (pushed x inN).1
  have scope := scope_of_all all edge
  by_cases onCur : y ∈ cur.mStack
  · rw [stackCur] at onCur
    rcases List.mem_append.mp onCur with inN | atOrBelow
    · exact .inl (List.mem_cons_of_mem _ inN)
    · rcases List.mem_cons.mp atOrBelow with rfl | below
      · exact .inl List.mem_cons_self
      · have lowered := loop.lowLink_complete x y newX scope below edge
        have bound := pre.wf.index_lt_of_mem_stack below
        omega
  · exact .inr ((loop.wf.emitted_iff y).mpr ⟨loop.successors_visited x y newX scope edge, onCur⟩)

/-- The pop changes only `mOnStack`. -/
theorem popped_index_lowLink {nodes old : Fin n → SCCNode} {P : List (Fin n)}
    (cleared : ∀ x ∈ P, nodes x = { old x with mOnStack := false })
    (kept : ∀ x ∉ P, nodes x = old x) (x : Fin n) :
    (nodes x).mIndex = (old x).mIndex ∧ (nodes x).mLowLink = (old x).mLowLink := by
  by_cases popped : x ∈ P
  · rw [cleared x popped]
    exact ⟨rfl, rfl⟩
  · rw [kept x popped]
    exact ⟨rfl, rfl⟩

/-- Popping `i` and the nodes above it into a new component keeps the state well formed, when
the popped nodes are a component whose edges lead into it or into emitted components. -/
theorem Wf.emit (wf : Wf g cur) {N rest : List (Fin n)} (stackCur : cur.mStack = N ++ i :: rest)
    {nodes : Fin n → SCCNode} {C : Finset (Fin n)} (members : ∀ x, x ∈ C ↔ x ∈ i :: N)
    (cleared : ∀ x ∈ i :: N, nodes x = { cur.mNodes x with mOnStack := false })
    (kept : ∀ x ∉ i :: N, nodes x = cur.mNodes x)
    (component : IsComponent (Successor g) C)
    (edges : ∀ x ∈ C, ∀ y, Successor g x y → y ∈ C ∨ ∃ D ∈ cur.mSCCs, y ∈ D) :
    Wf g { cur with mStack := rest, mNodes := nodes, mSCCs := cur.mSCCs ++ [C] } := by
  have index_eq x := (popped_index_lowLink cleared kept x).1
  have nodup := wf.stack_nodup
  rw [stackCur] at nodup
  have popped_on : ∀ x ∈ i :: N, x ∈ cur.mStack := by
    intro x member
    rw [stackCur]
    rcases List.mem_cons.mp member with rfl | inN
    · exact List.mem_append_right _ List.mem_cons_self
    · exact List.mem_append_left _ inN
  have popped_off : ∀ x ∈ i :: N, x ∉ rest := by
    intro x member inRest
    have middle := List.nodup_middle.mp nodup
    rcases List.mem_cons.mp member with rfl | inN
    · exact (List.nodup_cons.mp middle).1 (List.mem_append_right _ inRest)
    · exact List.disjoint_of_nodup_append (List.nodup_cons.mp middle).2 inN inRest
  have rest_on : ∀ x ∈ rest, x ∈ cur.mStack := fun x inRest =>
    stackCur ▸ List.mem_append_right _ (List.mem_cons_of_mem _ inRest)
  have stack_iff : ∀ x, x ∉ i :: N → (x ∈ cur.mStack ↔ x ∈ rest) := by
    intro x notPopped
    rw [stackCur, List.mem_append, List.mem_cons]
    rw [List.mem_cons, not_or] at notPopped
    tauto
  refine ⟨wf.index_nonneg, ?_, ?_, nodup.sublist ((List.sublist_cons_self i rest).trans
    (List.sublist_append_right N _)), fun x inRest => ?_, ?_, ?_, ?_, ?_, ?_,
    wf.edgesEarlier.append edges⟩
  · intro x visited
    simpa [index_eq] using wf.index_lt x (by simpa [Visited, index_eq] using visited)
  · intro x y visitedX visitedY equal
    simp only [index_eq] at equal
    exact wf.index_inj x y (by simpa [Visited, index_eq] using visitedX)
      (by simpa [Visited, index_eq] using visitedY) equal
  · simpa [Visited, index_eq] using wf.stack_visited x (rest_on x inRest)
  · intro x
    show (nodes x).mOnStack = true ↔ x ∈ rest
    by_cases popped : x ∈ i :: N
    · rw [cleared x popped]
      simp [popped_off x popped]
    · rw [kept x popped, wf.onStack_iff x, stack_iff x popped]
  · intro D listed
    rcases List.mem_append.mp listed with old | isC
    · exact wf.components D old
    · rw [List.mem_singleton.mp isC]
      exact component
  · intro D listed
    rcases List.mem_append.mp listed with old | isC
    · exact wf.nonempty D old
    · rw [List.mem_singleton.mp isC]
      exact ⟨i, (members i).mpr List.mem_cons_self⟩
  · refine List.pairwise_append.mpr ⟨wf.disjoint, List.pairwise_singleton _ _, ?_⟩
    intro D old C' isC
    rw [List.mem_singleton.mp isC]
    refine Finset.disjoint_left.mpr fun x inD inC => ?_
    exact ((wf.emitted_iff x).mp ⟨D, old, inD⟩).2 (popped_on x ((members x).mp inC))
  · intro x
    have visited_iff : (nodes x).mIndex ≠ -1 ↔ cur.Visited x := by rw [index_eq]; rfl
    simp only [Visited, visited_iff]
    constructor
    · rintro ⟨D, listed, inD⟩
      rcases List.mem_append.mp listed with old | isC
      · obtain ⟨visited, off⟩ := (wf.emitted_iff x).mp ⟨D, old, inD⟩
        exact ⟨visited, fun inRest => off (rest_on x inRest)⟩
      · rw [List.mem_singleton.mp isC, members] at inD
        exact ⟨wf.stack_visited x (popped_on x inD), popped_off x inD⟩
    · rintro ⟨visited, notRest⟩
      by_cases popped : x ∈ i :: N
      · exact ⟨C, List.mem_append_right _ (List.mem_singleton_self C), (members x).mpr popped⟩
      · obtain ⟨D, listed, inD⟩ :=
          (wf.emitted_iff x).mpr ⟨visited, fun onCur => notRest ((stack_iff x popped).mp onCur)⟩
        exact ⟨D, List.mem_append_left _ listed, inD⟩

/-- When `i`'s low link is its index after the loop, `emitSCC` pops its component, and the
contract holds with nothing of the new nodes left on the stack. -/
theorem Loop.emit (pre : Pre g tsc i) (loop : Loop g tsc i seen cur)
    (all : ∀ y, Successor g i y → y ∈ seen)
    (same : (cur.mNodes i).mLowLink = (cur.mNodes i).mIndex) :
    ∃ tsc', cur.emitSCC i = some tsc' ∧ Post g tsc i tsc' := by
  obtain ⟨N, stackCur, pushed⟩ := loop.stack
  have root : (cur.mNodes i).mLowLink = tsc.mIndex := same.trans loop.index_self
  have notIn : i ∉ N := by
    have nodup := loop.wf.stack_nodup
    rw [stackCur] at nodup
    exact fun inN =>
      (List.nodup_cons.mp (List.nodup_middle.mp nodup)).1 (List.mem_append_left _ inN)
  obtain ⟨nodes, C, popped, members, cleared, kept⟩ :=
    popSCC_append i tsc.mStack N cur.mNodes {i} notIn
  have members' : ∀ x, x ∈ C ↔ x ∈ i :: N := by
    intro x
    rw [members x, Finset.mem_singleton, List.mem_cons]
    tauto
  have rootIff := loop.mem_root_iff pre all root stackCur pushed
  have component : IsComponent (Successor g) C := by
    intro x member y
    rw [members', rootIff] at member ⊢
    exact ⟨fun fromI => member.symm.trans fromI, fun fromX => member.trans fromX⟩
  have edges : ∀ x ∈ C, ∀ y, Successor g x y → y ∈ C ∨ ∃ D ∈ cur.mSCCs, y ∈ D := by
    intro x member y edge
    rw [members'] at member ⊢
    exact loop.edges_of_root pre all root stackCur pushed x member y edge
  have index_eq x := (popped_index_lowLink cleared kept x).1
  have lowLink_eq x := (popped_index_lowLink cleared kept x).2
  let emitted : TarjanSCCCalculator n :=
    { cur with mStack := tsc.mStack, mNodes := nodes, mSCCs := cur.mSCCs ++ [C] }
  have visited_iff : ∀ x, emitted.Visited x ↔ cur.Visited x := fun x => by
    simp only [Visited, emitted, index_eq]
  have newIff : ∀ x, New tsc emitted x ↔ New tsc cur x := fun x => by
    rw [New, New, visited_iff]
  refine ⟨emitted, by simp [emitSCC, same, stackCur, popped, emitted], ?_⟩
  refine ⟨loop.wf.emit stackCur members' cleared kept component edges, ?_, ?_, ?_, ?_, ?_, ?_, ?_, ?_,
    ⟨[], rfl, by simp, fun _ => rfl⟩⟩
  · intro x visited
    have notPopped : x ∉ i :: N := by
      rw [List.mem_cons, not_or]
      exact ⟨fun isI => pre.fresh (isI ▸ visited), fun inN => (pushed x inN).1.2 visited⟩
    exact (kept x notPopped).trans (loop.keeps x visited)
  · exact (index_eq i).trans loop.index_self
  · intro x reached
    exact (index_eq x).symm ▸ loop.new_index x ((newIff x).mp reached)
  · intro x reached
    exact loop.reaches_new x ((newIff x).mp reached)
  · exact ((lowLink_eq i).trans root).le
  · intro below
    exact absurd ((lowLink_eq i).trans root) below.ne
  · intro u y reached old edgeUY
    rw [show (emitted.mNodes i).mLowLink = (cur.mNodes i).mLowLink from lowLink_eq i]
    exact loop.lowLink_complete u y ((newIff u).mp reached) (scope_of_all all edgeUY) old edgeUY
  · intro u y reached edgeUY
    exact (visited_iff y).mpr
      (loop.successors_visited u y ((newIff u).mp reached) (scope_of_all all edgeUY) edgeUY)

variable (g)

/-- The contract of `scc`: from a state where it may start, with fuel for every node still
without an index, `scc i` returns, and what it leaves is `Post`. -/
theorem scc_post : ∀ (fuel : Nat) {tsc : TarjanSCCCalculator n} {i : Fin n}, Pre g tsc i →
    (unvisited tsc).card ≤ fuel → ∃ tsc', scc g fuel i tsc = some tsc' ∧ Post g tsc i tsc'
  | 0, _, i, pre, fuel_le =>
      absurd fuel_le (not_le.mpr (Finset.card_pos.mpr ⟨i, mem_unvisited.2 pre.fresh⟩))
  | fuel + 1, tsc, i, pre, fuel_le => by
      obtain ⟨cur, looped, loop⟩ := Loop.run pre fuel_le
        (fun _ _ pre' fuel' => scc_post fuel pre' fuel') (setBits (g i))
        (fun _ member => mem_setBits.1 member) pre.loop_visit
      have all : ∀ y, Successor g i y → y ∈ [] ++ setBits (g i) := fun y edge => by
        rw [List.nil_append]
        exact mem_setBits.2 edge
      by_cases same : (cur.mNodes i).mLowLink = (cur.mNodes i).mIndex
      · obtain ⟨tsc', emitted, post⟩ := loop.emit pre all same
        exact ⟨tsc', by simp [scc, looped, emitted], post⟩
      · exact ⟨cur, by simp [scc, looped, emitSCC, same], loop.post_of_ne pre all same⟩

end Contract

/-! ## The loop of `calculateSCCs` -/

section Roots

variable (g)

/-- After the roots in `done`: the state is well formed, the stack is empty, and every root
tried has an index. -/
structure Roots (done : List (Fin n)) (tsc : TarjanSCCCalculator n) : Prop where
  wf : Wf g tsc
  stack_nil : tsc.mStack = []
  visited : ∀ x ∈ done, tsc.Visited x

variable {g} {done : List (Fin n)} {tsc : TarjanSCCCalculator n}

/-- A root started from an empty stack leaves the stack empty: its low link cannot be the
index of a node below it, so it is its own index and its component is popped. -/
theorem Roots.step (roots : Roots g done tsc) (r : Fin n) :
    ∃ tsc', (if (tsc.mNodes r).mIndex = -1 then scc g n r tsc else pure tsc) = some tsc' ∧
      Roots g (done ++ [r]) tsc' := by
  split
  · rename_i white
    have fresh : ¬ tsc.Visited r := fun visited => visited white
    have fuel_le : (unvisited tsc).card ≤ n :=
      (Finset.card_le_univ _).trans (Fintype.card_fin n).le
    obtain ⟨tsc', run, post⟩ :=
      scc_post g n ⟨roots.wf, fresh, by simp [roots.stack_nil]⟩ fuel_le
    refine ⟨tsc', run, post.wf, ?_, ?_⟩
    · obtain ⟨N, stack', -, popped⟩ := post.stack
      have root : (tsc'.mNodes r).mLowLink = tsc.mIndex := by
        refine le_antisymm post.lowLink_le (not_lt.mp fun below => ?_)
        obtain ⟨y, member, -⟩ := post.lowLink_sound below
        simp [roots.stack_nil] at member
      rw [stack', popped root, roots.stack_nil, List.append_nil]
    · intro x member
      rcases List.mem_append.mp member with old | isR
      · exact post.keeps.visited (roots.visited x old)
      · rw [List.mem_singleton.mp isR]
        exact visited_of_index_eq post.index_self roots.wf.index_nonneg
  · rename_i visited
    refine ⟨tsc, rfl, roots.wf, roots.stack_nil, fun x member => ?_⟩
    rcases List.mem_append.mp member with old | isR
    · exact roots.visited x old
    · exact List.mem_singleton.mp isR ▸ visited

theorem Roots.run : ∀ (rs : List (Fin n)) {done : List (Fin n)} {tsc : TarjanSCCCalculator n},
    Roots g done tsc → ∃ tsc', rs.foldlM (fun tsc i =>
      if (tsc.mNodes i).mIndex = -1 then scc g n i tsc else pure tsc) tsc = some tsc' ∧
      Roots g (done ++ rs) tsc'
  | [], _, tsc, roots => ⟨tsc, rfl, by simpa using roots⟩
  | r :: rs, _, _, roots => by
      obtain ⟨tsc₁, step, roots₁⟩ := roots.step r
      obtain ⟨tsc₂, rest, roots₂⟩ := Roots.run rs roots₁
      refine ⟨tsc₂, ?_, by simpa using roots₂⟩
      rw [List.foldlM_cons, step]
      exact rest

theorem roots_cleared : Roots g [] (cleared n) :=
  ⟨wf_cleared, rfl, fun _ member => absurd member List.not_mem_nil⟩

/-- Once every node was tried as a root, the emitted sets are the decomposition: every node has
an index and the stack is empty, so every node is in an emitted set. -/
theorem Roots.isDecomposition (roots : Roots g (List.finRange n) tsc) :
    IsDecomposition (Successor g) tsc.mSCCs := by
  refine .of_components roots.wf.nonempty (fun x => ?_) roots.wf.disjoint
    roots.wf.components roots.wf.edgesEarlier
  have visited := roots.visited x (List.mem_finRange x)
  exact (roots.wf.emitted_iff x).mpr ⟨visited, by simp [roots.stack_nil]⟩

end Roots

end TarjanSCCCalculator

open TarjanSCCCalculator Components

/-- Whatever `calculateSCCs` returns lists the strongly connected components of the graph. -/
theorem isDecomposition_of_calculateSCCs {n : Nat} {getNodeSuccessors : Fin n → Finset (Fin n)}
    {tsc : TarjanSCCCalculator n} (calculated : calculateSCCs n getNodeSuccessors = some tsc) :
    IsDecomposition (Successor getNodeSuccessors) tsc.mSCCs := by
  obtain ⟨tsc', run, roots⟩ := Roots.run (List.finRange n) roots_cleared
  have same : tsc' = tsc := Option.some.inj (run.symm.trans calculated)
  exact same ▸ roots.isDecomposition

theorem calculateSCCs_isDecomposition (n : Nat) (getNodeSuccessors : Fin n → Finset (Fin n)) :
    ∃ tsc, calculateSCCs n getNodeSuccessors = some tsc ∧
      IsDecomposition (Successor getNodeSuccessors) tsc.mSCCs := by
  obtain ⟨tsc, run, roots⟩ := Roots.run (List.finRange n) roots_cleared
  exact ⟨tsc, run, roots.isDecomposition⟩

/-- The bit sets `calculateSCCs` lists are exactly the strongly connected components of the
graph. -/
theorem calculateSCCs_mem_iff (n : Nat) (getNodeSuccessors : Fin n → Finset (Fin n)) :
    ∃ tsc, calculateSCCs n getNodeSuccessors = some tsc ∧ ∀ C : Finset (Fin n),
      C ∈ tsc.mSCCs ↔ C.Nonempty ∧ IsComponent (Successor getNodeSuccessors) C := by
  obtain ⟨tsc, run, roots⟩ := Roots.run (List.finRange n) roots_cleared
  exact ⟨tsc, run, fun C => roots.isDecomposition.mem_iff_isComponent⟩

end StellarCore
