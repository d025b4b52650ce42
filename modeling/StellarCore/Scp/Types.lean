import Mathlib.Order.Lex
import Mathlib.Data.Prod.Lex

/-!
# The data of the Stellar Consensus Protocol

The XDR types of `Stellar-SCP.x` (ballots, quorum sets, statements) and the enumerations
of the protocol code (`SCPPhase`, `SCPDriver::ValidationLevel`, `SCP::EnvelopeState`),
generic in the node identifiers `N`, the values `V` and the quorum-set hashes `H`. An
envelope is its statement: signatures are made and checked by the driver and play no part
in the protocol's decisions, and a slot's index is fixed for the slot.

Ballots are compared by `compareBallots`, first by counter and then by value. The lexicographic
order it computes is also installed as the `LinearOrder` of `SCPBallot`, and the lemmas at the
end of this module read each comparison of the code as a statement about that order.
-/

set_option autoImplicit false

namespace StellarCore.Scp

/-- `UINT32_MAX`: the counter that stands for an infinite ballot. -/
def uint32Max : Nat := 4294967295

/-- A ballot: a counter `n` and a value `x`. Counters are XDR `uint32`. -/
structure SCPBallot (V : Type) where
  counter : Nat
  value : V
deriving DecidableEq, Repr

/-- A quorum set: a threshold over validators and nested quorum sets. -/
structure SCPQuorumSet (N : Type) where
  threshold : Nat
  validators : List N
  innerSets : List (SCPQuorumSet N)

/-- The kinds of statement, with the numbering of the XDR enumeration. -/
inductive SCPStatementType where
  | prepare
  | confirm
  | externalize
  | nominate
deriving DecidableEq, Repr

def SCPStatementType.toNat : SCPStatementType → Nat
  | .prepare => 0
  | .confirm => 1
  | .externalize => 2
  | .nominate => 3

/-- The body of a `NOMINATE` statement: the values voted for (`X`) and accepted (`Y`). -/
structure SCPNomination (V H : Type) where
  quorumSetHash : H
  votes : List V
  accepted : List V
deriving DecidableEq, Repr

/-- The pledges of a statement, one constructor per arm of the XDR union, with the arm's
fields in their XDR order. -/
inductive SCPPledges (V H : Type) where
  | prepare (quorumSetHash : H) (ballot : SCPBallot V) (prepared preparedPrime : Option (SCPBallot V))
      (nC nH : Nat)
  | confirm (ballot : SCPBallot V) (nPrepared nCommit nH : Nat) (quorumSetHash : H)
  | externalize (commit : SCPBallot V) (nH : Nat) (commitQuorumSetHash : H)
  | nominate (nomination : SCPNomination V H)
deriving DecidableEq, Repr

def SCPPledges.type {V H : Type} : SCPPledges V H → SCPStatementType
  | .prepare .. => .prepare
  | .confirm .. => .confirm
  | .externalize .. => .externalize
  | .nominate _ => .nominate

/-- A statement of node `nodeID` about the slot. -/
structure SCPStatement (N V H : Type) where
  nodeID : N
  pledges : SCPPledges V H
deriving DecidableEq, Repr

/-- The phases of the ballot protocol. -/
inductive SCPPhase where
  | prepare
  | confirm
  | externalize
deriving DecidableEq, Repr

def SCPPhase.toNat : SCPPhase → Nat
  | .prepare => 0
  | .confirm => 1
  | .externalize => 2

/-- `SCPDriver::ValidationLevel`, ordered by its numbering. -/
inductive ValidationLevel where
  | invalidValue
  | maybeValidValue
  | fullyValidatedValue
deriving DecidableEq, Repr

def ValidationLevel.toNat : ValidationLevel → Nat
  | .invalidValue => 0
  | .maybeValidValue => 1
  | .fullyValidatedValue => 2

/-- `std::min` of two validation levels. -/
def ValidationLevel.min (l r : ValidationLevel) : ValidationLevel :=
  if r.toNat < l.toNat then r else l

/-- `SCP::EnvelopeState`: whether an envelope was taken into account. -/
inductive EnvelopeState where
  | invalid
  | valid
deriving DecidableEq, Repr

/-- The ways processing can stop: a `std::runtime_error` with its message, `std::abort` from a
failed `dbgAssert`, and, in the model only, a recursion that ran out of fuel. -/
inductive SCPError where
  | runtimeError (message : String)
  | abort
  | outOfFuel
deriving DecidableEq, Repr

/-! ## Comparing ballots -/

section Ballots

variable {V : Type} [LinearOrder V]

/-- `BallotProtocol::compareBallots`: by counter, then by value. -/
def compareBallots (b1 b2 : SCPBallot V) : Ordering :=
  if b1.counter < b2.counter then .lt
  else if b2.counter < b1.counter then .gt
  else if b1.value < b2.value then .lt
  else if b2.value < b1.value then .gt
  else .eq

/-- `compareBallots` on optional ballots: a missing ballot is below every ballot. -/
def compareOptBallots : Option (SCPBallot V) → Option (SCPBallot V) → Ordering
  | some b1, some b2 => compareBallots b1 b2
  | some _, none => .gt
  | none, some _ => .lt
  | none, none => .eq

def areBallotsCompatible (b1 b2 : SCPBallot V) : Bool :=
  decide (b1.value = b2.value)

def areBallotsLessAndIncompatible (b1 b2 : SCPBallot V) : Bool :=
  (compareBallots b1 b2).isLE && !areBallotsCompatible b1 b2

def areBallotsLessAndCompatible (b1 b2 : SCPBallot V) : Bool :=
  (compareBallots b1 b2).isLE && areBallotsCompatible b1 b2

/-- The key by which ballots are ordered. -/
def SCPBallot.key (b : SCPBallot V) : Lex (Nat × V) := toLex (b.counter, b.value)

omit [LinearOrder V] in
theorem SCPBallot.key_injective : Function.Injective (SCPBallot.key : SCPBallot V → Lex (Nat × V)) := by
  rintro ⟨counter, value⟩ ⟨counter', value'⟩ same
  simp only [SCPBallot.key, EmbeddingLike.apply_eq_iff_eq, Prod.mk.injEq] at same
  rw [same.1, same.2]

instance : LinearOrder (SCPBallot V) := LinearOrder.lift' SCPBallot.key SCPBallot.key_injective

theorem SCPBallot.lt_iff {b1 b2 : SCPBallot V} :
    b1 < b2 ↔ b1.counter < b2.counter ∨ b1.counter = b2.counter ∧ b1.value < b2.value :=
  Prod.Lex.lt_iff

theorem SCPBallot.le_iff {b1 b2 : SCPBallot V} :
    b1 ≤ b2 ↔ b1.counter < b2.counter ∨ b1.counter = b2.counter ∧ b1.value ≤ b2.value :=
  Prod.Lex.le_iff

/-- Between ballots of one value, the order is the order of the counters. -/
theorem SCPBallot.le_iff_counter_le {b1 b2 : SCPBallot V} (compatible : b1.value = b2.value) :
    b1 ≤ b2 ↔ b1.counter ≤ b2.counter := by
  rw [SCPBallot.le_iff, compatible]
  simp only [le_refl, and_true]
  omega

theorem SCPBallot.counter_le_of_le {b1 b2 : SCPBallot V} (ordered : b1 ≤ b2) :
    b1.counter ≤ b2.counter := by
  rcases SCPBallot.le_iff.1 ordered with below | ⟨same, -⟩
  · exact below.le
  · exact same.le

@[simp] theorem compareBallots_eq_lt {b1 b2 : SCPBallot V} : compareBallots b1 b2 = .lt ↔ b1 < b2 := by
  rw [SCPBallot.lt_iff]
  unfold compareBallots
  by_cases counterBelow : b1.counter < b2.counter
  · simp [counterBelow]
  by_cases counterAbove : b2.counter < b1.counter
  · simp only [counterBelow, counterAbove, if_false, if_true, reduceCtorEq, false_or, false_iff]
    omega
  have same : b1.counter = b2.counter := by omega
  by_cases valueBelow : b1.value < b2.value
  · simp [valueBelow, same]
  · by_cases valueAbove : b2.value < b1.value <;> simp [counterBelow, counterAbove, valueBelow, valueAbove]

@[simp] theorem compareBallots_eq_gt {b1 b2 : SCPBallot V} : compareBallots b1 b2 = .gt ↔ b2 < b1 := by
  rw [SCPBallot.lt_iff]
  unfold compareBallots
  by_cases counterBelow : b1.counter < b2.counter
  · simp only [counterBelow, if_true, reduceCtorEq, false_iff]
    omega
  by_cases counterAbove : b2.counter < b1.counter
  · simp [counterBelow, counterAbove]
  have same : b1.counter = b2.counter := by omega
  by_cases valueBelow : b1.value < b2.value
  · simp [counterBelow, counterAbove, valueBelow, not_lt.mpr valueBelow.le]
  · by_cases valueAbove : b2.value < b1.value <;>
      simp [valueBelow, valueAbove, same]

@[simp] theorem compareBallots_eq_eq {b1 b2 : SCPBallot V} : compareBallots b1 b2 = .eq ↔ b1 = b2 := by
  have trichotomy := lt_trichotomy b1 b2
  constructor
  · intro same
    rcases trichotomy with below | equal | above
    · rw [← compareBallots_eq_lt] at below
      rw [below] at same
      cases same
    · exact equal
    · rw [← compareBallots_eq_gt] at above
      rw [above] at same
      cases same
  · rintro rfl
    unfold compareBallots
    simp

@[simp] theorem isLE_compareBallots {b1 b2 : SCPBallot V} : (compareBallots b1 b2).isLE = true ↔ b1 ≤ b2 := by
  rcases lt_trichotomy b1 b2 with below | rfl | above
  · simp [compareBallots_eq_lt.2 below, below.le]
  · simp [compareBallots_eq_eq.2 rfl]
  · simp [compareBallots_eq_gt.2 above, not_le.mpr above]

@[simp] theorem areBallotsCompatible_iff {b1 b2 : SCPBallot V} :
    areBallotsCompatible b1 b2 = true ↔ b1.value = b2.value := by
  simp [areBallotsCompatible]

@[simp] theorem areBallotsLessAndCompatible_iff {b1 b2 : SCPBallot V} :
    areBallotsLessAndCompatible b1 b2 = true ↔ b1 ≤ b2 ∧ b1.value = b2.value := by
  simp [areBallotsLessAndCompatible]

@[simp] theorem areBallotsLessAndIncompatible_iff {b1 b2 : SCPBallot V} :
    areBallotsLessAndIncompatible b1 b2 = true ↔ b1 ≤ b2 ∧ b1.value ≠ b2.value := by
  simp [areBallotsLessAndIncompatible, areBallotsCompatible]

/-- The order `compareOptBallots` computes: `none` below every ballot. -/
@[simp] theorem compareOptBallots_eq_lt {p1 p2 : Option (SCPBallot V)} :
    compareOptBallots p1 p2 = .lt ↔ p1 < p2 := by
  cases p1 <;> cases p2 <;> simp [compareOptBallots]

@[simp] theorem compareOptBallots_eq_eq {p1 p2 : Option (SCPBallot V)} :
    compareOptBallots p1 p2 = .eq ↔ p1 = p2 := by
  cases p1 <;> cases p2 <;> simp [compareOptBallots]

end Ballots

end StellarCore.Scp
