import StellarCore.Scp.LocalNode
import Mathlib.Data.List.Sort

/-!
# Sanity and normal form of quorum sets (`QuorumSetUtils`)

`isQuorumSetSane` walks a quorum set depth first, keeping the nodes seen so far and their
count across the whole walk; the first violated rule ends the walk with its message.
`normalizeQSet` removes a node (lowering the thresholds that counted it), merges singleton
inner sets into their parent, collapses a lone inner set, and sorts validators and inner sets,
the latter by `qSetCompareInt`.
-/

set_option autoImplicit false

namespace StellarCore.Scp

variable {N : Type} [LinearOrder N]

/-- `MAXIMUM_QUORUM_NESTING_LEVEL`. -/
def maximumQuorumNestingLevel : Nat := 4

/-- The duplicate check of `checkSanity`: each validator is inserted into the known nodes. -/
def insertKnownNodes : List N → List N → Except String (List N)
  | [], knownNodes => .ok knownNodes
  | node :: rest, knownNodes =>
      if node ∈ knownNodes then .error "Duplicate node found in quorum configuration"
      else insertKnownNodes rest (SortedList.insert node knownNodes)

mutual

/-- `QuorumSetSanityChecker::checkSanity`, threading the known nodes and the node count. -/
def checkSanity (extraChecks : Bool) :
    SCPQuorumSet N → Nat → List N → Nat → Except String (List N × Nat)
  | ⟨threshold, validators, innerSets⟩, depth, knownNodes, count =>
      if depth > maximumQuorumNestingLevel then .error "Maximum quorum nesting level exceeded"
      else if threshold < 1 then .error "Threshold must be greater than 0"
      else
        let totEntries := validators.length + innerSets.length
        let vBlockingSize := totEntries - threshold + 1
        let count := count + validators.length
        if threshold > totEntries then .error "Threshold exceeds total number of entries"
        else if extraChecks && decide (threshold < vBlockingSize) then
          .error "Threshold is lower than the v-blocking size (< 51%)."
        else
          match insertKnownNodes validators knownNodes with
          | .error message => .error message
          | .ok knownNodes => checkInnerSanity extraChecks innerSets (depth + 1) knownNodes count

/-- `checkSanity` over the inner sets, in order. -/
def checkInnerSanity (extraChecks : Bool) :
    List (SCPQuorumSet N) → Nat → List N → Nat → Except String (List N × Nat)
  | [], _, knownNodes, count => .ok (knownNodes, count)
  | inner :: rest, depth, knownNodes, count =>
      match checkSanity extraChecks inner depth knownNodes count with
      | .error message => .error message
      | .ok (knownNodes, count) => checkInnerSanity extraChecks rest depth knownNodes count

end

/-- `isQuorumSetSane`: `.ok ()` when sane, the error string otherwise. -/
def isQuorumSetSane (qSet : SCPQuorumSet N) (extraChecks : Bool) : Except String Unit :=
  match checkSanity extraChecks qSet 0 [] 0 with
  | .error message => .error message
  | .ok (_, count) =>
      if count < 1 ∨ count > 1000 then
        .error "Total number of nodes in a quorum must be within 1 and 1000"
      else .ok ()

mutual

/-- `normalizeQSetSimplify`: remove `idToRemove` (lowering the `uint32` threshold by the
number removed), merge singleton inner sets into the validators, and replace a quorum set of
threshold one with no validators and one inner set by that inner set. -/
def normalizeQSetSimplify (idToRemove : Option N) : SCPQuorumSet N → SCPQuorumSet N
  | ⟨threshold, validators, innerSets⟩ =>
      let (threshold, kept) := match idToRemove with
        | some removed =>
            let kept := validators.filter fun node => node ≠ removed
            ((threshold + 4294967296 - (validators.length - kept.length)) % 4294967296, kept)
        | none => (threshold, validators)
      let (merged, innerSets) := simplifyInnerSets idToRemove innerSets
      let validators := kept ++ merged
      match threshold, validators, innerSets with
      | 1, [], [inner] => inner
      | threshold, validators, innerSets => ⟨threshold, validators, innerSets⟩

/-- The loop over the inner sets of `normalizeQSetSimplify`: the validators merged from
singleton inner sets, in order, and the inner sets that remain. -/
def simplifyInnerSets (idToRemove : Option N) :
    List (SCPQuorumSet N) → List N × List (SCPQuorumSet N)
  | [] => ([], [])
  | inner :: rest =>
      let simplified := normalizeQSetSimplify idToRemove inner
      let (merged, remaining) := simplifyInnerSets idToRemove rest
      match simplified with
      | ⟨1, [node], []⟩ => (node :: merged, remaining)
      | _ => (merged, simplified :: remaining)

end

/-- The comparison of `intLexicographicalCompare` on nodes. -/
def compareNodes (l r : N) : Ordering :=
  if l < r then .lt else if r < l then .gt else .eq

/-- `intLexicographicalCompare` over validator lists. -/
def validatorsCompare : List N → List N → Ordering
  | [], [] => .eq
  | [], _ :: _ => .lt
  | _ :: _, [] => .gt
  | l :: ls, r :: rs =>
      match compareNodes l r with
      | .eq => validatorsCompare ls rs
      | c => c

mutual

/-- `qSetCompareInt`: lexicographically by validators, then inner sets, then threshold. -/
def qSetCompareInt : SCPQuorumSet N → SCPQuorumSet N → Ordering
  | ⟨lt, lv, li⟩, ⟨rt, rv, ri⟩ =>
      match validatorsCompare lv rv with
      | .eq =>
          match innerSetsCompare li ri with
          | .eq => if lt < rt then .lt else if lt = rt then .eq else .gt
          | c => c
      | c => c

/-- `intLexicographicalCompare` over inner-set lists, with `qSetCompareInt`. -/
def innerSetsCompare : List (SCPQuorumSet N) → List (SCPQuorumSet N) → Ordering
  | [], [] => .eq
  | [], _ :: _ => .lt
  | _ :: _, [] => .gt
  | l :: ls, r :: rs =>
      match qSetCompareInt l r with
      | .eq => innerSetsCompare ls rs
      | c => c

end

mutual

/-- `normalizeQuorumSetReorder`: sort the validators, reorder every inner set, and sort the
inner sets by `qSetCompareInt`. `std::sort` and insertion sort agree here: elements that
compare equal are equal. -/
def normalizeQuorumSetReorder : SCPQuorumSet N → SCPQuorumSet N
  | ⟨threshold, validators, innerSets⟩ =>
      ⟨threshold, validators.insertionSort (· ≤ ·),
        (reorderInnerSets innerSets).insertionSort fun l r => qSetCompareInt l r ≠ .gt⟩

def reorderInnerSets : List (SCPQuorumSet N) → List (SCPQuorumSet N)
  | [] => []
  | inner :: rest => normalizeQuorumSetReorder inner :: reorderInnerSets rest

end

/-- `normalizeQSet`. -/
def normalizeQSet (qSet : SCPQuorumSet N) (idToRemove : Option N) : SCPQuorumSet N :=
  normalizeQuorumSetReorder (normalizeQSetSimplify idToRemove qSet)

end StellarCore.Scp
