import StellarCore.Scp.Types
import StellarCore.Lib.SortedList

/-!
# Quorum slices, v-blocking sets and quorums (`LocalNode`)

`isQuorumSliceInternal` counts the satisfied entries of a quorum set down from its
threshold in a `uint32`, and `isVBlockingInternal` counts the blocked entries down from
`1 + entries - threshold` in an `int`; both stop at the first entry that reaches zero, which
is why the walks are written as countdowns over the list of hits, validators first and
inner sets after. `isQuorum` repeatedly drops the nodes whose own quorum set is not
satisfied by the remaining ones, until nothing changes, and then asks for a slice of the
local quorum set. The loop is bounded by the number of nodes plus one: every round either
stops or drops a node.
-/

set_option autoImplicit false

namespace StellarCore.Scp

variable {N : Type} [LinearOrder N]

/-- `thresholdLeft--` on a `uint32`. -/
def uint32Decrement (x : Nat) : Nat := (x + 4294967295) % 4294967296

/-- The countdown of `isQuorumSliceInternal`: each hit decrements the `uint32` left and
`thresholdLeft <= 0` is reached when it is zero. -/
def thresholdReached : Nat → List Bool → Bool
  | _, [] => false
  | left, hit :: rest =>
      if hit then
        if uint32Decrement left = 0 then true else thresholdReached (uint32Decrement left) rest
      else thresholdReached left rest

/-- The countdown of `isVBlockingInternal`, on an `int`. -/
def blockReached : Int → List Bool → Bool
  | _, [] => false
  | left, hit :: rest =>
      if hit then
        if left - 1 ≤ 0 then true else blockReached (left - 1) rest
      else blockReached left rest

mutual

/-- `LocalNode::isQuorumSliceInternal`: whether `nodeSet` satisfies the quorum set. -/
def isQuorumSliceInternal : SCPQuorumSet N → List N → Bool
  | ⟨threshold, validators, innerSets⟩, nodeSet =>
      thresholdReached threshold
        (validators.map (fun validator => decide (validator ∈ nodeSet)) ++
          innerSliceHits innerSets nodeSet)

/-- Which inner sets `nodeSet` satisfies. -/
def innerSliceHits : List (SCPQuorumSet N) → List N → List Bool
  | [], _ => []
  | inner :: rest, nodeSet => isQuorumSliceInternal inner nodeSet :: innerSliceHits rest nodeSet

end

/-- `(int)((1 + validators.size() + innerSets.size()) - threshold)`: computed in `size_t` and
narrowed to a 32-bit `int`. -/
def leftTillBlock (qset : SCPQuorumSet N) : Int :=
  Int.bmod (1 + qset.validators.length + qset.innerSets.length - qset.threshold) 4294967296

mutual

/-- `LocalNode::isVBlockingInternal`: whether `nodeSet` meets every slice of the quorum set.
There is no v-blocking set for a threshold of zero. -/
def isVBlockingInternal : SCPQuorumSet N → List N → Bool
  | ⟨threshold, validators, innerSets⟩, nodeSet =>
      if threshold = 0 then false
      else
        blockReached (leftTillBlock ⟨threshold, validators, innerSets⟩)
          (validators.map (fun validator => decide (validator ∈ nodeSet)) ++
            innerBlockHits innerSets nodeSet)

/-- Which inner sets `nodeSet` blocks. -/
def innerBlockHits : List (SCPQuorumSet N) → List N → List Bool
  | [], _ => []
  | inner :: rest, nodeSet => isVBlockingInternal inner nodeSet :: innerBlockHits rest nodeSet

end

/-- `LocalNode::isQuorumSlice`. -/
def isQuorumSlice (qSet : SCPQuorumSet N) (nodeSet : List N) : Bool :=
  isQuorumSliceInternal qSet nodeSet

/-- `LocalNode::isVBlocking` on a node set. -/
def isVBlocking (qSet : SCPQuorumSet N) (nodeSet : List N) : Bool :=
  isVBlockingInternal qSet nodeSet

mutual

/-- `LocalNode::forAllNodes`, collecting the nodes it visits: validators first, then the
nodes of each inner set. -/
def allNodes : SCPQuorumSet N → List N
  | ⟨_, validators, innerSets⟩ => validators ++ innerAllNodes innerSets

def innerAllNodes : List (SCPQuorumSet N) → List N
  | [] => []
  | inner :: rest => allNodes inner ++ innerAllNodes rest

end

/-- `leftTillBlock--` on a `size_t`. -/
def sizeDecrement (x : Nat) : Nat := (x + 18446744073709551615) % 18446744073709551616

/-- The two loops of `findClosestVBlocking` over the entries of a level: an entry that is
already blocked takes `leftTillBlock` one down, and the function returns early when it reaches
zero; every other entry keeps what it needs to be blocked. -/
def closestLoop {α β : Type} (blocked : α → Bool) (need : α → β) :
    Nat → List α → Option (Nat × List β)
  | left, [] => some (left, [])
  | left, entry :: rest =>
      if blocked entry then
        if sizeDecrement left = 0 then none else closestLoop blocked need (sizeDecrement left) rest
      else (closestLoop blocked need left rest).map fun (left, needs) => (left, need entry :: needs)

mutual

/-- `LocalNode::findClosestVBlocking`: the nodes of `nodes` to add to the nodes outside it to
block the quorum set, the validators first and then the inner sets whose own answers are
smallest. `resInternals` is a `std::multiset` ordered by size, which keeps equal sizes in the
order they were inserted: a stable sort by length. -/
def findClosestVBlocking : SCPQuorumSet N → List N → Option N → List N
  | ⟨threshold, validators, innerSets⟩, nodes, excluded =>
      let leftTillBlock :=
        (1 + validators.length + innerSets.length + 18446744073709551616 - threshold) %
          18446744073709551616
      match closestLoop (fun validator => decide (validator ∉ nodes)) id leftTillBlock
          (validators.filter fun validator => excluded != some validator) with
      | none => []
      | some (leftTillBlock, res) =>
          match closestLoop List.isEmpty id leftTillBlock
              (innerClosestVBlocking innerSets nodes excluded) with
          | none => []
          | some (leftTillBlock, resInternals) =>
              let res := res.take leftTillBlock
              let leftTillBlock := leftTillBlock - res.length
              res ++ ((resInternals.insertionSort fun v₁ v₂ => v₁.length ≤ v₂.length).take
                leftTillBlock).flatten

/-- `findClosestVBlocking` of each inner set. -/
def innerClosestVBlocking : List (SCPQuorumSet N) → List N → Option N → List (List N)
  | [], _, _ => []
  | inner :: rest, nodes, excluded =>
      findClosestVBlocking inner nodes excluded :: innerClosestVBlocking rest nodes excluded

end

/-- `LocalNode::buildSingletonQSet`: the quorum set `{1, {nodeID}}`. -/
def buildSingletonQSet (nodeID : N) : SCPQuorumSet N := ⟨1, [nodeID], []⟩

section Maps

variable {α : Type}

/-- The nodes of a latest-envelope map whose statement passes `filter`, in key order. -/
def filteredNodes (map : List (N × α)) (filter : α → Bool) : List N :=
  (map.filter fun entry => filter entry.2).map Prod.fst

/-- `LocalNode::isVBlocking` on a latest-envelope map. -/
def isVBlockingMap (qSet : SCPQuorumSet N) (map : List (N × α)) (filter : α → Bool) : Bool :=
  isVBlocking qSet (filteredNodes map filter)

/-- One round of `isQuorum`: keep the nodes whose own quorum set `pNodes` satisfies. Every
node of `pNodes` has an entry, so the missing-entry case does not arise. -/
def quorumRound (map : List (N × α)) (qfun : α → Option (SCPQuorumSet N)) (pNodes : List N) :
    List N :=
  pNodes.filter fun nodeID =>
    match SortedMap.lookup nodeID map with
    | some statement =>
        match qfun statement with
        | some qSet => isQuorumSlice qSet pNodes
        | none => false
    | none => false

/-- The `do ... while (count != pNodes.size())` loop of `isQuorum`. -/
def quorumLoop (map : List (N × α)) (qfun : α → Option (SCPQuorumSet N)) :
    Nat → List N → List N
  | 0, pNodes => pNodes
  | fuel + 1, pNodes =>
      let fNodes := quorumRound map qfun pNodes
      if pNodes.length = fNodes.length then fNodes else quorumLoop map qfun fuel fNodes

/-- `LocalNode::isQuorum`: whether the nodes whose statements pass `filter` contain a quorum
(for the nodes' own quorum sets, given by `qfun`) that satisfies `qSet`. -/
def isQuorum (qSet : SCPQuorumSet N) (map : List (N × α)) (qfun : α → Option (SCPQuorumSet N))
    (filter : α → Bool) : Bool :=
  let pNodes := filteredNodes map filter
  isQuorumSlice qSet (quorumLoop map qfun (pNodes.length + 1) pNodes)

end Maps

end StellarCore.Scp
