import StellarCore.Herder.QuorumIntersectionChecker
import StellarCore.Util.TarjanSCC

/-!
# The search of the quorum intersection checker

`QuorumIntersectionCheckerImpl::networkEnjoysQuorumIntersection` decides whether every two
quorums of the numbered nodes share a node. The nodes are numbered `0 .. n - 1` by
`buildGraph`, and `mGraph` holds the converted quorum set of each; `buildSCCs` runs Tarjan's
calculator over the nodes each quorum set depends on.

`contractToMaximalQuorum` shrinks a set of nodes to the greatest quorum inside it, by passes
that unset each node the shrinking set holds no slice for. The first stage looks for the SCCs
that hold a quorum: none means there is no quorum, two mean two disjoint quorums. With one,
the scan SCC, `MinQuorumEnumerator` splits the subsets of the scan SCC on one node at a time,
committed or left out, looking for a minimal quorum whose complement in the scan SCC holds a
quorum; it stops early when the committed nodes are more than half the SCC, when they hold a
quorum, and when no quorum of the perimeter extends them.

`pickSplitNode` chooses the remaining node of greatest in-degree among the remaining nodes,
breaking ties with `rand_uniform` on the checker's engine; the engine is a state `σ` with the
draw `randUniform lo hi` as a parameter. The `while (true)` loop of `contractToMaximalQuorum`
takes one pass more than its nodes as fuel, and the enumerator one level more than its
remaining nodes: every pass but the last unsets a node, every level drops one. The enumerator
answers `none` when its fuel runs out and for a failed `releaseAssert`; neither happens. The
interrupt flag, the statistics, the logging and the cache of `isAQuorum` (which returns what
the contraction returned) are left out.
-/

set_option autoImplicit false

namespace StellarCore.Herder

variable {n : Nat}

section Contract

variable (mGraph : Fin n → QBitSet (Fin n))

/-- `containsQuorumSliceForNode`: only a node of `bs` can have its slice in `bs`. -/
def containsQuorumSliceForNode (bs : Finset (Fin n)) (node : Fin n) : Bool :=
  if node ∉ bs then false else containsQuorumSlice bs (mGraph node)

/-- One pass of the loop of `contractToMaximalQuorum`: the nodes of `nodes` in increasing order,
each unset from `filtered` when `filtered` holds no slice for it. -/
def contractFilter (nodes : Finset (Fin n)) : Finset (Fin n) :=
  (setBits nodes).foldl (fun filtered i =>
    if containsQuorumSliceForNode mGraph filtered i then filtered else filtered.erase i) nodes

/-- The `while (true)` loop of `contractToMaximalQuorum`, with at most `fuel` passes. -/
def contractLoop : Nat → Finset (Fin n) → Finset (Fin n)
  | 0, nodes => nodes
  | fuel + 1, nodes =>
      let filtered := contractFilter mGraph nodes
      if filtered.card = nodes.card ∨ filtered = ∅ then filtered
      else contractLoop fuel filtered

/-- `contractToMaximalQuorum`: the greatest fixpoint of
`X ↦ {n ∈ X | containsQuorumSliceForNode(X, n)}` below `nodes`. -/
def contractToMaximalQuorum (nodes : Finset (Fin n)) : Finset (Fin n) :=
  contractLoop mGraph (nodes.card + 1) nodes

/-- `isAQuorum`. -/
def isAQuorum (nodes : Finset (Fin n)) : Bool :=
  contractToMaximalQuorum mGraph nodes ≠ ∅

/-- `isMinimalQuorum`: no quorum is left once any one node is unset. -/
def isMinimalQuorum (nodes : Finset (Fin n)) : Bool :=
  if nodes = ∅ then false
  else (setBits nodes).all fun i => !isAQuorum mGraph (nodes.erase i)

end Contract

/-- What `pickSplitNode` keeps while it counts in-degrees, with the state of the engine. -/
structure SplitCount (σ : Type) (n : Nat) where
  inDegrees : Fin n → Nat
  maxNode : Fin n
  maxCount : Nat
  maxDegree : Nat
  randEngine : σ

/-- The mutable members of the checker that the search changes: its random engine, and the
last disjoint quorums it noted (`mPotentialSplit`, as bit sets). -/
structure SearchState (σ : Type) (n : Nat) where
  mRand : σ
  mPotentialSplit : Finset (Fin n) × Finset (Fin n)

variable {σ : Type} (mGraph : Fin n → QBitSet (Fin n)) (randUniform : Nat → Nat → σ → Nat × σ)

/-- One pass of the inner loop of `pickSplitNode`, over the successor `j`: the node of greatest
in-degree so far, a tie replacing it unless the draw from `0 .. maxCount` is `0`. -/
def countInDegree (count : SplitCount σ n) (j : Fin n) : SplitCount σ n :=
  let currDegree := count.inDegrees j + 1
  let count := { count with inDegrees := Function.update count.inDegrees j currDegree }
  if currDegree ≥ count.maxDegree then
    if currDegree = count.maxDegree then
      let maxCount := count.maxCount + 1
      let (draw, randEngine) := randUniform 0 maxCount count.randEngine
      let count := { count with maxCount := maxCount, randEngine := randEngine }
      if draw = 0 then count else { count with maxDegree := currDegree, maxNode := j }
    else { count with maxCount := 1, maxDegree := currDegree, maxNode := j }
  else count

/-- `MinQuorumEnumerator::pickSplitNode`: the remaining node that most remaining nodes depend on,
starting from the largest remaining node. -/
def pickSplitNode (mRemaining : Finset (Fin n)) (randEngine : σ) : Option (Fin n × σ) :=
  if nonempty : mRemaining.Nonempty then
    let start : SplitCount σ n := ⟨fun _ => 0, mRemaining.max' nonempty, 1, 0, randEngine⟩
    let count := (setBits mRemaining).foldl (fun count i =>
      (setBits ((mGraph i).mAllSuccessors ∩ mRemaining)).foldl (countInDegree randUniform) count)
      start
    some (count.maxNode, count.randEngine)
  else none

/-- `noteFoundDisjointQuorums`. -/
def noteFoundDisjointQuorums (st : SearchState σ n) (nodes disj : Finset (Fin n)) :
    SearchState σ n :=
  { st with mPotentialSplit := (nodes, disj) }

/-- `MinQuorumEnumerator::hasDisjointQuorum`: a quorum in the scan SCC outside `nodes`. -/
def hasDisjointQuorum (mScanSCC nodes : Finset (Fin n)) (st : SearchState σ n) :
    Bool × SearchState σ n :=
  let disj := contractToMaximalQuorum mGraph (mScanSCC \ nodes)
  if disj ≠ ∅ then (true, noteFoundDisjointQuorums st nodes disj) else (false, st)

/-- `MinQuorumEnumerator::maxCommit`. -/
def maxCommit (mScanSCC : Finset (Fin n)) : Nat := mScanSCC.card / 2

/-- `MinQuorumEnumerator::anyMinQuorumHasDisjointQuorum` of the enumerator of `mCommitted` and
`mRemaining` over `mScanSCC`, with `fuel` bounding the depth of the recursion. -/
def anyMinQuorumHasDisjointQuorum (mScanSCC : Finset (Fin n)) :
    Nat → Finset (Fin n) → Finset (Fin n) → SearchState σ n → Option (Bool × SearchState σ n)
  | 0, _, _, _ => none
  | fuel + 1, mCommitted, mRemaining, st =>
      let mPerimeter := mCommitted ∪ mRemaining
      -- early exit 1: the branches that commit fewer nodes find what this one would
      if mCommitted.card > maxCommit mScanSCC then some (false, st)
      else
        -- early exit 3: every extension of a quorum has it as a subquorum
        let committedQuorum := contractToMaximalQuorum mGraph mCommitted
        if committedQuorum ≠ ∅ then
          if isMinimalQuorum mGraph committedQuorum then
            some (hasDisjointQuorum mGraph mScanSCC committedQuorum st)
          else some (false, st)
        else
          -- early exit 2: no quorum of the perimeter extends the committed nodes
          let extensionQuorum := contractToMaximalQuorum mGraph mPerimeter
          if extensionQuorum = ∅ then some (false, st)
          else if ¬ mCommitted ⊆ extensionQuorum then some (false, st)
          else if mRemaining = ∅ then some (false, st)
          else do
            let (split, mRand) ← pickSplitNode mGraph randUniform mRemaining st.mRand
            let st := { st with mRand := mRand }
            let mRemaining := mRemaining.erase split
            let (found, st) ← anyMinQuorumHasDisjointQuorum mScanSCC fuel mCommitted mRemaining st
            if found then pure (true, st)
            else anyMinQuorumHasDisjointQuorum mScanSCC fuel (insert split mCommitted) mRemaining st

/-- The first stage of `networkEnjoysQuorumIntersection`, over the SCCs not yet visited: the
first one that holds a quorum becomes the scan SCC, and a second one ends the pass with two
disjoint quorums found. -/
def scanSCCs : List (Finset (Fin n)) → Finset (Fin n) → SearchState σ n →
    Finset (Fin n) × Bool × SearchState σ n
  | [], scanSCC, st => (scanSCC, false, st)
  | scc :: rest, scanSCC, st =>
      let q := contractToMaximalQuorum mGraph scc
      if q ≠ ∅ then
        if scanSCC = ∅ then scanSCCs rest scc st
        else (scanSCC, true, noteFoundDisjointQuorums st (contractToMaximalQuorum mGraph scanSCC) q)
      else scanSCCs rest scanSCC st

/-- `buildSCCs`: Tarjan's calculator over the nodes each quorum set depends on. -/
def buildSCCs : Option (TarjanSCCCalculator n) :=
  calculateSCCs n fun i => (mGraph i).mAllSuccessors

/-- `QuorumIntersectionCheckerImpl` on the graph of its numbered nodes. -/
structure QuorumIntersectionCheckerImpl (σ : Type) (n : Nat) where
  mGraph : Fin n → QBitSet (Fin n)
  mTSC : TarjanSCCCalculator n
  search : SearchState σ n

namespace QuorumIntersectionCheckerImpl

/-- The constructor, once `buildGraph` has numbered the nodes: the SCCs are built, the engine
is seeded, and no split is noted. -/
def create (mRand : σ) : Option (QuorumIntersectionCheckerImpl σ n) := do
  let mTSC ← buildSCCs mGraph
  pure ⟨mGraph, mTSC, ⟨mRand, (∅, ∅)⟩⟩

/-- `networkEnjoysQuorumIntersection`. -/
def networkEnjoysQuorumIntersection (qic : QuorumIntersectionCheckerImpl σ n) :
    Option (Bool × QuorumIntersectionCheckerImpl σ n) :=
  let (scanSCC, foundDisjoint, search) := scanSCCs qic.mGraph qic.mTSC.mSCCs ∅ qic.search
  -- no quorum in any SCC: vacuously, every two quorums intersect
  if scanSCC = ∅ then some (true, { qic with search := search })
  else if !foundDisjoint then do
    let (found, search) ← anyMinQuorumHasDisjointQuorum qic.mGraph randUniform scanSCC
      (scanSCC.card + 1) ∅ scanSCC search
    pure (!found, { qic with search := search })
  else some (!foundDisjoint, { qic with search := search })

/-- `getPotentialSplit`, as bit sets. -/
def getPotentialSplit (qic : QuorumIntersectionCheckerImpl σ n) :
    Finset (Fin n) × Finset (Fin n) :=
  qic.search.mPotentialSplit

end QuorumIntersectionCheckerImpl

end StellarCore.Herder
