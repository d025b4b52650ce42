import Mathlib

/-!
# Tarjan's strongly connected components (`util/TarjanSCCCalculator.{h,cpp}`)

`TarjanSCCCalculator::calculateSCCs` runs the recursive `scc` from every node that has no
index yet. `scc i` numbers `i`, pushes it on `mStack`, walks its successor bits in increasing
order, recursing into the nodes without an index and lowering `i`'s low link from its children
and from the successors still on the stack; when the low link of `i` is its own index it pops
the stack down to `i` into a new bit set appended to `mSCCs`.

A graph of `n` nodes is given by one successor bit set per node; a bit set over the nodes is
a `Finset (Fin n)`, so every successor is below `n` and `mNodes.at(j)` always finds its node.
`nextSet` visits the set bits in increasing order, which is `setBits`. The back of `mStack` is
the head of the list. `scc` recurses as deep as the graph has nodes, so the model takes that
depth as fuel and answers `none` when the fuel runs out; `calculateSCCs` gives it the number of
nodes, which is always enough. A pop on an empty stack, which the source never reaches, is
`none` too.
-/

set_option autoImplicit false

namespace StellarCore

/-- `TarjanSCCCalculator::SCCNode`: index and low link `-1` until the node is reached. -/
structure SCCNode where
  mIndex : Int := -1
  mLowLink : Int := -1
  mOnStack : Bool := false
deriving DecidableEq, Repr

/-- The set bits of a bit set over `n` nodes, in the order `nextSet` visits them. -/
def setBits {n : Nat} (bits : Finset (Fin n)) : List (Fin n) :=
  (List.finRange n).filter (· ∈ bits)

/-- The members of `TarjanSCCCalculator` for a graph of `n` nodes. -/
structure TarjanSCCCalculator (n : Nat) where
  mNodes : Fin n → SCCNode
  mStack : List (Fin n)
  mIndex : Int
  mSCCs : List (Finset (Fin n))

namespace TarjanSCCCalculator

variable {n : Nat}

/-- The state `calculateSCCs` starts from: every node fresh, nothing on the stack. -/
def cleared (n : Nat) : TarjanSCCCalculator n where
  mNodes := fun _ => {}
  mStack := []
  mIndex := 0
  mSCCs := []

/-- The start of `scc i`: `i` takes the next index as index and low link and is pushed. -/
def visit (tsc : TarjanSCCCalculator n) (i : Fin n) : TarjanSCCCalculator n :=
  { tsc with
    mNodes := Function.update tsc.mNodes i
      { mIndex := tsc.mIndex, mLowLink := tsc.mIndex, mOnStack := true }
    mIndex := tsc.mIndex + 1
    mStack := i :: tsc.mStack }

/-- `v.mLowLink = …` for the node `i`. -/
def setLowLink (tsc : TarjanSCCCalculator n) (i : Fin n) (lowLink : Int) :
    TarjanSCCCalculator n :=
  { tsc with mNodes := Function.update tsc.mNodes i { tsc.mNodes i with mLowLink := lowLink } }

/-- One pass of the loop of `scc i` over the successor `j`, with `recurse` for the nested
`scc` call. -/
def sccEdge (recurse : Fin n → TarjanSCCCalculator n → Option (TarjanSCCCalculator n))
    (i j : Fin n) (tsc : TarjanSCCCalculator n) : Option (TarjanSCCCalculator n) :=
  if (tsc.mNodes j).mIndex = -1 then do
    let tsc ← recurse j tsc
    pure (tsc.setLowLink i (min (tsc.mNodes i).mLowLink (tsc.mNodes j).mLowLink))
  else if (tsc.mNodes j).mOnStack then
    pure (tsc.setLowLink i (min (tsc.mNodes i).mLowLink (tsc.mNodes j).mIndex))
  else pure tsc

/-- The `do … while (j != i)` loop of `scc i`: pops the stack down to `i`, clearing
`mOnStack` and setting the bit of each popped node. -/
def popSCC (i : Fin n) :
    List (Fin n) → (Fin n → SCCNode) → Finset (Fin n) →
      Option (List (Fin n) × (Fin n → SCCNode) × Finset (Fin n))
  | [], _, _ => none
  | j :: rest, nodes, newScc =>
      let newScc := insert j newScc
      let nodes := Function.update nodes j { nodes j with mOnStack := false }
      if j ≠ i then popSCC i rest nodes newScc else some (rest, nodes, newScc)

/-- The end of `scc i`: when `i`'s low link is its own index, its component is popped into a
new bit set, which starts with `i`'s bit. -/
def emitSCC (tsc : TarjanSCCCalculator n) (i : Fin n) : Option (TarjanSCCCalculator n) :=
  if (tsc.mNodes i).mLowLink = (tsc.mNodes i).mIndex then do
    let (stack, nodes, newScc) ← popSCC i tsc.mStack tsc.mNodes {i}
    pure { tsc with mStack := stack, mNodes := nodes, mSCCs := tsc.mSCCs ++ [newScc] }
  else pure tsc

variable (getNodeSuccessors : Fin n → Finset (Fin n))

/-- `TarjanSCCCalculator::scc`, with `fuel` bounding the depth of the recursion. -/
def scc : Nat → Fin n → TarjanSCCCalculator n → Option (TarjanSCCCalculator n)
  | 0, _, _ => none
  | fuel + 1, i, tsc => do
      let tsc ← (setBits (getNodeSuccessors i)).foldlM
        (fun tsc j => sccEdge (scc fuel) i j tsc) (tsc.visit i)
      tsc.emitSCC i

/-- The loop of `calculateSCCs` over the nodes, each without an index starting a search. -/
def calculateSCCsFrom (tsc : TarjanSCCCalculator n) : Option (TarjanSCCCalculator n) :=
  (List.finRange n).foldlM
    (fun tsc i => if (tsc.mNodes i).mIndex = -1 then scc getNodeSuccessors n i tsc
      else pure tsc) tsc

end TarjanSCCCalculator

open TarjanSCCCalculator in
/-- `TarjanSCCCalculator::calculateSCCs`: the members are cleared, one fresh node per node of
the graph, then every node without an index starts a search. -/
def calculateSCCs (graphSize : Nat) (getNodeSuccessors : Fin graphSize → Finset (Fin graphSize)) :
    Option (TarjanSCCCalculator graphSize) :=
  calculateSCCsFrom getNodeSuccessors (cleared graphSize)

end StellarCore
