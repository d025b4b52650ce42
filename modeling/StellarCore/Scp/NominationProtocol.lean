import StellarCore.Scp.BallotProtocol

/-!
# The nomination protocol (`NominationProtocol.cpp`)

Votes (`X`), accepted values (`Y`) and candidates (`Z`) are sets of values. A node votes for
its own value when it leads the round and for new values of the round leaders it heard from;
a value is accepted when a v-blocking set accepted it or a quorum voted or accepted it, and
becomes a candidate when a quorum accepted it. Every change to `X` or `Y` is announced by
`emitNomination`, which hands the new statement back to `Slot::processEnvelope` (the
parameter `process`), where it may cause further changes and a nested statement. New
candidates are combined by the driver and handed to the ballot protocol (`bumpState`, a
parameter as well).

The parts that do not emit (the loops over votes, accepted values and leaders, the choice of
a leader's value, the round leaders) are functions of the nomination state; only the driver's
hashes can stop them, when the previous value is empty.
-/

set_option autoImplicit false

namespace StellarCore.Scp

namespace NominationProtocol

variable {N V H : Type} [LinearOrder N] [LinearOrder V] [DecidableEq H]

/-! ## Statements -/

/-- `isSubsetHelper (p, v, notEqual)`: whether `p` is included in `v`, with `notEqual`. -/
def isSubsetHelper (p v : List V) : Bool × Bool :=
  if p.length ≤ v.length then
    let res := SortedList.includes v p
    (res, if res then p.length != v.length else true)
  else (false, true)

/-- `isNewerStatement (oldst, st)`: both sets grew or stayed, and one grew. -/
def isNewerStatement (oldst st : SCPNomination V H) : Bool :=
  let (votesIncluded, votesGrew) := isSubsetHelper oldst.votes st.votes
  if votesIncluded then
    let (acceptedIncluded, acceptedGrew) := isSubsetHelper oldst.accepted st.accepted
    if acceptedIncluded then votesGrew || acceptedGrew else false
  else false

/-- No two neighbours out of order: `std::adjacent_find` with `!(l < r)` finds nothing. -/
def strictlyIncreasing : List V → Bool
  | [] => true
  | [_] => true
  | a :: b :: rest => decide (a < b) && strictlyIncreasing (b :: rest)

/-- `isSane`: something is voted or accepted, and both lists are strictly increasing. -/
def isSane (nom : SCPNomination V H) : Bool :=
  nom.votes.length + nom.accepted.length != 0 &&
    strictlyIncreasing nom.votes && strictlyIncreasing nom.accepted

/-- The nomination a statement carries. -/
def nominationOf (st : SCPStatement N V H) : Option (SCPNomination V H) :=
  match st.pledges with
  | .nominate nom => some nom
  | _ => none

/-- `isNewerStatement (nodeID, st)`: newer than the node's latest nomination, if any. -/
def isNewerThanLatest (latestNominations : List (N × SCPStatement N V H)) (nodeID : N)
    (nom : SCPNomination V H) : Bool :=
  match SortedMap.lookup nodeID latestNominations with
  | none => true
  | some old => (nominationOf old).any fun oldNom => isNewerStatement oldNom nom

/-- `acceptPredicate`: whether the statement accepts `v`. -/
def acceptPredicate (v : V) (st : SCPStatement N V H) : Bool :=
  (nominationOf st).any fun nom => decide (v ∈ nom.accepted)

/-- Whether the statement votes for `v`. -/
def votedFor (v : V) (st : SCPStatement N V H) : Bool :=
  (nominationOf st).any fun nom => decide (v ∈ nom.votes)

/-! ## Votes, accepted values and candidates -/

section Driver

variable (scp : SCP N V H)

/-- The body of the loop of `processEnvelope` over the statement's votes: a value that a
federated vote accepts is accepted (and voted for) if fully valid, and otherwise a valid
variation of it is voted for. The result says whether anything changed. -/
def acceptVote (np : NominationProtocol N V H) (v : V) : Bool × NominationProtocol N V H :=
  if v ∈ np.accepted then (false, np)
  else if federatedAccept scp (votedFor v) (acceptPredicate v) np.latestNominations then
    if scp.driver.validateValue v true == .fullyValidatedValue then
      (true, { np with
        accepted := SortedList.insert v np.accepted
        votes := SortedList.insert v np.votes })
    else
      match scp.driver.extractValidValue v with
      | some toVote =>
          if toVote ∈ np.votes then (false, np)
          else (true, { np with votes := SortedList.insert toVote np.votes })
      | none => (false, np)
  else (false, np)

/-- The loop of `processEnvelope` over the statement's votes. -/
def acceptVotes (np : NominationProtocol N V H) : List V → Bool × NominationProtocol N V H
  | [] => (false, np)
  | v :: rest =>
      let (modified, np) := acceptVote scp np v
      let (more, np) := acceptVotes np rest
      (modified || more, np)

/-- The body of the loop of `processEnvelope` over the accepted values: one that a quorum
accepted becomes a candidate. The result says whether it is a new candidate. -/
def promoteCandidate (np : NominationProtocol N V H) (a : V) : Bool × NominationProtocol N V H :=
  if a ∈ np.candidates then (false, np)
  else if federatedRatify scp (acceptPredicate a) np.latestNominations then
    (true, { np with candidates := SortedList.insert a np.candidates })
  else (false, np)

/-- The loop of `processEnvelope` over the accepted values. -/
def promoteCandidates (np : NominationProtocol N V H) : List V → Bool × NominationProtocol N V H
  | [] => (false, np)
  | a :: rest =>
      let (promoted, np) := promoteCandidate scp np a
      let (more, np) := promoteCandidates np rest
      (promoted || more, np)

/-- `hashValue`: the driver's hash of a value in this round. -/
def hashValue (np : NominationProtocol N V H) (value : V) : Except SCPError Nat :=
  if np.previousValue = scp.emptyValue then .error .abort
  else .ok (scp.driver.computeValueHash np.previousValue np.roundNumber value)

/-- `hashNode`: the driver's hash of a node in this round. -/
def hashNode (np : NominationProtocol N V H) (isPriority : Bool) (nodeID : N) : Except SCPError Nat :=
  if np.previousValue = scp.emptyValue then .error .abort
  else .ok (scp.driver.computeHashNode np.previousValue isPriority np.roundNumber nodeID)

/-- One step of `getNewValueFromNomination`: the value to vote for, its hash, and whether a
valid value was found. -/
def pickValue (np : NominationProtocol N V H) (acc : Option V × Nat × Bool) (value : V) :
    Except SCPError (Option V × Nat × Bool) :=
  let (newVote, newHash, _) := acc
  let valueToNominate :=
    if scp.driver.validateValue value true == .fullyValidatedValue then some value
    else scp.driver.extractValidValue value
  match valueToNominate with
  | none => .ok acc
  | some v =>
      if v ∈ np.votes then .ok (newVote, newHash, true)
      else
        match hashValue scp np v with
        | .error e => .error e
        | .ok curHash =>
            if curHash ≥ newHash then .ok (some v, curHash, true) else .ok (newVote, newHash, true)

/-- `getNewValueFromNomination`: of the leader's accepted values (or, when none is valid, its
votes), the valid one not voted for yet with the highest hash. -/
def getNewValueFromNomination (np : NominationProtocol N V H) (nom : SCPNomination V H) :
    Except SCPError (Option V) :=
  match nom.accepted.foldlM (pickValue scp np) (none, 0, false) with
  | .error e => .error e
  | .ok acc =>
      if acc.2.2 then .ok acc.1
      else
        match nom.votes.foldlM (pickValue scp np) acc with
        | .error e => .error e
        | .ok acc => .ok acc.1

/-- The vote the latest nomination of a round leader gives, if any. -/
def leaderVote (np : NominationProtocol N V H) (leader : N) : Except SCPError (Option V) :=
  match SortedMap.lookup leader np.latestNominations with
  | some st =>
      match nominationOf st with
      | some nom => getNewValueFromNomination scp np nom
      | none => .ok none
  | none => .ok none

/-- The loop of `nominate` over the round leaders: vote for a new value from each leader's
latest nomination. The result says whether a vote was added. -/
def leaderVotes (np : NominationProtocol N V H) : List N → Except SCPError (Bool × NominationProtocol N V H)
  | [] => .ok (false, np)
  | leader :: rest =>
      match leaderVote scp np leader with
      | .error e => .error e
      | .ok (some v) =>
          match leaderVotes { np with votes := SortedList.insert v np.votes } rest with
          | .error e => .error e
          | .ok (_, np) => .ok (true, np)
      | .ok none => leaderVotes np rest

/-- `getNodePriority`: the node's priority hash if its weight admits it, else zero. -/
def getNodePriority (np : NominationProtocol N V H) (nodeID : N) (qset : SCPQuorumSet N) :
    Except SCPError Nat :=
  let w := scp.driver.getNodeWeight nodeID qset (nodeID == scp.localNode.nodeID)
  if w > 0 then
    match hashNode scp np false nodeID with
    | .error e => .error e
    | .ok h => if h ≤ w then hashNode scp np true nodeID else .ok 0
  else .ok 0

/-- One pass of `updateRoundLeaders`: the nodes of top priority, starting from the local node;
none when no node has priority. -/
def newRoundLeaders (np : NominationProtocol N V H) (myQSet : SCPQuorumSet N) :
    Except SCPError (List N) :=
  match getNodePriority scp np scp.localNode.nodeID myQSet with
  | .error e => .error e
  | .ok topPriority =>
      let step := fun (acc : List N × Nat) (cur : N) => show Except SCPError (List N × Nat) from
        match getNodePriority scp np cur myQSet with
        | .error e => .error e
        | .ok w =>
            let acc := if w > acc.2 then ([], w) else acc
            .ok (if w == acc.2 && w > 0 then SortedList.insert cur acc.1 else acc.1, acc.2)
      match (allNodes myQSet).foldlM step ([scp.localNode.nodeID], topPriority) with
      | .error e => .error e
      | .ok (leaders, top) => .ok (if top == 0 then [] else leaders)

/-- The `while` loop of `updateRoundLeaders`: extend the leaders, moving to the next round
while a pass adds nobody. -/
def updateRoundLeadersLoop (myQSet : SCPQuorumSet N) (maxLeaderCount : Nat) :
    Nat → NominationProtocol N V H → Except SCPError (NominationProtocol N V H)
  | 0, _ => .error .outOfFuel
  | fuel + 1, np =>
      if np.roundLeaders.length < maxLeaderCount then
        match newRoundLeaders scp np myQSet with
        | .error e => .error e
        | .ok leaders =>
            let merged := leaders.foldl (fun roundLeaders n => SortedList.insert n roundLeaders)
              np.roundLeaders
            if np.roundLeaders.length != merged.length then .ok { np with roundLeaders := merged }
            else updateRoundLeadersLoop myQSet maxLeaderCount fuel
              { np with roundNumber := np.roundNumber + 1 }
      else .ok np

/-- `updateRoundLeaders`, over the local quorum set normalized without the local node. -/
def updateRoundLeaders (fuel : Nat) (np : NominationProtocol N V H) :
    Except SCPError (NominationProtocol N V H) :=
  let myQSet := normalizeQSet scp.localNode.qSet (some scp.localNode.nodeID)
  updateRoundLeadersLoop scp myQSet (1 + (allNodes myQSet).length) fuel np

end Driver

/-! ## Emitting and processing nominations -/

section Stateful

variable (scp : SCP N V H) (process : SCPStatement N V H → SlotM N V H EnvelopeState)
  (bumpState : V → Bool → SlotM N V H Bool)

/-- `recordEnvelope`: the statement becomes its node's latest nomination. -/
def recordEnvelope (st : SCPStatement N V H) : SlotM N V H Unit :=
  modifyNominationProtocol fun np =>
    { np with latestNominations := SortedMap.upsert st.nodeID st np.latestNominations }

/-- The local node's nomination statement: its votes and accepted values. -/
def nominationStatement (np : NominationProtocol N V H) : SCPStatement N V H :=
  ⟨scp.localNode.nodeID, .nominate ⟨scp.localNode.qSetHash, np.votes, np.accepted⟩⟩

/-- `emitNomination`: process the local node's statement as its own and keep it as the last
envelope when it is newer. A statement of its own that the node refuses is a bug of the
application. -/
def emitNomination : SlotM N V H Unit := do
  let np ← getNominationProtocol
  let st := nominationStatement scp np
  let result ← process st
  if result == .valid then do
    let slot ← get
    let newer := slot.nominationProtocol.lastEnvelope.all fun last =>
      match nominationOf last, nominationOf st with
      | some old, some nom => isNewerStatement old nom
      | _, _ => false
    if newer then do
      modifyNominationProtocol fun np => { np with lastEnvelope := some st }
      if slot.fullyValidated then emitEnvelope st else pure ()
    else pure ()
  else throw (.runtimeError "moved to a bad state (nomination)")

/-- `processEnvelope`: record a sane, newer nomination; once nominating, accept votes,
promote candidates, take a new vote from a round leader while there is no candidate,
announce any change, and hand new candidates to the ballot protocol. -/
def processEnvelope (st : SCPStatement N V H) : SlotM N V H EnvelopeState := do
  match nominationOf st with
  | none => throw .abort
  | some nom =>
      let np ← getNominationProtocol
      if !isNewerThanLatest np.latestNominations st.nodeID nom then pure .invalid
      else if !isSane nom then pure .invalid
      else do
        recordEnvelope st
        let np ← getNominationProtocol
        if np.nominationStarted then do
          let (modified, np) := acceptVotes scp np nom.votes
          let (newCandidates, np) := promoteCandidates scp np np.accepted
          setNominationProtocol np
          let modified ← if np.candidates.isEmpty && decide (st.nodeID ∈ np.roundLeaders) then do
              let newVote ← liftExcept (getNewValueFromNomination scp np nom)
              match newVote with
              | some vote => do
                  modifyNominationProtocol fun np => { np with votes := SortedList.insert vote np.votes }
                  pure true
              | none => pure modified
            else pure modified
          if modified then emitNomination scp process else pure ()
          if newCandidates then do
            let np ← getNominationProtocol
            let composite := scp.driver.combineCandidates np.candidates
            modifyNominationProtocol fun np => { np with latestCompositeCandidate := some composite }
            let _ ← bumpState composite false
            pure .valid
          else pure .valid
        else pure .valid

/-- `nominate`: unless a candidate exists (or a timeout fires before nomination started),
start the next round, vote for new values of its leaders and, as a leader with no votes yet,
for `value`, and announce the votes. -/
def nominate (fuel : Nat) (value previousValue : V) (timedout : Bool) : SlotM N V H Bool := do
  let np ← getNominationProtocol
  if !np.candidates.isEmpty then pure false
  else do
    if timedout then
      modifyNominationProtocol fun np => { np with timerExpCount := np.timerExpCount + 1 }
    else pure ()
    let np ← getNominationProtocol
    if timedout && !np.nominationStarted then pure false
    else do
      let np := { np with
        nominationStarted := true
        previousValue := previousValue
        roundNumber := np.roundNumber + 1 }
      let np ← liftExcept (updateRoundLeaders scp fuel np)
      let (updated, np) ← liftExcept (leaderVotes scp np np.roundLeaders)
      let (updated, np) :=
        if decide (scp.localNode.nodeID ∈ np.roundLeaders) && np.votes.isEmpty then
          if value ∈ np.votes then (updated, np)
          else (true, { np with votes := SortedList.insert value np.votes })
        else (updated, np)
      setNominationProtocol np
      if updated then emitNomination scp process else pure ()
      pure updated

end Stateful

end NominationProtocol

end StellarCore.Scp
