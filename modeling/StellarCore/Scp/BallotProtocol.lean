import StellarCore.Scp.State

/-!
# The ballot protocol (`BallotProtocol.cpp`)

Every function of `BallotProtocol` that the protocol runs, on a `Slot`. A function that emits
a statement hands it back to `Slot::processEnvelope` first; that re-entry is the parameter
`process`, and `Scp.Slot` ties the knot. The loop of `attemptBump` calls in `advanceSlot` is
bounded by `fuel`; the code's own bound on re-entry is `MAX_ADVANCE_SLOT_RECURSION`.

The functions follow the source line by line. Two liberties are taken where the source would
fail in a way the model cannot express: a dereference of a null ballot, which the asserts of
`checkInvariants` rule out, stops the run with `SCPError.abort`; and the `default:` arms of
switches over the statement type, which only a `NOMINATE` statement could reach, return the
neutral answer (the slot never hands such a statement to the ballot protocol).
-/

set_option autoImplicit false

namespace StellarCore.Scp

namespace BallotProtocol

variable {N V H : Type} [LinearOrder N] [LinearOrder V] [DecidableEq H]

/-! ## Statements -/

/-- `isNewerStatement (oldst, st)`: statements are ordered by type, then a `PREPARE` by
`(b, p, p', h.n)` and a `CONFIRM` by `(b, p.n, h.n)`; two `EXTERNALIZE` are never newer. -/
def isNewerStatement (oldst st : SCPStatement N V H) : Bool :=
  if oldst.pledges.type ≠ st.pledges.type then
    decide (oldst.pledges.type.toNat < st.pledges.type.toNat)
  else
    match oldst.pledges, st.pledges with
    | .confirm oldBallot oldPrepared _ oldH _, .confirm ballot nPrepared _ nH _ =>
        match compareBallots oldBallot ballot with
        | .lt => true
        | .eq => if oldPrepared = nPrepared then decide (oldH < nH) else decide (oldPrepared < nPrepared)
        | .gt => false
    | .prepare _ oldBallot oldPrepared oldPreparedPrime _ oldH,
      .prepare _ ballot prepared preparedPrime _ nH =>
        match compareBallots oldBallot ballot with
        | .lt => true
        | .eq =>
            match compareOptBallots oldPrepared prepared with
            | .lt => true
            | .eq =>
                match compareOptBallots oldPreparedPrime preparedPrime with
                | .lt => true
                | .eq => decide (oldH < nH)
                | .gt => false
            | .gt => false
        | .gt => false
    | _, _ => false

/-- `isNewerStatement (nodeID, st)`: newer than the node's latest statement, if any. -/
def isNewerThanLatest (latestEnvelopes : List (N × SCPStatement N V H))
    (st : SCPStatement N V H) : Bool :=
  match SortedMap.lookup st.nodeID latestEnvelopes with
  | none => true
  | some old => isNewerStatement old st

/-- `isStatementSane`: the statement's quorum set is known and sane, and its ballots are
ordered as the phase requires. Only the local node may send `b = 0` (it never emits one). -/
def isStatementSane (scp : SCP N V H) (st : SCPStatement N V H) (self : Bool) : Bool :=
  match getQuorumSetFromStatement scp st with
  | none => false
  | some qSet =>
      match isQuorumSetSane qSet false with
      | .error _ => false
      | .ok () =>
          match st.pledges with
          | .prepare _ ballot prepared preparedPrime nC nH =>
              (self || decide (0 < ballot.counter)) &&
              (match preparedPrime, prepared with
                | some pp, some p => areBallotsLessAndIncompatible pp p
                | _, _ => true) &&
              (nH == 0 || prepared.any fun p => decide (nH ≤ p.counter)) &&
              (nC == 0 || (nH != 0 && decide (nH ≤ ballot.counter) && decide (nC ≤ nH)))
          | .confirm ballot _ nCommit nH _ =>
              decide (0 < ballot.counter) && decide (nH ≤ ballot.counter) && decide (nCommit ≤ nH)
          | .externalize commit nH _ => decide (0 < commit.counter) && decide (commit.counter ≤ nH)
          | .nominate _ => false

/-- `getStatementValues`: the values a ballot statement mentions, as a set. -/
def getStatementValues (st : SCPStatement N V H) : List V :=
  match st.pledges with
  | .prepare _ ballot prepared preparedPrime _ _ =>
      let values := if ballot.counter ≠ 0 then [ballot.value] else []
      let values := match prepared with
        | some p => SortedList.insert p.value values
        | none => values
      match preparedPrime with
      | some pp => SortedList.insert pp.value values
      | none => values
  | .confirm ballot .. => [ballot.value]
  | .externalize commit .. => [commit.value]
  | .nominate _ => []

/-- `validateValues`: the least validation level of the statement's values; no values is
invalid, and the driver is not asked again once a value is invalid. -/
def validateValues (scp : SCP N V H) (st : SCPStatement N V H) : ValidationLevel :=
  match getStatementValues st with
  | [] => .invalidValue
  | values =>
      values.foldl (fun level value =>
        if level.toNat > 0 then (scp.driver.validateValue value false).min level else level)
        .fullyValidatedValue

/-- `getWorkingBallot`: the ballot a statement commits to. -/
def getWorkingBallot (st : SCPStatement N V H) : Option (SCPBallot V) :=
  match st.pledges with
  | .prepare _ ballot .. => some ballot
  | .confirm ballot _ nCommit _ _ => some ⟨nCommit, ballot.value⟩
  | .externalize commit .. => some commit
  | .nominate _ => none

/-- `hasPreparedBallot`: whether the statement says `ballot` is prepared. -/
def hasPreparedBallot (ballot : SCPBallot V) (st : SCPStatement N V H) : Bool :=
  match st.pledges with
  | .prepare _ _ prepared preparedPrime _ _ =>
      prepared.any (areBallotsLessAndCompatible ballot) ||
        preparedPrime.any (areBallotsLessAndCompatible ballot)
  | .confirm b nPrepared _ _ _ => areBallotsLessAndCompatible ballot ⟨nPrepared, b.value⟩
  | .externalize commit .. => areBallotsCompatible ballot commit
  | .nominate _ => false

/-- The vote of `attemptAcceptPrepared`: whether the statement votes to prepare `ballot`. -/
def votedPrepared (ballot : SCPBallot V) (st : SCPStatement N V H) : Bool :=
  match st.pledges with
  | .prepare _ b .. => areBallotsLessAndCompatible ballot b
  | .confirm b .. => areBallotsCompatible ballot b
  | .externalize commit .. => areBallotsCompatible ballot commit
  | .nominate _ => false

/-- `commitPredicate`: whether the statement accepts to commit the interval `check`. -/
def commitPredicate (ballot : SCPBallot V) (check : Nat × Nat) (st : SCPStatement N V H) : Bool :=
  match st.pledges with
  | .prepare .. => false
  | .confirm b _ nCommit nH _ =>
      areBallotsCompatible ballot b && decide (nCommit ≤ check.1) && decide (check.2 ≤ nH)
  | .externalize commit .. => areBallotsCompatible ballot commit && decide (commit.counter ≤ check.1)
  | .nominate _ => false

/-- The vote of `attemptAcceptCommit`: whether the statement votes to commit `cur`. -/
def votedCommit (ballot : SCPBallot V) (cur : Nat × Nat) (st : SCPStatement N V H) : Bool :=
  match st.pledges with
  | .prepare _ b _ _ nC nH =>
      areBallotsCompatible ballot b && nC != 0 && decide (nC ≤ cur.1) && decide (cur.2 ≤ nH)
  | .confirm b _ nCommit _ _ => areBallotsCompatible ballot b && decide (nCommit ≤ cur.1)
  | .externalize commit .. => areBallotsCompatible ballot commit && decide (commit.counter ≤ cur.1)
  | .nominate _ => false

/-- `statementBallotCounter`: an `EXTERNALIZE` stands for an infinite counter. -/
def statementBallotCounter (st : SCPStatement N V H) : Nat :=
  match st.pledges with
  | .prepare _ ballot .. => ballot.counter
  | .confirm ballot .. => ballot.counter
  | .externalize .. => uint32Max
  | .nominate _ => 0

/-! ## Candidates and boundaries -/

/-- The ballots of `getPrepareCandidates` the hint asks about. -/
def hintBallots (hint : SCPStatement N V H) : List (SCPBallot V) :=
  match hint.pledges with
  | .prepare _ ballot prepared preparedPrime _ _ =>
      let ballots := [ballot]
      let ballots := match prepared with
        | some p => SortedList.insert p ballots
        | none => ballots
      match preparedPrime with
      | some pp => SortedList.insert pp ballots
      | none => ballots
  | .confirm ballot nPrepared .. =>
      SortedList.insert ⟨nPrepared, ballot.value⟩ [⟨uint32Max, ballot.value⟩]
  | .externalize commit .. => [⟨uint32Max, commit.value⟩]
  | .nominate _ => []

/-- The candidates one latest statement adds below `topVote`. -/
def addPrepareCandidates (topVote : SCPBallot V) (candidates : List (SCPBallot V))
    (st : SCPStatement N V H) : List (SCPBallot V) :=
  match st.pledges with
  | .prepare _ ballot prepared preparedPrime _ _ =>
      let candidates :=
        if areBallotsLessAndCompatible ballot topVote then SortedList.insert ballot candidates
        else candidates
      let candidates := match prepared with
        | some p =>
            if areBallotsLessAndCompatible p topVote then SortedList.insert p candidates
            else candidates
        | none => candidates
      match preparedPrime with
      | some pp =>
          if areBallotsLessAndCompatible pp topVote then SortedList.insert pp candidates
          else candidates
      | none => candidates
  | .confirm ballot nPrepared .. =>
      if areBallotsCompatible topVote ballot then
        let candidates := SortedList.insert topVote candidates
        if nPrepared < topVote.counter then
          SortedList.insert ⟨nPrepared, topVote.value⟩ candidates
        else candidates
      else candidates
  | .externalize commit .. =>
      if areBallotsCompatible topVote commit then SortedList.insert topVote candidates
      else candidates
  | .nominate _ => candidates

/-- `getPrepareCandidates`: the ballots, below a ballot of the hint, that some latest
statement may have prepared; the hint's ballots are taken from the highest down. -/
def getPrepareCandidates (latestEnvelopes : List (N × SCPStatement N V H))
    (hint : SCPStatement N V H) : List (SCPBallot V) :=
  (hintBallots hint).reverse.foldl
    (fun candidates topVote =>
      latestEnvelopes.foldl (fun candidates entry => addPrepareCandidates topVote candidates entry.2)
        candidates)
    []

/-- `getCommitBoundariesFromStatements`: the counters at which a commit interval for
`ballot`'s value may start or end. -/
def getCommitBoundariesFromStatements (ballot : SCPBallot V)
    (latestEnvelopes : List (N × SCPStatement N V H)) : List Nat :=
  latestEnvelopes.foldl (fun boundaries entry =>
    match entry.2.pledges with
    | .prepare _ b _ _ nC nH =>
        if areBallotsCompatible ballot b && nC != 0 then
          SortedList.insert nH (SortedList.insert nC boundaries)
        else boundaries
    | .confirm b _ nCommit nH _ =>
        if areBallotsCompatible ballot b then
          SortedList.insert nH (SortedList.insert nCommit boundaries)
        else boundaries
    | .externalize commit nH _ =>
        if areBallotsCompatible ballot commit then
          SortedList.insert uint32Max (SortedList.insert nH (SortedList.insert commit.counter boundaries))
        else boundaries
    | .nominate _ => boundaries) []

/-- `findExtendedInterval`, over the boundaries from the highest down: the first boundary
that `pred` accepts fixes the top, and lower boundaries extend the bottom until `pred`
refuses one. An interval with bottom `0` is none. -/
def findExtendedInterval (pred : Nat × Nat → Bool) : Nat × Nat → List Nat → Nat × Nat
  | candidate, [] => candidate
  | candidate, b :: rest =>
      if candidate.1 = 0 then
        if pred (b, b) then findExtendedInterval pred (b, b) rest
        else findExtendedInterval pred candidate rest
      else if b > candidate.2 then findExtendedInterval pred candidate rest
      else if pred (b, candidate.2) then findExtendedInterval pred (b, candidate.2) rest
      else candidate

/-- `hasVBlockingSubsetStrictlyAheadOf`. -/
def hasVBlockingSubsetStrictlyAheadOf (scp : SCP N V H)
    (latestEnvelopes : List (N × SCPStatement N V H)) (n : Nat) : Bool :=
  isVBlockingMap scp.localNode.qSet latestEnvelopes fun st => decide (n < statementBallotCounter st)

/-- The conditions `checkInvariants` asserts. -/
def invariantsHold (bp : BallotProtocol N V H) : Bool :=
  (bp.phase == .prepare ||
    (bp.currentBallot.isSome && bp.prepared.isSome && bp.commit.isSome && bp.highBallot.isSome)) &&
  bp.currentBallot.all (fun b => b.counter != 0) &&
  (match bp.prepared, bp.preparedPrime with
    | some p, some pp => areBallotsLessAndIncompatible pp p
    | _, _ => true) &&
  (match bp.highBallot with
    | some h => bp.currentBallot.any (areBallotsLessAndCompatible h)
    | none => true) &&
  (match bp.commit with
    | some c =>
        match bp.currentBallot, bp.highBallot with
        | some b, some h => areBallotsLessAndCompatible c h && areBallotsLessAndCompatible h b
        | _, _ => false
    | none => true)

/-! ## Changing the local state -/

section Stateful

variable (scp : SCP N V H) (process : SCPStatement N V H → SlotM N V H EnvelopeState)

/-- `recordEnvelope`: the statement becomes its node's latest. -/
def recordEnvelope (st : SCPStatement N V H) : SlotM N V H Unit :=
  modifyBallotProtocol fun bp =>
    { bp with latestEnvelopes := SortedMap.upsert st.nodeID st bp.latestEnvelopes }

/-- `bumpToBallot`: `b` becomes `ballot`; `h` and `c` are dropped when `ballot` has another
value, and a new counter has not heard from a quorum yet. With `check`, `b` may only grow. -/
def bumpToBallot (ballot : SCPBallot V) (check : Bool) : SlotM N V H Unit := do
  let bp ← getBallotProtocol
  dbgAssert (bp.phase != .externalize)
  if check then dbgAssert (bp.currentBallot.all fun b => compareBallots ballot b != .lt)
  else pure ()
  let gotBumped := bp.currentBallot.all fun b => b.counter != ballot.counter
  let keepHigh := bp.highBallot.all (areBallotsCompatible ballot)
  modifyBallotProtocol fun bp =>
    { bp with
      currentBallot := some ballot
      highBallot := if keepHigh then bp.highBallot else none
      commit := if keepHigh then bp.commit else none
      heardFromQuorum := if gotBumped then false else bp.heardFromQuorum }

/-- `checkInvariants`. -/
def checkInvariants : SlotM N V H Unit := do
  let bp ← getBallotProtocol
  dbgAssert (invariantsHold bp)

/-- `createStatement`: the statement of the local state for a phase. -/
def createStatement (type : SCPStatementType) : SlotM N V H (SCPStatement N V H) := do
  checkInvariants
  let bp ← getBallotProtocol
  let counterOf := fun (ballot : Option (SCPBallot V)) => (ballot.map (·.counter)).getD 0
  let pledges ← match type with
    | .prepare =>
        pure (.prepare scp.localNode.qSetHash (bp.currentBallot.getD ⟨0, scp.emptyValue⟩)
          bp.prepared bp.preparedPrime (counterOf bp.commit) (counterOf bp.highBallot))
    | .confirm =>
        match bp.currentBallot, bp.prepared, bp.commit, bp.highBallot with
        | some b, some p, some c, some h =>
            pure (.confirm b p.counter c.counter h.counter scp.localNode.qSetHash)
        | _, _, _, _ => throw .abort
    | .externalize =>
        match bp.commit, bp.highBallot with
        | some c, some h => pure (.externalize c h.counter scp.localNode.qSetHash)
        | _, _ => throw .abort
    | .nominate => throw .abort
  pure ⟨scp.localNode.nodeID, pledges⟩

/-- `sendLatestEnvelope`: at the outermost level, hand the last envelope to the driver once. -/
def sendLatestEnvelope : SlotM N V H Unit := do
  let slot ← get
  let bp := slot.ballotProtocol
  if bp.currentMessageLevel == 0 && slot.fullyValidated then
    match bp.lastEnvelope with
    | some last =>
        -- the source compares the envelope pointers; every new last envelope is a new statement
        if bp.lastEnvelopeEmit != some last then do
          modifyBallotProtocol fun bp => { bp with lastEnvelopeEmit := some last }
          emitEnvelope last
        else pure ()
    | none => pure ()
  else pure ()

/-- `emitCurrentStateStatement`: process the statement of the local state as the local
node's own, unless it is the node's latest already, and keep it as the last envelope when it
is newer. A statement of its own that the node refuses is a bug of the application. -/
def emitCurrentStateStatement : SlotM N V H Unit := do
  let bp ← getBallotProtocol
  let type : SCPStatementType := match bp.phase with
    | .prepare => .prepare
    | .confirm => .confirm
    | .externalize => .externalize
  let statement ← createStatement scp type
  let canEmit := bp.currentBallot.isSome
  if SortedMap.lookup scp.localNode.nodeID bp.latestEnvelopes == some statement then pure ()
  else do
    let result ← process statement
    if result == .valid then do
      let bp ← getBallotProtocol
      if canEmit && bp.lastEnvelope.all (fun last => isNewerStatement last statement) then do
        modifyBallotProtocol fun bp => { bp with lastEnvelope := some statement }
        sendLatestEnvelope
      else pure ()
    else throw (.runtimeError "moved to a bad state (ballot protocol)")

/-- `updateCurrentValue`: move `b` up to `ballot` unless `c` has another value. -/
def updateCurrentValue (ballot : SCPBallot V) : SlotM N V H Bool := do
  let bp ← getBallotProtocol
  if bp.phase != .prepare && bp.phase != .confirm then pure false
  else
    match bp.currentBallot with
    | none => do
        bumpToBallot ballot true
        checkInvariants
        pure true
    | some current => do
        dbgAssert (compareBallots current ballot).isLE
        if bp.commit.any fun c => !areBallotsCompatible c ballot then pure false
        else
          match compareBallots current ballot with
          | .lt => do
              bumpToBallot ballot true
              checkInvariants
              pure true
          -- a smaller ballot: statements at a higher counter may already be out
          | .gt => pure false
          | .eq => do
              checkInvariants
              pure false

/-- `updateCurrentIfNeeded`: raise `b` to `h`. -/
def updateCurrentIfNeeded (h : SCPBallot V) : SlotM N V H Bool := do
  let bp ← getBallotProtocol
  if bp.currentBallot.all fun b => compareBallots b h == .lt then do
    bumpToBallot h true
    pure true
  else pure false

/-- `checkHeardFromQuorum`: whether a quorum is at `b`'s counter or beyond. The timers it
starts and stops are the driver's. -/
def checkHeardFromQuorum : SlotM N V H Unit := do
  let bp ← getBallotProtocol
  match bp.currentBallot with
  | none => pure ()
  | some b =>
      let heard := isQuorum scp.localNode.qSet bp.latestEnvelopes (getQuorumSetFromStatement scp)
        fun st => match st.pledges with
          | .prepare _ ballot .. => decide (b.counter ≤ ballot.counter)
          | _ => true
      modifyBallotProtocol fun bp => { bp with heardFromQuorum := heard }

/-- `bumpState (value, n)`: move to counter `n`, with the value `z` if one is set. -/
def bumpStateCounter (value : V) (n : Nat) : SlotM N V H Bool := do
  let bp ← getBallotProtocol
  if bp.phase != .prepare && bp.phase != .confirm then pure false
  else
    let newb : SCPBallot V := ⟨n, bp.valueOverride.getD value⟩
    let updated ← updateCurrentValue newb
    if updated then do
      emitCurrentStateStatement scp process
      checkHeardFromQuorum scp
      pure true
    else pure false

/-- `bumpState (value, force)`: start the ballot protocol at counter 1, or with `force` move
to the next counter (a `uint32`). -/
def bumpState (value : V) (force : Bool) : SlotM N V H Bool := do
  let bp ← getBallotProtocol
  if !force && bp.currentBallot.isSome then pure false
  else
    let n := match bp.currentBallot with
      | some b => (b.counter + 1) % 4294967296
      | none => 1
    bumpStateCounter scp process value n

/-- `abandonBallot (n)`: bump to counter `n` (the next one for `0`) with the latest composite
candidate, or with `b`'s value when there is none. -/
def abandonBallot (n : Nat) : SlotM N V H Bool := do
  let slot ← get
  let candidate := slot.nominationProtocol.latestCompositeCandidate
  let v := if candidate.all (· = scp.emptyValue) then
      match slot.ballotProtocol.currentBallot with
      | some b => some b.value
      | none => candidate
    else candidate
  match v with
  | some value =>
      if value = scp.emptyValue then pure false
      else if n == 0 then bumpState scp process value true
      else bumpStateCounter scp process value n
  | none => pure false

/-- `attemptBump`: when a v-blocking set is at higher counters, move to the least counter at
which that stops. -/
def attemptBump : SlotM N V H Bool := do
  let bp ← getBallotProtocol
  if bp.phase == .prepare || bp.phase == .confirm then
    let localCounter := (bp.currentBallot.map (·.counter)).getD 0
    if !hasVBlockingSubsetStrictlyAheadOf scp bp.latestEnvelopes localCounter then pure false
    else
      let allCounters := bp.latestEnvelopes.foldl (fun counters entry =>
        let c := statementBallotCounter entry.2
        if localCounter < c then SortedList.insert c counters else counters) []
      match allCounters.find? fun n => !hasVBlockingSubsetStrictlyAheadOf scp bp.latestEnvelopes n with
      | some n => abandonBallot scp process n
      | none => pure false
  else pure false

/-- The `do { ... } while (didBump)` loop of `advanceSlot`: whether it bumped at all. -/
def bumpLoop : Nat → SlotM N V H Bool
  | 0 => throw .outOfFuel
  | fuel + 1 => do
      let didBump ← attemptBump scp process
      if didBump then do
        let _ ← bumpLoop fuel
        pure true
      else pure false

/-- `setPrepared`: `p` and `p'` stay the two highest incompatible prepared ballots. -/
def setPrepared (ballot : SCPBallot V) : SlotM N V H Bool := do
  let bp ← getBallotProtocol
  match bp.prepared with
  | some p =>
      match compareBallots p ballot with
      | .lt => do
          -- replacing `p`: the old `p` becomes `p'` when the values differ
          let preparedPrime := if areBallotsCompatible p ballot then bp.preparedPrime else some p
          modifyBallotProtocol fun bp => { bp with prepared := some ballot, preparedPrime := preparedPrime }
          pure true
      | .gt =>
          if bp.preparedPrime.all fun pp =>
              compareBallots pp ballot == .lt && !areBallotsCompatible p ballot then do
            modifyBallotProtocol fun bp => { bp with preparedPrime := some ballot }
            pure true
          else pure false
      | .eq => pure false
  | none => do
      modifyBallotProtocol fun bp => { bp with prepared := some ballot }
      pure true

/-- `setAcceptPrepared`: record `ballot` as accepted prepared, and drop `c` when `h` is
below an incompatible `p` or `p'`. -/
def setAcceptPrepared (ballot : SCPBallot V) : SlotM N V H Bool := do
  let didWork ← setPrepared ballot
  let bp ← getBallotProtocol
  let clearCommit := match bp.commit, bp.highBallot with
    | some _, some h =>
        bp.prepared.any (areBallotsLessAndIncompatible h) ||
          bp.preparedPrime.any (areBallotsLessAndIncompatible h)
    | _, _ => false
  let didWork ← if clearCommit then do
      dbgAssert (bp.phase == .prepare)
      modifyBallotProtocol fun bp => { bp with commit := none }
      pure true
    else pure didWork
  if didWork then do
    emitCurrentStateStatement scp process
    pure true
  else pure false

/-- The loop of `attemptAcceptPrepared` over the candidates, from the highest: the first one
that a federated vote accepts is set. -/
def acceptPreparedLoop : List (SCPBallot V) → SlotM N V H Bool
  | [] => pure false
  | ballot :: rest => do
      let bp ← getBallotProtocol
      -- in CONFIRM, only a ballot that raises `p` counts (and `p` has `c`'s value)
      let skipConfirm ← if bp.phase == .confirm then
          match bp.prepared, bp.commit with
          | some p, some c =>
              if !areBallotsLessAndCompatible p ballot then pure true
              else do
                dbgAssert (areBallotsCompatible c ballot)
                pure false
          | _, _ => throw .abort
        else pure false
      if skipConfirm then acceptPreparedLoop rest
      -- at most `p'` is neither a candidate for `p` nor for `p'`
      else if bp.preparedPrime.any fun pp => (compareBallots ballot pp).isLE then
        acceptPreparedLoop rest
      -- already covered by `p`
      else if bp.prepared.any (areBallotsLessAndCompatible ballot) then acceptPreparedLoop rest
      else if federatedAccept scp (votedPrepared ballot) (hasPreparedBallot ballot) bp.latestEnvelopes then
        setAcceptPrepared scp process ballot
      else acceptPreparedLoop rest

/-- `attemptAcceptPrepared`. -/
def attemptAcceptPrepared (hint : SCPStatement N V H) : SlotM N V H Bool := do
  let bp ← getBallotProtocol
  if bp.phase != .prepare && bp.phase != .confirm then pure false
  else acceptPreparedLoop scp process (getPrepareCandidates bp.latestEnvelopes hint).reverse

/-- `setConfirmPrepared`: remember `newH`'s value as `z`; on a compatible `b`, raise `h` to
`newH` and set `c` to `newC` if found; then raise `b` to `newH`. -/
def setConfirmPrepared (newC newH : SCPBallot V) : SlotM N V H Bool := do
  modifyBallotProtocol fun bp => { bp with valueOverride := some newH.value }
  let bp ← getBallotProtocol
  let didWork ← if bp.currentBallot.all (areBallotsCompatible · newH) then do
      let raiseH := bp.highBallot.all fun h => compareBallots newH h == .gt
      if raiseH then modifyBallotProtocol fun bp => { bp with highBallot := some newH }
      else pure ()
      let setC := newC.counter != 0
      if setC then do
        dbgAssert bp.commit.isNone
        modifyBallotProtocol fun bp => { bp with commit := some newC }
      else pure ()
      pure (raiseH || setC)
    else pure false
  let bumped ← updateCurrentIfNeeded newH
  let didWork := bumped || didWork
  if didWork then emitCurrentStateStatement scp process else pure ()
  pure didWork

/-- The first loop of `attemptConfirmPrepared`: the highest candidate above `h` that a quorum
confirms prepared, with the candidates after it. -/
def findNewH (bp : BallotProtocol N V H) : List (SCPBallot V) → Option (SCPBallot V × List (SCPBallot V))
  | [] => none
  | ballot :: rest =>
      if bp.highBallot.any fun h => compareBallots h ballot != .lt then none
      else if federatedRatify scp (hasPreparedBallot ballot) bp.latestEnvelopes then some (ballot, rest)
      else findNewH bp rest

/-- The second loop of `attemptConfirmPrepared`, from `newH` down to `b`: the lowest ballot of
the run of confirmed prepared ballots compatible with `newH`. -/
def findNewC (bp : BallotProtocol N V H) (newH b : SCPBallot V) :
    List (SCPBallot V) → SCPBallot V → SCPBallot V
  | [], newC => newC
  | ballot :: rest, newC =>
      if compareBallots ballot b == .lt then newC
      else if !areBallotsLessAndCompatible ballot newH then findNewC bp newH b rest newC
      else if federatedRatify scp (hasPreparedBallot ballot) bp.latestEnvelopes then
        findNewC bp newH b rest ballot
      else newC

/-- `attemptConfirmPrepared`. -/
def attemptConfirmPrepared (hint : SCPStatement N V H) : SlotM N V H Bool := do
  let bp ← getBallotProtocol
  if bp.phase != .prepare then pure false
  else if bp.prepared.isNone then pure false
  else
    let candidates := (getPrepareCandidates bp.latestEnvelopes hint).reverse
    match findNewH scp bp candidates with
    | none => pure false
    | some (newH, rest) =>
        let noC : SCPBallot V := ⟨0, scp.emptyValue⟩
        let newC :=
          if bp.commit.isNone &&
              bp.prepared.all (fun p => !areBallotsLessAndIncompatible newH p) &&
              bp.preparedPrime.all (fun pp => !areBallotsLessAndIncompatible newH pp) then
            findNewC scp bp newH (bp.currentBallot.getD noC) (newH :: rest) noC
          else noC
        setConfirmPrepared scp process newC newH

/-- `setAcceptCommit`: `c` and `h` become the accepted interval; from PREPARE the phase moves
to CONFIRM and `b` moves to `h` unless it is already compatible and above, without the check
that `b` only grows. -/
def setAcceptCommit (c h : SCPBallot V) : SlotM N V H Bool := do
  modifyBallotProtocol fun bp => { bp with valueOverride := some h.value }
  let bp ← getBallotProtocol
  let changed := !(bp.highBallot == some h && bp.commit == some c)
  if changed then modifyBallotProtocol fun bp => { bp with commit := some c, highBallot := some h }
  else pure ()
  let bp ← getBallotProtocol
  let didWork ← if bp.phase == .prepare then do
      modifyBallotProtocol fun bp => { bp with phase := .confirm }
      match bp.currentBallot with
      | some b => if !areBallotsLessAndCompatible h b then bumpToBallot h false else pure ()
      | none => pure ()
      modifyBallotProtocol fun bp => { bp with preparedPrime := none }
      pure true
    else pure changed
  if didWork then do
    let bp ← getBallotProtocol
    match bp.highBallot with
    | some high => do
        let _ ← updateCurrentIfNeeded high
        emitCurrentStateStatement scp process
        pure true
    | none => throw .abort
  else pure false

/-- The ballot whose value `attemptAcceptCommit` considers. -/
def acceptCommitHint (hint : SCPStatement N V H) : Option (SCPBallot V) :=
  match hint.pledges with
  | .prepare _ ballot _ _ nC nH => if nC != 0 then some ⟨nH, ballot.value⟩ else none
  | .confirm ballot _ _ nH _ => some ⟨nH, ballot.value⟩
  | .externalize commit nH _ => some ⟨nH, commit.value⟩
  | .nominate _ => none

/-- `attemptAcceptCommit`. -/
def attemptAcceptCommit (hint : SCPStatement N V H) : SlotM N V H Bool := do
  let bp ← getBallotProtocol
  if bp.phase != .prepare && bp.phase != .confirm then pure false
  else
    match acceptCommitHint hint with
    | none => pure false
    | some ballot => do
        let compatibleWithH ← if bp.phase == .confirm then
            match bp.highBallot with
            | some h => pure (areBallotsCompatible ballot h)
            | none => throw .abort
          else pure true
        if !compatibleWithH then pure false
        else
          let boundaries := getCommitBoundariesFromStatements ballot bp.latestEnvelopes
          if boundaries.isEmpty then pure false
          else
            let candidate := findExtendedInterval (fun cur =>
                federatedAccept scp (votedCommit ballot cur) (commitPredicate ballot cur)
                  bp.latestEnvelopes) (0, 0) boundaries.reverse
            if candidate.1 != 0 &&
                (bp.phase != .confirm || bp.highBallot.any fun h => decide (h.counter < candidate.2)) then
              setAcceptCommit scp process ⟨candidate.1, ballot.value⟩ ⟨candidate.2, ballot.value⟩
            else pure false

/-- `setConfirmCommit`: `c` and `h` become the confirmed interval, the phase moves to
EXTERNALIZE, nomination stops, and the value is externalized. -/
def setConfirmCommit (c h : SCPBallot V) : SlotM N V H Bool := do
  modifyBallotProtocol fun bp => { bp with commit := some c, highBallot := some h }
  let _ ← updateCurrentIfNeeded h
  modifyBallotProtocol fun bp => { bp with phase := .externalize }
  emitCurrentStateStatement scp process
  modifyNominationProtocol NominationProtocol.stopNomination
  modify fun slot => { slot with externalized := slot.externalized ++ [c.value] }
  pure true

/-- The ballot whose value `attemptConfirmCommit` considers. -/
def confirmCommitHint (hint : SCPStatement N V H) : Option (SCPBallot V) :=
  match hint.pledges with
  | .prepare .. => none
  | .confirm ballot _ _ nH _ => some ⟨nH, ballot.value⟩
  | .externalize commit nH _ => some ⟨nH, commit.value⟩
  | .nominate _ => none

/-- `attemptConfirmCommit`. -/
def attemptConfirmCommit (hint : SCPStatement N V H) : SlotM N V H Bool := do
  let bp ← getBallotProtocol
  if bp.phase != .confirm then pure false
  else
    match bp.highBallot, bp.commit with
    | some _, some c =>
        match confirmCommitHint hint with
        | none => pure false
        | some ballot =>
            if !areBallotsCompatible ballot c then pure false
            else
              let boundaries := getCommitBoundariesFromStatements ballot bp.latestEnvelopes
              let candidate := findExtendedInterval (fun cur =>
                  federatedRatify scp (commitPredicate ballot cur) bp.latestEnvelopes)
                (0, 0) boundaries.reverse
              if candidate.1 != 0 then
                setConfirmCommit scp process ⟨candidate.1, ballot.value⟩ ⟨candidate.2, ballot.value⟩
              else pure false
    | _, _ => pure false

/-- `advanceSlot`: the four federated-voting steps in the order of the paper, then, at the
outermost level only, the bumps. More than `MAX_ADVANCE_SLOT_RECURSION` nested levels stop
the node. -/
def advanceSlot (fuel : Nat) (hint : SCPStatement N V H) : SlotM N V H Unit := do
  modifyBallotProtocol fun bp => { bp with currentMessageLevel := bp.currentMessageLevel + 1 }
  let bp ← getBallotProtocol
  if bp.currentMessageLevel ≥ 50 then
    throw (.runtimeError "maximum number of transitions reached in advanceSlot")
  else do
    let acceptedPrepared ← attemptAcceptPrepared scp process hint
    let confirmedPrepared ← attemptConfirmPrepared scp process hint
    let acceptedCommit ← attemptAcceptCommit scp process hint
    let confirmedCommit ← attemptConfirmCommit scp process hint
    let didWork := confirmedCommit || acceptedCommit || confirmedPrepared || acceptedPrepared
    let bp ← getBallotProtocol
    let didWork ← if bp.currentMessageLevel == 1 then do
        let didBump ← bumpLoop scp process fuel
        checkHeardFromQuorum scp
        pure (didBump || didWork)
      else pure didWork
    modifyBallotProtocol fun bp => { bp with currentMessageLevel := bp.currentMessageLevel - 1 }
    if didWork then sendLatestEnvelope else pure ()

/-- `processEnvelope`: a sane, newer statement with values that are not invalid is recorded
and advances the slot; once externalized, only statements for the externalized value are
recorded. -/
def processEnvelope (fuel : Nat) (statement : SCPStatement N V H) (self : Bool) :
    SlotM N V H EnvelopeState := do
  if !isStatementSane scp statement self then pure .invalid
  else
    let bp ← getBallotProtocol
    if !isNewerThanLatest bp.latestEnvelopes statement then pure .invalid
    else
      let validationRes := validateValues scp statement
      if validationRes == .invalidValue then pure .invalid
      else if bp.phase != .externalize then do
        if validationRes == .maybeValidValue then
          modify fun slot => { slot with fullyValidated := false }
        else pure ()
        recordEnvelope statement
        advanceSlot scp process fuel statement
        pure .valid
      else
        match bp.commit, getWorkingBallot statement with
        | some c, some working =>
            if c.value == working.value then do
              recordEnvelope statement
              pure .valid
            else pure .invalid
        | _, _ => throw .abort

/-- `ballotProtocolTimerExpired`. -/
def ballotProtocolTimerExpired : SlotM N V H Unit := do
  modifyBallotProtocol fun bp => { bp with timerExpCount := bp.timerExpCount + 1 }
  let _ ← abandonBallot scp process 0

end Stateful

end BallotProtocol

end StellarCore.Scp
