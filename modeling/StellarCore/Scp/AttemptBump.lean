import StellarCore.Scp.BallotProtocol
import StellarCore.Scp.Quorum

/-!
# `attemptBump` moves to the least counter no v-blocking set is ahead of

Whether a v-blocking set of the latest statements is strictly ahead of a counter `n` only
fails more as `n` grows, and changes only at the counters the statements carry: between two
of them the same nodes are ahead. Past the largest counter no node is ahead, and no quorum set
is blocked by no nodes. So the first counter of `allCounters`, in increasing order, that no
v-blocking set is ahead of is the least counter above the local one with that property, and
there is always one.
-/

set_option autoImplicit false

namespace StellarCore.Scp

namespace BallotProtocol

variable {N V H : Type}

/-- One turn of the loop of `attemptBump` that collects `allCounters`. -/
def counterStep (localCounter : Nat) (counters : List Nat) (entry : N × SCPStatement N V H) :
    List Nat :=
  let c := statementBallotCounter entry.2
  if localCounter < c then SortedList.insert c counters else counters

/-- `allCounters` is increasing and holds the counters above the local one. -/
theorem foldl_counterStep (localCounter : Nat) :
    ∀ (envelopes : List (N × SCPStatement N V H)) (counters : List Nat),
      counters.Pairwise (· < ·) →
        (envelopes.foldl (counterStep localCounter) counters).Pairwise (· < ·) ∧
          ∀ c, c ∈ envelopes.foldl (counterStep localCounter) counters ↔
            c ∈ counters ∨ ∃ entry ∈ envelopes, statementBallotCounter entry.2 = c ∧ localCounter < c
  | [], counters, sorted => ⟨sorted, fun c => by simp⟩
  | entry :: rest, counters, sorted => by
    have stepSorted : (counterStep localCounter counters entry).Pairwise (· < ·) := by
      unfold counterStep
      dsimp only
      split
      · exact SortedList.pairwise_insert sorted
      · exact sorted
    obtain ⟨restSorted, members⟩ := foldl_counterStep localCounter rest _ stepSorted
    refine ⟨restSorted, fun c => ?_⟩
    rw [List.foldl_cons, members]
    unfold counterStep
    dsimp only
    split
    · rename_i above
      simp only [SortedList.mem_insert, List.mem_cons, exists_eq_or_imp]
      constructor
      · rintro ((rfl | old) | ⟨other, member, rfl, later⟩)
        · exact .inr (.inl ⟨rfl, above⟩)
        · exact .inl old
        · exact .inr (.inr ⟨other, member, rfl, later⟩)
      · rintro (old | ⟨rfl, _⟩ | ⟨other, member, rfl, later⟩)
        · exact .inl (.inr old)
        · exact .inl (.inl rfl)
        · exact .inr ⟨other, member, rfl, later⟩
    · rename_i notAbove
      simp only [List.mem_cons, exists_eq_or_imp]
      constructor
      · rintro (old | ⟨other, member, rfl, later⟩)
        · exact .inl old
        · exact .inr (.inr ⟨other, member, rfl, later⟩)
      · rintro (old | ⟨rfl, above⟩ | ⟨other, member, rfl, later⟩)
        · exact .inl old
        · exact absurd above notAbove
        · exact .inr ⟨other, member, rfl, later⟩

section Ahead

variable [LinearOrder N] (scp : SCP N V H) (envelopes : List (N × SCPStatement N V H))

/-- A set ahead of a counter is ahead of every lower one. -/
theorem hasVBlockingSubsetStrictlyAheadOf_antitone {n m : Nat} (le : n ≤ m)
    (ahead : hasVBlockingSubsetStrictlyAheadOf scp envelopes m = true) :
    hasVBlockingSubsetStrictlyAheadOf scp envelopes n = true := by
  refine isVBlockingInternal_mono (fun node member => ?_) _ ahead
  obtain ⟨statement, entry, later⟩ := mem_filteredNodes.1 member
  exact mem_filteredNodes.2 ⟨statement, entry, by simp at later ⊢; omega⟩

/-- Counters that the same statements are ahead of are alike. -/
theorem hasVBlockingSubsetStrictlyAheadOf_congr {n m : Nat}
    (same : ∀ entry ∈ envelopes,
      (n < statementBallotCounter entry.2 ↔ m < statementBallotCounter entry.2)) :
    hasVBlockingSubsetStrictlyAheadOf scp envelopes n =
      hasVBlockingSubsetStrictlyAheadOf scp envelopes m := by
  have nodes : filteredNodes envelopes (fun st => decide (n < statementBallotCounter st)) =
      filteredNodes envelopes (fun st => decide (m < statementBallotCounter st)) := by
    unfold filteredNodes
    congr 1
    exact List.filter_congr fun entry member => by simp only [same entry member]
  simp only [hasVBlockingSubsetStrictlyAheadOf, isVBlockingMap, nodes]

/-- No statement is ahead of a counter at least all of theirs. -/
theorem hasVBlockingSubsetStrictlyAheadOf_of_le {n : Nat}
    (beyond : ∀ entry ∈ envelopes, statementBallotCounter entry.2 ≤ n) :
    hasVBlockingSubsetStrictlyAheadOf scp envelopes n = false := by
  have nobody : filteredNodes envelopes (fun st => decide (n < statementBallotCounter st)) = [] := by
    unfold filteredNodes
    rw [List.map_eq_nil_iff, List.filter_eq_nil_iff]
    intro entry member
    simpa using beyond entry member
  simp only [hasVBlockingSubsetStrictlyAheadOf, isVBlockingMap, isVBlocking, nobody,
    isVBlockingInternal_nil]

/-- Some statement is ahead of a counter a v-blocking set is ahead of. -/
theorem exists_ahead_of_hasVBlockingSubsetStrictlyAheadOf {n : Nat}
    (ahead : hasVBlockingSubsetStrictlyAheadOf scp envelopes n = true) :
    ∃ entry ∈ envelopes, n < statementBallotCounter entry.2 := by
  by_contra nobody
  simp only [not_exists, not_and, not_lt] at nobody
  rw [hasVBlockingSubsetStrictlyAheadOf_of_le scp envelopes nobody] at ahead
  contradiction

/-- Below the first counter of a search over the counters, in increasing order, that no
v-blocking set is ahead of, one is ahead of every counter above the local one. -/
theorem ahead_below_first {localCounter n m : Nat} {counters : List Nat}
    (ahead : hasVBlockingSubsetStrictlyAheadOf scp envelopes localCounter = true)
    (sorted : counters.Pairwise (· < ·))
    (collected : ∀ entry ∈ envelopes, localCounter < statementBallotCounter entry.2 →
      statementBallotCounter entry.2 ∈ counters)
    (first : counters.find? (fun n => !hasVBlockingSubsetStrictlyAheadOf scp envelopes n) = some n)
    (above : localCounter < m) (below : m < n) :
    hasVBlockingSubsetStrictlyAheadOf scp envelopes m = true := by
  -- the nodes ahead of `m` are those ahead of the largest counter up to `m`, or of the local one
  let reached := (envelopes.map (statementBallotCounter ·.2)).filter
    fun c => decide (localCounter < c ∧ c ≤ m)
  obtain ⟨c, largest⟩ : ∃ c, (localCounter :: reached).max? = some c := by simp
  obtain ⟨member, bound⟩ := List.max?_eq_some_iff.mp largest
  have same : ∀ entry ∈ envelopes,
      (c < statementBallotCounter entry.2 ↔ m < statementBallotCounter entry.2) := by
    intro entry inEnvelopes
    have atLeast : localCounter ≤ c := bound _ List.mem_cons_self
    have notBetween : ¬ (c < statementBallotCounter entry.2 ∧ statementBallotCounter entry.2 ≤ m) := by
      rintro ⟨past, within⟩
      have counted : statementBallotCounter entry.2 ∈ localCounter :: reached :=
        List.mem_cons_of_mem _ (List.mem_filter.mpr ⟨List.mem_map_of_mem inEnvelopes,
          by simp; omega⟩)
      exact absurd (bound _ counted) (not_le.mpr past)
    have upTo : c ≤ m := by
      rcases List.mem_cons.mp member with rfl | inReached
      · exact le_of_lt above
      · exact (by simpa using (List.mem_filter.mp inReached).2 : localCounter < c ∧ c ≤ m).2
    omega
  rw [← hasVBlockingSubsetStrictlyAheadOf_congr scp envelopes same]
  rcases List.mem_cons.mp member with rfl | inReached
  · exact ahead
  · obtain ⟨inMap, window⟩ := List.mem_filter.mp inReached
    obtain ⟨entry, inEnvelopes, rfl⟩ := List.mem_map.mp inMap
    have window : localCounter < statementBallotCounter entry.2 ∧ statementBallotCounter entry.2 ≤ m := by
      simpa using window
    have skipped := SortedList.find?_sorted sorted first _ (collected entry inEnvelopes window.1)
      (by omega)
    simpa using skipped

end Ahead

variable [LinearOrder N] [LinearOrder V] [DecidableEq H] (scp : SCP N V H)
  (process : SCPStatement N V H → SlotM N V H EnvelopeState) (s : Slot N V H)

/-- From PREPARE or CONFIRM, with a v-blocking set ahead of the local counter, `attemptBump`
searches `allCounters`. -/
theorem attemptBump_run (phase : s.ballotProtocol.phase = .prepare ∨ s.ballotProtocol.phase = .confirm)
    (ahead : hasVBlockingSubsetStrictlyAheadOf scp s.ballotProtocol.latestEnvelopes
      ((s.ballotProtocol.currentBallot.map (·.counter)).getD 0) = true) :
    (attemptBump scp process).run s =
      (match (s.ballotProtocol.latestEnvelopes.foldl
          (counterStep ((s.ballotProtocol.currentBallot.map fun b : SCPBallot V => b.counter).getD 0))
            []).find?
          (fun n => !hasVBlockingSubsetStrictlyAheadOf scp s.ballotProtocol.latestEnvelopes n) with
        | some n => abandonBallot scp process n
        | none => pure false).run s := by
  have active : (s.ballotProtocol.phase == .prepare || s.ballotProtocol.phase == .confirm) = true := by
    rcases phase with current | current <;> simp [current]
  simp only [attemptBump, run_getBallotProtocol_bind, active, if_true, ahead, Bool.not_true,
    Bool.false_eq_true, if_false]
  rfl

/-- From PREPARE or CONFIRM, with a v-blocking set of latest statements ahead of the local
counter, `attemptBump` runs `abandonBallot (n)` for the least counter `n` above the local one
that no v-blocking set is ahead of; `n` is the counter of one of the statements. -/
theorem attemptBump_bumps_to_least
    (phase : s.ballotProtocol.phase = .prepare ∨ s.ballotProtocol.phase = .confirm)
    (ahead : hasVBlockingSubsetStrictlyAheadOf scp s.ballotProtocol.latestEnvelopes
      ((s.ballotProtocol.currentBallot.map (·.counter)).getD 0) = true) :
    ∃ n, (∃ entry ∈ s.ballotProtocol.latestEnvelopes, statementBallotCounter entry.2 = n) ∧
      (s.ballotProtocol.currentBallot.map (·.counter)).getD 0 < n ∧
      hasVBlockingSubsetStrictlyAheadOf scp s.ballotProtocol.latestEnvelopes n = false ∧
      (∀ m, (s.ballotProtocol.currentBallot.map (·.counter)).getD 0 < m → m < n →
        hasVBlockingSubsetStrictlyAheadOf scp s.ballotProtocol.latestEnvelopes m = true) ∧
      (attemptBump scp process).run s = (abandonBallot scp process n).run s := by
  rw [attemptBump_run scp process s phase ahead]
  set localCounter := (s.ballotProtocol.currentBallot.map (·.counter)).getD 0
  set envelopes := s.ballotProtocol.latestEnvelopes
  obtain ⟨sorted, members⟩ := foldl_counterStep localCounter envelopes [] List.Pairwise.nil
  set allCounters := envelopes.foldl (counterStep localCounter) []
  have collected : ∀ entry ∈ envelopes, localCounter < statementBallotCounter entry.2 →
      statementBallotCounter entry.2 ∈ allCounters :=
    fun entry member later => (members _).mpr (.inr ⟨entry, member, rfl, later⟩)
  -- the largest counter is one no v-blocking set is ahead of
  obtain ⟨first, inEnvelopes, later⟩ :=
    exists_ahead_of_hasVBlockingSubsetStrictlyAheadOf scp envelopes ahead
  obtain ⟨largest, isMax⟩ : ∃ c, allCounters.max? = some c :=
    Option.isSome_iff_exists.mp (List.isSome_max?_of_mem (collected first inEnvelopes later))
  obtain ⟨largestMember, largestBound⟩ := List.max?_eq_some_iff.mp isMax
  have stops : hasVBlockingSubsetStrictlyAheadOf scp envelopes largest = false := by
    refine hasVBlockingSubsetStrictlyAheadOf_of_le scp envelopes fun entry member => ?_
    by_cases past : localCounter < statementBallotCounter entry.2
    · exact largestBound _ (collected entry member past)
    · have : localCounter < largest := by
        obtain ⟨_, _, rfl, above⟩ := ((members largest).mp largestMember).resolve_left (by simp)
        exact above
      omega
  obtain ⟨n, found⟩ : ∃ n, allCounters.find?
      (fun n => !hasVBlockingSubsetStrictlyAheadOf scp envelopes n) = some n := by
    refine Option.isSome_iff_exists.mp (List.find?_isSome.mpr ⟨largest, largestMember, by simp [stops]⟩)
  obtain ⟨atN, -⟩ := List.find?_eq_some_iff_append.mp found
  obtain ⟨entry, member, rfl, above⟩ :=
    ((members _).mp (List.mem_of_find?_eq_some found)).resolve_left (by simp)
  refine ⟨_, ⟨entry, member, rfl⟩, above, by simpa using atN,
    fun m low high => ahead_below_first scp envelopes ahead sorted collected found low high, ?_⟩
  rw [found]

/-- A validator `1` alone in its quorum set, whose latest statement prepares counter `2`. -/
def loneValidator : SCP Nat Nat Nat :=
  ⟨⟨fun _ => none, fun _ _ => .fullyValidatedValue, fun _ => none, fun _ => 0, fun _ _ _ _ => 0,
    fun _ _ _ => 0, fun _ _ _ => 0⟩, ⟨1, true, ⟨1, [1], []⟩, 0⟩, 0⟩

theorem attemptBump_bumps_to_least_loneValidator :
    let s : Slot Nat Nat Nat := { Slot.fresh loneValidator with
      ballotProtocol := { BallotProtocol.fresh with
        latestEnvelopes := [(1, ⟨1, .prepare 0 ⟨2, 0⟩ none none 0 0⟩)] } }
    (s.ballotProtocol.phase = .prepare ∨ s.ballotProtocol.phase = .confirm) ∧
      hasVBlockingSubsetStrictlyAheadOf loneValidator s.ballotProtocol.latestEnvelopes
        ((s.ballotProtocol.currentBallot.map (·.counter)).getD 0) = true ∧
      ∃ n, (∃ entry ∈ s.ballotProtocol.latestEnvelopes, statementBallotCounter entry.2 = n) ∧
        (s.ballotProtocol.currentBallot.map (·.counter)).getD 0 < n ∧
        hasVBlockingSubsetStrictlyAheadOf loneValidator s.ballotProtocol.latestEnvelopes n = false ∧
        (∀ m, (s.ballotProtocol.currentBallot.map (·.counter)).getD 0 < m → m < n →
          hasVBlockingSubsetStrictlyAheadOf loneValidator s.ballotProtocol.latestEnvelopes m = true) ∧
        (attemptBump loneValidator (fun _ => pure .valid)).run s =
          (abandonBallot loneValidator (fun _ => pure .valid) n).run s := by
  intro s
  have phase : s.ballotProtocol.phase = .prepare ∨ s.ballotProtocol.phase = .confirm := .inl rfl
  have ahead : hasVBlockingSubsetStrictlyAheadOf loneValidator s.ballotProtocol.latestEnvelopes
      ((s.ballotProtocol.currentBallot.map (·.counter)).getD 0) = true := by decide
  exact ⟨phase, ahead, attemptBump_bumps_to_least loneValidator _ s phase ahead⟩

end BallotProtocol

end StellarCore.Scp
