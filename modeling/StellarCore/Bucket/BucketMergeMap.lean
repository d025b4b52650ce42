import Mathlib.Data.Multiset.Bind

/-!
# The merge map of the bucket manager (`BucketMergeMap`)

`BucketMergeMap` remembers which merges produced which buckets in three indexes: merge key to
output, each input to the outputs of the merges reading it, and output to the merge keys that
produced it. The last two are multimaps, so a merge recorded twice is held twice. Unordered maps
and multimaps are modelled as lists of entries: the order of a list is the one thing the source
leaves unspecified, and every statement below is up to it.

What the indexes are for is one multiset: the merges recorded and not forgotten since. Every
run of `recordMerge` and `forgetAllMergesProducing` in which a merge key always names one output
keeps the three indexes an exact picture of it, multiplicities included.
-/

set_option autoImplicit false

namespace StellarCore.Bucket

/-- `MergeKey`: the inputs of a merge. -/
structure MergeKey (Hash : Type) where
  mKeepTombstoneEntries : Bool
  mInputCurrBucket : Hash
  mInputSnapBucket : Hash
  mInputShadowBuckets : List Hash
deriving DecidableEq

variable {Hash : Type} [DecidableEq Hash]

/-- `getMergeKeyHashes`: the set of input hashes of a merge. -/
def getMergeKeyHashes (key : MergeKey Hash) : List Hash :=
  (key.mInputCurrBucket :: key.mInputSnapBucket :: key.mInputShadowBuckets).foldl
    (fun hashes input => hashes.insert input) []

/-- `BucketMergeMap`. -/
structure BucketMergeMap (Hash : Type) where
  mMergeKeyToOutput : List (MergeKey Hash × Hash)
  mInputToOutput : List (Hash × Hash)
  mOutputToMergeKey : List (Hash × MergeKey Hash)

namespace BucketMergeMap

/-- The map of a bucket manager that has recorded nothing. -/
def empty : BucketMergeMap Hash := ⟨[], [], []⟩

/-- `BucketMergeMap::recordMerge`. `emplace` into the unordered map keeps an existing entry. -/
def recordMerge (map : BucketMergeMap Hash) (input : MergeKey Hash) (output : Hash) :
    BucketMergeMap Hash where
  mMergeKeyToOutput :=
    if (map.mMergeKeyToOutput.lookup input).isSome then map.mMergeKeyToOutput
    else (input, output) :: map.mMergeKeyToOutput
  mOutputToMergeKey := (output, input) :: map.mOutputToMergeKey
  mInputToOutput :=
    (getMergeKeyHashes input).foldl (fun inputToOutput inHash => (inHash, output) :: inputToOutput)
      map.mInputToOutput

/-- One pass of the loop of `forgetAllMergesProducing` over an entry of `mOutputToMergeKey`:
collect the merge key, erase one `(input, output)` entry for each of its inputs, and erase the
key from `mMergeKeyToOutput`. -/
def forgetMerge (outputBeingDropped : Hash) (state : List (MergeKey Hash) × BucketMergeMap Hash)
    (mergeProducingOutput : Hash × MergeKey Hash) : List (MergeKey Hash) × BucketMergeMap Hash :=
  let (ret, map) := state
  let mergeKeyProducingOutput := mergeProducingOutput.2
  (ret.insert mergeKeyProducingOutput,
    { map with
      mInputToOutput := (getMergeKeyHashes mergeKeyProducingOutput).foldl
        (fun inputToOutput input => inputToOutput.erase (input, outputBeingDropped))
        map.mInputToOutput
      mMergeKeyToOutput := map.mMergeKeyToOutput.filter (·.1 ≠ mergeKeyProducingOutput) })

/-- `BucketMergeMap::forgetAllMergesProducing`: the keys of the merges producing the output,
and the map without them. The loop's step erases the visited entries of `mOutputToMergeKey`. -/
def forgetAllMergesProducing (map : BucketMergeMap Hash) (outputBeingDropped : Hash) :
    List (MergeKey Hash) × BucketMergeMap Hash :=
  let (ret, map) := (map.mOutputToMergeKey.filter (·.1 = outputBeingDropped)).foldl
    (forgetMerge outputBeingDropped) ([], map)
  (ret, { map with mOutputToMergeKey := map.mOutputToMergeKey.filter (·.1 ≠ outputBeingDropped) })

/-- `BucketMergeMap::findMergeFor`. -/
def findMergeFor (map : BucketMergeMap Hash) (input : MergeKey Hash) : Option Hash :=
  map.mMergeKeyToOutput.lookup input

/-- `BucketMergeMap::getOutputsUsingInput`: adds the outputs of the merges reading `input` to
`outputs`. -/
def getOutputsUsingInput (map : BucketMergeMap Hash) (input : Hash) (outputs : List Hash) :
    List Hash :=
  (map.mInputToOutput.filter (·.1 = input)).foldl (fun outputs entry => outputs.insert entry.2)
    outputs

end BucketMergeMap

/-- The calls the bucket manager makes on its merge map. -/
inductive MergeMapCall (Hash : Type) where
  | recordMerge (input : MergeKey Hash) (output : Hash)
  | forgetAllMergesProducing (output : Hash)
deriving DecidableEq

namespace BucketMergeMap

/-- The map after one call; the keys `forgetAllMergesProducing` returns are not kept. -/
def apply (map : BucketMergeMap Hash) : MergeMapCall Hash → BucketMergeMap Hash
  | .recordMerge input output => map.recordMerge input output
  | .forgetAllMergesProducing output => (map.forgetAllMergesProducing output).2

/-- The map after a run of calls on a fresh one. -/
def run (calls : List (MergeMapCall Hash)) : BucketMergeMap Hash :=
  calls.foldl apply empty

end BucketMergeMap

/-- The entries `(input, output)` that a multiset of merges puts in `mInputToOutput`: one for
each input hash of each merge. -/
def inputEntries (live : Multiset (MergeKey Hash × Hash)) : Multiset (Hash × Hash) :=
  live.bind fun merge => ((getMergeKeyHashes merge.1).map (·, merge.2) : Multiset (Hash × Hash))

/-- The map's three indexes hold exactly the merges of `live`, with their multiplicities. -/
structure Tracks (map : BucketMergeMap Hash) (live : Multiset (MergeKey Hash × Hash)) : Prop where
  outputs : (map.mOutputToMergeKey : Multiset (Hash × MergeKey Hash)) = live.map Prod.swap
  inputs : (map.mInputToOutput : Multiset (Hash × Hash)) = inputEntries live
  keys : ∀ input output, map.findMergeFor input = some output ↔ (input, output) ∈ live
  entries : ∀ merge ∈ map.mMergeKeyToOutput, merge ∈ live

/-! ## The list operations the indexes use -/

section Lists

variable {α β : Type}

/-- A set built by `insert` holds what it started with and what was inserted. -/
theorem mem_foldl_insert [DecidableEq β] (f : α → β) :
    ∀ (l : List α) (set : List β) (b : β),
      b ∈ l.foldl (fun set a => set.insert (f a)) set ↔ b ∈ set ∨ ∃ a ∈ l, f a = b
  | [], set, b => by simp
  | a :: rest, set, b => by
    rw [List.foldl_cons, mem_foldl_insert f rest, List.mem_insert_iff]
    constructor
    · rintro ((inserted | earlier) | ⟨a', member, rfl⟩)
      · exact .inr ⟨a, List.mem_cons_self, inserted.symm⟩
      · exact .inl earlier
      · exact .inr ⟨a', List.mem_cons_of_mem a member, rfl⟩
    · rintro (earlier | ⟨a', member, rfl⟩)
      · exact .inl (.inr earlier)
      · rcases List.mem_cons.mp member with rfl | later
        · exact .inl (.inl rfl)
        · exact .inr ⟨a', later, rfl⟩

/-- Pushing every element to the front of a list puts them there, last first. -/
theorem foldl_cons_eq (f : α → β) :
    ∀ (l : List α) (init : List β), l.foldl (fun acc a => f a :: acc) init = (l.map f).reverse ++ init
  | [], init => rfl
  | a :: rest, init => by
    rw [List.foldl_cons, foldl_cons_eq f rest]
    simp

/-- Looking a key up in the entries whose keys pass a test. -/
theorem lookup_filter_fst [DecidableEq α] (p : α → Bool) :
    ∀ (l : List (α × β)) (key : α),
      (l.filter fun entry => p entry.1).lookup key = if p key then l.lookup key else none
  | [], key => by simp
  | (key', value) :: rest, key => by
    by_cases same : key = key'
    · subst same
      by_cases passes : p key <;> simp [passes, lookup_filter_fst p rest]
    · have differ : (key == key') = false := beq_false_of_ne same
      by_cases passes : p key' <;>
        simp [passes, List.lookup_cons, differ, lookup_filter_fst p rest]

/-- `List.diff` under any lawful equality test is multiset subtraction. -/
theorem coe_diff [BEq α] [LawfulBEq α] [DecidableEq α] (l t : List α) :
    ((l.diff t : List α) : Multiset α) = (l : Multiset α) - t := by
  rw [Multiset.coe_sub]
  congr
  exact lawful_beq_subsingleton _ _

end Lists

theorem mem_getMergeKeyHashes {key : MergeKey Hash} {hash : Hash} :
    hash ∈ getMergeKeyHashes key ↔
      hash ∈ key.mInputCurrBucket :: key.mInputSnapBucket :: key.mInputShadowBuckets := by
  unfold getMergeKeyHashes
  exact (mem_foldl_insert (fun input : Hash => input) _ [] hash).trans (by simp)

/-! ## The merges the map stands for -/

theorem tracks_empty : Tracks (BucketMergeMap.empty : BucketMergeMap Hash) 0 :=
  ⟨rfl, rfl, fun _ _ => by simp [BucketMergeMap.findMergeFor, BucketMergeMap.empty],
    fun _ member => absurd member List.not_mem_nil⟩

/-- Through `findMergeFor`, the merges of a tracked multiset name one output per key. -/
theorem Tracks.functional {map : BucketMergeMap Hash} {live : Multiset (MergeKey Hash × Hash)}
    (tracks : Tracks map live) {input : MergeKey Hash} {output output' : Hash}
    (first : (input, output) ∈ live) (second : (input, output') ∈ live) : output = output' := by
  have found := (tracks.keys input output).mpr first
  rw [(tracks.keys input output').mpr second] at found
  exact (Option.some.inj found).symm

theorem inputEntries_cons (merge : MergeKey Hash × Hash) (live : Multiset (MergeKey Hash × Hash)) :
    inputEntries (merge ::ₘ live) =
      ((getMergeKeyHashes merge.1).map (·, merge.2) : Multiset (Hash × Hash)) + inputEntries live :=
  Multiset.cons_bind _ _ _

/-- Recording a merge whose key names no other output records it once more. -/
theorem recordMerge_tracks {map : BucketMergeMap Hash} {live : Multiset (MergeKey Hash × Hash)}
    (tracks : Tracks map live) {input : MergeKey Hash} {output : Hash}
    (agrees : ∀ output', (input, output') ∈ live → output' = output) :
    Tracks (map.recordMerge input output) ((input, output) ::ₘ live) := by
  refine ⟨?_, ?_, fun key value => ?_, fun merge member => ?_⟩
  · rw [BucketMergeMap.recordMerge, ← Multiset.cons_coe, tracks.outputs, Multiset.map_cons,
      Prod.swap_prod_mk]
  · rw [BucketMergeMap.recordMerge, foldl_cons_eq, inputEntries_cons, ← tracks.inputs,
      ← Multiset.coe_add, Multiset.coe_reverse]
  · rw [Multiset.mem_cons, ← tracks.keys]
    unfold BucketMergeMap.findMergeFor BucketMergeMap.recordMerge
    dsimp only
    split_ifs with known
    · -- the key was recorded before, with this same output
      obtain ⟨earlier, found⟩ := Option.isSome_iff_exists.mp known
      have same := agrees earlier ((tracks.keys input earlier).mp found)
      subst same
      by_cases sameKey : key = input
      · subst sameKey
        simp [found, eq_comm]
      · simp [sameKey]
    · by_cases sameKey : key = input
      · subst sameKey
        have unknown : map.mMergeKeyToOutput.lookup key = none := Option.not_isSome_iff_eq_none.mp known
        simp [unknown, eq_comm]
      · simp [List.lookup_cons, beq_false_of_ne sameKey, sameKey]
  · unfold BucketMergeMap.recordMerge at member
    dsimp only at member
    split_ifs at member
    · exact Multiset.mem_cons_of_mem (tracks.entries merge member)
    · cases List.mem_cons.mp member with
      | inl recorded => exact recorded ▸ Multiset.mem_cons_self _ _
      | inr earlier => exact Multiset.mem_cons_of_mem (tracks.entries merge earlier)

/-- The loop of `forgetAllMergesProducing` over a list of entries collects their keys, erases
one input entry per input of each, and erases their keys. -/
theorem foldl_forgetMerge (outputBeingDropped : Hash) :
    ∀ (entries : List (Hash × MergeKey Hash)) (ret : List (MergeKey Hash))
      (map : BucketMergeMap Hash),
      entries.foldl (BucketMergeMap.forgetMerge outputBeingDropped) (ret, map) =
        (entries.foldl (fun ret entry => ret.insert entry.2) ret,
          { map with
            mInputToOutput := map.mInputToOutput.diff (entries.flatMap fun entry =>
              (getMergeKeyHashes entry.2).map (·, outputBeingDropped))
            mMergeKeyToOutput :=
              map.mMergeKeyToOutput.filter fun merge => merge.1 ∉ entries.map Prod.snd })
  | [], ret, map => by simp
  | entry :: rest, ret, map => by
    rw [List.foldl_cons, List.foldl_cons, BucketMergeMap.forgetMerge, foldl_forgetMerge _ rest]
    -- the entry's erasures come first, then those of the rest
    have erased : (getMergeKeyHashes entry.2).foldl
        (fun inputToOutput input => inputToOutput.erase (input, outputBeingDropped)) map.mInputToOutput =
          map.mInputToOutput.diff ((getMergeKeyHashes entry.2).map (·, outputBeingDropped)) := by
      rw [List.diff_eq_foldl, List.foldl_map]
    simp only [erased, List.flatMap_cons, List.diff_append, List.filter_filter, List.map_cons,
      List.mem_cons, not_or]
    congr 3
    funext merge
    simp only [ne_eq, Bool.decide_and]
    exact Bool.and_comm _ _

/-- Forgetting an output returns the keys of the merges producing it and forgets exactly those
merges. -/
theorem forgetAllMergesProducing_tracks {map : BucketMergeMap Hash}
    {live : Multiset (MergeKey Hash × Hash)} (tracks : Tracks map live) (output : Hash) :
    (∀ key, key ∈ (map.forgetAllMergesProducing output).1 ↔ (key, output) ∈ live) ∧
      Tracks (map.forgetAllMergesProducing output).2 (live.filter fun merge => merge.2 ≠ output) := by
  have producingLive : ((map.mOutputToMergeKey.filter fun entry => entry.1 = output) :
      Multiset (Hash × MergeKey Hash)) = (live.filter fun merge => merge.2 = output).map Prod.swap := by
    rw [← Multiset.filter_coe, tracks.outputs, Multiset.filter_map]
    rfl
  have producingKeys : ∀ key, (∃ entry ∈ map.mOutputToMergeKey.filter (fun entry => entry.1 = output),
      entry.2 = key) ↔ (key, output) ∈ live := by
    intro key
    constructor
    · rintro ⟨⟨output', key'⟩, member, rfl⟩
      have found := Multiset.mem_coe.mpr member
      rw [producingLive, Multiset.mem_map] at found
      obtain ⟨⟨key'', output''⟩, kept, swapped⟩ := found
      cases swapped
      obtain ⟨recorded, same⟩ := Multiset.mem_filter.mp kept
      dsimp only at same ⊢
      rw [← same]
      exact recorded
    · intro member
      have kept : (key, output) ∈ live.filter fun merge => merge.2 = output :=
        Multiset.mem_filter.mpr ⟨member, rfl⟩
      refine ⟨(output, key), Multiset.mem_coe.mp ?_, rfl⟩
      rw [producingLive]
      exact Multiset.mem_map_of_mem Prod.swap kept
  -- the input entries of the forgotten merges are those of the merges producing the output
  have forgottenInputs : ((map.mOutputToMergeKey.filter (fun entry => entry.1 = output)).flatMap
      (fun entry => (getMergeKeyHashes entry.2).map (·, output)) : Multiset (Hash × Hash)) =
        inputEntries (live.filter fun merge => merge.2 = output) := by
    rw [← Multiset.coe_bind, producingLive, Multiset.bind_map, inputEntries]
    refine Multiset.bind_congr fun merge member => ?_
    rw [(Multiset.mem_filter.mp member).2]
    rfl
  unfold BucketMergeMap.forgetAllMergesProducing
  rw [foldl_forgetMerge]
  dsimp only
  refine ⟨fun key => ?_, ⟨?_, ?_, fun key value => ?_, fun merge member => ?_⟩⟩
  · rw [mem_foldl_insert Prod.snd, producingKeys]
    simp
  · rw [← Multiset.filter_coe, tracks.outputs, Multiset.filter_map]
    rfl
  · dsimp only
    have split : inputEntries live = inputEntries (live.filter fun merge => merge.2 = output) +
        inputEntries (live.filter fun merge => merge.2 ≠ output) := by
      rw [inputEntries, inputEntries, inputEntries, ← Multiset.add_bind, Multiset.filter_add_not]
    rw [coe_diff, tracks.inputs, forgottenInputs, split, add_tsub_cancel_left]
  · unfold BucketMergeMap.findMergeFor
    dsimp only
    rw [lookup_filter_fst (fun key => decide (key ∉ _)), Multiset.mem_filter]
    by_cases produces : (key, output) ∈ live
    · have forgotten : key ∈ (map.mOutputToMergeKey.filter fun entry => entry.1 = output).map Prod.snd :=
        List.mem_map.mpr ((producingKeys key).mpr produces)
      simp only [forgotten, not_true_eq_false, decide_false, Bool.false_eq_true, ↓reduceIte,
        reduceCtorEq, false_iff, not_and, not_not]
      exact fun member => (tracks.functional produces member).symm
    · have kept : key ∉ (map.mOutputToMergeKey.filter fun entry => entry.1 = output).map Prod.snd :=
        fun member => produces ((producingKeys key).mp (List.mem_map.mp member))
      simp only [kept, not_false_eq_true, decide_true, ↓reduceIte]
      rw [← BucketMergeMap.findMergeFor, tracks.keys]
      constructor
      · intro member
        exact ⟨member, fun same => produces (same ▸ member)⟩
      · exact fun ⟨member, _⟩ => member
  · dsimp only at member
    obtain ⟨recorded, kept⟩ := List.mem_filter.mp member
    have notForgotten : merge.1 ∉ (map.mOutputToMergeKey.filter fun entry => entry.1 = output).map
        Prod.snd := of_decide_eq_true kept
    refine Multiset.mem_filter.mpr ⟨tracks.entries merge recorded, fun produces => notForgotten ?_⟩
    have live : (merge.1, output) ∈ live := produces ▸ tracks.entries merge recorded
    exact List.mem_map.mpr ((producingKeys merge.1).mpr live)

/-- An input entry of a multiset of merges comes from a merge that reads the input. -/
theorem mem_inputEntries {live : Multiset (MergeKey Hash × Hash)} {input output : Hash} :
    (input, output) ∈ inputEntries live ↔ ∃ key, (key, output) ∈ live ∧ input ∈ getMergeKeyHashes key := by
  rw [inputEntries, Multiset.mem_bind]
  constructor
  · intro entry
    obtain ⟨⟨key, output'⟩, member, reads⟩ := entry
    obtain ⟨hash, reading, same⟩ := List.mem_map.mp (Multiset.mem_coe.mp reads)
    cases same
    exact ⟨key, member, reading⟩
  · intro reader
    obtain ⟨key, member, reading⟩ := reader
    exact ⟨(key, output), member, Multiset.mem_coe.mpr (List.mem_map.mpr ⟨input, reading, rfl⟩)⟩

theorem mem_getOutputsUsingInput {map : BucketMergeMap Hash} {input output : Hash} {outputs : List Hash} :
    output ∈ map.getOutputsUsingInput input outputs ↔ output ∈ outputs ∨ (input, output) ∈ map.mInputToOutput := by
  unfold BucketMergeMap.getOutputsUsingInput
  rw [mem_foldl_insert Prod.snd]
  simp

/-- The outputs a tracking map reports for an input are those of the live merges reading it. -/
theorem Tracks.mem_getOutputsUsingInput_iff {map : BucketMergeMap Hash}
    {live : Multiset (MergeKey Hash × Hash)} (tracks : Tracks map live) (input output : Hash) :
    output ∈ map.getOutputsUsingInput input [] ↔
      ∃ key, (key, output) ∈ live ∧ input ∈ getMergeKeyHashes key := by
  rw [mem_getOutputsUsingInput, ← mem_inputEntries, ← tracks.inputs, Multiset.mem_coe]
  simp

/-- A map tracking merges none of which produces an output holds no entry for it, and forgetting
it returns no key. -/
theorem Tracks.forgotten {map : BucketMergeMap Hash} {live : Multiset (MergeKey Hash × Hash)}
    (tracks : Tracks map live) {output : Hash} (absent : ∀ merge ∈ live, merge.2 ≠ output) :
    (∀ key, (key, output) ∉ map.mMergeKeyToOutput) ∧
      (∀ input, (input, output) ∉ map.mInputToOutput) ∧
      (∀ key, (output, key) ∉ map.mOutputToMergeKey) ∧
      (map.forgetAllMergesProducing output).1 = [] := by
  refine ⟨fun key member => absent _ (tracks.entries _ member) rfl, fun input member => ?_,
    fun key member => ?_, List.eq_nil_iff_forall_not_mem.mpr fun key member => ?_⟩
  · obtain ⟨key, live, _⟩ := mem_inputEntries.1 (tracks.inputs ▸ Multiset.mem_coe.mpr member)
    exact absent _ live rfl
  · have swapped := tracks.outputs ▸ Multiset.mem_coe.mpr member
    obtain ⟨merge, live, same⟩ := Multiset.mem_map.mp swapped
    exact absent merge live (congrArg Prod.fst same)
  · exact absent _ (((forgetAllMergesProducing_tracks tracks output).1 key).mp member) rfl

/-! ## Runs of calls -/

namespace BucketMergeMap

theorem run_append_singleton (calls : List (MergeMapCall Hash)) (call : MergeMapCall Hash) :
    run (calls ++ [call]) = (run calls).apply call := by
  rw [run, List.foldl_append, List.foldl_cons, List.foldl_nil, run]

end BucketMergeMap

/-- What a call does to the merges recorded and not forgotten. -/
def liveStep (live : Multiset (MergeKey Hash × Hash)) :
    MergeMapCall Hash → Multiset (MergeKey Hash × Hash)
  | .recordMerge input output => (input, output) ::ₘ live
  | .forgetAllMergesProducing output => live.filter fun merge => merge.2 ≠ output

/-- The merges recorded and not forgotten after a run, as often as each was recorded. -/
def liveMerges (calls : List (MergeMapCall Hash)) : Multiset (MergeKey Hash × Hash) :=
  calls.foldl liveStep 0

theorem liveMerges_append_singleton (calls : List (MergeMapCall Hash)) (call : MergeMapCall Hash) :
    liveMerges (calls ++ [call]) = liveStep (liveMerges calls) call := by
  rw [liveMerges, List.foldl_append, List.foldl_cons, List.foldl_nil, liveMerges]

/-- A merge is live after a run when it was recorded and its output not forgotten since. -/
def Live (calls : List (MergeMapCall Hash)) (input : MergeKey Hash) (output : Hash) : Prop :=
  ∃ before after, calls = before ++ .recordMerge input output :: after ∧
    .forgetAllMergesProducing output ∉ after

/-- Merges are deterministic: a merge key is only ever recorded with one output. -/
def Deterministic (calls : List (MergeMapCall Hash)) : Prop :=
  ∀ input output output', .recordMerge input output ∈ calls →
    .recordMerge input output' ∈ calls → output = output'

omit [DecidableEq Hash] in
theorem Live.recorded {calls : List (MergeMapCall Hash)} {input : MergeKey Hash} {output : Hash}
    (live : Live calls input output) : .recordMerge input output ∈ calls := by
  obtain ⟨before, after, rfl, _⟩ := live
  exact List.mem_append_right _ List.mem_cons_self

omit [DecidableEq Hash] in
theorem live_append_singleton {calls : List (MergeMapCall Hash)} {call : MergeMapCall Hash}
    {input : MergeKey Hash} {output : Hash} :
    Live (calls ++ [call]) input output ↔ call = .recordMerge input output ∨
      (Live calls input output ∧ call ≠ .forgetAllMergesProducing output) := by
  constructor
  · intro live
    obtain ⟨before, after, split, notForgotten⟩ := live
    -- the recording is the last call, or comes before it
    cases List.eq_nil_or_concat after with
    | inl none =>
      subst none
      exact .inl (List.append_singleton_inj.mp split).2
    | inr some =>
      obtain ⟨after', last, rfl⟩ := some
      rw [List.concat_eq_append, ← List.cons_append, ← List.append_assoc] at split
      obtain ⟨earlier, rfl⟩ := List.append_singleton_inj.mp split
      rw [List.concat_eq_append, List.mem_append, not_or, List.mem_singleton] at notForgotten
      exact .inr ⟨⟨before, after', earlier, notForgotten.1⟩, fun same => notForgotten.2 same.symm⟩
  · intro live
    cases live with
    | inl recorded => exact ⟨calls, [], by rw [recorded], List.not_mem_nil⟩
    | inr earlier =>
      obtain ⟨⟨before, after, rfl, notForgotten⟩, notForgetting⟩ := earlier
      refine ⟨before, after ++ [call], by simp, ?_⟩
      rw [List.mem_append, List.mem_singleton, not_or]
      exact ⟨notForgotten, fun same => notForgetting same.symm⟩

/-- The multiset `liveMerges` holds exactly the merges recorded and not forgotten since. -/
theorem mem_liveMerges_iff (calls : List (MergeMapCall Hash)) :
    ∀ input output, (input, output) ∈ liveMerges calls ↔ Live calls input output := by
  induction calls using List.reverseRecOn with
  | nil =>
    intro input output
    simp [liveMerges, Live]
  | append_singleton calls call ih =>
    intro input output
    rw [liveMerges_append_singleton, live_append_singleton]
    cases call with
    | recordMerge key value =>
      rw [liveStep, Multiset.mem_cons, ih, Prod.mk.injEq, MergeMapCall.recordMerge.injEq]
      simp [eq_comm]
    | forgetAllMergesProducing dropped =>
      rw [liveStep, Multiset.mem_filter, ih]
      simp [eq_comm]

omit [DecidableEq Hash] in
theorem Deterministic.of_append {calls more : List (MergeMapCall Hash)}
    (deterministic : Deterministic (calls ++ more)) : Deterministic calls :=
  fun input output output' first second =>
    deterministic input output output' (List.mem_append_left _ first) (List.mem_append_left _ second)

/-- Every deterministic run leaves the map tracking the merges recorded and not forgotten. -/
theorem tracks_run {calls : List (MergeMapCall Hash)} (deterministic : Deterministic calls) :
    Tracks (BucketMergeMap.run calls) (liveMerges calls) := by
  induction calls using List.reverseRecOn with
  | nil => exact tracks_empty
  | append_singleton calls call ih =>
    have earlier := ih deterministic.of_append
    rw [BucketMergeMap.run_append_singleton, liveMerges_append_singleton]
    cases call with
    | recordMerge input output =>
      refine recordMerge_tracks earlier fun output' live => ?_
      have recorded := ((mem_liveMerges_iff calls input output').mp live).recorded
      exact deterministic input output' output (List.mem_append_left _ recorded)
        (List.mem_append_right _ (List.mem_singleton_self _))
    | forgetAllMergesProducing output =>
      exact (forgetAllMergesProducing_tracks earlier output).2

/-- At every point of a run in which each merge key is recorded with one output, the three
indexes answer for the merges recorded and not forgotten since: `findMergeFor` names their
outputs, `getOutputsUsingInput` the outputs of those reading an input, and
`forgetAllMergesProducing` returns the keys of those producing an output and leaves no entry for
it in any index, so that forgetting it again returns nothing. -/
theorem mergeMap_consistent {calls : List (MergeMapCall Hash)} (deterministic : Deterministic calls) :
    (∀ input output,
      (BucketMergeMap.run calls).findMergeFor input = some output ↔ Live calls input output) ∧
    (∀ input output, output ∈ (BucketMergeMap.run calls).getOutputsUsingInput input [] ↔
      ∃ key, Live calls key output ∧ input ∈ getMergeKeyHashes key) ∧
    ∀ output,
      (∀ key, key ∈ ((BucketMergeMap.run calls).forgetAllMergesProducing output).1 ↔
        Live calls key output) ∧
      (∀ key, (key, output) ∉
        ((BucketMergeMap.run calls).forgetAllMergesProducing output).2.mMergeKeyToOutput) ∧
      (∀ input, (input, output) ∉
        ((BucketMergeMap.run calls).forgetAllMergesProducing output).2.mInputToOutput) ∧
      (∀ key, (output, key) ∉
        ((BucketMergeMap.run calls).forgetAllMergesProducing output).2.mOutputToMergeKey) ∧
      (((BucketMergeMap.run calls).forgetAllMergesProducing output).2.forgetAllMergesProducing
        output).1 = [] := by
  have tracks := tracks_run deterministic
  refine ⟨fun input output => ?_, fun input output => ?_, fun output => ?_⟩
  · rw [tracks.keys, mem_liveMerges_iff]
  · rw [tracks.mem_getOutputsUsingInput_iff]
    simp only [mem_liveMerges_iff]
  · obtain ⟨producing, forgotten⟩ := forgetAllMergesProducing_tracks tracks output
    have absent : ∀ merge ∈ (liveMerges calls).filter (fun merge => merge.2 ≠ output),
        merge.2 ≠ output :=
      fun merge member => (Multiset.mem_filter.mp member).2
    exact ⟨fun key => (producing key).trans (mem_liveMerges_iff calls key output),
      forgotten.forgotten absent⟩

/-- Two merges sharing an input produce one output, a third another, one merge is recorded twice
and the third output is forgotten: forgetting the first output twice returns nothing the second
time. -/
theorem mergeMap_consistent_sharedOutput :
    Deterministic [.recordMerge ⟨true, 1, 2, []⟩ 5, .recordMerge ⟨false, 1, 3, [4]⟩ 5,
      .recordMerge ⟨true, 2, 3, []⟩ 6, .recordMerge ⟨true, 1, 2, []⟩ 5,
      .forgetAllMergesProducing 6] ∧
    (((BucketMergeMap.run [.recordMerge ⟨true, 1, 2, []⟩ 5, .recordMerge ⟨false, 1, 3, [4]⟩ 5,
      .recordMerge ⟨true, 2, 3, []⟩ 6, .recordMerge ⟨true, 1, 2, []⟩ 5,
      .forgetAllMergesProducing 6]).forgetAllMergesProducing 5).2.forgetAllMergesProducing
        (5 : Nat)).1 = [] := by
  have deterministic : Deterministic [.recordMerge ⟨true, 1, 2, []⟩ 5,
      .recordMerge ⟨false, 1, 3, [4]⟩ 5, .recordMerge ⟨true, 2, 3, []⟩ 6,
      .recordMerge ⟨true, 1, 2, []⟩ (5 : Nat), .forgetAllMergesProducing 6] := by
    intro input output output' first second
    simp only [List.mem_cons, MergeMapCall.recordMerge.injEq, List.not_mem_nil, or_false,
      reduceCtorEq] at first second
    grind
  obtain ⟨-, -, forgets⟩ := mergeMap_consistent deterministic
  exact ⟨deterministic, (forgets 5).2.2.2.2⟩

end StellarCore.Bucket
