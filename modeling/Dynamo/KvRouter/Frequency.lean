import Mathlib.Order.Monotone.Basic
import Dynamo.Lib.Bytes
import Dynamo.Lib.Collections
import Dynamo.KvRouter.Membership

/-!
# Access Frequencies of the Radix Tree

A `RadixTree` built with `new_with_frequency(Some(d))` also keeps, in each
block, the instants it was walked through, `recent_uses`. `find_matches`
prunes the uses older than `d` from the front of each block it walks through,
reports how many are left with `OverlapScores::add_frequency`, and pushes the
current instant. A zero count is left out, and a debug build asserts that the
reported counts never grow along a path.

The assertion rests on each block being walked through only after its
parent, so that a child's uses are among its parent's. That holds while a
block stays where it was created, but not when it moves. A `Removed` event
that empties a block clears its children, and those children live on in
their workers' lookup tables with their uses. When the worker stores its
chain again, the parent block is found by the tokens hash, but the emptied
middle block is not: a new, unused block takes its place, and the old child
is hung under it from the lookup table. The new middle block then counts
fewer uses than the child below it, and once both are walked again the
reported counts go up (`frequencyTree_frequencies_increase`). The run
meets the assumptions the events are expected to keep: each hash is stored
under one parent and tokens hash, parents are held when stored under, only
held blocks are removed, and the clock of `find_matches` does not go back.

The frequencies of a sharded indexer are the shards' lists added element by
element. That merge keeps a non-increasing list non-increasing
(`shardedFrequencies_sortedGE`), so the sharded indexer is as sound as its
shards, and no sounder.

Instants are ticks of the monotonic clock, and `duration_since` saturates at
zero as in the standard library; durations are in the same ticks.

## Main definitions

* `FrequencyTree`: A radix tree with the `recent_uses` of its blocks and its
  expiration duration.
* `OverlapScores.addFrequency`: `add_frequency`, with its debug assertion.
* `FrequencyTree.findMatches`, `FrequencyTree.applyEvent`,
  `FrequencyTree.removeWorker`: The operations.
* `FrequencyCall`, `FrequencyTree.run`: A run of calls and the frequencies it
  returns.
* `FrequencyTree.allowedRun`: The assumptions on the events of a run.
* `shardedFrequencies`: The sharded indexer's merge.

## Theorems

* `FrequencyTree.findMatchesFrom_scores`: The scores are those of the tree
  without frequencies, and the blocks are left as they are.
* `FrequencyTree.findMatchesFrom_disabled`: A release build never panics.
* `FrequencyTree.run_enabled_eq_ok`: A debug build's run returns exactly when
  the release build's returns only non-increasing lists.
* `shardedFrequencies_sortedGE`: Merging non-increasing lists gives a
  non-increasing list.
* `frequencyTree_frequencies_increase`: A run within those assumptions whose
  frequencies go up.
-/

namespace Dynamo

namespace KvRouter

open Bytes

/-- `Instant`, as ticks of the monotonic clock. -/
abbrev Instant := Nat

/-- `OverlapScores::add_frequency`: a zero is left out, and a debug build
    asserts that the list does not grow. -/
def OverlapScores.addFrequency (checks : OverflowChecks) (frequencies : List Nat) (frequency : Nat) :
    Except Abort (List Nat) :=
  if frequency ≠ 0 then do
    match frequencies.getLast? with
    | some elem =>
        debugAssert checks (pure (decide (elem ≥ frequency))) "assertion failed: **elem >= frequency"
    | none => pure ()
    pure (frequencies ++ [frequency])
  else pure frequencies

namespace OverlapScores

theorem addFrequency_disabled (frequencies : List Nat) (frequency : Nat) :
    addFrequency .disabled frequencies frequency =
      .ok (if frequency ≠ 0 then frequencies ++ [frequency] else frequencies) := by
  unfold addFrequency
  by_cases h : frequency ≠ 0
  · rw [if_pos h, if_pos h]
    cases frequencies.getLast? <;> rfl
  · rw [if_neg h, if_neg h]
    rfl

/-- On a non-increasing list, the assertion of a debug build fires exactly
    when the list the release build returns goes up. -/
theorem addFrequency_enabled_eq_ok {frequencies : List Nat} (hf : frequencies.SortedGE)
    (frequency : Nat) (r : List Nat) :
    addFrequency .enabled frequencies frequency = .ok r ↔
      addFrequency .disabled frequencies frequency = .ok r ∧ r.SortedGE := by
  rw [addFrequency_disabled]
  unfold addFrequency
  by_cases h : frequency ≠ 0
  · rw [if_pos h, if_pos h]
    have hsorted := List.sortedGE_append_singleton hf frequency
    cases hlast : frequencies.getLast? with
    | none =>
        rw [hlast] at hsorted
        simp only [Option.mem_def, reduceCtorEq, false_imp_iff, imp_true_iff, iff_true] at hsorted
        constructor
        · intro hr
          cases hr
          exact ⟨rfl, hsorted⟩
        · exact fun hr => hr.1
    | some elem =>
        rw [hlast] at hsorted
        simp only [Option.mem_def, Option.some.injEq, forall_eq'] at hsorted
        -- the assertion compares the new entry with the last one only
        by_cases hle : frequency ≤ elem
        · have hassert : debugAssert .enabled (pure (decide (elem ≥ frequency)))
              "assertion failed: **elem >= frequency" = .ok () :=
            debugAssert_of_eq_ok _ _ (by rw [decide_eq_true hle]; rfl)
          simp only [hassert, Except.ok_bind]
          constructor
          · intro hr
            cases hr
            exact ⟨rfl, hsorted.mpr hle⟩
          · exact fun hr => hr.1
        · have hfalse : decide (elem ≥ frequency) = false := decide_eq_false hle
          simp only [debugAssert, hfalse]
          constructor
          · intro hr
            cases hr
          · rintro ⟨hr, hrs⟩
            cases hr
            exact absurd (hsorted.mp hrs) hle
  · rw [if_neg h, if_neg h]
    constructor
    · intro hr
      cases hr
      exact ⟨rfl, hf⟩
    · exact fun hr => hr.1

end OverlapScores

/-- A `RadixTree` built with `new_with_frequency`: the tree, the
    `recent_uses` of the block at each address, and the expiration
    duration. -/
structure FrequencyTree where
  tree : RadixTree
  recentUses : Nat → List Instant
  expirationDuration : Option Nat

namespace FrequencyTree

/-- `RadixTree::new_with_frequency`. -/
def newWithFrequency (expirationDuration : Option Nat) : FrequencyTree :=
  ⟨RadixTree.new, fun _ => [], expirationDuration⟩

/-- The loop of `find_matches` that pops the uses older than `d` from the
    front of a block's `recent_uses`. -/
def pruneFront (now : Instant) (d : Nat) : List Instant → List Instant
  | [] => []
  | accessTime :: rest => if now - accessTime > d then pruneFront now d rest else accessTime :: rest

/-- What `find_matches` does with a block it walks through when the tree has
    an expiration duration: prune its uses, report how many are left, push
    `now`. -/
def visit (checks : OverflowChecks) (now : Instant) (t : FrequencyTree) (block : Nat)
    (frequencies : List Nat) : Except Abort (List Nat × FrequencyTree) :=
  match t.expirationDuration with
  | none => pure (frequencies, t)
  | some d => do
      let uses := pruneFront now d (t.recentUses block)
      let frequencies ← OverlapScores.addFrequency checks frequencies uses.length
      pure (frequencies, { t with recentUses := Function.update t.recentUses block (uses ++ [now]) })

/-- The walk of `find_matches` from `current`: the scores of the walk of the
    tree without frequencies, and each block walked through visited. -/
def findMatchesFrom (checks : OverflowChecks) (now : Instant) (earlyExit : Bool) :
    FrequencyTree → Nat → List LocalBlockHash → OverlapScores → List Nat →
      Except Abort (OverlapScores × List Nat × FrequencyTree)
  | t, _, [], scores, frequencies => .ok (scores, frequencies, t)
  | t, current, blockHash :: sequence, scores, frequencies =>
      match (t.tree.nodes current).children.lookup blockHash with
      | none => .ok (scores, frequencies, t)
      | some block => do
          let scores := scores.updateScores (t.tree.nodes block).workers
          let (frequencies, t) ← t.visit checks now block frequencies
          if earlyExit ∧ (t.tree.nodes block).workers.card = 1 then pure (scores, frequencies, t)
          else findMatchesFrom checks now earlyExit t block sequence scores frequencies

/-- `find_matches` at the instant `now`. -/
def findMatches (checks : OverflowChecks) (now : Instant) (t : FrequencyTree)
    (sequence : List LocalBlockHash) (earlyExit : Bool) :
    Except Abort (OverlapScores × List Nat × FrequencyTree) :=
  findMatchesFrom checks now earlyExit t RadixTree.root sequence OverlapScores.new []

/-- `apply_event`: the blocks and tables change as in the tree without
    frequencies, and a block it creates starts with no uses. -/
def applyEvent (t : FrequencyTree) (event : RouterEvent) : Except Abort FrequencyTree :=
  (t.tree.applyEvent event).map fun tree =>
    { t with tree := tree, recentUses := fun n => if t.tree.next ≤ n then [] else t.recentUses n }

/-- `remove_worker`. -/
def removeWorker (t : FrequencyTree) (worker : WorkerId) : FrequencyTree :=
  { t with tree := t.tree.removeWorker worker }

section Walk

variable (now : Instant)

theorem addFrequency_extends {checks : OverflowChecks} {frequencies : List Nat} {frequency : Nat}
    {r : List Nat} (h : OverlapScores.addFrequency checks frequencies frequency = .ok r) :
    frequencies <+: r := by
  unfold OverlapScores.addFrequency at h
  by_cases hx : frequency ≠ 0
  · rw [if_pos hx] at h
    dsimp only at h
    -- past the assertion, if it holds, the frequency is appended
    split at h
    · obtain ⟨_, _, h⟩ := Except.bind_eq_ok h
      cases h
      exact List.prefix_append _ _
    · cases h
      exact List.prefix_append _ _
  · rw [if_neg hx] at h
    cases h
    exact List.prefix_refl _

/-- A visit only appends to the frequencies, and leaves the blocks as they
    are. -/
theorem visit_eq_ok {checks : OverflowChecks} {t : FrequencyTree} {block : Nat}
    {frequencies : List Nat} {r : List Nat × FrequencyTree}
    (h : t.visit checks now block frequencies = .ok r) : frequencies <+: r.1 ∧ r.2.tree = t.tree := by
  unfold visit at h
  cases hd : t.expirationDuration with
  | none =>
      rw [hd] at h
      cases h
      exact ⟨List.prefix_refl _, rfl⟩
  | some d =>
      rw [hd] at h
      obtain ⟨fs, hfs, h⟩ := Except.bind_eq_ok h
      cases h
      exact ⟨addFrequency_extends hfs, rfl⟩

theorem visit_disabled (t : FrequencyTree) (block : Nat) (frequencies : List Nat) :
    ∃ r, t.visit .disabled now block frequencies = .ok r := by
  unfold visit
  cases t.expirationDuration with
  | none => exact ⟨_, rfl⟩
  | some d =>
      dsimp only
      rw [OverlapScores.addFrequency_disabled]
      exact ⟨_, rfl⟩

theorem visit_enabled_eq_ok (t : FrequencyTree) (block : Nat) {frequencies : List Nat}
    (hf : frequencies.SortedGE) (r : List Nat × FrequencyTree) :
    t.visit .enabled now block frequencies = .ok r ↔
      t.visit .disabled now block frequencies = .ok r ∧ r.1.SortedGE := by
  unfold visit
  cases t.expirationDuration with
  | none =>
      constructor
      · intro h
        cases h
        exact ⟨rfl, hf⟩
      · exact fun h => h.1
  | some d =>
      dsimp only
      refine Except.bind_eq_ok_iff_checked (Q := fun r : List Nat × FrequencyTree => r.1.SortedGE)
        (OverlapScores.addFrequency_enabled_eq_ok hf _)
        (fun fs hfs b => ⟨fun h => ⟨h, ?_⟩, fun h => h.1⟩) (fun fs b h hb => ?_) r
      · cases h
        exact hfs
      · cases h
        exact hb

/-- The walk with frequencies scores as the walk of the tree without them,
    only appends to the frequencies, and leaves the blocks as they are. -/
theorem findMatchesFrom_scores (checks : OverflowChecks) (earlyExit : Bool) :
    ∀ (t : FrequencyTree) (current : Nat) (sequence : List LocalBlockHash) (scores : OverlapScores)
      (frequencies : List Nat) (r : OverlapScores × List Nat × FrequencyTree),
      findMatchesFrom checks now earlyExit t current sequence scores frequencies = .ok r →
        r.1 = t.tree.findMatchesFrom earlyExit current sequence scores ∧ frequencies <+: r.2.1 ∧
          r.2.2.tree = t.tree
  | t, current, [], scores, frequencies, r, h => by
      cases h
      exact ⟨rfl, List.prefix_refl _, rfl⟩
  | t, current, blockHash :: sequence, scores, frequencies, r, h => by
      unfold findMatchesFrom at h
      rw [RadixTree.findMatchesFrom]
      cases hl : (t.tree.nodes current).children.lookup blockHash with
      | none =>
          rw [hl] at h
          cases h
          exact ⟨rfl, List.prefix_refl _, rfl⟩
      | some block =>
          rw [hl] at h
          obtain ⟨⟨fs, t'⟩, hv, h⟩ := Except.bind_eq_ok h
          obtain ⟨hpre, htree⟩ := visit_eq_ok now hv
          dsimp only at h htree
          rw [htree] at h
          dsimp only
          by_cases hexit : earlyExit = true ∧ (t.tree.nodes block).workers.card = 1
          · rw [if_pos hexit] at h
            rw [if_pos hexit]
            cases h
            exact ⟨rfl, hpre, htree⟩
          · -- the rest of the walk runs in the tree the visit left, which has the same blocks
            rw [if_neg hexit] at h
            rw [if_neg hexit]
            obtain ⟨hscores, hpre', htree'⟩ := findMatchesFrom_scores checks earlyExit t' block
              sequence _ fs r h
            rw [htree] at hscores
            exact ⟨hscores, hpre.trans hpre', htree'.trans htree⟩

/-- A release build walks without panicking. -/
theorem findMatchesFrom_disabled (earlyExit : Bool) :
    ∀ (t : FrequencyTree) (current : Nat) (sequence : List LocalBlockHash) (scores : OverlapScores)
      (frequencies : List Nat),
      ∃ r, findMatchesFrom .disabled now earlyExit t current sequence scores frequencies = .ok r
  | t, current, [], scores, frequencies => ⟨_, rfl⟩
  | t, current, blockHash :: sequence, scores, frequencies => by
      unfold findMatchesFrom
      cases (t.tree.nodes current).children.lookup blockHash with
      | none => exact ⟨_, rfl⟩
      | some block =>
          obtain ⟨⟨fs, t'⟩, hv⟩ := visit_disabled now t block frequencies
          dsimp only
          rw [hv, Except.ok_bind]
          dsimp only
          split
          · exact ⟨_, rfl⟩
          · exact findMatchesFrom_disabled earlyExit t' block sequence _ fs

/-- From a non-increasing start, a debug build's walk returns exactly when
    the release build's does with non-increasing frequencies. -/
theorem findMatchesFrom_enabled_eq_ok (earlyExit : Bool) :
    ∀ (t : FrequencyTree) (current : Nat) (sequence : List LocalBlockHash) (scores : OverlapScores)
      {frequencies : List Nat}, frequencies.SortedGE → ∀ r : OverlapScores × List Nat × FrequencyTree,
      findMatchesFrom .enabled now earlyExit t current sequence scores frequencies = .ok r ↔
        findMatchesFrom .disabled now earlyExit t current sequence scores frequencies = .ok r ∧
          r.2.1.SortedGE
  | t, current, [], scores, frequencies, hf, r => by
      constructor
      · intro h
        cases h
        exact ⟨rfl, hf⟩
      · exact fun h => h.1
  | t, current, blockHash :: sequence, scores, frequencies, hf, r => by
      unfold findMatchesFrom
      cases (t.tree.nodes current).children.lookup blockHash with
      | none =>
          constructor
          · intro h
            cases h
            exact ⟨rfl, hf⟩
          · exact fun h => h.1
      | some block =>
          dsimp only
          refine Except.bind_eq_ok_iff_checked (P := fun v : List Nat × FrequencyTree => v.1.SortedGE)
            (Q := fun r : OverlapScores × List Nat × FrequencyTree => r.2.1.SortedGE)
            (visit_enabled_eq_ok now t block hf) ?_ ?_ r
          · rintro ⟨fs, t'⟩ hfs b
            dsimp only
            split
            · constructor
              · intro h
                cases h
                exact ⟨rfl, hfs⟩
              · exact fun h => h.1
            · exact findMatchesFrom_enabled_eq_ok earlyExit t' block sequence _ hfs b
          · -- a walk only appends, so frequencies that end non-increasing were so midway
            rintro ⟨fs, t'⟩ b h hb
            dsimp only at h ⊢
            split at h
            · cases h
              exact hb
            · have hpre := (findMatchesFrom_scores now .disabled earlyExit t' block sequence _ fs b h).2.1
              exact List.sortedGE_iff_pairwise.mpr
                ((List.sortedGE_iff_pairwise.mp hb).sublist hpre.sublist)

end Walk

end FrequencyTree

/-- A call on a tree with frequencies. -/
inductive FrequencyCall where
  | applyEvent (event : RouterEvent)
  | removeWorker (worker : WorkerId)
  | findMatches (now : Instant) (sequence : List LocalBlockHash) (earlyExit : Bool)

namespace FrequencyTree

/-- One call: the tree after it, and the frequencies it returned if it was a
    `find_matches`. -/
def step (checks : OverflowChecks) (t : FrequencyTree) :
    FrequencyCall → Except Abort (FrequencyTree × Option (List Nat))
  | .applyEvent event => (t.applyEvent event).map fun t => (t, none)
  | .removeWorker worker => .ok (t.removeWorker worker, none)
  | .findMatches now sequence earlyExit =>
      (t.findMatches checks now sequence earlyExit).map fun r => (r.2.2, some r.2.1)

/-- Running calls in order: the frequencies every `find_matches` returned. -/
def run (checks : OverflowChecks) : FrequencyTree → List FrequencyCall → Except Abort (List (List Nat))
  | _, [] => .ok []
  | t, c :: calls => do
      let (t, result) ← t.step checks c
      let results ← run checks t calls
      pure (result.toList ++ results)

/-- A debug build's call returns exactly when the release build's does with
    non-increasing frequencies. -/
theorem step_enabled_eq_ok (t : FrequencyTree) (c : FrequencyCall)
    (r : FrequencyTree × Option (List Nat)) :
    t.step .enabled c = .ok r ↔ t.step .disabled c = .ok r ∧ ∀ fs ∈ r.2, fs.SortedGE := by
  cases c with
  | applyEvent event =>
      -- the events do not depend on the build, and return no frequencies
      dsimp only [step]
      constructor
      · intro h
        refine ⟨h, ?_⟩
        rw [Except.map_eq_bind] at h
        obtain ⟨_, _, h⟩ := Except.bind_eq_ok h
        cases h
        simp only [Option.mem_def, reduceCtorEq, false_imp_iff, imp_true_iff]
      · exact fun h => h.1
  | removeWorker worker =>
      dsimp only [step]
      constructor
      · intro h
        cases h
        simp only [Option.mem_def, reduceCtorEq, false_imp_iff, imp_true_iff, and_self]
      · exact fun h => h.1
  | findMatches now sequence earlyExit =>
      dsimp only [step, findMatches]
      rw [Except.map_eq_bind, Except.map_eq_bind]
      refine Except.bind_eq_ok_iff_checked
        (P := fun v : OverlapScores × List Nat × FrequencyTree => v.2.1.SortedGE)
        (Q := fun r : FrequencyTree × Option (List Nat) => ∀ fs ∈ r.2, fs.SortedGE)
        (findMatchesFrom_enabled_eq_ok now earlyExit t _ sequence _ List.Pairwise.nil.sortedGE)
        (fun v hv b => ⟨fun h => ⟨h, ?_⟩, fun h => h.1⟩) (fun v b h hb => ?_) r
      · cases h
        simpa only [Option.mem_def, Option.some.injEq, forall_eq'] using hv
      · cases h
        simpa only [Option.mem_def, Option.some.injEq, forall_eq'] using hb

/-- A debug build's run returns exactly when the release build's does and
    every list of frequencies it returns is non-increasing: the assertion of
    \`add_frequency\` fires in a run exactly when the property fails. -/
theorem run_enabled_eq_ok : ∀ (t : FrequencyTree) (calls : List FrequencyCall) (rs : List (List Nat)),
    t.run .enabled calls = .ok rs ↔ t.run .disabled calls = .ok rs ∧ ∀ fs ∈ rs, fs.SortedGE
  | t, [], rs => by
      constructor
      · intro h
        cases h
        exact ⟨rfl, fun fs hfs => absurd hfs List.not_mem_nil⟩
      · exact fun h => h.1
  | t, c :: calls, rs => by
      unfold run
      refine Except.bind_eq_ok_iff_checked
        (P := fun r : FrequencyTree × Option (List Nat) => ∀ fs ∈ r.2, fs.SortedGE)
        (Q := fun rs : List (List Nat) => ∀ fs ∈ rs, fs.SortedGE)
        (step_enabled_eq_ok t c) ?_ ?_ rs
      · rintro ⟨t', result⟩ hresult b
        refine Except.bind_eq_ok_iff_checked
          (P := fun results : List (List Nat) => ∀ fs ∈ results, fs.SortedGE)
          (Q := fun rs : List (List Nat) => ∀ fs ∈ rs, fs.SortedGE) (run_enabled_eq_ok t' calls) (fun results hresults b' => ?_) (fun results b' h hb => ?_) b
        · constructor
          · intro h
            cases h
            refine ⟨rfl, fun fs hfs => ?_⟩
            rcases List.mem_append.mp hfs with hfs | hfs
            · exact hresult fs (Option.mem_toList.mp hfs)
            · exact hresults fs hfs
          · exact fun h => h.1
        · cases h
          exact fun fs hfs => hb fs (List.mem_append_right _ hfs)
      · -- what the call returned heads what the run returns
        rintro ⟨t', result⟩ b h hb fs hfs
        obtain ⟨results, _, h⟩ := Except.bind_eq_ok h
        cases h
        exact hb fs (List.mem_append_left _ (Option.mem_toList.mpr hfs))

end FrequencyTree

/-! ### The assumptions on the events -/

/-- A call stores each block under the pair `π` gives it. -/
def FrequencyCall.StoresWith (π : StoredPairs) : FrequencyCall → Prop
  | .applyEvent event => event.event.data.StoresWith π event.workerId
  | _ => True

instance (π : StoredPairs) : DecidablePred (FrequencyCall.StoresWith π)
  | .applyEvent event => inferInstanceAs (Decidable (event.event.data.StoresWith π event.workerId))
  | .removeWorker _ => inferInstanceAs (Decidable True)
  | .findMatches _ _ _ => inferInstanceAs (Decidable True)

/-- The assumptions on a call in a tree whose clock reads `clock`: a worker
    stores only under a parent it holds and removes only blocks it holds, and
    `find_matches` does not go back in time. -/
def FrequencyCall.allowed (t : RadixTree) (clock : Instant) : FrequencyCall → Bool
  | .applyEvent event =>
      match event.event.data with
      | .stored op => op.parentHash.all fun p => ((t.lookupOf event.workerId).lookup p).isSome
      | .removed op => op.blockHashes.all fun h => ((t.lookupOf event.workerId).lookup h).isSome
  | .removeWorker _ => true
  | .findMatches now _ _ => decide (clock ≤ now)

/-- The clock after a call: the instant of the last `find_matches`. -/
def FrequencyCall.clockAfter (clock : Instant) : FrequencyCall → Instant
  | .findMatches now _ _ => now
  | _ => clock

/-- Every call of a run meets the assumptions in the tree it meets. -/
def FrequencyTree.allowedRun (checks : OverflowChecks) :
    FrequencyTree → Instant → List FrequencyCall → Bool
  | _, _, [] => true
  | t, clock, c :: calls =>
      c.allowed t.tree clock &&
        match t.step checks c with
        | .ok (t', _) => FrequencyTree.allowedRun checks t' (c.clockAfter clock) calls
        | .error _ => true

/-! ### The sharded indexer -/

/-- One more shard's frequencies added in by `KvIndexerSharded::find_matches`:
    the list grows with zeros to the shard's length, and the shard's entries
    are added to it. -/
def addShardFrequencies (frequencies response : List Nat) : List Nat :=
  let frequencies := frequencies ++ List.replicate (response.length - frequencies.length) 0
  frequencies.mapIdx fun i f => f + response.getD i 0

/-- The frequencies `KvIndexerSharded::find_matches` returns: the first
    shard's, with every other shard's added in. -/
def shardedFrequencies : List (List Nat) → List Nat
  | [] => []
  | first :: rest => rest.foldl addShardFrequencies first

/-- Read with zeros past the ends, one more shard adds its entries. -/
theorem getD_addShardFrequencies (frequencies response : List Nat) (i : Nat) :
    (addShardFrequencies frequencies response).getD i 0 = frequencies.getD i 0 + response.getD i 0 := by
  unfold addShardFrequencies
  simp only [List.getD_eq_getElem?_getD, List.getElem?_mapIdx, List.getElem?_append,
    List.getElem?_replicate]
  by_cases hf : i < frequencies.length
  · rw [if_pos hf, List.getElem?_eq_getElem hf]
    rfl
  · rw [if_neg hf, List.getElem?_eq_none (Nat.le_of_not_lt hf)]
    by_cases hr : i - frequencies.length < response.length - frequencies.length
    · rw [if_pos hr]
      rfl
    · rw [if_neg hr, List.getElem?_eq_none (by omega)]
      rfl

theorem sortedGE_addShardFrequencies {frequencies response : List Nat} (hf : frequencies.SortedGE)
    (hr : response.SortedGE) : (addShardFrequencies frequencies response).SortedGE := by
  rw [List.sortedGE_iff_antitone_getD] at hf hr ⊢
  simp only [getD_addShardFrequencies]
  exact hf.add hr

/-- The sharded indexer's frequencies are non-increasing when every shard's
    are. -/
theorem shardedFrequencies_sortedGE {responses : List (List Nat)}
    (h : ∀ fs ∈ responses, fs.SortedGE) : (shardedFrequencies responses).SortedGE := by
  cases responses with
  | nil => exact List.Pairwise.nil.sortedGE
  | cons first rest =>
      unfold shardedFrequencies
      -- the running sum stays non-increasing as each shard is added
      have hfold : ∀ (rest : List (List Nat)) (acc : List Nat), acc.SortedGE →
          (∀ fs ∈ rest, fs.SortedGE) → (rest.foldl addShardFrequencies acc).SortedGE := by
        intro rest
        induction rest with
        | nil => exact fun acc hacc _ => hacc
        | cons response rest ih =>
            intro acc hacc hrest
            exact ih _ (sortedGE_addShardFrequencies hacc (hrest response List.mem_cons_self))
              fun fs hfs => hrest fs (List.mem_cons_of_mem _ hfs)
      exact hfold rest first (h first List.mem_cons_self)
        fun fs hfs => h fs (List.mem_cons_of_mem _ hfs)

/-! ### A run whose frequencies go up -/

/-- One worker stores a chain of three blocks, is matched once, removes the
    first two, stores the chain again and is matched twice more. The second
    store finds the first block at the root, makes a new block for the
    second, and hangs the old third block, found in the worker's table, under
    it; the third block then has more recent uses than its new parent. -/
theorem frequencyTree_frequencies_increase :
    let π : StoredPairs := fun _ h =>
      if h = ⟨1⟩ then (none, ⟨10⟩) else if h = ⟨2⟩ then (some ⟨1⟩, ⟨11⟩) else (some ⟨2⟩, ⟨12⟩)
    let store : KvCacheEventData := .stored ⟨none, [⟨⟨1⟩, ⟨10⟩⟩, ⟨⟨2⟩, ⟨11⟩⟩, ⟨⟨3⟩, ⟨12⟩⟩]⟩
    let sequence : List LocalBlockHash := [⟨10⟩, ⟨11⟩, ⟨12⟩]
    let calls : List FrequencyCall :=
      [.applyEvent ⟨0, ⟨0, store⟩⟩, .findMatches 0 sequence false,
        .applyEvent ⟨0, ⟨1, .removed ⟨[⟨1⟩, ⟨2⟩]⟩⟩⟩, .applyEvent ⟨0, ⟨2, store⟩⟩,
        .findMatches 1 sequence false, .findMatches 2 sequence false]
    let t : FrequencyTree := FrequencyTree.newWithFrequency (some 10)
    (∀ c ∈ calls, c.StoresWith π) ∧ t.allowedRun .disabled 0 calls = true ∧
      t.run .disabled calls = .ok [[], [1, 1], [2, 1, 2]] ∧
      t.run .enabled calls = .error (.panic "assertion failed: **elem >= frequency") := by
  refine ⟨by decide, by decide, rfl, rfl⟩

end KvRouter

end Dynamo
