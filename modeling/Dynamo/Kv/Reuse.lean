import Mathlib.Data.Prod.Lex
import Dynamo.Lib.Collections
import Dynamo.Lib.SortedMap
import Dynamo.Tokens.Block

/-!
# The Available-Blocks Pool

The model of `kv.rs` and `kv/reuse.rs`: `AvailableBlocksState`, the state of
the task behind `AvailableBlocks`, which keeps the KV blocks no request is
using. A block that still holds a sequence is kept for reuse in `lookup_map`,
under its sequence hash, and a `PriorityKey` for it sits in `priority_set`, a
`BTreeMap` that orders the blocks for eviction: lowest priority first, and
among equal priorities the block returned longest ago. A block that holds
nothing, or whose hash the map already holds, goes to `uninitialized_set`,
and is handed out before any other. The crate's `lib.rs` does not declare
`kv`, so these files are not built into the crate; the model follows them
as they are written.

`PriorityKey`'s `Ord` compares the priority and then the return tick, and
never the hash, so the `BTreeMap` holds one entry per priority and tick, and
`insert` asserts that the key it adds is new. Every block that enters the
pool through `handle_insert` or `handle_return` is stamped with the next
tick; `update_block` changes a priority and keeps the tick, and `reset`
zeroes the hash, which sends the block to the uninitialized set. The ticks of
the map's blocks are therefore distinct and no larger than the counter. That
is part of `Wf`, the representation invariant: the priority set holds
exactly one entry for each block of the map, in ascending order, and every
block sits under its own, non-zero, hash. Each handler keeps it, and with it
the two asserts of `insert` never fire and neither does the panic of `take`
and `handle_reset_all`, which look up the block of a priority entry.

What a request hands out is then determined. `takeOrder` is the order of
`take`: the uninitialized blocks first in arrival order, then the blocks of
the map as the priority set lists them, which is the map's blocks sorted by
priority and return tick (`takeOrder_eq`); `handle_take` hands out a prefix
of it. `match_hashes` hands out the blocks of the longest run of requested
hashes the pool holds, each hash once.

`HashMap` is an `AList`, `VecDeque` a list and the `BTreeMap` its entries in
ascending order (`SortedMap`). A `PoolValue` is the block it holds: whether
it is boxed changes nothing here. The two counters are the `AtomicU64`s
`AvailableBlocks` reads, as natural numbers.

## Main definitions

* `KvBlock`: A block with its priority and return tick.
* `PriorityKey`: The eviction key, ordered by priority and return tick.
* `MatchRequest`, `ControlRequest`: The requests of the pool's task.
* `AvailableBlocksState`: The pool, with every handler of the source.
* `AvailableBlocksState.Wf`: The representation invariant.
* `AvailableBlocksState.takeOrder`: The order `take` hands blocks out in.

## Theorems

* `AvailableBlocksState.Wf.insert_eq_ok`: Inserting a block with a fresh
  tick succeeds and keeps the invariant.
* `AvailableBlocksState.Wf.take_eq_ok`: `take` never panics and hands out
  the head of the take order.
* `AvailableBlocksState.Wf.takeOrder_eq`: The take order sorts the map's
  blocks by priority and return tick.
* `AvailableBlocksState.Wf.matchHashesLoop_eq`: What `match_hashes` takes.
* `AvailableBlocksState.Inv.handleMatchRequest_eq_ok`,
  `AvailableBlocksState.Inv.handleControlRequest_eq_ok`,
  `AvailableBlocksState.Inv.handleReturn_eq_ok`: No handler panics, and
  each keeps the invariant and the count.
-/

namespace Dynamo

namespace Kv

open Tokens

/-- `KvBlock`: a block's tokens, its priority (`u32`) and the tick of its
    last return (`u64`). -/
structure KvBlock where
  tokenBlock : TokenBlock
  priority : Nat
  returnTick : Nat
  deriving DecidableEq, Repr

namespace KvBlock

/-- `KvBlock::new`. -/
def new (tokenBlock : TokenBlock) : KvBlock :=
  { tokenBlock := tokenBlock, priority := 0, returnTick := 0 }

/-- `update_token_block`. -/
def updateTokenBlock (block : KvBlock) (tokenBlock : TokenBlock) : KvBlock :=
  { block with tokenBlock := tokenBlock }

/-- `reset`: the default token block, priority and tick. -/
def reset (block : KvBlock) : KvBlock :=
  { block with tokenBlock := TokenBlock.default, priority := 0, returnTick := 0 }

/-- The hash the pool files a block under, `token_block.sequence_hash()`. -/
def sequenceHash (block : KvBlock) : SequenceHash :=
  block.tokenBlock.sequenceHash

@[simp]
theorem sequenceHash_reset (block : KvBlock) : block.reset.sequenceHash = 0 := rfl

end KvBlock

/-- `PriorityKey`. -/
structure PriorityKey where
  priority : Nat
  returnTick : Nat
  sequenceHash : SequenceHash
  deriving DecidableEq, Repr

/-- What the `Ord` of `PriorityKey` compares: the priority, then the return
    tick. The hash is not compared. -/
def PriorityKey.cmpKey (key : PriorityKey) : ℕ ×ₗ ℕ :=
  toLex (key.priority, key.returnTick)

/-- `From<&KvBlock> for PriorityKey`. -/
def PriorityKey.ofBlock (block : KvBlock) : PriorityKey :=
  { priority := block.priority, returnTick := block.returnTick, sequenceHash := block.sequenceHash }

/-- `UpdateBlock`: a new priority, if any, for the block of a hash. -/
structure UpdateBlock where
  hash : SequenceHash
  priority : Option Nat
  deriving DecidableEq, Repr

/-- `MatchRequest`, without its reply channel and return handle. -/
inductive MatchRequest where
  | matchSingle (hash : SequenceHash)
  | matchMultiple (hashes : List SequenceHash)
  | take (count : Nat)
  deriving DecidableEq, Repr

/-- `ControlRequest`, without its reply channel. -/
inductive ControlRequest where
  | insert (block : KvBlock)
  | updateSingle (update : UpdateBlock)
  | updateMultiple (updates : List UpdateBlock)
  | reset (sequenceHashes : List SequenceHash)
  | resetAll
  deriving DecidableEq, Repr

/-- `AvailableBlocksState`, with the two counters it shares with
    `AvailableBlocks`. -/
structure AvailableBlocksState where
  lookupMap : AList (fun _ : SequenceHash => KvBlock)
  prioritySet : List (PriorityKey × SequenceHash)
  uninitializedSet : List KvBlock
  returnTick : Nat
  totalBlocks : Nat
  availableBlocks : Nat

namespace AvailableBlocksState

/-- `AvailableBlocksState::new`. -/
def new : AvailableBlocksState :=
  { lookupMap := ∅, prioritySet := [], uninitializedSet := [], returnTick := 0, totalBlocks := 0,
    availableBlocks := 0 }

/-- The blocks the pool holds: those of the map, then the uninitialized
    ones. -/
def blocks (s : AvailableBlocksState) : List KvBlock :=
  s.lookupMap.values ++ s.uninitializedSet

/-- The message of the first assertion of `insert`. -/
def timestampSetAssertion : String :=
  "fatal error: multiple entries for the same sequence hash in timestamp set"

/-- The message of the second assertion of `insert`. -/
def lookupMapAssertion : String :=
  "fatal error: multiple entries for the same sequence hash in lookup map"

/-- The panic of `take` and `handle_reset_all` when a priority entry has no
    block in the map. -/
def notFoundPanic : Abort :=
  .panic "block from priority set not found in lookup map"

/-- `insert`: a block whose hash is zero or already held goes to the
    uninitialized set; any other is entered in the priority set and the map,
    each insert asserting that nothing was there. -/
def insert (s : AvailableBlocksState) (block : KvBlock) : Except Abort AvailableBlocksState :=
  let sequenceHash := block.sequenceHash
  if sequenceHash ∈ s.lookupMap ∨ sequenceHash = 0 then
    .ok { s with uninitializedSet := s.uninitializedSet ++ [block] }
  else
    let priorityInsert :=
      SortedMap.insert PriorityKey.cmpKey (PriorityKey.ofBlock block) sequenceHash s.prioritySet
    do
      Abort.assertTrue priorityInsert.2.isNone timestampSetAssertion
      Abort.assertTrue (s.lookupMap.lookup sequenceHash).isNone lookupMapAssertion
      pure { s with prioritySet := priorityInsert.1, lookupMap := s.lookupMap.insert sequenceHash block }

/-- `take_with_sequence_hash`: the block of the hash leaves the map, and its
    key, computed again from the block, leaves the priority set. -/
def takeWithSequenceHash (s : AvailableBlocksState) (sequenceHash : SequenceHash) :
    Option KvBlock × AvailableBlocksState :=
  match s.lookupMap.lookup sequenceHash with
  | some block =>
    let prioritySet := (SortedMap.remove PriorityKey.cmpKey (PriorityKey.ofBlock block) s.prioritySet).1
    (some block, { s with lookupMap := s.lookupMap.erase sequenceHash, prioritySet := prioritySet })
  | none => (none, s)

/-- The loop of `match_hashes`: the block of each hash in turn, up to the
    first hash without one. -/
def matchHashesLoop (s : AvailableBlocksState) : List SequenceHash → List KvBlock × AvailableBlocksState
  | [] => ([], s)
  | hash :: hashes =>
    match s.takeWithSequenceHash hash with
    | (some block, s) =>
      let r := s.matchHashesLoop hashes
      (block :: r.1, r.2)
    | (none, s) => ([], s)

/-- `match_hashes`: the loop, then the matched blocks counted out of
    `available_blocks`. -/
def matchHashes (s : AvailableBlocksState) (hashes : List SequenceHash) :
    List KvBlock × AvailableBlocksState :=
  let r := s.matchHashesLoop hashes
  (r.1, { r.2 with availableBlocks := r.2.availableBlocks - r.1.length })

/-- `take`: the first uninitialized block, otherwise the block of the first
    priority entry, which the map must hold. -/
def take (s : AvailableBlocksState) : Except Abort (Option KvBlock × AvailableBlocksState) :=
  match s.uninitializedSet with
  | block :: rest => .ok (some block, { s with uninitializedSet := rest })
  | [] =>
    match s.prioritySet with
    | [] => .ok (none, s)
    | (_, sequenceHash) :: rest =>
      match s.lookupMap.lookup sequenceHash with
      | some block =>
        .ok (some block, { s with prioritySet := rest, lookupMap := s.lookupMap.erase sequenceHash })
      | none => .error notFoundPanic

/-- The loop of `handle_take`: up to `count` blocks, stopping when `take`
    finds none. -/
def takeLoop : Nat → AvailableBlocksState → Except Abort (List KvBlock × AvailableBlocksState)
  | 0, s => .ok ([], s)
  | count + 1, s => do
    match ← s.take with
    | (some block, s) =>
      let r ← takeLoop count s
      pure (block :: r.1, r.2)
    | (none, s) => pure ([], s)

/-- `handle_take`: the loop, then the blocks taken counted out of
    `available_blocks`. -/
def handleTake (s : AvailableBlocksState) (count : Nat) :
    Except Abort (List KvBlock × AvailableBlocksState) := do
  let r ← s.takeLoop count
  pure (r.1, { r.2 with availableBlocks := r.2.availableBlocks - r.1.length })

/-- `handle_insert`: a new block is counted, stamped with the next tick and
    inserted. -/
def handleInsert (s : AvailableBlocksState) (block : KvBlock) : Except Abort AvailableBlocksState :=
  let s := { s with availableBlocks := s.availableBlocks + 1, totalBlocks := s.totalBlocks + 1 }
  let s := { s with returnTick := s.returnTick + 1 }
  s.insert { block with returnTick := s.returnTick }

/-- `handle_return`: a returned block is counted back, stamped with the next
    tick and inserted. -/
def handleReturn (s : AvailableBlocksState) (block : KvBlock) : Except Abort AvailableBlocksState :=
  let s := { s with availableBlocks := s.availableBlocks + 1, returnTick := s.returnTick + 1 }
  s.insert { block with returnTick := s.returnTick }

/-- One pass of `update_block`: a held block is taken out, given its new
    priority, if any, and inserted again. -/
def updateOne (s : AvailableBlocksState) (update : UpdateBlock) : Except Abort AvailableBlocksState :=
  match s.takeWithSequenceHash update.hash with
  | (some block, s) => s.insert { block with priority := update.priority.getD block.priority }
  | (none, s) => .ok s

/-- `update_block`. -/
def updateBlock (s : AvailableBlocksState) (updates : List UpdateBlock) :
    Except Abort AvailableBlocksState :=
  updates.foldlM updateOne s

/-- One pass of `handle_reset`: a held block is taken out, reset and inserted
    again. -/
def resetOne (s : AvailableBlocksState) (sequenceHash : SequenceHash) :
    Except Abort AvailableBlocksState :=
  match s.takeWithSequenceHash sequenceHash with
  | (some block, s) => s.insert block.reset
  | (none, s) => .ok s

/-- `handle_reset`. -/
def handleReset (s : AvailableBlocksState) (sequenceHashes : List SequenceHash) :
    Except Abort AvailableBlocksState :=
  sequenceHashes.foldlM resetOne s

/-- The loop of `handle_reset_all`: while the priority set has a first
    entry, it is popped and its block taken out of the map, reset and
    inserted again. `fuel` bounds the passes. -/
def resetAllLoop : Nat → AvailableBlocksState → Except Abort AvailableBlocksState
  | 0, _ => .error .diverge
  | fuel + 1, s =>
    match s.prioritySet with
    | [] => .ok s
    | (_, sequenceHash) :: rest =>
      match s.lookupMap.lookup sequenceHash with
      | some block => do
        let popped : AvailableBlocksState :=
          { s with prioritySet := rest, lookupMap := s.lookupMap.erase sequenceHash }
        let s ← popped.insert block.reset
        resetAllLoop fuel s
      | none => .error notFoundPanic

/-- `handle_reset_all`; each pass but the last takes an entry out of the
    priority set. -/
def handleResetAll (s : AvailableBlocksState) : Except Abort AvailableBlocksState :=
  resetAllLoop (s.prioritySet.length + 1) s

/-- `handle_match_request`, with the blocks it sends back. -/
def handleMatchRequest (s : AvailableBlocksState) :
    MatchRequest → Except Abort (List KvBlock × AvailableBlocksState)
  | .matchSingle hash =>
    let r := s.matchHashes [hash]
    .ok (r.1.head?.toList, r.2)
  | .matchMultiple hashes => .ok (s.matchHashes hashes)
  | .take count => s.handleTake count

/-- `handle_control_request`. -/
def handleControlRequest (s : AvailableBlocksState) : ControlRequest → Except Abort AvailableBlocksState
  | .insert block => s.handleInsert block
  | .updateSingle update => s.updateBlock [update]
  | .updateMultiple updates => s.updateBlock updates
  | .reset sequenceHashes => s.handleReset sequenceHashes
  | .resetAll => s.handleResetAll

section Invariant

/-- The entry the priority set holds for a block of the map. -/
def keyEntry (block : KvBlock) : PriorityKey × SequenceHash :=
  (PriorityKey.ofBlock block, block.sequenceHash)

/-- The representation invariant: the priority set lists one entry for each
    block of the map, in ascending order; every block of the map is filed
    under its own hash, which is not zero; and the ticks of the map's blocks
    are distinct and no later than the counter. -/
structure Wf (s : AvailableBlocksState) : Prop where
  sorted : SortedMap.Sorted PriorityKey.cmpKey s.prioritySet
  prioritySet_perm : s.prioritySet.Perm (s.lookupMap.values.map keyEntry)
  lookup_eq : ∀ h b, s.lookupMap.lookup h = some b → b.sequenceHash = h ∧ h ≠ 0
  ticks_nodup : (s.lookupMap.values.map KvBlock.returnTick).Nodup
  ticks_le : ∀ b ∈ s.lookupMap.values, b.returnTick ≤ s.returnTick

/-- `s'` holds other blocks than `s`, with the same tick and counters. -/
structure SameCounters (s' s : AvailableBlocksState) : Prop where
  returnTick : s'.returnTick = s.returnTick
  totalBlocks : s'.totalBlocks = s.totalBlocks
  availableBlocks : s'.availableBlocks = s.availableBlocks

theorem SameCounters.refl (s : AvailableBlocksState) : s.SameCounters s :=
  ⟨rfl, rfl, rfl⟩

theorem SameCounters.trans {s'' s' s : AvailableBlocksState} (h₁ : s''.SameCounters s')
    (h₂ : s'.SameCounters s) : s''.SameCounters s :=
  ⟨h₁.returnTick.trans h₂.returnTick, h₁.totalBlocks.trans h₂.totalBlocks,
    h₁.availableBlocks.trans h₂.availableBlocks⟩

/-- The uninitialized set is no counter. -/
theorem SameCounters.setUninitialized {s' s : AvailableBlocksState} (h : s'.SameCounters s)
    (l : List KvBlock) : ({ s' with uninitializedSet := l } : AvailableBlocksState).SameCounters s :=
  ⟨h.returnTick, h.totalBlocks, h.availableBlocks⟩

theorem wf_new : new.Wf where
  sorted := List.Pairwise.nil
  prioritySet_perm := List.Perm.nil
  lookup_eq h b hb := absurd hb (by simp only [new, AList.lookup_empty, reduceCtorEq,
    not_false_eq_true])
  ticks_nodup := List.nodup_nil
  ticks_le b hb := absurd hb (by simp only [new, AList.values_empty, List.not_mem_nil,
    not_false_eq_true])

variable {s : AvailableBlocksState}

/-- A block of the map is found under its own hash. -/
theorem Wf.lookup_of_mem (hs : s.Wf) {b : KvBlock} (hb : b ∈ s.lookupMap.values) :
    s.lookupMap.lookup b.sequenceHash = some b := by
  obtain ⟨h, hl⟩ := AList.mem_values.mp hb
  rw [(hs.lookup_eq h b hl).1]
  exact hl

/-- Two blocks of the map with one tick are one block. -/
theorem Wf.eq_of_returnTick_eq (hs : s.Wf) {a b : KvBlock} (ha : a ∈ s.lookupMap.values)
    (hb : b ∈ s.lookupMap.values) (h : a.returnTick = b.returnTick) : a = b :=
  List.inj_on_of_nodup_map hs.ticks_nodup ha hb h

/-- Every entry of the priority set is the entry of a block of the map, filed
    under the entry's hash. -/
theorem Wf.lookup_of_mem_prioritySet (hs : s.Wf) {e : PriorityKey × SequenceHash}
    (he : e ∈ s.prioritySet) : ∃ b, s.lookupMap.lookup e.2 = some b ∧ e = keyEntry b := by
  obtain ⟨b, hb, rfl⟩ := List.mem_map.mp (hs.prioritySet_perm.subset he)
  exact ⟨b, hs.lookup_of_mem hb, rfl⟩

/-- The uninitialized set is no part of the invariant. -/
theorem Wf.setUninitialized (hs : s.Wf) (l : List KvBlock) :
    ({ s with uninitializedSet := l } : AvailableBlocksState).Wf :=
  ⟨hs.sorted, hs.prioritySet_perm, hs.lookup_eq, hs.ticks_nodup, hs.ticks_le⟩

end Invariant

section Insert

variable {s : AvailableBlocksState} {block : KvBlock}

/-- A block whose hash is held or zero goes to the uninitialized set. -/
theorem insert_of_held (h : block.sequenceHash ∈ s.lookupMap ∨ block.sequenceHash = 0) :
    s.insert block = .ok { s with uninitializedSet := s.uninitializedSet ++ [block] } := by
  rw [AvailableBlocksState.insert, if_pos h]

/-- No entry of the priority set compares equal to the key of a block whose
    tick no block of the map has. -/
theorem Wf.cmpKey_ne (hs : s.Wf)
    (hfresh : ∀ b ∈ s.lookupMap.values, b.returnTick ≠ block.returnTick) :
    ∀ e ∈ s.prioritySet, PriorityKey.cmpKey e.1 ≠ PriorityKey.cmpKey (PriorityKey.ofBlock block) := by
  intro e he hkey
  obtain ⟨b, hb, rfl⟩ := List.mem_map.mp (hs.prioritySet_perm.subset he)
  -- keys compare equal only when the ticks do
  have htick : b.returnTick = block.returnTick := by
    simp only [keyEntry, PriorityKey.cmpKey, PriorityKey.ofBlock, toLex_inj, Prod.mk.injEq] at hkey
    exact hkey.2
  exact hfresh b hb htick

/-- A block with a fresh tick and a new, non-zero hash is filed in the
    priority set and in the map, and neither assertion fires. -/
theorem Wf.insert_of_fresh (hs : s.Wf) (hnotin : block.sequenceHash ∉ s.lookupMap)
    (hne : block.sequenceHash ≠ 0)
    (hfresh : ∀ b ∈ s.lookupMap.values, b.returnTick ≠ block.returnTick) :
    s.insert block = .ok { s with
      prioritySet := (SortedMap.insert PriorityKey.cmpKey (PriorityKey.ofBlock block)
        block.sequenceHash s.prioritySet).1,
      lookupMap := s.lookupMap.insert block.sequenceHash block } := by
  have hnone := (SortedMap.insert_of_forall_ne (v := block.sequenceHash) (hs.cmpKey_ne hfresh)).1
  have hlookup : s.lookupMap.lookup block.sequenceHash = none := AList.lookup_eq_none.mpr hnotin
  rw [AvailableBlocksState.insert, if_neg (not_or.mpr ⟨hnotin, hne⟩)]
  simp only [hnone, hlookup, Option.isNone_none, Abort.assertTrue_true]
  rfl

/-- Inserting a block whose tick no block of the map has, and no later than
    the counter, succeeds, keeps the invariant and holds one block more. -/
theorem Wf.insert_eq_ok (hs : s.Wf)
    (hfresh : ∀ b ∈ s.lookupMap.values, b.returnTick ≠ block.returnTick)
    (hle : block.returnTick ≤ s.returnTick) :
    ∃ s', s.insert block = .ok s' ∧ s'.Wf ∧ s'.blocks.length = s.blocks.length + 1 ∧
      s'.SameCounters s := by
  by_cases hheld : block.sequenceHash ∈ s.lookupMap ∨ block.sequenceHash = 0
  · refine ⟨_, insert_of_held hheld, hs.setUninitialized _, ?_, ⟨rfl, rfl, rfl⟩⟩
    simp only [blocks, List.length_append, List.length_singleton]
    omega
  · obtain ⟨hnotin, hne⟩ := not_or.mp hheld
    have hvalues : (s.lookupMap.insert block.sequenceHash block).values = block :: s.lookupMap.values := by
      rw [AList.values_insert, AList.values_erase_of_not_mem hnotin]
    refine ⟨_, hs.insert_of_fresh hnotin hne hfresh, ⟨?_, ?_, ?_, ?_, ?_⟩, ?_, ⟨rfl, rfl, rfl⟩⟩
    · exact hs.sorted.insert _ _
    · -- the new entry is the entry of the new block
      rw [hvalues, List.map_cons]
      exact (SortedMap.insert_of_forall_ne (hs.cmpKey_ne hfresh)).2.trans (hs.prioritySet_perm.cons _)
    · intro h b hb
      rcases AList.lookup_insert_eq_some.mp hb with ⟨rfl, rfl⟩ | ⟨-, hb⟩
      · exact ⟨rfl, hne⟩
      · exact hs.lookup_eq h b hb
    · rw [hvalues, List.map_cons, List.nodup_cons]
      refine ⟨fun hmem => ?_, hs.ticks_nodup⟩
      obtain ⟨b, hb, htick⟩ := List.mem_map.mp hmem
      exact hfresh b hb htick
    · intro b hb
      rw [hvalues] at hb
      rcases List.mem_cons.mp hb with rfl | hb
      · exact hle
      · exact hs.ticks_le b hb
    · simp only [blocks, hvalues, List.length_cons, List.length_append]
      omega

end Insert

section Take

variable {s : AvailableBlocksState}

/-- Taking a block out of the map, with a priority set that lists the
    remaining blocks in order, keeps the invariant. -/
theorem Wf.erase (hs : s.Wf) (h : SequenceHash) {prioritySet : List (PriorityKey × SequenceHash)}
    (hsorted : SortedMap.Sorted PriorityKey.cmpKey prioritySet)
    (hperm : prioritySet.Perm ((s.lookupMap.erase h).values.map keyEntry)) :
    ({ s with lookupMap := s.lookupMap.erase h, prioritySet := prioritySet } : AvailableBlocksState).Wf := by
  have hsub : (s.lookupMap.erase h).values.Sublist s.lookupMap.values := by
    unfold AList.values
    exact (List.kerase_sublist h s.lookupMap.entries).map _
  refine ⟨hsorted, hperm, fun h' b hb => ?_, (hsub.map _).nodup hs.ticks_nodup,
    fun b hb => hs.ticks_le b (hsub.subset hb)⟩
  have hne : h' ≠ h := by
    rintro rfl
    rw [AList.lookup_erase] at hb
    exact absurd hb (by simp only [reduceCtorEq, not_false_eq_true])
  rw [AList.lookup_erase_ne hne] at hb
  exact hs.lookup_eq h' b hb

theorem takeWithSequenceHash_of_lookup_none {h : SequenceHash} (hl : s.lookupMap.lookup h = none) :
    s.takeWithSequenceHash h = (none, s) := by
  rw [takeWithSequenceHash, hl]

/-- Taking the block of a hash: the map loses it and the priority set its
    entry, and nothing else changes. -/
theorem Wf.takeWithSequenceHash_eq (hs : s.Wf) {h : SequenceHash} {b : KvBlock}
    (hl : s.lookupMap.lookup h = some b) :
    ∃ s', s.takeWithSequenceHash h = (some b, s') ∧ s'.Wf ∧
      s.lookupMap.values.Perm (b :: s'.lookupMap.values) ∧
      s'.uninitializedSet = s.uninitializedSet ∧ s'.SameCounters s := by
  have hvalues := AList.values_erase_perm hl
  have hremove := SortedMap.remove_of_perm (k := PriorityKey.ofBlock b) hs.sorted
    (hs.prioritySet_perm.trans (hvalues.map keyEntry)) rfl
  refine ⟨_, ?_, hs.erase h (hs.sorted.remove _) hremove.2, hvalues, rfl, ⟨rfl, rfl, rfl⟩⟩
  rw [takeWithSequenceHash, hl]

/-- The first entry of the priority set names a block of the map; popping it
    and taking its block out of the map keeps the invariant. -/
theorem Wf.pop (hs : s.Wf) {e : PriorityKey × SequenceHash} {rest : List (PriorityKey × SequenceHash)}
    (hp : s.prioritySet = e :: rest) :
    ∃ b, s.lookupMap.lookup e.2 = some b ∧ e = keyEntry b ∧
      ({ s with prioritySet := rest, lookupMap := s.lookupMap.erase e.2 } : AvailableBlocksState).Wf ∧
      s.lookupMap.values.Perm (b :: (s.lookupMap.erase e.2).values) := by
  have he : e ∈ s.prioritySet := by
    rw [hp]
    exact List.mem_cons_self
  obtain ⟨b, hl, rfl⟩ := hs.lookup_of_mem_prioritySet he
  have hvalues := AList.values_erase_perm hl
  have hsorted : SortedMap.Sorted PriorityKey.cmpKey rest := by
    have h := hs.sorted
    rw [hp] at h
    exact h.of_cons
  have hperm : rest.Perm ((s.lookupMap.erase (keyEntry b).2).values.map keyEntry) := by
    have h := hs.prioritySet_perm.trans (hvalues.map keyEntry)
    rw [hp, List.map_cons, List.perm_cons] at h
    exact h
  exact ⟨b, hl, rfl, hs.erase _ hsorted hperm, hvalues⟩

end Take

section Order

/-- The blocks of the priority entries, in the order of the set. -/
def priorityBlocks (s : AvailableBlocksState) : List KvBlock :=
  s.prioritySet.filterMap fun e => s.lookupMap.lookup e.2

/-- The order in which `take` hands out blocks: the uninitialized ones in
    arrival order, then those of the priority set in its order. -/
def takeOrder (s : AvailableBlocksState) : List KvBlock :=
  s.uninitializedSet ++ s.priorityBlocks

/-- Blocks sorted by their keys: priority, then return tick. -/
def sortByKey (blocks : List KvBlock) : List KvBlock :=
  blocks.mergeSort fun a b =>
    decide (PriorityKey.cmpKey (PriorityKey.ofBlock a) ≤ PriorityKey.cmpKey (PriorityKey.ofBlock b))

variable {s : AvailableBlocksState}

/-- The hashes of the map's blocks are its keys. -/
theorem Wf.map_sequenceHash (hs : s.Wf) :
    s.lookupMap.values.map KvBlock.sequenceHash = s.lookupMap.keys := by
  unfold AList.values AList.keys List.keys
  rw [List.map_map]
  refine List.map_congr_left fun x hx => ?_
  exact (hs.lookup_eq x.1 x.2 (AList.mem_lookup_iff.mpr hx)).1

/-- The entries of the priority set name distinct hashes. -/
theorem Wf.hashes_nodup (hs : s.Wf) : (s.prioritySet.map Prod.snd).Nodup := by
  have h := hs.prioritySet_perm.map Prod.snd
  rw [List.map_map] at h
  have hkeys : (s.lookupMap.values.map (Prod.snd ∘ keyEntry)).Nodup := by
    rw [show Prod.snd ∘ keyEntry = KvBlock.sequenceHash from rfl, hs.map_sequenceHash]
    exact s.lookupMap.nodupKeys
  exact h.nodup_iff.mpr hkeys

/-- Each entry of the priority set is the entry of the block it names. -/
theorem Wf.map_priorityBlocks (hs : s.Wf) : s.priorityBlocks.map keyEntry = s.prioritySet := by
  unfold priorityBlocks
  rw [List.map_filterMap, List.filterMap_congr (g := some) fun e he => ?_, List.filterMap_some]
  obtain ⟨b, hl, rfl⟩ := hs.lookup_of_mem_prioritySet he
  rw [hl]
  rfl

/-- The priority set names every block of the map once. -/
theorem Wf.priorityBlocks_perm (hs : s.Wf) : s.priorityBlocks.Perm s.lookupMap.values := by
  have h := hs.prioritySet_perm.filterMap fun e => s.lookupMap.lookup e.2
  have hsome : ∀ b ∈ s.lookupMap.values,
      ((fun e : PriorityKey × SequenceHash => s.lookupMap.lookup e.2) ∘ keyEntry) b = some b :=
    fun b hb => hs.lookup_of_mem hb
  rw [List.filterMap_map, List.filterMap_congr hsome, List.filterMap_some] at h
  exact h

/-- The take order lists every block the pool holds once. -/
theorem Wf.takeOrder_length (hs : s.Wf) : s.takeOrder.length = s.blocks.length := by
  rw [takeOrder, blocks, List.length_append, List.length_append, hs.priorityBlocks_perm.length_eq]
  omega

/-- The priority set lists the map's blocks sorted by key: both lists sort
    the same blocks, and no two blocks of the map share a key. -/
theorem Wf.priorityBlocks_eq (hs : s.Wf) : s.priorityBlocks = sortByKey s.lookupMap.values := by
  let le : KvBlock → KvBlock → Prop := fun a b =>
    PriorityKey.cmpKey (PriorityKey.ofBlock a) ≤ PriorityKey.cmpKey (PriorityKey.ofBlock b)
  have hsorted : s.priorityBlocks.Pairwise le := by
    have h := hs.sorted
    rw [← hs.map_priorityBlocks, SortedMap.Sorted, List.pairwise_map] at h
    exact h.imp le_of_lt
  have hmerge : (sortByKey s.lookupMap.values).Pairwise le := by
    refine (List.pairwise_mergeSort (fun a b c hab hbc => ?_) (fun a b => ?_) _).imp
      of_decide_eq_true
    · exact decide_eq_true (le_trans (of_decide_eq_true hab) (of_decide_eq_true hbc))
    · rw [Bool.or_eq_true, decide_eq_true_eq, decide_eq_true_eq]
      exact le_total _ _
  have hperm : s.priorityBlocks.Perm (sortByKey s.lookupMap.values) :=
    hs.priorityBlocks_perm.trans (List.mergeSort_perm _ _).symm
  refine List.Perm.eq_of_pairwise (fun a b ha hb hab hba => ?_) hsorted hmerge hperm
  -- keys that compare both ways are equal, and then so are the ticks
  have hkey := le_antisymm hab hba
  simp only [PriorityKey.cmpKey, PriorityKey.ofBlock, toLex_inj, Prod.mk.injEq] at hkey
  exact hs.eq_of_returnTick_eq (hs.priorityBlocks_perm.subset ha)
    ((List.mergeSort_perm _ _).subset hb) hkey.2

/-- `take` hands out the uninitialized blocks in arrival order, then the
    map's blocks sorted by priority and return tick. -/
theorem Wf.takeOrder_eq (hs : s.Wf) :
    s.takeOrder = s.uninitializedSet ++ sortByKey s.lookupMap.values := by
  rw [takeOrder, hs.priorityBlocks_eq]

/-- Popping the first priority entry takes the first block of its order. -/
theorem Wf.priorityBlocks_pop (hs : s.Wf) {e : PriorityKey × SequenceHash}
    {rest : List (PriorityKey × SequenceHash)} {b : KvBlock} (hp : s.prioritySet = e :: rest)
    (hl : s.lookupMap.lookup e.2 = some b) :
    s.priorityBlocks =
      b :: ({ s with prioritySet := rest, lookupMap := s.lookupMap.erase e.2 } : AvailableBlocksState).priorityBlocks := by
  have hnodup := hs.hashes_nodup
  rw [hp, List.map_cons, List.nodup_cons] at hnodup
  unfold priorityBlocks
  rw [hp, List.filterMap_cons, hl]
  -- the other entries name other hashes, which the erase does not touch
  refine congrArg (b :: ·) (List.filterMap_congr fun x hx => ?_)
  have hne : x.2 ≠ e.2 := by
    intro hx'
    rw [← hx'] at hnodup
    exact hnodup.1 (List.mem_map_of_mem hx)
  exact (AList.lookup_erase_ne hne).symm

end Order

section Handlers

variable {s : AvailableBlocksState}

/-- `take` never panics on a well-formed pool: it hands out the head of the
    take order, and nothing when the pool is empty. -/
theorem Wf.take_eq_ok (hs : s.Wf) :
    ∃ o s', s.take = .ok (o, s') ∧ s'.Wf ∧ s.takeOrder = o.toList ++ s'.takeOrder ∧
      (o = none → s' = s ∧ s.takeOrder = []) ∧ s'.SameCounters s := by
  cases hu : s.uninitializedSet with
  | cons b rest =>
    refine ⟨some b, { s with uninitializedSet := rest }, ?_, hs.setUninitialized rest, ?_,
      fun h => absurd h (Option.some_ne_none b), ⟨rfl, rfl, rfl⟩⟩
    · rw [take, hu]
    · rw [takeOrder, takeOrder, hu]
      rfl
  | nil =>
    cases hp : s.prioritySet with
    | nil =>
      refine ⟨none, s, ?_, hs, rfl, fun _ => ⟨rfl, ?_⟩, SameCounters.refl s⟩
      · rw [take, hu, hp]
      · rw [takeOrder, priorityBlocks, hu, hp]
        rfl
    | cons e rest =>
      obtain ⟨b, hl, -, hwf, -⟩ := hs.pop hp
      refine ⟨some b, _, ?_, hwf, ?_, fun h => absurd h (Option.some_ne_none b), ⟨rfl, rfl, rfl⟩⟩
      · obtain ⟨key, hash⟩ := e
        rw [take, hu, hp]
        simp only [hl]
      · rw [takeOrder, takeOrder, hu, hs.priorityBlocks_pop hp hl]
        rfl

/-- The loop of `handle_take` hands out the first `count` blocks of the take
    order, and the pool keeps the rest. -/
theorem Wf.takeLoop_eq_ok (hs : s.Wf) (count : Nat) :
    ∃ s', s.takeLoop count = .ok (s.takeOrder.take count, s') ∧ s'.Wf ∧
      s'.takeOrder = s.takeOrder.drop count ∧ s'.SameCounters s := by
  induction count generalizing s with
  | zero => exact ⟨s, rfl, hs, rfl, SameCounters.refl s⟩
  | succ count ih =>
    obtain ⟨o, s₁, htake, hs₁, horder, hnone, hc₁⟩ := hs.take_eq_ok
    cases o with
    | none =>
      obtain ⟨rfl, hempty⟩ := hnone rfl
      refine ⟨s₁, ?_, hs₁, ?_, SameCounters.refl s₁⟩
      · rw [takeLoop, htake, hempty]
        rfl
      · rw [hempty]
        rfl
    | some b =>
      -- the first block is the head of the order; the rest come from the loop
      obtain ⟨s₂, hloop, hs₂, horder₂, hc₂⟩ := ih hs₁
      refine ⟨s₂, ?_, hs₂, ?_, hc₂.trans hc₁⟩
      · rw [takeLoop, htake, horder]
        simp only [Except.ok_bind, hloop]
        rfl
      · rw [horder₂, horder]
        rfl

/-- A block taken out of the map has a tick no remaining block has, and no
    later than the counter. -/
theorem Wf.fresh_of_perm (hs : s.Wf) {b : KvBlock} {rest : List KvBlock}
    (hp : s.lookupMap.values.Perm (b :: rest)) :
    (∀ x ∈ rest, x.returnTick ≠ b.returnTick) ∧ b.returnTick ≤ s.returnTick := by
  have hnodup := (hp.map KvBlock.returnTick).nodup_iff.mp hs.ticks_nodup
  rw [List.map_cons, List.nodup_cons] at hnodup
  refine ⟨fun x hx htick => hnodup.1 ?_, hs.ticks_le b (hp.symm.subset List.mem_cons_self)⟩
  rw [← htick]
  exact List.mem_map_of_mem hx

/-- One pass of `update_block` never panics: the block goes back in with its
    own tick, which no other block of the map has. -/
theorem Wf.updateOne_eq_ok (hs : s.Wf) (update : UpdateBlock) :
    ∃ s', s.updateOne update = .ok s' ∧ s'.Wf ∧ s'.blocks.length = s.blocks.length ∧
      s'.SameCounters s := by
  cases hl : s.lookupMap.lookup update.hash with
  | none =>
    refine ⟨s, ?_, hs, rfl, SameCounters.refl s⟩
    rw [updateOne, takeWithSequenceHash_of_lookup_none hl]
  | some b =>
    obtain ⟨s₁, htake, hs₁, hperm, huninit, hc₁⟩ := hs.takeWithSequenceHash_eq hl
    obtain ⟨hfresh, hle⟩ := hs.fresh_of_perm hperm
    -- the block goes back with its new priority and its own tick
    let b' : KvBlock := { b with priority := update.priority.getD b.priority }
    have hfresh' : ∀ x ∈ s₁.lookupMap.values, x.returnTick ≠ b'.returnTick := hfresh
    obtain ⟨s₂, hins, hs₂, hlen, hc₂⟩ := hs₁.insert_eq_ok hfresh' (by rw [hc₁.returnTick]; exact hle)
    refine ⟨s₂, ?_, hs₂, ?_, hc₂.trans hc₁⟩
    · rw [updateOne, htake]
      exact hins
    · rw [hlen, blocks, blocks, huninit, List.length_append, List.length_append, hperm.length_eq,
        List.length_cons]
      omega

/-- One pass of `handle_reset`: the block goes back in reset, with hash zero,
    to the uninitialized set. -/
theorem Wf.resetOne_eq_ok (hs : s.Wf) (sequenceHash : SequenceHash) :
    ∃ s', s.resetOne sequenceHash = .ok s' ∧ s'.Wf ∧ s'.blocks.length = s.blocks.length ∧
      s'.SameCounters s := by
  cases hl : s.lookupMap.lookup sequenceHash with
  | none =>
    refine ⟨s, ?_, hs, rfl, SameCounters.refl s⟩
    rw [resetOne, takeWithSequenceHash_of_lookup_none hl]
  | some b =>
    obtain ⟨s₁, htake, hs₁, hperm, huninit, hc₁⟩ := hs.takeWithSequenceHash_eq hl
    refine ⟨{ s₁ with uninitializedSet := s₁.uninitializedSet ++ [b.reset] }, ?_,
      hs₁.setUninitialized _, ?_, hc₁.setUninitialized _⟩
    · rw [resetOne, htake]
      exact insert_of_held (Or.inr (KvBlock.sequenceHash_reset b))
    · simp only [blocks, List.length_append, huninit, hperm.length_eq, List.length_cons,
        List.length_nil]
      omega

theorem Wf.updateBlock_eq_ok (hs : s.Wf) (updates : List UpdateBlock) :
    ∃ s', s.updateBlock updates = .ok s' ∧ s'.Wf ∧ s'.blocks.length = s.blocks.length ∧
      s'.SameCounters s := by
  unfold updateBlock
  refine Except.foldlM_eq_ok_of_step
    (fun s' => s'.Wf ∧ s'.blocks.length = s.blocks.length ∧ s'.SameCounters s)
    (fun _ update h₁ => ?_) updates s ⟨hs, rfl, SameCounters.refl s⟩
  obtain ⟨hs₁, hlen₁, hc₁⟩ := h₁
  obtain ⟨s₂, h, hs₂, hlen₂, hc₂⟩ := hs₁.updateOne_eq_ok update
  exact ⟨s₂, h, hs₂, hlen₂.trans hlen₁, hc₂.trans hc₁⟩

theorem Wf.handleReset_eq_ok (hs : s.Wf) (sequenceHashes : List SequenceHash) :
    ∃ s', s.handleReset sequenceHashes = .ok s' ∧ s'.Wf ∧ s'.blocks.length = s.blocks.length ∧
      s'.SameCounters s := by
  unfold handleReset
  refine Except.foldlM_eq_ok_of_step
    (fun s' => s'.Wf ∧ s'.blocks.length = s.blocks.length ∧ s'.SameCounters s)
    (fun _ sequenceHash h₁ => ?_) sequenceHashes s ⟨hs, rfl, SameCounters.refl s⟩
  obtain ⟨hs₁, hlen₁, hc₁⟩ := h₁
  obtain ⟨s₂, h, hs₂, hlen₂, hc₂⟩ := hs₁.resetOne_eq_ok sequenceHash
  exact ⟨s₂, h, hs₂, hlen₂.trans hlen₁, hc₂.trans hc₁⟩

/-- The loop of `handle_reset_all` never panics, and with more passes than
    priority entries it ends: each pass sends one block, reset, to the
    uninitialized set. -/
theorem Wf.resetAllLoop_eq_ok (fuel : Nat) :
    ∀ {s : AvailableBlocksState}, s.Wf → s.prioritySet.length < fuel →
      ∃ s', s.resetAllLoop fuel = .ok s' ∧ s'.Wf ∧ s'.blocks.length = s.blocks.length ∧
        s'.SameCounters s := by
  induction fuel with
  | zero => exact fun _ hfuel => absurd hfuel (Nat.not_lt_zero _)
  | succ fuel ih =>
    intro s hs hfuel
    cases hp : s.prioritySet with
    | nil =>
      refine ⟨s, ?_, hs, rfl, SameCounters.refl s⟩
      rw [resetAllLoop, hp]
    | cons e rest =>
      obtain ⟨b, hl, -, hwf, hperm⟩ := hs.pop hp
      -- the popped block goes back reset, to the uninitialized set
      have hwf' := hwf.setUninitialized (s.uninitializedSet ++ [b.reset])
      have hlen : rest.length < fuel := by
        rw [hp, List.length_cons] at hfuel
        omega
      obtain ⟨s', hloop, hs', hlen', hc'⟩ := ih hwf' hlen
      refine ⟨s', ?_, hs', ?_, hc'.trans ⟨rfl, rfl, rfl⟩⟩
      · obtain ⟨key, hash⟩ := e
        rw [resetAllLoop, hp]
        simp only [hl]
        rw [insert_of_held (Or.inr (KvBlock.sequenceHash_reset b)), Except.ok_bind]
        exact hloop
      · rw [hlen']
        simp only [blocks, List.length_append, hperm.length_eq, List.length_cons, List.length_nil]
        omega

theorem Wf.handleResetAll_eq_ok (hs : s.Wf) :
    ∃ s', s.handleResetAll = .ok s' ∧ s'.Wf ∧ s'.blocks.length = s.blocks.length ∧
      s'.SameCounters s :=
  Wf.resetAllLoop_eq_ok _ hs (Nat.lt_succ_self _)

/-- `match_hashes`'s loop takes out, in order, the blocks of the leading
    hashes the pool holds, and stops at the first hash it does not hold any
    more: one it never held, or one this run has taken already. -/
theorem Wf.matchHashesLoop_eq (hashes : List SequenceHash) :
    ∀ {s : AvailableBlocksState}, s.Wf →
      let r := s.matchHashesLoop hashes
      r.1.map KvBlock.sequenceHash = hashes.take r.1.length ∧
        s.lookupMap.values.Perm (r.1 ++ r.2.lookupMap.values) ∧
        (∀ h ∈ hashes[r.1.length]?, h ∉ r.2.lookupMap) ∧
        r.2.Wf ∧ r.2.uninitializedSet = s.uninitializedSet ∧ r.2.SameCounters s := by
  induction hashes with
  | nil => exact fun hs => ⟨rfl, List.Perm.refl _, by simp, hs, rfl, SameCounters.refl _⟩
  | cons h hashes ih =>
    intro s hs
    cases hl : s.lookupMap.lookup h with
    | none =>
      have hloop : s.matchHashesLoop (h :: hashes) = ([], s) := by
        rw [matchHashesLoop, takeWithSequenceHash_of_lookup_none hl]
      rw [hloop]
      refine ⟨rfl, List.Perm.refl _, fun h' hh' => ?_, hs, rfl, SameCounters.refl s⟩
      rw [List.length_nil, List.getElem?_cons_zero, Option.mem_some_iff] at hh'
      rw [← hh']
      exact AList.lookup_eq_none.mp hl
    | some b =>
      -- the first block comes out, and the loop goes on from what is left
      obtain ⟨s₁, htake, hs₁, hperm, huninit, hc₁⟩ := hs.takeWithSequenceHash_eq hl
      obtain ⟨hmap, hperm₁, hstop, hs', huninit', hc'⟩ := ih hs₁
      have hloop : s.matchHashesLoop (h :: hashes) =
          (b :: (s₁.matchHashesLoop hashes).1, (s₁.matchHashesLoop hashes).2) := by
        rw [matchHashesLoop, htake]
      rw [hloop]
      refine ⟨?_, ?_, ?_, hs', huninit'.trans huninit, hc'.trans hc₁⟩
      · rw [List.map_cons, List.length_cons, List.take_succ_cons, hmap,
          (hs.lookup_eq h b hl).1]
      · exact hperm.trans ((hperm₁.cons b).trans (List.Perm.refl _))
      · simpa only [List.length_cons, List.getElem?_cons_succ] using hstop

end Handlers

section Counted

/-- The pool's invariant together with its count: `available_blocks` is the
    number of blocks the pool holds. -/
structure Inv (s : AvailableBlocksState) : Prop where
  wf : s.Wf
  available_eq : s.availableBlocks = s.blocks.length

theorem inv_new : new.Inv :=
  ⟨wf_new, rfl⟩

variable {s : AvailableBlocksState}

/-- The invariant reads the map, the priority set and an upper bound on the
    ticks. -/
theorem Wf.of_eq {s' : AvailableBlocksState} (hs : s.Wf) (hmap : s'.lookupMap = s.lookupMap)
    (hset : s'.prioritySet = s.prioritySet) (htick : s.returnTick ≤ s'.returnTick) : s'.Wf := by
  refine ⟨hset ▸ hs.sorted, ?_, hmap ▸ hs.lookup_eq, hmap ▸ hs.ticks_nodup, fun b hb => ?_⟩
  · rw [hset, hmap]
    exact hs.prioritySet_perm
  · rw [hmap] at hb
    exact (hs.ticks_le b hb).trans htick

theorem Inv.of_sameCounters {s' : AvailableBlocksState} (hs : s.Inv) (hwf : s'.Wf)
    (hlen : s'.blocks.length = s.blocks.length) (hc : s'.SameCounters s) : s'.Inv :=
  ⟨hwf, by rw [hc.availableBlocks, hs.available_eq, hlen]⟩

/-- A block stamped with the next tick is inserted without a panic: every tick
    of the map is older. -/
theorem Wf.insert_next (hs : s.Wf) (s₁ : AvailableBlocksState) (hmap : s₁.lookupMap = s.lookupMap)
    (hset : s₁.prioritySet = s.prioritySet) (htick : s₁.returnTick = s.returnTick + 1)
    (block : KvBlock) :
    ∃ s', s₁.insert { block with returnTick := s₁.returnTick } = .ok s' ∧ s'.Wf ∧
      s'.blocks.length = s₁.blocks.length + 1 ∧ s'.SameCounters s₁ := by
  have hs₁ : s₁.Wf := hs.of_eq hmap hset (by omega)
  refine hs₁.insert_eq_ok (fun b hb => ?_) le_rfl
  rw [hmap] at hb
  have hle := hs.ticks_le b hb
  show b.returnTick ≠ s₁.returnTick
  omega

/-- `handle_insert` never panics, and counts the new block in both counters. -/
theorem Inv.handleInsert_eq_ok (hs : s.Inv) (block : KvBlock) :
    ∃ s', s.handleInsert block = .ok s' ∧ s'.Inv ∧ s'.blocks.length = s.blocks.length + 1 ∧
      s'.totalBlocks = s.totalBlocks + 1 := by
  obtain ⟨s', hins, hs', hlen, hc⟩ := hs.wf.insert_next { s with
    availableBlocks := s.availableBlocks + 1, totalBlocks := s.totalBlocks + 1,
    returnTick := s.returnTick + 1 } rfl rfl rfl block
  refine ⟨s', hins, ⟨hs', ?_⟩, hlen, hc.totalBlocks⟩
  rw [hc.availableBlocks, hlen]
  show s.availableBlocks + 1 = s.blocks.length + 1
  rw [hs.available_eq]

/-- `handle_return` never panics, and counts the block back. -/
theorem Inv.handleReturn_eq_ok (hs : s.Inv) (block : KvBlock) :
    ∃ s', s.handleReturn block = .ok s' ∧ s'.Inv ∧ s'.blocks.length = s.blocks.length + 1 ∧
      s'.totalBlocks = s.totalBlocks := by
  obtain ⟨s', hins, hs', hlen, hc⟩ := hs.wf.insert_next { s with
    availableBlocks := s.availableBlocks + 1, returnTick := s.returnTick + 1 } rfl rfl rfl block
  refine ⟨s', hins, ⟨hs', ?_⟩, hlen, hc.totalBlocks⟩
  rw [hc.availableBlocks, hlen]
  show s.availableBlocks + 1 = s.blocks.length + 1
  rw [hs.available_eq]

/-- `match_hashes` hands out, in order, the blocks of the leading requested
    hashes the pool holds, up to the first hash it no longer holds, and
    counts them out. -/
theorem Inv.matchHashes_eq (hs : s.Inv) (hashes : List SequenceHash) :
    let r := s.matchHashes hashes
    r.1.map KvBlock.sequenceHash = hashes.take r.1.length ∧
      s.lookupMap.values.Perm (r.1 ++ r.2.lookupMap.values) ∧
      (∀ h ∈ hashes[r.1.length]?, h ∉ r.2.lookupMap) ∧
      r.2.uninitializedSet = s.uninitializedSet ∧ r.2.Inv ∧ r.2.totalBlocks = s.totalBlocks := by
  obtain ⟨hmap, hperm, hstop, hwf, huninit, hc⟩ := Wf.matchHashesLoop_eq hashes hs.wf
  refine ⟨hmap, hperm, hstop, huninit, ⟨hwf.of_eq rfl rfl le_rfl, ?_⟩, hc.totalBlocks⟩
  -- the counter loses as many blocks as the map
  have hlen : s.blocks.length =
      (s.matchHashesLoop hashes).1.length + (s.matchHashesLoop hashes).2.blocks.length := by
    rw [blocks, blocks, huninit, List.length_append, List.length_append, hperm.length_eq,
      List.length_append]
    omega
  show (s.matchHashesLoop hashes).2.availableBlocks - (s.matchHashesLoop hashes).1.length =
    (s.matchHashesLoop hashes).2.blocks.length
  rw [hc.availableBlocks, hs.available_eq]
  omega

/-- `handle_take` never panics: it hands out the first `count` blocks of the
    uninitialized ones in arrival order followed by the map's blocks sorted by
    priority and return tick, and counts them out. -/
theorem Inv.handleTake_eq_ok (hs : s.Inv) (count : Nat) :
    ∃ s', s.handleTake count =
        .ok ((s.uninitializedSet ++ sortByKey s.lookupMap.values).take count, s') ∧
      s'.Inv ∧ s.blocks.length = s'.blocks.length + min count s.blocks.length ∧
      s'.totalBlocks = s.totalBlocks := by
  obtain ⟨s₁, hloop, hs₁, horder, hc⟩ := hs.wf.takeLoop_eq_ok count
  have hlen₁ : s₁.blocks.length = s.blocks.length - count := by
    rw [← hs₁.takeOrder_length, horder, List.length_drop, hs.wf.takeOrder_length]
  refine ⟨{ s₁ with availableBlocks := s₁.availableBlocks - (s.takeOrder.take count).length },
    ?_, ⟨hs₁.of_eq rfl rfl le_rfl, ?_⟩, ?_, hc.totalBlocks⟩
  · rw [handleTake, hloop, ← hs.wf.takeOrder_eq]
    rfl
  · show _ - _ = _
    rw [hc.availableBlocks, hs.available_eq, List.length_take, hs.wf.takeOrder_length]
    simp only [blocks] at hlen₁ ⊢
    omega
  · simp only [blocks] at hlen₁ ⊢
    omega

/-- A request that names one hash is answered with at most one block. -/
theorem toList_head?_of_length_le_one {α : Type*} {l : List α} (h : l.length ≤ 1) :
    l.head?.toList = l := by
  match l, h with
  | [], _ => rfl
  | [_], _ => rfl

/-- `handle_match_request` never panics; the blocks it hands out leave the
    pool's count. -/
theorem Inv.handleMatchRequest_eq_ok (hs : s.Inv) (req : MatchRequest) :
    ∃ out s', s.handleMatchRequest req = .ok (out, s') ∧ s'.Inv ∧
      s.blocks.length = s'.blocks.length + out.length ∧ s'.totalBlocks = s.totalBlocks := by
  -- a match hands out blocks of the map, and leaves the uninitialized set
  have hmatch : ∀ hashes, let r := s.matchHashes hashes
      r.2.Inv ∧ s.blocks.length = r.2.blocks.length + r.1.length ∧ r.2.totalBlocks = s.totalBlocks ∧
        r.1.length ≤ hashes.length := by
    intro hashes
    obtain ⟨hmap, hperm, -, huninit, hinv, htotal⟩ := hs.matchHashes_eq hashes
    refine ⟨hinv, ?_, htotal, ?_⟩
    · rw [blocks, blocks, huninit, List.length_append, List.length_append, hperm.length_eq,
        List.length_append]
      omega
    · have h := congrArg List.length hmap
      rw [List.length_map, List.length_take] at h
      omega
  cases req with
  | matchSingle hash =>
    obtain ⟨hinv, hlen, htotal, hone⟩ := hmatch [hash]
    refine ⟨_, _, rfl, hinv, ?_, htotal⟩
    rw [toList_head?_of_length_le_one hone]
    exact hlen
  | matchMultiple hashes =>
    obtain ⟨hinv, hlen, htotal, -⟩ := hmatch hashes
    exact ⟨_, _, rfl, hinv, hlen, htotal⟩
  | take count =>
    obtain ⟨s', htake, hinv, hlen, htotal⟩ := hs.handleTake_eq_ok count
    refine ⟨_, s', htake, hinv, ?_, htotal⟩
    rw [List.length_take, List.length_append, ← List.length_append, ← hs.wf.takeOrder_eq,
      hs.wf.takeOrder_length]
    exact hlen

/-- `handle_control_request` never panics; only an insert adds a block, and
    it counts it in the total. -/
theorem Inv.handleControlRequest_eq_ok (hs : s.Inv) (req : ControlRequest) :
    ∃ s', s.handleControlRequest req = .ok s' ∧ s'.Inv ∧
      s'.totalBlocks + s.blocks.length = s.totalBlocks + s'.blocks.length := by
  -- the requests other than an insert hold the same blocks under the same counters
  have hsame : ∀ {s' : AvailableBlocksState}, s'.Wf → s'.blocks.length = s.blocks.length →
      s'.SameCounters s → s'.Inv ∧ s'.totalBlocks + s.blocks.length = s.totalBlocks + s'.blocks.length :=
    fun hwf hlen hc => ⟨hs.of_sameCounters hwf hlen hc, by rw [hc.totalBlocks, hlen]⟩
  cases req with
  | insert block =>
    obtain ⟨s', h, hinv, hlen, htotal⟩ := hs.handleInsert_eq_ok block
    exact ⟨s', h, hinv, by omega⟩
  | updateSingle update =>
    obtain ⟨s', h, hwf, hlen, hc⟩ := hs.wf.updateBlock_eq_ok [update]
    exact ⟨s', h, hsame hwf hlen hc⟩
  | updateMultiple updates =>
    obtain ⟨s', h, hwf, hlen, hc⟩ := hs.wf.updateBlock_eq_ok updates
    exact ⟨s', h, hsame hwf hlen hc⟩
  | reset sequenceHashes =>
    obtain ⟨s', h, hwf, hlen, hc⟩ := hs.wf.handleReset_eq_ok sequenceHashes
    exact ⟨s', h, hsame hwf hlen hc⟩
  | resetAll =>
    obtain ⟨s', h, hwf, hlen, hc⟩ := hs.wf.handleResetAll_eq_ok
    exact ⟨s', h, hsame hwf hlen hc⟩

end Counted

end AvailableBlocksState

end Kv

end Dynamo
