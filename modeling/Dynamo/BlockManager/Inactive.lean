import Dynamo.Lib.Collections
import Dynamo.BlockManager.Block

/-!
# The Inactive Block Pool

The model of `block_manager/pool/inactive.rs` and `pool/priority_key.rs`: the
pool's store of blocks no caller holds. A block that still holds a registered
sequence is kept for reuse in `lookup_map`, under its sequence hash, and its
`PriorityKey` (its metadata, then the hash) sits in `priority_set`, the order
in which such blocks are evicted. A block that holds nothing sits in
`uninitialized_set`, and is handed out first.

`HashMap` is an `AList`, `BTreeSet` a `Finset` of the key order and
`VecDeque` a list; the `u64` counters are natural numbers.

The map and the set are two views of one collection and have to be kept in
lockstep: a block's key is computed from its metadata when it is inserted and
again when it is taken out, and `acquire_free_block` panics when a key of the
set has no block in the map. `Wf` is the representation invariant that makes
the two agree, together with what the two collections hold: registered blocks
under their own hash in the map, reset blocks in the uninitialized set. Every
operation keeps it, whatever blocks it is given, so a pool built from `new`
by any sequence of calls never panics.

## Main definitions

* `PriorityKey`: The eviction key, ordered by metadata and then hash.
* `BlockPoolError`: The errors of the block pool.
* `InactiveBlockPool`: The pool, with every operation of the source.
* `InactiveBlockPool.Wf`: The representation invariant.
* `InactiveCall`, `InactiveBlockPool.runCalls`: A sequence of calls.

## Theorems

* `InactiveBlockPool.Wf.insert`: Inserting any block keeps the invariant.
* `InactiveBlockPool.Wf.takeWithSequenceHash`: Taking a block out keeps it.
* `InactiveBlockPool.acquireFreeBlock_spec`: Acquiring never panics on a
  well-formed pool, and hands out a reset block while there is one.
* `InactiveBlockPool.Wf.card_prioritySet`: The set has one key per entry of
  the map.
* `InactiveBlockPool.acquireFreeBlocks_of_le`: Acquiring up to the available
  count always succeeds with exactly that many blocks.
* `InactiveBlockPool.inactiveBlockPool_wf`: Every run from `new` succeeds and
  ends in a well-formed pool.
-/

namespace Dynamo

namespace BlockManager

open Tokens

/-- `PriorityKey`. -/
structure PriorityKey (M : Type) where
  metadata : M
  sequenceHash : SequenceHash
  deriving DecidableEq, Repr

/-- The `Ord` of `PriorityKey`: the metadata, then the sequence hash as a
    number. -/
def PriorityKey.lexKey {M : Type} (k : PriorityKey M) : M ×ₗ ℕ :=
  toLex (k.metadata, k.sequenceHash.toNat)

theorem PriorityKey.lexKey_injective {M : Type} : Function.Injective (PriorityKey.lexKey (M := M)) := by
  intro a b h
  cases a
  cases b
  simp only [PriorityKey.lexKey, toLex_inj, Prod.mk.injEq, UInt64.toNat_inj] at h
  obtain ⟨h1, h2⟩ := h
  rw [h1, h2]

instance {M : Type} [LinearOrder M] : LinearOrder (PriorityKey M) :=
  LinearOrder.lift' PriorityKey.lexKey PriorityKey.lexKey_injective

/-- `BlockPoolError`. -/
inductive BlockPoolError where
  | blockNotComplete
  | notEnoughBlocksAvailable (requested available : Nat)
  | invalidMutableBlock (msg : String)
  | failedToRegisterBlock (msg : String)
  | progressEngineShutdown
  | blockError (e : BlockError)
  deriving DecidableEq, Repr

/-- `InactiveBlockPool`. -/
structure InactiveBlockPool (M : Type) where
  lookupMap : AList (fun _ : SequenceHash => Block M)
  prioritySet : Finset (PriorityKey M)
  uninitializedSet : List (Block M)
  returnTick : Nat
  totalBlocks : Nat

namespace InactiveBlockPool

variable {M : Type}

section Model

variable [LinearOrder M] [BlockMetadata M]

/-- `new`. -/
def new : InactiveBlockPool M :=
  { lookupMap := ∅, prioritySet := ∅, uninitializedSet := [], returnTick := 0, totalBlocks := 0 }

/-- The blocks the pool holds: those of the map, then the uninitialized
    ones. -/
def blocks (pool : InactiveBlockPool M) : List (Block M) :=
  pool.lookupMap.values ++ pool.uninitializedSet

/-- `available_blocks`. -/
def availableBlocks (pool : InactiveBlockPool M) : Nat :=
  pool.uninitializedSet.length + pool.lookupMap.keys.length

/-- `uninitialized_set.push_back`. -/
def pushUninitialized (pool : InactiveBlockPool M) (block : Block M) : InactiveBlockPool M :=
  { pool with uninitializedSet := pool.uninitializedSet ++ [block] }

/-- `insert_with_sequence_hash`: a block whose key or hash is already present
    is reset and goes to the uninitialized set. -/
def insertWithSequenceHash (pool : InactiveBlockPool M) (block : Block M)
    (sequenceHash : SequenceHash) : InactiveBlockPool M :=
  let priorityKey : PriorityKey M := ⟨block.metadata, sequenceHash⟩
  if priorityKey ∈ pool.prioritySet then
    pool.pushUninitialized block.reset
  else if sequenceHash ∉ pool.lookupMap then
    { pool with prioritySet := insert priorityKey pool.prioritySet,
                lookupMap := pool.lookupMap.insert sequenceHash block }
  else
    pool.pushUninitialized block.reset

/-- `insert`: by the state of the block. -/
def insert (pool : InactiveBlockPool M) (block : Block M) : InactiveBlockPool M :=
  match block.state with
  | .reset => pool.pushUninitialized block
  | .partialState _ => pool.pushUninitialized block.reset
  | .complete _ => pool.pushUninitialized block.reset
  | .registered handle => pool.insertWithSequenceHash block handle.sequenceHash

/-- `add_blocks`: every block is reset and inserted. -/
def addBlocks (pool : InactiveBlockPool M) (blocks : List (Block M)) : InactiveBlockPool M :=
  let pool' := blocks.foldl (fun pool block => pool.insert block.reset) pool
  { pool' with totalBlocks := pool'.totalBlocks + blocks.length }

/-- `return_block`: the tick advances and is written to the metadata. -/
def returnBlock (pool : InactiveBlockPool M) (block : Block M) : InactiveBlockPool M :=
  let returnTick := pool.returnTick + 1
  ({ pool with returnTick := returnTick } : InactiveBlockPool M).insert
    (block.metadataOnReturned returnTick)

/-- `return_blocks`: from tail to head. -/
def returnBlocks (pool : InactiveBlockPool M) (blocks : List (Block M)) : InactiveBlockPool M :=
  blocks.reverse.foldl returnBlock pool

/-- `add_blocks_with_state`: counted, then returned as they are. -/
def addBlocksWithState (pool : InactiveBlockPool M) (blocks : List (Block M)) :
    InactiveBlockPool M :=
  ({ pool with totalBlocks := pool.totalBlocks + blocks.length } : InactiveBlockPool M).returnBlocks
    blocks

/-- The pool without the entry of `sequenceHash`, whose block is `block`. -/
def eraseEntry (pool : InactiveBlockPool M) (sequenceHash : SequenceHash) (block : Block M) :
    InactiveBlockPool M :=
  { pool with lookupMap := pool.lookupMap.erase sequenceHash,
              prioritySet := pool.prioritySet.erase ⟨block.metadata, sequenceHash⟩ }

/-- `take_with_sequence_hash`: the key to remove is recomputed from the
    block's metadata. -/
def takeWithSequenceHash (pool : InactiveBlockPool M) (sequenceHash : SequenceHash) :
    Option (Block M) × InactiveBlockPool M :=
  match pool.lookupMap.lookup sequenceHash with
  | some block => (some block, pool.eraseEntry sequenceHash block)
  | none => (none, pool)

/-- `match_sequence_hash`. -/
def matchSequenceHash (pool : InactiveBlockPool M) (sequenceHash : SequenceHash) :
    Option (Block M) × InactiveBlockPool M :=
  pool.takeWithSequenceHash sequenceHash

/-- `match_sequence_hashes`: stops at the first hash it does not hold. -/
def matchSequenceHashes (pool : InactiveBlockPool M) :
    List SequenceHash → List (Block M) × InactiveBlockPool M
  | [] => ([], pool)
  | sequenceHash :: rest =>
      match pool.takeWithSequenceHash sequenceHash with
      | (some block, pool') =>
          let (blocks, pool'') := pool'.matchSequenceHashes rest
          (block :: blocks, pool'')
      | (none, pool') => ([], pool')

/-- `match_token_blocks`: the same loop over the blocks' sequence hashes. -/
def matchTokenBlocks (pool : InactiveBlockPool M) (tokenBlocks : List TokenBlock) :
    List (Block M) × InactiveBlockPool M :=
  pool.matchSequenceHashes (tokenBlocks.map TokenBlock.sequenceHash)

/-- The panic of `acquire_free_block` when the set and the map disagree. -/
def inconsistencyPanic : Abort :=
  .panic "Block from priority set not found in lookup map! Inconsistency detected."

/-- `acquire_free_block`: an uninitialized block first, otherwise the block
    of the least priority key, reset. -/
def acquireFreeBlock (pool : InactiveBlockPool M) :
    Except Abort (Option (Block M) × InactiveBlockPool M) :=
  match pool.uninitializedSet with
  | block :: rest =>
      let returnTick := pool.returnTick + 1
      .ok (some (block.metadataOnAcquired returnTick),
        { pool with uninitializedSet := rest, returnTick := returnTick })
  | [] =>
      match pool.prioritySet.popFirst with
      | none => .ok (none, pool)
      | some (key, prioritySet) =>
          match pool.lookupMap.lookup key.sequenceHash with
          | some block =>
              let returnTick := pool.returnTick + 1
              .ok (some (block.reset.metadataOnAcquired returnTick),
                { pool with prioritySet := prioritySet,
                            lookupMap := pool.lookupMap.erase key.sequenceHash,
                            returnTick := returnTick })
          | none => .error inconsistencyPanic

/-- The loop of `acquire_free_blocks`, which breaks at the first `None`. -/
def acquireLoop (pool : InactiveBlockPool M) :
    Nat → Except Abort (List (Block M) × InactiveBlockPool M)
  | 0 => .ok ([], pool)
  | n + 1 => do
      let (block, pool') ← pool.acquireFreeBlock
      match block with
      | some block =>
          let (blocks, pool'') ← pool'.acquireLoop n
          .ok (block :: blocks, pool'')
      | none => .ok ([], pool')

/-- `acquire_free_blocks`. -/
def acquireFreeBlocks (pool : InactiveBlockPool M) (count : Nat) :
    Except Abort (Except BlockPoolError (List (Block M)) × InactiveBlockPool M) :=
  if count = 0 then .ok (.ok [], pool)
  else
    let availableNow := pool.availableBlocks
    if count > availableNow then
      .ok (.error (.notEnoughBlocksAvailable count availableNow), pool)
    else do
      let (blocks, pool') ← pool.acquireLoop count
      if blocks.length ≠ count then
        .ok (.error (.notEnoughBlocksAvailable count blocks.length), pool')
      else .ok (.ok blocks, pool')

end Model

/-! ### The representation invariant -/

/-- The representation invariant: the set holds exactly the keys of the
    map's entries, recomputed from each block's metadata; the map holds
    registered blocks under their own hash; the uninitialized set holds reset
    blocks. -/
structure Wf (pool : InactiveBlockPool M) : Prop where
  mem_prioritySet : ∀ k, k ∈ pool.prioritySet ↔
    ∃ block, pool.lookupMap.lookup k.sequenceHash = some block ∧ block.metadata = k.metadata
  lookup_registered : ∀ h block, pool.lookupMap.lookup h = some block →
    block.state.isRegisteredWith h = true
  uninitialized_reset : ∀ block ∈ pool.uninitializedSet, block.state = .reset

theorem wf_new : (new : InactiveBlockPool M).Wf where
  mem_prioritySet k := by
    simp only [new, Finset.notMem_empty, AList.lookup_empty, reduceCtorEq, false_and,
      exists_false]
  lookup_registered h block hl := by
    simp only [new, AList.lookup_empty, reduceCtorEq] at hl
  uninitialized_reset block hb := by
    simp only [new, List.not_mem_nil] at hb

/-- The counters do not matter, and the uninitialized set may lose blocks. -/
theorem Wf.of_eq {pool pool' : InactiveBlockPool M} (hwf : pool.Wf)
    (hl : pool'.lookupMap = pool.lookupMap) (hp : pool'.prioritySet = pool.prioritySet)
    (hu : pool'.uninitializedSet ⊆ pool.uninitializedSet) : pool'.Wf where
  mem_prioritySet k := by rw [hl, hp]; exact hwf.mem_prioritySet k
  lookup_registered h block hb := by rw [hl] at hb; exact hwf.lookup_registered h block hb
  uninitialized_reset block hb := hwf.uninitialized_reset block (hu hb)

theorem Wf.pushUninitialized {pool : InactiveBlockPool M} (hwf : pool.Wf) {block : Block M}
    (hb : block.state = .reset) : (pool.pushUninitialized block).Wf where
  mem_prioritySet := hwf.mem_prioritySet
  lookup_registered := hwf.lookup_registered
  uninitialized_reset b hmem := by
    rcases List.mem_append.mp hmem with hmem | hmem
    · exact hwf.uninitialized_reset b hmem
    · rw [List.mem_singleton.mp hmem]
      exact hb

section Keys

variable [LinearOrder M]

/-- A fresh hash goes into the map and its key into the set together. -/
theorem Wf.insertFresh {pool : InactiveBlockPool M} (hwf : pool.Wf) {block : Block M}
    {h : SequenceHash} (hreg : block.state.isRegisteredWith h = true)
    (hfresh : h ∉ pool.lookupMap) :
    ({ pool with prioritySet := Insert.insert ⟨block.metadata, h⟩ pool.prioritySet,
                 lookupMap := pool.lookupMap.insert h block } : InactiveBlockPool M).Wf where
  mem_prioritySet k := by
    simp only [Finset.mem_insert]
    by_cases hk : k.sequenceHash = h
    · -- the key of the new entry is the only one with its hash
      have hold : k ∉ pool.prioritySet := by
        intro hmem
        obtain ⟨b, hb, -⟩ := (hwf.mem_prioritySet k).mp hmem
        rw [hk, AList.lookup_eq_none.mpr hfresh] at hb
        exact absurd hb (by simp only [reduceCtorEq, not_false_eq_true])
      rw [hk, AList.lookup_insert]
      constructor
      · rintro (rfl | hmem)
        · exact ⟨block, rfl, rfl⟩
        · exact absurd hmem hold
      · rintro ⟨b, hb, hmeta⟩
        rw [Option.some.injEq] at hb
        subst hb
        left
        cases k
        simp only at hk hmeta
        rw [hk, hmeta]
    · have hne : k ≠ ⟨block.metadata, h⟩ := fun heq => hk (by rw [heq])
      rw [AList.lookup_insert_ne hk]
      simp only [hne, false_or]
      exact hwf.mem_prioritySet k
  lookup_registered h' b hb := by
    by_cases hh : h' = h
    · subst hh
      rw [AList.lookup_insert, Option.some.injEq] at hb
      rw [← hb]
      exact hreg
    · rw [AList.lookup_insert_ne hh] at hb
      exact hwf.lookup_registered h' b hb
  uninitialized_reset := hwf.uninitialized_reset

/-- Erasing an entry and the key recomputed from its block keeps the two
    collections in lockstep. -/
theorem Wf.eraseEntry {pool : InactiveBlockPool M} (hwf : pool.Wf) {h : SequenceHash}
    {block : Block M} (hl : pool.lookupMap.lookup h = some block) :
    (pool.eraseEntry h block).Wf where
  mem_prioritySet k := by
    simp only [InactiveBlockPool.eraseEntry, Finset.mem_erase]
    by_cases hk : k.sequenceHash = h
    · -- the only key of hash `h` is the erased one
      rw [hk, AList.lookup_erase]
      simp only [reduceCtorEq, false_and, exists_false, iff_false, not_and]
      intro hne hmem
      obtain ⟨b, hb, hmeta⟩ := (hwf.mem_prioritySet k).mp hmem
      rw [hk, hl, Option.some.injEq] at hb
      subst hb
      apply hne
      cases k
      simp only at hk hmeta
      rw [hk, hmeta]
    · have hne : k ≠ ⟨block.metadata, h⟩ := fun heq => hk (by rw [heq])
      rw [AList.lookup_erase_ne hk]
      simp only [hne, ne_eq, not_false_eq_true, true_and]
      exact hwf.mem_prioritySet k
  lookup_registered h' b hb := by
    by_cases hh : h' = h
    · subst hh
      rw [InactiveBlockPool.eraseEntry, AList.lookup_erase] at hb
      exact absurd hb (by simp only [reduceCtorEq, not_false_eq_true])
    · rw [InactiveBlockPool.eraseEntry, AList.lookup_erase_ne hh] at hb
      exact hwf.lookup_registered h' b hb
  uninitialized_reset := hwf.uninitialized_reset

theorem Wf.takeWithSequenceHash {pool : InactiveBlockPool M} (hwf : pool.Wf)
    (h : SequenceHash) : (pool.takeWithSequenceHash h).2.Wf := by
  unfold InactiveBlockPool.takeWithSequenceHash
  split
  · next block hl => exact hwf.eraseEntry hl
  · exact hwf

theorem Wf.matchSequenceHashes {pool : InactiveBlockPool M} (hwf : pool.Wf)
    (hashes : List SequenceHash) : (pool.matchSequenceHashes hashes).2.Wf := by
  induction hashes generalizing pool with
  | nil => exact hwf
  | cons h rest ih =>
      have htake := hwf.takeWithSequenceHash h
      unfold InactiveBlockPool.matchSequenceHashes
      cases ht : pool.takeWithSequenceHash h with
      | mk block pool' =>
          rw [ht] at htake
          cases block with
          | some b => exact ih htake
          | none => exact htake

end Keys

section Hooks

variable [LinearOrder M] [BlockMetadata M]

theorem Wf.insertWithSequenceHash {pool : InactiveBlockPool M} (hwf : pool.Wf)
    {block : Block M} {h : SequenceHash} (hreg : block.state.isRegisteredWith h = true) :
    (pool.insertWithSequenceHash block h).Wf := by
  unfold InactiveBlockPool.insertWithSequenceHash
  dsimp only
  split
  · exact hwf.pushUninitialized (Block.reset_state block)
  · split
    · next hfresh => exact hwf.insertFresh hreg hfresh
    · exact hwf.pushUninitialized (Block.reset_state block)

/-- Inserting keeps the invariant whatever the block holds. -/
theorem Wf.insert {pool : InactiveBlockPool M} (hwf : pool.Wf) (block : Block M) :
    (pool.insert block).Wf := by
  unfold InactiveBlockPool.insert
  split
  · next hs => exact hwf.pushUninitialized hs
  · exact hwf.pushUninitialized (Block.reset_state block)
  · exact hwf.pushUninitialized (Block.reset_state block)
  · next handle hs =>
      refine hwf.insertWithSequenceHash ?_
      rw [hs, BlockState.isRegisteredWith_iff]
      exact ⟨handle, rfl, rfl⟩

theorem Wf.returnBlock {pool : InactiveBlockPool M} (hwf : pool.Wf) (block : Block M) :
    (pool.returnBlock block).Wf := by
  have hwf' : ({ pool with returnTick := pool.returnTick + 1 } : InactiveBlockPool M).Wf :=
    hwf.of_eq rfl rfl (List.Subset.refl _)
  exact hwf'.insert _

theorem Wf.returnBlocks {pool : InactiveBlockPool M} (hwf : pool.Wf) (blocks : List (Block M)) :
    (pool.returnBlocks blocks).Wf := by
  unfold InactiveBlockPool.returnBlocks
  -- the fold returns one block at a time, each step keeping the invariant
  induction blocks.reverse generalizing pool with
  | nil => exact hwf
  | cons b rest ih => exact ih (hwf.returnBlock b)

theorem Wf.foldl_insert {pool : InactiveBlockPool M} (hwf : pool.Wf) (blocks : List (Block M)) :
    (blocks.foldl (fun pool block => pool.insert block.reset) pool).Wf := by
  induction blocks generalizing pool with
  | nil => exact hwf
  | cons b rest ih => exact ih (hwf.insert b.reset)

theorem Wf.addBlocks {pool : InactiveBlockPool M} (hwf : pool.Wf) (blocks : List (Block M)) :
    (pool.addBlocks blocks).Wf := by
  unfold InactiveBlockPool.addBlocks
  exact (hwf.foldl_insert blocks).of_eq rfl rfl (List.Subset.refl _)

theorem Wf.addBlocksWithState {pool : InactiveBlockPool M} (hwf : pool.Wf)
    (blocks : List (Block M)) : (pool.addBlocksWithState blocks).Wf := by
  have hwf' : ({ pool with totalBlocks := pool.totalBlocks + blocks.length } :
      InactiveBlockPool M).Wf := hwf.of_eq rfl rfl (List.Subset.refl _)
  exact hwf'.returnBlocks blocks

/-! ### Acquiring -/

/-- What a step of acquiring does on a well-formed pool: it never panics; it
    hands out the first uninitialized block while there is one, and
    otherwise the reset block of the least key; with both empty it hands out
    nothing. -/
theorem acquireFreeBlock_spec {pool : InactiveBlockPool M} (hwf : pool.Wf) :
    ∃ r pool', pool.acquireFreeBlock = .ok (r, pool') ∧ pool'.Wf ∧
      pool'.availableBlocks + (if r.isSome then 1 else 0) = pool.availableBlocks ∧
      (r = none ↔ pool.availableBlocks = 0) := by
  unfold InactiveBlockPool.acquireFreeBlock
  cases hu : pool.uninitializedSet with
  | cons block rest =>
      refine ⟨_, _, rfl, hwf.of_eq rfl rfl ?_, ?_, ?_⟩
      · -- the queue lost its head
        rw [hu]
        exact List.subset_cons_self block rest
      · simp only [availableBlocks, hu, Option.isSome_some, if_true, List.length_cons]
        omega
      · simp only [reduceCtorEq, false_iff, availableBlocks, hu, List.length_cons]
        omega
  | nil =>
      cases hpop : pool.prioritySet.popFirst with
      | none =>
          refine ⟨_, _, rfl, hwf, ?_, ?_⟩
          · simp only [Option.isSome_none, Bool.false_eq_true, if_false, Nat.add_zero]
          · -- an empty set means an empty map
            have hset := Finset.popFirst_eq_none.mp hpop
            have hkeys : pool.lookupMap.keys = [] := by
              rw [List.eq_nil_iff_forall_not_mem]
              intro h hmem
              obtain ⟨b, hb⟩ := Option.isSome_iff_exists.mp (AList.lookup_isSome.mpr hmem)
              have hk := (hwf.mem_prioritySet ⟨b.metadata, h⟩).mpr ⟨b, hb, rfl⟩
              rw [hset] at hk
              exact Finset.notMem_empty _ hk
            simp only [availableBlocks, hu, hkeys, List.length_nil, Nat.add_zero]
      | some kp =>
          obtain ⟨key, prioritySet⟩ := kp
          obtain ⟨hmem, -, hrest⟩ := Finset.popFirst_eq_some hpop
          -- the least key has its block in the map
          obtain ⟨block, hl, hmeta⟩ := (hwf.mem_prioritySet key).mp hmem
          simp only [hl]
          refine ⟨_, _, rfl, ?_, ?_, ?_⟩
          · -- the popped key is the one recomputed from the block's metadata
            have hkey : key = ⟨block.metadata, key.sequenceHash⟩ := by rw [hmeta]
            refine (hwf.eraseEntry hl).of_eq rfl ?_ ?_
            · -- the two `erase`s decide equality of keys through different instances
              show prioritySet = pool.prioritySet.erase ⟨block.metadata, key.sequenceHash⟩
              rw [hrest]
              congr
              exact Subsingleton.elim _ _
            · intro b hb
              exact absurd hb List.not_mem_nil
          · have hlen := AList.length_values (pool.lookupMap.erase key.sequenceHash)
            have hperm := (AList.values_erase_perm hl).length_eq
            rw [List.length_cons, hlen, AList.length_values] at hperm
            simp only [availableBlocks, hu, Option.isSome_some, if_true]
            omega
          · have hkey : key.sequenceHash ∈ pool.lookupMap.keys :=
              AList.lookup_isSome.mp (by rw [hl]; rfl)
            have hpos := List.length_pos_of_mem hkey
            simp only [reduceCtorEq, false_iff, availableBlocks, hu, List.length_nil,
              Nat.zero_add]
            omega

/-- The loop of `acquire_free_blocks` on a well-formed pool hands out as many
    blocks as it is asked for and the pool holds, and never panics. -/
theorem acquireLoop_spec {pool : InactiveBlockPool M} (hwf : pool.Wf) (n : Nat) :
    ∃ blocks pool', pool.acquireLoop n = .ok (blocks, pool') ∧ pool'.Wf ∧
      blocks.length = min n pool.availableBlocks ∧
      pool'.availableBlocks + blocks.length = pool.availableBlocks := by
  induction n generalizing pool with
  | zero => exact ⟨[], pool, rfl, hwf, by simp only [List.length_nil, Nat.zero_min], rfl⟩
  | succ n ih =>
      obtain ⟨r, pool₁, hacq, hwf₁, hcount, hnone⟩ := acquireFreeBlock_spec hwf
      cases r with
      | none =>
          -- nothing left: the loop breaks with what it has
          have hzero := hnone.mp rfl
          refine ⟨[], pool₁, by simp only [acquireLoop, hacq, Except.ok_bind], hwf₁, ?_, ?_⟩
          · simp only [hzero, List.length_nil, Nat.min_zero]
          · simp only [Option.isSome_none, Bool.false_eq_true, if_false] at hcount
            simp only [List.length_nil, hcount]
      | some block =>
          obtain ⟨blocks, pool₂, hloop, hwf₂, hlen, hcount₂⟩ := ih hwf₁
          simp only [Option.isSome_some, if_true] at hcount
          refine ⟨block :: blocks, pool₂, ?_, hwf₂, ?_, ?_⟩
          · simp only [acquireLoop, hacq, Except.ok_bind, hloop]
          · rw [List.length_cons, hlen]
            omega
          · rw [List.length_cons]
            omega

/-- Acquiring up to the available count always succeeds with exactly that
    many blocks: the count `available_blocks` reports is what the pool can
    hand out. -/
theorem acquireFreeBlocks_of_le {pool : InactiveBlockPool M} (hwf : pool.Wf) {count : Nat}
    (hle : count ≤ pool.availableBlocks) :
    ∃ blocks pool', pool.acquireFreeBlocks count = .ok (.ok blocks, pool') ∧
      blocks.length = count ∧ pool'.Wf := by
  unfold acquireFreeBlocks
  by_cases h0 : count = 0
  · rw [if_pos h0, h0]
    exact ⟨[], pool, rfl, rfl, hwf⟩
  · rw [if_neg h0]
    obtain ⟨blocks, pool', hloop, hwf', hlen, -⟩ := acquireLoop_spec hwf count
    have hlen' : blocks.length = count := by rw [hlen]; exact Nat.min_eq_left hle
    refine ⟨blocks, pool', ?_, hlen', hwf'⟩
    simp only [gt_iff_lt, Nat.not_lt.mpr hle, if_false, hloop, Except.ok_bind, hlen', ne_eq,
      not_true_eq_false]

end Hooks

/-- The set holds one key per hash of the map. -/
theorem Wf.image_sequenceHash {pool : InactiveBlockPool M} (hwf : pool.Wf) :
    pool.prioritySet.image PriorityKey.sequenceHash = pool.lookupMap.keys.toFinset := by
  ext h
  simp only [Finset.mem_image, List.mem_toFinset]
  constructor
  · rintro ⟨k, hk, rfl⟩
    obtain ⟨b, hb, -⟩ := (hwf.mem_prioritySet k).mp hk
    exact AList.lookup_isSome.mp (by rw [hb]; rfl)
  · intro hkey
    obtain ⟨b, hb⟩ := Option.isSome_iff_exists.mp (AList.lookup_isSome.mpr hkey)
    exact ⟨⟨b.metadata, h⟩, (hwf.mem_prioritySet _).mpr ⟨b, hb, rfl⟩, rfl⟩

/-- Two keys of the set with one hash are one key: both are recomputed from
    the block the map holds under it. -/
theorem Wf.sequenceHash_injOn {pool : InactiveBlockPool M} (hwf : pool.Wf) :
    Set.InjOn PriorityKey.sequenceHash (pool.prioritySet : Set (PriorityKey M)) := by
  intro k₁ hk₁ k₂ hk₂ heq
  obtain ⟨b₁, hb₁, hmeta₁⟩ := (hwf.mem_prioritySet k₁).mp hk₁
  obtain ⟨b₂, hb₂, hmeta₂⟩ := (hwf.mem_prioritySet k₂).mp hk₂
  rw [heq, hb₂, Option.some.injEq] at hb₁
  cases k₁
  cases k₂
  simp only at heq hmeta₁ hmeta₂
  rw [← hmeta₁, ← hmeta₂, hb₁, heq]

theorem Wf.card_prioritySet {pool : InactiveBlockPool M} (hwf : pool.Wf) :
    pool.prioritySet.card = pool.lookupMap.keys.length := by
  calc pool.prioritySet.card
      = (pool.prioritySet.image PriorityKey.sequenceHash).card :=
        (Finset.card_image_of_injOn hwf.sequenceHash_injOn).symm
    _ = pool.lookupMap.keys.toFinset.card := by rw [hwf.image_sequenceHash]
    _ = pool.lookupMap.keys.length := List.toFinset_card_of_nodup pool.lookupMap.keys_nodup

/-! ### Runs -/

/-- A call on the inactive pool. -/
inductive InactiveCall (M : Type) where
  | addBlocks (blocks : List (Block M))
  | addBlocksWithState (blocks : List (Block M))
  | returnBlock (block : Block M)
  | returnBlocks (blocks : List (Block M))
  | matchSequenceHash (sequenceHash : SequenceHash)
  | matchSequenceHashes (sequenceHashes : List SequenceHash)
  | matchTokenBlocks (tokenBlocks : List TokenBlock)
  | acquireFreeBlock
  | acquireFreeBlocks (count : Nat)

section Runs

variable [LinearOrder M] [BlockMetadata M]

/-- The pool after a call; what the call returns is set aside. -/
def apply (pool : InactiveBlockPool M) : InactiveCall M → Except Abort (InactiveBlockPool M)
  | .addBlocks blocks => .ok (pool.addBlocks blocks)
  | .addBlocksWithState blocks => .ok (pool.addBlocksWithState blocks)
  | .returnBlock block => .ok (pool.returnBlock block)
  | .returnBlocks blocks => .ok (pool.returnBlocks blocks)
  | .matchSequenceHash sequenceHash => .ok (pool.matchSequenceHash sequenceHash).2
  | .matchSequenceHashes sequenceHashes => .ok (pool.matchSequenceHashes sequenceHashes).2
  | .matchTokenBlocks tokenBlocks => .ok (pool.matchTokenBlocks tokenBlocks).2
  | .acquireFreeBlock => Prod.snd <$> pool.acquireFreeBlock
  | .acquireFreeBlocks count => Prod.snd <$> pool.acquireFreeBlocks count

/-- The pool after a sequence of calls, or the panic that stopped it. -/
def runCalls (pool : InactiveBlockPool M) (calls : List (InactiveCall M)) :
    Except Abort (InactiveBlockPool M) :=
  calls.foldlM apply pool

/-- `acquire_free_blocks` keeps the invariant in every branch. -/
theorem Wf.acquireFreeBlocks {pool : InactiveBlockPool M} (hwf : pool.Wf) (count : Nat) :
    ∃ r pool', pool.acquireFreeBlocks count = .ok (r, pool') ∧ pool'.Wf := by
  unfold InactiveBlockPool.acquireFreeBlocks
  by_cases h0 : count = 0
  · rw [if_pos h0]
    exact ⟨_, _, rfl, hwf⟩
  rw [if_neg h0]
  by_cases hgt : count > pool.availableBlocks
  · simp only [hgt, if_true]
    exact ⟨_, _, rfl, hwf⟩
  · obtain ⟨blocks, pool', hloop, hwf', -⟩ := acquireLoop_spec hwf count
    simp only [hgt, if_false, hloop, Except.ok_bind]
    split
    · exact ⟨_, _, rfl, hwf'⟩
    · exact ⟨_, _, rfl, hwf'⟩

/-- One call on a well-formed pool never panics and keeps the invariant. -/
theorem Wf.apply {pool : InactiveBlockPool M} (hwf : pool.Wf) (call : InactiveCall M) :
    ∃ pool', pool.apply call = .ok pool' ∧ pool'.Wf := by
  cases call with
  | addBlocks blocks => exact ⟨_, rfl, hwf.addBlocks blocks⟩
  | addBlocksWithState blocks => exact ⟨_, rfl, hwf.addBlocksWithState blocks⟩
  | returnBlock block => exact ⟨_, rfl, hwf.returnBlock block⟩
  | returnBlocks blocks => exact ⟨_, rfl, hwf.returnBlocks blocks⟩
  | matchSequenceHash h => exact ⟨_, rfl, hwf.takeWithSequenceHash h⟩
  | matchSequenceHashes hs => exact ⟨_, rfl, hwf.matchSequenceHashes hs⟩
  | matchTokenBlocks tbs => exact ⟨_, rfl, hwf.matchSequenceHashes _⟩
  | acquireFreeBlock =>
      obtain ⟨r, pool', hacq, hwf', -⟩ := acquireFreeBlock_spec hwf
      exact ⟨pool', by simp only [InactiveBlockPool.apply, hacq]; rfl, hwf'⟩
  | acquireFreeBlocks count =>
      obtain ⟨r, pool', hacq, hwf'⟩ := hwf.acquireFreeBlocks count
      exact ⟨pool', by simp only [InactiveBlockPool.apply, hacq]; rfl, hwf'⟩

/-- A run from a well-formed pool never panics and keeps the invariant: the
    run lemma, by induction on the calls. -/
theorem Wf.runCalls {pool : InactiveBlockPool M} (hwf : pool.Wf) (calls : List (InactiveCall M)) :
    ∃ pool', pool.runCalls calls = .ok pool' ∧ pool'.Wf := by
  induction calls generalizing pool with
  | nil => exact ⟨pool, rfl, hwf⟩
  | cons call rest ih =>
      obtain ⟨pool₁, happly, hwf₁⟩ := hwf.apply call
      obtain ⟨pool₂, hrun, hwf₂⟩ := ih hwf₁
      refine ⟨pool₂, ?_, hwf₂⟩
      simp only [InactiveBlockPool.runCalls, List.foldlM_cons, happly, Except.ok_bind]
      exact hrun

theorem inactiveBlockPool_wf (calls : List (InactiveCall M)) :
    ∃ pool, (new : InactiveBlockPool M).runCalls calls = .ok pool ∧
      pool.prioritySet.image PriorityKey.sequenceHash = pool.lookupMap.keys.toFinset ∧
      pool.prioritySet.card = pool.lookupMap.keys.length ∧
      (∀ h block, pool.lookupMap.lookup h = some block →
        (⟨block.metadata, h⟩ : PriorityKey M) ∈ pool.prioritySet) ∧
      (∀ h block, pool.lookupMap.lookup h = some block →
        ∃ handle, block.state = .registered handle ∧ handle.sequenceHash = h) ∧
      (∀ block ∈ pool.uninitializedSet, block.state = .reset) ∧
      (∀ count, count ≤ pool.availableBlocks →
        ∃ blocks pool', pool.acquireFreeBlocks count = .ok (.ok blocks, pool') ∧
          blocks.length = count) := by
  obtain ⟨pool, hrun, hwf⟩ := wf_new.runCalls calls
  refine ⟨pool, hrun, hwf.image_sequenceHash, hwf.card_prioritySet, ?_, ?_,
    hwf.uninitialized_reset, ?_⟩
  · intro h block hl
    exact (hwf.mem_prioritySet _).mpr ⟨block, hl, rfl⟩
  · intro h block hl
    obtain ⟨handle, hhandle, hh⟩ :=
      BlockState.isRegisteredWith_iff.mp (hwf.lookup_registered h block hl)
    refine ⟨handle, ?_, hh⟩
    cases hs : block.state with
    | registered hd =>
        rw [hs, BlockState.registeredHandle_registered, Option.some.injEq] at hhandle
        rw [hhandle]
    | _ => rw [hs] at hhandle; cases hhandle
  · intro count hle
    obtain ⟨blocks, pool', hacq, hlen, -⟩ := acquireFreeBlocks_of_le hwf hle
    exact ⟨blocks, pool', hacq, hlen⟩

end Runs

end InactiveBlockPool

end BlockManager

end Dynamo
