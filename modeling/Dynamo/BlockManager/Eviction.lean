import Dynamo.BlockManager.Inactive

/-!
# The Eviction Order of the Inactive Pool

In what order `acquire_free_blocks` hands out the blocks of the inactive
pool. `acquire_free_block` takes the front of `uninitialized_set` while it
has one, and otherwise pops the least key of `priority_set`, whose order is
the metadata's and then the sequence hash's, and takes and resets the block
the map holds under that key's hash. `evictionOrder` is the list this
describes: the uninitialized blocks from the front, then the map's blocks by
ascending key.

On a well-formed pool, one `acquire_free_block` takes the head of that list
and leaves a pool whose list is its tail (`acquireFreeBlock_evictionOrder`);
the list holds every block of the pool once (`evictionOrder_perm_blocks`).
So `acquire_free_blocks n` either refuses with the pool untouched, when `n`
is above what the pool holds, or returns the first `n` blocks of the list,
reset, and leaves the rest: `inactiveBlockPool_eviction_order`, for every
pool a run of calls reaches.

## Main definitions

* `InactiveBlockPool.evictionOrder`: The order blocks leave the pool in.

## Theorems

* `InactiveBlockPool.Wf.evictionOrder_perm_blocks`: The order lists each
  block of the pool once.
* `InactiveBlockPool.Wf.length_evictionOrder`: It has as many blocks as the
  pool has available.
* `InactiveBlockPool.acquireFreeBlock_evictionOrder`: One acquisition takes
  the head of the order.
* `InactiveBlockPool.acquireLoop_evictionOrder`: The loop takes a prefix.
* `InactiveBlockPool.inactiveBlockPool_eviction_order`: All or nothing, in
  the eviction order.
-/

namespace Dynamo

namespace BlockManager

open Tokens

namespace InactiveBlockPool

variable {M : Type} [LinearOrder M]

/-- The order blocks leave the pool in: the uninitialized ones from the
    front, then those of the map by ascending priority key. -/
def evictionOrder (pool : InactiveBlockPool M) : List (Block M) :=
  pool.uninitializedSet ++
    pool.prioritySet.sort.filterMap fun key => pool.lookupMap.lookup key.sequenceHash

/-- The keys of the set, in order, name the hashes of the map once each. -/
theorem Wf.sort_map_sequenceHash_perm {pool : InactiveBlockPool M} (hwf : pool.Wf) :
    (pool.prioritySet.sort.map PriorityKey.sequenceHash).Perm pool.lookupMap.keys := by
  have hnodup : (pool.prioritySet.sort.map PriorityKey.sequenceHash).Nodup :=
    (Finset.sort_nodup _ _).map_on fun k₁ hk₁ k₂ hk₂ heq =>
      hwf.sequenceHash_injOn (Finset.mem_sort _ |>.mp hk₁) (Finset.mem_sort _ |>.mp hk₂) heq
  refine List.perm_of_nodup_nodup_toFinset_eq hnodup pool.lookupMap.keys_nodup ?_
  rw [← hwf.image_sequenceHash]
  ext h
  simp only [List.mem_toFinset, List.mem_map, Finset.mem_sort, Finset.mem_image]

/-- The eviction order lists each block of the pool once. -/
theorem Wf.evictionOrder_perm_blocks {pool : InactiveBlockPool M} (hwf : pool.Wf) :
    pool.evictionOrder.Perm pool.blocks := by
  unfold evictionOrder blocks
  -- the map's blocks by key are its values, in another order
  have hmap : (pool.prioritySet.sort.filterMap fun key => pool.lookupMap.lookup key.sequenceHash).Perm
      pool.lookupMap.values := by
    have hcomp : (pool.prioritySet.sort.filterMap fun key => pool.lookupMap.lookup key.sequenceHash) =
        (pool.prioritySet.sort.map PriorityKey.sequenceHash).filterMap pool.lookupMap.lookup :=
      (List.filterMap_map (f := PriorityKey.sequenceHash) (g := pool.lookupMap.lookup)).symm
    rw [← AList.filterMap_lookup_keys, hcomp]
    exact hwf.sort_map_sequenceHash_perm.filterMap _
  exact List.perm_append_comm.trans (hmap.append_right _)

theorem Wf.length_evictionOrder {pool : InactiveBlockPool M} (hwf : pool.Wf) :
    pool.evictionOrder.length = pool.availableBlocks := by
  rw [hwf.evictionOrder_perm_blocks.length_eq]
  unfold blocks availableBlocks
  rw [List.length_append, AList.length_values, Nat.add_comm]

variable [BlockMetadata M]

/-- One `acquire_free_block` on a well-formed pool: nothing when the order is
    empty, and otherwise its head, reset, with the tail left as the pool's
    order. -/
theorem acquireFreeBlock_evictionOrder {pool : InactiveBlockPool M} (hwf : pool.Wf) :
    (pool.evictionOrder = [] ∧ pool.acquireFreeBlock = .ok (none, pool)) ∨
    ∃ b rest b' pool', pool.evictionOrder = b :: rest ∧
      pool.acquireFreeBlock = .ok (some b', pool') ∧ b'.data = b.data ∧
      b'.state = .reset ∧ pool'.Wf ∧ pool'.evictionOrder = rest := by
  obtain ⟨r, pool', hacq, hwf', -, -⟩ := acquireFreeBlock_spec hwf
  have hresult := hacq
  unfold acquireFreeBlock at hacq
  cases hu : pool.uninitializedSet with
  | cons block rest =>
    -- the front of the queue, whose state is already reset
    rw [hu] at hacq
    dsimp only at hacq
    cases hacq
    refine Or.inr ⟨block, rest ++ _, _, _, ?_, hresult, Block.metadataOnAcquired_data _ _, ?_,
      hwf', rfl⟩
    · unfold evictionOrder
      rw [hu, List.cons_append]
    · rw [Block.metadataOnAcquired_state]
      exact hwf.uninitialized_reset block (by rw [hu]; exact List.mem_cons_self)
  | nil =>
    rw [hu] at hacq
    dsimp only at hacq
    cases hpop : pool.prioritySet.popFirst with
    | none =>
      have hset := Finset.popFirst_eq_none.mp hpop
      rw [hpop] at hacq
      cases hacq
      refine Or.inl ⟨?_, hresult⟩
      unfold evictionOrder
      rw [hu, hset, Finset.sort_empty, List.filterMap_nil, List.nil_append]
    | some kp =>
      obtain ⟨key, prioritySet⟩ := kp
      rw [hpop] at hacq
      dsimp only at hacq
      obtain ⟨hmem, -, -⟩ := Finset.popFirst_eq_some hpop
      obtain ⟨block, hl, -⟩ := (hwf.mem_prioritySet key).mp hmem
      rw [hl] at hacq
      dsimp only at hacq
      cases hacq
      refine Or.inr ⟨block, prioritySet.sort.filterMap fun k => pool.lookupMap.lookup k.sequenceHash,
        _, _, ?_, hresult, by simp only [Block.metadataOnAcquired_data,
        Block.reset_data], by rw [Block.metadataOnAcquired_state, Block.reset_state], hwf', ?_⟩
      · unfold evictionOrder
        rw [hu, Finset.sort_of_popFirst hpop, List.filterMap_cons, hl, List.nil_append]
      · -- the other keys have other hashes, so erasing the popped one leaves their blocks
        unfold evictionOrder
        dsimp only
        rw [List.nil_append]
        refine List.filterMap_congr fun k hk => ?_
        obtain ⟨hk', hne⟩ := Finset.mem_of_popFirst hpop ((Finset.mem_sort _).mp hk)
        have hne : k.sequenceHash ≠ key.sequenceHash := fun heq =>
          hne (hwf.sequenceHash_injOn hk' hmem heq)
        exact AList.lookup_erase_ne hne

/-- The loop of `acquire_free_blocks` takes a prefix of the eviction order,
    as long as it is asked for and the order has, and leaves the rest. -/
theorem acquireLoop_evictionOrder {pool : InactiveBlockPool M} (hwf : pool.Wf) (n : Nat) :
    ∃ blocks pool', pool.acquireLoop n = .ok (blocks, pool') ∧
      blocks.map Block.data = (pool.evictionOrder.take n).map Block.data ∧
      (∀ b ∈ blocks, b.state = .reset) ∧ pool'.Wf ∧
      pool'.evictionOrder = pool.evictionOrder.drop n := by
  induction n generalizing pool with
  | zero => exact ⟨[], pool, rfl, rfl, fun _ hb => absurd hb List.not_mem_nil, hwf, rfl⟩
  | succ n ih =>
    rcases acquireFreeBlock_evictionOrder hwf with ⟨hnil, hacq⟩ | ⟨b, rest, b', pool₁, hord,
      hacq, hdata, hstate, hwf₁, hord₁⟩
    · -- the pool is empty: the loop breaks with nothing
      refine ⟨[], pool, ?_, by rw [hnil]; rfl, fun _ hb => absurd hb List.not_mem_nil, hwf,
        by rw [hnil]; rfl⟩
      simp only [acquireLoop, hacq, Except.ok_bind]
    · obtain ⟨blocks, pool', hloop, hdata', hstate', hwf', hord'⟩ := ih hwf₁
      refine ⟨b' :: blocks, pool', ?_, ?_, ?_, hwf', ?_⟩
      · simp only [acquireLoop, hacq, Except.ok_bind, hloop]
      · rw [hord, List.take_succ_cons, List.map_cons, List.map_cons, hdata, ← hord₁, hdata']
      · intro x hx
        rcases List.mem_cons.mp hx with rfl | hx
        · exact hstate
        · exact hstate' x hx
      · rw [hord', hord₁, hord, List.drop_succ_cons]

/-- Eviction order and all-or-nothing acquisition. For every pool a run of
    calls reaches from `InactiveBlockPool::new` and every count `n`:
    `acquire_free_blocks n` refuses with `NotEnoughBlocksAvailable` and the
    pool untouched exactly when `n` is above `available_blocks()`; otherwise
    it returns `n` blocks, reset, which are the first `n` of the eviction
    order (the uninitialized blocks from the front, then the map's by
    ascending priority key), an order that lists each block of the pool
    once, and leaves a pool whose order is the rest, with `n` fewer blocks
    available. -/
theorem inactiveBlockPool_eviction_order {pool : InactiveBlockPool M}
    (calls : List (InactiveCall M)) (hrun : (new : InactiveBlockPool M).runCalls calls = .ok pool)
    (n : Nat) :
    pool.evictionOrder.Perm pool.blocks ∧
    ((∃ e, pool.acquireFreeBlocks n = .ok (.error e, pool)) ↔ n > pool.availableBlocks) ∧
    (n > pool.availableBlocks →
      pool.acquireFreeBlocks n = .ok (.error (.notEnoughBlocksAvailable n pool.availableBlocks), pool)) ∧
    (n ≤ pool.availableBlocks →
      ∃ blocks pool', pool.acquireFreeBlocks n = .ok (.ok blocks, pool') ∧
        blocks.length = n ∧ (∀ b ∈ blocks, b.state = .reset) ∧
        blocks.map Block.data = (pool.evictionOrder.take n).map Block.data ∧
        pool'.evictionOrder = pool.evictionOrder.drop n ∧
        pool'.availableBlocks + n = pool.availableBlocks) := by
  have hwf : pool.Wf := by
    obtain ⟨pool₀, hrun₀, hwf₀⟩ := wf_new.runCalls calls
    rw [hrun₀] at hrun
    cases hrun
    exact hwf₀
  -- the refusal, when the pool holds too few blocks
  have hrefuse : n > pool.availableBlocks →
      pool.acquireFreeBlocks n = .ok (.error (.notEnoughBlocksAvailable n pool.availableBlocks), pool) := by
    intro hgt
    unfold acquireFreeBlocks
    rw [if_neg (by omega), if_pos hgt]
  -- the prefix of the order, when it holds enough
  have htake : n ≤ pool.availableBlocks →
      ∃ blocks pool', pool.acquireFreeBlocks n = .ok (.ok blocks, pool') ∧
        blocks.length = n ∧ (∀ b ∈ blocks, b.state = .reset) ∧
        blocks.map Block.data = (pool.evictionOrder.take n).map Block.data ∧
        pool'.evictionOrder = pool.evictionOrder.drop n ∧
        pool'.availableBlocks + n = pool.availableBlocks := by
    intro hle
    obtain ⟨blocks, pool', hloop, hdata, hstate, hwf', hord⟩ := acquireLoop_evictionOrder hwf n
    have hlen : blocks.length = n := by
      rw [← List.length_map Block.data, hdata, List.length_map, List.length_take,
        hwf.length_evictionOrder]
      exact Nat.min_eq_left hle
    have havail : pool'.availableBlocks + n = pool.availableBlocks := by
      rw [← hwf'.length_evictionOrder, hord, List.length_drop, hwf.length_evictionOrder]
      omega
    refine ⟨blocks, pool', ?_, hlen, hstate, hdata, hord, havail⟩
    unfold acquireFreeBlocks
    by_cases h0 : n = 0
    · subst h0
      rw [if_pos rfl, List.length_eq_zero_iff.mp hlen]
      rw [acquireLoop] at hloop
      cases hloop
      rfl
    · rw [if_neg h0, if_neg (Nat.not_lt.mpr hle)]
      simp only [hloop, Except.ok_bind, hlen, ne_eq, not_true_eq_false, if_false]
  refine ⟨hwf.evictionOrder_perm_blocks, ⟨fun herror => ?_, fun hgt => ⟨_, hrefuse hgt⟩⟩,
    hrefuse, htake⟩
  -- a refusal with the pool untouched cannot come from the prefix
  obtain ⟨e, he⟩ := herror
  by_contra hle
  obtain ⟨blocks, pool', hok, -⟩ := htake (Nat.not_lt.mp hle)
  rw [hok] at he
  cases he

/-- A pool that took three blocks, handed two out and had them returned
    registered holds one uninitialized block and two in the map; two of its
    three blocks are then acquired. -/
theorem inactiveBlockPool_eviction_order_returned :
    ∃ pool : InactiveBlockPool BasicMetadata,
      (new : InactiveBlockPool BasicMetadata).runCalls
        [.addBlocks [⟨⟨0, 16⟩, ⟨0, 0, 0⟩, .reset⟩, ⟨⟨1, 16⟩, ⟨0, 0, 0⟩, .reset⟩,
            ⟨⟨2, 16⟩, ⟨0, 0, 0⟩, .reset⟩],
          .acquireFreeBlocks 2,
          .returnBlock ⟨⟨1, 16⟩, ⟨0, 0, 0⟩, .registered ⟨1, 7, 11, none⟩⟩,
          .returnBlock ⟨⟨0, 16⟩, ⟨0, 0, 0⟩, .registered ⟨0, 6, 10, none⟩⟩] = .ok pool ∧
      pool.uninitializedSet.length = 1 ∧ pool.lookupMap.keys.length = 2 ∧
      pool.evictionOrder.Perm pool.blocks ∧
      ((∃ e, pool.acquireFreeBlocks 2 = .ok (.error e, pool)) ↔ 2 > pool.availableBlocks) ∧
      (2 > pool.availableBlocks →
        pool.acquireFreeBlocks 2 =
          .ok (.error (.notEnoughBlocksAvailable 2 pool.availableBlocks), pool)) ∧
      (2 ≤ pool.availableBlocks →
        ∃ blocks pool', pool.acquireFreeBlocks 2 = .ok (.ok blocks, pool') ∧
          blocks.length = 2 ∧ (∀ b ∈ blocks, b.state = .reset) ∧
          blocks.map Block.data = (pool.evictionOrder.take 2).map Block.data ∧
          pool'.evictionOrder = pool.evictionOrder.drop 2 ∧
          pool'.availableBlocks + 2 = pool.availableBlocks) := by
  have hrun : (new : InactiveBlockPool BasicMetadata).runCalls
      [.addBlocks [⟨⟨0, 16⟩, ⟨0, 0, 0⟩, .reset⟩, ⟨⟨1, 16⟩, ⟨0, 0, 0⟩, .reset⟩,
          ⟨⟨2, 16⟩, ⟨0, 0, 0⟩, .reset⟩],
        .acquireFreeBlocks 2,
        .returnBlock ⟨⟨1, 16⟩, ⟨0, 0, 0⟩, .registered ⟨1, 7, 11, none⟩⟩,
        .returnBlock ⟨⟨0, 16⟩, ⟨0, 0, 0⟩, .registered ⟨0, 6, 10, none⟩⟩] = .ok _ := rfl
  exact ⟨_, hrun, by decide, by decide, inactiveBlockPool_eviction_order _ hrun 2⟩

end InactiveBlockPool

end BlockManager

end Dynamo
