import Dynamo.BlockManager.Pool

/-!
# Where the Blocks Go

Every operation of the pool moves blocks between the places that hold them,
and some reset a block on the way; none makes or destroys a block, and only
the registry gives a block a handle. This module says so for each piece the
operations are built from, so that the invariants can be carried through
them without looking inside.

A block is followed by its `data`, which no operation changes; a handle by
itself. `Block.Evolves b b'` says that `b'` is `b` after an operation: the
same data, and the same handle or none. `Pool.Evolved l l'` lifts that to the
lists of all blocks before and after: the indices are a permutation of each
other, and the handles after are a sub-multiset of the handles before.

## Main definitions

* `Block.Evolves`: A block after an operation that may reset it.
* `Pool.Evolved`: All blocks after an operation that moves and resets them.

## Theorems

* `InactiveBlockPool.blocks_insert`, `InactiveBlockPool.blocks_returnBlock`:
  Inserting keeps the block, possibly reset.
* `InactiveBlockPool.blocks_acquireFreeBlock`: Acquiring takes one block out.
* `Pool.blocks_activeRegister`: Registering in the active pool keeps the
  block, in a cell or on the channel.
* `Pool.returnBlock_evolved`: Returning a block keeps it, possibly reset.
-/

namespace Dynamo

namespace BlockManager

open Tokens

namespace Block

variable {M : Type}

/-- `b'` is `b` after an operation: the same data, and the same handle or
    none. -/
def Evolves (b b' : Block M) : Prop :=
  b'.data = b.data ∧
    (b'.state.registeredHandle = b.state.registeredHandle ∨ b'.state.registeredHandle = none)

theorem Evolves.refl (b : Block M) : b.Evolves b := ⟨rfl, Or.inl rfl⟩

theorem Evolves.trans {b₁ b₂ b₃ : Block M} (h₁ : b₁.Evolves b₂) (h₂ : b₂.Evolves b₃) :
    b₁.Evolves b₃ := by
  refine ⟨h₂.1.trans h₁.1, ?_⟩
  rcases h₂.2 with h | h
  · rw [h]
    exact h₁.2
  · exact Or.inr h

theorem Evolves.of_state {b b' : Block M} (hd : b'.data = b.data) (hs : b'.state = b.state) :
    b.Evolves b' := ⟨hd, Or.inl (by rw [hs])⟩

theorem evolves_reset [BlockMetadata M] (b : Block M) : b.Evolves b.reset :=
  ⟨rfl, Or.inr rfl⟩

theorem evolves_metadataOnReturned [BlockMetadata M] (b : Block M) (t : Nat) :
    b.Evolves (b.metadataOnReturned t) := Evolves.of_state rfl rfl

theorem evolves_metadataOnAcquired [BlockMetadata M] (b : Block M) (t : Nat) :
    b.Evolves (b.metadataOnAcquired t) := Evolves.of_state rfl rfl

end Block

namespace Pool

variable {M : Type}

/-- The indices of a list of blocks. -/
def indices (l : List (Block M)) : List Nat :=
  l.map fun block => block.data.blockIdx

@[simp]
theorem handlesOf_nil : handlesOf ([] : List (Block M)) = [] := rfl

@[simp]
theorem handlesOf_append (l l' : List (Block M)) :
    handlesOf (l ++ l') = handlesOf l ++ handlesOf l' := List.filterMap_append

theorem handlesOf_cons (b : Block M) (l : List (Block M)) :
    handlesOf (b :: l) = b.state.registeredHandle.toList ++ handlesOf l := by
  unfold handlesOf
  cases h : b.state.registeredHandle with
  | none => simp only [List.filterMap_cons, h, Option.toList_none, List.nil_append]
  | some hd => simp only [List.filterMap_cons, h, Option.toList_some, List.singleton_append]

theorem mem_handlesOf {l : List (Block M)} {hd : RegistrationHandle} :
    hd ∈ handlesOf l ↔ ∃ b ∈ l, b.state.registeredHandle = some hd := by
  unfold handlesOf
  exact List.mem_filterMap

theorem handlesOf_perm {l l' : List (Block M)} (h : l.Perm l') :
    (handlesOf l).Perm (handlesOf l') :=
  h.filterMap _

/-- All blocks after an operation: the same indices, and no handle that was
    not there before. -/
def Evolved (l l' : List (Block M)) : Prop :=
  (indices l').Perm (indices l) ∧ (handlesOf l').Subperm (handlesOf l)

theorem Evolved.refl (l : List (Block M)) : Evolved l l :=
  ⟨List.Perm.refl _, List.Subperm.refl _⟩

theorem Evolved.trans {l₁ l₂ l₃ : List (Block M)} (h₁ : Evolved l₁ l₂) (h₂ : Evolved l₂ l₃) :
    Evolved l₁ l₃ :=
  ⟨h₂.1.trans h₁.1, h₂.2.trans h₁.2⟩

theorem Evolved.of_perm {l l' : List (Block M)} (h : l'.Perm l) : Evolved l l' :=
  ⟨h.map _, (handlesOf_perm h).subperm⟩

theorem Evolved.perm_left {l₁ l₂ l₃ : List (Block M)} (h : l₂.Perm l₁) (h' : Evolved l₂ l₃) :
    Evolved l₁ l₃ :=
  (Evolved.of_perm h).trans h'

theorem Evolved.perm_right {l₁ l₂ l₃ : List (Block M)} (h' : Evolved l₁ l₂) (h : l₃.Perm l₂) :
    Evolved l₁ l₃ :=
  h'.trans (Evolved.of_perm h)

theorem Evolved.cons {b b' : Block M} {l l' : List (Block M)} (hb : b.Evolves b')
    (h : Evolved l l') : Evolved (b :: l) (b' :: l') := by
  refine ⟨?_, ?_⟩
  · simp only [indices, List.map_cons, hb.1]
    exact List.Perm.cons _ h.1
  · rw [handlesOf_cons, handlesOf_cons]
    rcases hb.2 with hh | hh
    · rw [hh]
      exact List.Subperm.append (List.Subperm.refl _) h.2
    · rw [hh, Option.toList_none, List.nil_append]
      exact h.2.trans (List.sublist_append_right _ _).subperm

theorem Evolved.append {l₁ l₁' l₂ l₂' : List (Block M)} (h₁ : Evolved l₁ l₁')
    (h₂ : Evolved l₂ l₂') : Evolved (l₁ ++ l₂) (l₁' ++ l₂') := by
  refine ⟨?_, ?_⟩
  · simp only [indices, List.map_append]
    exact List.Perm.append h₁.1 h₂.1
  · rw [handlesOf_append, handlesOf_append]
    exact List.Subperm.append h₁.2 h₂.2

theorem Evolved.length_eq {l l' : List (Block M)} (h : Evolved l l') : l'.length = l.length := by
  have := h.1.length_eq
  simp only [indices, List.length_map] at this
  exact this

/-- One block evolves in place. -/
theorem evolved_of_evolves {b b' : Block M} {l l₁ l₂ : List (Block M)} (hb : b.Evolves b')
    (h₁ : l₁.Perm (b :: l)) (h₂ : l₂.Perm (b' :: l)) : Evolved l₁ l₂ :=
  ((Evolved.cons hb (Evolved.refl l)).perm_left h₁.symm).perm_right h₂

end Pool

namespace InactiveBlockPool

variable {M : Type}

theorem blocks_pushUninitialized (pool : InactiveBlockPool M) (b : Block M) :
    (pool.pushUninitialized b).blocks.Perm (b :: pool.blocks) := by
  simp only [blocks, pushUninitialized, ← List.append_assoc]
  exact List.perm_append_singleton _ _

theorem blocks_eraseEntry [LinearOrder M] {pool : InactiveBlockPool M} {h : SequenceHash}
    {b : Block M} (hl : pool.lookupMap.lookup h = some b) :
    pool.blocks.Perm (b :: (pool.eraseEntry h b).blocks) := by
  simp only [blocks, eraseEntry]
  exact (AList.values_erase_perm hl).append_right _

theorem blocks_takeWithSequenceHash [LinearOrder M] {pool pool' : InactiveBlockPool M}
    {h : SequenceHash} {r : Option (Block M)} (ht : pool.takeWithSequenceHash h = (r, pool')) :
    (r = none ∧ pool' = pool) ∨ (∃ b, r = some b ∧ pool.lookupMap.lookup h = some b ∧
      pool' = pool.eraseEntry h b ∧ pool.blocks.Perm (b :: pool'.blocks)) := by
  unfold takeWithSequenceHash at ht
  cases hl : pool.lookupMap.lookup h with
  | none =>
      rw [hl, Prod.mk.injEq] at ht
      exact Or.inl ⟨ht.1.symm, ht.2.symm⟩
  | some b =>
      rw [hl, Prod.mk.injEq] at ht
      obtain ⟨rfl, rfl⟩ := ht
      exact Or.inr ⟨b, rfl, rfl, rfl, blocks_eraseEntry hl⟩

/-- A take that finds nothing: the map holds no entry of the hash. -/
theorem takeWithSequenceHash_none [LinearOrder M] {pool pool' : InactiveBlockPool M}
    {h : SequenceHash} (ht : pool.takeWithSequenceHash h = (none, pool')) :
    pool.lookupMap.lookup h = none := by
  unfold takeWithSequenceHash at ht
  cases hl : pool.lookupMap.lookup h with
  | none => rfl
  | some b =>
      rw [hl] at ht
      cases ht

variable [LinearOrder M] [BlockMetadata M]

/-- Inserting keeps the block, as it is or reset. -/
theorem blocks_insertWithSequenceHash (pool : InactiveBlockPool M) (b : Block M)
    (h : SequenceHash) :
    ∃ b', b.Evolves b' ∧ (pool.insertWithSequenceHash b h).blocks.Perm (b' :: pool.blocks) := by
  unfold insertWithSequenceHash
  dsimp only
  split
  · exact ⟨b.reset, Block.evolves_reset b, blocks_pushUninitialized _ _⟩
  · split
    · next hfresh =>
        refine ⟨b, Block.Evolves.refl b, ?_⟩
        simp only [blocks, AList.values_insert, AList.values_erase_of_not_mem hfresh,
          List.cons_append, List.Perm.refl]
    · exact ⟨b.reset, Block.evolves_reset b, blocks_pushUninitialized _ _⟩

theorem blocks_insert (pool : InactiveBlockPool M) (b : Block M) :
    ∃ b', b.Evolves b' ∧ (pool.insert b).blocks.Perm (b' :: pool.blocks) := by
  unfold insert
  split
  · exact ⟨b, Block.Evolves.refl b, blocks_pushUninitialized _ _⟩
  · exact ⟨b.reset, Block.evolves_reset b, blocks_pushUninitialized _ _⟩
  · exact ⟨b.reset, Block.evolves_reset b, blocks_pushUninitialized _ _⟩
  · exact blocks_insertWithSequenceHash _ _ _

theorem blocks_returnBlock (pool : InactiveBlockPool M) (b : Block M) :
    ∃ b', b.Evolves b' ∧ (pool.returnBlock b).blocks.Perm (b' :: pool.blocks) := by
  obtain ⟨b', hb', hperm⟩ := blocks_insert
    ({ pool with returnTick := pool.returnTick + 1 } : InactiveBlockPool M)
    (b.metadataOnReturned (pool.returnTick + 1))
  exact ⟨b', (Block.evolves_metadataOnReturned b _).trans hb', hperm⟩

@[simp]
theorem totalBlocks_insertWithSequenceHash (pool : InactiveBlockPool M) (b : Block M)
    (h : SequenceHash) : (pool.insertWithSequenceHash b h).totalBlocks = pool.totalBlocks := by
  unfold insertWithSequenceHash
  dsimp only
  split
  · rfl
  · split <;> rfl

@[simp]
theorem totalBlocks_insert (pool : InactiveBlockPool M) (b : Block M) :
    (pool.insert b).totalBlocks = pool.totalBlocks := by
  unfold insert
  split
  all_goals first | rfl | exact totalBlocks_insertWithSequenceHash _ _ _

@[simp]
theorem totalBlocks_returnBlock (pool : InactiveBlockPool M) (b : Block M) :
    (pool.returnBlock b).totalBlocks = pool.totalBlocks :=
  totalBlocks_insert _ _

/-- An entry of the map stays when a block is inserted: a new entry is only
    made under a hash the map does not hold. -/
@[simp]
theorem totalBlocks_addBlocks (pool : InactiveBlockPool M) (bs : List (Block M)) :
    (pool.addBlocks bs).totalBlocks = pool.totalBlocks + bs.length := by
  unfold addBlocks
  -- the fold inserts without counting
  have hfold : ∀ pool : InactiveBlockPool M,
      (bs.foldl (fun pool block => pool.insert block.reset) pool).totalBlocks = pool.totalBlocks := by
    induction bs with
    | nil => exact fun _ => rfl
    | cons b rest ih => exact fun pool => (ih (pool.insert b.reset)).trans (totalBlocks_insert _ _)
  dsimp only
  rw [hfold]

theorem lookup_insertWithSequenceHash {pool : InactiveBlockPool M} {b x : Block M}
    {h k : SequenceHash} (hl : pool.lookupMap.lookup h = some x) :
    (pool.insertWithSequenceHash b k).lookupMap.lookup h = some x := by
  unfold insertWithSequenceHash
  dsimp only
  split
  · exact hl
  · split
    · next hfresh =>
        have hne : h ≠ k := by
          rintro rfl
          exact hfresh (AList.lookup_isSome.mp (by rw [hl]; rfl))
        rw [AList.lookup_insert_ne hne]
        exact hl
    · exact hl

theorem lookup_insert_of_lookup {pool : InactiveBlockPool M} {b x : Block M} {h : SequenceHash}
    (hl : pool.lookupMap.lookup h = some x) : (pool.insert b).lookupMap.lookup h = some x := by
  unfold insert
  split
  all_goals first | exact hl | exact lookup_insertWithSequenceHash hl

theorem lookup_returnBlock {pool : InactiveBlockPool M} {b x : Block M} {h : SequenceHash}
    (hl : pool.lookupMap.lookup h = some x) : (pool.returnBlock b).lookupMap.lookup h = some x :=
  -- the tick moves on first, and leaves the map as it is
  lookup_insert_of_lookup
    (show ({ pool with returnTick := pool.returnTick + 1 } : InactiveBlockPool M).lookupMap.lookup h =
      some x from hl)

/-- A registered block whose hash the map does not hold is returned into the
    map as it is. -/
theorem returnBlock_of_fresh {pool : InactiveBlockPool M} (hwf : pool.Wf) {b : Block M}
    {hd : RegistrationHandle} (hb : b.state = .registered hd)
    (hfresh : hd.sequenceHash ∉ pool.lookupMap) :
    (pool.returnBlock b).lookupMap =
        pool.lookupMap.insert hd.sequenceHash (b.metadataOnReturned (pool.returnTick + 1)) ∧
      (pool.returnBlock b).blocks.Perm (b.metadataOnReturned (pool.returnTick + 1) :: pool.blocks) := by
  -- no key of the set has the block's hash
  have hkey : (⟨(b.metadataOnReturned (pool.returnTick + 1)).metadata, hd.sequenceHash⟩ :
      PriorityKey M) ∉ pool.prioritySet := by
    intro hmem
    obtain ⟨x, hx, -⟩ := (hwf.mem_prioritySet _).mp hmem
    exact hfresh (AList.lookup_isSome.mp (by rw [hx]; rfl))
  have heq : pool.returnBlock b =
      { pool with returnTick := pool.returnTick + 1,
                  prioritySet := Insert.insert ⟨(b.metadataOnReturned (pool.returnTick + 1)).metadata,
                    hd.sequenceHash⟩ pool.prioritySet,
                  lookupMap := pool.lookupMap.insert hd.sequenceHash
                    (b.metadataOnReturned (pool.returnTick + 1)) } := by
    simp only [returnBlock, insert, Block.metadataOnReturned_state, hb, insertWithSequenceHash]
    rw [if_neg hkey, if_pos hfresh]
  rw [heq]
  refine ⟨rfl, ?_⟩
  simp only [blocks, AList.values_insert, AList.values_erase_of_not_mem hfresh, List.cons_append,
    List.Perm.refl]

/-- Acquiring takes one block out and hands it over reset, or hands out
    nothing. -/
theorem blocks_acquireFreeBlock {pool pool' : InactiveBlockPool M} {r : Option (Block M)}
    (hwf : pool.Wf) (hacq : pool.acquireFreeBlock = .ok (r, pool')) :
    (r = none ∧ pool' = pool) ∨
      ∃ b b', r = some b' ∧ b.Evolves b' ∧ b'.state = .reset ∧
        pool.blocks.Perm (b :: pool'.blocks) := by
  unfold acquireFreeBlock at hacq
  cases hu : pool.uninitializedSet with
  | cons block rest =>
      -- an uninitialized block, reset already
      rw [hu] at hacq
      simp only [Except.ok.injEq, Prod.mk.injEq] at hacq
      obtain ⟨rfl, rfl⟩ := hacq
      have hreset := hwf.uninitialized_reset block (by rw [hu]; exact List.mem_cons_self)
      refine Or.inr ⟨block, _, rfl, Block.evolves_metadataOnAcquired block _, hreset, ?_⟩
      simp only [blocks, hu]
      exact List.perm_middle
  | nil =>
      rw [hu] at hacq
      dsimp only at hacq
      cases hpop : pool.prioritySet.popFirst with
      | none =>
          rw [hpop] at hacq
          simp only [Except.ok.injEq, Prod.mk.injEq] at hacq
          exact Or.inl ⟨hacq.1.symm, hacq.2.symm⟩
      | some kp =>
          obtain ⟨key, prioritySet⟩ := kp
          rw [hpop] at hacq
          dsimp only at hacq
          cases hl : pool.lookupMap.lookup key.sequenceHash with
          | none =>
              rw [hl] at hacq
              exact absurd hacq (by simp only [reduceCtorEq, not_false_eq_true])
          | some block =>
              -- the block of the least key, reset
              rw [hl] at hacq
              simp only [Except.ok.injEq, Prod.mk.injEq] at hacq
              obtain ⟨rfl, rfl⟩ := hacq
              refine Or.inr ⟨block, _, rfl,
                (Block.evolves_reset block).trans (Block.evolves_metadataOnAcquired _ _), rfl, ?_⟩
              simp only [blocks, hu, List.append_nil]
              exact AList.values_erase_perm hl

theorem totalBlocks_acquireFreeBlock {pool pool' : InactiveBlockPool M} {r : Option (Block M)}
    (hacq : pool.acquireFreeBlock = .ok (r, pool')) : pool'.totalBlocks = pool.totalBlocks := by
  unfold acquireFreeBlock at hacq
  dsimp only at hacq
  repeat' split at hacq
  all_goals first | (cases hacq; rfl) | cases hacq

/-- Adding resets every block and puts it in the uninitialized set. -/
theorem blocks_foldl_insert (pool : InactiveBlockPool M) (bs : List (Block M)) :
    Pool.Evolved (bs ++ pool.blocks)
      (bs.foldl (fun pool block => pool.insert block.reset) pool).blocks := by
  induction bs generalizing pool with
  | nil => exact Pool.Evolved.refl _
  | cons b rest ih =>
      obtain ⟨b', hb', hperm⟩ := blocks_insert pool b.reset
      -- the first block goes in, then the rest of the fold runs on the new pool
      have hfirst : Pool.Evolved (b :: rest ++ pool.blocks) (rest ++ (pool.insert b.reset).blocks) :=
        (Pool.Evolved.cons ((Block.evolves_reset b).trans hb') (Pool.Evolved.refl (rest ++ pool.blocks))).perm_right
          ((hperm.append_left rest).trans List.perm_middle)
      exact hfirst.trans (ih (pool.insert b.reset))

end InactiveBlockPool

namespace Pool

variable {M : Type}

theorem blocks_send (p : Pool M) (b : Block M) : (p.send b).blocks.Perm (b :: p.blocks) := by
  simp only [blocks, send, List.append_assoc, List.singleton_append]
  rw [← List.append_assoc p.inactive.blocks p.returnRx,
    ← List.append_assoc p.inactive.blocks p.returnRx]
  exact List.perm_middle

/-- The block at the head of the channel leaves it. -/
theorem blocks_pop {p : Pool M} {x : Block M} {rest : List (Block M)} (hrx : p.returnRx = x :: rest) :
    p.blocks.Perm (x :: ({ p with returnRx := rest } : Pool M).blocks) := by
  simp only [blocks, hrx, List.append_assoc]
  exact List.perm_middle

/-- The system's blocks with another inactive pool, which holds `l` more. -/
theorem blocks_perm_of_inactive {p : Pool M} {X : InactiveBlockPool M} {l : List (Block M)}
    (h : X.blocks.Perm (l ++ p.inactive.blocks)) :
    ({ p with inactive := X } : Pool M).blocks.Perm (l ++ p.blocks) := by
  simp only [blocks, List.append_assoc]
  exact (h.append_right _).trans (List.Perm.of_eq (List.append_assoc _ _ _))

/-- The system's blocks with other callers' blocks, when the callers held
    `l` more. -/
theorem blocks_perm_of_mutables {p : Pool M} {ms l : List (Block M)}
    (h : p.mutables.Perm (l ++ ms)) :
    p.blocks.Perm (l ++ ({ p with mutables := ms } : Pool M).blocks) := by
  simp only [blocks]
  exact (h.append_left _).trans (List.perm_append_comm_assoc _ _ _)

@[simp]
theorem blocks_clone (p : Pool M) (cell : Nat) : (p.clone cell).blocks = p.blocks := rfl

theorem blocks_share {p : Pool M} (hfresh : p.nextId ∉ p.cells) (h : SequenceHash) (b : Block M) :
    (p.share h b).2.blocks.Perm (b :: p.blocks) := by
  simp only [blocks, share, AList.values_insert, AList.values_erase_of_not_mem hfresh,
    List.append_assoc, List.cons_append]
  rw [← List.append_assoc p.inactive.blocks p.returnRx,
    ← List.append_assoc p.inactive.blocks p.returnRx]
  exact List.perm_middle

theorem blocks_dropImmutable (p : Pool M) (cell : Nat) :
    (p.dropImmutable cell).blocks.Perm p.blocks := by
  unfold dropImmutable
  dsimp only
  split
  · exact List.Perm.refl _
  · split
    · next b hl =>
        refine (blocks_send _ b).trans ?_
        simp only [blocks, List.append_assoc]
        refine List.perm_middle.symm.trans (List.Perm.append_left _ ?_)
        refine List.perm_middle.symm.trans (List.Perm.append_left _ ?_)
        rw [← List.cons_append]
        exact List.Perm.append_right _ (AList.values_erase_perm hl).symm
    · exact List.Perm.refl _

theorem blocks_activeMatchSequenceHash (p : Pool M) (h : SequenceHash) :
    (p.activeMatchSequenceHash h).2.blocks = p.blocks := by
  unfold activeMatchSequenceHash
  split
  · split
    · rfl
    · rfl
  · rfl

/-- Registering in the active pool puts the block in a new cell, or sends
    it back. -/
theorem blocks_activeRegister {p : Pool M} (hfresh : p.nextId ∉ p.cells) (b : Block M) :
    (p.activeRegister b).2.blocks.Perm (b :: p.blocks) := by
  unfold activeRegister
  split
  · exact blocks_send p b
  · split
    · exact blocks_send p b
    · split
      · split
        · exact blocks_send (p.clone _) b
        · exact blocks_share hfresh _ b
      · exact blocks_share hfresh _ b

theorem activeRemove_evolves [BlockMetadata M] (p : Pool M) (b : Block M) :
    b.Evolves (p.activeRemove b).1 ∧ (p.activeRemove b).2.blocks = p.blocks := by
  unfold activeRemove
  split
  · split
    · split
      · exact ⟨Block.evolves_reset b, rfl⟩
      · exact ⟨Block.Evolves.refl b, rfl⟩
    · exact ⟨Block.Evolves.refl b, rfl⟩
  · exact ⟨Block.Evolves.refl b, rfl⟩

@[simp]
theorem activeRemove_returnRx [BlockMetadata M] (p : Pool M) (b : Block M) :
    (p.activeRemove b).2.returnRx = p.returnRx := by
  unfold activeRemove
  split
  · split
    · split
      · rfl
      · rfl
    · rfl
  · rfl

@[simp]
theorem activeRemove_registry [BlockMetadata M] (p : Pool M) (b : Block M) :
    (p.activeRemove b).2.registry = p.registry := by
  unfold activeRemove
  split
  · split
    · split
      · rfl
      · rfl
    · rfl
  · rfl

@[simp]
theorem activeRemove_inactive [BlockMetadata M] (p : Pool M) (b : Block M) :
    (p.activeRemove b).2.inactive = p.inactive := by
  unfold activeRemove
  split
  · split
    · split
      · rfl
      · rfl
    · rfl
  · rfl

variable [LinearOrder M] [BlockMetadata M]

@[simp]
theorem returnBlock_returnRx (p : Pool M) (b : Block M) : (p.returnBlock b).returnRx = p.returnRx :=
  activeRemove_returnRx p b

@[simp]
theorem returnBlock_registry (p : Pool M) (b : Block M) : (p.returnBlock b).registry = p.registry :=
  activeRemove_registry p b

/-- Returning a block to the pool keeps it, possibly reset. -/
theorem returnBlock_evolved (p : Pool M) (b : Block M) :
    Evolved (b :: p.blocks) (p.returnBlock b).blocks := by
  obtain ⟨hb, hblocks⟩ := activeRemove_evolves p b
  obtain ⟨b', hb', hperm⟩ := InactiveBlockPool.blocks_returnBlock
    (p.activeRemove b).2.inactive (p.activeRemove b).1
  refine (Evolved.cons (hb.trans hb') (Evolved.refl p.blocks)).perm_right ?_
  rw [← hblocks]
  simp only [returnBlock, blocks, List.append_assoc]
  exact (hperm.append_right _).trans (List.Perm.refl _)

/-- The wait takes a block off the channel and returns the ones before it
    to the pool. -/
theorem waitForReturnedBlockFrom_evolved {h : SequenceHash} :
    ∀ {l : List (Block M)} {p p' : Pool M} {b : Block M}, p.returnRx = l →
      waitForReturnedBlockFrom h l p = .ok (b, p') → Evolved p.blocks (b :: p'.blocks)
  | [], _, _, _, _, hwait => by
      simp only [waitForReturnedBlockFrom, reduceCtorEq] at hwait
  | x :: rest, p, p', b, hrx, hwait => by
      -- the head leaves the channel whichever branch is taken
      have hpop := blocks_pop hrx
      unfold waitForReturnedBlockFrom at hwait
      split at hwait
      · simp only [Except.ok.injEq, Prod.mk.injEq] at hwait
        obtain ⟨rfl, rfl⟩ := hwait
        exact Evolved.of_perm hpop.symm
      · have hrx' : (({ p with returnRx := rest } : Pool M).returnBlock x).returnRx = rest :=
          returnBlock_returnRx _ x
        have hnext := waitForReturnedBlockFrom_evolved hrx' hwait
        exact ((returnBlock_evolved _ x).perm_left hpop.symm).trans hnext

end Pool

end BlockManager

end Dynamo
