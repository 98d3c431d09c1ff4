import Mathlib.Data.List.Forall2
import Dynamo.Lib.Abort
import Dynamo.BlockManager.Block
import Dynamo.BlockManager.Nixl

/-!
# Remote Blocks

How one worker's blocks are named to a peer and found again there, from
`lib/llm/src/block_manager/block.rs` (`BlockData`, `BlockDescriptorList`,
`RemoteBlocks`) and `state.rs` (`KvBlockManagerState`).

A block is its layout, its index in the layout, the index of its block set
and its worker. Its NIXL descriptors are the address and size of one of its
pages (a layer) or of all of them together (the block), with the memory type
and device of the layout's storage type.

A worker exports its block sets (`export_local_blockset`): the serialized
layout of each one, with its agent's metadata and its id. A peer imports
them (`import_remote_blockset`): it reads every layout back over the NIXL
description of the worker's storage, skips any whose memory is neither host
nor device memory, and checks, through its own agent, that the metadata
names the worker. To move data, the worker sends a `BlockDescriptorList` of
the blocks (worker, block set and indices), and the peer turns it into
remote blocks of the imported layout (`get_remote_blocks_mutable` and
`_immutable`).

The peer computes a remote block's descriptors from the worker's numbers
carried through the round trip, so they are the worker's own descriptors
(`Nixl.remoteBlocks_resolve_owner_memory`). A failed import changes nothing:
the new map of block sets is written only at its very end.

The pools that hand out the blocks, and the agent's registration of memory,
are not modelled: a worker's blocks are the ones `create_block_pool` made
from its layouts, and a handle to one holds its data. Serialization is by
`serde_json`, assumed to read back what it writes (`Json.RoundTrips`).

## Main definitions

* `Nixl.BlockData`: A block of a layout.
* `Nixl.BlockData.asLayerDescriptor`, `Nixl.BlockData.asBlockDescriptor`:
  The NIXL descriptors of a block.
* `Nixl.BlockDescriptorList.new`: Naming a list of blocks to a peer.
* `Nixl.RemoteBlocks.block`: A block of an imported block set.
* `Nixl.KvBlockManagerState`: A worker, with the block sets it imported.
* `Nixl.KvBlockManagerState.importRemoteBlockset`,
  `Nixl.KvBlockManagerState.getRemoteBlocks`: The peer's side.

## Theorems

* `Nixl.BlockData.Mirrors.asBlockDescriptor_eq`: A block over a copy of a
  layout has the original's descriptors.
* `Nixl.BlockDescriptorList.new_eq_error_iff`: A list is refused exactly
  when two of its blocks are in different block sets.
* `Nixl.KvBlockManagerState.importRemoteBlockset_of_error`: A failed import
  leaves the state as it was.
* `Nixl.remoteBlocks_resolve_owner_memory`: The peer's blocks are the
  worker's memory.
-/

namespace Dynamo

namespace BlockManager

open Bytes

/-- `StorageType::nixl_mem_type`. -/
def StorageType.nixlMemType : StorageType → MemType
  | .system => .dram
  | .pinned => .dram
  | .device _ => .vram
  | .nixl => .unknown
  | .null => .unknown

/-- `StorageType::nixl_device_id`. -/
def StorageType.nixlDeviceId : StorageType → Nat
  | .system => 0
  | .pinned => 0
  | .device id => id
  | .nixl => 0
  | .null => 0

/-- `PinnedStorage`: page-locked host memory, with the keys of its
    registration handles. -/
structure PinnedStorage where
  ptr : Nat
  size : Nat
  handles : List String
  deriving DecidableEq, Repr

instance : NixlRegisterableStorage PinnedStorage where
  storageType _ := .pinned
  addr s := s.ptr
  size s := s.size
  memType _ := .dram
  deviceId _ := 0
  isNixlRegistered s := decide ("nixl" ∈ s.handles)

/-- `DeviceStorage`: memory on the CUDA device `device`. -/
structure DeviceStorage where
  ptr : Nat
  size : Nat
  device : Nat
  handles : List String
  deriving DecidableEq, Repr

instance : NixlRegisterableStorage DeviceStorage where
  storageType s := .device s.device
  addr s := s.ptr
  size s := s.size
  memType _ := .vram
  deviceId s := s.device
  isNixlRegistered s := decide ("nixl" ∈ s.handles)

namespace Nixl

/-- `BlockData<S>`, with the layout its descriptors are computed from. The
    pool's model of the same block (`BlockManager.BlockData`) keeps only what
    the pool reads. -/
structure BlockData (S : Type) where
  layout : FullyContiguous S
  blockIdx : Nat
  blockSetIdx : Nat
  workerId : Nat

/-- `NixlMemoryDescriptor`, without its kind and mutability markers. -/
structure NixlMemoryDescriptor where
  addr : Nat
  size : Nat
  memType : MemType
  deviceId : Nat
  deriving DecidableEq, Repr

namespace BlockData

variable {S : Type} [Storage S] (checks : OverflowChecks)

/-- `as_layer_descriptor`: the view of one page, described with the memory
    type and device of the layout's storage type. -/
def asLayerDescriptor (d : BlockData S) (layerIdx : Nat) :
    Except Abort (Except BlockError NixlMemoryDescriptor) := do
  match ← d.layout.memoryRegionAddr checks d.blockIdx layerIdx with
  | .error e => return .error (.layout e)
  | .ok offset =>
      return .ok ⟨offset, d.layout.memoryRegionSize, d.layout.storageType.nixlMemType,
        d.layout.storageType.nixlDeviceId⟩

/-- `as_block_descriptor`: the view from the block's first page over all its
    layers, for a fully contiguous layout. -/
def asBlockDescriptor (d : BlockData S) : Except Abort (Except BlockError NixlMemoryDescriptor) :=
  if d.layout.layoutType = .fullyContiguous then do
    match ← d.layout.memoryRegionAddr checks d.blockIdx 0 with
    | .error e => return .error (.layout e)
    | .ok offset =>
        let size ← mulUnsigned checks 64 d.layout.memoryRegionSize d.layout.numLayers
        return .ok ⟨offset, size, d.layout.storageType.nixlMemType,
          d.layout.storageType.nixlDeviceId⟩
  else return .error (.invalidState "Block is not fully contiguous")

/-- A block `r` at the place of `d` in a layout that agrees with `d`'s on
    everything a descriptor reads: the configuration, base offset, storage
    address and storage type. -/
structure Mirrors {T : Type} [Storage T] (r : BlockData T) (d : BlockData S) : Prop where
  config : r.layout.config = d.layout.config
  baseOffset : r.layout.baseOffset = d.layout.baseOffset
  addr : Storage.addr r.layout.storage = Storage.addr d.layout.storage
  storageType : r.layout.storageType = d.layout.storageType
  blockIdx : r.blockIdx = d.blockIdx

variable {checks} {T : Type} [Storage T] {r : BlockData T} {d : BlockData S}

theorem Mirrors.memoryRegionAddr_eq (h : r.Mirrors d) (blockIdx layerIdx : Nat) :
    r.layout.memoryRegionAddr checks blockIdx layerIdx =
      d.layout.memoryRegionAddr checks blockIdx layerIdx :=
  FullyContiguous.memoryRegionAddr_congr checks d.layout r.layout h.addr h.config h.baseOffset
    blockIdx layerIdx

theorem Mirrors.asLayerDescriptor_eq (h : r.Mirrors d) (layerIdx : Nat) :
    r.asLayerDescriptor checks layerIdx = d.asLayerDescriptor checks layerIdx := by
  unfold asLayerDescriptor FullyContiguous.memoryRegionSize
  rw [h.memoryRegionAddr_eq, h.blockIdx, h.config, h.storageType]

/-- The block descriptor reads the layout only through the page addresses,
    the page size and the number of layers. -/
theorem Mirrors.asBlockDescriptor_eq (h : r.Mirrors d) :
    r.asBlockDescriptor checks = d.asBlockDescriptor checks := by
  unfold asBlockDescriptor FullyContiguous.memoryRegionSize FullyContiguous.numLayers
    FullyContiguous.layoutType
  rw [h.memoryRegionAddr_eq, h.blockIdx, h.config, h.storageType]

end BlockData

/-- `MutableBlock<S, M>`: the block it holds, until it is returned to its
    pool. -/
structure MutableBlock (S : Type) where
  block : Option (BlockData S)

/-- `ImmutableBlock<S, M>`: a shared mutable block. -/
structure ImmutableBlock (S : Type) where
  block : MutableBlock S

/-- `BlockMutability`. -/
inductive BlockMutability where
  | immutable
  | mutable
  deriving DecidableEq, Repr

/-- `BlockDescriptorList`: blocks of one worker and one block set, by index. -/
structure BlockDescriptorList where
  workerId : Nat
  blockSetIdx : Nat
  mutability : BlockMutability
  blockIndices : List Nat
  deriving DecidableEq, Repr

/-- `BlockDescriptorSetError`; a `serde_json::Error` is its message. -/
inductive BlockDescriptorSetError where
  /-- "Input block list cannot be empty" -/
  | emptyInput
  /-- "Blocks in the input list are not homogeneous (worker_id, block_set_idx mismatch)" -/
  | notHomogeneous
  | serializationError (msg : String)
  /-- "An invalid block handle was encountered (block may have been dropped prematurely)" -/
  | invalidBlockHandle
  deriving DecidableEq, Repr

namespace BlockDescriptorList

variable {S : Type}

/-- The check of the loop of `BlockDescriptorList::new` on one block after
    the first: its index, if it has the first block's worker and block set. -/
def homogeneousIdx (first block : BlockData S) : Except BlockDescriptorSetError Nat :=
  if block.workerId ≠ first.workerId ∨ block.blockSetIdx ≠ first.blockSetIdx then
    .error .notHomogeneous
  else .ok block.blockIdx

/-- `BlockDescriptorList::new`: the worker and block set of the first block,
    and the index of every block, each later block checked against the
    first. -/
def new (blocks : List (BlockData S)) (mutability : BlockMutability) :
    Except BlockDescriptorSetError BlockDescriptorList :=
  match blocks with
  | [] => .error .emptyInput
  | first :: rest => do
      let blockIndices ← rest.mapM (homogeneousIdx first)
      return ⟨first.workerId, first.blockSetIdx, mutability, first.blockIdx :: blockIndices⟩

/-- The block a handle holds, or `InvalidBlockHandle` once it is gone. -/
def blockData (b : MutableBlock S) : Except BlockDescriptorSetError (BlockData S) :=
  b.block.elim (.error .invalidBlockHandle) .ok

/-- `from_immutable_blocks`: every handle must still hold its block. -/
def fromImmutableBlocks (blocks : List (ImmutableBlock S)) :
    Except BlockDescriptorSetError BlockDescriptorList := do
  let data ← blocks.mapM fun b => blockData b.block
  new data .immutable

/-- `from_mutable_blocks`. -/
def fromMutableBlocks (blocks : List (MutableBlock S)) :
    Except BlockDescriptorSetError BlockDescriptorList := do
  let data ← blocks.mapM blockData
  new data .mutable

/-- Two blocks with different workers or block sets. -/
def Mixed (blocks : List (BlockData S)) : Prop :=
  ∃ a ∈ blocks, ∃ b ∈ blocks, a.workerId ≠ b.workerId ∨ a.blockSetIdx ≠ b.blockSetIdx

theorem new_of_not_mixed {first : BlockData S} {rest : List (BlockData S)}
    (h : ¬ Mixed (first :: rest)) (mutability : BlockMutability) :
    new (first :: rest) mutability =
      .ok ⟨first.workerId, first.blockSetIdx, mutability, (first :: rest).map (·.blockIdx)⟩ := by
  -- every later block passes the check against the first
  have hpass : ∀ b ∈ rest, homogeneousIdx first b = .ok b.blockIdx := by
    intro b hb
    have hsame : ¬ (b.workerId ≠ first.workerId ∨ b.blockSetIdx ≠ first.blockSetIdx) :=
      fun hne => h ⟨b, List.mem_cons_of_mem _ hb, first, List.mem_cons_self .., hne⟩
    simp only [homogeneousIdx, if_neg hsame]
  simp only [new, Except.mapM_eq_ok hpass, Except.ok_bind, List.map_cons]
  rfl

theorem new_of_mixed {first : BlockData S} {rest : List (BlockData S)}
    (h : Mixed (first :: rest)) (mutability : BlockMutability) :
    new (first :: rest) mutability = .error .notHomogeneous := by
  -- two blocks differ, so one of them differs from the first
  have hfail : ∃ b ∈ rest, homogeneousIdx first b = .error .notHomogeneous := by
    by_contra hnone
    obtain ⟨a, ha, b, hb, hne⟩ := h
    have hsame : ∀ c ∈ first :: rest, c.workerId = first.workerId ∧ c.blockSetIdx = first.blockSetIdx := by
      intro c hc
      rcases List.mem_cons.mp hc with rfl | hc
      · exact ⟨rfl, rfl⟩
      · by_contra hdiff
        refine hnone ⟨c, hc, ?_⟩
        rw [homogeneousIdx, if_pos (by omega)]
    have := hsame a ha
    have := hsame b hb
    omega
  have hall : ∀ b ∈ rest, homogeneousIdx first b = .error .notHomogeneous ∨
      ∃ i, homogeneousIdx first b = .ok i := by
    intro b _
    unfold homogeneousIdx
    split
    · exact .inl rfl
    · exact .inr ⟨_, rfl⟩
  simp only [new, Except.mapM_eq_error hall hfail]
  rfl

/-- A non-empty list is refused exactly when two of its blocks have
    different workers or block sets; otherwise it names every block, in
    order. -/
theorem new_eq_error_iff {blocks : List (BlockData S)} (hne : blocks ≠ [])
    (mutability : BlockMutability) :
    (new blocks mutability = .error .notHomogeneous ↔ Mixed blocks) ∧
      (¬ Mixed blocks → ∃ bds, new blocks mutability = .ok bds ∧
        bds.blockIndices = blocks.map (·.blockIdx)) := by
  obtain ⟨first, rest, rfl⟩ := List.exists_cons_of_ne_nil hne
  refine ⟨⟨fun herr => ?_, fun hmixed => new_of_mixed hmixed mutability⟩,
    fun hsame => ⟨_, new_of_not_mixed hsame mutability, rfl⟩⟩
  by_contra hsame
  rw [new_of_not_mixed hsame mutability] at herr
  cases herr

/-- Handles that hold their blocks name exactly those blocks. -/
theorem fromMutableBlocks_some (ds : List (BlockData S)) :
    fromMutableBlocks (ds.map fun d => ⟨some d⟩) = new ds .mutable := by
  have hdata : (ds.map fun d => (⟨some d⟩ : MutableBlock S)).mapM blockData = .ok ds := by
    rw [List.mapM_map]
    refine (Except.mapM_eq_ok (g := id) fun _ _ => rfl).trans ?_
    rw [List.map_id]
  simp only [fromMutableBlocks, hdata, Except.ok_bind]

theorem fromImmutableBlocks_some (ds : List (BlockData S)) :
    fromImmutableBlocks (ds.map fun d => ⟨⟨some d⟩⟩) = new ds .immutable := by
  have hdata : (ds.map fun d => (⟨⟨some d⟩⟩ : ImmutableBlock S)).mapM
      (fun b => blockData b.block) = .ok ds := by
    rw [List.mapM_map]
    refine (Except.mapM_eq_ok (g := id) fun _ _ => rfl).trans ?_
    rw [List.map_id]
  simp only [fromImmutableBlocks, hdata, Except.ok_bind]

end BlockDescriptorList

/-- `RemoteBlock<M>`, without its mutability marker. -/
structure RemoteBlock where
  data : BlockData NixlStorage

/-- `RemoteBlocks`: a block set imported from a peer. -/
structure RemoteBlocks where
  layout : FullyContiguous NixlStorage
  blockSetIdx : Nat
  workerId : Nat

namespace RemoteBlocks

/-- `RemoteBlocks::from_serialized`. -/
def fromSerialized (json : Json NixlBlockLayoutKinds) (serialized : SerializedNixlBlockLayout)
    (blockSetIdx workerId : Nat) : Except BlockError RemoteBlocks := do
  let layout ← (serialized.deserialize json).mapError .layout
  return ⟨layout, blockSetIdx, workerId⟩

/-- `RemoteBlocks::block`: the block at an index inside the layout. -/
def block (self : RemoteBlocks) (blockIdx : Nat) : Except BlockError RemoteBlock :=
  let numBlocks := self.layout.numBlocks
  if blockIdx ≥ numBlocks then
    .error (.invalidState s!"block index out of bounds: {blockIdx} >= {numBlocks}")
  else .ok ⟨⟨self.layout, blockIdx, self.blockSetIdx, self.workerId⟩⟩

end RemoteBlocks

/-- The NIXL agent, as far as the state uses it: its own metadata, and
    loading a peer's metadata, which gives the name of the peer's agent. -/
structure NixlAgent where
  getLocalMd : Except String (List UInt8)
  loadRemoteMd : List UInt8 → Except String String

/-- The `anyhow` errors of the state, one for each place that raises one. -/
inductive StateError where
  /-- A layout failed to serialize. -/
  | layout (e : LayoutError)
  /-- The agent failed to give its metadata. -/
  | nixl (msg : String)
  /-- "Failed to serialize local blockset" -/
  | serialize (e : NixlSerializationError)
  /-- "Failed to deserialize remote blockset" -/
  | deserialize (e : NixlSerializationError)
  /-- "NIXL agent not initialized" -/
  | agentNotInitialized
  /-- "Worker ID {} already exists; cannot update remote blockset" -/
  | workerExists (workerId : Nat)
  | block (e : BlockError)
  /-- "No storage found in remote blockset" -/
  | noStorage
  /-- "Loading remote metadata" -/
  | loadRemoteMd (msg : String)
  /-- "Failed to parse agent ID string into WorkerID (u64)" -/
  | parseAgentId
  /-- "No remote blockset found for worker {} and block_set_idx {}" -/
  | noRemoteBlockset (workerId blockSetIdx : Nat)
  /-- "Cannot get mutable remote blocks for immutable block descriptor set" -/
  | immutableDescriptors

/-- `str::parse::<u64>`: an optional `+`, then decimal digits, below
    `2 ^ 64`. -/
def parseU64 (s : String) : Option Nat :=
  let digits := match s.toList with
    | '+' :: rest => rest
    | cs => cs
  if digits ≠ [] ∧ digits.all Char.isDigit then
    let value := digits.foldl (fun n c => 10 * n + (c.toNat - '0'.toNat)) 0
    if value < 2 ^ 64 then some value else none
  else none

/-- `layout_to_blocks`: every block of the layout, in order. -/
def layoutToBlocks {S : Type} (layout : FullyContiguous S) (blockSetIdx workerId : Nat) :
    List (BlockData S) :=
  (List.range layout.numBlocks).map fun idx => ⟨layout, idx, blockSetIdx, workerId⟩

/-- `KvBlockManagerState`: the worker's id and agent, the blocks of its host
    and device pools, its block set for export, and the block sets imported
    from peers, by worker and block-set index. -/
structure KvBlockManagerState where
  workerId : Nat
  nixlAgent : Option NixlAgent
  hostBlocks : List (BlockData PinnedStorage)
  deviceBlocks : List (BlockData DeviceStorage)
  localBlockSet : NixlBlockSet
  remoteBlockSets : AList fun _ : Nat => AList fun _ : Nat => RemoteBlocks

namespace KvBlockManagerState

section New

variable (json : Json NixlBlockLayoutKinds) (workerId : Nat)

/-- One pool of `KvBlockManagerState::new`, for a layout if there is one:
    the next block-set index, the layout serialized into the block set under
    it, and the layout's blocks. -/
def createPool {S : Type} [NixlRegisterableStorage S] (layout : Option (FullyContiguous S))
    (nextBlockSetIdx : Nat) (localBlockSet : NixlBlockSet) :
    Except StateError (Nat × NixlBlockSet × List (BlockData S)) :=
  match layout with
  | none => .ok (nextBlockSetIdx, localBlockSet, [])
  | some layout => do
      let nextBlockSetIdx := nextBlockSetIdx + 1
      let serialized ← (layout.serialize json).mapError .layout
      return (nextBlockSetIdx, localBlockSet.addBlockSet nextBlockSetIdx serialized,
        layoutToBlocks layout nextBlockSetIdx workerId)

/-- `KvBlockManagerState::new` from the layouts `create_layout` made: the host
    pool, then the device pool, then the agent's metadata. -/
def new (nixlAgent : Option NixlAgent) (hostLayout : Option (FullyContiguous PinnedStorage))
    (deviceLayout : Option (FullyContiguous DeviceStorage)) : Except StateError KvBlockManagerState := do
  let host ← createPool json workerId hostLayout 0 (NixlBlockSet.new workerId)
  let device ← createPool json workerId deviceLayout host.1 host.2.1
  let localBlockSet ← match nixlAgent with
    | some agent => do
        let md ← agent.getLocalMd.mapError .nixl
        pure (device.2.1.setNixlMetadata md)
    | none => pure device.2.1
  return ⟨workerId, nixlAgent, host.2.2, device.2.2, localBlockSet, ∅⟩

end New

/-- `export_local_blockset`. -/
def exportLocalBlockset (jsonSet : Json NixlBlockSet) (self : KvBlockManagerState) :
    Except StateError SerializedNixlBlockSet :=
  (SerializedNixlBlockSet.tryFrom jsonSet self.localBlockSet).mapError .serialize

section Import

variable (json : Json NixlBlockLayoutKinds) (jsonSet : Json NixlBlockSet)

/-- The loop of `import_remote_blockset` over the peer's block sets: each
    layout is read back, and kept if its memory is host or device memory. -/
def importBlockSets (workerId : Nat) :
    List (Sigma fun _ : Nat => SerializedNixlBlockLayout) → AList (fun _ : Nat => RemoteBlocks) →
      Except StateError (AList fun _ : Nat => RemoteBlocks)
  | [], innerMap => .ok innerMap
  | ⟨blockSetIdx, blockSetLayout⟩ :: blockSets, innerMap =>
      match RemoteBlocks.fromSerialized json blockSetLayout blockSetIdx workerId with
      | .error e => .error (.block e)
      | .ok remoteBlocks =>
          -- `storage()` of a fully contiguous layout is its one region
          match [remoteBlocks.layout.storage].head? with
          | none => .error .noStorage
          | some storage =>
              match NixlDescriptor.memType storage with
              | .dram | .vram =>
                  importBlockSets workerId blockSets (innerMap.insert blockSetIdx remoteBlocks)
              | .unknown => importBlockSets workerId blockSets innerMap

/-- `import_remote_blockset`, with the state it leaves: the peer's block sets
    are written only at the end, after its agent's name is checked against
    its id. -/
def importRemoteBlockset (self : KvBlockManagerState) (serializedBlockset : SerializedNixlBlockSet) :
    Except Abort (Except StateError Unit × KvBlockManagerState) :=
  match NixlBlockSet.tryFrom jsonSet serializedBlockset with
  | .error e => .ok (.error (.deserialize e), self)
  | .ok remote =>
      let workerId := remote.workerId
      let selfWorkerId := self.workerId
      if workerId = selfWorkerId then
        .error (.panic
          s!"assertion `left != right` failed: Cannot import blockset from self\n  left: {workerId}\n right: {selfWorkerId}")
      else
        match self.nixlAgent with
        | none => .ok (.error .agentNotInitialized, self)
        | some agent =>
            if (self.remoteBlockSets.lookup workerId).isSome then
              .ok (.error (.workerExists workerId), self)
            else
              match importBlockSets json workerId remote.blockSets.entries ∅ with
              | .error e => .ok (.error e, self)
              | .ok innerMap =>
                  match agent.loadRemoteMd remote.nixlMetadata with
                  | .error e => .ok (.error (.loadRemoteMd e), self)
                  | .ok agentId =>
                      match parseU64 agentId with
                      | none => .ok (.error .parseAgentId, self)
                      | some agentId =>
                          if agentId ≠ workerId then
                            .error (.panic
                              s!"assertion `left == right` failed: Mismatch with remote worker ID\n  left: {agentId}\n right: {workerId}")
                          else
                            .ok (.ok (), { self with
                              remoteBlockSets := self.remoteBlockSets.insert workerId innerMap })

end Import

/-- `get_remote_blocks`: the imported block set the list names, and its
    block at each index. -/
def getRemoteBlocks (self : KvBlockManagerState) (bds : BlockDescriptorList) :
    Except StateError (List RemoteBlock) :=
  match (self.remoteBlockSets.lookup bds.workerId).bind fun map => map.lookup bds.blockSetIdx with
  | none => .error (.noRemoteBlockset bds.workerId bds.blockSetIdx)
  | some remoteBlocks => (bds.blockIndices.mapM remoteBlocks.block).mapError .block

/-- `get_remote_blocks_immutable`: any list may be read. -/
def getRemoteBlocksImmutable (self : KvBlockManagerState) (bds : BlockDescriptorList) :
    Except StateError (List RemoteBlock) :=
  self.getRemoteBlocks bds

/-- `get_remote_blocks_mutable`: only a list of mutable blocks may be
    written. -/
def getRemoteBlocksMutable (self : KvBlockManagerState) (bds : BlockDescriptorList) :
    Except StateError (List RemoteBlock) :=
  if bds.mutability = .mutable then self.getRemoteBlocks bds
  else .error .immutableDescriptors

end KvBlockManagerState

/-- The block set carries block `d`: it holds `d`'s layout, serialized, under
    `d`'s block-set index, for `d`'s worker, and `d` is inside that layout. -/
def Carries {S : Type} [NixlRegisterableStorage S] (json : Json NixlBlockLayoutKinds)
    (blockSet : NixlBlockSet) (d : BlockData S) : Prop :=
  d.workerId = blockSet.workerId ∧ d.blockIdx < d.layout.numBlocks ∧
    ∃ serialized, blockSet.blockSets.lookup d.blockSetIdx = some serialized ∧
      d.layout.serialize json = .ok serialized

/-- Every layout the block set holds reads back. -/
def ReadsBack (json : Json NixlBlockLayoutKinds) (blockSet : NixlBlockSet) : Prop :=
  ∀ e ∈ blockSet.blockSets.entries, ∃ r, e.2.deserialize json = .ok r

section Carries

variable {S : Type} [NixlRegisterableStorage S] {json : Json NixlBlockLayoutKinds}

/-- A block set that keeps the worker and the entry of a block carries it
    still. -/
theorem Carries.of_lookup_eq {blockSet blockSet' : NixlBlockSet} {d : BlockData S}
    (h : Carries json blockSet d) (hworker : blockSet'.workerId = blockSet.workerId)
    (hlookup : blockSet'.blockSets.lookup d.blockSetIdx = blockSet.blockSets.lookup d.blockSetIdx) :
    Carries json blockSet' d := by
  obtain ⟨hw, hlt, serialized, hser, hlayout⟩ := h
  exact ⟨hw.trans hworker.symm, hlt, serialized, hlookup.trans hser, hlayout⟩

/-- A carried block's entry reads back as a copy of its layout, which holds
    the block. -/
theorem Carries.mirrors (hjson : json.RoundTrips) {blockSet : NixlBlockSet} {d : BlockData S}
    (h : Carries json blockSet d) {serialized : SerializedNixlBlockLayout}
    (hlookup : blockSet.blockSets.lookup d.blockSetIdx = some serialized)
    {r : FullyContiguous NixlStorage} (hr : serialized.deserialize json = .ok r)
    (blockSetIdx workerId : Nat) :
    (⟨r, d.blockIdx, blockSetIdx, workerId⟩ : BlockData NixlStorage).Mirrors d ∧
      d.blockIdx < r.numBlocks := by
  obtain ⟨-, hlt, serialized', hlookup', hser⟩ := h
  rw [hlookup, Option.some.injEq] at hlookup'
  subst hlookup'
  -- the entry is the serialization of `d`'s own layout
  rw [FullyContiguous.deserialize_serialize hjson hser, Except.ok.injEq] at hr
  subst hr
  exact ⟨⟨rfl, rfl, rfl, rfl, rfl⟩, hlt⟩

end Carries

namespace KvBlockManagerState

variable {S : Type} [NixlRegisterableStorage S] {json : Json NixlBlockLayoutKinds}
  {jsonSet : Json NixlBlockSet}

section New

variable {workerId : Nat}

/-- A pool adds at most its own block set, under the next index, and every
    block it makes is carried there. -/
theorem createPool_eq_ok {layout : Option (FullyContiguous S)} {nextBlockSetIdx : Nat}
    {blockSet : NixlBlockSet} {result : Nat × NixlBlockSet × List (BlockData S)}
    (h : createPool json workerId layout nextBlockSetIdx blockSet = .ok result)
    (hworker : blockSet.workerId = workerId) :
    nextBlockSetIdx ≤ result.1 ∧ result.2.1.workerId = blockSet.workerId ∧
      (∀ k ≤ nextBlockSetIdx, result.2.1.blockSets.lookup k = blockSet.blockSets.lookup k) ∧
      ∀ d ∈ result.2.2, d.blockSetIdx = result.1 ∧ Carries json result.2.1 d := by
  cases layout with
  | none =>
      cases h
      exact ⟨le_rfl, rfl, fun _ _ => rfl, fun d hd => absurd hd List.not_mem_nil⟩
  | some layout =>
      obtain ⟨serialized, hser, h⟩ := Except.bind_eq_ok h
      cases h
      refine ⟨Nat.le_succ _, rfl, fun k hk => AList.lookup_insert_ne (by omega), fun d hd => ?_⟩
      -- the pool's blocks are the layout's, in its new block set
      obtain ⟨idx, hidx, rfl⟩ := List.mem_map.mp hd
      exact ⟨rfl, hworker.symm, List.mem_range.mp hidx, serialized, AList.lookup_insert _,
        Except.mapError_eq_ok.mp hser⟩

/-- The pool for a layout holds every block of the layout, in the block
    set after the last. -/
theorem createPool_some {layout : FullyContiguous S} {nextBlockSetIdx : Nat}
    {blockSet : NixlBlockSet} {result : Nat × NixlBlockSet × List (BlockData S)}
    (h : createPool json workerId (some layout) nextBlockSetIdx blockSet = .ok result) :
    result.2.2 = layoutToBlocks layout (nextBlockSetIdx + 1) workerId := by
  obtain ⟨serialized, -, h⟩ := Except.bind_eq_ok h
  cases h
  rfl

/-- A pool keeps every layout of the block set readable, its own included. -/
theorem createPool_readsBack (hjson : json.RoundTrips) {layout : Option (FullyContiguous S)}
    {nextBlockSetIdx : Nat} {blockSet : NixlBlockSet} {result : Nat × NixlBlockSet × List (BlockData S)}
    (h : createPool json workerId layout nextBlockSetIdx blockSet = .ok result)
    (hread : ReadsBack json blockSet) : ReadsBack json result.2.1 := by
  cases layout with
  | none =>
      cases h
      exact hread
  | some layout =>
      obtain ⟨serialized, hser, h⟩ := Except.bind_eq_ok h
      cases h
      intro e he
      simp only [NixlBlockSet.addBlockSet, AList.entries_insert, List.mem_cons] at he
      rcases he with rfl | he
      · -- the pool's own layout, just serialized
        exact ⟨_, FullyContiguous.deserialize_serialize hjson (Except.mapError_eq_ok.mp hser)⟩
      · exact hread e ((List.kerase_sublist _ _).subset he)

/-- The stages of a `new` that succeeds: the host pool from index `0`, the
    device pool after it, and the agent's metadata, which leaves the block
    sets as they are. -/
theorem new_stages {nixlAgent : Option NixlAgent} {hostLayout : Option (FullyContiguous PinnedStorage)}
    {deviceLayout : Option (FullyContiguous DeviceStorage)} {w : KvBlockManagerState}
    (h : new json workerId nixlAgent hostLayout deviceLayout = .ok w) :
    ∃ host device localBlockSet,
      createPool json workerId hostLayout 0 (NixlBlockSet.new workerId) = .ok host ∧
      createPool json workerId deviceLayout host.1 host.2.1 = .ok device ∧
      localBlockSet.workerId = device.2.1.workerId ∧ localBlockSet.blockSets = device.2.1.blockSets ∧
      w = ⟨workerId, nixlAgent, host.2.2, device.2.2, localBlockSet, ∅⟩ := by
  obtain ⟨host, hhost, h⟩ := Except.bind_eq_ok h
  obtain ⟨device, hdevice, h⟩ := Except.bind_eq_ok h
  refine ⟨host, device, ?_⟩
  cases nixlAgent with
  | none =>
      cases h
      exact ⟨_, hhost, hdevice, rfl, rfl, rfl⟩
  | some agent =>
      obtain ⟨md, -, h⟩ := Except.bind_eq_ok h
      cases h
      exact ⟨device.2.1.setNixlMetadata md, hhost, hdevice, rfl, rfl, rfl⟩

variable {nixlAgent : Option NixlAgent} {hostLayout : Option (FullyContiguous PinnedStorage)}
  {deviceLayout : Option (FullyContiguous DeviceStorage)} {w : KvBlockManagerState}

/-- A worker built by `new` carries every block of each of its pools, each
    pool in a block set of its own. -/
theorem new_eq_ok (h : new json workerId nixlAgent hostLayout deviceLayout = .ok w) :
    w.workerId = workerId ∧ w.localBlockSet.workerId = workerId ∧
      (∃ idx, ∀ d ∈ w.hostBlocks, d.blockSetIdx = idx ∧ Carries json w.localBlockSet d) ∧
      ∃ idx, ∀ d ∈ w.deviceBlocks, d.blockSetIdx = idx ∧ Carries json w.localBlockSet d := by
  obtain ⟨host, device, localBlockSet, hhost, hdevice, hmetaw, hmetab, rfl⟩ := new_stages h
  obtain ⟨-, hhw, -, hhblocks⟩ := createPool_eq_ok hhost rfl
  obtain ⟨-, hdw, hdkeep, hdblocks⟩ := createPool_eq_ok hdevice hhw
  refine ⟨rfl, hmetaw.trans (hdw.trans hhw), ⟨host.1, fun d hd => ?_⟩, ⟨device.1, fun d hd => ?_⟩⟩
  · -- the device pool comes after the host pool's index
    obtain ⟨hidx, hcarries⟩ := hhblocks d hd
    refine ⟨hidx, hcarries.of_lookup_eq (hmetaw.trans hdw) ?_⟩
    rw [hmetab, hdkeep _ (Nat.le_of_eq hidx)]
  · obtain ⟨hidx, hcarries⟩ := hdblocks d hd
    exact ⟨hidx, hcarries.of_lookup_eq hmetaw (by rw [hmetab])⟩

/-- Every layout a worker exports reads back. -/
theorem new_readsBack (hjson : json.RoundTrips)
    (h : new json workerId nixlAgent hostLayout deviceLayout = .ok w) :
    ReadsBack json w.localBlockSet := by
  obtain ⟨host, device, localBlockSet, hhost, hdevice, -, hmetab, rfl⟩ := new_stages h
  have hread := createPool_readsBack hjson hdevice
    (createPool_readsBack hjson hhost fun _ he => absurd he List.not_mem_nil)
  intro e he
  rw [hmetab] at he
  exact hread e he

/-- The host pool holds every block of the host layout, in block set `1`. -/
theorem new_hostBlocks {hostLayout : FullyContiguous PinnedStorage}
    (h : new json workerId nixlAgent (some hostLayout) deviceLayout = .ok w) :
    w.hostBlocks = layoutToBlocks hostLayout 1 workerId := by
  obtain ⟨host, device, localBlockSet, hhost, -, -, -, rfl⟩ := new_stages h
  exact createPool_some hhost

/-- A worker's block set always serializes with a codec that round-trips. -/
theorem exportLocalBlockset_eq_ok (hjsonSet : jsonSet.RoundTrips) (w : KvBlockManagerState) :
    ∃ s, w.exportLocalBlockset jsonSet = .ok s := by
  obtain ⟨s, hs, -⟩ := SerializedNixlBlockSet.tryFrom_round_trip hjsonSet w.localBlockSet
  exact ⟨s, Except.mapError_eq_ok.mpr hs⟩

end New

section Import

variable {workerId : Nat}

/-- A run of the loop keeps what the map holds under an index it does not
    import. -/
theorem importBlockSets_lookup_of_not_mem :
    ∀ {blockSets : List (Sigma fun _ : Nat => SerializedNixlBlockLayout)}
      {innerMap innerMap' : AList fun _ : Nat => RemoteBlocks} {i : Nat},
      importBlockSets json workerId blockSets innerMap = .ok innerMap' →
        i ∉ blockSets.map Sigma.fst → innerMap'.lookup i = innerMap.lookup i
  | [], _, _, _, h, _ => by cases h; rfl
  | ⟨idx, layout⟩ :: blockSets, innerMap, innerMap', i, h, hi => by
      simp only [List.map_cons, List.mem_cons, not_or] at hi
      unfold importBlockSets at h
      split at h
      · cases h
      · dsimp only [List.head?_cons] at h
        split at h
        · -- host memory is kept
          rw [importBlockSets_lookup_of_not_mem h hi.2, AList.lookup_insert_ne hi.1]
        · -- so is device memory
          rw [importBlockSets_lookup_of_not_mem h hi.2, AList.lookup_insert_ne hi.1]
        · -- and anything else is skipped
          exact importBlockSets_lookup_of_not_mem h hi.2

/-- A run of the loop over block sets with distinct indices imports each one
    in host or device memory under its index. -/
theorem importBlockSets_lookup :
    ∀ {blockSets : List (Sigma fun _ : Nat => SerializedNixlBlockLayout)}
      {innerMap innerMap' : AList fun _ : Nat => RemoteBlocks} {i : Nat}
      {layout : SerializedNixlBlockLayout} {remoteBlocks : RemoteBlocks},
      importBlockSets json workerId blockSets innerMap = .ok innerMap' →
        (blockSets.map Sigma.fst).Nodup → ⟨i, layout⟩ ∈ blockSets →
        RemoteBlocks.fromSerialized json layout i workerId = .ok remoteBlocks →
        NixlDescriptor.memType remoteBlocks.layout.storage ≠ .unknown →
        innerMap'.lookup i = some remoteBlocks := by
  intro blockSets
  induction blockSets with
  | nil =>
      intro _ _ _ _ _ _ _ hmem
      exact absurd hmem List.not_mem_nil
  | cons entry blockSets ih =>
      intro innerMap innerMap' i layout remoteBlocks h hnodup hmem hread hmemType
      obtain ⟨idx, layout'⟩ := entry
      rw [List.map_cons, List.nodup_cons] at hnodup
      unfold importBlockSets at h
      rcases List.mem_cons.mp hmem with heq | hmem
      · -- the block set is the first one: it is kept, and nothing later
        -- overwrites it
        cases heq
        rw [hread] at h
        dsimp only [List.head?_cons] at h
        split at h
        · rw [importBlockSets_lookup_of_not_mem h hnodup.1, AList.lookup_insert]
        · rw [importBlockSets_lookup_of_not_mem h hnodup.1, AList.lookup_insert]
        · contradiction
      · split at h
        · cases h
        · dsimp only [List.head?_cons] at h
          -- whatever the first block set's memory, the rest is imported the same way
          split at h <;> exact ih h hnodup.2 hmem hread hmemType

/-- The loop succeeds when every layout reads back. -/
theorem importBlockSets_eq_ok :
    ∀ {blockSets : List (Sigma fun _ : Nat => SerializedNixlBlockLayout)}
      {innerMap : AList fun _ : Nat => RemoteBlocks},
      (∀ e ∈ blockSets, ∃ r, e.2.deserialize json = .ok r) →
        ∃ innerMap', importBlockSets json workerId blockSets innerMap = .ok innerMap'
  | [], innerMap, _ => ⟨innerMap, rfl⟩
  | ⟨idx, layout⟩ :: blockSets, innerMap, h => by
      obtain ⟨r, hr⟩ := h _ (List.mem_cons_self ..)
      have hrest : ∀ e ∈ blockSets, ∃ r, e.2.deserialize json = .ok r :=
        fun e he => h e (List.mem_cons_of_mem _ he)
      have hfrom : RemoteBlocks.fromSerialized json layout idx workerId = .ok ⟨r, idx, workerId⟩ := by
        simp only [RemoteBlocks.fromSerialized, hr]
        rfl
      unfold importBlockSets
      rw [hfrom]
      dsimp only [List.head?_cons]
      -- kept or skipped, the rest is imported the same way
      split <;> exact importBlockSets_eq_ok hrest

/-- A failed import leaves the state as it was: every exit before the last
    line returns the state it was given. -/
theorem importRemoteBlockset_of_error {self self' : KvBlockManagerState}
    {serializedBlockset : SerializedNixlBlockSet} {e : StateError}
    (h : self.importRemoteBlockset json jsonSet serializedBlockset = .ok (.error e, self')) :
    self' = self := by
  unfold importRemoteBlockset at h
  dsimp only at h
  repeat' split at h
  all_goals first
    | cases h; rfl
    | cases h

/-- An import of a block set from another worker, by a peer with an agent
    that has not imported that worker yet, whose layouts read back, and whose
    metadata names the worker, adds the worker's layouts. -/
theorem importRemoteBlockset_eq_ok {self : KvBlockManagerState}
    {serializedBlockset : SerializedNixlBlockSet} {remote : NixlBlockSet}
    (hremote : NixlBlockSet.tryFrom jsonSet serializedBlockset = .ok remote)
    (hself : remote.workerId ≠ self.workerId) {agent : NixlAgent}
    (hagent : self.nixlAgent = some agent) (hfresh : self.remoteBlockSets.lookup remote.workerId = none)
    {innerMap : AList fun _ : Nat => RemoteBlocks}
    (hinner : importBlockSets json remote.workerId remote.blockSets.entries ∅ = .ok innerMap)
    {agentId : String} (hmd : agent.loadRemoteMd remote.nixlMetadata = .ok agentId)
    (hid : parseU64 agentId = some remote.workerId) :
    self.importRemoteBlockset json jsonSet serializedBlockset =
      .ok (.ok (), { self with remoteBlockSets := self.remoteBlockSets.insert remote.workerId innerMap }) := by
  unfold importRemoteBlockset
  simp only [hremote, hself, hagent, hfresh, hinner, hmd, hid, if_false, Option.isSome_none,
    Bool.false_eq_true, ne_eq, not_true_eq_false]

/-- A peer with an agent that names the worker imports the worker's exported
    block set, if it has not imported that worker before. -/
theorem importRemoteBlockset_of_exported (hjsonSet : jsonSet.RoundTrips) {w : KvBlockManagerState}
    (hread : ReadsBack json w.localBlockSet) {s : SerializedNixlBlockSet}
    (hs : w.exportLocalBlockset jsonSet = .ok s) {p : KvBlockManagerState}
    (hself : w.localBlockSet.workerId ≠ p.workerId) {agent : NixlAgent}
    (hagent : p.nixlAgent = some agent)
    (hfresh : p.remoteBlockSets.lookup w.localBlockSet.workerId = none) {agentId : String}
    (hmd : agent.loadRemoteMd w.localBlockSet.nixlMetadata = .ok agentId)
    (hid : parseU64 agentId = some w.localBlockSet.workerId) :
    ∃ p', p.importRemoteBlockset json jsonSet s = .ok (.ok (), p') := by
  obtain ⟨innerMap, hinner⟩ := importBlockSets_eq_ok hread
  exact ⟨_, importRemoteBlockset_eq_ok (NixlBlockSet.tryFrom_of_tryFrom hjsonSet
    (Except.mapError_eq_ok.mp hs)) hself hagent hfresh hinner hmd hid⟩

/-- A successful import read the block set, imported its layouts, and added
    them under the peer's id. -/
theorem importRemoteBlockset_of_ok {self self' : KvBlockManagerState}
    {serializedBlockset : SerializedNixlBlockSet}
    (h : self.importRemoteBlockset json jsonSet serializedBlockset = .ok (.ok (), self')) :
    ∃ remote innerMap, NixlBlockSet.tryFrom jsonSet serializedBlockset = .ok remote ∧
      importBlockSets json remote.workerId remote.blockSets.entries ∅ = .ok innerMap ∧
      self'.remoteBlockSets = self.remoteBlockSets.insert remote.workerId innerMap := by
  unfold importRemoteBlockset at h
  dsimp only at h
  repeat' split at h
  all_goals try cases h
  -- the one exit that succeeds
  exact ⟨_, _, ‹_›, ‹_›, rfl⟩

end Import

end KvBlockManagerState

section Resolution

variable {S : Type} [NixlRegisterableStorage S] (checks : OverflowChecks)

/-- The peer's blocks `rbs` stand for the worker's blocks `ds`, in order:
    each has the descriptors of its block, whole and layer by layer. -/
def ResolvesTo (rbs : List RemoteBlock) (ds : List (BlockData S)) : Prop :=
  List.Forall₂ (fun rb d => rb.data.asBlockDescriptor checks = d.asBlockDescriptor checks ∧
    ∀ layerIdx, rb.data.asLayerDescriptor checks layerIdx = d.asLayerDescriptor checks layerIdx)
    rbs ds

/-- What the peer `p` makes of the worker's blocks `ds` held by handles. From
    mutable handles comes a list naming the blocks, which `p` resolves to them
    for writing; from immutable handles, one which `p` resolves to them for
    reading and refuses for writing. -/
def KvBlockManagerState.ResolvesHandles (p : KvBlockManagerState) (ds : List (BlockData S)) :
    Prop :=
  (∃ bds, BlockDescriptorList.fromMutableBlocks (ds.map fun d => ⟨some d⟩) = .ok bds ∧
      bds.blockIndices = ds.map (·.blockIdx) ∧
      ∃ rbs, p.getRemoteBlocksMutable bds = .ok rbs ∧ ResolvesTo checks rbs ds) ∧
    ∃ bds, BlockDescriptorList.fromImmutableBlocks (ds.map fun d => ⟨⟨some d⟩⟩) = .ok bds ∧
      bds.blockIndices = ds.map (·.blockIdx) ∧
      (∃ rbs, p.getRemoteBlocksImmutable bds = .ok rbs ∧ ResolvesTo checks rbs ds) ∧
      p.getRemoteBlocksMutable bds = .error .immutableDescriptors

variable {checks}

/-- A peer that finds a copy `r` of the blocks' layout under their worker and
    block set resolves every list naming them. -/
theorem KvBlockManagerState.resolvesHandles_of_lookup {p : KvBlockManagerState}
    {ds : List (BlockData S)} (hne : ds ≠ []) {workerId blockSetIdx : Nat}
    (hsame : ∀ d ∈ ds, d.workerId = workerId ∧ d.blockSetIdx = blockSetIdx)
    {r : FullyContiguous NixlStorage}
    (hfound : (p.remoteBlockSets.lookup workerId).bind (fun map => map.lookup blockSetIdx) =
      some ⟨r, blockSetIdx, workerId⟩)
    (hmirror : ∀ d ∈ ds, (⟨r, d.blockIdx, blockSetIdx, workerId⟩ : BlockData NixlStorage).Mirrors d ∧
      d.blockIdx < r.numBlocks) :
    p.ResolvesHandles checks ds := by
  obtain ⟨first, rest, rfl⟩ := List.exists_cons_of_ne_nil hne
  have hsame' : ¬ BlockDescriptorList.Mixed (first :: rest) := by
    rintro ⟨a, ha, b, hb, hne⟩
    have := hsame a ha
    have := hsame b hb
    omega
  -- the list names the first block's worker and block set
  obtain ⟨hw, hidx⟩ := hsame first (List.mem_cons_self ..)
  have hlist : ∀ mutability, BlockDescriptorList.new (first :: rest) mutability =
      .ok ⟨workerId, blockSetIdx, mutability, (first :: rest).map (·.blockIdx)⟩ := by
    intro mutability
    rw [BlockDescriptorList.new_of_not_mixed hsame' mutability, hw, hidx]
  -- every index is inside the copy, so the peer hands out its block there
  have hblocks : ∀ mutability, p.getRemoteBlocks
      ⟨workerId, blockSetIdx, mutability, (first :: rest).map (·.blockIdx)⟩ =
      .ok ((first :: rest).map fun d => ⟨⟨r, d.blockIdx, blockSetIdx, workerId⟩⟩) := by
    intro mutability
    unfold getRemoteBlocks
    dsimp only
    rw [hfound]
    dsimp only
    rw [List.mapM_map, Except.mapM_eq_ok fun d hd => ?_]
    · rfl
    · simp only [Function.comp_apply, RemoteBlocks.block, if_neg (Nat.not_le.mpr (hmirror d hd).2)]
  have hresolves : ResolvesTo checks ((first :: rest).map fun d => ⟨⟨r, d.blockIdx, blockSetIdx, workerId⟩⟩)
      (first :: rest) :=
    List.forall₂_map_left_iff.mpr <| List.forall₂_same.mpr fun d hd =>
      ⟨(hmirror d hd).1.asBlockDescriptor_eq, (hmirror d hd).1.asLayerDescriptor_eq⟩
  refine ⟨⟨_, (BlockDescriptorList.fromMutableBlocks_some _).trans (hlist _), rfl, _, ?_, hresolves⟩,
    ⟨_, (BlockDescriptorList.fromImmutableBlocks_some _).trans (hlist _), rfl, ⟨_, hblocks _, hresolves⟩,
      rfl⟩⟩
  exact (if_pos rfl).trans (hblocks _)

variable {json : Json NixlBlockLayoutKinds} {jsonSet : Json NixlBlockSet}

/-- A peer that imported a worker's exported block set resolves every list of
    the worker's blocks from one block set over host or device memory. -/
theorem KvBlockManagerState.resolvesHandles_of_import (hjson : json.RoundTrips)
    (hjsonSet : jsonSet.RoundTrips) {w : KvBlockManagerState} {s : SerializedNixlBlockSet}
    (hs : w.exportLocalBlockset jsonSet = .ok s) {p p' : KvBlockManagerState}
    (hp : p.importRemoteBlockset json jsonSet s = .ok (.ok (), p')) {ds : List (BlockData S)}
    (hne : ds ≠ []) {blockSetIdx : Nat}
    (hds : ∀ d ∈ ds, d.blockSetIdx = blockSetIdx ∧ Carries json w.localBlockSet d)
    (hmemType : ∀ d ∈ ds, NixlDescriptor.memType d.layout.storage ≠ .unknown) :
    p'.ResolvesHandles checks ds := by
  -- the peer read back the worker's own block set
  obtain ⟨remote, innerMap, hremote, hinner, hsets⟩ := importRemoteBlockset_of_ok hp
  rw [NixlBlockSet.tryFrom_of_tryFrom hjsonSet (Except.mapError_eq_ok.mp hs), Except.ok.injEq]
    at hremote
  subst hremote
  -- the layout of the blocks' set, as the worker wrote it and the peer read it
  obtain ⟨first, rest, rfl⟩ := List.exists_cons_of_ne_nil hne
  obtain ⟨hidx, -, -, serialized, hlookup, hser⟩ := hds first (List.mem_cons_self ..)
  rw [hidx] at hlookup
  have hread := FullyContiguous.deserialize_serialize hjson hser
  have hfound := importBlockSets_lookup hinner w.localBlockSet.blockSets.nodupKeys
    (AList.mem_lookup_iff.mp hlookup)
    (by simp only [RemoteBlocks.fromSerialized, hread]; rfl) (hmemType first (List.mem_cons_self ..))
  refine resolvesHandles_of_lookup hne (fun d hd => ⟨(hds d hd).2.1, (hds d hd).1⟩)
    (by rw [hsets, AList.lookup_insert]; exact hfound) fun d hd => ?_
  -- every block of the set reads back as the same copy
  obtain ⟨hidx, hcarries⟩ := hds d hd
  exact hcarries.mirrors hjson (hidx ▸ hlookup) hread _ _

end Resolution

/-- A worker's blocks, named to a peer that imported the worker's block set,
    are found there in the worker's memory: every non-empty list of the
    blocks of either pool, through mutable or immutable handles, gives a
    descriptor list of their indices, and the peer's blocks for it have the
    worker's block and layer descriptors, in order; only a list from mutable
    handles may be written. Any list of blocks is refused as not homogeneous
    exactly when two of them differ in worker or block set, and an import
    that fails leaves the peer's block sets as they were. -/
theorem remoteBlocks_resolve_owner_memory
    (json : Json NixlBlockLayoutKinds) (hjson : json.RoundTrips)
    (jsonSet : Json NixlBlockSet) (hjsonSet : jsonSet.RoundTrips) (checks : OverflowChecks)
    {workerId : Nat} {nixlAgent : Option NixlAgent}
    {hostLayout : Option (FullyContiguous PinnedStorage)}
    {deviceLayout : Option (FullyContiguous DeviceStorage)} {w : KvBlockManagerState}
    (hw : KvBlockManagerState.new json workerId nixlAgent hostLayout deviceLayout = .ok w)
    {s : SerializedNixlBlockSet} (hs : w.exportLocalBlockset jsonSet = .ok s)
    {p p' : KvBlockManagerState} (hp : p.importRemoteBlockset json jsonSet s = .ok (.ok (), p')) :
    (∀ ds, ds ≠ [] → (∀ d ∈ ds, d ∈ w.hostBlocks) → p'.ResolvesHandles checks ds) ∧
    (∀ ds, ds ≠ [] → (∀ d ∈ ds, d ∈ w.deviceBlocks) → p'.ResolvesHandles checks ds) ∧
    (∀ (S : Type) (ds : List (BlockData S)), ds ≠ [] →
      (BlockDescriptorList.fromMutableBlocks (ds.map fun d => ⟨some d⟩) = .error .notHomogeneous ↔
        BlockDescriptorList.Mixed ds) ∧
      (BlockDescriptorList.fromImmutableBlocks (ds.map fun d => ⟨⟨some d⟩⟩) =
        .error .notHomogeneous ↔ BlockDescriptorList.Mixed ds)) ∧
    ∀ (q : KvBlockManagerState) s' e q', q.importRemoteBlockset json jsonSet s' = .ok (.error e, q') →
      q'.remoteBlockSets = q.remoteBlockSets := by
  obtain ⟨-, -, ⟨hostIdx, hhost⟩, ⟨deviceIdx, hdevice⟩⟩ := KvBlockManagerState.new_eq_ok hw
  refine ⟨fun ds hne hds => ?_, fun ds hne hds => ?_, fun S ds hne => ?_, fun q s' e q' h => ?_⟩
  · -- host memory is pinned, which the peer sees as DRAM
    exact KvBlockManagerState.resolvesHandles_of_import hjson hjsonSet hs hp hne
      (fun d hd => hhost d (hds d hd)) fun _ _ h => by cases h
  · -- device memory is VRAM
    exact KvBlockManagerState.resolvesHandles_of_import hjson hjsonSet hs hp hne
      (fun d hd => hdevice d (hds d hd)) fun _ _ h => by cases h
  · rw [BlockDescriptorList.fromMutableBlocks_some, BlockDescriptorList.fromImmutableBlocks_some]
    exact ⟨(BlockDescriptorList.new_eq_error_iff hne _).1, (BlockDescriptorList.new_eq_error_iff hne _).1⟩
  · rw [KvBlockManagerState.importRemoteBlockset_of_error h]

/-- Worker `7` with a host pool of two blocks of two layers in pinned memory,
    and a peer `3` whose agent reads the worker's metadata as the name `7`. -/
theorem remoteBlocks_resolve_owner_memory_pinned :
    (Json.ofEncodable : Json NixlBlockLayoutKinds).RoundTrips ∧
      (Json.ofEncodable : Json NixlBlockSet).RoundTrips ∧
      ∃ w s p', KvBlockManagerState.new Json.ofEncodable 7 (some ⟨.ok [7], fun _ => .ok "7"⟩)
          (some ⟨⟨⟨2, 2, 4, 8, 1, .fp16⟩, 64, 64, 128, 128, 256⟩, ⟨4096, 1024, ["nixl"]⟩, .pinned, 0⟩)
          none = .ok w ∧
        w.exportLocalBlockset Json.ofEncodable = .ok s ∧
        KvBlockManagerState.importRemoteBlockset Json.ofEncodable Json.ofEncodable
          ⟨3, some ⟨.ok [3], fun _ => .ok "7"⟩, [], [], NixlBlockSet.new 3, ∅⟩ s = .ok (.ok (), p') ∧
        w.hostBlocks.length = 2 ∧ p'.ResolvesHandles .enabled w.hostBlocks := by
  have hjson : (Json.ofEncodable : Json NixlBlockLayoutKinds).RoundTrips := Json.roundTrips_ofEncodable
  have hjsonSet : (Json.ofEncodable : Json NixlBlockSet).RoundTrips := Json.roundTrips_ofEncodable
  -- the worker and its export
  obtain ⟨w, hw⟩ : ∃ w, KvBlockManagerState.new Json.ofEncodable 7 (some ⟨.ok [7], fun _ => .ok "7"⟩)
      (some ⟨⟨⟨2, 2, 4, 8, 1, .fp16⟩, 64, 64, 128, 128, 256⟩, ⟨4096, 1024, ["nixl"]⟩, .pinned, 0⟩)
      none = .ok w := ⟨_, rfl⟩
  obtain ⟨-, hid, -, -⟩ := KvBlockManagerState.new_eq_ok hw
  obtain ⟨s, hs⟩ := KvBlockManagerState.exportLocalBlockset_eq_ok hjsonSet w
  -- the peer's import
  obtain ⟨p', hp⟩ := KvBlockManagerState.importRemoteBlockset_of_exported hjsonSet
    (KvBlockManagerState.new_readsBack hjson hw) hs
    (p := ⟨3, some ⟨.ok [3], fun _ => .ok "7"⟩, [], [], NixlBlockSet.new 3, ∅⟩)
    (by rw [hid]; decide) rfl rfl rfl (by rw [hid]; decide)
  have hlen : w.hostBlocks.length = 2 := by
    rw [KvBlockManagerState.new_hostBlocks hw]
    rfl
  refine ⟨hjson, hjsonSet, w, s, p', hw, hs, hp, hlen, ?_⟩
  exact (remoteBlocks_resolve_owner_memory _ hjson _ hjsonSet .enabled hw hs hp).1 _
    (List.ne_nil_of_length_pos (by omega)) fun _ hd => hd

end Nixl

end BlockManager

end Dynamo
