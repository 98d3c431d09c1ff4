import Dynamo.Lib.Serde
import Dynamo.BlockManager.Layout

/-!
# Layouts Across Workers

How a worker describes its block layouts to a peer, from
`lib/llm/src/block_manager/layout/nixl.rs`, `storage/nixl.rs` and the
`NixlBlockSet` of `block.rs`.

A storage registered with a NIXL agent describes itself as a `NixlStorage`:
its address, size, memory type and device (`as_nixl_descriptor`).
`FullyContiguous::serialize` writes the layout's configuration, base offset
and storage type with that description, and
`SerializedNixlBlockLayout::deserialize` rebuilds a layout over the
description with `new_internal`, which checks nothing. A peer then computes
the addresses of the worker's pages from the worker's own numbers, so the
round trip has to carry every one of them: the configuration with its
strides, the base offset and the storage's address.

A worker exports all its layouts at once as a `NixlBlockSet`: the serialized
layout of each block set, the agent's metadata and the worker's id, written
with serde_json again.

The encoding is `serde_json`'s, outside the repository; the statements assume
only that it reads back what it writes (`Json.RoundTrips`).

## Main definitions

* `NixlRegisterableStorage`, `asNixlDescriptor`: A storage and its NIXL
  description.
* `NixlStorage`: The description, as a storage of its own.
* `FullyContiguous.serialize`, `SerializedNixlBlockLayout.deserialize`: The
  layout round trip.
* `NixlBlockSet`, `SerializedNixlBlockSet.tryFrom`, `NixlBlockSet.tryFrom`:
  The block set round trip.

## Theorems

* `FullyContiguous.deserialize_serialize`: A serialized layout reads back
  over its storage's description.
* `nixlLayout_round_trip`: A registered layout comes back with the same
  shape, storage type and page addresses, and a block set comes back
  unchanged.
-/

namespace Dynamo

namespace BlockManager

open Bytes

/-- `nixl_sys::MemType`, with the variants the block manager names. -/
inductive MemType where
  | dram
  | vram
  | unknown
  deriving DecidableEq, Repr, Encodable

/-- `NixlDescriptor`: the memory type and device of a region. -/
class NixlDescriptor (S : Type) where
  memType : S → MemType
  deviceId : S → Nat

/-- `NixlRegisterableStorage`: a storage that can be registered with a NIXL
    agent; `is_nixl_registered` is `is_registered("nixl")`. -/
class NixlRegisterableStorage (S : Type) extends Storage S, NixlDescriptor S where
  isNixlRegistered : S → Bool

/-- `NixlStorage`: the description of a region, local or remote. -/
structure NixlStorage where
  addr : Nat
  size : Nat
  memType : MemType
  deviceId : Nat
  deriving DecidableEq, Repr, Encodable

instance : Storage NixlStorage where
  storageType _ := .nixl
  addr s := s.addr
  size s := s.size

instance : NixlDescriptor NixlStorage where
  memType s := s.memType
  deviceId s := s.deviceId

/-- `SystemStorage`: its allocation's address and length, and the keys of
    its registration handles. -/
structure SystemStorage where
  addr : Nat
  len : Nat
  handles : List String
  deriving DecidableEq, Repr

instance : NixlRegisterableStorage SystemStorage where
  storageType _ := .system
  addr s := s.addr
  size s := s.len
  memType _ := .dram
  deviceId _ := 0
  isNixlRegistered s := decide ("nixl" ∈ s.handles)

/-- `as_nixl_descriptor`: once registered, the storage's address, size (its
    `MemoryRegion::size`, which every storage of the block manager takes from
    `Storage::size`), memory type and device. -/
def asNixlDescriptor {S : Type} [NixlRegisterableStorage S] (s : S) : Option NixlStorage :=
  if NixlRegisterableStorage.isNixlRegistered s then
    some ⟨Storage.addr s, Storage.size s, NixlDescriptor.memType s, NixlDescriptor.deviceId s⟩
  else none

/-- `SerializableNixlLayout<C>`. -/
structure SerializableNixlLayout (C : Type) where
  config : C
  baseOffset : Nat
  storageDescriptors : List NixlStorage
  storageType : StorageType
  deriving DecidableEq, Repr, Encodable

/-- `NixlBlockLayoutKinds`. -/
inductive NixlBlockLayoutKinds where
  | fullyContiguous (layout : SerializableNixlLayout FullyContiguousConfig)
  deriving DecidableEq, Repr, Encodable

/-- `SerializedNixlBlockLayout`: the bytes serde_json wrote. -/
structure SerializedNixlBlockLayout where
  bytes : List UInt8
  deriving DecidableEq, Repr, Encodable

section Layouts

variable (json : Json NixlBlockLayoutKinds)

/-- `FullyContiguous::serialize`: the configuration, base offset and storage
    type, with the NIXL description of the one storage. -/
def FullyContiguous.serialize {S : Type} [NixlRegisterableStorage S] (l : FullyContiguous S) :
    Except LayoutError SerializedNixlBlockLayout :=
  let storages := [l.storage]
  if storages.length ≠ 1 then
    .error (.invalidConfig "FullyContiguous reconstruction expects exactly one NixlStorage descriptor")
  else
    match storages.head? with
    | none => .error (.operationFailed "FullyContiguous requires one storage element")
    | some storageInstance =>
        match asNixlDescriptor storageInstance with
        | none => .error (.operationFailed "Storage does not provide NIXL descriptors for serialization")
        | some storageDescriptors =>
            let serializableData : SerializableNixlLayout FullyContiguousConfig :=
              ⟨l.config, l.baseOffset, [storageDescriptors], l.storageType⟩
            match json.toVec (.fullyContiguous serializableData) with
            | .error e => .error (.serdeError e)
            | .ok bytes => .ok ⟨bytes⟩

/-- `SerializedNixlBlockLayout::deserialize`: a layout over the one NIXL
    description, rebuilt by `new_internal`. -/
def SerializedNixlBlockLayout.deserialize (s : SerializedNixlBlockLayout) :
    Except LayoutError (FullyContiguous NixlStorage) :=
  match json.fromSlice s.bytes with
  | .error e => .error (.serdeError e)
  | .ok (.fullyContiguous config) =>
      match config.storageDescriptors with
      | [storage] => FullyContiguous.newInternal config.config storage config.baseOffset config.storageType
      | _ => .error (.invalidConfig "FullyContiguous reconstruction expects exactly one NixlStorage descriptor")

variable {json}

/-- A registered layout serializes to what its description and fields say. -/
theorem FullyContiguous.serialize_of_registered {S : Type} [NixlRegisterableStorage S]
    (l : FullyContiguous S) (hreg : NixlRegisterableStorage.isNixlRegistered l.storage = true)
    {bytes : List UInt8}
    (hbytes : json.toVec (.fullyContiguous ⟨l.config, l.baseOffset,
      [⟨Storage.addr l.storage, Storage.size l.storage, NixlDescriptor.memType l.storage,
        NixlDescriptor.deviceId l.storage⟩], l.storageType⟩) = .ok bytes) :
    l.serialize json = .ok ⟨bytes⟩ := by
  unfold serialize
  simp only [List.length_singleton, ne_eq, not_true_eq_false, if_false, List.head?_cons,
    asNixlDescriptor, hreg, if_true, hbytes]

/-- Reading back a layout with one description rebuilds it over that
    description. -/
theorem SerializedNixlBlockLayout.deserialize_of_fromSlice {s : SerializedNixlBlockLayout}
    {layout : SerializableNixlLayout FullyContiguousConfig} {storage : NixlStorage}
    (hread : json.fromSlice s.bytes = .ok (.fullyContiguous layout))
    (hone : layout.storageDescriptors = [storage]) :
    s.deserialize json = .ok ⟨layout.config, storage, layout.storageType, layout.baseOffset⟩ := by
  unfold deserialize
  rw [hread]
  dsimp only
  rw [hone]
  rfl

/-- A layout that serializes is registered, and its bytes are those of its
    description. -/
theorem FullyContiguous.serialize_eq_ok {S : Type} [NixlRegisterableStorage S]
    {l : FullyContiguous S} {s : SerializedNixlBlockLayout} (h : l.serialize json = .ok s) :
    NixlRegisterableStorage.isNixlRegistered l.storage = true ∧
      json.toVec (.fullyContiguous ⟨l.config, l.baseOffset,
        [⟨Storage.addr l.storage, Storage.size l.storage, NixlDescriptor.memType l.storage,
          NixlDescriptor.deviceId l.storage⟩], l.storageType⟩) = .ok s.bytes := by
  unfold serialize asNixlDescriptor at h
  simp only [List.length_singleton, ne_eq, not_true_eq_false, if_false, List.head?_cons] at h
  by_cases hreg : NixlRegisterableStorage.isNixlRegistered l.storage = true
  · rw [if_pos hreg] at h
    dsimp only at h
    refine ⟨hreg, ?_⟩
    -- the encoder's result decides the outcome
    split at h
    · cases h
    · rename_i bytes hbytes
      cases h
      exact hbytes
  · rw [if_neg hreg] at h
    cases h

/-- With a codec that round-trips, a serialized layout reads back as the
    layout over its storage's description. -/
theorem FullyContiguous.deserialize_serialize (hjson : json.RoundTrips) {S : Type}
    [NixlRegisterableStorage S] {l : FullyContiguous S} {s : SerializedNixlBlockLayout}
    (h : l.serialize json = .ok s) :
    s.deserialize json = .ok ⟨l.config, ⟨Storage.addr l.storage, Storage.size l.storage,
      NixlDescriptor.memType l.storage, NixlDescriptor.deviceId l.storage⟩, l.storageType,
      l.baseOffset⟩ :=
  SerializedNixlBlockLayout.deserialize_of_fromSlice
    (hjson.fromSlice_of_toVec (serialize_eq_ok h).2) rfl

end Layouts

/-- `NixlSerializationError`. -/
inductive NixlSerializationError where
  | serialize (msg : String)
  deriving DecidableEq, Repr

/-- `NixlBlockSet`: the serialized layout of each block set, the agent's
    metadata and the worker's id. -/
structure NixlBlockSet where
  blockSets : AList (fun _ : Nat => SerializedNixlBlockLayout)
  nixlMetadata : List UInt8
  workerId : Nat
  deriving Encodable

/-- `SerializedNixlBlockSet`. -/
structure SerializedNixlBlockSet where
  bytes : List UInt8
  deriving DecidableEq, Repr

namespace NixlBlockSet

/-- `NixlBlockSet::new`. -/
def new (workerId : Nat) : NixlBlockSet := ⟨∅, [], workerId⟩

/-- `add_block_set`. -/
def addBlockSet (s : NixlBlockSet) (blockSetIdx : Nat) (serializedLayout : SerializedNixlBlockLayout) :
    NixlBlockSet :=
  { s with blockSets := s.blockSets.insert blockSetIdx serializedLayout }

/-- `set_nixl_metadata`. -/
def setNixlMetadata (s : NixlBlockSet) (nixlMetadata : List UInt8) : NixlBlockSet :=
  { s with nixlMetadata := nixlMetadata }

/-- `NixlBlockSet::try_from(&SerializedNixlBlockSet)`. -/
def tryFrom (json : Json NixlBlockSet) (value : SerializedNixlBlockSet) :
    Except NixlSerializationError NixlBlockSet :=
  match json.fromSlice value.bytes with
  | .error e => .error (.serialize e)
  | .ok blockSet => .ok blockSet

end NixlBlockSet

/-- `SerializedNixlBlockSet::try_from(&NixlBlockSet)`. -/
def SerializedNixlBlockSet.tryFrom (json : Json NixlBlockSet) (value : NixlBlockSet) :
    Except NixlSerializationError SerializedNixlBlockSet :=
  match json.toVec value with
  | .error e => .error (.serialize e)
  | .ok bytes => .ok ⟨bytes⟩

/-- With a codec that round-trips, a serialized block set reads back as
    itself. -/
theorem NixlBlockSet.tryFrom_of_tryFrom {jsonSet : Json NixlBlockSet} (hjsonSet : jsonSet.RoundTrips)
    {blockSet : NixlBlockSet} {s : SerializedNixlBlockSet}
    (h : SerializedNixlBlockSet.tryFrom jsonSet blockSet = .ok s) :
    NixlBlockSet.tryFrom jsonSet s = .ok blockSet := by
  unfold SerializedNixlBlockSet.tryFrom at h
  split at h
  · cases h
  · rename_i bytes hwrite
    cases h
    simp only [NixlBlockSet.tryFrom, hjsonSet.fromSlice_of_toVec hwrite]

/-- With a codec that round-trips, every block set serializes and reads
    back as itself. -/
theorem SerializedNixlBlockSet.tryFrom_round_trip {jsonSet : Json NixlBlockSet}
    (hjsonSet : jsonSet.RoundTrips) (blockSet : NixlBlockSet) :
    ∃ s, SerializedNixlBlockSet.tryFrom jsonSet blockSet = .ok s ∧
      NixlBlockSet.tryFrom jsonSet s = .ok blockSet := by
  obtain ⟨bytes, hwrite, -⟩ := hjsonSet blockSet
  have hser : SerializedNixlBlockSet.tryFrom jsonSet blockSet = .ok ⟨bytes⟩ := by
    simp only [SerializedNixlBlockSet.tryFrom, hwrite]
  exact ⟨_, hser, NixlBlockSet.tryFrom_of_tryFrom hjsonSet hser⟩

/-- A registered layout, serialized and read back, has the worker's shape,
    storage type and page addresses, with the same result out of range; and a
    block set, serialized and read back, is the same block set. -/
theorem nixlLayout_round_trip {S : Type} [NixlRegisterableStorage S]
    (json : Json NixlBlockLayoutKinds) (hjson : json.RoundTrips)
    (jsonSet : Json NixlBlockSet) (hjsonSet : jsonSet.RoundTrips) (checks : OverflowChecks)
    (l : FullyContiguous S) (hreg : NixlRegisterableStorage.isNixlRegistered l.storage = true) :
    (∃ s r, l.serialize json = .ok s ∧ s.deserialize json = .ok r ∧
      r.numBlocks = l.numBlocks ∧ r.numLayers = l.numLayers ∧ r.pageSize = l.pageSize ∧
      r.innerDim = l.innerDim ∧ r.memoryRegionSize = l.memoryRegionSize ∧
      r.layoutType = l.layoutType ∧ r.storageType = l.storageType ∧
      ∀ blockIdx layerIdx,
        r.memoryRegionAddr checks blockIdx layerIdx = l.memoryRegionAddr checks blockIdx layerIdx) ∧
    ∀ blockSet : NixlBlockSet, ∃ s, SerializedNixlBlockSet.tryFrom jsonSet blockSet = .ok s ∧
      NixlBlockSet.tryFrom jsonSet s = .ok blockSet := by
  refine ⟨?_, fun blockSet => SerializedNixlBlockSet.tryFrom_round_trip hjsonSet blockSet⟩
  -- the description the layout is written with
  obtain ⟨bytes, hwrite, -⟩ := hjson (.fullyContiguous ⟨l.config, l.baseOffset,
    [⟨Storage.addr l.storage, Storage.size l.storage, NixlDescriptor.memType l.storage,
      NixlDescriptor.deviceId l.storage⟩], l.storageType⟩)
  have hser := l.serialize_of_registered hreg hwrite
  refine ⟨_, _, hser, FullyContiguous.deserialize_serialize hjson hser,
    rfl, rfl, rfl, rfl, rfl, rfl, rfl, fun blockIdx layerIdx => ?_⟩
  -- the rebuilt layout sits at the described address
  exact FullyContiguous.memoryRegionAddr_congr checks l _ rfl rfl rfl blockIdx layerIdx

/-- A system storage registered with NIXL, in a layout of two blocks of two
    layers. -/
theorem nixlLayout_round_trip_system :
    (Json.ofEncodable : Json NixlBlockLayoutKinds).RoundTrips ∧
      (Json.ofEncodable : Json NixlBlockSet).RoundTrips ∧
      NixlRegisterableStorage.isNixlRegistered (⟨4096, 1024, ["nixl"]⟩ : SystemStorage) = true ∧
      ((∃ s r, FullyContiguous.serialize Json.ofEncodable
          (⟨⟨⟨2, 2, 4, 8, 1, .fp16⟩, 64, 64, 128, 128, 256⟩, ⟨4096, 1024, ["nixl"]⟩, .system, 0⟩ :
            FullyContiguous SystemStorage) = .ok s ∧
        s.deserialize Json.ofEncodable = .ok r ∧
        r.numBlocks = 2 ∧ r.numLayers = 2 ∧ r.pageSize = 4 ∧ r.innerDim = 8 ∧
        r.memoryRegionSize = 64 ∧ r.layoutType = .fullyContiguous ∧ r.storageType = .system ∧
        ∀ blockIdx layerIdx, r.memoryRegionAddr .enabled blockIdx layerIdx =
          FullyContiguous.memoryRegionAddr .enabled
            (⟨⟨⟨2, 2, 4, 8, 1, .fp16⟩, 64, 64, 128, 128, 256⟩, ⟨4096, 1024, ["nixl"]⟩, .system, 0⟩ :
              FullyContiguous SystemStorage) blockIdx layerIdx) ∧
        ∀ blockSet : NixlBlockSet, ∃ s,
          SerializedNixlBlockSet.tryFrom Json.ofEncodable blockSet = .ok s ∧
          NixlBlockSet.tryFrom Json.ofEncodable s = .ok blockSet) :=
  ⟨Json.roundTrips_ofEncodable, Json.roundTrips_ofEncodable, by decide,
    nixlLayout_round_trip _ Json.roundTrips_ofEncodable _ Json.roundTrips_ofEncodable .enabled _
      (by decide)⟩

end BlockManager

end Dynamo
