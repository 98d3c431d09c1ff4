import Mathlib.Tactic.DeriveEncodable
import Mathlib.Logic.Equiv.List
import Dynamo.Lib.Bytes

/-!
# Block Layouts

`FullyContiguous` from `lib/llm/src/block_manager/layout.rs`: how the blocks
of a block set sit in one storage region. A page, which the code calls a
memory region, holds `page_size * inner_dim` elements of the data type. A
block is its `num_layers` pages one after the other, and consecutive blocks
are `block_stride_in_bytes` apart: the natural stride of a block, rounded up
to the alignment. The first block starts `base_offset` bytes into the
storage, where its address is aligned.

`FullyContiguousConfig::new` validates the configuration and computes the
strides. `FullyContiguous::new` computes the base offset from the storage's
address and checks that the storage holds the layout.
`FullyContiguous::new_internal`, which the remote side uses, takes all of
them as given. `memory_region_addr` is the address of a page: the storage's
address, plus the base offset, plus each index times its stride.

Sizes are `usize` and addresses `u64`, both 64 bits wide on the targets of
the block manager, and the arithmetic on them is Rust's: an overflow panics
in a debug build and wraps in a release build (`Bytes.OverflowChecks`).
What the `validator` crate reports is modelled by the list of the fields
that fail, each with the code of its check.

## Main definitions

* `LayoutConfig`, `LayoutConfig.validate`: The configuration and its checks.
* `alignUp`: Rounding up to a power of two.
* `FullyContiguousConfig.new`: The strides of a layout.
* `Storage`: What a layout reads of its storage.
* `FullyContiguous.new`, `FullyContiguous.newInternal`: The two constructors.
* `FullyContiguous.allocate`: A layout over storage of the size it requires.
* `FullyContiguous.memoryRegionAddr`: The address of a page.

## Theorems

* `FullyContiguous.memoryRegionAddr_of_lt`: In range, and without overflow,
  a page is at the base plus the strides.
* `FullyContiguous.memoryRegionAddr_congr`: The address depends on the
  storage only through its address.
-/

namespace Dynamo

namespace BlockManager

open Bytes

/-- `DType`. -/
inductive DType where
  | fp8 | fp16 | bf16 | fp32 | u8 | u16 | u32 | u64 | i8 | i16 | i32 | i64
  deriving DecidableEq, Repr, Encodable

/-- `DType::size_in_bytes`. -/
def DType.sizeInBytes : DType → Nat
  | .fp32 => 4
  | .fp16 => 2
  | .bf16 => 2
  | .fp8 => 1
  | .u8 => 1
  | .u16 => 2
  | .u32 => 4
  | .u64 => 8
  | .i8 => 1
  | .i16 => 2
  | .i32 => 4
  | .i64 => 8

/-- `LayoutType`. -/
inductive LayoutType where
  | fullyContiguous
  deriving DecidableEq, Repr

/-- `StorageType`. -/
inductive StorageType where
  | system
  | device (id : Nat)
  | pinned
  | nixl
  | null
  deriving DecidableEq, Repr, Encodable

/-- `LayoutError`. A `serde_json::Error` is its message, and a failed
    validation the failing fields with the codes of their checks. -/
inductive LayoutError where
  | invalidConfig (msg : String)
  | validationError (errors : List (String × String))
  | invalidBlockIndex (idx : Nat)
  | invalidLayerIndex (idx : Nat)
  | operationFailed (msg : String)
  | serdeError (msg : String)
  deriving DecidableEq, Repr

/-- `LayoutConfig`. -/
structure LayoutConfig where
  numBlocks : Nat
  numLayers : Nat
  pageSize : Nat
  innerDim : Nat
  alignment : Nat
  dtype : DType
  deriving DecidableEq, Repr, Encodable

/-- `usize::is_power_of_two`: exactly one bit set. -/
def isPowerOfTwo (n : Nat) : Bool :=
  n != 0 && (n &&& (n - 1)) == 0

/-- `#[validate(range(min = 1))]` on one field. -/
def rangeMinOne (field : String) (value : Nat) : List (String × String) :=
  if 1 ≤ value then [] else [(field, "range")]

/-- The checks `#[validate]` puts on `LayoutConfig`, with the fields that
    fail them. -/
def LayoutConfig.validationErrors (c : LayoutConfig) : List (String × String) :=
  rangeMinOne "num_blocks" c.numBlocks ++ rangeMinOne "num_layers" c.numLayers ++
    rangeMinOne "page_size" c.pageSize ++ rangeMinOne "inner_dim" c.innerDim ++
    if isPowerOfTwo c.alignment then [] else [("alignment", "alignment_must_be_power_of_2")]

/-- `LayoutConfig::validate`. -/
def LayoutConfig.validate (c : LayoutConfig) : Except LayoutError Unit :=
  match c.validationErrors with
  | [] => .ok ()
  | errors => .error (.validationError errors)

/-- `FullyContiguousConfig`: the configuration with the sizes computed from
    it. -/
structure FullyContiguousConfig where
  inner : LayoutConfig
  memoryRegionSize : Nat
  layerStrideInBytes : Nat
  naturalBlockStride : Nat
  blockStrideInBytes : Nat
  layoutDataBytes : Nat
  deriving DecidableEq, Repr, Encodable

/-- `Storage`: the type, address and size of a storage region. -/
class Storage (S : Type) where
  storageType : S → StorageType
  addr : S → Nat
  size : S → Nat

/-- `FullyContiguous<S>`. -/
structure FullyContiguous (S : Type) where
  config : FullyContiguousConfig
  storage : S
  storageType : StorageType
  baseOffset : Nat

section Arithmetic

variable (checks : OverflowChecks)

/-- `align_up`: `(value + alignment - 1) & !(alignment - 1)` on `usize`. -/
def alignUp (value alignment : Nat) : Except Abort Nat := do
  let sum ← addUnsigned checks 64 value alignment
  let top ← subUnsigned checks 64 sum 1
  let mask ← subUnsigned checks 64 alignment 1
  return top &&& (2 ^ 64 - 1 - mask)

/-- `FullyContiguousConfig::new`. -/
def FullyContiguousConfig.new (config : LayoutConfig) :
    Except Abort (Except LayoutError FullyContiguousConfig) :=
  match config.validate with
  | .error e => .ok (.error e)
  | .ok () => do
      let alignment := config.alignment
      let pageElements ← mulUnsigned checks 64 config.pageSize config.innerDim
      let memoryRegionSize ← mulUnsigned checks 64 pageElements config.dtype.sizeInBytes
      let layerStrideInBytes := memoryRegionSize
      let naturalBlockStride ← mulUnsigned checks 64 config.numLayers layerStrideInBytes
      let blockStrideInBytes ←
        if alignment > 1 then alignUp checks naturalBlockStride alignment
        else pure naturalBlockStride
      let blocksBefore ← subUnsigned checks 64 config.numBlocks 1
      let stridesBefore ← mulUnsigned checks 64 blocksBefore blockStrideInBytes
      let layoutDataBytes ← addUnsigned checks 64 stridesBefore naturalBlockStride
      return .ok ⟨config, memoryRegionSize, layerStrideInBytes, naturalBlockStride,
        blockStrideInBytes, layoutDataBytes⟩

/-- `required_allocation_size`: the layout and the padding that aligns its
    start. -/
def FullyContiguousConfig.requiredAllocationSize (c : FullyContiguousConfig) : Except Abort Nat :=
  addUnsigned checks 64 c.layoutDataBytes (if c.inner.alignment > 1 then c.inner.alignment - 1 else 0)

variable {S : Type} [Storage S]

/-- `FullyContiguous::new`: the strides, then the base offset that aligns the
    first block, then the check that the storage holds the layout. -/
def FullyContiguous.new (config : LayoutConfig) (storage : List S) :
    Except Abort (Except LayoutError (FullyContiguous S)) := do
  match ← FullyContiguousConfig.new checks config with
  | .error e => return .error e
  | .ok config =>
      match storage with
      | [storage] =>
          let storageType := Storage.storageType storage
          let providedSize := Storage.size storage
          let storageAddr := Storage.addr storage
          let alignment := config.inner.alignment
          let baseOffset ←
            if alignment > 1 then do
              let aligned ← alignUp checks storageAddr alignment
              subUnsigned checks 64 aligned storageAddr
            else pure 0
          let totalRequired ← addUnsigned checks 64 baseOffset config.layoutDataBytes
          if providedSize < totalRequired then
            return .error (.invalidConfig
              s!"Storage size {providedSize} is less than required size {totalRequired} (including base offset for alignment)")
          else
            return .ok ⟨config, storage, storageType, baseOffset⟩
      | _ => return .error (.invalidConfig "FullyContiguous layout requires exactly one storage region")

/-- `FullyContiguous::allocate`: the strides, then storage of the size they
    require from `allocator`, which returns the storage or the text of its
    `StorageError`, then `FullyContiguous::new` on it. -/
def FullyContiguous.allocate (config : LayoutConfig) (allocator : Nat → Except String S) :
    Except Abort (Except LayoutError (FullyContiguous S)) := do
  match ← FullyContiguousConfig.new checks config with
  | .error e => return .error e
  | .ok config =>
      let bytesToAllocate ← config.requiredAllocationSize checks
      match allocator bytesToAllocate with
      | .error e => return .error (.operationFailed s!"Storage allocation failed: {e}")
      | .ok storage => FullyContiguous.new checks config.inner [storage]

end Arithmetic

namespace FullyContiguous

variable {S : Type}

/-- `FullyContiguous::new_internal`: the parts as given, unchecked. -/
def newInternal (config : FullyContiguousConfig) (storage : S) (baseOffset : Nat)
    (storageType : StorageType) : Except LayoutError (FullyContiguous S) :=
  .ok { config := config, storage := storage, storageType := storageType, baseOffset := baseOffset }

/-- `layout_type`. -/
def layoutType (_ : FullyContiguous S) : LayoutType := .fullyContiguous

/-- `num_blocks`. -/
def numBlocks (l : FullyContiguous S) : Nat := l.config.inner.numBlocks

/-- `num_layers`. -/
def numLayers (l : FullyContiguous S) : Nat := l.config.inner.numLayers

/-- `page_size`. -/
def pageSize (l : FullyContiguous S) : Nat := l.config.inner.pageSize

/-- `inner_dim`. -/
def innerDim (l : FullyContiguous S) : Nat := l.config.inner.innerDim

/-- `memory_region_size`. -/
def memoryRegionSize (l : FullyContiguous S) : Nat := l.config.memoryRegionSize

variable [Storage S] (checks : OverflowChecks)

/-- `memory_region_addr`: the indices are checked, then the page is found
    from the aligned start by the two strides. -/
def memoryRegionAddr (l : FullyContiguous S) (blockIdx layerIdx : Nat) :
    Except Abort (Except LayoutError Nat) :=
  if blockIdx ≥ l.numBlocks then .ok (.error (.invalidBlockIndex blockIdx))
  else if layerIdx ≥ l.numLayers then .ok (.error (.invalidLayerIndex layerIdx))
  else do
    let alignedStartAddr ← addUnsigned checks 64 (Storage.addr l.storage) l.baseOffset
    let blockOffset ← mulUnsigned checks 64 blockIdx l.config.blockStrideInBytes
    let layerOffset ← mulUnsigned checks 64 layerIdx l.config.layerStrideInBytes
    let blockAddr ← addUnsigned checks 64 alignedStartAddr blockOffset
    let finalAddr ← addUnsigned checks 64 blockAddr layerOffset
    return .ok finalAddr

/-- In range, with every partial sum below `2 ^ 64`, a page is at the aligned
    start plus the block's and the layer's offsets, in either build. -/
theorem memoryRegionAddr_of_lt (l : FullyContiguous S) {blockIdx layerIdx : Nat}
    (hb : blockIdx < l.numBlocks) (hl : layerIdx < l.numLayers)
    (hfit : Storage.addr l.storage + l.baseOffset + blockIdx * l.config.blockStrideInBytes +
      layerIdx * l.config.layerStrideInBytes < 2 ^ 64) :
    l.memoryRegionAddr checks blockIdx layerIdx =
      .ok (.ok (Storage.addr l.storage + l.baseOffset + blockIdx * l.config.blockStrideInBytes +
        layerIdx * l.config.layerStrideInBytes)) := by
  unfold memoryRegionAddr
  rw [if_neg (Nat.not_le.mpr hb), if_neg (Nat.not_le.mpr hl),
    addUnsigned_of_lt checks (by omega), mulUnsigned_of_lt checks (by omega),
    mulUnsigned_of_lt checks (by omega), Except.ok_bind, Except.ok_bind, Except.ok_bind,
    addUnsigned_of_lt checks (by omega), Except.ok_bind, addUnsigned_of_lt checks hfit,
    Except.ok_bind]
  rfl

/-- The address of a page reads the storage only for its address: two layouts
    with the same configuration, base offset and storage address, over
    storages of any types, agree on every page. -/
theorem memoryRegionAddr_congr {T : Type} [Storage T] (l : FullyContiguous S) (r : FullyContiguous T)
    (haddr : Storage.addr r.storage = Storage.addr l.storage) (hconfig : r.config = l.config)
    (hoffset : r.baseOffset = l.baseOffset) (blockIdx layerIdx : Nat) :
    r.memoryRegionAddr checks blockIdx layerIdx = l.memoryRegionAddr checks blockIdx layerIdx := by
  unfold memoryRegionAddr numBlocks numLayers
  rw [haddr, hconfig, hoffset]

end FullyContiguous

end BlockManager

end Dynamo
