import Dynamo.BlockManager.Placement
import Dynamo.BlockManager.Remote

/-!
# Block Transfers

How the bytes of one block are copied into another, from
`lib/llm/src/block_manager/block.rs` (the views of a block) and
`block/transfer/{memcpy,cuda,nixl}.rs` (the three ways to copy).

A block is seen through views. The view of one layer is that layer's page
(`layer_view`), and the view of a fully contiguous block is its first page
with the size of all its layers (`block_view`). Each backend copies a block
one of two ways: when both blocks are fully contiguous, the block view at
once (`copy_block`, `write_block_to`), and otherwise the layer views one
after another (`copy_layers`, `write_layers_to`). A copy here is a pair of
views: a `memcpy` or CUDA copy of the source view's size, or a pair of NIXL
descriptors of the one request NIXL is given.

The two ways map the same source bytes to the same destination bytes. The
layer stride of a layout `new` returns is its region size, in either build
(`FullyContiguous.new_shape`), so when no address of a block wraps
(`Nixl.BlockData.Fits`) the layer views tile the block view in order
(`Nixl.BlockData.views_tile`), and `Memory.copyMap_mul` turns the one long
copy into its slices. The debug checks agree as well: blocks apart give
layers apart (`Transfer.Matched`). The three backends' theorems are
`Memcpy.copyBlock_bytes_eq_copyLayers`, `Cuda.copyBlock_bytes_eq_copyLayers`
and `NixlTransfer.writeBlockTo_bytes_eq_writeLayersTo`.

In a debug build every block of a layout `new` accepts over a storage in the
address space fits (`Nixl.BlockData.fits_of_new`). In a release build the
size of the block view, `memory_region_size() * num_layers()`, wraps like
the sizes of the layout itself: two layers of `2 ^ 63` bytes make a block
view of no bytes, and the whole-block copy then copies nothing where the
layers hold `2 ^ 64` bytes (`fullyContiguous_blockView_wraps`).

A debug build has both `debug_assert!` and overflow checks, and a release
build neither, so one `OverflowChecks` stands for both. The CUDA driver's
copies are a parameter; the NIXL agent's calls after the request is built
are taken to succeed.

## Main definitions

* `MemoryView`: A region of a block's storage.
* `Copy`, `Copy.bytes`: A copy between two views, and the byte pairs it maps.
* `Nixl.BlockData.layerView`, `Nixl.BlockData.blockView`: The views of a
  block.
* `Transfer.copyLayersWith`, `Transfer.copyBlockWith`: The loop and the
  whole-block copy the backends share.
* `Memcpy.copyBlock`, `Cuda.copyBlock`, `NixlTransfer.writeBlockTo`: The
  three backends.

## Theorems

* `Nixl.BlockData.views_tile`: The layer views tile the block view.
* `Nixl.BlockData.fits_of_new`: In a debug build, the blocks of a layout fit.
* `Transfer.Shaped.of_new`: So two blocks of layouts of one shape can be
  compared.
* `Transfer.Shaped.copyLayersWith_range`: The loop over all the layers, run
  to the end.
* `Transfer.Shaped.bytes_tile`: The block copy and the layer copies map the
  same bytes.
* `Memcpy.copyBlock_bytes_eq_copyLayers`,
  `Cuda.copyBlock_bytes_eq_copyLayers`,
  `NixlTransfer.writeBlockTo_bytes_eq_writeLayersTo`: Each backend's two
  ways agree.
* `fullyContiguous_blockView_wraps`: In a release build the block view can
  be shorter than its layers.
-/

namespace Dynamo

namespace BlockManager

open Bytes Memory

/-- `MemoryView`: a region of a block's storage. -/
structure MemoryView where
  addr : Nat
  size : Nat
  deriving DecidableEq, Repr

/-- `TransferError`, with the variants a copy of one block raises. -/
inductive TransferError where
  | executionError (msg : String)
  | blockError (e : BlockError)
  deriving DecidableEq, Repr

/-- `TransferStrategy`. -/
inductive TransferStrategy where
  | memcpy
  | cudaAsyncH2D
  | cudaAsyncD2H
  | cudaAsyncD2D
  | cudaBlockingH2D
  | cudaBlockingD2H
  | nixlWrite
  | nixlRead
  | invalid
  deriving DecidableEq, Repr

/-- A copy a transfer asks for: the source view into the destination view. -/
structure Copy where
  src : MemoryView
  dst : MemoryView
  deriving DecidableEq, Repr

/-- The byte pairs (source address, destination address) copies map, in
    order: a copy moves as many bytes as its source view holds. -/
def Copy.bytes (cs : List Copy) : List (Nat × Nat) :=
  cs.flatMap fun c => copyMap c.src.addr c.dst.addr c.src.size

theorem Copy.length_bytes (cs : List Copy) :
    (Copy.bytes cs).length = (cs.map fun c => c.src.size).sum := by
  induction cs with
  | nil => rfl
  | cons c cs ih =>
      rw [Copy.bytes, List.flatMap_cons, List.length_append, ← Copy.bytes, ih, copyMap,
        List.length_map, List.length_range, List.map_cons, List.sum_cons]

namespace Nixl.BlockData

variable {S : Type} [Storage S] (checks : OverflowChecks)

/-- `is_fully_contiguous`. -/
def isFullyContiguous (d : BlockData S) : Bool :=
  decide (d.layout.layoutType = .fullyContiguous)

/-- `layer_view`, and `layer_view_mut`, which computes the same view: the
    page of one layer of the block. -/
def layerView (d : BlockData S) (layerIdx : Nat) : Except Abort (Except BlockError MemoryView) := do
  match ← d.layout.memoryRegionAddr checks d.blockIdx layerIdx with
  | .error e => return .error (.layout e)
  | .ok offset => return .ok ⟨offset, d.layout.memoryRegionSize⟩

/-- `block_view`, and `block_view_mut`: from the block's first page over all
    its layers, for a fully contiguous layout. -/
def blockView (d : BlockData S) : Except Abort (Except BlockError MemoryView) :=
  if d.isFullyContiguous then do
    match ← d.layout.memoryRegionAddr checks d.blockIdx 0 with
    | .error e => return .error (.layout e)
    | .ok offset =>
        let size ← mulUnsigned checks 64 d.layout.memoryRegionSize d.layout.numLayers
        return .ok ⟨offset, size⟩
  else return .error (.invalidState "Block is not fully contiguous")

omit [Storage S] in
/-- Every layout of the model is fully contiguous. -/
@[simp]
theorem isFullyContiguous_eq_true (d : BlockData S) : d.isFullyContiguous = true := rfl

/-- The address of the block's first page, in exact arithmetic. -/
def start (d : BlockData S) : Nat :=
  Storage.addr d.layout.storage + d.layout.baseOffset + d.blockIdx * d.layout.config.blockStrideInBytes

/-- A block as a layout `new` returned lays it out: in range, with a layer,
    and with its layers back to back. -/
structure Laid (d : BlockData S) : Prop where
  block : d.blockIdx < d.layout.numBlocks
  layers : 0 < d.layout.numLayers
  stride : d.layout.config.layerStrideInBytes = d.layout.memoryRegionSize

/-- The block ends below `2 ^ 64`, so that no address in it wraps. -/
def Fits (d : BlockData S) : Prop :=
  d.start + d.layout.numLayers * d.layout.memoryRegionSize < 2 ^ 64

variable {checks} {d : BlockData S}

/-- In either build, a block in range of a layout `new` returned is laid out. -/
theorem Laid.of_new {config : LayoutConfig} {storage : List S}
    (h : FullyContiguous.new checks config storage = .ok (.ok d.layout))
    (hb : d.blockIdx < d.layout.numBlocks) : d.Laid := by
  obtain ⟨hvalid, hinner, hstride⟩ := FullyContiguous.new_shape h
  have hlayers := (LayoutConfig.validationErrors_eq_nil.mp hvalid).2.1
  refine ⟨hb, ?_, hstride⟩
  unfold FullyContiguous.numLayers
  rw [hinner]
  omega

/-- In a debug build, every block in range of a layout `new` accepts over a
    storage that lies below `2 ^ 64` fits: it lies in the storage. -/
theorem fits_of_new {config : LayoutConfig} {s : S}
    (hspace : Storage.addr s + Storage.size s < 2 ^ 64)
    (h : FullyContiguous.new .enabled config [s] = .ok (.ok d.layout))
    (hb : d.blockIdx < d.layout.numBlocks) : d.Fits := by
  have hd := Laid.of_new h hb
  have hpos := hd.layers
  -- the block's last page ends inside the storage
  obtain ⟨hin, -⟩ := FullyContiguous.new_places_pages hspace.le h
  obtain ⟨a, ha, -, hend⟩ := hin d.blockIdx (d.layout.numLayers - 1) hb (by omega)
  obtain ⟨-, -, rfl⟩ := FullyContiguous.memoryRegionAddr_enabled_eq_ok ha
  rw [hd.stride] at hend
  have hlast : (d.layout.numLayers - 1) * d.layout.memoryRegionSize + d.layout.memoryRegionSize =
      d.layout.numLayers * d.layout.memoryRegionSize := by
    rw [← Nat.succ_mul, Nat.succ_eq_add_one, Nat.sub_add_cancel hd.layers]
  unfold Fits start
  omega

variable (checks)

/-- The page of layer `l` of a block that is laid out and fits is `l` region
    sizes past the block's start. -/
theorem layerView_eq (hd : d.Laid) (hfit : d.Fits) {l : Nat} (hl : l < d.layout.numLayers) :
    d.layerView checks l =
      .ok (.ok ⟨d.start + l * d.layout.memoryRegionSize, d.layout.memoryRegionSize⟩) := by
  have hle : l * d.layout.memoryRegionSize ≤ d.layout.numLayers * d.layout.memoryRegionSize :=
    Nat.mul_le_mul_right _ hl.le
  unfold Fits start at hfit
  unfold layerView
  rw [FullyContiguous.memoryRegionAddr_of_lt checks d.layout hd.block hl (by rw [hd.stride]; omega),
    hd.stride]
  rfl

/-- The block view of a block that is laid out and fits starts at the block
    and spans all its layers. -/
theorem blockView_eq (hd : d.Laid) (hfit : d.Fits) :
    d.blockView checks =
      .ok (.ok ⟨d.start, d.layout.memoryRegionSize * d.layout.numLayers⟩) := by
  have hpos := hd.layers
  unfold Fits start at hfit
  unfold blockView
  rw [if_pos (isFullyContiguous_eq_true d),
    FullyContiguous.memoryRegionAddr_of_lt checks d.layout hd.block hpos (by omega),
    Except.ok_bind, Nat.zero_mul, Nat.add_zero]
  dsimp only
  rw [mulUnsigned_of_lt checks (by rw [Nat.mul_comm]; omega)]
  rfl

/-- The layer views of a block that is laid out and fits tile its block view
    in order: the block view spans all the layers, and layer `l` starts `l`
    region sizes into it. -/
theorem views_tile (hd : d.Laid) (hfit : d.Fits) :
    ∃ a, d.blockView checks = .ok (.ok ⟨a, d.layout.memoryRegionSize * d.layout.numLayers⟩) ∧
      ∀ l < d.layout.numLayers,
        d.layerView checks l = .ok (.ok ⟨a + l * d.layout.memoryRegionSize, d.layout.memoryRegionSize⟩) :=
  ⟨d.start, blockView_eq checks hd hfit, fun _ hl => layerView_eq checks hd hfit hl⟩

end Nixl.BlockData

namespace Transfer

variable {S T : Type} [Storage S] [Storage T] (checks : OverflowChecks)

/-- `debug_assert_eq!` on two sizes. -/
def debugAssertEq (left right : Nat) : Except Abort Unit :=
  debugAssert checks (pure (left == right))
    s!"assertion `left == right` failed\n  left: {left}\n right: {right}"

/-- `assert_eq!` on two numbers of layers, in either build. -/
def assertEq (left right : Nat) : Except Abort Unit :=
  if left = right then pure ()
  else throw (.panic s!"assertion `left == right` failed\n  left: {left}\n right: {right}")

/-- The condition of the overlap checks of the copies,
    `src + size <= dst || dst + size <= src`, with its sums checked. -/
def disjointCheck (c : Copy) : Except Abort Bool := do
  let srcEnd ← addUnsigned checks 64 c.src.addr c.src.size
  if srcEnd ≤ c.dst.addr then pure true
  else do
    let dstEnd ← addUnsigned checks 64 c.dst.addr c.src.size
    pure (decide (dstEnd ≤ c.src.addr))

/-- The two views of a whole-block copy: the source's `block_view` and the
    destination's `block_view_mut`. -/
def blockCopy (src : Nixl.BlockData S) (dst : Nixl.BlockData T) : Except Abort (Except TransferError Copy) := do
  match ← src.blockView checks with
  | .error e => return .error (.blockError e)
  | .ok srcView =>
      match ← dst.blockView checks with
      | .error e => return .error (.blockError e)
      | .ok dstView => return .ok ⟨srcView, dstView⟩

/-- The two views of one layer: the source's `layer_view` and the
    destination's `layer_view_mut`. -/
def layerCopy (src : Nixl.BlockData S) (dst : Nixl.BlockData T) (layerIdx : Nat) :
    Except Abort (Except TransferError Copy) := do
  match ← src.layerView checks layerIdx with
  | .error e => return .error (.blockError e)
  | .ok srcView =>
      match ← dst.layerView checks layerIdx with
      | .error e => return .error (.blockError e)
      | .ok dstView => return .ok ⟨srcView, dstView⟩

/-- The loop of `copy_layers` and `write_layers_to`: for each layer in turn,
    its two views, checked to have one size in a debug build, handed to
    `issue`. The copies made are returned in order. -/
def copyLayersWith (issue : Copy → Except Abort (Except TransferError Unit))
    (src : Nixl.BlockData S) (dst : Nixl.BlockData T) :
    List Nat → Except Abort (Except TransferError (List Copy))
  | [] => return .ok []
  | layerIdx :: rest => do
      match ← layerCopy checks src dst layerIdx with
      | .error e => return .error e
      | .ok c =>
          debugAssertEq checks c.src.size c.dst.size
          match ← issue c with
          | .error e => return .error e
          | .ok () =>
              match ← copyLayersWith issue src dst rest with
              | .error e => return .error e
              | .ok cs => return .ok (c :: cs)

/-- The `copy_block` of the `memcpy` and CUDA backends: for two fully
    contiguous blocks, the block views, checked to have one size in a debug
    build, handed to `issue` at once; otherwise, after checking that the
    blocks have as many layers, the backend's own `copy_layers` over all of
    them. -/
def copyBlockWith (issue : Copy → Except Abort (Except TransferError Unit))
    (copyLayers : List Nat → Except Abort (Except TransferError (List Copy)))
    (src : Nixl.BlockData S) (dst : Nixl.BlockData T) : Except Abort (Except TransferError (List Copy)) :=
  if src.isFullyContiguous && dst.isFullyContiguous then do
    match ← blockCopy checks src dst with
    | .error e => return .error e
    | .ok c =>
        debugAssertEq checks c.src.size c.dst.size
        match ← issue c with
        | .error e => return .error e
        | .ok () => return .ok [c]
  else do
    assertEq src.layout.numLayers dst.layout.numLayers
    copyLayers (List.range src.layout.numLayers)

/-! ### The loop run over all the layers -/

variable {checks}

theorem debugAssertEq_self (n : Nat) : debugAssertEq checks n n = .ok () :=
  debugAssert_of_eq_ok checks _ (by rw [beq_self_eq_true]; rfl)

/-- One pass of the loop whose views are found, of one size, and copied. -/
theorem copyLayersWith_cons {issue : Copy → Except Abort (Except TransferError Unit)}
    {src : Nixl.BlockData S} {dst : Nixl.BlockData T} {layerIdx : Nat} {rest : List Nat} {c : Copy}
    (hcopy : layerCopy checks src dst layerIdx = .ok (.ok c)) (hsize : c.src.size = c.dst.size)
    (hissue : issue c = .ok (.ok ())) :
    copyLayersWith checks issue src dst (layerIdx :: rest) =
      (do
        match ← copyLayersWith checks issue src dst rest with
        | .error e => return .error e
        | .ok cs => return .ok (c :: cs)) := by
  rw [copyLayersWith, hcopy, Except.ok_bind]
  dsimp only
  rw [hsize, debugAssertEq_self, Except.ok_bind, hissue, Except.ok_bind]

/-- The loop over a list of layers each of whose passes finds its views, of
    one size, and copies them returns their copies, in order. -/
theorem copyLayersWith_eq {issue : Copy → Except Abort (Except TransferError Unit)}
    {src : Nixl.BlockData S} {dst : Nixl.BlockData T} {f : Nat → Copy} :
    ∀ {layers : List Nat}, (∀ l ∈ layers, layerCopy checks src dst l = .ok (.ok (f l)) ∧
      (f l).src.size = (f l).dst.size ∧ issue (f l) = .ok (.ok ())) →
      copyLayersWith checks issue src dst layers = .ok (.ok (layers.map f))
  | [], _ => rfl
  | l :: rest, h => by
      obtain ⟨hcopy, hsize, hissue⟩ := h l List.mem_cons_self
      have ih := copyLayersWith_eq fun l' hl' => h l' (List.mem_cons_of_mem l hl')
      rw [copyLayersWith_cons hcopy hsize hissue, ih, Except.ok_bind, List.map_cons]
      rfl

/-! ### Two blocks of one shape -/

/-- Two blocks to copy between, of one shape: each laid out and fitting
    below `2 ^ 64`, with as many layers and regions of one size. -/
structure Shaped (src : Nixl.BlockData S) (dst : Nixl.BlockData T) : Prop where
  srcLaid : src.Laid
  dstLaid : dst.Laid
  srcFits : src.Fits
  dstFits : dst.Fits
  layers : src.layout.numLayers = dst.layout.numLayers
  size : src.layout.memoryRegionSize = dst.layout.memoryRegionSize

/-- Two blocks of one shape, the source apart from the destination, as the
    overlap checks of a debug build want them. -/
structure Matched (src : Nixl.BlockData S) (dst : Nixl.BlockData T) : Prop extends
    Shaped src dst where
  apart : src.start + src.layout.numLayers * src.layout.memoryRegionSize ≤ dst.start ∨
    dst.start + src.layout.numLayers * src.layout.memoryRegionSize ≤ src.start

/-- The copy of the whole block. -/
def wholeCopy (src : Nixl.BlockData S) (dst : Nixl.BlockData T) : Copy :=
  ⟨⟨src.start, src.layout.memoryRegionSize * src.layout.numLayers⟩,
    ⟨dst.start, dst.layout.memoryRegionSize * dst.layout.numLayers⟩⟩

/-- The copy of layer `l`. -/
def layerCopyAt (src : Nixl.BlockData S) (dst : Nixl.BlockData T) (l : Nat) : Copy :=
  ⟨⟨src.start + l * src.layout.memoryRegionSize, src.layout.memoryRegionSize⟩,
    ⟨dst.start + l * dst.layout.memoryRegionSize, dst.layout.memoryRegionSize⟩⟩

section Shaped

variable {src : Nixl.BlockData S} {dst : Nixl.BlockData T} (h : Shaped src dst)
include h

theorem Shaped.blockCopy : blockCopy checks src dst = .ok (.ok (wholeCopy src dst)) := by
  unfold Transfer.blockCopy
  rw [Nixl.BlockData.blockView_eq checks h.srcLaid h.srcFits,
    Nixl.BlockData.blockView_eq checks h.dstLaid h.dstFits]
  rfl

theorem Shaped.layerCopy {l : Nat} (hl : l < src.layout.numLayers) :
    layerCopy checks src dst l = .ok (.ok (layerCopyAt src dst l)) := by
  unfold Transfer.layerCopy
  rw [Nixl.BlockData.layerView_eq checks h.srcLaid h.srcFits hl,
    Nixl.BlockData.layerView_eq checks h.dstLaid h.dstFits (h.layers ▸ hl)]
  rfl

theorem Shaped.wholeCopy_size : (wholeCopy src dst).src.size = (wholeCopy src dst).dst.size := by
  simp only [wholeCopy, h.layers, h.size]

theorem Shaped.layerCopyAt_size (l : Nat) :
    (layerCopyAt src dst l).src.size = (layerCopyAt src dst l).dst.size := by
  simp only [layerCopyAt, h.size]

/-- The whole-block copy and the copies of all the layers, in order, map the
    same bytes: the layers are the block's slices. -/
theorem Shaped.bytes_tile :
    Copy.bytes [wholeCopy src dst] =
      Copy.bytes ((List.range src.layout.numLayers).map (layerCopyAt src dst)) := by
  have hshift : ∀ l, dst.start + l * dst.layout.memoryRegionSize =
      dst.start + l * src.layout.memoryRegionSize := fun l => by rw [h.size]
  simp only [Copy.bytes, wholeCopy, layerCopyAt, List.flatMap_cons, List.flatMap_nil,
    List.append_nil, List.flatMap_map, hshift]
  rw [Nat.mul_comm, copyMap_mul]

/-- The loop over all the layers of two blocks of one shape copies each
    layer in turn, when `issue` accepts every layer's copy. -/
theorem Shaped.copyLayersWith_range {issue : Copy → Except Abort (Except TransferError Unit)}
    (hissue : ∀ l < src.layout.numLayers, issue (layerCopyAt src dst l) = .ok (.ok ())) :
    copyLayersWith checks issue src dst (List.range src.layout.numLayers) =
      .ok (.ok ((List.range src.layout.numLayers).map (layerCopyAt src dst))) :=
  copyLayersWith_eq fun _ hl =>
    have hl := List.mem_range.mp hl
    ⟨h.layerCopy hl, h.layerCopyAt_size _, hissue _ hl⟩

/-- For two blocks of one shape, `copy_block` copies the whole block at
    once, when `issue` accepts that copy. -/
theorem Shaped.copyBlockWith_eq {issue : Copy → Except Abort (Except TransferError Unit)}
    {copyLayers : List Nat → Except Abort (Except TransferError (List Copy))}
    (hissue : issue (wholeCopy src dst) = .ok (.ok ())) :
    copyBlockWith checks issue copyLayers src dst = .ok (.ok [wholeCopy src dst]) := by
  unfold copyBlockWith
  rw [Nixl.BlockData.isFullyContiguous_eq_true, Nixl.BlockData.isFullyContiguous_eq_true,
    Bool.and_self, if_pos rfl, h.blockCopy, Except.ok_bind]
  dsimp only
  rw [h.wholeCopy_size, debugAssertEq_self, Except.ok_bind, hissue]
  rfl

end Shaped

section Matched

variable {src : Nixl.BlockData S} {dst : Nixl.BlockData T} (h : Matched src dst)
include h

/-- The whole block's regions are apart and end below `2 ^ 64`. -/
theorem Matched.wholeCopy_apart :
    (wholeCopy src dst).src.addr + (wholeCopy src dst).src.size < 2 ^ 64 ∧
      (wholeCopy src dst).dst.addr + (wholeCopy src dst).src.size < 2 ^ 64 ∧
      ((wholeCopy src dst).src.addr + (wholeCopy src dst).src.size ≤ (wholeCopy src dst).dst.addr ∨
        (wholeCopy src dst).dst.addr + (wholeCopy src dst).src.size ≤ (wholeCopy src dst).src.addr) := by
  have hs := h.srcFits
  have hd := h.dstFits
  unfold Nixl.BlockData.Fits at hs hd
  rw [← h.layers, ← h.size] at hd
  simp only [wholeCopy, Nat.mul_comm src.layout.memoryRegionSize]
  exact ⟨hs, hd, h.apart⟩

/-- So are each layer's: a layer lies inside its block. -/
theorem Matched.layerCopyAt_apart {l : Nat} (hl : l < src.layout.numLayers) :
    (layerCopyAt src dst l).src.addr + (layerCopyAt src dst l).src.size < 2 ^ 64 ∧
      (layerCopyAt src dst l).dst.addr + (layerCopyAt src dst l).src.size < 2 ^ 64 ∧
      ((layerCopyAt src dst l).src.addr + (layerCopyAt src dst l).src.size ≤
          (layerCopyAt src dst l).dst.addr ∨
        (layerCopyAt src dst l).dst.addr + (layerCopyAt src dst l).src.size ≤
          (layerCopyAt src dst l).src.addr) := by
  have hs := h.srcFits
  have hd := h.dstFits
  have hapart := h.apart
  unfold Nixl.BlockData.Fits at hs hd
  rw [← h.layers, ← h.size] at hd
  -- a layer ends where the next begins, at the latest where the block ends
  have hend : l * src.layout.memoryRegionSize + src.layout.memoryRegionSize ≤
      src.layout.numLayers * src.layout.memoryRegionSize := by
    rw [← Nat.succ_mul]
    exact Nat.mul_le_mul_right _ hl
  simp only [layerCopyAt, ← h.size]
  omega

end Matched

/-- The overlap check passes on regions apart whose sums fit. -/
theorem disjointCheck_eq_true {c : Copy} (hsrc : c.src.addr + c.src.size < 2 ^ 64)
    (hdst : c.dst.addr + c.src.size < 2 ^ 64)
    (hapart : c.src.addr + c.src.size ≤ c.dst.addr ∨ c.dst.addr + c.src.size ≤ c.src.addr) :
    disjointCheck checks c = .ok true := by
  unfold disjointCheck
  rw [addUnsigned_of_lt checks hsrc, Except.ok_bind]
  by_cases hle : c.src.addr + c.src.size ≤ c.dst.addr
  · rw [if_pos hle]
    rfl
  · rw [if_neg hle, addUnsigned_of_lt checks hdst, Except.ok_bind]
    have : c.dst.addr + c.src.size ≤ c.src.addr := hapart.resolve_left hle
    simp only [this, decide_true]
    rfl

end Transfer

/-! ### The `memcpy` backend -/

namespace Memcpy

open Transfer

variable {S T : Type} [Storage S] [Storage T] (checks : OverflowChecks)

/-- `memcpy`: in a debug build, the check that the two regions do not
    overlap; then `copy_nonoverlapping`, which does not fail. -/
def memcpy (c : Copy) : Except Abort Unit :=
  debugAssert checks (disjointCheck checks c)
    "Source and destination memory regions must not overlap for copy_nonoverlapping"

/-- `memcpy::copy_layers`. -/
def copyLayers (layerRange : List Nat) (src : Nixl.BlockData S) (dst : Nixl.BlockData T) :
    Except Abort (Except TransferError (List Copy)) :=
  copyLayersWith checks (fun c => do memcpy checks c; return .ok ()) src dst layerRange

/-- `memcpy::copy_block`. -/
def copyBlock (src : Nixl.BlockData S) (dst : Nixl.BlockData T) :
    Except Abort (Except TransferError (List Copy)) :=
  copyBlockWith checks (fun c => do memcpy checks c; return .ok ())
    (fun layerRange => copyLayers checks layerRange src dst) src dst

variable {checks}

theorem memcpy_eq_ok {c : Copy} (hsrc : c.src.addr + c.src.size < 2 ^ 64)
    (hdst : c.dst.addr + c.src.size < 2 ^ 64)
    (hapart : c.src.addr + c.src.size ≤ c.dst.addr ∨ c.dst.addr + c.src.size ≤ c.src.addr) :
    memcpy checks c = .ok () :=
  debugAssert_of_eq_ok checks _ (disjointCheck_eq_true hsrc hdst hapart)

/-- `memcpy::copy_block` and `memcpy::copy_layers` over all the layers map
    the same bytes, for two matched blocks. -/
theorem copyBlock_bytes_eq_copyLayers {src : Nixl.BlockData S} {dst : Nixl.BlockData T}
    (h : Matched src dst) :
    ∃ cs cs', copyBlock checks src dst = .ok (.ok cs) ∧
      copyLayers checks (List.range src.layout.numLayers) src dst = .ok (.ok cs') ∧
      Copy.bytes cs = Copy.bytes cs' := by
  have hwhole := h.wholeCopy_apart
  refine ⟨_, _, h.copyBlockWith_eq ?_, h.copyLayersWith_range fun l hl => ?_, h.bytes_tile⟩
  · rw [memcpy_eq_ok hwhole.1 hwhole.2.1 hwhole.2.2]
    rfl
  · have hlayer := h.layerCopyAt_apart hl
    rw [memcpy_eq_ok hlayer.1 hlayer.2.1 hlayer.2.2]
    rfl

end Memcpy

/-! ### The CUDA backend -/

namespace Cuda

open Transfer

variable {S T : Type} [Storage S] [Storage T] (checks : OverflowChecks)
  (driver : TransferStrategy → Copy → Except String Unit)

/-- The body `cuda_memcpy_h2d`, `cuda_memcpy_d2h` and `cuda_memcpy_d2d`
    share: in a debug build, the checks that neither pointer is null and that
    the regions do not overlap; then the driver's copy, whose error becomes
    an `ExecutionError` naming the direction. -/
def cudaMemcpyWith (copy : Copy → Except String Unit) (srcNull dstNull direction : String)
    (c : Copy) : Except Abort (Except TransferError Unit) := do
  debugAssert checks (pure (c.src.addr != 0)) srcNull
  debugAssert checks (pure (c.dst.addr != 0)) dstNull
  debugAssert checks (disjointCheck checks c)
    "Source and destination device memory regions must not overlap for D2D copy"
  match copy c with
  | .error e => return .error (.executionError s!"CUDA {direction} memcpy failed: {e}")
  | .ok () => return .ok ()

/-- `cuda_memcpy_h2d`. -/
def cudaMemcpyH2d : Copy → Except Abort (Except TransferError Unit) :=
  cudaMemcpyWith checks (driver .cudaAsyncH2D) "Source host pointer is null"
    "Destination device pointer is null" "H2D"

/-- `cuda_memcpy_d2h`. -/
def cudaMemcpyD2h : Copy → Except Abort (Except TransferError Unit) :=
  cudaMemcpyWith checks (driver .cudaAsyncD2H) "Source device pointer is null"
    "Destination host pointer is null" "D2H"

/-- `cuda_memcpy_d2d`. -/
def cudaMemcpyD2d : Copy → Except Abort (Except TransferError Unit) :=
  cudaMemcpyWith checks (driver .cudaAsyncD2D) "Source device pointer is null"
    "Destination device pointer is null" "D2D"

/-- `cuda_memcpy_fn_ptr`: the copy function of an asynchronous strategy. -/
def cudaMemcpyFnPtr :
    TransferStrategy → Except TransferError (Copy → Except Abort (Except TransferError Unit))
  | .cudaAsyncH2D => .ok (cudaMemcpyH2d checks driver)
  | .cudaAsyncD2H => .ok (cudaMemcpyD2h checks driver)
  | .cudaAsyncD2D => .ok (cudaMemcpyD2d checks driver)
  | _ => .error (.executionError "Unsupported copy strategy for CUDA memcpy async")

/-- `expected_strategy`: the copy between pinned host memory and device
    memory that the two storages' types call for. -/
def expectedStrategy : StorageType → StorageType → TransferStrategy
  | .pinned, .device _ => .cudaAsyncH2D
  | .device _, .pinned => .cudaAsyncD2H
  | .device _, .device _ => .cudaAsyncD2D
  | _, _ => .invalid

/-- What `copy_block` and `copy_layers` do first: the copy function of the
    strategy, then, in a debug build, the check that the strategy is the one
    the two storages call for. -/
def memcpyFn (strategy : TransferStrategy) (src : Nixl.BlockData S) (dst : Nixl.BlockData T) :
    Except Abort (Except TransferError (Copy → Except Abort (Except TransferError Unit))) := do
  match cudaMemcpyFnPtr checks driver strategy with
  | .error e => return .error e
  | .ok fn =>
      debugAssert checks
        (pure (decide (strategy = expectedStrategy src.layout.storageType dst.layout.storageType)))
        "assertion `left == right` failed"
      return .ok fn

/-- `cuda::copy_layers`. -/
def copyLayers (strategy : TransferStrategy) (layerRange : List Nat) (src : Nixl.BlockData S)
    (dst : Nixl.BlockData T) : Except Abort (Except TransferError (List Copy)) := do
  match ← memcpyFn checks driver strategy src dst with
  | .error e => return .error e
  | .ok fn => copyLayersWith checks fn src dst layerRange

/-- `cuda::copy_block`. -/
def copyBlock (strategy : TransferStrategy) (src : Nixl.BlockData S) (dst : Nixl.BlockData T) :
    Except Abort (Except TransferError (List Copy)) := do
  match ← memcpyFn checks driver strategy src dst with
  | .error e => return .error e
  | .ok fn =>
      copyBlockWith checks fn (fun layerRange => copyLayers checks driver strategy layerRange src dst)
        src dst

variable {checks}

/-- A CUDA copy between non-null regions apart whose sums fit is the
    driver's copy. -/
theorem cudaMemcpyWith_eq_ok {copy : Copy → Except String Unit} {srcNull dstNull direction : String}
    {c : Copy} (hnull : c.src.addr ≠ 0 ∧ c.dst.addr ≠ 0) (hsrc : c.src.addr + c.src.size < 2 ^ 64)
    (hdst : c.dst.addr + c.src.size < 2 ^ 64)
    (hapart : c.src.addr + c.src.size ≤ c.dst.addr ∨ c.dst.addr + c.src.size ≤ c.src.addr)
    (hcopy : copy c = .ok ()) :
    cudaMemcpyWith checks copy srcNull dstNull direction c = .ok (.ok ()) := by
  -- the null checks pass on non-zero addresses
  have hne : ∀ {n : Nat}, n ≠ 0 → (pure (n != 0) : Except Abort Bool) = .ok true := fun hn => by
    rw [bne_iff_ne.mpr hn]
    rfl
  unfold cudaMemcpyWith
  rw [debugAssert_of_eq_ok checks _ (hne hnull.1), Except.ok_bind,
    debugAssert_of_eq_ok checks _ (hne hnull.2), Except.ok_bind,
    debugAssert_of_eq_ok checks _ (disjointCheck_eq_true hsrc hdst hapart), Except.ok_bind, hcopy]
  rfl

/-- Whatever copy function the strategy has, it copies what
    `cudaMemcpyWith_eq_ok` lets through, when the driver copies it. -/
theorem cudaMemcpyFnPtr_eq_ok {strategy : TransferStrategy}
    {fn : Copy → Except Abort (Except TransferError Unit)} {c : Copy}
    (h : cudaMemcpyFnPtr checks driver strategy = .ok fn) (hnull : c.src.addr ≠ 0 ∧ c.dst.addr ≠ 0)
    (hsrc : c.src.addr + c.src.size < 2 ^ 64) (hdst : c.dst.addr + c.src.size < 2 ^ 64)
    (hapart : c.src.addr + c.src.size ≤ c.dst.addr ∨ c.dst.addr + c.src.size ≤ c.src.addr)
    (hdriver : driver strategy c = .ok ()) : fn c = .ok (.ok ()) := by
  cases strategy
  case cudaAsyncH2D | cudaAsyncD2H | cudaAsyncD2D =>
    cases h
    exact cudaMemcpyWith_eq_ok hnull hsrc hdst hapart hdriver
  all_goals cases h

omit [Storage S] [Storage T] in
theorem memcpyFn_eq_ok {strategy : TransferStrategy} {src : Nixl.BlockData S} {dst : Nixl.BlockData T}
    {fn : Copy → Except Abort (Except TransferError Unit)}
    (h : memcpyFn checks driver strategy src dst = .ok (.ok fn)) :
    cudaMemcpyFnPtr checks driver strategy = .ok fn := by
  unfold memcpyFn at h
  split at h
  · cases h
  · next fn' hfn =>
      obtain ⟨u, -, h⟩ := Except.bind_eq_ok h
      cases h
      exact hfn

/-- `cuda::copy_block` and `cuda::copy_layers` over all the layers, for two
    matched blocks at non-zero addresses and a driver that copies what it is
    given: either both stop alike before any copy, on a strategy they do not
    take, or both copy, and map the same bytes. -/
theorem copyBlock_bytes_eq_copyLayers {strategy : TransferStrategy} {src : Nixl.BlockData S}
    {dst : Nixl.BlockData T} (h : Matched src dst) (hnull : src.start ≠ 0 ∧ dst.start ≠ 0)
    (hdriver : ∀ c, driver strategy c = .ok ()) :
    copyBlock checks driver strategy src dst =
        copyLayers checks driver strategy (List.range src.layout.numLayers) src dst ∨
      ∃ cs cs', copyBlock checks driver strategy src dst = .ok (.ok cs) ∧
        copyLayers checks driver strategy (List.range src.layout.numLayers) src dst = .ok (.ok cs') ∧
        Copy.bytes cs = Copy.bytes cs' := by
  unfold copyBlock copyLayers
  cases hfn : memcpyFn checks driver strategy src dst with
  | error a => exact Or.inl rfl
  | ok r =>
      cases r with
      | error e => exact Or.inl rfl
      | ok fn =>
          -- the strategy has a copy function, and it lets every copy through
          simp only [Except.ok_bind]
          have hptr := memcpyFn_eq_ok driver hfn
          have hwhole := h.wholeCopy_apart
          refine Or.inr ⟨_, _, h.copyBlockWith_eq ?_, h.copyLayersWith_range fun l hl => ?_,
            h.bytes_tile⟩
          · exact cudaMemcpyFnPtr_eq_ok driver hptr hnull hwhole.1 hwhole.2.1 hwhole.2.2
              (hdriver _)
          · have hlayer := h.layerCopyAt_apart hl
            exact cudaMemcpyFnPtr_eq_ok driver hptr
              ⟨by simp only [layerCopyAt]; omega, by simp only [layerCopyAt]; omega⟩
              hlayer.1 hlayer.2.1 hlayer.2.2 (hdriver _)

end Cuda

/-! ### The NIXL backend -/

namespace NixlTransfer

open Transfer

variable {S T : Type} [Storage S] [Storage T] (checks : OverflowChecks)

/-- The request `write_block_to` and `write_layers_to` post: the descriptor
    pairs, in order, written to the destination's worker, with the
    notification. -/
structure XferRequest where
  copies : List Copy
  remoteWorkerId : Nat
  notify : Option String
  deriving DecidableEq, Repr

/-- `write_layers_to`: the agent, then the descriptor pairs of the layers,
    checked to have one size in a debug build, then one request. -/
def writeLayersTo (agent : Option Nixl.NixlAgent) (layerRange : List Nat) (src : Nixl.BlockData S)
    (dst : Nixl.BlockData T) (notify : Option String) :
    Except Abort (Except TransferError XferRequest) := do
  let _ ← Abort.expect agent "NIXL agent not found"
  match ← copyLayersWith checks (fun _ => pure (.ok ())) src dst layerRange with
  | .error e => return .error e
  | .ok copies => return .ok ⟨copies, dst.workerId, notify⟩

/-- `write_block_to`: for two fully contiguous blocks, the agent, then one
    pair of descriptors of the block views, with no check of their sizes;
    otherwise `write_layers_to` over all the layers. -/
def writeBlockTo (agent : Option Nixl.NixlAgent) (src : Nixl.BlockData S) (dst : Nixl.BlockData T)
    (notify : Option String) : Except Abort (Except TransferError XferRequest) :=
  if src.isFullyContiguous && dst.isFullyContiguous then do
    let _ ← Abort.expect agent "NIXL agent not found"
    match ← blockCopy checks src dst with
    | .error e => return .error e
    | .ok c => return .ok ⟨[c], dst.workerId, notify⟩
  else do
    assertEq src.layout.numLayers dst.layout.numLayers
    writeLayersTo checks agent (List.range src.layout.numLayers) src dst notify

variable {checks}

/-- `write_block_to` and `write_layers_to` over all the layers, for two
    blocks of one shape, apart or not: either both stop alike with no agent,
    or both post a request to the same worker with the same notification,
    and the two requests map the same bytes. -/
theorem writeBlockTo_bytes_eq_writeLayersTo {agent : Option Nixl.NixlAgent}
    {notify : Option String} {src : Nixl.BlockData S} {dst : Nixl.BlockData T}
    (h : Shaped src dst) :
    writeBlockTo checks agent src dst notify =
        writeLayersTo checks agent (List.range src.layout.numLayers) src dst notify ∨
      ∃ r r', writeBlockTo checks agent src dst notify = .ok (.ok r) ∧
        writeLayersTo checks agent (List.range src.layout.numLayers) src dst notify = .ok (.ok r') ∧
        Copy.bytes r.copies = Copy.bytes r'.copies ∧ r.remoteWorkerId = r'.remoteWorkerId ∧
        r.notify = r'.notify := by
  cases agent with
  | none => exact Or.inl rfl
  | some a =>
      have hlayers : copyLayersWith checks (fun _ => pure (.ok ())) src dst
          (List.range src.layout.numLayers) =
          .ok (.ok ((List.range src.layout.numLayers).map (layerCopyAt src dst))) :=
        h.copyLayersWith_range fun _ _ => rfl
      refine Or.inr ⟨⟨[wholeCopy src dst], dst.workerId, notify⟩,
        ⟨(List.range src.layout.numLayers).map (layerCopyAt src dst), dst.workerId, notify⟩,
        ?_, ?_, h.bytes_tile, rfl, rfl⟩
      · unfold writeBlockTo
        rw [Nixl.BlockData.isFullyContiguous_eq_true, Nixl.BlockData.isFullyContiguous_eq_true,
          Bool.and_self, if_pos rfl]
        show (blockCopy checks src dst >>= _) = _
        rw [h.blockCopy]
        rfl
      · unfold writeLayersTo
        show (copyLayersWith checks _ src dst _ >>= _) = _
        rw [hlayers]
        rfl

end NixlTransfer

/-! ### Both builds -/

namespace Transfer

variable {S T : Type} [Storage S] [Storage T]

/-- In a debug build, two blocks in range of layouts `new` accepts over
    storages below `2 ^ 64`, with as many layers and regions of one size,
    are of one shape. -/
theorem Shaped.of_new {src : Nixl.BlockData S} {dst : Nixl.BlockData T} {srcConfig dstConfig : LayoutConfig}
    {s : S} {t : T} (hs : Storage.addr s + Storage.size s < 2 ^ 64)
    (ht : Storage.addr t + Storage.size t < 2 ^ 64)
    (hsrc : FullyContiguous.new .enabled srcConfig [s] = .ok (.ok src.layout))
    (hdst : FullyContiguous.new .enabled dstConfig [t] = .ok (.ok dst.layout))
    (hb : src.blockIdx < src.layout.numBlocks) (hb' : dst.blockIdx < dst.layout.numBlocks)
    (hlayers : src.layout.numLayers = dst.layout.numLayers)
    (hsize : src.layout.memoryRegionSize = dst.layout.memoryRegionSize) : Shaped src dst :=
  ⟨Nixl.BlockData.Laid.of_new hsrc hb, Nixl.BlockData.Laid.of_new hdst hb',
    Nixl.BlockData.fits_of_new hs hsrc hb, Nixl.BlockData.fits_of_new ht hdst hb', hlayers, hsize⟩

end Transfer

/-- In a release build, a layout of one block of two layers of `2 ^ 63`
    bytes is accepted over a storage of no bytes, and its block view wraps to
    no bytes while its layers hold `2 ^ 63` bytes each: `memcpy::copy_block`
    copies nothing into a block of another such layout, and `copy_layers`
    copies `2 ^ 64` bytes. -/
theorem fullyContiguous_blockView_wraps :
    ∃ src dst : Nixl.BlockData SystemStorage,
      FullyContiguous.new .disabled ⟨1, 2, 2 ^ 63, 1, 1, .u8⟩ [⟨4096, 0, []⟩] = .ok (.ok src.layout) ∧
      FullyContiguous.new .disabled ⟨1, 2, 2 ^ 63, 1, 1, .u8⟩ [⟨8192, 0, []⟩] = .ok (.ok dst.layout) ∧
      src.blockIdx = 0 ∧ dst.blockIdx = 0 ∧
      src.blockView .disabled = .ok (.ok ⟨4096, 0⟩) ∧
      src.layerView .disabled 0 = .ok (.ok ⟨4096, 2 ^ 63⟩) ∧
      src.layerView .disabled 1 = .ok (.ok ⟨4096 + 2 ^ 63, 2 ^ 63⟩) ∧
      Memcpy.copyBlock .disabled src dst = .ok (.ok [⟨⟨4096, 0⟩, ⟨8192, 0⟩⟩]) ∧
      ∃ cs, Memcpy.copyLayers .disabled (List.range 2) src dst = .ok (.ok cs) ∧
        (Copy.bytes cs).length = 2 ^ 64 := by
  -- the layouts are what `new` returns; each view and copy is then computed
  refine ⟨⟨_, 0, 0, 0⟩, ⟨_, 0, 0, 1⟩, rfl, rfl, rfl, rfl, ?_, ?_, ?_, ?_,
    [⟨⟨4096, 2 ^ 63⟩, ⟨8192, 2 ^ 63⟩⟩, ⟨⟨4096 + 2 ^ 63, 2 ^ 63⟩, ⟨8192 + 2 ^ 63, 2 ^ 63⟩⟩], ?_, ?_⟩
  · rfl
  · rfl
  · rfl
  · rfl
  · rfl
  · rw [Copy.length_bytes]
    rfl

end BlockManager

end Dynamo
