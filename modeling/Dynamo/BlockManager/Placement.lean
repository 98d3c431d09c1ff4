import Dynamo.BlockManager.Layout
import Dynamo.Lib.Memory

/-!
# Where the Pages of a Layout Lie

What `FullyContiguous::new` guarantees of the addresses `memory_region_addr`
returns, in the two builds of the code.

With overflow checks, every size `FullyContiguousConfig::new` computes is the
exact one when it returns (`FullyContiguousConfig.exact`), and so is the
base offset of `FullyContiguous::new`. A layout `new` accepts over a storage
that lies in the 64-bit address space then has every page inside the
storage, distinct pages disjoint, every block at a multiple of the alignment,
and out-of-range indices refused (`FullyContiguous.new_places_pages`). The
size that `allocate` asks for always passes the size check
(`FullyContiguous.allocate_passes_size_check`): the padding it adds covers
any base offset.

Without overflow checks, which is what the repository's release profile
builds, the sizes wrap. A block count and stride whose product is `2 ^ 64`
give a layout of `2 ^ 63` bytes where three blocks of `2 ^ 63` bytes were
asked for, and `new` accepts a storage of that size: the second block lies
outside it and the third on top of the first
(`fullyContiguous_accepts_small_storage`). The padding `allocate` adds can
wrap too, and then the size check refuses the storage it allocated
(`fullyContiguous_allocate_fails_size_check`).

## Main definitions

* `FullyContiguousConfig.exact`: The sizes of a configuration in exact
  arithmetic.
* `exactBaseOffset`: The base offset in exact arithmetic.
* `NullDeviceStorage`: The storage of the layout tests, at address zero.

## Theorems

* `FullyContiguousConfig.new_enabled_eq_ok`: With overflow checks the sizes
  are exact.
* `FullyContiguous.new_enabled_cases`: So is the base offset, and the
  storage is accepted exactly when it holds the layout.
* `FullyContiguous.new_shape`: In either build, a block's layers are back
  to back.
* `FullyContiguous.new_places_pages`: Pages lie in the storage, apart and
  aligned.
* `FullyContiguous.allocate_passes_size_check`: `allocate` never fails the
  size check.
* `fullyContiguous_accepts_small_storage`: Without overflow checks, a storage
  too small for the layout passes.
-/

namespace Dynamo

namespace BlockManager

open Bytes Memory

/-! ### Checks of the configuration -/

theorem isPowerOfTwo_iff {n : Nat} : isPowerOfTwo n = true ↔ n.isPowerOfTwo := by
  rw [← Nat.ne_zero_and_sub_one_eq_zero_iff_isPowerOfTwo]
  simp only [isPowerOfTwo, Bool.and_eq_true, bne_iff_ne, ne_eq, beq_iff_eq]

theorem LayoutConfig.validate_eq_ok {c : LayoutConfig} :
    c.validate = .ok () ↔ c.validationErrors = [] := by
  unfold LayoutConfig.validate
  cases c.validationErrors with
  | nil => exact ⟨fun _ => rfl, fun _ => rfl⟩
  | cons e es => exact ⟨fun hc => (by cases hc), fun hc => (by cases hc)⟩

/-- A configuration passes validation exactly when its four counts are
    positive and its alignment is a power of two. -/
theorem LayoutConfig.validationErrors_eq_nil {c : LayoutConfig} :
    c.validationErrors = [] ↔ 1 ≤ c.numBlocks ∧ 1 ≤ c.numLayers ∧ 1 ≤ c.pageSize ∧
      1 ≤ c.innerDim ∧ c.alignment.isPowerOfTwo := by
  unfold LayoutConfig.validationErrors rangeMinOne
  rw [← isPowerOfTwo_iff]
  simp only [List.append_eq_nil_iff, ite_eq_left_iff, reduceCtorEq, imp_false, not_not,
    Bool.not_eq_true, and_assoc]
  cases isPowerOfTwo c.alignment <;> simp

theorem DType.sizeInBytes_pos (d : DType) : 0 < d.sizeInBytes := by
  cases d <;> decide

/-! ### Exact sizes -/

/-- The sizes `FullyContiguousConfig::new` computes from a configuration,
    in exact arithmetic. -/
def FullyContiguousConfig.exact (config : LayoutConfig) : FullyContiguousConfig :=
  let memoryRegionSize := config.pageSize * config.innerDim * config.dtype.sizeInBytes
  let naturalBlockStride := config.numLayers * memoryRegionSize
  let blockStrideInBytes :=
    if config.alignment > 1 then alignedUp naturalBlockStride config.alignment
    else naturalBlockStride
  ⟨config, memoryRegionSize, memoryRegionSize, naturalBlockStride, blockStrideInBytes,
    (config.numBlocks - 1) * blockStrideInBytes + naturalBlockStride⟩

/-- `align_up` that returns with overflow checks rounds up: the sum
    `value + alignment` fits, and the mask of a power of two clears its low
    bits. -/
theorem alignUp_enabled_eq_ok {value alignment r : Nat} (hpow : alignment.isPowerOfTwo)
    (h : alignUp .enabled value alignment = .ok r) :
    value + alignment < 2 ^ 64 ∧ r = alignedUp value alignment := by
  unfold alignUp at h
  obtain ⟨sum, hsum, h⟩ := Except.bind_eq_ok h
  obtain ⟨hlt, rfl⟩ := addUnsigned_enabled_eq_ok hsum
  obtain ⟨top, htop, h⟩ := Except.bind_eq_ok h
  obtain ⟨-, rfl⟩ := subUnsigned_enabled_eq_ok htop
  obtain ⟨mask, hmask, h⟩ := Except.bind_eq_ok h
  obtain ⟨-, rfl⟩ := subUnsigned_enabled_eq_ok hmask
  obtain ⟨k, rfl⟩ := hpow
  -- the alignment fits in 64 bits, so the mask keeps bits `k` to `63`
  have hk : k ≤ 64 := by
    by_contra hk
    have : 2 ^ 65 ≤ 2 ^ k := Nat.pow_le_pow_right (by decide) (by omega)
    omega
  have hone : 1 ≤ 2 ^ k := Nat.one_le_two_pow
  have hm : 2 ^ 64 - 1 - (2 ^ k - 1) = 2 ^ 64 - 2 ^ k := by omega
  refine ⟨hlt, ?_⟩
  rw [← Except.ok.inj h, hm, and_two_pow_sub_two_pow (by omega) hk]
  rfl

variable {config : LayoutConfig} {c : FullyContiguousConfig}

/-- With overflow checks, `FullyContiguousConfig::new` returns a
    configuration only when it is valid, and then with the exact sizes, the
    last of which fits in 64 bits. -/
theorem FullyContiguousConfig.new_enabled_eq_ok
    (h : FullyContiguousConfig.new .enabled config = .ok (.ok c)) :
    config.validationErrors = [] ∧ c = exact config ∧ c.layoutDataBytes < 2 ^ 64 := by
  unfold FullyContiguousConfig.new at h
  cases hv : config.validate with
  | error e => rw [hv] at h; cases h
  | ok u =>
      rw [hv] at h
      have hvalid := LayoutConfig.validate_eq_ok.mp hv
      refine ⟨hvalid, ?_⟩
      obtain ⟨-, -, -, -, hpow⟩ := LayoutConfig.validationErrors_eq_nil.mp hvalid
      obtain ⟨pe, hpe, h⟩ := Except.bind_eq_ok h
      obtain ⟨-, rfl⟩ := mulUnsigned_enabled_eq_ok hpe
      obtain ⟨rs, hrs, h⟩ := Except.bind_eq_ok h
      obtain ⟨-, rfl⟩ := mulUnsigned_enabled_eq_ok hrs
      obtain ⟨ns, hns, h⟩ := Except.bind_eq_ok h
      obtain ⟨-, rfl⟩ := mulUnsigned_enabled_eq_ok hns
      -- the two ways to the block stride join in one continuation: it is
      -- rounded up exactly when the alignment is above one
      dsimp only at h
      obtain ⟨bs, hbs, h⟩ : ∃ bs, bs = (exact config).blockStrideInBytes ∧ _ := by
        split at h
        · next ha =>
            obtain ⟨bs, hbs, h⟩ := Except.bind_eq_ok h
            refine ⟨bs, ?_, h⟩
            simp only [exact, if_pos ha]
            exact (alignUp_enabled_eq_ok hpow hbs).2
        · next ha =>
            obtain ⟨bs, hbs, h⟩ := Except.bind_eq_ok h
            refine ⟨bs, ?_, h⟩
            simp only [exact, if_neg ha]
            exact (Except.ok.inj hbs).symm
      subst hbs
      obtain ⟨before, hbefore, h⟩ := Except.bind_eq_ok h
      obtain ⟨-, rfl⟩ := subUnsigned_enabled_eq_ok hbefore
      obtain ⟨sb, hsb, h⟩ := Except.bind_eq_ok h
      obtain ⟨-, rfl⟩ := mulUnsigned_enabled_eq_ok hsb
      obtain ⟨ldb, hldb, h⟩ := Except.bind_eq_ok h
      obtain ⟨hfit, rfl⟩ := addUnsigned_enabled_eq_ok hldb
      cases h
      exact ⟨rfl, hfit⟩

/-- `FullyContiguousConfig::new` refuses a configuration only when it fails
    validation, in either build. -/
theorem FullyContiguousConfig.new_eq_error {checks : OverflowChecks} {e : LayoutError}
    (h : FullyContiguousConfig.new checks config = .ok (.error e)) :
    ∃ errors, e = .validationError errors := by
  unfold FullyContiguousConfig.new at h
  cases hv : config.validate with
  | error e' =>
      rw [hv] at h
      cases h
      unfold LayoutConfig.validate at hv
      split at hv
      · cases hv
      · cases hv
        exact ⟨_, rfl⟩
  | ok u =>
      -- every way through the sizes ends in a panic or in a configuration
      rw [hv] at h
      simp only [bind, Except.bind, pure, Except.pure] at h
      repeat' split at h
      all_goals cases h

/-- In either build, a configuration `new` returns passed validation, keeps
    the one it was given, and has the layer stride equal to the region size:
    `new` computes them as one value. -/
theorem FullyContiguousConfig.new_eq_ok {checks : OverflowChecks}
    (h : FullyContiguousConfig.new checks config = .ok (.ok c)) :
    config.validationErrors = [] ∧ c.inner = config ∧ c.layerStrideInBytes = c.memoryRegionSize := by
  unfold FullyContiguousConfig.new at h
  split at h
  · cases h
  · next hv =>
      have hvalid := LayoutConfig.validate_eq_ok.mp hv
      -- every way through the sizes ends in a panic or in one configuration
      simp only [bind, Except.bind, pure, Except.pure] at h
      repeat' split at h
      all_goals cases h
      all_goals exact ⟨hvalid, rfl, rfl⟩

/-- The offset `FullyContiguous::new` puts the first block at, in exact
    arithmetic: up from the storage's address to a multiple of the
    alignment. -/
def exactBaseOffset (addr alignment : Nat) : Nat :=
  if alignment > 1 then alignedUp addr alignment - addr else 0

theorem exactBaseOffset_lt {addr alignment : Nat} (ha : 0 < alignment) :
    exactBaseOffset addr alignment < alignment := by
  unfold exactBaseOffset
  split
  · have := alignedUp_lt (x := addr) ha
    omega
  · exact ha

/-- The padding `required_allocation_size` adds covers the base offset. -/
theorem exactBaseOffset_le_padding (addr : Nat) {alignment : Nat} (ha : 0 < alignment) :
    exactBaseOffset addr alignment ≤ if alignment > 1 then alignment - 1 else 0 := by
  have hlt : exactBaseOffset addr alignment < alignment := exactBaseOffset_lt ha
  split
  · omega
  · omega

/-- The first block starts at a multiple of the alignment. -/
theorem dvd_add_exactBaseOffset (addr : Nat) {alignment : Nat} (ha : 0 < alignment) :
    alignment ∣ addr + exactBaseOffset addr alignment := by
  unfold exactBaseOffset
  split
  · rw [Nat.add_sub_cancel' (le_alignedUp ha)]
    exact dvd_alignedUp
  · rw [show alignment = 1 by omega]
    exact Nat.one_dvd _

namespace FullyContiguous

variable {S : Type} [Storage S] {s : S}

/-- With overflow checks, `FullyContiguous::new` over a valid configuration
    either panics or computes the exact base offset, and then accepts the
    storage exactly when it holds the offset and the layout. -/
theorem new_enabled_cases {r : Except LayoutError (FullyContiguous S)}
    (hc : FullyContiguousConfig.new .enabled config = .ok (.ok c))
    (h : FullyContiguous.new .enabled config [s] = .ok r) :
    (c.inner.alignment > 1 → Storage.addr s + c.inner.alignment < 2 ^ 64) ∧
      ((Storage.size s < exactBaseOffset (Storage.addr s) c.inner.alignment + c.layoutDataBytes ∧
          ∃ msg, r = .error (.invalidConfig msg)) ∨
        (exactBaseOffset (Storage.addr s) c.inner.alignment + c.layoutDataBytes ≤ Storage.size s ∧
          r = .ok ⟨c, s, Storage.storageType s, exactBaseOffset (Storage.addr s) c.inner.alignment⟩)) := by
  unfold FullyContiguous.new at h
  obtain ⟨r₀, hr₀, h⟩ := Except.bind_eq_ok h
  rw [hc, Except.ok.injEq] at hr₀
  subst hr₀
  obtain ⟨hvalid, rfl, -⟩ := FullyContiguousConfig.new_enabled_eq_ok hc
  have hpow := (LayoutConfig.validationErrors_eq_nil.mp hvalid).2.2.2.2
  dsimp only at h
  -- the two ways to the base offset join in one continuation
  obtain ⟨off, ⟨hoff, hfit⟩, h⟩ : ∃ off, (off = exactBaseOffset (Storage.addr s) config.alignment ∧
      (config.alignment > 1 → Storage.addr s + config.alignment < 2 ^ 64)) ∧ _ := by
    split at h
    · next ha =>
        obtain ⟨aligned, haligned, h⟩ := Except.bind_eq_ok h
        obtain ⟨hlt, rfl⟩ := alignUp_enabled_eq_ok hpow haligned
        obtain ⟨off, hoff, h⟩ := Except.bind_eq_ok h
        refine ⟨off, ⟨?_, fun _ => hlt⟩, h⟩
        rw [(subUnsigned_enabled_eq_ok hoff).2, exactBaseOffset]
        exact (if_pos ha).symm
    · next ha =>
        obtain ⟨off, hoff, h⟩ := Except.bind_eq_ok h
        refine ⟨off, ⟨?_, fun h' => absurd h' ha⟩, h⟩
        rw [(Except.ok.inj hoff).symm, exactBaseOffset]
        exact (if_neg ha).symm
  subst hoff
  refine ⟨hfit, ?_⟩
  obtain ⟨total, htotal, h⟩ := Except.bind_eq_ok h
  obtain ⟨-, rfl⟩ := addUnsigned_enabled_eq_ok htotal
  split at h
  · next hsmall => exact Or.inl ⟨hsmall, _, (Except.ok.inj h).symm⟩
  · next hfits => exact Or.inr ⟨Nat.le_of_not_lt hfits, (Except.ok.inj h).symm⟩

/-- With overflow checks, an address `memory_region_addr` returns is of
    indices in range, and is the exact one. -/
theorem memoryRegionAddr_enabled_eq_ok {l : FullyContiguous S} {b k a : Nat}
    (h : l.memoryRegionAddr .enabled b k = .ok (.ok a)) :
    b < l.numBlocks ∧ k < l.numLayers ∧
      a = Storage.addr l.storage + l.baseOffset + b * l.config.blockStrideInBytes +
        k * l.config.layerStrideInBytes := by
  unfold memoryRegionAddr at h
  split at h
  · cases h
  · next hb =>
      split at h
      · cases h
      · next hk =>
          refine ⟨Nat.lt_of_not_le hb, Nat.lt_of_not_le hk, ?_⟩
          obtain ⟨start, hstart, h⟩ := Except.bind_eq_ok h
          obtain ⟨-, rfl⟩ := addUnsigned_enabled_eq_ok hstart
          obtain ⟨boff, hboff, h⟩ := Except.bind_eq_ok h
          obtain ⟨-, rfl⟩ := mulUnsigned_enabled_eq_ok hboff
          obtain ⟨loff, hloff, h⟩ := Except.bind_eq_ok h
          obtain ⟨-, rfl⟩ := mulUnsigned_enabled_eq_ok hloff
          obtain ⟨baddr, hbaddr, h⟩ := Except.bind_eq_ok h
          obtain ⟨-, rfl⟩ := addUnsigned_enabled_eq_ok hbaddr
          obtain ⟨faddr, hfaddr, h⟩ := Except.bind_eq_ok h
          obtain ⟨-, rfl⟩ := addUnsigned_enabled_eq_ok hfaddr
          exact (Except.ok.inj (Except.ok.inj h)).symm

/-- With overflow checks, a layout `new` accepts over a storage that lies in
    the 64-bit address space puts every page inside the storage and distinct
    pages apart, starts every block at a multiple of the alignment, and
    refuses indices out of range. -/
theorem new_places_pages {l : FullyContiguous S}
    (hspace : Storage.addr s + Storage.size s ≤ 2 ^ 64)
    (h : FullyContiguous.new .enabled config [s] = .ok (.ok l)) :
    (∀ b k, b < l.numBlocks → k < l.numLayers → ∃ a,
      l.memoryRegionAddr .enabled b k = .ok (.ok a) ∧ Storage.addr s ≤ a ∧
        a + l.memoryRegionSize ≤ Storage.addr s + Storage.size s) ∧
    (∀ b k b' k' a a', (b, k) ≠ (b', k') →
      l.memoryRegionAddr .enabled b k = .ok (.ok a) →
      l.memoryRegionAddr .enabled b' k' = .ok (.ok a') →
      a + l.memoryRegionSize ≤ a' ∨ a' + l.memoryRegionSize ≤ a) ∧
    (∀ b a, l.memoryRegionAddr .enabled b 0 = .ok (.ok a) → config.alignment ∣ a) ∧
    (∀ b k, l.numBlocks ≤ b →
      l.memoryRegionAddr .enabled b k = .ok (.error (.invalidBlockIndex b))) ∧
    (∀ b k, b < l.numBlocks → l.numLayers ≤ k →
      l.memoryRegionAddr .enabled b k = .ok (.error (.invalidLayerIndex k))) := by
  -- the configuration is valid and the layout's sizes are exact
  obtain ⟨r, hc, h'⟩ := Except.bind_eq_ok h
  cases r with
  | error e => cases h'
  | ok c =>
  obtain ⟨hvalid, rfl, -⟩ := FullyContiguousConfig.new_enabled_eq_ok hc
  obtain ⟨hblocks, hlayers, hpage, hinner, hpow⟩ := LayoutConfig.validationErrors_eq_nil.mp hvalid
  have hapos : 0 < config.alignment := Nat.pos_of_isPowerOfTwo hpow
  obtain ⟨-, hcases⟩ := new_enabled_cases hc h
  obtain ⟨hsmall, msg, hmsg⟩ | ⟨hfits, hl⟩ := hcases
  · cases hmsg
  cases hl
  dsimp only [numBlocks, numLayers, memoryRegionSize]
  -- a page is one region of a grid: blocks are rows, layers are columns
  have hls : (FullyContiguousConfig.exact config).layerStrideInBytes =
      (FullyContiguousConfig.exact config).memoryRegionSize := rfl
  have hrs : 0 < (FullyContiguousConfig.exact config).memoryRegionSize :=
    Nat.mul_pos (Nat.mul_pos hpage hinner) (DType.sizeInBytes_pos _)
  have hnatural : config.numLayers * (FullyContiguousConfig.exact config).layerStrideInBytes ≤
      (FullyContiguousConfig.exact config).blockStrideInBytes := by
    simp only [FullyContiguousConfig.exact]
    split
    · exact le_alignedUp hapos
    · exact Nat.le_refl _
  have hend : ∀ {b k}, b < config.numBlocks → k < config.numLayers →
      b * (FullyContiguousConfig.exact config).blockStrideInBytes +
        k * (FullyContiguousConfig.exact config).layerStrideInBytes +
        (FullyContiguousConfig.exact config).layerStrideInBytes ≤
        (FullyContiguousConfig.exact config).layoutDataBytes := fun hb hk => by
    have := @grid_cell_end_le (FullyContiguousConfig.exact config).blockStrideInBytes
      (FullyContiguousConfig.exact config).layerStrideInBytes _ _ _ _ hb hk
    simpa only [FullyContiguousConfig.exact] using this
  refine ⟨fun b k hb hk => ?_, fun b k b' k' a a' hne ha ha' => ?_, fun b a ha => ?_,
    fun b k hb => ?_, fun b k hb hk => ?_⟩
  · -- in range: the page ends inside the storage, so no sum overflows
    have hpage := hend hb hk
    refine ⟨_, memoryRegionAddr_of_lt .enabled _ hb hk ?_, ?_, ?_⟩ <;> dsimp only <;> omega
  · obtain ⟨-, hk, rfl⟩ := memoryRegionAddr_enabled_eq_ok ha
    obtain ⟨-, hk', rfl⟩ := memoryRegionAddr_enabled_eq_ok ha'
    have := @grid_disjoint _ _ (FullyContiguousConfig.exact config).layerStrideInBytes _ _ _ _ _
      (Nat.le_refl _) hnatural hk hk' hne
    dsimp only
    omega
  · obtain ⟨-, -, rfl⟩ := memoryRegionAddr_enabled_eq_ok ha
    -- the base offset and the block stride are both multiples of the alignment
    have hstride : config.alignment ∣ (FullyContiguousConfig.exact config).blockStrideInBytes := by
      simp only [FullyContiguousConfig.exact]
      split
      · exact dvd_alignedUp
      · rw [show config.alignment = 1 by omega]
        exact Nat.one_dvd _
    dsimp only
    rw [Nat.zero_mul, Nat.add_zero]
    exact Nat.dvd_add (dvd_add_exactBaseOffset _ hapos) (Nat.dvd_mul_left_of_dvd hstride b)
  · unfold memoryRegionAddr
    exact if_pos hb
  · unfold memoryRegionAddr
    exact (if_neg (Nat.not_le.mpr hb)).trans (if_pos hk)

/-- With overflow checks, `allocate` never fails the size check, wherever
    the allocator puts the storage, as long as it has the size asked for: an
    error it returns comes from validation or from the allocator. -/
theorem allocate_passes_size_check {allocator : Nat → Except String S}
    (hsize : ∀ n s, allocator n = .ok s → Storage.size s = n) {e : LayoutError}
    (h : FullyContiguous.allocate .enabled config allocator = .ok (.error e)) :
    (∃ errors, e = .validationError errors) ∨ ∃ msg, e = .operationFailed msg := by
  unfold FullyContiguous.allocate at h
  obtain ⟨r, hc, h⟩ := Except.bind_eq_ok h
  cases r with
  | error e' =>
      cases h
      exact Or.inl (FullyContiguousConfig.new_eq_error hc)
  | ok c =>
  obtain ⟨hvalid, hexact, -⟩ := FullyContiguousConfig.new_enabled_eq_ok hc
  have hinner : c.inner = config := by rw [hexact]; rfl
  have hapos : 0 < c.inner.alignment := by
    rw [hinner]
    exact Nat.pos_of_isPowerOfTwo (LayoutConfig.validationErrors_eq_nil.mp hvalid).2.2.2.2
  obtain ⟨req, hreq, h⟩ := Except.bind_eq_ok h
  obtain ⟨-, rfl⟩ := addUnsigned_enabled_eq_ok hreq
  split at h
  · cases h
    exact Or.inr ⟨_, rfl⟩
  · next storage hs =>
      -- the storage holds the layout and any base offset, so `new` accepts it
      have hfits := exactBaseOffset_le_padding (Storage.addr storage) hapos
      have hsize' := hsize _ _ hs
      rw [hinner] at h
      obtain ⟨-, ⟨hsmall, -⟩ | ⟨-, hok⟩⟩ := new_enabled_cases hc h
      · omega
      · cases hok

/-- In either build, a layout `new` returns has the configuration
    `FullyContiguousConfig::new` computed. -/
theorem new_config {checks : OverflowChecks} {storage : List S} {l : FullyContiguous S}
    (h : FullyContiguous.new checks config storage = .ok (.ok l)) :
    ∃ c, FullyContiguousConfig.new checks config = .ok (.ok c) ∧ l.config = c := by
  unfold FullyContiguous.new at h
  obtain ⟨r, hc, h⟩ := Except.bind_eq_ok h
  cases r with
  | error e => cases h
  | ok c =>
      refine ⟨c, hc, ?_⟩
      -- every way through the offset and the size check ends in an error or in `c`
      simp only [bind, Except.bind, pure, Except.pure] at h
      repeat' split at h
      all_goals cases h
      all_goals rfl

/-- In either build, a layout `new` returns is over a configuration that
    passed validation, and the layers of each block follow one another with
    no gap. -/
theorem new_shape {checks : OverflowChecks} {storage : List S} {l : FullyContiguous S}
    (h : FullyContiguous.new checks config storage = .ok (.ok l)) :
    config.validationErrors = [] ∧ l.config.inner = config ∧
      l.config.layerStrideInBytes = l.memoryRegionSize := by
  obtain ⟨c, hc, rfl⟩ := new_config h
  exact FullyContiguousConfig.new_eq_ok hc

end FullyContiguous

/-! ### Without overflow checks -/

/-- `NullDeviceStorage` of the storage tests: storage of the null type, of a
    given size, at address zero. -/
structure NullDeviceStorage where
  size : Nat

instance : Storage NullDeviceStorage where
  storageType _ := .null
  addr _ := 0
  size s := s.size

/-- `NullDeviceAllocator::allocate`: storage of exactly the size asked for. -/
def NullDeviceAllocator.allocate (size : Nat) : Except String NullDeviceStorage :=
  .ok ⟨size⟩

/-- Without overflow checks, three blocks of `2 ^ 63` bytes make a layout
    whose size wraps to `2 ^ 63`: `(3 - 1) * 2 ^ 63` is `2 ^ 64`. `new`
    accepts a storage of `2 ^ 63` bytes for it, the second block starts where
    that storage ends, and the third at the address of the first. -/
theorem fullyContiguous_accepts_small_storage :
    ∃ l : FullyContiguous NullDeviceStorage,
      FullyContiguous.new .disabled ⟨3, 1, 2 ^ 63, 1, 1, .u8⟩ [⟨2 ^ 63⟩] = .ok (.ok l) ∧
      l.memoryRegionAddr .disabled 1 0 = .ok (.ok (2 ^ 63)) ∧
      Storage.addr l.storage + Storage.size l.storage < 2 ^ 63 + l.memoryRegionSize ∧
      l.memoryRegionAddr .disabled 2 0 = l.memoryRegionAddr .disabled 0 0 := by
  -- the layout is what `new` returns; each fact is then a computation on it
  refine ⟨_, rfl, ?_, ?_, ?_⟩
  · rfl
  · decide
  · rfl

/-- Without overflow checks, the padding `allocate` adds to a layout of
    `2 ^ 64 - 1` bytes wraps the size it asks for to zero, and the size check
    refuses the storage it gets. -/
theorem fullyContiguous_allocate_fails_size_check :
    ∃ msg, FullyContiguous.allocate .disabled ⟨1, 1, 2 ^ 64 - 1, 1, 2, .u8⟩
      NullDeviceAllocator.allocate = .ok (.error (.invalidConfig msg)) :=
  ⟨_, rfl⟩

end BlockManager

end Dynamo
