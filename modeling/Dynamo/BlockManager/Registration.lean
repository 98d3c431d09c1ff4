import Dynamo.BlockManager.Requests

/-!
# Registering and Matching Blocks

What `State::register_blocks` and `State::match_sequence_hashes` return from
any state the system reaches.

A hash *resolves* to a cell when the active pool's entry of the hash names
the cell and the cell is live; under the invariant the cell then holds a
block registered under that hash. Each iteration of either loop resolves its
hash, by one of four routes: a live cell of the hash, the block of the hash
in the inactive pool, a fresh registration, or the block of the hash waited
for on the return channel. The last route never waits forever: a hash whose
handle is live, with no live cell and nothing in the inactive map, has its
block on the channel, since under the invariant a handle is held by exactly
one block and the callers' `MutableBlock`s hold none. The invariant also
rules out the one error `ActiveBlockPool::register` can give a registered
block, so on complete blocks the loop of `register_blocks` never returns
early and its `assert_eq!` holds.

`Keeps` is what an iteration keeps of the pool it starts from: the cells, the
hashes that resolve, and each block of the inactive map, which stays there or
moves into the cell its hash resolves to. Since the active pool maps a hash to
one cell, two blocks of one hash resolve to one cell, in one call or across
calls.

## Main definitions

* `Pool.Resolves`: The active pool's entry of a hash names a live cell.
* `Pool.Keeps`: What a request keeps of the pool it starts from.

## Theorems

* `Pool.Inv.waiting`: A live hash held neither by a live cell nor by the
  inactive map has its block on the return channel.
* `Pool.Inv.registerLoop_cons`, `Pool.Inv.matchLoop_cons`: One iteration of
  each loop resolves its hash.
* `Pool.Inv.not_resolves_of_lookupMap`: No hash of the inactive map resolves.
* `Pool.Keeps.moved`: An inactive block whose hash comes to resolve has moved
  into the cell the hash resolves to.
* `Pool.Inv.registerBlocks_spec`: `register_blocks` on complete blocks.
* `Pool.Inv.matchSequenceHashes_spec`: `match_sequence_hashes`.
* `Pool.registerBlocks_matchSequenceHashes_of_run`: Both requests, from any
  state a run reaches: one cell for each hash, holding a block registered
  under it.
-/

namespace Dynamo

namespace BlockManager

open Tokens

namespace Pool

variable {M : Type}

/-- The active pool's entry of `h` names the live cell `c`. -/
def Resolves (p : Pool M) (c : Nat) (h : SequenceHash) : Prop :=
  p.active.lookup h = some c ∧ c ∈ p.cells

/-- What a request keeps of the pool it starts from: the blocks of the cells,
    the hashes that resolve, and each block of the inactive map, which stays
    there or moves into the cell its hash resolves to. -/
structure Keeps (p p' : Pool M) : Prop where
  cells : ∀ c b, p.cells.lookup c = some b → p'.cells.lookup c = some b
  active : ∀ h c, Resolves p c h → p'.active.lookup h = some c
  inactive : ∀ h b, p.inactive.lookupMap.lookup h = some b →
    p'.inactive.lookupMap.lookup h = some b ∨ ∃ c, Resolves p' c h ∧ p'.cells.lookup c = some b

section Keeps

variable {p p₁ p₂ p₃ : Pool M}

theorem Keeps.mem_cells (hk : Keeps p₁ p₂) {c : Nat} (hc : c ∈ p₁.cells) : c ∈ p₂.cells := by
  obtain ⟨b, hb⟩ := Option.isSome_iff_exists.mp (AList.lookup_isSome.mpr hc)
  exact AList.lookup_isSome.mp (by rw [hk.cells c b hb]; rfl)

theorem Keeps.resolves (hk : Keeps p₁ p₂) {c : Nat} {h : SequenceHash} (hr : Resolves p₁ c h) :
    Resolves p₂ c h :=
  ⟨hk.active h c hr, hk.mem_cells hr.2⟩

theorem Keeps.refl (p : Pool M) : Keeps p p :=
  ⟨fun _ _ hl => hl, fun _ _ hr => hr.1, fun _ _ hl => Or.inl hl⟩

theorem Keeps.trans (h₁ : Keeps p₁ p₂) (h₂ : Keeps p₂ p₃) : Keeps p₁ p₃ where
  cells c b hl := h₂.cells c b (h₁.cells c b hl)
  active h c hr := h₂.active h c (h₁.resolves hr)
  inactive h b hl := by
    rcases h₁.inactive h b hl with hl | ⟨c, hr, hc⟩
    · exact h₂.inactive h b hl
    · exact Or.inr ⟨c, h₂.resolves hr, h₂.cells c b hc⟩

/-- The handles the cells hold stay held. -/
theorem Keeps.handlesOf_cells (hk : Keeps p₁ p₂) {hd : RegistrationHandle}
    (hmem : hd ∈ handlesOf p₁.cells.values) : hd ∈ handlesOf p₂.cells.values := by
  obtain ⟨b, hb, hbhd⟩ := mem_handlesOf.mp hmem
  obtain ⟨c, hc⟩ := AList.mem_values.mp hb
  exact mem_handlesOf.mpr ⟨b, AList.mem_values.mpr ⟨c, hk.cells c b hc⟩, hbhd⟩

/-- A step that leaves the cells, the active pool and the inactive map alone. -/
theorem keeps_of_eq (hcells : p₂.cells = p₁.cells) (hactive : p₂.active = p₁.active)
    (hmap : p₂.inactive.lookupMap = p₁.inactive.lookupMap) : Keeps p₁ p₂ where
  cells c b hl := by rw [hcells]; exact hl
  active h c hr := by rw [hactive]; exact hr.1
  inactive h b hl := Or.inl (by rw [hmap]; exact hl)

/-- Dropping the entry of a hash that names no live cell. -/
theorem keeps_eraseActive {h : SequenceHash} (hdead : ∀ c, p.active.lookup h = some c → c ∉ p.cells) :
    Keeps p { p with active := p.active.erase h } := by
  refine ⟨fun _ _ hl => hl, fun h' c hr => ?_, fun _ _ hl => Or.inl hl⟩
  have hne : h' ≠ h := by
    rintro rfl
    exact hdead c hr.1 hr.2
  simpa only [AList.lookup_erase_ne hne] using hr.1

/-- Sharing a block in a new cell under a hash that names no live cell. -/
theorem keeps_share {h : SequenceHash} {b : Block M} (hfresh : p.nextId ∉ p.cells)
    (hdead : ∀ c, p.active.lookup h = some c → c ∉ p.cells) : Keeps p (p.share h b).2 where
  cells c b' hl := by
    have hne : c ≠ p.nextId := by
      rintro rfl
      exact hfresh (AList.lookup_isSome.mp (by rw [hl]; rfl))
    simpa only [share, AList.lookup_insert_ne hne] using hl
  active h' c hr := by
    have hne : h' ≠ h := by
      rintro rfl
      exact hdead c hr.1 hr.2
    simpa only [share, AList.lookup_insert_ne hne] using hr.1
  inactive _ _ hl := Or.inl hl

theorem keeps_recordReleases (p : Pool M) (before : List RegistrationHandle) :
    Keeps p (p.recordReleases before) :=
  keeps_of_eq rfl rfl rfl

theorem keeps_publish (p : Pool M) (publisher : List RegistrationHandle) :
    Keeps p (p.publish publisher) := by
  unfold publish
  split
  · exact Keeps.refl p
  · exact keeps_of_eq rfl rfl rfl

theorem keeps_activeMatchSequenceHash (p : Pool M) (h : SequenceHash) :
    Keeps p (p.activeMatchSequenceHash h).2 := by
  unfold activeMatchSequenceHash
  split
  · next c hl =>
      split
      · exact keeps_of_eq rfl rfl rfl
      · next hc => exact keeps_eraseActive (Option.forall_of_eq_some hl hc)
  · exact Keeps.refl p

theorem keeps_activeRemove [BlockMetadata M] (p : Pool M) (b : Block M) :
    Keeps p (p.activeRemove b).2 := by
  unfold activeRemove
  split
  · split
    · next c hl =>
        split
        · exact Keeps.refl p
        · next hc => exact keeps_eraseActive (Option.forall_of_eq_some hl hc)
    · exact Keeps.refl p
  · exact Keeps.refl p

/-- Returning a block keeps the entries of the map: a new entry is only made
    under a hash the map does not hold. -/
theorem keeps_returnBlock [LinearOrder M] [BlockMetadata M] (p : Pool M) (b : Block M) :
    Keeps p (p.returnBlock b) := by
  have hk := keeps_activeRemove p b
  refine hk.trans ⟨fun _ _ hl => hl, fun _ _ hr => hr.1, fun h x hl => Or.inl ?_⟩
  exact InactiveBlockPool.lookup_returnBlock hl

theorem keeps_waitForReturnedBlockFrom [LinearOrder M] [BlockMetadata M] {h : SequenceHash} :
    ∀ {l : List (Block M)} {p p' : Pool M} {b : Block M},
      waitForReturnedBlockFrom h l p = .ok (b, p') → Keeps p p'
  | [], _, _, _, hwait => by
      simp only [waitForReturnedBlockFrom, reduceCtorEq] at hwait
  | x :: rest, p, p', b, hwait => by
      -- popping the channel keeps everything
      have hpop : Keeps p ({ p with returnRx := rest } : Pool M) := keeps_of_eq rfl rfl rfl
      unfold waitForReturnedBlockFrom at hwait
      split at hwait
      · simp only [Except.ok.injEq, Prod.mk.injEq] at hwait
        rw [← hwait.2]
        exact hpop
      · exact (hpop.trans (keeps_returnBlock _ x)).trans (keeps_waitForReturnedBlockFrom hwait)

end Keeps

/-! ### The routes -/

section Routes

variable {p : Pool M} {hand : List (Block M)}

theorem activeMatchSequenceHash_some {h : SequenceHash} {c : Nat} {p₁ : Pool M}
    (hm : p.activeMatchSequenceHash h = (some c, p₁)) : Resolves p c h ∧ p₁ = p.clone c := by
  unfold activeMatchSequenceHash at hm
  split at hm
  · next c' hl =>
      split at hm
      · next hc =>
          simp only [Prod.mk.injEq, Option.some.injEq] at hm
          obtain ⟨rfl, rfl⟩ := hm
          exact ⟨⟨hl, hc⟩, rfl⟩
      · cases hm
  · cases hm

/-- A miss of the active pool leaves no entry of the hash, and the blocks
    and the registry as they were. -/
theorem activeMatchSequenceHash_none {h : SequenceHash} {p₁ : Pool M}
    (hm : p.activeMatchSequenceHash h = (none, p₁)) :
    p₁.active.lookup h = none ∧ p₁.blocks = p.blocks ∧ p₁.registry = p.registry := by
  unfold activeMatchSequenceHash at hm
  split at hm
  · split at hm
    · cases hm
    · simp only [Prod.mk.injEq, true_and] at hm
      subst hm
      exact ⟨AList.lookup_erase _ _, rfl, rfl⟩
  · next hl =>
      simp only [Prod.mk.injEq, true_and] at hm
      subst hm
      exact ⟨hl, rfl, rfl⟩

/-- A block of the hands registered under `h` is shared in a new cell, to
    which `h` then resolves. -/
theorem Inv.activeRegister_resolves {b : Block M} {h : SequenceHash} (hinv : p.Inv (b :: hand))
    (hb : b.state.isRegisteredWith h = true) :
    p.activeRegister b = (.ok p.nextId, (p.share h b).2) ∧ (p.share h b).2.Inv hand ∧
      Keeps p (p.share h b).2 ∧ Resolves (p.share h b).2 p.nextId h ∧
      (p.share h b).2.cells.lookup p.nextId = some b ∧ (p.share h b).2.registry = p.registry ∧
      (p.share h b).2.blocks.Perm (b :: p.blocks) := by
  obtain ⟨hd, hhd, rfl⟩ := BlockState.isRegisteredWith_iff.mp hb
  have hfresh : p.nextId ∉ p.cells := fun hc => Nat.lt_irrefl _ (hinv.cells_lt _ hc)
  refine ⟨hinv.activeRegister_eq hhd, hinv.share hhd rfl,
    keeps_share hfresh fun c hl => hinv.not_live hhd hl, ⟨?_, ?_⟩, ?_, rfl, blocks_share hfresh _ b⟩
  · simp only [Pool.share, AList.lookup_insert]
  · exact (AList.mem_insert _).mpr (Or.inl rfl)
  · simp only [Pool.share, AList.lookup_insert]

/-- Taking the block of `h` out of the inactive map keeps the pool, once the
    block is in the cell `h` resolves to. -/
theorem keeps_take [LinearOrder M] {h : SequenceHash} {raw : Block M}
    {inactive : InactiveBlockPool M} {p' : Pool M} {c : Nat}
    (ht : p.inactive.matchSequenceHash h = (some raw, inactive))
    (hk : Keeps ({ p with inactive := inactive } : Pool M) p') (hr : Resolves p' c h)
    (hc : p'.cells.lookup c = some raw) : Keeps p p' where
  cells := hk.cells
  active := hk.active
  inactive h' b hl := by
    rcases InactiveBlockPool.blocks_takeWithSequenceHash ht with ⟨hr', -⟩ | ⟨x, hx, hlx, rfl, -⟩
    · cases hr'
    · obtain rfl := Option.some.inj hx
      by_cases hh : h' = h
      · -- the taken block is in the cell
        subst hh
        rw [hlx, Option.some.injEq] at hl
        subst hl
        exact Or.inr ⟨c, hr, hc⟩
      · exact hk.inactive h' b (by
          simpa only [InactiveBlockPool.eraseEntry, AList.lookup_erase_ne hh] using hl)

/-- The block a take finds is registered under the hash. -/
theorem Inv.take_registered [LinearOrder M] {h : SequenceHash} {raw : Block M}
    {inactive : InactiveBlockPool M} (hinv : p.Inv hand)
    (ht : p.inactive.matchSequenceHash h = (some raw, inactive)) :
    raw.state.isRegisteredWith h = true := by
  rcases InactiveBlockPool.blocks_takeWithSequenceHash ht with ⟨hr, -⟩ | ⟨x, hx, hlx, -, -⟩
  · cases hr
  · obtain rfl := Option.some.inj hx
    exact hinv.inactive_wf.lookup_registered h raw hlx

/-- Where a registered block of the system is: in the inactive map under
    its hash, on the return channel, or in a live cell that a caller's
    `ImmutableBlock` holds and the active pool maps its hash to. Callers'
    `MutableBlock`s and the uninitialized set hold none. -/
theorem Inv.place_of_registered (hinv : p.Inv hand) {x : Block M} {hd : RegistrationHandle}
    (hx : x ∈ p.blocks) (hxhd : x.state.registeredHandle = some hd) :
    p.inactive.lookupMap.lookup hd.sequenceHash = some x ∨ x ∈ p.returnRx ∨
      ∃ c, p.cells.lookup c = some x ∧ c ∈ p.immutables ∧
        p.active.lookup hd.sequenceHash = some c := by
  simp only [blocks, List.mem_append] at hx
  rcases hx with ((hx | hx) | hx) | hx
  · -- in the inactive pool: its map holds it under its own hash
    simp only [InactiveBlockPool.blocks, List.mem_append] at hx
    rcases hx with hx | hx
    · obtain ⟨k, hk⟩ := AList.mem_values.mp hx
      obtain ⟨hd', hhd', hk'⟩ :=
        BlockState.isRegisteredWith_iff.mp (hinv.inactive_wf.lookup_registered k x hk)
      rw [hxhd, Option.some.injEq] at hhd'
      subst hhd'
      rw [hk']
      exact .inl hk
    · rw [hinv.inactive_wf.uninitialized_reset x hx] at hxhd
      cases hxhd
  · exact .inr (.inl hx)
  · -- in a cell: the active pool names the cell, and a caller holds it
    obtain ⟨c, hc⟩ := AList.mem_values.mp hx
    obtain ⟨hd', hhd', ha⟩ := hinv.cells_registered c x hc
    rw [hxhd, Option.some.injEq] at hhd'
    subst hhd'
    have hlive : c ∈ p.cells := AList.lookup_isSome.mp (by rw [hc]; rfl)
    exact .inr (.inr ⟨c, hc, hinv.cells_held c hlive, ha⟩)
  · rw [hinv.mutables_unregistered x hx] at hxhd
    cases hxhd

/-- The registry reads a hash as registered exactly when a live handle has
    that hash: one held by a block of the system or of the hands. The
    `Publisher`'s handles are among those. -/
theorem Inv.isRegistered_iff {extra : List (Block M)} {publisher : List RegistrationHandle}
    (hinv : p.Inv extra) (hpub : ∀ hd ∈ publisher, hd ∈ handlesOf (p.blocks ++ extra))
    (h : SequenceHash) :
    p.isRegistered extra publisher h = true ↔
      ∃ hd ∈ handlesOf (p.blocks ++ extra), hd.sequenceHash = h := by
  constructor
  · intro hreg
    -- the live handle the registry names
    obtain ⟨id, hid, hlive⟩ : ∃ id, p.registry.lookup h = some id ∧
        p.handleLive extra publisher id = true := by
      unfold isRegistered at hreg
      split at hreg
      · exact ⟨_, ‹_›, hreg⟩
      · cases hreg
    obtain ⟨hd, hmem, hhd⟩ := List.any_eq_true.mp hlive
    rw [beq_iff_eq] at hhd
    have hblocks : hd ∈ handlesOf (p.blocks ++ extra) := by
      rcases List.mem_append.mp hmem with hmem | hmem
      · exact hmem
      · exact hpub hd hmem
    -- its hash is `h`, since the registry maps each live handle's hash to it
    have hl := hinv.sound.registry_handle hd hblocks
    exact ⟨hd, hblocks, hinv.registry_inj _ _ _ hl (by rw [hid, hhd])⟩
  · rintro ⟨hd, hmem, rfl⟩
    unfold isRegistered handleLive
    rw [hinv.sound.registry_handle hd hmem]
    exact List.any_eq_true.mpr ⟨hd, List.mem_append_left _ hmem, beq_self_eq_true _⟩

/-- Under the invariant, a hash whose handle is live, with no entry in the
    active pool and none in the inactive map, has its block on the return
    channel: the handle is held by one block, and no other place can hold
    it. -/
theorem Inv.waiting {extra : List (Block M)} {publisher : List RegistrationHandle}
    {h : SequenceHash} (hinv : p.Inv extra)
    (hextra : ∀ b ∈ extra, b.state.registeredHandle = none)
    (hpub : ∀ hd ∈ publisher, hd ∈ handlesOf p.blocks)
    (hreg : p.isRegistered extra publisher h = true) (hactive : p.active.lookup h = none)
    (hmap : p.inactive.lookupMap.lookup h = none) :
    ∃ x ∈ p.returnRx, x.state.isRegisteredWith h = true := by
  have hpub' : ∀ hd ∈ publisher, hd ∈ handlesOf (p.blocks ++ extra) := fun hd hmem => by
    rw [handlesOf_append]
    exact List.mem_append_left _ (hpub hd hmem)
  obtain ⟨hd, hmem, rfl⟩ := (hinv.isRegistered_iff hpub' h).mp hreg
  -- the block holding it is one of the system's: the hands hold no handle
  obtain ⟨x, hx, hxhd⟩ := mem_handlesOf.mp hmem
  rcases List.mem_append.mp hx with hx | hx
  · have hxreg : x.state.isRegisteredWith hd.sequenceHash = true :=
      BlockState.isRegisteredWith_iff.mpr ⟨hd, hxhd, rfl⟩
    rcases hinv.place_of_registered hx hxhd with hk | hx | ⟨c, -, -, ha⟩
    · rw [hmap] at hk
      cases hk
    · exact ⟨x, hx, hxreg⟩
    · rw [hactive] at ha
      cases ha
  · rw [hextra x hx] at hxhd
    cases hxhd

/-- `register_block` on a complete block. -/
theorem registerBlock_of_complete {extra : List (Block M)} {publisher : List RegistrationHandle}
    {b : Block M} {tb : TokenBlock} (hs : b.state = .complete tb) :
    p.registerBlock extra publisher b =
      if p.isRegistered extra publisher tb.sequenceHash then
        (.error (.blockAlreadyRegistered tb.sequenceHash), p)
      else
        (.ok (b.withState (.registered (.fromTokenBlock p.nextId tb)), .fromTokenBlock p.nextId tb),
          { p with registry := p.registry.insert tb.sequenceHash p.nextId, nextId := p.nextId + 1 }) := by
  simp only [registerBlock, hs]

/-- Two pools with one registry, whose blocks hold the same handles, read
    the registry the same way. -/
theorem isRegistered_congr {p' : Pool M} (hreg : p'.registry = p.registry)
    (hh : (handlesOf p'.blocks).Perm (handlesOf p.blocks)) :
    p'.isRegistered [] [] = p.isRegistered [] [] := by
  funext h
  unfold isRegistered handleLive
  rw [hreg]
  cases p.registry.lookup h with
  | none => rfl
  | some id =>
      simp only [List.append_nil]
      exact hh.any_eq

/-- The block a take finds leaves the system's blocks. -/
theorem blocks_take [LinearOrder M] {h : SequenceHash} {raw : Block M} {inactive : InactiveBlockPool M}
    (ht : p.inactive.matchSequenceHash h = (some raw, inactive)) :
    p.blocks.Perm (raw :: ({ p with inactive := inactive } : Pool M).blocks) := by
  rcases InactiveBlockPool.blocks_takeWithSequenceHash ht with ⟨hr, -⟩ | ⟨x, hx, -, rfl, hperm⟩
  · cases hr
  · obtain rfl := Option.some.inj hx
    exact blocks_perm_of_inactive (p := { p with inactive := p.inactive.eraseEntry h raw })
      (X := p.inactive) (l := [raw]) hperm

/-- A handle a cell holds is held by a block of the system. -/
theorem handlesOf_blocks_of_cells {hd : RegistrationHandle} (hmem : hd ∈ handlesOf p.cells.values) :
    hd ∈ handlesOf p.blocks := by
  obtain ⟨b, hb, hbhd⟩ := mem_handlesOf.mp hmem
  obtain ⟨c, hc⟩ := AList.mem_values.mp hb
  exact mem_handlesOf.mpr ⟨b, mem_blocks_of_cell hc, hbhd⟩

/-! ### What a resolved hash names -/

/-- The active pool's entry of a hash names one cell. -/
theorem Resolves.unique {c c' : Nat} {h : SequenceHash} (hr : Resolves p c h)
    (hr' : Resolves p c' h) : c = c' :=
  Option.some.inj (hr.1.symm.trans hr'.1)

/-- The cell a hash resolves to holds a block registered under the hash. -/
theorem Inv.resolves_block (hinv : p.Inv hand) {c : Nat} {h : SequenceHash} (hr : Resolves p c h) :
    ∃ b, p.cells.lookup c = some b ∧ b.state.isRegisteredWith h = true := by
  obtain ⟨b, hb⟩ := Option.isSome_iff_exists.mp (AList.lookup_isSome.mpr hr.2)
  exact ⟨b, hb, BlockState.isRegisteredWith_iff.mpr (hinv.active_cell h c b hr.1 hb)⟩

/-- A hash of the inactive pool's map resolves to no cell: the block of the
    map and the block of the cell would hold two handles of one hash. -/
theorem Inv.not_resolves_of_lookupMap (hinv : p.Inv hand) {h : SequenceHash} {b : Block M}
    (hl : p.inactive.lookupMap.lookup h = some b) {c : Nat} (hr : Resolves p c h) : False := by
  obtain ⟨b', hb', hreg'⟩ := hinv.resolves_block hr
  obtain ⟨hd, hhd, hh⟩ :=
    BlockState.isRegisteredWith_iff.mp (hinv.inactive_wf.lookup_registered h b hl)
  obtain ⟨hd', hhd', hh'⟩ := BlockState.isRegisteredWith_iff.mp hreg'
  -- the inactive pool's blocks come first in the system's blocks
  have hsplit : p.blocks ++ hand =
      p.inactive.blocks ++ (p.returnRx ++ p.cells.values ++ p.mutables ++ hand) := by
    simp only [blocks, List.append_assoc]
  have hsound := hinv.sound
  rw [hsplit] at hsound
  refine hsound.hash_ne (mem_handlesOf.mpr ⟨b, ?_, hhd⟩) (mem_handlesOf.mpr ⟨b', ?_, hhd'⟩)
    (hh.trans hh'.symm)
  · exact List.mem_append_left _ (AList.mem_values.mpr ⟨h, hl⟩)
  · simp only [List.mem_append]
    exact Or.inl (Or.inl (Or.inr (AList.mem_values.mpr ⟨c, hb'⟩)))

/-- A block of the inactive map whose hash resolves after a request has left
    the map for the cell the hash resolves to. -/
theorem Keeps.moved {p₀ : Pool M} (hk : Keeps p₀ p) (hinv : p.Inv hand) {h : SequenceHash}
    {b : Block M} (hl : p₀.inactive.lookupMap.lookup h = some b) {c : Nat} (hr : Resolves p c h) :
    p.inactive.lookupMap.lookup h = none ∧ p.cells.lookup c = some b := by
  refine ⟨?_, ?_⟩
  · cases hm : p.inactive.lookupMap.lookup h with
    | none => rfl
    | some b' => exact (hinv.not_resolves_of_lookupMap hm hr).elim
  · rcases hk.inactive h b hl with hl' | ⟨c', hr', hc'⟩
    · exact (hinv.not_resolves_of_lookupMap hl' hr).elim
    · rw [hr.unique hr']
      exact hc'

end Routes

/-! ### The loops -/

section Loops

variable [LinearOrder M] [BlockMetadata M] {p : Pool M}

/-- One iteration of the loop of `register_blocks` on a complete block
    resolves the block's hash, whichever route it takes, and goes on with the
    rest. The handles its `Publisher` holds are held by cells. -/
theorem Inv.registerLoop_cons {block : Block M} {rest : List (Block M)} {tb : TokenBlock}
    {publisher : List RegistrationHandle} (hinv : p.Inv (block :: rest))
    (hblock : block.state = .complete tb) (hrest : ∀ b ∈ rest, b.state.registeredHandle = none)
    (hpub : ∀ hd ∈ publisher, hd ∈ handlesOf p.cells.values) (cells : List Nat) :
    ∃ p' publisher' c, p.registerLoop publisher cells (block :: rest) =
        p'.registerLoop publisher' (cells ++ [c]) rest ∧
      p'.Inv rest ∧ Keeps p p' ∧ Resolves p' c tb.sequenceHash ∧
      ∀ hd ∈ publisher', hd ∈ handlesOf p'.cells.values := by
  have hseq : block.sequenceHash = .ok tb.sequenceHash := by
    simp only [Block.sequenceHash, hblock]
  have hinv1 := hinv.activeMatchSequenceHash tb.sequenceHash
  have hk1 := keeps_activeMatchSequenceHash p tb.sequenceHash
  rw [Pool.registerLoop, hseq]
  dsimp only
  cases hm : p.activeMatchSequenceHash tb.sequenceHash with
  | mk r p₁ =>
  rw [hm] at hinv1 hk1
  cases r with
  | some c =>
      -- a live cell of the hash: another handle of it, and the block goes back
      obtain ⟨hr, rfl⟩ := activeMatchSequenceHash_some hm
      have hk2 : Keeps p ((p.clone c).send block) := keeps_of_eq rfl rfl rfl
      exact ⟨(p.clone c).send block, publisher, c, rfl, hinv1.send, hk2, hk2.resolves hr, hpub⟩
  | none =>
  obtain ⟨hnone, -, -⟩ := activeMatchSequenceHash_none hm
  have hpub1 : ∀ hd ∈ publisher, hd ∈ handlesOf p₁.cells.values :=
    fun hd hmem => hk1.handlesOf_cells (hpub hd hmem)
  dsimp only
  cases ht : p₁.inactive.matchSequenceHash tb.sequenceHash with
  | mk r inactive =>
  cases r with
  | some raw =>
      -- the block of the hash in the inactive pool goes into a new cell
      have hraw := hinv1.take_registered ht
      have hregd : raw.state.isRegistered = true := by
        obtain ⟨hd, hhd, -⟩ := BlockState.isRegisteredWith_iff.mp hraw
        simp only [BlockState.isRegistered, hhd, Option.isSome_some]
      obtain ⟨har, hinv3, hk3, hr3, hc3, -, -⟩ :=
        (hinv1.takeInactive ht).activeRegister_resolves hraw
      have hk4 : Keeps p₁ ((({ p₁ with inactive := inactive } : Pool M).share tb.sequenceHash
          raw).2.send block) :=
        (keeps_take ht hk3 hr3 hc3).trans (keeps_of_eq rfl rfl rfl)
      refine ⟨_, publisher, _, ?_, hinv3.send, hk1.trans hk4,
        (keeps_of_eq rfl rfl rfl).resolves hr3, fun hd hmem => hk4.handlesOf_cells (hpub1 hd hmem)⟩
      simp only [hregd, Bool.not_true, Bool.false_eq_true, ↓reduceIte, har]
  | none =>
  have hmap := InactiveBlockPool.takeWithSequenceHash_none ht
  rw [registerBlock_of_complete hblock]
  cases hreg : p₁.isRegistered (block :: rest) publisher tb.sequenceHash with
  | false =>
      -- a fresh registration, shared in a new cell
      have hr : p₁.registerBlock (block :: rest) publisher block =
          (.ok (block.withState (.registered (.fromTokenBlock p₁.nextId tb)),
            .fromTokenBlock p₁.nextId tb),
            { p₁ with registry := p₁.registry.insert tb.sequenceHash p₁.nextId,
                      nextId := p₁.nextId + 1 }) := by
        rw [registerBlock_of_complete hblock, hreg]
        rfl
      obtain ⟨har, hinv3, hk3, hr3, hc3, -, -⟩ :=
        (hinv1.registerBlock hr).activeRegister_resolves (h := tb.sequenceHash)
          (BlockState.isRegisteredWith_iff.mpr ⟨_, rfl, rfl⟩)
      have hk2 : Keeps p₁ { p₁ with registry := p₁.registry.insert tb.sequenceHash p₁.nextId,
                                    nextId := p₁.nextId + 1 } :=
        keeps_of_eq rfl rfl rfl
      have hk4 := hk2.trans hk3
      refine ⟨_, publisher ++ [.fromTokenBlock p₁.nextId tb], _, ?_, hinv3, hk1.trans hk4, hr3, ?_⟩
      · simp only [Bool.false_eq_true, ↓reduceIte, har]
      · intro hd hmem
        rcases List.mem_append.mp hmem with hmem | hmem
        · exact hk4.handlesOf_cells (hpub1 hd hmem)
        · -- the new handle is held by the new cell
          rw [List.mem_singleton.mp hmem]
          exact mem_handlesOf.mpr ⟨_, AList.mem_values.mpr ⟨_, hc3⟩, rfl⟩
  | true =>
      -- a live handle elsewhere: its block is on the channel, and is waited for
      have hextra : ∀ b ∈ block :: rest, b.state.registeredHandle = none := by
        intro b hb
        rcases List.mem_cons.mp hb with rfl | hb
        · rw [hblock]
          rfl
        · exact hrest b hb
      obtain ⟨raw, p₃, hw⟩ := waitForReturnedBlockFrom_ok p₁
        (hinv1.waiting hextra (fun hd hmem => handlesOf_blocks_of_cells (hpub1 hd hmem)) hreg hnone
          hmap)
      have hk3 := keeps_waitForReturnedBlockFrom hw
      obtain ⟨har, hinv4, hk4, hr4, -, -, -⟩ :=
        (Inv.waitForReturnedBlockFrom rfl hinv1 hw).activeRegister_resolves
          (waitForReturnedBlockFrom_registered hw)
      have hk5 : Keeps p₃ ((p₃.share tb.sequenceHash raw).2.send block) :=
        hk4.trans (keeps_of_eq rfl rfl rfl)
      refine ⟨_, publisher, _, ?_, hinv4.send, hk1.trans (hk3.trans hk5),
        (keeps_of_eq rfl rfl rfl).resolves hr4,
        fun hd hmem => (hk3.trans hk5).handlesOf_cells (hpub1 hd hmem)⟩
      simp only [↓reduceIte, Pool.waitForReturnedBlock, hw, har]

/-- The wait keeps the registry and every handle: under the invariant each
    block it returns keeps its handle. -/
theorem Inv.waitForReturnedBlockFrom_handles {h : SequenceHash} :
    ∀ {l : List (Block M)} {p p' : Pool M} {b : Block M} {hand : List (Block M)},
      p.returnRx = l → p.Inv hand → Pool.waitForReturnedBlockFrom h l p = .ok (b, p') →
      p'.registry = p.registry ∧ (handlesOf (b :: p'.blocks)).Perm (handlesOf p.blocks)
  | [], _, _, _, _, _, _, hwait => by
      simp only [Pool.waitForReturnedBlockFrom, reduceCtorEq] at hwait
  | x :: rest, p, p', b, hand, hrx, hinv, hwait => by
      have hpop := blocks_pop hrx
      have hinv' := hinv.pop hrx
      unfold Pool.waitForReturnedBlockFrom at hwait
      split at hwait
      · simp only [Except.ok.injEq, Prod.mk.injEq] at hwait
        obtain ⟨rfl, rfl⟩ := hwait
        exact ⟨rfl, (handlesOf_perm hpop).symm⟩
      · -- the head goes back to the pool with its handle
        obtain ⟨b', -, hhd, hperm⟩ := hinv'.returnBlock_keeps
        obtain ⟨hreg, hhandles⟩ :=
          Inv.waitForReturnedBlockFrom_handles (returnBlock_returnRx _ x) hinv'.returnBlock hwait
        refine ⟨hreg.trans (returnBlock_registry _ x), hhandles.trans ?_⟩
        refine (handlesOf_perm hperm).trans ?_
        rw [handlesOf_cons, hhd, ← handlesOf_cons]
        exact (handlesOf_perm hpop).symm

/-- One iteration of the loop of `match_sequence_hashes` on a hash the
    registry knows resolves the hash, keeping the registry and every handle,
    so that the registry reads the rest of the hashes as before. -/
theorem Inv.matchLoop_cons {h : SequenceHash} (hinv : p.Inv [])
    (hreg : p.isRegistered [] [] h = true) (rest : List SequenceHash) (cells : List Nat) :
    ∃ p' c, p.matchLoop cells (h :: rest) = p'.matchLoop (cells ++ [c]) rest ∧
      p'.Inv [] ∧ Keeps p p' ∧ Resolves p' c h ∧ p'.registry = p.registry ∧
      (handlesOf p'.blocks).Perm (handlesOf p.blocks) := by
  have hinv1 := hinv.activeMatchSequenceHash h
  have hk1 := keeps_activeMatchSequenceHash p h
  rw [Pool.matchLoop]
  simp only [hreg, Bool.not_true, Bool.false_eq_true, ↓reduceIte]
  cases hm : p.activeMatchSequenceHash h with
  | mk r p₁ =>
  rw [hm] at hinv1 hk1
  cases r with
  | some c =>
      -- a live cell of the hash
      obtain ⟨hr, rfl⟩ := activeMatchSequenceHash_some hm
      exact ⟨p.clone c, c, rfl, hinv1, hk1, hk1.resolves hr, rfl, List.Perm.refl _⟩
  | none =>
  obtain ⟨hnone, hblocks1, hregistry1⟩ := activeMatchSequenceHash_none hm
  dsimp only
  cases ht : p₁.inactive.matchSequenceHash h with
  | mk r inactive =>
  cases r with
  | some raw =>
      -- the block of the hash in the inactive pool goes into a new cell
      have hraw := hinv1.take_registered ht
      have hregd : raw.state.isRegistered = true := by
        obtain ⟨hd, hhd, -⟩ := BlockState.isRegisteredWith_iff.mp hraw
        simp only [BlockState.isRegistered, hhd, Option.isSome_some]
      obtain ⟨har, hinv3, hk3, hr3, hc3, hregistry3, hperm3⟩ :=
        (hinv1.takeInactive ht).activeRegister_resolves hraw
      refine ⟨_, _, ?_, hinv3, hk1.trans (keeps_take ht hk3 hr3 hc3), hr3,
        hregistry3.trans hregistry1, ?_⟩
      · simp only [Except.ok_bind, hregd, Bool.not_true, Bool.false_eq_true, ↓reduceIte, har]
      · rw [← hblocks1]
        exact handlesOf_perm (hperm3.trans (blocks_take ht).symm)
  | none =>
      -- the block of the hash is on the channel
      have hreg1 : p₁.isRegistered [] [] h = true := by
        rw [isRegistered_congr hregistry1 (by rw [hblocks1])]
        exact hreg
      obtain ⟨raw, p₃, hw⟩ := waitForReturnedBlockFrom_ok p₁
        (hinv1.waiting (fun _ hb => absurd hb List.not_mem_nil)
          (fun _ hmem => absurd hmem List.not_mem_nil) hreg1 hnone
          (InactiveBlockPool.takeWithSequenceHash_none ht))
      obtain ⟨hregistry3, hhandles3⟩ := Inv.waitForReturnedBlockFrom_handles rfl hinv1 hw
      obtain ⟨har, hinv4, hk4, hr4, -, hregistry4, hperm4⟩ :=
        (Inv.waitForReturnedBlockFrom rfl hinv1 hw).activeRegister_resolves
          (waitForReturnedBlockFrom_registered hw)
      have hregd : raw.state.isRegistered = true := by
        obtain ⟨hd, hhd, -⟩ :=
          BlockState.isRegisteredWith_iff.mp (waitForReturnedBlockFrom_registered hw)
        simp only [BlockState.isRegistered, hhd, Option.isSome_some]
      refine ⟨_, _, ?_, hinv4, hk1.trans ((keeps_waitForReturnedBlockFrom hw).trans hk4), hr4,
        hregistry4.trans (hregistry3.trans hregistry1), ?_⟩
      · simp only [Pool.waitForReturnedBlock, hw, Except.ok_bind, hregd, Bool.not_true,
          Bool.false_eq_true, ↓reduceIte, har]
      · rw [← hblocks1]
        exact (handlesOf_perm hperm4).trans hhandles3

/-- The loop of `register_blocks` on complete blocks never returns early,
    and resolves the hash of every block, in order. -/
theorem Inv.registerLoop_spec : ∀ {blocks : List (Block M)} {p : Pool M}
    {publisher : List RegistrationHandle}, p.Inv blocks →
    (∀ b ∈ blocks, ∃ tb, b.state = .complete tb) →
    (∀ hd ∈ publisher, hd ∈ handlesOf p.cells.values) → ∀ cells : List Nat,
    ∃ cells' r, p.registerLoop publisher cells blocks = .ok r ∧ r.error = none ∧
      r.cells = cells ++ cells' ∧ Keeps p r.pool ∧
      List.Forall₂ (fun c b => ∃ h, b.sequenceHash = .ok h ∧ Resolves r.pool c h) cells' blocks
  | [], p, publisher, _, _, _, cells =>
      ⟨[], ⟨none, cells, publisher, p⟩, rfl, rfl, (List.append_nil _).symm, Keeps.refl p,
        List.Forall₂.nil⟩
  | block :: rest, p, publisher, hinv, hcomplete, hpub, cells => by
      obtain ⟨tb, hblock⟩ := hcomplete block List.mem_cons_self
      have hcomplete' : ∀ b ∈ rest, ∃ tb, b.state = .complete tb :=
        fun b hb => hcomplete b (List.mem_cons_of_mem _ hb)
      have hrest : ∀ b ∈ rest, b.state.registeredHandle = none := by
        intro b hb
        obtain ⟨tb', hs⟩ := hcomplete' b hb
        rw [hs]
        rfl
      -- the first block resolves, and the rest of the loop runs from there
      obtain ⟨p₁, publisher₁, c, heq, hinv₁, hk₁, hr₁, hpub₁⟩ :=
        hinv.registerLoop_cons hblock hrest hpub cells
      obtain ⟨cells', r, hloop, herr, hcells, hk, hres⟩ :=
        Inv.registerLoop_spec hinv₁ hcomplete' hpub₁ (cells ++ [c])
      refine ⟨c :: cells', r, heq.trans hloop, herr, ?_, hk₁.trans hk, List.Forall₂.cons ?_ hres⟩
      · rw [hcells, List.append_assoc, List.singleton_append]
      · exact ⟨tb.sequenceHash, by simp only [Block.sequenceHash, hblock], hk.resolves hr₁⟩

/-- The loop of `match_sequence_hashes` resolves exactly the hashes up to the
    first one the registry does not know, in order. -/
theorem Inv.matchLoop_spec : ∀ (hashes : List SequenceHash) {p : Pool M} (cells : List Nat),
    p.Inv [] →
    ∃ cells' p', p.matchLoop cells hashes = .ok (cells ++ cells', p') ∧ p'.Inv [] ∧ Keeps p p' ∧
      List.Forall₂ (fun c h => Resolves p' c h) cells' (hashes.takeWhile (p.isRegistered [] []))
  | [], p, cells, hinv =>
      ⟨[], p, by rw [List.append_nil]; rfl, hinv, Keeps.refl p, List.Forall₂.nil⟩
  | h :: rest, p, cells, hinv => by
      cases hreg : p.isRegistered [] [] h with
      | false =>
          -- the loop stops at a hash the registry does not know
          refine ⟨[], p, ?_, hinv, Keeps.refl p, ?_⟩
          · simp only [Pool.matchLoop, hreg, Bool.not_false, ↓reduceIte, List.append_nil]
          · rw [List.takeWhile_cons_of_neg (by rw [hreg]; exact Bool.false_ne_true)]
            exact List.Forall₂.nil
      | true =>
          obtain ⟨p₁, c, heq, hinv₁, hk₁, hr₁, hregistry₁, hhandles₁⟩ :=
            hinv.matchLoop_cons hreg rest cells
          obtain ⟨cells', p', hloop, hinv', hk, hres⟩ := Inv.matchLoop_spec rest (cells ++ [c]) hinv₁
          refine ⟨c :: cells', p', ?_, hinv', hk₁.trans hk, ?_⟩
          · rw [heq, hloop, List.append_assoc, List.singleton_append]
          · -- the registry reads the rest of the hashes as before
            rw [List.takeWhile_cons_of_pos hreg, ← isRegistered_congr hregistry₁ hhandles₁]
            exact List.Forall₂.cons (hk.resolves hr₁) hres

end Loops

/-! ### The requests -/

section Requests

variable [LinearOrder M] [BlockMetadata M] {p : Pool M}

/-- `register_blocks` on complete blocks returns a cell for each block, in
    order, to which the block's hash resolves: the loop never returns early
    and the `assert_eq!` after it holds. -/
theorem Inv.registerBlocks_spec {blocks : List (Block M)} (hinv : p.Inv blocks)
    (hcomplete : ∀ b ∈ blocks, ∃ tb, b.state = .complete tb) :
    ∃ cells p', p.registerBlocks blocks = .ok (.ok cells, p') ∧ p'.Inv [] ∧ Keeps p p' ∧
      List.Forall₂ (fun c b => ∃ h, b.sequenceHash = .ok h ∧ Resolves p' c h) cells blocks := by
  obtain ⟨cells, r, hloop, herr, hcells, hk, hres⟩ :=
    hinv.registerLoop_spec hcomplete (fun _ hmem => absurd hmem List.not_mem_nil) []
  -- the `Publisher` drops: only the record of events changes
  have hk' : Keeps r.pool (((r.pool.recordReleases (handlesOf (p.blocks ++ blocks))).publish
      r.publisher).recordReleases r.publisher) :=
    ((keeps_recordReleases _ _).trans (keeps_publish _ _)).trans (keeps_recordReleases _ _)
  refine ⟨cells, _, ?_, (((hinv.registerLoop hloop).recordReleases _).publish _).recordReleases _,
    hk.trans hk', hres.imp fun c b ⟨h, hs, hr⟩ => ⟨h, hs, hk'.resolves hr⟩⟩
  rw [List.nil_append] at hcells
  simp only [Pool.registerBlocks, hloop, Except.ok_bind, herr, hcells, hres.length_eq, ne_eq,
    not_true_eq_false, ↓reduceIte]

/-- `match_sequence_hashes` returns, in order, a cell for each hash up to the
    first one the registry does not know, to which the hash resolves. -/
theorem Inv.matchSequenceHashes_spec (hinv : p.Inv []) (hashes : List SequenceHash) :
    ∃ cells p', p.matchSequenceHashes hashes = .ok (cells, p') ∧ p'.Inv [] ∧ Keeps p p' ∧
      List.Forall₂ (fun c h => Resolves p' c h) cells (hashes.takeWhile (p.isRegistered [] [])) := by
  obtain ⟨cells, p', hloop, hinv', hk, hres⟩ := Inv.matchLoop_spec hashes [] hinv
  have hk' := keeps_recordReleases p' p.handles
  refine ⟨cells, _, ?_, hinv'.recordReleases _, hk.trans hk', hres.imp fun _ _ hr => hk'.resolves hr⟩
  rw [List.nil_append] at hloop
  simp only [Pool.matchSequenceHashes, hloop, Except.ok_bind]

/-- From any state a run reaches: `register_blocks` on `MutableBlock`s the
    callers hold, all complete, returns a cell for each block, in order, holding
    a block registered under the block's hash; blocks of one hash get one cell,
    the live cell of the hash if there was one, and a cell holding the
    inactive block of the hash if there was one. `match_sequence_hashes`
    returns, in order, a cell for each hash up to the first one the registry
    does not know, holding a block registered under it; an inactive block of a
    matched hash leaves the inactive pool for the cell returned. -/
theorem registerBlocks_matchSequenceHashes_of_run {xxh3 : Xxh3} {added : List (Block M)}
    (hrun : Run xxh3 new added p) :
    (∀ blocks rest, p.mutables.Perm (blocks ++ rest) →
      (∀ b ∈ blocks, ∃ tb, b.state = .complete tb) →
      ∃ cells p', ({ p with mutables := rest } : Pool M).registerBlocks blocks = .ok (.ok cells, p') ∧
        cells.length = blocks.length ∧
        List.Forall₂ (fun c b => ∃ h, b.sequenceHash = .ok h ∧ p'.active.lookup h = some c ∧
          ∃ blk, p'.cells.lookup c = some blk ∧ blk.state.isRegisteredWith h = true) cells blocks ∧
        (∀ c₁ b₁ c₂ b₂, (c₁, b₁) ∈ cells.zip blocks → (c₂, b₂) ∈ cells.zip blocks →
          b₁.sequenceHash = b₂.sequenceHash → c₁ = c₂) ∧
        (∀ c b h, (c, b) ∈ cells.zip blocks → b.sequenceHash = .ok h →
          (∀ c₀, Resolves p c₀ h → c = c₀) ∧
          (∀ blk, p.inactive.lookupMap.lookup h = some blk →
            p'.inactive.lookupMap.lookup h = none ∧ p'.cells.lookup c = some blk))) ∧
    (∀ hashes, ∃ cells p', p.matchSequenceHashes hashes = .ok (cells, p') ∧
      List.Forall₂ (fun c h => p'.active.lookup h = some c ∧
        ∃ blk, p'.cells.lookup c = some blk ∧ blk.state.isRegisteredWith h = true)
        cells (hashes.takeWhile (p.isRegistered [] [])) ∧
      (∀ c h, (c, h) ∈ cells.zip (hashes.takeWhile (p.isRegistered [] [])) →
        ∀ blk, p.inactive.lookupMap.lookup h = some blk →
          p'.inactive.lookupMap.lookup h = none ∧ p'.cells.lookup c = some blk)) := by
  have hinv := hrun.inv
  refine ⟨fun blocks rest hperm hcomplete => ?_, fun hashes => ?_⟩
  · obtain ⟨cells, p', heq, hinv', hk, hres⟩ := (hinv.handOver hperm).registerBlocks_spec hcomplete
    -- each pair of the result: the block's hash resolves to its cell
    have hpair : ∀ c b, (c, b) ∈ cells.zip blocks → ∃ h, b.sequenceHash = .ok h ∧ Resolves p' c h :=
      fun c b hmem => (List.forall₂_iff_zip.mp hres).2 hmem
    refine ⟨cells, p', heq, hres.length_eq,
      hres.imp fun c b ⟨h, hs, hr⟩ => ⟨h, hs, hr.1, hinv'.resolves_block hr⟩, ?_, ?_⟩
    · intro c₁ b₁ c₂ b₂ hm₁ hm₂ hs
      obtain ⟨h₁, hs₁, hr₁⟩ := hpair c₁ b₁ hm₁
      obtain ⟨h₂, hs₂, hr₂⟩ := hpair c₂ b₂ hm₂
      obtain rfl : h₁ = h₂ := Except.ok.inj (hs₁.symm.trans (hs.trans hs₂))
      exact hr₁.unique hr₂
    · intro c b h hm hs
      obtain ⟨h', hs', hr⟩ := hpair c b hm
      obtain rfl : h' = h := Except.ok.inj (hs'.symm.trans hs)
      -- the request starts from the pool with the blocks handed over
      exact ⟨fun c₀ hr₀ => hr.unique (hk.resolves hr₀), fun blk hl => hk.moved hinv' hl hr⟩
  · obtain ⟨cells, p', heq, hinv', hk, hres⟩ := hinv.matchSequenceHashes_spec hashes
    refine ⟨cells, p', heq, hres.imp fun c h hr => ⟨hr.1, hinv'.resolves_block hr⟩, ?_⟩
    intro c h hm blk hl
    exact hk.moved hinv' hl ((List.forall₂_iff_zip.mp hres).2 hm)

/-- A run that adds two blocks, registers one through a caller and takes it
    back into the inactive pool once the caller drops it, and leaves the
    other complete in a caller's hands: both requests then find what the
    theorem says, one cell for the registered hash and one for the block
    handed over. -/
theorem registerBlocks_matchSequenceHashes_of_run_returned :
    ∃ p : Pool BasicMetadata, Run (fun _ _ => 0) new
        [⟨⟨0, 2⟩, ⟨0, 0, 0⟩, .reset⟩, ⟨⟨1, 2⟩, ⟨0, 0, 0⟩, .reset⟩] p ∧
      p.inactive.lookupMap.keys = [11] ∧ p.mutables.length = 1 ∧
      (p.matchSequenceHashes [11]).map (fun r => r.1.length) = .ok 1 ∧
      (({ p with mutables := [] } : Pool BasicMetadata).registerBlocks p.mutables).map
        (fun r => r.1.map List.length) = .ok (.ok 1) ∧
      (∀ blocks rest, p.mutables.Perm (blocks ++ rest) →
        (∀ b ∈ blocks, ∃ tb, b.state = .complete tb) →
        ∃ cells p', ({ p with mutables := rest } : Pool BasicMetadata).registerBlocks blocks =
            .ok (.ok cells, p') ∧
          cells.length = blocks.length ∧
          List.Forall₂ (fun c b => ∃ h, b.sequenceHash = .ok h ∧ p'.active.lookup h = some c ∧
            ∃ blk, p'.cells.lookup c = some blk ∧ blk.state.isRegisteredWith h = true) cells blocks ∧
          (∀ c₁ b₁ c₂ b₂, (c₁, b₁) ∈ cells.zip blocks → (c₂, b₂) ∈ cells.zip blocks →
            b₁.sequenceHash = b₂.sequenceHash → c₁ = c₂) ∧
          (∀ c b h, (c, b) ∈ cells.zip blocks → b.sequenceHash = .ok h →
            (∀ c₀, Resolves p c₀ h → c = c₀) ∧
            (∀ blk, p.inactive.lookupMap.lookup h = some blk →
              p'.inactive.lookupMap.lookup h = none ∧ p'.cells.lookup c = some blk))) ∧
      (∀ hashes, ∃ cells p', p.matchSequenceHashes hashes = .ok (cells, p') ∧
        List.Forall₂ (fun c h => p'.active.lookup h = some c ∧
          ∃ blk, p'.cells.lookup c = some blk ∧ blk.state.isRegisteredWith h = true)
          cells (hashes.takeWhile (p.isRegistered [] [])) ∧
        (∀ c h, (c, h) ∈ cells.zip (hashes.takeWhile (p.isRegistered [] [])) →
          ∀ blk, p.inactive.lookupMap.lookup h = some blk →
            p'.inactive.lookupMap.lookup h = none ∧ p'.cells.lookup c = some blk)) := by
  have h : replay (fun _ _ => 0) [] (new : Pool BasicMetadata)
      [.addBlocks [⟨⟨0, 2⟩, ⟨0, 0, 0⟩, .reset⟩, ⟨⟨1, 2⟩, ⟨0, 0, 0⟩, .reset⟩],
        .allocateBlocks 1, .call (.applyTokenBlock ⟨[5, 6], 0, 7, 11, none⟩),
        .registerBlocks 1, .dropImmutable 1, .receiveReturned,
        .allocateBlocks 1, .call (.applyTokenBlock ⟨[8, 9], 0, 8, 12, none⟩)] =
      some ([⟨⟨0, 2⟩, ⟨0, 0, 0⟩, .reset⟩, ⟨⟨1, 2⟩, ⟨0, 0, 0⟩, .reset⟩], _) := rfl
  have hrun := (Run.refl new).replay (fun _ _ => 0) h
  exact ⟨_, hrun, by decide, by decide, by decide, by decide,
    registerBlocks_matchSequenceHashes_of_run hrun⟩

end Requests



end Pool

end BlockManager

end Dynamo
