import Dynamo.BlockManager.Accounting

/-!
# The Pool Invariant

What holds of the block pool between requests, and of the state a request
works on. `Sound` is what holds of all blocks together, those of the system
and the ones a request has in hand: every block is there once, every handle
is held by one block, no two handles share a sequence hash, and the registry
maps each handle's hash to it. `Inv` adds where things are: the inactive pool
is well formed, callers' `MutableBlock`s hold no handle, every cell is alive
exactly while an `ImmutableBlock` names it and holds a block registered under
the hash whose `Weak` names the cell.

Each piece the requests are built from keeps `Inv`, moving a block between
the request's hands and a place of the system. The request's hands are the
second argument of `Inv`: between requests they are empty.

## Main definitions

* `Pool.Sound`: What holds of all blocks together.
* `Pool.Inv`: The invariant of the pool.

## Theorems

* `Pool.Sound.evolved`: Moving and resetting blocks keeps soundness.
* `Pool.Sound.register`: So does giving a block a fresh handle under a hash
  no handle has.
* `Pool.Inv.not_live`: A block in the hands holds a handle whose hash has no
  live cell; so `ActiveBlockPool::register` never finds one.
* `Pool.Inv.send`, `Pool.Inv.activeRegister`, `Pool.Inv.returnBlock`,
  `Pool.Inv.registerBlock`, `Pool.Inv.takeInactive`: The pieces keep the
  invariant.
* `Pool.Inv.waitForReturnedBlockFrom`: So does the wait on the return channel.
-/

namespace Dynamo

namespace BlockManager

open Tokens

namespace Pool

variable {M : Type}

/-- What holds of all blocks together. -/
structure Sound (blocks : List (Block M)) (registry : AList (fun _ : SequenceHash => Nat))
    (nextId : Nat) : Prop where
  indices_nodup : (indices blocks).Nodup
  ids_nodup : ((handlesOf blocks).map RegistrationHandle.id).Nodup
  hashes_nodup : ((handlesOf blocks).map RegistrationHandle.sequenceHash).Nodup
  handle_lt : ∀ hd ∈ handlesOf blocks, hd.id < nextId
  registry_handle : ∀ hd ∈ handlesOf blocks, registry.lookup hd.sequenceHash = some hd.id

section Sound

variable {l l' : List (Block M)} {registry : AList (fun _ : SequenceHash => Nat)} {n : Nat}

/-- A field of the handles that no two handles share is still not shared
    after evolving. -/
theorem Evolved.nodup_map {β : Type} (he : Evolved l l') (f : RegistrationHandle → β)
    (hn : ((handlesOf l).map f).Nodup) : ((handlesOf l').map f).Nodup := by
  obtain ⟨hs, hp, hsub⟩ := he.2
  exact (hp.map f).nodup_iff.mp ((hsub.map f).nodup hn)

theorem Sound.evolved (hs : Sound l registry n) (he : Evolved l l') : Sound l' registry n where
  indices_nodup := he.1.nodup_iff.mpr hs.indices_nodup
  ids_nodup := he.nodup_map _ hs.ids_nodup
  hashes_nodup := he.nodup_map _ hs.hashes_nodup
  handle_lt hd hmem := hs.handle_lt hd (he.2.subset hmem)
  registry_handle hd hmem := hs.registry_handle hd (he.2.subset hmem)

theorem Sound.perm (hs : Sound l registry n) (hp : l'.Perm l) : Sound l' registry n :=
  hs.evolved (Evolved.of_perm hp)

theorem Sound.mono (hs : Sound l registry n) {n' : Nat} (hn : n ≤ n') : Sound l registry n' where
  indices_nodup := hs.indices_nodup
  ids_nodup := hs.ids_nodup
  hashes_nodup := hs.hashes_nodup
  handle_lt hd hmem := Nat.lt_of_lt_of_le (hs.handle_lt hd hmem) hn
  registry_handle := hs.registry_handle

/-- Registering one block of the list with a fresh handle, under a hash no
    handle has, keeps soundness. -/
theorem Sound.register (hs : Sound l registry n) {b b' : Block M} {rest : List (Block M)}
    {hd : RegistrationHandle} (hl : l.Perm (b :: rest)) (hl' : l'.Perm (b' :: rest))
    (hdata : b'.data = b.data) (hb : b.state.registeredHandle = none)
    (hb' : b'.state.registeredHandle = some hd) (hid : hd.id = n)
    (hfree : ∀ hd' ∈ handlesOf l, hd'.sequenceHash ≠ hd.sequenceHash) :
    Sound l' (registry.insert hd.sequenceHash n) (n + 1) := by
  -- the handles after are the old ones and the new one
  have hhandles : (handlesOf l').Perm (hd :: handlesOf l) := by
    have hrest : (handlesOf l).Perm (handlesOf rest) := by
      simpa only [handlesOf_cons, hb, Option.toList_none, List.nil_append] using handlesOf_perm hl
    have hnew : (handlesOf l').Perm (hd :: handlesOf rest) := by
      simpa only [handlesOf_cons, hb', Option.toList_some, List.singleton_append]
        using handlesOf_perm hl'
    exact hnew.trans (List.Perm.cons _ hrest.symm)
  have hfresh : ∀ hd' ∈ handlesOf l, hd'.id ≠ hd.id := by
    intro hd' hmem heq
    have hlt := hs.handle_lt hd' hmem
    rw [heq, hid] at hlt
    exact Nat.lt_irrefl n hlt
  refine ⟨?_, ?_, ?_, ?_, ?_⟩
  · have hidx : (indices l').Perm (indices l) := by
      refine ((hl'.map _).trans ?_).trans (hl.map _).symm
      simp only [List.map_cons, hdata, List.Perm.refl]
    exact hidx.nodup_iff.mpr hs.indices_nodup
  · rw [(hhandles.map _).nodup_iff, List.map_cons, List.nodup_cons]
    refine ⟨fun hmem => ?_, hs.ids_nodup⟩
    obtain ⟨hd', hmem', heq⟩ := List.mem_map.mp hmem
    exact hfresh hd' hmem' heq
  · rw [(hhandles.map _).nodup_iff, List.map_cons, List.nodup_cons]
    refine ⟨fun hmem => ?_, hs.hashes_nodup⟩
    obtain ⟨hd', hmem', heq⟩ := List.mem_map.mp hmem
    exact hfree hd' hmem' heq
  · intro hd' hmem
    rcases List.mem_cons.mp (hhandles.subset hmem) with rfl | hmem
    · rw [hid]
      exact Nat.lt_succ_self n
    · exact Nat.lt_succ_of_lt (hs.handle_lt hd' hmem)
  · intro hd' hmem
    rcases List.mem_cons.mp (hhandles.subset hmem) with rfl | hmem
    · rw [AList.lookup_insert, hid]
    · rw [AList.lookup_insert_ne (hfree hd' hmem)]
      exact hs.registry_handle hd' hmem

end Sound

/-- The invariant of the pool, with the blocks a request has in hand. -/
structure Inv (p : Pool M) (hand : List (Block M)) : Prop where
  sound : Sound (p.blocks ++ hand) p.registry p.nextId
  total : (p.blocks ++ hand).length = p.inactive.totalBlocks
  registry_lt : ∀ h id, p.registry.lookup h = some id → id < p.nextId
  registry_inj : ∀ h h' id, p.registry.lookup h = some id → p.registry.lookup h' = some id → h = h'
  inactive_wf : p.inactive.Wf
  mutables_unregistered : ∀ b ∈ p.mutables, b.state.registeredHandle = none
  immutables_live : ∀ c ∈ p.immutables, c ∈ p.cells
  cells_held : ∀ c, c ∈ p.cells → c ∈ p.immutables
  cells_registered : ∀ c b, p.cells.lookup c = some b →
    ∃ hd, b.state.registeredHandle = some hd ∧ p.active.lookup hd.sequenceHash = some c
  active_cell : ∀ h c b, p.active.lookup h = some c → p.cells.lookup c = some b →
    ∃ hd, b.state.registeredHandle = some hd ∧ hd.sequenceHash = h
  cells_lt : ∀ c, c ∈ p.cells → c < p.nextId
  active_lt : ∀ h c, p.active.lookup h = some c → c < p.nextId

theorem inv_new [LinearOrder M] [BlockMetadata M] : (new : Pool M).Inv [] where
  sound := ⟨List.nodup_nil, List.nodup_nil, List.nodup_nil,
    fun _ hmem => absurd hmem List.not_mem_nil, fun _ hmem => absurd hmem List.not_mem_nil⟩
  total := rfl
  registry_lt h id hl := by simp only [new, AList.lookup_empty, reduceCtorEq] at hl
  registry_inj h h' id hl := by simp only [new, AList.lookup_empty, reduceCtorEq] at hl
  inactive_wf := InactiveBlockPool.wf_new
  mutables_unregistered b hb := absurd hb List.not_mem_nil
  immutables_live c hc := absurd hc List.not_mem_nil
  cells_held c hc := absurd hc (AList.notMem_empty c)
  cells_registered c b hl := by simp only [new, AList.lookup_empty, reduceCtorEq] at hl
  active_cell h c b hl := by simp only [new, AList.lookup_empty, reduceCtorEq] at hl
  cells_lt c hc := absurd hc (AList.notMem_empty c)
  active_lt h c hl := by simp only [new, AList.lookup_empty, reduceCtorEq] at hl

/-- Two handles from the two parts of a sound list have different hashes. -/
theorem Sound.hash_ne {l₁ l₂ : List (Block M)} {registry : AList (fun _ : SequenceHash => Nat)}
    {n : Nat} (hs : Sound (l₁ ++ l₂) registry n) {hd₁ hd₂ : RegistrationHandle}
    (h₁ : hd₁ ∈ handlesOf l₁) (h₂ : hd₂ ∈ handlesOf l₂) : hd₁.sequenceHash ≠ hd₂.sequenceHash := by
  have hnodup := hs.hashes_nodup
  rw [handlesOf_append, List.map_append, List.nodup_append] at hnodup
  exact hnodup.2.2 _ (List.mem_map_of_mem h₁) _ (List.mem_map_of_mem h₂)

/-- A block found in a cell is one of the system's blocks. -/
theorem mem_blocks_of_cell {p : Pool M} {c : Nat} {b : Block M} (hl : p.cells.lookup c = some b) :
    b ∈ p.blocks := by
  simp only [blocks, List.mem_append]
  exact Or.inl (Or.inr (AList.mem_values.mpr ⟨c, hl⟩))

section Preservation

variable {p p' : Pool M} {hand hand' : List (Block M)}

/-- A move of blocks between places, which may reset some of them, keeps the
    invariant when it leaves the registry and the cells alone, and the active
    pool loses only entries of dead cells. -/
theorem Inv.of_move (hinv : p.Inv hand) (hev : Evolved (p.blocks ++ hand) (p'.blocks ++ hand'))
    (hregistry : p'.registry = p.registry) (hcells : p'.cells = p.cells)
    (himm : p'.immutables = p.immutables) (hnext : p'.nextId = p.nextId)
    (hmut : ∀ b ∈ p'.mutables, b.state.registeredHandle = none) (hwf : p'.inactive.Wf)
    (htotal : p'.inactive.totalBlocks = p.inactive.totalBlocks)
    (hsub : ∀ h c, p'.active.lookup h = some c → p.active.lookup h = some c)
    (hlive : ∀ h c, p.active.lookup h = some c → c ∈ p.cells → p'.active.lookup h = some c) :
    p'.Inv hand' where
  sound := by
    rw [hregistry, hnext]
    exact hinv.sound.evolved hev
  total := by rw [htotal, hev.length_eq]; exact hinv.total
  registry_lt h id hl := by
    rw [hnext]
    rw [hregistry] at hl
    exact hinv.registry_lt h id hl
  registry_inj h h' id hl hl' := by
    rw [hregistry] at hl hl'
    exact hinv.registry_inj h h' id hl hl'
  inactive_wf := hwf
  mutables_unregistered := hmut
  immutables_live c hc := by
    rw [hcells]
    rw [himm] at hc
    exact hinv.immutables_live c hc
  cells_held c hc := by
    rw [himm]
    rw [hcells] at hc
    exact hinv.cells_held c hc
  cells_registered c b hl := by
    rw [hcells] at hl
    obtain ⟨hd, hhd, ha⟩ := hinv.cells_registered c b hl
    exact ⟨hd, hhd, hlive _ _ ha (AList.lookup_isSome.mp (by rw [hl]; rfl))⟩
  active_cell h c b ha hl := by
    rw [hcells] at hl
    exact hinv.active_cell h c b (hsub h c ha) hl
  cells_lt c hc := by
    rw [hnext]
    rw [hcells] at hc
    exact hinv.cells_lt c hc
  active_lt h c ha := by
    rw [hnext]
    exact hinv.active_lt h c (hsub h c ha)

/-- A move that only permutes the blocks and the hand. -/
theorem Inv.of_perm (hinv : p.Inv hand) (hperm : (p'.blocks ++ hand').Perm (p.blocks ++ hand))
    (hregistry : p'.registry = p.registry) (hcells : p'.cells = p.cells)
    (himm : p'.immutables = p.immutables) (hnext : p'.nextId = p.nextId)
    (hmut : p'.mutables = p.mutables) (hinactive : p'.inactive = p.inactive)
    (hactive : p'.active = p.active) : p'.Inv hand' :=
  hinv.of_move (Evolved.of_perm hperm) hregistry hcells himm hnext
    (by rw [hmut]; exact hinv.mutables_unregistered) (by rw [hinactive]; exact hinv.inactive_wf)
    (by rw [hinactive]) (fun h c ha => by rw [← hactive]; exact ha)
    (fun h c ha _ => by rw [hactive]; exact ha)

/-- Dropping a `MutableBlock` of the request's hands sends its block to the
    channel. -/
theorem Inv.send {b : Block M} (hinv : p.Inv (b :: hand)) : (p.send b).Inv hand :=
  hinv.of_perm (((blocks_send p b).append_right hand).trans List.perm_middle.symm)
    rfl rfl rfl rfl rfl rfl rfl

theorem Inv.foldl_send : ∀ {p : Pool M} {bs : List (Block M)}, p.Inv (bs ++ hand) →
    (bs.foldl Pool.send p).Inv hand
  | _, [], hinv => hinv
  | p, b :: bs, hinv => show (bs.foldl Pool.send (p.send b)).Inv hand from Inv.foldl_send hinv.send

/-- Handing out another `ImmutableBlock` of a live cell. -/
theorem Inv.clone {c : Nat} (hinv : p.Inv hand) (hc : c ∈ p.cells) : (p.clone c).Inv hand where
  sound := hinv.sound
  total := hinv.total
  registry_lt := hinv.registry_lt
  registry_inj := hinv.registry_inj
  inactive_wf := hinv.inactive_wf
  mutables_unregistered := hinv.mutables_unregistered
  immutables_live c' hc' := by
    rcases List.mem_append.mp hc' with hc' | hc'
    · exact hinv.immutables_live c' hc'
    · rw [List.mem_singleton.mp hc']
      exact hc
  cells_held c' hc' := List.mem_append_left _ (hinv.cells_held c' hc')
  cells_registered := hinv.cells_registered
  active_cell := hinv.active_cell
  cells_lt := hinv.cells_lt
  active_lt := hinv.active_lt

/-- Sharing a block registered under `h` in a new cell. No live cell holds a
    block under `h`, since its block and this one would share a hash, so
    pointing the active pool's `h` at the new cell loses no live entry. -/
theorem Inv.share {b : Block M} {hd : RegistrationHandle} {h : SequenceHash}
    (hinv : p.Inv (b :: hand)) (hb : b.state.registeredHandle = some hd) (hh : hd.sequenceHash = h) :
    (p.share h b).2.Inv hand := by
  have hfresh : p.nextId ∉ p.cells := fun hc => Nat.lt_irrefl _ (hinv.cells_lt _ hc)
  have hother : ∀ c b', p.cells.lookup c = some b' → ∀ hd', b'.state.registeredHandle = some hd' →
      hd'.sequenceHash ≠ h := by
    intro c b' hl hd' hb' heq
    refine hinv.sound.hash_ne ?_ ?_ (heq.trans hh.symm)
    · exact mem_handlesOf.mpr ⟨b', mem_blocks_of_cell hl, hb'⟩
    · exact mem_handlesOf.mpr ⟨b, List.mem_cons_self .., hb⟩
  have hperm : ((p.share h b).2.blocks ++ hand).Perm (p.blocks ++ b :: hand) :=
    ((blocks_share hfresh h b).append_right hand).trans List.perm_middle.symm
  exact {
    sound := (hinv.sound.perm hperm).mono (Nat.le_succ _)
    total := hperm.length_eq.trans hinv.total
    registry_lt := fun h' id hl => Nat.lt_succ_of_lt (hinv.registry_lt h' id hl)
    registry_inj := hinv.registry_inj
    inactive_wf := hinv.inactive_wf
    mutables_unregistered := hinv.mutables_unregistered
    immutables_live := fun c hc => by
      rcases List.mem_append.mp hc with hc | hc
      · exact (AList.mem_insert _).mpr (Or.inr (hinv.immutables_live c hc))
      · exact (AList.mem_insert _).mpr (Or.inl (List.mem_singleton.mp hc))
    cells_held := fun c hc => by
      rcases (AList.mem_insert _).mp hc with rfl | hc
      · exact List.mem_append_right _ (List.mem_singleton_self _)
      · exact List.mem_append_left _ (hinv.cells_held c hc)
    cells_registered := fun c b' hl => by
      by_cases hc : c = p.nextId
      · -- the new cell
        subst hc
        simp only [Pool.share, AList.lookup_insert, Option.some.injEq] at hl
        subst hl
        exact ⟨hd, hb, by simp only [Pool.share]; rw [hh, AList.lookup_insert]⟩
      · simp only [Pool.share, AList.lookup_insert_ne hc] at hl
        obtain ⟨hd', hb', ha⟩ := hinv.cells_registered c b' hl
        exact ⟨hd', hb', by simp only [Pool.share, AList.lookup_insert_ne (hother c b' hl hd' hb'), ha]⟩
    active_cell := fun h' c b' ha hl => by
      by_cases hh' : h' = h
      · -- the entry of `h` names the new cell
        subst hh'
        simp only [Pool.share, AList.lookup_insert, Option.some.injEq] at ha
        subst ha
        simp only [Pool.share, AList.lookup_insert, Option.some.injEq] at hl
        subst hl
        exact ⟨hd, hb, hh⟩
      · simp only [Pool.share, AList.lookup_insert_ne hh'] at ha
        have hne : c ≠ p.nextId := Nat.ne_of_lt (hinv.active_lt h' c ha)
        simp only [Pool.share, AList.lookup_insert_ne hne] at hl
        exact hinv.active_cell h' c b' ha hl
    cells_lt := fun c hc => by
      rcases (AList.mem_insert _).mp hc with rfl | hc
      · exact Nat.lt_succ_self _
      · exact Nat.lt_succ_of_lt (hinv.cells_lt c hc)
    active_lt := fun h' c ha => by
      by_cases hh' : h' = h
      · subst hh'
        simp only [Pool.share, AList.lookup_insert, Option.some.injEq] at ha
        subst ha
        exact Nat.lt_succ_self _
      · simp only [Pool.share, AList.lookup_insert_ne hh'] at ha
        exact Nat.lt_succ_of_lt (hinv.active_lt h' c ha) }

/-- No live cell holds a block under the hash of a handle the hands hold. -/
theorem Inv.not_live {b : Block M} {hd : RegistrationHandle} (hinv : p.Inv (b :: hand))
    (hb : b.state.registeredHandle = some hd) {c : Nat}
    (hl : p.active.lookup hd.sequenceHash = some c) : c ∉ p.cells := by
  intro hc
  obtain ⟨b', hb'⟩ := Option.isSome_iff_exists.mp (AList.lookup_isSome.mpr hc)
  obtain ⟨hd', hhd', hh'⟩ := hinv.active_cell _ c b' hl hb'
  exact hinv.sound.hash_ne (mem_handlesOf.mpr ⟨b', mem_blocks_of_cell hb', hhd'⟩)
    (mem_handlesOf.mpr ⟨b, List.mem_cons_self, hb⟩) hh'

/-- Nor does the inactive pool's map hold that hash. -/
theorem Inv.not_mem_lookupMap {b : Block M} {hd : RegistrationHandle} (hinv : p.Inv (b :: hand))
    (hb : b.state.registeredHandle = some hd) : hd.sequenceHash ∉ p.inactive.lookupMap := by
  intro hmem
  obtain ⟨x, hx⟩ := Option.isSome_iff_exists.mp (AList.lookup_isSome.mpr hmem)
  obtain ⟨hd', hhd', hh'⟩ := BlockState.isRegisteredWith_iff.mp
    (hinv.inactive_wf.lookup_registered _ x hx)
  have hmem' : x ∈ p.blocks := by
    simp only [blocks, InactiveBlockPool.blocks, List.mem_append]
    exact Or.inl (Or.inl (Or.inl (Or.inl (AList.mem_values.mpr ⟨_, hx⟩))))
  exact hinv.sound.hash_ne (mem_handlesOf.mpr ⟨x, hmem', hhd'⟩)
    (mem_handlesOf.mpr ⟨b, List.mem_cons_self, hb⟩) hh'

/-- Dropping the active pool's entry of a hash whose cell is dead. -/
theorem Inv.eraseActive {h : SequenceHash} (hinv : p.Inv hand)
    (hdead : ∀ c, p.active.lookup h = some c → c ∉ p.cells) :
    ({ p with active := p.active.erase h } : Pool M).Inv hand := by
  refine hinv.of_move (Evolved.refl _) rfl rfl rfl rfl hinv.mutables_unregistered
    hinv.inactive_wf rfl ?_ ?_
  · intro h' c ha
    by_cases hh : h' = h
    · subst hh
      simp only [AList.lookup_erase, reduceCtorEq] at ha
    · simpa only [AList.lookup_erase_ne hh] using ha
  · intro h' c ha hc
    have hh : h' ≠ h := by
      rintro rfl
      exact hdead c ha hc
    simpa only [AList.lookup_erase_ne hh] using ha

theorem Inv.activeMatchSequenceHash (hinv : p.Inv hand) (h : SequenceHash) :
    (p.activeMatchSequenceHash h).2.Inv hand := by
  unfold Pool.activeMatchSequenceHash
  split
  · next c hl =>
      split
      · next hc => exact hinv.clone hc
      · next hc => exact hinv.eraseActive (Option.forall_of_eq_some hl hc)
  · exact hinv

theorem Inv.activeRemove [BlockMetadata M] {b : Block M} (hinv : p.Inv (b :: hand)) :
    (p.activeRemove b).2.Inv ((p.activeRemove b).1 :: hand) := by
  unfold Pool.activeRemove
  split
  · split
    · next c hl =>
        split
        · -- the hash has a live cell: the block is reset in the hands
          have hev : Evolved (p.blocks ++ b :: hand) (p.blocks ++ b.reset :: hand) :=
            (Evolved.refl _).append (Evolved.cons (Block.evolves_reset b) (Evolved.refl hand))
          exact hinv.of_move hev rfl rfl rfl rfl hinv.mutables_unregistered hinv.inactive_wf rfl
            (fun _ _ ha => ha) (fun _ _ ha _ => ha)
        · next hc => exact hinv.eraseActive (Option.forall_of_eq_some hl hc)
    · exact hinv
  · exact hinv

/-- A block of the hands that holds a handle is not reset on its way back. -/
theorem Inv.activeRemove_fst [BlockMetadata M] {b : Block M} {hd : RegistrationHandle}
    (hinv : p.Inv (b :: hand)) (hb : b.state.registeredHandle = some hd) :
    (p.activeRemove b).1 = b := by
  unfold Pool.activeRemove
  rw [Block.sequenceHash_of_registeredHandle hb]
  dsimp only
  split
  · next c hl =>
      rw [if_neg (hinv.not_live hb hl)]
  · rfl

/-- Returning a block of the hands to the inactive pool. -/
theorem Inv.returnInactive [LinearOrder M] [BlockMetadata M] {b : Block M}
    (hinv : p.Inv (b :: hand)) :
    ({ p with inactive := p.inactive.returnBlock b } : Pool M).Inv hand := by
  obtain ⟨b', hb', hperm⟩ := InactiveBlockPool.blocks_returnBlock p.inactive b
  have hev : Evolved (p.blocks ++ b :: hand)
      (({ p with inactive := p.inactive.returnBlock b } : Pool M).blocks ++ hand) :=
    ((Evolved.cons hb' (Evolved.refl (p.blocks ++ hand))).perm_left List.perm_middle.symm).perm_right
      ((blocks_perm_of_inactive (l := [b']) hperm).append_right hand)
  exact hinv.of_move hev rfl rfl rfl rfl hinv.mutables_unregistered
    (hinv.inactive_wf.returnBlock b) (InactiveBlockPool.totalBlocks_returnBlock _ _)
    (fun _ _ ha => ha) (fun _ _ ha _ => ha)

theorem Inv.returnBlock [LinearOrder M] [BlockMetadata M] {b : Block M}
    (hinv : p.Inv (b :: hand)) : (p.returnBlock b).Inv hand :=
  hinv.activeRemove.returnInactive

/-- Under the invariant a returned block keeps its handle: the only reset on
    the way is of a block whose hash another live block holds. -/
theorem Inv.returnBlock_keeps [LinearOrder M] [BlockMetadata M] {b : Block M}
    (hinv : p.Inv (b :: hand)) :
    ∃ b', b'.data = b.data ∧ b'.state.registeredHandle = b.state.registeredHandle ∧
      (p.returnBlock b).blocks.Perm (b' :: p.blocks) := by
  obtain ⟨hev, hblocks⟩ := activeRemove_evolves p b
  cases hb : b.state.registeredHandle with
  | none =>
      -- a block without a handle stays without one
      obtain ⟨b', hb', hperm⟩ := InactiveBlockPool.blocks_returnBlock
        (p.activeRemove b).2.inactive (p.activeRemove b).1
      have hnone : b'.state.registeredHandle = none := by
        rcases (hev.trans hb').2 with h | h
        · rw [h, hb]
        · exact h
      refine ⟨b', (hev.trans hb').1, hnone, ?_⟩
      rw [← hblocks]
      exact blocks_perm_of_inactive (l := [b']) hperm
  | some hd =>
      -- a block with a handle goes into the map as it is
      have hfst := hinv.activeRemove_fst hb
      have hstate : (p.activeRemove b).1.state = .registered hd := by
        rw [hfst]
        cases hs : b.state <;> simp only [hs, BlockState.registeredHandle, reduceCtorEq,
          Option.some.injEq] at hb ⊢
        rw [hb]
      have hfresh : hd.sequenceHash ∉ (p.activeRemove b).2.inactive.lookupMap := by
        rw [(activeRemove_inactive p b)]
        exact hinv.not_mem_lookupMap hb
      obtain ⟨-, hperm⟩ := InactiveBlockPool.returnBlock_of_fresh
        (by rw [activeRemove_inactive p b]; exact hinv.inactive_wf) hstate hfresh
      refine ⟨(p.activeRemove b).1.metadataOnReturned ((p.activeRemove b).2.inactive.returnTick + 1),
        ?_, ?_, ?_⟩
      · rw [Block.metadataOnReturned_data, hfst]
      · rw [Block.metadataOnReturned_state, hfst, hb]
      · rw [← hblocks]
        exact blocks_perm_of_inactive (l := [_]) hperm

/-- Taking the block of a hash out of the inactive pool into the hands. -/
theorem Inv.takeInactive [LinearOrder M] {h : SequenceHash} {raw : Block M}
    {inactive : InactiveBlockPool M} (hinv : p.Inv hand)
    (ht : p.inactive.matchSequenceHash h = (some raw, inactive)) :
    ({ p with inactive := inactive } : Pool M).Inv (raw :: hand) := by
  rcases InactiveBlockPool.blocks_takeWithSequenceHash ht with ⟨hr, -⟩ | ⟨b, hr, hl, rfl, hperm⟩
  · cases hr
  · cases hr
    -- the pool with the entry is the pool without it, and the block
    have hpool : p.blocks.Perm ([raw] ++ ({ p with inactive := p.inactive.eraseEntry h raw } :
        Pool M).blocks) :=
      blocks_perm_of_inactive (p := { p with inactive := p.inactive.eraseEntry h raw }) hperm
    have hperm' : (({ p with inactive := p.inactive.eraseEntry h raw } : Pool M).blocks ++
        raw :: hand).Perm (p.blocks ++ hand) :=
      List.perm_middle.trans (hpool.append_right hand).symm
    exact hinv.of_move (Evolved.of_perm hperm') rfl rfl rfl rfl hinv.mutables_unregistered
      (hinv.inactive_wf.eraseEntry hl) rfl (fun _ _ ha => ha) (fun _ _ ha _ => ha)

/-- Registering a block of the hands that holds a handle: no live cell has
    its hash, so it always goes to a new cell. -/
theorem Inv.activeRegister_eq {b : Block M} {hd : RegistrationHandle}
    (hinv : p.Inv (b :: hand)) (hb : b.state.registeredHandle = some hd) :
    p.activeRegister b = (.ok p.nextId, (p.share hd.sequenceHash b).2) := by
  have hreg : b.state.isRegistered = true := by
    simp only [BlockState.isRegistered, hb, Option.isSome_some]
  unfold Pool.activeRegister
  rw [hreg, Block.sequenceHash_of_registeredHandle hb]
  simp only [Bool.not_true, Bool.false_eq_true, ↓reduceIte]
  split
  · next c hl =>
      rw [if_neg (hinv.not_live hb hl)]
      rfl
  · rfl

theorem Inv.activeRegister {b : Block M} {hd : RegistrationHandle} (hinv : p.Inv (b :: hand))
    (hb : b.state.registeredHandle = some hd) : (p.activeRegister b).2.Inv hand := by
  rw [hinv.activeRegister_eq hb]
  exact hinv.share hb rfl

/-- What a registration that succeeds did: the block was complete, its hash
    had no live handle, and it now holds a fresh handle of that hash. -/
theorem registerBlock_eq_ok {extra : List (Block M)} {publisher : List RegistrationHandle}
    {b b' : Block M} {hd : RegistrationHandle}
    (hr : p.registerBlock extra publisher b = (.ok (b', hd), p')) :
    ∃ tb, b.state = .complete tb ∧ p.isRegistered extra publisher tb.sequenceHash = false ∧
      hd = .fromTokenBlock p.nextId tb ∧ b' = b.withState (.registered hd) ∧
      p' = { p with registry := p.registry.insert tb.sequenceHash p.nextId,
                    nextId := p.nextId + 1 } := by
  unfold Pool.registerBlock at hr
  split at hr
  · cases hr
  · cases hr
  · next tb hs =>
      dsimp only at hr
      split at hr
      · cases hr
      · next hfree =>
          cases hr
          exact ⟨tb, hs, Bool.eq_false_iff.mpr hfree, rfl, rfl, rfl⟩
  · cases hr

/-- A registration that fails leaves the pool alone. -/
theorem registerBlock_eq_error {extra : List (Block M)} {publisher : List RegistrationHandle}
    {b : Block M} {e : BlockRegistationError} (hr : p.registerBlock extra publisher b = (.error e, p')) :
    p' = p := by
  unfold Pool.registerBlock at hr
  split at hr
  · cases hr
    rfl
  · cases hr
    rfl
  · dsimp only at hr
    split at hr
    · cases hr
      rfl
    · cases hr
  · cases hr
    rfl

/-- Registering a complete block of the hands gives it a handle under a hash
    no handle has: a handle of that hash would be live, and the registry
    would name it. -/
theorem Inv.registerBlock {publisher : List RegistrationHandle} {b b' : Block M}
    {hd : RegistrationHandle} (hinv : p.Inv (b :: hand))
    (hr : p.registerBlock (b :: hand) publisher b = (.ok (b', hd), p')) : p'.Inv (b' :: hand) := by
  obtain ⟨tb, hs, hfree, rfl, rfl, rfl⟩ := registerBlock_eq_ok hr
  have hnone : ∀ hd' ∈ handlesOf (p.blocks ++ b :: hand), hd'.sequenceHash ≠ tb.sequenceHash := by
    intro hd' hmem heq
    have hl := hinv.sound.registry_handle hd' hmem
    rw [heq] at hl
    have hlive : p.isRegistered (b :: hand) publisher tb.sequenceHash = true := by
      simp only [Pool.isRegistered, hl, handleLive, List.any_append, Bool.or_eq_true,
        List.any_eq_true, beq_iff_eq]
      exact Or.inl ⟨hd', hmem, rfl⟩
    rw [hlive] at hfree
    cases hfree
  have hb : b.state.registeredHandle = none := by rw [hs]; rfl
  have hl' : (p.blocks ++ b.withState (.registered (.fromTokenBlock p.nextId tb)) :: hand).Perm
      (b.withState (.registered (.fromTokenBlock p.nextId tb)) :: (p.blocks ++ hand)) :=
    List.perm_middle
  exact {
    sound := hinv.sound.register List.perm_middle hl' rfl hb rfl rfl hnone
    total := by
      rw [← hinv.total]
      simp only [List.length_append, List.length_cons]
      rfl
    registry_lt := fun h id hl => by
      rcases AList.lookup_insert_eq_some.mp hl with ⟨-, rfl⟩ | ⟨-, hl⟩
      · exact Nat.lt_succ_self _
      · exact Nat.lt_succ_of_lt (hinv.registry_lt h id hl)
    registry_inj := fun h h' id hl hl' => by
      rcases AList.lookup_insert_eq_some.mp hl with ⟨rfl, rfl⟩ | ⟨hne, hl⟩ <;>
        rcases AList.lookup_insert_eq_some.mp hl' with ⟨rfl, hid⟩ | ⟨hne', hl'⟩
      · rfl
      · exact absurd (hinv.registry_lt h' _ hl') (Nat.lt_irrefl _)
      · exact absurd (hinv.registry_lt h _ hl) (hid ▸ Nat.lt_irrefl _)
      · exact hinv.registry_inj h h' id hl hl'
    inactive_wf := hinv.inactive_wf
    mutables_unregistered := hinv.mutables_unregistered
    immutables_live := hinv.immutables_live
    cells_held := hinv.cells_held
    cells_registered := hinv.cells_registered
    active_cell := hinv.active_cell
    cells_lt := fun c hc => Nat.lt_succ_of_lt (hinv.cells_lt c hc)
    active_lt := fun h c ha => Nat.lt_succ_of_lt (hinv.active_lt h c ha) }

/-- The block at the head of the channel is taken into the hands. -/
theorem Inv.pop {x : Block M} {rest : List (Block M)} (hinv : p.Inv hand)
    (hrx : p.returnRx = x :: rest) : ({ p with returnRx := rest } : Pool M).Inv (x :: hand) :=
  hinv.of_perm (List.perm_middle.trans ((blocks_pop hrx).symm.append_right hand))
    rfl rfl rfl rfl rfl rfl rfl

/-- The wait takes a block off the channel into the hands, and returns the
    ones before it to the pool. -/
theorem Inv.waitForReturnedBlockFrom [LinearOrder M] [BlockMetadata M] {h : SequenceHash} :
    ∀ {l : List (Block M)} {p p' : Pool M} {b : Block M}, p.returnRx = l → p.Inv hand →
      waitForReturnedBlockFrom h l p = .ok (b, p') → p'.Inv (b :: hand)
  | [], _, _, _, _, _, hwait => by
      simp only [Pool.waitForReturnedBlockFrom, reduceCtorEq] at hwait
  | x :: rest, p, p', b, hrx, hinv, hwait => by
      -- the head leaves the channel into the hands whichever branch is taken
      have hpop := hinv.pop hrx
      unfold Pool.waitForReturnedBlockFrom at hwait
      split at hwait
      · simp only [Except.ok.injEq, Prod.mk.injEq] at hwait
        obtain ⟨rfl, rfl⟩ := hwait
        exact hpop
      · exact Inv.waitForReturnedBlockFrom (returnBlock_returnRx _ x) hpop.returnBlock hwait

/-- A move that drops cells, and the handles that named them. -/
theorem Inv.of_drop (hinv : p.Inv hand) (hperm : (p'.blocks ++ hand).Perm (p.blocks ++ hand))
    (hregistry : p'.registry = p.registry) (hnext : p'.nextId = p.nextId)
    (hinactive : p'.inactive = p.inactive) (hmut : p'.mutables = p.mutables)
    (hactive : p'.active = p.active)
    (hcells : ∀ c b, p'.cells.lookup c = some b → p.cells.lookup c = some b)
    (hlive : ∀ c ∈ p'.immutables, c ∈ p'.cells) (hheld : ∀ c ∈ p'.cells, c ∈ p'.immutables) :
    p'.Inv hand where
  sound := by
    rw [hregistry, hnext]
    exact hinv.sound.perm hperm
  total := by rw [hinactive, hperm.length_eq]; exact hinv.total
  registry_lt h id hl := by
    rw [hnext]
    rw [hregistry] at hl
    exact hinv.registry_lt h id hl
  registry_inj h h' id hl hl' := by
    rw [hregistry] at hl hl'
    exact hinv.registry_inj h h' id hl hl'
  inactive_wf := by rw [hinactive]; exact hinv.inactive_wf
  mutables_unregistered := by rw [hmut]; exact hinv.mutables_unregistered
  immutables_live := hlive
  cells_held := hheld
  cells_registered c b hl := by
    rw [hactive]
    exact hinv.cells_registered c b (hcells c b hl)
  active_cell h c b ha hl := by
    rw [hactive] at ha
    exact hinv.active_cell h c b ha (hcells c b hl)
  cells_lt c hc := by
    obtain ⟨b, hb⟩ := Option.isSome_iff_exists.mp (AList.lookup_isSome.mpr hc)
    rw [hnext]
    exact hinv.cells_lt c (AList.lookup_isSome.mp (by rw [hcells c b hb]; rfl))
  active_lt h c ha := by
    rw [hnext]
    rw [hactive] at ha
    exact hinv.active_lt h c ha

/-- What dropping an `ImmutableBlock` does: the handle goes, and with the
    last handle of a live cell the cell goes too, its block to the channel. -/
theorem dropImmutable_cases (p : Pool M) (c : Nat) :
    (c ∈ p.immutables.erase c ∨ p.cells.lookup c = none) ∧
        p.dropImmutable c = { p with immutables := p.immutables.erase c } ∨
      ∃ b, c ∉ p.immutables.erase c ∧ p.cells.lookup c = some b ∧
        p.dropImmutable c =
          ({ p with immutables := p.immutables.erase c, cells := p.cells.erase c } : Pool M).send b := by
  unfold Pool.dropImmutable
  dsimp only
  split
  · next hc => exact Or.inl ⟨Or.inl hc, rfl⟩
  · next hc =>
      split
      · next b hl => exact Or.inr ⟨b, hc, hl, rfl⟩
      · next hl => exact Or.inl ⟨Or.inr hl, rfl⟩

/-- Dropping an `ImmutableBlock` the callers hold. -/
theorem Inv.dropImmutable (hinv : p.Inv hand) (c : Nat) : (p.dropImmutable c).Inv hand := by
  have hperm : ((p.dropImmutable c).blocks ++ hand).Perm (p.blocks ++ hand) :=
    (blocks_dropImmutable p c).append_right hand
  -- a cell other than `c` keeps its handles
  have hheld : ∀ c' ∈ p.cells, c' ≠ c → c' ∈ p.immutables.erase c := fun c' hc' hne =>
    (List.mem_erase_of_ne hne).mpr (hinv.cells_held c' hc')
  rcases dropImmutable_cases p c with ⟨hkeep, hdrop⟩ | ⟨b, hc, hl, hdrop⟩
  · rw [hdrop] at hperm ⊢
    refine hinv.of_drop hperm rfl rfl rfl rfl rfl (fun _ _ hl => hl)
      (fun c' hc' => hinv.immutables_live c' (List.mem_of_mem_erase hc')) fun c' hc' => ?_
    by_cases hne : c' = c
    · subst hne
      rcases hkeep with hkeep | hnone
      · exact hkeep
      · exact absurd hc' (AList.lookup_eq_none.mp hnone)
    · exact hheld c' hc' hne
  · rw [hdrop] at hperm ⊢
    refine hinv.of_drop hperm rfl rfl rfl rfl rfl (fun c' b' hl' => ?_) (fun c' hc' => ?_)
      fun c' hc' => ?_
    · -- the other cells are as they were
      have hne : c' ≠ c := by
        rintro rfl
        simp only [Pool.send, AList.lookup_erase, reduceCtorEq] at hl'
      simpa only [Pool.send, AList.lookup_erase_ne hne] using hl'
    · have hne : c' ≠ c := by
        rintro rfl
        exact hc hc'
      exact AList.mem_erase.mpr ⟨hne, hinv.immutables_live c' (List.mem_of_mem_erase hc')⟩
    · obtain ⟨hne, hc'⟩ := AList.mem_erase.mp hc'
      exact hheld c' hc' hne

theorem Inv.foldl_dropImmutable : ∀ {p : Pool M} {cells : List Nat}, p.Inv hand →
    (cells.foldl Pool.dropImmutable p).Inv hand
  | _, [], hinv => hinv
  | p, c :: cells, hinv =>
      show (cells.foldl Pool.dropImmutable (p.dropImmutable c)).Inv hand from
        Inv.foldl_dropImmutable (hinv.dropImmutable c)

/-- The hands may be held in any order. -/
theorem Inv.perm_hand (hinv : p.Inv hand) (h : hand'.Perm hand) : p.Inv hand' :=
  hinv.of_perm (h.append_left _) rfl rfl rfl rfl rfl rfl rfl

theorem Inv.recordReleases (hinv : p.Inv hand) (before : List RegistrationHandle) :
    (p.recordReleases before).Inv hand :=
  { hinv with }

theorem Inv.publish (hinv : p.Inv hand) (publisher : List RegistrationHandle) :
    (p.publish publisher).Inv hand := by
  unfold Pool.publish
  split
  · exact hinv
  · exact { hinv with }

end Preservation

end Pool

end BlockManager

end Dynamo
