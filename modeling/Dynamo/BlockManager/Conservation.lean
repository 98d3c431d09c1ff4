import Dynamo.BlockManager.Registration

/-!
# No Block Is Lost or Made Twice

The pool never makes or destroys a block. `add_blocks` brings blocks in, and
every other request and every action of a caller only moves blocks between
the inactive pool, the return channel, the live cells and the callers'
`MutableBlock`s, resetting or registering some on the way. A block keeps its
index through all of that, so the indices tell where the blocks went.

`Holds p hand ix` says that the system's blocks, with the blocks in the hands
of the request being served, carry exactly the indices `ix`, each as often as
it occurs there. Each piece of a request moves blocks between the system and
the hands, as `Evolved` says, and so keeps `Holds` (`Holds.of_evolved`). The
loops and the requests are assembled from the pieces the way the invariant's
proofs assemble them, and they need the invariant at two places only: a new
cell is made at a number no live cell has, and a free block is acquired from
a well-formed inactive pool.

Over a run from `State::new` the system therefore holds exactly the blocks
that were added, each once, and the inactive pool's `total_blocks` counts
them; drained, the inactive pool has them all available
(`pool_run_conserves_blocks`). The registry's side of the same run: a
registration handle is held by one block at most for each sequence hash, the
registry names it and reads its hash as registered, and the block is in the
one place the invariant allows it (`pool_run_registration_unique`).

## Main definitions

* `Pool.Holds`: The system and the hands carry exactly some indices.

## Theorems

* `Pool.Holds.of_evolved`: A move of blocks keeps what is held.
* `Pool.Inv.holds_registerLoop`, `Pool.Inv.holds_matchLoop`,
  `Pool.holds_allocateLoop`: The loops move blocks and make none.
* `Pool.Inv.holds_step`: Every step keeps the blocks, with those it adds.
* `Pool.Run.holds`: A run holds exactly the blocks it started with and
  those it added.
* `Pool.pool_run_conserves_blocks`: Every block added is held exactly once,
  `total_blocks` counts them, and drained they are all available.
* `Pool.pool_run_registration_unique`: One handle per sequence hash, the one
  the registry names, in a block at one of the places a registered block
  can be.
-/

namespace Dynamo

namespace BlockManager

open Tokens

namespace Pool

variable {M : Type}

@[simp]
theorem indices_nil : indices ([] : List (Block M)) = [] := rfl

@[simp]
theorem indices_append (l l' : List (Block M)) : indices (l ++ l') = indices l ++ indices l' :=
  List.map_append

@[simp]
theorem blocks_recordReleases (p : Pool M) (before : List RegistrationHandle) :
    (p.recordReleases before).blocks = p.blocks := rfl

@[simp]
theorem blocks_publish (p : Pool M) (publisher : List RegistrationHandle) :
    (p.publish publisher).blocks = p.blocks := by
  unfold Pool.publish
  split
  · rfl
  · rfl

/-- The invariant leaves the next cell number free. -/
theorem Inv.nextId_not_mem_cells {p : Pool M} {hand : List (Block M)} (hinv : p.Inv hand) :
    p.nextId ∉ p.cells :=
  fun hc => Nat.lt_irrefl _ (hinv.cells_lt _ hc)

/-- The system's blocks and those in the hands carry exactly the indices
    `ix`. -/
def Holds (p : Pool M) (hand : List (Block M)) (ix : List Nat) : Prop :=
  (indices (p.blocks ++ hand)).Perm ix

/-- With no `ImmutableBlock` left, no cell is alive. -/
theorem Inv.values_cells_of_immutables {p : Pool M} {hand : List (Block M)} (hinv : p.Inv hand)
    (himm : p.immutables = []) : p.cells.values = [] := by
  refine List.eq_nil_iff_forall_not_mem.mpr fun b hb => ?_
  obtain ⟨c, hc⟩ := AList.mem_values.mp hb
  have hlive := hinv.cells_held c (AList.lookup_isSome.mp (by rw [hc]; rfl))
  rw [himm] at hlive
  exact List.not_mem_nil hlive

theorem length_inactive_blocks (X : InactiveBlockPool M) : X.blocks.length = X.availableBlocks := by
  simp only [InactiveBlockPool.blocks, InactiveBlockPool.availableBlocks, List.length_append,
    AList.length_values]
  omega

section Pieces

variable {p p' : Pool M} {hand hand' : List (Block M)} {ix : List Nat}

theorem Holds.of_perm (hh : Holds p hand ix) (hp : (p'.blocks ++ hand').Perm (p.blocks ++ hand)) :
    Holds p' hand' ix :=
  (hp.map _).trans hh

theorem Holds.of_blocks_eq (hh : Holds p hand ix) (hb : p'.blocks = p.blocks) : Holds p' hand ix := by
  unfold Holds
  rw [hb]
  exact hh

/-- A move of blocks: `l` leaves the hands into the system, which evolves,
    and `l'` comes out into the hands. -/
theorem Holds.of_evolved (l l' : List (Block M)) (hh : Holds p (l ++ hand) ix)
    (he : Evolved (l ++ p.blocks) (l' ++ p'.blocks)) : Holds p' (l' ++ hand) ix := by
  unfold Holds at hh ⊢
  have hmove : (indices (l' ++ p'.blocks) ++ indices hand).Perm
      (indices (l ++ p.blocks) ++ indices hand) :=
    he.1.append_right _
  -- both sides are the same lists with the system's blocks in front
  simp only [indices_append] at hh hmove ⊢
  have hout : (indices p'.blocks ++ (indices l' ++ indices hand)).Perm
      (indices l' ++ indices p'.blocks ++ indices hand) := by
    rw [← List.append_assoc]
    exact List.perm_append_comm.append_right _
  have hin : (indices l ++ indices p.blocks ++ indices hand).Perm
      (indices p.blocks ++ (indices l ++ indices hand)) := by
    rw [← List.append_assoc]
    exact List.perm_append_comm.append_right _
  exact ((hout.trans hmove).trans hin).trans hh

theorem Holds.send {b : Block M} (hh : Holds p (b :: hand) ix) : Holds (p.send b) hand ix :=
  hh.of_evolved [b] [] (Evolved.of_perm (blocks_send p b))

theorem Holds.foldl_send : ∀ {p : Pool M} {bs : List (Block M)}, Holds p (bs ++ hand) ix →
    Holds (bs.foldl Pool.send p) hand ix
  | _, [], hh => hh
  | p, b :: bs, hh => show Holds (bs.foldl Pool.send (p.send b)) hand ix from Holds.foldl_send hh.send

/-- An early return of the loop of `register_blocks` sends the blocks not
    reached back. -/
theorem Holds.foldl_send_rest {rest : List (Block M)} (hh : Holds p rest ix) :
    Holds (rest.foldl Pool.send p) [] ix :=
  Holds.foldl_send (by rw [List.append_nil]; exact hh)

theorem Holds.pop {x : Block M} {rest : List (Block M)} (hh : Holds p hand ix)
    (hrx : p.returnRx = x :: rest) : Holds { p with returnRx := rest } (x :: hand) ix :=
  hh.of_perm (List.perm_middle.trans ((blocks_pop hrx).symm.append_right hand))

theorem Holds.dropImmutable (hh : Holds p hand ix) (c : Nat) : Holds (p.dropImmutable c) hand ix :=
  hh.of_perm ((blocks_dropImmutable p c).append_right hand)

theorem Holds.foldl_dropImmutable : ∀ {p : Pool M} {cells : List Nat}, Holds p hand ix →
    Holds (cells.foldl Pool.dropImmutable p) hand ix
  | _, [], hh => hh
  | p, c :: cells, hh =>
      show Holds (cells.foldl Pool.dropImmutable (p.dropImmutable c)) hand ix from
        Holds.foldl_dropImmutable (hh.dropImmutable c)

theorem Holds.activeMatchSequenceHash (hh : Holds p hand ix) (h : SequenceHash) :
    Holds (p.activeMatchSequenceHash h).2 hand ix :=
  hh.of_blocks_eq (blocks_activeMatchSequenceHash p h)

theorem Holds.activeRegister {b : Block M} (hfresh : p.nextId ∉ p.cells) (hh : Holds p (b :: hand) ix) :
    Holds (p.activeRegister b).2 hand ix :=
  hh.of_evolved [b] [] (Evolved.of_perm (blocks_activeRegister hfresh b))

/-- A registration changes the registry and the block's state, never its
    data. -/
theorem Holds.registerBlock {extra : List (Block M)} {publisher : List RegistrationHandle}
    {b b' : Block M} {hd : RegistrationHandle}
    (hr : p.registerBlock extra publisher b = (.ok (b', hd), p')) (hh : Holds p (b :: hand) ix) :
    Holds p' (b' :: hand) ix := by
  rcases registerBlock_eq_ok hr with ⟨tb, -, -, -, rfl, rfl⟩
  have hidx : indices (p.blocks ++ b.withState (.registered hd) :: hand) =
      indices (p.blocks ++ b :: hand) := by
    simp only [indices, List.map_append, List.map_cons]
    rfl
  unfold Holds at hh ⊢
  rw [← hidx] at hh
  exact hh

theorem Holds.takeInactive [LinearOrder M] {h : SequenceHash} {raw : Block M}
    {inactive : InactiveBlockPool M} (hh : Holds p hand ix)
    (ht : p.inactive.matchSequenceHash h = (some raw, inactive)) :
    Holds { p with inactive := inactive } (raw :: hand) ix := by
  rcases InactiveBlockPool.blocks_takeWithSequenceHash ht with ⟨hr, -⟩ | ⟨b, hr, -, rfl, hperm⟩
  · cases hr
  · cases hr
    -- the pool with the entry is the pool without it, and the block
    have hpool : p.blocks.Perm ([raw] ++ ({ p with inactive := p.inactive.eraseEntry h raw } :
        Pool M).blocks) :=
      blocks_perm_of_inactive (p := { p with inactive := p.inactive.eraseEntry h raw }) hperm
    exact hh.of_evolved [] [raw] (Evolved.of_perm hpool.symm)

/-- A caller's `register_blocks` hands over `MutableBlock`s it holds. -/
theorem Holds.handOver {blocks rest : List (Block M)} (hh : Holds p [] ix)
    (hperm : p.mutables.Perm (blocks ++ rest)) :
    Holds ({ p with mutables := rest } : Pool M) blocks ix :=
  hh.of_perm (by
    rw [List.append_nil]
    exact List.perm_append_comm.trans (blocks_perm_of_mutables hperm).symm)

variable [LinearOrder M] [BlockMetadata M]

theorem Holds.returnBlock {b : Block M} (hh : Holds p (b :: hand) ix) :
    Holds (p.returnBlock b) hand ix :=
  hh.of_evolved [b] [] (returnBlock_evolved p b)

theorem Holds.waitForReturnedBlockFrom {h : SequenceHash} {l : List (Block M)} {b : Block M}
    (hh : Holds p hand ix) (hrx : p.returnRx = l) (hw : waitForReturnedBlockFrom h l p = .ok (b, p')) :
    Holds p' (b :: hand) ix :=
  hh.of_evolved [] [b] (waitForReturnedBlockFrom_evolved hrx hw)

end Pieces

/-! ### The loops and the requests -/

section Requests

variable [LinearOrder M] [BlockMetadata M] {p p' : Pool M} {hand : List (Block M)} {ix : List Nat}

/-- The loop of `register_blocks` moves every block it is given into the
    system, and makes none. -/
theorem Inv.holds_registerLoop : ∀ {blocks : List (Block M)} {p : Pool M}
    {publisher : List RegistrationHandle} {cells : List Nat} {r : RegisterEnd M},
    p.Inv blocks → Holds p blocks ix → p.registerLoop publisher cells blocks = .ok r →
      Holds r.pool [] ix
  | [], p, publisher, cells, r, _, hh, hloop => by
      simp only [Pool.registerLoop, Except.ok.injEq] at hloop
      subst hloop
      exact hh
  | block :: rest, p, publisher, cells, r, hinv, hh, hloop => by
      unfold Pool.registerLoop at hloop
      dsimp only at hloop
      split at hloop
      · -- a block without a hash: an early return
        cases hloop
        exact hh.send.foldl_send_rest
      · next h hseq =>
          -- the invariant rides along for the fresh cell numbers
          have hinv1 := hinv.activeMatchSequenceHash h
          have hh1 := hh.activeMatchSequenceHash h
          split at hloop
          · -- a live cell of the hash
            next cell p1 hm =>
              rw [hm] at hinv1 hh1
              exact Inv.holds_registerLoop hinv1.send hh1.send hloop
          · next p1 hm =>
              rw [hm] at hinv1 hh1
              split at hloop
              · -- the block of the hash in the inactive pool
                next raw inactive ht =>
                  have hinv2 := hinv1.takeInactive ht
                  have hh2 := hh1.takeInactive ht
                  split at hloop
                  · cases hloop
                  · next hreg =>
                      rcases Option.ne_none_iff_exists'.mp
                        (by simpa [BlockState.isRegistered] using hreg) with ⟨hd, hhd⟩
                      have hinv3 := hinv2.activeRegister hhd
                      have hh3 := hh2.activeRegister hinv2.nextId_not_mem_cells
                      split at hloop
                      · next cell p3 har =>
                          rw [har] at hinv3 hh3
                          exact Inv.holds_registerLoop hinv3.send hh3.send hloop
                      · next e p3 har =>
                          rw [har] at hh3
                          cases hloop
                          exact hh3.send.foldl_send_rest
              · next ht =>
                  split at hloop
                  · -- a fresh registration
                    next registered handle p2 hr =>
                      have hinv2 := hinv1.registerBlock hr
                      have hh2 := hh1.registerBlock hr
                      rcases registerBlock_eq_ok hr with ⟨tb, -, -, rfl, rfl, -⟩
                      have hinv3 := hinv2.activeRegister rfl
                      have hh3 := hh2.activeRegister hinv2.nextId_not_mem_cells
                      split at hloop
                      · next cell p3 har =>
                          rw [har] at hinv3 hh3
                          exact Inv.holds_registerLoop hinv3 hh3 hloop
                      · next e p3 har =>
                          rw [har] at hh3
                          cases hloop
                          exact hh3.foldl_send_rest
                  · -- a live handle elsewhere: its block is waited for
                    next x p2 hr =>
                      rcases registerBlock_eq_error hr with rfl
                      split at hloop
                      · cases hloop
                      · next raw p3 hw =>
                          have hinv3 := Inv.waitForReturnedBlockFrom rfl hinv1 hw
                          have hh3 := hh1.waitForReturnedBlockFrom rfl hw
                          rcases BlockState.isRegisteredWith_iff.mp
                            (waitForReturnedBlockFrom_registered hw) with ⟨hd, hhd, -⟩
                          have hinv4 := hinv3.activeRegister hhd
                          have hh4 := hh3.activeRegister hinv3.nextId_not_mem_cells
                          split at hloop
                          · next cell p4 har =>
                              rw [har] at hinv4 hh4
                              exact Inv.holds_registerLoop hinv4.send hh4.send hloop
                          · next e p4 har =>
                              rw [har] at hh4
                              cases hloop
                              exact hh4.send.foldl_send_rest
                  · next e p2 hne hr =>
                      rcases registerBlock_eq_error hr with rfl
                      cases hloop
                      exact hh1.send.foldl_send_rest

/-- The loop of `match_sequence_hashes` takes blocks into cells and makes
    none. -/
theorem Inv.holds_matchLoop : ∀ {hashes : List SequenceHash} {p p' : Pool M} {cells cells' : List Nat},
    p.Inv [] → Holds p [] ix → p.matchLoop cells hashes = .ok (cells', p') → Holds p' [] ix
  | [], p, p', cells, cells', _, hh, hloop => by
      simp only [Pool.matchLoop, Except.ok.injEq, Prod.mk.injEq] at hloop
      rw [← hloop.2]
      exact hh
  | h :: rest, p, p', cells, cells', hinv, hh, hloop => by
      unfold Pool.matchLoop at hloop
      split at hloop
      · -- a hash the registry does not know: the loop stops
        simp only [Except.ok.injEq, Prod.mk.injEq] at hloop
        rw [← hloop.2]
        exact hh
      · have hinv1 := hinv.activeMatchSequenceHash h
        have hh1 := hh.activeMatchSequenceHash h
        split at hloop
        · next cell p1 hm =>
            rw [hm] at hinv1 hh1
            exact Inv.holds_matchLoop hinv1 hh1 hloop
        · next p1 hm =>
            rw [hm] at hinv1 hh1
            dsimp only at hloop
            -- the block comes from the inactive pool or from the channel, and
            -- the rest of the iteration is the same for both
            split at hloop
            all_goals
              rcases Except.bind_eq_ok hloop with ⟨⟨raw, p2⟩, hfetch, hrest⟩
              have hinv2 : p2.Inv [raw] := by
                first
                | (cases hfetch; exact hinv1.takeInactive ‹_›)
                | exact Inv.waitForReturnedBlockFrom rfl hinv1 hfetch
              have hh2 : Holds p2 [raw] ix := by
                first
                | (cases hfetch; exact hh1.takeInactive ‹_›)
                | exact hh1.waitForReturnedBlockFrom rfl hfetch
              dsimp only at hrest
              split at hrest
              · cases hrest
              · next hreg =>
                  rcases Option.ne_none_iff_exists'.mp
                    (by simpa [BlockState.isRegistered] using hreg) with ⟨hd, hhd⟩
                  have hinv3 := hinv2.activeRegister hhd
                  have hh3 := hh2.activeRegister hinv2.nextId_not_mem_cells
                  split at hrest
                  · next cell p3 har =>
                      rw [har] at hinv3 hh3
                      exact Inv.holds_matchLoop hinv3 hh3 hrest
                  · cases hrest

/-- The loop of `allocate_blocks` takes blocks out of the inactive pool into
    the hands. It needs only that the pool is well formed. -/
theorem holds_allocateLoop : ∀ {n : Nat} {p p' : Pool M} {hand blocks : List (Block M)},
    p.inactive.Wf → Holds p hand ix → p.allocateLoop n = .ok (blocks, p') →
      Holds p' (blocks ++ hand) ix
  | 0, p, p', hand, blocks, _, hh, hloop => by
      simp only [Pool.allocateLoop, Except.ok.injEq, Prod.mk.injEq] at hloop
      rcases hloop with ⟨rfl, rfl⟩
      exact hh
  | n + 1, p, p', hand, blocks, hwf, hh, hloop => by
      unfold Pool.allocateLoop at hloop
      rcases Except.bind_eq_ok hloop with ⟨⟨r, inactive⟩, hacq, hrest⟩
      have hwf' : inactive.Wf := by
        rcases InactiveBlockPool.acquireFreeBlock_spec hwf with ⟨r', pool', hacq', hwf', -⟩
        rw [hacq, Except.ok.injEq, Prod.mk.injEq] at hacq'
        rw [hacq'.2]
        exact hwf'
      rcases InactiveBlockPool.blocks_acquireFreeBlock hwf hacq with
        ⟨rfl, rfl⟩ | ⟨b, b', rfl, hb', -, hperm⟩
      · -- nothing to hand out
        exact holds_allocateLoop hwf hh hrest
      · -- the acquired block leaves the inactive pool, reset, into the hands
        have hpool : p.blocks.Perm ([b] ++ ({ p with inactive := inactive } : Pool M).blocks) :=
          blocks_perm_of_inactive (p := { p with inactive := inactive }) hperm
        have hh1 : Holds { p with inactive := inactive } (b' :: hand) ix :=
          hh.of_evolved [] [b']
            ((Evolved.cons hb' (Evolved.refl _)).perm_left hpool.symm)
        dsimp only at hrest
        rcases Except.bind_eq_ok hrest with ⟨⟨blocks', p2⟩, hloop', hout⟩
        simp only [Except.ok.injEq, Prod.mk.injEq] at hout
        rcases hout with ⟨rfl, rfl⟩
        exact (holds_allocateLoop hwf' hh1 hloop').of_perm
          (List.perm_middle.symm.append_left _)

theorem Inv.holds_registerBlocks {blocks : List (Block M)} {r : Except BlockPoolError (List Nat)}
    (hinv : p.Inv blocks) (hh : Holds p blocks ix) (h : p.registerBlocks blocks = .ok (r, p')) :
    Holds p' [] ix := by
  unfold Pool.registerBlocks at h
  rcases Except.bind_eq_ok h with ⟨e, hloop, hrest⟩
  -- the `Publisher` and the releases only write events
  have hh1 : Holds (((e.pool.recordReleases (handlesOf (p.blocks ++ blocks))).publish
      e.publisher).recordReleases e.publisher) [] ix :=
    (hinv.holds_registerLoop hh hloop).of_blocks_eq (by simp)
  dsimp only at hrest
  split at hrest
  · split at hrest
    · cases hrest
    · cases hrest
      exact hh1
  · cases hrest
    exact hh1.foldl_dropImmutable

theorem Inv.holds_matchSequenceHashes {hashes : List SequenceHash} {r : List Nat} (hinv : p.Inv [])
    (hh : Holds p [] ix) (h : p.matchSequenceHashes hashes = .ok (r, p')) : Holds p' [] ix := by
  unfold Pool.matchSequenceHashes at h
  rcases Except.bind_eq_ok h with ⟨⟨cells, p1⟩, hloop, hrest⟩
  simp only [Except.ok.injEq, Prod.mk.injEq] at hrest
  rw [← hrest.2]
  exact (hinv.holds_matchLoop hh hloop).of_blocks_eq (blocks_recordReleases _ _)

theorem Inv.holds_allocateBlocks {count : Nat} {r : Except BlockPoolError (List (Block M))}
    (hinv : p.Inv []) (hh : Holds p [] ix) (h : p.allocateBlocks count = .ok (r, p')) :
    Holds p' [] ix := by
  unfold Pool.allocateBlocks at h
  dsimp only at h
  split at h
  · cases h
    exact hh
  · rcases Except.bind_eq_ok h with ⟨⟨blocks, p1⟩, hloop, hrest⟩
    cases hrest
    -- the blocks go to the callers' `MutableBlock`s
    have hperm : (({ p1 with mutables := p1.mutables ++ blocks } : Pool M).blocks ++ []).Perm
        (p1.blocks ++ (blocks ++ [])) := by
      simp only [Pool.blocks, List.append_nil, List.append_assoc, List.Perm.refl]
    exact ((holds_allocateLoop hinv.inactive_wf hh hloop).of_perm hperm).of_blocks_eq
      (blocks_recordReleases _ _)

/-- `add_blocks` brings its blocks into the inactive pool. -/
theorem Holds.addBlocks {blocks : List (Block M)} (hh : Holds p [] ix) :
    Holds (p.addBlocks blocks) [] (ix ++ indices blocks) := by
  have hfold := InactiveBlockPool.blocks_foldl_insert p.inactive blocks
  -- the rest of the system stays where it is
  have hev : Evolved (blocks ++ p.blocks)
      ([] ++ ({ p with inactive := p.inactive.addBlocks blocks } : Pool M).blocks) := by
    refine ((hfold.append (Evolved.refl (p.returnRx ++ p.cells.values ++ p.mutables))).perm_left
      ?_).perm_right ?_
    · simp only [Pool.blocks, List.append_assoc, List.Perm.refl]
    · simp only [Pool.blocks, InactiveBlockPool.addBlocks, List.nil_append, List.append_assoc]
      exact List.Perm.refl _
  have hh' : Holds p (blocks ++ []) (ix ++ indices blocks) := by
    unfold Holds at hh ⊢
    simp only [indices_append, List.append_nil] at hh ⊢
    exact hh.append_right _
  exact (hh'.of_evolved blocks [] hev).of_blocks_eq (blocks_recordReleases _ _)

/-- Every step keeps the blocks the system holds, with those it adds. -/
theorem Inv.holds_step {xxh3 : Xxh3} {added : List (Block M)} (hinv : p.Inv []) (hh : Holds p [] ix)
    (hs : Step xxh3 p added p') : Holds p' [] (ix ++ indices added) := by
  cases hs with
  | addBlocks _ => exact hh.addBlocks
  | allocateBlocks h =>
      rw [indices_nil, List.append_nil]
      exact hinv.holds_allocateBlocks hh h
  | registerBlocks hperm h =>
      rw [indices_nil, List.append_nil]
      exact (hinv.handOver hperm).holds_registerBlocks (hh.handOver hperm) h
  | matchSequenceHashes h =>
      rw [indices_nil, List.append_nil]
      exact hinv.holds_matchSequenceHashes hh h
  | receiveReturned hrx =>
      rw [indices_nil, List.append_nil]
      exact (hh.pop hrx).returnBlock
  | dropMutable hperm =>
      rename_i block rest
      rw [indices_nil, List.append_nil]
      exact (hh.handOver (hperm : p.mutables.Perm ([block] ++ rest))).send
  | dropImmutable _ =>
      rw [indices_nil, List.append_nil]
      exact hh.dropImmutable _
  | call hperm hcall =>
      rename_i block block' rest c
      rw [indices_nil, List.append_nil]
      -- the call keeps the block's data, so its index
      have hb := hinv.mutables_unregistered block (hperm.symm.subset List.mem_cons_self)
      rcases Block.call_registeredHandle hb hcall with ⟨hb', hdata⟩
      have hbefore : p.blocks.Perm (block :: ({ p with mutables := rest } : Pool M).blocks) :=
        blocks_perm_of_mutables (l := [block]) hperm
      have hafter : ({ p with mutables := block' :: rest } : Pool M).blocks.Perm
          (block' :: ({ p with mutables := rest } : Pool M).blocks) :=
        blocks_perm_of_mutables (p := { p with mutables := block' :: rest }) (l := [block'])
          (List.Perm.refl _)
      exact hh.of_evolved [] []
        (evolved_of_evolves ⟨hdata, Or.inr hb'⟩ hbefore hafter)

/-- A run keeps the invariant and holds the blocks it started with and those
    it added. -/
theorem Run.holds {xxh3 : Xxh3} {added : List (Block M)} {q : Pool M} (hrun : Run xxh3 p added q)
    (hinv : p.Inv []) (hh : Holds p [] ix) : q.Inv [] ∧ Holds q [] (ix ++ indices added) := by
  induction hrun with
  | refl => exact ⟨hinv, by rw [indices_nil, List.append_nil]; exact hh⟩
  | tail _ hs ih =>
      rcases ih with ⟨hinv', hh'⟩
      refine ⟨hinv'.step hs, ?_⟩
      rw [indices_append, ← List.append_assoc]
      exact hinv'.holds_step hh' hs

/-- Over every run from `State::new`, the blocks of the system, wherever they
    are (the inactive pool's map and uninitialized set, the return channel,
    the cells that `ImmutableBlock`s share, and callers' `MutableBlock`s),
    are the blocks added, each exactly once, and the inactive pool's
    `total_blocks` counts them. Once callers hold no handle and the return
    channel is drained, every block is back in the inactive pool:
    `available_blocks()` equals `total_blocks`. -/
theorem pool_run_conserves_blocks {xxh3 : Xxh3} {added : List (Block M)}
    (hrun : Run xxh3 new added p) :
    (indices p.blocks).Perm (indices added) ∧ (indices p.blocks).Nodup ∧
      p.inactive.totalBlocks = added.length ∧
      (p.mutables = [] → p.immutables = [] → p.returnRx = [] →
        p.inactive.availableBlocks = p.inactive.totalBlocks) := by
  have hinv := hrun.inv
  have hheld : (indices p.blocks).Perm (indices added) := by
    have hh := (hrun.holds inv_new (List.Perm.refl _)).2
    have hnew : (new : Pool M).blocks = [] := rfl
    unfold Holds at hh
    simpa [hnew] using hh
  have htotal := hinv.total
  rw [List.append_nil] at htotal
  refine ⟨hheld, ?_, ?_, fun hmut himm hrx => ?_⟩
  · have hnodup := hinv.sound.indices_nodup
    rw [List.append_nil] at hnodup
    exact hnodup
  · -- the invariant's count, and the indices' length
    rw [← htotal]
    simpa [indices] using hheld.length_eq
  · -- drained, the system's blocks are the inactive pool's
    rw [blocks, hmut, hrx, hinv.values_cells_of_immutables himm] at htotal
    simpa only [List.append_nil, length_inactive_blocks] using htotal

/-- A run that adds two blocks, hands one to a caller who registers it and
    drops its `ImmutableBlock`, and takes it back from the return channel:
    drained, the pool has both blocks available, one under its hash. -/
theorem pool_run_conserves_blocks_drained :
    ∃ p : Pool BasicMetadata, Run (fun _ _ => 0) new
        [⟨⟨0, 2⟩, ⟨0, 0, 0⟩, .reset⟩, ⟨⟨1, 2⟩, ⟨0, 0, 0⟩, .reset⟩] p ∧
      p.mutables = [] ∧ p.immutables = [] ∧ p.returnRx = [] ∧
      p.inactive.lookupMap.keys = [11] ∧
      (indices p.blocks).Perm (indices [(⟨⟨0, 2⟩, ⟨0, 0, 0⟩, .reset⟩ : Block BasicMetadata),
        ⟨⟨1, 2⟩, ⟨0, 0, 0⟩, .reset⟩]) ∧ (indices p.blocks).Nodup ∧
      p.inactive.totalBlocks = [(⟨⟨0, 2⟩, ⟨0, 0, 0⟩, .reset⟩ : Block BasicMetadata),
        ⟨⟨1, 2⟩, ⟨0, 0, 0⟩, .reset⟩].length ∧
      (p.mutables = [] → p.immutables = [] → p.returnRx = [] →
        p.inactive.availableBlocks = p.inactive.totalBlocks) := by
  have h : replay (fun _ _ => 0) [] (new : Pool BasicMetadata)
      [.addBlocks [⟨⟨0, 2⟩, ⟨0, 0, 0⟩, .reset⟩, ⟨⟨1, 2⟩, ⟨0, 0, 0⟩, .reset⟩],
        .allocateBlocks 1, .call (.applyTokenBlock ⟨[5, 6], 0, 7, 11, none⟩),
        .registerBlocks 1, .dropImmutable 1, .receiveReturned] =
      some ([⟨⟨0, 2⟩, ⟨0, 0, 0⟩, .reset⟩, ⟨⟨1, 2⟩, ⟨0, 0, 0⟩, .reset⟩], _) := rfl
  have hrun := (Run.refl new).replay (fun _ _ => 0) h
  exact ⟨_, hrun, by decide, by decide, by decide, by decide, pool_run_conserves_blocks hrun⟩

/-- Over every run from `State::new`, between requests: no two blocks of
    the system hold handles of one sequence hash or of one allocation, and
    the registry names each handle under its hash; `is_registered` holds of
    a hash exactly when a block holds a handle of it; such a block is in the
    inactive map under the hash, on the return channel, or in a live cell
    that a caller's `ImmutableBlock` holds and the active pool maps the hash
    to, and only there, since every block of the system is held once.
    Callers' `MutableBlock`s hold no handle, and each `ImmutableBlock` names
    a live cell registered under a hash the active pool maps to it. So the
    wait on the return channel in `match_sequence_hashes`, and in
    `register_blocks` on the complete blocks a caller hands over, always
    finds its block: neither request waits for ever. -/
theorem pool_run_registration_unique {xxh3 : Xxh3} {added : List (Block M)}
    (hrun : Run xxh3 new added p) :
    ((handlesOf p.blocks).map RegistrationHandle.sequenceHash).Nodup ∧
      ((handlesOf p.blocks).map RegistrationHandle.id).Nodup ∧
      (∀ hd ∈ handlesOf p.blocks, p.registry.lookup hd.sequenceHash = some hd.id) ∧
      (∀ h, p.isRegistered [] [] h = true ↔ ∃ hd ∈ handlesOf p.blocks, hd.sequenceHash = h) ∧
      (∀ b ∈ p.blocks, ∀ hd, b.state.registeredHandle = some hd →
        p.inactive.lookupMap.lookup hd.sequenceHash = some b ∨ b ∈ p.returnRx ∨
          ∃ c, p.cells.lookup c = some b ∧ c ∈ p.immutables ∧
            p.active.lookup hd.sequenceHash = some c) ∧
      (indices p.blocks).Nodup ∧
      (∀ b ∈ p.mutables, b.state.registeredHandle = none) ∧
      (∀ c ∈ p.immutables, ∃ b hd, p.cells.lookup c = some b ∧
        b.state.registeredHandle = some hd ∧ p.active.lookup hd.sequenceHash = some c) ∧
      (∀ hashes, ∃ r, p.matchSequenceHashes hashes = .ok r) ∧
      ∀ blocks rest, p.mutables.Perm (blocks ++ rest) →
        (∀ b ∈ blocks, ∃ tb, b.state = .complete tb) →
        ∃ r, ({ p with mutables := rest } : Pool M).registerBlocks blocks = .ok r := by
  have hinv := hrun.inv
  have hsound := hinv.sound
  rw [List.append_nil] at hsound
  refine ⟨hsound.hashes_nodup, hsound.ids_nodup, hsound.registry_handle, fun h => ?_,
    fun b hb hd hbhd => hinv.place_of_registered hb hbhd, hsound.indices_nodup,
    hinv.mutables_unregistered, fun c hc => ?_, fun hashes => ?_,
    fun blocks rest hperm hcomplete => ?_⟩
  · -- between requests there are no hands and no `Publisher`
    simpa only [List.append_nil] using
      hinv.isRegistered_iff (fun _ hd => absurd hd List.not_mem_nil) h
  · -- the handle is live, so its cell is, and a live cell is registered
    rcases Option.isSome_iff_exists.mp (AList.lookup_isSome.mpr (hinv.immutables_live c hc)) with
      ⟨b, hb⟩
    rcases hinv.cells_registered c b hb with ⟨hd, hhd, ha⟩
    exact ⟨b, hd, hb, hhd, ha⟩
  · -- the wait on the return channel finds the block: the request returns
    rcases hinv.matchSequenceHashes_spec hashes with ⟨cells, p', heq, -⟩
    exact ⟨_, heq⟩
  · rcases (hinv.handOver hperm).registerBlocks_spec hcomplete with ⟨cells, p', heq, -⟩
    exact ⟨_, heq⟩

/-- A run that adds two blocks and registers one through a caller, who
    keeps its `ImmutableBlock`: the registry reads the hash as registered,
    and the live cell holding the block is the one the active pool names. -/
theorem pool_run_registration_unique_shared :
    ∃ p : Pool BasicMetadata, Run (fun _ _ => 0) new
        [⟨⟨0, 2⟩, ⟨0, 0, 0⟩, .reset⟩, ⟨⟨1, 2⟩, ⟨0, 0, 0⟩, .reset⟩] p ∧
      p.isRegistered [] [] 11 = true ∧ p.immutables = [1] ∧ p.active.lookup 11 = some 1 ∧
      ((handlesOf p.blocks).map RegistrationHandle.sequenceHash).Nodup ∧
      ((handlesOf p.blocks).map RegistrationHandle.id).Nodup ∧
      (∀ hd ∈ handlesOf p.blocks, p.registry.lookup hd.sequenceHash = some hd.id) ∧
      (∀ h, p.isRegistered [] [] h = true ↔ ∃ hd ∈ handlesOf p.blocks, hd.sequenceHash = h) ∧
      (∀ b ∈ p.blocks, ∀ hd, b.state.registeredHandle = some hd →
        p.inactive.lookupMap.lookup hd.sequenceHash = some b ∨ b ∈ p.returnRx ∨
          ∃ c, p.cells.lookup c = some b ∧ c ∈ p.immutables ∧
            p.active.lookup hd.sequenceHash = some c) ∧
      (indices p.blocks).Nodup ∧
      (∀ b ∈ p.mutables, b.state.registeredHandle = none) ∧
      (∀ c ∈ p.immutables, ∃ b hd, p.cells.lookup c = some b ∧
        b.state.registeredHandle = some hd ∧ p.active.lookup hd.sequenceHash = some c) ∧
      (∀ hashes, ∃ r, p.matchSequenceHashes hashes = .ok r) ∧
      ∀ blocks rest, p.mutables.Perm (blocks ++ rest) →
        (∀ b ∈ blocks, ∃ tb, b.state = .complete tb) →
        ∃ r, ({ p with mutables := rest } : Pool BasicMetadata).registerBlocks blocks = .ok r := by
  have h : replay (fun _ _ => 0) [] (new : Pool BasicMetadata)
      [.addBlocks [⟨⟨0, 2⟩, ⟨0, 0, 0⟩, .reset⟩, ⟨⟨1, 2⟩, ⟨0, 0, 0⟩, .reset⟩],
        .allocateBlocks 1, .call (.applyTokenBlock ⟨[5, 6], 0, 7, 11, none⟩),
        .registerBlocks 1] =
      some ([⟨⟨0, 2⟩, ⟨0, 0, 0⟩, .reset⟩, ⟨⟨1, 2⟩, ⟨0, 0, 0⟩, .reset⟩], _) := rfl
  have hrun := (Run.refl new).replay (fun _ _ => 0) h
  exact ⟨_, hrun, by decide, by decide, by decide, pool_run_registration_unique hrun⟩

end Requests

end Pool

end BlockManager

end Dynamo
