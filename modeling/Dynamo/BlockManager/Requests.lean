import Dynamo.BlockManager.Safety

/-!
# The Pool Invariant over Every Run

Every request the progress engine serves, and every action of a caller,
keeps `Pool.Inv`, so it holds of every state the system reaches from
`State::new`. The requests are assembled from the pieces of the invariant's
module: the loop of `register_blocks` keeps the invariant with the blocks it
has not reached yet in the hands, that of `match_sequence_hashes` with
nothing in them, and that of `allocate_blocks` with the blocks it hands out.
A request that aborts is no step, so the loops are only followed to their
successful ends.

## Theorems

* `Pool.waitForReturnedBlockFrom_ok`: The wait returns when a block of the
  hash is on the channel.
* `Pool.Inv.registerLoop`, `Pool.Inv.matchLoop`, `Pool.Inv.allocateLoop`:
  The loops keep the invariant.
* `Pool.Inv.step`: Every step of the system keeps it.
* `Pool.Run.inv`: Every state of a run from `new` satisfies it.
-/

namespace Dynamo

namespace BlockManager

open Tokens

namespace Pool

variable {M : Type}

/-- An early return of the loop of `register_blocks` sends the blocks not
    reached back. -/
theorem Inv.foldl_send_rest {q : Pool M} {rest : List (Block M)} (hinv : q.Inv rest) :
    (rest.foldl Pool.send q).Inv [] :=
  Inv.foldl_send (by rw [List.append_nil]; exact hinv)

/-- A caller's `register_blocks` hands over `MutableBlock`s it holds. -/
theorem Inv.handOver {p : Pool M} {blocks rest : List (Block M)} (hinv : p.Inv [])
    (hperm : p.mutables.Perm (blocks ++ rest)) :
    ({ p with mutables := rest } : Pool M).Inv blocks := by
  -- the callers' blocks move to the hands
  have hmove : (({ p with mutables := rest } : Pool M).blocks ++ blocks).Perm (p.blocks ++ []) := by
    rw [List.append_nil]
    exact List.perm_append_comm.trans (blocks_perm_of_mutables hperm).symm
  exact hinv.of_move (Evolved.of_perm hmove) rfl rfl rfl rfl
    (fun b hb => hinv.mutables_unregistered b (hperm.symm.subset (List.mem_append_right _ hb)))
    hinv.inactive_wf rfl (fun _ _ ha => ha) (fun _ _ ha _ => ha)

section Requests

variable [LinearOrder M] [BlockMetadata M] {p p' : Pool M} {hand : List (Block M)}

/-! ### The wait -/

/-- What the wait takes off the channel is registered under the hash. -/
theorem waitForReturnedBlockFrom_registered {h : SequenceHash} :
    ∀ {l : List (Block M)} {p p' : Pool M} {b : Block M},
      waitForReturnedBlockFrom h l p = .ok (b, p') → b.state.isRegisteredWith h = true
  | [], _, _, _, hwait => by
      simp only [waitForReturnedBlockFrom, reduceCtorEq] at hwait
  | x :: rest, p, p', b, hwait => by
      unfold waitForReturnedBlockFrom at hwait
      split at hwait
      · next hx =>
          simp only [Except.ok.injEq, Prod.mk.injEq] at hwait
          rw [← hwait.1]
          exact hx
      · exact waitForReturnedBlockFrom_registered hwait

/-- The wait returns as soon as a block of the hash is on the channel. -/
theorem waitForReturnedBlockFrom_ok {h : SequenceHash} :
    ∀ {l : List (Block M)} (p : Pool M), (∃ x ∈ l, x.state.isRegisteredWith h = true) →
      ∃ b p', waitForReturnedBlockFrom h l p = .ok (b, p')
  | [], _, ⟨_, hx, _⟩ => absurd hx List.not_mem_nil
  | x :: rest, p, ⟨y, hy, hreg⟩ => by
      unfold waitForReturnedBlockFrom
      split
      · exact ⟨_, _, rfl⟩
      · next hx =>
          -- the block of the hash is further down the channel
          refine waitForReturnedBlockFrom_ok _ ⟨y, ?_, hreg⟩
          rcases List.mem_cons.mp hy with rfl | hy
          · exact absurd hreg hx
          · exact hy

/-! ### The loops -/

theorem Inv.registerLoop : ∀ {blocks : List (Block M)} {p : Pool M}
    {publisher : List RegistrationHandle} {cells : List Nat} {r : RegisterEnd M},
    p.Inv blocks → p.registerLoop publisher cells blocks = .ok r → r.pool.Inv []
  | [], p, publisher, cells, r, hinv, hloop => by
      simp only [Pool.registerLoop, Except.ok.injEq] at hloop
      subst hloop
      exact hinv
  | block :: rest, p, publisher, cells, r, hinv, hloop => by
      unfold Pool.registerLoop at hloop
      dsimp only at hloop
      split at hloop
      · -- a block without a hash: an early return
        cases hloop
        exact hinv.send.foldl_send_rest
      · next h hseq =>
          have hinv1 := hinv.activeMatchSequenceHash h
          split at hloop
          · -- a live cell of the hash
            next cell p1 hm =>
              rw [hm] at hinv1
              exact Inv.registerLoop hinv1.send hloop
          · next p1 hm =>
              rw [hm] at hinv1
              split at hloop
              · -- the block of the hash in the inactive pool
                next raw inactive ht =>
                  have hinv2 := hinv1.takeInactive ht
                  split at hloop
                  · cases hloop
                  · next hreg =>
                      obtain ⟨hd, hhd⟩ : ∃ hd, raw.state.registeredHandle = some hd :=
                        Option.ne_none_iff_exists'.mp (by simpa [BlockState.isRegistered] using hreg)
                      have hinv3 := hinv2.activeRegister hhd
                      split at hloop
                      · next cell p3 har =>
                          rw [har] at hinv3
                          exact Inv.registerLoop hinv3.send hloop
                      · next e p3 har =>
                          rw [har] at hinv3
                          cases hloop
                          exact hinv3.send.foldl_send_rest
              · next ht =>
                  split at hloop
                  · -- a fresh registration
                    next registered handle p2 hr =>
                      have hinv2 := hinv1.registerBlock hr
                      obtain ⟨tb, -, -, rfl, rfl, -⟩ := registerBlock_eq_ok hr
                      have hinv3 := hinv2.activeRegister rfl
                      split at hloop
                      · next cell p3 har =>
                          rw [har] at hinv3
                          exact Inv.registerLoop hinv3 hloop
                      · next e p3 har =>
                          rw [har] at hinv3
                          cases hloop
                          exact hinv3.foldl_send_rest
                  · -- a live handle elsewhere: its block is waited for
                    next x p2 hr =>
                      obtain rfl := registerBlock_eq_error hr
                      split at hloop
                      · cases hloop
                      · next raw p3 hw =>
                          have hinv3 := Inv.waitForReturnedBlockFrom rfl hinv1 hw
                          obtain ⟨hd, hhd, -⟩ :=
                            BlockState.isRegisteredWith_iff.mp (waitForReturnedBlockFrom_registered hw)
                          have hinv4 := hinv3.activeRegister hhd
                          split at hloop
                          · next cell p4 har =>
                              rw [har] at hinv4
                              exact Inv.registerLoop hinv4.send hloop
                          · next e p4 har =>
                              rw [har] at hinv4
                              cases hloop
                              exact hinv4.send.foldl_send_rest
                  · next e p2 hne hr =>
                      obtain rfl := registerBlock_eq_error hr
                      cases hloop
                      exact hinv1.send.foldl_send_rest

theorem Inv.matchLoop : ∀ {hashes : List SequenceHash} {p p' : Pool M} {cells cells' : List Nat},
    p.Inv [] → p.matchLoop cells hashes = .ok (cells', p') → p'.Inv []
  | [], p, p', cells, cells', hinv, hloop => by
      simp only [Pool.matchLoop, Except.ok.injEq, Prod.mk.injEq] at hloop
      rw [← hloop.2]
      exact hinv
  | h :: rest, p, p', cells, cells', hinv, hloop => by
      unfold Pool.matchLoop at hloop
      split at hloop
      · -- a hash the registry does not know: the loop stops
        simp only [Except.ok.injEq, Prod.mk.injEq] at hloop
        rw [← hloop.2]
        exact hinv
      · have hinv1 := hinv.activeMatchSequenceHash h
        split at hloop
        · next cell p1 hm =>
            rw [hm] at hinv1
            exact Inv.matchLoop hinv1 hloop
        · next p1 hm =>
            rw [hm] at hinv1
            dsimp only at hloop
            -- the block comes from the inactive pool or from the channel, and
            -- the rest of the iteration is the same for both
            split at hloop
            all_goals
              obtain ⟨⟨raw, p2⟩, hfetch, hrest⟩ := Except.bind_eq_ok hloop
              have hinv2 : p2.Inv [raw] := by
                first
                | (cases hfetch; exact hinv1.takeInactive ‹_›)
                | exact Inv.waitForReturnedBlockFrom rfl hinv1 hfetch
              dsimp only at hrest
              split at hrest
              · cases hrest
              · next hreg =>
                  obtain ⟨hd, hhd⟩ :=
                    Option.ne_none_iff_exists'.mp (by simpa [BlockState.isRegistered] using hreg)
                  have hinv3 := hinv2.activeRegister hhd
                  split at hrest
                  · next cell p3 har =>
                      rw [har] at hinv3
                      exact Inv.matchLoop hinv3 hrest
                  · cases hrest

/-- The loop of `allocate_blocks` hands out reset blocks. -/
theorem Inv.allocateLoop : ∀ {n : Nat} {p p' : Pool M} {hand blocks : List (Block M)},
    p.Inv hand → p.allocateLoop n = .ok (blocks, p') →
      p'.Inv (blocks ++ hand) ∧ ∀ b ∈ blocks, b.state = .reset
  | 0, p, p', hand, blocks, hinv, hloop => by
      simp only [Pool.allocateLoop, Except.ok.injEq, Prod.mk.injEq] at hloop
      obtain ⟨rfl, rfl⟩ := hloop
      exact ⟨hinv, fun _ hb => absurd hb List.not_mem_nil⟩
  | n + 1, p, p', hand, blocks, hinv, hloop => by
      unfold Pool.allocateLoop at hloop
      obtain ⟨⟨r, inactive⟩, hacq, hrest⟩ := Except.bind_eq_ok hloop
      have hwf : inactive.Wf := by
        obtain ⟨r', pool', hacq', hwf', -⟩ := InactiveBlockPool.acquireFreeBlock_spec hinv.inactive_wf
        rw [hacq, Except.ok.injEq, Prod.mk.injEq] at hacq'
        rw [hacq'.2]
        exact hwf'
      rcases InactiveBlockPool.blocks_acquireFreeBlock hinv.inactive_wf hacq with
        ⟨rfl, rfl⟩ | ⟨b, b', rfl, hb', hreset, hperm⟩
      · -- nothing to hand out
        exact Inv.allocateLoop hinv hrest
      · -- the acquired block leaves the inactive pool, reset, into the hands
        have hpool : p.blocks.Perm ([b] ++ ({ p with inactive := inactive } : Pool M).blocks) :=
          blocks_perm_of_inactive (p := { p with inactive := inactive }) hperm
        have hev : Evolved (p.blocks ++ hand) (({ p with inactive := inactive } : Pool M).blocks ++
            b' :: hand) :=
          ((Evolved.cons hb' (Evolved.refl _)).perm_left (hpool.append_right hand).symm).perm_right
            List.perm_middle
        have hinv1 := hinv.of_move hev rfl rfl rfl rfl hinv.mutables_unregistered hwf
          (InactiveBlockPool.totalBlocks_acquireFreeBlock hacq) (fun _ _ ha => ha)
          (fun _ _ ha _ => ha)
        dsimp only at hrest
        obtain ⟨⟨blocks', p2⟩, hloop', hout⟩ := Except.bind_eq_ok hrest
        simp only [Except.ok.injEq, Prod.mk.injEq] at hout
        obtain ⟨rfl, rfl⟩ := hout
        obtain ⟨hinv2, hreset2⟩ := Inv.allocateLoop hinv1 hloop'
        refine ⟨hinv2.perm_hand List.perm_middle.symm, fun x hx => ?_⟩
        rcases List.mem_cons.mp hx with rfl | hx
        · exact hreset
        · exact hreset2 x hx

/-! ### The requests and the callers' actions -/

theorem Inv.registerBlocks {blocks : List (Block M)} {r : Except BlockPoolError (List Nat)}
    (hinv : p.Inv blocks) (h : p.registerBlocks blocks = .ok (r, p')) : p'.Inv [] := by
  unfold Pool.registerBlocks at h
  obtain ⟨e, hloop, hrest⟩ := Except.bind_eq_ok h
  -- the `Publisher` drops, and on an early return the collected handles too
  have hinv1 := (((hinv.registerLoop hloop).recordReleases (handlesOf (p.blocks ++ blocks))).publish
    e.publisher).recordReleases e.publisher
  dsimp only at hrest
  split at hrest
  · split at hrest
    · cases hrest
    · cases hrest
      exact hinv1
  · cases hrest
    exact hinv1.foldl_dropImmutable

theorem Inv.matchSequenceHashes {hashes : List SequenceHash} {r : List Nat} (hinv : p.Inv [])
    (h : p.matchSequenceHashes hashes = .ok (r, p')) : p'.Inv [] := by
  unfold Pool.matchSequenceHashes at h
  obtain ⟨⟨cells, p1⟩, hloop, hrest⟩ := Except.bind_eq_ok h
  simp only [Except.ok.injEq, Prod.mk.injEq] at hrest
  rw [← hrest.2]
  exact (hinv.matchLoop hloop).recordReleases _

theorem Inv.allocateBlocks {count : Nat} {r : Except BlockPoolError (List (Block M))}
    (hinv : p.Inv []) (h : p.allocateBlocks count = .ok (r, p')) : p'.Inv [] := by
  unfold Pool.allocateBlocks at h
  dsimp only at h
  split at h
  · cases h
    exact hinv
  · obtain ⟨⟨blocks, p1⟩, hloop, hrest⟩ := Except.bind_eq_ok h
    cases hrest
    obtain ⟨hinv1, hreset⟩ := hinv.allocateLoop hloop
    -- the blocks go to the callers' `MutableBlock`s
    have hperm : (({ p1 with mutables := p1.mutables ++ blocks } : Pool M).blocks ++ []).Perm
        (p1.blocks ++ (blocks ++ [])) := by
      simp only [Pool.blocks, List.append_nil, List.append_assoc, List.Perm.refl]
    refine Inv.recordReleases (hinv1.of_move (Evolved.of_perm hperm) rfl rfl rfl rfl ?_
      hinv1.inactive_wf rfl (fun _ _ ha => ha) (fun _ _ ha _ => ha)) _
    intro b hb
    rcases List.mem_append.mp hb with hb | hb
    · exact hinv1.mutables_unregistered b hb
    · rw [hreset b hb]
      rfl

/-- New blocks, reset and with fresh indices, join the inactive pool. -/
theorem Inv.addBlocks {blocks : List (Block M)} (hinv : p.Inv []) (hfresh : Fresh p blocks) :
    (p.addBlocks blocks).Inv [] := by
  -- the new blocks hold no handle
  have hhandles : handlesOf blocks = [] := by
    refine List.filterMap_eq_nil_iff.mpr fun b hb => ?_
    rw [hfresh.2 b hb]
    rfl
  have hsound : Sound (p.blocks ++ blocks) p.registry p.nextId := by
    have hs := hinv.sound
    rw [List.append_nil] at hs
    refine ⟨hfresh.1, ?_, ?_, ?_, ?_⟩
    · rw [handlesOf_append, hhandles, List.append_nil]
      exact hs.ids_nodup
    · rw [handlesOf_append, hhandles, List.append_nil]
      exact hs.hashes_nodup
    · intro hd hmem
      rw [handlesOf_append, hhandles, List.append_nil] at hmem
      exact hs.handle_lt hd hmem
    · intro hd hmem
      rw [handlesOf_append, hhandles, List.append_nil] at hmem
      exact hs.registry_handle hd hmem
  have hev : Evolved (p.blocks ++ blocks)
      (({ p with inactive := p.inactive.addBlocks blocks } : Pool M).blocks ++ []) := by
    have hfold := InactiveBlockPool.blocks_foldl_insert p.inactive blocks
    refine ((hfold.append (Evolved.refl (p.returnRx ++ p.cells.values ++ p.mutables))).perm_left
      ?_).perm_right ?_
    · simp only [Pool.blocks, List.append_assoc]
      exact List.perm_append_comm.trans (List.Perm.of_eq (by simp only [List.append_assoc]))
    · simp only [Pool.blocks, InactiveBlockPool.addBlocks, List.append_nil, List.append_assoc]
      rfl
  have htotal : (({ p with inactive := p.inactive.addBlocks blocks } : Pool M).blocks ++ []).length =
      (p.inactive.addBlocks blocks).totalBlocks := by
    have htotal := hinv.total
    simp only [List.append_nil] at htotal
    rw [hev.length_eq, List.length_append, htotal, InactiveBlockPool.totalBlocks_addBlocks]
  have hinv' : ({ p with inactive := p.inactive.addBlocks blocks } : Pool M).Inv [] :=
    { hinv with
      sound := hsound.evolved hev
      total := htotal
      inactive_wf := hinv.inactive_wf.addBlocks blocks }
  exact hinv'.recordReleases _

theorem Inv.step {xxh3 : Xxh3} {added : List (Block M)} (hinv : p.Inv [])
    (hs : Step xxh3 p added p') : p'.Inv [] := by
  cases hs with
  | allocateBlocks h => exact hinv.allocateBlocks h
  | registerBlocks hperm h => exact (hinv.handOver hperm).registerBlocks h
  | matchSequenceHashes h => exact hinv.matchSequenceHashes h
  | addBlocks hfresh => exact hinv.addBlocks hfresh
  | receiveReturned hrx =>
      -- the head of the channel is taken into the engine's hands, and returned
      exact (hinv.pop hrx).returnBlock.recordReleases _
  | dropMutable hperm =>
      rename_i block rest
      exact (hinv.handOver (hperm : p.mutables.Perm ([block] ++ rest))).send
  | dropImmutable _ => exact hinv.dropImmutable _
  | call hperm hcall =>
      rename_i block block' rest c
      have hb := hinv.mutables_unregistered block (hperm.symm.subset List.mem_cons_self)
      obtain ⟨hb', hdata⟩ := Block.call_registeredHandle hb hcall
      -- the block is replaced by the call's result, with the same data and no handle
      have hbefore : p.blocks.Perm (block :: ({ p with mutables := rest } : Pool M).blocks) :=
        blocks_perm_of_mutables (l := [block]) hperm
      have hafter : ({ p with mutables := block' :: rest } : Pool M).blocks.Perm
          (block' :: ({ p with mutables := rest } : Pool M).blocks) :=
        blocks_perm_of_mutables (p := { p with mutables := block' :: rest }) (l := [block'])
          (List.Perm.refl _)
      have hev : Evolved (p.blocks ++ [])
          (({ p with mutables := block' :: rest } : Pool M).blocks ++ []) := by
        rw [List.append_nil, List.append_nil]
        exact evolved_of_evolves ⟨hdata, Or.inr hb'⟩ hbefore hafter
      refine Inv.recordReleases (hinv.of_move hev rfl rfl rfl rfl ?_ hinv.inactive_wf rfl
        (fun _ _ ha => ha) (fun _ _ ha _ => ha)) _
      intro x hx
      rcases List.mem_cons.mp hx with rfl | hx
      · exact hb'
      · exact hinv.mutables_unregistered x (hperm.symm.subset (List.mem_cons_of_mem _ hx))

/-- Every state of a run from `new` satisfies the invariant. -/
theorem Run.inv {xxh3 : Xxh3} {added : List (Block M)} (hrun : Run xxh3 new added p) :
    p.Inv [] := by
  induction hrun with
  | refl => exact inv_new
  | tail _ hs ih => exact ih.step hs

end Requests

end Pool

end BlockManager

end Dynamo
