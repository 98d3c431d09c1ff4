import Mathlib.Order.Bounds.Defs
import Dynamo.Lib.PrefixCount
import Dynamo.KvRouter.Membership

/-!
# Overlap Scores as Cached Prefixes

What `find_matches` is meant to count. The scheduler reads a worker's score
as the number of leading blocks of the request that the worker has cached,
so the score should be the length of the longest prefix of the query along
which the worker holds a chain of blocks, each stored under the one before.

The abstract side keeps, for every worker, the blocks it has stored and not
removed (`heldBlocks`), each with its hash, the parent it was stored under and
its tokens hash; `remove_worker` forgets them all. A worker caches `q[0..k]`
(`Caches`) when it holds a parentless block with tokens hash `q[0]`, a child
of it with `q[1]`, and so on up to `q[k-1]`.

The tree does not check that chain. It counts a worker at every block of the
walk that lists it, and a `Removed` event clears a block's children only when
no worker is left on it. So a worker that drops a block which another worker
still holds keeps its place on the child below, and the walk reaches that
child through the other worker's block: the worker scores a block whose
prefix it no longer has (`overlapScores_counterexample`).

When every worker removes its blocks leaves first, as `RemovesLeafFirst`
asks, the membership invariant of `Dynamo.KvRouter.Membership` holds and a
worker's blocks on the walk form a prefix of it: a worker on a block is on its
parent too, since its table holds the parent hash the block was stored under.
The tables then hold exactly the held blocks (`Tracks`), and the score is the
longest cached prefix. Cutting the walk at the first block with a single
worker, as `find_matches` with `early_exit` does, keeps that worker first
and alone in front.

## Main definitions

* `HeldBlock`, `heldBlocks`: The blocks each worker holds after a run.
* `HoldsChain`, `Caches`: A worker caches a prefix of a query.
* `EveryEvent`: A condition on every event of a run, in the blocks its
  worker holds before it.
* `RadixTree.Tracks`: The tables hold exactly the held blocks.

## Theorems

* `RadixTree.overlapScores_counterexample`: A removal under a shared block
  leaves a score with no cached prefix behind it.
* `RadixTree.Wf.holdsChain_iff`: Along the walk, a worker holds a chain
  exactly as far as it is counted.
* `RadixTree.applyCalls_tracks`: Every run keeps the tables and the held
  blocks in step.
* `RadixTree.radixTree_overlap_scores`: With leaves removed first, scores are
  longest cached prefixes, and early exit keeps the top scorers.
-/

namespace Dynamo

namespace KvRouter

/-- A block as a worker holds it: its hash, with the parent and tokens hash
    it was stored under. -/
abbrev HeldBlock :=
  ExternalSequenceBlockHash × (Option ExternalSequenceBlockHash × LocalBlockHash)

/-- The blocks a worker holds after one of its events. -/
def KvCacheEventData.blocksAfter (blocks : Finset HeldBlock) : KvCacheEventData → Finset HeldBlock
  | .stored op => blocks ∪ (storedPairs op.parentHash op.blocks).toFinset
  | .removed op => blocks.filter fun b => b.1 ∉ op.blockHashes

/-- The blocks each worker holds after a call; `remove_worker` forgets the
    worker's blocks. -/
def heldStep (held : WorkerId → Finset HeldBlock) : TreeCall → WorkerId → Finset HeldBlock
  | .applyEvent event =>
      Function.update held event.workerId (event.event.data.blocksAfter (held event.workerId))
  | .removeWorker w => Function.update held w ∅

/-- The blocks each worker holds after a run from a fresh router. -/
def heldBlocks (calls : List TreeCall) : WorkerId → Finset HeldBlock :=
  calls.foldl heldStep fun _ => ∅

/-- The blocks hold a chain under `parent` whose tokens hashes are `q`. -/
def HoldsChain (blocks : Finset HeldBlock) :
    Option ExternalSequenceBlockHash → List LocalBlockHash → Prop
  | _, [] => True
  | parent, x :: q => ∃ b ∈ blocks, b.2 = (parent, x) ∧ HoldsChain blocks (some b.1) q

instance HoldsChain.decidable (blocks : Finset HeldBlock) :
    ∀ parent q, Decidable (HoldsChain blocks parent q)
  | _, [] => inferInstanceAs (Decidable True)
  | parent, x :: q =>
      have := fun b : HeldBlock => HoldsChain.decidable blocks (some b.1) q
      inferInstanceAs (Decidable (∃ b ∈ blocks, b.2 = (parent, x) ∧ HoldsChain blocks (some b.1) q))

/-- A worker with these blocks caches `q[0..k]`: a chain from a parentless
    block along the first `k` hashes of the query. -/
def Caches (blocks : Finset HeldBlock) (q : List LocalBlockHash) (k : Nat) : Prop :=
  k ≤ q.length ∧ HoldsChain blocks none (q.take k)

instance (blocks : Finset HeldBlock) (q : List LocalBlockHash) (k : Nat) :
    Decidable (Caches blocks q k) :=
  inferInstanceAs (Decidable (_ ∧ _))

/-- A `Stored` event starts under the root or under a block the worker
    holds. -/
def KvCacheEventData.UnderHeld (blocks : Finset HeldBlock) : KvCacheEventData → Prop
  | .stored ⟨some parent, _⟩ => ∃ b ∈ blocks, b.1 = parent
  | .stored ⟨none, _⟩ => True
  | .removed _ => True

instance (blocks : Finset HeldBlock) : ∀ data, Decidable (KvCacheEventData.UnderHeld blocks data)
  | .stored ⟨some parent, _⟩ => inferInstanceAs (Decidable (∃ b ∈ blocks, b.1 = parent))
  | .stored ⟨none, _⟩ => inferInstanceAs (Decidable True)
  | .removed _ => inferInstanceAs (Decidable True)

/-- A `Removed` event names only blocks the worker holds. -/
def KvCacheEventData.RemovesHeld (blocks : Finset HeldBlock) : KvCacheEventData → Prop
  | .stored _ => True
  | .removed op => ∀ h ∈ op.blockHashes, ∃ b ∈ blocks, b.1 = h

instance (blocks : Finset HeldBlock) : ∀ data, Decidable (KvCacheEventData.RemovesHeld blocks data)
  | .stored _ => inferInstanceAs (Decidable True)
  | .removed op => inferInstanceAs (Decidable (∀ h ∈ op.blockHashes, ∃ b ∈ blocks, b.1 = h))

section EveryEvent

variable (P : Finset HeldBlock → KvCacheEventData → Prop)

/-- Every event of a run satisfies `P` in the blocks its worker holds just
    before it. -/
def EveryEvent : (WorkerId → Finset HeldBlock) → List TreeCall → Prop
  | _, [] => True
  | held, .applyEvent event :: calls =>
      P (held event.workerId) event.event.data ∧ EveryEvent (heldStep held (.applyEvent event)) calls
  | held, .removeWorker w :: calls => EveryEvent (heldStep held (.removeWorker w)) calls

instance EveryEvent.decidable [∀ blocks data, Decidable (P blocks data)] :
    ∀ held calls, Decidable (EveryEvent P held calls)
  | _, [] => inferInstanceAs (Decidable True)
  | held, .applyEvent event :: calls =>
      have := EveryEvent.decidable (heldStep held (.applyEvent event)) calls
      inferInstanceAs (Decidable (_ ∧ _))
  | held, .removeWorker w :: calls => EveryEvent.decidable (heldStep held (.removeWorker w)) calls

end EveryEvent

namespace RadixTree

/-- Two workers share a first block; the first drops it and keeps the
    second. The tree still lists the first worker on the second block, and
    the walk reaches it through the block the other worker holds, so the
    first worker scores one block while it caches no prefix of the query. -/
theorem overlapScores_counterexample :
    Function.Injective (fun h : ExternalSequenceBlockHash =>
      ((if h = ⟨2⟩ then some ⟨1⟩ else none : Option ExternalSequenceBlockHash),
        (⟨h.val⟩ : LocalBlockHash))) ∧
    (∀ c ∈ [TreeCall.applyEvent ⟨1, ⟨0, .stored ⟨none, [⟨⟨1⟩, ⟨1⟩⟩, ⟨⟨2⟩, ⟨2⟩⟩]⟩⟩⟩,
        .applyEvent ⟨2, ⟨0, .stored ⟨none, [⟨⟨1⟩, ⟨1⟩⟩]⟩⟩⟩,
        .applyEvent ⟨1, ⟨1, .removed ⟨[⟨1⟩]⟩⟩⟩],
      c.StoresWith fun _ h => ((if h = ⟨2⟩ then some ⟨1⟩ else none), ⟨h.val⟩)) ∧
    EveryEvent KvCacheEventData.UnderHeld (fun _ => ∅)
      [.applyEvent ⟨1, ⟨0, .stored ⟨none, [⟨⟨1⟩, ⟨1⟩⟩, ⟨⟨2⟩, ⟨2⟩⟩]⟩⟩⟩,
        .applyEvent ⟨2, ⟨0, .stored ⟨none, [⟨⟨1⟩, ⟨1⟩⟩]⟩⟩⟩,
        .applyEvent ⟨1, ⟨1, .removed ⟨[⟨1⟩]⟩⟩⟩] ∧
    EveryEvent KvCacheEventData.RemovesHeld (fun _ => ∅)
      [.applyEvent ⟨1, ⟨0, .stored ⟨none, [⟨⟨1⟩, ⟨1⟩⟩, ⟨⟨2⟩, ⟨2⟩⟩]⟩⟩⟩,
        .applyEvent ⟨2, ⟨0, .stored ⟨none, [⟨⟨1⟩, ⟨1⟩⟩]⟩⟩⟩,
        .applyEvent ⟨1, ⟨1, .removed ⟨[⟨1⟩]⟩⟩⟩] ∧
    ∃ t, new.applyCalls
        [.applyEvent ⟨1, ⟨0, .stored ⟨none, [⟨⟨1⟩, ⟨1⟩⟩, ⟨⟨2⟩, ⟨2⟩⟩]⟩⟩⟩,
          .applyEvent ⟨2, ⟨0, .stored ⟨none, [⟨⟨1⟩, ⟨1⟩⟩]⟩⟩⟩,
          .applyEvent ⟨1, ⟨1, .removed ⟨[⟨1⟩]⟩⟩⟩] = .ok t ∧
      (t.findMatches [⟨1⟩, ⟨2⟩] false).scores 1 = 1 ∧
      ¬ IsGreatest {k | Caches (heldBlocks
          [.applyEvent ⟨1, ⟨0, .stored ⟨none, [⟨⟨1⟩, ⟨1⟩⟩, ⟨⟨2⟩, ⟨2⟩⟩]⟩⟩⟩,
            .applyEvent ⟨2, ⟨0, .stored ⟨none, [⟨⟨1⟩, ⟨1⟩⟩]⟩⟩⟩,
            .applyEvent ⟨1, ⟨1, .removed ⟨[⟨1⟩]⟩⟩⟩] 1) [⟨1⟩, ⟨2⟩] k}
        ((t.findMatches [⟨1⟩, ⟨2⟩] false).scores 1) := by
  refine ⟨injective_of_tokensHash_val _, by decide, by decide, by decide, _, rfl, by decide, ?_⟩
  -- the score is one, and the worker holds no parentless block
  rintro ⟨hcached, -⟩
  exact absurd hcached (by decide)

section Tables

variable {w : WorkerId}

/-- The `Stored` loop adds the hash of each of its blocks to the worker's
    table. -/
theorem mem_foldlM_storeBlock : ∀ (blocks : List KvCacheStoredBlockData) (t : RadixTree)
    (wl : WorkerLookup) (current : Nat) {t' : RadixTree} {wl' : WorkerLookup} {last : Nat},
    blocks.foldlM (storeBlock w) (t, wl, current) = .ok (t', wl', last) →
    ∀ x, x ∈ wl' ↔ x ∈ wl ∨ x ∈ blocks.map KvCacheStoredBlockData.blockHash
  | [], _, _, _, _, _, _, h, x => by
      simp only [List.foldlM_nil, pure, Except.pure, Except.ok.injEq, Prod.mk.injEq] at h
      rw [← h.2.1, List.map_nil, List.mem_nil_iff, or_false]
  | b :: blocks, t, wl, current, _, _, _, h, x => by
      rw [List.foldlM_cons] at h
      rcases Except.bind_eq_ok h with ⟨⟨t₁, wl₁, block⟩, hstep, hrest⟩
      rw [mem_foldlM_storeBlock blocks t₁ wl₁ block hrest x, (storeBlock_eq_ok w t wl hstep).2,
        AList.mem_insert, List.map_cons, List.mem_cons, or_comm (a := x = b.blockHash), or_assoc]

/-- A pass of the `Removed` loop takes the hash out of the worker's table. -/
theorem mem_removeBlock_iff {t : RadixTree} {wl : WorkerLookup} {h x : ExternalSequenceBlockHash} :
    x ∈ (removeBlock w (t, wl) h).2 ↔ x ∈ wl ∧ x ≠ h := by
  refine ⟨mem_removeBlock, fun hx => ?_⟩
  cases hn : wl.lookup h with
  | none =>
      rw [removeBlock_of_none w t wl hn]
      exact hx.1
  | some n =>
      rw [removeBlock_of_some w t wl hn]
      exact AList.mem_erase.mpr ⟨hx.2, hx.1⟩

/-- The `Removed` loop takes all its hashes out of the worker's table. -/
theorem mem_foldl_removeBlock : ∀ (hashes : List ExternalSequenceBlockHash)
    (s : RadixTree × WorkerLookup) (x : ExternalSequenceBlockHash),
    x ∈ (hashes.foldl (removeBlock w) s).2 ↔ x ∈ s.2 ∧ x ∉ hashes
  | [], _, x => by simp
  | h :: hashes, (t, wl), x => by
      rw [List.foldl_cons, mem_foldl_removeBlock hashes, mem_removeBlock_iff, List.mem_cons,
        not_or, and_assoc]

end Tables

/-- The tables hold exactly the held blocks: a worker holds a block when its
    table has the block's hash and `π` gives the hash the block's pair. -/
def Tracks (π : StoredPairs) (held : WorkerId → Finset HeldBlock) (t : RadixTree) : Prop :=
  ∀ w b, b ∈ held w ↔ b.1 ∈ t.lookupOf w ∧ π w b.1 = b.2

section Tracking

variable {π : StoredPairs} {held : WorkerId → Finset HeldBlock} {t t' : RadixTree}

/-- The blocks of a `Stored` chain are its hashes, each with its pair. -/
theorem map_fst_storedPairs : ∀ (parent : Option ExternalSequenceBlockHash)
    (blocks : List KvCacheStoredBlockData),
    (storedPairs parent blocks).map Prod.fst = blocks.map KvCacheStoredBlockData.blockHash
  | _, [] => rfl
  | _, b :: blocks => by
      rw [storedPairs, List.map_cons, map_fst_storedPairs, List.map_cons]

/-- A worker's event keeps its table in step with its blocks, when the event
    stores each block under its pair and a `Stored` event starts under a held
    block. -/
theorem Tracks.applyEvent (htr : Tracks π held t) {event : RouterEvent}
    (hstores : event.event.data.StoresWith π event.workerId)
    (hunder : event.event.data.UnderHeld (held event.workerId))
    (h : t.applyEvent event = .ok t') : Tracks π (heldStep held (.applyEvent event)) t' := by
  rcases event with ⟨w, eventId, data⟩
  -- the worker's own blocks against its new table; the others keep both
  suffices hw : ∀ b, b ∈ data.blocksAfter (held w) ↔ b.1 ∈ t'.lookupOf w ∧ π w b.1 = b.2 by
    intro v b
    by_cases hv : v = w
    · subst hv
      simp only [heldStep, Function.update_self]
      exact hw b
    · simp only [heldStep, Function.update_of_ne hv]
      rw [lookupOf_applyEvent_of_ne h hv]
      exact htr v b
  cases data with
  | stored op =>
      -- the parent is held, so the store is not skipped
      obtain ⟨current, hpb⟩ : ∃ current, parentBlock (t.lookupOf w) op.parentHash = some current := by
        rcases op with ⟨_ | p, blocks⟩
        · exact ⟨root, parentBlock_none _⟩
        · obtain ⟨b, hb, rfl⟩ := hunder
          exact Option.isSome_iff_exists.mp (AList.lookup_isSome.mpr ((htr w b).mp hb).1)
      simp only [RadixTree.applyEvent, hpb] at h
      cases hfold : op.blocks.foldlM (storeBlock w) (t, t.lookupOf w, current) with
      | error e => simp [hfold, Except.map] at h
      | ok r =>
          rcases r with ⟨t₁, wl₁, last⟩
          simp only [hfold, Except.map, Except.ok.injEq] at h
          subst h
          intro b
          rw [lookupOf_insertLookup, if_pos rfl, mem_foldlM_storeBlock op.blocks t _ current hfold,
            ← map_fst_storedPairs op.parentHash, KvCacheEventData.blocksAfter, Finset.mem_union,
            htr w b, List.mem_toFinset]
          constructor
          · rintro (⟨hx, hπ⟩ | hb)
            · exact ⟨.inl hx, hπ⟩
            · exact ⟨.inr (List.mem_map_of_mem hb), hstores b hb⟩
          · rintro ⟨hx | hx, hπ⟩
            · exact .inl ⟨hx, hπ⟩
            · -- the chain stored the hash under the pair `π` gives it
              obtain ⟨x, hx, hfst⟩ := List.mem_map.mp hx
              have hpair : x.2 = b.2 := by rw [← hstores x hx, hfst, hπ]
              exact .inr (by rw [← Prod.ext hfst hpair]; exact hx)
  | removed op =>
      simp only [RadixTree.applyEvent, Except.ok.injEq] at h
      subst h
      intro b
      rw [lookupOf_insertLookup, if_pos rfl, mem_foldl_removeBlock, KvCacheEventData.blocksAfter,
        Finset.mem_filter, htr w b, and_right_comm]

/-- `remove_worker` empties the worker's table and forgets its blocks. -/
theorem Tracks.removeWorker (htr : Tracks π held t) (w : WorkerId) :
    Tracks π (heldStep held (.removeWorker w)) (t.removeWorker w) := by
  intro v b
  by_cases hv : v = w
  · subst hv
    simp [heldStep]
  · simp only [heldStep, Function.update_of_ne hv, lookupOf_removeWorker, if_neg hv]
    exact htr v b

/-- Every run that stores each block under its pair and every block under a
    held block keeps the tables in step with the held blocks. -/
theorem applyCalls_tracks : ∀ (calls : List TreeCall) (held : WorkerId → Finset HeldBlock)
    (t : RadixTree) {t' : RadixTree}, Tracks π held t → (∀ c ∈ calls, c.StoresWith π) →
    EveryEvent KvCacheEventData.UnderHeld held calls → t.applyCalls calls = .ok t' →
    Tracks π (calls.foldl heldStep held) t'
  | [], _, _, _, htr, _, _, h => by
      cases h
      exact htr
  | .applyEvent event :: calls, held, t, _, htr, hstores, hunder, h => by
      rw [List.forall_mem_cons] at hstores
      simp only [applyCalls] at h
      cases hstep : t.applyEvent event with
      | error a => simp [hstep] at h
      | ok t₁ =>
          simp only [hstep] at h
          exact applyCalls_tracks calls _ t₁ (htr.applyEvent hstores.1 hunder.1 hstep)
            hstores.2 hunder.2 h
  | .removeWorker w :: calls, held, t, _, htr, hstores, hunder, h => by
      rw [List.forall_mem_cons] at hstores
      exact applyCalls_tracks calls _ _ (htr.removeWorker w) hstores.2 hunder h

end Tracking

section Walk

variable {π : StoredPairs} {t : RadixTree}

/-- The first block of a walk is a child of the block it starts from. -/
theorem child_of_head?_matchPath {current y : Nat} {sequence : List LocalBlockHash}
    (hy : y ∈ (t.matchPath current sequence).head?) :
    ∃ k, (t.nodes current).children.lookup k = some y := by
  cases sequence with
  | nil => simp [matchPath] at hy
  | cons x sequence =>
      unfold matchPath at hy
      cases hc : (t.nodes current).children.lookup x with
      | none => simp [hc] at hy
      | some block =>
          simp only [hc, List.head?_cons, Option.mem_def, Option.some.injEq] at hy
          exact ⟨x, hy ▸ hc⟩

/-- A worker on a block is on its parent too, unless the parent is the root:
    its table holds the parent hash the block was stored under. -/
theorem Wf.mem_workers_of_child (hwf : Wf π t) {n m : Nat} {x : LocalBlockHash}
    (hedge : (t.nodes n).children.lookup x = some m) (hn : n ≠ root) {w : WorkerId}
    (hm : w ∈ (t.nodes m).workers) : w ∈ (t.nodes n).workers := by
  obtain ⟨h, hh⟩ := hwf.mem_workers.mp hm
  obtain ⟨p, hpb, hedge'⟩ := hwf.placed hh
  -- one incoming edge: the block was stored under `n`
  obtain ⟨rfl, -⟩ := hwf.child_inj hedge' hedge
  cases hpar : (π w h).1 with
  | none =>
      rw [hpar, parentBlock_none, Option.some.injEq] at hpb
      exact absurd hpb.symm hn
  | some parent =>
      rw [hpar, parentBlock_some] at hpb
      exact hwf.mem_workers.mpr ⟨parent, hpb⟩

/-- Along a walk, the blocks that list a worker form a prefix. -/
theorem Wf.prefixClosed_matchPath (hwf : Wf π t) (w : WorkerId) :
    ∀ (sequence : List LocalBlockHash) (current : Nat),
      (t.matchPath current sequence).PrefixClosed fun n => decide (w ∈ (t.nodes n).workers)
  | [], _ => by
      unfold matchPath
      exact List.IsChain.nil
  | x :: sequence, current => by
      unfold matchPath
      cases hc : (t.nodes current).children.lookup x with
      | none => exact List.IsChain.nil
      | some block =>
          refine List.isChain_cons.mpr ⟨fun y hy hyw => ?_, hwf.prefixClosed_matchPath w sequence block⟩
          -- the next block is a child of this one, which is below the root
          obtain ⟨k, hk⟩ := child_of_head?_matchPath hy
          have hroot : block ≠ root := Nat.ne_of_gt (Nat.lt_of_le_of_lt (Nat.zero_le _) (hwf.child_lt hc).1)
          exact decide_eq_true (hwf.mem_workers_of_child hk hroot (of_decide_eq_true hyw))

end Walk

section Chains

variable {π : StoredPairs} {t : RadixTree} {w : WorkerId} {blocks : Finset HeldBlock}

/-- A held block stored under `parent` at `x` is the child at `x` of the
    parent's block. -/
theorem Wf.child_of_held (hwf : Wf π t)
    (htr : ∀ b, b ∈ blocks ↔ b.1 ∈ t.lookupOf w ∧ π w b.1 = b.2)
    {parent : Option ExternalSequenceBlockHash} {current : Nat}
    (hcur : parentBlock (t.lookupOf w) parent = some current) {x : LocalBlockHash} {b : HeldBlock}
    (hb : b ∈ blocks) (hpair : b.2 = (parent, x)) :
    ∃ n, (t.lookupOf w).lookup b.1 = some n ∧ (t.nodes current).children.lookup x = some n := by
  obtain ⟨hmem, hπ⟩ := (htr b).mp hb
  obtain ⟨n, hn⟩ := Option.isSome_iff_exists.mp (AList.lookup_isSome.mpr hmem)
  obtain ⟨p, hpb, hedge⟩ := hwf.placed hn
  rw [hπ, hpair] at hpb hedge
  rw [hcur, Option.some.injEq] at hpb
  subst hpb
  exact ⟨n, hn, hedge⟩

/-- A block of the table at the child at `x` of the parent's block was
    stored under `(parent, x)`. -/
theorem Wf.pair_of_child (hwf : Wf π t) (hinj : Function.Injective (π w))
    {parent : Option ExternalSequenceBlockHash} {current : Nat}
    (hcur : parentBlock (t.lookupOf w) parent = some current) {x : LocalBlockHash} {n : Nat}
    (hedge : (t.nodes current).children.lookup x = some n) {h : ExternalSequenceBlockHash}
    (hh : (t.lookupOf w).lookup h = some n) : π w h = (parent, x) := by
  obtain ⟨p, hpb, hedge'⟩ := hwf.placed hh
  obtain ⟨rfl, hx⟩ := hwf.child_inj hedge' hedge
  exact Prod.ext (hwf.parentBlock_inj hpb hcur fun ha hb => hwf.lookup_inj hinj ha hb) hx

/-- From the block of `parent`, the worker holds a chain along the first `k`
    hashes of the query exactly when the walk counts it at least `k` times. -/
theorem Wf.holdsChain_iff (hwf : Wf π t) (hinj : Function.Injective (π w))
    (htr : ∀ b, b ∈ blocks ↔ b.1 ∈ t.lookupOf w ∧ π w b.1 = b.2) :
    ∀ (q : List LocalBlockHash) (parent : Option ExternalSequenceBlockHash) (current k : Nat),
      parentBlock (t.lookupOf w) parent = some current →
      (k ≤ q.length ∧ HoldsChain blocks parent (q.take k) ↔
        k ≤ (t.matchPath current q).countP fun n => w ∈ (t.nodes n).workers)
  | [], _, _, k, _ => by simp [matchPath, HoldsChain]
  | x :: q, _, _, 0, _ => by simp [HoldsChain]
  | x :: q, parent, current, k + 1, hcur => by
      have hpc := hwf.prefixClosed_matchPath w (x :: q) current
      simp only [List.length_cons, List.take_succ_cons, HoldsChain, Nat.add_le_add_iff_right]
      unfold matchPath at hpc ⊢
      cases hc : (t.nodes current).children.lookup x with
      | none =>
          -- no child at `x`, so no held block there
          dsimp only
          rw [List.countP_nil]
          constructor
          · rintro ⟨-, b, hb, hpair, -⟩
            obtain ⟨n, -, hn⟩ := hwf.child_of_held htr hcur hb hpair
            rw [hc] at hn
            cases hn
          · intro hk
            omega
      | some n =>
          simp only [hc] at hpc
          dsimp only
          by_cases hw : w ∈ (t.nodes n).workers
          · obtain ⟨h, hh⟩ := hwf.mem_workers.mp hw
            rw [List.countP_cons, if_pos (decide_eq_true hw), Nat.add_le_add_iff_right,
              ← hwf.holdsChain_iff hinj htr q (some h) n k hh]
            -- the held block at `x` is the one with hash `h`
            constructor
            · rintro ⟨hk, b, hb, hpair, hchain⟩
              obtain ⟨n', hn', hedge⟩ := hwf.child_of_held htr hcur hb hpair
              rw [hc, Option.some.injEq] at hedge
              subst hedge
              rw [hwf.lookup_inj hinj hn' hh] at hchain
              exact ⟨hk, hchain⟩
            · rintro ⟨hk, hchain⟩
              have hmem : h ∈ t.lookupOf w := AList.lookup_isSome.mp (Option.isSome_iff_exists.mpr ⟨n, hh⟩)
              exact ⟨hk, (h, π w h), (htr _).mpr ⟨hmem, rfl⟩, hwf.pair_of_child hinj hcur hc hh, hchain⟩
          · -- the worker is on no block from `n` on
            rw [List.countP_eq_zero_of_prefixClosed hpc (decide_eq_false hw)]
            constructor
            · rintro ⟨-, b, hb, hpair, -⟩
              obtain ⟨n', hn', hedge⟩ := hwf.child_of_held htr hcur hb hpair
              rw [hc, Option.some.injEq] at hedge
              exact absurd (hwf.mem_workers.mpr ⟨b.1, hedge ▸ hn'⟩) hw
            · intro hk
              omega

/-- A worker's score is the longest prefix of the query it caches. -/
theorem Wf.scores_isGreatest (hwf : Wf π t) (hinj : Function.Injective (π w))
    (htr : ∀ b, b ∈ blocks ↔ b.1 ∈ t.lookupOf w ∧ π w b.1 = b.2) (q : List LocalBlockHash) :
    IsGreatest {k | Caches blocks q k} ((t.findMatches q false).scores w) := by
  have hscore : (t.findMatches q false).scores w =
      (t.matchPath root q).countP fun n => w ∈ (t.nodes n).workers := by
    simp only [findMatches, findMatchesFrom_scores, OverlapScores.new, Nat.zero_add]
  have hiff := fun k => hwf.holdsChain_iff hinj htr q none root k (parentBlock_none _)
  rw [hscore]
  exact ⟨(hiff _).mpr le_rfl, fun k hk => (hiff k).mp hk⟩

end Chains

section EarlyExit

variable {π : StoredPairs} {t : RadixTree}

/-- Early exit keeps the top scorers: the walk stops at a block with a
    single worker, who is then ahead of everyone, with or without the rest
    of the walk. -/
theorem Wf.topScorers_findMatches (hwf : Wf π t) (q : List LocalBlockHash) :
    topScorers (t.findMatches q true).scores = topScorers (t.findMatches q false).scores := by
  have htrue : (t.findMatches q true).scores = fun w =>
      ((t.matchPath root q).take ((t.matchPath root q).findIdx
        (fun n => (t.nodes n).workers.card = 1) + 1)).countP fun n => w ∈ (t.nodes n).workers := by
    funext w
    simp only [findMatches, findMatchesFrom_true_scores, OverlapScores.new, Nat.zero_add]
  have hfalse : (t.findMatches q false).scores = fun w =>
      (t.matchPath root q).countP fun n => w ∈ (t.nodes n).workers := by
    funext w
    simp only [findMatches, findMatchesFrom_scores, OverlapScores.new, Nat.zero_add]
  rw [htrue, hfalse]
  refine List.topScorers_take_findIdx (fun w n => decide (w ∈ (t.nodes n).workers)) _ _
    (fun w => hwf.prefixClosed_matchPath w q root) fun n _ hcard => ?_
  -- a block with one worker lists exactly that worker
  obtain ⟨u, hu⟩ := Finset.card_eq_one.mp (of_decide_eq_true hcard)
  exact ⟨u, fun w => by rw [hu, decide_eq_true_iff, Finset.mem_singleton]⟩

end EarlyExit

/-- When every worker stores each hash under one pair, distinct hashes under
    distinct pairs, stores only under blocks it holds and removes its blocks
    leaves first, every score of `find_matches` is the longest prefix of the
    query the worker caches, and early exit keeps the top scorers. -/
theorem radixTree_overlap_scores (π : StoredPairs) (hinj : ∀ w, Function.Injective (π w))
    (calls : List TreeCall) (hstores : ∀ c ∈ calls, c.StoresWith π)
    (hunder : EveryEvent KvCacheEventData.UnderHeld (fun _ => ∅) calls)
    (hleaf : RemovesLeafFirst π (fun _ => ∅) calls) :
    ∃ t, new.applyCalls calls = .ok t ∧
      (∀ q w, IsGreatest {k | Caches (heldBlocks calls w) q k} ((t.findMatches q false).scores w)) ∧
      ∀ q, topScorers (t.findMatches q true).scores = topScorers (t.findMatches q false).scores := by
  have hcov : Covers (fun _ => ∅) new := by
    intro w h hh
    simp at hh
  obtain ⟨t, hrun, hwf⟩ := applyCalls_wf hinj calls new _ (wf_new π) hcov hstores hleaf
  -- a fresh router holds nothing and its tables are empty
  have htr₀ : Tracks π (fun _ => ∅) new := by
    intro w b
    simp
  have htr := applyCalls_tracks calls _ new htr₀ hstores hunder hrun
  exact ⟨t, hrun, fun q w => hwf.scores_isGreatest (hinj w) (htr w) q,
    fun q => hwf.topScorers_findMatches q⟩

/-- Two workers share a first block, and the first removes its two blocks
    leaf first. -/
theorem radixTree_overlap_scores_leaf_first :
    Function.Injective (fun h : ExternalSequenceBlockHash =>
      ((if h = ⟨2⟩ then some ⟨1⟩ else none : Option ExternalSequenceBlockHash),
        (⟨h.val⟩ : LocalBlockHash))) ∧
    ∃ t, new.applyCalls
        [.applyEvent ⟨1, ⟨0, .stored ⟨none, [⟨⟨1⟩, ⟨1⟩⟩, ⟨⟨2⟩, ⟨2⟩⟩]⟩⟩⟩,
          .applyEvent ⟨2, ⟨0, .stored ⟨none, [⟨⟨1⟩, ⟨1⟩⟩]⟩⟩⟩,
          .applyEvent ⟨1, ⟨1, .removed ⟨[⟨2⟩, ⟨1⟩]⟩⟩⟩] = .ok t ∧
      (∀ q w, IsGreatest {k | Caches (heldBlocks
          [.applyEvent ⟨1, ⟨0, .stored ⟨none, [⟨⟨1⟩, ⟨1⟩⟩, ⟨⟨2⟩, ⟨2⟩⟩]⟩⟩⟩,
            .applyEvent ⟨2, ⟨0, .stored ⟨none, [⟨⟨1⟩, ⟨1⟩⟩]⟩⟩⟩,
            .applyEvent ⟨1, ⟨1, .removed ⟨[⟨2⟩, ⟨1⟩]⟩⟩⟩] w) q k}
        ((t.findMatches q false).scores w)) ∧
      ∀ q, topScorers (t.findMatches q true).scores = topScorers (t.findMatches q false).scores := by
  have hinj := injective_of_tokensHash_val fun h => if h = ⟨2⟩ then some ⟨1⟩ else none
  exact ⟨hinj, radixTree_overlap_scores _ (fun _ => hinj) _ (by decide) (by decide) (by decide)⟩

end RadixTree

end KvRouter

end Dynamo
