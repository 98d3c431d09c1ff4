import Mathlib.Data.List.AList
import Mathlib.Data.Finset.Card
import Dynamo.KvRouter.Protocols

/-!
# The Radix Tree of the KV Indexer

`RadixTree` from `lib/llm/src/kv_router/indexer.rs`: the router's index of
which worker holds which cached block. Its blocks are `Rc<RefCell<_>>` cells
that point to each other, so the model keeps them in a heap: a `Nat` is
the address of a cell, `nodes` reads the heap, and `alloc` hands out the next
address. The root lives at address `0`.

A block has children keyed by the `LocalBlockHash` of their tokens and a set
of workers. Beside the tree, `lookup` maps each worker's own
`ExternalSequenceBlockHash`es to blocks, so that a `Stored` event can start
below the root and a `Removed` event can find its block without a path. The
same cell can therefore be reached from the root, from several parents and
from the lookup tables of several workers.

* `find_matches` walks the children from the root along a sequence of local
  hashes and counts, for every worker, the blocks on the way that list it.
* `apply_event` with `Stored` finds the parent (the root, or the worker's
  block with the parent hash), then for each block takes the existing child
  with its tokens hash, or else the worker's block with its hash, or else a
  new block, adds the worker and records the block in the worker's table.
  The parent stays mutably borrowed during the step, so a block that is its
  own parent makes `RefCell::borrow_mut` panic.
* `apply_event` with `Removed` takes the worker off each named block, forgets
  it in the table, and clears the block's children when no worker is left.
* `remove_worker` drops the worker's table and takes the worker off every
  block in it.

The router builds its trees with no expiration duration, so the `recent_uses`
of a block and the `frequencies` of a result, which depend on the wall clock,
are not modelled. `OverlapScores.scores` is a map in which every present
worker has a positive score; the model reads it as a function with `0` for
an absent worker.

## Main definitions

* `RadixBlock`, `RadixTree`: The blocks and the tree with its heap.
* `OverlapScores`: The scores of a match.
* `RadixTree.findMatches`, `RadixTree.applyEvent`, `RadixTree.removeWorker`:
  The operations.
* `TreeCall`, `RadixTree.applyCalls`: A run of calls on one tree.
-/

namespace Dynamo

namespace KvRouter

/-- A worker's lookup table, `HashMap<ExternalSequenceBlockHash, SharedRadixBlock>`. -/
abbrev WorkerLookup := AList (fun _ : ExternalSequenceBlockHash => Nat)

/-- `RadixBlock`: children keyed by local hash, and the workers holding the
    block. -/
structure RadixBlock where
  children : AList (fun _ : LocalBlockHash => Nat)
  workers : Finset WorkerId

/-- `RadixBlock::new`. -/
def RadixBlock.new : RadixBlock := { children := ∅, workers := ∅ }

/-- `RadixTree`: the heap of blocks, the next free address and the lookup
    table of every worker. -/
structure RadixTree where
  nodes : Nat → RadixBlock
  next : Nat
  lookup : AList (fun _ : WorkerId => WorkerLookup)

/-- `OverlapScores`: the number of matched blocks of each worker. -/
structure OverlapScores where
  scores : WorkerId → Nat

namespace OverlapScores

/-- `OverlapScores::new`. -/
def new : OverlapScores := ⟨fun _ => 0⟩

/-- `update_scores`: one more matched block for each of the workers. -/
def updateScores (s : OverlapScores) (workers : Finset WorkerId) : OverlapScores :=
  ⟨fun w => if w ∈ workers then s.scores w + 1 else s.scores w⟩

end OverlapScores

namespace RadixTree

/-- The address of `root`. -/
def root : Nat := 0

/-- `RadixTree::new`: an empty root and no lookup tables. -/
def new : RadixTree := { nodes := fun _ => RadixBlock.new, next := 1, lookup := ∅ }

/-- `Rc::new(RefCell::new(RadixBlock::new()))`. -/
def alloc (t : RadixTree) : RadixTree × Nat :=
  ({ t with nodes := Function.update t.nodes t.next RadixBlock.new, next := t.next + 1 }, t.next)

/-- `borrow_mut` the block at `n` and change it. -/
def modify (t : RadixTree) (n : Nat) (f : RadixBlock → RadixBlock) : RadixTree :=
  { t with nodes := Function.update t.nodes n (f (t.nodes n)) }

/-- A worker's table, empty when it has none. -/
def lookupOf (t : RadixTree) (w : WorkerId) : WorkerLookup :=
  (t.lookup.lookup w).getD ∅

/-- The walk of `find_matches` from `current` along the rest of the
    sequence. -/
def findMatchesFrom (t : RadixTree) (earlyExit : Bool) :
    Nat → List LocalBlockHash → OverlapScores → OverlapScores
  | _, [], scores => scores
  | current, blockHash :: sequence, scores =>
      match (t.nodes current).children.lookup blockHash with
      | none => scores
      | some block =>
          let scores := scores.updateScores (t.nodes block).workers
          if earlyExit ∧ (t.nodes block).workers.card = 1 then scores
          else findMatchesFrom t earlyExit block sequence scores

/-- `find_matches`. -/
def findMatches (t : RadixTree) (sequence : List LocalBlockHash) (earlyExit : Bool) :
    OverlapScores :=
  findMatchesFrom t earlyExit root sequence OverlapScores.new

/-- One pass of the loop over the blocks of a `Stored` event: the existing
    child, else the worker's block with this hash, else a new block. -/
def storeBlock (w : WorkerId) :
    RadixTree × WorkerLookup × Nat → KvCacheStoredBlockData →
      Except Abort (RadixTree × WorkerLookup × Nat)
  | (t, wl, current), blockId =>
      let (t, block) := match (t.nodes current).children.lookup blockId.tokensHash with
        | some block => (t, block)
        | none =>
            let (t, newBlock) := match wl.lookup blockId.blockHash with
              | some block => (t, block)
              | none => t.alloc
            (t.modify current fun r => { r with children := r.children.insert blockId.tokensHash newBlock },
              newBlock)
      -- `inner`, the borrow of `current`, is still live here.
      if block = current then .error (.panic "already borrowed: BorrowMutError")
      else .ok (t.modify block (fun r => { r with workers := insert w r.workers }),
        wl.insert blockId.blockHash block, block)

/-- One pass of the loop over the hashes of a `Removed` event. -/
def removeBlock (w : WorkerId) :
    RadixTree × WorkerLookup → ExternalSequenceBlockHash → RadixTree × WorkerLookup
  | (t, wl), blockHash =>
      match wl.lookup blockHash with
      | none => (t, wl)
      | some entry =>
          let t := t.modify entry fun r =>
            let workers := r.workers.erase w
            -- "if no worker are using this block, that is true for all children"
            { children := if workers = ∅ then ∅ else r.children, workers := workers }
          (t, wl.erase blockHash)

/-- The block a `Stored` event starts under: the root, or the worker's block
    with the parent hash. -/
def parentBlock (workerLookup : WorkerLookup) (parentHash : Option ExternalSequenceBlockHash) :
    Option Nat :=
  match parentHash with
  | some parent => workerLookup.lookup parent
  | none => some root

/-- Put a worker's table back into `lookup`. -/
def insertLookup (t : RadixTree) (w : WorkerId) (wl : WorkerLookup) : RadixTree :=
  { t with lookup := t.lookup.insert w wl }

/-- `apply_event`. The worker's table is created first, even when the event
    is then skipped because its parent is unknown. -/
def applyEvent (t : RadixTree) (event : RouterEvent) : Except Abort RadixTree :=
  let workerId := event.workerId
  let workerLookup := t.lookupOf workerId
  match event.event.data with
  | .stored op =>
      match parentBlock workerLookup op.parentHash with
      | none => .ok (t.insertLookup workerId workerLookup)
      | some current =>
          (op.blocks.foldlM (storeBlock workerId) (t, workerLookup, current)).map
            fun (t, wl, _) => t.insertLookup workerId wl
  | .removed op =>
      let (t, wl) := op.blockHashes.foldl (removeBlock workerId) (t, workerLookup)
      .ok (t.insertLookup workerId wl)

/-- `remove_worker`. -/
def removeWorker (t : RadixTree) (worker : WorkerId) : RadixTree :=
  match t.lookup.lookup worker with
  | none => t
  | some blocks =>
      blocks.entries.foldl (fun t entry => t.modify entry.2 fun r => { r with workers := r.workers.erase worker })
        { t with lookup := t.lookup.erase worker }

/-- The blocks `find_matches` walks through from `current`, when it does not
    exit early. -/
def matchPath (t : RadixTree) : Nat → List LocalBlockHash → List Nat
  | _, [] => []
  | current, blockHash :: sequence =>
      match (t.nodes current).children.lookup blockHash with
      | none => []
      | some block => block :: matchPath t block sequence

/-- The blocks reachable from the root through children. -/
inductive Reachable (t : RadixTree) : Nat → Prop where
  | root : Reachable t root
  | child {parent block : Nat} {tokensHash : LocalBlockHash} :
      Reachable t parent → (t.nodes parent).children.lookup tokensHash = some block →
        Reachable t block

section Heap

variable (t : RadixTree) (w : WorkerId)

@[simp]
theorem nodes_modify (n : Nat) (f : RadixBlock → RadixBlock) (m : Nat) :
    (t.modify n f).nodes m = if m = n then f (t.nodes n) else t.nodes m := by
  simp only [modify, Function.update_apply]

@[simp]
theorem next_modify (n : Nat) (f : RadixBlock → RadixBlock) : (t.modify n f).next = t.next :=
  rfl

@[simp]
theorem lookupOf_modify (n : Nat) (f : RadixBlock → RadixBlock) :
    (t.modify n f).lookupOf w = t.lookupOf w :=
  rfl

@[simp]
theorem alloc_snd : t.alloc.2 = t.next :=
  rfl

@[simp]
theorem nodes_alloc (m : Nat) :
    t.alloc.1.nodes m = if m = t.next then RadixBlock.new else t.nodes m := by
  simp only [alloc, Function.update_apply]

@[simp]
theorem next_alloc : t.alloc.1.next = t.next + 1 :=
  rfl

@[simp]
theorem lookupOf_alloc : t.alloc.1.lookupOf w = t.lookupOf w :=
  rfl

@[simp]
theorem nodes_insertLookup (wl : WorkerLookup) : (t.insertLookup w wl).nodes = t.nodes :=
  rfl

@[simp]
theorem next_insertLookup (wl : WorkerLookup) : (t.insertLookup w wl).next = t.next :=
  rfl

@[simp]
theorem lookupOf_insertLookup (wl : WorkerLookup) (v : WorkerId) :
    (t.insertLookup w wl).lookupOf v = if v = w then wl else t.lookupOf v := by
  unfold lookupOf insertLookup
  by_cases hv : v = w
  · subst hv
    simp only [AList.lookup_insert, Option.getD_some, if_true]
  · simp only [AList.lookup_insert_ne hv, if_neg hv]

@[simp]
theorem nodes_new (n : Nat) : new.nodes n = RadixBlock.new :=
  rfl

@[simp]
theorem next_new : new.next = 1 :=
  rfl

@[simp]
theorem lookupOf_new : new.lookupOf w = ∅ :=
  rfl

@[simp]
theorem parentBlock_none (wl : WorkerLookup) : parentBlock wl none = some root :=
  rfl

@[simp]
theorem parentBlock_some (wl : WorkerLookup) (parent : ExternalSequenceBlockHash) :
    parentBlock wl (some parent) = wl.lookup parent :=
  rfl

end Heap

section Events

variable (w : WorkerId) (t : RadixTree) (wl : WorkerLookup)

/-- A block with an existing child at its tokens hash goes there. -/
theorem storeBlock_of_child {current block : Nat} {b : KvCacheStoredBlockData}
    (hchild : (t.nodes current).children.lookup b.tokensHash = some block) (hne : block ≠ current) :
    storeBlock w (t, wl, current) b =
      .ok (t.modify block (fun r => { r with workers := insert w r.workers }),
        wl.insert b.blockHash block, block) := by
  simp only [storeBlock, hchild, if_neg hne]

/-- A block with no child at its tokens hash and no entry in the worker's
    table is a new block at the next address. -/
theorem storeBlock_of_new {current : Nat} {b : KvCacheStoredBlockData}
    (hchild : (t.nodes current).children.lookup b.tokensHash = none)
    (hwl : wl.lookup b.blockHash = none) (hne : t.next ≠ current) :
    storeBlock w (t, wl, current) b =
      .ok ((t.alloc.1.modify current fun r =>
          { r with children := r.children.insert b.tokensHash t.next }).modify t.next
          (fun r => { r with workers := insert w r.workers }),
        wl.insert b.blockHash t.next, t.next) := by
  simp only [storeBlock, hchild, hwl, alloc, if_neg hne]

/-- A pass of the `Stored` loop that goes through records its block in the
    worker's table and leaves the lookup tables of the tree alone: every
    branch changes the heap only. -/
theorem storeBlock_eq_ok {current block : Nat} {b : KvCacheStoredBlockData}
    {t' : RadixTree} {wl' : WorkerLookup}
    (h : storeBlock w (t, wl, current) b = .ok (t', wl', block)) :
    t'.lookup = t.lookup ∧ wl' = wl.insert b.blockHash block := by
  -- the three branches end in the same borrow check
  have hend : ∀ (t₁ : RadixTree) (block₁ : Nat), t₁.lookup = t.lookup →
      (if block₁ = current then Except.error (Abort.panic "already borrowed: BorrowMutError")
        else Except.ok (t₁.modify block₁ (fun r => { r with workers := insert w r.workers }),
          wl.insert b.blockHash block₁, block₁)) = Except.ok (t', wl', block) →
      t'.lookup = t.lookup ∧ wl' = wl.insert b.blockHash block := by
    intro t₁ block₁ ht₁ hif
    split at hif
    · cases hif
    · simp only [Except.ok.injEq, Prod.mk.injEq] at hif
      obtain ⟨rfl, rfl, rfl⟩ := hif
      exact ⟨ht₁, rfl⟩
  simp only [storeBlock] at h
  cases hc : (t.nodes current).children.lookup b.tokensHash with
  | some child =>
      simp only [hc] at h
      exact hend t child rfl h
  | none =>
      simp only [hc] at h
      cases hw : wl.lookup b.blockHash with
      | some entry =>
          simp only [hw] at h
          refine hend _ _ ?_ h
          rfl
      | none =>
          simp only [hw] at h
          refine hend _ _ ?_ h
          rfl

theorem lookup_storeBlock {current block : Nat} {b : KvCacheStoredBlockData}
    {t' : RadixTree} {wl' : WorkerLookup}
    (h : storeBlock w (t, wl, current) b = .ok (t', wl', block)) : t'.lookup = t.lookup :=
  (storeBlock_eq_ok w t wl h).1

theorem lookup_foldlM_storeBlock : ∀ (blocks : List KvCacheStoredBlockData) (t : RadixTree)
    (wl : WorkerLookup) (current : Nat) {t' : RadixTree} {wl' : WorkerLookup} {last : Nat},
    blocks.foldlM (storeBlock w) (t, wl, current) = .ok (t', wl', last) → t'.lookup = t.lookup
  | [], _, _, _, _, _, _, h => by
      simp only [List.foldlM_nil, pure, Except.pure, Except.ok.injEq, Prod.mk.injEq] at h
      rw [h.1]
  | b :: blocks, t, wl, current, _, _, _, h => by
      rw [List.foldlM_cons] at h
      rcases Except.bind_eq_ok h with ⟨⟨t₁, wl₁, block⟩, hstep, hrest⟩
      rw [lookup_foldlM_storeBlock blocks t₁ wl₁ block hrest, lookup_storeBlock w t wl hstep]

theorem removeBlock_of_none {hash : ExternalSequenceBlockHash} (h : wl.lookup hash = none) :
    removeBlock w (t, wl) hash = (t, wl) := by
  simp only [removeBlock, h]

/-- Taking a worker off a block clears the block's children once no worker
    is left. -/
theorem removeBlock_of_some {hash : ExternalSequenceBlockHash} {n : Nat}
    (h : wl.lookup hash = some n) :
    removeBlock w (t, wl) hash =
      (t.modify n fun r =>
        { children := if r.workers.erase w = ∅ then ∅ else r.children, workers := r.workers.erase w },
        wl.erase hash) := by
  simp only [removeBlock, h]

theorem lookup_removeBlock (hash : ExternalSequenceBlockHash) :
    (removeBlock w (t, wl) hash).1.lookup = t.lookup := by
  cases h : wl.lookup hash with
  | none => rw [removeBlock_of_none w t wl h]
  | some n => rw [removeBlock_of_some w t wl h]; rfl

theorem lookup_foldl_removeBlock : ∀ (hashes : List ExternalSequenceBlockHash) (t : RadixTree)
    (wl : WorkerLookup), (hashes.foldl (removeBlock w) (t, wl)).1.lookup = t.lookup
  | [], _, _ => rfl
  | hash :: hashes, t, wl => by
      rw [List.foldl_cons, lookup_foldl_removeBlock hashes, lookup_removeBlock]

end Events

section RemoveWorker

variable (t : RadixTree) (w : WorkerId)

/-- Taking the worker off the blocks of a list of entries, one by one. -/
theorem nodes_foldl_erase (entries : List (Σ _ : ExternalSequenceBlockHash, Nat))
    (t : RadixTree) (n : Nat) :
    (entries.foldl (fun t entry => t.modify entry.2 fun r => { r with workers := r.workers.erase w })
        t).nodes n =
      if ∃ entry ∈ entries, entry.2 = n then { t.nodes n with workers := (t.nodes n).workers.erase w }
      else t.nodes n := by
  induction entries generalizing t with
  | nil => simp
  | cons entry entries ih =>
      rw [List.foldl_cons, ih]
      by_cases hn : n = entry.2
      · -- the block of the head entry: erasing twice is erasing once
        subst hn
        simp
      · -- any other block is untouched by the head entry
        have hne : ¬ entry.2 = n := fun h => hn h.symm
        have hiff : (∃ e ∈ entry :: entries, e.2 = n) ↔ ∃ e ∈ entries, e.2 = n := by
          simp only [List.mem_cons, or_and_right, exists_or, exists_eq_left, hne, false_or]
        by_cases hin : ∃ e ∈ entries, e.2 = n
        · rw [if_pos hin, if_pos (hiff.mpr hin)]
          simp [hn]
        · rw [if_neg hin, if_neg (mt hiff.mp hin)]
          simp [hn]

theorem next_foldl_erase (entries : List (Σ _ : ExternalSequenceBlockHash, Nat))
    (t : RadixTree) :
    (entries.foldl (fun t entry => t.modify entry.2 fun r => { r with workers := r.workers.erase w })
        t).next = t.next := by
  induction entries generalizing t with
  | nil => rfl
  | cons entry entries ih => rw [List.foldl_cons, ih, next_modify]

theorem lookup_foldl_erase (entries : List (Σ _ : ExternalSequenceBlockHash, Nat))
    (t : RadixTree) :
    (entries.foldl (fun t entry => t.modify entry.2 fun r => { r with workers := r.workers.erase w })
        t).lookup = t.lookup := by
  induction entries generalizing t with
  | nil => rfl
  | cons entry entries ih => rw [List.foldl_cons, ih]; rfl

@[simp]
theorem next_removeWorker : (t.removeWorker w).next = t.next := by
  unfold removeWorker
  split
  · rfl
  · rw [next_foldl_erase]

@[simp]
theorem lookupOf_removeWorker (v : WorkerId) :
    (t.removeWorker w).lookupOf v = if v = w then ∅ else t.lookupOf v := by
  unfold removeWorker
  split
  next hnone =>
    by_cases hv : v = w
    · subst hv
      simp only [lookupOf, hnone, Option.getD_none, if_true]
    · simp only [if_neg hv]
  next blocks _ =>
    unfold lookupOf
    rw [lookup_foldl_erase]
    by_cases hv : v = w
    · subst hv
      simp only [AList.lookup_erase, Option.getD_none, if_true]
    · simp only [AList.lookup_erase_ne hv, if_neg hv]

theorem nodes_removeWorker_of_lookup {h : ExternalSequenceBlockHash} {n : Nat}
    (hn : (t.lookupOf w).lookup h = some n) :
    (t.removeWorker w).nodes n = { t.nodes n with workers := (t.nodes n).workers.erase w } := by
  unfold removeWorker
  split
  next hnone => simp [lookupOf, hnone] at hn
  next blocks hsome =>
    simp only [lookupOf, hsome, Option.getD_some] at hn
    rw [nodes_foldl_erase, if_pos ⟨⟨h, n⟩, AList.mem_lookup_iff.mp hn, rfl⟩]

theorem nodes_removeWorker_of_forall {n : Nat} (hn : ∀ h, (t.lookupOf w).lookup h ≠ some n) :
    (t.removeWorker w).nodes n = t.nodes n := by
  unfold removeWorker
  split
  next => rfl
  next blocks hsome =>
    simp only [lookupOf, hsome, Option.getD_some] at hn
    have hno : ¬ ∃ entry ∈ blocks.entries, entry.2 = n := by
      rintro ⟨⟨h, m⟩, hmem, rfl⟩
      exact hn h (AList.mem_lookup_iff.mpr hmem)
    rw [nodes_foldl_erase, if_neg hno]

end RemoveWorker

section FindMatches

/-- Without early exit, `find_matches` adds one for every block on the walk
    that lists the worker. -/
theorem findMatchesFrom_scores (t : RadixTree) (w : WorkerId) (current : Nat)
    (sequence : List LocalBlockHash) (scores : OverlapScores) :
    (t.findMatchesFrom false current sequence scores).scores w =
      scores.scores w + (t.matchPath current sequence).countP fun n => w ∈ (t.nodes n).workers := by
  induction sequence generalizing current scores with
  | nil => simp [findMatchesFrom, matchPath]
  | cons blockHash sequence ih =>
      unfold findMatchesFrom matchPath
      cases (t.nodes current).children.lookup blockHash with
      | none => simp
      | some block =>
          simp only [Bool.false_eq_true, false_and, if_false, ih, OverlapScores.updateScores,
            List.countP_cons]
          by_cases hw : w ∈ (t.nodes block).workers
          · simp [hw]
            omega
          · simp [hw]

/-- With early exit, `find_matches` counts the blocks of the walk up to the
    first one with a single worker. -/
theorem findMatchesFrom_true_scores (t : RadixTree) (w : WorkerId) :
    ∀ (current : Nat) (sequence : List LocalBlockHash) (scores : OverlapScores),
    (t.findMatchesFrom true current sequence scores).scores w =
      scores.scores w + ((t.matchPath current sequence).take
        ((t.matchPath current sequence).findIdx (fun n => (t.nodes n).workers.card = 1) + 1)).countP
          fun n => w ∈ (t.nodes n).workers
  | _, [], scores => by simp [findMatchesFrom, matchPath]
  | current, x :: sequence, scores => by
      unfold findMatchesFrom matchPath
      cases (t.nodes current).children.lookup x with
      | none => simp
      | some block =>
          dsimp only
          rw [List.findIdx_cons]
          by_cases hcard : (t.nodes block).workers.card = 1
          · -- the walk stops at this block
            simp only [hcard, decide_true, cond_true, true_and, if_true, Nat.zero_add,
              List.take_succ_cons, List.take_zero, List.countP_singleton, OverlapScores.updateScores]
            by_cases hw : w ∈ (t.nodes block).workers <;> simp [hw]
          · simp only [hcard, decide_false, cond_false, and_false, if_false,
              List.take_succ_cons, List.countP_cons, findMatchesFrom_true_scores t w block sequence,
              OverlapScores.updateScores]
            by_cases hw : w ∈ (t.nodes block).workers
            · simp only [hw, if_true, decide_true]
              omega
            · simp only [hw, if_false, decide_false, Bool.false_eq_true]
              omega

/-- Early exit only stops the walk sooner: no worker scores more with it. -/
theorem findMatches_true_scores_le (t : RadixTree) (sequence : List LocalBlockHash)
    (w : WorkerId) :
    (t.findMatches sequence true).scores w ≤ (t.findMatches sequence false).scores w := by
  rw [findMatches, findMatches, findMatchesFrom_true_scores, findMatchesFrom_scores]
  exact Nat.add_le_add_left ((List.take_sublist _ _).countP_le) _

theorem length_matchPath (t : RadixTree) (current : Nat) (sequence : List LocalBlockHash) :
    (t.matchPath current sequence).length ≤ sequence.length := by
  induction sequence generalizing current with
  | nil => simp [matchPath]
  | cons blockHash sequence ih =>
      unfold matchPath
      cases (t.nodes current).children.lookup blockHash with
      | none => simp
      | some block => simpa using ih block

/-- A worker's score never exceeds the length of the query. -/
theorem findMatches_scores_le_length (t : RadixTree) (sequence : List LocalBlockHash)
    (w : WorkerId) : (t.findMatches sequence false).scores w ≤ sequence.length := by
  rw [findMatches, findMatchesFrom_scores]
  calc OverlapScores.new.scores w + (t.matchPath root sequence).countP _
      = (t.matchPath root sequence).countP fun n => w ∈ (t.nodes n).workers := by
        simp [OverlapScores.new]
    _ ≤ (t.matchPath root sequence).length := List.countP_le_length
    _ ≤ sequence.length := length_matchPath t root sequence

end FindMatches

end RadixTree

/-- A call on a tree: an event, or the removal of a worker. -/
inductive TreeCall where
  | applyEvent (event : RouterEvent)
  | removeWorker (worker : WorkerId)

/-- Running calls on a tree in order. -/
def RadixTree.applyCalls : RadixTree → List TreeCall → Except Abort RadixTree
  | t, [] => .ok t
  | t, .applyEvent event :: calls =>
      match t.applyEvent event with
      | .error a => .error a
      | .ok t => applyCalls t calls
  | t, .removeWorker w :: calls => applyCalls (t.removeWorker w) calls

end KvRouter

end Dynamo
