import Dynamo.KvRouter.RadixTree

/-!
# Worker Membership in the Radix Tree

Which workers the radix tree lists on a block, against which blocks their
lookup tables point to. The router reads the first (`find_matches` counts the
workers of the blocks on a path) and `remove_worker` clears the worker from
the second, so the two have to agree for a removed worker to stop scoring.

They agree when every worker reports its cache as a tree of its own: each
`ExternalSequenceBlockHash` of a worker is stored under one
`(parent_hash, tokens_hash)` pair `π w h`, distinct hashes under distinct
pairs, and a hash is removed only once no other hash the worker holds is
stored under it. Then the tree is a forest on its addresses (`Forest`), each
table entry sits where its pair puts it (`Placed`), and a worker is on a
block exactly when its table points there (`Wf`); `apply_event` and
`remove_worker` keep all three, and under them no `Stored` event ever hits the
`RefCell` panic.

The block of a hash is then determined by the worker's chain of parents, so
a table never points twice to one block (`Wf.lookup_inj`). This is what keeps
`Removed` sound: erasing one entry takes the worker off its block, and the
children the block loses when it empties belong to no held hash.

Without the two conditions on the pairs the correspondence fails: a worker
that stores two hashes under one pair and removes one of them, or that
removes a parent before its child while another worker shares the path,
stays on a block that its table no longer names.

## Main definitions

* `StoredPairs`, `TreeCall.StoresWith`: The pair each stored hash is
  stored under.
* `RemovesLeafFirst`: Hashes are removed after the hashes stored under them.
* `RadixTree.Forest`, `RadixTree.Placed`, `RadixTree.Wf`: The invariant.

## Theorems

* `RadixTree.storeBlocks_wf`, `RadixTree.removeBlocks_wf`,
  `RadixTree.removeWorker_wf`: The loops of the three operations keep it.
* `RadixTree.applyCalls_wf`: Every run keeps it.
* `RadixTree.Wf.scores_le`: A score is at most the size of the table.
* `RadixTree.radixTree_worker_membership`: The membership invariant and its
  consequences for `find_matches`.
-/

namespace Dynamo

namespace KvRouter

/-- The `(parent_hash, tokens_hash)` each worker stores each hash under. -/
abbrev StoredPairs :=
  WorkerId → ExternalSequenceBlockHash → Option ExternalSequenceBlockHash × LocalBlockHash

/-- Each block of a `Stored` chain with the pair it is stored under: the
    event's parent for the first block, the block before it for the rest. -/
def storedPairs : Option ExternalSequenceBlockHash → List KvCacheStoredBlockData →
    List (ExternalSequenceBlockHash × (Option ExternalSequenceBlockHash × LocalBlockHash))
  | _, [] => []
  | parent, block :: blocks =>
      (block.blockHash, (parent, block.tokensHash)) :: storedPairs (some block.blockHash) blocks

section Hypotheses

variable (π : StoredPairs)

/-- A worker's event stores each block under the pair `π` gives it. -/
def KvCacheEventData.StoresWith (w : WorkerId) : KvCacheEventData → Prop
  | .stored op => ∀ x ∈ storedPairs op.parentHash op.blocks, π w x.1 = x.2
  | .removed _ => True

instance (w : WorkerId) : ∀ data, Decidable (KvCacheEventData.StoresWith π w data)
  | .stored op =>
      inferInstanceAs (Decidable (∀ x ∈ storedPairs op.parentHash op.blocks, π w x.1 = x.2))
  | .removed _ => inferInstanceAs (Decidable True)

/-- A call stores each block under the pair `π` gives it. -/
def TreeCall.StoresWith : TreeCall → Prop
  | .applyEvent event => event.event.data.StoresWith π event.workerId
  | .removeWorker _ => True

instance : DecidablePred (TreeCall.StoresWith π)
  | .applyEvent event => inferInstanceAs (Decidable (event.event.data.StoresWith π event.workerId))
  | .removeWorker _ => inferInstanceAs (Decidable True)

/-- The hashes a worker holds after its event. -/
def KvCacheEventData.heldAfter (held : Finset ExternalSequenceBlockHash) :
    KvCacheEventData → Finset ExternalSequenceBlockHash
  | .stored op => held ∪ (op.blocks.map KvCacheStoredBlockData.blockHash).toFinset
  | .removed op => op.blockHashes.foldl Finset.erase held

/-- Taking hashes off one by one, each while no other held hash is stored
    under it. -/
def LeafRemovals (w : WorkerId) :
    Finset ExternalSequenceBlockHash → List ExternalSequenceBlockHash → Prop
  | _, [] => True
  | held, h :: hashes =>
      (∀ c ∈ held.erase h, (π w c).1 ≠ some h) ∧ LeafRemovals w (held.erase h) hashes

instance LeafRemovals.decidable (w : WorkerId) :
    ∀ held hashes, Decidable (LeafRemovals π w held hashes)
  | _, [] => inferInstanceAs (Decidable True)
  | held, h :: hashes =>
      have := LeafRemovals.decidable w (held.erase h) hashes
      inferInstanceAs
        (Decidable ((∀ c ∈ held.erase h, (π w c).1 ≠ some h) ∧ LeafRemovals π w (held.erase h) hashes))

/-- A `Removed` event takes its hashes off leaves first. -/
def KvCacheEventData.LeafFirst (w : WorkerId) (held : Finset ExternalSequenceBlockHash) :
    KvCacheEventData → Prop
  | .stored _ => True
  | .removed op => LeafRemovals π w held op.blockHashes

instance (w : WorkerId) (held : Finset ExternalSequenceBlockHash) :
    ∀ data, Decidable (KvCacheEventData.LeafFirst π w held data)
  | .stored _ => inferInstanceAs (Decidable True)
  | .removed op => inferInstanceAs (Decidable (LeafRemovals π w held op.blockHashes))

/-- Every `Removed` event of a run takes its hashes off leaves first, `held`
    being the hashes each worker holds by its own events since the router
    last removed it. -/
def RemovesLeafFirst :
    (WorkerId → Finset ExternalSequenceBlockHash) → List TreeCall → Prop
  | _, [] => True
  | held, .applyEvent event :: calls =>
      event.event.data.LeafFirst π event.workerId (held event.workerId) ∧
        RemovesLeafFirst
          (Function.update held event.workerId (event.event.data.heldAfter (held event.workerId)))
          calls
  | held, .removeWorker w :: calls => RemovesLeafFirst (Function.update held w ∅) calls

instance RemovesLeafFirst.decidable :
    ∀ held calls, Decidable (RemovesLeafFirst π held calls)
  | _, [] => inferInstanceAs (Decidable True)
  | held, .applyEvent event :: calls =>
      have := RemovesLeafFirst.decidable
        (Function.update held event.workerId (event.event.data.heldAfter (held event.workerId))) calls
      inferInstanceAs (Decidable (_ ∧ _))
  | held, .removeWorker w :: calls =>
      RemovesLeafFirst.decidable (Function.update held w ∅) calls

end Hypotheses

namespace RadixTree

/-- The blocks form a forest on the allocated addresses: an edge goes to a
    larger allocated address, and no block has two incoming edges. -/
structure Forest (t : RadixTree) : Prop where
  root_lt : root < t.next
  child_lt : ∀ {m k c}, (t.nodes m).children.lookup k = some c → m < c ∧ c < t.next
  child_inj : ∀ {m m' k k' c}, (t.nodes m).children.lookup k = some c →
    (t.nodes m').children.lookup k' = some c → m = m' ∧ k = k'

/-- Block `n` sits where `π` puts hash `h` of worker `w`: under the block of
    the parent hash, or the root, at the tokens hash. -/
def Placed (π : StoredPairs) (t : RadixTree) (w : WorkerId) (h : ExternalSequenceBlockHash)
    (n : Nat) : Prop :=
  ∃ p, parentBlock (t.lookupOf w) (π w h).1 = some p ∧
    (t.nodes p).children.lookup (π w h).2 = some n

/-- The invariant: a forest, every table entry placed by `π`, and a worker on
    a block exactly when its table points there. -/
structure Wf (π : StoredPairs) (t : RadixTree) : Prop extends Forest t where
  placed : ∀ {w h n}, (t.lookupOf w).lookup h = some n → Placed π t w h n
  mem_workers : ∀ {w n}, w ∈ (t.nodes n).workers ↔ ∃ h, (t.lookupOf w).lookup h = some n

/-- The hashes in every table are among those the worker holds. -/
def Covers (held : WorkerId → Finset ExternalSequenceBlockHash) (t : RadixTree) : Prop :=
  ∀ w, ∀ h ∈ t.lookupOf w, h ∈ held w

section Forest

variable {t t' : RadixTree}

/-- Dropping edges and keeping the addresses keeps a forest. -/
theorem Forest.of_edges_sub (hF : Forest t) (hnext : t'.next = t.next)
    (hsub : ∀ {m k c}, (t'.nodes m).children.lookup k = some c →
      (t.nodes m).children.lookup k = some c) : Forest t' where
  root_lt := hnext ▸ hF.root_lt
  child_lt := fun h => hnext ▸ hF.child_lt (hsub h)
  child_inj := fun h h' => hF.child_inj (hsub h) (hsub h')

/-- Adding one edge from an allocated block to a new address keeps a forest. -/
theorem Forest.attach (hF : Forest t) {current : Nat} {k : LocalBlockHash}
    (hcur : current < t.next) (hnext : t'.next = t.next + 1)
    (hedge : ∀ {m k' c}, (t'.nodes m).children.lookup k' = some c ↔
      (t.nodes m).children.lookup k' = some c ∨ (m = current ∧ k' = k ∧ c = t.next)) :
    Forest t' where
  root_lt := by
    rw [hnext]
    exact Nat.lt_succ_of_lt hF.root_lt
  child_lt := by
    intro m k' c h
    rw [hnext]
    rcases hedge.mp h with hold | ⟨rfl, -, rfl⟩
    · have := hF.child_lt hold
      omega
    · omega
  child_inj := by
    intro m m' k₁ k₂ c h₁ h₂
    rcases hedge.mp h₁ with hold₁ | ⟨rfl, rfl, rfl⟩ <;> rcases hedge.mp h₂ with hold₂ | ⟨rfl, rfl, hc⟩
    · exact hF.child_inj hold₁ hold₂
    · -- an old edge never reaches the new address
      exact absurd (hF.child_lt hold₁).2 (by omega)
    · exact absurd (hF.child_lt hold₂).2 (by omega)
    · exact ⟨rfl, rfl⟩

/-- The blocks of a table lie strictly between the root and the next
    address. -/
theorem Wf.lookup_lt {π : StoredPairs} (hwf : Wf π t) {w h n}
    (hn : (t.lookupOf w).lookup h = some n) : root < n ∧ n < t.next := by
  rcases hwf.placed hn with ⟨p, -, hedge⟩
  have hlt := hwf.child_lt hedge
  exact ⟨Nat.lt_of_le_of_lt (Nat.zero_le p) hlt.1, hlt.2⟩

end Forest

section Placement

variable {π : StoredPairs} {t t' : RadixTree}

theorem parentBlock_mono {wl wl' : WorkerLookup}
    (hext : ∀ {x n}, wl.lookup x = some n → wl'.lookup x = some n)
    {parent : Option ExternalSequenceBlockHash} {p : Nat}
    (h : parentBlock wl parent = some p) : parentBlock wl' parent = some p := by
  cases parent with
  | none => exact h
  | some x => exact hext h

/-- A placement survives growing the worker's table and the edges. -/
theorem Placed.mono {w h n} (hp : Placed π t w h n)
    (hext : ∀ {x m}, (t.lookupOf w).lookup x = some m → (t'.lookupOf w).lookup x = some m)
    (hedges : ∀ {m k c}, (t.nodes m).children.lookup k = some c →
      (t'.nodes m).children.lookup k = some c) : Placed π t' w h n := by
  rcases hp with ⟨p, hparent, hedge⟩
  exact ⟨p, parentBlock_mono hext hparent, hedges hedge⟩

/-- The invariant only reads the heap, the next address and the tables. -/
theorem Wf.of_eq (hwf : Wf π t) (hnodes : t'.nodes = t.nodes) (hnext : t'.next = t.next)
    (hlookup : ∀ w, t'.lookupOf w = t.lookupOf w) : Wf π t' where
  toForest := hwf.toForest.of_edges_sub hnext (fun h => hnodes ▸ h)
  placed := by
    intro w h n hn
    rw [hlookup] at hn
    rcases hwf.placed hn with ⟨p, hparent, hedge⟩
    exact ⟨p, (hlookup w).symm ▸ hparent, hnodes.symm ▸ hedge⟩
  mem_workers := by
    intro w n
    rw [hnodes, hlookup]
    exact hwf.mem_workers

/-- Two parents with the same block, in a table that is injective below
    that block, are the same parent. -/
theorem Wf.parentBlock_inj (hwf : Wf π t) {w : WorkerId} {p : Nat}
    {a b : Option ExternalSequenceBlockHash}
    (ha : parentBlock (t.lookupOf w) a = some p) (hb : parentBlock (t.lookupOf w) b = some p)
    (hsame : ∀ {x y}, (t.lookupOf w).lookup x = some p → (t.lookupOf w).lookup y = some p → x = y) :
    a = b := by
  cases a with
  | none =>
      cases b with
      | none => rfl
      | some y =>
          -- the root is in no table
          simp only [parentBlock_none, parentBlock_some, Option.some.injEq] at ha hb
          subst ha
          exact absurd (hwf.lookup_lt hb).1 (lt_irrefl _)
  | some x =>
      cases b with
      | none =>
          simp only [parentBlock_none, parentBlock_some, Option.some.injEq] at ha hb
          subst hb
          exact absurd (hwf.lookup_lt ha).1 (lt_irrefl _)
      | some y =>
          simp only [parentBlock_some] at ha hb
          rw [hsame ha hb]

/-- With distinct pairs, a table never points twice to one block: the block
    determines the parent block and the tokens hash, and, one level up, the
    parent hash. -/
theorem Wf.lookup_inj (hwf : Wf π t) {w : WorkerId} (hinj : Function.Injective (π w)) :
    ∀ {x y n}, (t.lookupOf w).lookup x = some n → (t.lookupOf w).lookup y = some n → x = y := by
  intro x y n
  induction n using Nat.strong_induction_on generalizing x y with
  | _ n ih =>
      intro hx hy
      rcases hwf.placed hx with ⟨p, hpx, hex⟩
      rcases hwf.placed hy with ⟨q, hqy, hey⟩
      -- one incoming edge: the same parent block and tokens hash
      rcases hwf.child_inj hex hey with ⟨rfl, hk⟩
      have hpn : p < n := (hwf.child_lt hex).1
      have hparent : (π w x).1 = (π w y).1 :=
        hwf.parentBlock_inj hpx hqy (fun ha hb => ih p hpn ha hb)
      exact hinj (Prod.ext hparent hk)

/-- Every block of a table is reachable from the root. -/
theorem Wf.reachable_of_lookup (hwf : Wf π t) {w : WorkerId} :
    ∀ {h n}, (t.lookupOf w).lookup h = some n → Reachable t n := by
  intro h n
  induction n using Nat.strong_induction_on generalizing h with
  | _ n ih =>
      intro hn
      rcases hwf.placed hn with ⟨p, hparent, hedge⟩
      have hp : Reachable t p := by
        cases hpar : (π w h).1 with
        | none =>
            rw [hpar, parentBlock_none, Option.some.injEq] at hparent
            subst hparent
            exact .root
        | some parent =>
            rw [hpar, parentBlock_some] at hparent
            exact ih p (hwf.child_lt hedge).1 hparent
      exact .child hp hedge

end Placement

/-- A table that gains `h ↦ n`, where it had nothing or already `n`. -/
theorem lookup_insert_iff {wl : WorkerLookup} {h : ExternalSequenceBlockHash} {n : Nat}
    (hold : ∀ {m}, wl.lookup h = some m → m = n) {x : ExternalSequenceBlockHash} {m : Nat} :
    (wl.insert h n).lookup x = some m ↔ (x = h ∧ m = n) ∨ wl.lookup x = some m := by
  by_cases hx : x = h
  · subst hx
    rw [AList.lookup_insert, Option.some.injEq]
    constructor
    · rintro rfl
      exact .inl ⟨rfl, rfl⟩
    · rintro (⟨-, rfl⟩ | hm)
      · rfl
      · exact (hold hm).symm
  · rw [AList.lookup_insert_ne hx]
    simp only [hx, false_and, false_or]

section Store

variable {π : StoredPairs} {w : WorkerId} {t : RadixTree} {wl : WorkerLookup}
  {current : Nat} {parent : Option ExternalSequenceBlockHash} {b : KvCacheStoredBlockData}

/-- The block a `Stored` event starts under is allocated. -/
theorem Wf.current_lt (hwf : Wf π (t.insertLookup w wl))
    (hcur : parentBlock wl parent = some current) : current < t.next := by
  cases parent with
  | none =>
      rw [parentBlock_none, Option.some.injEq] at hcur
      subst hcur
      exact hwf.root_lt
  | some p =>
      have hp : ((t.insertLookup w wl).lookupOf w).lookup p = some current := by
        simpa using hcur
      exact (hwf.lookup_lt hp).2

/-- Storing a block with an existing child: the worker joins the child, and
    the hash, if the worker held it already, was there. -/
theorem wf_storeBlock_child (hwf : Wf π (t.insertLookup w wl))
    (hcur : parentBlock wl parent = some current)
    (hpair : π w b.blockHash = (parent, b.tokensHash)) {block : Nat}
    (hchild : (t.nodes current).children.lookup b.tokensHash = some block) :
    Wf π ((t.modify block fun r => { r with workers := insert w r.workers }).insertLookup w
      (wl.insert b.blockHash block)) := by
  set T := t.insertLookup w wl with hT
  set T' := (t.modify block fun r => { r with workers := insert w r.workers }).insertLookup w
    (wl.insert b.blockHash block) with hT'
  -- a hash the worker held already sits at the same child
  have hold : ∀ {m}, wl.lookup b.blockHash = some m → m = block := by
    intro m hm
    have hm' : (T.lookupOf w).lookup b.blockHash = some m := by simpa [hT] using hm
    rcases hwf.placed hm' with ⟨p, hp, hedge⟩
    rw [hpair] at hp hedge
    simp only [hT, lookupOf_insertLookup, if_true, nodes_insertLookup] at hp hedge
    rw [hcur, Option.some.injEq] at hp
    subst hp
    rw [hchild, Option.some.injEq] at hedge
    exact hedge.symm
  have hedges : ∀ {m k c}, (T'.nodes m).children.lookup k = some c ↔
      (T.nodes m).children.lookup k = some c := by
    intro m k c
    by_cases hm : m = block
    · simp [hT, hT', hm]
    · simp [hT, hT', hm]
  have htable : ∀ {v x m}, (T'.lookupOf v).lookup x = some m ↔
      (v = w ∧ x = b.blockHash ∧ m = block) ∨ (T.lookupOf v).lookup x = some m := by
    intro v x m
    by_cases hv : v = w
    · subst hv
      simp only [hT, hT', lookupOf_insertLookup, if_true, lookup_insert_iff hold, true_and]
    · simp [hT, hT', hv]
  refine ⟨hwf.toForest.of_edges_sub rfl hedges.mp, ?_, ?_⟩
  · intro v x m hm
    rcases htable.mp hm with ⟨rfl, rfl, rfl⟩ | hm
    · -- the new entry: the child of the starting block
      refine ⟨current, ?_, ?_⟩
      · rw [hpair]
        exact parentBlock_mono (fun h => htable.mpr (.inr h)) (by simpa [hT] using hcur)
      · rw [hpair]
        exact hedges.mpr (by simpa [hT] using hchild)
    · exact (hwf.placed hm).mono (fun h => htable.mpr (.inr h)) hedges.mpr
  · intro v n
    have hworkers : v ∈ (T'.nodes n).workers ↔ (v = w ∧ n = block) ∨ v ∈ (T.nodes n).workers := by
      by_cases hn : n = block
      · subst hn
        simp [hT, hT']
      · simp [hT, hT', hn]
    rw [hworkers, hwf.mem_workers]
    constructor
    · rintro (⟨rfl, rfl⟩ | ⟨x, hx⟩)
      · exact ⟨b.blockHash, htable.mpr (.inl ⟨rfl, rfl, rfl⟩)⟩
      · exact ⟨x, htable.mpr (.inr hx)⟩
    · rintro ⟨x, hx⟩
      rcases htable.mp hx with ⟨rfl, -, rfl⟩ | hx
      · exact .inl ⟨rfl, rfl⟩
      · exact .inr ⟨x, hx⟩

/-- Storing a block with neither a child nor a table entry: a new block at
    the next address, attached under the starting block. -/
theorem wf_storeBlock_new (hwf : Wf π (t.insertLookup w wl))
    (hcur : parentBlock wl parent = some current)
    (hpair : π w b.blockHash = (parent, b.tokensHash))
    (hchild : (t.nodes current).children.lookup b.tokensHash = none)
    (hwl : wl.lookup b.blockHash = none) :
    Wf π (((t.alloc.1.modify current fun r =>
          { r with children := r.children.insert b.tokensHash t.next }).modify t.next
          (fun r => { r with workers := insert w r.workers })).insertLookup w
        (wl.insert b.blockHash t.next)) := by
  set T := t.insertLookup w wl with hT
  set T' := ((t.alloc.1.modify current fun r =>
          { r with children := r.children.insert b.tokensHash t.next }).modify t.next
          (fun r => { r with workers := insert w r.workers })).insertLookup w
        (wl.insert b.blockHash t.next) with hT'
  have hlt : current < t.next := hwf.current_lt hcur
  have hne : current ≠ t.next := Nat.ne_of_lt hlt
  have hnodes : ∀ m, T'.nodes m =
      if m = t.next then { children := ∅, workers := {w} }
      else if m = current then
        { t.nodes current with children := (t.nodes current).children.insert b.tokensHash t.next }
      else t.nodes m := by
    intro m
    by_cases hm : m = t.next
    · subst hm
      simp [hT', hne.symm, RadixBlock.new]
    · by_cases hmc : m = current
      · subst hmc
        simp [hT', hm]
      · simp [hT', hm, hmc]
  have hedges : ∀ {m k c}, (T'.nodes m).children.lookup k = some c ↔
      (T.nodes m).children.lookup k = some c ∨ (m = current ∧ k = b.tokensHash ∧ c = t.next) := by
    intro m k c
    rw [hnodes]
    by_cases hm : m = t.next
    · -- the new block has no children, and the old heap had none at that address
      subst hm
      simp only [if_true, AList.lookup_empty, reduceCtorEq, false_iff, not_or]
      refine ⟨fun h => ?_, fun h => hne h.1.symm⟩
      have hlt := hwf.child_lt h
      exact Nat.lt_asymm hlt.1 hlt.2
    · by_cases hmc : m = current
      · subst hmc
        by_cases hk : k = b.tokensHash
        · subst hk
          simp [hT, hm, hchild, eq_comm]
        · simp [hT, hm, AList.lookup_insert_ne hk, hk]
      · simp [hT, hm, hmc]
  have hnone : ∀ {m}, wl.lookup b.blockHash = some m → m = t.next := by
    intro m hm
    rw [hwl] at hm
    cases hm
  have htable : ∀ {v x m}, (T'.lookupOf v).lookup x = some m ↔
      (v = w ∧ x = b.blockHash ∧ m = t.next) ∨ (T.lookupOf v).lookup x = some m := by
    intro v x m
    by_cases hv : v = w
    · subst hv
      simp only [hT, hT', lookupOf_insertLookup, if_true, lookup_insert_iff hnone, true_and]
    · simp [hT, hT', hv]
  refine ⟨@Forest.attach T T' hwf.toForest current b.tokensHash (by simpa [hT] using hlt)
    (by simp [hT, hT']) hedges, ?_, ?_⟩
  · intro v x m hm
    rcases htable.mp hm with ⟨rfl, rfl, rfl⟩ | hm
    · refine ⟨current, ?_, ?_⟩
      · rw [hpair]
        exact parentBlock_mono (fun h => htable.mpr (.inr h)) (by simpa [hT] using hcur)
      · rw [hpair]
        exact hedges.mpr (.inr ⟨rfl, rfl, rfl⟩)
    · exact (hwf.placed hm).mono (fun h => htable.mpr (.inr h)) (fun h => hedges.mpr (.inl h))
  · intro v n
    by_cases hn : n = t.next
    · -- only the worker is on the new block, and no other table reaches it
      subst hn
      rw [hnodes, if_pos rfl, Finset.mem_singleton]
      constructor
      · rintro rfl
        exact ⟨b.blockHash, htable.mpr (.inl ⟨rfl, rfl, rfl⟩)⟩
      · rintro ⟨x, hx⟩
        rcases htable.mp hx with ⟨rfl, -, -⟩ | hx
        · rfl
        · exact absurd (hwf.lookup_lt hx).2 (by simp [hT])
    · have hworkers : (T'.nodes n).workers = (T.nodes n).workers := by
        rw [hnodes, if_neg hn]
        by_cases hnc : n = current
        · subst hnc
          simp [hT]
        · simp [hT, hnc]
      rw [hworkers, hwf.mem_workers]
      constructor
      · rintro ⟨x, hx⟩
        exact ⟨x, htable.mpr (.inr hx)⟩
      · rintro ⟨x, hx⟩
        rcases htable.mp hx with ⟨-, -, rfl⟩ | hx
        · exact absurd rfl hn
        · exact ⟨x, hx⟩

/-- One pass of the `Stored` loop keeps the invariant and records the block.
    The table entry of a new hash can only be missing from the children too,
    so the branch that re-attaches a table entry is never taken, and the
    block is always above `current`, so `borrow_mut` never panics. -/
theorem storeBlock_wf (hwf : Wf π (t.insertLookup w wl))
    (hcur : parentBlock wl parent = some current)
    (hpair : π w b.blockHash = (parent, b.tokensHash)) :
    ∃ t' wl' block, storeBlock w (t, wl, current) b = .ok (t', wl', block) ∧
      Wf π (t'.insertLookup w wl') ∧ wl'.lookup b.blockHash = some block ∧
      ∀ x ∈ wl', x ∈ wl ∨ x = b.blockHash := by
  have hmem : ∀ {n}, ∀ x ∈ wl.insert b.blockHash n, x ∈ wl ∨ x = b.blockHash := by
    intro n x hx
    rcases (AList.mem_insert _).mp hx with rfl | hx
    · exact .inr rfl
    · exact .inl hx
  cases hchild : (t.nodes current).children.lookup b.tokensHash with
  | some block =>
      have hne : block ≠ current := Nat.ne_of_gt (hwf.child_lt (by simpa using hchild)).1
      exact ⟨_, _, block, storeBlock_of_child w t wl hchild hne,
        wf_storeBlock_child hwf hcur hpair hchild, AList.lookup_insert _, hmem⟩
  | none =>
      cases hwl : wl.lookup b.blockHash with
      | some y =>
          -- a held hash is placed under `current`, so the child exists
          exfalso
          have hy : ((t.insertLookup w wl).lookupOf w).lookup b.blockHash = some y := by
            simpa using hwl
          rcases hwf.placed hy with ⟨p, hp, hedge⟩
          rw [hpair] at hp hedge
          simp only [lookupOf_insertLookup, if_true, hcur, Option.some.injEq,
            nodes_insertLookup] at hp hedge
          subst hp
          rw [hchild] at hedge
          cases hedge
      | none =>
          have hne : t.next ≠ current := Nat.ne_of_gt (hwf.current_lt hcur)
          exact ⟨_, _, t.next, storeBlock_of_new w t wl hchild hwl hne,
            wf_storeBlock_new hwf hcur hpair hchild hwl, AList.lookup_insert _, hmem⟩

/-- The `Stored` loop: every block goes under the one before it. -/
theorem storeBlocks_wf : ∀ (blocks : List KvCacheStoredBlockData) (t : RadixTree)
    (wl : WorkerLookup) (current : Nat) (parent : Option ExternalSequenceBlockHash),
    Wf π (t.insertLookup w wl) → parentBlock wl parent = some current →
    (∀ x ∈ storedPairs parent blocks, π w x.1 = x.2) →
    ∃ t' wl' last, blocks.foldlM (storeBlock w) (t, wl, current) = .ok (t', wl', last) ∧
      Wf π (t'.insertLookup w wl') ∧
      ∀ x ∈ wl', x ∈ wl ∨ x ∈ blocks.map KvCacheStoredBlockData.blockHash
  | [], t, wl, current, _, hwf, _, _ => ⟨t, wl, current, rfl, hwf, fun x hx => .inl hx⟩
  | b :: blocks, t, wl, current, parent, hwf, hcur, hpairs => by
      simp only [storedPairs, List.forall_mem_cons] at hpairs
      rcases storeBlock_wf hwf hcur hpairs.1 with ⟨t₁, wl₁, block, hstep, hwf₁, hblock, hmem₁⟩
      -- the next block goes under this one
      have hcur₁ : parentBlock wl₁ (some b.blockHash) = some block := hblock
      rcases storeBlocks_wf blocks t₁ wl₁ block (some b.blockHash) hwf₁ hcur₁ hpairs.2 with
        ⟨t', wl', last, hrest, hwf', hmem'⟩
      refine ⟨t', wl', last, ?_, hwf', ?_⟩
      · rw [List.foldlM_cons, hstep]
        exact hrest
      · intro x hx
        rcases hmem' x hx with hx | hx
        · rcases hmem₁ x hx with hx | rfl
          · exact .inl hx
          · exact .inr (by simp)
        · exact .inr (by simp [hx])

end Store

section Remove

variable {π : StoredPairs} {w : WorkerId} {t : RadixTree} {wl : WorkerLookup}

/-- One pass of the `Removed` loop keeps the invariant, provided no other
    hash of the table is stored under the removed one: the block of the
    removed hash is in no other entry of the table, and its children, when it
    empties, are the place of no held hash. -/
theorem removeBlock_wf (hinj : Function.Injective (π w)) (hwf : Wf π (t.insertLookup w wl))
    (h : ExternalSequenceBlockHash) (hleaf : ∀ c ∈ wl, c ≠ h → (π w c).1 ≠ some h) :
    Wf π ((removeBlock w (t, wl) h).1.insertLookup w (removeBlock w (t, wl) h).2) := by
  cases hn : wl.lookup h with
  | none =>
      rw [removeBlock_of_none w t wl hn]
      exact hwf
  | some n =>
      rw [removeBlock_of_some w t wl hn]
      set T := t.insertLookup w wl with hT
      set T' := (t.modify n fun r =>
        { children := if r.workers.erase w = ∅ then ∅ else r.children,
          workers := r.workers.erase w }).insertLookup w (wl.erase h) with hT'
      have hnT : (T.lookupOf w).lookup h = some n := by simpa [hT] using hn
      have hworkers : ∀ m, (T'.nodes m).workers =
          if m = n then (T.nodes n).workers.erase w else (T.nodes m).workers := by
        intro m
        by_cases hm : m = n
        · simp [hT, hT', hm]
        · simp [hT, hT', hm]
      -- a kept edge: any block but `n`, or `n` while a worker is left on it
      have hkeep : ∀ {m k c}, (T.nodes m).children.lookup k = some c →
          (m ≠ n ∨ (T.nodes n).workers.erase w ≠ ∅) →
          (T'.nodes m).children.lookup k = some c := by
        intro m k c hedge hcase
        by_cases hm : m = n
        · subst hm
          have hleft : (T.nodes m).workers.erase w ≠ ∅ := hcase.resolve_left (not_not.mpr rfl)
          have hleft' : (t.nodes m).workers.erase w ≠ ∅ := by simpa [hT] using hleft
          simpa [hT, hT', hleft'] using hedge
        · simpa [hT, hT', hm] using hedge
      have hsub : ∀ {m k c}, (T'.nodes m).children.lookup k = some c →
          (T.nodes m).children.lookup k = some c := by
        intro m k c hedge
        by_cases hm : m = n
        · subst hm
          by_cases hleft : (t.nodes m).workers.erase w = ∅
          · simp [hT', hleft] at hedge
          · simpa [hT, hT', hleft] using hedge
        · simpa [hT, hT', hm] using hedge
      have htable : ∀ {v x m}, (T'.lookupOf v).lookup x = some m ↔
          (v = w → x ≠ h) ∧ (T.lookupOf v).lookup x = some m := by
        intro v x m
        by_cases hv : v = w
        · subst hv
          by_cases hx : x = h
          · subst hx
            simp [hT, hT', AList.lookup_erase]
          · simp [hT, hT', AList.lookup_erase_ne hx, hx]
        · simp [hT, hT', hv]
      -- an entry of the worker's table is a hash of `wl`
      have hheld : ∀ {x m}, (T.lookupOf w).lookup x = some m → x ∈ wl := by
        intro x m hx
        have hx' : wl.lookup x = some m := by simpa [hT] using hx
        exact AList.lookup_isSome.mp (by rw [hx']; rfl)
      refine ⟨hwf.toForest.of_edges_sub rfl hsub, ?_, ?_⟩
      · intro v x m hm
        rcases htable.mp hm with ⟨hxh, hmT⟩
        rcases hwf.placed hmT with ⟨p, hparent, hedge⟩
        refine ⟨p, ?_, hkeep hedge ?_⟩
        · -- the parent hash is still in the table
          cases hpar : (π v x).1 with
          | none => simpa [hpar] using hparent
          | some q =>
              rw [hpar, parentBlock_some] at hparent
              rw [parentBlock_some]
              refine htable.mpr ⟨?_, hparent⟩
              rintro rfl rfl
              exact hleaf x (hheld hmT)
                (hxh rfl) hpar
        · -- the parent block keeps its children
          by_cases hpn : p = n
          · subst hpn
            right
            cases hpar : (π v x).1 with
            | none =>
                simp only [hpar, parentBlock_none, Option.some.injEq] at hparent
                exact absurd (hwf.lookup_lt hnT).1 (hparent ▸ lt_irrefl _)
            | some q =>
                simp only [hpar, parentBlock_some] at hparent
                have hv : v ∈ (T.nodes p).workers := hwf.mem_workers.mpr ⟨q, hparent⟩
                by_cases hvw : v = w
                · subst hvw
                  have hq : q = h := hwf.lookup_inj hinj hparent hnT
                  subst hq
                  exact absurd hpar (hleaf x (hheld hmT)
                    (hxh rfl))
                · exact Finset.ne_empty_of_mem (Finset.mem_erase.mpr ⟨hvw, hv⟩)
          · exact .inl hpn
      · intro v m
        rw [hworkers]
        by_cases hm : m = n
        · subst hm
          rw [if_pos rfl]
          by_cases hvw : v = w
          · -- the worker leaves the block, and no other entry points there
            subst hvw
            simp only [Finset.mem_erase, ne_eq, not_true_eq_false, false_and, false_iff]
            rintro ⟨x, hx⟩
            rcases htable.mp hx with ⟨hxh, hx⟩
            exact hxh rfl (hwf.lookup_inj hinj hx hnT)
          · rw [Finset.mem_erase, hwf.mem_workers]
            simp only [ne_eq, hvw, not_false_eq_true, true_and]
            constructor
            · rintro ⟨x, hx⟩
              exact ⟨x, htable.mpr ⟨fun h => absurd h hvw, hx⟩⟩
            · rintro ⟨x, hx⟩
              exact ⟨x, (htable.mp hx).2⟩
        · rw [if_neg hm, hwf.mem_workers]
          constructor
          · rintro ⟨x, hx⟩
            refine ⟨x, htable.mpr ⟨?_, hx⟩⟩
            rintro rfl rfl
            exact hm (Option.some.inj (hx.symm.trans hnT))
          · rintro ⟨x, hx⟩
            exact ⟨x, (htable.mp hx).2⟩

theorem mem_removeBlock {h x : ExternalSequenceBlockHash} (hx : x ∈ (removeBlock w (t, wl) h).2) :
    x ∈ wl ∧ x ≠ h := by
  cases hn : wl.lookup h with
  | none =>
      rw [removeBlock_of_none w t wl hn] at hx
      refine ⟨hx, ?_⟩
      rintro rfl
      exact AList.lookup_eq_none.mp hn hx
  | some n =>
      rw [removeBlock_of_some w t wl hn] at hx
      exact (AList.mem_erase.mp hx).symm

/-- The `Removed` loop, with the hashes the worker holds taken off alongside. -/
theorem removeBlocks_wf (hinj : Function.Injective (π w)) :
    ∀ (hashes : List ExternalSequenceBlockHash) (t : RadixTree) (wl : WorkerLookup)
      (held : Finset ExternalSequenceBlockHash),
    Wf π (t.insertLookup w wl) → (∀ x ∈ wl, x ∈ held) → LeafRemovals π w held hashes →
    Wf π ((hashes.foldl (removeBlock w) (t, wl)).1.insertLookup w
        (hashes.foldl (removeBlock w) (t, wl)).2) ∧
      ∀ x ∈ (hashes.foldl (removeBlock w) (t, wl)).2, x ∈ hashes.foldl Finset.erase held
  | [], _, _, _, hwf, hcov, _ => ⟨hwf, hcov⟩
  | h :: hashes, t, wl, held, hwf, hcov, hleaf => by
      rcases hleaf with ⟨hhere, hrest⟩
      have hwf₁ := removeBlock_wf hinj hwf h fun c hc hch =>
        hhere c (Finset.mem_erase.mpr ⟨hch, hcov c hc⟩)
      have hcov₁ : ∀ x ∈ (removeBlock w (t, wl) h).2, x ∈ held.erase h := by
        intro x hx
        rcases mem_removeBlock hx with ⟨hx, hxh⟩
        exact Finset.mem_erase.mpr ⟨hxh, hcov x hx⟩
      simpa only [List.foldl_cons] using
        removeBlocks_wf hinj hashes _ _ (held.erase h) hwf₁ hcov₁ hrest

end Remove

section Run

variable {π : StoredPairs} {t : RadixTree}

/-- `remove_worker` keeps the invariant: it takes the worker off exactly the
    blocks its table points to. -/
theorem removeWorker_wf (hwf : Wf π t) (w : WorkerId) : Wf π (t.removeWorker w) := by
  -- a block of the table loses the worker, any other block stays as it was
  have hblock : ∀ n, ((t.removeWorker w).nodes n).children = (t.nodes n).children ∧
      ∀ v, v ∈ ((t.removeWorker w).nodes n).workers ↔ v ≠ w ∧ v ∈ (t.nodes n).workers := by
    intro n
    by_cases hn : ∃ h, (t.lookupOf w).lookup h = some n
    · rcases hn with ⟨h, hn⟩
      rw [nodes_removeWorker_of_lookup t w hn]
      exact ⟨rfl, fun v => Finset.mem_erase⟩
    · rw [nodes_removeWorker_of_forall t w fun h hh => hn ⟨h, hh⟩]
      refine ⟨rfl, fun v => ⟨fun hv => ⟨?_, hv⟩, fun hv => hv.2⟩⟩
      rintro rfl
      exact hn (hwf.mem_workers.mp hv)
  have hedges : ∀ {m k c}, ((t.removeWorker w).nodes m).children.lookup k = some c ↔
      (t.nodes m).children.lookup k = some c := by
    intro m k c
    rw [(hblock m).1]
  refine ⟨hwf.toForest.of_edges_sub (next_removeWorker t w) hedges.mp, ?_, ?_⟩
  · intro v h n hn
    by_cases hvw : v = w
    · subst hvw
      simp at hn
    · have hn' : (t.lookupOf v).lookup h = some n := by simpa [hvw] using hn
      exact (hwf.placed hn').mono (fun hx => by simpa [hvw] using hx) hedges.mpr
  · intro v n
    rw [(hblock n).2, lookupOf_removeWorker]
    by_cases hvw : v = w
    · -- the worker is on no block any more
      subst hvw
      simp
    · rw [if_neg hvw, ← hwf.mem_workers]
      exact ⟨fun hv => hv.2, fun hv => ⟨hvw, hv⟩⟩

/-- `apply_event` keeps the invariant, and the tables stay among the hashes
    the workers hold. -/
theorem applyEvent_wf (hinj : ∀ w, Function.Injective (π w)) (hwf : Wf π t)
    {held : WorkerId → Finset ExternalSequenceBlockHash} (hcov : Covers held t)
    (event : RouterEvent) (hstores : event.event.data.StoresWith π event.workerId)
    (hleaf : event.event.data.LeafFirst π event.workerId (held event.workerId)) :
    ∃ t', t.applyEvent event = .ok t' ∧ Wf π t' ∧
      Covers (Function.update held event.workerId
        (event.event.data.heldAfter (held event.workerId))) t' := by
  rcases event with ⟨w, eventId, data⟩
  -- the worker's own table, put back, changes nothing yet
  have hwf₀ : Wf π (t.insertLookup w (t.lookupOf w)) :=
    hwf.of_eq rfl rfl fun v => by by_cases hv : v = w <;> simp [hv]
  have hcov' : ∀ {held' : Finset ExternalSequenceBlockHash} {t' : RadixTree}
      {wl' : WorkerLookup}, (∀ v, v ≠ w → t'.lookupOf v = t.lookupOf v) →
      (∀ x ∈ wl', x ∈ held') →
      Covers (Function.update held w held') (t'.insertLookup w wl') := by
    intro held' t' wl' hothers hwl' v x hx
    by_cases hv : v = w
    · subst hv
      simp only [lookupOf_insertLookup, if_true] at hx
      simpa using hwl' x hx
    · simp only [lookupOf_insertLookup, if_neg hv, hothers v hv] at hx
      simpa [hv] using hcov v x hx
  cases data with
  | stored op =>
      simp only [KvCacheEventData.heldAfter]
      cases hpb : parentBlock (t.lookupOf w) op.parentHash with
      | none =>
          refine ⟨t.insertLookup w (t.lookupOf w), by simp [applyEvent, hpb], hwf₀, ?_⟩
          exact hcov' (fun _ _ => rfl) fun x hx => Finset.mem_union_left _ (hcov w x hx)
      | some current =>
          rcases storeBlocks_wf op.blocks t (t.lookupOf w) current op.parentHash hwf₀ hpb hstores with
            ⟨t', wl', last, hfold, hwf', hmem'⟩
          refine ⟨t'.insertLookup w wl', by simp [applyEvent, hpb, hfold, Except.map], hwf', ?_⟩
          refine hcov' (fun v hv => ?_) fun x hx => ?_
          · -- the loop keeps the other tables
            have hlookup : t'.lookup = t.lookup :=
              lookup_foldlM_storeBlock w op.blocks t (t.lookupOf w) current hfold
            simp only [lookupOf, hlookup]
          · rcases hmem' x hx with hx | hx
            · exact Finset.mem_union_left _ (hcov w x hx)
            · exact Finset.mem_union_right _ (List.mem_toFinset.mpr hx)
  | removed op =>
      have hcovw : ∀ x ∈ t.lookupOf w, x ∈ held w := hcov w
      rcases removeBlocks_wf (hinj w) op.blockHashes t (t.lookupOf w) (held w) hwf₀ hcovw hleaf with
        ⟨hwf', hmem'⟩
      refine ⟨_, rfl, hwf', ?_⟩
      refine hcov' (fun v hv => ?_) hmem'
      simp only [lookupOf, lookup_foldl_removeBlock]

/-- Every run of calls keeps the invariant, and none panics. -/
theorem applyCalls_wf (hinj : ∀ w, Function.Injective (π w)) :
    ∀ (calls : List TreeCall) (t : RadixTree) (held : WorkerId → Finset ExternalSequenceBlockHash),
    Wf π t → Covers held t → (∀ c ∈ calls, c.StoresWith π) → RemovesLeafFirst π held calls →
    ∃ t', t.applyCalls calls = .ok t' ∧ Wf π t'
  | [], t, _, hwf, _, _, _ => ⟨t, rfl, hwf⟩
  | .applyEvent event :: calls, t, held, hwf, hcov, hstores, hleaf => by
      rw [List.forall_mem_cons] at hstores
      rcases hleaf with ⟨hhere, hrest⟩
      rcases applyEvent_wf hinj hwf hcov event hstores.1 hhere with ⟨t₁, hstep, hwf₁, hcov₁⟩
      rcases applyCalls_wf hinj calls t₁ _ hwf₁ hcov₁ hstores.2 hrest with ⟨t', hrun, hwf'⟩
      exact ⟨t', by simp [applyCalls, hstep, hrun], hwf'⟩
  | .removeWorker w :: calls, t, held, hwf, hcov, hstores, hleaf => by
      rw [List.forall_mem_cons] at hstores
      have hcov₁ : Covers (Function.update held w ∅) (t.removeWorker w) := by
        intro v x hx
        by_cases hv : v = w
        · subst hv
          simp at hx
        · simpa [hv] using hcov v x (by simpa [hv] using hx)
      exact applyCalls_wf hinj calls (t.removeWorker w) _ (removeWorker_wf hwf w) hcov₁ hstores.2 hleaf

end Run

section Scores

variable {π : StoredPairs} {t : RadixTree}

/-- A walk only goes up in address. -/
theorem Forest.lt_of_mem_matchPath (hF : Forest t) :
    ∀ {sequence : List LocalBlockHash} {current n : Nat},
    n ∈ t.matchPath current sequence → current < n
  | [], _, _, h => by simp [matchPath] at h
  | blockHash :: sequence, current, n, h => by
      unfold matchPath at h
      cases hc : (t.nodes current).children.lookup blockHash with
      | none => simp [hc] at h
      | some block =>
          simp only [hc, List.mem_cons] at h
          have hlt := (hF.child_lt hc).1
          rcases h with rfl | h
          · exact hlt
          · exact Nat.lt_trans hlt (hF.lt_of_mem_matchPath h)

/-- So a walk never visits a block twice. -/
theorem Forest.nodup_matchPath (hF : Forest t) :
    ∀ (sequence : List LocalBlockHash) (current : Nat), (t.matchPath current sequence).Nodup
  | [], _ => by simp [matchPath]
  | blockHash :: sequence, current => by
      unfold matchPath
      cases hc : (t.nodes current).children.lookup blockHash with
      | none => simp
      | some block =>
          rw [List.nodup_cons]
          exact ⟨fun h => lt_irrefl _ (hF.lt_of_mem_matchPath h), hF.nodup_matchPath sequence block⟩

/-- A worker's score counts distinct blocks its table points to, so it is
    at most the number of entries of the table. -/
theorem Wf.scores_le (hwf : Wf π t) (sequence : List LocalBlockHash) (w : WorkerId) :
    (t.findMatches sequence false).scores w ≤ (t.lookupOf w).entries.length := by
  rw [findMatches, findMatchesFrom_scores]
  have hpath := hwf.nodup_matchPath sequence root
  have hsub : (t.matchPath root sequence).filter (fun n => w ∈ (t.nodes n).workers) ⊆
      (t.lookupOf w).entries.map Sigma.snd := by
    intro n hn
    rw [List.mem_filter, decide_eq_true_eq] at hn
    rcases hwf.mem_workers.mp hn.2 with ⟨h, hh⟩
    exact List.mem_map.mpr ⟨⟨h, n⟩, AList.mem_lookup_iff.mp hh, rfl⟩
  calc OverlapScores.new.scores w + (t.matchPath root sequence).countP _
      = ((t.matchPath root sequence).filter fun n => w ∈ (t.nodes n).workers).length := by
        simp [OverlapScores.new, List.countP_eq_length_filter]
    _ ≤ ((t.lookupOf w).entries.map Sigma.snd).length := ((hpath.filter _).subperm hsub).length_le
    _ = (t.lookupOf w).entries.length := List.length_map _

end Scores

section Removed

variable {t t' : RadixTree}

/-- An event of one worker leaves the other tables alone. -/
theorem lookupOf_applyEvent_of_ne {event : RouterEvent} (h : t.applyEvent event = .ok t')
    {w : WorkerId} (hw : w ≠ event.workerId) : t'.lookupOf w = t.lookupOf w := by
  rcases event with ⟨v, eventId, data⟩
  cases data with
  | stored op =>
      simp only [applyEvent] at h
      cases hpb : parentBlock (t.lookupOf v) op.parentHash with
      | none =>
          simp only [hpb, Except.ok.injEq] at h
          rw [← h, lookupOf_insertLookup, if_neg hw]
      | some current =>
          simp only [hpb] at h
          cases hfold : op.blocks.foldlM (storeBlock v) (t, t.lookupOf v, current) with
          | error e => simp [hfold, Except.map] at h
          | ok r =>
              rcases r with ⟨t₁, wl₁, last⟩
              simp only [hfold, Except.map, Except.ok.injEq] at h
              rw [← h, lookupOf_insertLookup, if_neg hw]
              simp only [lookupOf, lookup_foldlM_storeBlock v op.blocks t _ current hfold]
  | removed op =>
      simp only [applyEvent, Except.ok.injEq] at h
      rw [← h, lookupOf_insertLookup, if_neg hw]
      simp only [lookupOf, lookup_foldl_removeBlock]

/-- A `Removed` event on an empty table finds nothing to remove. -/
theorem foldl_removeBlock_empty (w : WorkerId) :
    ∀ (hashes : List ExternalSequenceBlockHash) (t : RadixTree),
    hashes.foldl (removeBlock w) (t, ∅) = (t, ∅)
  | [], _ => rfl
  | hash :: hashes, t => by
      rw [List.foldl_cons, removeBlock_of_none w t ∅ (AList.lookup_empty hash),
        foldl_removeBlock_empty w hashes t]

theorem applyCalls_append (pre post : List TreeCall) :
    ∀ t : RadixTree, t.applyCalls (pre ++ post) = t.applyCalls pre >>= fun t => t.applyCalls post := by
  induction pre with
  | nil => intro t; rfl
  | cons call pre ih =>
      intro t
      cases call with
      | applyEvent event =>
          simp only [List.cons_append, applyCalls]
          cases t.applyEvent event with
          | error a => rfl
          | ok t₁ => exact ih t₁
      | removeWorker w => exact ih (t.removeWorker w)

/-- Once its table is empty, a worker that stores nothing keeps it empty. -/
theorem applyCalls_lookupOf_empty (w : WorkerId) :
    ∀ (calls : List TreeCall) (t t' : RadixTree), t.lookupOf w = ∅ →
    (∀ eventId op, TreeCall.applyEvent ⟨w, ⟨eventId, .stored op⟩⟩ ∉ calls) →
    t.applyCalls calls = .ok t' → t'.lookupOf w = ∅
  | [], t, t', hempty, _, h => by
      cases h
      exact hempty
  | .applyEvent event :: calls, t, t', hempty, hnone, h => by
      simp only [applyCalls] at h
      cases hstep : t.applyEvent event with
      | error a => simp [hstep] at h
      | ok t₁ =>
          simp only [hstep] at h
          have hrest : ∀ eventId op, TreeCall.applyEvent ⟨w, ⟨eventId, .stored op⟩⟩ ∉ calls :=
            fun eventId op hmem => hnone eventId op (List.mem_cons_of_mem _ hmem)
          refine applyCalls_lookupOf_empty w calls t₁ t' ?_ hrest h
          by_cases hw : w = event.workerId
          · -- the worker's own event can only be a removal, which finds nothing
            rcases event with ⟨v, eventId, data⟩
            simp only at hw
            subst hw
            cases data with
            | stored op => exact absurd (List.mem_cons_self ..) (hnone eventId op)
            | removed op =>
                simp only [applyEvent, hempty, foldl_removeBlock_empty, Except.ok.injEq] at hstep
                rw [← hstep, lookupOf_insertLookup, if_pos rfl]
          · rw [lookupOf_applyEvent_of_ne hstep hw, hempty]
  | .removeWorker v :: calls, t, t', hempty, hnone, h => by
      simp only [applyCalls] at h
      refine applyCalls_lookupOf_empty w calls _ t' ?_
        (fun eventId op hmem => hnone eventId op (List.mem_cons_of_mem _ hmem)) h
      rw [lookupOf_removeWorker]
      split
      · rfl
      · exact hempty

end Removed

theorem wf_new (π : StoredPairs) : Wf π new where
  root_lt := Nat.zero_lt_one
  child_lt := by simp [RadixBlock.new]
  child_inj := by simp [RadixBlock.new]
  placed := by simp
  mem_workers := by simp [RadixBlock.new]

/-- When every worker stores each hash under one pair, distinct hashes under
    distinct pairs, and removes its hashes leaves first, a run never panics,
    a worker is on exactly the blocks its table points to, and those hang
    under the root; a score is bounded by the query and by the worker's
    table, and a removed worker scores nothing, with or without early exit,
    until it stores again. -/
theorem radixTree_worker_membership (π : StoredPairs) (hinj : ∀ w, Function.Injective (π w))
    (calls : List TreeCall) (hstores : ∀ c ∈ calls, c.StoresWith π)
    (hleaf : RemovesLeafFirst π (fun _ => ∅) calls) :
    ∃ t, new.applyCalls calls = .ok t ∧
      (∀ w n, w ∈ (t.nodes n).workers ↔ ∃ h, (t.lookupOf w).lookup h = some n) ∧
      (∀ w h n, (t.lookupOf w).lookup h = some n → Reachable t n) ∧
      (∀ sequence w, (t.findMatches sequence false).scores w ≤ sequence.length ∧
        (t.findMatches sequence false).scores w ≤ (t.lookupOf w).entries.length) ∧
      ∀ pre post w, calls = pre ++ .removeWorker w :: post →
        (∀ eventId op, TreeCall.applyEvent ⟨w, ⟨eventId, .stored op⟩⟩ ∉ post) →
        ∀ sequence earlyExit, (t.findMatches sequence earlyExit).scores w = 0 := by
  have hcov : Covers (fun _ => ∅) new := by
    intro w h hh
    simp at hh
  rcases applyCalls_wf hinj calls new _ (wf_new π) hcov hstores hleaf with ⟨t, hrun, hwf⟩
  refine ⟨t, hrun, fun w n => hwf.mem_workers, fun w h n hn => hwf.reachable_of_lookup hn,
    fun sequence w => ⟨findMatches_scores_le_length t sequence w, hwf.scores_le sequence w⟩, ?_⟩
  intro pre post w hcalls hpost sequence earlyExit
  -- from the removal on, the worker's table stays empty
  rw [hcalls, applyCalls_append] at hrun
  rcases Except.bind_eq_ok hrun with ⟨t₁, -, hrest⟩
  have hempty : t.lookupOf w = ∅ :=
    applyCalls_lookupOf_empty w post (t₁.removeWorker w) t (by simp) hpost hrest
  have hle := hwf.scores_le sequence w
  rw [hempty] at hle
  have hzero : (t.findMatches sequence false).scores w = 0 := Nat.le_zero.mp hle
  -- early exit walks a prefix of the same path
  cases earlyExit with
  | false => exact hzero
  | true => exact Nat.le_zero.mp (hzero ▸ findMatches_true_scores_le t sequence w)

/-- Pairs whose tokens hash repeats the block hash are distinct for distinct
    hashes, whatever the parents. -/
theorem injective_of_tokensHash_val
    (parent : ExternalSequenceBlockHash → Option ExternalSequenceBlockHash) :
    Function.Injective fun h => (parent h, (⟨h.val⟩ : LocalBlockHash)) := by
  intro a b hab
  have hval : a.val = b.val := congrArg (fun p => LocalBlockHash.val p.2) hab
  cases a
  cases b
  simp only at hval
  rw [hval]

theorem radixTree_worker_membership_chain :
    Function.Injective (fun h : ExternalSequenceBlockHash =>
      ((if h = ⟨2⟩ then some ⟨1⟩ else none : Option ExternalSequenceBlockHash),
        (⟨h.val⟩ : LocalBlockHash))) ∧
    ∃ t, new.applyCalls
        [.applyEvent ⟨1, ⟨0, .stored ⟨none, [⟨⟨1⟩, ⟨1⟩⟩, ⟨⟨2⟩, ⟨2⟩⟩]⟩⟩⟩,
          .applyEvent ⟨1, ⟨1, .removed ⟨[⟨2⟩, ⟨1⟩]⟩⟩⟩, .removeWorker 1] = .ok t ∧
      (∀ w n, w ∈ (t.nodes n).workers ↔ ∃ h, (t.lookupOf w).lookup h = some n) ∧
      (∀ w h n, (t.lookupOf w).lookup h = some n → Reachable t n) ∧
      (∀ sequence w, (t.findMatches sequence false).scores w ≤ sequence.length ∧
        (t.findMatches sequence false).scores w ≤ (t.lookupOf w).entries.length) ∧
      ∀ pre post w,
        [TreeCall.applyEvent ⟨1, ⟨0, .stored ⟨none, [⟨⟨1⟩, ⟨1⟩⟩, ⟨⟨2⟩, ⟨2⟩⟩]⟩⟩⟩,
          .applyEvent ⟨1, ⟨1, .removed ⟨[⟨2⟩, ⟨1⟩]⟩⟩⟩, .removeWorker 1] =
          pre ++ .removeWorker w :: post →
        (∀ eventId op, TreeCall.applyEvent ⟨w, ⟨eventId, .stored op⟩⟩ ∉ post) →
        ∀ sequence earlyExit, (t.findMatches sequence earlyExit).scores w = 0 := by
  -- the pairs are told apart by their tokens hash
  have hinj := injective_of_tokensHash_val fun h => if h = ⟨2⟩ then some ⟨1⟩ else none
  exact ⟨hinj, radixTree_worker_membership _ (fun _ => hinj) _ (by decide) (by decide)⟩

/-- The pairs being a function of the hash is not enough. A worker that
    stores two hashes under one pair and removes one is no longer on the
    block its table still points to. With distinct pairs, two workers that
    both remove a shared parent before its child empty the parent, and when
    the path is stored again, one of them stays on its old child, which the
    other worker's table still reaches but its own does not. -/
theorem radixTree_membership_counterexample :
    ((∀ c ∈ [TreeCall.applyEvent ⟨0, ⟨0, .stored ⟨none, [⟨⟨1⟩, ⟨5⟩⟩]⟩⟩⟩,
        .applyEvent ⟨0, ⟨1, .stored ⟨none, [⟨⟨2⟩, ⟨5⟩⟩]⟩⟩⟩,
        .applyEvent ⟨0, ⟨2, .removed ⟨[⟨1⟩]⟩⟩⟩], c.StoresWith fun _ _ => (none, ⟨5⟩)) ∧
      ∃ t, new.applyCalls
          [.applyEvent ⟨0, ⟨0, .stored ⟨none, [⟨⟨1⟩, ⟨5⟩⟩]⟩⟩⟩,
            .applyEvent ⟨0, ⟨1, .stored ⟨none, [⟨⟨2⟩, ⟨5⟩⟩]⟩⟩⟩,
            .applyEvent ⟨0, ⟨2, .removed ⟨[⟨1⟩]⟩⟩⟩] = .ok t ∧
        (t.lookupOf 0).lookup ⟨2⟩ = some 1 ∧ 0 ∉ (t.nodes 1).workers) ∧
    (Function.Injective (fun h : ExternalSequenceBlockHash =>
        if h = ⟨2⟩ then ((some ⟨0⟩, ⟨1⟩) : Option ExternalSequenceBlockHash × LocalBlockHash)
        else (none, ⟨h.val⟩)) ∧
      (∀ c ∈ [TreeCall.applyEvent ⟨1, ⟨0, .stored ⟨none, [⟨⟨0⟩, ⟨0⟩⟩, ⟨⟨2⟩, ⟨1⟩⟩]⟩⟩⟩,
          .applyEvent ⟨2, ⟨0, .stored ⟨none, [⟨⟨0⟩, ⟨0⟩⟩, ⟨⟨2⟩, ⟨1⟩⟩]⟩⟩⟩,
          .applyEvent ⟨1, ⟨1, .removed ⟨[⟨0⟩]⟩⟩⟩, .applyEvent ⟨2, ⟨1, .removed ⟨[⟨0⟩]⟩⟩⟩,
          .applyEvent ⟨0, ⟨0, .stored ⟨none, [⟨⟨0⟩, ⟨0⟩⟩, ⟨⟨2⟩, ⟨1⟩⟩]⟩⟩⟩,
          .applyEvent ⟨1, ⟨2, .stored ⟨none, [⟨⟨0⟩, ⟨0⟩⟩, ⟨⟨2⟩, ⟨1⟩⟩]⟩⟩⟩],
        c.StoresWith fun _ h =>
          if h = ⟨2⟩ then ((some ⟨0⟩, ⟨1⟩) : Option ExternalSequenceBlockHash × LocalBlockHash)
          else (none, ⟨h.val⟩)) ∧
      ∃ t, new.applyCalls
          [.applyEvent ⟨1, ⟨0, .stored ⟨none, [⟨⟨0⟩, ⟨0⟩⟩, ⟨⟨2⟩, ⟨1⟩⟩]⟩⟩⟩,
            .applyEvent ⟨2, ⟨0, .stored ⟨none, [⟨⟨0⟩, ⟨0⟩⟩, ⟨⟨2⟩, ⟨1⟩⟩]⟩⟩⟩,
            .applyEvent ⟨1, ⟨1, .removed ⟨[⟨0⟩]⟩⟩⟩, .applyEvent ⟨2, ⟨1, .removed ⟨[⟨0⟩]⟩⟩⟩,
            .applyEvent ⟨0, ⟨0, .stored ⟨none, [⟨⟨0⟩, ⟨0⟩⟩, ⟨⟨2⟩, ⟨1⟩⟩]⟩⟩⟩,
            .applyEvent ⟨1, ⟨2, .stored ⟨none, [⟨⟨0⟩, ⟨0⟩⟩, ⟨⟨2⟩, ⟨1⟩⟩]⟩⟩⟩] = .ok t ∧
        (t.lookupOf 2).lookup ⟨2⟩ = some 2 ∧ 1 ∈ (t.nodes 2).workers ∧
          2 ∉ (t.lookupOf 1).entries.map Sigma.snd) := by
  -- the second run's pairs: only hash `2` has a parent
  have hinj : Function.Injective (fun h : ExternalSequenceBlockHash =>
      if h = ⟨2⟩ then ((some ⟨0⟩, ⟨1⟩) : Option ExternalSequenceBlockHash × LocalBlockHash)
      else (none, ⟨h.val⟩)) := by
    intro a b hab
    by_cases ha : a = ⟨2⟩ <;> by_cases hb : b = ⟨2⟩
    · rw [ha, hb]
    · simp [ha, hb] at hab
    · simp [ha, hb] at hab
    · simp only [ha, hb, if_false, Prod.mk.injEq, true_and, LocalBlockHash.mk.injEq] at hab
      cases a
      cases b
      simp only at hab
      rw [hab]
  exact ⟨⟨by decide, _, rfl, by decide⟩, hinj, by decide, _, rfl, by decide⟩

end RadixTree

end KvRouter

end Dynamo
