import Dynamo.Tokens.Sequence

/-!
# A Token Block Sequence Refines Its Token List

`TokenBlockSequence` is a list of tokens kept in hashed blocks. This module
says which list: every sequence built by `new` and changed by any finite run
of `extend`, `append`, `truncate`, `unwind` and `pop` holds exactly the list
the same operations build on a plain `List Token`, laid out as the bulk split
of that list would lay it out.

`Refines seq T` is that statement for one sequence. Its fields are the
layout: the committed blocks and the partial block concatenate to `T`, every
committed block holds `bs` tokens and the partial block at most `bs`, the
committed blocks are the first ones `split_tokens` makes of `T`, hashes
included, and the partial block's parent is the last committed block. The
partial block may be full, because `extend` commits lazily.

The proofs work with an equivalent internal form, `refines_of_split`: the
committed blocks are the split of the first `k * bs` tokens and the partial
block holds the rest. A commit moves one block from the partial side to the
committed side, which `splitBlocks_append_block` accounts for; pushing tokens
only extends the partial side. `extend`'s loop consumes at least one token per
pass, so its pass bound is never reached, and after a non-empty `extend` the
partial block is never empty, which is what bounds a single `append` to at
most one new block and keeps its `assert_eq!` from firing. `truncate` is the
arithmetic case: the block the cut falls in is found with `div_ceil`, and
the tokens it keeps are exactly the ones left before the cut.

## Main definitions

* `Refines`: A sequence lays out a token list as the bulk split would.
* `SeqOp`: The operations, with their arguments.
* `SeqOp.call`: Running an operation on a sequence.
* `SeqOp.onList`: What an operation does to a plain token list.
* `SeqOp.Meets`: The state and result a call must produce.
* `runCalls`: Running a list of operations.

## Theorems

* `refines_new`: A new sequence lays out its tokens.
* `extendLoop_spec`: The loop of `extend` appends every token it is given.
* `truncate_spec`: `truncate` keeps a prefix.
* `call_meets`: Every operation keeps the layout and returns what it should.
* `tokenBlockSequence_refines_list`: Every run refines the list run.
-/

namespace Dynamo

namespace Tokens

namespace TokenBlockSequence

section Refinement

variable (xxh3 : Xxh3) (bs : Nat) (salt : SaltHash)

/-- The sequence lays out the token list `T` in blocks of `bs` tokens salted
    with `salt`, as `split_tokens` would: the committed blocks are the first
    blocks of the split, whole and hashed, and the partial block holds what
    follows them. -/
structure Refines (seq : TokenBlockSequence) (T : List Token) : Prop where
  saltHash_eq : seq.saltHash = salt
  current_saltHash : seq.currentBlock.saltHash = salt
  current_blockSize : seq.currentBlock.blockSize = bs
  tokens_eq : (seq.blocks.map TokenBlock.tokens).flatten ++ seq.currentBlock.tokens = T
  block_length : ∀ b ∈ seq.blocks, b.tokens.length = bs
  current_length : seq.currentBlock.tokens.length ≤ bs
  blocks_eq : seq.blocks = (splitBlocks xxh3 T bs salt).take seq.blocks.length
  parent_eq : seq.currentBlock.parentSequenceHash = seq.blocks.getLast?.map (·.sequenceHash)

variable {xxh3 bs salt}

namespace Refines

variable {seq : TokenBlockSequence} {T : List Token}

theorem blocks_le (h : Refines xxh3 bs salt seq T) : seq.blocks.length ≤ T.length / bs := by
  have hlen := congrArg List.length h.blocks_eq
  rw [List.length_take, length_splitBlocks] at hlen
  omega

theorem blocks_eq_split (hbs : 0 < bs) (h : Refines xxh3 bs salt seq T) :
    seq.blocks = splitBlocks xxh3 (T.take (seq.blocks.length * bs)) bs salt := by
  rw [splitBlocks_take xxh3 hbs h.blocks_le]
  exact h.blocks_eq

theorem flatten_eq (hbs : 0 < bs) (h : Refines xxh3 bs salt seq T) :
    (seq.blocks.map TokenBlock.tokens).flatten = T.take (seq.blocks.length * bs) := by
  have hk : seq.blocks.length * bs ≤ T.length :=
    (Nat.le_div_iff_mul_le hbs).mp h.blocks_le
  conv_lhs => rw [h.blocks_eq_split hbs]
  rw [map_tokens_splitBlocks, List.flatten_chunksExact, List.length_take,
    Nat.min_eq_left hk, Nat.mul_div_cancel _ hbs, List.take_take, Nat.min_self]

theorem current_eq (hbs : 0 < bs) (h : Refines xxh3 bs salt seq T) :
    seq.currentBlock.tokens = T.drop (seq.blocks.length * bs) := by
  have ht := h.tokens_eq
  have hpre : (T.take (seq.blocks.length * bs)).length = seq.blocks.length * bs := by
    rw [List.length_take]
    exact Nat.min_eq_left ((Nat.le_div_iff_mul_le hbs).mp h.blocks_le)
  rw [h.flatten_eq hbs] at ht
  conv_rhs => rw [← ht]
  rw [List.drop_left' hpre]

theorem length_eq (hbs : 0 < bs) (h : Refines xxh3 bs salt seq T) :
    T.length = seq.blocks.length * bs + seq.currentBlock.tokens.length := by
  have hk : seq.blocks.length * bs ≤ T.length :=
    (Nat.le_div_iff_mul_le hbs).mp h.blocks_le
  rw [h.current_eq hbs, List.length_drop]
  omega

/-- `total_tokens()` counts the list. -/
theorem totalTokens_eq (hbs : 0 < bs) (h : Refines xxh3 bs salt seq T) :
    seq.totalTokens = T.length := by
  rw [totalTokens, PartialTokenBlock.len, h.current_blockSize, h.length_eq hbs]

/-- The `i`th committed block holds the `i`th `bs` tokens of the list. -/
theorem tokens_getElem (h : Refines xxh3 bs salt seq T) (i : Nat) (hi : i < seq.blocks.length) :
    seq.blocks[i].tokens = (T.drop (i * bs)).take bs := by
  have hsplit : i < (splitBlocks xxh3 T bs salt).length :=
    Nat.lt_of_lt_of_le hi (Nat.le_trans h.blocks_le (Nat.le_of_eq (length_splitBlocks xxh3 T bs salt).symm))
  rw [← tokens_getElem_splitBlocks xxh3 T bs salt i hsplit]
  congr 1
  conv_lhs => rw [List.getElem_of_eq h.blocks_eq hi]
  exact List.getElem_take

theorem remaining_eq (h : Refines xxh3 bs salt seq T) :
    seq.currentBlock.remaining = bs - seq.currentBlock.tokens.length := by
  rw [PartialTokenBlock.remaining, h.current_blockSize]

end Refines

/-- The internal form of `Refines`: the committed blocks split the first
    `k * bs` tokens and the partial block holds the rest. -/
theorem refines_of_split (hbs : 0 < bs) {seq : TokenBlockSequence} {T : List Token}
    (hsalt : seq.saltHash = salt) (hcsalt : seq.currentBlock.saltHash = salt)
    (hsize : seq.currentBlock.blockSize = bs)
    (hk : seq.blocks.length * bs ≤ T.length)
    (hblocks : seq.blocks = splitBlocks xxh3 (T.take (seq.blocks.length * bs)) bs salt)
    (hcur : seq.currentBlock.tokens = T.drop (seq.blocks.length * bs))
    (hlen : seq.currentBlock.tokens.length ≤ bs)
    (hparent : seq.currentBlock.parentSequenceHash =
      seq.blocks.getLast?.map (·.sequenceHash)) :
    Refines xxh3 bs salt seq T := by
  have hdiv : seq.blocks.length ≤ T.length / bs := (Nat.le_div_iff_mul_le hbs).mpr hk
  have hpre : (T.take (seq.blocks.length * bs)).length = seq.blocks.length * bs := by
    rw [List.length_take]
    exact Nat.min_eq_left hk
  refine ⟨hsalt, hcsalt, hsize, ?_, ?_, hlen, ?_, hparent⟩
  · -- The committed tokens are the whole chunks of the prefix, which is all of it.
    rw [hblocks, map_tokens_splitBlocks, List.flatten_chunksExact, hpre,
      Nat.mul_div_cancel _ hbs, List.take_take, Nat.min_self, hcur, List.take_append_drop]
  · intro b hb
    rw [hblocks] at hb
    exact List.length_of_mem_chunksExact (by
      rw [← map_tokens_splitBlocks]
      exact List.mem_map_of_mem hb)
  · conv_lhs => rw [hblocks]
    exact splitBlocks_take xxh3 hbs hdiv salt

/-- A new sequence lays out its tokens. -/
theorem refines_new (hbs : 0 < bs) (t : List Token) (s : Option SaltHash) :
    Refines xxh3 bs (s.getD 0)
      { blocks := splitBlocks xxh3 t bs (s.getD 0)
        currentBlock := splitPartial xxh3 t bs (s.getD 0)
        saltHash := s.getD 0 } t := by
  refine ⟨rfl, rfl, rfl, ?_, ?_, ?_, ?_, ?_⟩
  · simp only [splitPartial, map_tokens_splitBlocks, List.flatten_chunksExact_append_chunksRem]
  · intro b hb
    exact List.length_of_mem_chunksExact (by
      rw [← map_tokens_splitBlocks]
      exact List.mem_map_of_mem hb)
  · exact Nat.le_of_lt (List.length_chunksRem_lt hbs t)
  · exact (List.take_length).symm
  · exact splitLastHash_eq xxh3 t bs (s.getD 0)

/-- `commit` on a full partial block: the block it makes is pushed and the
    partial block empties and becomes its child. -/
theorem commitCurrent_eq_ok {seq : TokenBlockSequence}
    (h : seq.currentBlock.tokens.length = seq.currentBlock.blockSize) :
    ∃ block, block = TokenBlock.fromChunk xxh3
        (TokenBlockChunk.new xxh3 seq.currentBlock.tokens seq.currentBlock.saltHash)
        seq.currentBlock.parentSequenceHash ∧
      commitCurrent xxh3 seq = .ok
        { blocks := seq.blocks ++ [block]
          currentBlock := { seq.currentBlock with
            tokens := []
            parentSequenceHash := some block.sequenceHash }
          saltHash := seq.saltHash } :=
  ⟨_, rfl, by simp only [commitCurrent, PartialTokenBlock.commit_eq_ok xxh3 _ h, Except.map]⟩

/-- Committing a full partial block moves it to the committed side. -/
theorem refines_commitCurrent (hbs : 0 < bs) {seq : TokenBlockSequence} {T : List Token}
    (h : Refines xxh3 bs salt seq T) (hfull : seq.currentBlock.tokens.length = bs) :
    ∃ seq', commitCurrent xxh3 seq = .ok seq' ∧ Refines xxh3 bs salt seq' T ∧
      seq.blocks <+: seq'.blocks ∧ seq'.blocks.length = seq.blocks.length + 1 ∧
      seq'.currentBlock.tokens = [] := by
  have hlenT := h.length_eq hbs
  have hcur := h.current_eq hbs
  have hsplit := h.blocks_eq_split hbs
  have hpre : (T.take (seq.blocks.length * bs)).length = seq.blocks.length * bs := by
    rw [List.length_take]
    omega
  -- The first `k + 1` blocks' worth of tokens are the first `k` and the partial block.
  have htake : T.take ((seq.blocks.length + 1) * bs)
      = T.take (seq.blocks.length * bs) ++ seq.currentBlock.tokens := by
    rw [Nat.succ_mul, List.take_add, ← hcur, List.take_of_length_le (Nat.le_of_eq hfull)]
  obtain ⟨block, hblock, hc⟩ :=
    @commitCurrent_eq_ok xxh3 _ (hfull.trans h.current_blockSize.symm)
  refine ⟨_, hc, ?_, List.prefix_append _ _, List.length_append, rfl⟩
  refine refines_of_split hbs h.saltHash_eq h.current_saltHash h.current_blockSize ?_ ?_ ?_ ?_ ?_
  · rw [List.length_append, List.length_singleton, Nat.succ_mul]
    omega
  · rw [List.length_append, List.length_singleton, htake,
      splitBlocks_append_block xxh3 hbs hpre hfull, ← hsplit, hblock, h.current_saltHash,
      h.parent_eq]
  · rw [List.length_append, List.length_singleton,
      List.drop_eq_nil_of_le (by rw [Nat.succ_mul]; omega)]
  · exact Nat.zero_le _
  · rw [List.getLast?_append, List.getLast?_singleton, Option.some_or, Option.map_some]

/-- Pushing tokens extends the partial block by what fits. -/
theorem refines_pushTokens (hbs : 0 < bs) {seq : TokenBlockSequence} {T : List Token}
    (h : Refines xxh3 bs salt seq T) (x : List Token) :
    Refines xxh3 bs salt { seq with currentBlock := (seq.currentBlock.pushTokens x).1 }
      (T ++ x.take seq.currentBlock.remaining) := by
  have hlenT := h.length_eq hbs
  have hcur := h.current_eq hbs
  have hle := h.current_length
  have hk : seq.blocks.length * bs ≤ T.length := by omega
  have hrem : seq.currentBlock.remaining = bs - seq.currentBlock.tokens.length := by
    rw [PartialTokenBlock.remaining, h.current_blockSize]
  rw [PartialTokenBlock.pushTokens_spec]
  dsimp only
  refine refines_of_split hbs h.saltHash_eq h.current_saltHash h.current_blockSize ?_ ?_ ?_ ?_ ?_
  · simp only [List.length_append]
    omega
  · simp only [List.take_append_of_le_length hk]
    exact h.blocks_eq_split hbs
  · simp only [List.drop_append_of_le_length hk, hcur]
  · simp only [List.length_append, List.length_take, hrem]
    omega
  · exact h.parent_eq

/-- A pass of `extend`'s loop that leaves the filled block uncommitted,
    because it has room left or no token is left. -/
theorem extendStep_of_stop {seq seq1 : TokenBlockSequence} {x : List Token}
    (hc : (if seq.currentBlock.remaining = 0 then commitCurrent xxh3 seq else .ok seq) = .ok seq1)
    (hstop : ¬ ((seq1.currentBlock.pushTokens x).1.remaining = 0 ∧
      (seq1.currentBlock.pushTokens x).2 ≠ [])) :
    extendStep xxh3 seq x = ({ seq1 with currentBlock := (seq1.currentBlock.pushTokens x).1 },
      .ok (seq1.currentBlock.pushTokens x).2) := by
  simp only [extendStep, hc]
  generalize seq1.currentBlock.pushTokens x = p at hstop ⊢
  obtain ⟨current, rest⟩ := p
  exact if_neg hstop

/-- A pass of `extend`'s loop that fills the block with tokens left over, and
    so commits it again. -/
theorem extendStep_of_full {seq seq1 seq3 : TokenBlockSequence} {x : List Token}
    (hc : (if seq.currentBlock.remaining = 0 then commitCurrent xxh3 seq else .ok seq) = .ok seq1)
    (hfill : (seq1.currentBlock.pushTokens x).1.remaining = 0)
    (hrest : (seq1.currentBlock.pushTokens x).2 ≠ [])
    (hc3 : commitCurrent xxh3 { seq1 with currentBlock := (seq1.currentBlock.pushTokens x).1 }
      = .ok seq3) :
    extendStep xxh3 seq x = (seq3, .ok (seq1.currentBlock.pushTokens x).2) := by
  simp only [extendStep, hc]
  generalize seq1.currentBlock.pushTokens x = p at hfill hrest hc3 ⊢
  obtain ⟨current, rest⟩ := p
  dsimp only at hfill hrest hc3
  rw [if_pos ⟨hfill, hrest⟩, hc3]

/-- One pass of `extend`'s loop consumes at least one token, keeps the
    committed blocks as a prefix, and leaves the partial block non-empty when
    it consumes the last token. -/
theorem extendStep_spec (hbs : 0 < bs) {seq : TokenBlockSequence} {U : List Token}
    (h : Refines xxh3 bs salt seq U) {x : List Token} (hx : x ≠ []) :
    ∃ seq' m, 0 < m ∧ extendStep xxh3 seq x = (seq', .ok (x.drop m)) ∧
      Refines xxh3 bs salt seq' (U ++ x.take m) ∧ seq.blocks <+: seq'.blocks ∧
      (x.drop m = [] → seq'.currentBlock.tokens ≠ []) := by
  -- First the full partial block, if any, is committed.
  obtain ⟨seq1, hc, h1, hpre1, hroom⟩ : ∃ seq1,
      (if seq.currentBlock.remaining = 0 then commitCurrent xxh3 seq else .ok seq) = .ok seq1 ∧
      Refines xxh3 bs salt seq1 U ∧ seq.blocks <+: seq1.blocks ∧
      seq1.currentBlock.tokens.length < bs := by
    have hr := h.remaining_eq
    have hle := h.current_length
    by_cases hr0 : seq.currentBlock.remaining = 0
    · obtain ⟨seq1, hc, h1, hpre, hlen, hempty⟩ := refines_commitCurrent hbs h (by omega)
      refine ⟨seq1, by rw [if_pos hr0, hc], h1, hpre, ?_⟩
      rw [hempty, List.length_nil]
      exact hbs
    · exact ⟨seq, by rw [if_neg hr0], h, List.prefix_refl _, by omega⟩
  have hm : 0 < seq1.currentBlock.remaining := by
    rw [h1.remaining_eq]
    omega
  -- Then what fits is pushed.
  have h2 := refines_pushTokens hbs h1 x
  have hrest : (seq1.currentBlock.pushTokens x).2 = x.drop seq1.currentBlock.remaining := by
    rw [PartialTokenBlock.pushTokens_spec]
  have hne2 : (seq1.currentBlock.pushTokens x).1.tokens ≠ [] := by
    rw [PartialTokenBlock.pushTokens_spec]
    intro hnil
    have := congrArg List.length hnil
    simp only [List.length_append, List.length_take, List.length_nil] at this
    have : 0 < x.length := List.length_pos_iff.mpr hx
    omega
  by_cases hmore : (seq1.currentBlock.pushTokens x).1.remaining = 0 ∧
      (seq1.currentBlock.pushTokens x).2 ≠ []
  · -- The block filled up with tokens left over: it is committed at once.
    have hfull : (seq1.currentBlock.pushTokens x).1.tokens.length = bs := by
      have hr := h2.remaining_eq
      have hle := h2.current_length
      dsimp only at hr hle
      omega
    obtain ⟨seq3, hc3, h3, hpre3, _, _⟩ := refines_commitCurrent hbs h2 hfull
    refine ⟨seq3, seq1.currentBlock.remaining, hm, ?_, h3, hpre1.trans hpre3,
      fun hnil => absurd (hrest.trans hnil) hmore.2⟩
    rw [extendStep_of_full hc hmore.1 hmore.2 hc3, hrest]
  · exact ⟨_, seq1.currentBlock.remaining, hm, by rw [extendStep_of_stop hc hmore, hrest], h2,
      hpre1, fun _ => hne2⟩

/-- The loop of `extend`, given at least one pass per token, appends every
    token. -/
theorem extendLoop_spec (hbs : 0 < bs) :
    ∀ (fuel : Nat) (seq : TokenBlockSequence) (U x : List Token), x.length ≤ fuel →
      Refines xxh3 bs salt seq U →
      ∃ seq', extendLoop xxh3 fuel seq x = .ok (seq', .ok ()) ∧
        Refines xxh3 bs salt seq' (U ++ x) ∧ seq.blocks <+: seq'.blocks ∧
        (x ≠ [] → seq'.currentBlock.tokens ≠ []) := by
  intro fuel
  induction fuel with
  | zero =>
      intro seq U x hx h
      have hnil : x = [] := List.eq_nil_of_length_eq_zero (by omega)
      subst hnil
      exact ⟨seq, rfl, by rw [List.append_nil]; exact h, List.prefix_refl _,
        fun hne => absurd rfl hne⟩
  | succ fuel ih =>
      intro seq U x hx h
      cases x with
      | nil =>
          exact ⟨seq, rfl, by rw [List.append_nil]; exact h, List.prefix_refl _,
            fun hne => absurd rfl hne⟩
      | cons a x' =>
          obtain ⟨seq1, m, hm, hstep, h1, hpre1, hne1⟩ :=
            extendStep_spec hbs h (List.cons_ne_nil a x')
          have hdrop : ((a :: x').drop m).length ≤ fuel := by
            rw [List.length_drop]
            simp only [List.length_cons] at hx ⊢
            omega
          obtain ⟨seq', hloop, h', hpre', hne'⟩ := ih seq1 _ _ hdrop h1
          refine ⟨seq', ?_, ?_, hpre1.trans hpre', fun _ => ?_⟩
          · rw [extendLoop, hstep]
            exact hloop
          · rw [List.append_assoc, List.take_append_drop] at h'
            exact h'
          · by_cases hnil : (a :: x').drop m = []
            · -- Nothing was left for the rest of the loop.
              rw [hnil] at hloop
              have hseq : seq1 = seq' := by
                simp only [extendLoop, Except.ok.injEq, Prod.mk.injEq] at hloop
                exact hloop.1
              rw [← hseq]
              exact hne1 hnil
            · exact hne' hnil


/-- The bounds of `div_ceil`: `a = ⌈t / bs⌉` blocks of `bs` cover `t` and
    `a - 1` do not. -/
theorem divCeil_mul_bounds {t bs : Nat} (hbs : 0 < bs) :
    t ≤ (t + bs - 1) / bs * bs ∧ (t + bs - 1) / bs * bs < t + bs := by
  have hdiv := Nat.div_add_mod (t + bs - 1) bs
  have hmod := Nat.mod_lt (t + bs - 1) hbs
  rw [Nat.mul_comm] at hdiv
  omega

/-- Cutting back into the committed blocks: the first `src` blocks stay and
    the partial block is rebuilt from the first `keep` tokens after them. -/
theorem refines_truncate_blocks (hbs : 0 < bs) {seq : TokenBlockSequence} {T : List Token}
    (h : Refines xxh3 bs salt seq T) {len : Nat} (src keep : Nat)
    (hsrc : src ≤ seq.blocks.length) (hkeep : keep ≤ bs) (hlen : len = src * bs + keep)
    (hle : len ≤ T.length) :
    Refines xxh3 bs salt
      { blocks := seq.blocks.take src
        currentBlock :=
          { tokens := (T.drop (src * bs)).take keep
            blockSize := bs
            saltHash := seq.currentBlock.saltHash
            parentSequenceHash := (seq.blocks.take src).getLast?.map (·.sequenceHash) }
        saltHash := seq.saltHash }
      (T.take len) := by
  have hsrcT : src ≤ T.length / bs := Nat.le_trans hsrc h.blocks_le
  have hlen' : (seq.blocks.take src).length = src := by
    rw [List.length_take]
    omega
  refine refines_of_split hbs h.saltHash_eq h.current_saltHash rfl ?_ ?_ ?_ ?_ rfl
  · rw [hlen', List.length_take]
    omega
  · -- The kept blocks are the first `src` of the split, whose tokens end before the cut.
    rw [hlen', List.take_take, Nat.min_eq_left (by omega), splitBlocks_take xxh3 hbs hsrcT,
      h.blocks_eq, List.take_take, Nat.min_eq_left hsrc]
  · rw [hlen', List.drop_take, hlen, Nat.add_sub_cancel_left]
  · exact Nat.le_trans (List.length_take_le _ _) hkeep

/-- Cutting inside the partial block keeps the committed blocks. -/
theorem refines_take_current (hbs : 0 < bs) {seq : TokenBlockSequence} {T : List Token}
    (h : Refines xxh3 bs salt seq T) {len : Nat} (hk : seq.blocks.length * bs ≤ len)
    (hle : len ≤ T.length) :
    Refines xxh3 bs salt
      { seq with
        currentBlock := { seq.currentBlock with
          tokens := seq.currentBlock.tokens.take (len - seq.blocks.length * bs) } }
      (T.take len) := by
  refine refines_of_split hbs h.saltHash_eq h.current_saltHash h.current_blockSize ?_ ?_ ?_ ?_
    h.parent_eq
  all_goals dsimp only
  · rw [List.length_take]
    omega
  · rw [List.take_take, Nat.min_eq_left hk]
    exact h.blocks_eq_split hbs
  · rw [h.current_eq hbs, List.drop_take]
  · exact Nat.le_trans (List.length_take_le' _ _) h.current_length

/-- `truncate` keeps a prefix: the first `len` tokens, laid out afresh, and
    it never fails on a sequence that lays out a list. -/
theorem truncate_spec (hbs : 0 < bs) {seq : TokenBlockSequence} {T : List Token}
    (h : Refines xxh3 bs salt seq T) (len : Nat) :
    ∃ seq', truncate seq len = .ok (seq', .ok ()) ∧ Refines xxh3 bs salt seq' (T.take len) := by
  have htot := h.totalTokens_eq hbs
  have hlenT := h.length_eq hbs
  simp only [truncate, htot, PartialTokenBlock.len, h.current_blockSize, Nat.max_eq_left hbs]
  obtain ⟨hcover, hover⟩ :=
    @divCeil_mul_bounds (T.length - len - seq.currentBlock.tokens.length) bs hbs
  -- Cutting `t` tokens off the committed blocks touches `a = ⌈t / bs⌉` of them.
  generalize (T.length - len - seq.currentBlock.tokens.length + bs - 1) / bs = a at *
  split_ifs with hge hcur hfew hkeep
  · -- Nothing to cut.
    exact ⟨seq, rfl, by rw [List.take_of_length_le hge]; exact h⟩
  · -- The cut falls in the partial block.
    rw [PartialTokenBlock.popTokens_of_le _ hcur]
    refine ⟨_, rfl, ?_⟩
    have hcut : seq.currentBlock.tokens.length - (T.length - len)
        = len - seq.blocks.length * bs := by omega
    rw [hcut]
    exact refines_take_current hbs h (by omega) (by omega)
  · -- At most `k` blocks are touched, since `t ≤ k * bs`.
    have hlt : a * bs < (seq.blocks.length + 1) * bs := by
      rw [Nat.succ_mul]
      omega
    exact absurd (Nat.lt_of_mul_lt_mul_right hlt) (by omega)
  all_goals
    have hapos : 0 < a := Nat.pos_of_ne_zero fun h0 => by
      rw [h0, Nat.zero_mul] at hcover
      omega
    have hbsa : bs ≤ a * bs := Nat.le_mul_of_pos_left bs hapos
    have hak : a * bs ≤ seq.blocks.length * bs := Nat.mul_le_mul_right bs (by omega)
    have hsrc := Nat.sub_mul seq.blocks.length a bs
    rw [Nat.sub_one_mul] at *
  · -- The partial block is rebuilt from the first tokens of the source block, which
    -- is full, so the slice stays in range.
    rw [List.getElem?_eq_getElem (by omega), Abort.expect_some, Except.ok_bind,
      h.tokens_getElem _ (by omega),
      Bytes.sliceTo_of_le (by rw [List.length_take, List.length_drop]; omega)]
    refine ⟨_, rfl, ?_⟩
    rw [List.take_take, Nat.min_eq_left (by omega)]
    exact refines_truncate_blocks hbs h _ _ (by omega) (by omega) (by omega) (by omega)
  · -- The cut falls on a block boundary: the new partial block is empty.
    refine ⟨_, rfl, ?_⟩
    exact refines_truncate_blocks hbs h _ 0 (by omega) (Nat.zero_le _) (by omega) (by omega)

/-- `extend` appends its tokens and reports the range of the blocks it
    committed, or `none` when it committed none. -/
theorem extend_spec (hbs : 0 < bs) {seq : TokenBlockSequence} {U : List Token}
    (h : Refines xxh3 bs salt seq U) (x : List Token) :
    ∃ seq', extend xxh3 seq x = .ok (seq', .ok
        (if seq.blocks.length = seq'.blocks.length then none
          else some (seq.blocks.length, seq'.blocks.length))) ∧
      Refines xxh3 bs salt seq' (U ++ x) ∧ seq.blocks <+: seq'.blocks ∧
      (x ≠ [] → seq'.currentBlock.tokens ≠ []) := by
  obtain ⟨seq', hloop, h', hpre, hne⟩ := extendLoop_spec hbs x.length seq U x (Nat.le_refl _) h
  refine ⟨seq', ?_, h', hpre, hne⟩
  rw [extend, hloop]
  rfl

/-- A single token completes at most one block: the partial block is never
    empty after it, so at most `bs` tokens moved to the committed side. -/
theorem blocks_length_le_of_append (hbs : 0 < bs) {seq seq' : TokenBlockSequence}
    {U : List Token} {tok : Token} (h : Refines xxh3 bs salt seq U)
    (h' : Refines xxh3 bs salt seq' (U ++ [tok])) (hne : seq'.currentBlock.tokens ≠ []) :
    seq'.blocks.length ≤ seq.blocks.length + 1 := by
  have hlen := h.length_eq hbs
  have hlen' := h'.length_eq hbs
  have hcur := h.current_length
  have hpos : 0 < seq'.currentBlock.tokens.length := List.length_pos_iff.mpr hne
  rw [List.length_append, List.length_singleton] at hlen'
  have hmul : seq'.blocks.length * bs < (seq.blocks.length + 2) * bs := by
    rw [Nat.add_mul]
    omega
  have := Nat.lt_of_mul_lt_mul_right hmul
  omega

/-- `append` adds its token and never trips its assertion. -/
theorem append_spec (hbs : 0 < bs) {seq : TokenBlockSequence} {U : List Token}
    (h : Refines xxh3 bs salt seq U) (tok : Token) :
    ∃ seq', append xxh3 seq tok = .ok (seq', .ok
        (if seq.blocks.length = seq'.blocks.length then none else some seq.blocks.length)) ∧
      Refines xxh3 bs salt seq' (U ++ [tok]) := by
  obtain ⟨seq', hext, h', hpre, hne⟩ := extend_spec hbs h [tok]
  have hle := hpre.length_le
  have hle' := blocks_length_le_of_append hbs h h' (hne (List.cons_ne_nil tok []))
  refine ⟨seq', ?_, h'⟩
  rw [append, hext]
  by_cases heq : seq.blocks.length = seq'.blocks.length
  · simp only [heq, if_true]
  · -- One block was completed, so the range has length one.
    have hone : seq'.blocks.length - seq.blocks.length = 1 := by omega
    simp only [heq, if_false, hone, if_true]

/-- `unwind` removes the last `count` tokens when there are that many. -/
theorem unwind_spec (hbs : 0 < bs) {seq : TokenBlockSequence} {T : List Token}
    (h : Refines xxh3 bs salt seq T) {count : Nat} (hc : count ≤ T.length) :
    ∃ seq', unwind seq count = .ok (seq', .ok ()) ∧
      Refines xxh3 bs salt seq' (T.take (T.length - count)) := by
  rw [unwind, h.totalTokens_eq hbs, if_neg (Nat.not_lt.mpr hc)]
  exact truncate_spec hbs h _

/-- `unwind` refuses to remove more tokens than there are, and changes
    nothing. -/
theorem unwind_of_lt (hbs : 0 < bs) {seq : TokenBlockSequence} {T : List Token}
    (h : Refines xxh3 bs salt seq T) {count : Nat} (hc : T.length < count) :
    unwind seq count = .ok (seq, .error .insufficientTokens) := by
  rw [unwind, h.totalTokens_eq hbs, if_pos hc]

/-- `pop` on a sequence holding no tokens returns `None`. -/
theorem pop_of_nil (hbs : 0 < bs) {seq : TokenBlockSequence}
    (h : Refines xxh3 bs salt seq []) :
    pop seq = .ok (seq, none) := by
  rw [pop, h.totalTokens_eq hbs, List.length_nil, if_pos rfl]

/-- `pop` on a non-empty sequence returns the last token and removes it. -/
theorem pop_spec (hbs : 0 < bs) {seq : TokenBlockSequence} {T : List Token}
    (h : Refines xxh3 bs salt seq T) (hT : T ≠ []) :
    ∃ seq', pop seq = .ok (seq', some (T.getLast hT)) ∧ Refines xxh3 bs salt seq' T.dropLast := by
  obtain ⟨seq', htr, h'⟩ := truncate_spec hbs h (T.length - 1)
  have hlen : T.length ≠ 0 := fun h0 => hT (List.eq_nil_of_length_eq_zero h0)
  have htok := h.tokens_eq
  refine ⟨seq', ?_, by rw [List.dropLast_eq_take]; exact h'⟩
  simp only [pop, h.totalTokens_eq hbs, hlen, if_false, htr]
  by_cases hcur : seq.currentBlock.tokens = []
  · -- The partial block is empty, so the last token is the last block's.
    have hblocks : seq.blocks ≠ [] := by
      rintro hnil
      rw [hnil, hcur, List.map_nil, List.flatten_nil, List.append_nil] at htok
      exact hT htok.symm
    have hbne : (seq.blocks.getLast hblocks).tokens ≠ [] := by
      intro hnil
      have hb := h.block_length _ (List.getLast_mem hblocks)
      rw [hnil, List.length_nil] at hb
      omega
    have hlast : (seq.blocks.getLast hblocks).tokens.getLast? = some (T.getLast hT) := by
      rw [← List.getLast?_eq_some_getLast hT, ← htok, hcur, List.append_nil]
      conv_rhs => rw [← List.dropLast_append_getLast hblocks]
      rw [List.map_append, List.flatten_append, List.map_singleton, List.flatten_singleton,
        List.getLast?_append_of_ne_nil _ hbne]
    simp only [hcur, List.isEmpty_nil, Bool.not_true, Bool.false_eq_true, if_false,
      List.getLast?_eq_some_getLast hblocks, Abort.expect_some, Except.ok_bind, hlast]
    rfl
  · -- The last token is the partial block's.
    have hlast : seq.currentBlock.tokens.getLast? = some (T.getLast hT) := by
      rw [← List.getLast?_eq_some_getLast hT, ← htok, List.getLast?_append_of_ne_nil _ hcur]
    simp only [List.isEmpty_eq_false_iff.mpr hcur, Bool.not_false, if_true, hlast,
      Abort.expect_some]
    rfl

end Refinement

/-- The calls that change a sequence's tokens, with their arguments. -/
inductive SeqOp where
  | extend (tokens : List Token)
  | append (token : Token)
  | truncate (len : Nat)
  | unwind (count : Nat)
  | pop
  deriving DecidableEq, Repr

/-- What a call returns, besides the sequence after it. -/
inductive SeqResult where
  | extended (range : Except TokenBlockError (Option (Nat × Nat)))
  | appended (index : Except TokenBlockError (Option Nat))
  | truncated (result : Except TokenBlockError Unit)
  | popped (token : Option Token)
  deriving DecidableEq, Repr

/-- The call returned an error. -/
def SeqResult.isError : SeqResult → Bool
  | .extended (.error _) | .appended (.error _) | .truncated (.error _) => true
  | _ => false

namespace SeqOp

/-- Running an operation on a sequence. -/
def call (xxh3 : Xxh3) : SeqOp → TokenBlockSequence → Except Abort (TokenBlockSequence × SeqResult)
  | .extend tokens, seq => (TokenBlockSequence.extend xxh3 seq tokens).map fun (s, r) => (s, .extended r)
  | .append token, seq => (TokenBlockSequence.append xxh3 seq token).map fun (s, r) => (s, .appended r)
  | .truncate len, seq => (seq.truncate len).map fun (s, r) => (s, .truncated r)
  | .unwind count, seq => (seq.unwind count).map fun (s, r) => (s, .truncated r)
  | .pop, seq => seq.pop.map fun (s, r) => (s, .popped r)

/-- What an operation does to a plain token list. -/
def onList : SeqOp → List Token → List Token
  | .extend tokens, T => T ++ tokens
  | .append token, T => T ++ [token]
  | .truncate len, T => T.take len
  | .unwind count, T => if count ≤ T.length then T.take (T.length - count) else T
  | .pop, T => T.dropLast

/-- The result a call must return on a sequence holding `T` that becomes
    `seq'`: `extend` and `append` report the blocks they completed, `unwind`
    refuses to remove more than there is, `pop` returns the last token. -/
def expected : SeqOp → TokenBlockSequence → TokenBlockSequence → List Token → SeqResult
  | .extend _, seq, seq', _ => .extended (.ok
      (if seq.blocks.length = seq'.blocks.length then none
        else some (seq.blocks.length, seq'.blocks.length)))
  | .append _, seq, seq', _ => .appended (.ok
      (if seq.blocks.length = seq'.blocks.length then none else some seq.blocks.length))
  | .truncate _, _, _, _ => .truncated (.ok ())
  | .unwind count, _, _, T =>
      .truncated (if count ≤ T.length then .ok () else .error .insufficientTokens)
  | .pop, _, _, T => .popped T.getLast?

/-- A call on a sequence holding `T` that returned `seq'` and `res` meets the
    contract of the list model: `seq'` lays out the list the operation makes
    of `T`, the result is the expected one, and a refused call changes
    nothing. -/
structure Meets (xxh3 : Xxh3) (bs : Nat) (salt : SaltHash) (op : SeqOp)
    (seq : TokenBlockSequence) (T : List Token) (seq' : TokenBlockSequence) (res : SeqResult) :
    Prop where
  refines : Refines xxh3 bs salt seq' (op.onList T)
  result_eq : res = op.expected seq seq' T
  unchanged : res.isError = true → seq' = seq

end SeqOp

/-- Run a list of calls in order, stopping at the first that does not
    return. -/
def runCalls (xxh3 : Xxh3) : List SeqOp → TokenBlockSequence → Except Abort TokenBlockSequence
  | [], seq => .ok seq
  | op :: ops, seq =>
      match op.call xxh3 seq with
      | .error a => .error a
      | .ok (seq', _) => runCalls xxh3 ops seq'

section Calls

variable {xxh3 : Xxh3} {bs : Nat} {salt : SaltHash}

/-- Every call on a sequence that lays out a list returns, and meets its
    contract. -/
theorem call_meets (hbs : 0 < bs) {seq : TokenBlockSequence} {T : List Token}
    (h : Refines xxh3 bs salt seq T) (op : SeqOp) :
    ∃ seq' res, op.call xxh3 seq = .ok (seq', res) ∧ op.Meets xxh3 bs salt seq T seq' res := by
  cases op with
  | extend x =>
      obtain ⟨seq', he, h', -, -⟩ := extend_spec hbs h x
      exact ⟨seq', _, by rw [SeqOp.call, he]; rfl, h', rfl, fun hx => absurd hx Bool.false_ne_true⟩
  | append tok =>
      obtain ⟨seq', ha, h'⟩ := append_spec hbs h tok
      exact ⟨seq', _, by rw [SeqOp.call, ha]; rfl, h', rfl, fun hx => absurd hx Bool.false_ne_true⟩
  | truncate len =>
      obtain ⟨seq', ht, h'⟩ := truncate_spec hbs h len
      exact ⟨seq', _, by rw [SeqOp.call, ht]; rfl, h', rfl, fun hx => absurd hx Bool.false_ne_true⟩
  | unwind c =>
      by_cases hc : c ≤ T.length
      · obtain ⟨seq', hu, h'⟩ := unwind_spec hbs h hc
        refine ⟨seq', .truncated (.ok ()), by rw [SeqOp.call, hu]; rfl, ?_,
          by rw [SeqOp.expected, if_pos hc],
          fun hx => absurd hx Bool.false_ne_true⟩
        rw [SeqOp.onList, if_pos hc]
        exact h'
      · -- Refused: the sequence is unchanged and still lays out `T`.
        have hu := unwind_of_lt hbs h (Nat.lt_of_not_le hc)
        refine ⟨seq, _, by rw [SeqOp.call, hu]; rfl, ?_, by rw [SeqOp.expected, if_neg hc],
          fun _ => rfl⟩
        rw [SeqOp.onList, if_neg hc]
        exact h
  | pop =>
      by_cases hT : T = []
      · subst hT
        exact ⟨seq, _, by rw [SeqOp.call, pop_of_nil hbs h]; rfl, h, rfl, fun _ => rfl⟩
      · obtain ⟨seq', hp, h'⟩ := pop_spec hbs h hT
        refine ⟨seq', .popped (some (T.getLast hT)), by rw [SeqOp.call, hp]; rfl, h', ?_,
          fun hx => absurd hx Bool.false_ne_true⟩
        rw [SeqOp.expected, List.getLast?_eq_some_getLast hT]

/-- A run of calls from a sequence that lays out `T` returns, and lays out
    the list the same operations make of `T`. -/
theorem runCalls_refines (hbs : 0 < bs) :
    ∀ (ops : List SeqOp) (seq : TokenBlockSequence) (T : List Token),
      Refines xxh3 bs salt seq T →
      ∃ seq', runCalls xxh3 ops seq = .ok seq' ∧
        Refines xxh3 bs salt seq' (ops.foldl (fun T op => op.onList T) T) := by
  intro ops
  induction ops with
  | nil => exact fun seq T h => ⟨seq, rfl, h⟩
  | cons op ops ih =>
      intro seq T h
      obtain ⟨seq1, res, hcall, hmeets⟩ := call_meets hbs h op
      obtain ⟨seq', hrun, h'⟩ := ih seq1 _ hmeets.refines
      exact ⟨seq', by rw [runCalls, hcall]; exact hrun, h'⟩

theorem tokenBlockSequence_refines_list (hbs : 0 < bs) (t : List Token) (s : Option SaltHash)
    (ops : List SeqOp) :
    ∃ seq, (new xxh3 t bs s >>= runCalls xxh3 ops) = .ok seq ∧
      Refines xxh3 bs (s.getD 0) seq (ops.foldl (fun T op => op.onList T) t) ∧
      seq.totalTokens = (ops.foldl (fun T op => op.onList T) t).length ∧
      ∀ op : SeqOp, ∃ seq' res, op.call xxh3 seq = .ok (seq', res) ∧
        op.Meets xxh3 bs (s.getD 0) seq (ops.foldl (fun T op => op.onList T) t) seq' res := by
  obtain ⟨seq, hrun, h⟩ := runCalls_refines hbs ops _ t (refines_new hbs t s)
  refine ⟨seq, by rw [new_eq_ok xxh3 hbs, Except.ok_bind]; exact hrun, h, h.totalTokens_eq hbs,
    call_meets hbs h⟩

theorem tokenBlockSequence_refines_list_append_pop :
    0 < 2 ∧ ∃ seq, (new (fun _ seed => seed) [1, 2, 3] 2 none >>=
        runCalls (fun _ seed => seed) [.append 4, .pop]) = .ok seq ∧
      Refines (fun _ seed => seed) 2 0 seq ([SeqOp.append 4, .pop].foldl
        (fun T op => op.onList T) [1, 2, 3]) ∧
      seq.totalTokens = ([SeqOp.append 4, .pop].foldl (fun T op => op.onList T) [1, 2, 3]).length ∧
      ∀ op : SeqOp, ∃ seq' res, op.call (fun _ seed => seed) seq = .ok (seq', res) ∧
        op.Meets (fun _ seed => seed) 2 0 seq
          ([SeqOp.append 4, .pop].foldl (fun T op => op.onList T) [1, 2, 3]) seq' res :=
  ⟨by decide, tokenBlockSequence_refines_list (by decide) [1, 2, 3] none [.append 4, .pop]⟩

end Calls

end TokenBlockSequence

end Tokens

end Dynamo
