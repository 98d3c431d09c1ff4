import Dynamo.Tokens.Sequence

/-!
# The Token Blocks of the `dynamo-tokens` Crate

`lib/tokens/src/lib.rs` is the older, smaller form of the token blocks of
`lib/llm/src/tokens.rs`. Its hashes, its `TokenBlockChunk` and `TokenBlock`,
and the body of its `split_tokens` are the same as there, and are the same
definitions here. What differs is how a sequence grows: one token at a time,
through `push_token`, which asserts that the partial block has room and
commits the block the moment it fills up. There is no lazy commit, so the
partial block always holds fewer than `block_size` tokens.

The point of the crate is that the two ways of building a sequence agree:
`new` hashes all whole chunks of its tokens at once (in parallel, with the
order kept by `collect`) and chains the sequence hashes afterwards, while
`push_token` chains as it goes, through the partial block's parent hash.
`pushToken_split` is the one-token step: pushing onto the split of `p` gives
the split of `p ++ [x]`, and returns the completed block exactly when
`p ++ [x]` ends on a block boundary. It rests on `splitBlocks_append`, the
streaming form of the bulk split. By induction over the pushed tokens,
`pushEach_new` is the whole agreement.

A zero block size makes `par_chunks_exact` panic inside `split_tokens`, which
`new` does not guard against; `push_token` would then fail its assertion.

## Main definitions

* `PartialTokenBlock.pushToken`: Push a token, committing a full block.
* `TokenBlockSequence.splitTokens`, `TokenBlockSequence.new`: The bulk split.
* `TokenBlockSequence.pushToken`: Push a token onto a sequence.
* `TokenBlockSequence.pushEach`: Push a list of tokens in order.

## Theorems

* `TokenBlockSequence.pushToken_split`: One push extends the split by a token.
* `TokenBlockSequence.pushEach_new`: Pushing tokens one at a time builds what
  `new` builds in bulk.
-/

namespace Dynamo

namespace LibTokens

open Tokens (Token SaltHash Xxh3 TokenBlock TokenBlockChunk)

/-- `PartialTokenBlock`: the same four fields as in `lib/llm`. -/
abbrev PartialTokenBlock := Tokens.PartialTokenBlock

/-- `TokenBlockSequence`: the same three fields as in `lib/llm`. -/
abbrev TokenBlockSequence := Tokens.TokenBlockSequence

section Operations

variable (xxh3 : Xxh3)

/-- `PartialTokenBlock::push_token`: assert there is room, push, and commit the
    block once it is full; the committed block becomes the parent of the next. -/
def PartialTokenBlock.pushToken (b : PartialTokenBlock) (token : Token) :
    Except Abort (PartialTokenBlock × Option TokenBlock) :=
  if ¬ b.tokens.length < b.blockSize then
    .error (.panic "assertion failed: self.tokens.0.len() < self.block_size")
  else
    let tokens := b.tokens ++ [token]
    if tokens.length = b.blockSize then
      -- `std::mem::take` leaves the partial block empty.
      let chunk := TokenBlockChunk.new xxh3 tokens b.saltHash
      let block := TokenBlock.fromChunk xxh3 chunk b.parentSequenceHash
      .ok ({ b with tokens := [], parentSequenceHash := some block.sequenceHash }, some block)
    else .ok ({ b with tokens := tokens }, none)

namespace TokenBlockSequence

/-- `split_tokens`: the body of `lib/llm`'s, whose bulk split it shares. Its
    `par_chunks_exact` panics on a zero chunk size. -/
def splitTokens (tokens : List Token) (blockSize : Nat) (saltHash : UInt64) :
    Except Abort (List TokenBlock × PartialTokenBlock) :=
  if blockSize = 0 then .error (.panic "chunk_size must not be zero")
  else .ok (Tokens.TokenBlockSequence.splitBlocks xxh3 tokens blockSize saltHash,
    Tokens.TokenBlockSequence.splitPartial xxh3 tokens blockSize saltHash)

/-- `new`: split the tokens with the salt hash, `0` when none is given. -/
def new (tokens : List Token) (blockSize : Nat) (saltHash : Option SaltHash) :
    Except Abort TokenBlockSequence :=
  let saltHash := saltHash.getD 0
  (splitTokens xxh3 tokens blockSize saltHash).map fun (blocks, currentBlock) =>
    { blocks := blocks, currentBlock := currentBlock, saltHash := saltHash }

/-- `push_token`: a block the partial block completes is pushed onto `blocks`
    and returned. -/
def pushToken (seq : TokenBlockSequence) (token : Token) :
    Except Abort (TokenBlockSequence × Option TokenBlock) :=
  (PartialTokenBlock.pushToken xxh3 seq.currentBlock token).map fun (current, block) =>
    match block with
    | some block => ({ seq with blocks := seq.blocks ++ [block], currentBlock := current },
        some block)
    | none => ({ seq with currentBlock := current }, none)

/-- Call `push_token` on each token in order, collecting what each call
    returns. -/
def pushEach : TokenBlockSequence → List Token →
    Except Abort (TokenBlockSequence × List (Option TokenBlock))
  | seq, [] => .ok (seq, [])
  | seq, token :: tokens =>
      match pushToken xxh3 seq token with
      | .error a => .error a
      | .ok (seq', block) => (pushEach seq' tokens).map fun (seq'', blocks) => (seq'', block :: blocks)

end TokenBlockSequence

end Operations

section Agreement

variable (xxh3 : Xxh3) {bs : Nat}

open Tokens.TokenBlockSequence (splitBlocks splitPartial splitChunks splitLastHash)

/-- One more token closes a block exactly when the tokens before it leave a
    remainder one short of a block. -/
theorem add_one_mod_eq_zero_iff (hbs : 0 < bs) (a : Nat) : (a + 1) % bs = 0 ↔ a % bs + 1 = bs := by
  rcases Nat.exists_eq_add_one_of_ne_zero (Nat.pos_iff_ne_zero.mp hbs) with ⟨b, rfl⟩
  rw [Nat.succ_mod_succ_eq_zero_iff]
  omega

namespace TokenBlockSequence

theorem new_eq_ok (hbs : 0 < bs) (t : List Token) (salt : Option SaltHash) :
    new xxh3 t bs salt = .ok
      { blocks := splitBlocks xxh3 t bs (salt.getD 0)
        currentBlock := splitPartial xxh3 t bs (salt.getD 0)
        saltHash := salt.getD 0 } := by
  simp only [new, splitTokens, Nat.pos_iff_ne_zero.mp hbs, if_false, Except.map]

/-- Pushing a token onto the split of `p` gives the split of `p ++ [x]`, and
    returns the block it completes exactly when `p ++ [x]` ends on a block
    boundary. -/
theorem pushToken_split (hbs : 0 < bs) (p : List Token) (x : Token) (salt : SaltHash) :
    pushToken xxh3
        { blocks := splitBlocks xxh3 p bs salt
          currentBlock := splitPartial xxh3 p bs salt
          saltHash := salt } x =
      .ok ({ blocks := splitBlocks xxh3 (p ++ [x]) bs salt
             currentBlock := splitPartial xxh3 (p ++ [x]) bs salt
             saltHash := salt },
        if (p.length + 1) % bs = 0 then (splitBlocks xxh3 (p ++ [x]) bs salt).getLast? else none) := by
  have hroom := List.length_chunksRem_lt hbs p
  have hlen : (p.chunksRem bs ++ [x]).length = p.length % bs + 1 := by
    rw [List.length_append, List.length_chunksRem, List.length_singleton]
  -- The assertion holds: the partial block of a split has room.
  simp only [pushToken, PartialTokenBlock.pushToken, Tokens.TokenBlockSequence.splitPartial_tokens,
    Tokens.TokenBlockSequence.splitPartial_blockSize, hroom, not_true_eq_false, if_false]
  by_cases hfull : (p.length + 1) % bs = 0
  · -- The push completes a block: it is the one the split appends.
    have hbs' : (p.chunksRem bs ++ [x]).length = bs :=
      hlen.trans ((add_one_mod_eq_zero_iff hbs _).mp hfull)
    have hchunks : splitChunks xxh3 (p.chunksRem bs ++ [x]) bs salt =
        [TokenBlockChunk.fromTokens xxh3 (p.chunksRem bs ++ [x]) salt] := by
      rw [Tokens.TokenBlockSequence.splitChunks, List.chunksExact_of_length_eq hbs hbs',
        List.map_singleton]
    have hblocks := Tokens.TokenBlockSequence.splitBlocks_append xxh3 hbs p [x] salt
    have hlast := Tokens.TokenBlockSequence.splitLastHash_append xxh3 hbs p [x] salt
    rw [hchunks] at hblocks hlast
    have hrest : (p ++ [x]).chunksRem bs = [] := by
      rw [List.chunksRem_append hbs, List.chunksRem_of_length_eq hbs hbs']
    have hpartial : splitPartial xxh3 (p ++ [x]) bs salt =
        { tokens := [], blockSize := bs, saltHash := salt,
          parentSequenceHash := splitLastHash xxh3 (p ++ [x]) bs salt } := by
      rw [Tokens.TokenBlockSequence.splitPartial, hrest]
    simp only [hbs', if_true, hfull, hblocks, List.threadMap_cons, List.threadMap_nil,
      List.getLast?_append, List.getLast?_singleton, Option.some_or, Except.map, hpartial, hlast]
    rfl
  · -- The push does not complete a block: the split only grows its remainder.
    have hshort : (p.chunksRem bs ++ [x]).length < bs := by
      rw [hlen]
      have hne := (add_one_mod_eq_zero_iff hbs p.length).not.mp hfull
      have hmod := Nat.mod_lt p.length hbs
      omega
    have hchunks : splitChunks xxh3 (p.chunksRem bs ++ [x]) bs salt = [] := by
      rw [Tokens.TokenBlockSequence.splitChunks, List.chunksExact_of_length_lt hshort, List.map_nil]
    have hblocks := Tokens.TokenBlockSequence.splitBlocks_append xxh3 hbs p [x] salt
    have hlast := Tokens.TokenBlockSequence.splitLastHash_append xxh3 hbs p [x] salt
    rw [hchunks, List.threadMap_nil, List.append_nil] at hblocks
    rw [hchunks, List.threadState_nil] at hlast
    have hrest : (p ++ [x]).chunksRem bs = p.chunksRem bs ++ [x] := by
      rw [List.chunksRem_append hbs, List.chunksRem_of_length_lt hshort]
    have hpartial : splitPartial xxh3 (p ++ [x]) bs salt =
        { tokens := p.chunksRem bs ++ [x], blockSize := bs, saltHash := salt,
          parentSequenceHash := splitLastHash xxh3 (p ++ [x]) bs salt } := by
      rw [Tokens.TokenBlockSequence.splitPartial, hrest]
    simp only [Nat.ne_of_lt hshort, if_false, hfull, hblocks, Except.map, hpartial, hlast]
    rfl

/-- The block completed by the push that ends on a block boundary is the
    block of the whole split at that position. -/
theorem getLast?_splitBlocks_of_boundary (hbs : 0 < bs) {a b : List Token} {x : Token}
    (salt : SaltHash) (h : (a.length + 1) % bs = 0) :
    (splitBlocks xxh3 (a ++ [x]) bs salt).getLast? =
      (splitBlocks xxh3 (a ++ x :: b) bs salt)[(a.length + 1) / bs - 1]? := by
  have hk : (a.length + 1) / bs * bs = a.length + 1 := Nat.div_mul_cancel (Nat.dvd_of_mod_eq_zero h)
  have hkpos : 0 < (a.length + 1) / bs := Nat.pos_of_ne_zero fun h0 => by
    rw [h0, Nat.zero_mul] at hk
    omega
  have hkle : (a.length + 1) / bs ≤ (a ++ x :: b).length / bs := by
    apply (Nat.le_div_iff_mul_le hbs).mpr
    rw [hk, List.length_append, List.length_cons]
    omega
  -- The prefix through `x` is the first `k` blocks' worth of the whole list.
  have hpre : (a ++ x :: b).take ((a.length + 1) / bs * bs) = a ++ [x] := by
    rw [hk, List.take_length_add_append, List.take_succ_cons, List.take_zero]
  rw [← hpre, Tokens.TokenBlockSequence.splitBlocks_take xxh3 hbs hkle, List.getLast?_take,
    if_neg (Nat.pos_iff_ne_zero.mp hkpos)]
  have hlt : (a.length + 1) / bs - 1 < (splitBlocks xxh3 (a ++ x :: b) bs salt).length := by
    rw [Tokens.TokenBlockSequence.length_splitBlocks]
    omega
  rw [List.getElem?_eq_getElem hlt, Option.some_or]

/-- Pushing tokens one at a time onto the split of `a` builds the split of
    `a ++ b`, and the `i`th push returns a block exactly when it ends a block,
    namely that block of the split. -/
theorem pushEach_split (hbs : 0 < bs) (salt : SaltHash) (b : List Token) :
    ∀ a : List Token,
      pushEach xxh3
          { blocks := splitBlocks xxh3 a bs salt
            currentBlock := splitPartial xxh3 a bs salt
            saltHash := salt } b =
        .ok ({ blocks := splitBlocks xxh3 (a ++ b) bs salt
               currentBlock := splitPartial xxh3 (a ++ b) bs salt
               saltHash := salt },
          (List.range b.length).map fun i =>
            if (a.length + i + 1) % bs = 0 then
              (splitBlocks xxh3 (a ++ b) bs salt)[(a.length + i + 1) / bs - 1]?
            else none) := by
  induction b with
  | nil =>
      intro a
      simp only [pushEach, List.append_nil, List.length_nil, List.range_zero, List.map_nil]
  | cons x b ih =>
      intro a
      rw [pushEach, pushToken_split xxh3 hbs a x salt]
      dsimp only
      rw [ih (a ++ [x]), List.append_assoc, List.singleton_append]
      simp only [Except.map, List.length_cons, List.range_succ_eq_map, List.map_cons,
        List.map_map, Nat.add_zero, List.length_append, List.length_nil, Nat.zero_add,
        Except.ok.injEq,
        Prod.mk.injEq, List.cons.injEq, true_and]
      constructor
      · -- The first push: the block it completes is the split's block there.
        by_cases h : (a.length + 1) % bs = 0
        · rw [if_pos h, if_pos h, getLast?_splitBlocks_of_boundary xxh3 hbs salt h]
        · rw [if_neg h, if_neg h]
      · -- The later pushes count from one token further on.
        apply List.map_congr_left
        intro i _
        simp only [Function.comp, Nat.succ_eq_add_one]
        rw [show a.length + 1 + i + 1 = a.length + (i + 1) + 1 by omega]

theorem pushEach_new (hbs : 0 < bs) (a b : List Token) (salt : SaltHash) :
    ∃ seq results, (new xxh3 a bs (some salt) >>= fun seq => pushEach xxh3 seq b) =
        .ok (seq, results) ∧
      new xxh3 (a ++ b) bs (some salt) = .ok seq ∧
      results = (List.range b.length).map fun i =>
        if (a.length + i + 1) % bs = 0 then seq.blocks[(a.length + i + 1) / bs - 1]? else none :=
  ⟨_, _, by rw [new_eq_ok xxh3 hbs, Except.ok_bind]; exact pushEach_split xxh3 hbs salt b a,
    new_eq_ok xxh3 hbs (a ++ b) (some salt), rfl⟩

theorem pushEach_new_three :
    0 < 2 ∧ ∃ seq results, (new (fun _ seed => seed) [1] 2 (some 7) >>=
        fun seq => pushEach (fun _ seed => seed) seq [2, 3]) = .ok (seq, results) ∧
      new (fun _ seed => seed) ([1] ++ [2, 3]) 2 (some 7) = .ok seq ∧
      results = (List.range [2, 3].length).map fun i =>
        if ([1].length + i + 1) % 2 = 0 then seq.blocks[([1].length + i + 1) / 2 - 1]? else none :=
  ⟨by decide, pushEach_new (fun _ seed => seed) (by decide) [1] [2, 3] 7⟩

end TokenBlockSequence

end Agreement

end LibTokens

end Dynamo
