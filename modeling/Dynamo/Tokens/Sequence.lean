import Dynamo.Lib.ListChunks
import Dynamo.Lib.Bytes
import Dynamo.Tokens.Block

/-!
# Token Block Sequences

`TokenBlockSequence` from `lib/llm/src/tokens.rs`: a list of tokens kept as
the full blocks committed so far and one partial block collecting the rest.

A sequence is built in bulk by `split_tokens`, which hashes the whole chunks
of the token list (in parallel in the source, with the order kept by
`collect`) and then chains their sequence hashes in one sequential pass. It is
then changed in place: `extend` and `append` add tokens, `truncate`,
`unwind` and `pop` remove them.

Two features of the source shape the model. Commits are lazy: `extend` leaves
a partial block that has just become full in place when no token follows, and
commits it only when the next token arrives, so a sequence can hold a full
partial block. And `truncate` rebuilds the partial block from a committed
block with `div_ceil` arithmetic rather than by popping tokens one at a time.

Each operation returns the sequence after the call together with the call's
own result, inside `Except Abort`: `extend`'s `while` loop is run with one
pass per token it was given, which is enough whenever the block size is
positive, and running out is `Abort.diverge`; `new` and `split_tokens` panic
on a zero block size; `append` panics when its `assert_eq!` fails; indexing
`blocks` or slicing a block's tokens out of range and `expect` on `None`
panic. The `debug_assert!`s of
`truncate` and `pop` are compiled out of release builds and are not modelled.

## Main definitions

* `TokenBlockSequence`: The committed blocks, the partial block and the salt
  hash.
* `TokenBlockSequence.splitTokens`: The bulk split of a token list into
  blocks.
* `TokenBlockSequence.new`, `extend`, `append`, `truncate`, `unwind`, `pop`:
  The operations.
* `TokenBlockSequence.totalTokens`: The number of tokens held.
-/

namespace Dynamo

namespace Tokens

/-- `TokenBlockSequence`. -/
structure TokenBlockSequence where
  blocks : List TokenBlock
  currentBlock : PartialTokenBlock
  saltHash : SaltHash
  deriving DecidableEq, Repr

namespace TokenBlockSequence

section Operations

variable (xxh3 : Xxh3)

/-- One step of the sequential pass of `split_tokens`: finish a hashed chunk
    with the sequence hash of the block before it. -/
def chainStep (last : Option SequenceHash) (chunk : TokenBlockChunk) : TokenBlock :=
  TokenBlock.fromChunk xxh3 chunk last

/-- The hashed whole chunks of `split_tokens`, in order. -/
def splitChunks (tokens : List Token) (blockSize : Nat) (saltHash : SaltHash) :
    List TokenBlockChunk :=
  (tokens.chunksExact blockSize).map fun chunk => TokenBlockChunk.fromTokens xxh3 chunk saltHash

/-- The full blocks `split_tokens` returns: the hashed chunks chained in one
    sequential pass, each carrying the previous block's sequence hash. -/
def splitBlocks (tokens : List Token) (blockSize : Nat) (saltHash : SaltHash) :
    List TokenBlock :=
  (splitChunks xxh3 tokens blockSize saltHash).threadMap (chainStep xxh3)
    (fun b => some b.sequenceHash) none

/-- `last_sequence_hash` after the pass: the sequence hash of the last full
    block. -/
def splitLastHash (tokens : List Token) (blockSize : Nat) (saltHash : SaltHash) :
    Option SequenceHash :=
  (splitChunks xxh3 tokens blockSize saltHash).threadState (chainStep xxh3)
    (fun b => some b.sequenceHash) none

/-- The partial block `split_tokens` returns: the remainder, whose parent is
    the last full block. -/
def splitPartial (tokens : List Token) (blockSize : Nat) (saltHash : SaltHash) :
    PartialTokenBlock :=
  { tokens := tokens.chunksRem blockSize, blockSize := blockSize, saltHash := saltHash,
    parentSequenceHash := splitLastHash xxh3 tokens blockSize saltHash }

/-- `split_tokens`: panics on a zero block size. -/
def splitTokens (tokens : List Token) (blockSize : Nat) (saltHash : UInt64) :
    Except Abort (List TokenBlock × PartialTokenBlock) :=
  if ¬ blockSize > 0 then .error (.panic "block_size must be greater than 0")
  else .ok (splitBlocks xxh3 tokens blockSize saltHash, splitPartial xxh3 tokens blockSize saltHash)

/-- `new`: split the tokens with the salt hash, `0` when none is given. -/
def new (tokens : List Token) (blockSize : Nat) (saltHash : Option SaltHash) :
    Except Abort TokenBlockSequence :=
  if ¬ blockSize > 0 then .error (.panic "block_size must be greater than 0")
  else
    let saltHash := saltHash.getD 0
    (splitTokens xxh3 tokens blockSize saltHash).map fun (blocks, currentBlock) =>
      { blocks := blocks, currentBlock := currentBlock, saltHash := saltHash }

/-- `total_tokens`: whole blocks times the block size, plus the partial
    block. -/
def totalTokens (seq : TokenBlockSequence) : Nat :=
  seq.blocks.length * seq.currentBlock.blockSize + seq.currentBlock.len

/-- Commit the current block and push it onto `blocks`: the statement pair
    `let new_block = self.current_block.commit()?; self.blocks.push(new_block)`. -/
def commitCurrent (seq : TokenBlockSequence) : Except TokenBlockError TokenBlockSequence :=
  (seq.currentBlock.commit xxh3).map fun (block, current) =>
    { seq with blocks := seq.blocks ++ [block], currentBlock := current }

/-- One pass of the `while` loop of `extend`: commit a full current block
    first, push what fits, and commit again if the block filled up and tokens
    are left. Returns the sequence and the tokens still to append, or the
    error of a failed commit with the sequence as it was then. -/
def extendStep (seq : TokenBlockSequence) (tokens : List Token) :
    TokenBlockSequence × Except TokenBlockError (List Token) :=
  let committed := if seq.currentBlock.remaining = 0 then commitCurrent xxh3 seq else .ok seq
  match committed with
  | .error e => (seq, .error e)
  | .ok seq =>
      let (current, rest) := seq.currentBlock.pushTokens tokens
      let seq := { seq with currentBlock := current }
      if current.remaining = 0 ∧ rest ≠ [] then
        match commitCurrent xxh3 seq with
        | .error e => (seq, .error e)
        | .ok seq => (seq, .ok rest)
      else (seq, .ok rest)

/-- The `while !tokens_to_append.is_empty()` loop of `extend`, allowed `fuel`
    passes. -/
def extendLoop : Nat → TokenBlockSequence → List Token →
    Except Abort (TokenBlockSequence × Except TokenBlockError Unit)
  | _, seq, [] => .ok (seq, .ok ())
  | 0, _, _ :: _ => .error .diverge
  | fuel + 1, seq, tokens@(_ :: _) =>
      match extendStep xxh3 seq tokens with
      | (seq, .error e) => .ok (seq, .error e)
      | (seq, .ok rest) => extendLoop fuel seq rest

/-- `extend`: the range of indices of the blocks committed by the call, if
    any. The loop is given one pass per token. -/
def extend (seq : TokenBlockSequence) (tokens : List Token) :
    Except Abort (TokenBlockSequence × Except TokenBlockError (Option (Nat × Nat))) :=
  let startBlockIndex := seq.blocks.length
  (extendLoop xxh3 tokens.length seq tokens).map fun (seq', result) =>
    (seq', result.map fun () =>
      if startBlockIndex = seq'.blocks.length then none
      else some (startBlockIndex, seq'.blocks.length))

/-- `append`: `extend` with one token, whose range must have length one. -/
def append (seq : TokenBlockSequence) (token : Token) :
    Except Abort (TokenBlockSequence × Except TokenBlockError (Option Nat)) :=
  match extend xxh3 seq [token] with
  | .error a => .error a
  | .ok (seq', .error e) => .ok (seq', .error e)
  | .ok (seq', .ok none) => .ok (seq', .ok none)
  | .ok (seq', .ok (some (start, stop))) =>
      if stop - start = 1 then .ok (seq', .ok (some start))
      else .error (.panic
        "Appending a single token completed more than one block, which should be impossible.")

end Operations

/-- `truncate`: keep the first `len` tokens. Popping reaches into the full
    blocks when more than the partial block goes: the block holding the new
    end becomes the partial block, cut to the tokens it keeps. -/
def truncate (seq : TokenBlockSequence) (len : Nat) :
    Except Abort (TokenBlockSequence × Except TokenBlockError Unit) :=
  let currentTotalLen := seq.totalTokens
  if len ≥ currentTotalLen then .ok (seq, .ok ())
  else
    let n := currentTotalLen - len
    let currentLen := seq.currentBlock.len
    let blockSize := max seq.currentBlock.blockSize 1
    if n ≤ currentLen then
      match seq.currentBlock.popTokens n with
      | .error e => .ok (seq, .error e)
      | .ok current => .ok ({ seq with currentBlock := current }, .ok ())
    else
      let tokensToPopFromBlocks := n - currentLen
      -- `div_ceil`
      let numBlocksToAffect := (tokensToPopFromBlocks + blockSize - 1) / blockSize
      if numBlocksToAffect > seq.blocks.length then .ok (seq, .error .insufficientTokens)
      else
        let sourceBlockIndex := seq.blocks.length - numBlocksToAffect
        let numFullBlocksCompletelyPopped := numBlocksToAffect - 1
        let numTokensToPopFromSourceBlock :=
          tokensToPopFromBlocks - numFullBlocksCompletelyPopped * blockSize
        let numTokensToKeepInNewPartial := blockSize - numTokensToPopFromSourceBlock
        let newPartialTokens : Except Abort (List Token) :=
          if numTokensToKeepInNewPartial > 0 then
            -- `self.blocks[source_block_index]` and the slice
            -- `[..num_tokens_to_keep_in_new_partial]` panic out of range
            Abort.expect seq.blocks[sourceBlockIndex]? "index out of bounds" >>= fun b =>
              Bytes.sliceTo b.tokens numTokensToKeepInNewPartial
          else .ok []
        newPartialTokens.map fun tokens =>
          let blocks := seq.blocks.take sourceBlockIndex
          let current := { seq.currentBlock with
            tokens := tokens
            parentSequenceHash := blocks.getLast?.map (·.sequenceHash) }
          ({ seq with blocks := blocks, currentBlock := current }, .ok ())

/-- `unwind`: remove the last `count` tokens, refused with
    `InsufficientTokens` when there are fewer. -/
def unwind (seq : TokenBlockSequence) (count : Nat) :
    Except Abort (TokenBlockSequence × Except TokenBlockError Unit) :=
  let currentTotalLen := seq.totalTokens
  if count > currentTotalLen then .ok (seq, .error .insufficientTokens)
  else truncate seq (currentTotalLen - count)

/-- `pop`: remove and return the last token. -/
def pop (seq : TokenBlockSequence) : Except Abort (TokenBlockSequence × Option Token) :=
  let currentTotalLen := seq.totalTokens
  if currentTotalLen = 0 then .ok (seq, none)
  else do
    let lastToken ← if !seq.currentBlock.tokens.isEmpty then
        Abort.expect seq.currentBlock.tokens.getLast? "Current block checked for non-empty"
      else do
        let lastBlock ← Abort.expect seq.blocks.getLast?
          "Sequence is not empty but has no blocks and empty current block?"
        Abort.expect lastBlock.tokens.getLast? "Last block cannot be empty"
    let (seq', result) ← truncate seq (currentTotalLen - 1)
    match result with
    | .ok () => pure (seq', some lastToken)
    | .error _ => pure (seq', none)


section Split

variable (xxh3 : Xxh3)

@[simp]
theorem splitPartial_tokens (t : List Token) (bs : Nat) (salt : SaltHash) :
    (splitPartial xxh3 t bs salt).tokens = t.chunksRem bs := rfl

@[simp]
theorem splitPartial_blockSize (t : List Token) (bs : Nat) (salt : SaltHash) :
    (splitPartial xxh3 t bs salt).blockSize = bs := rfl

@[simp]
theorem splitPartial_saltHash (t : List Token) (bs : Nat) (salt : SaltHash) :
    (splitPartial xxh3 t bs salt).saltHash = salt := rfl

@[simp]
theorem splitPartial_parentSequenceHash (t : List Token) (bs : Nat) (salt : SaltHash) :
    (splitPartial xxh3 t bs salt).parentSequenceHash = splitLastHash xxh3 t bs salt := rfl

theorem splitTokens_eq_ok {bs : Nat} (hbs : 0 < bs) (t : List Token) (salt : SaltHash) :
    splitTokens xxh3 t bs salt = .ok (splitBlocks xxh3 t bs salt, splitPartial xxh3 t bs salt) := by
  simp only [splitTokens, hbs, not_true_eq_false, if_false]

theorem new_eq_ok {bs : Nat} (hbs : 0 < bs) (t : List Token) (salt : Option SaltHash) :
    new xxh3 t bs salt = .ok
      { blocks := splitBlocks xxh3 t bs (salt.getD 0)
        currentBlock := splitPartial xxh3 t bs (salt.getD 0)
        saltHash := salt.getD 0 } := by
  simp only [new, hbs, not_true_eq_false, if_false, splitTokens_eq_ok xxh3 hbs, Except.map]

@[simp]
theorem length_splitBlocks (t : List Token) (bs : Nat) (salt : SaltHash) :
    (splitBlocks xxh3 t bs salt).length = t.length / bs := by
  simp only [splitBlocks, splitChunks, List.length_threadMap, List.length_map,
    List.length_chunksExact]

/-- The blocks of a split carry the chunks as their tokens; the hash chain
    does not touch them. -/
theorem map_tokens_splitBlocks (t : List Token) (bs : Nat) (salt : SaltHash) :
    (splitBlocks xxh3 t bs salt).map TokenBlock.tokens = t.chunksExact bs := by
  rw [splitBlocks, List.map_threadMap (chainStep xxh3) _ TokenBlock.tokens TokenBlockChunk.tokens
    (fun _ _ => rfl), splitChunks, List.map_map]
  exact List.map_id' _ |>.trans rfl

theorem tokens_getElem_splitBlocks (t : List Token) (bs : Nat) (salt : SaltHash) (i : Nat)
    (h : i < (splitBlocks xxh3 t bs salt).length) :
    (splitBlocks xxh3 t bs salt)[i].tokens = (t.drop (i * bs)).take bs := by
  have hmap := congrArg (fun l => l[i]?) (map_tokens_splitBlocks xxh3 t bs salt)
  simp only [List.getElem?_map, List.getElem?_eq_getElem h, Option.map_some] at hmap
  rw [List.getElem?_eq_getElem (by simpa only [List.length_chunksExact,
    length_splitBlocks] using h), Option.some.injEq, List.getElem_chunksExact] at hmap
  exact hmap

/-- The hash a split leaves for its partial block's parent is the last full
    block's sequence hash. -/
theorem splitLastHash_eq (t : List Token) (bs : Nat) (salt : SaltHash) :
    splitLastHash xxh3 t bs salt = (splitBlocks xxh3 t bs salt).getLast?.map (·.sequenceHash) := by
  rw [splitLastHash, List.threadState_eq_getLast?, ← splitBlocks]
  cases (splitBlocks xxh3 t bs salt).getLast? with
  | none => rfl
  | some b => rfl

/-- Splitting a prefix of whole blocks gives the first blocks of the split. -/
theorem splitBlocks_take {bs k : Nat} (hbs : 0 < bs) {t : List Token} (hk : k ≤ t.length / bs)
    (salt : SaltHash) :
    splitBlocks xxh3 (t.take (k * bs)) bs salt = (splitBlocks xxh3 t bs salt).take k := by
  rw [splitBlocks, splitBlocks, List.threadMap_take, splitChunks, splitChunks,
    List.chunksExact_take hbs hk, List.map_take]

/-- Splitting an extended list streams: the blocks of the original, then the
    blocks that its remainder and the extension make, chained to the
    original's last block. -/
theorem splitBlocks_append {bs : Nat} (hbs : 0 < bs) (p r : List Token) (salt : SaltHash) :
    splitBlocks xxh3 (p ++ r) bs salt = splitBlocks xxh3 p bs salt ++
      (splitChunks xxh3 (p.chunksRem bs ++ r) bs salt).threadMap (chainStep xxh3)
        (fun b => some b.sequenceHash) (splitLastHash xxh3 p bs salt) := by
  rw [splitBlocks, splitChunks, List.chunksExact_append hbs, List.map_append,
    List.threadMap_append]
  rfl

theorem splitLastHash_append {bs : Nat} (hbs : 0 < bs) (p r : List Token) (salt : SaltHash) :
    splitLastHash xxh3 (p ++ r) bs salt =
      (splitChunks xxh3 (p.chunksRem bs ++ r) bs salt).threadState (chainStep xxh3)
        (fun b => some b.sequenceHash) (splitLastHash xxh3 p bs salt) := by
  rw [splitLastHash, splitChunks, List.chunksExact_append hbs, List.map_append,
    List.threadState_append]
  rfl

/-- Splitting a list extended by one whole block appends that block, chained
    to the last block before it. -/
theorem splitBlocks_append_block {bs k : Nat} (hbs : 0 < bs) {pre piece : List Token}
    (hpre : pre.length = k * bs) (hpiece : piece.length = bs) (salt : SaltHash) :
    splitBlocks xxh3 (pre ++ piece) bs salt = splitBlocks xxh3 pre bs salt ++
      [TokenBlock.fromChunk xxh3 (TokenBlockChunk.new xxh3 piece salt)
        ((splitBlocks xxh3 pre bs salt).getLast?.map (·.sequenceHash))] := by
  rw [splitBlocks, splitChunks, List.chunksExact_append_of_length_eq_mul hbs hpre,
    List.chunksExact_of_length_eq hbs hpiece, List.map_append, List.threadMap_append,
    ← splitChunks, ← splitBlocks, List.map_singleton, List.threadMap_cons, List.threadMap_nil]
  rw [← splitLastHash, splitLastHash_eq]
  rfl

end Split

end TokenBlockSequence

end Tokens

end Dynamo
