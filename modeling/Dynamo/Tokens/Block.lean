import Dynamo.Lib.Abort

/-!
# Tokens, Partial Blocks and Token Blocks

The data model of `lib/llm/src/tokens.rs`: the hash types, the two-level
hashing of a block of tokens, the `PartialTokenBlock` that accumulates tokens
until it holds a full block, and the `TokenBlock` it commits to.

Every hash in the file is `xxh3_64_with_seed` of the `xxhash_rust` crate,
which is not part of the repository. It is a parameter here, `xxh3`, and
everything proved holds for every function of a byte list and a seed. What
is hashed is fixed by the code: a block's `BlockHash` hashes the bytes of its
tokens seeded by the salt hash, and its `SequenceHash` is that block hash for
a root block, or the hash of the parent's sequence hash followed by the block
hash otherwise. The bytes of a slice of integers are `bytemuck::cast_slice`
of it, the slice's own memory, which on the little-endian targets the crate
is built for is each integer's bytes least significant first.

`Tokens(Vec<Token>)` is a list of tokens. Sizes and lengths are `usize` in the
source and natural numbers here; none of them comes near overflow.

## Main definitions

* `Xxh3`: The type of the seeded 64-bit hash the crate calls.
* `castSliceU32`, `castSliceU64`: The bytes of a slice of integers.
* `TokenBlockError`: The errors of partial-block operations.
* `PartialTokenBlock`: A block still accumulating tokens, with its operations.
* `TokenBlockChunk`: A chunk of tokens with its block hash.
* `TokenBlock`: A full block with its block and sequence hashes.
* `TokenBlock.default`: The derived `Default`, whose sequence hash is zero.

## Theorems

* `PartialTokenBlock.pushTokens_spec`: Pushing keeps what fits and returns
  the rest.
* `PartialTokenBlock.commit_eq_ok`: Committing a full block hashes it and
  leaves an empty child block.
-/

namespace Dynamo

namespace Tokens

/-- A token: `u32`. -/
abbrev Token := UInt32

/-- The hash of the salt, seeding every block hash: `u64`. -/
abbrev SaltHash := UInt64

/-- The hash of the tokens of one block: `u64`. -/
abbrev BlockHash := UInt64

/-- The hash of a block together with everything before it: `u64`. -/
abbrev SequenceHash := UInt64

/-- `xxh3_64_with_seed(data, seed)`: a 64-bit hash of a byte slice and a
    seed. -/
abbrev Xxh3 := List UInt8 → UInt64 → UInt64

/-- The four bytes of a `u32`, least significant first. -/
def u32LeBytes (x : UInt32) : List UInt8 :=
  [x.toUInt8, (x >>> 8).toUInt8, (x >>> 16).toUInt8, (x >>> 24).toUInt8]

/-- The eight bytes of a `u64`, least significant first. -/
def u64LeBytes (x : UInt64) : List UInt8 :=
  (List.range 8).map fun i => (x >>> (8 * i).toUInt64).toUInt8

/-- `bytemuck::cast_slice` of a `[u32]`: the slice's memory, each value's
    bytes least significant first on a little-endian target. -/
def castSliceU32 (xs : List UInt32) : List UInt8 :=
  xs.flatMap u32LeBytes

/-- `bytemuck::cast_slice` of a `[u64]`, likewise. -/
def castSliceU64 (xs : List UInt64) : List UInt8 :=
  xs.flatMap u64LeBytes

/-- `compute_hash_v2(data, seed)`. -/
def computeHashV2 (xxh3 : Xxh3) (data : List UInt8) (seed : UInt64) : UInt64 :=
  xxh3 data seed

/-- `TokenBlockError`. -/
inductive TokenBlockError where
  | full
  | incomplete
  | empty
  | insufficientTokens
  deriving DecidableEq, Repr

/-- `TokenBlockChunk`: the tokens of a block with their block hash, before the
    sequence hash is known. -/
structure TokenBlockChunk where
  tokens : List Token
  saltHash : SaltHash
  blockHash : BlockHash
  deriving DecidableEq, Repr

/-- `TokenBlock`: a full block with both of its hashes. -/
structure TokenBlock where
  tokens : List Token
  saltHash : SaltHash
  blockHash : BlockHash
  sequenceHash : SequenceHash
  parentSequenceHash : Option SequenceHash
  deriving DecidableEq, Repr

/-- The derived `Default` of `TokenBlock`: no tokens and every hash zero. -/
def TokenBlock.default : TokenBlock :=
  ⟨[], 0, 0, 0, none⟩

/-- `PartialTokenBlock`: the block still collecting tokens, which knows the
    sequence hash of the block before it. -/
structure PartialTokenBlock where
  tokens : List Token
  blockSize : Nat
  saltHash : SaltHash
  parentSequenceHash : Option SequenceHash
  deriving DecidableEq, Repr

section Hashing

variable (xxh3 : Xxh3)

/-- `TokenBlockChunk::new`: hash the tokens, seeded by the salt hash. -/
def TokenBlockChunk.new (tokens : List Token) (saltHash : SaltHash) : TokenBlockChunk :=
  { tokens := tokens, saltHash := saltHash,
    blockHash := computeHashV2 xxh3 (castSliceU32 tokens) saltHash }

/-- `TokenBlockChunk::from_tokens`, the same from a borrowed slice. -/
def TokenBlockChunk.fromTokens (tokens : List Token) (saltHash : SaltHash) : TokenBlockChunk :=
  TokenBlockChunk.new xxh3 tokens saltHash

/-- `TokenBlock::from_chunk`: the sequence hash chains the parent's sequence
    hash to the chunk's block hash; a root block's is its block hash. -/
def TokenBlock.fromChunk (chunk : TokenBlockChunk) (parentSequenceHash : Option SequenceHash) :
    TokenBlock :=
  let sequenceHash := match parentSequenceHash with
    | some parent => computeHashV2 xxh3 (castSliceU64 [parent, chunk.blockHash]) chunk.saltHash
    | none => chunk.blockHash
  { tokens := chunk.tokens, saltHash := chunk.saltHash, blockHash := chunk.blockHash,
    sequenceHash := sequenceHash, parentSequenceHash := parentSequenceHash }

end Hashing

@[simp]
theorem TokenBlock.fromChunk_tokens (xxh3 : Xxh3) (c : TokenBlockChunk) (p : Option SequenceHash) :
    (TokenBlock.fromChunk xxh3 c p).tokens = c.tokens := rfl

@[simp]
theorem TokenBlock.fromChunk_blockHash (xxh3 : Xxh3) (c : TokenBlockChunk)
    (p : Option SequenceHash) : (TokenBlock.fromChunk xxh3 c p).blockHash = c.blockHash := rfl

@[simp]
theorem TokenBlock.fromChunk_saltHash (xxh3 : Xxh3) (c : TokenBlockChunk)
    (p : Option SequenceHash) : (TokenBlock.fromChunk xxh3 c p).saltHash = c.saltHash := rfl

@[simp]
theorem TokenBlock.fromChunk_parentSequenceHash (xxh3 : Xxh3) (c : TokenBlockChunk)
    (p : Option SequenceHash) : (TokenBlock.fromChunk xxh3 c p).parentSequenceHash = p := rfl

@[simp]
theorem TokenBlockChunk.new_tokens (xxh3 : Xxh3) (t : List Token) (s : SaltHash) :
    (TokenBlockChunk.new xxh3 t s).tokens = t := rfl

@[simp]
theorem TokenBlockChunk.new_saltHash (xxh3 : Xxh3) (t : List Token) (s : SaltHash) :
    (TokenBlockChunk.new xxh3 t s).saltHash = s := rfl

namespace PartialTokenBlock

/-- `PartialTokenBlock::create_sequence_root`: the empty first block. -/
def createSequenceRoot (blockSize : Nat) (saltHash : SaltHash) : PartialTokenBlock :=
  { tokens := [], blockSize := blockSize, saltHash := saltHash, parentSequenceHash := none }

/-- `remaining`: how many more tokens fit, saturating at zero. -/
def remaining (b : PartialTokenBlock) : Nat :=
  b.blockSize - b.tokens.length

/-- `len`. -/
def len (b : PartialTokenBlock) : Nat :=
  b.tokens.length

/-- `push_token`: refused with `Full` once the block holds `block_size`
    tokens. -/
def pushToken (b : PartialTokenBlock) (token : Token) :
    Except TokenBlockError PartialTokenBlock :=
  if b.tokens.length ≥ b.blockSize then .error .full
  else .ok { b with tokens := b.tokens ++ [token] }

/-- `push_tokens`: push as many as fit and return the ones that did not. -/
def pushTokens (b : PartialTokenBlock) (tokens : List Token) :
    PartialTokenBlock × List Token :=
  let remainingSpace := b.remaining
  if remainingSpace = 0 then (b, tokens)
  else if tokens.length ≤ remainingSpace then ({ b with tokens := b.tokens ++ tokens }, [])
  else
    -- `split_at(remaining_space)`
    ({ b with tokens := b.tokens ++ tokens.take remainingSpace }, tokens.drop remainingSpace)

/-- `pop_token`: refused with `Empty` on an empty block. -/
def popToken (b : PartialTokenBlock) : Except TokenBlockError PartialTokenBlock :=
  if b.tokens.isEmpty then .error .empty
  else .ok { b with tokens := b.tokens.dropLast }

/-- `pop_tokens`: refused with `InsufficientTokens` when fewer than `count`
    tokens are held. -/
def popTokens (b : PartialTokenBlock) (count : Nat) : Except TokenBlockError PartialTokenBlock :=
  if b.tokens.length < count then .error .insufficientTokens
  else .ok { b with tokens := b.tokens.take (b.tokens.length - count) }

/-- `commit`: a block of exactly `block_size` tokens becomes a `TokenBlock`,
    and the partial block empties and becomes its child. -/
def commit (xxh3 : Xxh3) (b : PartialTokenBlock) :
    Except TokenBlockError (TokenBlock × PartialTokenBlock) :=
  if b.tokens.length ≠ b.blockSize then .error .incomplete
  else
    let chunk := TokenBlockChunk.new xxh3 b.tokens b.saltHash
    let block := TokenBlock.fromChunk xxh3 chunk b.parentSequenceHash
    .ok (block, { b with tokens := [], parentSequenceHash := some block.sequenceHash })

/-- Pushing a list keeps the tokens that fit and hands back the rest: the
    block grows by the first `remaining` of them. -/
theorem pushTokens_spec (b : PartialTokenBlock) (tokens : List Token) :
    b.pushTokens tokens = ({ b with tokens := b.tokens ++ tokens.take b.remaining },
      tokens.drop b.remaining) := by
  unfold pushTokens
  by_cases h0 : b.remaining = 0
  · rw [if_pos h0, h0, List.take_zero, List.drop_zero, List.append_nil]
  · rw [if_neg h0]
    by_cases hfit : tokens.length ≤ b.remaining
    · rw [if_pos hfit, List.take_of_length_le hfit, List.drop_of_length_le hfit]
    · rw [if_neg hfit]

theorem popTokens_of_le (b : PartialTokenBlock) {count : Nat} (h : count ≤ b.tokens.length) :
    b.popTokens count = .ok { b with tokens := b.tokens.take (b.tokens.length - count) } := by
  simp only [popTokens, Nat.not_lt.mpr h, if_false]

theorem commit_eq_ok (xxh3 : Xxh3) (b : PartialTokenBlock) (h : b.tokens.length = b.blockSize) :
    let block := TokenBlock.fromChunk xxh3 (TokenBlockChunk.new xxh3 b.tokens b.saltHash)
      b.parentSequenceHash
    b.commit xxh3 = .ok (block,
      { b with tokens := [], parentSequenceHash := some block.sequenceHash }) := by
  simp only [commit, h, ne_eq, not_true_eq_false, if_false]

theorem commit_eq_error (xxh3 : Xxh3) (b : PartialTokenBlock) (h : b.tokens.length ≠ b.blockSize) :
    b.commit xxh3 = .error .incomplete := by
  simp only [commit, h, ne_eq, not_false_eq_true, if_true]

end PartialTokenBlock

end Tokens

end Dynamo
