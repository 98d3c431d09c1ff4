import Dynamo.Tokens.Sequence

/-!
# KV Router Events and Block Hashes

The data the KV router exchanges with the workers, from
`lib/llm/src/kv_router/protocols.rs`, and the two ways the router turns a
request's tokens into the `LocalBlockHash`es it looks up in its index.

A worker reports the blocks of its KV cache as `KvCacheEvent`s: a `Stored`
event names a chain of blocks under an optional parent, each with the
worker's own `ExternalSequenceBlockHash` and the `LocalBlockHash` of its
tokens; a `Removed` event names blocks by their external hash.

`find_matches_for_request` (used by `KvRouter::schedule`) hashes a request
with `compute_block_hash_for_seq`: the little-endian bytes of each whole
chunk, hashed with seed `XXH3_SEED = 1337`. `KvRouter::generate` instead runs
the token crate's `split_tokens` with salt `1337` and takes each complete
block's block hash. `generateBlockHashes_eq` says the two agree for every
token list and block size: both hash the same bytes with the same seed.

## Main definitions

* `LocalBlockHash`, `ExternalSequenceBlockHash`: The two kinds of block hash.
* `KvCacheEvent`, `RouterEvent`: A worker's cache event.
* `computeBlockHashForSeq`: The hashes of a request's whole chunks.
* `KvRouter.generateBlockHashes`: The hashes `generate` looks up.

## Theorems

* `KvRouter.generateBlockHashes_eq`: The two hashing paths agree.
-/

namespace Dynamo

namespace KvRouter

open Tokens (Token Xxh3 u32LeBytes)

/-- `LocalBlockHash`: the hash of a block's tokens alone. -/
structure LocalBlockHash where
  val : UInt64
  deriving DecidableEq, Repr

/-- `ExternalSequenceBlockHash`: a worker's hash of a block and everything
    before it, computed outside the router. -/
structure ExternalSequenceBlockHash where
  val : UInt64
  deriving DecidableEq, Repr

/-- `WorkerId`: `i64`. -/
abbrev WorkerId := Int

/-- `KvCacheStoredBlockData`. -/
structure KvCacheStoredBlockData where
  blockHash : ExternalSequenceBlockHash
  tokensHash : LocalBlockHash
  deriving DecidableEq, Repr

/-- `KvCacheStoreData`: a chain of blocks under an optional parent. -/
structure KvCacheStoreData where
  parentHash : Option ExternalSequenceBlockHash
  blocks : List KvCacheStoredBlockData
  deriving DecidableEq, Repr

/-- `KvCacheRemoveData`. -/
structure KvCacheRemoveData where
  blockHashes : List ExternalSequenceBlockHash
  deriving DecidableEq, Repr

/-- `KvCacheEventData`. -/
inductive KvCacheEventData where
  | stored (op : KvCacheStoreData)
  | removed (op : KvCacheRemoveData)
  deriving DecidableEq, Repr

/-- `KvCacheEvent`. -/
structure KvCacheEvent where
  eventId : UInt64
  data : KvCacheEventData
  deriving DecidableEq, Repr

/-- `RouterEvent`: a cache event of one worker. -/
structure RouterEvent where
  workerId : WorkerId
  event : KvCacheEvent
  deriving DecidableEq, Repr

/-- `XXH3_SEED`. -/
def xxh3Seed : UInt64 := 1337

section Hashing

variable (xxh3 : Xxh3)

/-- `compute_hash`: `xxh3_64_with_seed` with `XXH3_SEED`. -/
def computeHash (data : List UInt8) : UInt64 :=
  xxh3 data xxh3Seed

/-- `compute_block_hash`. -/
def computeBlockHash (data : List UInt8) : LocalBlockHash :=
  ⟨computeHash xxh3 data⟩

/-- `compute_block_hash_for_seq`: the hash of the little-endian bytes of each
    whole chunk. `chunks_exact` panics on a zero chunk size. -/
def computeBlockHashForSeq (tokens : List Token) (kvBlockSize : Nat) :
    Except Abort (List LocalBlockHash) :=
  if kvBlockSize = 0 then .error (.panic "chunk size must be non-zero")
  else .ok ((tokens.chunksExact kvBlockSize).map fun chunk =>
    computeBlockHash xxh3 (chunk.flatMap u32LeBytes))

/-- The hashes `KvRouter::generate` looks up: the block hash of each complete
    block of `split_tokens` with salt `1337`. -/
def generateBlockHashes (tokens : List Token) (blockSize : Nat) :
    Except Abort (List LocalBlockHash) :=
  (Tokens.TokenBlockSequence.splitTokens xxh3 tokens blockSize 1337).map fun (completeBlocks, _) =>
    completeBlocks.map fun block => ⟨block.blockHash⟩

end Hashing

theorem generateBlockHashes_eq (xxh3 : Xxh3) (tokens : List Token) {bs : Nat} (hbs : 0 < bs) :
    generateBlockHashes xxh3 tokens bs = computeBlockHashForSeq xxh3 tokens bs := by
  rw [generateBlockHashes, Tokens.TokenBlockSequence.splitTokens_eq_ok xxh3 hbs,
    computeBlockHashForSeq, if_neg (Nat.pos_iff_ne_zero.mp hbs)]
  -- The chain of sequence hashes does not touch the block hashes.
  simp only [Except.map, Except.ok.injEq, Tokens.TokenBlockSequence.splitBlocks,
    Tokens.TokenBlockSequence.splitChunks]
  rw [List.map_threadMap (Tokens.TokenBlockSequence.chainStep xxh3) _ _
    (fun chunk => (⟨chunk.blockHash⟩ : LocalBlockHash)) (fun _ _ => rfl), List.map_map]
  rfl

theorem generateBlockHashes_eq_two :
    0 < 2 ∧ generateBlockHashes (fun _ seed => seed) [1, 2, 3] 2 =
      computeBlockHashForSeq (fun _ seed => seed) [1, 2, 3] 2 :=
  ⟨by decide, generateBlockHashes_eq (fun _ seed => seed) [1, 2, 3] (by decide)⟩

end KvRouter

end Dynamo
