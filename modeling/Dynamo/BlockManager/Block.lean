import Mathlib.Data.Prod.Lex
import Mathlib.Order.Basic
import Dynamo.Tokens.Block
import Dynamo.BlockManager.Layout

/-!
# Blocks, Their States and Their Metadata

The data model of `block_manager/block.rs` and `block_manager/block/state.rs`.
A `Block` is one slot of KV-cache storage. It carries metadata the pool orders
free blocks by, and a `BlockState` that says what the slot holds: nothing
(`Reset`), a sequence still being filled (`Partial`), a full block of tokens
(`Complete`), or a full block the registry knows under its sequence hash
(`Registered`).

A registered state holds an `Arc<RegistrationHandle>`, and the handle's
`Drop` is what tells the event manager that the block left the cache. Which
allocation an `Arc` points to is what decides when that happens, so the model
gives every handle the number of its allocation, `id`; the other fields are
the source's. The pool never hands one handle to two blocks, but nothing in
the data prevents it, and the pool's invariant proves it.

What a caller can do to a `MutableBlock` it holds is the `BlockExt` trait and
`update_metadata`, collected in `BlockCall`. None of them produces a
registered state: only the registry does that.

Ticks are `u64` and the priority of `BasicMetadata` is `u32` in the source;
they are natural numbers here, as nothing depends on their wrapping. The
storage layout of a block is reduced to its index and its page size, the two
things a modelled function reads.

## Main definitions

* `BlockMetadata`: The hooks the pool calls on a block's metadata.
* `BasicMetadata`: The metadata the pool is used with, ordered by priority
  and then by the ticks.
* `RegistrationHandle`: The registry's record of a registered block.
* `BlockState`: What a block holds, with its transitions.
* `Block`: A block with its data, metadata and state.
* `BlockCall`: What a caller holding a `MutableBlock` can call on it.

## Theorems

* `BlockState.commit_registeredHandle` and its siblings: No successful
  state transition produces a registered state.
* `Block.call_registeredHandle`: A caller's call keeps a block it holds
  unregistered, and keeps its data.
* `Block.sequenceHash_of_registeredHandle`: A registered block's sequence hash
  is its handle's.
* `Block.sequenceHash_isOk`: The sequence hash is known exactly for a complete
  or registered block.
-/

namespace Dynamo

namespace BlockManager

open Tokens

/-- `BlockMetadata`: what the pool calls when a block is acquired, returned or
    reset. The trait also requires `Ord`, which is a separate `LinearOrder`
    instance here. -/
class BlockMetadata (M : Type) where
  onAcquired : M → Nat → M
  onReturned : M → Nat → M
  resetMetadata : M → M

/-- `BasicMetadata`. -/
structure BasicMetadata where
  priority : Nat
  returnedTick : Nat
  acquiredTick : Nat
  deriving DecidableEq, Repr

instance : BlockMetadata BasicMetadata where
  onAcquired m tick := { m with acquiredTick := tick }
  onReturned m tick := { m with returnedTick := tick }
  resetMetadata m := { m with priority := 0 }

/-- The derived `Ord` of `BasicMetadata` compares its fields in order. -/
def BasicMetadata.lexKey (m : BasicMetadata) : ℕ ×ₗ ℕ ×ₗ ℕ :=
  toLex (m.priority, toLex (m.returnedTick, m.acquiredTick))

theorem BasicMetadata.lexKey_injective : Function.Injective BasicMetadata.lexKey := by
  intro a b h
  cases a
  cases b
  simp only [BasicMetadata.lexKey, toLex_inj, Prod.mk.injEq] at h
  obtain ⟨h1, h2, h3⟩ := h
  rw [h1, h2, h3]

instance : LinearOrder BasicMetadata :=
  LinearOrder.lift' BasicMetadata.lexKey BasicMetadata.lexKey_injective

/-- `RegistrationHandle`, with `id` naming the allocation of its `Arc`. -/
structure RegistrationHandle where
  id : Nat
  blockHash : BlockHash
  sequenceHash : SequenceHash
  parentSequenceHash : Option SequenceHash
  deriving DecidableEq, Repr

/-- `RegistrationHandle::from_token_block`, in the allocation `id`. -/
def RegistrationHandle.fromTokenBlock (id : Nat) (tokenBlock : TokenBlock) :
    RegistrationHandle :=
  { id := id, blockHash := tokenBlock.blockHash, sequenceHash := tokenBlock.sequenceHash,
    parentSequenceHash := tokenBlock.parentSequenceHash }

/-- The errors of block operations: `BlockError::InvalidState` and
    `BlockStateInvalid` carry a message, the partial block's own errors
    pass through, and so do the errors of the block's layout
    (`BlockError::Layout`). -/
inductive BlockError where
  | invalidState (msg : String)
  | tokenBlock (e : TokenBlockError)
  | layout (e : LayoutError)
  deriving DecidableEq, Repr

/-- `BlockState`. -/
inductive BlockState where
  | reset
  | partialState (block : PartialTokenBlock)
  | complete (tokenBlock : TokenBlock)
  | registered (handle : RegistrationHandle)
  deriving DecidableEq, Repr

namespace BlockState

/-- The handle a registered state holds. -/
def registeredHandle : BlockState → Option RegistrationHandle
  | .registered handle => some handle
  | _ => none

/-- `is_registered`. -/
def isRegistered (s : BlockState) : Bool :=
  s.registeredHandle.isSome

/-- `matches!(state, BlockState::Registered(handle) if handle.sequence_hash() == h)`,
    the test of `wait_for_returned_block`. -/
def isRegisteredWith (h : SequenceHash) (s : BlockState) : Bool :=
  match s with
  | .registered handle => handle.sequenceHash == h
  | _ => false

/-- `initialize_sequence`. -/
def initializeSequence (s : BlockState) (pageSize : Nat) (saltHash : SaltHash) :
    Except BlockError BlockState :=
  match s with
  | .reset => .ok (.partialState (PartialTokenBlock.createSequenceRoot pageSize saltHash))
  | _ => .error (.invalidState "Block is not reset")

/-- The partial block of a partial state, or the error every partial-only
    operation gives. -/
def partialBlock (s : BlockState) : Except BlockError PartialTokenBlock :=
  match s with
  | .partialState block => .ok block
  | _ => .error (.invalidState "Block is not partial")

/-- The partial-only operations: run `op` on the partial block and rebuild
    the state from its result. -/
def onPartialBlock {α : Type} (s : BlockState) (op : PartialTokenBlock → Except TokenBlockError α)
    (mk : α → BlockState) : Except BlockError BlockState := do
  let block ← s.partialBlock
  match op block with
  | .ok a => .ok (mk a)
  | .error e => .error (.tokenBlock e)

/-- `add_token`. -/
def addToken (s : BlockState) (token : Token) : Except BlockError BlockState :=
  s.onPartialBlock (fun block => block.pushToken token) .partialState

/-- `add_tokens`: the state with the tokens that fit, and the rest. -/
def addTokens (s : BlockState) (tokens : List Token) :
    Except BlockError (BlockState × List Token) := do
  let block ← s.partialBlock
  let (block, rest) := block.pushTokens tokens
  .ok (.partialState block, rest)

/-- `pop_token`. -/
def popToken (s : BlockState) : Except BlockError BlockState :=
  s.onPartialBlock PartialTokenBlock.popToken .partialState

/-- `pop_tokens`. -/
def popTokens (s : BlockState) (count : Nat) : Except BlockError BlockState :=
  s.onPartialBlock (fun block => block.popTokens count) .partialState

/-- `commit`: a full partial block becomes complete. -/
def commit (xxh3 : Xxh3) (s : BlockState) : Except BlockError BlockState :=
  s.onPartialBlock (PartialTokenBlock.commit xxh3) fun r => .complete r.1

/-- `apply_token_block`: a reset state takes a complete block. -/
def applyTokenBlock (s : BlockState) (tokenBlock : TokenBlock) : Except BlockError BlockState :=
  match s with
  | .reset => .ok (.complete tokenBlock)
  | _ => .error (.invalidState "Block is not reset")

/-- `len`: the number of tokens held; a registered state does not say. -/
def len : BlockState → Option Nat
  | .reset => some 0
  | .partialState block => some block.len
  | .complete tokenBlock => some tokenBlock.tokens.length
  | .registered _ => none

/-- `remaining`: only a partial state has room for more tokens. -/
def remaining : BlockState → Nat
  | .partialState block => block.remaining
  | _ => 0

/-- `tokens`. -/
def tokens : BlockState → Option (List Token)
  | .reset | .registered _ => none
  | .partialState block => some block.tokens
  | .complete tokenBlock => some tokenBlock.tokens

/-- `is_complete`: complete or registered. -/
def isComplete : BlockState → Bool
  | .complete _ | .registered _ => true
  | _ => false

@[simp]
theorem registeredHandle_registered (handle : RegistrationHandle) :
    (BlockState.registered handle).registeredHandle = some handle := rfl

@[simp]
theorem registeredHandle_reset : BlockState.reset.registeredHandle = none := rfl

theorem isRegisteredWith_iff {h : SequenceHash} {s : BlockState} :
    s.isRegisteredWith h = true ↔ ∃ handle, s.registeredHandle = some handle ∧
      handle.sequenceHash = h := by
  cases s with
  | registered handle =>
      simp only [isRegisteredWith, beq_iff_eq, registeredHandle_registered, Option.some.injEq,
        exists_eq_left']
  | reset => simp only [isRegisteredWith, Bool.false_eq_true, registeredHandle_reset,
      reduceCtorEq, false_and, exists_false]
  | partialState b => simp only [isRegisteredWith, Bool.false_eq_true, registeredHandle,
      reduceCtorEq, false_and, exists_false]
  | complete tb => simp only [isRegisteredWith, Bool.false_eq_true, registeredHandle,
      reduceCtorEq, false_and, exists_false]

end BlockState

/-- `BlockData`, reduced to the block's index in its layout and the layout's
    page size. -/
structure BlockData where
  blockIdx : Nat
  pageSize : Nat
  deriving DecidableEq, Repr

/-- `Block`. -/
structure Block (M : Type) where
  data : BlockData
  metadata : M
  state : BlockState
  deriving DecidableEq, Repr

/-- What a caller holding a `MutableBlock` can call on it: the `BlockExt`
    trait and `update_metadata`. -/
inductive BlockCall (M : Type) where
  | reset
  | initSequence (saltHash : SaltHash)
  | addToken (token : Token)
  | addTokens (tokens : List Token)
  | popToken
  | popTokens (count : Nat)
  | commit
  | applyTokenBlock (tokenBlock : TokenBlock)
  | updateMetadata (metadata : M)
  deriving DecidableEq, Repr

namespace Block

variable {M : Type}

/-- `Block::new`: a block starts reset. The source wraps it in a `Result`
    that is always `Ok`. -/
def new (data : BlockData) (metadata : M) : Block M :=
  { data := data, metadata := metadata, state := .reset }

/-- `sequence_hash`: known once the block is complete. -/
def sequenceHash (b : Block M) : Except BlockError SequenceHash :=
  match b.state with
  | .complete tokenBlock => .ok tokenBlock.sequenceHash
  | .registered handle => .ok handle.sequenceHash
  | _ => .error (.invalidState "Block is not complete")

/-- `BlockExt::len`: a registered block counts as a full page. -/
def len (b : Block M) : Nat :=
  b.state.len.getD b.data.pageSize

/-- `BlockExt::remaining`. -/
def remaining (b : Block M) : Nat :=
  b.state.remaining

/-- `BlockExt::tokens`. -/
def tokens (b : Block M) : Option (List Token) :=
  b.state.tokens

/-- `reset`: the state is dropped, and with it any registration handle. -/
def reset [BlockMetadata M] (b : Block M) : Block M :=
  { b with state := .reset, metadata := BlockMetadata.resetMetadata b.metadata }

/-- `metadata_on_acquired`. -/
def metadataOnAcquired [BlockMetadata M] (b : Block M) (tick : Nat) : Block M :=
  { b with metadata := BlockMetadata.onAcquired b.metadata tick }

/-- `metadata_on_returned`. -/
def metadataOnReturned [BlockMetadata M] (b : Block M) (tick : Nat) : Block M :=
  { b with metadata := BlockMetadata.onReturned b.metadata tick }

/-- A new state in the same block. -/
def withState (b : Block M) (state : BlockState) : Block M :=
  { b with state := state }

/-- `BlockExt::apply_token_block`: the token block must fill a page. -/
def applyTokenBlock (b : Block M) (tokenBlock : TokenBlock) : Except BlockError (Block M) :=
  let size := tokenBlock.tokens.length
  let pageSize := b.data.pageSize
  if pageSize ≠ size then
    .error (.invalidState s!"TokenBlock size ({size}) does not match Block page size ({pageSize})")
  else b.withState <$> b.state.applyTokenBlock tokenBlock

/-- A caller's call on a block it holds; a call that fails leaves the block
    as it was, so only the successful result is a new block. -/
def call [BlockMetadata M] (xxh3 : Xxh3) (c : BlockCall M) (b : Block M) : Except BlockError (Block M) :=
  match c with
  | .reset => .ok b.reset
  | .initSequence saltHash => b.withState <$> b.state.initializeSequence b.data.pageSize saltHash
  | .addToken token => b.withState <$> b.state.addToken token
  | .addTokens tokens => (fun r => b.withState r.1) <$> b.state.addTokens tokens
  | .popToken => b.withState <$> b.state.popToken
  | .popTokens count => b.withState <$> b.state.popTokens count
  | .commit => b.withState <$> b.state.commit xxh3
  | .applyTokenBlock tokenBlock => b.applyTokenBlock tokenBlock
  | .updateMetadata metadata => .ok { b with metadata := metadata }

section Hooks

variable [BlockMetadata M]

@[simp] theorem reset_state (b : Block M) : b.reset.state = .reset := rfl
@[simp] theorem reset_data (b : Block M) : b.reset.data = b.data := rfl
@[simp] theorem metadataOnAcquired_state (b : Block M) (t : Nat) :
    (b.metadataOnAcquired t).state = b.state := rfl
@[simp] theorem metadataOnAcquired_data (b : Block M) (t : Nat) :
    (b.metadataOnAcquired t).data = b.data := rfl
@[simp] theorem metadataOnReturned_state (b : Block M) (t : Nat) :
    (b.metadataOnReturned t).state = b.state := rfl
@[simp] theorem metadataOnReturned_data (b : Block M) (t : Nat) :
    (b.metadataOnReturned t).data = b.data := rfl

end Hooks

@[simp] theorem withState_state (b : Block M) (s : BlockState) : (b.withState s).state = s := rfl
@[simp] theorem withState_data (b : Block M) (s : BlockState) : (b.withState s).data = b.data := rfl

/-- A transition of the state alone succeeds with the state it gives. -/
theorem toOption_map_withState (b : Block M) (x : Except BlockError BlockState) :
    (b.withState <$> x).toOption.map Block.state = x.toOption := by
  cases x <;> rfl

theorem sequenceHash_of_registeredHandle {b : Block M} {handle : RegistrationHandle}
    (h : b.state.registeredHandle = some handle) : b.sequenceHash = .ok handle.sequenceHash := by
  unfold sequenceHash
  cases hs : b.state with
  | registered hd =>
      rw [hs, BlockState.registeredHandle_registered, Option.some.injEq] at h
      rw [h]
  | reset => rw [hs] at h; exact absurd h (by simp only [BlockState.registeredHandle_reset,
      reduceCtorEq, not_false_eq_true])
  | partialState pb => rw [hs] at h; exact absurd h (by simp only [BlockState.registeredHandle,
      reduceCtorEq, not_false_eq_true])
  | complete tb => rw [hs] at h; exact absurd h (by simp only [BlockState.registeredHandle,
      reduceCtorEq, not_false_eq_true])

/-- The sequence hash is known exactly for a complete or registered block. -/
theorem sequenceHash_isOk (b : Block M) : b.sequenceHash.isOk = b.state.isComplete := by
  unfold sequenceHash
  cases b.state <;> rfl

end Block

namespace BlockState

/-- A partial-only operation that rebuilds an unregistered state gives an
    unregistered state. -/
theorem onPartialBlock_registeredHandle {s s' : BlockState} {α : Type}
    {op : PartialTokenBlock → Except TokenBlockError α} {mk : α → BlockState}
    (hmk : ∀ a, (mk a).registeredHandle = none) (h : s.onPartialBlock op mk = .ok s') :
    s'.registeredHandle = none := by
  obtain ⟨block, -, hblock⟩ := Except.bind_eq_ok h
  cases hop : op block with
  | ok a =>
      rw [hop] at hblock
      cases hblock
      exact hmk a
  | error e => rw [hop] at hblock; cases hblock

theorem initializeSequence_registeredHandle {s s' : BlockState} {n : Nat} {salt : SaltHash}
    (h : s.initializeSequence n salt = .ok s') : s'.registeredHandle = none := by
  cases s with
  | reset => cases h; rfl
  | _ => cases h

theorem addToken_registeredHandle {s s' : BlockState} {t : Token}
    (h : s.addToken t = .ok s') : s'.registeredHandle = none :=
  onPartialBlock_registeredHandle (fun _ => rfl) h

theorem addTokens_registeredHandle {s s' : BlockState} {ts rest : List Token}
    (h : s.addTokens ts = .ok (s', rest)) : s'.registeredHandle = none := by
  obtain ⟨block, -, hblock⟩ := Except.bind_eq_ok h
  cases hblock
  rfl

theorem popToken_registeredHandle {s s' : BlockState} (h : s.popToken = .ok s') :
    s'.registeredHandle = none :=
  onPartialBlock_registeredHandle (fun _ => rfl) h

theorem popTokens_registeredHandle {s s' : BlockState} {k : Nat}
    (h : s.popTokens k = .ok s') : s'.registeredHandle = none :=
  onPartialBlock_registeredHandle (fun _ => rfl) h

theorem commit_registeredHandle {s s' : BlockState} {xxh3 : Xxh3}
    (h : s.commit xxh3 = .ok s') : s'.registeredHandle = none :=
  onPartialBlock_registeredHandle (fun _ => rfl) h

theorem applyTokenBlock_registeredHandle {s s' : BlockState} {tb : TokenBlock}
    (h : s.applyTokenBlock tb = .ok s') : s'.registeredHandle = none := by
  cases s with
  | reset => cases h; rfl
  | _ => cases h

/-- On a partial state, a partial-only operation succeeds exactly when the
    partial block's own operation does. -/
theorem toOption_onPartialBlock_partialState {α : Type} (block : PartialTokenBlock)
    (op : PartialTokenBlock → Except TokenBlockError α) (mk : α → BlockState) :
    ((partialState block).onPartialBlock op mk).toOption = (op block).toOption.map mk := by
  -- the partial block is there, so only the operation can fail
  show (match op block with
    | .ok a => (.ok (mk a) : Except BlockError BlockState)
    | .error e => .error (.tokenBlock e)).toOption = _
  cases op block <;> rfl

/-- `add_tokens` on a partial state never fails: it keeps the tokens that fit
    and hands back exactly the rest. -/
theorem addTokens_partialState (block : PartialTokenBlock) (tokens : List Token) :
    (partialState block).addTokens tokens = .ok
      (.partialState { block with tokens := block.tokens ++ tokens.take block.remaining },
        tokens.drop block.remaining) := by
  simp only [addTokens, partialBlock, PartialTokenBlock.pushTokens_spec]
  rfl

end BlockState

namespace Block

variable {M : Type} [BlockMetadata M]

/-- A caller's call keeps an unregistered block unregistered, and keeps its
    data: a caller never holds a registered `MutableBlock`. -/
theorem call_registeredHandle {xxh3 : Xxh3} {c : BlockCall M} {b b' : Block M}
    (hb : b.state.registeredHandle = none) (h : b.call xxh3 c = .ok b') :
    b'.state.registeredHandle = none ∧ b'.data = b.data := by
  -- a transition `b.withState <$> x` succeeds with the state `x` gave
  have hmap : ∀ {x : Except BlockError BlockState},
      (b.withState <$> x) = .ok b' → ∃ s, x = .ok s ∧ b' = b.withState s := by
    intro x hx
    cases x with
    | ok s => exact ⟨s, rfl, (Except.ok.inj hx).symm⟩
    | error e => cases hx
  cases c with
  | reset => cases h; exact ⟨rfl, rfl⟩
  | updateMetadata m => cases h; exact ⟨hb, rfl⟩
  | initSequence salt =>
      obtain ⟨s, hs, rfl⟩ := hmap h
      exact ⟨BlockState.initializeSequence_registeredHandle hs, rfl⟩
  | addToken t =>
      obtain ⟨s, hs, rfl⟩ := hmap h
      exact ⟨BlockState.addToken_registeredHandle hs, rfl⟩
  | addTokens ts =>
      cases hs : b.state.addTokens ts with
      | error e => rw [call, hs] at h; cases h
      | ok r =>
          rw [call, hs] at h
          cases h
          exact ⟨BlockState.addTokens_registeredHandle hs, rfl⟩
  | popToken =>
      obtain ⟨s, hs, rfl⟩ := hmap h
      exact ⟨BlockState.popToken_registeredHandle hs, rfl⟩
  | popTokens k =>
      obtain ⟨s, hs, rfl⟩ := hmap h
      exact ⟨BlockState.popTokens_registeredHandle hs, rfl⟩
  | commit =>
      obtain ⟨s, hs, rfl⟩ := hmap h
      exact ⟨BlockState.commit_registeredHandle hs, rfl⟩
  | applyTokenBlock tb =>
      change b.applyTokenBlock tb = .ok b' at h
      unfold applyTokenBlock at h
      dsimp only at h
      split at h
      · cases h
      · obtain ⟨s, hs, rfl⟩ := hmap h
        exact ⟨BlockState.applyTokenBlock_registeredHandle hs, rfl⟩

end Block

end BlockManager

end Dynamo
