import Dynamo.BlockManager.Inactive

/-!
# The Block Pool and Its Progress Engine

The model of `block_manager/pool/state.rs`, `pool/active.rs`,
`block/registry.rs` and `events.rs`: the state the progress engine owns,
together with everything its requests touch and the callers of the pool
hold.

The engine's `State` is the active pool (`map` from sequence hashes to
`Weak<MutableBlock>`), the inactive pool and the registry (`blocks` from
sequence hashes to `Weak<RegistrationHandle>`). What a `Weak` points to is an
allocation, named here by a number; an allocation of `MutableBlock` shared
by `ImmutableBlock`s is a *cell*, and `cells` holds the block of every cell
that some `ImmutableBlock` still holds. A `Weak` upgrades exactly when its
allocation is alive: for a cell, when it is in `cells`; for a registration
handle, when some block's state, or the batching `Publisher` of the request
being served, holds it.

Around the engine: `returnRx` is the return channel, where a dropped
`MutableBlock` sends its block; `mutables` are the blocks of the
`MutableBlock`s callers hold, and `immutables` the cells of their
`ImmutableBlock`s, one entry per handle; and
`events` is what an event manager records: one `publish` per call of
`EventPublisher::publish`, one `release` per call of `block_release`. The
recording manager drops the handles it is given, as the source's own test
manager does. A handle is released when its last `Arc` goes; the model
records that at the end of the operation in which it happened, after every
handle the operation dropped before it published, which is the order the
source's drops run in.

The engine serves one request at a time, and a request's effects are one
step here. What callers do between requests (drop a handle, call a method on
a block they hold, send a request) is a step of its own; `Step` collects all
of them. The biased select of `ProgressEngine::step` only orders requests
against returned blocks, so every interleaving it allows is one `Step` allows.

## Main definitions

* `Event`: What the event manager records.
* `Pool`: The engine's state with the channel, the cells, the callers'
  handles and the record of events.
* `Pool.registerBlocks`, `Pool.matchSequenceHashes`,
  `Pool.allocateBlocks`, `Pool.returnBlock`: The engine's operations.
* `Pool.Step`, `Pool.Run`: The system's steps and runs.
* `Pool.Move`, `Pool.replay`: A schedule of steps, played from a state.
-/

namespace Dynamo

namespace BlockManager

open Tokens

/-- `BlockRegistationError`. -/
inductive BlockRegistationError where
  | blockAlreadyRegistered (sequenceHash : SequenceHash)
  | invalidState (msg : String)
  deriving DecidableEq, Repr

/-- The `Display` of `BlockRegistationError`. -/
def BlockRegistationError.toString : BlockRegistationError → String
  | .blockAlreadyRegistered _ => "Block already registered"
  | .invalidState msg => "Invalid state: " ++ msg

/-- A call the event manager records. -/
inductive Event where
  | publish (handles : List RegistrationHandle)
  | release (handle : RegistrationHandle)
  deriving DecidableEq, Repr

/-- The engine's `State` with the return channel, the live cells, the
    callers' handles, the record of events, and the next allocation. -/
structure Pool (M : Type) where
  active : AList (fun _ : SequenceHash => Nat)
  inactive : InactiveBlockPool M
  registry : AList (fun _ : SequenceHash => Nat)
  returnRx : List (Block M)
  cells : AList (fun _ : Nat => Block M)
  mutables : List (Block M)
  immutables : List Nat
  events : List Event
  nextId : Nat

namespace Pool

variable {M : Type}

/-- `State::new`, with no block and no caller. -/
def new : Pool M :=
  { active := ∅, inactive := InactiveBlockPool.new, registry := ∅, returnRx := [], cells := ∅,
    mutables := [], immutables := [], events := [], nextId := 0 }

/-! ### Where the blocks are -/

/-- Every block of the system: in the inactive pool, on the return channel,
    in a cell, or in a caller's `MutableBlock`. -/
def blocks (p : Pool M) : List (Block M) :=
  p.inactive.blocks ++ p.returnRx ++ p.cells.values ++ p.mutables

/-- The registration handles the blocks of a list hold. -/
def handlesOf (blocks : List (Block M)) : List RegistrationHandle :=
  blocks.filterMap fun block => block.state.registeredHandle

/-- The registration handles the system's blocks hold. -/
def handles (p : Pool M) : List RegistrationHandle :=
  handlesOf p.blocks

/-- Whether an `Arc` of the handle allocation `id` is alive: held by a block
    of the system, by a block of the request being served (`extra`), or by
    its `Publisher`. -/
def handleLive (p : Pool M) (extra : List (Block M)) (publisher : List RegistrationHandle)
    (id : Nat) : Bool :=
  (handlesOf (p.blocks ++ extra) ++ publisher).any fun handle => handle.id == id

/-! ### The pieces the requests are made of -/

/-- `MutableBlock::drop`: the block goes to the return channel. -/
def send (p : Pool M) (block : Block M) : Pool M :=
  { p with returnRx := p.returnRx ++ [block] }

/-- A new `ImmutableBlock` of a live cell, handed out by the request. -/
def clone (p : Pool M) (cell : Nat) : Pool M :=
  { p with immutables := p.immutables ++ [cell] }

/-- `Arc::new` of a block registered under `h`, with its `Weak` put in the
    active pool's map and its first `ImmutableBlock` handed out. -/
def share (p : Pool M) (h : SequenceHash) (block : Block M) : Nat × Pool M :=
  (p.nextId,
    { p with cells := p.cells.insert p.nextId block, active := p.active.insert h p.nextId,
             immutables := p.immutables ++ [p.nextId], nextId := p.nextId + 1 })

/-- Dropping one `ImmutableBlock` of a cell: when it was the last, the cell's
    `MutableBlock` drops and sends its block back. -/
def dropImmutable (p : Pool M) (cell : Nat) : Pool M :=
  let p := { p with immutables := p.immutables.erase cell }
  if cell ∈ p.immutables then p
  else
    match p.cells.lookup cell with
    | some block => { p with cells := p.cells.erase cell }.send block
    | none => p

/-- `ActiveBlockPool::match_sequence_hash`: a live `Weak` gives a new
    `ImmutableBlock`; a dead one is removed. -/
def activeMatchSequenceHash (p : Pool M) (h : SequenceHash) : Option Nat × Pool M :=
  match p.active.lookup h with
  | some cell =>
      if cell ∈ p.cells then (some cell, p.clone cell)
      else (none, { p with active := p.active.erase h })
  | none => (none, p)

/-- `ActiveBlockPool::register`: a block registered under a hash whose `Weak`
    is live is dropped, and the live cell shared instead. -/
def activeRegister (p : Pool M) (block : Block M) : Except BlockPoolError Nat × Pool M :=
  if !block.state.isRegistered then
    (.error (.invalidMutableBlock "block is not registered"), p.send block)
  else
    match block.sequenceHash with
    | .error _ => (.error (.invalidMutableBlock "block has no sequence hash"), p.send block)
    | .ok h =>
        match p.active.lookup h with
        | some cell =>
            if cell ∈ p.cells then (.ok cell, (p.clone cell).send block)
            else
              let (cell, p) := p.share h block
              (.ok cell, p)
        | none =>
            let (cell, p) := p.share h block
            (.ok cell, p)

/-- `ActiveBlockPool::remove`: a block whose hash has a live cell is reset;
    a dead `Weak` of its hash is removed. -/
def activeRemove [BlockMetadata M] (p : Pool M) (block : Block M) : Block M × Pool M :=
  match block.sequenceHash with
  | .ok h =>
      match p.active.lookup h with
      | some cell =>
          if cell ∈ p.cells then (block.reset, p)
          else (block, { p with active := p.active.erase h })
      | none => (block, p)
  | .error _ => (block, p)

/-- `State::return_block`. -/
def returnBlock [LinearOrder M] [BlockMetadata M] (p : Pool M) (block : Block M) : Pool M :=
  let (block, p) := p.activeRemove block
  { p with inactive := p.inactive.returnBlock block }

/-- `BlockRegistry::is_registered`, seen from a request holding `extra` and
    `publisher`. -/
def isRegistered (p : Pool M) (extra : List (Block M)) (publisher : List RegistrationHandle)
    (h : SequenceHash) : Bool :=
  match p.registry.lookup h with
  | some id => p.handleLive extra publisher id
  | none => false

/-- `BlockRegistry::register_block` on a block's state: a complete block
    whose hash has no live handle gets a new one. -/
def registerBlock (p : Pool M) (extra : List (Block M)) (publisher : List RegistrationHandle)
    (block : Block M) :
    Except BlockRegistationError (Block M × RegistrationHandle) × Pool M :=
  match block.state with
  | .reset => (.error (.invalidState "Block is in Reset state"), p)
  | .partialState _ => (.error (.invalidState "Block is in Partial state"), p)
  | .complete tokenBlock =>
      let h := tokenBlock.sequenceHash
      if p.isRegistered extra publisher h then (.error (.blockAlreadyRegistered h), p)
      else
        let handle := RegistrationHandle.fromTokenBlock p.nextId tokenBlock
        (.ok (block.withState (.registered handle), handle),
          { p with registry := p.registry.insert h p.nextId, nextId := p.nextId + 1 })
  | .registered handle => (.error (.blockAlreadyRegistered handle.sequenceHash), p)

/-- The loop of `wait_for_returned_block` over the blocks on the channel: a
    block registered under `h` is taken, any other is returned to the pool.
    An empty channel is waited on forever: the engine holds a sender, so it
    never closes. -/
def waitForReturnedBlockFrom [LinearOrder M] [BlockMetadata M] (h : SequenceHash) :
    List (Block M) → Pool M → Except Abort (Block M × Pool M)
  | [], _ => .error .diverge
  | block :: rest, p =>
      if block.state.isRegisteredWith h then .ok (block, { p with returnRx := rest })
      else waitForReturnedBlockFrom h rest ({ p with returnRx := rest }.returnBlock block)

/-- `wait_for_returned_block`. -/
def waitForReturnedBlock [LinearOrder M] [BlockMetadata M] (p : Pool M) (h : SequenceHash) :
    Except Abort (Block M × Pool M) :=
  waitForReturnedBlockFrom h p.returnRx p

/-- The handles dropped by an operation: those alive in `before` that no
    block holds any more, each recorded once. -/
def recordReleases (p : Pool M) (before : List RegistrationHandle) : Pool M :=
  let gone := (before.filter fun handle => !p.handleLive [] [] handle.id).dedup
  { p with events := p.events ++ gone.map .release }

/-- `Publisher::drop`: a non-empty batch is published. -/
def publish (p : Pool M) (publisher : List RegistrationHandle) : Pool M :=
  if publisher = [] then p else { p with events := p.events ++ [.publish publisher] }

/-- The panic of the `assert!` on a block taken for matching. -/
def notRegisteredPanic : Abort :=
  .panic "assertion failed: matches!(raw_block.state(), BlockState::Registered(_))"

/-- How the loop of `register_blocks` ends: its early-return error, if any,
    the cells of the `ImmutableBlock`s it collected, the handles its
    `Publisher` took, and the state. -/
structure RegisterEnd (M : Type) where
  error : Option BlockPoolError
  cells : List Nat
  publisher : List RegistrationHandle
  pool : Pool M

/-- The loop of `register_blocks` over the request's blocks. An early return
    drops the current block, then the blocks not yet reached, in order. -/
def registerLoop [LinearOrder M] [BlockMetadata M] (p : Pool M)
    (publisher : List RegistrationHandle) (cells : List Nat) :
    List (Block M) → Except Abort (RegisterEnd M)
  | [] => .ok ⟨none, cells, publisher, p⟩
  | block :: rest =>
      let stop (e : BlockPoolError) (p : Pool M) : Except Abort (RegisterEnd M) :=
        .ok ⟨some e, cells, publisher, rest.foldl send p⟩
      match block.sequenceHash with
      | .error e => stop (.blockError e) (p.send block)
      | .ok h =>
          match p.activeMatchSequenceHash h with
          | (some cell, p) => registerLoop (p.send block) publisher (cells ++ [cell]) rest
          | (none, p) =>
              match p.inactive.matchSequenceHash h with
              | (some raw, inactive) =>
                  if !raw.state.isRegistered then .error notRegisteredPanic
                  else
                    match ({ p with inactive := inactive } : Pool M).activeRegister raw with
                    | (.ok cell, p) => registerLoop (p.send block) publisher (cells ++ [cell]) rest
                    | (.error e, p) => stop e (p.send block)
              | (none, _) =>
                  match p.registerBlock (block :: rest) publisher block with
                  | (.ok (registered, handle), p) =>
                      match p.activeRegister registered with
                      | (.ok cell, p) => registerLoop p (publisher ++ [handle]) (cells ++ [cell]) rest
                      | (.error e, p) => .ok ⟨some e, cells, publisher ++ [handle], rest.foldl send p⟩
                  | (.error (.blockAlreadyRegistered _), p) =>
                      match p.waitForReturnedBlock h with
                      | .error abort => .error abort
                      | .ok (raw, p) =>
                          match p.activeRegister raw with
                          | (.ok cell, p) =>
                              registerLoop (p.send block) publisher (cells ++ [cell]) rest
                          | (.error e, p) => stop e (p.send block)
                  | (.error e, p) => stop (.failedToRegisterBlock e.toString) (p.send block)

/-- `State::register_blocks`: after the loop, its `Publisher` drops and
    publishes; on an early return the collected `ImmutableBlock`s drop too. -/
def registerBlocks [LinearOrder M] [BlockMetadata M] (p : Pool M) (blocks : List (Block M)) :
    Except Abort (Except BlockPoolError (List Nat) × Pool M) := do
  let before := handlesOf (p.blocks ++ blocks)
  let r ← p.registerLoop [] [] blocks
  let p := ((r.pool.recordReleases before).publish r.publisher).recordReleases r.publisher
  match r.error with
  | none =>
      if r.cells.length ≠ blocks.length then .error (.panic "assertion `left == right` failed")
      else .ok (.ok r.cells, p)
  | some e => .ok (.error e, r.cells.foldl dropImmutable p)

/-- The loop of `match_sequence_hashes`: it stops at the first hash the
    registry does not know. -/
def matchLoop [LinearOrder M] [BlockMetadata M] (p : Pool M) (cells : List Nat) :
    List SequenceHash → Except Abort (List Nat × Pool M)
  | [] => .ok (cells, p)
  | h :: rest =>
      if !p.isRegistered [] [] h then .ok (cells, p)
      else
        match p.activeMatchSequenceHash h with
        | (some cell, p) => matchLoop p (cells ++ [cell]) rest
        | (none, p) => do
            let (raw, p) ← match p.inactive.matchSequenceHash h with
              | (some raw, inactive) => .ok (raw, { p with inactive := inactive })
              | (none, _) => p.waitForReturnedBlock h
            if !raw.state.isRegistered then .error notRegisteredPanic
            else
              match p.activeRegister raw with
              | (.ok cell, p) => matchLoop p (cells ++ [cell]) rest
              | (.error _, _) => .error (.panic "unable to register block; should ever happen")

/-- `State::match_sequence_hashes`. -/
def matchSequenceHashes [LinearOrder M] [BlockMetadata M] (p : Pool M)
    (hashes : List SequenceHash) : Except Abort (List Nat × Pool M) := do
  let (cells, p') ← p.matchLoop [] hashes
  .ok (cells, p'.recordReleases p.handles)

/-- The loop of `allocate_blocks`: `count` calls of `acquire_free_block`,
    keeping what they return. -/
def allocateLoop [LinearOrder M] [BlockMetadata M] (p : Pool M) :
    Nat → Except Abort (List (Block M) × Pool M)
  | 0 => .ok ([], p)
  | n + 1 => do
      let (block, inactive) ← p.inactive.acquireFreeBlock
      let p : Pool M := { p with inactive := inactive }
      match block with
      | some block =>
          let (blocks, p) ← p.allocateLoop n
          .ok (block :: blocks, p)
      | none => p.allocateLoop n

/-- `State::allocate_blocks`: the blocks go to the caller as `MutableBlock`s. -/
def allocateBlocks [LinearOrder M] [BlockMetadata M] (p : Pool M) (count : Nat) :
    Except Abort (Except BlockPoolError (List (Block M)) × Pool M) :=
  let availableBlocks := p.inactive.availableBlocks
  if availableBlocks < count then
    .ok (.error (.notEnoughBlocksAvailable count availableBlocks), p)
  else do
    let (blocks, p') ← p.allocateLoop count
    .ok (.ok blocks,
      ({ p' with mutables := p'.mutables ++ blocks } : Pool M).recordReleases p.handles)

/-- `ControlRequest::AddBlocks`: `InactiveBlockPool::add_blocks`. -/
def addBlocks [LinearOrder M] [BlockMetadata M] (p : Pool M) (blocks : List (Block M)) : Pool M :=
  ({ p with inactive := p.inactive.addBlocks blocks } : Pool M).recordReleases
    (handlesOf (p.blocks ++ blocks))

/-- `handle_return_block` on the block at the head of the channel. -/
def receiveReturned [LinearOrder M] [BlockMetadata M] (p : Pool M) (block : Block M)
    (rest : List (Block M)) : Pool M :=
  ({ p with returnRx := rest } : Pool M).returnBlock block |>.recordReleases p.handles

/-! ### Steps and runs -/

section Steps

variable [LinearOrder M] [BlockMetadata M] (xxh3 : Xxh3)

/-- A freshly made block, as `Block::new` makes it, whose index no block of
    the system has. -/
def Fresh (p : Pool M) (blocks : List (Block M)) : Prop :=
  ((p.blocks ++ blocks).map fun block => block.data.blockIdx).Nodup ∧
    ∀ block ∈ blocks, block.state = .reset

/-- A step of the system, labelled with the blocks it adds: a request served
    by the engine, a returned block received, or an action of a caller. A
    caller sending `register_blocks` hands over `MutableBlock`s it holds, in
    the order it chooses; one calling a method or dropping a handle picks
    any of those it holds. -/
inductive Step : Pool M → List (Block M) → Pool M → Prop
  | allocateBlocks {p p' : Pool M} {count : Nat} {r : Except BlockPoolError (List (Block M))} :
      p.allocateBlocks count = .ok (r, p') → Step p [] p'
  | registerBlocks {p p' : Pool M} {blocks rest : List (Block M)}
      {r : Except BlockPoolError (List Nat)} :
      p.mutables.Perm (blocks ++ rest) →
      ({ p with mutables := rest } : Pool M).registerBlocks blocks = .ok (r, p') → Step p [] p'
  | matchSequenceHashes {p p' : Pool M} {hashes : List SequenceHash} {r : List Nat} :
      p.matchSequenceHashes hashes = .ok (r, p') → Step p [] p'
  | addBlocks {p : Pool M} {blocks : List (Block M)} :
      Fresh p blocks → Step p blocks (p.addBlocks blocks)
  | receiveReturned {p : Pool M} {block : Block M} {rest : List (Block M)} :
      p.returnRx = block :: rest → Step p [] (p.receiveReturned block rest)
  | dropMutable {p : Pool M} {block : Block M} {rest : List (Block M)} :
      p.mutables.Perm (block :: rest) →
      Step p [] (({ p with mutables := rest } : Pool M).send block)
  | dropImmutable {p : Pool M} {cell : Nat} :
      cell ∈ p.immutables → Step p [] (p.dropImmutable cell)
  | call {p : Pool M} {block block' : Block M} {rest : List (Block M)} {c : BlockCall M} :
      p.mutables.Perm (block :: rest) → block.call xxh3 c = .ok block' →
      Step p [] (({ p with mutables := block' :: rest } : Pool M).recordReleases p.handles)

/-- A run of the system, with every block it added. -/
inductive Run : Pool M → List (Block M) → Pool M → Prop
  | refl (p : Pool M) : Run p [] p
  | tail {p q r : Pool M} {added added' : List (Block M)} :
      Run p added q → Step xxh3 q added' r → Run p (added ++ added') r

instance (p : Pool M) (blocks : List (Block M)) : Decidable (Fresh p blocks) :=
  inferInstanceAs (Decidable (_ ∧ _))

/-- A step of a schedule, with the choices `Step` leaves open made by
    position: a caller hands over or drops the first `MutableBlock`s it
    holds, and calls methods on the first. -/
inductive Move (M : Type) where
  | allocateBlocks (count : Nat)
  | registerBlocks (count : Nat)
  | matchSequenceHashes (hashes : List SequenceHash)
  | addBlocks (blocks : List (Block M))
  | receiveReturned
  | dropMutable
  | dropImmutable (cell : Nat)
  | call (c : BlockCall M)

/-- The step a move takes, with the blocks it adds, if it can be taken. -/
def move (p : Pool M) : Move M → Option (List (Block M) × Pool M)
  | .allocateBlocks count =>
      match p.allocateBlocks count with
      | .ok (_, p') => some ([], p')
      | .error _ => none
  | .registerBlocks count =>
      match ({ p with mutables := p.mutables.drop count } : Pool M).registerBlocks
          (p.mutables.take count) with
      | .ok (_, p') => some ([], p')
      | .error _ => none
  | .matchSequenceHashes hashes =>
      match p.matchSequenceHashes hashes with
      | .ok (_, p') => some ([], p')
      | .error _ => none
  | .addBlocks blocks => if Fresh p blocks then some (blocks, p.addBlocks blocks) else none
  | .receiveReturned =>
      match p.returnRx with
      | block :: rest => some ([], p.receiveReturned block rest)
      | [] => none
  | .dropMutable =>
      match p.mutables with
      | block :: rest => some ([], ({ p with mutables := rest } : Pool M).send block)
      | [] => none
  | .dropImmutable cell => if cell ∈ p.immutables then some ([], p.dropImmutable cell) else none
  | .call c =>
      match p.mutables with
      | block :: rest =>
          match block.call xxh3 c with
          | .ok block' =>
              some ([], ({ p with mutables := block' :: rest } : Pool M).recordReleases p.handles)
          | .error _ => none
      | [] => none

/-- A schedule played from `p`, with the blocks added so far. -/
def replay (added : List (Block M)) (p : Pool M) : List (Move M) → Option (List (Block M) × Pool M)
  | [] => some (added, p)
  | m :: moves =>
      match p.move xxh3 m with
      | some (added', q) => replay (added ++ added') q moves
      | none => none

theorem Step.of_move {p q : Pool M} {m : Move M} {added : List (Block M)}
    (h : p.move xxh3 m = some (added, q)) : Step xxh3 p added q := by
  cases m with
  | allocateBlocks count =>
      simp only [move] at h
      split at h
      · cases h
        exact .allocateBlocks ‹_›
      · cases h
  | registerBlocks count =>
      simp only [move] at h
      split at h
      · cases h
        exact .registerBlocks (List.Perm.of_eq (List.take_append_drop count p.mutables).symm) ‹_›
      · cases h
  | matchSequenceHashes hashes =>
      simp only [move] at h
      split at h
      · cases h
        exact .matchSequenceHashes ‹_›
      · cases h
  | addBlocks blocks =>
      simp only [move] at h
      split at h
      · cases h
        exact .addBlocks ‹_›
      · cases h
  | receiveReturned =>
      simp only [move] at h
      split at h
      · cases h
        exact .receiveReturned ‹_›
      · cases h
  | dropMutable =>
      simp only [move] at h
      split at h
      · cases h
        exact .dropMutable (List.Perm.of_eq ‹_›)
      · cases h
  | dropImmutable cell =>
      simp only [move] at h
      split at h
      · cases h
        exact .dropImmutable ‹_›
      · cases h
  | call c =>
      simp only [move] at h
      split at h
      · split at h
        · cases h
          exact .call (List.Perm.of_eq ‹_›) ‹_›
        · cases h
      · cases h

/-- A schedule that plays to the end is a run. -/
theorem Run.replay {p q r : Pool M} {added added' : List (Block M)} {moves : List (Move M)}
    (hrun : Run xxh3 p added q) (h : replay xxh3 added q moves = some (added', r)) :
    Run xxh3 p added' r := by
  induction moves generalizing added q with
  | nil =>
      cases h
      exact hrun
  | cons m moves ih =>
      simp only [Pool.replay] at h
      split at h
      · exact ih (hrun.tail (Step.of_move xxh3 ‹_›)) h
      · cases h

end Steps

end Pool

end BlockManager

end Dynamo
