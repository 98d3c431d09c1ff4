import Dynamo.Kv.Reuse

/-!
# The Task Behind `AvailableBlocks`

`AvailableBlocks::new` spawns `progress_engine`, which owns the pool's state
and serves four unbounded channels with a biased `select!`: match requests
first, then returned blocks, then control requests, then fences. Every
method of `AvailableBlocks` sends one request and waits for the reply, a
`PoolItem` that a caller drops sends its block back on the return channel,
and the callers and the task run in any interleaving. Like the pool, the task
is in `kv/reuse.rs`, which the crate does not build.

`Engine` is the task with what is in flight: the four channels and the
blocks the callers hold. Two things the source does not keep are added as
ghost state, to state what the fence promises: the number of sends so far,
which stamps each message, and the fences answered so far. `Action` is one
thing that can happen next: a call sends its request, a caller drops a
block or writes into it, or the task runs one pass of its loop. `run` is a
run of actions, in any order.

Two properties hold of every run from `new`. No block is lost or made twice:
no pass of the task panics, the pool keeps its invariant, and
`total_blocks` is always the blocks the pool holds, plus those its callers
hold, plus those on the return channel (`Conserved`). And a fence is answered
only once every message sent before it has been served: the select takes a
fence only when the three other channels are empty, and every message sent
later is stamped later (`FenceOrdered`). As the source notes, the converse
fails: a request sent after the fence may still be served before it.

## Main definitions

* `Engine`: The task, its channels and the blocks its callers hold.
* `Engine.progress`: One pass of `progress_engine`'s loop.
* `Engine.Action`, `Engine.step`, `Engine.run`: Runs of calls and passes.
* `Engine.Conserved`, `Engine.FenceOrdered`: The two properties of a run.

## Theorems

* `Engine.Invariant.step`: Every action succeeds and keeps the invariant.
* `Engine.FenceOrdered.step`: Every action keeps the fence order.
* `Engine.run_invariant`: So does every run.
* `Engine.availableBlocks_conserves_blocks`: No block is lost or made twice.
* `Engine.availableBlocks_fence_waits`: A fence waits for what was sent
  before it.
* `Engine.availableBlocks_take_order`, `Engine.availableBlocks_match_prefix`:
  What a take and a match hand out, in every state a run reaches.
-/

namespace Dynamo

namespace Kv

open Tokens

/-- The task of `AvailableBlocks`: the pool's state, the four channels of
    `progress_engine` with each message's stamp, and the `PoolItem`s its
    callers hold. `sends` and `fenced` are ghost state: how many messages
    have been sent, and the stamps of the fences answered. -/
structure Engine where
  state : AvailableBlocksState
  matchRx : List (Nat × MatchRequest)
  returnRx : List (Nat × KvBlock)
  ctrlRx : List (Nat × ControlRequest)
  fenceRx : List Nat
  held : List KvBlock
  sends : Nat
  fenced : List Nat

namespace Engine

/-- `AvailableBlocks::new`: an empty pool and empty channels. -/
def new : Engine :=
  { state := AvailableBlocksState.new, matchRx := [], returnRx := [], ctrlRx := [], fenceRx := [],
    held := [], sends := 0, fenced := [] }

/-- `ReturnHandleImpl::return_to_pool`: the block is sent on the return
    channel. -/
def returnToPool (e : Engine) (block : KvBlock) : Engine :=
  { e with returnRx := e.returnRx ++ [(e.sends, block)], sends := e.sends + 1 }

/-- The reply of a match request: the blocks become the caller's
    `PoolItem`s, or, when the caller has gone and `tx.send` fails, the items
    are dropped and each block is sent back. -/
def deliver (e : Engine) (blocks : List KvBlock) (received : Bool) : Engine :=
  if received then { e with held := e.held ++ blocks } else blocks.foldl returnToPool e

/-- One pass of `progress_engine`'s loop: the first channel with a message,
    in the order of the biased select. With every channel empty the task
    waits. -/
def progress (e : Engine) (received : Bool) : Except Abort Engine :=
  match e.matchRx with
  | (_, req) :: rest => do
    let r ← e.state.handleMatchRequest req
    pure (({ e with state := r.2, matchRx := rest } : Engine).deliver r.1 received)
  | [] =>
    match e.returnRx with
    | (_, block) :: rest => do
      let state ← e.state.handleReturn block
      pure { e with state := state, returnRx := rest }
    | [] =>
      match e.ctrlRx with
      | (_, req) :: rest => do
        let state ← e.state.handleControlRequest req
        pure { e with state := state, ctrlRx := rest }
      | [] =>
        match e.fenceRx with
        | fence :: rest => pure { e with fenceRx := rest, fenced := e.fenced ++ [fence] }
        | [] => pure e

/-- What can happen next: a call of `AvailableBlocks` sends its request
    (`match_blocks`, `take_blocks`, the control requests of `insert`,
    `update_single`, `update_multiple`, `reset` and `reset_all`, and
    `fence`), a caller drops a block it holds or writes a token block into
    it, or the task runs one pass, whose reply the caller may no longer
    wait for. -/
inductive Action where
  | matchBlocks (hashes : List SequenceHash)
  | takeBlocks (count : Nat)
  | control (req : ControlRequest)
  | fence
  | dropBlock (index : Nat)
  | updateTokenBlock (index : Nat) (tokenBlock : TokenBlock)
  | progress (received : Bool)

/-- One action. -/
def step (e : Engine) : Action → Except Abort Engine
  | .matchBlocks hashes =>
    .ok { e with matchRx := e.matchRx ++ [(e.sends, .matchMultiple hashes)], sends := e.sends + 1 }
  | .takeBlocks count =>
    .ok { e with matchRx := e.matchRx ++ [(e.sends, .take count)], sends := e.sends + 1 }
  | .control req => .ok { e with ctrlRx := e.ctrlRx ++ [(e.sends, req)], sends := e.sends + 1 }
  | .fence => .ok { e with fenceRx := e.fenceRx ++ [e.sends], sends := e.sends + 1 }
  | .dropBlock index =>
    match e.held[index]? with
    | some block => .ok (({ e with held := e.held.eraseIdx index } : Engine).returnToPool block)
    | none => .ok e
  | .updateTokenBlock index tokenBlock =>
    .ok { e with held := e.held.modify index fun block => block.updateTokenBlock tokenBlock }
  | .progress received => e.progress received

/-- A run of actions. -/
def run (e : Engine) : List Action → Except Abort Engine
  | [] => .ok e
  | a :: as => do
    let e ← e.step a
    e.run as

section Conservation

/-- No block is lost or made twice: `total_blocks` counts the blocks the pool
    holds, those its callers hold and those on the return channel. -/
def Conserved (e : Engine) : Prop :=
  e.state.totalBlocks = e.state.blocks.length + e.held.length + e.returnRx.length

/-- The invariant of every run: the pool's own, and the count of all
    blocks. -/
structure Invariant (e : Engine) : Prop where
  inv : e.state.Inv
  conserved : e.Conserved

theorem invariant_new : new.Invariant :=
  ⟨AvailableBlocksState.inv_new, rfl⟩

/-- Blocks sent back one by one reach the return channel, and nothing else
    changes. -/
theorem foldl_returnToPool (blocks : List KvBlock) :
    ∀ e : Engine, let e' := blocks.foldl returnToPool e
      e'.state = e.state ∧ e'.held = e.held ∧
        e'.returnRx.length = e.returnRx.length + blocks.length := by
  induction blocks with
  | nil => exact fun e => ⟨rfl, rfl, rfl⟩
  | cons block blocks ih =>
    intro e
    obtain ⟨hstate, hheld, hlen⟩ := ih (e.returnToPool block)
    refine ⟨hstate, hheld, ?_⟩
    rw [List.foldl_cons, hlen, returnToPool, List.length_append, List.length_singleton,
      List.length_cons]
    omega

/-- A reply reaches the caller or comes back: either way the pool's state
    is untouched and every block is counted once. -/
theorem deliver_counts (e : Engine) (blocks : List KvBlock) (received : Bool) :
    (e.deliver blocks received).state = e.state ∧
      (e.deliver blocks received).held.length + (e.deliver blocks received).returnRx.length =
        e.held.length + e.returnRx.length + blocks.length := by
  unfold deliver
  cases received with
  | true =>
    refine ⟨rfl, ?_⟩
    simp only [if_true, List.length_append]
    omega
  | false =>
    obtain ⟨hstate, hheld, hlen⟩ := foldl_returnToPool blocks e
    refine ⟨hstate, ?_⟩
    simp only [Bool.false_eq_true, if_false, hheld, hlen]
    omega

/-- Every pass of the task succeeds and keeps the invariant. -/
theorem Invariant.progress {e : Engine} (he : e.Invariant) (received : Bool) :
    ∃ e', e.progress received = .ok e' ∧ e'.Invariant := by
  obtain ⟨state, matchRx, returnRx, ctrlRx, fenceRx, held, sends, fenced⟩ := e
  have hinv₀ : state.Inv := he.inv
  have hc : state.totalBlocks = state.blocks.length + held.length + returnRx.length := he.conserved
  cases matchRx with
  | cons m rest =>
    -- a match request: the blocks handed out go to the caller or come back
    obtain ⟨stamp, req⟩ := m
    obtain ⟨out, state', h, hinv, hlen, htotal⟩ := hinv₀.handleMatchRequest_eq_ok req
    let e₁ : Engine := ⟨state', rest, returnRx, ctrlRx, fenceRx, held, sends, fenced⟩
    obtain ⟨hstate, hcount⟩ := deliver_counts e₁ out received
    refine ⟨e₁.deliver out received, ?_, ⟨by rw [hstate]; exact hinv, ?_⟩⟩
    · simp only [Engine.progress, h, Except.ok_bind]
      rfl
    · show (e₁.deliver out received).state.totalBlocks = (e₁.deliver out received).state.blocks.length +
        (e₁.deliver out received).held.length + (e₁.deliver out received).returnRx.length
      rw [hstate]
      show state'.totalBlocks = state'.blocks.length + _ + _
      have hcount' : (e₁.deliver out received).held.length + (e₁.deliver out received).returnRx.length =
          held.length + returnRx.length + out.length := hcount
      omega
  | nil =>
    cases returnRx with
    | cons r rest =>
      -- a returned block: it moves from the channel into the pool
      obtain ⟨stamp, block⟩ := r
      obtain ⟨state', h, hinv, hlen, htotal⟩ := hinv₀.handleReturn_eq_ok block
      refine ⟨⟨state', [], rest, ctrlRx, fenceRx, held, sends, fenced⟩, ?_, ⟨hinv, ?_⟩⟩
      · simp only [Engine.progress, h, Except.ok_bind]
        rfl
      · show state'.totalBlocks = state'.blocks.length + held.length + rest.length
        rw [List.length_cons] at hc
        omega
    | nil =>
      cases ctrlRx with
      | cons c rest =>
        -- a control request: only an insert adds a block, and counts it
        obtain ⟨stamp, req⟩ := c
        obtain ⟨state', h, hinv, htotal⟩ := hinv₀.handleControlRequest_eq_ok req
        refine ⟨⟨state', [], [], rest, fenceRx, held, sends, fenced⟩, ?_, ⟨hinv, ?_⟩⟩
        · simp only [Engine.progress, h, Except.ok_bind]
          rfl
        · show state'.totalBlocks = state'.blocks.length + held.length + [].length
          rw [List.length_nil] at hc ⊢
          omega
      | nil =>
        cases fenceRx with
        | cons f rest => exact ⟨_, rfl, ⟨he.inv, he.conserved⟩⟩
        | nil => exact ⟨_, rfl, he⟩

/-- Every action succeeds and keeps the invariant: a send changes no count, a
    dropped block moves to the return channel, and a write into a held
    block keeps it held. -/
theorem Invariant.step {e : Engine} (he : e.Invariant) (a : Action) :
    ∃ e', e.step a = .ok e' ∧ e'.Invariant := by
  cases a with
  | matchBlocks hashes => exact ⟨_, rfl, ⟨he.inv, he.conserved⟩⟩
  | takeBlocks count => exact ⟨_, rfl, ⟨he.inv, he.conserved⟩⟩
  | control req => exact ⟨_, rfl, ⟨he.inv, he.conserved⟩⟩
  | fence => exact ⟨_, rfl, ⟨he.inv, he.conserved⟩⟩
  | dropBlock index =>
    cases hget : e.held[index]? with
    | none => exact ⟨e, by simp only [Engine.step, hget], he⟩
    | some block =>
      refine ⟨({ e with held := e.held.eraseIdx index } : Engine).returnToPool block,
        by simp only [Engine.step, hget], ⟨he.inv, ?_⟩⟩
      -- the block leaves the caller for the return channel
      have hlt : index < e.held.length := (List.getElem?_eq_some_iff.mp hget).1
      have hc : e.state.totalBlocks = e.state.blocks.length + e.held.length + e.returnRx.length :=
        he.conserved
      have herase := List.length_eraseIdx_add_one hlt
      show e.state.totalBlocks = e.state.blocks.length + (e.held.eraseIdx index).length +
        (e.returnRx ++ [(e.sends, block)]).length
      rw [List.length_append, List.length_singleton]
      omega
  | updateTokenBlock index tokenBlock =>
    refine ⟨_, rfl, ⟨he.inv, ?_⟩⟩
    show e.state.totalBlocks = e.state.blocks.length +
      (e.held.modify index fun block => block.updateTokenBlock tokenBlock).length + e.returnRx.length
    rw [List.length_modify]
    exact he.conserved
  | progress received => exact he.progress received

end Conservation

section Fence

/-- The stamps of the messages on the match, return and control channels. -/
def queued (e : Engine) : List Nat :=
  e.matchRx.map Prod.fst ++ e.returnRx.map Prod.fst ++ e.ctrlRx.map Prod.fst

/-- The order a fence promises: every message still on the match, return or
    control channel was sent after every fence answered so far. The other
    fields make it inductive: every stamp is that of a send already made. -/
structure FenceOrdered (e : Engine) : Prop where
  after_fenced : ∀ f ∈ e.fenced, ∀ n ∈ e.queued, f < n
  queued_lt : ∀ n ∈ e.queued, n < e.sends
  fenceRx_lt : ∀ n ∈ e.fenceRx, n < e.sends
  fenced_lt : ∀ f ∈ e.fenced, f < e.sends

theorem fenceOrdered_new : new.FenceOrdered :=
  ⟨fun _ hf => absurd hf List.not_mem_nil, fun _ hn => absurd hn (by simp [new, queued]),
    fun _ hn => absurd hn List.not_mem_nil, fun _ hf => absurd hf List.not_mem_nil⟩

/-- A step that answers no fence keeps the order when every stamp it leaves
    on a channel was there before or is one of its own sends. -/
theorem FenceOrdered.of_sends {e e' : Engine} (he : e.FenceOrdered) (hsends : e.sends ≤ e'.sends)
    (hfenced : e'.fenced = e.fenced)
    (hq : ∀ n ∈ e'.queued, n ∈ e.queued ∨ e.sends ≤ n ∧ n < e'.sends)
    (hf : ∀ n ∈ e'.fenceRx, n ∈ e.fenceRx ∨ e.sends ≤ n ∧ n < e'.sends) : e'.FenceOrdered := by
  refine ⟨fun f hfm n hn => ?_, fun n hn => ?_, fun n hn => ?_, fun f hfm => ?_⟩
  · rw [hfenced] at hfm
    rcases hq n hn with hn | ⟨hle, -⟩
    · exact he.after_fenced f hfm n hn
    · exact lt_of_lt_of_le (he.fenced_lt f hfm) hle
  · rcases hq n hn with hn | ⟨-, hlt⟩
    · exact lt_of_lt_of_le (he.queued_lt n hn) hsends
    · exact hlt
  · rcases hf n hn with hn | ⟨-, hlt⟩
    · exact lt_of_lt_of_le (he.fenceRx_lt n hn) hsends
    · exact hlt
  · rw [hfenced] at hfm
    exact lt_of_lt_of_le (he.fenced_lt f hfm) hsends

/-- A message sent on one channel is stamped after everything before it. -/
theorem FenceOrdered.send {e e' : Engine} (he : e.FenceOrdered) (hsends : e'.sends = e.sends + 1)
    (hfenced : e'.fenced = e.fenced) (hq : ∀ n ∈ e'.queued, n ∈ e.queued ∨ n = e.sends)
    (hf : ∀ n ∈ e'.fenceRx, n ∈ e.fenceRx ∨ n = e.sends) : e'.FenceOrdered := by
  refine he.of_sends (by omega) hfenced (fun n hn => ?_) (fun n hn => ?_)
  · rcases hq n hn with hn | rfl
    · exact Or.inl hn
    · exact Or.inr ⟨le_rfl, by omega⟩
  · rcases hf n hn with hn | rfl
    · exact Or.inl hn
    · exact Or.inr ⟨le_rfl, by omega⟩

/-- Serving a message takes it off its channel and sends nothing. -/
theorem FenceOrdered.serve {e e' : Engine} (he : e.FenceOrdered) (hsends : e'.sends = e.sends)
    (hfenced : e'.fenced = e.fenced) (hq : ∀ n ∈ e'.queued, n ∈ e.queued)
    (hf : e'.fenceRx = e.fenceRx) : e'.FenceOrdered :=
  he.of_sends hsends.ge hfenced (fun n hn => Or.inl (hq n hn)) (fun _ hn => Or.inl (hf ▸ hn))

theorem FenceOrdered.returnToPool {e : Engine} (he : e.FenceOrdered) (block : KvBlock) :
    (e.returnToPool block).FenceOrdered := by
  refine he.send rfl rfl (fun n hn => ?_) (fun _ hn => Or.inl hn)
  simp only [queued, Engine.returnToPool, List.map_append, List.map_cons, List.map_nil,
    List.mem_append, List.mem_singleton] at hn ⊢
  tauto

theorem FenceOrdered.deliver {e : Engine} (he : e.FenceOrdered) (blocks : List KvBlock)
    (received : Bool) : (e.deliver blocks received).FenceOrdered := by
  unfold Engine.deliver
  cases received with
  | true => exact he.serve rfl rfl (fun _ hn => hn) rfl
  | false =>
    simp only [Bool.false_eq_true, if_false]
    induction blocks generalizing e with
    | nil => exact he
    | cons block blocks ih => exact ih (he.returnToPool block)

/-- A pass of the task keeps the order. A fence is answered only when the
    match, return and control channels are empty, so no message sent before
    it is left; the messages sent after it are stamped later. -/
theorem FenceOrdered.progress {e e' : Engine} (he : e.FenceOrdered) {received : Bool}
    (h : e.progress received = .ok e') : e'.FenceOrdered := by
  obtain ⟨state, matchRx, returnRx, ctrlRx, fenceRx, held, sends, fenced⟩ := e
  cases matchRx with
  | cons m rest =>
    obtain ⟨stamp, req⟩ := m
    obtain ⟨r, -, h'⟩ := Except.bind_eq_ok h
    cases h'
    have hserve : (⟨r.2, rest, returnRx, ctrlRx, fenceRx, held, sends, fenced⟩ : Engine).FenceOrdered := by
      refine he.serve rfl rfl (fun n hn => ?_) rfl
      simp only [queued, List.map_cons, List.mem_append, List.mem_cons] at hn ⊢
      tauto
    exact hserve.deliver _ _
  | nil =>
    cases returnRx with
    | cons r rest =>
      obtain ⟨stamp, block⟩ := r
      obtain ⟨state', -, h'⟩ := Except.bind_eq_ok h
      cases h'
      refine he.serve rfl rfl (fun n hn => ?_) rfl
      simp only [queued, List.map_cons, List.map_nil, List.mem_append, List.mem_cons] at hn ⊢
      tauto
    | nil =>
      cases ctrlRx with
      | cons c rest =>
        obtain ⟨stamp, req⟩ := c
        obtain ⟨state', -, h'⟩ := Except.bind_eq_ok h
        cases h'
        refine he.serve rfl rfl (fun n hn => ?_) rfl
        simp only [queued, List.map_cons, List.map_nil, List.mem_append, List.mem_cons] at hn ⊢
        tauto
      | nil =>
        cases fenceRx with
        | cons f rest =>
          -- the other three channels are empty: nothing sent before the fence is left
          cases h
          have hqueued : ∀ n, n ∉ queued ⟨state, [], [], [], rest, held, sends, fenced ++ [f]⟩ := by
            simp [queued]
          refine ⟨fun _ _ n hn => absurd hn (hqueued n), fun n hn => absurd hn (hqueued n),
            fun n hn => he.fenceRx_lt n (List.mem_cons_of_mem f hn), fun g hg => ?_⟩
          rcases List.mem_append.mp hg with hg | hg
          · exact he.fenced_lt g hg
          · rw [List.mem_singleton.mp hg]
            exact he.fenceRx_lt f List.mem_cons_self
        | nil =>
          cases h
          exact he

/-- Every action keeps the order. -/
theorem FenceOrdered.step {e e' : Engine} (he : e.FenceOrdered) {a : Action}
    (h : e.step a = .ok e') : e'.FenceOrdered := by
  cases a with
  | matchBlocks hashes | takeBlocks count =>
    cases h
    refine he.send rfl rfl (fun n hn => ?_) (fun _ hn => Or.inl hn)
    simp only [queued, List.map_append, List.map_cons, List.map_nil, List.mem_append,
      List.mem_singleton] at hn ⊢
    tauto
  | control req =>
    cases h
    refine he.send rfl rfl (fun n hn => ?_) (fun _ hn => Or.inl hn)
    simp only [queued, List.map_append, List.map_cons, List.map_nil, List.mem_append,
      List.mem_singleton] at hn ⊢
    tauto
  | fence =>
    cases h
    refine he.send rfl rfl (fun _ hn => Or.inl hn) (fun n hn => ?_)
    simp only [List.mem_append, List.mem_singleton] at hn
    exact hn
  | dropBlock index =>
    simp only [Engine.step] at h
    split at h
    · cases h
      have herase : ({ e with held := e.held.eraseIdx index } : Engine).FenceOrdered :=
        he.serve rfl rfl (fun _ hn => hn) rfl
      exact herase.returnToPool _
    · cases h
      exact he
  | updateTokenBlock index tokenBlock =>
    cases h
    exact he.serve rfl rfl (fun _ hn => hn) rfl
  | progress received => exact he.progress h

end Fence

/-- Along every run from a state with both invariants, every action
    succeeds and both are kept. -/
theorem run_invariant {e : Engine} (he : e.Invariant) (hf : e.FenceOrdered) (actions : List Action) :
    ∃ e', e.run actions = .ok e' ∧ e'.Invariant ∧ e'.FenceOrdered := by
  induction actions generalizing e with
  | nil => exact ⟨e, rfl, he, hf⟩
  | cons a actions ih =>
    obtain ⟨e₁, h₁, he₁⟩ := he.step a
    obtain ⟨e₂, h₂, he₂, hf₂⟩ := ih he₁ (hf.step h₁)
    refine ⟨e₂, ?_, he₂, hf₂⟩
    rw [run, h₁, Except.ok_bind]
    exact h₂

/-- No block is lost or made twice. However the callers' calls, drops and
    writes interleave with the task, no pass of the task panics, the pool
    keeps its invariant, `available_blocks` is the number of blocks it holds,
    and `total_blocks` is those blocks plus the ones its callers hold plus
    the ones on their way back. -/
theorem availableBlocks_conserves_blocks (actions : List Action) :
    ∃ e, new.run actions = .ok e ∧ e.state.Wf ∧
      e.state.availableBlocks = e.state.blocks.length ∧
      e.state.totalBlocks = e.state.blocks.length + e.held.length + e.returnRx.length := by
  obtain ⟨e, h, he, -⟩ := run_invariant invariant_new fenceOrdered_new actions
  exact ⟨e, h, he.inv.wf, he.inv.available_eq, he.conserved⟩

/-- What a take hands out, in every state a run reaches: the first `count`
    blocks of the uninitialized ones in arrival order followed by the
    reusable ones sorted by priority and then by return tick, without a
    panic. -/
theorem availableBlocks_take_order (actions : List Action) (count : Nat) :
    ∃ e, new.run actions = .ok e ∧ ∃ s',
      e.state.handleTake count = .ok ((e.state.uninitializedSet ++
        AvailableBlocksState.sortByKey e.state.lookupMap.values).take count, s') := by
  obtain ⟨e, h, he, -⟩ := run_invariant invariant_new fenceOrdered_new actions
  obtain ⟨s', htake, -⟩ := he.inv.handleTake_eq_ok count
  exact ⟨e, h, s', htake⟩

/-- What a match hands out, in every state a run reaches: the pool's blocks
    for the leading requested hashes, in order, up to the first hash the pool
    no longer holds (one it never held, or one repeated), and exactly those
    blocks leave the pool. -/
theorem availableBlocks_match_prefix (actions : List Action) (hashes : List SequenceHash) :
    ∃ e, new.run actions = .ok e ∧
      let r := e.state.matchHashes hashes
      r.1.map KvBlock.sequenceHash = hashes.take r.1.length ∧
        e.state.lookupMap.values.Perm (r.1 ++ r.2.lookupMap.values) ∧
        (∀ h ∈ hashes[r.1.length]?, h ∉ r.2.lookupMap) ∧
        r.2.uninitializedSet = e.state.uninitializedSet := by
  obtain ⟨e, h, he, -⟩ := run_invariant invariant_new fenceOrdered_new actions
  obtain ⟨hmap, hperm, hstop, huninit, -⟩ := he.inv.matchHashes_eq hashes
  exact ⟨e, h, hmap, hperm, hstop, huninit⟩

end Engine

end Kv

end Dynamo
