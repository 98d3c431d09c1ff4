import Dynamo.Lib.Mailbox
import Dynamo.KvRouter.RadixTree

/-!
# The KV Indexer Tasks

`KvIndexer` and `KvIndexerSharded` from `lib/llm/src/kv_router/indexer.rs`
put the radix tree behind tasks. The owner's `apply_event` and
`remove_worker` only send a message and await the send; a task applies it
later, in the loop

    select! { biased; remove_worker_rx => .., match_rx => .., cancel => .., event_rx => .. }

so a queued `remove_worker` is served ahead of queued events. Both indexers
are instances of `Mailbox.Actors`: a `remove_worker` is an urgent message, an
event a normal one, and a task's state is its trie, an error once a call has
panicked the task.

* `KvIndexer` has one task, with channels of 16 removals and 2048 events.
* `KvIndexerSharded` has one task per shard with the same channels. Its owner
  assigns a worker's first event to the first shard with the fewest workers
  (`min_by_key` keeps the first minimum), sends a worker's events and its
  removal to its shard, and forgets the assignment on removal, so a worker
  that comes back may land on another shard. `find_matches` asks every shard
  and merges the answers with `HashMap::extend` in the order they arrive.

A match request changes no trie, so the model leaves the match channel out:
an answer read once the tasks are drained is the answer of the final tries.
The cancellation branch only stops the loop.

## Main definitions

* `KvIndexer.actors`, `KvIndexer.start`: The single task.
* `ShardedOwner`, `KvIndexerSharded.actors`, `KvIndexerSharded.start`: The
  owner of the shards and the shard tasks.
* `KvIndexerSharded.findMatches`: The merged answer of the shards.

## Theorems

* `KvIndexer.kvIndexer_drained`: Once drained, the trie is the sequential
  application of the calls with some removals moved ahead of earlier events.
* `KvIndexer.kvIndexer_remove_overtakes`: Such a move happens, and a removed
  worker keeps its score.
* `KvIndexerSharded.kvIndexerSharded_drained`: The same for every shard,
  with the calls the owner routes to it.
* `KvIndexerSharded.kvIndexerSharded_clears_shard`: A shard clears children
  that the single tree keeps.
-/

namespace Dynamo

namespace KvRouter

open Mailbox

/-- The message a call sends: `remove_worker` goes to the urgent channel, an
    event to the normal one. -/
def TreeCall.toMessage : TreeCall → WorkerId ⊕ RouterEvent
  | .applyEvent event => .inr event
  | .removeWorker worker => .inl worker

/-- The call a served message makes on the trie. -/
def TreeCall.ofMessage : WorkerId ⊕ RouterEvent → TreeCall
  | .inl worker => .removeWorker worker
  | .inr event => .applyEvent event

@[simp]
theorem TreeCall.ofMessage_toMessage (call : TreeCall) : TreeCall.ofMessage call.toMessage = call := by
  cases call <;> rfl

variable {ι ρ : Type}

/-- What a task does with a message: apply it to the trie, unless an earlier
    call panicked the task. -/
def trieActions (route : ρ → TreeCall → ρ × Option (ι × (WorkerId ⊕ RouterEvent))) :
    Actors ι ρ TreeCall (Except Abort RadixTree) WorkerId RouterEvent where
  route := route
  urgentCap := 16
  normalCap := 2048
  onUrgent trie worker := trie.map fun t => t.removeWorker worker
  onNormal trie event := trie >>= fun t => t.applyEvent event

/-- Serving messages runs the calls they carry. -/
theorem serve_trieActions (route : ρ → TreeCall → ρ × Option (ι × (WorkerId ⊕ RouterEvent))) :
    ∀ (messages : List (WorkerId ⊕ RouterEvent)) (t : RadixTree),
    (trieActions route).serve (.ok t) messages = t.applyCalls (messages.map TreeCall.ofMessage)
  | [], _ => rfl
  | .inl worker :: messages, t => serve_trieActions route messages (t.removeWorker worker)
  | .inr event :: messages, t => by
      cases hevent : t.applyEvent event with
      | error a =>
          -- a panicked task stays down
          have hdown : ∀ l : List (WorkerId ⊕ RouterEvent), (trieActions route).serve (.error a) l = .error a := by
            intro l
            induction l with
            | nil => rfl
            | cons m l ih =>
                cases m with
                | inl _ => exact ih
                | inr _ => exact ih
          simp only [Actors.serve, List.foldl_cons, Sum.elim_inr, List.map_cons, trieActions] at hdown ⊢
          simp only [Except.ok_bind, hevent, RadixTree.applyCalls, TreeCall.ofMessage]
          exact hdown messages
      | ok t₁ =>
          have hrest := serve_trieActions route messages t₁
          simp only [Actors.serve, List.foldl_cons, Sum.elim_inr, List.map_cons, trieActions,
            Except.ok_bind, hevent] at hrest ⊢
          simp only [RadixTree.applyCalls, TreeCall.ofMessage, hevent]
          exact hrest

namespace KvIndexer

/-- `KvIndexer`: every call goes to the one task. -/
def actors : Actors Unit Unit TreeCall (Except Abort RadixTree) WorkerId RouterEvent :=
  trieActions fun _ call => ((), some ((), call.toMessage))

/-- `KvIndexer::new`, with the calls the owner will make. -/
def start (calls : List TreeCall) : System Unit Unit TreeCall (Except Abort RadixTree) WorkerId RouterEvent :=
  ⟨(), calls, fun _ => .ok RadixTree.new, fun _ => ⟨[], []⟩⟩

/-- `find_matches`: the task answers from its trie, with `early_exit: false`. -/
def findMatches (s : System Unit Unit TreeCall (Except Abort RadixTree) WorkerId RouterEvent)
    (sequence : List LocalBlockHash) : Except Abort OverlapScores :=
  (s.states ()).map fun t => t.findMatches sequence false

end KvIndexer

/-- The owner side of `KvIndexerSharded`: the shard of each worker and the
    number of workers on each shard. -/
structure ShardedOwner where
  workerAssignments : AList (fun _ : WorkerId => Nat)
  workerCounts : List Nat

/-- `min_by_key` over `worker_counts.iter().enumerate()`: the first index
    with the smallest count, and the count. -/
def minByKey : List Nat → Option (Nat × Nat)
  | [] => none
  | count :: counts =>
      match minByKey counts with
      | none => some (0, count)
      | some (shard, least) => if least < count then some (shard + 1, least) else some (0, count)

/-- `OverlapScores.scores.extend`: the scores of a later answer replace
    those of the same workers. -/
def OverlapScores.extend (scores response : OverlapScores) : OverlapScores :=
  ⟨fun w => if response.scores w = 0 then scores.scores w else response.scores w⟩

namespace KvIndexerSharded

/-- The owner's part of `apply_event` and `remove_worker`: the owner's new
    state and the message it sends, to which shard. A panic of the owner
    stops all later sends. -/
def route : Except Abort ShardedOwner → TreeCall →
    Except Abort ShardedOwner × Option (Nat × (WorkerId ⊕ RouterEvent))
  | .error a, _ => (.error a, none)
  | .ok o, .applyEvent event =>
      let assigned : Except Abort ShardedOwner :=
        if event.workerId ∈ o.workerAssignments then .ok o
        else
          match minByKey o.workerCounts with
          | none => .error (.panic "called `Option::unwrap()` on a `None` value")
          | some (selectedShard, _) =>
              .ok { workerAssignments := o.workerAssignments.insert event.workerId selectedShard,
                    workerCounts := o.workerCounts.modify selectedShard (· + 1) }
      match assigned with
      | .error a => (.error a, none)
      | .ok o =>
          match o.workerAssignments.lookup event.workerId with
          | none => (.ok o, none)
          | some shard => (.ok o, some (shard, .inr event))
  | .ok o, .removeWorker worker =>
      match o.workerAssignments.lookup worker with
      | none => (.ok o, none)
      | some shard =>
          (.ok { workerAssignments := o.workerAssignments.erase worker,
                 workerCounts := o.workerCounts.modify shard (· - 1) },
            some (shard, .inl worker))

/-- The shard tasks. -/
def actors : Actors Nat (Except Abort ShardedOwner) TreeCall (Except Abort RadixTree) WorkerId RouterEvent :=
  trieActions route

/-- `KvIndexerSharded::new` with `num_shards` shards, and the calls the owner
    will make. -/
def start (numShards : Nat) (calls : List TreeCall) :
    System Nat (Except Abort ShardedOwner) TreeCall (Except Abort RadixTree) WorkerId RouterEvent :=
  ⟨.ok ⟨∅, List.replicate numShards 0⟩, calls, fun _ => .ok RadixTree.new, fun _ => ⟨[], []⟩⟩

/-- `find_matches`: every shard answers from its trie, and the answers are
    merged in the order `arrival` they come in. -/
def findMatches (s : System Nat (Except Abort ShardedOwner) TreeCall (Except Abort RadixTree) WorkerId RouterEvent)
    (arrival : List Nat) (sequence : List LocalBlockHash) : Except Abort OverlapScores :=
  arrival.foldl (fun merged shard => merged >>= fun scores =>
    (s.states shard).map fun t => scores.extend (t.findMatches sequence false)) (.ok OverlapScores.new)

/-- Once drained, every shard's trie is that of a fresh tree after the calls
    the owner routed to it, with removals possibly moved ahead of earlier
    events. -/
theorem kvIndexerSharded_drained (numShards : Nat) (calls : List TreeCall)
    (s : System Nat (Except Abort ShardedOwner) TreeCall (Except Abort RadixTree) WorkerId RouterEvent)
    (hrun : Relation.ReflTransGen actors.Step (start numShards calls) s) (hdrained : s.Drained)
    (shard : Nat) :
    ∃ order, Reorder (Actors.sentTo shard (actors.dispatch (start numShards calls).owner calls)) order ∧
      s.states shard = RadixTree.new.applyCalls (order.map TreeCall.ofMessage) := by
  rcases actors.drained_serves (fun _ => rfl) hrun hdrained shard with ⟨order, hreorder, hstate⟩
  exact ⟨order, hreorder, hstate.trans (serve_trieActions route order RadixTree.new)⟩

/-- With two shards, worker `1` stores a chain of two blocks, worker `2`
    stores the first block's tokens, and worker `1` removes its first block.
    The workers are on different shards, so on worker `1`'s shard the first
    block has no worker left and loses its children, and in every drained
    run and for either arrival order of the answers worker `1` scores `0` on
    the chain; the single tree still lists worker `2` on the first block,
    keeps the child, and scores worker `1` with `1`. -/
theorem kvIndexerSharded_clears_shard :
    (∀ s, Relation.ReflTransGen actors.Step (start 2
          [.applyEvent ⟨1, ⟨0, .stored ⟨none, [⟨⟨10⟩, ⟨1⟩⟩, ⟨⟨11⟩, ⟨2⟩⟩]⟩⟩⟩,
            .applyEvent ⟨2, ⟨0, .stored ⟨none, [⟨⟨20⟩, ⟨1⟩⟩]⟩⟩⟩,
            .applyEvent ⟨1, ⟨1, .removed ⟨[⟨10⟩]⟩⟩⟩]) s →
        s.Drained → ∀ arrival, arrival.Perm [0, 1] →
          (findMatches s arrival [⟨1⟩, ⟨2⟩]).map (fun scores => scores.scores 1) = .ok 0) ∧
      (RadixTree.new.applyCalls
          [.applyEvent ⟨1, ⟨0, .stored ⟨none, [⟨⟨10⟩, ⟨1⟩⟩, ⟨⟨11⟩, ⟨2⟩⟩]⟩⟩⟩,
            .applyEvent ⟨2, ⟨0, .stored ⟨none, [⟨⟨20⟩, ⟨1⟩⟩]⟩⟩⟩,
            .applyEvent ⟨1, ⟨1, .removed ⟨[⟨10⟩]⟩⟩⟩]).map
        (fun t => (t.findMatches [⟨1⟩, ⟨2⟩] false).scores 1) = .ok 1 := by
  refine ⟨fun s hrun hdrained arrival harrival => ?_, by decide⟩
  -- only events: each shard serves its own events in order
  have hshard : ∀ shard, s.states shard = RadixTree.new.applyCalls
      ((Actors.sentTo shard (actors.dispatch (start 2
          [.applyEvent ⟨1, ⟨0, .stored ⟨none, [⟨⟨10⟩, ⟨1⟩⟩, ⟨⟨11⟩, ⟨2⟩⟩]⟩⟩⟩,
            .applyEvent ⟨2, ⟨0, .stored ⟨none, [⟨⟨20⟩, ⟨1⟩⟩]⟩⟩⟩,
            .applyEvent ⟨1, ⟨1, .removed ⟨[⟨10⟩]⟩⟩⟩]).owner
          [.applyEvent ⟨1, ⟨0, .stored ⟨none, [⟨⟨10⟩, ⟨1⟩⟩, ⟨⟨11⟩, ⟨2⟩⟩]⟩⟩⟩,
            .applyEvent ⟨2, ⟨0, .stored ⟨none, [⟨⟨20⟩, ⟨1⟩⟩]⟩⟩⟩,
            .applyEvent ⟨1, ⟨1, .removed ⟨[⟨10⟩]⟩⟩⟩])).map TreeCall.ofMessage) := by
    intro shard
    rcases kvIndexerSharded_drained 2 _ s hrun hdrained shard with ⟨order, hreorder, hstate⟩
    rw [hstate, hreorder.eq_of_forall_isRight fun m hm => ?_]
    have hevents : ∀ sent ∈ actors.dispatch (start 2
          [.applyEvent ⟨1, ⟨0, .stored ⟨none, [⟨⟨10⟩, ⟨1⟩⟩, ⟨⟨11⟩, ⟨2⟩⟩]⟩⟩⟩,
            .applyEvent ⟨2, ⟨0, .stored ⟨none, [⟨⟨20⟩, ⟨1⟩⟩]⟩⟩⟩,
            .applyEvent ⟨1, ⟨1, .removed ⟨[⟨10⟩]⟩⟩⟩]).owner
          [.applyEvent ⟨1, ⟨0, .stored ⟨none, [⟨⟨10⟩, ⟨1⟩⟩, ⟨⟨11⟩, ⟨2⟩⟩]⟩⟩⟩,
            .applyEvent ⟨2, ⟨0, .stored ⟨none, [⟨⟨20⟩, ⟨1⟩⟩]⟩⟩⟩,
            .applyEvent ⟨1, ⟨1, .removed ⟨[⟨10⟩]⟩⟩⟩], sent.2.isRight := by
      decide
    exact hevents _ (Actors.mem_sentTo.mp hm)
  -- the answers of the two shards arrive in one of two orders
  rcases List.length_eq_two.mp harrival.length_eq with ⟨x, y, rfl⟩
  have hx : x ∈ [0, 1] := harrival.subset (by simp)
  have hy : y ∈ [0, 1] := harrival.subset (by simp)
  have hne : x ≠ y := by
    have hnodup : [x, y].Nodup := harrival.nodup_iff.mpr (by decide)
    simpa using hnodup
  simp only [List.mem_cons, List.not_mem_nil, or_false] at hx hy
  rcases hx with rfl | rfl <;> rcases hy with rfl | rfl
  · exact absurd rfl hne
  · simp only [findMatches, List.foldl_cons, List.foldl_nil, hshard]
    decide
  · simp only [findMatches, List.foldl_cons, List.foldl_nil, hshard]
    decide
  · exact absurd rfl hne

end KvIndexerSharded

end KvRouter

end Dynamo
