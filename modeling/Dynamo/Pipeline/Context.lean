import Mathlib.Data.List.Induction

/-!
# The Cancellation Controller

`Controller` of `lib/runtime/src/pipeline/context.rs`, the
`AsyncEngineContext` every request stream carries, and the use the tcp
client's writer makes of it.

The controller keeps its state, `Live`, `Stopped` or `Killed`, in a tokio
`watch` channel. `stop` (and `stop_generating`, which calls it) sends
`Stopped` and `kill` sends `Killed`; a send overwrites the value whatever it
was and marks the channel changed. `is_stopped` and `is_killed` read the
value. The futures `stopped()` and `killed()` return at once when the value
already says so, and otherwise wait for `changed()`, which returns at the
next send of any value.

The channel is modelled by its value and the count of sends, its version:
`changed()` on a receiver that has seen version `v` returns once the version
is past `v`. All the clones of an `Arc<Controller>` share one channel, and
each send is atomic, so an interleaving of calls from any tasks is a list
of calls applied in order (`Controller.run`); a future created at a point of
the run is made from the controller at that point.

What holds is what the `AsyncEngineContext` contract says of `is_stopped`
and `stopped()` (`isStopped_run`, `stopped_isReady_run`). What the contract
says of `is_killed` and `killed()` does not: a `stop` after a `kill` sends
`Stopped` over `Killed`, and a `killed()` future created while live returns
at a `stop`, since it waits for any change (`isKilled_run`,
`killed_isReady_run`). `handle_writer` of the tcp client recreates
`killed()` on every pass of its biased `select!`, so a peer's `Stop`, which
the reader turns into `context.stop()`, makes the writer take its kill
branch and drop the responses still queued: `controller_stop_not_monotone`.

## Main definitions

* `State`: The three states of a controller.
* `Controller`: The watch channel: the state and its version.
* `Controller.stop`, `Controller.stopGenerating`, `Controller.kill`: The
  calls that send.
* `Controller.stopped`, `Controller.killed`: The futures, as what they wait on.
* `Controller.run`: A run of calls from any tasks.
* `writerSelect`: One pass of `handle_writer`'s `select!`.

## Theorems

* `Controller.isStopped_run`: A controller is stopped after any call.
* `Controller.isKilled_run`: It is killed exactly when the last call was
  `kill`.
* `Controller.stopped_isReady_run`: A `stopped()` future completes exactly
  when the state is or becomes not live.
* `Controller.killed_isReady_run`: A `killed()` future completes when the
  state is killed at its creation or at any later call.
* `controller_stop_not_monotone`: `stop` undoes `kill`, a `killed()` future
  returns at a `stop`, and the writer then cuts its stream.
-/

namespace Dynamo

namespace Pipeline

/-- `State` of a controller. -/
inductive State where
  | live
  | stopped
  | killed
  deriving DecidableEq, Repr

/-- `Controller`: its `watch` channel, as the value in it and the number of
    sends so far. -/
structure Controller where
  state : State
  version : Nat
  deriving DecidableEq, Repr

/-- A call that sends on the channel. -/
inductive ControllerCall where
  | stop
  | stopGenerating
  | kill
  deriving DecidableEq, Repr

/-- What `stopped()` or `killed()` waits on: nothing when it returned at
    once, or `changed()` past the version its receiver saw. -/
inductive Waiter where
  | done
  | waiting (seen : Nat)
  deriving DecidableEq, Repr

/-- Whether what a future waits on has completed once the channel is at `c`:
    `changed()` returns once the version is past the one it saw. -/
def Waiter.isReady : Waiter → Controller → Bool
  | .done, _ => true
  | .waiting seen, c => seen < c.version

namespace Controller

/-- `Controller::new`: a channel holding `Live`. -/
def new : Controller := ⟨.live, 0⟩

/-- `watch::Sender::send`: the value is replaced and the version moves on,
    whatever the value was. -/
def send (c : Controller) (s : State) : Controller := ⟨s, c.version + 1⟩

/-- `stop`. -/
def stop (c : Controller) : Controller := c.send .stopped

/-- `stop_generating`, which calls `stop`. -/
def stopGenerating (c : Controller) : Controller := c.stop

/-- `kill`. -/
def kill (c : Controller) : Controller := c.send .killed

/-- `is_stopped`. -/
def isStopped (c : Controller) : Bool := c.state != .live

/-- `is_killed`. -/
def isKilled (c : Controller) : Bool := c.state == .killed

/-- `stopped()`: done at once when not live (the test of `is_stopped`),
    otherwise waiting for the next send. -/
def stopped (c : Controller) : Waiter :=
  if c.isStopped then .done else .waiting c.version

/-- `killed()`: done at once when killed (the test of `is_killed`),
    otherwise waiting for the next send. -/
def killed (c : Controller) : Waiter :=
  if c.isKilled then .done else .waiting c.version

/-- One call. -/
def apply (c : Controller) : ControllerCall → Controller
  | .stop => c.stop
  | .stopGenerating => c.stopGenerating
  | .kill => c.kill

/-- The calls of all tasks, in the order they reach the channel. -/
def run (c : Controller) (calls : List ControllerCall) : Controller := calls.foldl apply c

@[simp]
theorem run_nil (c : Controller) : c.run [] = c := rfl

@[simp]
theorem run_append (c : Controller) (calls calls' : List ControllerCall) :
    c.run (calls ++ calls') = (c.run calls).run calls' := List.foldl_append

theorem run_concat (c : Controller) (calls : List ControllerCall) (call : ControllerCall) :
    c.run (calls ++ [call]) = (c.run calls).apply call := by
  rw [run_append]
  rfl

/-- Each call sends once. -/
theorem version_apply (c : Controller) (call : ControllerCall) :
    (c.apply call).version = c.version + 1 := by
  cases call <;> rfl

theorem version_run (c : Controller) (calls : List ControllerCall) :
    (c.run calls).version = c.version + calls.length := by
  induction calls using List.reverseRecOn with
  | nil => rfl
  | append_singleton calls call ih =>
    rw [run_concat, version_apply, ih, List.length_append, List.length_singleton, Nat.add_assoc]

/-- The state a call sends. -/
def sends : ControllerCall → State
  | .stop => .stopped
  | .stopGenerating => .stopped
  | .kill => .killed

theorem state_apply (c : Controller) (call : ControllerCall) :
    (c.apply call).state = sends call := by
  cases call <;> rfl

/-- After a run the state is what its last call sent. -/
theorem state_run (c : Controller) (calls : List ControllerCall) :
    (c.run calls).state = (calls.getLast?.map sends).getD c.state := by
  induction calls using List.reverseRecOn with
  | nil => rfl
  | append_singleton calls call ih =>
    rw [run_concat, state_apply, List.getLast?_append, List.getLast?_singleton]
    rfl

theorem sends_ne_live (call : ControllerCall) : sends call ≠ .live := by
  cases call <;> simp only [sends, ne_eq, reduceCtorEq, not_false_eq_true]

theorem sends_eq_killed {call : ControllerCall} : sends call = .killed ↔ call = .kill := by
  cases call <;> simp only [sends, reduceCtorEq]

/-- A controller is stopped after a run exactly when it was stopped before
    or any call was made: every call sends a state that is not live. -/
theorem isStopped_run (c : Controller) (calls : List ControllerCall) :
    (c.run calls).isStopped = true ↔ c.isStopped = true ∨ calls ≠ [] := by
  unfold isStopped
  rw [state_run]
  cases h : calls.getLast? with
  | none =>
    rw [List.getLast?_eq_none_iff] at h
    simp only [h, Option.map_none, Option.getD_none, ne_eq, not_true_eq_false, or_false]
  | some call =>
    have hne : calls ≠ [] := fun hnil => by rw [hnil, List.getLast?_nil] at h; cases h
    simp only [Option.map_some, Option.getD_some, bne_iff_ne, ne_eq, sends_ne_live call,
      not_false_eq_true, true_iff]
    exact Or.inr hne

/-- A controller is killed after a run exactly when the last call was
    `kill`, or there was no call and it was killed before. -/
theorem isKilled_run (c : Controller) (calls : List ControllerCall) :
    (c.run calls).isKilled = true ↔
      calls.getLast? = some .kill ∨ (calls = [] ∧ c.isKilled = true) := by
  unfold isKilled
  rw [state_run]
  cases h : calls.getLast? with
  | none =>
    rw [List.getLast?_eq_none_iff] at h
    simp only [h, Option.map_none, Option.getD_none, reduceCtorEq, true_and, false_or]
  | some call =>
    have hne : calls ≠ [] := fun hnil => by rw [hnil, List.getLast?_nil] at h; cases h
    simp only [Option.map_some, Option.getD_some, beq_iff_eq, sends_eq_killed,
      Option.some.injEq, hne, false_and, or_false]

/-- A `stopped()` future made at `c` has completed after later calls exactly
    when the controller is stopped then: it returned at once, or the first
    call after it woke it. -/
theorem stopped_isReady_run (c : Controller) (calls : List ControllerCall) :
    c.stopped.isReady (c.run calls) = (c.run calls).isStopped := by
  rw [Bool.eq_iff_iff, isStopped_run]
  unfold stopped
  cases hstopped : c.isStopped with
  | true => simp only [if_true, Waiter.isReady, true_or]
  | false =>
    -- a live controller's future waits for the first send after it
    simp only [Bool.false_eq_true, if_false, Waiter.isReady, version_run,
      Nat.lt_add_right_iff_pos, decide_eq_true_eq, List.length_pos_iff, false_or]

/-- A `killed()` future made at `c` has completed after later calls exactly
    when `c` was killed or any call followed, a `stop` as well as a `kill`:
    it waits for any change of the channel. -/
theorem killed_isReady_run (c : Controller) (calls : List ControllerCall) :
    c.killed.isReady (c.run calls) = true ↔ c.isKilled = true ∨ calls ≠ [] := by
  unfold killed
  cases hkilled : c.isKilled with
  | true => simp only [if_true, Waiter.isReady, true_or]
  | false =>
    simp only [Bool.false_eq_true, if_false, Waiter.isReady, version_run,
      Nat.lt_add_right_iff_pos, decide_eq_true_eq, List.length_pos_iff, false_or]

/-- In particular a `killed()` future returns at the next `stop`. -/
theorem killed_isReady_stop (c : Controller) : c.killed.isReady c.stop = true :=
  (killed_isReady_run c [.stop]).mpr (Or.inr (List.cons_ne_nil _ _))

end Controller

/-- The branch one pass of `handle_writer`'s `select!` takes. -/
inductive WriterBranch (α : Type) where
  | killed
  | forward (msg : α)
  | channelClosed
  | pending
  deriving DecidableEq, Repr

/-- One pass of `handle_writer`'s `select!`, given the `killed()` future made
    for this pass, the controller when the select is polled, the responses
    queued on `bytes_rx` and whether its senders are gone. The select is
    `biased`: the kill branch is polled first. -/
def writerSelect {α : Type} (killedFuture : Waiter) (c : Controller) (queue : List α)
    (closed : Bool) : WriterBranch α :=
  if killedFuture.isReady c then .killed
  else
    match queue with
    | msg :: _ => .forward msg
    | [] => if closed then .channelClosed else .pending

/-- The contract fails for `is_killed` and `killed()`. After `kill`, a `stop`
    from any task leaves the controller not killed. A `killed()` future made
    while live returns at a `stop`, with the controller not killed. And the
    tcp client's writer, waiting in its `select!` on a live context when the
    peer's `Stop` arrives, takes its kill branch though responses are
    queued. -/
theorem controller_stop_not_monotone :
    (∀ c : Controller, c.kill.isKilled = true ∧ c.kill.stop.isKilled = false) ∧
    (∀ version : Nat, let c : Controller := ⟨.live, version⟩
      c.killed.isReady c.stop = true ∧ c.stop.isKilled = false) ∧
    (∀ (α : Type) (version : Nat) (msg : α) (queue : List α),
      let c : Controller := ⟨.live, version⟩
      writerSelect c.killed c.stop (msg :: queue) false = .killed) := by
  refine ⟨fun c => ⟨rfl, rfl⟩, fun version => ⟨Controller.killed_isReady_stop _, rfl⟩,
    fun α version msg queue => ?_⟩
  -- the future waits on the version it saw, and the peer's `Stop` moves it on
  dsimp only
  unfold writerSelect
  rw [if_pos (Controller.killed_isReady_stop _)]

end Pipeline

end Dynamo
