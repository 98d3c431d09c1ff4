import Dynamo.Pipeline.Delivery

/-!
# The Response Stream Never Wedges

Liveness of `CallHome`, read off the invariant of `Delivery`. A task's step
returns `.ok none` only where the task waits: `handle_payload` once it has
returned or on a full bytes channel, the writer on an empty channel that is
still open, the server on an empty socket or until its two tasks have
returned, the receive task on an empty socket or in a send to a full
channel, and so on (`handlePayload_eq_none` and the rest). In a state of the
invariant these waits cannot all hold at once unless every task has
returned (`Inv.finished_of_stuck`): a full channel is one its reader can
take from, a waiting server means something is still to be written, a
waiting receive task means the sentinel is still to come, and the writer
and `handle_payload` can always move until they return. Conversely, once
every task has returned none can move (`Inv.stuck_of_finished`).

A run of the tasks alone, with no stop, kill or drop from outside, stays
calm (`Reachable.calm`): only those three actions touch the frontend's
context or the router's place. When such a run has finished, the router
has every response, or, when `generate` failed, its error.

Such a run is also finite (`task_runs_finite`). Each state carries a
weight: what `handle_payload` has still to send, the messages on each
channel, weighed by how far each has still to travel, and what each task
may still do before it returns. Every step of a task lowers it
(`step_measure_lt`); a pass that finds nothing ready lowers it too, since it
records the futures it waited on, and a send that waits weighs less than
the pass that began it. So every run of the tasks from the start ends, and
it ends with every task returned and the router holding every response
(`calm_run_delivers`) or `generate`'s error (`failed_run_reports`).

## Theorems

* `Inv.finished_or_step`: Some task can move, or every task has returned.
* `reachable_finished_or_step`: The same over reachable states.
* `Inv.stuck_of_finished`: Once every task has returned, none can move.
* `Inv.delivered`: A calm run that has finished has delivered every
  response.
* `Inv.reportsFailure`: A run that has finished after `generate` failed
  reports its error to the router.
* `step_measure_lt`: Every step of a task lowers the work left.
* `task_runs_finite`: No run of the tasks alone goes on for ever.
* `calm_run_delivers`, `failed_run_reports`: Every run of the tasks alone
  ends, with every response delivered or `generate`'s error reported.
-/

namespace Dynamo

namespace Pipeline

section Weights

variable {U : Type}

/-- What `handle_payload` has left to send. A response weighs more than the
    message it becomes on the bytes channel. -/
def PayloadPc.weight (σ : Setup U) (sent : Nat) : PayloadPc U → Nat
  | .generate =>
    match σ.outcome with
    | .ok responses => 7 * responses.length + 12
    | .error _ => 12
  | .stream responses => 7 * (responses.length - sent) + 1
  | .done => 0

theorem PayloadPc.weight_generate (σ : Setup U) (sent : Nat) :
    PayloadPc.weight σ sent .generate =
      match σ.outcome with
      | .ok responses => 7 * responses.length + 12
      | .error _ => 12 := rfl

@[simp] theorem PayloadPc.weight_stream (σ : Setup U) (sent : Nat) (responses : List U) :
    PayloadPc.weight σ sent (.stream responses) = 7 * (responses.length - sent) + 1 := rfl

@[simp] theorem PayloadPc.weight_done (σ : Setup U) (sent : Nat) : PayloadPc.weight σ sent .done = 0 := rfl

/-- A pass that finds nothing ready leaves the writer lighter. -/
def WriterPc.weight : WriterPc → Nat
  | .select none => 6
  | .select (some _) => 5
  | .done => 0

@[simp] theorem WriterPc.weight_select_none : (WriterPc.select none).weight = 6 := rfl
@[simp] theorem WriterPc.weight_select_some (v : Nat) : (WriterPc.select (some v)).weight = 5 := rfl
@[simp] theorem WriterPc.weight_done : WriterPc.done.weight = 0 := rfl

theorem WriterPc.five_le_weight_select (made : Option Nat) : 5 ≤ (WriterPc.select made).weight := by
  cases made <;> simp

def ServerPc.weight : ServerPc → Nat
  | .handshake => 24
  | .prologue => 12
  | .serve => 1
  | .done => 0

@[simp] theorem ServerPc.weight_handshake : ServerPc.handshake.weight = 24 := rfl
@[simp] theorem ServerPc.weight_prologue : ServerPc.prologue.weight = 12 := rfl
@[simp] theorem ServerPc.weight_serve : ServerPc.serve.weight = 1 := rfl
@[simp] theorem ServerPc.weight_done : ServerPc.done.weight = 0 := rfl

/-- The receive task may still stop once, and a pass that finds nothing
    ready leaves it lighter. A send that waits weighs less than the pass
    that began it, and more than the place the loop goes to with the message
    sent. -/
def ReceivePc.weight : ReceivePc → Nat
  | .idle => 10
  | .select canStop made => 4 + (if canStop then 5 else 0) + (if made.isNone then 1 else 0)
  | .forward canStop _ => 7 + (if canStop then 5 else 0)
  | .control msg => if msg = .stop then 8 else 3
  | .done => 0

@[simp] theorem ReceivePc.weight_idle : ReceivePc.idle.weight = 10 := rfl
@[simp] theorem ReceivePc.weight_done : ReceivePc.done.weight = 0 := rfl

theorem ReceivePc.weight_select (canStop : Bool) (made : Option Nat) :
    (ReceivePc.select canStop made).weight =
      4 + (if canStop then 5 else 0) + (if made.isNone then 1 else 0) := rfl

theorem ReceivePc.weight_forward (canStop : Bool) (data : List UInt8) :
    (ReceivePc.forward canStop data).weight = 7 + (if canStop then 5 else 0) := rfl

theorem ReceivePc.weight_control (msg : ControlMessage) :
    (ReceivePc.control msg).weight = if msg = .stop then 8 else 3 := rfl

theorem ReceivePc.four_le_weight_select (canStop : Bool) (made : Option Nat) :
    4 ≤ (ReceivePc.select canStop made).weight := by
  rw [ReceivePc.weight_select]
  omega

/-- Forgetting a blocked pass costs at most one. -/
theorem ReceivePc.weight_select_none_le (canStop : Bool) (made : Option Nat) :
    (ReceivePc.select canStop none).weight ≤ (ReceivePc.select canStop made).weight + 1 := by
  cases made <;> simp [ReceivePc.weight_select]

theorem ReceivePc.weight_select_some_lt (canStop : Bool) (v : Nat) :
    (ReceivePc.select canStop (some v)).weight < (ReceivePc.select canStop none).weight := by
  simp [ReceivePc.weight_select]

/-- The stop is sent once. -/
theorem ReceivePc.weight_stop_lt (made : Option Nat) :
    (ReceivePc.control .stop).weight < (ReceivePc.select true made).weight := by
  cases made <;> simp [ReceivePc.weight_control, ReceivePc.weight_select]

theorem ReceivePc.weight_kill_lt_select (canStop : Bool) (made : Option Nat) :
    (ReceivePc.control .kill).weight < (ReceivePc.select canStop made).weight :=
  Nat.lt_of_lt_of_le (by decide) (ReceivePc.four_le_weight_select canStop made)

theorem ReceivePc.weight_kill_lt_forward (canStop : Bool) (data : List UInt8) :
    (ReceivePc.control .kill).weight < (ReceivePc.forward canStop data).weight := by
  cases canStop <;> simp [ReceivePc.weight_control, ReceivePc.weight_forward]

/-- A control message sent outweighs the message and the place the loop goes
    to. -/
theorem ReceivePc.weight_afterControl_lt (msg : ControlMessage) :
    (ReceivePc.afterControl msg).weight + 2 < (ReceivePc.control msg).weight := by
  cases msg <;> decide

/-- A body read off the socket weighs less in a send that waits than on the
    socket, and more there than on the router's channel. -/
theorem ReceivePc.weight_forward_le (canStop : Bool) (made : Option Nat) (data : List UInt8) :
    (ReceivePc.forward canStop data).weight ≤ (ReceivePc.select canStop made).weight + 3 := by
  cases canStop <;> cases made <;> simp [ReceivePc.weight_forward, ReceivePc.weight_select]

theorem ReceivePc.weight_select_lt_forward (canStop : Bool) (data : List UInt8) :
    (ReceivePc.select canStop none).weight + 1 < (ReceivePc.forward canStop data).weight := by
  cases canStop <;> simp [ReceivePc.weight_select, ReceivePc.weight_forward]

def SendPc.weight : SendPc → Nat
  | .idle => 1
  | .run => 1
  | .done => 0

@[simp] theorem SendPc.weight_idle : SendPc.idle.weight = 1 := rfl
@[simp] theorem SendPc.weight_run : SendPc.run.weight = 1 := rfl
@[simp] theorem SendPc.weight_done : SendPc.done.weight = 0 := rfl

def RouterPc.weight : RouterPc → Nat
  | .await => 2
  | .stream => 1
  | _ => 0

@[simp] theorem RouterPc.weight_await : RouterPc.await.weight = 2 := rfl
@[simp] theorem RouterPc.weight_stream : RouterPc.stream.weight = 1 := rfl
@[simp] theorem RouterPc.weight_ended : RouterPc.ended.weight = 0 := rfl
@[simp] theorem RouterPc.weight_failed (err : PipelineError) : (RouterPc.failed err).weight = 0 := rfl

end Weights

namespace CallHome

variable {U : Type} {σ : Setup U} {s s' : CallHome U}

/-- The work left in a state, which every step of a task lowers. A message
    on the bytes channel has still to cross the socket and be read, so it
    weighs more than one on the socket, which weighs more than a body queued
    for the router. -/
def measure (σ : Setup U) (s : CallHome U) : Nat :=
  s.payload.weight σ s.sent + s.writer.weight + 6 * s.bytes.length + (if s.reader then 1 else 0) +
    4 * s.up.length + s.down.length + s.server.weight + s.receive.weight + s.send.weight +
    2 * s.ctrl.length + s.resp.length + s.router.weight

theorem measure_eq : s.measure σ =
    s.payload.weight σ s.sent + s.writer.weight + 6 * s.bytes.length + (if s.reader then 1 else 0) +
      4 * s.up.length + s.down.length + s.server.weight + s.receive.weight + s.send.weight +
      2 * s.ctrl.length + s.resp.length + s.router.weight := rfl

section Blocked

variable (σ s)

theorem writerExit_ne_none (fails : Bool) : writerExit σ s fails ≠ .ok none := by
  unfold writerExit
  split
  · split <;> exact nofun
  · exact nofun

variable {σ s}

/-- `send_prologue` waits only on a full channel the writer still drains. -/
theorem sendPrologue_eq_none {e : Option String} (h : sendPrologue σ s e = none) :
    s.writer ≠ .done ∧ bytesCapacity ≤ s.bytes.length := by
  unfold sendPrologue at h
  split at h
  · split at h
    · cases h
    · split at h
      · cases h
      · exact ⟨‹_›, Nat.le_of_not_lt ‹_›⟩
  · cases h

/-- `handle_payload` waits once it has returned, or on a full bytes channel
    the writer still drains. -/
theorem handlePayload_eq_none (h : s.handlePayload σ = .ok none) :
    s.payload = .done ∨ s.writer ≠ .done ∧ bytesCapacity ≤ s.bytes.length := by
  unfold handlePayload at h
  split at h
  · -- the prologue waits for room
    split at h <;>
      exact Or.inr (sendPrologue_eq_none (Option.map_eq_none_iff.mp (Except.ok.inj h)))
  · split at h
    · cases h
    · split at h
      · cases h
      · split at h
        · cases h
        · split at h
          · cases h
          · exact Or.inr ⟨‹_›, Nat.le_of_not_lt ‹_›⟩
  · exact Or.inl ‹_›

/-- A control message waits only on a full channel. -/
theorem sendControl_eq_none {msg : ControlMessage} {waiting : Option (CallHome U)}
    (h : sendControl s msg waiting = .ok none) : waiting = none ∧ controlCapacity ≤ s.ctrl.length := by
  unfold sendControl at h
  split at h
  · cases h
  · split at h
    · cases h
    · exact ⟨Except.ok.inj h, Nat.le_of_not_lt ‹_›⟩

theorem receiveControl_ne_none (msg : ControlMessage) : receiveControl s msg ≠ .ok none :=
  fun h => nomatch (sendControl_eq_none h).1

/-- A body waits only on a full channel, the router held. -/
theorem forwardData_eq_none {c : Bool} {data : List UInt8} {waiting : Option (CallHome U)}
    (h : forwardData s c data waiting = .ok none) :
    waiting = none ∧ s.router ≠ .dropped ∧ responseCapacity ≤ s.resp.length := by
  unfold forwardData at h
  split at h
  · exact absurd h (receiveControl_ne_none _)
  · split at h
    · cases h
    · exact ⟨Except.ok.inj h, ‹_›, Nat.le_of_not_lt ‹_›⟩

/-- The writer waits only on an empty channel whose sender is still held. -/
theorem handleWriter_eq_none {fails : Bool} (h : s.handleWriter σ fails = .ok none) :
    s.writer = .done ∨ s.bytes = [] ∧ s.payload.isDone = false := by
  unfold handleWriter at h
  split at h
  · exact Or.inl ‹_›
  · split at h
    · exact absurd h (writerExit_ne_none σ s fails)
    · split at h
      · split at h
        · exact absurd h (writerExit_ne_none σ _ fails)
        · cases h
      · rename_i hbytes
        split at h
        · exact absurd h (writerExit_ne_none σ s fails)
        · rename_i hnd
          split at h
          · cases h
          · exact Or.inr ⟨hbytes, Bool.eq_false_iff.mpr hnd⟩

/-- The server waits on an empty socket, or for its two tasks. -/
theorem processStream_eq_none (h : s.processStream σ = .ok none) :
    s.server = .done ∨ (s.server = .handshake ∨ s.server = .prologue) ∧ s.up = [] ∨
      s.server = .serve ∧ ¬ (s.receive = .done ∧ s.send = .done) := by
  unfold processStream at h
  split at h
  · split at h
    · exact Or.inr (Or.inl ⟨Or.inl ‹_›, ‹_›⟩)
    · -- any message moves the server on
      repeat' split at h
      all_goals cases h
  · split at h
    · exact Or.inr (Or.inl ⟨Or.inr ‹_›, ‹_›⟩)
    · repeat' split at h
      all_goals cases h
  · split at h
    · cases h
    · rename_i hserve hjoin
      refine Or.inr (Or.inr ⟨hserve, fun h => hjoin ?_⟩)
      simp only [h.1, h.2, decide_true, Bool.and_self]
  · exact Or.inl ‹_›

/-- The receive task waits on an empty socket, its futures made, or in a
    send to a full channel. -/
theorem networkReceiveHandler_eq_none (h : s.networkReceiveHandler σ = .ok none) :
    s.receive = .idle ∨ s.receive = .done ∨ s.up = [] ∧ (∃ c m, s.receive = .select c (some m)) ∨
      (∃ c data, s.receive = .forward c data) ∧ responseCapacity ≤ s.resp.length ∨
      (∃ msg, s.receive = .control msg) ∧ controlCapacity ≤ s.ctrl.length := by
  unfold networkReceiveHandler at h
  split at h
  · exact Or.inl ‹_›
  · exact Or.inr (Or.inl ‹_›)
  · rename_i c data hfwd
    exact Or.inr (Or.inr (Or.inr (Or.inl ⟨⟨c, data, hfwd⟩, (forwardData_eq_none h).2.2⟩)))
  · rename_i msg hctl
    exact Or.inr (Or.inr (Or.inr (Or.inr ⟨⟨msg, hctl⟩, (sendControl_eq_none h).2⟩)))
  · rename_i canStop made hsel
    split at h
    · exact absurd h (receiveControl_ne_none _)
    · split at h
      · exact absurd h (receiveControl_ne_none _)
      · split at h
        · exact absurd h (receiveControl_ne_none _)
        · split at h
          · -- any message moves the receive task on
            split at h
            · repeat' split at h
              all_goals cases h
            · split at h
              · exact nomatch (forwardData_eq_none h).1
              · cases h
          · rename_i hup
            split at h
            · cases h
            · exact Or.inr (Or.inr (Or.inl ⟨hup, _, _, hsel⟩))

/-- The send task waits only for a control message or the receive task's
    return. -/
theorem networkSendHandler_eq_none (h : s.networkSendHandler σ = .ok none) :
    s.send ≠ .run ∨ s.ctrl = [] ∧ s.receive ≠ .done := by
  unfold networkSendHandler at h
  split at h
  · rename_i hs
    exact Or.inl (by rw [hs]; exact nofun)
  · rename_i hs
    exact Or.inl (by rw [hs]; exact nofun)
  · split at h
    · repeat' split at h
      all_goals cases h
    · split at h
      · cases h
      · exact Or.inr ⟨‹_›, ‹_›⟩

/-- The router waits for the provider while the server has not returned. -/
theorem routerAwait_eq_none (h : s.routerAwait = none) :
    s.router ≠ .await ∨ s.provider = none ∧ s.server ≠ .done := by
  unfold routerAwait at h
  split at h
  · split at h
    · cases h
    · cases h
    · split at h
      · cases h
      · exact Or.inr ⟨‹_›, ‹_›⟩
  · exact Or.inl ‹_›

/-- The router's stream waits on an empty channel whose sender is held. -/
theorem routerRecv_eq_none (h : s.routerRecv σ = none) :
    s.router ≠ .stream ∨ s.resp = [] ∧ s.receive ≠ .done := by
  unfold routerRecv at h
  split at h
  · split at h
    · split at h <;> cases h
    · split at h
      · cases h
      · exact Or.inr ⟨‹_›, ‹_›⟩
  · exact Or.inl ‹_›

end Blocked

/-- The router takes what is on its channel: if neither of its steps can
    move while the receive task runs, the channel is empty. -/
theorem Tasks.resp_eq_nil_of_stuck (ht : Tasks σ s) (hp : s.provider = some (.ok ()))
    (hdone : s.receive ≠ .done) (hawait : s.routerAwait = none) (hrecv : s.routerRecv σ = none) :
    s.resp = [] := by
  cases hr : s.router with
  | await =>
    rcases routerAwait_eq_none hawait with h | ⟨hnone, -⟩
    · exact absurd hr h
    · rw [hp] at hnone
      cases hnone
  | stream =>
    rcases routerRecv_eq_none hrecv with h | ⟨hnil, -⟩
    · exact absurd hr h
    · exact hnil
  | ended => exact absurd (ht.router_ended hr).1 hdone
  | failed err =>
    obtain ⟨e, he, -⟩ := ht.router_failed err hr
    rw [hp] at he
    cases he
  | dropped => exact ht.dropped hr

/-- If no task can move, every task has returned. `handle_payload` and the
    writer move until they return, as the writer drains the bytes channel;
    the server then has the rest of the socket to read, or joins its tasks,
    whose sends the router and the send task make room for; and the router
    takes what is left. -/
theorem Inv.finished_of_stuck (hi : Inv σ s)
    (hstuck : ∀ a : Action, a.isTask → s.step σ a = .ok none) : Finished s := by
  obtain ⟨ht, -, read, unread, queued, written, tail, hf⟩ := hi
  have hwriter := handleWriter_eq_none (hstuck (.writer false) rfl)
  have hpay : s.payload = .done := by
    rcases handlePayload_eq_none (hstuck .payload rfl) with h | ⟨hw, hfull⟩
    · exact h
    · -- a full bytes channel is one the writer can take from
      obtain ⟨hnil, -⟩ := hwriter.resolve_left hw
      rw [hnil] at hfull
      exact absurd hfull (by decide)
  have hw : s.writer = .done := hwriter.resolve_right fun h => by rw [hpay] at h; cases h.2
  have hawait := hstuck .routerAwait rfl
  have hrecv := hstuck .routerRecv rfl
  rw [CallHome.step, Except.ok.injEq] at hawait
  rw [CallHome.step, Except.ok.injEq] at hrecv
  have hreader : s.reader = false := by
    have h := hstuck .readerAlive rfl
    rw [CallHome.step, hw] at h
    cases hr : s.reader
    · rfl
    · rw [hr] at h
      simp at h
  have hserver : s.server = .done := by
    rcases processStream_eq_none (hstuck .server rfl) with h | ⟨hsp, hup⟩ | ⟨hserve, hjoin⟩
    · exact h
    · -- the handshake, or the prologue the writer has written, is on the socket
      exfalso
      have hlen := hf.up.length_eq
      rw [hup] at hlen
      have hlog := hf.log
      rcases hsp with hsh | hpro
      · rw [hf.handshake hsh, List.nil_append] at hlog
        rw [hlog] at hlen
        cases hlen
      · obtain ⟨hwritten, -, -⟩ := hf.closed_of_prologue ht hpro hw
        rw [hf.prologue hpro, hwritten, Setup.emitted_of_ne_generate (by rw [hpay]; simp),
          List.singleton_append, List.cons.injEq] at hlog
        rw [hlog.2] at hlen
        cases hlen
    · exfalso
      have hp := ht.serve hserve
      rcases networkReceiveHandler_eq_none (hstuck .receive rfl) with
        hidle | hdone | ⟨hup, c, m, hsel⟩ | ⟨⟨c, data, hfwd⟩, hfull⟩ | ⟨⟨msg, hctl⟩, hfull⟩
      · exact ht.served.mp hp hidle
      · -- the receive task has returned, and the send task after it
        rcases networkSendHandler_eq_none (hstuck .send rfl) with hsend | ⟨-, hrd⟩
        · refine hjoin ⟨hdone, ?_⟩
          cases hs : s.send with
          | idle => exact absurd (ht.send_idle.mp hs) (by rw [hdone]; simp)
          | run => exact absurd hs hsend
          | done => rfl
        · exact hrd hdone
      · -- the sentinel the writer wrote last is still on the socket
        have htail : tail = [.sentinel] :=
          (hf.exited hw).2.resolve_right fun h => absurd (hserve.symm.trans h.2) (by simp)
        obtain ⟨ds, -, hread, -⟩ := hf.served_running hp (by simp [hsel])
        have hlen := hf.up.length_eq
        rw [hup] at hlen
        have hlog := hf.log
        rw [hread, htail, List.length_eq_zero_iff.mp hlen.symm, List.append_nil] at hlog
        have hmem : Item.sentinel ∈ (Item.handshake :: .prologue none :: ds.map .data : List (Item U)) := by
          rw [hlog]
          simp
        simp at hmem
      · -- a body waits for room on the router's channel, which the router drains
        rw [ht.resp_eq_nil_of_stuck hp (by simp [hfwd]) hawait hrecv] at hfull
        exact absurd hfull (by decide)
      · -- a control message waits for room, which the send task makes
        rcases networkSendHandler_eq_none (hstuck .send rfl) with hsend | ⟨hnil, -⟩
        · exact hsend (ht.receive_running (by simp [hctl]) (by simp [hctl])).1
        · rw [hnil] at hfull
          exact absurd hfull (by decide)
  refine ⟨by rw [hpay]; rfl, hw, hreader, hserver, ?_⟩
  cases hr : s.router with
  | await =>
    rcases routerAwait_eq_none hawait with h | ⟨-, hsd⟩
    · exact absurd hr h
    · exact absurd hserver hsd
  | stream =>
    rcases routerRecv_eq_none hrecv with h | ⟨-, hrd⟩
    · exact absurd hr h
    · exact absurd (ht.done_served hserver (ht.router_served (Or.inl hr))).1 hrd
  | ended => exact Or.inl rfl
  | failed err => exact Or.inr (Or.inl ⟨err, rfl⟩)
  | dropped => exact Or.inr (Or.inr rfl)

/-- Some task can move, or every task has returned. -/
theorem Inv.finished_or_step (hσ : σ.Sound) (hi : Inv σ s) :
    Finished s ∨ ∃ a s', a.isTask ∧ s.step σ a = .ok (some s') := by
  by_cases h : ∃ a s', a.isTask ∧ s.step σ a = .ok (some s')
  · exact Or.inr h
  · refine Or.inl (hi.finished_of_stuck fun a ha => ?_)
    obtain ⟨o, ho, -⟩ := hi.step hσ a
    cases o with
    | none => exact ho
    | some s' => exact absurd ⟨a, s', ha, ho⟩ h

/-- Once every task has returned, no task can move: the receive and send
    tasks never started, or returned before the server, and the router is
    done with its stream. -/
theorem Inv.stuck_of_finished (hi : Inv σ s) (hfin : Finished s) :
    ¬ ∃ a s', a.isTask ∧ s.step σ a = .ok (some s') := by
  obtain ⟨hpay, hw, hreader, hserver, hrouter⟩ := hfin
  have ht := hi.tasks
  have hpd : s.payload = .done := by
    revert hpay
    cases s.payload <;> simp [PayloadPc.isDone]
  have hspawned : s.receive = .idle ∧ s.send = .idle ∨ s.receive = .done ∧ s.send = .done := by
    by_cases hp : s.provider = some (.ok ())
    · exact Or.inr (ht.done_served hserver hp)
    · have hidle : s.receive = .idle := not_not.mp fun h => hp (ht.served.mpr h)
      exact Or.inl ⟨hidle, ht.send_idle.mpr hidle⟩
  rintro ⟨a, s', ha, h⟩
  cases a <;> rw [CallHome.step] at h
  case payload =>
    unfold CallHome.handlePayload at h
    simp [hpd] at h
  case writer fails =>
    unfold CallHome.handleWriter at h
    simp [hw] at h
  case readerRecv | readerEof | readerAlive => simp [hreader] at h
  case server =>
    unfold CallHome.processStream at h
    simp [hserver] at h
  case receive =>
    unfold CallHome.networkReceiveHandler at h
    rcases hspawned with ⟨hr, -⟩ | ⟨hr, -⟩ <;> simp [hr] at h
  case send =>
    unfold CallHome.networkSendHandler at h
    rcases hspawned with ⟨-, hr⟩ | ⟨-, hr⟩ <;> simp [hr] at h
  case routerAwait =>
    unfold CallHome.routerAwait at h
    rcases hrouter with hr | ⟨err, hr⟩ | hr <;> simp [hr] at h
  case routerRecv =>
    unfold CallHome.routerRecv at h
    rcases hrouter with hr | ⟨err, hr⟩ | hr <;> simp [hr] at h
  all_goals cases ha

section Frame

/-- `send_prologue` puts the prologue on the bytes channel, or nothing. -/
theorem sendPrologue_cases {e : Option String} {s₁ : CallHome U} (h : sendPrologue σ s e = some s₁) :
    s₁ = s ∨ ∃ header, s₁ = { s with bytes := s.bytes ++ [.fromHeader header] } := by
  unfold sendPrologue at h
  split at h
  · split at h
    · exact Or.inl (Option.some.inj h).symm
    · split at h
      · exact Or.inr ⟨_, (Option.some.inj h).symm⟩
      · cases h
  · exact Or.inl (Option.some.inj h).symm

/-- `generate` returns and the prologue is sent: `handle_payload` moves on,
    and the prologue is on the bytes channel, or nowhere. -/
theorem handlePayload_generate {p : PayloadPc U} {e : Option String}
    (h : (sendPrologue σ s e).map (fun s₁ => { s₁ with payload := p }) = some s') :
    s' = { s with payload := p } ∨
      ∃ header, s' = { s with bytes := s.bytes ++ [.fromHeader header], payload := p } := by
  obtain ⟨s₁, hs₁, rfl⟩ := Option.map_eq_some_iff.mp h
  rcases sendPrologue_cases hs₁ with rfl | ⟨header, rfl⟩
  · exact Or.inl rfl
  · exact Or.inr ⟨header, rfl⟩

/-- A control message sent, or waiting to be, leaves the frontend's context
    and the router alone, when the state it waits in does. -/
theorem sendControl_frame {msg : ControlMessage} {waiting : Option (CallHome U)}
    (hwait : ∀ s₁, waiting = some s₁ → s₁.fctx = s.fctx ∧ s₁.router = s.router)
    (h : sendControl s msg waiting = .ok (some s')) : s'.fctx = s.fctx ∧ s'.router = s.router := by
  unfold CallHome.sendControl at h
  split at h
  · cases h
  · split at h
    · cases h
      exact ⟨rfl, rfl⟩
    · exact hwait s' (Except.ok.inj h)

theorem receiveControl_frame {msg : ControlMessage} (h : receiveControl s msg = .ok (some s')) :
    s'.fctx = s.fctx ∧ s'.router = s.router :=
  sendControl_frame (fun _ hw => by cases hw; exact ⟨rfl, rfl⟩) h

theorem forwardData_frame {c : Bool} {data : List UInt8} {waiting : Option (CallHome U)}
    (hwait : ∀ s₁, waiting = some s₁ → s₁.fctx = s.fctx ∧ s₁.router = s.router)
    (h : forwardData s c data waiting = .ok (some s')) : s'.fctx = s.fctx ∧ s'.router = s.router := by
  unfold CallHome.forwardData at h
  split at h
  · exact receiveControl_frame h
  · split at h
    · cases h
      exact ⟨rfl, rfl⟩
    · exact hwait s' (Except.ok.inj h)

/-- The receive task never touches the frontend's context or the router. -/
theorem networkReceiveHandler_frame (h : s.networkReceiveHandler σ = .ok (some s')) :
    s'.fctx = s.fctx ∧ s'.router = s.router := by
  unfold networkReceiveHandler at h
  split at h
  · cases h
  · cases h
  · exact forwardData_frame (fun _ hw => by cases hw) h
  · exact sendControl_frame (fun _ hw => by cases hw) h
  · -- a pass of the `select!`: a kill or a stop sent, or the socket read
    split at h
    · exact receiveControl_frame h
    split at h
    · exact receiveControl_frame h
    split at h
    · exact receiveControl_frame h
    split at h
    · -- a message: the state with it taken off the socket has the same frame
      dsimp only at h
      split at h
      · repeat' split at h
        all_goals cases h
        exact ⟨rfl, rfl⟩
      · split at h
        · -- elaborated from `h`, whose state is the one with the message taken off
          exact (forwardData_frame (fun _ hw => by cases hw; exact ⟨rfl, rfl⟩) h :)
        · cases h
          exact ⟨rfl, rfl⟩
    · split at h
      · cases h
        exact ⟨rfl, rfl⟩
      · cases h

/-- A step of a task leaves the frontend's context alone, and never drops
    the router: only a stop, a kill or the router's caller does. -/
theorem step_frame {a : Action} (ha : a.isTask) (h : s.step σ a = .ok (some s')) :
    s'.fctx = s.fctx ∧ (s'.router = .dropped → s.router = .dropped) := by
  cases a with
  | payload =>
    rw [CallHome.step] at h
    unfold handlePayload at h
    split at h
    · split at h <;>
        rcases handlePayload_generate (Except.ok.inj h) with rfl | ⟨_, rfl⟩ <;> exact ⟨rfl, id⟩
    · repeat' split at h
      all_goals cases h
      all_goals exact ⟨rfl, id⟩
    · cases h
  | writer fails =>
    rw [CallHome.step] at h
    unfold handleWriter writerExit at h
    repeat' split at h
    all_goals cases h
    all_goals exact ⟨rfl, id⟩
  | readerRecv =>
    rw [CallHome.step] at h
    unfold readerMessage at h
    repeat' split at h
    all_goals cases h
    all_goals exact ⟨rfl, id⟩
  | readerEof | readerAlive =>
    rw [CallHome.step] at h
    split at h
    · cases h
      exact ⟨rfl, id⟩
    · cases h
  | server =>
    rw [CallHome.step] at h
    unfold processStream serverDone serverServe at h
    repeat' split at h
    all_goals cases h
    all_goals exact ⟨rfl, id⟩
  | receive =>
    rw [CallHome.step] at h
    obtain ⟨hctx, hrouter⟩ := networkReceiveHandler_frame h
    exact ⟨hctx, fun hd => hrouter ▸ hd⟩
  | send =>
    rw [CallHome.step] at h
    unfold networkSendHandler at h
    repeat' split at h
    all_goals cases h
    all_goals exact ⟨rfl, id⟩
  | routerAwait =>
    rw [CallHome.step] at h
    unfold routerAwait at h
    repeat' split at h
    all_goals cases h
    all_goals exact ⟨rfl, fun h => by simp at h⟩
  | routerRecv =>
    rw [CallHome.step] at h
    unfold routerRecv at h
    repeat' split at h
    all_goals cases h
    all_goals first | exact ⟨rfl, id⟩ | exact ⟨rfl, fun h => by simp at h⟩
  | routerDrop | stop | kill => cases ha

end Frame

section Termination

/-- Each message on the bytes channel weighs six. -/
theorem measure_bytes (bytes : List TwoPartMessage) :
    ({ s with bytes := bytes } : CallHome U).measure σ + 6 * s.bytes.length =
      s.measure σ + 6 * bytes.length := by
  simp only [measure_eq]
  omega

theorem handlePayload_measure (h : s.handlePayload σ = .ok (some s')) :
    s'.measure σ < s.measure σ := by
  unfold handlePayload at h
  split at h
  · -- `generate` returns: the prologue goes on the bytes channel, or nowhere
    rename_i hgen
    split at h
    · rename_i rs hrs
      rcases handlePayload_generate (Except.ok.inj h) with rfl | ⟨header, rfl⟩
      all_goals simp [measure_eq, PayloadPc.weight_generate, hgen, hrs]
      all_goals omega
    · rename_i e he
      rcases handlePayload_generate (Except.ok.inj h) with rfl | ⟨header, rfl⟩
      all_goals simp [measure_eq, PayloadPc.weight_generate, hgen, he]
      all_goals omega
  · rename_i rs hstream
    split at h
    · cases h
      simp [measure_eq, hstream]
    · rename_i r hr
      have hlt := (List.getElem?_eq_some_iff.mp hr).1
      split at h
      · cases h
      · split at h
        · cases h
          simp [measure_eq, hstream]
        · split at h
          · -- one response moves to the bytes channel
            cases h
            simp [measure_eq, hstream]
            omega
          · cases h
  · cases h

theorem writerExit_measure {fails : Bool} {made : Option Nat} (hsel : s.writer = .select made)
    (h : writerExit σ s fails = .ok (some s')) : s'.measure σ < s.measure σ := by
  -- the writer leaves a select, worth at least five, and the sentinel costs four
  have hw := WriterPc.five_le_weight_select made
  unfold writerExit at h
  repeat' split at h
  all_goals cases h
  all_goals simp [measure_eq, hsel]
  all_goals omega

theorem handleWriter_measure {fails : Bool} (h : s.handleWriter σ fails = .ok (some s')) :
    s'.measure σ < s.measure σ := by
  unfold handleWriter at h
  split at h
  · cases h
  · rename_i made hsel
    split at h
    · exact writerExit_measure hsel h
    · split at h
      · rename_i msg rest hbytes
        split at h
        · -- the write fails: the rest of the channel is dropped with it
          have hexit := writerExit_measure (s := { s with bytes := rest }) hsel h
          have hrest := measure_bytes (σ := σ) (s := s) rest
          rw [hbytes, List.length_cons] at hrest
          omega
        · -- one message crosses onto the socket
          cases h
          have hw := WriterPc.five_le_weight_select made
          simp [measure_eq, hsel, hbytes]
          omega
      · split at h
        · exact writerExit_measure hsel h
        · split at h
          · cases h
            simp [measure_eq, hsel]
          · cases h

theorem readerRecv_measure (h : s.step σ .readerRecv = .ok (some s')) :
    s'.measure σ < s.measure σ := by
  rw [CallHome.step] at h
  split at h
  · rename_i msg rest _ hdown
    unfold readerMessage at h
    repeat' split at h
    all_goals cases h
    all_goals simp [measure_eq, hdown]
  · cases h

theorem processStream_measure (h : s.processStream σ = .ok (some s')) :
    s'.measure σ < s.measure σ := by
  unfold processStream serverDone serverServe at h
  split at h
  · rename_i hsh
    split at h
    · cases h
    · -- the handshake is read off the socket
      rename_i msg rest hup
      repeat' split at h
      all_goals cases h
      all_goals simp [measure_eq, hsh, hup]
      all_goals omega
  · rename_i hpro
    split at h
    · cases h
    · -- the prologue is read off the socket; a good one spawns the two tasks
      rename_i msg rest hup
      have hspawn : (ReceivePc.select true none).weight = 10 := rfl
      repeat' split at h
      all_goals cases h
      all_goals simp [measure_eq, hpro, hup]
      all_goals omega
  · rename_i hserve
    split at h
    · cases h
      simp [measure_eq, hserve]
    · cases h
  · cases h

theorem sendControl_measure {msg : ControlMessage} {waiting : Option (CallHome U)}
    (hlt : (ReceivePc.afterControl msg).weight + 2 < s.receive.weight)
    (hwait : ∀ s₁, waiting = some s₁ → s₁.measure σ < s.measure σ)
    (h : sendControl s msg waiting = .ok (some s')) : s'.measure σ < s.measure σ := by
  unfold sendControl at h
  split at h
  · cases h
  · split at h
    · -- the message goes on the channel
      cases h
      simp only [measure_eq, List.length_append, List.length_singleton]
      omega
    · exact hwait s' (Except.ok.inj h)

theorem receiveControl_measure {msg : ControlMessage}
    (hlt : (ReceivePc.control msg).weight < s.receive.weight)
    (h : receiveControl s msg = .ok (some s')) : s'.measure σ < s.measure σ := by
  have hafter := ReceivePc.weight_afterControl_lt msg
  refine sendControl_measure (by omega) (fun _ hs => ?_) h
  -- or the send waits, lighter than the place it left
  cases hs
  simp only [measure_eq]
  omega

theorem networkReceiveHandler_measure (h : s.networkReceiveHandler σ = .ok (some s')) :
    s'.measure σ < s.measure σ := by
  unfold networkReceiveHandler at h
  split at h
  · cases h
  · cases h
  · -- a waiting body goes on, or the router has gone and a kill follows
    rename_i canStop data hfwd
    unfold forwardData at h
    split at h
    · refine receiveControl_measure ?_ h
      rw [hfwd]
      exact ReceivePc.weight_kill_lt_forward canStop data
    · split at h
      · cases h
        have := ReceivePc.weight_select_lt_forward canStop data
        simp [measure_eq, hfwd]
        omega
      · cases h
  · rename_i msg hctl
    refine sendControl_measure ?_ (fun _ hs => by cases hs) h
    rw [hctl]
    exact ReceivePc.weight_afterControl_lt msg
  · rename_i canStop made hsel
    have hkill : (ReceivePc.control .kill).weight < s.receive.weight := by
      rw [hsel]
      exact ReceivePc.weight_kill_lt_select canStop made
    split at h
    · exact receiveControl_measure hkill h
    · rename_i hne
      split at h
      · exact receiveControl_measure hkill h
      · split at h
        · -- the stop is sent once
          rename_i hready
          rw [Bool.and_eq_true] at hready
          refine receiveControl_measure ?_ h
          rw [hsel, hready.1]
          exact ReceivePc.weight_stop_lt made
        · split at h
          · -- a message is read off the socket
            rename_i msg rest hup
            have hnone := ReceivePc.weight_select_none_le canStop made
            split at h
            · repeat' split at h
              all_goals cases h
              all_goals simp [measure_eq, hup, hsel]
              all_goals omega
            · split at h
              · -- a body goes on the router's channel, or waits for room
                have hwait := ReceivePc.weight_forward_le canStop made msg.data
                unfold forwardData at h
                dsimp only at h
                split at h
                · rename_i hdrop
                  exact absurd hdrop hne
                · split at h
                  all_goals cases h
                  all_goals simp [measure_eq, hup, hsel]
                  all_goals omega
              · cases h
                simp [measure_eq, hup, hsel]
                omega
          · split at h
            · cases h
              have := ReceivePc.weight_select_some_lt canStop s.fctx.version
              simp [measure_eq, hsel]
              omega
            · cases h

theorem networkSendHandler_measure (h : s.networkSendHandler σ = .ok (some s')) :
    s'.measure σ < s.measure σ := by
  unfold networkSendHandler at h
  split at h
  · cases h
  · cases h
  · rename_i hrun
    split at h
    · rename_i msg rest hctrl
      repeat' split at h
      all_goals cases h
      all_goals simp [measure_eq, hctrl]
      all_goals omega
    · split at h
      · cases h
        simp [measure_eq, hrun]
      · cases h

theorem routerAwait_measure (h : s.routerAwait = some s') : s'.measure σ < s.measure σ := by
  unfold routerAwait at h
  split at h
  · rename_i hr
    repeat' split at h
    all_goals cases h
    all_goals simp [measure_eq, hr]
  · cases h

theorem routerRecv_measure (h : s.routerRecv σ = some s') : s'.measure σ < s.measure σ := by
  unfold routerRecv at h
  split at h
  · rename_i hr
    split at h
    · rename_i data rest hresp
      split at h
      all_goals cases h
      all_goals simp [measure_eq, hresp]
    · split at h
      · cases h
        simp [measure_eq, hr]
      · cases h
  · cases h

/-- Every step of a task lowers the work left. -/
theorem step_measure_lt {a : Action} (ha : a.isTask) (h : s.step σ a = .ok (some s')) :
    s'.measure σ < s.measure σ := by
  cases a with
  | payload => exact handlePayload_measure h
  | writer fails => exact handleWriter_measure h
  | readerRecv => exact readerRecv_measure h
  | readerEof | readerAlive =>
    rw [CallHome.step] at h
    split at h
    · rename_i hcond
      cases h
      simp only [Bool.and_eq_true] at hcond
      simp [measure_eq, hcond]
    · cases h
  | server => exact processStream_measure h
  | receive => exact networkReceiveHandler_measure h
  | send => exact networkSendHandler_measure h
  | routerAwait =>
    rw [CallHome.step, Except.ok.injEq] at h
    exact routerAwait_measure h
  | routerRecv =>
    rw [CallHome.step, Except.ok.injEq] at h
    exact routerRecv_measure h
  | routerDrop | stop | kill => cases ha

/-- No sequence of states follows by steps of tasks for ever. -/
theorem not_forall_task_step (f : ℕ → CallHome U) :
    ¬ ∀ n, ∃ a, a.isTask ∧ (f n).step σ a = .ok (some (f (n + 1))) := by
  intro hf
  -- the work left would fall for ever
  rcases WellFounded.not_rel_apply_succ (r := (· < ·)) (fun n => (f n).measure σ) with ⟨n, hn⟩
  rcases hf n with ⟨a, ha, hstep⟩
  exact hn (step_measure_lt ha hstep)

/-- Runs of the tasks alone are finite, whatever the state they start from:
    with no stop, kill or drop from outside, the tasks cannot keep one
    another busy for ever. -/
theorem task_runs_finite :
    ¬ ∃ f : ℕ → CallHome U, ∀ n, ∃ a, a.isTask ∧ (f n).step σ a = .ok (some (f (n + 1))) :=
  fun ⟨f, hf⟩ => not_forall_task_step f hf

end Termination

/-- A run of the tasks alone is calm: nobody has stopped or killed the
    frontend's context or dropped the router. -/
theorem Reachable.calm {hs : List UInt8} (h : Reachable σ hs (fun a => a.isTask) s) :
    s.fctx = Controller.new ∧ s.router ≠ .dropped := by
  induction h with
  | new => exact ⟨rfl, nofun⟩
  | step a _ ha hstep ih =>
    obtain ⟨hfctx, hdrop⟩ := step_frame ha hstep
    exact ⟨hfctx.trans ih.1, fun h => ih.2 (hdrop h)⟩

/-- A calm run that has finished has delivered every response: the writer
    wrote all that was sent and then the sentinel, the receive task read up
    to the sentinel, and the router took all it was given. -/
theorem Inv.delivered (hi : Inv σ s) (hcalm : σ.Calm s) (hfin : Finished s) :
    ∃ rs, σ.outcome = .ok rs ∧ s.router = .ended ∧ s.received = rs := by
  obtain ⟨ht, hq, read, unread, queued, written, tail, hf⟩ := hi
  obtain ⟨hpay, hw, -, -, hrouter⟩ := hfin
  obtain ⟨-, hnd, rs, hrs⟩ := id hcalm
  have hended : s.router = .ended := by
    rcases hrouter with h | ⟨err, h⟩ | h
    · exact h
    · obtain ⟨e, hp, -⟩ := ht.router_failed err h
      obtain ⟨e', he', -⟩ := ht.provider_error e hp
      rw [hrs] at he'
      cases he'
    · exact absurd h hnd
  obtain ⟨hrecv, hresp⟩ := ht.router_ended hended
  obtain ⟨ds, snt, resps, hread, -, hsnt, hresps, -, heq⟩ := hf.served (ht.router_served (Or.inr hended))
  rw [hsnt hcalm hrecv] at hread
  have hnil : resps = [] := List.forall₂_nil_left_iff.mp (by rwa [forwarded, hresp, hrecv] at hresps)
  rw [hnil, List.append_nil] at heq
  obtain ⟨hwritten, htail, hd⟩ := hf.closed hw (Or.inr hcalm)
  have hgen : s.payload ≠ .generate := fun h => by
    rw [h] at hpay
    cases hpay
  have hemit : σ.emitted s = .prologue none :: rs.map .data := by
    rw [Setup.emitted_of_ne_generate hgen, Setup.prologueError_eq_none hrs, Setup.sentData, hrs]
    dsimp only
    rw [(hq hcalm).payload hd rs hrs, List.take_length]
  -- the socket, read as far as the sentinel, holds every response
  have hlog := hf.log
  rw [hread, hwritten, htail, hemit] at hlog
  simp only [List.cons_append, List.cons.injEq, true_and, List.append_assoc] at hlog
  obtain ⟨hds, -⟩ := List.append_cons_inj_of_not_mem (by simp) (by simp) hlog
  refine ⟨rs, hrs, hended, ?_⟩
  rw [heq hnd]
  exact List.map_injective_iff.mpr (fun _ _ h => Item.data.inj h) hds

/-- A run that has finished after `generate` failed, the router held,
    reports the failure to the router. -/
theorem Inv.reportsFailure (hi : Inv σ s) {e : String} (he : σ.outcome = .error e)
    (hnd : s.router ≠ .dropped) (hfin : Finished s) :
    s.router = .failed (.connectionFailed ("Generate Error: " ++ e)) := by
  obtain ⟨ht, -, read, unread, queued, written, tail, hf⟩ := hi
  rcases hfin.2.2.2.2 with h | ⟨err, h⟩ | h
  · -- a stream would mean a good prologue, so a `generate` that succeeded
    have hp := ht.router_served (Or.inr h)
    obtain ⟨ds, snt, resps, hread, -⟩ := hf.served hp
    obtain ⟨rs, hrs, -⟩ := hf.data_prefix (ht.past_of_served hp) hread
    rw [he] at hrs
    cases hrs
  · obtain ⟨e', hp, rfl⟩ := ht.router_failed err h
    obtain ⟨e'', he'', rfl⟩ := ht.provider_error e' hp
    rw [he, Except.error.injEq] at he''
    rw [h, he'']
  · exact absurd h hnd

/-- The stream never wedges: in every reachable state, whatever stops,
    kills or drops came before, some task can move, or every task has
    returned and the router's `generate` has its result. -/
theorem reachable_finished_or_step (hσ : σ.Sound) {hs : List UInt8}
    (hhs : σ.codecs.handshake.toVec ⟨σ.subject, .response⟩ = .ok hs) {allowed : Action → Prop}
    (h : Reachable σ hs allowed s) : Finished s ∨ ∃ a s', a.isTask ∧ s.step σ a = .ok (some s') :=
  (h.inv hσ hhs).finished_or_step hσ

/-- A run in which the frontend stops the request and then kills it: the
    stop fills the control channel and the kill waits for room, and the send
    task, or another, can still move. -/
theorem killed_run_finished_or_step :
    ∃ s, Reachable (Setup.sample (.ok [0, 1])) Setup.sampleHandshake (fun _ => True) s ∧
      s.receive = .control .kill ∧ s.ctrl = [.stop] ∧
      (Finished s ∨ ∃ a s', a.isTask ∧ s.step (Setup.sample (.ok [0, 1])) a = .ok (some s')) := by
  have hrun : (replay (Setup.sample (.ok [0, 1])) (new Setup.sampleHandshake)
      [.server, .payload, .writer false, .server, .stop, .receive, .kill, .receive]).map
        (fun s => (s.receive, s.ctrl)) = some (.control .kill, [.stop]) := by decide
  obtain ⟨s, hs, hfacts⟩ := Option.map_eq_some_iff.mp hrun
  rw [Prod.mk.injEq] at hfacts
  have hreach : Reachable (Setup.sample (.ok [0, 1])) Setup.sampleHandshake (fun _ => True) s :=
    Reachable.new.replay (fun _ _ => trivial) hs
  exact ⟨s, hreach, hfacts.1, hfacts.2,
    reachable_finished_or_step (Setup.sound_sample _) (Setup.sample_handshake _) hreach⟩

/-- Every run of the tasks alone in which `generate` returns the responses
    `rs` ends, and ends with the router's stream over, holding every
    response in order: no such run goes on for ever, and a state it reaches
    where no task can move has the router holding them all. -/
theorem calm_run_delivers (hσ : σ.Sound) {hs : List UInt8}
    (hhs : σ.codecs.handshake.toVec ⟨σ.subject, .response⟩ = .ok hs) {rs : List U}
    (hrs : σ.outcome = .ok rs) :
    (¬ ∃ f : ℕ → CallHome U, f 0 = new hs ∧
        ∀ n, ∃ a, a.isTask ∧ (f n).step σ a = .ok (some (f (n + 1)))) ∧
      ∀ s, Reachable σ hs (fun a => a.isTask) s →
        (¬ ∃ a s', a.isTask ∧ s.step σ a = .ok (some s')) → s.router = .ended ∧ s.received = rs := by
  refine ⟨fun ⟨f, _, hf⟩ => not_forall_task_step f hf, fun s h hstuck => ?_⟩
  have hi := h.inv hσ hhs
  obtain ⟨hfctx, hnd⟩ := h.calm
  obtain ⟨rs', hrs', hended, hreceived⟩ :=
    hi.delivered ⟨hfctx, hnd, rs, hrs⟩ ((hi.finished_or_step hσ).resolve_right hstuck)
  rw [hrs, Except.ok.injEq] at hrs'
  exact ⟨hended, hreceived.trans hrs'.symm⟩

/-- The run in which `generate` returns `[0, 1]` and the tasks take turns
    until none can move: the router's stream has ended holding both. -/
theorem calm_run_delivers_both :
    ∃ s, Reachable (Setup.sample (.ok [0, 1])) Setup.sampleHandshake (fun a => a.isTask) s ∧
      (¬ ∃ a s', a.isTask ∧ s.step (Setup.sample (.ok [0, 1])) a = .ok (some s')) ∧
      s.router = .ended ∧ s.received = [0, 1] := by
  have hrun : (replay (Setup.sample (.ok [0, 1])) (new Setup.sampleHandshake)
      [.server, .payload, .writer false, .server, .routerAwait, .payload, .writer false, .payload,
        .writer false, .payload, .writer false, .receive, .receive, .receive, .routerRecv,
        .routerRecv, .routerRecv, .send, .server, .readerAlive]).map
        (fun s => (s.payload.isDone, s.writer, s.reader, s.server, s.router)) =
      some (true, .done, false, .done, .ended) := by decide
  obtain ⟨s, hs, hfacts⟩ := Option.map_eq_some_iff.mp hrun
  simp only [Prod.mk.injEq] at hfacts
  obtain ⟨hpay, hw, hreader, hserver, hended⟩ := hfacts
  have hreach : Reachable (Setup.sample (.ok [0, 1])) Setup.sampleHandshake (fun a => a.isTask) s :=
    Reachable.new.replay (by decide) hs
  have hstuck := (hreach.inv (Setup.sound_sample _) (Setup.sample_handshake _)).stuck_of_finished
    ⟨hpay, hw, hreader, hserver, Or.inl hended⟩
  exact ⟨s, hreach, hstuck,
    (calm_run_delivers (Setup.sound_sample _) (Setup.sample_handshake _) rfl).2 s hreach hstuck⟩

/-- Every run of the tasks alone in which `generate` fails with `e` ends, and
    ends with the router's `generate` returned with `ConnectionFailed` and
    the prologue's text for `e`: no such run goes on for ever, and a state it
    reaches where no task can move has that error. -/
theorem failed_run_reports (hσ : σ.Sound) {hs : List UInt8}
    (hhs : σ.codecs.handshake.toVec ⟨σ.subject, .response⟩ = .ok hs) {e : String}
    (he : σ.outcome = .error e) :
    (¬ ∃ f : ℕ → CallHome U, f 0 = new hs ∧
        ∀ n, ∃ a, a.isTask ∧ (f n).step σ a = .ok (some (f (n + 1)))) ∧
      ∀ s, Reachable σ hs (fun a => a.isTask) s →
        (¬ ∃ a s', a.isTask ∧ s.step σ a = .ok (some s')) →
          s.router = .failed (.connectionFailed ("Generate Error: " ++ e)) := by
  refine ⟨fun ⟨f, _, hf⟩ => not_forall_task_step f hf, fun s h hstuck => ?_⟩
  have hi := h.inv hσ hhs
  exact hi.reportsFailure he h.calm.2 ((hi.finished_or_step hσ).resolve_right hstuck)

/-- The run in which `generate` fails with `boom` and the tasks take turns
    until none can move: the router has the worker's error. -/
theorem failed_run_reports_boom :
    ∃ s, Reachable (Setup.sample (.error "boom")) Setup.sampleHandshake (fun a => a.isTask) s ∧
      (¬ ∃ a s', a.isTask ∧ s.step (Setup.sample (.error "boom")) a = .ok (some s')) ∧
      s.router = .failed (.connectionFailed "Generate Error: boom") := by
  have hrun : (replay (Setup.sample (.error "boom")) (new Setup.sampleHandshake)
      [.server, .payload, .writer false, .writer false, .server, .routerAwait, .readerAlive]).map
        (fun s => (s.payload.isDone, s.writer, s.reader, s.server, s.router)) =
      some (true, .done, false, .done, .failed (.connectionFailed "Generate Error: boom")) := by
    decide
  obtain ⟨s, hs, hfacts⟩ := Option.map_eq_some_iff.mp hrun
  simp only [Prod.mk.injEq] at hfacts
  obtain ⟨hpay, hw, hreader, hserver, hfailed⟩ := hfacts
  have hreach : Reachable (Setup.sample (.error "boom")) Setup.sampleHandshake (fun a => a.isTask) s :=
    Reachable.new.replay (by decide) hs
  have hstuck := (hreach.inv (Setup.sound_sample _) (Setup.sample_handshake _)).stuck_of_finished
    ⟨hpay, hw, hreader, hserver, Or.inr (Or.inl ⟨_, hfailed⟩)⟩
  exact ⟨s, hreach, hstuck,
    (failed_run_reports (Setup.sound_sample _) (Setup.sample_handshake _) rfl).2 s hreach hstuck⟩

end CallHome

end Pipeline

end Dynamo
