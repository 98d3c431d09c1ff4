import Mathlib.Tactic.DeriveEncodable
import Dynamo.Lib.Abort
import Dynamo.Lib.Serde
import Dynamo.Pipeline.TwoPart
import Dynamo.Pipeline.Context

/-!
# The Response Stream of a Request

How the responses of one request travel back, in `lib/runtime/src/pipeline`.
The router's `AddressedPushRouter::generate` registers a subject with the
frontend's `TcpStreamServer` and sends the request over NATS. The worker's
`Ingress::handle_payload` calls home: `TcpClient::create_response_steam`
connects to the server, writes the `CallHomeHandshake` naming the subject,
and spawns `handle_writer`, which copies what the worker sends onto the
socket, and `handle_reader`, which turns the server's control messages into
calls on the worker's context. `handle_payload` then calls the engine's
`generate`, sends the `ResponseStreamPrologue`, and sends each response of
the stream it got. On the server, `process_stream` reads the handshake and
the prologue, hands the router a channel, and spawns
`network_receive_handler`, which forwards the responses into that channel
and turns the frontend's stop and kill into control messages, and
`network_send_handler`, which writes those on the socket.

`CallHome` is the whole of it once the handshake is on the socket: the seven
tasks (the worker's three, the server's three and the router) and whoever
stops or kills the frontend's context, the two directions of the socket as
queues of
`TwoPartMessage`s, and the channels between the tasks. Every task runs in
its own interleaving, and each pass of a task's loop is one step, an
`Action`; `CallHome.step` says what it does, or that the task cannot move
yet. The socket carries messages in order, which is what the two-part
codec's round trip says of the framed bytes; the channels carry them in
order and hold at most their bounds, 64 messages on the worker's bytes
channel and the router's response channel and one on the control channel: a
send to a full channel waits, `handle_payload` where it is and
`network_receive_handler` in a place of its own until the message goes on
(or, for a body, until the router has gone).

Three things are parameters (`Setup`): the serde_json codecs of the four
types on the wire, the subject the router registered, and what the engine's
`generate` returns, the list of its responses or its error's text.

The `select!` loops recreate their context futures on every pass. A pass
that finds nothing ready blocks with futures that wait for the next send on
the context's channel, which is what `Waiter` models; `made` is
the version they were made at, or `none` at the start of a pass.

The server never reads the end of the worker's stream: the worker's socket
is only closed once the server has closed its own, so the `None` branches of
the server's reads are left out. Writes of the worker to a server that has
gone may fail, which `Action.writer` chooses.

## Main definitions

* `ControlMessage`, `CallHomeHandshake`, `ResponseStreamPrologue`: What goes
  in the headers.
* `Setup`: The codecs, the subject and the engine's outcome.
* `CallHome`: The tasks, the socket and the channels.
* `bytesCapacity`, `responseCapacity`, `controlCapacity`: The channels'
  bounds.
* `CallHome.new`: The state `create_response_steam` leaves.
* `CallHome.handlePayload`, `CallHome.handleWriter`,
  `CallHome.readerMessage`, `CallHome.processStream`,
  `CallHome.networkReceiveHandler`, `CallHome.networkSendHandler`: One step
  of each task.
* `CallHome.Action`, `CallHome.step`, `CallHome.Reachable`: Runs of steps.
* `CallHome.replay`: The state a list of actions leads to.
-/

namespace Dynamo

namespace Pipeline

/-- `StreamType`. -/
inductive StreamType where
  | request
  | response
  deriving DecidableEq, Repr, Encodable

/-- `ControlMessage`. -/
inductive ControlMessage where
  | stop
  | kill
  | sentinel
  deriving DecidableEq, Repr, Encodable

/-- `CallHomeHandshake`: the first message on a socket. -/
structure CallHomeHandshake where
  subject : String
  streamType : StreamType
  deriving DecidableEq, Repr, Encodable

/-- `ResponseStreamPrologue`: the second, which says whether `generate`
    failed. -/
structure ResponseStreamPrologue where
  error : Option String
  deriving DecidableEq, Repr, Encodable

/-- The two `PipelineError`s the router's `generate` returns once its
    request is out: the server dropped the stream's sender, or sent an
    error. -/
inductive PipelineError where
  | detatchedStreamReceiver
  | connectionFailed (msg : String)
  deriving DecidableEq, Repr

/-- The serde_json codecs of the types on the wire; `U` is the response. -/
structure Codecs (U : Type) where
  ctrl : Json ControlMessage
  handshake : Json CallHomeHandshake
  prologue : Json ResponseStreamPrologue
  resp : Json U

/-- What the code is run with: the codecs, the subject the router
    registered, and the engine's outcome, its responses or its error's
    text. -/
structure Setup (U : Type) where
  codecs : Codecs U
  subject : String
  outcome : Except String (List U)

/-- Where `handle_payload` is: about to call `generate`, sending the
    responses of the stream it returned, or returned. -/
inductive PayloadPc (U : Type) where
  | generate
  | stream (responses : List U)
  | done

/-- `handle_payload` has returned. -/
def PayloadPc.isDone {U : Type} : PayloadPc U → Bool
  | .done => true
  | _ => false

/-- Where `handle_writer` is: in its loop, with the futures of a blocked
    pass made at a version, or returned. -/
inductive WriterPc where
  | select (made : Option Nat)
  | done
  deriving DecidableEq, Repr

/-- Where `process_stream` is: awaiting the handshake, awaiting the
    prologue, joining its two tasks, or returned. -/
inductive ServerPc where
  | handshake
  | prologue
  | serve
  | done
  deriving DecidableEq, Repr

/-- Where `network_receive_handler` is: not spawned, in its loop with its
    `can_stop` flag and the version of a blocked pass's futures, waiting to
    forward a body to the router, waiting to send a control message, or
    returned. -/
inductive ReceivePc where
  | idle
  | select (canStop : Bool) (made : Option Nat)
  | forward (canStop : Bool) (data : List UInt8)
  | control (msg : ControlMessage)
  | done
  deriving DecidableEq, Repr

/-- Where the receive loop goes once a control message is sent: a stop lets
    it go on with `can_stop` cleared, a kill ends it. -/
def ReceivePc.afterControl : ControlMessage → ReceivePc
  | .stop => .select false none
  | _ => .done

/-- Where `network_send_handler` is. -/
inductive SendPc where
  | idle
  | run
  | done
  deriving DecidableEq, Repr

/-- Where the router's `generate` is: awaiting the stream provider, holding
    the response stream, at its end, returned with an error, or dropped by
    its caller. -/
inductive RouterPc where
  | await
  | stream
  | ended
  | failed (err : PipelineError)
  | dropped
  deriving DecidableEq, Repr

/-- The response stream of one request, once the handshake is written.

    The worker: `payload` and `sent`, where `handle_payload` is and how many
    responses it has sent; `bytes`, its channel to the writer; `writer` and
    `reader`, its two socket tasks; `wctx`, the request's context there.
    The socket: `up` from the worker, `down` from the server. The server:
    `server`, `registered` (the subject is in `rx_subjects`), `receive`,
    `send`, and their channels `ctrl` and `resp`. The router: `provider`,
    what the server sent on the oneshot; `router`; `received`, the responses
    its stream has yielded; `fctx`, its context. -/
structure CallHome (U : Type) where
  payload : PayloadPc U
  sent : Nat
  bytes : List TwoPartMessage
  writer : WriterPc
  reader : Bool
  wctx : Controller
  up : List TwoPartMessage
  down : List TwoPartMessage
  server : ServerPc
  registered : Bool
  receive : ReceivePc
  send : SendPc
  ctrl : List ControlMessage
  resp : List (List UInt8)
  provider : Option (Except String Unit)
  router : RouterPc
  received : List U
  fctx : Controller

/-- The bound of `bytes_tx`, the worker's channel to `handle_writer`:
    `mpsc::channel(64)` in `create_response_steam`. -/
def bytesCapacity : Nat := 64

/-- The bound of `response_tx`, the router's channel: `mpsc::channel(64)` in
    `process_stream`. -/
def responseCapacity : Nat := 64

/-- The bound of `control_tx`: `mpsc::channel::<ControlMessage>(1)`. -/
def controlCapacity : Nat := 1

namespace CallHome

variable {U : Type}

/-- The state `create_response_steam` leaves: the handshake `hs` on the
    socket, both socket tasks spawned, the subject registered and every
    context live. -/
def new (hs : List UInt8) : CallHome U :=
  { payload := .generate, sent := 0, bytes := [], writer := .select none, reader := true,
    wctx := Controller.new, up := [.fromHeader hs], down := [], server := .handshake,
    registered := true, receive := .idle, send := .idle, ctrl := [], resp := [], provider := none,
    router := .await, received := [], fctx := Controller.new }

/-- The future a pass of a `select!` polls: made from the controller at the
    start of the pass, or, in a blocked pass, the one made at version `v`,
    which waits for the next send. -/
def passFuture (made : Option Nat) (c : Controller) (make : Controller → Waiter) : Waiter :=
  match made with
  | none => make c
  | some v => .waiting v

section Steps

variable (σ : Setup U) (s : CallHome U)

/-- `StreamSender::send_prologue`: the prologue goes on the bytes channel,
    unless it does not serialize (`Invalid prologue`) or the writer has
    returned; `handle_payload` ignores both errors. `none` while the channel
    is full. -/
def sendPrologue (error : Option String) : Option (CallHome U) :=
  match σ.codecs.prologue.toVec ⟨error⟩ with
  | .ok header =>
    if s.writer = .done then some s
    else if s.bytes.length < bytesCapacity then some { s with bytes := s.bytes ++ [.fromHeader header] }
    else none
  | .error _ => some s

/-- One step of `handle_payload`: `generate` and the prologue, then one
    response of the stream at a time. A response that cannot be sent, the
    writer having returned, stops the context and ends the loop; one that
    finds the channel full waits. -/
def handlePayload : Except Abort (Option (CallHome U)) :=
  match s.payload with
  | .generate =>
    match σ.outcome with
    | .ok responses => .ok ((sendPrologue σ s none).map fun s' => { s' with payload := .stream responses })
    | .error e =>
      -- the prologue carries `PipelineError::GenerateError(e).to_string()`
      .ok ((sendPrologue σ s (some ("Generate Error: " ++ e))).map fun s' => { s' with payload := .done })
  | .stream responses =>
    match responses[s.sent]? with
    | none => .ok (some { s with payload := .done })
    | some resp =>
      match σ.codecs.resp.toVec resp with
      | .error _ => .error (.panic "fatal error: invalid response object - this should never happen")
      | .ok data =>
        if s.writer = .done then .ok (some { s with wctx := s.wctx.stopGenerating, payload := .done })
        else if s.bytes.length < bytesCapacity then
          .ok (some { s with bytes := s.bytes ++ [.fromData data], sent := s.sent + 1 })
        else .ok none
  | .done => .ok none

/-- The end of `handle_writer`: the bytes channel is dropped with what it
    holds, and the sentinel is written unless the write fails. -/
def writerExit (fails : Bool) : Except Abort (Option (CallHome U)) :=
  let s' := { s with bytes := [], writer := .done }
  match σ.codecs.ctrl.toVec .sentinel with
  | .ok header =>
    if s.server = .done && fails then .ok (some s')
    else .ok (some { s' with up := s'.up ++ [.fromHeader header] })
  | .error _ => .ok (some s')

/-- One pass of `handle_writer`'s biased `select!`: the context's `killed()`
    first, then the bytes channel. A write fails only when `fails` and the
    server has gone. -/
def handleWriter (fails : Bool) : Except Abort (Option (CallHome U)) :=
  match s.writer with
  | .done => .ok none
  | .select made =>
    if (passFuture made s.wctx Controller.killed).isReady s.wctx then writerExit σ s fails
    else
      match s.bytes with
      | msg :: rest =>
        if s.server = .done && fails then writerExit σ { s with bytes := rest } fails
        else .ok (some { s with bytes := rest, up := s.up ++ [msg], writer := .select none })
      | [] =>
        -- the channel is closed once `handle_payload` has dropped its sender
        if s.payload.isDone then writerExit σ s fails
        else
          match made with
          | none => .ok (some { s with writer := .select (some s.wctx.version) })
          | some _ => .ok none

/-- `handle_reader` on a message from the server: a control message stops or
    kills the context; a sentinel, an unreadable header or a body is
    fatal. -/
def readerMessage (msg : TwoPartMessage) : Except Abort (CallHome U) :=
  match msg.header?, msg.data? with
  | some header, none =>
    match σ.codecs.ctrl.fromSlice header with
    | .ok .stop => .ok { s with wctx := s.wctx.stop }
    | .ok .kill => .ok { s with wctx := s.wctx.kill }
    | .ok .sentinel => .error (.panic "received a sentinel message; this should never happen")
    | .error _ => .error (.panic "fatal error - invalid control message detected")
  | _, _ => .error (.panic "received a non-control message; this should never happen")

/-- `process_stream` returns: its socket and, if not yet used, the stream
    provider's sender are dropped. -/
def serverDone : CallHome U := { s with server := .done }

/-- A good prologue: the router gets its channel, and the receive and send
    tasks are spawned. -/
def serverServe : CallHome U :=
  { s with provider := some (.ok ()), server := .serve, receive := .select true none, send := .run }

/-- One step of `process_stream`: the handshake, which must name the
    registered subject and a response stream, then the prologue, which must
    be header-only; a good prologue hands the router its channel and spawns
    the two tasks, which the last step joins. -/
def processStream : Except Abort (Option (CallHome U)) :=
  match s.server with
  | .handshake =>
    match s.up with
    | [] => .ok none
    | msg :: rest =>
      let s' := { s with up := rest }
      match msg.header? with
      | none => .ok (some (serverDone s'))
      | some header =>
        match σ.codecs.handshake.fromSlice header with
        | .error _ => .ok (some (serverDone s'))
        | .ok handshake =>
          match handshake.streamType with
          | .request => .ok (some (serverDone s'))
          | .response =>
            -- `rx_subjects.remove(&subject)`
            if s.registered && handshake.subject == σ.subject then
              .ok (some { s' with registered := false, server := .prologue })
            else .ok (some (serverDone s'))
  | .prologue =>
    match s.up with
    | [] => .ok none
    | msg :: rest =>
      let s' := { s with up := rest }
      match msg.intoMessageType with
      | .headerOnly header =>
        match σ.codecs.prologue.fromSlice header with
        | .error _ => .ok (some (serverDone s'))
        | .ok prologue =>
          match prologue.error with
          | some error => .ok (some (serverDone { s' with provider := some (.error error) }))
          | none =>
            -- the send fails when the router has dropped the provider
            if s.router = .dropped then .ok (some (serverDone s'))
            else .ok (some (serverServe s'))
      | _ => .error (.panic "Expected HeaderOnly ControlMessage; internally logic error")
  | .serve =>
    if s.receive = .done && s.send = .done then .ok (some (serverDone s)) else .ok none
  | .done => .ok none

/-- `control_tx.send(msg).await.expect(..)` in `network_receive_handler`:
    the channel's only receiver is the send task. The message goes on when
    the channel has room, and the loop then ends or goes on
    (`afterControl`); otherwise the send waits, in `waiting`. -/
def sendControl (msg : ControlMessage) (waiting : Option (CallHome U)) : Except Abort (Option (CallHome U)) :=
  if s.send = .done then .error (.panic "the control channel should not be closed")
  else if s.ctrl.length < controlCapacity then
    .ok (some { s with ctrl := s.ctrl ++ [msg], receive := ReceivePc.afterControl msg })
  else .ok waiting

/-- A branch of the receive loop sends a control message, at once or by
    waiting in `.control`. -/
def receiveControl (msg : ControlMessage) : Except Abort (Option (CallHome U)) :=
  sendControl s msg (some { s with receive := .control msg })

/-- `response_tx.send(data).await`: it fails once the router has dropped
    its receiver, and the task then sends a kill and ends its loop; the body
    goes on when the channel has room; otherwise the send waits, in
    `waiting`. -/
def forwardData (canStop : Bool) (data : List UInt8) (waiting : Option (CallHome U)) :
    Except Abort (Option (CallHome U)) :=
  if s.router = .dropped then receiveControl s .kill
  else if s.resp.length < responseCapacity then
    .ok (some { s with resp := s.resp ++ [data], receive := .select canStop none })
  else .ok waiting

/-- One step of `network_receive_handler`. A pass of its biased `select!`
    takes the router gone, then the context killed, then stopped (once),
    then the socket. A header must be the sentinel, which ends the loop; a
    body is forwarded to the router. A send that waits takes the next
    steps. -/
def networkReceiveHandler : Except Abort (Option (CallHome U)) :=
  match s.receive with
  | .idle => .ok none
  | .done => .ok none
  | .forward canStop data => forwardData s canStop data none
  | .control msg => sendControl s msg none
  | .select canStop made =>
    if s.router = .dropped then receiveControl s .kill
    else if (passFuture made s.fctx Controller.killed).isReady s.fctx then
      receiveControl s .kill
    else if canStop && (passFuture made s.fctx Controller.stopped).isReady s.fctx then
      receiveControl s .stop
    else
      match s.up with
      | msg :: rest =>
        let s' := { s with up := rest }
        if msg.header ≠ [] then
          -- `process_control_message`
          match σ.codecs.ctrl.fromSlice msg.header with
          | .ok .sentinel =>
            if msg.data = [] then .ok (some { s' with receive := .done })
            else .error (.panic "received sentinel message with data; this should never happen")
          | .ok _ =>
            .error (.panic "fatal error - unexpected control message received - this should never happen")
          | .error e => .error (.panic e)
        else if msg.data ≠ [] then
          forwardData s' canStop msg.data (some { s' with receive := .forward canStop msg.data })
        else .ok (some { s' with receive := .select canStop none })
      | [] =>
        match made with
        | none => .ok (some { s with receive := .select canStop (some s.fctx.version) })
        | some _ => .ok none

/-- One pass of `network_send_handler`: a control message, never the
    sentinel, is written on the socket; once the receive task has dropped
    its sender the write half is shut down. -/
def networkSendHandler : Except Abort (Option (CallHome U)) :=
  match s.send with
  | .idle => .ok none
  | .done => .ok none
  | .run =>
    match s.ctrl with
    | msg :: rest =>
      if msg = .sentinel then .error (.panic "received sentinel message; this should never happen")
      else
        match σ.codecs.ctrl.toVec msg with
        | .ok header => .ok (some { s with ctrl := rest, down := s.down ++ [.fromHeader header] })
        | .error _ => .error (.panic "failed to serialize control message")
    | [] => if s.receive = .done then .ok (some { s with send := .done }) else .ok none

/-- The router's await of the stream provider: the channel, the error the
    server sent, or the sender dropped. -/
def routerAwait : Option (CallHome U) :=
  match s.router with
  | .await =>
    match s.provider with
    | some (.ok ()) => some { s with router := .stream }
    | some (.error e) => some { s with router := .failed (.connectionFailed e) }
    | none => if s.server = .done then some { s with router := .failed .detatchedStreamReceiver } else none
  | _ => none

/-- The router's stream yields the next response that parses, and ends once
    the receive task has dropped its sender. -/
def routerRecv : Option (CallHome U) :=
  match s.router with
  | .stream =>
    match s.resp with
    | data :: rest =>
      match σ.codecs.resp.fromSlice data with
      | .ok r => some { s with resp := rest, received := s.received ++ [r] }
      | .error _ => some { s with resp := rest }
    | [] => if s.receive = .done then some { s with router := .ended } else none
  | _ => none

/-- The router's caller drops it, and the channel's receiver with it. -/
def routerDrop : Option (CallHome U) :=
  match s.router with
  | .await => some { s with router := .dropped, resp := [] }
  | .stream => some { s with router := .dropped, resp := [] }
  | _ => none

end Steps

/-- What can happen next: a step of one of the tasks (the writer's write
    failing or not), or a stop or kill of the frontend's context from any
    task that holds it. -/
inductive Action where
  | payload
  | writer (fails : Bool)
  | readerRecv
  | readerEof
  | readerAlive
  | server
  | receive
  | send
  | routerAwait
  | routerRecv
  | routerDrop
  | stop
  | kill
  deriving DecidableEq, Repr

/-- One action: `.ok none` when it cannot happen yet. `handle_reader`'s
    `select!` is unbiased: a message, the end of the server's stream, and
    the writer's return are three branches. -/
def step (σ : Setup U) (s : CallHome U) : Action → Except Abort (Option (CallHome U))
  | .payload => handlePayload σ s
  | .writer fails => handleWriter σ s fails
  | .readerRecv =>
    match s.reader, s.down with
    | true, msg :: rest => (readerMessage σ { s with down := rest } msg).map some
    | _, _ => .ok none
  | .readerEof =>
    .ok (if s.reader && s.down.isEmpty && (s.send = .done || s.server = .done) then
      some { s with reader := false } else none)
  | .readerAlive => .ok (if s.reader && s.writer = .done then some { s with reader := false } else none)
  | .server => processStream σ s
  | .receive => networkReceiveHandler σ s
  | .send => networkSendHandler σ s
  | .routerAwait => .ok (routerAwait s)
  | .routerRecv => .ok (routerRecv σ s)
  | .routerDrop => .ok (routerDrop s)
  | .stop => .ok (some { s with fctx := s.fctx.stopGenerating })
  | .kill => .ok (some { s with fctx := s.fctx.kill })

/-- The states a run from `new hs` reaches with actions that `allowed`
    admits. -/
inductive Reachable (σ : Setup U) (hs : List UInt8) (allowed : Action → Prop) :
    CallHome U → Prop
  | new : Reachable σ hs allowed (new hs)
  | step {s s' : CallHome U} (a : Action) : Reachable σ hs allowed s → allowed a →
      s.step σ a = .ok (some s') → Reachable σ hs allowed s'

/-- The state a list of actions leads to, each of which must move. -/
def replay (σ : Setup U) : CallHome U → List Action → Option (CallHome U)
  | s, [] => some s
  | s, a :: actions =>
    match s.step σ a with
    | .ok (some s') => replay σ s' actions
    | _ => none

/-- A replayed list of actions that the run admits extends it. -/
theorem Reachable.replay {σ : Setup U} {hs : List UInt8} {allowed : Action → Prop}
    {s s' : CallHome U} {actions : List Action} (h : Reachable σ hs allowed s)
    (hall : ∀ a ∈ actions, allowed a) (hr : replay σ s actions = some s') :
    Reachable σ hs allowed s' := by
  induction actions generalizing s with
  | nil =>
    cases hr
    exact h
  | cons a actions ih =>
    unfold CallHome.replay at hr
    split at hr
    · rename_i s₁ hstep
      exact ih (.step a h (hall a List.mem_cons_self) hstep)
        (fun b hb => hall b (List.mem_cons_of_mem _ hb)) hr
    · cases hr

end CallHome

end Pipeline

end Dynamo
