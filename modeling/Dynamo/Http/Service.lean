import Mathlib.Logic.Function.Basic
import Dynamo.Http.ModelWatcher
import Dynamo.Protocols.Aggregator

/-!
# Request Accounting of the HTTP Service

The OpenAI handlers of `http/service/openai.rs`, `chat_completions` and
`completions`, with the metrics of `http/service/metrics.rs` they keep. Both
handlers look the model up in their map of engines, open an `InflightGuard`,
which raises the model's inflight gauge and starts with the status `Error`,
and call the engine. A unary request folds the engine's stream into one
response and marks the guard a success if the fold succeeds. A streaming
request hands the guard to the task of `monitor_for_disconnects`, which sends
each item of the stream to the client as an SSE event, sends `[DONE]` last,
and marks the guard a success if the client took it. However the request
ends, the guard is dropped once, and its `Drop` lowers the gauge and counts
the request under its status.

So the gauge comes back to where it was and the counter of the request's
labels moves by one (`serve_metrics`). Which status is counted differs
between the two paths. A unary request succeeds exactly when the fold does,
and the fold fails on any error annotation (`serve_unary_status`). A
streaming request succeeds exactly when the client takes every event and
`[DONE]`, and no item panics the task (`serve_stream_status`); error
annotations do not count. The conversion `TryFrom<EventConverter<T>> for
Event` turns an error annotation into an `Err`, which its documentation says
the forwarding task reports and then stops generation on. The task sends it
as an SSE `error` event and goes on with the next item; only a failed send
stops generation (`chatCompletions_forwards_error_annotations`).

axum's `Event::event` and `Event::comment` assert that their value has no
line break. The conversion runs inside the task, as the task polls the mapped
stream, and so does the making of the `error` event: an event name, a
comment or an error message with a line break panics the task. The channel
then closes without `[DONE]`, and the guard is dropped with the status it
had.

The client is modelled by its side of the channel: it takes some number of
events and drops its receiver, after which every send fails, or it reads to
the end. The engine is a parameter: the stream it yields, or the error its
`generate` fails with. So is serialising a chunk to JSON, which may fail; that
failure becomes an SSE error event as well.

## Main definitions

* `Metrics`: The request counter and the inflight gauge.
* `InflightGuard`: The guard of one request, with `new`, `markOk` and `drop`.
* `LineFree`: A text axum writes into an SSE field without panicking.
* `Event`, `Event.tryFromEventConverter`: SSE events, and the conversion of
  an annotated item.
* `forwardItem`, `forward`, `monitorForDisconnects`: The forwarding task.
* `serve`: The handlers' shared body; `chatCompletions` and `completions` are
  its two instances.

## Theorems

* `decInflightGauge_incInflightGauge`: Raising and lowering the gauge cancel.
* `forward_none`, `forward_some`: What the forwarding loop sends, to a client
  that reads to the end and to one that leaves, up to the first panic.
* `forwardItem_of_fieldsLineFree`: An item without line breaks is made
  without a panic.
* `serve_metrics`: A request that resolves to an engine is counted once and
  leaves the gauge as it was.
* `serve_unary_status`, `serve_stream_status`: The status it is counted under.
* `chatCompletions_forwards_error_annotations`: A streaming chat request read
  to the end, without line breaks in its items, is a success, stops nothing
  and forwards every item, error annotations included.
-/

namespace Dynamo

namespace Http

open Protocols

/-! ### Metrics -/

/-- `Endpoint`. -/
inductive Endpoint where
  | completions
  | chatCompletions
  deriving DecidableEq, Repr

/-- `RequestType`. -/
inductive RequestType where
  | unary
  | stream
  deriving DecidableEq, Repr

/-- `Status`. -/
inductive Status where
  | success
  | error
  deriving DecidableEq, Repr

/-- `Metrics`: the request counter, by model, endpoint, request type and
    status, and the inflight gauge, by model. -/
structure Metrics where
  requestCounter : String × Endpoint × RequestType × Status → Nat
  inflightGauge : String → Int

namespace Metrics

/-- `inc_request_counter`. -/
def incRequestCounter (self : Metrics) (model : String) (endpoint : Endpoint)
    (requestType : RequestType) (status : Status) : Metrics :=
  let labels := (model, endpoint, requestType, status)
  { self with
    requestCounter := Function.update self.requestCounter labels (self.requestCounter labels + 1) }

/-- The gauge of one model moved by `delta`. -/
def addInflightGauge (self : Metrics) (model : String) (delta : Int) : Metrics :=
  { self with
    inflightGauge := Function.update self.inflightGauge model (self.inflightGauge model + delta) }

/-- `inc_inflight_gauge`. -/
def incInflightGauge (self : Metrics) (model : String) : Metrics :=
  self.addInflightGauge model 1

/-- `dec_inflight_gauge`. -/
def decInflightGauge (self : Metrics) (model : String) : Metrics :=
  self.addInflightGauge model (-1)

end Metrics

/-- `InflightGuard`, without the `Arc<Metrics>` it shares (the metrics are
    passed along) and its timer. -/
structure InflightGuard where
  model : String
  endpoint : Endpoint
  requestType : RequestType
  status : Status
  deriving DecidableEq, Repr

namespace InflightGuard

/-- `InflightGuard::new`: the gauge goes up, and the status starts as
    `Error`. -/
def new (metrics : Metrics) (model : String) (endpoint : Endpoint) (requestType : RequestType) :
    InflightGuard × Metrics :=
  (⟨model, endpoint, requestType, .error⟩, metrics.incInflightGauge model)

/-- `mark_ok`. -/
def markOk (self : InflightGuard) : InflightGuard :=
  { self with status := .success }

/-- `Drop`: the gauge goes down and the request is counted under its status. -/
def drop (self : InflightGuard) (metrics : Metrics) : Metrics :=
  (metrics.decInflightGauge self.model).incRequestCounter self.model self.endpoint
    self.requestType self.status

end InflightGuard

/-- `DeploymentState::create_inflight_guard`. -/
def createInflightGuard (metrics : Metrics) (model : String) (endpoint : Endpoint)
    (streaming : Bool) : InflightGuard × Metrics :=
  let requestType := if streaming then RequestType.stream else RequestType.unary
  InflightGuard.new metrics model endpoint requestType

/-! ### Events and the forwarding task -/

/-- Whether a text can be the value of an SSE field: it has no carriage
    return and no line feed. -/
def LineFree (text : String) : Prop :=
  '\r' ∉ text.toList ∧ '\n' ∉ text.toList

instance : DecidablePred LineFree :=
  fun _ => inferInstanceAs (Decidable (_ ∧ _))

theorem LineFree.append {a b : String} (ha : LineFree a) (hb : LineFree b) : LineFree (a ++ b) := by
  simp only [LineFree, String.toList_append, List.mem_append, not_or] at ha hb ⊢
  exact ⟨⟨ha.1, hb.1⟩, ha.2, hb.2⟩

/-- Texts without line breaks, joined by a separator without one. -/
theorem LineFree.intercalate {sep : String} (hsep : LineFree sep) :
    ∀ {texts : List String}, (∀ t ∈ texts, LineFree t) → LineFree (sep.intercalate texts)
  | [], _ => by
      rw [String.intercalate_nil]
      decide
  | [t], h => by
      rw [String.intercalate_singleton]
      exact h t List.mem_cons_self
  | t :: u :: texts, h => by
      rw [String.intercalate_cons_cons]
      exact ((h t List.mem_cons_self).append hsep).append
        (LineFree.intercalate hsep fun x hx => h x (List.mem_cons_of_mem _ hx))

/-- An SSE event as the handlers build it: its data line, its event name, and
    its comments in the order they were added. -/
structure Event where
  dataLine : Option String
  eventName : Option String
  comments : List String
  deriving DecidableEq, Repr

namespace Event

/-- `Event::default`. -/
def default : Event :=
  ⟨none, none, []⟩

/-- `Event::data`, which writes a text with line breaks as several data
    lines. -/
def data (self : Event) (data : String) : Event :=
  { self with dataLine := some data }

/-- `Event::json_data`: the data serialised, or the serialiser's error. -/
def jsonData {R : Type} (json : R → Except String String) (self : Event) (data : R) :
    Except String Event :=
  (json data).map self.data

/-- The panic of the `assert_eq!` in axum's `Event::field`, through which
    `event` and `comment` write their value. -/
def fieldPanic : Abort :=
  .panic "assertion `left == right` failed: SSE field value cannot contain newlines or carriage returns"

/-- `Event::field`'s check of a value: `memchr2(b'\r', b'\n', value)` must
    find nothing. -/
def field (value : String) : Except Abort Unit :=
  if LineFree value then .ok () else .error fieldPanic

/-- `Event::event`. -/
def event (self : Event) (event : String) : Except Abort Event := do
  field event
  pure { self with eventName := some event }

/-- `Event::comment`. -/
def comment (self : Event) (comment : String) : Except Abort Event := do
  field comment
  pure { self with comments := self.comments ++ [comment] }

/-- The event of an item's data: the data as JSON, or no data line. -/
def dataEvent {R : Type} (json : R → Except String String) : Option R → Except String Event
  | some data => Event.default.jsonData json data
  | none => .ok Event.default

/-- The loop that writes an item's comments, one `comment` each. -/
def withComments (comment : Option (List String)) (event : Event) :
    Except Abort (Except String Event) :=
  match comment with
  | some comments => Except.ok <$> comments.foldlM Event.comment event
  | none => .ok (.ok event)

/-- `TryFrom<EventConverter<T>> for Event`: the data as JSON, then the event's
    name, where an `error` event becomes an error carrying the comments, then
    the comments. Writing the name or a comment may panic. -/
def tryFromEventConverter {R : Type} (json : R → Except String String) (annotated : Annotated R) :
    Except Abort (Except String Event) :=
  match dataEvent json annotated.data with
  | .error e => .ok (.error e)
  | .ok event =>
      match annotated.event with
      | some msg =>
          if msg = "error" then
            .ok (.error (" -- ".intercalate (annotated.comment.getD ["unspecified error"])))
          else event.event msg >>= withComments annotated.comment
      | none => withComments annotated.comment event

end Event

/-- The SSE event `monitor_for_disconnects` sends for an item the conversion
    refused. -/
def errorEvent (err : String) : Except Abort Event :=
  Event.default.event "error" >>= fun event => event.comment err

/-- The event `monitor_for_disconnects` sends last. -/
def doneEvent : Event :=
  Event.default.data "[DONE]"

/-- What one converted item becomes on the wire. -/
def forwardedEvent : Except String Event → Except Abort Event
  | .ok event => .ok event
  | .error err => errorEvent err

/-- What the forwarding task makes of an item of the engine's stream: the
    conversion the mapped stream yields when polled, then the event it
    sends, or the panic of making either. -/
def forwardItem {R : Type} (json : R → Except String String) (annotated : Annotated R) :
    Except Abort Event :=
  Event.tryFromEventConverter json annotated >>= forwardedEvent

/-- The events made before the first panic, and that panic. -/
def eventsUntilPanic : List (Except Abort Event) → List Event × Option Abort
  | [] => ([], none)
  | .error abort :: _ => ([], some abort)
  | .ok event :: rest => (event :: (eventsUntilPanic rest).1, (eventsUntilPanic rest).2)

/-- Whether a send on the channel succeeds, after `sent` sends: the client
    takes `n` events and then drops its receiver, or (`none`) reads to the
    end. -/
def acceptsSend (client : Option Nat) (sent : Nat) : Bool :=
  match client with
  | none => true
  | some n => sent < n

/-- The loop of the forwarding task, from the events sent so far. Each item
    is made and sent: a panic while making one ends the task, and the first
    send that fails calls `stop_generating` and ends the loop. The result is
    the events sent, whether generation was stopped, and the panic, if any. -/
def forward (client : Option Nat) :
    List (Except Abort Event) → List Event → List Event × Bool × Option Abort
  | [], sent => (sent, false, none)
  | .error abort :: _, sent => (sent, false, some abort)
  | .ok event :: rest, sent =>
      if acceptsSend client sent.length then forward client rest (sent ++ [event])
      else (sent, true, none)

/-- `monitor_for_disconnects`: after the loop the task sends `[DONE]`, and
    marks the guard a success if that send succeeds; then the task ends and
    drops the guard. A panic unwinds the task instead: the channel closes
    without `[DONE]` and the guard is dropped as it is. The result is the
    events the client took, whether generation was stopped, the panic, and
    the guard as the task drops it. -/
def monitorForDisconnects (client : Option Nat) (stream : List (Except Abort Event))
    (inflight : InflightGuard) : List Event × Bool × Option Abort × InflightGuard :=
  match forward client stream [] with
  | (sent, stopped, some abort) => (sent, stopped, some abort, inflight)
  | (sent, stopped, none) =>
      if acceptsSend client sent.length then (sent ++ [doneEvent], stopped, none, inflight.markOk)
      else (sent, stopped, none, inflight)

/-! ### The handlers -/

/-- What an engine's `generate` fails with: an `HttpError`, or any other
    error. -/
inductive EngineError where
  | http (code : Nat) (message : String)
  | other (message : String)
  deriving DecidableEq, Repr

/-- `(StatusCode, Json<ErrorResponse>)`, the handlers' error reply. -/
structure ErrorResponse where
  code : Nat
  error : String
  deriving DecidableEq, Repr

namespace ErrorResponse

/-- `ErrorResponse::model_not_found`. -/
def modelNotFound : ErrorResponse :=
  ⟨404, "Model not found"⟩

/-- `ErrorResponse::internal_server_error`. -/
def internalServerError (msg : String) : ErrorResponse :=
  ⟨500, msg⟩

/-- `ErrorResponse::from_http_error`: only a 4xx code is passed on. -/
def fromHttpError (code : Nat) (message : String) : ErrorResponse :=
  if code < 400 ∨ code ≥ 500 then internalServerError message else ⟨code, message⟩

/-- `ErrorResponse::from_anyhow`. -/
def fromAnyhow (err : EngineError) (altMsg : String) : ErrorResponse :=
  match err with
  | .http code message => fromHttpError code message
  | .other message => internalServerError (altMsg ++ ": " ++ message)

end ErrorResponse

/-- What the client gets: an SSE stream of the events it took, cut short by
    the panic of the forwarding task if it had one, a JSON response, an
    error reply, or nothing, the handler having panicked. -/
inductive Reply (Resp : Type) where
  | sse (events : List Event) (panic : Option Abort)
  | json (response : Resp)
  | error (response : ErrorResponse)
  | aborted (abort : Abort)

/-- A request's outcome: the reply, whether `stop_generating` was called, and
    the metrics once the guard is gone. -/
structure Served (Resp : Type) where
  reply : Reply Resp
  stopped : Bool
  metrics : Metrics

/-- A request as the handlers read it: the model and `stream`. -/
structure Request where
  model : String
  stream : Option Bool
  deriving DecidableEq, Repr

/-- The body `chat_completions` and `completions` share: look the engine up,
    open the guard, call the engine, then stream the converted items through
    the forwarding task, or fold them into one response. -/
def serve {E R Resp : Type} (endpoint : Endpoint) (json : R → Except String String)
    (fromAnnotatedStream : List (Annotated R) → Except Abort (Except String Resp))
    (foldError : String → String) (engines : ModelEngines E)
    (generate : E → Except EngineError (List (Annotated R))) (metrics : Metrics)
    (request : Request) (client : Option Nat) : Served Resp :=
  let streaming := request.stream.getD false
  match engines.engines.lookup request.model with
  | none => ⟨.error .modelNotFound, false, metrics⟩
  | some engine =>
    let (inflight, metrics) := createInflightGuard metrics request.model endpoint streaming
    match generate engine with
    | .error e => ⟨.error (.fromAnyhow e "Failed to generate completions"), false, inflight.drop metrics⟩
    | .ok stream =>
      if streaming then
        let (events, stopped, panic, inflight) :=
          monitorForDisconnects client (stream.map (forwardItem json)) inflight
        ⟨.sse events panic, stopped, inflight.drop metrics⟩
      else
        match fromAnnotatedStream stream with
        | .error abort => ⟨.aborted abort, false, inflight.drop metrics⟩
        | .ok (.error e) => ⟨.error (.internalServerError (foldError e)), false, inflight.drop metrics⟩
        | .ok (.ok response) => ⟨.json response, false, inflight.markOk.drop metrics⟩

section Handlers

variable {E : Type}

/-- `chat_completions`, without the request template. -/
def chatCompletions (json : ChatCompletions.NvCreateChatCompletionStreamResponse → Except String String)
    (engines : ModelEngines E)
    (generate : E → Except EngineError (List (Annotated ChatCompletions.NvCreateChatCompletionStreamResponse)))
    (metrics : Metrics) (request : Request) (client : Option Nat) :
    Served ChatCompletions.NvCreateChatCompletionResponse :=
  serve .chatCompletions json ChatCompletions.DeltaAggregator.apply
    (fun e => "Failed to fold chat completions stream: " ++ e) engines generate metrics request client

/-- `completions`. -/
def completions (json : Completions.CompletionResponse → Except String String)
    (engines : ModelEngines E)
    (generate : E → Except EngineError (List (Annotated Completions.CompletionResponse)))
    (metrics : Metrics) (request : Request) (client : Option Nat) :
    Served Completions.CompletionResponse :=
  serve .completions json (fun stream => pure (Completions.DeltaAggregator.apply stream))
    (fun _ => "Failed to fold completions stream") engines generate metrics request client

end Handlers

/-! ### The gauge and the counter -/

namespace Metrics

theorem addInflightGauge_addInflightGauge (m : Metrics) (model : String) (d d' : Int) :
    (m.addInflightGauge model d).addInflightGauge model d' = m.addInflightGauge model (d + d') := by
  unfold addInflightGauge
  dsimp only
  rw [Function.update_self, Function.update_idem, Int.add_assoc]

theorem addInflightGauge_zero (m : Metrics) (model : String) : m.addInflightGauge model 0 = m := by
  unfold addInflightGauge
  rw [Int.add_zero, Function.update_eq_self]

/-- Raising a model's gauge and lowering it again leaves the metrics as they
    were. -/
theorem decInflightGauge_incInflightGauge (m : Metrics) (model : String) :
    (m.incInflightGauge model).decInflightGauge model = m := by
  rw [incInflightGauge, decInflightGauge, addInflightGauge_addInflightGauge]
  exact addInflightGauge_zero m model

end Metrics

/-- A guard dropped over the gauge its `new` raised: the gauge is back, and
    the request is counted once under the guard's labels and status. -/
theorem InflightGuard.drop_incInflightGauge (g : InflightGuard) (metrics : Metrics) :
    g.drop (metrics.incInflightGauge g.model) =
      metrics.incRequestCounter g.model g.endpoint g.requestType g.status := by
  rw [InflightGuard.drop, Metrics.decInflightGauge_incInflightGauge]

/-! ### The forwarding task -/

theorem length_eventsUntilPanic_le :
    ∀ items : List (Except Abort Event), (eventsUntilPanic items).1.length ≤ items.length
  | [] => le_rfl
  | .error _ :: _ => Nat.zero_le _
  | .ok _ :: rest => Nat.succ_le_succ (length_eventsUntilPanic_le rest)

/-- Without a panic every item is made. -/
theorem length_eventsUntilPanic_of_none :
    ∀ {items : List (Except Abort Event)}, (eventsUntilPanic items).2 = none →
      (eventsUntilPanic items).1.length = items.length
  | [], _ => rfl
  | .error _ :: _, h => by simp [eventsUntilPanic] at h
  | .ok _ :: rest, h => congrArg Nat.succ (@length_eventsUntilPanic_of_none rest h)

/-- Items made without a panic are sent as they are. -/
theorem eventsUntilPanic_of_forall₂ {α : Type} {f : α → Except Abort Event} :
    ∀ {xs : List α} {events : List Event}, List.Forall₂ (fun x event => f x = .ok event) xs events →
      eventsUntilPanic (xs.map f) = (events, none)
  | [], [], .nil => rfl
  | _ :: _, _ :: _, .cons hx hrest => by
      rw [List.map_cons, hx, eventsUntilPanic, eventsUntilPanic_of_forall₂ hrest]

/-- A client that reads to the end takes every event made before a panic,
    and generation is never stopped. -/
theorem forward_none (items : List (Except Abort Event)) (sent : List Event) :
    forward none items sent = (sent ++ (eventsUntilPanic items).1, false, (eventsUntilPanic items).2) := by
  induction items generalizing sent with
  | nil => rw [forward, eventsUntilPanic, List.append_nil]
  | cons item rest ih =>
      cases item with
      | error abort => rw [forward, eventsUntilPanic, List.append_nil]
      | ok event =>
          have haccept : acceptsSend none sent.length = true := rfl
          rw [forward, if_pos haccept, ih, eventsUntilPanic, List.append_assoc, List.singleton_append]

/-- A client that takes `n` events: the loop sends up to the `n`-th and
    stops generation if events remain to be made; otherwise it sends every
    event made before a panic. -/
theorem forward_some (n : Nat) (items : List (Except Abort Event)) (sent : List Event)
    (hsent : sent.length ≤ n) :
    forward (some n) items sent =
      if n - sent.length < (eventsUntilPanic items).1.length then
        (sent ++ (eventsUntilPanic items).1.take (n - sent.length), true, none)
      else (sent ++ (eventsUntilPanic items).1, false, (eventsUntilPanic items).2) := by
  induction items generalizing sent with
  | nil => simp only [forward, eventsUntilPanic, List.length_nil, Nat.not_lt_zero, if_false,
      List.append_nil]
  | cons item rest ih =>
      cases item with
      | error abort => simp only [forward, eventsUntilPanic, List.length_nil, Nat.not_lt_zero,
          if_false, List.append_nil]
      | ok event =>
          rw [forward, eventsUntilPanic]
          by_cases h : sent.length < n
          · -- the client takes this event
            have hk : n - sent.length = n - (sent.length + 1) + 1 := by omega
            have haccept : acceptsSend (some n) sent.length = true := decide_eq_true h
            rw [if_pos haccept, ih _ (by rw [List.length_append, List.length_singleton]; omega),
              List.length_append, List.length_singleton, hk]
            simp only [List.length_cons, Nat.add_lt_add_iff_right, List.take_succ_cons,
              List.append_assoc, List.singleton_append]
          · -- the receiver is gone: generation stops with the rest unsent
            have hn : n - sent.length = 0 := by omega
            have hrefuse : acceptsSend (some n) sent.length ≠ true := fun ha => h (of_decide_eq_true ha)
            rw [if_neg hrefuse, hn, List.take_zero, List.append_nil, List.length_cons,
              if_pos (Nat.zero_lt_succ _)]

/-- The task's outcome from the loop's: `[DONE]` and a success follow a loop
    that did not panic, when the client takes them. -/
theorem monitorForDisconnects_of_forward {client : Option Nat} {stream : List (Except Abort Event)}
    (inflight : InflightGuard) {sent : List Event} {stopped : Bool} {panic : Option Abort}
    (h : forward client stream [] = (sent, stopped, panic)) :
    monitorForDisconnects client stream inflight =
      if panic = none ∧ acceptsSend client sent.length then
        (sent ++ [doneEvent], stopped, none, inflight.markOk)
      else (sent, stopped, panic, inflight) := by
  unfold monitorForDisconnects
  rw [h]
  cases panic with
  | some abort =>
      dsimp only
      rw [if_neg (fun hp => absurd hp.1 (by simp only [reduceCtorEq, not_false_eq_true]))]
  | none =>
      dsimp only
      by_cases haccept : acceptsSend client sent.length = true
      · rw [if_pos haccept, if_pos ⟨rfl, haccept⟩]
      · rw [if_neg haccept, if_neg (fun hp => haccept hp.2)]

/-- A client that reads to the end takes every event and `[DONE]`, and the
    guard is marked a success, when no item panics. -/
theorem monitorForDisconnects_none_of_events {stream : List (Except Abort Event)} {events : List Event}
    (inflight : InflightGuard) (h : eventsUntilPanic stream = (events, none)) :
    monitorForDisconnects none stream inflight =
      (events ++ [doneEvent], false, none, inflight.markOk) := by
  rw [monitorForDisconnects_of_forward inflight (forward_none stream []), h, if_pos ⟨rfl, rfl⟩,
    List.nil_append]

/-- The guard the forwarding task drops is a success exactly when no item
    panics and the client takes every item and `[DONE]`. -/
theorem monitorForDisconnects_guard (client : Option Nat) (stream : List (Except Abort Event))
    (inflight : InflightGuard) :
    (monitorForDisconnects client stream inflight).2.2.2 =
      if (eventsUntilPanic stream).2 = none ∧ acceptsSend client stream.length then inflight.markOk
      else inflight := by
  have hguard : ∀ {sent stopped panic}, forward client stream [] = (sent, stopped, panic) →
      ((panic = none ∧ acceptsSend client sent.length) ↔
        ((eventsUntilPanic stream).2 = none ∧ acceptsSend client stream.length)) →
      (monitorForDisconnects client stream inflight).2.2.2 =
        if (eventsUntilPanic stream).2 = none ∧ acceptsSend client stream.length then inflight.markOk
        else inflight := by
    intro sent stopped panic hf hiff
    rw [monitorForDisconnects_of_forward inflight hf]
    by_cases hc : panic = none ∧ acceptsSend client sent.length
    · rw [if_pos hc, if_pos (hiff.mp hc)]
    · rw [if_neg hc, if_neg (fun h => hc (hiff.mpr h))]
  cases client with
  | none =>
      refine hguard (forward_none stream []) ⟨fun h => ⟨h.1, rfl⟩, fun h => ⟨h.1, rfl⟩⟩
  | some n =>
      rw [forward_some n stream [] (Nat.zero_le n), List.length_nil, Nat.sub_zero] at hguard
      have hle := length_eventsUntilPanic_le stream
      by_cases hlt : n < (eventsUntilPanic stream).1.length
      · -- the client leaves first: `[DONE]` is refused, and the stream was longer
        rw [if_pos hlt] at hguard
        refine hguard rfl ⟨fun h => ?_, fun h => ?_⟩
        · have := of_decide_eq_true h.2
          rw [List.nil_append, List.length_take] at this
          omega
        · have := of_decide_eq_true h.2
          omega
      · rw [if_neg hlt] at hguard
        refine hguard rfl ⟨fun h => ⟨h.1, ?_⟩, fun h => ⟨h.1, ?_⟩⟩
        · rw [List.nil_append, length_eventsUntilPanic_of_none h.1] at h
          exact h.2
        · rw [List.nil_append, length_eventsUntilPanic_of_none h.1]
          exact h.2

/-- Generation is stopped exactly when the client leaves before the last
    event made. -/
theorem monitorForDisconnects_stopped (client : Option Nat) (stream : List (Except Abort Event))
    (inflight : InflightGuard) :
    (monitorForDisconnects client stream inflight).2.1 =
      client.elim false (fun n => decide (n < (eventsUntilPanic stream).1.length)) := by
  have hstopped : ∀ {sent stopped panic}, forward client stream [] = (sent, stopped, panic) →
      (monitorForDisconnects client stream inflight).2.1 = stopped := by
    intro sent stopped panic hf
    rw [monitorForDisconnects_of_forward inflight hf]
    split
    · rfl
    · rfl
  cases client with
  | none => exact hstopped (forward_none stream [])
  | some n =>
      rw [forward_some n stream [] (Nat.zero_le n), List.length_nil, Nat.sub_zero] at hstopped
      by_cases hlt : n < (eventsUntilPanic stream).1.length
      · rw [if_pos hlt] at hstopped
        rw [hstopped rfl]
        exact (decide_eq_true hlt).symm
      · rw [if_neg hlt] at hstopped
        rw [hstopped rfl]
        exact (decide_eq_false hlt).symm

/-! ### The handlers -/

/-- The status a unary request is counted under: a success exactly when the
    stream folds into a response. -/
def unaryStatus {Resp : Type} : Except Abort (Except String Resp) → Status
  | .ok (.ok _) => .success
  | _ => .error

section Serve

variable {E R Resp : Type} (endpoint : Endpoint) (json : R → Except String String)
  (fromAnnotatedStream : List (Annotated R) → Except Abort (Except String Resp))
  (foldError : String → String) (engines : ModelEngines E)
  (generate : E → Except EngineError (List (Annotated R))) (metrics : Metrics)
  {request : Request} (client : Option Nat) {engine : E}

/-- A streaming request whose engine yields a stream: the reply is what the
    forwarding task sends, and the metrics are those its guard leaves. -/
theorem serve_stream (hstream : request.stream = some true)
    (hengine : engines.engines.lookup request.model = some engine)
    {stream : List (Annotated R)} (hgen : generate engine = .ok stream) :
    let forwarded := monitorForDisconnects client (stream.map (forwardItem json))
      ⟨request.model, endpoint, .stream, .error⟩
    serve endpoint json fromAnnotatedStream foldError engines generate metrics request client =
      ⟨.sse forwarded.1 forwarded.2.2.1, forwarded.2.1,
        forwarded.2.2.2.drop (metrics.incInflightGauge request.model)⟩ := by
  intro forwarded
  unfold serve
  rw [hengine, hstream]
  dsimp only
  rw [hgen]
  rfl

/-- A unary request whose engine yields a stream: it is counted as a success
    exactly when the stream folds into a response. -/
theorem serve_unary_status (hstream : request.stream.getD false = false)
    (hengine : engines.engines.lookup request.model = some engine)
    {stream : List (Annotated R)} (hgen : generate engine = .ok stream) :
    (serve endpoint json fromAnnotatedStream foldError engines generate metrics request client).metrics =
      metrics.incRequestCounter request.model endpoint .unary
        (unaryStatus (fromAnnotatedStream stream)) := by
  have hguard : ∀ status : Status,
      (⟨request.model, endpoint, .unary, status⟩ : InflightGuard).drop
        (metrics.incInflightGauge request.model) =
      metrics.incRequestCounter request.model endpoint .unary status :=
    fun status => InflightGuard.drop_incInflightGauge _ metrics
  unfold serve
  rw [hengine, hstream]
  dsimp only
  rw [hgen]
  dsimp only
  rw [if_neg Bool.false_ne_true]
  rcases hfold : fromAnnotatedStream stream with abort | result
  · exact hguard .error
  · cases result with
    | error e => exact hguard .error
    | ok response => exact hguard .success

/-- A streaming request whose engine yields a stream is counted as a success
    exactly when no item panics the forwarding task and the client takes
    every item and `[DONE]`. -/
theorem serve_stream_status (hstream : request.stream = some true)
    (hengine : engines.engines.lookup request.model = some engine)
    {stream : List (Annotated R)} (hgen : generate engine = .ok stream) :
    (serve endpoint json fromAnnotatedStream foldError engines generate metrics request client).metrics =
      metrics.incRequestCounter request.model endpoint .stream
        (if (eventsUntilPanic (stream.map (forwardItem json))).2 = none ∧
          acceptsSend client stream.length then .success else .error) := by
  rw [serve_stream endpoint json fromAnnotatedStream foldError engines generate metrics client hstream
    hengine hgen]
  dsimp only
  rw [monitorForDisconnects_guard, List.length_map]
  by_cases h : (eventsUntilPanic (stream.map (forwardItem json))).2 = none ∧
      acceptsSend client stream.length
  · rw [if_pos h, if_pos h]
    exact InflightGuard.drop_incInflightGauge _ metrics
  · rw [if_neg h, if_neg h]
    exact InflightGuard.drop_incInflightGauge _ metrics

/-- Every request whose model resolves to an engine lowers the gauge it
    raised and is counted once, under its model, endpoint and request type. -/
theorem serve_metrics (hengine : engines.engines.lookup request.model = some engine) :
    ∃ status, (serve endpoint json fromAnnotatedStream foldError engines generate metrics request
        client).metrics =
      metrics.incRequestCounter request.model endpoint
        (if request.stream.getD false then .stream else .unary) status := by
  rcases hgen : generate engine with err | stream
  · -- the engine refused the request: the guard is dropped as an error
    refine ⟨.error, ?_⟩
    unfold serve
    rw [hengine]
    dsimp only
    rw [hgen]
    exact InflightGuard.drop_incInflightGauge _ metrics
  · cases hstream : request.stream with
    | none =>
        exact ⟨_, serve_unary_status endpoint json fromAnnotatedStream foldError engines generate
          metrics client (by rw [hstream]; rfl) hengine hgen⟩
    | some streaming =>
        cases streaming with
        | false =>
            exact ⟨_, serve_unary_status endpoint json fromAnnotatedStream foldError engines generate
              metrics client (by rw [hstream]; rfl) hengine hgen⟩
        | true =>
            exact ⟨_, serve_stream_status endpoint json fromAnnotatedStream foldError engines generate
              metrics client hstream hengine hgen⟩

end Serve

/-! ### Items without line breaks -/

/-- An annotation whose event name and comments have no line break. -/
def FieldsLineFree {R : Type} (annotated : Annotated R) : Prop :=
  (∀ msg ∈ annotated.event, LineFree msg) ∧ ∀ comments ∈ annotated.comment, ∀ c ∈ comments, LineFree c

namespace Event

theorem field_of_lineFree {value : String} (h : LineFree value) : field value = .ok () :=
  if_pos h

theorem event_of_lineFree (self : Event) {msg : String} (h : LineFree msg) :
    self.event msg = .ok { self with eventName := some msg } := by
  rw [Event.event, field_of_lineFree h]
  rfl

theorem comment_of_lineFree (self : Event) {c : String} (h : LineFree c) :
    self.comment c = .ok { self with comments := self.comments ++ [c] } := by
  rw [Event.comment, field_of_lineFree h]
  rfl

/-- Comments without line breaks are all written, and keep the name. -/
theorem foldlM_comment_of_lineFree :
    ∀ {comments : List String} (event : Event), (∀ c ∈ comments, LineFree c) →
      ∃ event', comments.foldlM Event.comment event = .ok event' ∧ event'.eventName = event.eventName
  | [], event, _ => ⟨event, rfl, rfl⟩
  | c :: comments, event, h => by
      rcases foldlM_comment_of_lineFree { event with comments := event.comments ++ [c] }
        (fun x hx => h x (List.mem_cons_of_mem _ hx)) with ⟨event', hfold, hname⟩
      refine ⟨event', ?_, hname⟩
      rw [List.foldlM_cons, comment_of_lineFree event (h c List.mem_cons_self)]
      exact hfold

theorem withComments_of_lineFree {comment : Option (List String)}
    (h : ∀ comments ∈ comment, ∀ c ∈ comments, LineFree c) (event : Event) :
    ∃ event', withComments comment event = .ok (.ok event') ∧ event'.eventName = event.eventName := by
  cases comment with
  | none => exact ⟨event, rfl, rfl⟩
  | some comments =>
      rcases foldlM_comment_of_lineFree event (h comments rfl) with ⟨event', hfold, hname⟩
      refine ⟨event', ?_, hname⟩
      rw [withComments, hfold]
      rfl

/-- A serialiser whose errors have no line break gives data events whose
    errors have none. -/
theorem dataEvent_error {R : Type} {json : R → Except String String}
    (hjson : ∀ r e, json r = .error e → LineFree e) :
    ∀ {data : Option R} {e : String}, dataEvent json data = .error e → LineFree e
  | some d, e, h => by
      rcases hd : json d with e' | s
      · rw [dataEvent, jsonData, hd] at h
        cases h
        exact hjson d _ hd
      · rw [dataEvent, jsonData, hd] at h
        cases h
  | none, _, h => by cases h

end Event

/-- The `error` event of a message without line breaks. -/
theorem errorEvent_of_lineFree {err : String} (h : LineFree err) :
    errorEvent err = .ok ⟨none, some "error", [err]⟩ := by
  rw [errorEvent, Event.event_of_lineFree Event.default (by decide), Except.ok_bind,
    Event.comment_of_lineFree _ h]
  rfl

/-- An item whose texts, and the serialiser's errors, have no line break is
    made without a panic; an error annotation becomes an `error` event. -/
theorem forwardItem_of_fieldsLineFree {R : Type} {json : R → Except String String}
    (hjson : ∀ r e, json r = .error e → LineFree e) {annotated : Annotated R}
    (h : FieldsLineFree annotated) :
    ∃ event, forwardItem json annotated = .ok event ∧
      (annotated.event = some "error" → event.eventName = some "error") := by
  rcases h with ⟨hevent, hcomment⟩
  rcases hdata : Event.dataEvent json annotated.data with e | event
  · -- the serialiser failed: its message becomes an `error` event
    refine ⟨⟨none, some "error", [e]⟩, ?_, fun _ => rfl⟩
    rw [forwardItem, Event.tryFromEventConverter, hdata, Except.ok_bind]
    exact errorEvent_of_lineFree (Event.dataEvent_error hjson hdata)
  · rcases hname : annotated.event with _ | msg
    · rcases Event.withComments_of_lineFree hcomment event with ⟨event', hw, -⟩
      refine ⟨event', ?_, fun hsome => by cases hsome⟩
      simp only [forwardItem, Event.tryFromEventConverter, hdata, hname, hw, Except.ok_bind]
      rfl
    · by_cases herr : msg = "error"
      · -- an error annotation: its comments, joined, become an `error` event
        subst herr
        have hjoin : LineFree (" -- ".intercalate (annotated.comment.getD ["unspecified error"])) := by
          refine LineFree.intercalate (by decide) fun c hc => ?_
          rcases hc' : annotated.comment with _ | comments
          · rw [hc', Option.getD_none, List.mem_singleton] at hc
            rw [hc]
            decide
          · rw [hc', Option.getD_some] at hc
            exact hcomment comments hc' c hc
        refine ⟨⟨none, some "error", [" -- ".intercalate (annotated.comment.getD ["unspecified error"])]⟩,
          ?_, fun _ => rfl⟩
        simp only [forwardItem, Event.tryFromEventConverter, hdata, hname, if_true, Except.ok_bind]
        exact errorEvent_of_lineFree hjoin
      · rcases Event.withComments_of_lineFree hcomment { event with eventName := some msg } with
          ⟨event', hw, -⟩
        refine ⟨event', ?_, fun hsome => absurd (Option.some.inj hsome) herr⟩
        simp only [forwardItem, Event.tryFromEventConverter, hdata, hname, herr, if_false,
          Event.event_of_lineFree event (hevent msg hname), Except.ok_bind, hw]
        rfl

section Chat

variable {E : Type}
  (json : ChatCompletions.NvCreateChatCompletionStreamResponse → Except String String)
  (engines : ModelEngines E)
  (generate : E → Except EngineError (List (Annotated ChatCompletions.NvCreateChatCompletionStreamResponse)))
  (metrics : Metrics) {request : Request} {engine : E}
  {stream : List (Annotated ChatCompletions.NvCreateChatCompletionStreamResponse)}

/-- A unary chat request whose stream carries an error annotation is counted
    as an error: the fold records the error. -/
theorem chatCompletions_unary_of_isError (client : Option Nat)
    (hstream : request.stream.getD false = false)
    (hengine : engines.engines.lookup request.model = some engine)
    (hgen : generate engine = .ok stream) (herror : ∃ item ∈ stream, item.IsError) :
    (chatCompletions json engines generate metrics request client).metrics =
      metrics.incRequestCounter request.model .chatCompletions .unary .error := by
  rcases ChatCompletions.apply_of_isError herror with ⟨error, happly⟩
  rw [chatCompletions, serve_unary_status _ _ _ _ _ _ _ _ hstream hengine hgen, happly]
  rfl

/-- A streaming chat request read to the end, whose items' event names and
    comments and whose serialiser's errors have no line break, is counted as
    a success and stops nothing, error annotations or not. The client gets
    one event for every item, an error annotation becoming an SSE `error`
    event and the items after it following it, and then `[DONE]`. -/
theorem chatCompletions_forwards_error_annotations (hstream : request.stream = some true)
    (hengine : engines.engines.lookup request.model = some engine)
    (hgen : generate engine = .ok stream) (hjson : ∀ r e, json r = .error e → LineFree e)
    (hfree : ∀ item ∈ stream, FieldsLineFree item) :
    let served : Served ChatCompletions.NvCreateChatCompletionResponse :=
      chatCompletions json engines generate metrics request none
    ∃ events, List.Forall₂ (fun item event => forwardItem json item = .ok event ∧
        (item.event = some "error" → event.eventName = some "error")) stream events ∧
      served.reply = .sse (events ++ [doneEvent]) none ∧ served.stopped = false ∧
      served.metrics = metrics.incRequestCounter request.model .chatCompletions .stream .success := by
  -- every item is made without a panic
  obtain ⟨events, hevents⟩ : ∃ events, List.Forall₂ (fun item event => forwardItem json item = .ok event ∧
      (item.event = some "error" → event.eventName = some "error")) stream events := by
    clear hgen
    induction stream with
    | nil => exact ⟨[], .nil⟩
    | cons item rest ih =>
        rcases forwardItem_of_fieldsLineFree hjson (hfree item List.mem_cons_self) with ⟨e, he⟩
        rcases ih (fun x hx => hfree x (List.mem_cons_of_mem _ hx)) with ⟨es, hes⟩
        exact ⟨e :: es, .cons he hes⟩
  have hmade : eventsUntilPanic (stream.map (forwardItem json)) = (events, none) :=
    eventsUntilPanic_of_forall₂ (hevents.imp fun _ _ h => h.1)
  -- the forwarding task sends them all, then `[DONE]`
  have hserve : chatCompletions json engines generate metrics request none =
      ⟨.sse (events ++ [doneEvent]) none, false,
        InflightGuard.drop ⟨request.model, .chatCompletions, .stream, .success⟩
          (metrics.incInflightGauge request.model)⟩ := by
    have h := serve_stream .chatCompletions json ChatCompletions.DeltaAggregator.apply
      (fun e => "Failed to fold chat completions stream: " ++ e) engines generate metrics none
      hstream hengine hgen
    dsimp only at h
    rw [monitorForDisconnects_none_of_events _ hmade] at h
    exact h
  dsimp only
  rw [hserve]
  exact ⟨events, hevents, rfl, rfl, InflightGuard.drop_incInflightGauge _ metrics⟩

end Chat

/-- At an input with an error annotation followed by a chunk, read to the
    end, the request is counted as a success. -/
theorem chatCompletions_forwards_error_annotations_of_error_then_data :
    let chunk : ChatCompletions.NvCreateChatCompletionStreamResponse :=
      ⟨"chatcmpl-1", "chat.completion.chunk", 0, "llama", none, [], none⟩
    let stream : List (Annotated ChatCompletions.NvCreateChatCompletionStreamResponse) :=
      [.fromError "backend failed", .fromData chunk]
    let request : Request := ⟨"llama", some true⟩
    let engines : ModelEngines Unit := ⟨(∅ : AList (fun _ : String => Unit)).insert "llama" ()⟩
    let generate : Unit →
        Except EngineError (List (Annotated ChatCompletions.NvCreateChatCompletionStreamResponse)) :=
      fun _ => .ok stream
    let json : ChatCompletions.NvCreateChatCompletionStreamResponse → Except String String :=
      fun _ => .ok "chunk"
    let metrics : Metrics := ⟨fun _ => 0, fun _ => 0⟩
    request.stream = some true ∧ engines.engines.lookup request.model = some () ∧
      generate () = .ok stream ∧ (∀ r e, json r = .error e → LineFree e) ∧
      (∀ item ∈ stream, FieldsLineFree item) ∧
      let served : Served ChatCompletions.NvCreateChatCompletionResponse :=
        chatCompletions json engines generate metrics request none
      ∃ events, List.Forall₂ (fun item event => forwardItem json item = .ok event ∧
          (item.event = some "error" → event.eventName = some "error")) stream events ∧
        served.reply = .sse (events ++ [doneEvent]) none ∧ served.stopped = false ∧
        served.metrics = metrics.incRequestCounter request.model .chatCompletions .stream .success := by
  have hjson : ∀ (r : ChatCompletions.NvCreateChatCompletionStreamResponse) e,
      (Except.ok "chunk" : Except String String) = .error e → LineFree e :=
    fun _ _ h => by cases h
  have hfree : ∀ item ∈ ([.fromError "backend failed",
      .fromData ⟨"chatcmpl-1", "chat.completion.chunk", 0, "llama", none, [], none⟩] :
      List (Annotated ChatCompletions.NvCreateChatCompletionStreamResponse)), FieldsLineFree item := by
    simp only [List.mem_cons, List.not_mem_nil, or_false, forall_eq_or_imp, forall_eq,
      FieldsLineFree, Annotated.fromError, Annotated.fromData, Option.mem_def, Option.some.injEq,
      forall_eq', reduceCtorEq, false_imp_iff, implies_true, and_true]
    decide
  exact ⟨rfl, AList.lookup_insert _, rfl, hjson, hfree,
    chatCompletions_forwards_error_annotations (fun _ => .ok "chunk")
      ⟨(∅ : AList (fun _ : String => Unit)).insert "llama" ()⟩
      (fun _ => .ok [.fromError "backend failed",
        .fromData ⟨"chatcmpl-1", "chat.completion.chunk", 0, "llama", none, [], none⟩])
      ⟨fun _ => 0, fun _ => 0⟩ rfl (AList.lookup_insert _) rfl hjson hfree⟩

/-- At that input the client is sent the error event, then the chunk after
    it, then `[DONE]`. -/
example : (chatCompletions (fun _ => .ok "chunk") ⟨(∅ : AList (fun _ : String => Unit)).insert "llama" ()⟩
    (fun _ => .ok [.fromError "backend failed",
      .fromData ⟨"chatcmpl-1", "chat.completion.chunk", 0, "llama", none, [], none⟩])
    ⟨fun _ => 0, fun _ => 0⟩ ⟨"llama", some true⟩ none).reply =
      .sse [⟨none, some "error", ["backend failed"]⟩, Event.default.data "chunk", doneEvent] none := by
  rfl

/-- An error annotation whose message has a line break panics the forwarding
    task: the client gets no event and no `[DONE]`, and the request is
    counted as an error. -/
example : (chatCompletions (fun _ => .ok "chunk") ⟨(∅ : AList (fun _ : String => Unit)).insert "llama" ()⟩
    (fun _ => .ok [.fromError "a\nb"]) ⟨fun _ => 0, fun _ => 0⟩ ⟨"llama", some true⟩ none).reply =
      .sse [] (some Event.fieldPanic) := by
  rfl

end Http

end Dynamo
