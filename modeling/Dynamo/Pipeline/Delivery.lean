import Dynamo.Lib.EndMarker
import Dynamo.Pipeline.CallHome

/-!
# What the Response Stream Delivers

Four properties of every interleaving of `CallHome`, for codecs that
round-trip and never write an empty document (`Setup.Sound`), which is what
serde_json's derived implementations promise.

No task panics: none of the `panic!`, `assert!`, `assert_ne!` or `expect`
calls of the two socket tasks of either side, of `process_stream` or of
`handle_payload` is reached. The router gets, in order, a prefix of the
engine's responses, never a response twice and never one out of place. If
its request fails, the error it gets is the worker's: `ConnectionFailed`
with `generate`'s error text. The fourth, that the stream never wedges, is
read off the same invariant in `Progress`.

The argument is one invariant over reachable states, `Inv`. Its heart is
`Flow`, an account of what is on the worker's socket as `Item`s, what the
frontend's parse of each message gives: what the frontend has read, what is
still on the socket, and what is still in the writer's channel, make up the
handshake followed by what `handle_payload` has sent (`emitted`), cut where
the writer returned and followed by the sentinel it then wrote. What the
frontend has read is fixed by where `process_stream` is: nothing, the
handshake, or the handshake, the prologue and data up to the sentinel, the
data being what the router has or what is forwarded to it, on its channel or
in a send that waits for room. `Tasks` fits the places of
the tasks together, and `Quiet` holds in a run without stops, kills or a
dropped router. Each action keeps `Inv` (`Inv.step`), and the theorems are
read off it.

## Main definitions

* `Item`, `Carries`: What a message on the worker's socket carries.
* `emitted`: What `handle_payload` has sent on the bytes channel.
* `Setup.Sound`: The codecs round-trip and never write nothing.
* `Setup.sample`: Derived codecs to run statements on.
* `Tasks`, `Quiet`, `Flow`, `Inv`: The invariant.
* `Finished`: Every task has returned.

## Theorems

* `Inv.step`: Every action keeps the invariant and returns.
* `Reachable.inv`: The invariant holds in every reachable state.
* `reachable_step_ne_error`: No action of a reachable state panics.
* `reachable_received_prefix`: The router receives a prefix of the
  responses.
* `reachable_router_failed`: The router fails only with `generate`'s error.
-/

namespace Dynamo

namespace Pipeline

/-- What a message on the worker's socket carries, as the frontend reads
    it. -/
inductive Item (U : Type) where
  | handshake
  | prologue (error : Option String)
  | data (resp : U)
  | sentinel

namespace Setup

variable {U : Type} (σ : Setup U)

/-- The codecs do what serde_json promises: each round-trips and writes
    something. -/
structure Sound : Prop where
  ctrl : σ.codecs.ctrl.RoundTrips
  ctrlNonempty : σ.codecs.ctrl.WritesNonempty
  handshake : σ.codecs.handshake.RoundTrips
  handshakeNonempty : σ.codecs.handshake.WritesNonempty
  prologue : σ.codecs.prologue.RoundTrips
  prologueNonempty : σ.codecs.prologue.WritesNonempty
  resp : σ.codecs.resp.RoundTrips
  respNonempty : σ.codecs.resp.WritesNonempty

/-- A header-only message whose header reads as the control message `c`. -/
def CarriesCtrl (msg : TwoPartMessage) (c : ControlMessage) : Prop :=
  msg.data = [] ∧ msg.header ≠ [] ∧ σ.codecs.ctrl.fromSlice msg.header = .ok c

/-- A message carries an item: a header-only message whose header reads as
    the registered subject's handshake, a prologue or the sentinel, or a
    body-only message whose body reads as a response. -/
def Carries (msg : TwoPartMessage) : Item U → Prop
  | .handshake => msg.data = [] ∧ msg.header ≠ [] ∧
      σ.codecs.handshake.fromSlice msg.header = .ok ⟨σ.subject, .response⟩
  | .prologue error => msg.data = [] ∧ msg.header ≠ [] ∧
      σ.codecs.prologue.fromSlice msg.header = .ok ⟨error⟩
  | .data r => msg.header = [] ∧ msg.data ≠ [] ∧ σ.codecs.resp.fromSlice msg.data = .ok r
  | .sentinel => σ.CarriesCtrl msg .sentinel

/-- The error `handle_payload` puts in the prologue: none when `generate`
    succeeds, `PipelineError::GenerateError(e).to_string()` when it fails. -/
def prologueError : Option String :=
  match σ.outcome with
  | .ok _ => none
  | .error e => some ("Generate Error: " ++ e)

/-- The first `n` responses, as items. -/
def sentData (n : Nat) : List (Item U) :=
  match σ.outcome with
  | .ok responses => (responses.take n).map .data
  | .error _ => []

/-- What `handle_payload` has sent on the bytes channel: nothing before
    `generate`, then the prologue and the responses sent so far. -/
def emitted (s : CallHome U) : List (Item U) :=
  match s.payload with
  | .generate => []
  | _ => .prologue σ.prologueError :: σ.sentData s.sent

/-- No one has stopped or killed the frontend's context or dropped the
    router, and the engine's `generate` succeeded. -/
def Calm (s : CallHome U) : Prop :=
  s.fctx = Controller.new ∧ s.router ≠ .dropped ∧ ∃ responses, σ.outcome = .ok responses

section Items

variable {σ : Setup U}

/-- The responses' items are data. -/
theorem data_of_mem_sentData {n : Nat} {it : Item U} (h : it ∈ σ.sentData n) :
    ∃ r, it = .data r := by
  unfold sentData at h
  split at h
  · obtain ⟨r, -, rfl⟩ := List.mem_map.mp h
    exact ⟨r, rfl⟩
  · cases h

theorem sentData_zero : σ.sentData 0 = [] := by
  unfold sentData
  split <;> rfl

/-- Sending the response at index `n` adds its item. -/
theorem sentData_succ {rs : List U} {n : Nat} {r : U} (hrs : σ.outcome = .ok rs)
    (hr : rs[n]? = some r) : σ.sentData (n + 1) = σ.sentData n ++ [.data r] := by
  simp only [sentData, hrs, List.take_add_one, hr, Option.toList_some, List.map_append,
    List.map_cons, List.map_nil]

theorem emitted_of_generate {s : CallHome U} (h : s.payload = .generate) :
    σ.emitted s = [] := by
  rw [emitted, h]

theorem emitted_of_ne_generate {s : CallHome U} (h : s.payload ≠ .generate) :
    σ.emitted s = .prologue σ.prologueError :: σ.sentData s.sent := by
  unfold emitted
  split
  · rename_i hp
    exact absurd hp h
  · rfl

/-- `handle_payload` never sends the sentinel. -/
theorem sentinel_not_mem_emitted {s : CallHome U} : Item.sentinel ∉ σ.emitted s := by
  unfold emitted
  split
  · exact List.not_mem_nil
  · rintro (_ | ⟨_, h⟩)
    obtain ⟨r, hr⟩ := data_of_mem_sentData h
    cases hr

/-- The prologue is good exactly when `generate` succeeded. -/
theorem prologueError_eq_none {rs : List U} (h : σ.outcome = .ok rs) :
    σ.prologueError = none := by
  rw [prologueError, h]

theorem outcome_of_prologueError {e : String} (h : σ.prologueError = some e) :
    ∃ e', σ.outcome = .error e' ∧ e = "Generate Error: " ++ e' := by
  unfold prologueError at h
  split at h
  · cases h
  · rename_i e' he
    exact ⟨e', he, (Option.some.inj h).symm⟩

theorem outcome_ok_of_prologueError (h : σ.prologueError = none) :
    ∃ rs, σ.outcome = .ok rs := by
  unfold prologueError at h
  split at h
  · rename_i rs hrs
    exact ⟨rs, hrs⟩
  · cases h

/-- Past the prologue, what the writer has copied and the sentinel after it
    are data and at most the sentinel. -/
theorem dataOrSentinel_of_log {written tail rest : List (Item U)} {x : Item U} {e : Option String}
    {n : Nat} (hw : written <+: .prologue e :: σ.sentData n) (ht : tail = [] ∨ tail = [.sentinel])
    (hlog : written ++ tail = x :: rest) : ∀ it ∈ rest, (∃ r, it = .data r) ∨ it = .sentinel := by
  intro it hit
  cases written with
  | nil =>
    -- the log is the tail alone, at most the sentinel
    rcases ht with rfl | rfl
    · cases hlog
    · cases hlog
      cases hit
  | cons w written =>
    rw [List.cons_append, List.cons.injEq] at hlog
    rw [← hlog.2] at hit
    rcases List.mem_append.mp hit with hit | hit
    · -- past the head of the prefix, the items are the responses'
      obtain ⟨-, hw'⟩ := List.cons_prefix_cons.mp hw
      exact Or.inl (data_of_mem_sentData (hw'.subset hit))
    · rcases ht with rfl | rfl
      · cases hit
      · exact Or.inr (List.mem_singleton.mp hit)

end Items

namespace Sound

variable {σ : Setup U} (hσ : σ.Sound)
include hσ

theorem carriesCtrl {c : ControlMessage} {header : List UInt8}
    (h : σ.codecs.ctrl.toVec c = .ok header) : σ.CarriesCtrl (.fromHeader header) c :=
  ⟨rfl, hσ.ctrlNonempty c header h, hσ.ctrl.fromSlice_of_toVec h⟩

theorem carries_sentinel {header : List UInt8} (h : σ.codecs.ctrl.toVec .sentinel = .ok header) :
    σ.Carries (.fromHeader header) .sentinel :=
  hσ.carriesCtrl h

theorem carries_handshake {header : List UInt8}
    (h : σ.codecs.handshake.toVec ⟨σ.subject, .response⟩ = .ok header) :
    σ.Carries (.fromHeader header) .handshake :=
  ⟨rfl, hσ.handshakeNonempty _ header h, hσ.handshake.fromSlice_of_toVec h⟩

theorem carries_prologue {e : Option String} {header : List UInt8}
    (h : σ.codecs.prologue.toVec ⟨e⟩ = .ok header) : σ.Carries (.fromHeader header) (.prologue e) :=
  ⟨rfl, hσ.prologueNonempty _ header h, hσ.prologue.fromSlice_of_toVec h⟩

theorem carries_data {r : U} {data : List UInt8} (h : σ.codecs.resp.toVec r = .ok data) :
    σ.Carries (.fromData data) (.data r) :=
  ⟨rfl, hσ.respNonempty r data h, hσ.resp.fromSlice_of_toVec h⟩

end Sound

/-- The sample's control messages, one byte each. -/
def ctrlBytes (c : ControlMessage) : List UInt8 :=
  [match c with
    | .stop => 0
    | .kill => 1
    | .sentinel => 2]

def ofCtrlBytes : List UInt8 → Option ControlMessage
  | [b] => [ControlMessage.stop, .kill, .sentinel][b.toNat]?
  | _ => none

theorem ofCtrlBytes_ctrlBytes (c : ControlMessage) : ofCtrlBytes (ctrlBytes c) = some c := by
  cases c <;> rfl

/-- The sample's handshake: a byte for the stream's type, then the subject. -/
def handshakeBytes (h : CallHomeHandshake) : List UInt8 :=
  (match h.streamType with
    | .request => 0
    | .response => 1) :: stringBytes h.subject

def ofHandshakeBytes : List UInt8 → Option CallHomeHandshake
  | [] => none
  | b :: rest => do
    let streamType ← [StreamType.request, .response][b.toNat]?
    let subject ← readString rest
    pure ⟨subject, streamType⟩

theorem ofHandshakeBytes_handshakeBytes (h : CallHomeHandshake) :
    ofHandshakeBytes (handshakeBytes h) = some h := by
  obtain ⟨subject, streamType⟩ := h
  cases streamType <;> simp [handshakeBytes, ofHandshakeBytes, readString_stringBytes]

/-- The sample's prologue: a zero when `generate` succeeded, and otherwise a
    one and the error's text. -/
def prologueBytes : ResponseStreamPrologue → List UInt8
  | ⟨none⟩ => [0]
  | ⟨some e⟩ => 1 :: stringBytes e

def ofPrologueBytes : List UInt8 → Option ResponseStreamPrologue
  | [] => none
  | b :: rest =>
    if b = 0 then if rest = [] then some ⟨none⟩ else none
    else (readString rest).map fun e => ⟨some e⟩

theorem ofPrologueBytes_prologueBytes (p : ResponseStreamPrologue) :
    ofPrologueBytes (prologueBytes p) = some p := by
  obtain ⟨_ | e⟩ := p
  · rfl
  · simp [prologueBytes, ofPrologueBytes, readString_stringBytes]

theorem prologueBytes_ne_nil (p : ResponseStreamPrologue) : prologueBytes p ≠ [] := by
  obtain ⟨_ | e⟩ := p <;> exact List.cons_ne_nil _ _

/-- A setup to run statements on: codecs written by hand, which `decide`
    can run, the subject "", and the engine's outcome. -/
def sample (outcome : Except String (List Nat)) : Setup Nat :=
  ⟨⟨.ofReader ctrlBytes ofCtrlBytes, .ofReader handshakeBytes ofHandshakeBytes,
    .ofReader prologueBytes ofPrologueBytes, .unary⟩, "", outcome⟩

theorem sound_sample (outcome : Except String (List Nat)) : (sample outcome).Sound :=
  ⟨Json.roundTrips_ofReader ofCtrlBytes_ctrlBytes,
    Json.writesNonempty_ofReader fun _ => List.cons_ne_nil _ _,
    Json.roundTrips_ofReader ofHandshakeBytes_handshakeBytes,
    Json.writesNonempty_ofReader fun _ => List.cons_ne_nil _ _,
    Json.roundTrips_ofReader ofPrologueBytes_prologueBytes,
    Json.writesNonempty_ofReader prologueBytes_ne_nil, Json.roundTrips_unary,
    Json.writesNonempty_unary⟩

/-- The bytes of the sample's handshake. -/
def sampleHandshake : List UInt8 :=
  handshakeBytes ⟨"", .response⟩

theorem sample_handshake (outcome : Except String (List Nat)) :
    (sample outcome).codecs.handshake.toVec ⟨(sample outcome).subject, .response⟩ =
      .ok sampleHandshake :=
  rfl

end Setup

/-- The body a send to the router's full channel holds. -/
def ReceivePc.waitingBody : ReceivePc → List (List UInt8)
  | .forward _ data => [data]
  | _ => []

theorem ReceivePc.afterControl_ne_idle (msg : ControlMessage) : ReceivePc.afterControl msg ≠ .idle := by
  cases msg <;> exact nofun

theorem ReceivePc.afterControl_ne_control (msg m : ControlMessage) :
    ReceivePc.afterControl msg ≠ .control m := by
  cases msg <;> exact nofun

theorem ReceivePc.waitingBody_afterControl (msg : ControlMessage) :
    (ReceivePc.afterControl msg).waitingBody = [] := by
  cases msg <;> rfl

namespace CallHome

variable {U : Type} (σ : Setup U)

/-- The bodies the receive task has taken off the socket and the router has
    not yet had: those on the channel, then the one a waiting send holds. -/
def forwarded (s : CallHome U) : List (List UInt8) := s.resp ++ s.receive.waitingBody

/-- How the places of the tasks fit together. -/
structure Tasks (s : CallHome U) : Prop where
  generate : s.payload = .generate → s.writer ≠ .done ∧ s.bytes = [] ∧ s.sent = 0
  stream : ∀ rs, s.payload = .stream rs → σ.outcome = .ok rs
  sent_le : ∀ rs, σ.outcome = .ok rs → s.sent ≤ rs.length
  writer_done : s.writer = .done → s.bytes = []
  registered : s.server = .handshake → s.registered = true
  early : s.server = .handshake ∨ s.server = .prologue → s.provider = none
  served : s.provider = some (.ok ()) ↔ s.receive ≠ .idle
  send_idle : s.send = .idle ↔ s.receive = .idle
  receive_running : s.receive ≠ .idle → s.receive ≠ .done → s.send = .run ∧ s.server = .serve
  control : ∀ msg, s.receive = .control msg → msg ≠ .sentinel
  send_done : s.send = .done → s.receive = .done ∧ s.ctrl = []
  serve : s.server = .serve → s.provider = some (.ok ())
  idle : s.receive = .idle → s.ctrl = [] ∧ s.down = []
  done_served : s.server = .done → s.provider = some (.ok ()) → s.receive = .done ∧ s.send = .done
  done_unserved : s.server = .done → s.provider = none → s.router = .dropped
  provider_error : ∀ e, s.provider = some (.error e) →
    ∃ e', σ.outcome = .error e' ∧ e = "Generate Error: " ++ e'
  router_served : s.router = .stream ∨ s.router = .ended → s.provider = some (.ok ())
  router_ended : s.router = .ended → s.receive = .done ∧ s.resp = []
  router_failed : ∀ err, s.router = .failed err → ∃ e, s.provider = some (.error e) ∧
    err = .connectionFailed e
  dropped : s.router = .dropped → s.resp = []
  wctx : s.wctx.version = 0 → s.wctx = Controller.new
  wctx_served : s.wctx.version ≠ 0 → s.provider = some (.ok ()) ∨ s.server = .done
  fctx : s.fctx.version = 0 → s.fctx = Controller.new
  ctrl : ∀ c ∈ s.ctrl, c ≠ .sentinel
  down : ∀ msg ∈ s.down, ∃ c, c ≠ .sentinel ∧ σ.CarriesCtrl msg c

/-- What holds in a calm run: no control message is sent, the worker's
    context stays live, the server returns only after the writer, and
    `handle_payload` returns only at the end of the stream. -/
structure Quiet (s : CallHome U) : Prop where
  wctx : s.wctx = Controller.new
  ctrl : s.ctrl = []
  down : s.down = []
  server : s.server = .done → s.writer = .done
  payload : s.payload.isDone → ∀ rs, σ.outcome = .ok rs → s.sent = rs.length
  control : ∀ msg, s.receive ≠ .control msg

/-- What the frontend has read once it has the good prologue: the handshake,
    the prologue, data `ds`, and the sentinel `snt` once the receive task has
    returned on it. The data begin with what the router has received, and
    are that and what is forwarded to it (`resps`) while it holds the
    stream. -/
def Served (s : CallHome U) (read : List (Item U)) : Prop :=
  ∃ ds snt resps, read = .handshake :: .prologue none :: (ds.map .data ++ snt) ∧
    (snt = [] ∨ snt = [.sentinel] ∧ s.receive = .done) ∧
    (σ.Calm s → s.receive = .done → snt = [.sentinel]) ∧
    s.forwarded.Forall₂ (fun data r => σ.codecs.resp.fromSlice data = .ok r) resps ∧
    s.received <+: ds ∧ (s.router ≠ .dropped → s.received ++ resps = ds)

/-- The account of the worker's socket: the items `read` by the frontend,
    `unread` on the socket and `queued` in the writer's channel; `written`,
    what the writer has copied from the channel, and `tail`, the sentinel it
    wrote on returning. -/
structure Flow (s : CallHome U) (read unread queued written tail : List (Item U)) : Prop where
  up : s.up.Forall₂ σ.Carries unread
  bytes : s.bytes.Forall₂ σ.Carries queued
  log : read ++ unread = .handshake :: (written ++ tail)
  running : s.writer ≠ .done → written ++ queued = σ.emitted s ∧ tail = []
  exited : s.writer = .done → written <+: σ.emitted s ∧
    (tail = [.sentinel] ∨ tail = [] ∧ s.server = .done)
  closed : s.writer = .done → (s.provider ≠ some (.ok ()) ∧ s.server ≠ .done) ∨ σ.Calm s →
    written = σ.emitted s ∧ tail = [.sentinel] ∧ s.payload.isDone
  handshake : s.server = .handshake → read = []
  prologue : s.server = .prologue → read = [.handshake]
  past : s.server = .serve ∨ s.server = .done → ∃ e rest, read = .handshake :: .prologue e :: rest
  served : s.provider = some (.ok ()) → Served σ s read
  unserved : s.provider ≠ some (.ok ()) → s.received = [] ∧ s.resp = []

/-- The invariant of every reachable state. -/
structure Inv (s : CallHome U) : Prop where
  tasks : Tasks σ s
  quiet : σ.Calm s → Quiet σ s
  flow : ∃ read unread queued written tail, Flow σ s read unread queued written tail

/-- What an action may return from a state of the invariant: never a panic,
    and a state that keeps the invariant if it moves. -/
def Safe (r : Except Abort (Option (CallHome U))) : Prop :=
  ∃ o, r = .ok o ∧ ∀ s', o = some s' → Inv σ s'

/-- Every task has returned, and the router's `generate` has its result. -/
def Finished (s : CallHome U) : Prop :=
  s.payload.isDone ∧ s.writer = .done ∧ s.reader = false ∧ s.server = .done ∧
    (s.router = .ended ∨ (∃ err, s.router = .failed err) ∨ s.router = .dropped)

/-- The actions of the tasks themselves, against a stop, a kill or the
    router's drop, which come from outside. -/
def Action.isTask : Action → Bool
  | .routerDrop => false
  | .stop => false
  | .kill => false
  | _ => true


section Futures

/-- A future of a live context on which nothing has been sent is not
    ready. -/
theorem passFuture_killed_new (made : Option Nat) :
    (passFuture made Controller.new Controller.killed).isReady Controller.new = false := by
  cases made <;> rfl

theorem passFuture_stopped_new (made : Option Nat) :
    (passFuture made Controller.new Controller.stopped).isReady Controller.new = false := by
  cases made <;> rfl

/-- A ready future means something has been sent on the context, given that
    a context with nothing sent is live. -/
theorem version_ne_zero_of_ready {c : Controller} {made : Option Nat} {make : Controller → Waiter}
    (hc : c.version = 0 → c = Controller.new)
    (hnew : (passFuture made Controller.new make).isReady Controller.new = false)
    (h : (passFuture made c make).isReady c = true) : c.version ≠ 0 := by
  intro h0
  rw [hc h0] at h
  rw [hnew] at h
  cases h

end Futures

variable {σ : Setup U} {s s' : CallHome U}

/-- The state `create_response_steam` leaves keeps the invariant. -/
theorem inv_new (hσ : σ.Sound) {hs : List UInt8}
    (hhs : σ.codecs.handshake.toVec ⟨σ.subject, .response⟩ = .ok hs) : Inv σ (new hs) := by
  refine ⟨?_, fun _ => ?_, [], [.handshake], [], [], [], ?_⟩
  · refine ⟨fun _ => ⟨nofun, rfl, rfl⟩, nofun, fun _ _ => Nat.zero_le _, nofun, fun _ => rfl,
      fun _ => rfl, ?_, ⟨fun _ => rfl, fun _ => rfl⟩, fun h => absurd rfl h, nofun, nofun, nofun,
      fun _ => ⟨rfl, rfl⟩, nofun, nofun, nofun, nofun, nofun, nofun, nofun, fun _ => rfl,
      fun h => absurd rfl h, fun _ => rfl, nofun, nofun⟩
    simp only [new, ne_eq, not_true_eq_false, reduceCtorEq]
  · exact ⟨rfl, rfl, rfl, nofun, nofun, nofun⟩
  · refine ⟨.cons (hσ.carries_handshake hhs) .nil, .nil, rfl, fun _ => ⟨rfl, rfl⟩, nofun, nofun,
      fun _ => rfl, nofun, nofun, nofun, fun _ => ⟨rfl, rfl⟩⟩

theorem Safe.none : Safe σ (.ok none) := ⟨Option.none, rfl, fun _ h => nomatch h⟩

theorem Safe.some (h : Inv σ s') : Safe σ (.ok (some s')) :=
  ⟨Option.some s', rfl, fun _ h' => Option.some.inj h' ▸ h⟩

theorem Safe.ne_error {r : Except Abort (Option (CallHome U))} (h : Safe σ r) (p : Abort) :
    r ≠ .error p := by
  obtain ⟨o, rfl, -⟩ := h
  exact nofun

/-- A run is calm or not whatever non-dropped place the router moves to. -/
theorem calm_router_iff (hr : s.router ≠ .dropped) {r : RouterPc} (hr' : r ≠ .dropped) :
    σ.Calm { s with router := r } ↔ σ.Calm s :=
  ⟨fun h => ⟨h.1, hr, h.2.2⟩, fun h => ⟨h.1, hr', h.2.2⟩⟩

section Steps

/-- Stopping or killing the frontend's context moves nothing else. -/
theorem Inv.fctx (hi : Inv σ s) {c : Controller} (hc : c.version ≠ 0) :
    Inv σ { s with fctx := c } := by
  obtain ⟨ht, -, read, unread, queued, written, tail, hf⟩ := hi
  have hcalm : ¬ σ.Calm { s with fctx := c } := fun h => by
    have hnew : c = Controller.new := h.1
    exact hc (by rw [hnew]; rfl)
  refine ⟨{ ht with fctx := fun h => absurd h hc }, fun h => absurd h hcalm, read, unread, queued,
    written, tail, { hf with closed := fun hw hcond => hf.closed hw ?_, served := fun hp => ?_ }⟩
  · rcases hcond with hcond | hcond
    · exact Or.inl hcond
    · exact absurd hcond hcalm
  · obtain ⟨ds, snt, resps, hread, hsnt, -, hresp, hpre, heq⟩ := hf.served hp
    exact ⟨ds, snt, resps, hread, hsnt, fun h => absurd h hcalm, hresp, hpre, heq⟩

/-- The reader's return moves nothing else. -/
theorem Inv.reader (hi : Inv σ s) (b : Bool) : Inv σ { s with reader := b } := by
  obtain ⟨ht, hq, read, unread, queued, written, tail, hf⟩ := hi
  exact ⟨{ ht with }, fun h => { hq h with }, read, unread, queued, written, tail,
    { hf with served := hf.served }⟩

/-- The router's drop: the channel's receiver goes with it. -/
theorem routerDrop_eq (h : s.routerDrop = some s') :
    s.router ≠ .dropped ∧ s' = { s with router := .dropped, resp := [] } := by
  unfold routerDrop at h
  split at h
  · rename_i hr
    exact ⟨by rw [hr]; exact nofun, (Option.some.inj h).symm⟩
  · rename_i hr
    exact ⟨by rw [hr]; exact nofun, (Option.some.inj h).symm⟩
  · cases h

theorem Inv.routerDrop (hi : Inv σ s) (h : s.routerDrop = some s') : Inv σ s' := by
  obtain ⟨hne, rfl⟩ := routerDrop_eq h
  obtain ⟨ht, -, read, unread, queued, written, tail, hf⟩ := hi
  have hcalm : ¬ σ.Calm { s with router := .dropped, resp := [] } := fun hc => hc.2.1 rfl
  refine ⟨{ ht with
      done_unserved := fun _ _ => rfl, router_served := ?_, router_ended := nofun
      router_failed := nofun, dropped := fun _ => rfl },
    fun hc => absurd hc hcalm, read, unread, queued, written, tail,
    { hf with
      closed := fun hw hcond => hf.closed hw ?_, served := fun hp => ?_
      unserved := fun hp => ⟨(hf.unserved hp).1, rfl⟩ }⟩
  · rintro (h | h) <;> cases h
  · rcases hcond with hcond | hcond
    · exact Or.inl hcond
    · exact absurd hcond hcalm
  · -- the bodies on the channel go with the router; a waiting send keeps its own
    obtain ⟨ds, snt, resps, hread, hsnt, -, hresp, hpre, -⟩ := hf.served hp
    have hbody := List.forall₂_drop s.resp.length hresp
    rw [forwarded, List.drop_left] at hbody
    exact ⟨ds, snt, _, hread, hsnt, fun hc => absurd hc hcalm, hbody, hpre, fun h => absurd rfl h⟩

/-- The router's await of the provider, under the invariant: the channel or
    the server's error; the server never drops the sender unused while the
    router waits. -/
theorem Tasks.routerAwait_eq (ht : Tasks σ s) (h : s.routerAwait = some s') :
    (s.provider = some (.ok ()) ∧ s' = { s with router := .stream }) ∨
    ∃ e, s.provider = some (.error e) ∧ s' = { s with router := .failed (.connectionFailed e) } := by
  unfold routerAwait at h
  split at h
  · rename_i hr
    split at h
    · exact Or.inl ⟨‹_›, (Option.some.inj h).symm⟩
    · exact Or.inr ⟨_, ‹_›, (Option.some.inj h).symm⟩
    · rename_i hp
      split at h
      · rename_i hdone
        exact absurd (ht.done_unserved hdone hp) (by rw [hr]; exact nofun)
      · cases h
  · cases h

theorem Inv.routerAwait (hi : Inv σ s) (h : s.routerAwait = some s') : Inv σ s' := by
  obtain ⟨ht, hq, read, unread, queued, written, tail, hf⟩ := hi
  have hr : s.router = .await := by
    unfold CallHome.routerAwait at h
    split at h
    · assumption
    · cases h
  rcases ht.routerAwait_eq h with ⟨hp, rfl⟩ | ⟨e, hp, rfl⟩
  · have hcalm : σ.Calm { s with router := .stream } ↔ σ.Calm s :=
      calm_router_iff (by rw [hr]; exact nofun) nofun
    refine ⟨{ ht with
        done_unserved := fun _ hn => absurd (hp.symm.trans hn) nofun
        router_served := fun _ => hp, router_ended := nofun, router_failed := nofun
        dropped := nofun },
      fun hc => { hq (hcalm.mp hc) with }, read, unread, queued, written, tail,
      { hf with closed := fun hw hcond => hf.closed hw ?_, served := fun hp' => ?_ }⟩
    · exact hcond.imp id hcalm.mp
    · obtain ⟨ds, snt, resps, hread, hsnt, hcalmR, hresp, hpre, heq⟩ := hf.served hp'
      exact ⟨ds, snt, resps, hread, hsnt, fun hc => hcalmR (hcalm.mp hc), hresp, hpre,
        fun _ => heq (by rw [hr]; exact nofun)⟩
  · -- the server sent `generate`'s error; the stream never existed
    have hcalm : ¬ σ.Calm { s with router := .failed (.connectionFailed e) } := fun hc => by
      obtain ⟨e', he', -⟩ := ht.provider_error e hp
      obtain ⟨rs, hrs⟩ := hc.2.2
      rw [he'] at hrs
      cases hrs
    refine ⟨{ ht with
        done_unserved := fun _ hn => absurd (hp.symm.trans hn) nofun
        router_served := fun h => by rcases h with h | h <;> cases h
        router_ended := nofun, dropped := nofun
        router_failed := fun err herr => ⟨e, hp, by cases herr; rfl⟩ },
      fun hc => absurd hc hcalm, read, unread, queued, written, tail,
      { hf with closed := fun hw hcond => hf.closed hw ?_, served := fun hp' => ?_ }⟩
    · rcases hcond with hcond | hcond
      · exact Or.inl hcond
      · exact absurd hcond hcalm
    · rw [hp] at hp'
      cases hp'

/-- The router's stream: the next response parses, since what the receive
    task forwarded came off the socket as data. -/
theorem Inv.routerRecv (hi : Inv σ s) (h : s.routerRecv σ = some s') : Inv σ s' := by
  obtain ⟨ht, hq, read, unread, queued, written, tail, hf⟩ := hi
  unfold CallHome.routerRecv at h
  split at h
  · rename_i hr
    have hp : s.provider = some (.ok ()) := ht.router_served (Or.inl hr)
    have hne : s.router ≠ .dropped := by rw [hr]; exact nofun
    obtain ⟨ds, snt, resps, hread, hsnt, hcalmR, hresp, hpre, heq⟩ := hf.served hp
    split at h
    · rename_i data rest hrest
      rw [forwarded, hrest, List.cons_append] at hresp
      obtain ⟨r', resps', hr', hresp', rfl⟩ := List.forall₂_cons_left_iff.mp hresp
      split at h
      · -- the response moves from the channel to the router
        rename_i r hparse
        cases h
        rw [hparse, Except.ok.injEq] at hr'
        subst hr'
        refine ⟨{ ht with
            router_ended := fun h => absurd (hr.symm.trans h) nofun
            dropped := fun h => absurd (hr.symm.trans h) nofun },
          fun hc => { hq hc with }, read, unread, queued, written, tail,
          { hf with
            served := fun _ => ⟨ds, snt, resps', hread, hsnt, hcalmR, hresp', ⟨resps', ?_⟩, fun _ => ?_⟩
            unserved := fun hp' => absurd hp hp' }⟩
        all_goals rw [List.append_assoc, List.singleton_append]; exact heq hne
      · rename_i e hparse
        rw [hparse] at hr'
        cases hr'
    · split at h
      · -- the receive task has returned and the channel is empty: the stream ends
        rename_i hnil hrecv
        cases h
        have hresps : resps = [] :=
          List.forall₂_nil_left_iff.mp (by rwa [forwarded, hnil, hrecv] at hresp)
        subst hresps
        have hcalm := calm_router_iff (σ := σ) hne (r := .ended) nofun
        refine ⟨{ ht with
            done_unserved := fun _ hn => absurd (hp.symm.trans hn) nofun
            router_served := fun _ => hp, router_ended := fun _ => ⟨hrecv, hnil⟩
            router_failed := nofun, dropped := nofun },
          fun hc => { hq (hcalm.mp hc) with }, read, unread, queued, written, tail,
          { hf with
            closed := fun hw hcond => hf.closed hw (hcond.imp id hcalm.mp)
            served := fun _ => ⟨ds, snt, [], hread, hsnt, fun hc => hcalmR (hcalm.mp hc), hresp,
              hpre, fun _ => heq hne⟩ }⟩
      · cases h
  · cases h

/-- `network_send_handler`: what it writes is a control message other than
    the sentinel, which serializes; it shuts down once the receive task has
    returned. -/
theorem Inv.networkSendHandler (hσ : σ.Sound) (hi : Inv σ s) :
    Safe σ (s.networkSendHandler σ) := by
  obtain ⟨ht, hq, read, unread, queued, written, tail, hf⟩ := hi
  unfold CallHome.networkSendHandler
  split
  · exact .none
  · exact .none
  · rename_i hrun
    have hrecv : s.receive ≠ .idle := fun h => absurd (ht.send_idle.mpr h) (by rw [hrun]; exact nofun)
    split
    · rename_i msg rest hctrl
      have hmsg : msg ≠ .sentinel := ht.ctrl msg (by rw [hctrl]; exact List.mem_cons_self)
      obtain ⟨header, hheader, -⟩ := hσ.ctrl msg
      rw [if_neg hmsg, hheader]
      refine .some ⟨{ ht with
          send_done := fun h => absurd (hrun.symm.trans h) nofun
          idle := fun h => absurd h hrecv
          ctrl := fun c hc => ht.ctrl c (by rw [hctrl]; exact List.mem_cons_of_mem _ hc)
          down := ?_ },
        fun hc => absurd (hq hc).ctrl (by rw [hctrl]; exact nofun), read, unread, queued, written,
        tail, { hf with }⟩
      intro m hm
      rcases List.mem_append.mp hm with hm | hm
      · exact ht.down m hm
      · rw [List.mem_singleton.mp hm]
        exact ⟨msg, hmsg, hσ.carriesCtrl hheader⟩
    · split
      · rename_i hnil hdone
        refine .some ⟨{ ht with
            send_idle := ⟨nofun, fun h => absurd (hdone.symm.trans h) nofun⟩
            receive_running := fun _ h => absurd hdone h
            send_done := fun _ => ⟨hdone, hnil⟩
            done_served := fun hs hp => ⟨(ht.done_served hs hp).1, rfl⟩ },
          fun hc => { hq hc with }, read, unread, queued, written, tail, { hf with }⟩
      · exact .none

/-- `handle_reader` on a message from the server: it carries a stop or a
    kill, never the sentinel, and the reader applies it to the worker's
    context. -/
theorem Inv.readerRecv (hi : Inv σ s) : Safe σ (s.step σ .readerRecv) := by
  obtain ⟨ht, hq, read, unread, queued, written, tail, hf⟩ := hi
  rw [step]
  split
  · rename_i msg rest _ hdown
    obtain ⟨c, hc, hdata, hheader, hparse⟩ := ht.down msg (by rw [hdown]; exact List.mem_cons_self)
    -- a control message on the socket means the send task runs
    have hrecv : s.receive ≠ .idle := fun h => by
      rw [(ht.idle h).2] at hdown
      cases hdown
    have hkeep : ∀ w : Controller, w.version ≠ 0 → Inv σ { s with down := rest, wctx := w } :=
      fun w hw => ⟨{ ht with
          idle := fun h => absurd h hrecv, wctx := fun h => absurd h hw
          wctx_served := fun _ => Or.inl (ht.served.mpr hrecv)
          down := fun m hm => ht.down m (by rw [hdown]; exact List.mem_cons_of_mem _ hm) },
        fun hcalm => absurd (hq hcalm).down (by rw [hdown]; exact nofun), read, unread, queued,
        written, tail, { hf with }⟩
    unfold readerMessage
    rw [TwoPartMessage.header?_of_ne_nil hheader, TwoPartMessage.data?_of_eq_nil hdata]
    dsimp only
    rw [hparse]
    cases c
    · exact .some (hkeep _ (Nat.succ_ne_zero _))
    · exact .some (hkeep _ (Nat.succ_ne_zero _))
    · exact absurd rfl hc
  · exact .none

/-- `send_prologue` from a running writer, with room on the bytes channel:
    the prologue goes on it. -/
theorem sendPrologue_eq (hσ : σ.Sound) (hw : s.writer ≠ .done) (hroom : s.bytes.length < bytesCapacity)
    (e : Option String) :
    ∃ header, σ.codecs.prologue.toVec ⟨e⟩ = .ok header ∧
      sendPrologue σ s e = some { s with bytes := s.bytes ++ [.fromHeader header] } := by
  obtain ⟨header, hheader, -⟩ := hσ.prologue ⟨e⟩
  exact ⟨header, hheader, by simp only [sendPrologue, hheader, if_neg hw, if_pos hroom]⟩

/-- `generate` returns and the prologue is queued: the first item of the
    bytes channel, which was empty. -/
theorem Inv.prologue (hσ : σ.Sound) (hi : Inv σ s) (hgen : s.payload = .generate)
    {header : List UInt8} (hheader : σ.codecs.prologue.toVec ⟨σ.prologueError⟩ = .ok header)
    {p : PayloadPc U} (hp : p ≠ .generate) (hstream : ∀ rs, p = .stream rs → σ.outcome = .ok rs)
    (hdone : p.isDone → ∀ rs, σ.outcome ≠ .ok rs) :
    Inv σ { s with bytes := s.bytes ++ [.fromHeader header], payload := p } := by
  obtain ⟨ht, hq, read, unread, queued, written, tail, hf⟩ := hi
  obtain ⟨hw, hbytes, hsent⟩ := ht.generate hgen
  have hq0 : queued = [] := List.forall₂_nil_left_iff.mp (hbytes ▸ hf.bytes)
  have hw0 : written = [] := by
    have h := (hf.running hw).1
    rwa [Setup.emitted_of_generate hgen, hq0, List.append_nil] at h
  subst hq0 hw0
  refine ⟨{ ht with
      generate := fun h => absurd h hp, stream := hstream, writer_done := fun h => absurd h hw },
    fun hc => { hq hc with payload := fun hd rs hrs => absurd hrs (hdone hd rs) },
    read, unread, [.prologue σ.prologueError], [], tail,
    { hf with
      bytes := by rw [hbytes]; exact .cons (hσ.carries_prologue hheader) .nil
      running := fun _ => ⟨?_, (hf.running hw).2⟩
      exited := fun h => absurd h hw, closed := fun h => absurd h hw }⟩
  rw [Setup.emitted_of_ne_generate (s := { s with bytes := s.bytes ++ [.fromHeader header], payload := p })
    hp, hsent, Setup.sentData_zero]
  rfl

/-- `handle_payload` returning, once it has sent its prologue, keeps the
    account of the socket: what it has sent stays what it has sent. -/
theorem Flow.toDone {read unread queued written tail : List (Item U)}
    (hf : Flow σ s read unread queued written tail) (hp : s.payload ≠ .generate) (w : Controller) :
    Flow σ { s with wctx := w, payload := .done } read unread queued written tail := by
  have hem : σ.emitted { s with wctx := w, payload := .done } = σ.emitted s := by
    rw [Setup.emitted_of_ne_generate hp, Setup.emitted_of_ne_generate (s := { s with wctx := w, payload := .done })
      nofun]
  refine { hf with
    running := fun hw => by rw [hem]; exact hf.running hw
    exited := fun hw => by rw [hem]; exact hf.exited hw
    closed := fun hw hcond => ?_ }
  obtain ⟨hwritten, htail, -⟩ := hf.closed hw hcond
  exact ⟨hwritten.trans hem.symm, htail, rfl⟩

/-- The stream is exhausted: every response has been sent. -/
theorem Inv.endStream (hi : Inv σ s) {rs : List U} (hstream : s.payload = .stream rs)
    (hnone : rs[s.sent]? = none) : Inv σ { s with payload := .done } := by
  obtain ⟨ht, hq, read, unread, queued, written, tail, hf⟩ := hi
  have hrs := ht.stream rs hstream
  refine ⟨{ ht with generate := nofun, stream := nofun },
    fun hc => { hq hc with payload := fun _ rs' hrs' => ?_ }, read, unread, queued, written, tail,
    hf.toDone (by rw [hstream]; exact nofun) s.wctx⟩
  rw [hrs, Except.ok.injEq] at hrs'
  subst hrs'
  exact le_antisymm (ht.sent_le rs hrs) (List.getElem?_eq_none_iff.mp hnone)

/-- A response finds the writer returned: `handle_payload` stops the
    worker's context and returns. The writer's return was already visible:
    it returns early only on a kill, a stop or a failed write, and each of
    those needs the server served or gone. -/
theorem Inv.cutStream (hi : Inv σ s) {rs : List U} (hstream : s.payload = .stream rs)
    (hw : s.writer = .done) : Inv σ { s with wctx := s.wctx.stopGenerating, payload := .done } := by
  obtain ⟨ht, hq, read, unread, queued, written, tail, hf⟩ := hi
  have hcut : ¬ ((s.provider ≠ some (.ok ()) ∧ s.server ≠ .done) ∨ σ.Calm s) := fun hcond =>
    absurd (hf.closed hw hcond).2.2 (by rw [hstream]; exact Bool.false_ne_true)
  refine ⟨{ ht with
      generate := nofun, stream := nofun, wctx := fun h => absurd h (Nat.succ_ne_zero _)
      wctx_served := fun _ => ?_ },
    fun hc => absurd (Or.inr hc) hcut, read, unread, queued, written, tail,
    hf.toDone (by rw [hstream]; exact nofun) _⟩
  by_cases hp : s.provider = some (.ok ())
  · exact Or.inl hp
  · exact Or.inr (by_contra fun hs => hcut (Or.inl ⟨hp, hs⟩))

/-- A response goes on the bytes channel: the next item of the stream. -/
theorem Inv.sendResponse (hσ : σ.Sound) (hi : Inv σ s) {rs : List U}
    (hstream : s.payload = .stream rs) {r : U} (hr : rs[s.sent]? = some r) {data : List UInt8}
    (hdata : σ.codecs.resp.toVec r = .ok data) (hw : s.writer ≠ .done) :
    Inv σ { s with bytes := s.bytes ++ [.fromData data], sent := s.sent + 1 } := by
  obtain ⟨ht, hq, read, unread, queued, written, tail, hf⟩ := hi
  have hrs := ht.stream rs hstream
  have hnd : s.payload.isDone = false := by rw [hstream]; rfl
  have hem : σ.emitted { s with bytes := s.bytes ++ [.fromData data], sent := s.sent + 1 } =
      σ.emitted s ++ [.data r] := by
    simp only [Setup.emitted, hstream, Setup.sentData_succ hrs hr, List.cons_append]
  refine ⟨{ ht with
      generate := fun h => absurd (hstream.symm.trans h) nofun
      sent_le := fun rs' hrs' => ?_, writer_done := fun h => absurd h hw },
    fun hc => { hq hc with payload := fun hd => absurd hd (Bool.eq_false_iff.mp hnd) },
    read, unread, queued ++ [.data r], written, tail,
    { hf with
      bytes := List.rel_append hf.bytes (.cons (hσ.carries_data hdata) .nil)
      running := fun _ => ⟨by rw [hem, ← (hf.running hw).1, List.append_assoc], (hf.running hw).2⟩
      exited := fun h => absurd h hw, closed := fun h => absurd h hw }⟩
  rw [hrs, Except.ok.injEq] at hrs'
  subst hrs'
  exact (List.getElem?_eq_some_iff.mp hr).1

/-- `handle_payload` never panics: every response serializes. -/
theorem Inv.handlePayload (hσ : σ.Sound) (hi : Inv σ s) : Safe σ (s.handlePayload σ) := by
  unfold CallHome.handlePayload
  split
  · -- `generate`, and the prologue with its result
    rename_i hgen
    obtain ⟨hw, hbytes, -⟩ := hi.tasks.generate hgen
    -- the bytes channel is still empty
    have hroom : s.bytes.length < bytesCapacity := by rw [hbytes]; decide
    split
    · rename_i rs hrs
      obtain ⟨header, hheader, hsend⟩ := sendPrologue_eq hσ hw hroom none
      rw [hsend, Option.map_some]
      exact .some (hi.prologue hσ hgen (by rwa [Setup.prologueError_eq_none hrs]) nofun
        (fun _ h => by cases h; exact hrs) nofun)
    · rename_i e he
      obtain ⟨header, hheader, hsend⟩ := sendPrologue_eq hσ hw hroom (some ("Generate Error: " ++ e))
      rw [hsend, Option.map_some]
      exact .some (hi.prologue hσ hgen (by rwa [Setup.prologueError, he]) nofun nofun
        (fun _ rs h => by rw [he] at h; cases h))
  · rename_i rs hstream
    split
    · exact .some (hi.endStream hstream ‹_›)
    · rename_i r hr
      obtain ⟨data, hdata, -⟩ := hσ.resp r
      rw [hdata]
      dsimp only
      by_cases hw : s.writer = .done
      · rw [if_pos hw]
        exact .some (hi.cutStream hstream hw)
      · rw [if_neg hw]
        split
        · exact .some (hi.sendResponse hσ hstream hr hdata hw)
        · exact .none
  · exact .none

/-- A good prologue sent means the server is past the prologue. -/
theorem Tasks.past_of_served (ht : Tasks σ s) (hp : s.provider = some (.ok ())) :
    s.server = .serve ∨ s.server = .done := by
  cases h : s.server with
  | handshake => rw [ht.early (Or.inl h)] at hp; cases hp
  | prologue => rw [ht.early (Or.inr h)] at hp; cases hp
  | serve => exact Or.inl rfl
  | done => exact Or.inr rfl

/-- Once the server serves or has returned, it has read a prologue, so
    `generate` has returned. -/
theorem Flow.ne_generate {read unread queued written tail : List (Item U)}
    (hf : Flow σ s read unread queued written tail) (hserver : s.server = .serve ∨ s.server = .done) :
    s.payload ≠ .generate := by
  intro hgen
  obtain ⟨e, rest, hread⟩ := hf.past hserver
  have hlog := hf.log
  rw [hread] at hlog
  by_cases hw : s.writer = .done
  · -- nothing was emitted, so the socket holds at most the sentinel
    obtain ⟨hpre, htail⟩ := hf.exited hw
    rw [Setup.emitted_of_generate hgen, List.prefix_nil] at hpre
    rw [hpre, List.nil_append] at hlog
    rcases htail with htail | ⟨htail, -⟩ <;> rw [htail] at hlog <;> simp at hlog
  · obtain ⟨hrun, htail⟩ := hf.running hw
    rw [Setup.emitted_of_generate hgen, List.append_eq_nil_iff] at hrun
    rw [hrun.1, htail] at hlog
    simp at hlog

/-- The writer's write fails, the server having gone: it returns with what
    it had queued, and writes nothing more. -/
theorem Inv.exitFailed (hi : Inv σ s) (hw : s.writer ≠ .done) (hserver : s.server = .done) :
    Inv σ { s with bytes := [], writer := .done } := by
  obtain ⟨ht, hq, read, unread, queued, written, tail, hf⟩ := hi
  -- a calm run's server returns after the writer
  have hcalm : ¬ σ.Calm s := fun hc => hw ((hq hc).server hserver)
  obtain ⟨hrun, htail⟩ := hf.running hw
  refine ⟨{ ht with
      generate := fun h => absurd h (hf.ne_generate (Or.inr hserver)), writer_done := fun _ => rfl },
    fun hc => absurd hc hcalm, read, unread, [], written, tail,
    { hf with
      bytes := .nil, running := fun h => absurd rfl h
      exited := fun _ => ⟨⟨queued, hrun⟩, Or.inr ⟨htail, hserver⟩⟩
      closed := fun _ hcond => ?_ }⟩
  rcases hcond with ⟨-, hs⟩ | hc
  · exact absurd hserver hs
  · exact absurd hc hcalm

/-- The writer returns on a kill or a stop of the worker's context, or once
    `handle_payload` has dropped its sender and the channel is drained, and
    writes the sentinel. On a kill or stop the queued items are lost. -/
theorem Inv.exitSentinel (hσ : σ.Sound) (hi : Inv σ s) (hw : s.writer ≠ .done)
    (hcause : s.wctx.version ≠ 0 ∨ s.payload.isDone ∧ s.bytes = []) {header : List UInt8}
    (hheader : σ.codecs.ctrl.toVec .sentinel = .ok header) :
    Inv σ { s with bytes := [], writer := .done, up := s.up ++ [.fromHeader header] } := by
  obtain ⟨ht, hq, read, unread, queued, written, tail, hf⟩ := hi
  obtain ⟨hrun, htail⟩ := hf.running hw
  subst htail
  have hgen : s.payload ≠ .generate := by
    rcases hcause with hv | ⟨hd, -⟩
    · rcases ht.wctx_served hv with hp | hs
      · exact hf.ne_generate (ht.past_of_served hp)
      · exact hf.ne_generate (Or.inr hs)
    · intro h
      rw [h] at hd
      cases hd
  refine ⟨{ ht with generate := fun h => absurd h hgen, writer_done := fun _ => rfl },
    fun hc => { hq hc with server := fun _ => rfl }, read, unread ++ [.sentinel], [], written,
    [.sentinel],
    { hf with
      up := List.rel_append hf.up (.cons (hσ.carries_sentinel hheader) .nil)
      bytes := .nil
      log := by rw [← List.append_assoc, hf.log, List.append_nil, List.cons_append]
      running := fun h => absurd rfl h
      exited := fun _ => ⟨⟨queued, hrun⟩, Or.inl rfl⟩
      closed := fun _ hcond => ?_ }⟩
  rcases hcause with hv | ⟨hd, hbytes⟩
  · -- a kill or stop is only sent once the server serves, and never in a calm run
    exfalso
    rcases hcond with ⟨hp, hs⟩ | hc
    · exact (ht.wctx_served hv).elim hp hs
    · exact hv (by rw [(hq hc).wctx]; rfl)
  · have hq0 : queued = [] := List.forall₂_nil_left_iff.mp (hbytes ▸ hf.bytes)
    rw [hq0, List.append_nil] at hrun
    exact ⟨hrun, rfl, hd⟩

/-- The writer copies the head of the bytes channel onto the socket. -/
theorem Inv.forward (hi : Inv σ s) (hw : s.writer ≠ .done) {msg : TwoPartMessage}
    {rest : List TwoPartMessage} (hbytes : s.bytes = msg :: rest) :
    Inv σ { s with bytes := rest, up := s.up ++ [msg], writer := .select none } := by
  obtain ⟨ht, hq, read, unread, queued, written, tail, hf⟩ := hi
  obtain ⟨hrun, htail⟩ := hf.running hw
  subst htail
  have hcarry := hf.bytes
  rw [hbytes] at hcarry
  obtain ⟨it, queued', hit, hcarry', rfl⟩ := List.forall₂_cons_left_iff.mp hcarry
  refine ⟨{ ht with
      generate := fun h => absurd (ht.generate h).2.1 (by rw [hbytes]; exact nofun)
      writer_done := nofun },
    fun hc => { hq hc with server := fun h => absurd ((hq hc).server h) hw }, read,
    unread ++ [it], queued', written ++ [it], [],
    { hf with
      up := List.rel_append hf.up (.cons hit .nil), bytes := hcarry'
      log := by rw [← List.append_assoc, hf.log, List.append_nil, List.append_nil, List.cons_append]
      running := fun _ => ⟨by rw [List.append_assoc, List.singleton_append]; exact hrun, rfl⟩
      exited := nofun, closed := nofun }⟩

/-- The writer's `select!` makes its `killed()` future. -/
theorem Inv.writerSelect (hi : Inv σ s) (hw : s.writer ≠ .done) (made : Option Nat) :
    Inv σ { s with writer := .select made } := by
  obtain ⟨ht, hq, read, unread, queued, written, tail, hf⟩ := hi
  exact ⟨{ ht with generate := fun h => ⟨nofun, (ht.generate h).2⟩, writer_done := nofun },
    fun hc => { hq hc with server := fun h => absurd ((hq hc).server h) hw }, read, unread, queued,
    written, tail,
    { hf with running := fun _ => hf.running hw, exited := nofun, closed := nofun }⟩

/-- The writer's return: with the sentinel, unless the write fails. -/
theorem Inv.writerExit (hσ : σ.Sound) (hi : Inv σ s) (hw : s.writer ≠ .done)
    (hcause : s.wctx.version ≠ 0 ∨ s.payload.isDone ∧ s.bytes = []) (fails : Bool) :
    Safe σ (writerExit σ s fails) := by
  obtain ⟨header, hheader, -⟩ := hσ.ctrl .sentinel
  unfold CallHome.writerExit
  rw [hheader]
  dsimp only
  split
  · rename_i hfail
    rw [Bool.and_eq_true, decide_eq_true_eq] at hfail
    exact .some (hi.exitFailed hw hfail.1)
  · exact .some (hi.exitSentinel hσ hw hcause hheader)

/-- `handle_writer` never panics. -/
theorem Inv.handleWriter (hσ : σ.Sound) (hi : Inv σ s) (fails : Bool) :
    Safe σ (s.handleWriter σ fails) := by
  unfold CallHome.handleWriter
  split
  · exact .none
  · rename_i made hsel
    have hw : s.writer ≠ .done := by rw [hsel]; exact nofun
    split
    · -- `killed()` is ready: something was sent on the worker's context
      rename_i hready
      exact hi.writerExit hσ hw
        (Or.inl (version_ne_zero_of_ready hi.tasks.wctx (passFuture_killed_new made) hready)) fails
    · split
      · rename_i msg rest hbytes
        split
        · -- the write fails
          rename_i hfail
          obtain ⟨header, hheader, -⟩ := hσ.ctrl .sentinel
          unfold CallHome.writerExit
          rw [hheader]
          dsimp only
          rw [if_pos hfail]
          rw [Bool.and_eq_true, decide_eq_true_eq] at hfail
          exact .some (hi.exitFailed hw hfail.1)
        · exact .some (hi.forward hw hbytes)
      · rename_i hbytes
        split
        · exact hi.writerExit hσ hw (Or.inr ⟨‹_›, hbytes⟩) fails
        · split
          · exact .some (hi.writerSelect hw _)
          · exact .none

/-- What the writer has copied is a prefix of what was sent, followed by at
    most the sentinel. -/
theorem Flow.written_prefix {read unread queued written tail : List (Item U)}
    (hf : Flow σ s read unread queued written tail) :
    written <+: σ.emitted s ∧ (tail = [] ∨ tail = [.sentinel]) := by
  by_cases hw : s.writer = .done
  · obtain ⟨hpre, htail⟩ := hf.exited hw
    exact ⟨hpre, htail.elim Or.inr fun h => Or.inl h.1⟩
  · obtain ⟨hrun, htail⟩ := hf.running hw
    exact ⟨⟨queued, hrun⟩, Or.inl htail⟩

/-- The frontend has read the sentinel only once the writer has returned. -/
theorem Flow.writer_done_of_sentinel {read unread queued written tail : List (Item U)}
    (hf : Flow σ s read unread queued written tail) (h : Item.sentinel ∈ read) :
    s.writer = .done := by
  by_contra hw
  obtain ⟨hrun, htail⟩ := hf.running hw
  have hmem : Item.sentinel ∈ read ++ unread := List.mem_append_left _ h
  rw [hf.log, htail, List.append_nil] at hmem
  rcases List.mem_cons.mp hmem with h | h
  · cases h
  · exact Setup.sentinel_not_mem_emitted (by rw [← hrun]; exact List.mem_append_left _ h)

/-- While the server waits for the prologue, a writer that has returned has
    written all that was sent and then the sentinel: it returns early only
    on a kill, which needs the server served or gone. -/
theorem Flow.closed_of_prologue {read unread queued written tail : List (Item U)} (ht : Tasks σ s)
    (hf : Flow σ s read unread queued written tail) (hpro : s.server = .prologue)
    (hw : s.writer = .done) :
    written = σ.emitted s ∧ tail = [.sentinel] ∧ s.payload.isDone = true :=
  hf.closed hw (Or.inl ⟨by rw [ht.early (Or.inr hpro)]; exact nofun, by rw [hpro]; exact nofun⟩)

/-- At the prologue, the head of the socket is the prologue `handle_payload`
    sent: the writer copies it first, and returns before it only on a kill,
    which needs the server served or gone. -/
theorem Flow.unread_prologue {read unread queued written tail : List (Item U)} (ht : Tasks σ s)
    (hf : Flow σ s read unread queued written tail) (hpro : s.server = .prologue)
    (hne : unread ≠ []) : ∃ rest, unread = .prologue σ.prologueError :: rest := by
  have hlog := hf.log
  rw [hf.prologue hpro, List.singleton_append, List.cons.injEq] at hlog
  rw [hlog.2]
  have hgen : s.payload ≠ .generate := fun hgen => by
    obtain ⟨hpre, htail⟩ := hf.written_prefix
    rw [Setup.emitted_of_generate hgen, List.prefix_nil] at hpre
    -- nothing was sent, so the writer has not copied anything
    rcases htail with htail | htail
    · exact hne (by rw [hlog.2, hpre, htail]; rfl)
    · have hw : s.writer = .done := by
        by_contra hw
        rw [(hf.running hw).2] at htail
        cases htail
      have hd := (hf.closed_of_prologue ht hpro hw).2.2
      rw [hgen] at hd
      cases hd
  by_cases hw : s.writer = .done
  · obtain ⟨hwritten, htail, -⟩ := hf.closed_of_prologue ht hpro hw
    rw [hwritten, Setup.emitted_of_ne_generate hgen]
    exact ⟨_, rfl⟩
  · obtain ⟨hrun, htail⟩ := hf.running hw
    rw [Setup.emitted_of_ne_generate hgen] at hrun
    rw [htail, List.append_nil]
    cases written with
    | nil => exact absurd (by rw [hlog.2, htail]; rfl) hne
    | cons w written =>
      rw [List.cons_append, List.cons.injEq] at hrun
      rw [hrun.1]
      exact ⟨_, rfl⟩

/-- The server reads the handshake, which names the registered subject. -/
theorem Inv.readHandshake {read unread queued written tail : List (Item U)} (ht : Tasks σ s)
    (hq : σ.Calm s → Quiet σ s) (hf : Flow σ s read unread queued written tail)
    (hsh : s.server = .handshake) {rest : List TwoPartMessage}
    (hcarry : rest.Forall₂ σ.Carries (written ++ tail)) :
    Inv σ { s with up := rest, registered := false, server := .prologue } := by
  have hread := hf.handshake hsh
  have hnone : s.provider = none := ht.early (Or.inl hsh)
  have hsd : s.server ≠ .done := by rw [hsh]; exact nofun
  refine ⟨{ ht with
      registered := nofun, early := fun _ => hnone
      receive_running := fun h h' => absurd (ht.receive_running h h').2 (by rw [hsh]; exact nofun)
      serve := nofun, done_served := nofun, done_unserved := nofun
      wctx_served := fun hv => Or.inl ((ht.wctx_served hv).resolve_right hsd) },
    fun hc => { hq hc with server := nofun }, [.handshake], written ++ tail, queued, written, tail,
    { hf with
      up := hcarry, log := rfl
      exited := fun hw => ⟨(hf.exited hw).1, Or.inl ((hf.exited hw).2.resolve_right
        fun h => hsd h.2)⟩
      closed := fun hw hcond => hf.closed hw (hcond.imp (fun h => ⟨h.1, hsd⟩) id)
      handshake := nofun, prologue := fun _ => rfl, past := nofun
      served := fun hp => absurd (hnone.symm.trans hp) nofun }⟩

/-- The server reads an error prologue: the router gets `generate`'s error,
    and the server returns. -/
theorem Inv.prologueFailed {read unread unread' queued written tail : List (Item U)}
    (ht : Tasks σ s) (hf : Flow σ s read unread queued written tail) (hpro : s.server = .prologue)
    {e : String} (he : σ.prologueError = some e) (hunread : unread = .prologue (some e) :: unread')
    {rest : List TwoPartMessage} (hcarry : rest.Forall₂ σ.Carries unread') :
    Inv σ { s with up := rest, provider := some (.error e), server := .done } := by
  have hread := hf.prologue hpro
  have hnone : s.provider = none := ht.early (Or.inr hpro)
  have hidle : s.receive = .idle := not_not.mp fun h => absurd (ht.served.mpr h) (by rw [hnone]; exact nofun)
  obtain ⟨e', he', rfl⟩ := Setup.outcome_of_prologueError he
  refine ⟨{ ht with
      registered := nofun, early := nofun
      served := ⟨nofun, fun h => absurd hidle h⟩
      receive_running := fun h => absurd hidle h
      serve := nofun, done_served := fun _ h => absurd h nofun, done_unserved := fun _ h => absurd h nofun
      provider_error := fun _ h => ⟨e', he', by cases h; rfl⟩
      router_served := fun h => absurd (ht.router_served h) (by rw [hnone]; exact nofun)
      router_failed := fun err h => absurd (ht.router_failed err h) (by rw [hnone]; simp)
      wctx_served := fun _ => Or.inr rfl },
    fun hc => ?_, [.handshake, .prologue (some ("Generate Error: " ++ e'))], unread', queued,
    written, tail,
    { hf with
      up := hcarry
      log := by rw [← hf.log, hread, hunread]; rfl
      exited := fun hw => ⟨(hf.exited hw).1, (hf.exited hw).2.imp id fun h => ⟨h.1, rfl⟩⟩
      closed := fun hw hcond => ?_
      handshake := nofun, prologue := nofun, past := fun _ => ⟨_, [], rfl⟩
      served := fun h => absurd h nofun
      unserved := fun _ => hf.unserved (by rw [hnone]; exact nofun) }⟩
  · obtain ⟨rs, hrs⟩ := hc.2.2
    rw [hrs] at he'
    cases he'
  · rcases hcond with ⟨-, h⟩ | hc
    · exact absurd rfl h
    · obtain ⟨rs, hrs⟩ := hc.2.2
      rw [hrs] at he'
      cases he'

/-- The server reads a good prologue but the router has dropped the
    provider: the send fails and the server returns. -/
theorem Inv.prologueDropped {read unread unread' queued written tail : List (Item U)}
    (ht : Tasks σ s) (hf : Flow σ s read unread queued written tail) (hpro : s.server = .prologue)
    (hunread : unread = .prologue none :: unread') {rest : List TwoPartMessage}
    (hcarry : rest.Forall₂ σ.Carries unread') (hdrop : s.router = .dropped) :
    Inv σ { s with up := rest, server := .done } := by
  have hread := hf.prologue hpro
  have hnone : s.provider = none := ht.early (Or.inr hpro)
  have hidle : s.receive = .idle := not_not.mp fun h => absurd (ht.served.mpr h) (by rw [hnone]; exact nofun)
  have hcalm : ¬ σ.Calm s := fun hc => hc.2.1 hdrop
  refine ⟨{ ht with
      registered := nofun, early := nofun
      receive_running := fun h => absurd hidle h
      serve := nofun, done_served := fun _ h => absurd (hnone.symm.trans h) nofun
      done_unserved := fun _ _ => hdrop, wctx_served := fun _ => Or.inr rfl },
    fun hc => absurd hc hcalm, [.handshake, .prologue none], unread', queued, written, tail,
    { hf with
      up := hcarry
      log := by rw [← hf.log, hread, hunread]; rfl
      exited := fun hw => ⟨(hf.exited hw).1, (hf.exited hw).2.imp id fun h => ⟨h.1, rfl⟩⟩
      closed := fun hw hcond => ?_
      handshake := nofun, prologue := nofun, past := fun _ => ⟨_, [], rfl⟩
      served := fun h => absurd (hnone.symm.trans h) nofun }⟩
  rcases hcond with ⟨-, h⟩ | hc
  · exact absurd rfl h
  · exact absurd hc hcalm

/-- The server reads a good prologue: the router gets its channel and the
    receive and send tasks start, nothing read yet. -/
theorem Inv.prologueServe {read unread unread' queued written tail : List (Item U)}
    (ht : Tasks σ s) (hq : σ.Calm s → Quiet σ s) (hf : Flow σ s read unread queued written tail)
    (hpro : s.server = .prologue) (hunread : unread = .prologue none :: unread')
    {rest : List TwoPartMessage} (hcarry : rest.Forall₂ σ.Carries unread') :
    Inv σ (serverServe { s with up := rest }) := by
  have hread := hf.prologue hpro
  have hnone : s.provider = none := ht.early (Or.inr hpro)
  have hsd : s.server ≠ .done := by rw [hpro]; exact nofun
  have hidle : s.receive = .idle := not_not.mp fun h => absurd (ht.served.mpr h) (by rw [hnone]; exact nofun)
  obtain ⟨hctrl, hdown⟩ := ht.idle hidle
  obtain ⟨hreceived, hresp⟩ := hf.unserved (by rw [hnone]; exact nofun)
  refine ⟨{ ht with
      registered := nofun, early := nofun, served := ⟨fun _ => nofun, fun _ => rfl⟩
      send_idle := ⟨nofun, nofun⟩, receive_running := fun _ _ => ⟨rfl, rfl⟩, control := nofun
      send_done := nofun
      serve := fun _ => rfl, idle := nofun, done_served := nofun, done_unserved := nofun
      provider_error := fun _ h => absurd h nofun, router_served := fun _ => rfl
      router_ended := fun h => absurd (ht.router_served (Or.inr h)) (by rw [hnone]; exact nofun)
      router_failed := fun err h => absurd (ht.router_failed err h) (by rw [hnone]; simp)
      wctx_served := fun _ => Or.inl rfl },
    fun hc => { hq hc with server := nofun, control := nofun }, [.handshake, .prologue none], unread', queued,
    written, tail,
    { hf with
      up := hcarry
      log := by rw [← hf.log, hread, hunread]; rfl
      exited := fun hw => ⟨(hf.exited hw).1, Or.inl ((hf.exited hw).2.resolve_right
        fun h => hsd h.2)⟩
      closed := fun hw hcond => hf.closed hw (Or.inr (hcond.resolve_left fun h => h.1 rfl))
      handshake := nofun, prologue := nofun, past := fun _ => ⟨_, [], rfl⟩
      served := fun _ => ⟨[], [], [], rfl, Or.inl rfl, fun _ h => absurd h nofun,
        by rw [hresp]; exact .nil, by rw [hreceived]; exact List.prefix_rfl,
        fun _ => by rw [hreceived]; rfl⟩
      unserved := fun h => absurd rfl h }⟩

/-- The server joins the receive and send tasks once both have returned.
    In a calm run the receive task returned on the sentinel, which the
    writer writes last. -/
theorem Inv.join (hi : Inv σ s) (hserve : s.server = .serve) (hrecv : s.receive = .done)
    (hsend : s.send = .done) : Inv σ { s with server := .done } := by
  obtain ⟨ht, hq, read, unread, queued, written, tail, hf⟩ := hi
  have hp := ht.serve hserve
  refine ⟨{ ht with
      registered := nofun, early := fun h => by rcases h with h | h <;> cases h
      receive_running := fun _ h => absurd hrecv h
      serve := nofun, done_served := fun _ _ => ⟨hrecv, hsend⟩
      done_unserved := fun _ h => absurd (hp.symm.trans h) nofun, wctx_served := fun _ => Or.inr rfl },
    fun hc => { hq hc with server := fun _ => ?_ }, read, unread, queued, written, tail,
    { hf with
      exited := fun hw => ⟨(hf.exited hw).1, (hf.exited hw).2.imp id fun h => ⟨h.1, rfl⟩⟩
      closed := fun hw hcond => hf.closed hw (Or.inr (hcond.resolve_left fun h => h.1 hp))
      handshake := nofun, prologue := nofun, past := fun _ => hf.past (Or.inl hserve) }⟩
  -- the receive task returned on the sentinel
  obtain ⟨ds, snt, resps, hread, -, hcalm, -⟩ := hf.served hp
  apply hf.writer_done_of_sentinel
  rw [hread, hcalm hc hrecv]
  simp

/-- `process_stream` never panics: the handshake names the registered
    subject, and the message after it is the header-only prologue. -/
theorem Inv.processStream (hi : Inv σ s) : Safe σ (s.processStream σ) := by
  unfold CallHome.processStream
  split
  · rename_i hsh
    split
    · exact .none
    · -- the head of the socket is the handshake
      rename_i msg rest hup
      obtain ⟨ht, hq, read, unread, queued, written, tail, hf⟩ := hi
      have hlog := hf.log
      rw [hf.handshake hsh, List.nil_append] at hlog
      have hcarry := hf.up
      rw [hup, hlog] at hcarry
      obtain ⟨⟨hd, hh, hparse⟩, hcarry'⟩ := List.forall₂_cons.mp hcarry
      rw [TwoPartMessage.header?_of_ne_nil hh]
      dsimp only
      rw [hparse]
      dsimp only
      rw [if_pos (by rw [ht.registered hsh, beq_self_eq_true]; rfl)]
      exact .some (Inv.readHandshake ht hq hf hsh hcarry')
  · rename_i hpro
    split
    · exact .none
    · -- the head of the socket is the prologue
      rename_i msg rest hup
      obtain ⟨ht, hq, read, unread, queued, written, tail, hf⟩ := hi
      have hcarry := hf.up
      rw [hup] at hcarry
      obtain ⟨it, unread', hit, hcarry', hunread⟩ := List.forall₂_cons_left_iff.mp hcarry
      obtain ⟨rest', hhead⟩ := hf.unread_prologue ht hpro (by rw [hunread]; exact nofun)
      rw [hunread, List.cons.injEq] at hhead
      obtain ⟨rfl, -⟩ := hhead
      obtain ⟨hd, hh, hparse⟩ := hit
      rw [TwoPartMessage.intoMessageType_of_header hh hd]
      dsimp only
      rw [hparse]
      dsimp only
      cases hpe : σ.prologueError with
      | some e =>
        rw [hpe] at hunread
        exact .some (Inv.prologueFailed ht hf hpro hpe hunread hcarry')
      | none =>
        rw [hpe] at hunread
        dsimp only
        split
        · exact .some (Inv.prologueDropped ht hf hpro hunread hcarry' ‹_›)
        · exact .some (Inv.prologueServe ht hq hf hpro hunread hcarry')
  · rename_i hserve
    split
    · rename_i hjoin
      rw [Bool.and_eq_true, decide_eq_true_eq, decide_eq_true_eq] at hjoin
      exact .some (hi.join hserve hjoin.1 hjoin.2)
    · exact .none
  · exact .none

/-- While the receive task runs, the frontend has read the handshake, the
    good prologue and data, which the router has or are forwarded to it. -/
theorem Flow.served_running {read unread queued written tail : List (Item U)}
    (hf : Flow σ s read unread queued written tail) (hp : s.provider = some (.ok ()))
    (hdone : s.receive ≠ .done) :
    ∃ ds resps, read = .handshake :: .prologue none :: ds.map .data ∧
      s.forwarded.Forall₂ (fun data r => σ.codecs.resp.fromSlice data = .ok r) resps ∧
      s.received <+: ds ∧ (s.router ≠ .dropped → s.received ++ resps = ds) := by
  obtain ⟨ds, snt, resps, hread, hsnt, -, hresp, hpre, heq⟩ := hf.served hp
  have hsnt0 : snt = [] := hsnt.resolve_right fun h => hdone h.2
  rw [hsnt0, List.append_nil] at hread
  exact ⟨ds, resps, hread, hresp, hpre, heq⟩

/-- While the receive task runs, what is left on the socket is data and at
    most the sentinel. -/
theorem Flow.unread_dataOrSentinel {read unread queued written tail : List (Item U)}
    (ht : Tasks σ s) (hf : Flow σ s read unread queued written tail) {c : Bool} {m : Option Nat}
    (hsel : s.receive = .select c m) : ∀ it ∈ unread, (∃ r, it = .data r) ∨ it = .sentinel := by
  have hdone : s.receive ≠ .done := by rw [hsel]; exact nofun
  obtain ⟨-, hserve⟩ := ht.receive_running (by rw [hsel]; exact nofun) hdone
  obtain ⟨ds, -, hread, -⟩ := hf.served_running (ht.serve hserve) hdone
  obtain ⟨hpre, htail⟩ := hf.written_prefix
  rw [Setup.emitted_of_ne_generate (hf.ne_generate (Or.inl hserve))] at hpre
  have hlog := hf.log
  rw [hread, List.cons_append, List.cons.injEq] at hlog
  intro it hit
  exact Setup.dataOrSentinel_of_log hpre htail hlog.2.symm it (List.mem_append_right _ hit)

/-- The receive task, in its loop, moves on or returns, with `up` left on the
    socket and `resp` on the router's channel: the places of the other
    tasks still fit. -/
theorem Tasks.receive (ht : Tasks σ s) (up : List TwoPartMessage) (hidle : s.receive ≠ .idle)
    (hdone : s.receive ≠ .done) {resp : List (List UInt8)} {next : ReceivePc} (hnext : next ≠ .idle)
    (hctl : ∀ msg, next = .control msg → msg ≠ .sentinel) (hdrop : s.router = .dropped → resp = []) :
    Tasks σ { s with up := up, resp := resp, receive := next } := by
  obtain ⟨hrun, hserve⟩ := ht.receive_running hidle hdone
  exact { ht with
    served := ⟨fun _ => hnext, fun _ => ht.serve hserve⟩
    send_idle := ⟨fun h => absurd (hrun.symm.trans h) nofun, fun h => absurd h hnext⟩
    receive_running := fun _ _ => ⟨hrun, hserve⟩, control := hctl
    send_done := fun h => absurd (hrun.symm.trans h) nofun, idle := fun h => absurd h hnext
    done_served := fun h => absurd (hserve.symm.trans h) nofun
    router_ended := fun h => absurd (ht.router_ended h).1 hdone, dropped := hdrop }

/-- The receive task moves on without reading the socket: what is forwarded
    stays forwarded, unless the router has gone with it. It returns, or waits
    on a control message, only where the run is not calm, as a calm run ends
    on the sentinel. -/
theorem Inv.receiveTo (hi : Inv σ s) (hidle : s.receive ≠ .idle) (hdone : s.receive ≠ .done)
    {resp : List (List UInt8)} {next : ReceivePc} (hnext : next ≠ .idle)
    (hend : next = .done → ¬ σ.Calm s)
    (hctl : ∀ msg, next = .control msg → ¬ σ.Calm s ∧ msg ≠ .sentinel)
    (hfwd : s.router ≠ .dropped → resp ++ next.waitingBody = s.forwarded)
    (hdrop : s.router = .dropped → resp = [] ∧ next.waitingBody = []) :
    Inv σ { s with resp := resp, receive := next } := by
  obtain ⟨ht, hq, read, unread, queued, written, tail, hf⟩ := hi
  have hp := ht.serve (ht.receive_running hidle hdone).2
  obtain ⟨ds, resps, hread, hresp, hpre, heq⟩ := hf.served_running hp hdone
  refine ⟨ht.receive s.up hidle hdone hnext (fun msg h => (hctl msg h).2) (fun h => (hdrop h).1),
    fun hc => { hq hc with control := fun msg h => (hctl msg h).1 hc }, read, unread, queued, written,
    tail, { hf with served := fun _ => ?_, unserved := fun h => absurd hp h }⟩
  by_cases hd : s.router = .dropped
  · -- the router has gone, and what was forwarded with it
    refine ⟨ds, [], [], by rw [hread, List.append_nil], Or.inl rfl, fun hc h => absurd hc (hend h),
      ?_, hpre, fun h => absurd hd h⟩
    show (resp ++ next.waitingBody).Forall₂ _ []
    rw [(hdrop hd).1, (hdrop hd).2]
    exact .nil
  · refine ⟨ds, [], resps, by rw [hread, List.append_nil], Or.inl rfl, fun hc h => absurd hc (hend h),
      ?_, hpre, fun _ => heq hd⟩
    show (resp ++ next.waitingBody).Forall₂ _ resps
    rw [hfwd hd]
    exact hresp

/-- The receive task moves on, the router's channel untouched: the place it
    leaves held no body, or the router has gone. -/
theorem Inv.receiveKeep (hi : Inv σ s) (hidle : s.receive ≠ .idle) (hdone : s.receive ≠ .done)
    (hbody : s.receive.waitingBody = [] ∨ s.router = .dropped) {next : ReceivePc}
    (hnext : next ≠ .idle) (hnb : next.waitingBody = []) (hend : next = .done → ¬ σ.Calm s)
    (hctl : ∀ msg, next = .control msg → ¬ σ.Calm s ∧ msg ≠ .sentinel) :
    Inv σ { s with receive := next } :=
  hi.receiveTo hidle hdone hnext hend hctl (fun hd => by rw [hnb, forwarded, hbody.resolve_right hd])
    fun hd => ⟨hi.tasks.dropped hd, hnb⟩

/-- The receive task queues a control message for the send task, which runs;
    this happens only in a run that is not calm. -/
theorem Inv.pushCtrl (hi : Inv σ s) (hcalm : ¬ σ.Calm s) (hrun : s.send = .run)
    {msg : ControlMessage} (hmsg : msg ≠ .sentinel) : Inv σ { s with ctrl := s.ctrl ++ [msg] } := by
  obtain ⟨ht, -, read, unread, queued, written, tail, hf⟩ := hi
  refine ⟨{ ht with
      send_done := fun h => absurd (hrun.symm.trans h) nofun
      idle := fun h => absurd (ht.send_idle.mpr h) (by rw [hrun]; exact nofun)
      ctrl := fun c hc => ?_ },
    fun hc => absurd hc hcalm, read, unread, queued, written, tail, { hf with }⟩
  rcases List.mem_append.mp hc with hc | hc
  · exact ht.ctrl c hc
  · rw [List.mem_singleton.mp hc]
    exact hmsg

/-- `control_tx.send` in the receive task: the send task still holds the
    channel's receiver, and the message goes on or the send waits. Only a
    run that is not calm sends a control message. -/
theorem Inv.sendControl (hi : Inv σ s) (hidle : s.receive ≠ .idle) (hdone : s.receive ≠ .done)
    (hbody : s.receive.waitingBody = [] ∨ s.router = .dropped) (hcalm : ¬ σ.Calm s)
    {msg : ControlMessage} (hmsg : msg ≠ .sentinel) {waiting : Option (CallHome U)}
    (hwait : ∀ s', waiting = some s' → Inv σ s') : Safe σ (sendControl s msg waiting) := by
  have hrun := (hi.tasks.receive_running hidle hdone).1
  unfold CallHome.sendControl
  rw [if_neg (by rw [hrun]; exact nofun)]
  split
  · -- the message goes on, and the loop ends or goes on
    have hmoved := hi.receiveKeep hidle hdone hbody (ReceivePc.afterControl_ne_idle msg)
      (ReceivePc.waitingBody_afterControl msg) (fun _ => hcalm)
      fun m h => absurd h (ReceivePc.afterControl_ne_control msg m)
    exact .some (hmoved.pushCtrl hcalm hrun hmsg)
  · exact ⟨waiting, rfl, hwait⟩

/-- A branch of the receive loop sends a stop or a kill: at once, or by
    waiting for room. -/
theorem Inv.receiveControl (hi : Inv σ s) (hidle : s.receive ≠ .idle) (hdone : s.receive ≠ .done)
    (hbody : s.receive.waitingBody = [] ∨ s.router = .dropped) (hcalm : ¬ σ.Calm s)
    {msg : ControlMessage} (hmsg : msg ≠ .sentinel) : Safe σ (receiveControl s msg) :=
  hi.sendControl hidle hdone hbody hcalm hmsg fun _ h => by
    cases h
    exact hi.receiveKeep hidle hdone hbody nofun rfl nofun fun _ h => by cases h; exact ⟨hcalm, hmsg⟩

/-- A body waiting for room on the router's channel goes on once there is
    room; once the router has gone the send fails, and a kill follows. -/
theorem Inv.forwardWaiting (hi : Inv σ s) {c : Bool} {data : List UInt8}
    (hfwd : s.receive = .forward c data) : Safe σ (forwardData s c data none) := by
  have hidle : s.receive ≠ .idle := by rw [hfwd]; exact nofun
  have hdone : s.receive ≠ .done := by rw [hfwd]; exact nofun
  unfold CallHome.forwardData
  split
  · rename_i hdrop
    exact hi.receiveControl hidle hdone (Or.inr hdrop) (fun hc => hc.2.1 hdrop) nofun
  · rename_i hne
    split
    · exact .some (hi.receiveTo hidle hdone nofun nofun nofun
        (fun _ => by simp [forwarded, hfwd, ReceivePc.waitingBody]) fun h => absurd h hne)
    · exact .none

/-- The receive task reads a response's body off the socket and forwards it:
    onto the router's channel, or into a send that waits for room. -/
theorem Inv.receiveData {read unread unread' queued written tail : List (Item U)}
    (ht : Tasks σ s) (hq : σ.Calm s → Quiet σ s) (hf : Flow σ s read unread queued written tail)
    {c : Bool} {m : Option Nat} (hsel : s.receive = .select c m) (hne : s.router ≠ .dropped)
    {r : U} (hunread : unread = .data r :: unread') {msg : TwoPartMessage}
    (hmsg : σ.Carries msg (.data r)) {rest : List TwoPartMessage}
    (hcarry : rest.Forall₂ σ.Carries unread') {resp : List (List UInt8)} {next : ReceivePc}
    (hnext : next = .select c none ∧ resp = s.resp ++ [msg.data] ∨
      next = .forward c msg.data ∧ resp = s.resp) :
    Inv σ { s with up := rest, resp := resp, receive := next } := by
  have hdone : s.receive ≠ .done := by rw [hsel]; exact nofun
  have hserve := (ht.receive_running (by rw [hsel]; exact nofun) hdone).2
  have hp := ht.serve hserve
  obtain ⟨ds, resps, hread, hresp, hpre, heq⟩ := hf.served_running hp hdone
  have hplace : next ≠ .idle ∧ next ≠ .done ∧ ∀ msg, next ≠ .control msg := by
    rcases hnext with ⟨rfl, -⟩ | ⟨rfl, -⟩ <;> exact ⟨nofun, nofun, nofun⟩
  -- the body is forwarded, on the channel or in the waiting send
  have hfwd : resp ++ next.waitingBody = s.forwarded ++ [msg.data] := by
    rcases hnext with ⟨rfl, rfl⟩ | ⟨rfl, rfl⟩ <;> simp [forwarded, hsel, ReceivePc.waitingBody]
  refine ⟨ht.receive rest (by rw [hsel]; exact nofun) hdone hplace.1 (fun _ h => absurd h (hplace.2.2 _))
      (fun h => absurd h hne),
    fun hc => { hq hc with control := hplace.2.2 }, read ++ [.data r], unread', queued, written, tail,
    { hf with
      up := hcarry
      log := by rw [List.append_assoc, List.singleton_append, ← hunread]; exact hf.log
      handshake := fun h => absurd (hserve.symm.trans h) nofun
      prologue := fun h => absurd (hserve.symm.trans h) nofun
      past := fun _ => ⟨none, ds.map .data ++ [.data r], by rw [hread]; rfl⟩
      served := fun _ => ⟨ds ++ [r], [], resps ++ [r], ?_, Or.inl rfl, fun _ h => absurd h hplace.2.1,
        ?_, hpre.trans (List.prefix_append _ _), fun _ => by rw [← List.append_assoc, heq hne]⟩
      unserved := fun h => absurd hp h }⟩
  · rw [hread, List.map_append, List.append_nil]
    rfl
  · show (resp ++ next.waitingBody).Forall₂ _ _
    rw [hfwd]
    exact List.rel_append hresp (.cons hmsg.2.2 .nil)

/-- `response_tx.send` of a body just read, the router held. -/
theorem Inv.readData {read unread unread' queued written tail : List (Item U)}
    (ht : Tasks σ s) (hq : σ.Calm s → Quiet σ s) (hf : Flow σ s read unread queued written tail)
    {c : Bool} {m : Option Nat} (hsel : s.receive = .select c m) (hne : s.router ≠ .dropped)
    {r : U} (hunread : unread = .data r :: unread') {msg : TwoPartMessage}
    (hmsg : σ.Carries msg (.data r)) {rest : List TwoPartMessage}
    (hcarry : rest.Forall₂ σ.Carries unread') :
    Safe σ (forwardData { s with up := rest } c msg.data
      (some { s with up := rest, receive := .forward c msg.data })) := by
  unfold CallHome.forwardData
  dsimp only
  rw [if_neg hne]
  split
  · exact .some (Inv.receiveData ht hq hf hsel hne hunread hmsg hcarry (Or.inl ⟨rfl, rfl⟩))
  · exact .some (Inv.receiveData ht hq hf hsel hne hunread hmsg hcarry (Or.inr ⟨rfl, rfl⟩))

/-- The receive task reads the sentinel and returns: the frontend has read
    all the worker wrote. -/
theorem Inv.receiveSentinel {read unread unread' queued written tail : List (Item U)}
    (ht : Tasks σ s) (hq : σ.Calm s → Quiet σ s) (hf : Flow σ s read unread queued written tail)
    {c : Bool} {m : Option Nat} (hsel : s.receive = .select c m)
    (hunread : unread = .sentinel :: unread') {rest : List TwoPartMessage}
    (hcarry : rest.Forall₂ σ.Carries unread') : Inv σ { s with up := rest, receive := .done } := by
  have hdone : s.receive ≠ .done := by rw [hsel]; exact nofun
  have hserve := (ht.receive_running (by rw [hsel]; exact nofun) hdone).2
  have hp := ht.serve hserve
  obtain ⟨ds, resps, hread, hresp, hpre, heq⟩ := hf.served_running hp hdone
  rw [forwarded, hsel] at hresp
  refine ⟨ht.receive rest (by rw [hsel]; exact nofun) hdone nofun nofun ht.dropped,
    fun hc => { hq hc with control := nofun }, read ++ [.sentinel], unread', queued, written, tail,
    { hf with
      up := hcarry
      log := by rw [List.append_assoc, List.singleton_append, ← hunread]; exact hf.log
      handshake := fun h => absurd (hserve.symm.trans h) nofun
      prologue := fun h => absurd (hserve.symm.trans h) nofun
      past := fun _ => ⟨none, ds.map .data ++ [.sentinel], by rw [hread]; rfl⟩
      served := fun _ => ⟨ds, [.sentinel], resps, by rw [hread]; rfl, Or.inr ⟨rfl, rfl⟩,
        fun _ _ => rfl, hresp, hpre, heq⟩ }⟩

/-- `network_receive_handler` never panics: what it reads off the socket is
    a body or the sentinel, with no body, and the send task holds the
    control channel's receiver while it runs. -/
theorem Inv.networkReceiveHandler (hi : Inv σ s) : Safe σ (s.networkReceiveHandler σ) := by
  unfold CallHome.networkReceiveHandler
  split
  · exact .none
  · exact .none
  · rename_i canStop data hfwd
    exact hi.forwardWaiting hfwd
  · -- a stop or a kill waits for room; calm runs send none
    rename_i msg hctl
    exact hi.sendControl (by rw [hctl]; exact nofun) (by rw [hctl]; exact nofun) (Or.inl (by rw [hctl]; rfl))
      (fun hc => (hi.quiet hc).control msg hctl) (hi.tasks.control msg hctl) fun _ h => nomatch h
  · rename_i canStop made hsel
    have hidle : s.receive ≠ .idle := by rw [hsel]; exact nofun
    have hdone : s.receive ≠ .done := by rw [hsel]; exact nofun
    have hbody : s.receive.waitingBody = [] ∨ s.router = .dropped := Or.inl (by rw [hsel]; rfl)
    split
    · rename_i hdrop
      exact hi.receiveControl hidle hdone hbody (fun hc => hc.2.1 hdrop) nofun
    · rename_i hne
      split
      · -- `killed()` is ready: the frontend's context was stopped or killed
        rename_i hready
        have hv := version_ne_zero_of_ready hi.tasks.fctx (passFuture_killed_new made) hready
        exact hi.receiveControl hidle hdone hbody (fun hc => hv (by rw [hc.1]; rfl)) nofun
      · split
        · rename_i hready
          rw [Bool.and_eq_true] at hready
          have hv := version_ne_zero_of_ready hi.tasks.fctx (passFuture_stopped_new made) hready.2
          exact hi.receiveControl hidle hdone hbody (fun hc => hv (by rw [hc.1]; rfl)) nofun
        · split
          · rename_i msg rest hup
            obtain ⟨ht, hq, read, unread, queued, written, tail, hf⟩ := hi
            have hcarry := hf.up
            rw [hup] at hcarry
            obtain ⟨it, unread', hit, hcarry', hunread⟩ := List.forall₂_cons_left_iff.mp hcarry
            rcases hf.unread_dataOrSentinel ht hsel it (by rw [hunread]; exact List.mem_cons_self)
              with ⟨r, rfl⟩ | rfl
            · -- a body
              have hh : msg.header = [] := hit.1
              rw [if_neg (not_not.mpr hh), if_pos hit.2.1]
              exact Inv.readData ht hq hf hsel hne hunread hit hcarry'
            · -- the sentinel, the last message
              obtain ⟨hd, hh, hparse⟩ := hit
              rw [if_pos hh, hparse]
              dsimp only
              rw [if_pos hd]
              exact .some (Inv.receiveSentinel ht hq hf hsel hunread hcarry')
          · split
            · exact .some (hi.receiveKeep hidle hdone hbody nofun rfl nofun nofun)
            · exact .none

end Steps

/-- Every action from a state of the invariant: no panic, and the
    invariant kept. -/
theorem Inv.step (hσ : σ.Sound) (hi : Inv σ s) (a : Action) : Safe σ (s.step σ a) := by
  cases a with
  | payload => exact hi.handlePayload hσ
  | writer fails => exact hi.handleWriter hσ fails
  | readerRecv => exact hi.readerRecv
  | readerEof =>
    rw [CallHome.step]
    split
    · exact .some (hi.reader false)
    · exact .none
  | readerAlive =>
    rw [CallHome.step]
    split
    · exact .some (hi.reader false)
    · exact .none
  | server => exact hi.processStream
  | receive => exact hi.networkReceiveHandler
  | send => exact hi.networkSendHandler hσ
  | routerAwait => exact ⟨_, rfl, fun _ h => hi.routerAwait h⟩
  | routerRecv => exact ⟨_, rfl, fun _ h => hi.routerRecv h⟩
  | routerDrop => exact ⟨_, rfl, fun _ h => hi.routerDrop h⟩
  | stop => exact .some (hi.fctx (Nat.succ_ne_zero _))
  | kill => exact .some (hi.fctx (Nat.succ_ne_zero _))

/-- The invariant holds in every reachable state, whatever actions the run
    admits. -/
theorem Reachable.inv (hσ : σ.Sound) {hs : List UInt8}
    (hhs : σ.codecs.handshake.toVec ⟨σ.subject, .response⟩ = .ok hs) {allowed : Action → Prop}
    (h : Reachable σ hs allowed s) : Inv σ s := by
  induction h with
  | new => exact inv_new hσ hhs
  | step a _ _ hstep ih =>
    obtain ⟨o, ho, hkeep⟩ := ih.step hσ a
    rw [ho, Except.ok.injEq] at hstep
    exact hkeep _ hstep

/-- What the frontend has read past the good prologue is a prefix of the
    engine's responses: the writer copies in order what `handle_payload`
    sent, and `generate` succeeded, since its prologue was good. -/
theorem Flow.data_prefix {read unread queued written tail : List (Item U)}
    (hf : Flow σ s read unread queued written tail) (hserver : s.server = .serve ∨ s.server = .done)
    {ds : List U} {snt : List (Item U)}
    (hread : read = .handshake :: .prologue none :: (ds.map .data ++ snt)) :
    ∃ rs, σ.outcome = .ok rs ∧ ds <+: rs := by
  obtain ⟨hpre, htail⟩ := hf.written_prefix
  rw [Setup.emitted_of_ne_generate (hf.ne_generate hserver)] at hpre
  have hlog := hf.log
  rw [hread, List.cons_append, List.cons.injEq] at hlog
  cases written with
  | nil =>
    -- what is left is at most the sentinel, not the prologue
    rcases htail with rfl | rfl <;> simp at hlog
  | cons w written =>
    rw [List.cons_append, List.cons_append, List.cons.injEq] at hlog
    obtain ⟨hw, hwritten⟩ := List.cons_prefix_cons.mp hpre
    rw [← hlog.2.1, Item.prologue.injEq] at hw
    obtain ⟨rs, hrs⟩ := Setup.outcome_ok_of_prologueError hw.symm
    rw [Setup.sentData, hrs] at hwritten
    have hds : ds.map Item.data <+: written := by
      refine List.prefix_of_append_eq_of_not_mem (u := snt ++ unread) ?_ htail ?_
      · rw [← List.append_assoc]
        exact hlog.2.2
      · simp
    refine ⟨rs, hrs, (List.prefix_map_iff_of_injective fun _ _ h => Item.data.inj h).mp ?_⟩
    exact hds.trans (hwritten.trans ((List.take_prefix _ _).map _))

/-- No task panics in any run: from every reachable state, every action
    returns, whether it moves or not. None of the `panic!`, `expect` or
    `unwrap` calls on the way is reached. -/
theorem reachable_step_ne_error (hσ : σ.Sound) {hs : List UInt8}
    (hhs : σ.codecs.handshake.toVec ⟨σ.subject, .response⟩ = .ok hs) {allowed : Action → Prop}
    (h : Reachable σ hs allowed s) (a : Action) (p : Abort) : s.step σ a ≠ .error p :=
  ((h.inv hσ hhs).step hσ a).ne_error p

/-- A run in which the frontend stops the request and then kills it: the
    stop fills the control channel and the kill waits for room. No action
    panics there. -/
theorem killed_run_step_ne_error :
    ∃ s, Reachable (Setup.sample (.ok [0, 1])) Setup.sampleHandshake (fun _ => True) s ∧
      s.receive = .control .kill ∧ s.ctrl = [.stop] ∧
      ∀ a p, s.step (Setup.sample (.ok [0, 1])) a ≠ .error p := by
  have hrun : (replay (Setup.sample (.ok [0, 1])) (new Setup.sampleHandshake)
      [.server, .payload, .writer false, .server, .stop, .receive, .kill, .receive]).map
        (fun s => (s.receive, s.ctrl)) = some (.control .kill, [.stop]) := by decide
  obtain ⟨s, hs, hfacts⟩ := Option.map_eq_some_iff.mp hrun
  rw [Prod.mk.injEq] at hfacts
  have hreach : Reachable (Setup.sample (.ok [0, 1])) Setup.sampleHandshake (fun _ => True) s :=
    Reachable.new.replay (fun _ _ => trivial) hs
  exact ⟨s, hreach, hfacts.1, hfacts.2,
    reachable_step_ne_error (Setup.sound_sample _) (Setup.sample_handshake _) hreach⟩

/-- In any run, the router receives, in order, a prefix of the engine's
    responses: never one twice, never one out of place, and none at all
    when `generate` failed. -/
theorem reachable_received_prefix (hσ : σ.Sound) {hs : List UInt8}
    (hhs : σ.codecs.handshake.toVec ⟨σ.subject, .response⟩ = .ok hs) {allowed : Action → Prop}
    (h : Reachable σ hs allowed s) :
    (∀ rs, σ.outcome = .ok rs → s.received <+: rs) ∧ (∀ e, σ.outcome = .error e → s.received = []) := by
  obtain ⟨ht, -, read, unread, queued, written, tail, hf⟩ := h.inv hσ hhs
  by_cases hp : s.provider = some (.ok ())
  · obtain ⟨ds, snt, resps, hread, -, -, -, hpre, -⟩ := hf.served hp
    obtain ⟨rs, hrs, hds⟩ := hf.data_prefix (ht.past_of_served hp) hread
    have hreceived : s.received <+: rs := hpre.trans hds
    refine ⟨fun rs' hrs' => ?_, fun e he => ?_⟩
    · rw [hrs, Except.ok.injEq] at hrs'
      rwa [← hrs']
    · rw [hrs] at he
      cases he
  · have hnil := (hf.unserved hp).1
    exact ⟨fun _ _ => by rw [hnil]; exact List.nil_prefix, fun _ _ => hnil⟩

/-- Midway through the run in which `generate` returns `[0, 1]`: the router
    has the first response, the second still on its way. -/
theorem midway_received_prefix :
    ∃ s, Reachable (Setup.sample (.ok [0, 1])) Setup.sampleHandshake (fun _ => True) s ∧
      s.received = [0] ∧
      (∀ rs, (Setup.sample (.ok [0, 1])).outcome = .ok rs → s.received <+: rs) ∧
      (∀ e, (Setup.sample (.ok [0, 1])).outcome = .error e → s.received = []) := by
  have hrun : (replay (Setup.sample (.ok [0, 1])) (new Setup.sampleHandshake)
      [.server, .payload, .writer false, .server, .routerAwait, .payload, .writer false, .receive,
        .routerRecv, .payload, .writer false]).map (fun s => s.received) = some [0] := by
    decide
  obtain ⟨s, hs, hreceived⟩ := Option.map_eq_some_iff.mp hrun
  have hreach : Reachable (Setup.sample (.ok [0, 1])) Setup.sampleHandshake (fun _ => True) s :=
    Reachable.new.replay (fun _ _ => trivial) hs
  exact ⟨s, hreach, hreceived,
    reachable_received_prefix (Setup.sound_sample _) (Setup.sample_handshake _) hreach⟩

/-- In any run, the router's request fails only with the worker's error:
    `generate` failed with `e`, and the router gets `ConnectionFailed` with
    the prologue's text for it. It is never told the stream was detached. -/
theorem reachable_router_failed (hσ : σ.Sound) {hs : List UInt8}
    (hhs : σ.codecs.handshake.toVec ⟨σ.subject, .response⟩ = .ok hs) {allowed : Action → Prop}
    (h : Reachable σ hs allowed s) :
    (∀ err, s.router ≠ .failed err) ∨
      ∃ e, σ.outcome = .error e ∧ s.router = .failed (.connectionFailed ("Generate Error: " ++ e)) := by
  have ht := (h.inv hσ hhs).tasks
  cases hr : s.router with
  | failed err =>
    obtain ⟨e, hp, rfl⟩ := ht.router_failed err hr
    obtain ⟨e', he', rfl⟩ := ht.provider_error e hp
    exact Or.inr ⟨e', he', rfl⟩
  | _ => exact Or.inl fun _ => nofun

/-- The run in which `generate` fails with `boom`, up to the router's
    `generate` returning. -/
theorem failed_run_router_failed :
    ∃ s, Reachable (Setup.sample (.error "boom")) Setup.sampleHandshake (fun _ => True) s ∧
      s.router = .failed (.connectionFailed "Generate Error: boom") ∧
      ((∀ err, s.router ≠ .failed err) ∨
        ∃ e, (Setup.sample (.error "boom")).outcome = .error e ∧
          s.router = .failed (.connectionFailed ("Generate Error: " ++ e))) := by
  have hrun : (replay (Setup.sample (.error "boom")) (new Setup.sampleHandshake)
      [.server, .payload, .writer false, .server, .routerAwait]).map (fun s => s.router) =
      some (.failed (.connectionFailed "Generate Error: boom")) := by
    decide
  obtain ⟨s, hs, hfailed⟩ := Option.map_eq_some_iff.mp hrun
  have hreach : Reachable (Setup.sample (.error "boom")) Setup.sampleHandshake (fun _ => True) s :=
    Reachable.new.replay (fun _ _ => trivial) hs
  exact ⟨s, hreach, hfailed,
    reachable_router_failed (Setup.sound_sample _) (Setup.sample_handshake _) hreach⟩

end CallHome

end Pipeline

end Dynamo
