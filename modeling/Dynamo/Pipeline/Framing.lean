import Mathlib.Algebra.GroupWithZero.Nat
import Dynamo.Pipeline.TwoPart

/-!
# Framed Reading

The tcp transport wraps each half of a socket in `tokio_util`'s
`FramedRead` and `FramedWrite` with a `TwoPartCodec`. The writer encodes
each message onto the end of one buffer. The reader appends whatever
bytes arrive to its buffer and then calls `decode` until it returns
`Ok(None)`, yielding each message; an error ends the stream. Bytes arrive
in chunks the network chooses, so a frame can be split anywhere, inside
its 24 bytes of fields too.

`encodeAll` is the writer over a list of messages and `readChunks` the
reader over a list of chunks. The inner `decode` loop, `decodeAvailable`,
is bounded by `fuel` passes and reports `Abort.diverge` when they run out.

The round trip is `twoPartCodec_round_trip`: when every message is within
the codec's limit, the writer's buffer is the frames one after another, and
however it is cut into chunks, the reader yields exactly the messages, in
order, with no error and nothing left over. Two facts about `decode` carry
it: a frame followed by anything decodes to its message
(`TwoPartCodec.decode_frame`), and a strict prefix of a frame decodes to
nothing (`TwoPartCodec.decode_of_prefix`). Between them stands
`prefix_frames`: any prefix of the frames of a list is the frames of the
first few messages followed by a strict prefix of the next frame, which is
what the reader's buffer is after each chunk.

## Main definitions

* `frames`: The frames of a list of messages, one after another.
* `TwoPartCodec.encodeAll`: Encoding messages in order onto one buffer.
* `TwoPartCodec.decodeAvailable`: `decode` until it returns `None`.
* `TwoPartCodec.readChunks`: The reader over a stream arriving in chunks.
* `Waiting`: A buffer holding less than the next frame.

## Theorems

* `TwoPartCodec.encodeAll_eq`: The writer's buffer is the frames.
* `prefix_frames`: A prefix of frames splits at the last whole frame.
* `TwoPartCodec.decodeAvailable_frames`: Whole frames before a waiting
  buffer decode to their messages.
* `TwoPartCodec.readChunks_frames`: The reader yields the messages under
  every chunking.
* `twoPartCodec_round_trip`: The round trip of the codec over a stream.
-/

namespace Dynamo

namespace Pipeline

open Bytes

variable (xxh3 : List UInt8 → UInt64) (checks : OverflowChecks)

/-- The frames of a list of messages, one after another. -/
def frames (msgs : List TwoPartMessage) : List UInt8 :=
  (msgs.map (TwoPartMessage.frame xxh3)).flatten

@[simp]
theorem frames_nil : frames xxh3 [] = [] := rfl

@[simp]
theorem frames_cons (msg : TwoPartMessage) (msgs : List TwoPartMessage) :
    frames xxh3 (msg :: msgs) = msg.frame xxh3 ++ frames xxh3 msgs := rfl

theorem frames_append (msgs msgs' : List TwoPartMessage) :
    frames xxh3 (msgs ++ msgs') = frames xxh3 msgs ++ frames xxh3 msgs' := by
  unfold frames
  rw [List.map_append, List.flatten_append]

theorem length_frames (msgs : List TwoPartMessage) :
    (frames xxh3 msgs).length = (msgs.map TwoPartMessage.frameLen).sum := by
  induction msgs with
  | nil => rfl
  | cons msg msgs ih =>
    rw [frames_cons, List.length_append, TwoPartMessage.length_frame, ih, List.map_cons,
      List.sum_cons]

/-- Every frame is at least one byte, so a list has no more messages than its
    frames have bytes. -/
theorem length_le_length_frames (msgs : List TwoPartMessage) :
    msgs.length ≤ (frames xxh3 msgs).length := by
  induction msgs with
  | nil => exact Nat.le_refl 0
  | cons msg msgs ih =>
    rw [frames_cons, List.length_append, TwoPartMessage.length_frame, List.length_cons]
    have := msg.frameLen_pos
    omega

/-- A buffer that holds less than the first frame still to come: a strict
    prefix of it, or nothing when no frame is to come. -/
def Waiting (pre : List UInt8) : List TwoPartMessage → Prop
  | [] => pre = []
  | msg :: _ => pre <+: msg.frame xxh3 ∧ pre.length < msg.frameLen

/-- A prefix of the frames of a list is the frames of its first messages,
    followed by a buffer waiting for the rest. -/
theorem prefix_frames (msgs : List TwoPartMessage) {pre : List UInt8}
    (hpre : pre <+: frames xxh3 msgs) :
    ∃ done rest wait, msgs = done ++ rest ∧ pre = frames xxh3 done ++ wait ∧
      Waiting xxh3 wait rest := by
  induction msgs generalizing pre with
  | nil =>
    rw [frames_nil, List.prefix_nil] at hpre
    exact ⟨[], [], [], rfl, by rw [hpre]; rfl, rfl⟩
  | cons msg msgs ih =>
    rw [frames_cons] at hpre
    by_cases hshort : pre.length < msg.frameLen
    · -- the buffer ends inside the first frame
      have hframe : pre <+: msg.frame xxh3 :=
        List.prefix_of_prefix_length_le hpre (List.prefix_append _ _)
          (by rw [TwoPartMessage.length_frame]; omega)
      exact ⟨[], msg :: msgs, pre, rfl, rfl, hframe, hshort⟩
    · -- the first frame is whole, and the rest of the buffer is a prefix of the others
      have hwhole : msg.frame xxh3 <+: pre :=
        List.prefix_of_prefix_length_le (List.prefix_append _ _) hpre
          (by rw [TwoPartMessage.length_frame]; omega)
      obtain ⟨after, hafter⟩ := hwhole
      rw [← hafter, List.prefix_append_right_inj] at hpre
      obtain ⟨done, rest, wait, hmsgs, hafter', hwait⟩ := ih hpre
      refine ⟨msg :: done, rest, wait, by rw [hmsgs, List.cons_append], ?_, hwait⟩
      rw [← hafter, hafter', frames_cons, List.append_assoc]

namespace TwoPartCodec

/-- The writer: `encode` each message in order onto `dst`, stopping at the
    first error. -/
def encodeAll (codec : TwoPartCodec) :
    List TwoPartMessage → List UInt8 → Except Abort (Except TwoPartCodecError Unit × List UInt8)
  | [], dst => pure (.ok (), dst)
  | msg :: msgs, dst => do
    let (r, dst) ← codec.encode xxh3 checks msg dst
    match r with
    | .error e => pure (.error e, dst)
    | .ok () => codec.encodeAll msgs dst

/-- The inner loop of `FramedRead::poll_next` on one buffer: `decode` until
    it returns `None` or an error, collecting the messages; `fuel` bounds
    the passes. -/
def decodeAvailable (codec : TwoPartCodec) :
    Nat → List UInt8 →
      Except Abort (List TwoPartMessage × Option TwoPartCodecError × List UInt8)
  | 0, _ => .error .diverge
  | fuel + 1, buf => do
    let (r, buf) ← codec.decode xxh3 checks buf
    match r with
    | .error e => pure ([], some e, buf)
    | .ok none => pure ([], none, buf)
    | .ok (some msg) => do
      let (msgs, err, buf) ← codec.decodeAvailable fuel buf
      pure (msg :: msgs, err, buf)

/-- `FramedRead` over a stream that arrives in `chunks`: append each chunk
    to the buffer and decode what is there; an error ends the stream. -/
def readChunks (codec : TwoPartCodec) (fuel : Nat) :
    List (List UInt8) → List UInt8 →
      Except Abort (List TwoPartMessage × Option TwoPartCodecError × List UInt8)
  | [], buf => pure ([], none, buf)
  | chunk :: chunks, buf => do
    let (msgs, err, buf) ← codec.decodeAvailable xxh3 checks fuel (buf ++ chunk)
    match err with
    | some e => pure (msgs, some e, buf)
    | none => do
      let (msgs', err', buf') ← codec.readChunks fuel chunks buf
      pure (msgs ++ msgs', err', buf')

section Accepted

variable {codec : TwoPartCodec} {msgs : List TwoPartMessage}

/-- Every message fits a `usize` frame and the codec's limit. -/
def Accepts (codec : TwoPartCodec) (msgs : List TwoPartMessage) : Prop :=
  ∀ msg ∈ msgs, msg.frameLen < 2 ^ 64 ∧ codec.sizeError msg.frameLen = none

theorem sizeError_of_le {totalLen : Nat}
    (hmax : ∀ maxSize, codec.maxMessageSize = some maxSize → totalLen ≤ maxSize) :
    codec.sizeError totalLen = none := by
  cases h : codec.sizeError totalLen with
  | none => rfl
  | some e =>
    obtain ⟨maxSize, hm, hlt, -⟩ := sizeError_eq_some.mp h
    exact absurd (hmax maxSize hm) (Nat.not_le.mpr hlt)

theorem Accepts.tail {msg : TwoPartMessage} (h : Accepts codec (msg :: msgs)) :
    Accepts codec msgs :=
  fun m hm => h m (List.mem_cons_of_mem msg hm)

/-- The writer's buffer is the frames of the messages. -/
theorem encodeAll_eq (h : Accepts codec msgs) (dst : List UInt8) :
    codec.encodeAll xxh3 checks msgs dst = .ok (.ok (), dst ++ frames xxh3 msgs) := by
  induction msgs generalizing dst with
  | nil => rw [frames_nil, List.append_nil]; rfl
  | cons msg msgs ih =>
    obtain ⟨hfit, hsize⟩ := h msg List.mem_cons_self
    unfold encodeAll
    rw [encode_of_lt xxh3 checks codec msg dst hfit, hsize]
    dsimp only
    rw [Except.ok_bind]
    dsimp only
    rw [ih h.tail, frames_cons, List.append_assoc]

/-- What the reader's buffer waits on decodes to nothing and stays. -/
theorem decode_of_waiting {wait : List UInt8} (h : Accepts codec msgs)
    (hwait : Waiting xxh3 wait msgs) :
    codec.decode xxh3 checks wait = .ok (.ok none, wait) := by
  cases msgs with
  | nil =>
    rw [Waiting] at hwait
    rw [hwait]
    rfl
  | cons msg msgs =>
    obtain ⟨hfit, hsize⟩ := h msg List.mem_cons_self
    exact decode_of_prefix xxh3 checks codec msg hwait.1 hwait.2 hfit hsize

/-- Whole frames before a buffer that decodes to nothing decode to their
    messages, one pass each. -/
theorem decodeAvailable_frames (h : Accepts codec msgs) {wait : List UInt8}
    (hwait : codec.decode xxh3 checks wait = .ok (.ok none, wait)) {fuel : Nat}
    (hfuel : msgs.length < fuel) :
    codec.decodeAvailable xxh3 checks fuel (frames xxh3 msgs ++ wait) = .ok (msgs, none, wait) := by
  -- one pass per message, and one more for the waiting rest
  obtain ⟨fuel, rfl⟩ : ∃ f, fuel = f + 1 := ⟨fuel - 1, by omega⟩
  induction msgs generalizing fuel with
  | nil =>
    unfold decodeAvailable
    rw [frames_nil, List.nil_append, hwait]
    rfl
  | cons msg msgs ih =>
    obtain ⟨hfit, hsize⟩ := h msg List.mem_cons_self
    rw [List.length_cons] at hfuel
    obtain ⟨fuel, rfl⟩ : ∃ f, fuel = f + 1 := ⟨fuel - 1, by omega⟩
    unfold decodeAvailable
    rw [frames_cons, List.append_assoc, decode_frame xxh3 checks codec msg _ hfit hsize,
      Except.ok_bind]
    dsimp only
    rw [ih h.tail fuel (by omega)]
    rfl

/-- However the frames of the messages still to come are cut into chunks,
    the reader yields exactly those messages, with nothing left over. -/
theorem readChunks_frames (h : Accepts codec msgs) (chunks : List (List UInt8))
    {wait : List UInt8} (hwait : Waiting xxh3 wait msgs)
    (hstream : wait ++ chunks.flatten = frames xxh3 msgs) {fuel : Nat}
    (hfuel : (frames xxh3 msgs).length < fuel) :
    codec.readChunks xxh3 checks fuel chunks wait = .ok (msgs, none, []) := by
  induction chunks generalizing wait msgs with
  | nil =>
    rw [List.flatten_nil, List.append_nil] at hstream
    -- the whole stream is a waiting buffer, so it is empty
    cases msgs with
    | nil =>
      rw [Waiting] at hwait
      rw [hwait]
      rfl
    | cons msg msgs =>
      have hlong := hwait.2
      rw [hstream, frames_cons, List.length_append, TwoPartMessage.length_frame] at hlong
      omega
  | cons chunk chunks ih =>
    -- the buffer after this chunk is whole frames and a waiting rest
    have hpre : wait ++ chunk <+: frames xxh3 msgs :=
      ⟨chunks.flatten, by rw [List.append_assoc, ← List.flatten_cons, hstream]⟩
    obtain ⟨done, rest, wait', hmsgs, hbuf, hwait'⟩ := prefix_frames xxh3 msgs hpre
    rw [hmsgs] at h hfuel hstream
    have hdone : Accepts codec done := fun m hm => h m (List.mem_append_left rest hm)
    have hrest : Accepts codec rest := fun m hm => h m (List.mem_append_right done hm)
    rw [frames_append, List.length_append] at hfuel
    have hlen : done.length < fuel :=
      Nat.lt_of_le_of_lt (length_le_length_frames xxh3 done) (by omega)
    unfold readChunks
    rw [hbuf, decodeAvailable_frames xxh3 checks hdone (decode_of_waiting xxh3 checks hrest hwait')
      hlen, Except.ok_bind]
    dsimp only
    -- what follows the waiting rest is the stream of the remaining frames
    have hstream' : wait' ++ chunks.flatten = frames xxh3 rest := by
      rw [List.flatten_cons, ← List.append_assoc, hbuf, frames_append, List.append_assoc]
        at hstream
      exact List.append_cancel_left hstream
    rw [ih hrest hwait' hstream' (by omega), Except.ok_bind, hmsgs]
    rfl

end Accepted

end TwoPartCodec

/-- The round trip of the two-part codec over a stream. When every message
    fits a `usize` frame and the codec's limit, encoding the messages in
    order yields the frames one after another, `B`, of the summed length;
    every cutting of `B` into chunks, fed to the reader, yields exactly the
    messages in order, with no error and an empty buffer at the end; each
    strict prefix of one of their frames decodes to nothing and is left in
    place; and `encode` fails exactly on a frame above the limit, with the
    size error and the buffer untouched. -/
theorem twoPartCodec_round_trip (codec : TwoPartCodec) (msgs : List TwoPartMessage)
    (hfit : ∀ msg ∈ msgs, msg.frameLen < 2 ^ 64)
    (hmax : ∀ maxSize, codec.maxMessageSize = some maxSize → ∀ msg ∈ msgs, msg.frameLen ≤ maxSize) :
    ∃ B, codec.encodeAll xxh3 checks msgs [] = .ok (.ok (), B) ∧ B = frames xxh3 msgs ∧
      B.length = (msgs.map TwoPartMessage.frameLen).sum ∧
      (∀ (chunks : List (List UInt8)) (fuel : Nat), chunks.flatten = B → B.length < fuel →
        codec.readChunks xxh3 checks fuel chunks [] = .ok (msgs, none, [])) ∧
      (∀ msg ∈ msgs, ∀ pre, pre <+: msg.frame xxh3 → pre.length < msg.frameLen →
        codec.decode xxh3 checks pre = .ok (.ok none, pre)) ∧
      (∀ (msg : TwoPartMessage) (dst : List UInt8) (r : Except TwoPartCodecError Unit)
        (dst' : List UInt8), msg.frameLen < 2 ^ 64 →
        codec.encode xxh3 checks msg dst = .ok (r, dst') →
        ((∃ e, r = .error e) ↔ ∃ maxSize, codec.maxMessageSize = some maxSize ∧
          maxSize < msg.frameLen) ∧
        ∀ e, r = .error e → e = .messageTooLarge msg.frameLen (codec.maxMessageSize.getD 0) ∧
          dst' = dst) := by
  have hacc : TwoPartCodec.Accepts codec msgs := fun msg hmsg =>
    ⟨hfit msg hmsg, TwoPartCodec.sizeError_of_le fun maxSize hm => hmax maxSize hm msg hmsg⟩
  refine ⟨frames xxh3 msgs, ?_, rfl, length_frames xxh3 msgs, ?_, ?_, ?_⟩
  · rw [TwoPartCodec.encodeAll_eq xxh3 checks hacc, List.nil_append]
  · intro chunks fuel hchunks hfuel
    -- the reader starts with an empty buffer, which waits on any stream
    have hwait : Waiting xxh3 [] msgs := by
      cases msgs with
      | nil => rfl
      | cons msg msgs => exact ⟨List.nil_prefix, Nat.lt_of_lt_of_le (Nat.zero_lt_succ 23) msg.frameLen_pos⟩
    exact TwoPartCodec.readChunks_frames xxh3 checks hacc chunks hwait
      (by rw [List.nil_append, hchunks]) hfuel
  · intro msg hmsg pre hpre hshort
    exact TwoPartCodec.decode_of_prefix xxh3 checks codec msg hpre hshort (hacc msg hmsg).1
      (hacc msg hmsg).2
  · intro msg dst r dst' hmsgfit henc
    rw [TwoPartCodec.encode_of_lt xxh3 checks codec msg dst hmsgfit] at henc
    cases hs : codec.sizeError msg.frameLen with
    | some e =>
      rw [hs] at henc
      cases henc
      obtain ⟨maxSize, hm, hlt, he⟩ := TwoPartCodec.sizeError_eq_some.mp hs
      refine ⟨⟨fun _ => ⟨maxSize, hm, hlt⟩, fun _ => ⟨e, rfl⟩⟩, ?_⟩
      intro e' he'
      cases he'
      rw [hm, Option.getD_some]
      exact ⟨he, rfl⟩
    | none =>
      rw [hs] at henc
      cases henc
      refine ⟨⟨fun ⟨e, he⟩ => absurd he (by simp only [reduceCtorEq, not_false_eq_true]),
        fun ⟨maxSize, hm, hlt⟩ => ?_⟩, fun e he => absurd he (by simp only [reduceCtorEq,
          not_false_eq_true])⟩
      obtain ⟨e, he⟩ : ∃ e, codec.sizeError msg.frameLen = some e :=
        ⟨_, TwoPartCodec.sizeError_eq_some.mpr ⟨maxSize, hm, hlt, rfl⟩⟩
      rw [hs] at he
      cases he

/-- The round trip for a header-only and a body-only message under a 32-byte
    limit. The stream of their 25- and 26-byte frames is read from four chunks,
    cut inside the first frame, between the frames and inside the second. -/
theorem twoPartCodec_round_trip_two_messages :
    (∀ msg ∈ [(⟨[7], []⟩ : TwoPartMessage), ⟨[], [1, 2]⟩], msg.frameLen < 2 ^ 64) ∧
    (∀ maxSize, (⟨some 32⟩ : TwoPartCodec).maxMessageSize = some maxSize →
      ∀ msg ∈ [(⟨[7], []⟩ : TwoPartMessage), ⟨[], [1, 2]⟩], msg.frameLen ≤ maxSize) ∧
    ∀ B, (⟨some 32⟩ : TwoPartCodec).encodeAll (fun _ => 0) .enabled
        [⟨[7], []⟩, ⟨[], [1, 2]⟩] [] = .ok (.ok (), B) →
      B.length = 51 ∧
      (⟨some 32⟩ : TwoPartCodec).readChunks (fun _ => 0) .enabled 64
        [B.take 20, (B.drop 20).take 5, (B.drop 25).take 15, B.drop 40] [] =
        .ok ([⟨[7], []⟩, ⟨[], [1, 2]⟩], none, []) := by
  have hfit : ∀ msg ∈ [(⟨[7], []⟩ : TwoPartMessage), ⟨[], [1, 2]⟩], msg.frameLen < 2 ^ 64 := by
    decide
  have hmax : ∀ maxSize, (⟨some 32⟩ : TwoPartCodec).maxMessageSize = some maxSize →
      ∀ msg ∈ [(⟨[7], []⟩ : TwoPartMessage), ⟨[], [1, 2]⟩], msg.frameLen ≤ maxSize := by
    intro maxSize hm
    cases hm
    decide
  refine ⟨hfit, hmax, fun B' hB' => ?_⟩
  obtain ⟨B, henc, -, hlen, hread, -, -⟩ :=
    twoPartCodec_round_trip (fun _ => 0) .enabled ⟨some 32⟩ _ hfit hmax
  rw [henc, Except.ok.injEq, Prod.mk.injEq] at hB'
  rw [← hB'.2, hlen]
  -- the four chunks put the stream back together
  have hcut : [B.take 20, (B.drop 20).take 5, (B.drop 25).take 15, B.drop 40].flatten = B := by
    rw [show B.drop 40 = ((B.drop 20).drop 5).drop 15 by simp only [List.drop_drop],
      show B.drop 25 = (B.drop 20).drop 5 by simp only [List.drop_drop]]
    simp only [List.flatten_cons, List.flatten_nil, List.append_nil, List.take_append_drop]
  exact ⟨rfl, hread _ 64 hcut (by rw [hlen]; decide)⟩

end Pipeline

end Dynamo
