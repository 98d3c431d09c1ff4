import Dynamo.Lib.Bytes

/-!
# The Two-Part Codec

The frame format of `lib/runtime/src/pipeline/network/codec/two_part.rs`,
which carries every message of the tcp transport. A frame is three
big-endian `u64` fields, the header length, the body length and the
`xxh3_64` checksum of header and body together, followed by the header and
the body. `encode` writes one, refusing a message whose frame is above the
codec's `max_message_size`; `decode` reads one off the front of a buffer,
returning `None` while the buffer holds less than a frame and leaving the
buffer as it is then.

The hash is the `xxhash_rust` crate's, outside the repository: it is the
parameter `xxh3`. `usize` is 64 bits wide, and its sums are taken with
`Bytes.addUnsigned` under either build, so a sum that overflows panics when
overflow checks are on and wraps when they are off. Buffers are lists of
bytes, and each function returns the buffer after it with its result.

The fields `decode` reads are chosen by the peer. The total frame length
`24 + header_len + body_len` is a `usize` sum of two of them, and nothing
checks that it fits: `decode_panics_of_length_overflow` is a 24-byte buffer
on which `decode` panics under every limit and in both builds, at the sum
with overflow checks and at the checksum slice without them. Below the
bound, `decode_eq_of_lt` says what `decode` does, case by case.

## Main definitions

* `TwoPartMessage`, `TwoPartCodecError`, `TwoPartCodec`: The message, the
  codec's errors and the codec.
* `TwoPartMessageType`, `TwoPartMessage.intoMessageType`: Which parts a
  message has.
* `TwoPartCodec.sizeError`: The `max_message_size` check both ends make.
* `TwoPartCodec.decode`, `TwoPartCodec.encode`: The decoder and the encoder.
* `TwoPartMessage.frame`: The bytes `encode` writes for a message.

## Theorems

* `TwoPartCodec.encode_of_lt`: What `encode` writes, or the error it returns.
* `TwoPartCodec.decode_eq_of_lt`: What `decode` does when the frame length
  fits a `usize`.
* `TwoPartCodec.decode_frame`: A frame followed by anything decodes to its
  message, consuming exactly the frame.
* `TwoPartCodec.decode_of_prefix`: A strict prefix of a frame decodes to
  nothing and is left in place.
-/

namespace Dynamo

namespace Pipeline

open Bytes

/-- `TwoPartMessage`: a header and a body. -/
structure TwoPartMessage where
  header : List UInt8
  data : List UInt8
  deriving DecidableEq, Repr

/-- `TwoPartCodecError`, without the I/O errors of the transport, which
    neither `encode` nor `decode` returns. -/
inductive TwoPartCodecError where
  | messageTooLarge (size maxSize : Nat)
  | invalidMessage (msg : String)
  | checksumMismatch
  deriving DecidableEq, Repr

/-- `TwoPartCodec`: the largest frame it accepts, if any. -/
structure TwoPartCodec where
  maxMessageSize : Option Nat
  deriving DecidableEq, Repr

/-- `TwoPartMessageType`: which of its two parts a message has. -/
inductive TwoPartMessageType where
  | headerOnly (header : List UInt8)
  | dataOnly (data : List UInt8)
  | headerAndData (header data : List UInt8)
  | empty
  deriving DecidableEq, Repr

namespace TwoPartMessage

/-- `from_header`: a message with no body. -/
def fromHeader (header : List UInt8) : TwoPartMessage := ⟨header, []⟩

/-- `from_data`: a message with no header. -/
def fromData (data : List UInt8) : TwoPartMessage := ⟨[], data⟩

/-- `header`: the header, unless it is empty. -/
def header? (msg : TwoPartMessage) : Option (List UInt8) :=
  if msg.header.isEmpty then none else some msg.header

/-- `data`: the body, unless it is empty. -/
def data? (msg : TwoPartMessage) : Option (List UInt8) :=
  if msg.data.isEmpty then none else some msg.data

/-- `into_message_type`. -/
def intoMessageType (msg : TwoPartMessage) : TwoPartMessageType :=
  if msg.header.isEmpty && msg.data.isEmpty then .empty
  else if msg.header.isEmpty then .dataOnly msg.data
  else if msg.data.isEmpty then .headerOnly msg.header
  else .headerAndData msg.header msg.data

theorem header?_of_ne_nil {msg : TwoPartMessage} (h : msg.header ≠ []) :
    msg.header? = some msg.header := by
  rw [header?, if_neg (by simpa only [List.isEmpty_iff] using h)]

theorem data?_of_eq_nil {msg : TwoPartMessage} (h : msg.data = []) : msg.data? = none := by
  rw [data?, if_pos (by rw [h, List.isEmpty_nil])]

/-- A message with a header and no body is header-only. -/
theorem intoMessageType_of_header {msg : TwoPartMessage} (hh : msg.header ≠ []) (hd : msg.data = []) :
    msg.intoMessageType = .headerOnly msg.header := by
  have hh' : msg.header.isEmpty = false := by simpa only [List.isEmpty_eq_false_iff] using hh
  rw [intoMessageType, hh', hd, List.isEmpty_nil]
  rfl

/-- The length of the frame of a message: the three fields, the header and
    the body. -/
def frameLen (msg : TwoPartMessage) : Nat := 24 + msg.header.length + msg.data.length

/-- The bytes `encode` appends for a message. -/
def frame (xxh3 : List UInt8 → UInt64) (msg : TwoPartMessage) : List UInt8 :=
  putU64 msg.header.length ++ putU64 msg.data.length ++
    putU64 (xxh3 (msg.header ++ msg.data)).toNat ++ msg.header ++ msg.data

@[simp]
theorem length_frame (xxh3 : List UInt8 → UInt64) (msg : TwoPartMessage) :
    (msg.frame xxh3).length = msg.frameLen := by
  unfold frame frameLen
  simp only [List.length_append, length_putU64]

theorem frameLen_pos (msg : TwoPartMessage) : 24 ≤ msg.frameLen := by
  unfold frameLen
  omega

end TwoPartMessage

namespace TwoPartCodec

variable (xxh3 : List UInt8 → UInt64) (checks : OverflowChecks)

/-- The size check of `encode` and `decode`: the error for a frame above
    `max_message_size`. -/
def sizeError (codec : TwoPartCodec) (totalLen : Nat) : Option TwoPartCodecError :=
  match codec.maxMessageSize with
  | some maxSize => if totalLen > maxSize then some (.messageTooLarge totalLen maxSize) else none
  | none => none

/-- The end of `decode`, once the whole frame is in the buffer: skip the
    three fields, check the checksum and split off header and body. -/
def decodeFrame (checksum headerLen bodyLen : Nat) (src : List UInt8) :
    Except Abort (Except TwoPartCodecError (Option TwoPartMessage) × List UInt8) := do
  let src := src.drop 24
  let bytesToHash ← addUnsigned checks 64 headerLen bodyLen
  let dataToHash ← sliceTo src bytesToHash
  if checksum ≠ (xxh3 dataToHash).toNat then
    .ok (.error .checksumMismatch, src)
  else do
    let (header, src) ← splitTo src headerLen
    let (data, src) ← splitTo src bodyLen
    pure (.ok (some ⟨header, data⟩), src)

/-- `<TwoPartCodec as Decoder>::decode`. -/
def decode (codec : TwoPartCodec) (src : List UInt8) :
    Except Abort (Except TwoPartCodecError (Option TwoPartMessage) × List UInt8) :=
  if src.length < 24 then .ok (.ok none, src)
  else do
    let headerLen := getU64 src
    let bodyLen := getU64 (src.drop 8)
    let checksum := getU64 (src.drop 16)
    let totalLen ← addUnsigned checks 64 (← addUnsigned checks 64 24 headerLen) bodyLen
    match codec.sizeError totalLen with
    | some e => .ok (.error e, src)
    | none =>
      -- the rest of the frame has not arrived
      if src.length < totalLen then .ok (.ok none, src)
      else decodeFrame xxh3 checks checksum headerLen bodyLen src

/-- `<TwoPartCodec as Encoder>::encode`: the result and the buffer `dst`
    after it. -/
def encode (codec : TwoPartCodec) (item : TwoPartMessage) (dst : List UInt8) :
    Except Abort (Except TwoPartCodecError Unit × List UInt8) := do
  let headerLen := item.header.length
  let bodyLen := item.data.length
  let totalLen ← addUnsigned checks 64 (← addUnsigned checks 64 24 headerLen) bodyLen
  match codec.sizeError totalLen with
  | some e => .ok (.error e, dst)
  | none => do
    -- the capacity of the buffer the checksum is taken over
    let _ ← addUnsigned checks 64 headerLen bodyLen
    let checksum := xxh3 (item.header ++ item.data)
    pure (.ok (), dst ++ putU64 headerLen ++ putU64 bodyLen ++ putU64 checksum.toNat ++
      item.header ++ item.data)

theorem sizeError_eq_some {codec : TwoPartCodec} {totalLen : Nat} {e : TwoPartCodecError} :
    codec.sizeError totalLen = some e ↔
      ∃ maxSize, codec.maxMessageSize = some maxSize ∧ maxSize < totalLen ∧
        e = .messageTooLarge totalLen maxSize := by
  unfold sizeError
  cases codec.maxMessageSize with
  | none => simp only [reduceCtorEq, false_and, exists_false]
  | some maxSize =>
    by_cases h : totalLen > maxSize
    · simp only [if_pos h, Option.some.injEq]
      exact ⟨fun he => ⟨maxSize, rfl, h, he.symm⟩, fun ⟨_, hm, _, he⟩ => by cases hm; exact he.symm⟩
    · simp only [if_neg h, reduceCtorEq, Option.some.injEq, false_iff, not_exists, not_and]
      intro m hm hlt
      cases hm
      exact absurd hlt h

/-- Below the bound, the frame length is the plain sum in either build. -/
theorem addUnsigned_frameLen {h b : Nat} {α : Type} (f : Nat → Except Abort α)
    (hfit : 24 + h + b < 2 ^ 64) :
    (do let x ← addUnsigned checks 64 24 h; let total ← addUnsigned checks 64 x b; f total) =
      f (24 + h + b) := by
  have h24 : 24 + h < 2 ^ 64 := by omega
  rw [addUnsigned_of_lt checks h24, Except.ok_bind, addUnsigned_of_lt checks hfit, Except.ok_bind]

/-- What `encode` does with a message whose frame length fits a `usize`:
    the size error with `dst` untouched, or the frame appended. -/
theorem encode_of_lt (codec : TwoPartCodec) (msg : TwoPartMessage) (dst : List UInt8)
    (hfit : msg.frameLen < 2 ^ 64) :
    codec.encode xxh3 checks msg dst =
      match codec.sizeError msg.frameLen with
      | some e => .ok (.error e, dst)
      | none => .ok (.ok (), dst ++ msg.frame xxh3) := by
  unfold encode
  unfold TwoPartMessage.frameLen at hfit ⊢
  dsimp only
  rw [addUnsigned_frameLen checks _ hfit]
  cases codec.sizeError (24 + msg.header.length + msg.data.length) with
  | some e => rfl
  | none =>
    have hbody : msg.header.length + msg.data.length < 2 ^ 64 := by omega
    simp only [addUnsigned_of_lt checks hbody, Except.ok_bind, TwoPartMessage.frame,
      List.append_assoc]
    rfl

/-- What `decode` does when the frame length the buffer announces fits a
    `usize`: nothing while less than 24 bytes or less than the frame is
    there, the size error, the checksum error after skipping the three
    fields, or the message with exactly the frame consumed. -/
theorem decode_eq_of_lt (codec : TwoPartCodec) (src : List UInt8) (hlen : 24 ≤ src.length)
    (hfit : 24 + getU64 src + getU64 (src.drop 8) < 2 ^ 64) :
    codec.decode xxh3 checks src =
      let headerLen := getU64 src
      let bodyLen := getU64 (src.drop 8)
      let totalLen := 24 + headerLen + bodyLen
      match codec.sizeError totalLen with
      | some e => .ok (.error e, src)
      | none =>
        if src.length < totalLen then .ok (.ok none, src)
        else if getU64 (src.drop 16) ≠ (xxh3 ((src.drop 24).take (headerLen + bodyLen))).toNat then
          .ok (.error .checksumMismatch, src.drop 24)
        else .ok (.ok (some ⟨(src.drop 24).take headerLen,
          ((src.drop 24).drop headerLen).take bodyLen⟩), src.drop totalLen) := by
  unfold decode
  rw [if_neg (Nat.not_lt.mpr hlen)]
  dsimp only
  rw [addUnsigned_frameLen checks _ hfit]
  cases codec.sizeError (24 + getU64 src + getU64 (src.drop 8)) with
  | some e => rfl
  | none =>
    simp only
    by_cases hshort : src.length < 24 + getU64 src + getU64 (src.drop 8)
    · rw [if_pos hshort, if_pos hshort]
    · rw [if_neg hshort, if_neg hshort]
      -- the whole frame is there, so every slice is in range
      have hbody : getU64 src + getU64 (src.drop 8) < 2 ^ 64 := by omega
      have hslice : getU64 src + getU64 (src.drop 8) ≤ (src.drop 24).length := by
        rw [List.length_drop]
        omega
      have hheader : getU64 src ≤ (src.drop 24).length := by omega
      have hdata : getU64 (src.drop 8) ≤ ((src.drop 24).drop (getU64 src)).length := by
        rw [List.length_drop, List.length_drop]
        omega
      unfold decodeFrame
      simp only [addUnsigned_of_lt checks hbody, sliceTo_of_le hslice, Except.ok_bind]
      by_cases hsum : getU64 (src.drop 16) ≠
          (xxh3 ((src.drop 24).take (getU64 src + getU64 (src.drop 8)))).toNat
      · rw [if_pos hsum, if_pos hsum]
      · rw [if_neg hsum, if_neg hsum]
        rw [splitTo_of_le hheader, Except.ok_bind]
        dsimp only
        rw [splitTo_of_le hdata, Except.ok_bind, List.drop_drop, List.drop_drop]
        rfl

theorem sizeError_zero (codec : TwoPartCodec) : codec.sizeError 0 = none := by
  unfold sizeError
  cases codec.maxMessageSize with
  | none => rfl
  | some maxSize => exact if_neg (Nat.not_lt_zero maxSize)

/-- With overflow checks on, a buffer whose announced frame length does not
    fit a `usize` makes `decode` panic, whatever the limit. -/
theorem decode_panics_of_overflow (codec : TwoPartCodec) (src : List UInt8)
    (hlen : 24 ≤ src.length) (hover : 2 ^ 64 ≤ 24 + getU64 src + getU64 (src.drop 8)) :
    codec.decode xxh3 .enabled src = .error (.panic "attempt to add with overflow") := by
  unfold decode
  rw [if_neg (Nat.not_lt.mpr hlen)]
  dsimp only
  -- the sum overflows at its first or at its second addition
  by_cases h24 : 24 + getU64 src < 2 ^ 64
  · rw [addUnsigned_of_lt _ h24, Except.ok_bind, addUnsigned_enabled_of_le hover]
    rfl
  · rw [addUnsigned_enabled_of_le (Nat.not_lt.mp h24)]
    rfl

/-- A peer's 24 bytes announcing a header of `2 ^ 64 - 24` bytes and an empty
    body make `decode` panic, under every limit and in both builds: at the
    overflowing sum with overflow checks, and without them at the checksum
    slice, after the total has wrapped to zero and passed both checks. -/
theorem decode_panics_of_length_overflow (codec : TwoPartCodec) :
    ∃ msg, codec.decode xxh3 checks (putU64 (2 ^ 64 - 24) ++ putU64 0 ++ putU64 0) =
      .error (.panic msg) := by
  have hfield : (2 : Nat) ^ 64 - 24 < 2 ^ 64 := by decide
  have hh : getU64 (putU64 (2 ^ 64 - 24) ++ putU64 0 ++ putU64 0) = 2 ^ 64 - 24 := by
    rw [List.append_assoc, getU64_putU64_of_lt hfield]
  have hb : getU64 ((putU64 (2 ^ 64 - 24) ++ putU64 0 ++ putU64 0).drop 8) = 0 := by
    rw [List.append_assoc, List.drop_left' (length_putU64 _), getU64_putU64, Nat.zero_mod]
  have hlen : (putU64 (2 ^ 64 - 24) ++ putU64 0 ++ putU64 0).length = 24 := by
    simp only [List.length_append, length_putU64]
  cases checks with
  | enabled =>
    refine ⟨_, decode_panics_of_overflow xxh3 codec _ (Nat.le_of_eq hlen.symm) ?_⟩
    rw [hh, hb]
    decide
  | disabled =>
    -- the total wraps to zero, which is under every limit and every length
    have hwrap : (24 + (2 ^ 64 - 24)) % 2 ^ 64 + 0 = 0 := by decide
    unfold decode
    rw [hlen, if_neg (by decide)]
    dsimp only
    rw [hh, hb, addUnsigned_disabled, Except.ok_bind, addUnsigned_disabled, Nat.mod_eq_of_lt
      (by rw [hwrap]; decide), hwrap, Except.ok_bind, sizeError_zero]
    dsimp only
    rw [if_neg (by decide)]
    -- after the three fields nothing is left, and the slice reaches far past it
    unfold decodeFrame
    have hrest : (putU64 (2 ^ 64 - 24) ++ putU64 0 ++ putU64 0).drop 24 = [] :=
      List.drop_of_length_le (Nat.le_of_eq hlen)
    rw [hrest, addUnsigned_of_lt _ (by decide), Except.ok_bind, sliceTo_of_lt (by decide)]
    exact ⟨_, rfl⟩

/-- The three fields at the front of a frame, and what follows them. -/
theorem fields_frame (msg : TwoPartMessage) (rest : List UInt8) (hfit : msg.frameLen < 2 ^ 64) :
    getU64 (msg.frame xxh3 ++ rest) = msg.header.length ∧
      getU64 ((msg.frame xxh3 ++ rest).drop 8) = msg.data.length ∧
      getU64 ((msg.frame xxh3 ++ rest).drop 16) = (xxh3 (msg.header ++ msg.data)).toNat ∧
      (msg.frame xxh3 ++ rest).drop 24 = msg.header ++ msg.data ++ rest := by
  unfold TwoPartMessage.frameLen at hfit
  have hh : msg.header.length < 2 ^ 64 := by omega
  have hd : msg.data.length < 2 ^ 64 := by omega
  -- the frame, associated to the right, field by field
  have hsrc : msg.frame xxh3 ++ rest = putU64 msg.header.length ++ (putU64 msg.data.length ++
      (putU64 (xxh3 (msg.header ++ msg.data)).toNat ++ (msg.header ++ msg.data ++ rest))) := by
    simp only [TwoPartMessage.frame, List.append_assoc]
  have hdrop8 : (msg.frame xxh3 ++ rest).drop 8 = putU64 msg.data.length ++
      (putU64 (xxh3 (msg.header ++ msg.data)).toNat ++ (msg.header ++ msg.data ++ rest)) := by
    rw [hsrc, List.drop_left' (length_putU64 _)]
  have hdrop16 : (msg.frame xxh3 ++ rest).drop 16 =
      putU64 (xxh3 (msg.header ++ msg.data)).toNat ++ (msg.header ++ msg.data ++ rest) := by
    rw [show 16 = 8 + 8 from rfl, ← List.drop_drop, hdrop8, List.drop_left' (length_putU64 _)]
  refine ⟨?_, ?_, ?_, ?_⟩
  · rw [hsrc, getU64_putU64_of_lt hh]
  · rw [hdrop8, getU64_putU64_of_lt hd]
  · rw [hdrop16, getU64_putU64_of_lt (UInt64.toNat_lt _)]
  · rw [show 24 = 16 + 8 from rfl, ← List.drop_drop, hdrop16, List.drop_left' (length_putU64 _)]

/-- A frame followed by anything decodes to its message, and exactly the
    frame is consumed. -/
theorem decode_frame (codec : TwoPartCodec) (msg : TwoPartMessage) (rest : List UInt8)
    (hfit : msg.frameLen < 2 ^ 64) (hsize : codec.sizeError msg.frameLen = none) :
    codec.decode xxh3 checks (msg.frame xxh3 ++ rest) = .ok (.ok (some msg), rest) := by
  obtain ⟨hh, hd, hc, hbody⟩ := fields_frame xxh3 msg rest hfit
  have hlen : (msg.frame xxh3 ++ rest).length = msg.frameLen + rest.length := by
    rw [List.length_append, TwoPartMessage.length_frame]
  have htotal : 24 + msg.header.length + msg.data.length = msg.frameLen := rfl
  rw [decode_eq_of_lt xxh3 checks codec _ (by rw [hlen]; exact Nat.le_add_right_of_le msg.frameLen_pos)
    (by rw [hh, hd, htotal]; exact hfit)]
  dsimp only
  rw [hh, hd, hc, hbody, htotal, hsize]
  dsimp only
  -- the whole frame is there and its checksum is the one written
  have hhash : (msg.header ++ msg.data ++ rest).take (msg.header.length + msg.data.length) =
      msg.header ++ msg.data := by
    rw [← List.length_append, List.take_left]
  rw [if_neg (by omega), hhash, if_neg (not_not.mpr rfl), List.append_assoc, List.take_left,
    List.drop_left, List.take_left, ← TwoPartMessage.length_frame xxh3, List.drop_left]

/-- A strict prefix of a frame the codec accepts decodes to nothing, and the
    buffer is left as it is. -/
theorem decode_of_prefix (codec : TwoPartCodec) (msg : TwoPartMessage) {pre : List UInt8}
    (hpre : pre <+: msg.frame xxh3) (hshort : pre.length < msg.frameLen)
    (hfit : msg.frameLen < 2 ^ 64) (hsize : codec.sizeError msg.frameLen = none) :
    codec.decode xxh3 checks pre = .ok (.ok none, pre) := by
  by_cases h24 : pre.length < 24
  · unfold decode
    rw [if_pos h24]
  · -- the three fields are all there, and they are the frame's
    obtain ⟨t, ht⟩ := hpre
    obtain ⟨hh, hd, -, -⟩ := fields_frame xxh3 msg [] hfit
    rw [List.append_nil, ← ht] at hh hd
    have h8 : 8 ≤ pre.length := by omega
    have h8' : 8 ≤ (pre.drop 8).length := by
      rw [List.length_drop]
      omega
    rw [List.drop_append_of_le_length h8, getU64_append_of_le h8'] at hd
    rw [getU64_append_of_le h8] at hh
    have htotal : 24 + getU64 pre + getU64 (pre.drop 8) = msg.frameLen := by
      rw [hh, hd]
      rfl
    rw [decode_eq_of_lt xxh3 checks codec pre (Nat.not_lt.mp h24) (by rw [htotal]; exact hfit)]
    dsimp only
    rw [htotal, hsize]
    dsimp only
    rw [if_pos hshort]

end TwoPartCodec

end Pipeline

end Dynamo
