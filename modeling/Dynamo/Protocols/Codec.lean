import Mathlib.Data.List.DropRight
import Dynamo.Lib.Abort
import Dynamo.Lib.Lines

/-!
# Server-Sent Events

`create_message_stream` reads a text of server-sent events through
`tokio_util`'s `FramedRead` with an `SseLineCodec`. The codec takes whole
lines from its buffer with a `LinesCodec`, reads each into four buffers (the
data, the event type, the last event id and the comments) and, at an empty
line, returns the message the buffers hold. At the end of the input,
`decode_eof` returns the message still being read. `FramedRead` appends each
read to its buffer and calls `decode` until it returns `None`, and at the end
of the input calls `decode_eof` until it returns `None`; an error ends the
stream.

`framedRead` is that reader over a list of reads and `sseMessages` says what it
yields for a whole text: the messages that the text's whole lines end, read
one after another by `feedLines`, then the message left at the end. The two
agree however the text is cut into reads (`framedRead_eq_sseMessages`). Three
facts carry this. One call of `decode` reads the lines of its buffer up to the
first message (`SseLineCodec.decodeLoop_line`). Draining `decode` reads them
all (`SseLineCodec.drainDecode_eq`). The lines of a buffer with a read appended
are the lines of the old tail with it (`Lines.IsLines.append`).

A line is only read once its `'\n'` has come, and `decode_eof` does not read
the last line when no `'\n'` ends it: the stream of a text whose last line is
unterminated is the stream of the text without that line
(`sseMessages_unterminated`). The data of an event keeps none of the empty
`data` values before the first non-empty one (`SseLineCodec.dataBuffer_foldl_data`),
so that `data:` followed by `data: x` gives `x`
(`createMessageStream_drops_empty_data`).

## Main definitions

* `LinesCodec.decode`: The next whole line of a buffer.
* `SseLineCodec.processLine`: A line read into the buffers, ending an event
  when it is empty.
* `SseLineCodec.decode`, `SseLineCodec.decodeEof`: The codec's two calls.
* `framedRead`: `FramedRead` over a list of reads, to the end of the stream.
* `createMessageStream`: The stream of a text.
* `SseLineCodec.feedLines`, `sseMessages`: The lines of a text read one
  after another, and what the stream of the text yields.

## Theorems

* `LinesCodec.decode_line`, `LinesCodec.decode_free`: The line codec takes the
  first whole line, or waits.
* `SseLineCodec.dataBuffer_foldl_data`: The data of an event's values.
* `SseLineCodec.drainDecode_eq`: Draining `decode` reads every whole line.
* `SseLineCodec.drainDecodeEof_eq`: At the end the event left is flushed.
* `framedRead_eq_sseMessages`: The stream of any reads is that of their text.
* `framedRead_chunks_eq`: The stream does not depend on how the text is cut.
* `createMessageStream_eq`: The stream of a text is what the text yields.
* `sseMessages_unterminated`: An unterminated last line is never read.
* `createMessageStream_drops_empty_data`: An empty value before another is
  dropped from the data.
-/

namespace Dynamo

namespace Protocols

/-! ### The line codec -/

/-- `tokio_util::codec::LinesCodec` as `LinesCodec::new()` makes it, with no
    limit on the length of a line: its state is `next_index`, where the search
    for the next `'\n'` resumes. -/
structure LinesCodec where
  nextIndex : Nat
  deriving DecidableEq, Repr

/-- The line codec's error; with no limit on the length, only the one for a
    line that is not UTF-8 is left. -/
inductive LinesCodecError where
  | io (msg : String)
  deriving DecidableEq, Repr

/-- The error's `to_string`. -/
def LinesCodecError.toString : LinesCodecError → String
  | .io msg => msg

/-- `without_carriage_return`: the line without one trailing `'\r'`. -/
def withoutCarriageReturn (s : List UInt8) : List UInt8 :=
  if s.getLast? = some 13 then s.dropLast else s

/-- `utf8`: the characters of a line, when it is UTF-8. -/
def utf8 (buf : List UInt8) : Except LinesCodecError (List Char) :=
  match String.fromUTF8? ⟨buf.toArray⟩ with
  | some s => .ok s.toList
  | none => .error (.io "Unable to decode input as UTF8")

/-- `LinesCodec::decode`: the first line of `buf`, without its `'\n'` and one
    `'\r'` before that, and what follows it; `None` while no `'\n'` has come.
    The search starts at `next_index`, past the bytes an earlier call
    searched. -/
def LinesCodec.decode (self : LinesCodec) (buf : List UInt8) :
    Except Abort (Except LinesCodecError (Option (List Char)) × LinesCodec × List UInt8) :=
  -- `buf[self.next_index..read_to]`, with `read_to` the whole buffer
  if self.nextIndex ≤ buf.length then
    match (buf.drop self.nextIndex).findIdx? (· == 10) with
    | some offset =>
      let newlineIndex := offset + self.nextIndex
      -- `buf.split_to(newline_index + 1)`, and the line without its `'\n'`
      let line := withoutCarriageReturn (buf.take newlineIndex)
      pure ((utf8 line).map some, ⟨0⟩, buf.drop (newlineIndex + 1))
    | none => pure (.ok none, ⟨buf.length⟩, buf)
  else throw (.panic s!"slice index starts at {self.nextIndex} but ends at {buf.length}")

/-- What the line codec's state says of a buffer: the search has passed only
    bytes before the first `'\n'`. -/
structure LinesCodec.Scanned (codec : LinesCodec) (buf : List UInt8) : Prop where
  le : codec.nextIndex ≤ buf.length
  free : 10 ∉ buf.take codec.nextIndex

theorem LinesCodec.scanned_zero (buf : List UInt8) : Scanned ⟨0⟩ buf :=
  ⟨Nat.zero_le _, by rw [List.take_zero]; exact List.not_mem_nil⟩

theorem LinesCodec.scanned_length {buf : List UInt8} (h : 10 ∉ buf) : Scanned ⟨buf.length⟩ buf :=
  ⟨Nat.le_refl _, by rw [List.take_length]; exact h⟩

/-- Bytes that arrive do not move what was searched. -/
theorem LinesCodec.Scanned.append {self : LinesCodec} {buf : List UInt8} (h : Scanned self buf)
    (more : List UInt8) : Scanned self (buf ++ more) := by
  refine ⟨?_, ?_⟩
  · rw [List.length_append]
    exact Nat.le_add_right_of_le h.le
  · rw [List.take_append_of_le_length h.le]
    exact h.free

/-- The line codec takes the first whole line of its buffer. -/
theorem LinesCodec.decode_line {self : LinesCodec} {line rest : List UInt8}
    (h : Scanned self (line ++ 10 :: rest)) (hline : 10 ∉ line) :
    self.decode (line ++ 10 :: rest) = .ok ((utf8 (withoutCarriageReturn line)).map some, ⟨0⟩, rest) := by
  -- the search started within the line, as it has not passed the `'\n'`
  have hn : self.nextIndex ≤ line.length := by
    by_contra hlt
    apply h.free
    rw [List.take_append, List.take_of_length_le (by omega), List.mem_append]
    refine Or.inr (List.mem_take_iff_getElem.mpr ⟨0, ?_, rfl⟩)
    rw [List.length_cons]
    omega
  have hfind : ((line ++ 10 :: rest).drop self.nextIndex).findIdx? (· == 10) =
      some (line.length - self.nextIndex) := by
    have hnone : (line.drop self.nextIndex).findIdx? (· == 10) = none := by
      rw [List.findIdx?_eq_none_iff]
      intro x hx
      rw [beq_eq_false_iff_ne]
      rintro rfl
      exact hline (List.mem_of_mem_drop hx)
    rw [List.drop_append_of_le_length hn, List.findIdx?_append, hnone, List.findIdx?_cons,
      List.length_drop]
    simp only [beq_self_eq_true, if_true, Option.map_some, Option.none_or, Nat.zero_add]
  have hidx : line.length - self.nextIndex + self.nextIndex = line.length := by omega
  rw [LinesCodec.decode, if_pos h.le, hfind]
  have hdrop : (line ++ 10 :: rest).drop (line.length + 1) = rest := by
    rw [List.drop_append, List.drop_of_length_le (Nat.le_succ _), Nat.add_sub_cancel_left,
      List.nil_append]
    rfl
  simp only [hidx, List.take_left', hdrop]
  rfl

/-- With no `'\n'` in its buffer the line codec waits, past all of it. -/
theorem LinesCodec.decode_free {self : LinesCodec} {buf : List UInt8} (h : Scanned self buf)
    (hbuf : 10 ∉ buf) : self.decode buf = .ok (.ok none, ⟨buf.length⟩, buf) := by
  have hnone : (buf.drop self.nextIndex).findIdx? (· == 10) = none := by
    rw [List.findIdx?_eq_none_iff]
    intro x hx
    rw [beq_eq_false_iff_ne]
    rintro rfl
    exact hbuf (List.mem_of_mem_drop hx)
  rw [LinesCodec.decode, if_pos h.le, hnone]
  rfl

/-! ### The SSE codec -/

/-- `SseLineCodec`: the line codec and the buffers of the event being read. -/
structure SseLineCodec where
  linesCodec : LinesCodec
  dataBuffer : List Char
  eventTypeBuffer : List Char
  lastEventIdBuffer : List Char
  commentsBuffer : List (List Char)
  deriving DecidableEq, Repr

/-- `SseLineCodec::new`: nothing read. -/
def SseLineCodec.new : SseLineCodec :=
  ⟨⟨0⟩, [], [], [], []⟩

/-- `SseCodecError`; the reader of a text never fails, so only the decode
    error is left. -/
inductive SseCodecError where
  | decodeError (msg : String)
  deriving DecidableEq, Repr

/-- `Message`: a dispatched event. -/
structure Message where
  id : Option (List Char)
  event : Option (List Char)
  data : Option (List Char)
  comments : Option (List (List Char))
  deriving DecidableEq, Repr

/-- `char::is_whitespace`: the characters of Unicode's `White_Space`. -/
def isWhitespace (c : Char) : Bool :=
  match c.toNat with
  | 0x20 | 0x09 | 0x0A | 0x0B | 0x0C | 0x0D => true
  | n =>
    0x7f < n && (n == 0x85 || n == 0xA0 || n == 0x1680 || (0x2000 ≤ n && n ≤ 0x200A) ||
      n == 0x2028 || n == 0x2029 || n == 0x202F || n == 0x205F || n == 0x3000)

/-- `str::trim`: the text without white space at either end. -/
def trim (s : List Char) : List Char :=
  (s.dropWhile isWhitespace).rdropWhile isWhitespace

/-- Some buffer holds part of an event. -/
def SseLineCodec.hasEvent (self : SseLineCodec) : Bool :=
  !self.dataBuffer.isEmpty || !self.eventTypeBuffer.isEmpty || !self.lastEventIdBuffer.isEmpty ||
    !self.commentsBuffer.isEmpty

/-- The message the buffers hold, and the codec with every buffer taken;
    `decode` and `decode_eof` build it alike. -/
def SseLineCodec.dispatch (self : SseLineCodec) : SseLineCodec × Message :=
  -- the last `'\n'` of the data is removed
  let dataBuffer :=
    if self.dataBuffer.getLast? = some '\n' then self.dataBuffer.dropLast else self.dataBuffer
  ({ self with dataBuffer := [], eventTypeBuffer := [], lastEventIdBuffer := [], commentsBuffer := [] },
    { id := if self.lastEventIdBuffer.isEmpty then none else some self.lastEventIdBuffer
      event := if self.eventTypeBuffer.isEmpty then none else some self.eventTypeBuffer
      data := if dataBuffer.isEmpty then none else some dataBuffer
      comments := if self.commentsBuffer.isEmpty then none else some self.commentsBuffer })

/-- The name of a field line and its value: the text before the first `':'`,
    and the text after it without the spaces that start it. -/
def fieldOf (line : List Char) : List Char × List Char :=
  match line.findIdx? (· == ':') with
  | some idx => (line.take idx, (line.drop (idx + 1)).dropWhile (· == ' '))
  | none => (line, [])

/-- A field read into the buffers: `event` and `id` replace theirs, `data`
    is added to its buffer after a `'\n'`; `retry` and unknown names are
    ignored. -/
def SseLineCodec.processField (self : SseLineCodec) (fieldName fieldValue : List Char) :
    SseLineCodec :=
  if fieldName = "event".toList then { self with eventTypeBuffer := fieldValue }
  else if fieldName = "data".toList then
    if fieldValue ≠ "[DONE]".toList then
      let dataBuffer :=
        if !self.dataBuffer.isEmpty then self.dataBuffer ++ ['\n'] else self.dataBuffer
      { self with dataBuffer := dataBuffer ++ fieldValue }
    else self
  else if fieldName = "id".toList then
    if '\x00' ∉ fieldValue then { self with lastEventIdBuffer := fieldValue } else self
  else self

/-- The body of `decode`'s loop for one line: an empty line ends the event and
    returns its message when a buffer holds one, a line that starts with
    `':'` is a comment, and any other line is a field. -/
def SseLineCodec.processLine (self : SseLineCodec) (line : List Char) :
    SseLineCodec × Option Message :=
  let line := line.rdropWhile fun c => c == '\r' || c == '\n'
  if line.isEmpty then
    if self.hasEvent then
      let r := self.dispatch
      (r.1, some r.2)
    else (self, none)
  else
    match line with
    | ':' :: comment => ({ self with commentsBuffer := self.commentsBuffer ++ [trim comment] }, none)
    | _ =>
      let field := fieldOf line
      (self.processField field.1 field.2, none)

/-- The loop of `SseLineCodec::decode`: lines of `src` are read until one ends
    an event, whose message is returned, or until no whole line is left.
    `fuel` bounds the passes. -/
def SseLineCodec.decodeLoop : Nat → SseLineCodec → List UInt8 →
    Except Abort (Except SseCodecError (Option Message) × SseLineCodec × List UInt8)
  | 0, _, _ => throw .diverge
  | fuel + 1, self, src => do
    let (r, linesCodec, src) ← self.linesCodec.decode src
    let self := { self with linesCodec }
    match r with
    | .error e => pure (.error (.decodeError e.toString), self, src)
    | .ok none => pure (.ok none, self, src)
    | .ok (some line) =>
      match self.processLine line with
      | (self, some message) => pure (.ok (some message), self, src)
      | (self, none) => decodeLoop fuel self src

/-- `SseLineCodec::decode`; each pass but the last takes a line of `src`. -/
def SseLineCodec.decode (self : SseLineCodec) (src : List UInt8) :
    Except Abort (Except SseCodecError (Option Message) × SseLineCodec × List UInt8) :=
  self.decodeLoop (src.length + 1) src

/-- `SseLineCodec::decode_eof`: `decode`, and when it finds no message, the
    message of the event still being read. -/
def SseLineCodec.decodeEof (self : SseLineCodec) (src : List UInt8) :
    Except Abort (Except SseCodecError (Option Message) × SseLineCodec × List UInt8) := do
  let (r, self, src) ← self.decode src
  match r with
  | .error e => pure (.error e, self, src)
  | .ok (some message) => pure (.ok (some message), self, src)
  | .ok none =>
    if !self.hasEvent then pure (.ok none, self, src)
    else
      let r := self.dispatch
      pure (.ok (some r.2), r.1, src)

/-- A field does not touch the line codec. -/
theorem SseLineCodec.processField_linesCodec (self : SseLineCodec) (c : LinesCodec)
    (name value : List Char) :
    ({ self with linesCodec := c }).processField name value =
      { self.processField name value with linesCodec := c } := by
  unfold processField
  split_ifs <;> rfl

/-- A line does not touch the line codec. -/
theorem SseLineCodec.processLine_linesCodec (self : SseLineCodec) (c : LinesCodec)
    (line : List Char) :
    ({ self with linesCodec := c }).processLine line =
      ({ (self.processLine line).1 with linesCodec := c }, (self.processLine line).2) := by
  have hev : ({ self with linesCodec := c }).hasEvent = self.hasEvent := rfl
  unfold processLine
  dsimp only
  rw [hev]
  split_ifs
  · rfl
  · rfl
  · split
    · rfl
    · rw [processField_linesCodec]

/-- A `data` field other than `[DONE]` adds its value to the data, after a
    `'\n'` when the data already holds something. -/
theorem SseLineCodec.processField_data (self : SseLineCodec) {value : List Char}
    (h : value ≠ "[DONE]".toList) :
    (self.processField "data".toList value).dataBuffer =
      (if !self.dataBuffer.isEmpty then self.dataBuffer ++ ['\n'] else self.dataBuffer) ++ value := by
  have hname : "data".toList ≠ "event".toList := by decide
  rw [processField, if_neg hname, if_pos rfl, if_pos h]

/-- The data of an event's `data` fields: their values joined with `'\n'`,
    once the empty values before the first non-empty one are dropped. -/
theorem SseLineCodec.dataBuffer_foldl_data (self : SseLineCodec) (hself : self.dataBuffer = [])
    (values : List (List Char)) (hdone : ∀ v ∈ values, v ≠ "[DONE]".toList) :
    (values.foldl (fun s v => s.processField "data".toList v) self).dataBuffer =
      ['\n'].intercalate (values.dropWhile List.isEmpty) := by
  induction values using List.reverseRecOn with
  | nil => exact hself
  | append_singleton values v ih =>
      have hv := hdone v (List.mem_append_right _ List.mem_cons_self)
      rw [List.foldl_concat, processField_data _ hv,
        ih (fun w hw => hdone w (List.mem_append_left _ hw)), List.dropWhile_append]
      -- the data so far is empty exactly when only empty values came before
      cases hdrop : values.dropWhile List.isEmpty with
      | nil =>
          cases v with
          | nil => simp
          | cons c cs => simp
      | cons d ds =>
          have hd : d.isEmpty = false := by
            have hhead := List.head?_dropWhile_not List.isEmpty values
            rw [hdrop] at hhead
            exact hhead
          have hjoin : (['\n'].intercalate (d :: ds)).isEmpty = false := by
            obtain ⟨c, cs, rfl⟩ := List.exists_cons_of_ne_nil (List.isEmpty_eq_false_iff.mp hd)
            cases ds with
            | nil => rfl
            | cons e es => rfl
          rw [hjoin, Bool.not_false, if_pos rfl, List.isEmpty_cons, if_neg Bool.false_ne_true,
            Lines.intercalate_append_singleton _ _ (List.cons_ne_nil d ds)]

/-! ### Whole lines -/

/-- A whole line read: as text, then into the buffers. -/
def SseLineCodec.feedLine (self : SseLineCodec) (line : List UInt8) :
    Except SseCodecError (SseLineCodec × Option Message) :=
  match utf8 (withoutCarriageReturn line) with
  | .error e => .error (.decodeError e.toString)
  | .ok text => .ok (self.processLine text)

/-- Whole lines read one after another: the messages of the events they end,
    the error that stops them, and the codec after them. -/
def SseLineCodec.feedLines : SseLineCodec → List (List UInt8) →
    List Message × Option SseCodecError × SseLineCodec
  | self, [] => ([], none, self)
  | self, line :: lines =>
    match self.feedLine line with
    | .error e => ([], some e, self)
    | .ok (self, message) =>
      let r := feedLines self lines
      (message.toList ++ r.1, r.2.1, r.2.2)

theorem SseLineCodec.feedLine_linesCodec (self : SseLineCodec) (c : LinesCodec)
    (line : List UInt8) :
    ({ self with linesCodec := c }).feedLine line =
      (self.feedLine line).map fun r => ({ r.1 with linesCodec := c }, r.2) := by
  unfold feedLine
  split
  · rfl
  · rw [processLine_linesCodec]
    rfl

theorem SseLineCodec.feedLines_linesCodec (c : LinesCodec) :
    ∀ (self : SseLineCodec) (lines : List (List UInt8)),
      ({ self with linesCodec := c }).feedLines lines =
        ((self.feedLines lines).1, (self.feedLines lines).2.1,
          { (self.feedLines lines).2.2 with linesCodec := c })
  | self, [] => rfl
  | self, line :: lines => by
      rw [feedLines, feedLines, feedLine_linesCodec]
      cases self.feedLine line with
      | error e => rfl
      | ok r =>
          exact congrArg (fun t : List Message × Option SseCodecError × SseLineCodec =>
            (r.2.toList ++ t.1, t.2.1, t.2.2)) (feedLines_linesCodec c r.1 lines)

/-- An error in the first lines is the error of any lines after them. -/
theorem SseLineCodec.feedLines_append_of_error {e : SseCodecError} :
    ∀ {self : SseLineCodec} {lines : List (List UInt8)} (lines' : List (List UInt8)),
      (self.feedLines lines).2.1 = some e →
        self.feedLines (lines ++ lines') = self.feedLines lines
  | self, [], _, h => by cases h
  | self, line :: lines, lines', h => by
      rw [List.cons_append, feedLines, feedLines]
      rw [feedLines] at h
      cases hline : self.feedLine line with
      | error e' => rfl
      | ok r =>
          obtain ⟨self', message⟩ := r
          rw [hline] at h
          dsimp only at h ⊢
          rw [feedLines_append_of_error lines' h]

/-- Lines read without error leave the codec the next lines start from. -/
theorem SseLineCodec.feedLines_append_of_ok {messages : List Message} {self' : SseLineCodec} :
    ∀ {self : SseLineCodec} {lines : List (List UInt8)} (lines' : List (List UInt8)),
      self.feedLines lines = (messages, none, self') →
        self.feedLines (lines ++ lines') =
          (messages ++ (self'.feedLines lines').1, (self'.feedLines lines').2.1,
            (self'.feedLines lines').2.2)
  | self, [], _, h => by
      cases h
      rfl
  | self, line :: lines, lines', h => by
      rw [List.cons_append, feedLines]
      rw [feedLines] at h
      cases hline : self.feedLine line with
      | error e => rw [hline] at h; cases h
      | ok r =>
          obtain ⟨next, message⟩ := r
          rw [hline] at h
          dsimp only at h ⊢
          -- the messages of the first line, then those of the rest
          have hrest : next.feedLines lines = ((next.feedLines lines).1, none, self') := by
            rw [← (Prod.mk.inj h).2]
          rw [feedLines_append_of_ok lines' hrest, ← (Prod.mk.inj h).1, List.append_assoc]

/-! ### One call of `decode` -/

/-- A pass of `decode`'s loop over a whole line: the line is read, and the
    loop returns its message or its error, or goes on after it. -/
theorem SseLineCodec.decodeLoop_line {self : SseLineCodec} {line rest : List UInt8} (fuel : Nat)
    (h : self.linesCodec.Scanned (line ++ 10 :: rest)) (hline : 10 ∉ line) :
    self.decodeLoop (fuel + 1) (line ++ 10 :: rest) =
      match ({ self with linesCodec := ⟨0⟩ } : SseLineCodec).feedLine line with
      | .error e => .ok (.error e, { self with linesCodec := ⟨0⟩ }, rest)
      | .ok (self', some message) => .ok (.ok (some message), self', rest)
      | .ok (self', none) => self'.decodeLoop fuel rest := by
  rw [decodeLoop, LinesCodec.decode_line h hline]
  unfold feedLine
  cases utf8 (withoutCarriageReturn line) with
  | error e => rfl
  | ok text =>
      dsimp only [Except.map, Except.ok_bind]
      generalize ({ self with linesCodec := ⟨0⟩ } : SseLineCodec).processLine text = r
      rcases r with ⟨self', _ | message⟩ <;> rfl

/-- A pass of `decode`'s loop over a buffer with no whole line returns
    `None`. -/
theorem SseLineCodec.decodeLoop_free {self : SseLineCodec} {buf : List UInt8} (fuel : Nat)
    (h : self.linesCodec.Scanned buf) (hbuf : 10 ∉ buf) :
    self.decodeLoop (fuel + 1) buf = .ok (.ok none, { self with linesCodec := ⟨buf.length⟩ }, buf) := by
  rw [decodeLoop, LinesCodec.decode_free h hbuf]
  rfl

/-- Reading a line leaves the line codec as it was. -/
theorem SseLineCodec.feedLine_linesCodec_eq {self : SseLineCodec} {line : List UInt8}
    {r : SseLineCodec × Option Message} (h : self.feedLine line = .ok r) :
    r.1.linesCodec = self.linesCodec := by
  unfold feedLine at h
  split at h
  · cases h
  · cases h
    exact congrArg (fun r => r.1.linesCodec) (processLine_linesCodec self self.linesCodec _)

/-- More passes than lines change nothing: the loop ends within them. -/
theorem SseLineCodec.decodeLoop_fuel {tail : List UInt8} (htail : 10 ∉ tail)
    {lines : List (List UInt8)} (hlines : ∀ l ∈ lines, 10 ∉ l) :
    ∀ (self : SseLineCodec) {fuel fuel' : Nat},
      self.linesCodec.Scanned (Lines.join 10 lines tail) → lines.length < fuel →
        lines.length < fuel' →
          self.decodeLoop fuel (Lines.join 10 lines tail) =
            self.decodeLoop fuel' (Lines.join 10 lines tail) := by
  induction lines with
  | nil =>
      intro self fuel fuel' h hf hf'
      obtain ⟨f, rfl⟩ : ∃ f, fuel = f + 1 := ⟨fuel - 1, by omega⟩
      obtain ⟨f', rfl⟩ : ∃ f', fuel' = f' + 1 := ⟨fuel' - 1, by omega⟩
      rw [decodeLoop_free f h htail, decodeLoop_free f' h htail]
  | cons line lines ih =>
      intro self fuel fuel' h hf hf'
      rw [List.length_cons] at hf hf'
      obtain ⟨f, rfl⟩ : ∃ f, fuel = f + 1 := ⟨fuel - 1, by omega⟩
      obtain ⟨f', rfl⟩ : ∃ f', fuel' = f' + 1 := ⟨fuel' - 1, by omega⟩
      have hline := hlines line List.mem_cons_self
      rw [Lines.join_cons] at h ⊢
      rw [decodeLoop_line f h hline, decodeLoop_line f' h hline]
      -- only a line that ends no event goes on, to the rest with one line less
      cases hfeed : ({ self with linesCodec := ⟨0⟩ } : SseLineCodec).feedLine line with
      | error e => rfl
      | ok r =>
          rcases r with ⟨self', _ | message⟩
          · have hc : self'.linesCodec = ⟨0⟩ := feedLine_linesCodec_eq hfeed
            exact ih (fun l hl => hlines l (List.mem_cons_of_mem line hl)) self'
              (hc ▸ LinesCodec.scanned_zero _) (by omega) (by omega)
          · rfl

/-! ### The reader -/

/-- `FramedRead` between reads: `decode` until it returns `None` or an
    error, collecting the messages. `fuel` bounds the calls. -/
def SseLineCodec.drainDecode : Nat → SseLineCodec → List UInt8 →
    Except Abort (List Message × Option SseCodecError × SseLineCodec × List UInt8)
  | 0, _, _ => throw .diverge
  | fuel + 1, self, buf => do
    let (r, self, buf) ← self.decode buf
    match r with
    | .error e => pure ([], some e, self, buf)
    | .ok none => pure ([], none, self, buf)
    | .ok (some message) => do
      let (messages, err, self, buf) ← drainDecode fuel self buf
      pure (message :: messages, err, self, buf)

/-- `FramedRead` at the end of the input: `decode_eof` until it returns `None`
    or an error. -/
def SseLineCodec.drainDecodeEof : Nat → SseLineCodec → List UInt8 →
    Except Abort (List Message × Option SseCodecError)
  | 0, _, _ => throw .diverge
  | fuel + 1, self, buf => do
    let (r, self, buf) ← self.decodeEof buf
    match r with
    | .error e => pure ([], some e)
    | .ok none => pure ([], none)
    | .ok (some message) => do
      let (messages, err) ← drainDecodeEof fuel self buf
      pure (message :: messages, err)

/-- `FramedRead` polled to the end of its stream, over a reader that returns
    `chunks` one read at a time and then nothing. A read of no bytes is the
    end of the input. -/
def framedRead : List (List UInt8) → SseLineCodec → List UInt8 →
    Except Abort (List Message × Option SseCodecError)
  | [], self, buf => self.drainDecodeEof (buf.length + 2) buf
  | chunk :: chunks, self, buf =>
    if chunk.isEmpty then self.drainDecodeEof (buf.length + 2) buf
    else do
      let buf := buf ++ chunk
      let (messages, err, self, buf) ← self.drainDecode (buf.length + 1) buf
      match err with
      | some e => pure (messages, some e)
      | none => do
        let (messages', err') ← framedRead chunks self buf
        pure (messages ++ messages', err')

/-- `create_message_stream`: the stream of a text, read as one chunk. -/
def createMessageStream (text : String) : Except Abort (List Message × Option SseCodecError) :=
  framedRead [text.toList.flatMap String.utf8EncodeChar] SseLineCodec.new []

/-! ### What the stream yields -/

/-- The message of the event still being read at the end of the input. -/
def SseLineCodec.flush (self : SseLineCodec) : Option Message :=
  if !self.hasEvent then none else some self.dispatch.2

/-- What the stream of a text yields after a codec has read `self`: the
    messages of the text's whole lines, read one after another, then the
    event left at the end, or the error that stops the lines. The
    unterminated last line is not read. -/
def SseLineCodec.messagesOf (self : SseLineCodec) (text : List UInt8) :
    List Message × Option SseCodecError :=
  let r := self.feedLines (Lines.split 10 text).1
  match r.2.1 with
  | some e => (r.1, some e)
  | none => (r.1 ++ r.2.2.flush.toList, none)

/-- What the stream of a text yields. -/
def sseMessages (text : List UInt8) : List Message × Option SseCodecError :=
  SseLineCodec.new.messagesOf text

/-- Lines read without error: the stream goes on from the codec they leave
    with the tail of the text before more. -/
theorem SseLineCodec.messagesOf_of_ok {self self' : SseLineCodec} {pre tail : List UInt8}
    {lines : List (List UInt8)} {messages : List Message} (hpre : Lines.IsLines 10 pre lines tail)
    (h : self.feedLines lines = (messages, none, self')) (more : List UInt8) :
    self.messagesOf (pre ++ more) =
      (messages ++ (self'.messagesOf (tail ++ more)).1, (self'.messagesOf (tail ++ more)).2) := by
  have hsplit := Lines.split_eq (hpre.append (Lines.isLines_split 10 (tail ++ more)))
  unfold messagesOf
  rw [hsplit, feedLines_append_of_ok _ h]
  dsimp only
  split <;> simp only [List.append_assoc]

/-- Lines that stop at an error: the stream ends there, whatever follows. -/
theorem SseLineCodec.messagesOf_of_error {self : SseLineCodec} {pre tail : List UInt8}
    {lines : List (List UInt8)} {e : SseCodecError} (hpre : Lines.IsLines 10 pre lines tail)
    (h : (self.feedLines lines).2.1 = some e) (more : List UInt8) :
    self.messagesOf (pre ++ more) = ((self.feedLines lines).1, some e) := by
  have hsplit := Lines.split_eq (hpre.append (Lines.isLines_split 10 (tail ++ more)))
  unfold messagesOf
  rw [hsplit, feedLines_append_of_error _ h]
  dsimp only
  rw [h]

/-! ### Reading to the end -/

/-- Draining `decode` over whole lines and a tail reads every line: it
    returns the messages `feedLines` finds and its error, and when there is
    none it leaves the tail in the buffer with the line codec past it. -/
theorem SseLineCodec.drainDecode_eq {tail : List UInt8} (htail : 10 ∉ tail)
    {lines : List (List UInt8)} (hlines : ∀ l ∈ lines, 10 ∉ l) :
    ∀ (self : SseLineCodec) (fuel : Nat),
      self.linesCodec.Scanned (Lines.join 10 lines tail) → lines.length < fuel →
        ∃ self' rest, self.drainDecode fuel (Lines.join 10 lines tail) =
            .ok ((self.feedLines lines).1, (self.feedLines lines).2.1, self', rest) ∧
          ((self.feedLines lines).2.1 = none →
            self' = { (self.feedLines lines).2.2 with linesCodec := ⟨tail.length⟩ } ∧
              rest = tail) := by
  induction lines with
  | nil =>
      intro self fuel h hf
      obtain ⟨f, rfl⟩ : ∃ f, fuel = f + 1 := ⟨fuel - 1, by omega⟩
      refine ⟨_, _, ?_, fun _ => ⟨rfl, rfl⟩⟩
      rw [Lines.join_nil] at h ⊢
      rw [drainDecode, decode, decodeLoop_free _ h htail]
      rfl
  | cons line lines ih =>
      intro self fuel h hf
      rw [List.length_cons] at hf
      obtain ⟨f, rfl⟩ : ∃ f, fuel = f + 1 := ⟨fuel - 1, by omega⟩
      have hline := hlines line List.mem_cons_self
      have hrest : ∀ l ∈ lines, 10 ∉ l := fun l hl => hlines l (List.mem_cons_of_mem line hl)
      rw [Lines.join_cons] at h ⊢
      rw [drainDecode, decode, decodeLoop_line _ h hline, feedLines, feedLine_linesCodec]
      cases hfeed : self.feedLine line with
      | error e => exact ⟨_, _, rfl, fun h => by cases h⟩
      | ok r =>
          rcases r with ⟨next, _ | message⟩
          · -- a line that ends no event: the same call goes on over the rest
            have hshort : lines.length < (Lines.join 10 lines tail).length + 1 :=
              Nat.lt_succ_of_le (Lines.length_le_length_join 10 lines tail)
            have hlong : lines.length < (line ++ 10 :: Lines.join 10 lines tail).length := by
              rw [List.length_append, List.length_cons]
              omega
            have hfuel := decodeLoop_fuel htail hrest { next with linesCodec := ⟨0⟩ }
              (LinesCodec.scanned_zero _) hlong hshort
            obtain ⟨self', rest, hdrain, hnone⟩ :=
              ih hrest { next with linesCodec := ⟨0⟩ } (f + 1) (LinesCodec.scanned_zero _) (by omega)
            rw [drainDecode, decode] at hdrain
            rw [feedLines_linesCodec] at hdrain hnone
            refine ⟨self', rest, ?_, hnone⟩
            dsimp only [Except.map]
            rw [hfuel, hdrain]
            rfl
          · -- a line that ends an event: its message, then the next calls
            obtain ⟨self', rest, hdrain, hnone⟩ :=
              ih hrest { next with linesCodec := ⟨0⟩ } f (LinesCodec.scanned_zero _) (by omega)
            rw [feedLines_linesCodec] at hdrain hnone
            refine ⟨self', rest, ?_, hnone⟩
            dsimp only [Except.map]
            rw [Except.ok_bind, hdrain]
            rfl

/-- At the end of the input, with no whole line left, `decode_eof` returns
    the event being read, and then `None`. -/
theorem SseLineCodec.drainDecodeEof_eq {self : SseLineCodec} {buf : List UInt8}
    (h : self.linesCodec.Scanned buf) (hbuf : 10 ∉ buf) (fuel : Nat) :
    self.drainDecodeEof (fuel + 2) buf = .ok (self.flush.toList, none) := by
  have hev : ({ self with linesCodec := ⟨buf.length⟩ } : SseLineCodec).hasEvent = self.hasEvent :=
    rfl
  rw [drainDecodeEof, decodeEof, decode, decodeLoop_free _ h hbuf]
  dsimp only [Except.ok_bind]
  rw [hev, flush]
  cases self.hasEvent with
  | false => rfl
  | true =>
      -- the second call finds the buffers taken
      rw [Bool.not_true, if_neg Bool.false_ne_true, pure_bind]
      dsimp only
      rw [drainDecodeEof, decodeEof, decode, decodeLoop_free _ (LinesCodec.scanned_length hbuf) hbuf]
      rfl

/-- Before each read the reader holds the tail of what came, with the line
    codec past it, and the codec holds what the whole lines before left: from
    there it yields what the rest of the text does. -/
theorem framedRead_eq_messagesOf : ∀ (chunks : List (List UInt8)) (self : SseLineCodec)
    (buf : List UInt8), (∀ c ∈ chunks, c ≠ []) → 10 ∉ buf →
      framedRead chunks { self with linesCodec := ⟨buf.length⟩ } buf =
        .ok (self.messagesOf (buf ++ chunks.flatten))
  | [], self, buf, _, hbuf => by
      rw [framedRead, SseLineCodec.drainDecodeEof_eq (LinesCodec.scanned_length hbuf) hbuf,
        List.flatten_nil, List.append_nil, SseLineCodec.messagesOf,
        Lines.split_eq (Lines.IsLines.of_free hbuf)]
      rfl
  | chunk :: chunks, self, buf, hchunks, hbuf => by
      have hchunk : chunk.isEmpty = false := List.isEmpty_eq_false_iff.mpr (hchunks chunk
        List.mem_cons_self)
      have hread := Lines.isLines_split 10 (buf ++ chunk)
      have hscan : LinesCodec.Scanned ⟨buf.length⟩
          (Lines.join 10 (Lines.split 10 (buf ++ chunk)).1 (Lines.split 10 (buf ++ chunk)).2) := by
        rw [← hread.eq]
        exact (LinesCodec.scanned_length hbuf).append chunk
      have hfuel : (Lines.split 10 (buf ++ chunk)).1.length < (buf ++ chunk).length + 1 := by
        have hle := Lines.length_le_length_join 10 (Lines.split 10 (buf ++ chunk)).1
          (Lines.split 10 (buf ++ chunk)).2
        rw [← hread.eq] at hle
        omega
      obtain ⟨self', rest, hdrain, hnone⟩ := SseLineCodec.drainDecode_eq hread.tail_free
        hread.bodies_free { self with linesCodec := ⟨buf.length⟩ } _ hscan hfuel
      rw [← hread.eq, SseLineCodec.feedLines_linesCodec] at hdrain
      rw [SseLineCodec.feedLines_linesCodec] at hnone
      rw [framedRead, if_neg (by rw [hchunk]; exact Bool.false_ne_true), List.flatten_cons,
        ← List.append_assoc]
      dsimp only
      rw [hdrain, Except.ok_bind]
      dsimp only
      cases herr : (self.feedLines (Lines.split 10 (buf ++ chunk)).1).2.1 with
      | some e =>
          rw [SseLineCodec.messagesOf_of_error hread herr]
          rfl
      | none =>
          -- no error: the next read starts from the tail and the codec the lines left
          obtain ⟨rfl, rfl⟩ := hnone herr
          have hok : self.feedLines (Lines.split 10 (buf ++ chunk)).1 =
              ((self.feedLines (Lines.split 10 (buf ++ chunk)).1).1, none,
                (self.feedLines (Lines.split 10 (buf ++ chunk)).1).2.2) := by
            rw [← herr]
          dsimp only
          rw [framedRead_eq_messagesOf chunks _ _ (fun c hc => hchunks c (List.mem_cons_of_mem _ hc))
            hread.tail_free, SseLineCodec.messagesOf_of_ok hread hok]
          rfl

/-- The stream of any reads of a text is what the text yields. -/
theorem framedRead_eq_sseMessages (chunks : List (List UInt8)) (h : ∀ c ∈ chunks, c ≠ []) :
    framedRead chunks SseLineCodec.new [] = .ok (sseMessages chunks.flatten) :=
  framedRead_eq_messagesOf chunks SseLineCodec.new [] h List.not_mem_nil

/-- One read of a whole text yields what the text does. -/
theorem framedRead_singleton (text : List UInt8) :
    framedRead [text] SseLineCodec.new [] = .ok (sseMessages text) := by
  by_cases htext : text = []
  · rw [htext]
    rfl
  · rw [framedRead_eq_sseMessages [text] (fun c hc => (List.mem_singleton.mp hc) ▸ htext),
      List.flatten_singleton]

/-- The stream does not depend on how the text is cut into reads. -/
theorem framedRead_chunks_eq (chunks : List (List UInt8)) (h : ∀ c ∈ chunks, c ≠ []) :
    framedRead chunks SseLineCodec.new [] = framedRead [chunks.flatten] SseLineCodec.new [] := by
  rw [framedRead_eq_sseMessages chunks h, framedRead_singleton]

theorem createMessageStream_eq (text : String) :
    createMessageStream text = .ok (sseMessages (text.toList.flatMap String.utf8EncodeChar)) :=
  framedRead_singleton _

/-- The last line of a text is never read unless a `'\n'` ends it: the text
    yields what it does without the line. -/
theorem sseMessages_unterminated (text rest : List UInt8) (hrest : 10 ∉ rest) :
    sseMessages (text ++ 10 :: rest) = sseMessages (text ++ [10]) := by
  have htext := Lines.isLines_split 10 text
  -- the tail of `text` is a line once the `'\n'` comes, and `rest` is the new tail
  have hline : ∀ more, 10 ∉ more →
      Lines.IsLines 10 ((Lines.split 10 text).2 ++ 10 :: more) [(Lines.split 10 text).2] more :=
    fun more hmore => Lines.IsLines.cons htext.tail_free (Lines.IsLines.of_free hmore)
  have hsplit := Lines.split_eq (htext.append (hline rest hrest))
  have hsplit' := Lines.split_eq (htext.append (hline [] List.not_mem_nil))
  unfold sseMessages SseLineCodec.messagesOf
  rw [hsplit, hsplit']

/-- A `data` field with an empty value before `data: x` leaves no trace in
    the data. -/
theorem createMessageStream_drops_empty_data :
    createMessageStream "data:\ndata: x\n\n" = .ok ([⟨none, none, some ['x'], none⟩], none) :=
  rfl

end Protocols

end Dynamo
