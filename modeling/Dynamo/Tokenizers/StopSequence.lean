import Dynamo.Backend.Decoder

/-!
# The Stop-Sequence Decoder

`StopSequenceDecoder` of `lib/llm/src/tokenizers.rs` turns token ids into
text and stops at a stop token or a hidden stop sequence. Each id goes to a
`Sequence`, which decodes the ids since its last offsets and returns the text
the new id completes. The decoder appends that text to its jail, `state`,
then checks the id against the stop token ids, and then the jail against the
hidden stop sequences, in list order: the first one that the jail begins
decides, `Stopped` when it is the whole jail and `Held` otherwise. A jail that
begins none of them is released whole as `Text`.

Released and jailed text together are always the sequence's text
(`StopSequenceDecoder.run_released`), the jail always begins a hidden stop
sequence or is empty (`StopSequenceDecoder.Jailed`), and once stopped the
decoder only returns errors (`StopSequenceDecoder.run_of_stopped`). But the
check is on the whole jail and only as a beginning: a stop sequence that
starts inside the jail is not looked for. With the hidden stop sequence `ab`
and one character a token, the text `a` is held, `aa` then begins no stop
sequence and is released, and so is the `b` after it: the released text is
`aab`, and the decoder never stops (`stopSequenceDecoder_releases_hidden_stop`).

Text is bytes, as in `Backend`: `len`, `is_char_boundary` and slicing count
bytes.

## Main definitions

* `Tokenizer`: The tokenizer's `decode`, as a parameter.
* `Sequence`, `Sequence.appendTokenId`: The token ids with the offsets of
  the text returned so far, and one more id.
* `StopSequenceDecoder`, `StopSequenceDecoderBuilder.build`: The decoder and
  its construction.
* `StopSequenceDecoder.appendTokenId`, `StopSequenceDecoder.run`: One id, and
  a list of them.

## Theorems

* `Sequence.sliceRange_charBoundaryBelow`: The slice of the new text never
  panics.
* `StopSequenceDecoder.appendTokenId_released`: One call against the
  sequence's.
* `StopSequenceDecoder.run_released`: Before a stop, the released text and the
  jail are the sequence's text.
* `StopSequenceDecoder.jailed_run`: The jail begins a hidden stop sequence.
* `StopSequenceDecoder.checkHidden_text`: Released text begins no hidden stop
  sequence.
* `StopSequenceDecoder.run_of_stopped`, `StopSequenceDecoder.run_after_stop`:
  A stopped decoder returns errors.
* `stopSequenceDecoder_releases_hidden_stop`: Text with a hidden stop sequence
  is released.
-/

namespace Dynamo

namespace Tokenizers

open Backend

/-- `TokenIdType`. -/
abbrev TokenIdType := Nat

/-- The tokenizer's `decode`: the text of a list of token ids, with or
    without the special tokens, or the tokenizer's error. -/
structure Tokenizer where
  decode : List TokenIdType → Bool → Except String Text

/-! ### Text -/

/-- The bytes of `"�"`, U+FFFD, which a tokenizer writes for bytes that do
    not yet make a character. -/
def replacementChar : Text := Text.ofString "�"

/-- `str::replace("�", "")`: the text with each U+FFFD cut out. In valid
    UTF-8 its three bytes are that character and nothing else. -/
def removeReplacementChar : Text → Text
  | b₁ :: b₂ :: b₃ :: rest =>
      if [b₁, b₂, b₃] = replacementChar then removeReplacementChar rest
      else b₁ :: removeReplacementChar (b₂ :: b₃ :: rest)
  | s => s
termination_by structural s => s

/-- The loop of `Sequence::append_token_id` that moves `prefix_text_len`
    back until it is a character boundary of the new text, or zero. -/
def charBoundaryBelow (newText : Text) : Nat → Nat
  | 0 => 0
  | n + 1 => if isCharBoundary newText (n + 1) then n + 1 else charBoundaryBelow newText n

theorem charBoundaryBelow_le (newText : Text) : ∀ n, charBoundaryBelow newText n ≤ n
  | 0 => Nat.le_refl 0
  | n + 1 => by
      unfold charBoundaryBelow
      split
      · exact Nat.le_refl _
      · exact Nat.le_succ_of_le (charBoundaryBelow_le newText n)

theorem isCharBoundary_charBoundaryBelow (newText : Text) :
    ∀ n, isCharBoundary newText (charBoundaryBelow newText n) = true
  | 0 => rfl
  | n + 1 => by
      unfold charBoundaryBelow
      split
      · assumption
      · exact isCharBoundary_charBoundaryBelow newText n

theorem isCharBoundary_length (s : Text) : isCharBoundary s s.length = true := by
  unfold isCharBoundary
  by_cases h : s.length = 0
  · rw [if_pos h]
  · rw [if_neg h, List.getElem?_eq_none (Nat.le_refl _)]
    exact beq_self_eq_true _

/-! ### The sequence -/

/-- `Sequence`: the token ids, and the offsets of the ids whose text was
    returned last. The offsets stay in order and within the ids, so that the
    slices of `append_token_id` never panic. -/
structure Sequence where
  tokenizer : Tokenizer
  tokenIds : List TokenIdType
  prefixOffset : Nat
  readOffset : Nat
  prefixOffset_le : prefixOffset ≤ readOffset
  readOffset_le : readOffset ≤ tokenIds.length

namespace Sequence

/-- `Sequence::new`. -/
def new (tokenizer : Tokenizer) : Sequence :=
  ⟨tokenizer, [], 0, 0, Nat.le_refl 0, Nat.le_refl 0⟩

/-- The sequence with one more id, and the offsets as they were. -/
def push (s : Sequence) (tokenId : TokenIdType) : Sequence :=
  { s with
    tokenIds := s.tokenIds ++ [tokenId]
    readOffset_le := by
      have h := s.readOffset_le
      simp only [List.length_append, List.length_singleton]
      omega }

/-- The offsets moved past the ids whose text is returned. -/
def shift (s : Sequence) : Sequence :=
  { s with
    prefixOffset := s.readOffset
    readOffset := s.tokenIds.length
    prefixOffset_le := s.readOffset_le
    readOffset_le := Nat.le_refl _ }

/-- `Sequence::append_token_id`: the text the new id completes, or the
    tokenizer's error, and the sequence after the call. The id is pushed
    before either decode and stays when one fails. -/
def appendTokenId (s : Sequence) (tokenId : TokenIdType) : Except String Text × Sequence :=
  let s := s.push tokenId
  match s.tokenizer.decode ((s.tokenIds.take s.readOffset).drop s.prefixOffset) false with
  | .error e => (.error e, s)
  | .ok prefixText =>
      match s.tokenizer.decode (s.tokenIds.drop s.prefixOffset) false with
      | .error e => (.error e, s)
      | .ok newText =>
          let prefixTextLen := charBoundaryBelow newText prefixText.length
          if newText.length > prefixText.length then
            -- an unfinished character at the end: nothing yet, offsets kept
            if replacementChar.isSuffixOf newText then (.ok [], s)
            else (.ok (removeReplacementChar (newText.drop prefixTextLen)), s.shift)
          else (.ok [], s)

/-- The slice `new_text[prefix_text_len..]` of `append_token_id`, taken when
    the new text is longer than the prefix text, never panics. -/
theorem sliceRange_charBoundaryBelow {prefixText newText : Text}
    (h : newText.length > prefixText.length) :
    sliceRange newText (charBoundaryBelow newText prefixText.length) newText.length =
      .ok (newText.drop (charBoundaryBelow newText prefixText.length)) := by
  have hle := charBoundaryBelow_le newText prefixText.length
  unfold sliceRange
  rw [if_pos ⟨by omega, Nat.le_refl _, isCharBoundary_charBoundaryBelow _ _,
    isCharBoundary_length _⟩, List.take_length]

/-- The texts of the calls that returned, in order. -/
def texts (results : List (Except String Text)) : Text :=
  results.flatMap fun result =>
    match result with
    | .ok text => text
    | .error _ => []

/-- The sequence's calls over a list of ids. -/
def run (s : Sequence) : List TokenIdType → List (Except String Text) × Sequence
  | [] => ([], s)
  | tokenId :: tokenIds =>
      let (result, s) := s.appendTokenId tokenId
      let (results, s) := s.run tokenIds
      (result :: results, s)

theorem texts_cons (result : Except String Text) (results : List (Except String Text)) :
    texts (result :: results) = texts [result] ++ texts results := by
  simp only [texts, List.flatMap_cons, List.flatMap_nil, List.append_nil]

end Sequence

/-! ### The decoder -/

/-- `SequenceDecoderOutput`. -/
inductive SequenceDecoderOutput where
  | text (text : Text)
  | held
  | stopped
  | stoppedWithText (text : Text)
  deriving DecidableEq, Repr

/-- `StopSequenceDecoder`, without the visible stop sequences that nothing
    reads. -/
structure StopSequenceDecoder where
  sequence : Sequence
  stopTokenIdsVisible : List TokenIdType
  stopTokenIdsHidden : List TokenIdType
  stopSequencesHidden : List Text
  stopped : Bool
  state : Text

/-- `StopSequenceDecoderBuilder`, without the visible stop sequences. -/
structure StopSequenceDecoderBuilder where
  tokenizer : Tokenizer
  stopTokenIdsVisible : List TokenIdType
  stopTokenIdsHidden : List TokenIdType
  stopSequencesHidden : List Text

namespace StopSequenceDecoderBuilder

/-- `StopSequenceDecoderBuilder::new`. -/
def new (tokenizer : Tokenizer) : StopSequenceDecoderBuilder := ⟨tokenizer, [], [], []⟩

/-- `add_stop_token_ids_visible`. -/
def addStopTokenIdsVisible (b : StopSequenceDecoderBuilder) (tokenIds : List TokenIdType) :
    StopSequenceDecoderBuilder :=
  { b with stopTokenIdsVisible := b.stopTokenIdsVisible ++ tokenIds }

/-- `add_stop_token_ids_hidden`. -/
def addStopTokenIdsHidden (b : StopSequenceDecoderBuilder) (tokenIds : List TokenIdType) :
    StopSequenceDecoderBuilder :=
  { b with stopTokenIdsHidden := b.stopTokenIdsHidden ++ tokenIds }

/-- `add_stop_sequences_hidden`. -/
def addStopSequencesHidden (b : StopSequenceDecoderBuilder) (strings : List String) :
    StopSequenceDecoderBuilder :=
  { b with stopSequencesHidden := b.stopSequencesHidden ++ strings.map Text.ofString }

/-- `build`: a new sequence, not stopped, with an empty jail. -/
def build (b : StopSequenceDecoderBuilder) : Except String StopSequenceDecoder :=
  .ok ⟨Sequence.new b.tokenizer, b.stopTokenIdsVisible, b.stopTokenIdsHidden, b.stopSequencesHidden,
    false, []⟩

end StopSequenceDecoderBuilder

namespace StopSequenceDecoder

/-- The loop of `append_token_id` over the hidden stop sequences, on a
    decoder whose jail has the new text: the first one the jail begins
    decides, and a jail that begins none is released. -/
def checkHidden (d : StopSequenceDecoder) : List Text →
    Except String SequenceDecoderOutput × StopSequenceDecoder
  | [] => (.ok (.text d.state), { d with state := [] })
  | stopSequence :: rest =>
      if d.state.isPrefixOf stopSequence then
        -- a matched hidden stop sequence is not returned, and stays jailed
        if stopSequence = d.state then (.ok .stopped, { d with stopped := true })
        else (.ok .held, d)
      else checkHidden d rest

/-- `StopSequenceDecoder::append_token_id`. -/
def appendTokenId (d : StopSequenceDecoder) (tokenId : TokenIdType) :
    Except String SequenceDecoderOutput × StopSequenceDecoder :=
  if d.stopped then (.error "Decoder is stopped", d)
  else
    match d.sequence.appendTokenId tokenId with
    | (.error e, sequence) => (.error e, { d with sequence })
    | (.ok text, sequence) =>
        let d := { d with sequence, state := d.state ++ text }
        let flags := if tokenId ∈ d.stopTokenIdsVisible then (true, true) else (false, false)
        -- a hidden stop token wins over a visible one
        let (stop, visible) := if tokenId ∈ d.stopTokenIdsHidden then (true, false) else flags
        if stop then
          let stopped := { d with stopped := true, state := [] }
          if visible then (.ok (.stoppedWithText d.state), stopped) else (.ok .stopped, stopped)
        else d.checkHidden d.stopSequencesHidden

/-- `close`. -/
def close (d : StopSequenceDecoder) : StopSequenceDecoder := { d with stopped := true }

/-- The decoder's calls over a list of ids. -/
def run (d : StopSequenceDecoder) : List TokenIdType →
    List (Except String SequenceDecoderOutput) × StopSequenceDecoder
  | [] => ([], d)
  | tokenId :: tokenIds =>
      let (result, d) := d.appendTokenId tokenId
      let (results, d) := d.run tokenIds
      (result :: results, d)

/-- The text the calls released with `Text`, in order. -/
def released (results : List (Except String SequenceDecoderOutput)) : Text :=
  results.flatMap fun result =>
    match result with
    | .ok (.text text) => text
    | _ => []

theorem released_cons (result : Except String SequenceDecoderOutput)
    (results : List (Except String SequenceDecoderOutput)) :
    released (result :: results) = released [result] ++ released results := by
  simp only [released, List.flatMap_cons, List.flatMap_nil, List.append_nil]

/-! ### One call -/

theorem appendTokenId_of_stopped {d : StopSequenceDecoder} (hd : d.stopped = true)
    (tokenId : TokenIdType) : d.appendTokenId tokenId = (.error "Decoder is stopped", d) := by
  unfold appendTokenId
  rw [if_pos hd]

/-- The loop over the hidden stop sequences changes only the jail and the
    stop flag. -/
theorem checkHidden_frame (d : StopSequenceDecoder) :
    ∀ seqs, ∃ state stopped, (d.checkHidden seqs).2 = { d with state, stopped }
  | [] => ⟨[], d.stopped, rfl⟩
  | stopSequence :: rest => by
      unfold checkHidden
      by_cases hp : d.state.isPrefixOf stopSequence = true
      · rw [if_pos hp]
        by_cases he : stopSequence = d.state
        · exact ⟨d.state, true, by rw [if_pos he]⟩
        · exact ⟨d.state, d.stopped, by rw [if_neg he]⟩
      · rw [if_neg hp]
        exact checkHidden_frame d rest

/-- Unless it stops the decoder, the loop releases the jail or keeps it. -/
theorem checkHidden_released (d : StopSequenceDecoder) :
    ∀ seqs, (d.checkHidden seqs).2.stopped = false →
      released [(d.checkHidden seqs).1] ++ (d.checkHidden seqs).2.state = d.state
  | [], _ => by
      simp only [checkHidden, released, List.flatMap_cons, List.flatMap_nil, List.append_nil]
  | stopSequence :: rest, h => by
      unfold checkHidden at h ⊢
      by_cases hp : d.state.isPrefixOf stopSequence = true
      · rw [if_pos hp] at h ⊢
        by_cases he : stopSequence = d.state
        · rw [if_pos he] at h
          cases h
        · rw [if_neg he]
          rfl
      · rw [if_neg hp] at h ⊢
        exact checkHidden_released d rest h

/-- The loop stops the decoder exactly when it returns `Stopped`, and never
    returns `StoppedWithText`. -/
theorem checkHidden_stopped (d : StopSequenceDecoder) (hd : d.stopped = false) :
    ∀ seqs, ((d.checkHidden seqs).1 = .ok .stopped ↔ (d.checkHidden seqs).2.stopped = true) ∧
      ∀ text, (d.checkHidden seqs).1 ≠ .ok (.stoppedWithText text)
  | [] => by
      simp only [checkHidden, ne_eq, Except.ok.injEq, reduceCtorEq, not_false_eq_true,
        implies_true, and_true, hd, Bool.false_eq_true]
  | stopSequence :: rest => by
      unfold checkHidden
      by_cases hp : d.state.isPrefixOf stopSequence = true
      · rw [if_pos hp]
        by_cases he : stopSequence = d.state
        · rw [if_pos he]
          simp only [ne_eq, Except.ok.injEq, reduceCtorEq, not_false_eq_true, implies_true, and_self]
        · rw [if_neg he]
          simp only [ne_eq, Except.ok.injEq, reduceCtorEq, hd, Bool.false_eq_true,
            not_false_eq_true, implies_true, and_self]
      · rw [if_neg hp]
        exact checkHidden_stopped d hd rest

/-- What the loop releases with `Text` is the jail, which begins no hidden
    stop sequence. -/
theorem checkHidden_text (d : StopSequenceDecoder) :
    ∀ seqs text, (d.checkHidden seqs).1 = .ok (.text text) → text = d.state ∧ ∀ s ∈ seqs, ¬ text <+: s
  | [], text, h => by
      cases h
      exact ⟨rfl, fun s hs => absurd hs List.not_mem_nil⟩
  | stopSequence :: rest, text, h => by
      unfold checkHidden at h
      by_cases hp : d.state.isPrefixOf stopSequence = true
      · rw [if_pos hp] at h
        by_cases he : stopSequence = d.state
        · rw [if_pos he] at h
          cases h
        · rw [if_neg he] at h
          cases h
      · rw [if_neg hp] at h
        obtain ⟨htext, hrest⟩ := checkHidden_text d rest text h
        refine ⟨htext, fun s hs => ?_⟩
        rcases List.mem_cons.mp hs with rfl | hs
        · rw [htext, ← List.isPrefixOf_iff_prefix]
          exact hp
        · exact hrest s hs

/-- What the loop leaves jailed is empty or begins one of the stop
    sequences. -/
theorem checkHidden_jailed (d : StopSequenceDecoder) :
    ∀ seqs, (d.checkHidden seqs).2.state = [] ∨ ∃ s ∈ seqs, (d.checkHidden seqs).2.state <+: s
  | [] => Or.inl rfl
  | stopSequence :: rest => by
      unfold checkHidden
      by_cases hp : d.state.isPrefixOf stopSequence = true
      · -- the jail is kept, and it begins this stop sequence
        have hjail : ∃ s ∈ stopSequence :: rest, d.state <+: s :=
          ⟨stopSequence, List.mem_cons_self, List.isPrefixOf_iff_prefix.mp hp⟩
        rw [if_pos hp]
        by_cases he : stopSequence = d.state
        · rw [if_pos he]
          exact Or.inr hjail
        · rw [if_neg he]
          exact Or.inr hjail
      · rw [if_neg hp]
        rcases checkHidden_jailed d rest with h | ⟨s, hs, hpre⟩
        · exact Or.inl h
        · exact Or.inr ⟨s, List.mem_cons_of_mem _ hs, hpre⟩

/-- A call whose sequence fails changes only the sequence. -/
theorem appendTokenId_error {d : StopSequenceDecoder} (hd : d.stopped = false) {tokenId : TokenIdType}
    {e : String} {sequence : Sequence} (hs : d.sequence.appendTokenId tokenId = (.error e, sequence)) :
    d.appendTokenId tokenId = (.error e, { d with sequence }) := by
  unfold appendTokenId
  rw [if_neg (by rw [hd]; exact Bool.false_ne_true), hs]

/-- A call whose sequence returns text: the text joins the jail, then a
    hidden stop token, a visible one, or the loop over the hidden stop
    sequences decides. -/
theorem appendTokenId_ok {d : StopSequenceDecoder} (hd : d.stopped = false) {tokenId : TokenIdType}
    {text : Text} {sequence : Sequence} (hs : d.sequence.appendTokenId tokenId = (.ok text, sequence)) :
    d.appendTokenId tokenId =
      if tokenId ∈ d.stopTokenIdsHidden then
        (.ok .stopped, { d with sequence, stopped := true, state := [] })
      else if tokenId ∈ d.stopTokenIdsVisible then
        (.ok (.stoppedWithText (d.state ++ text)), { d with sequence, stopped := true, state := [] })
      else { d with sequence, state := d.state ++ text }.checkHidden d.stopSequencesHidden := by
  unfold appendTokenId
  rw [if_neg (by rw [hd]; exact Bool.false_ne_true), hs]
  by_cases hh : tokenId ∈ d.stopTokenIdsHidden
  · simp only [hh, if_true, Bool.false_eq_true, if_false]
  · by_cases hv : tokenId ∈ d.stopTokenIdsVisible
    · simp only [hh, hv, if_true, if_false]
    · simp only [hh, hv, if_false, Bool.false_eq_true]

/-- The three ways a call on a running decoder goes: the sequence fails, a
    stop token stops the decoder with an empty jail, or the loop over the
    hidden stop sequences decides on the grown jail. -/
theorem appendTokenId_cases {d : StopSequenceDecoder} (hd : d.stopped = false)
    (tokenId : TokenIdType) :
    (∃ e sequence, d.appendTokenId tokenId = (.error e, { d with sequence })) ∨
      (∃ sequence output, (output = .stopped ∨ ∃ text, output = .stoppedWithText text) ∧
        d.appendTokenId tokenId = (.ok output, { d with sequence, stopped := true, state := [] })) ∨
      ∃ sequence text, d.appendTokenId tokenId =
        { d with sequence, state := d.state ++ text }.checkHidden d.stopSequencesHidden := by
  rcases hs : d.sequence.appendTokenId tokenId with ⟨_ | text, sequence⟩
  · rw [appendTokenId_error hd hs]
    exact Or.inl ⟨_, sequence, rfl⟩
  · rw [appendTokenId_ok hd hs]
    split
    · exact Or.inr (Or.inl ⟨sequence, .stopped, Or.inl rfl, rfl⟩)
    · split
      · exact Or.inr (Or.inl ⟨sequence, _, Or.inr ⟨_, rfl⟩, rfl⟩)
      · exact Or.inr (Or.inr ⟨sequence, text, rfl⟩)

/-- One call against the sequence's: the decoder's sequence takes the same
    step, and unless the call stops the decoder, released and jailed text
    together gain exactly the sequence's text. -/
theorem appendTokenId_released {d : StopSequenceDecoder} (hd : d.stopped = false)
    (tokenId : TokenIdType) :
    (d.appendTokenId tokenId).2.sequence = (d.sequence.appendTokenId tokenId).2 ∧
      ((d.appendTokenId tokenId).2.stopped = false →
        released [(d.appendTokenId tokenId).1] ++ (d.appendTokenId tokenId).2.state =
          d.state ++ Sequence.texts [(d.sequence.appendTokenId tokenId).1]) := by
  rcases hs : d.sequence.appendTokenId tokenId with ⟨_ | text, sequence⟩
  · rw [appendTokenId_error hd hs]
    refine ⟨rfl, fun _ => ?_⟩
    simp only [released, Sequence.texts, List.flatMap_cons, List.flatMap_nil, List.append_nil,
      List.nil_append]
  · rw [appendTokenId_ok hd hs]
    by_cases hh : tokenId ∈ d.stopTokenIdsHidden
    · rw [if_pos hh]
      exact ⟨rfl, fun h => by cases h⟩
    · rw [if_neg hh]
      by_cases hv : tokenId ∈ d.stopTokenIdsVisible
      · rw [if_pos hv]
        exact ⟨rfl, fun h => by cases h⟩
      · -- the loop keeps the sequence, and releases or keeps the grown jail
        rw [if_neg hv]
        let d' : StopSequenceDecoder := { d with sequence, state := d.state ++ text }
        obtain ⟨state, stopped, hframe⟩ := checkHidden_frame d' d.stopSequencesHidden
        refine ⟨by rw [hframe], fun h => ?_⟩
        rw [checkHidden_released d' d.stopSequencesHidden h]
        simp only [d', Sequence.texts, List.flatMap_cons, List.flatMap_nil, List.append_nil]

/-- The jail is empty or begins a hidden stop sequence. -/
def Jailed (d : StopSequenceDecoder) : Prop :=
  d.state = [] ∨ ∃ s ∈ d.stopSequencesHidden, d.state <+: s

theorem jailed_appendTokenId {d : StopSequenceDecoder} (hj : d.Jailed) (tokenId : TokenIdType) :
    (d.appendTokenId tokenId).2.Jailed := by
  cases hd : d.stopped with
  | true =>
      rw [appendTokenId_of_stopped hd]
      exact hj
  | false =>
      rcases appendTokenId_cases hd tokenId with ⟨e, sequence, h⟩ | ⟨sequence, output, -, h⟩ |
          ⟨sequence, text, h⟩
      · rw [h]
        exact hj
      · rw [h]
        exact Or.inl rfl
      · -- the loop keeps the hidden stop sequences it reads
        let d' : StopSequenceDecoder := { d with sequence, state := d.state ++ text }
        obtain ⟨state, stopped, hframe⟩ := checkHidden_frame d' d.stopSequencesHidden
        have hjail := checkHidden_jailed d' d.stopSequencesHidden
        unfold Jailed
        rw [h, hframe]
        rw [hframe] at hjail
        exact hjail

/-- A call that returns `Stopped` or `StoppedWithText` leaves the decoder
    stopped. -/
theorem appendTokenId_stopped {d : StopSequenceDecoder} {tokenId : TokenIdType}
    (h : (d.appendTokenId tokenId).1 = .ok .stopped ∨
      ∃ text, (d.appendTokenId tokenId).1 = .ok (.stoppedWithText text)) :
    (d.appendTokenId tokenId).2.stopped = true := by
  cases hd : d.stopped with
  | true =>
      rw [appendTokenId_of_stopped hd] at h
      rcases h with h | ⟨_, h⟩ <;> cases h
  | false =>
      rcases appendTokenId_cases hd tokenId with ⟨e, sequence, hcall⟩ | ⟨sequence, output, -, hcall⟩ |
          ⟨sequence, text, hcall⟩
      · rw [hcall] at h
        rcases h with h | ⟨_, h⟩ <;> cases h
      · rw [hcall]
      · -- the loop stops the decoder exactly when it returns `Stopped`
        rw [hcall] at h ⊢
        have hstop := checkHidden_stopped { d with sequence, state := d.state ++ text } hd
          d.stopSequencesHidden
        rcases h with h | ⟨text', h⟩
        · exact hstop.1.mp h
        · exact absurd h (hstop.2 text')

/-! ### Runs -/

theorem run_of_stopped {d : StopSequenceDecoder} (hd : d.stopped = true) :
    ∀ tokenIds : List TokenIdType,
      d.run tokenIds = (tokenIds.map fun _ => .error "Decoder is stopped", d)
  | [] => rfl
  | tokenId :: tokenIds => by
      unfold run
      rw [appendTokenId_of_stopped hd]
      dsimp only
      rw [run_of_stopped hd tokenIds]
      rfl

theorem run_cons (d : StopSequenceDecoder) (tokenId : TokenIdType) (tokenIds : List TokenIdType) :
    d.run (tokenId :: tokenIds) =
      ((d.appendTokenId tokenId).1 :: ((d.appendTokenId tokenId).2.run tokenIds).1,
        ((d.appendTokenId tokenId).2.run tokenIds).2) := rfl

theorem run_append (d : StopSequenceDecoder) :
    ∀ xs ys : List TokenIdType, d.run (xs ++ ys) =
      ((d.run xs).1 ++ ((d.run xs).2.run ys).1, ((d.run xs).2.run ys).2)
  | [], ys => rfl
  | x :: xs, ys => by
      simp only [List.cons_append, run]
      rw [run_append (d.appendTokenId x).2 xs ys]

/-- Before a stop, the decoder's sequence is the sequence run on the same
    ids, and the text released with `Text` followed by the jail is the jail
    it started with followed by the sequence's text. -/
theorem run_released :
    ∀ (d : StopSequenceDecoder) (tokenIds : List TokenIdType), d.stopped = false →
      (d.run tokenIds).2.stopped = false →
        (d.run tokenIds).2.sequence = (d.sequence.run tokenIds).2 ∧
          released (d.run tokenIds).1 ++ (d.run tokenIds).2.state =
            d.state ++ Sequence.texts (d.sequence.run tokenIds).1
  | d, [], _, _ => ⟨rfl, by simp only [run, Sequence.run, released, Sequence.texts, List.flatMap_nil,
      List.nil_append, List.append_nil]⟩
  | d, tokenId :: tokenIds, hd, hend => by
      unfold run at hend ⊢
      unfold Sequence.run
      dsimp only at hend ⊢
      -- the call did not stop the decoder, or the run would have ended stopped
      have hd' : (d.appendTokenId tokenId).2.stopped = false := by
        by_contra hstop
        rw [Bool.not_eq_false] at hstop
        rw [run_of_stopped hstop] at hend
        rw [hend] at hstop
        cases hstop
      obtain ⟨hseq, htext⟩ := appendTokenId_released hd tokenId
      obtain ⟨hseq', htext'⟩ := run_released (d.appendTokenId tokenId).2 tokenIds hd' hend
      rw [hseq] at hseq' htext'
      refine ⟨hseq', ?_⟩
      rw [released_cons, Sequence.texts_cons, List.append_assoc, htext', ← List.append_assoc,
        htext hd', List.append_assoc]

theorem jailed_run : ∀ (d : StopSequenceDecoder), d.Jailed → ∀ tokenIds : List TokenIdType,
    (d.run tokenIds).2.Jailed
  | d, hj, [] => hj
  | d, hj, tokenId :: tokenIds => by
      unfold run
      exact jailed_run _ (jailed_appendTokenId hj tokenId) tokenIds

/-- After a call returns `Stopped` or `StoppedWithText`, every later call of
    the run returns the error. -/
theorem run_after_stop (d : StopSequenceDecoder) (xs : List TokenIdType) (tokenId : TokenIdType)
    (ys : List TokenIdType)
    (h : ((d.run xs).2.appendTokenId tokenId).1 = .ok .stopped ∨
      ∃ text, ((d.run xs).2.appendTokenId tokenId).1 = .ok (.stoppedWithText text)) :
    (d.run (xs ++ tokenId :: ys)).1 =
      (d.run xs).1 ++ ((d.run xs).2.appendTokenId tokenId).1 ::
        ys.map fun _ => .error "Decoder is stopped" := by
  rw [run_append, run_cons, run_of_stopped (appendTokenId_stopped h)]

end StopSequenceDecoder

/-! ### A hidden stop sequence released -/

/-- With the hidden stop sequence `ab` and one character a token, the ids of
    `a`, `a` and `b` are held, released as `aa`, and released as `b`. The
    sequence's text `aab` has the stop sequence after the third id, and so
    does the released text, but the decoder never stops. -/
theorem stopSequenceDecoder_releases_hidden_stop :
    let tokenizer : Tokenizer :=
      ⟨fun ids _ => .ok (ids.flatMap fun id => Text.ofString (if id = 1 then "a" else "b"))⟩
    let builder := (StopSequenceDecoderBuilder.new tokenizer).addStopSequencesHidden ["ab"]
    let tokenIds : List TokenIdType := [1, 1, 2]
    builder.build.map (fun d => (d.run tokenIds).1) =
        .ok [.ok .held, .ok (.text (Text.ofString "aa")), .ok (.text (Text.ofString "b"))] ∧
      builder.build.map (fun d => (d.sequence.run tokenIds).1) =
        .ok [.ok (Text.ofString "a"), .ok (Text.ofString "a"), .ok (Text.ofString "b")] ∧
      builder.build.map (fun d =>
        decide (Text.ofString "ab" <:+: StopSequenceDecoder.released (d.run tokenIds).1)) = .ok true := by
  refine ⟨by decide, by decide, by decide⟩

end Tokenizers

end Dynamo
