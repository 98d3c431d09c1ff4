import Dynamo.Lib.Abort
import Dynamo.Lib.Search

/-!
# The Backend Decoder's Hidden Stops

The decoder of `lib/llm/src/backend.rs`, which turns the token ids an engine
generates into text and stops the generation at a hidden stop token or a
hidden stop sequence.

Each id goes through the tokenizer's `DecodeStream`, which returns the text
the id completes, if any. From the `min_tokens`-th id on, an id among the
hidden stop ids stops the generation, and otherwise the decoded piece joins
the jail, a window of the last bytes of text. The stop sequences are looked
for in the jail in list order, and the first one found stops the generation,
with the part of the piece before it. When none is found the jail is trimmed
back to as many bytes as the longest stop sequence, by `String::drain`.
`process_token_ids` runs the ids in order, collects the pieces, and appends
each piece to the text unless it stops the generation.

Text is bytes here, as Rust's `String` is: the jail is trimmed at a byte
count, and `drain` panics when that count falls inside a character. The
two pieces `é` and `x` with the stop sequence `ab` do that
(`processTokenIds_panics_in_jail`); text of one-byte characters never does
(`Decoder.processTokenIds_ascii`).

When nothing panics, the jail is the last bytes of the text fed to it
(`Decoder.JailHolds`), and since no stop sequence occurred before, a new
occurrence ends in the new piece and so lies in the jail
(`Search.infix_keepLast_append_iff`). The decoder therefore stops at the
first id whose piece completes an occurrence of a stop sequence in the text
fed to the jail, with the first stop sequence in list order that occurs there,
and with the text before that piece, the part of the piece before the stop
sequence being left out of the text (`Decoder.processLoop_jailHolds`, and
`Decoder.processTokenIds_new` from a new decoder). Text decoded before the
`min_tokens`-th id is not fed to the jail (`Decoder.step_of_lt_minTokens`).

## Main definitions

* `Text`: The bytes of a string.
* `DecodeStream`: The tokenizer's incremental decoding, as a parameter.
* `Decoder`, `Decoder.new`: The decoder and its construction.
* `jailStep`: The stop-sequence check on one piece.
* `Decoder.step`, `Decoder.processTokenIds`: One id, and a list of them.

## Theorems

* `jailStep_of_jailHolds`: The check on one piece, against the whole text.
* `Decoder.step_of_jailHolds`: One id past `min_tokens`, against the whole
  text.
* `Decoder.processLoop_jailHolds`, `Decoder.processTokenIds_new`: Where a run
  stops and what it returns.
* `Decoder.step_of_lt_minTokens`: Before `min_tokens` the jail is untouched.
* `Decoder.processTokenIds_ascii`: On one-byte text nothing panics.
* `processTokenIds_panics_in_jail`: A trimmed jail can split a character.
-/

namespace Dynamo

namespace Backend

open Search

/-- The bytes of a Rust `String`. -/
abbrev Text := List UInt8

/-- The UTF-8 bytes of a string. -/
def Text.ofString (s : String) : Text :=
  s.toList.flatMap String.utf8EncodeChar

/-! ### Strings as bytes -/

/-- `str::is_char_boundary`: the start, the end, and the place before any byte
    that does not continue a character. -/
def isCharBoundary (s : Text) (index : Nat) : Bool :=
  if index = 0 then true
  else
    match s[index]? with
    | none => index == s.length
    | some b => decide (b < 0x80 ∨ 0xC0 ≤ b)

/-- `String::drain(0..end)` with the drained bytes dropped: the bytes from
    `end` on. It panics unless `end` is in range and a character boundary. -/
def drainFront (s : Text) (end_ : Nat) : Except Abort Text :=
  if end_ > s.length then
    .error (.panic s!"range end index {end_} out of range for slice of length {s.length}")
  else if isCharBoundary s end_ then .ok (s.drop end_)
  else .error (.panic "assertion failed: self.is_char_boundary(end)")

/-- `&s[start..end]`: the bytes between, which panics unless the two ends are
    in order, in range and character boundaries. -/
def sliceRange (s : Text) (start end_ : Nat) : Except Abort Text :=
  if start ≤ end_ ∧ end_ ≤ s.length ∧ isCharBoundary s start = true ∧ isCharBoundary s end_ = true then
    .ok ((s.take end_).drop start)
  else .error (.panic s!"byte index {end_} is not a char boundary")

/-! ### The decoder -/

/-- `StopTrigger`. -/
inductive StopTrigger where
  | maxTokensLimit
  | hiddenStopTokenDetected (tokenId : Nat)
  | hiddenStopSequenceDetected (seq : Text)
  deriving DecidableEq, Repr

/-- `should_hide_text`. -/
def StopTrigger.shouldHideText : StopTrigger → Bool
  | .maxTokensLimit => false
  | .hiddenStopTokenDetected _ => true
  | .hiddenStopSequenceDetected _ => true

/-- `StopConditions`, with the fields the decoder reads. -/
structure StopConditions where
  stop : Option (List Text)
  stopTokenIdsHidden : Option (List Nat)
  minTokens : Option Nat

/-- `DecodeStream`: the tokenizer's incremental decoding, as its state and
    its `step`, which returns the text an id completes, if any, or the
    tokenizer's error. -/
structure DecodeStream (σ : Type) where
  state : σ
  next : σ → Nat → Except String (Option Text × σ)

variable {σ : Type}

/-- `DecodeStream::step`. -/
def DecodeStream.step (ds : DecodeStream σ) (id : Nat) : Except String (Option Text × DecodeStream σ) :=
  match ds.next ds.state id with
  | .error e => .error e
  | .ok (piece, state) => .ok (piece, { ds with state })

/-- `Decoder`, without the `jailed_bytes` that nothing modelled reads. -/
structure Decoder (σ : Type) where
  decodeStream : DecodeStream σ
  minTokens : Nat
  hiddenStopIds : List Nat
  hiddenStopSequences : List Text
  generatedTokens : Nat
  jail : Text
  jailMaxBytes : Nat

/-- `Decoder::new`: the jail holds as many bytes as the longest stop
    sequence. -/
def Decoder.new (decodeStream : DecodeStream σ) (stopCondition : StopConditions) : Decoder σ :=
  let hiddenStopSequences := stopCondition.stop.getD []
  { decodeStream
    minTokens := stopCondition.minTokens.getD 0
    hiddenStopIds := stopCondition.stopTokenIdsHidden.getD []
    hiddenStopSequences
    generatedTokens := 0
    jail := []
    jailMaxBytes := ((hiddenStopSequences.map List.length).max?).getD 0 }

/-- `StepResult`. -/
structure StepResult where
  token : Option Text
  stopTrigger : Option StopTrigger
  deriving DecidableEq, Repr

/-- `SeqResult`. -/
structure SeqResult where
  tokens : List (Option Text)
  text : Option Text
  stopTrigger : Option StopTrigger
  deriving DecidableEq, Repr

/-- The loop over the stop sequences in `step`: the first one, in list
    order, that `gs_find` finds in the jail, and where. -/
def firstStop (jail : Text) : List Text → Option (Text × Nat)
  | [] => none
  | seq :: rest =>
      match findFirst seq jail with
      | some offset => some (seq, offset)
      | none => firstStop jail rest

/-- The stop-sequence check of `step` on a decoded piece: the piece joins the
    jail; the first stop sequence found stops the generation with the part of
    the piece before it, or nothing if the occurrence starts before the
    piece; otherwise the jail is trimmed back to `jailMaxBytes` bytes. -/
def jailStep (jail : Text) (jailMaxBytes : Nat) (seqs : List Text) (token : Text) :
    Except Abort (Text × Option (Text × Text)) := do
  let preAppend := jail.length
  let jail := jail ++ token
  match firstStop jail seqs with
  | some (seq, offset) =>
      let partialToken ← if offset ≥ preAppend then sliceRange jail preAppend offset else pure []
      return (jail, some (partialToken, seq))
  | none =>
      if jail.length > jailMaxBytes then
        let jail ← drainFront jail (jail.length - jailMaxBytes)
        return (jail, none)
      else return (jail, none)

/-- `Decoder::step`: one id, decoded; from the `min_tokens`-th id on, a hidden
    stop id stops the generation, and otherwise, when there are stop
    sequences, the piece goes through the jail. -/
def Decoder.step (d : Decoder σ) (tokenId : Nat) :
    Except Abort (Except String (StepResult × Decoder σ)) := do
  let generatedTokens := d.generatedTokens + 1
  match d.decodeStream.step tokenId with
  | .error e => return .error e
  | .ok (token, decodeStream) =>
      let d := { d with generatedTokens, decodeStream }
      if generatedTokens < d.minTokens then return .ok (⟨token, none⟩, d)
      else if tokenId ∈ d.hiddenStopIds then
        return .ok (⟨token, some (.hiddenStopTokenDetected tokenId)⟩, d)
      else if d.jailMaxBytes > 0 then
        match token with
        | none => return .ok (⟨none, none⟩, d)
        | some piece =>
            match ← jailStep d.jail d.jailMaxBytes d.hiddenStopSequences piece with
            | (jail, some (partialToken, seq)) =>
                return .ok (⟨some partialToken, some (.hiddenStopSequenceDetected seq)⟩, { d with jail })
            | (jail, none) => return .ok (⟨some piece, none⟩, { d with jail })
      else return .ok (⟨token, none⟩, d)

/-- The text a step's piece adds, unless its trigger hides it. -/
def addText (text : Option Text) (token : Option Text) (stopTrigger : Option StopTrigger) :
    Option Text :=
  if (stopTrigger.map StopTrigger.shouldHideText).getD false then text
  else
    match token with
    | some piece => some (text.getD [] ++ piece)
    | none => text

/-- The loop of `process_token_ids`, from the pieces and text so far. -/
def Decoder.processLoop (d : Decoder σ) (tokens : List (Option Text)) (text : Option Text) :
    List Nat → Except Abort (Except String (SeqResult × Decoder σ))
  | [] => return .ok (⟨tokens, text, none⟩, d)
  | tokenId :: rest => do
      match ← d.step tokenId with
      | .error e => return .error e
      | .ok (⟨token, stopTrigger⟩, d) =>
          let text := addText text token stopTrigger
          let tokens := tokens ++ [token]
          match stopTrigger with
          | some trigger => return .ok (⟨tokens, text, some trigger⟩, d)
          | none => d.processLoop tokens text rest

/-- `Decoder::process_token_ids`. -/
def Decoder.processTokenIds (d : Decoder σ) (tokenIds : List Nat) :
    Except Abort (Except String (SeqResult × Decoder σ)) :=
  d.processLoop [] none tokenIds

/-! ### The jail against the whole text -/

/-- The first stop sequence, in list order, that occurs in a text. -/
def firstOccurring (text : Text) (seqs : List Text) : Option Text :=
  seqs.find? fun seq => decide (seq <:+: text)

/-- The scan of the stop sequences finds the first one that occurs. -/
theorem firstStop_map_fst (jail : Text) :
    ∀ seqs : List Text, (firstStop jail seqs).map Prod.fst = firstOccurring jail seqs
  | [] => rfl
  | seq :: rest => by
      rw [firstStop, firstOccurring, List.find?_cons]
      cases hf : findFirst seq jail with
      | some offset =>
          have hin : seq <:+: jail := findFirst_isSome_iff.mp (by rw [hf]; rfl)
          rw [decide_eq_true hin]
          rfl
      | none =>
          have hout : ¬ seq <:+: jail := fun hin => by
            have := findFirst_isSome_iff.mpr hin
            rw [hf] at this
            cases this
          rw [decide_eq_false hout]
          exact firstStop_map_fst jail rest

/-- Two texts in which the same stop sequences occur have the same first
    one. -/
theorem firstOccurring_congr {a b : Text} :
    ∀ {seqs : List Text}, (∀ seq ∈ seqs, seq <:+: a ↔ seq <:+: b) →
      firstOccurring a seqs = firstOccurring b seqs
  | [], _ => rfl
  | seq :: rest, h => by
      have ih := firstOccurring_congr fun s hs => h s (List.mem_cons_of_mem seq hs)
      have hseq := h seq List.mem_cons_self
      simp only [firstOccurring, List.find?_cons] at ih ⊢
      by_cases ha : seq <:+: a
      · rw [decide_eq_true ha, decide_eq_true (hseq.mp ha)]
      · rw [decide_eq_false ha, decide_eq_false (mt hseq.mpr ha), ih]

theorem firstOccurring_eq_none {text : Text} {seqs : List Text} :
    firstOccurring text seqs = none ↔ ∀ seq ∈ seqs, ¬ seq <:+: text := by
  simp only [firstOccurring, List.find?_eq_none, decide_eq_true_eq]

/-- The jail after the text `fed` has gone through it: the last
    `jailMaxBytes` bytes of `fed`, with no stop sequence anywhere in `fed`,
    and every stop sequence short enough for the jail. -/
structure Decoder.JailHolds (d : Decoder σ) (fed : Text) : Prop where
  jail : d.jail = keepLast d.jailMaxBytes fed
  clear : ∀ seq ∈ d.hiddenStopSequences, ¬ seq <:+: fed
  short : ∀ seq ∈ d.hiddenStopSequences, seq.length ≤ d.jailMaxBytes

/-- The check of one piece against a jail that holds `fed`: it stops with the
    first stop sequence that occurs in `fed` and the piece, or else keeps
    the last bytes of both, in which no stop sequence occurs. -/
theorem jailStep_of_jailHolds {fed token jail' : Text} {m : Nat} {seqs : List Text}
    {stop : Option (Text × Text)} (hclear : ∀ seq ∈ seqs, ¬ seq <:+: fed)
    (hshort : ∀ seq ∈ seqs, seq.length ≤ m)
    (h : jailStep (keepLast m fed) m seqs token = .ok (jail', stop)) :
    (stop.map Prod.snd = firstOccurring (fed ++ token) seqs) ∧
      (stop = none → jail' = keepLast m (fed ++ token)) := by
  -- the window and the whole text hold the same stop sequences
  have hsame : ∀ seq ∈ seqs, seq <:+: keepLast m fed ++ token ↔ seq <:+: fed ++ token :=
    fun seq hs => infix_keepLast_append_iff (hshort seq hs) (hclear seq hs)
  have hfirst := (firstStop_map_fst (keepLast m fed ++ token) seqs).trans (firstOccurring_congr hsame)
  unfold jailStep at h
  dsimp only at h
  split at h
  · next seq offset hfs =>
      rw [hfs] at hfirst
      -- with or without the part of the piece, the stop names `seq`
      have hstop : ∃ partialToken, stop = some (partialToken, seq) := by
        split at h
        · obtain ⟨partialToken, -, h⟩ := Except.bind_eq_ok h
          cases h
          exact ⟨_, rfl⟩
        · obtain ⟨partialToken, -, h⟩ := Except.bind_eq_ok h
          cases h
          exact ⟨_, rfl⟩
      obtain ⟨partialToken, rfl⟩ := hstop
      exact ⟨hfirst, fun hc => by cases hc⟩
  · next hfs =>
      rw [hfs] at hfirst
      -- trimming, where it happens, keeps the last bytes
      have hjail : jail' = keepLast m (keepLast m fed ++ token) := by
        split at h
        · obtain ⟨jail'', hdrain, h⟩ := Except.bind_eq_ok h
          cases h
          unfold drainFront at hdrain
          split at hdrain
          · cases hdrain
          · split at hdrain
            · cases hdrain
              rfl
            · cases hdrain
        · next hle =>
            cases h
            exact (keepLast_of_length_le (Nat.le_of_not_lt hle)).symm
      refine ⟨?_, fun _ => ?_⟩
      · cases stop with
        | none => exact hfirst
        | some p =>
            split at h
            · obtain ⟨_, -, h⟩ := Except.bind_eq_ok h
              cases h
            · cases h
      · rw [hjail, keepLast_append_keepLast]

/-- A decoder with a jail of no bytes has no stop sequences to look for. -/
theorem Decoder.JailHolds.seqs_eq_nil {d : Decoder σ} {fed : Text} (hj : d.JailHolds fed)
    (hm : d.jailMaxBytes = 0) : d.hiddenStopSequences = [] := by
  rcases hs : d.hiddenStopSequences with _ | ⟨seq, rest⟩
  · rfl
  · -- a stop sequence of no bytes occurs everywhere
    have hmem : seq ∈ d.hiddenStopSequences := by rw [hs]; exact List.mem_cons_self
    have hlen := hj.short seq hmem
    have hnil : seq = [] := List.eq_nil_of_length_eq_zero (by omega)
    refine absurd ?_ (hj.clear seq hmem)
    rw [hnil]
    exact List.nil_infix

/-- A step that returns has decoded the id, and changed nothing but the count
    of ids, the decode stream and the jail. -/
theorem Decoder.step_eq_ok_shape {d d' : Decoder σ} {tokenId : Nat} {res : StepResult}
    (h : d.step tokenId = .ok (.ok (res, d'))) :
    ∃ token ds, d.decodeStream.step tokenId = .ok (token, ds) ∧
      ∃ jail, d' = { d with generatedTokens := d.generatedTokens + 1, decodeStream := ds, jail } := by
  unfold Decoder.step at h
  split at h
  · cases h
  · next token ds hds =>
      refine ⟨token, ds, hds, ?_⟩
      dsimp only at h
      -- every branch that returns keeps the jail, or replaces it by the checked one
      split at h
      · cases h
        exact ⟨d.jail, rfl⟩
      · split at h
        · cases h
          exact ⟨d.jail, rfl⟩
        · split at h
          · split at h
            · cases h
              exact ⟨d.jail, rfl⟩
            · obtain ⟨⟨jail', stop⟩, -, h⟩ := Except.bind_eq_ok h
              rcases stop with _ | ⟨partialToken, seq⟩
              · cases h
                exact ⟨jail', rfl⟩
              · cases h
                exact ⟨jail', rfl⟩
          · cases h
            exact ⟨d.jail, rfl⟩

/-- From the `min_tokens`-th id on, a step past an id that is not a hidden stop
    id, on a jail that holds `fed`, stops exactly when the piece completes a
    stop sequence in `fed`, with the first one that occurs; otherwise it
    returns the piece and the jail holds `fed` and the piece. -/
theorem Decoder.step_of_jailHolds {d d' : Decoder σ} {fed : Text} {tokenId : Nat}
    {token : Option Text} {ds : DecodeStream σ} {res : StepResult} (hj : d.JailHolds fed)
    (hmin : d.minTokens ≤ d.generatedTokens + 1) (hid : tokenId ∉ d.hiddenStopIds)
    (hds : d.decodeStream.step tokenId = .ok (token, ds)) (h : d.step tokenId = .ok (.ok (res, d'))) :
    res.stopTrigger =
        (firstOccurring (fed ++ token.getD []) d.hiddenStopSequences).map .hiddenStopSequenceDetected ∧
      (res.stopTrigger = none → res.token = token ∧ d'.JailHolds (fed ++ token.getD [])) := by
  obtain ⟨token', ds', hds', jail, rfl⟩ := step_eq_ok_shape h
  rw [hds] at hds'
  cases hds'
  unfold Decoder.step at h
  rw [hds] at h
  dsimp only at h
  rw [if_neg (by omega), if_neg hid] at h
  split at h
  · cases token with
    | none =>
        -- nothing decoded: the jail is as it was
        cases h
        have hnone := firstOccurring_eq_none.mpr hj.clear
        rw [Option.getD_none, List.append_nil, hnone]
        exact ⟨rfl, fun _ => ⟨rfl, hj.jail, hj.clear, hj.short⟩⟩
    | some piece =>
        obtain ⟨⟨jail', stop⟩, hjs, h⟩ := Except.bind_eq_ok h
        rw [hj.jail] at hjs
        obtain ⟨hstop, hkeep⟩ := jailStep_of_jailHolds hj.clear hj.short hjs
        cases stop with
        | none =>
            cases h
            refine ⟨?_, fun _ => ⟨rfl, ⟨hkeep rfl, ?_, hj.short⟩⟩⟩
            · rw [Option.getD_some, ← hstop]
              rfl
            · exact firstOccurring_eq_none.mp hstop.symm
        | some p =>
            cases h
            refine ⟨?_, fun hc => by cases hc⟩
            rw [Option.getD_some, ← hstop]
            rfl
  · next hm =>
      -- no stop sequences: nothing to look for, and a jail of no bytes
      have hm0 : d.jailMaxBytes = 0 := by omega
      have hnil := hj.seqs_eq_nil hm0
      cases h
      refine ⟨by rw [hnil]; rfl, fun _ => ⟨rfl, ⟨?_, ?_, ?_⟩⟩⟩
      · show d.jail = keepLast d.jailMaxBytes (fed ++ token.getD [])
        rw [hj.jail, hm0, keepLast, keepLast, Nat.sub_zero, Nat.sub_zero, List.drop_length,
          List.drop_length]
      · intro seq hseq
        rw [hnil] at hseq
        cases hseq
      · exact hj.short

/-- The pieces the decode stream returns for a list of ids, in order, when it
    decodes them all. -/
def DecodeStream.pieces (ds : DecodeStream σ) : List Nat → Except String (List (Option Text))
  | [] => .ok []
  | id :: rest =>
      match ds.step id with
      | .error e => .error e
      | .ok (piece, ds') => (ds'.pieces rest).map (piece :: ·)

/-- The bytes of a list of pieces, in order. -/
def joinPieces (ps : List (Option Text)) : Text :=
  (ps.map fun p => p.getD []).flatten

/-- The text after pieces that do not stop the generation. -/
def appendPieces (text : Option Text) (ps : List (Option Text)) : Option Text :=
  ps.foldl (fun t p => addText t p none) text

theorem joinPieces_nil : joinPieces [] = [] := rfl

theorem joinPieces_cons (p : Option Text) (ps : List (Option Text)) :
    joinPieces (p :: ps) = p.getD [] ++ joinPieces ps := rfl

theorem appendPieces_cons (text : Option Text) (p : Option Text) (ps : List (Option Text)) :
    appendPieces text (p :: ps) = appendPieces (addText text p none) ps := rfl

theorem DecodeStream.pieces_cons {ds : DecodeStream σ} {id : Nat} {rest : List Nat}
    {ps : List (Option Text)} (h : ds.pieces (id :: rest) = .ok ps) :
    ∃ piece ds' ps', ds.step id = .ok (piece, ds') ∧ ds'.pieces rest = .ok ps' ∧ ps = piece :: ps' := by
  rw [DecodeStream.pieces] at h
  split at h
  · cases h
  · next piece ds' hstep =>
      cases hrest : ds'.pieces rest with
      | error e =>
          rw [hrest] at h
          cases h
      | ok ps' =>
          rw [hrest] at h
          cases h
          exact ⟨piece, ds', ps', hstep, hrest, rfl⟩

/-- A run of `process_token_ids` past the `min_tokens`-th id, over ids that
    are not hidden stop ids, from a jail that holds `fed`: either no piece
    completes a stop sequence, and the run returns every piece and the text
    they add, or the run stops at the first piece `k` that completes one,
    with the first stop sequence in list order that occurs in `fed` and the
    pieces up to it, and with the text before that piece. -/
theorem Decoder.processLoop_jailHolds :
    ∀ {ids : List Nat} {d : Decoder σ} {fed : Text} {tokens : List (Option Text)}
      {text : Option Text} {ps : List (Option Text)} {r : SeqResult} {d' : Decoder σ},
      d.JailHolds fed → d.minTokens ≤ d.generatedTokens + 1 → (∀ id ∈ ids, id ∉ d.hiddenStopIds) →
      d.decodeStream.pieces ids = .ok ps → d.processLoop tokens text ids = .ok (.ok (r, d')) →
      (r.stopTrigger = none ∧ r.tokens = tokens ++ ps ∧ r.text = appendPieces text ps ∧
          ∀ seq ∈ d.hiddenStopSequences, ¬ seq <:+: fed ++ joinPieces ps) ∨
        ∃ k < ps.length, ∃ seq, r.stopTrigger = some (.hiddenStopSequenceDetected seq) ∧
          (∀ seq ∈ d.hiddenStopSequences, ¬ seq <:+: fed ++ joinPieces (ps.take k)) ∧
          firstOccurring (fed ++ joinPieces (ps.take (k + 1))) d.hiddenStopSequences = some seq ∧
          r.text = appendPieces text (ps.take k) ∧ r.tokens.length = tokens.length + k + 1
  | [], d, fed, tokens, text, ps, r, d', hj, _, _, hps, h => by
      cases hps
      cases h
      refine Or.inl ⟨rfl, (List.append_nil _).symm, rfl, ?_⟩
      rw [joinPieces_nil, List.append_nil]
      exact hj.clear
  | id :: rest, d, fed, tokens, text, ps, r, d', hj, hmin, hid, hps, h => by
      obtain ⟨piece, ds', ps', hds, hrest, rfl⟩ := DecodeStream.pieces_cons hps
      rw [Decoder.processLoop] at h
      obtain ⟨r₁, hr₁, h⟩ := Except.bind_eq_ok h
      cases r₁ with
      | error e => cases h
      | ok p =>
      obtain ⟨⟨token, trigger⟩, d₁⟩ := p
      obtain ⟨hstop, hgo⟩ := step_of_jailHolds hj hmin (hid id List.mem_cons_self) hds hr₁
      obtain ⟨piece', ds'', hds', jail, rfl⟩ := step_eq_ok_shape hr₁
      rw [hds] at hds'
      cases hds'
      dsimp only at hstop hgo h
      cases trigger with
      | some t =>
          -- the first piece completes a stop sequence
          cases h
          obtain ⟨seq, hseq, rfl⟩ := Option.map_eq_some_iff.mp hstop.symm
          refine Or.inr ⟨0, by rw [List.length_cons]; omega, seq, rfl, ?_, ?_, rfl, ?_⟩
          · rw [List.take_zero, joinPieces_nil, List.append_nil]
            exact hj.clear
          · rw [List.take_succ_cons, List.take_zero, joinPieces_cons, joinPieces_nil, List.append_nil]
            exact hseq
          · rw [List.length_append, List.length_singleton]
      | none =>
          -- the first piece goes into the jail, and the run goes on from there
          obtain ⟨rfl, hj₁⟩ := hgo rfl
          have hid₁ : ∀ i ∈ rest, i ∉ d.hiddenStopIds := fun i hi => hid i (List.mem_cons_of_mem id hi)
          rcases processLoop_jailHolds hj₁ (by dsimp only; omega) hid₁ hrest h with
            ⟨hnone, htokens, htext, hclear⟩ | ⟨k, hk, seq, htrigger, hclear, hfirst, htext, hlength⟩
          · refine Or.inl ⟨hnone, ?_, htext, ?_⟩
            · rw [htokens, List.append_assoc, List.singleton_append]
            · rw [joinPieces_cons, ← List.append_assoc]
              exact hclear
          · refine Or.inr ⟨k + 1, by rw [List.length_cons]; omega, seq, htrigger, ?_, ?_, ?_, ?_⟩
            · rw [List.take_succ_cons, joinPieces_cons, ← List.append_assoc]
              exact hclear
            · rw [List.take_succ_cons, joinPieces_cons, ← List.append_assoc]
              exact hfirst
            · rw [List.take_succ_cons, appendPieces_cons]
              exact htext
            · rw [hlength, List.length_append, List.length_singleton]
              omega

/-- A new decoder's empty jail holds the empty text, when no stop sequence is
    empty. -/
theorem Decoder.new_jailHolds (ds : DecodeStream σ) {c : StopConditions}
    (hseqs : ∀ seq ∈ c.stop.getD [], seq ≠ []) : (Decoder.new ds c).JailHolds [] where
  jail := by rw [keepLast, List.drop_nil]; rfl
  clear := fun seq hseq hin => hseqs seq hseq (List.infix_nil.mp hin)
  short := fun seq hseq => List.le_max?_getD_of_mem (List.mem_map_of_mem hseq)

/-- A new decoder with `min_tokens` at most one, over ids that are not hidden
    stop ids and stop sequences that are not empty, stops at the first piece
    that completes a stop sequence in the decoded text, with the first stop
    sequence in list order that occurs in the text up to that piece, and
    returns the text before that piece. -/
theorem Decoder.processTokenIds_new {ds : DecodeStream σ} {c : StopConditions} {ids : List Nat}
    {ps : List (Option Text)} {r : SeqResult} {d' : Decoder σ} (hmin : c.minTokens.getD 0 ≤ 1)
    (hseqs : ∀ seq ∈ c.stop.getD [], seq ≠ []) (hid : ∀ id ∈ ids, id ∉ c.stopTokenIdsHidden.getD [])
    (hps : ds.pieces ids = .ok ps) (h : (Decoder.new ds c).processTokenIds ids = .ok (.ok (r, d'))) :
    (r.stopTrigger = none ∧ r.tokens = ps ∧ r.text = appendPieces none ps ∧
        ∀ seq ∈ c.stop.getD [], ¬ seq <:+: joinPieces ps) ∨
      ∃ k < ps.length, ∃ seq, r.stopTrigger = some (.hiddenStopSequenceDetected seq) ∧
        (∀ seq ∈ c.stop.getD [], ¬ seq <:+: joinPieces (ps.take k)) ∧
        firstOccurring (joinPieces (ps.take (k + 1))) (c.stop.getD []) = some seq ∧
        r.text = appendPieces none (ps.take k) ∧ r.tokens.length = k + 1 := by
  have hrun := processLoop_jailHolds (new_jailHolds ds hseqs) hmin hid hps h
  simp only [List.nil_append, List.length_nil, Nat.zero_add] at hrun
  exact hrun

/-- Before the `min_tokens`-th id, a step returns the piece with no trigger
    and leaves the jail as it was: text decoded then is never looked at. -/
theorem Decoder.step_of_lt_minTokens {d : Decoder σ} {tokenId : Nat} {token : Option Text}
    {ds : DecodeStream σ} (hmin : d.generatedTokens + 1 < d.minTokens)
    (hds : d.decodeStream.step tokenId = .ok (token, ds)) :
    d.step tokenId =
      .ok (.ok (⟨token, none⟩, { d with generatedTokens := d.generatedTokens + 1, decodeStream := ds })) := by
  unfold Decoder.step
  rw [hds]
  dsimp only
  rw [if_pos hmin]
  rfl

/-! ### Text of one-byte characters -/

/-- Text whose characters are all one byte long. -/
def Ascii (t : Text) : Prop :=
  ∀ b ∈ t, b < 0x80

/-- In text of one-byte characters every index up to the end is a boundary. -/
theorem isCharBoundary_of_ascii {s : Text} (hs : Ascii s) {i : Nat} (hi : i ≤ s.length) :
    isCharBoundary s i = true := by
  unfold isCharBoundary
  split
  · rfl
  · split
    · next hnone =>
        rw [List.getElem?_eq_none_iff] at hnone
        simp only [beq_iff_eq]
        omega
    · next b hb =>
        have hlt := hs b (List.mem_of_getElem? hb)
        simp only [hlt, true_or, decide_true]

theorem Ascii.append {a b : Text} (ha : Ascii a) (hb : Ascii b) : Ascii (a ++ b) := by
  intro x hx
  rcases List.mem_append.mp hx with hx | hx
  · exact ha x hx
  · exact hb x hx

theorem Ascii.drop {a : Text} (ha : Ascii a) (n : Nat) : Ascii (a.drop n) :=
  fun x hx => ha x (List.mem_of_mem_drop hx)

/-- On text of one-byte characters the check of a piece does not panic, and
    the jail stays of one-byte characters. -/
theorem jailStep_ascii {jail token : Text} (m : Nat) (seqs : List Text) (hj : Ascii jail)
    (ht : Ascii token) :
    ∃ jail' stop, jailStep jail m seqs token = .ok (jail', stop) ∧ Ascii jail' := by
  have hall := hj.append ht
  unfold jailStep
  dsimp only
  split
  · next seq offset hfs =>
      -- the occurrence starts inside the jail, so the slice has its bounds
      have hoff : offset ≤ (jail ++ token).length := by
        have hmap := firstStop_map_fst (jail ++ token) seqs
        clear hmap
        revert hfs
        induction seqs with
        | nil => intro hfs; cases hfs
        | cons s rest ih =>
            intro hfs
            rw [firstStop] at hfs
            split at hfs
            · next o ho =>
                cases hfs
                exact findFirst_le_length ho
            · exact ih hfs
      by_cases hge : offset ≥ jail.length
      · refine ⟨jail ++ token, some (((jail ++ token).take offset).drop jail.length, seq), ?_, hall⟩
        rw [if_pos hge, sliceRange, if_pos ⟨hge, hoff, isCharBoundary_of_ascii hall (by
          rw [List.length_append]; omega), isCharBoundary_of_ascii hall hoff⟩]
        rfl
      · refine ⟨jail ++ token, some ([], seq), ?_, hall⟩
        rw [if_neg hge]
        rfl
  · by_cases hlong : (jail ++ token).length > m
    · refine ⟨(jail ++ token).drop ((jail ++ token).length - m), none, ?_,
        hall.drop ((jail ++ token).length - m)⟩
      rw [if_pos hlong, drainFront, if_neg (by omega),
        if_pos (isCharBoundary_of_ascii hall (Nat.sub_le _ _))]
      rfl
    · refine ⟨jail ++ token, none, ?_, hall⟩
      rw [if_neg hlong]
      rfl

/-- A decode stream whose pieces are all of one-byte characters. -/
def DecodeStream.AsciiPieces (ds : DecodeStream σ) : Prop :=
  ∀ st id p st', ds.next st id = .ok (some p, st') → Ascii p

theorem DecodeStream.step_ascii {ds ds' : DecodeStream σ} {id : Nat} {p : Text} (hds : ds.AsciiPieces)
    (h : ds.step id = .ok (some p, ds')) : Ascii p ∧ ds'.AsciiPieces := by
  unfold DecodeStream.step at h
  split at h
  · cases h
  · next piece state hnext =>
      cases h
      exact ⟨hds _ _ _ _ hnext, hds⟩

theorem DecodeStream.step_ascii_stream {ds ds' : DecodeStream σ} {id : Nat} {p : Option Text}
    (hds : ds.AsciiPieces) (h : ds.step id = .ok (p, ds')) : ds'.AsciiPieces := by
  unfold DecodeStream.step at h
  split at h
  · cases h
  · cases h
    exact hds

/-- On text of one-byte characters a step does not panic, and the jail and
    the decode stream stay of one-byte characters. -/
theorem Decoder.step_ascii {d : Decoder σ} (hj : Ascii d.jail) (hds : d.decodeStream.AsciiPieces)
    (tokenId : Nat) :
    ∃ r, d.step tokenId = .ok r ∧
      ∀ res d', r = .ok (res, d') → Ascii d'.jail ∧ d'.decodeStream.AsciiPieces := by
  unfold Decoder.step
  split
  · exact ⟨_, rfl, fun _ _ hr => by cases hr⟩
  · next token ds hstep =>
      have hds' := DecodeStream.step_ascii_stream hds hstep
      dsimp only
      split
      · exact ⟨_, rfl, fun _ _ hr => by cases hr; exact ⟨hj, hds'⟩⟩
      · split
        · exact ⟨_, rfl, fun _ _ hr => by cases hr; exact ⟨hj, hds'⟩⟩
        · split
          · cases token with
            | none => exact ⟨_, rfl, fun _ _ hr => by cases hr; exact ⟨hj, hds'⟩⟩
            | some piece =>
                -- the piece is of one-byte characters, so the jail check does not panic
                have hp := (DecodeStream.step_ascii hds hstep).1
                obtain ⟨jail', stop, hjs, hasc⟩ :=
                  jailStep_ascii d.jailMaxBytes d.hiddenStopSequences hj hp
                dsimp only
                rw [hjs, Except.ok_bind]
                rcases stop with _ | ⟨partialToken, seq⟩
                · exact ⟨_, rfl, fun _ _ hr => by cases hr; exact ⟨hasc, hds'⟩⟩
                · exact ⟨_, rfl, fun _ _ hr => by cases hr; exact ⟨hasc, hds'⟩⟩
          · exact ⟨_, rfl, fun _ _ hr => by cases hr; exact ⟨hj, hds'⟩⟩

/-- On text of one-byte characters `process_token_ids` does not panic, for
    every list of ids. -/
theorem Decoder.processLoop_ascii :
    ∀ {ids : List Nat} {d : Decoder σ} (tokens : List (Option Text)) (text : Option Text),
      Ascii d.jail → d.decodeStream.AsciiPieces → ∃ r, d.processLoop tokens text ids = .ok r
  | [], _, _, _, _, _ => ⟨_, rfl⟩
  | id :: rest, d, tokens, text, hj, hds => by
      obtain ⟨r, hr, hkeep⟩ := step_ascii hj hds id
      rw [Decoder.processLoop, hr, Except.ok_bind]
      rcases r with e | ⟨⟨token, trigger⟩, d'⟩
      · exact ⟨_, rfl⟩
      · obtain ⟨hj', hds'⟩ := hkeep _ _ rfl
        cases trigger with
        | some t => exact ⟨_, rfl⟩
        | none => exact processLoop_ascii _ _ hj' hds'

theorem Decoder.processTokenIds_ascii {d : Decoder σ} (hj : Ascii d.jail)
    (hds : d.decodeStream.AsciiPieces) (ids : List Nat) : ∃ r, d.processTokenIds ids = .ok r :=
  processLoop_ascii [] none hj hds

/-- A tokenizer whose token `1` decodes to `é` and every other token to `x`,
    one character each. -/
def exampleStream : DecodeStream Unit :=
  ⟨(), fun _ id => .ok (some (Text.ofString (if id = 1 then "é" else "x")), ())⟩

/-- With the stop sequence `ab`, the jail holds two bytes. The text `é` fills
    it, and `x` makes three bytes, so the jail is trimmed by one byte, which
    is inside `é`: `drain` panics. -/
theorem processTokenIds_panics_in_jail :
    (Decoder.new exampleStream ⟨some [Text.ofString "ab"], none, none⟩).processTokenIds [1, 2] =
      .error (.panic "assertion failed: self.is_char_boundary(end)") :=
  rfl

end Backend

end Dynamo
