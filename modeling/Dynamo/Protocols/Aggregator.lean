import Mathlib.Data.List.Sort
import Dynamo.Lib.Abort
import Dynamo.Lib.Collections
import Dynamo.Protocols.OpenAI

/-!
# Aggregating a Response Stream

A unary request is answered by folding the engine's stream of chunks into one
response. `DeltaAggregator::apply`, of chat completions and of completions
alike, records the error of an error item, and while no error is recorded
takes the header of each data item and accumulates each of its choices into a
map by index: `entry(index).or_insert(...)` makes the entry from the first
choice of an index, and every choice of the index then appends its text and
sets the finish reason it gives. After the fold, an error is returned; else the
entries are converted and sorted by index.

`Aggregation` says what an aggregator reads of a chunk and how it accumulates a
choice; the two `apply`s are its fold at their own types. Over a stream without
error items the fold is the upsert of all the stream's choices in order
(`fold_of_errorFree`), so each index ends with its choices applied in turn
(`lookup_choices_fold`); with an error item it ends with an error
(`error_fold_isSome_iff`).

The chat entry takes its role from the index's first choice only, when it is
made, and the conversion to `ChatChoice` expects a role. A stream whose first
choice of an index names no role, and a later one does, makes `apply` panic
(`apply_panics_on_late_role`, `ChatCompletions.apply_eq_panic_iff`). Otherwise
a chat stream without error items aggregates to its choices sorted by index,
one per index, each with the concatenated content, the first choice's role and
the last finish reason given (`ChatCompletions.pairwise_apply_choices`,
`ChatCompletions.mem_apply_choices`).

## Main definitions

* `Aggregation`, `Aggregation.fold`: The fold both aggregators share.
* `ChatCompletions.DeltaAggregator.apply`: The chat aggregator.
* `Completions.DeltaAggregator.apply`: The completions aggregator.

## Theorems

* `Aggregation.fold_of_errorFree`: The fold of a stream without errors.
* `Aggregation.error_fold_isSome_iff`: The fold records an error exactly when
  some item is one.
* `ChatCompletions.lookup_choices_fold`: Each index's entry: the joined
  content, the first choice's role, the last finish reason.
* `ChatCompletions.apply_of_isError`: An error item makes the result an error.
* `ChatCompletions.apply_eq_panic_iff`: Over a stream without errors, `apply`
  panics exactly when an index's first choice names no role.
* `ChatCompletions.pairwise_apply_choices`: The choices of a result have
  strictly increasing indices.
* `ChatCompletions.mem_apply_choices`: Each choice of a result is its index's
  entry.
* `Completions.apply_eq_error_iff`: The completions aggregator fails exactly on
  an error item.
* `apply_panics_on_late_role`: A role named after an index's first choice
  panics.
-/

namespace Dynamo

namespace Protocols

/-- The item is an error annotation. -/
def Annotated.IsError {R : Type} (self : Annotated R) : Prop :=
  self.event = some "error"

instance {R : Type} (self : Annotated R) : Decidable self.IsError :=
  inferInstanceAs (Decidable (self.event = some "error"))

theorem Annotated.ok_of_not_isError {R : Type} {self : Annotated R} (h : ¬ self.IsError) :
    self.ok = .ok self := by
  unfold Annotated.ok
  cases hevent : self.event with
  | none => rfl
  | some event =>
      have hne : event ≠ "error" := fun he => h (by rw [Annotated.IsError, hevent, he])
      dsimp only
      rw [if_neg hne]

theorem Annotated.ok_of_isError {R : Type} {self : Annotated R} (h : self.IsError) :
    ∃ error, self.ok = .error error := by
  unfold Annotated.ok
  rw [h]
  dsimp only
  rw [if_pos rfl]
  exact ⟨_, rfl⟩

/-- The stream has no error item. -/
def ErrorFree {R : Type} (stream : List (Annotated R)) : Prop :=
  ∀ item ∈ stream, ¬ item.IsError

/-! ### The fold both aggregators share -/

/-- The fields both aggregators keep of the data: the last id, model and time,
    and the last usage and fingerprint that a chunk gives. -/
structure Header where
  id : String
  model : String
  created : Nat
  usage : Option CompletionUsage
  systemFingerprint : Option String
  deriving DecidableEq, Repr

/-- The header after a chunk with header `next`. -/
def Header.absorb (self next : Header) : Header :=
  ⟨next.id, next.model, next.created, next.usage.or self.usage,
    next.systemFingerprint.or self.systemFingerprint⟩

/-- `DeltaAggregator`: the header, the choices by index, and the error seen. -/
structure DeltaAggregator (C : Type) where
  header : Header
  choices : AList (fun _ : Nat => C)
  error : Option String

/-- `DeltaAggregator::new`. -/
def DeltaAggregator.new {C : Type} : DeltaAggregator C :=
  ⟨⟨"", "", 0, none, none⟩, ∅, none⟩

/-- What an aggregator reads of a chunk `D` and how it accumulates a choice `X`
    into an entry `C`. -/
structure Aggregation (D X C : Type) where
  headerOf : D → Header
  choicesOf : D → List X
  index : X → Nat
  init : X → C
  update : X → C → C

namespace Aggregation

variable {D X C : Type} (A : Aggregation D X C)

/-- The entries after choices are accumulated. -/
def upsertChoices (choices : List X) (entries : AList (fun _ : Nat => C)) : AList (fun _ : Nat => C) :=
  choices.foldl (fun s c => s.upsert (A.index c) (A.init c) (A.update c)) entries

/-- The body of the fold of `DeltaAggregator::apply`: an error item records
    its error; a data item, while no error is recorded, gives its header and
    its choices. -/
def step (self : DeltaAggregator C) (delta : Annotated D) : DeltaAggregator C :=
  match delta.ok with
  | .error error => { self with error := some error }
  | .ok delta =>
    match self.error, delta.data with
    | none, some data =>
      { self with header := self.header.absorb (A.headerOf data),
                  choices := A.upsertChoices (A.choicesOf data) self.choices }
    | _, _ => self

/-- The fold of `DeltaAggregator::apply`. -/
def fold (stream : List (Annotated D)) : DeltaAggregator C :=
  stream.foldl A.step DeltaAggregator.new

/-- The header after chunks with the given data. -/
def headerAfter (data : List D) (header : Header) : Header :=
  data.foldl (fun h d => h.absorb (A.headerOf d)) header

theorem upsertChoices_append (choices choices' : List X) (entries : AList (fun _ : Nat => C)) :
    A.upsertChoices (choices ++ choices') entries = A.upsertChoices choices' (A.upsertChoices choices entries) :=
  List.foldl_append

/-- Over a stream without errors, from a state without one, the fold takes
    the header of every data item and upserts all the stream's choices in
    order. -/
theorem foldl_step_of_errorFree :
    ∀ (stream : List (Annotated D)) (self : DeltaAggregator C), self.error = none → ErrorFree stream →
      stream.foldl A.step self = ⟨A.headerAfter (dataOf stream) self.header,
        A.upsertChoices ((dataOf stream).flatMap A.choicesOf) self.choices, none⟩
  | [], ⟨_, _, _⟩, herror, _ => by
      dsimp only at herror
      subst herror
      rfl
  | item :: rest, self, herror, hfree => by
      have hok := Annotated.ok_of_not_isError (hfree item List.mem_cons_self)
      have hrest : ErrorFree rest := fun x hx => hfree x (List.mem_cons_of_mem item hx)
      rw [List.foldl_cons]
      cases hdata : item.data with
      | none =>
          -- an annotation changes nothing
          have hstep : A.step self item = self := by
            rw [step, hok]
            dsimp only
            rw [herror, hdata]
          rw [hstep, foldl_step_of_errorFree rest self herror hrest, dataOf_cons_of_none hdata]
      | some data =>
          have hstep : A.step self item = ⟨self.header.absorb (A.headerOf data),
              A.upsertChoices (A.choicesOf data) self.choices, self.error⟩ := by
            rw [step, hok]
            dsimp only
            rw [herror, hdata]
          rw [hstep, foldl_step_of_errorFree rest ⟨self.header.absorb (A.headerOf data),
              A.upsertChoices (A.choicesOf data) self.choices, self.error⟩ herror hrest, dataOf_cons_of_some hdata,
            List.flatMap_cons, upsertChoices_append]
          rfl

theorem fold_of_errorFree {stream : List (Annotated D)} (hfree : ErrorFree stream) :
    A.fold stream = ⟨A.headerAfter (dataOf stream) (DeltaAggregator.new (C := C)).header,
      A.upsertChoices ((dataOf stream).flatMap A.choicesOf) ∅, none⟩ :=
  A.foldl_step_of_errorFree stream _ rfl hfree

/-- Over a stream without errors, each index ends with its choices applied in
    turn. -/
theorem lookup_choices_fold {stream : List (Annotated D)} (hfree : ErrorFree stream) (i : Nat) :
    (A.fold stream).choices.lookup i =
      AList.applyItems A.init A.update none (((dataOf stream).flatMap A.choicesOf).filter fun c => A.index c = i) := by
  rw [fold_of_errorFree A hfree]
  exact AList.lookup_foldl_upsert A.index A.init A.update i _ ∅

theorem error_step_of_not_isError (self : DeltaAggregator C) {item : Annotated D} (h : ¬ item.IsError) :
    (A.step self item).error = self.error := by
  rw [step, Annotated.ok_of_not_isError h]
  dsimp only
  split <;> rfl

theorem error_step_of_isError (self : DeltaAggregator C) {item : Annotated D} (h : item.IsError) :
    (A.step self item).error.isSome = true := by
  obtain ⟨error, herror⟩ := Annotated.ok_of_isError h
  rw [step, herror]
  rfl

/-- An error, once recorded, stays; the fold records one exactly when an item
    is an error. -/
theorem error_foldl_step_isSome_iff :
    ∀ (stream : List (Annotated D)) (self : DeltaAggregator C),
      (stream.foldl A.step self).error.isSome = true ↔ self.error.isSome = true ∨ ∃ item ∈ stream, item.IsError
  | [], self => by simp
  | item :: rest, self => by
      rw [List.foldl_cons, error_foldl_step_isSome_iff rest]
      by_cases h : item.IsError
      · exact iff_of_true (Or.inl (A.error_step_of_isError self h)) (Or.inr ⟨item, List.mem_cons_self, h⟩)
      · rw [A.error_step_of_not_isError self h]
        simp [h]

theorem error_fold_isSome_iff (stream : List (Annotated D)) :
    (A.fold stream).error.isSome = true ↔ ∃ item ∈ stream, item.IsError := by
  rw [fold, error_foldl_step_isSome_iff]
  simp [DeltaAggregator.new]

end Aggregation

/-! ### Chat completions -/

namespace ChatCompletions

/-- `DeltaChoice` of the chat aggregator. -/
structure DeltaChoice where
  index : Nat
  text : String
  role : Option Role
  finishReason : Option FinishReason
  deriving DecidableEq, Repr

/-- `ChatCompletionResponseMessage`. -/
structure ChatCompletionResponseMessage where
  role : Role
  content : Option String
  deriving DecidableEq, Repr

/-- `ChatChoice`. -/
structure ChatChoice where
  message : ChatCompletionResponseMessage
  index : Nat
  finishReason : Option FinishReason
  deriving DecidableEq, Repr

/-- `NvCreateChatCompletionResponse`. -/
structure NvCreateChatCompletionResponse where
  id : String
  created : Nat
  usage : Option CompletionUsage
  model : String
  object : String
  systemFingerprint : Option String
  choices : List ChatChoice
  deriving DecidableEq, Repr

/-- The chat aggregator: an entry is made with the role of the index's first
    choice, and every choice appends its content and sets its finish reason. -/
def aggregation : Aggregation NvCreateChatCompletionStreamResponse ChatChoiceStream DeltaChoice where
  headerOf data := ⟨data.id, data.model, data.created, data.usage, data.systemFingerprint⟩
  choicesOf data := data.choices
  index choice := choice.index
  init choice := ⟨choice.index, "", choice.delta.role, none⟩
  update choice state :=
    { state with text := state.text ++ choice.delta.content.getD "",
                 finishReason := choice.finishReason.or state.finishReason }

/-- `From<DeltaChoice> for ChatChoice`: the role is expected. -/
def ChatChoice.ofDeltaChoice (delta : DeltaChoice) : Except Abort ChatChoice := do
  let role ← Abort.expect delta.role "delta should have a Role"
  pure ⟨⟨role, some delta.text⟩, delta.index, delta.finishReason⟩

/-- `DeltaAggregator::apply`: the fold, then the recorded error, or the entries
    converted and sorted by index. -/
def DeltaAggregator.apply (stream : List (Annotated NvCreateChatCompletionStreamResponse)) :
    Except Abort (Except String NvCreateChatCompletionResponse) :=
  let aggregator := aggregation.fold stream
  match aggregator.error with
  | some error => pure (.error error)
  | none => do
    let choices ← aggregator.choices.values.mapM ChatChoice.ofDeltaChoice
    pure (.ok ⟨aggregator.header.id, aggregator.header.created, aggregator.header.usage,
      aggregator.header.model, "chat.completion", aggregator.header.systemFingerprint,
      choices.insertionSort fun a b => a.index ≤ b.index⟩)

/-! #### What the chat aggregator computes -/

@[simp]
theorem aggregation_index : aggregation.index = (·.index) := rfl

@[simp]
theorem aggregation_choicesOf : aggregation.choicesOf = (·.choices) := rfl

/-- The choices of a stream's data, in order. -/
def choicesOf (stream : List (Annotated NvCreateChatCompletionStreamResponse)) : List ChatChoiceStream :=
  (dataOf stream).flatMap (·.choices)

/-- The choices of an index, in order. -/
def choicesAt (stream : List (Annotated NvCreateChatCompletionStreamResponse)) (i : Nat) :
    List ChatChoiceStream :=
  (choicesOf stream).filter fun c => c.index = i

/-- The contents of choices, joined. -/
def contentOf (choices : List ChatChoiceStream) : String :=
  String.join (choices.map (·.delta.content.getD ""))

/-- The last finish reason choices give. -/
def lastFinishReason (choices : List ChatChoiceStream) : Option FinishReason :=
  (choices.filterMap (·.finishReason)).getLast?

theorem contentOf_cons (c : ChatChoiceStream) (cs : List ChatChoiceStream) :
    contentOf (c :: cs) = c.delta.content.getD "" ++ contentOf cs := by
  rw [contentOf, List.map_cons, String.join_cons, ← contentOf]

theorem lastFinishReason_cons (c : ChatChoiceStream) (cs : List ChatChoiceStream) :
    lastFinishReason (c :: cs) = (lastFinishReason cs).or c.finishReason := by
  unfold lastFinishReason
  cases h : c.finishReason with
  | none => rw [List.filterMap_cons, h, Option.or_none]
  | some reason =>
      rw [List.filterMap_cons, h]
      dsimp only
      rw [← List.singleton_append, List.getLast?_append, List.getLast?_singleton]

/-- The entry after choices are accumulated into it: the contents appended,
    the last finish reason given, the role untouched. -/
theorem foldl_update :
    ∀ (choices : List ChatChoiceStream) (state : DeltaChoice),
      choices.foldl (fun b x => aggregation.update x b) state =
        ⟨state.index, state.text ++ contentOf choices, state.role,
          (lastFinishReason choices).or state.finishReason⟩
  | [], ⟨_, text, _, _⟩ => by
      rw [List.foldl_nil, contentOf, List.map_nil, String.join_nil, String.append_empty]
      rfl
  | c :: cs, state => by
      rw [List.foldl_cons, foldl_update cs, contentOf_cons, lastFinishReason_cons, Option.or_assoc]
      simp only [aggregation, String.append_assoc]

/-- Over a stream without errors an index's entry is made by its first choice,
    and then holds the joined content of all its choices, the first choice's
    role and the last finish reason given; an index no choice names has none. -/
theorem lookup_choices_fold {stream : List (Annotated NvCreateChatCompletionStreamResponse)}
    (hfree : ErrorFree stream) (i : Nat) :
    (aggregation.fold stream).choices.lookup i =
      match choicesAt stream i with
      | [] => none
      | c :: cs => some ⟨c.index, contentOf (c :: cs), c.delta.role, lastFinishReason (c :: cs)⟩ := by
  rw [Aggregation.lookup_choices_fold aggregation hfree, aggregation_index, aggregation_choicesOf]
  change AList.applyItems aggregation.init aggregation.update none (choicesAt stream i) = _
  cases choicesAt stream i with
  | nil => rfl
  | cons c cs =>
      rw [AList.applyItems_none_cons, foldl_update]
      simp only [aggregation, String.empty_append, Option.or_none]

/-- An entry of the fold of a stream without errors is the one its index's
    choices make. -/
theorem lookup_choices_fold_eq_some {stream : List (Annotated NvCreateChatCompletionStreamResponse)}
    (hfree : ErrorFree stream) {i : Nat} {entry : DeltaChoice}
    (h : (aggregation.fold stream).choices.lookup i = some entry) :
    ∃ c cs, choicesAt stream i = c :: cs ∧
      entry = ⟨c.index, contentOf (c :: cs), c.delta.role, lastFinishReason (c :: cs)⟩ := by
  rw [lookup_choices_fold hfree] at h
  cases hchoices : choicesAt stream i with
  | nil => rw [hchoices] at h; exact absurd h (Option.some_ne_none _).symm
  | cons c cs =>
      rw [hchoices] at h
      exact ⟨c, cs, rfl, (Option.some.inj h).symm⟩

theorem index_of_mem_choicesAt {stream : List (Annotated NvCreateChatCompletionStreamResponse)} {i : Nat}
    {c : ChatChoiceStream} {cs : List ChatChoiceStream} (h : choicesAt stream i = c :: cs) : c.index = i := by
  have hmem : c ∈ choicesAt stream i := h ▸ List.mem_cons_self
  exact of_decide_eq_true (List.mem_filter.mp hmem).2

/-- An error item makes the result that error. -/
theorem apply_of_isError {stream : List (Annotated NvCreateChatCompletionStreamResponse)}
    (h : ∃ item ∈ stream, item.IsError) :
    ∃ error, DeltaAggregator.apply stream = .ok (.error error) := by
  obtain ⟨error, herror⟩ := Option.isSome_iff_exists.mp ((aggregation.error_fold_isSome_iff stream).mpr h)
  refine ⟨error, ?_⟩
  rw [DeltaAggregator.apply, herror]
  rfl

/-- A result that is not an error comes from a fold that recorded none, so
    from a stream without errors. -/
theorem errorFree_of_apply {stream : List (Annotated NvCreateChatCompletionStreamResponse)}
    (h : ∀ error, DeltaAggregator.apply stream ≠ .ok (.error error)) : ErrorFree stream := by
  intro item hitem herror
  obtain ⟨error, happly⟩ := apply_of_isError ⟨item, hitem, herror⟩
  exact h error happly

/-- Over a stream without errors, the entries are converted and sorted. -/
theorem apply_of_errorFree {stream : List (Annotated NvCreateChatCompletionStreamResponse)}
    (hfree : ErrorFree stream) :
    DeltaAggregator.apply stream =
      ((aggregation.fold stream).choices.values.mapM ChatChoice.ofDeltaChoice) >>= fun choices =>
        pure (.ok ⟨(aggregation.fold stream).header.id, (aggregation.fold stream).header.created,
          (aggregation.fold stream).header.usage, (aggregation.fold stream).header.model, "chat.completion",
          (aggregation.fold stream).header.systemFingerprint, choices.insertionSort fun a b => a.index ≤ b.index⟩) := by
  have herror : (aggregation.fold stream).error = none := by
    rw [aggregation.fold_of_errorFree hfree]
  rw [DeltaAggregator.apply, herror]

theorem ofDeltaChoice_eq_ok {entry : DeltaChoice} {choice : ChatChoice}
    (h : ChatChoice.ofDeltaChoice entry = .ok choice) :
    ∃ role, entry.role = some role ∧ choice = ⟨⟨role, some entry.text⟩, entry.index, entry.finishReason⟩ := by
  unfold ChatChoice.ofDeltaChoice at h
  cases hrole : entry.role with
  | none => rw [hrole] at h; cases h
  | some role =>
      rw [hrole] at h
      exact ⟨role, rfl, (Except.ok.inj h).symm⟩

/-- Over a stream without errors, `apply` panics exactly when the first choice
    of some index names no role. -/
theorem apply_eq_panic_iff {stream : List (Annotated NvCreateChatCompletionStreamResponse)}
    (hfree : ErrorFree stream) :
    DeltaAggregator.apply stream = .error (.panic "delta should have a Role") ↔
      ∃ i c cs, choicesAt stream i = c :: cs ∧ c.delta.role = none := by
  rw [apply_of_errorFree hfree]
  constructor
  · intro h
    -- a successful conversion would make a successful result
    by_contra hroles
    have hsome : ∀ entry ∈ (aggregation.fold stream).choices.values, ∃ role, entry.role = some role := by
      intro entry hentry
      obtain ⟨i, hi⟩ := AList.mem_values.mp hentry
      obtain ⟨c, cs, hchoices, rfl⟩ := lookup_choices_fold_eq_some hfree hi
      cases hrole : c.delta.role with
      | none => exact absurd ⟨i, c, cs, hchoices, hrole⟩ hroles
      | some role => exact ⟨role, rfl⟩
    have hok : ∀ entry ∈ (aggregation.fold stream).choices.values,
        ChatChoice.ofDeltaChoice entry =
          .ok ⟨⟨entry.role.getD .assistant, some entry.text⟩, entry.index, entry.finishReason⟩ := by
      intro entry hentry
      obtain ⟨role, hrole⟩ := hsome entry hentry
      rw [ChatChoice.ofDeltaChoice, hrole]
      rfl
    rw [Except.mapM_eq_ok hok] at h
    cases h
  · rintro ⟨i, c, cs, hchoices, hrole⟩
    have hlookup := lookup_choices_fold hfree i
    rw [hchoices] at hlookup
    have hmem := AList.mem_values.mpr ⟨i, hlookup⟩
    rw [Except.mapM_eq_error ?_ ⟨_, hmem, by rw [ChatChoice.ofDeltaChoice, hrole]; rfl⟩]
    · rfl
    · intro entry _
      cases hentry : entry.role with
      | none => left; rw [ChatChoice.ofDeltaChoice, hentry]; rfl
      | some role => right; exact ⟨_, by rw [ChatChoice.ofDeltaChoice, hentry]; rfl⟩

/-- The entries of the fold of a stream without errors carry their own index. -/
theorem values_map_index {stream : List (Annotated NvCreateChatCompletionStreamResponse)}
    (hfree : ErrorFree stream) :
    (aggregation.fold stream).choices.values.map (·.index) = (aggregation.fold stream).choices.keys := by
  rw [AList.values, AList.keys, List.keys, List.map_map]
  refine List.map_congr_left fun entry hentry => ?_
  obtain ⟨c, cs, hchoices, hentry'⟩ :=
    lookup_choices_fold_eq_some hfree (AList.mem_lookup_iff.mpr hentry)
  rw [Function.comp_apply, hentry']
  exact index_of_mem_choicesAt hchoices

/-- The choices of a result come in strictly increasing index order, so one
    per index. -/
theorem pairwise_apply_choices {stream : List (Annotated NvCreateChatCompletionStreamResponse)}
    {resp : NvCreateChatCompletionResponse} (h : DeltaAggregator.apply stream = .ok (.ok resp)) :
    resp.choices.Pairwise fun a b => a.index < b.index := by
  have hfree := errorFree_of_apply (fun error herror => by rw [h] at herror; cases herror)
  rw [apply_of_errorFree hfree] at h
  obtain ⟨choices, hchoices, hresp⟩ := Except.bind_eq_ok h
  cases hresp
  -- the converted choices keep the indices of the entries, which are the keys
  have hindex : choices.map (·.index) = (aggregation.fold stream).choices.keys := by
    rw [Except.map_eq_of_mapM_eq_ok (fun entry choice hok => ?_) hchoices, values_map_index hfree]
    obtain ⟨role, -, rfl⟩ := ofDeltaChoice_eq_ok hok
    rfl
  have hnodup : ((choices.insertionSort fun a b => a.index ≤ b.index).map (·.index)).Nodup := by
    rw [((List.perm_insertionSort _ choices).map _).nodup_iff, hindex]
    exact (aggregation.fold stream).choices.keys_nodup
  have hle : (choices.insertionSort fun a b => a.index ≤ b.index).Pairwise fun a b => a.index ≤ b.index :=
    @List.pairwise_insertionSort _ (fun a b => a.index ≤ b.index) _
      ⟨fun a b => Nat.le_total a.index b.index⟩ ⟨fun _ _ _ => Nat.le_trans⟩ choices
  have hne := List.pairwise_map.mp (List.nodup_iff_pairwise_ne.mp hnodup)
  exact (hle.and hne).imp fun hab => Nat.lt_of_le_of_ne hab.1 hab.2

/-- Each choice of a result is its index's entry converted: the joined content
    of the index's choices, the role of its first choice and the last finish
    reason given. -/
theorem mem_apply_choices {stream : List (Annotated NvCreateChatCompletionStreamResponse)}
    {resp : NvCreateChatCompletionResponse} (h : DeltaAggregator.apply stream = .ok (.ok resp))
    {choice : ChatChoice} (hchoice : choice ∈ resp.choices) :
    ∃ c cs, choicesAt stream choice.index = c :: cs ∧ c.delta.role = some choice.message.role ∧
      choice.message.content = some (contentOf (c :: cs)) ∧ choice.finishReason = lastFinishReason (c :: cs) := by
  have hfree := errorFree_of_apply (fun error herror => by rw [h] at herror; cases herror)
  rw [apply_of_errorFree hfree] at h
  obtain ⟨choices, hchoices, hresp⟩ := Except.bind_eq_ok h
  cases hresp
  have hmem := (List.perm_insertionSort _ choices).subset hchoice
  obtain ⟨entry, hentry, hok⟩ := Except.mem_of_mapM_eq_ok hchoices choice hmem
  obtain ⟨i, hi⟩ := AList.mem_values.mp hentry
  obtain ⟨c, cs, hcs, rfl⟩ := lookup_choices_fold_eq_some hfree hi
  obtain ⟨role, hrole, rfl⟩ := ofDeltaChoice_eq_ok hok
  exact ⟨c, cs, by rw [index_of_mem_choicesAt hcs]; exact hcs, hrole, rfl, rfl⟩

end ChatCompletions

/-! ### Completions -/

namespace Completions

/-- `DeltaChoice` of the completions aggregator. -/
structure DeltaChoice where
  index : Nat
  text : String
  finishReason : Option Protocols.FinishReason
  deriving DecidableEq, Repr

/-- The completions aggregator: every choice appends its text, and a finish
    reason it gives is parsed, an unknown one clearing the entry's. -/
def aggregation : Aggregation CompletionResponse CompletionChoice DeltaChoice where
  headerOf data := ⟨data.id, data.model, data.created, data.usage, data.systemFingerprint⟩
  choicesOf data := data.choices
  index choice := choice.index
  init choice := ⟨choice.index, "", none⟩
  update choice state :=
    { state with text := state.text ++ choice.text,
                 finishReason :=
                   match choice.finishReason with
                   | some reason => (Protocols.FinishReason.fromStr reason).toOption
                   | none => state.finishReason }

/-- `From<DeltaChoice> for CompletionChoice`. -/
def CompletionChoice.ofDeltaChoice (delta : DeltaChoice) : CompletionChoice :=
  ⟨delta.text, delta.index, delta.finishReason.map Protocols.FinishReason.toString⟩

/-- `DeltaAggregator::apply` of completions: the fold, then the recorded
    error, or the entries converted and sorted by index. -/
def DeltaAggregator.apply (stream : List (Annotated CompletionResponse)) : Except String CompletionResponse :=
  let aggregator := aggregation.fold stream
  match aggregator.error with
  | some error => .error error
  | none =>
    .ok ⟨aggregator.header.id, "text_completion", aggregator.header.created, aggregator.header.model,
      aggregator.header.systemFingerprint,
      (aggregator.choices.values.map CompletionChoice.ofDeltaChoice).insertionSort fun a b => a.index ≤ b.index,
      aggregator.header.usage⟩

/-- The completions aggregator fails exactly on a stream with an error item. -/
theorem apply_eq_error_iff (stream : List (Annotated CompletionResponse)) :
    (∃ error, DeltaAggregator.apply stream = .error error) ↔ ∃ item ∈ stream, item.IsError := by
  rw [← aggregation.error_fold_isSome_iff stream, DeltaAggregator.apply]
  cases (aggregation.fold stream).error with
  | none => simp
  | some error => exact iff_of_true ⟨error, rfl⟩ rfl

end Completions

/-- The first chunk's choice names no role, the second's does: every index has
    a choice with a role, and `apply` panics. -/
theorem apply_panics_on_late_role :
    let first : ChatCompletions.NvCreateChatCompletionStreamResponse :=
      ⟨"chatcmpl-1", "chat.completion.chunk", 0, "llama", none, [⟨0, ⟨none, some "Hello"⟩, none⟩], none⟩
    let second : ChatCompletions.NvCreateChatCompletionStreamResponse :=
      ⟨"chatcmpl-1", "chat.completion.chunk", 0, "llama", none,
        [⟨0, ⟨some .assistant, some " world"⟩, some .stop⟩], none⟩
    ChatCompletions.DeltaAggregator.apply [.fromData first, .fromData second] =
      .error (.panic "delta should have a Role") :=
  rfl

end Protocols

end Dynamo
