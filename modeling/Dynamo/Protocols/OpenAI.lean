import Mathlib.Data.List.Basic
import Mathlib.Algebra.GroupWithZero.Nat

/-!
# OpenAI Responses from Backend Outputs

`OpenAIPreprocessor::generate` answers a chat or completions request with a
stream of responses built from the backend's outputs. It makes a
`DeltaGenerator` for the request, calls `update_isl` once with the number of
prompt token ids, and maps every data item of the backend's stream through
`choice_from_postprocessor`, in the unfold of `transform_postprocessor_stream`.
The generator is state: it counts the completion tokens of the outputs it has
seen into its usage, and the chat generator keeps a message counter that
decides whether a response names its role.

`respond` threads a generator through outputs one after another; the data of the
transformed stream is what `respond` gives for the data of the backend's stream
(`dataOf_transformPostprocessorStream`). Both generators answer in one shape,
`answer`: count the output, then read its finish reason. So the `k`-th answer
is made by the generator that has counted the first `k + 1` outputs
(`respond_getElem_of_answer`). Its usage has the prompt tokens and the
completion tokens of those outputs, but the total stays where `new` put it,
at zero: no method writes `total_tokens`. The message counter that
`create_choice` tests is never incremented either, so every chat response
names the role `Assistant`, not only the first
(`ChatCompletions.generate_getElem`, `Completions.generate_getElem`).

## Main definitions

* `Annotated`: A stream item: data, or an annotation.
* `DeltaGeneratorExt`: The generator's one method.
* `transformPostprocessorStream`, `generate`: The stream of responses.
* `ChatCompletions.DeltaGenerator`, `Completions.DeltaGenerator`: The two
  generators.
* `answer`: The shape of both `choice_from_postprocessor`s.
* `respond`: A generator's answers to outputs in turn.

## Theorems

* `dataOf_transformPostprocessorStream`: The responses of the stream are the
  generator's answers.
* `respond_getElem_of_answer`: The `k`-th answer of a generator.
* `foldl_countTokens`: The usage after counting outputs.
* `ChatCompletions.generate_getElem`, `Completions.generate_getElem`: The
  usage and the role of the `k`-th response.
* `generate_usage_total_zero`: Totals of zero, and the role named twice.
-/

namespace Dynamo

namespace Protocols

/-- `Annotated<R>`: a stream item carrying data, an event, or both. -/
structure Annotated (R : Type) where
  data : Option R
  id : Option String
  event : Option String
  comment : Option (List String)
  deriving DecidableEq, Repr

namespace Annotated

variable {R U : Type}

/-- `Annotated::from_error`. -/
def fromError (error : String) : Annotated R :=
  ⟨none, none, some "error", some [error]⟩

/-- `Annotated::from_data`. -/
def fromData (data : R) : Annotated R :=
  ⟨some data, none, none, none⟩

/-- `Annotated::from_annotation`, with the value already serialised. -/
def fromAnnotation (name value : String) : Annotated R :=
  ⟨none, none, some name, some [value]⟩

/-- `Annotated::transfer`: other data, the same annotations. -/
def transfer (self : Annotated R) (data : Option U) : Annotated U :=
  ⟨data, self.id, self.event, self.comment⟩

/-- `Annotated::ok`: an item whose event is `error` is the error its comments
    give. -/
def ok (self : Annotated R) : Except String (Annotated R) :=
  match self.event with
  | some event =>
    if event = "error" then .error (", ".intercalate (self.comment.getD ["unknown error"]))
    else .ok self
  | none => .ok self

end Annotated

/-- `common::FinishReason`: why the backend stopped. -/
inductive FinishReason where
  | eoS
  | length
  | stop
  | error (msg : String)
  | cancelled
  deriving DecidableEq, Repr

/-- `Display for FinishReason`. -/
def FinishReason.toString : FinishReason → String
  | .eoS => "eos"
  | .length => "length"
  | .stop => "stop"
  | .error msg => "error: " ++ msg
  | .cancelled => "cancelled"

/-- `FromStr for FinishReason`. -/
def FinishReason.fromStr (s : String) : Except String FinishReason :=
  if s = "eos" then .ok .eoS
  else if s = "length" then .ok .length
  else if s = "stop" then .ok .stop
  else if s = "cancelled" then .ok .cancelled
  else if s.startsWith "error: " then .ok (.error (String.ofList (s.toList.drop 7)))
  else .error ("Invalid FinishReason variant: '" ++ s ++ "'")

/-- `BackendOutput`, with the fields the generators read. -/
structure BackendOutput where
  tokenIds : List Nat
  text : Option String
  finishReason : Option FinishReason
  deriving DecidableEq, Repr

/-- The output does not end with an error. -/
def BackendOutput.NotError (self : BackendOutput) : Prop :=
  ∀ msg, self.finishReason ≠ some (.error msg)

/-- `DeltaGeneratorOptions`. -/
structure DeltaGeneratorOptions where
  enableUsage : Bool
  enableLogprobs : Bool
  deriving DecidableEq, Repr

/-- `CompletionUsage`: the token counts a response reports. -/
structure CompletionUsage where
  promptTokens : Nat
  completionTokens : Nat
  totalTokens : Nat
  deriving DecidableEq, Repr

/-- The usage both generators keep: with usage enabled, the tokens of each
    output are added to the completion tokens. -/
def DeltaGeneratorOptions.countTokens (self : DeltaGeneratorOptions) (usage : CompletionUsage)
    (delta : BackendOutput) : CompletionUsage :=
  if self.enableUsage then { usage with completionTokens := usage.completionTokens + delta.tokenIds.length }
  else usage

/-- The completion tokens of outputs. -/
def completionTokensOf (outputs : List BackendOutput) : Nat :=
  (outputs.map (·.tokenIds.length)).sum

theorem completionTokensOf_take_succ (output : BackendOutput) (outputs : List BackendOutput) (k : Nat) :
    completionTokensOf ((output :: outputs).take (k + 1)) =
      output.tokenIds.length + completionTokensOf (outputs.take k) := by
  rw [completionTokensOf, List.take_succ_cons, List.map_cons, List.sum_cons, completionTokensOf]

/-- With usage enabled, counting outputs in turn adds their completion tokens. -/
theorem foldl_countTokens {options : DeltaGeneratorOptions} (h : options.enableUsage = true) :
    ∀ (outputs : List BackendOutput) (usage : CompletionUsage),
      outputs.foldl options.countTokens usage =
        { usage with completionTokens := usage.completionTokens + completionTokensOf outputs }
  | [], usage => rfl
  | output :: outputs, usage => by
      rw [List.foldl_cons, foldl_countTokens h outputs, DeltaGeneratorOptions.countTokens, if_pos h]
      simp only [completionTokensOf, List.map_cons, List.sum_cons, Nat.add_assoc]

/-- What both `choice_from_postprocessor`s do: the generator counts the output
    first, then the finish reason is read; an error is returned as it is, and
    anything else makes the choice from the counted generator. -/
def answer {G F R : Type} (count : G → BackendOutput → G)
    (finishReasonOf : Option FinishReason → Except String (Option F))
    (createChoice : G → Option String → Option F → R) (self : G) (delta : BackendOutput) :
    Except String R × G :=
  let self := count self delta
  match finishReasonOf delta.finishReason with
  | .error msg => (.error msg, self)
  | .ok finishReason => (.ok (createChoice self delta.text finishReason), self)

/-- `DeltaGeneratorExt`: a generator answers a backend output with a response or
    an error, and is changed by it. -/
class DeltaGeneratorExt (G : Type) (Resp : outParam Type) where
  choiceFromPostprocessor : G → BackendOutput → Except String Resp × G

section Transform

variable {G Resp : Type} [DeltaGeneratorExt G Resp]

open DeltaGeneratorExt

/-- `transform_postprocessor_stream`: each data item is mapped through the
    generator (`map_data`, with the generator's change kept); an error becomes an
    error item and cancels the stream, which ends at the next item. -/
def transformPostprocessorStream (generator : G) (cancelled : Bool) :
    List (Annotated BackendOutput) → List (Annotated Resp)
  | [] => []
  | response :: rest =>
    if cancelled then []
    else
      match response.data with
      | none => response.transfer none :: transformPostprocessorStream generator false rest
      | some data =>
        match choiceFromPostprocessor generator data with
        | (.ok resp, generator) =>
          response.transfer (some resp) :: transformPostprocessorStream generator false rest
        | (.error e, generator) => Annotated.fromError e :: transformPostprocessorStream generator true rest

/-- `Operator::generate` of `OpenAIPreprocessor`, from the generator after
    `update_isl`: the request's annotations, then the transformed stream. -/
def generate (responseGenerator : G) (annotations : List (String × String))
    (responseStream : List (Annotated BackendOutput)) : List (Annotated Resp) :=
  annotations.map (fun a => Annotated.fromAnnotation a.1 a.2) ++
    transformPostprocessorStream responseGenerator false responseStream

/-- The generator's answers to outputs in turn, each made by the generator as
    the answers before left it. -/
def respond (generator : G) : List BackendOutput → List (Except String Resp)
  | [] => []
  | output :: outputs =>
    let r := choiceFromPostprocessor generator output
    r.1 :: respond r.2 outputs

/-- The data of a stream. -/
def dataOf {R : Type} (stream : List (Annotated R)) : List R :=
  stream.filterMap (·.data)

/-- Outputs the generator answers without error, in every state. -/
def Answered (outputs : List BackendOutput) : Prop :=
  ∀ (generator : G) (output : BackendOutput), output ∈ outputs →
    ∃ resp, (choiceFromPostprocessor generator output).1 = .ok resp

theorem dataOf_cons_of_none {R : Type} {response : Annotated R} (h : response.data = none)
    (rest : List (Annotated R)) : dataOf (response :: rest) = dataOf rest := by
  simp only [dataOf, List.filterMap_cons, h]

theorem dataOf_cons_of_some {R : Type} {response : Annotated R} {data : R} (h : response.data = some data)
    (rest : List (Annotated R)) : dataOf (response :: rest) = data :: dataOf rest := by
  simp only [dataOf, List.filterMap_cons, h]

theorem dataOf_transfer_cons {R U : Type} (response : Annotated R) (data : Option U)
    (rest : List (Annotated U)) : dataOf (response.transfer data :: rest) = data.toList ++ dataOf rest := by
  cases data <;> rfl

/-- When the generator answers every output, the responses of the stream are its
    answers to the stream's data. -/
theorem dataOf_transformPostprocessorStream :
    ∀ (generator : G) (stream : List (Annotated BackendOutput)),
      Answered (G := G) (dataOf stream) →
        (dataOf (transformPostprocessorStream generator false stream)).map Except.ok =
          respond generator (dataOf stream)
  | _, [], _ => rfl
  | generator, response :: rest, h => by
      rw [transformPostprocessorStream, if_neg Bool.false_ne_true]
      cases hdata : response.data with
      | none =>
          -- an annotation passes through without data
          rw [dataOf_cons_of_none hdata] at h ⊢
          rw [dataOf_transfer_cons, Option.toList_none, List.nil_append,
            dataOf_transformPostprocessorStream generator rest h]
      | some data =>
          rw [dataOf_cons_of_some hdata] at h ⊢
          obtain ⟨resp, hresp⟩ := h generator data List.mem_cons_self
          have hrest : Answered (G := G) (dataOf rest) :=
            fun g o ho => h g o (List.mem_cons_of_mem data ho)
          rcases hr : choiceFromPostprocessor generator data with ⟨r, generator'⟩
          rw [hr] at hresp
          subst hresp
          dsimp only
          rw [hr]
          dsimp only
          rw [dataOf_transfer_cons, Option.toList_some, List.singleton_append, List.map_cons,
            dataOf_transformPostprocessorStream generator' rest hrest, respond, hr]

theorem dataOf_generate (responseGenerator : G) (annotations : List (String × String))
    (responseStream : List (Annotated BackendOutput)) :
    dataOf (generate responseGenerator annotations responseStream) =
      dataOf (transformPostprocessorStream responseGenerator false responseStream) := by
  -- the annotations carry no data
  have hnone : dataOf (annotations.map fun a => (Annotated.fromAnnotation a.1 a.2 : Annotated Resp)) = [] := by
    rw [dataOf, List.filterMap_eq_nil_iff]
    intro x hx
    obtain ⟨a, -, rfl⟩ := List.mem_map.mp hx
    rfl
  rw [generate, dataOf, List.filterMap_append, ← dataOf, hnone, List.nil_append, ← dataOf]

/-- The `k`-th answer of a generator whose method is `answer`, to outputs whose
    finish reasons all read: the choice made by the generator that has counted
    the first `k + 1` outputs. -/
theorem respond_getElem_of_answer {F : Type} {count : G → BackendOutput → G}
    {finishReasonOf : Option FinishReason → Except String (Option F)}
    {createChoice : G → Option String → Option F → Resp}
    (hmethod : ∀ g o, choiceFromPostprocessor g o = answer count finishReasonOf createChoice g o) :
    ∀ (generator : G) (outputs : List BackendOutput),
      (∀ o ∈ outputs, ∃ reason, finishReasonOf o.finishReason = .ok reason) →
      ∀ k < outputs.length, ∃ (output : BackendOutput) (reason : Option F), outputs[k]? = some output ∧
        (respond generator outputs)[k]? =
          some (.ok (createChoice ((outputs.take (k + 1)).foldl count generator) output.text reason))
  | _, [], _, k, hk => absurd hk (Nat.not_lt_zero k)
  | generator, output :: outputs, h, k, hk => by
      obtain ⟨reason, hreason⟩ := h output List.mem_cons_self
      have hstep : choiceFromPostprocessor generator output =
          (.ok (createChoice (count generator output) output.text reason), count generator output) := by
        rw [hmethod, answer, hreason]
      simp only [respond, hstep]
      cases k with
      | zero => exact ⟨output, reason, rfl, rfl⟩
      | succ k =>
          -- the rest is answered by the generator that counted the first output
          obtain ⟨o, r, ho, hget⟩ := respond_getElem_of_answer hmethod (count generator output) outputs
            (fun o ho => h o (List.mem_cons_of_mem output ho)) k (Nat.lt_of_succ_lt_succ hk)
          refine ⟨o, r, ho, ?_⟩
          rw [List.getElem?_cons_succ, hget, List.take_succ_cons, List.foldl_cons]

/-- The responses of a generator, read off the data of the stream: when the
    generator answers every output, the `k`-th data item is its `k`-th answer. -/
theorem getElem_dataOf_generate {generator : G} {annotations : List (String × String)}
    {responseStream : List (Annotated BackendOutput)} (h : Answered (G := G) (dataOf responseStream))
    {k : Nat} {resp : Resp} (hk : (respond generator (dataOf responseStream))[k]? = some (.ok resp)) :
    (dataOf (generate generator annotations responseStream))[k]? = some resp := by
  rw [← dataOf_transformPostprocessorStream generator responseStream h, List.getElem?_map] at hk
  obtain ⟨r, hr, hok⟩ := Option.map_eq_some_iff.mp hk
  rw [dataOf_generate, hr, Except.ok.inj hok]

end Transform

/-! ### Chat completions -/

namespace ChatCompletions

/-- `async_openai::types::Role`. -/
inductive Role where
  | system
  | user
  | assistant
  | tool
  | function
  deriving DecidableEq, Repr

/-- `async_openai::types::FinishReason`. -/
inductive FinishReason where
  | stop
  | length
  | toolCalls
  | contentFilter
  | functionCall
  deriving DecidableEq, Repr

/-- `ChatCompletionStreamResponseDelta`: the role, if named, and a piece of the
    content. -/
structure ChatCompletionStreamResponseDelta where
  role : Option Role
  content : Option String
  deriving DecidableEq, Repr

/-- `ChatChoiceStream`. -/
structure ChatChoiceStream where
  index : Nat
  delta : ChatCompletionStreamResponseDelta
  finishReason : Option FinishReason
  deriving DecidableEq, Repr

/-- `NvCreateChatCompletionStreamResponse`: one chunk of a chat response. -/
structure NvCreateChatCompletionStreamResponse where
  id : String
  object : String
  created : Nat
  model : String
  systemFingerprint : Option String
  choices : List ChatChoiceStream
  usage : Option CompletionUsage
  deriving DecidableEq, Repr

/-- `NvCreateChatCompletionRequest`, with the fields the generator reads. -/
structure NvCreateChatCompletionRequest where
  model : String
  logprobs : Option Bool
  deriving DecidableEq, Repr

/-- `DeltaGenerator` of chat completions. -/
structure DeltaGenerator where
  id : String
  object : String
  created : Nat
  model : String
  systemFingerprint : Option String
  usage : CompletionUsage
  msgCounter : Nat
  options : DeltaGeneratorOptions
  deriving DecidableEq, Repr

/-- `DeltaGenerator::new`, with the uuid and the time given. -/
def DeltaGenerator.new (model : String) (options : DeltaGeneratorOptions) (uuid : String) (now : Nat) :
    DeltaGenerator :=
  ⟨"chatcmpl-" ++ uuid, "chat.completion.chunk", now, model, none, ⟨0, 0, 0⟩, 0, options⟩

/-- `NvCreateChatCompletionRequest::response_generator`. -/
def NvCreateChatCompletionRequest.responseGenerator (self : NvCreateChatCompletionRequest)
    (uuid : String) (now : Nat) : DeltaGenerator :=
  DeltaGenerator.new self.model ⟨true, self.logprobs.getD false⟩ uuid now

/-- `DeltaGenerator::update_isl`. -/
def DeltaGenerator.updateIsl (self : DeltaGenerator) (isl : Nat) : DeltaGenerator :=
  { self with usage := { self.usage with promptTokens := isl } }

/-- `DeltaGenerator::create_choice`: the first message names the role. -/
def DeltaGenerator.createChoice (self : DeltaGenerator) (index : Nat) (text : Option String)
    (finishReason : Option FinishReason) : NvCreateChatCompletionStreamResponse :=
  let delta : ChatCompletionStreamResponseDelta :=
    ⟨if self.msgCounter = 0 then some .assistant else none, text⟩
  ⟨self.id, self.object, self.created, self.model, self.systemFingerprint, [⟨index, delta, finishReason⟩],
    if self.options.enableUsage then some self.usage else none⟩

/-- The backend's finish reasons as the chat API names them. -/
def finishReasonOf : Option Protocols.FinishReason → Except String (Option FinishReason)
  | some .eoS => .ok (some .stop)
  | some .stop => .ok (some .stop)
  | some .length => .ok (some .length)
  | some .cancelled => .ok (some .stop)
  | some (.error msg) => .error msg
  | none => .ok none

/-- The first step of `choice_from_postprocessor`: the output's tokens are
    counted. -/
def DeltaGenerator.count (self : DeltaGenerator) (delta : BackendOutput) : DeltaGenerator :=
  { self with usage := self.options.countTokens self.usage delta }

/-- `DeltaGenerator::choice_from_postprocessor`: the usage is counted before the
    finish reason is read, so an error output is counted too. -/
def DeltaGenerator.choiceFromPostprocessor (self : DeltaGenerator) (delta : BackendOutput) :
    Except String NvCreateChatCompletionStreamResponse × DeltaGenerator :=
  answer DeltaGenerator.count finishReasonOf (fun g => g.createChoice 0) self delta

instance : DeltaGeneratorExt DeltaGenerator NvCreateChatCompletionStreamResponse :=
  ⟨DeltaGenerator.choiceFromPostprocessor⟩

/-- `Operator::generate` for chat: the request's generator, told the number of
    prompt token ids. -/
def generate (request : NvCreateChatCompletionRequest) (uuid : String) (now : Nat)
    (tokenIds : List Nat) (annotations : List (String × String))
    (responseStream : List (Annotated BackendOutput)) : List (Annotated NvCreateChatCompletionStreamResponse) :=
  Protocols.generate ((request.responseGenerator uuid now).updateIsl tokenIds.length) annotations
    responseStream

theorem finishReasonOf_ok {output : BackendOutput} (h : output.NotError) :
    ∃ reason, finishReasonOf output.finishReason = .ok reason := by
  rcases hr : output.finishReason with _ | ⟨⟩ | ⟨⟩ | ⟨⟩ | ⟨msg⟩ | ⟨⟩
  · exact ⟨none, rfl⟩
  · exact ⟨some .stop, rfl⟩
  · exact ⟨some .length, rfl⟩
  · exact ⟨some .stop, rfl⟩
  · exact absurd hr (h msg)
  · exact ⟨some .stop, rfl⟩

theorem choiceFromPostprocessor_eq (generator : DeltaGenerator) (output : BackendOutput) :
    DeltaGeneratorExt.choiceFromPostprocessor generator output =
      answer DeltaGenerator.count finishReasonOf (fun g => g.createChoice 0) generator output :=
  rfl

theorem answered_of_notError {outputs : List BackendOutput} (h : ∀ o ∈ outputs, o.NotError) :
    Answered (G := DeltaGenerator) outputs := by
  intro generator output houtput
  obtain ⟨reason, hreason⟩ := finishReasonOf_ok (h output houtput)
  refine ⟨(generator.count output).createChoice 0 output.text reason, ?_⟩
  rw [choiceFromPostprocessor_eq, answer, hreason]

/-- Counting changes only the usage. -/
theorem foldl_count (self : DeltaGenerator) :
    ∀ outputs : List BackendOutput, outputs.foldl DeltaGenerator.count self =
      { self with usage := outputs.foldl self.options.countTokens self.usage }
  | [] => rfl
  | output :: outputs => by
      rw [List.foldl_cons, foldl_count _ outputs, List.foldl_cons]
      rfl

/-- The `k`-th answer of a generator with usage enabled: its usage has the
    completion tokens of the first `k + 1` outputs added, its total is the
    generator's, and its role is the one the unchanged message counter gives. -/
theorem respond_getElem (self : DeltaGenerator) (henable : self.options.enableUsage = true)
    (outputs : List BackendOutput) (h : ∀ o ∈ outputs, o.NotError) (k : Nat) (hk : k < outputs.length) :
    ∃ resp, (respond self outputs)[k]? = some (.ok resp) ∧
      resp.usage = some ⟨self.usage.promptTokens,
        self.usage.completionTokens + completionTokensOf (outputs.take (k + 1)), self.usage.totalTokens⟩ ∧
      resp.choices.map (·.delta.role) = [if self.msgCounter = 0 then some .assistant else none] := by
  obtain ⟨output, reason, -, hget⟩ := respond_getElem_of_answer choiceFromPostprocessor_eq self outputs
    (fun o ho => finishReasonOf_ok (h o ho)) k hk
  refine ⟨_, hget, ?_, by rw [foldl_count]; rfl⟩
  rw [foldl_count, DeltaGenerator.createChoice]
  simp only [henable, if_true, foldl_countTokens henable]

/-- Each chat response of a stream without error outputs: the prompt tokens and
    the completion tokens so far, a total of zero, and the role `Assistant`. -/
theorem generate_getElem (request : NvCreateChatCompletionRequest) (uuid : String) (now : Nat)
    (tokenIds : List Nat) (annotations : List (String × String))
    (responseStream : List (Annotated BackendOutput)) (h : ∀ o ∈ dataOf responseStream, o.NotError)
    (k : Nat) (hk : k < (dataOf responseStream).length) :
    ∃ resp, (dataOf (generate request uuid now tokenIds annotations responseStream))[k]? = some resp ∧
      resp.usage = some ⟨tokenIds.length, completionTokensOf ((dataOf responseStream).take (k + 1)), 0⟩ ∧
      resp.choices.map (·.delta.role) = [some .assistant] := by
  obtain ⟨resp, hget, husage, hrole⟩ :=
    respond_getElem ((request.responseGenerator uuid now).updateIsl tokenIds.length) rfl _ h k hk
  refine ⟨resp, getElem_dataOf_generate (answered_of_notError h) hget, ?_, hrole⟩
  rw [husage]
  show some (CompletionUsage.mk tokenIds.length (0 + _) 0) = _
  rw [Nat.zero_add]

end ChatCompletions

/-! ### Completions -/

namespace Completions

/-- `CompletionChoice`. -/
structure CompletionChoice where
  text : String
  index : Nat
  finishReason : Option String
  deriving DecidableEq, Repr

/-- `CompletionResponse`: one chunk of a completions response. -/
structure CompletionResponse where
  id : String
  object : String
  created : Nat
  model : String
  systemFingerprint : Option String
  choices : List CompletionChoice
  usage : Option CompletionUsage
  deriving DecidableEq, Repr

/-- `CompletionRequest`, with the field the generator reads. -/
structure CompletionRequest where
  model : String
  deriving DecidableEq, Repr

/-- `DeltaGenerator` of completions. -/
structure DeltaGenerator where
  id : String
  object : String
  created : Nat
  model : String
  systemFingerprint : Option String
  usage : CompletionUsage
  options : DeltaGeneratorOptions
  deriving DecidableEq, Repr

/-- `DeltaGenerator::new`, with the uuid and the time given. -/
def DeltaGenerator.new (model : String) (options : DeltaGeneratorOptions) (uuid : String) (now : Nat) :
    DeltaGenerator :=
  ⟨"cmpl-" ++ uuid, "text_completion", now, model, none, ⟨0, 0, 0⟩, options⟩

/-- `CompletionRequest::response_generator`. -/
def CompletionRequest.responseGenerator (self : CompletionRequest) (uuid : String) (now : Nat) :
    DeltaGenerator :=
  DeltaGenerator.new self.model ⟨true, false⟩ uuid now

/-- `DeltaGenerator::update_isl`. -/
def DeltaGenerator.updateIsl (self : DeltaGenerator) (isl : Nat) : DeltaGenerator :=
  { self with usage := { self.usage with promptTokens := isl } }

/-- `DeltaGenerator::create_choice`. -/
def DeltaGenerator.createChoice (self : DeltaGenerator) (index : Nat) (text : Option String)
    (finishReason : Option String) : CompletionResponse :=
  ⟨self.id, self.object, self.created, self.model, self.systemFingerprint,
    [⟨text.getD "", index, finishReason⟩], if self.options.enableUsage then some self.usage else none⟩

/-- The backend's finish reasons as the completions API names them. -/
def finishReasonOf : Option Protocols.FinishReason → Except String (Option String)
  | some .eoS => .ok (some "stop")
  | some .stop => .ok (some "stop")
  | some .length => .ok (some "length")
  | some .cancelled => .ok (some "cancelled")
  | some (.error msg) => .error msg
  | none => .ok none

/-- The first step of `choice_from_postprocessor`: the output's tokens are
    counted. -/
def DeltaGenerator.count (self : DeltaGenerator) (delta : BackendOutput) : DeltaGenerator :=
  { self with usage := self.options.countTokens self.usage delta }

/-- `DeltaGenerator::choice_from_postprocessor`. -/
def DeltaGenerator.choiceFromPostprocessor (self : DeltaGenerator) (delta : BackendOutput) :
    Except String CompletionResponse × DeltaGenerator :=
  answer DeltaGenerator.count finishReasonOf (fun g => g.createChoice 0) self delta

instance : DeltaGeneratorExt DeltaGenerator CompletionResponse :=
  ⟨DeltaGenerator.choiceFromPostprocessor⟩

/-- `Operator::generate` for completions. -/
def generate (request : CompletionRequest) (uuid : String) (now : Nat) (tokenIds : List Nat)
    (annotations : List (String × String)) (responseStream : List (Annotated BackendOutput)) :
    List (Annotated CompletionResponse) :=
  Protocols.generate ((request.responseGenerator uuid now).updateIsl tokenIds.length) annotations
    responseStream

theorem finishReasonOf_ok {output : BackendOutput} (h : output.NotError) :
    ∃ reason, finishReasonOf output.finishReason = .ok reason := by
  rcases hr : output.finishReason with _ | ⟨⟩ | ⟨⟩ | ⟨⟩ | ⟨msg⟩ | ⟨⟩
  · exact ⟨none, rfl⟩
  · exact ⟨some "stop", rfl⟩
  · exact ⟨some "length", rfl⟩
  · exact ⟨some "stop", rfl⟩
  · exact absurd hr (h msg)
  · exact ⟨some "cancelled", rfl⟩

theorem choiceFromPostprocessor_eq (generator : DeltaGenerator) (output : BackendOutput) :
    DeltaGeneratorExt.choiceFromPostprocessor generator output =
      answer DeltaGenerator.count finishReasonOf (fun g => g.createChoice 0) generator output :=
  rfl

theorem answered_of_notError {outputs : List BackendOutput} (h : ∀ o ∈ outputs, o.NotError) :
    Answered (G := DeltaGenerator) outputs := by
  intro generator output houtput
  obtain ⟨reason, hreason⟩ := finishReasonOf_ok (h output houtput)
  refine ⟨(generator.count output).createChoice 0 output.text reason, ?_⟩
  rw [choiceFromPostprocessor_eq, answer, hreason]

/-- Counting changes only the usage. -/
theorem foldl_count (self : DeltaGenerator) :
    ∀ outputs : List BackendOutput, outputs.foldl DeltaGenerator.count self =
      { self with usage := outputs.foldl self.options.countTokens self.usage }
  | [] => rfl
  | output :: outputs => by
      rw [List.foldl_cons, foldl_count _ outputs, List.foldl_cons]
      rfl

/-- The `k`-th answer of a generator with usage enabled: its usage has the
    completion tokens of the first `k + 1` outputs added, and its total is the
    generator's. -/
theorem respond_getElem (self : DeltaGenerator) (henable : self.options.enableUsage = true)
    (outputs : List BackendOutput) (h : ∀ o ∈ outputs, o.NotError) (k : Nat) (hk : k < outputs.length) :
    ∃ resp, (respond self outputs)[k]? = some (.ok resp) ∧
      resp.usage = some ⟨self.usage.promptTokens,
        self.usage.completionTokens + completionTokensOf (outputs.take (k + 1)), self.usage.totalTokens⟩ := by
  obtain ⟨output, reason, -, hget⟩ := respond_getElem_of_answer choiceFromPostprocessor_eq self outputs
    (fun o ho => finishReasonOf_ok (h o ho)) k hk
  refine ⟨_, hget, ?_⟩
  rw [foldl_count, DeltaGenerator.createChoice]
  simp only [henable, if_true, foldl_countTokens henable]

/-- Each completions response of a stream without error outputs: the prompt
    tokens and the completion tokens so far, and a total of zero. -/
theorem generate_getElem (request : CompletionRequest) (uuid : String) (now : Nat)
    (tokenIds : List Nat) (annotations : List (String × String))
    (responseStream : List (Annotated BackendOutput)) (h : ∀ o ∈ dataOf responseStream, o.NotError)
    (k : Nat) (hk : k < (dataOf responseStream).length) :
    ∃ resp, (dataOf (generate request uuid now tokenIds annotations responseStream))[k]? = some resp ∧
      resp.usage = some ⟨tokenIds.length, completionTokensOf ((dataOf responseStream).take (k + 1)), 0⟩ := by
  obtain ⟨resp, hget, husage⟩ :=
    respond_getElem ((request.responseGenerator uuid now).updateIsl tokenIds.length) rfl _ h k hk
  refine ⟨resp, getElem_dataOf_generate (answered_of_notError h) hget, ?_⟩
  rw [husage]
  show some (CompletionUsage.mk tokenIds.length (0 + _) 0) = _
  rw [Nat.zero_add]

end Completions

/-- Three prompt tokens, then two outputs of one token each: the chat responses
    report totals of zero where the prompt and completion tokens add to four and
    five, and the second names the role again; the completions responses report
    the same totals. -/
theorem generate_usage_total_zero :
    let outputs : List (Annotated BackendOutput) :=
      [.fromData ⟨[7], some "a", none⟩, .fromData ⟨[8], some "b", some .stop⟩]
    (dataOf (ChatCompletions.generate ⟨"llama", none⟩ "u" 0 [1, 2, 3] [] outputs)).map
        (fun r => (r.usage, r.choices.map (·.delta.role))) =
      [(some ⟨3, 1, 0⟩, [some .assistant]), (some ⟨3, 2, 0⟩, [some .assistant])] ∧
    (dataOf (Completions.generate ⟨"llama"⟩ "u" 0 [1, 2, 3] [] outputs)).map (·.usage) =
      [some ⟨3, 1, 0⟩, some ⟨3, 2, 0⟩] :=
  ⟨rfl, rfl⟩

end Protocols

end Dynamo
