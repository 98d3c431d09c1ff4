import Mathlib.Logic.Function.Basic
import Dynamo.Runtime.Discovery

/-!
# The Model Watcher of the HTTP Service

The HTTP service serves each model from one of two maps of `DeploymentState`,
the chat completion engines and the completion engines, both keyed by the
model's public name. `model_watcher` keeps them up to date from the etcd
events under a prefix. A put carries a JSON `ModelEntry`: its name is added,
to the maps its type asks for, unless some map knows the name already. A
delete carries only the key: `handle_delete` takes the name to be the key with
the prefix trimmed off its front, and removes that name from both maps.

The two maps always move together, so the manager means a single registry from
names to types (`ModelManager.registry`), and each step of the watcher is a
step of that registry (`registry_modelWatcherStep`): the first registration of
a name wins, and a delete unregisters the trimmed key.

What the watcher should track is the registrations whose keys are present
(`LiveServes`). When every key is written as llmctl writes it, the prefix
followed by the model name, created once and deleted while present, the
trimmed key is the name and the watcher tracks the present keys exactly
(`modelWatcher_tracks_llmctl`). A worker registers through
`LocalModel::attach` instead, under `ModelNetworkName`, the slug of
`{ns}.{cp}.{ep}-{lease:x}`. Under the prefix `dynamo-run` watches, the slug of
`{ns}_{cp}`, the trimmed key is `_{ep}-{lease:x}` and never the model's name, so
the model stays served after its worker's key is gone
(`modelWatcher_keeps_deleted_model`).

## Main definitions

* `ModelEngines.add`, `ModelEngines.remove`: One map of engines.
* `ModelManager.addModel`, `ModelManager.removeModel`: The `add_*_model` and
  `remove_*_model` family.
* `handlePut`, `handleDelete`, `modelWatcherStep`, `modelWatcher`: The watcher.
* `ModelNetworkName.fromLocal`: The key `LocalModel::attach` registers under.
* `ModelManager.registry`, `registryStep`: The manager as one registry.
* `liveAfter`, `LiveServes`: The present keys and what they register.

## Theorems

* `registry_handlePut`, `registry_handleDelete`: The registry after a put and a
  delete.
* `registry_modelWatcherStep`, `registry_modelWatcher`: The watcher refines the
  registry.
* `contains_eq_registry`: What each map serves, read off the registry.
* `registryStep_liveRegistry`, `wellKeyed_liveStep`: Under llmctl's keys one
  event keeps the registry that of the present keys.
* `modelWatcher_tracks_llmctl`: Under llmctl's keys the watcher serves exactly
  what the present keys register.
* `modelWatcher_keeps_deleted_model`: Under a worker's key it does not.
-/

namespace Dynamo

namespace Http

/-! ### The model maps -/

/-- `ModelType`: the API a model is registered for. -/
inductive ModelType where
  | chat
  | completion
  | backend
  deriving DecidableEq, Repr

/-- `ModelEntry`, as the watcher reads it: the public name and the type. -/
structure ModelEntry where
  name : String
  modelType : ModelType
  deriving DecidableEq, Repr

/-- `ServiceHttpError`: the errors of the model maps. -/
inductive ServiceHttpError where
  | modelAlreadyExists (model : String)
  | modelNotFound (model : String)
  deriving DecidableEq, Repr

/-- `ModelEngines`: engines by model name. -/
structure ModelEngines (E : Type) where
  engines : AList (fun _ : String => E)

namespace ModelEngines

variable {E : Type}

/-- `ModelEngines::add`: a name is added once. -/
def add (self : ModelEngines E) (model : String) (engine : E) :
    Except ServiceHttpError (ModelEngines E) :=
  if model ∈ self.engines then .error (.modelAlreadyExists model)
  else .ok ⟨self.engines.insert model engine⟩

/-- `ModelEngines::remove`: only a known name is removed. -/
def remove (self : ModelEngines E) (model : String) : Except ServiceHttpError (ModelEngines E) :=
  if model ∈ self.engines then .ok ⟨self.engines.erase model⟩
  else .error (.modelNotFound model)

/-- `ModelEngines::contains`. -/
def contains (self : ModelEngines E) (model : String) : Bool :=
  decide (model ∈ self.engines)

end ModelEngines

/-- The two maps of `DeploymentState`. -/
inductive Engines where
  | chatCompletion
  | completion
  deriving DecidableEq, Repr

/-- `ModelManager`: the two maps, each engine named by the entry it was built
    from. -/
structure ModelManager where
  chatCompletionEngines : ModelEngines ModelEntry
  completionEngines : ModelEngines ModelEntry

namespace ModelManager

/-- `ModelManager::new`. -/
def new : ModelManager :=
  ⟨⟨∅⟩, ⟨∅⟩⟩

/-- One of the two maps. -/
def clients (self : ModelManager) : Engines → ModelEngines ModelEntry
  | .chatCompletion => self.chatCompletionEngines
  | .completion => self.completionEngines

/-- One of the two maps replaced. -/
def setClients (self : ModelManager) : Engines → ModelEngines ModelEntry → ModelManager
  | .chatCompletion, clients => { self with chatCompletionEngines := clients }
  | .completion, clients => { self with completionEngines := clients }

/-- `ModelManager::has_model_any`. -/
def hasModelAny (self : ModelManager) (model : String) : Bool :=
  self.chatCompletionEngines.contains model || self.completionEngines.contains model

/-- The `add_*_model` family: lock one map and add to it; a failed add leaves
    the maps as they were. -/
def addModel (self : ModelManager) (which : Engines) (model : String) (engine : ModelEntry) :
    Except ServiceHttpError Unit × ModelManager :=
  match (self.clients which).add model engine with
  | .ok clients => (.ok (), self.setClients which clients)
  | .error e => (.error e, self)

/-- `ModelManager::add_completions_model`. -/
def addCompletionsModel (self : ModelManager) (model : String) (engine : ModelEntry) :
    Except ServiceHttpError Unit × ModelManager :=
  self.addModel .completion model engine

/-- `ModelManager::add_chat_completions_model`. -/
def addChatCompletionsModel (self : ModelManager) (model : String) (engine : ModelEntry) :
    Except ServiceHttpError Unit × ModelManager :=
  self.addModel .chatCompletion model engine

/-- The `remove_*_model` family. -/
def removeModel (self : ModelManager) (which : Engines) (model : String) :
    Except ServiceHttpError Unit × ModelManager :=
  match (self.clients which).remove model with
  | .ok clients => (.ok (), self.setClients which clients)
  | .error e => (.error e, self)

/-- `ModelManager::remove_completions_model`. -/
def removeCompletionsModel (self : ModelManager) (model : String) :
    Except ServiceHttpError Unit × ModelManager :=
  self.removeModel .completion model

/-- `ModelManager::remove_chat_completions_model`. -/
def removeChatCompletionsModel (self : ModelManager) (model : String) :
    Except ServiceHttpError Unit × ModelManager :=
  self.removeModel .chatCompletion model

end ModelManager

/-! ### The watcher -/

/-- `str::trim_start_matches` with a string pattern, on characters: the
    pattern is taken off the front for as long as the rest starts with it. Each
    cut takes at least one character, so the length bounds the cuts. -/
def trimStartMatchesList (pfx : List Char) : Nat → List Char → List Char
  | 0, s => s
  | n + 1, s => if pfx ≠ [] ∧ pfx <+: s then trimStartMatchesList pfx n (s.drop pfx.length) else s

/-- `str::trim_start_matches`. -/
def trimStartMatches (s pfx : String) : String :=
  String.ofList (trimStartMatchesList pfx.toList s.length s.toList)

/-- `WatchEvent` of the prefix watch: a put, with its value parsed as a JSON
    `ModelEntry` (`none` when it is not one), or a delete. -/
inductive WatchEvent where
  | put (key : String) (value : Option ModelEntry)
  | delete (key : String)

/-- `handle_put`, with the engines built: a backend model is served by both
    maps, a chat model by the first, a completion model by the second. -/
def handlePut (entry : ModelEntry) (mgr : ModelManager) : Except ServiceHttpError Unit × ModelManager :=
  match entry.modelType with
  | .backend =>
    match mgr.addChatCompletionsModel entry.name entry with
    | (.ok (), mgr) => mgr.addCompletionsModel entry.name entry
    | (.error e, mgr) => (.error e, mgr)
  | .chat => mgr.addChatCompletionsModel entry.name entry
  | .completion => mgr.addCompletionsModel entry.name entry

/-- `handle_delete`: the name is the key with the prefix trimmed off; both
    removals are made and their errors ignored. -/
def handleDelete (pfx key : String) (mgr : ModelManager) : String × ModelManager :=
  let modelName := trimStartMatches key pfx
  let mgr := (mgr.removeChatCompletionsModel modelName).2
  (modelName, (mgr.removeCompletionsModel modelName).2)

/-- The body of the loop of `model_watcher`. -/
def modelWatcherStep (pfx : String) (mgr : ModelManager) : WatchEvent → ModelManager
  -- "Invalid JSON in model entry"
  | .put _ none => mgr
  -- "New endpoint for existing model": a known name is not added again
  | .put _ (some entry) => if mgr.hasModelAny entry.name then mgr else (handlePut entry mgr).2
  | .delete key => (handleDelete pfx key mgr).2

/-- `model_watcher` over the events it receives. -/
def modelWatcher (pfx : String) (mgr : ModelManager) (events : List WatchEvent) : ModelManager :=
  events.foldl (modelWatcherStep pfx) mgr

/-- `ModelNetworkName::from_parts`. -/
def ModelNetworkName.fromParts (toLowercase : String → String) («namespace» component endpoint : String)
    (leaseId : Int) : String :=
  Runtime.slugify toLowercase
    («namespace» ++ "." ++ component ++ "." ++ endpoint ++ "-" ++ Runtime.lowerHex leaseId)

/-- `ModelNetworkName::from_local`: the key `LocalModel::attach` registers a
    model under. -/
def ModelNetworkName.fromLocal (toLowercase : String → String) (endpoint : Runtime.Endpoint)
    (leaseId : Int) : String :=
  ModelNetworkName.fromParts toLowercase endpoint.component.namespace.name endpoint.component.name
    endpoint.name leaseId

/-! ### The manager is a registry -/

/-- What a manager means: for each name, the type it serves the name as. -/
abbrev Registry := String → Option ModelType

/-- Whether a model type is served by a map. -/
def ModelType.serves : ModelType → Engines → Bool
  | .chat, .chatCompletion => true
  | .completion, .completion => true
  | .backend, _ => true
  | _, _ => false

/-- The type a name is served as, from whether each map holds it. -/
def ModelType.ofServes : Bool → Bool → Option ModelType
  | true, true => some .backend
  | true, false => some .chat
  | false, true => some .completion
  | false, false => none

/-- The type a manager serves each name as. -/
def ModelManager.registry (self : ModelManager) (model : String) : Option ModelType :=
  ModelType.ofServes ((self.clients .chatCompletion).contains model)
    ((self.clients .completion).contains model)

/-- The watcher step on the registry: the first registration of a name wins,
    and a delete unregisters the trimmed key. -/
def registryStep (pfx : String) (reg : Registry) : WatchEvent → Registry
  | .put _ none => reg
  | .put _ (some entry) =>
    if (reg entry.name).isSome then reg else Function.update reg entry.name (some entry.modelType)
  | .delete key => Function.update reg (trimStartMatches key pfx) none

theorem ModelType.ofServes_serves (t : ModelType) :
    ModelType.ofServes (t.serves .chatCompletion) (t.serves .completion) = some t := by
  cases t <;> rfl

namespace ModelManager

@[simp]
theorem clients_setClients (self : ModelManager) (which which' : Engines)
    (clients : ModelEngines ModelEntry) :
    (self.setClients which clients).clients which' =
      if which' = which then clients else self.clients which' := by
  cases which <;> cases which' <;> rfl

/-- A map that does not hold the name takes it. -/
theorem addModel_of_contains_eq_false {which : Engines} {model : String} (engine : ModelEntry)
    (self : ModelManager) (h : (self.clients which).contains model = false) :
    self.addModel which model engine =
      (.ok (), self.setClients which ⟨(self.clients which).engines.insert model engine⟩) := by
  have hnot : model ∉ (self.clients which).engines := by
    simpa [ModelEngines.contains] using h
  rw [addModel, ModelEngines.add, if_neg hnot]

theorem contains_setClients_insert (self : ModelManager) (which which' : Engines)
    (model m : String) (engine : ModelEntry) :
    ((self.setClients which ⟨(self.clients which).engines.insert model engine⟩).clients which').contains
        m = (decide (which' = which ∧ m = model) || (self.clients which').contains m) := by
  by_cases hw : which' = which
  · subst hw
    simp [ModelEngines.contains, AList.mem_insert]
  · simp [hw]

/-- A removal leaves each map without the name, successful or not. -/
theorem contains_removeModel (self : ModelManager) (which which' : Engines) (model m : String) :
    ((self.removeModel which model).2.clients which').contains m =
      ((self.clients which').contains m && !decide (which' = which ∧ m = model)) := by
  unfold removeModel ModelEngines.remove
  by_cases hin : model ∈ (self.clients which).engines
  · -- the name is there: the map loses it
    rw [if_pos hin]
    by_cases hw : which' = which
    · subst hw
      by_cases hm : m = model <;> simp [ModelEngines.contains, AList.mem_erase, hm]
    · simp [hw]
  · -- the map never held the name
    rw [if_neg hin]
    by_cases hwm : which' = which ∧ m = model
    · obtain ⟨rfl, rfl⟩ := hwm
      simp [ModelEngines.contains, hin]
    · simp [hwm]

theorem hasModelAny_eq (self : ModelManager) (model : String) :
    self.hasModelAny model = (self.registry model).isSome := by
  simp only [hasModelAny, registry, clients]
  cases self.chatCompletionEngines.contains model <;> cases self.completionEngines.contains model <;> rfl

/-- What a map serves is what the registry says of the name. -/
theorem contains_eq_registry (self : ModelManager) (which : Engines) (model : String) :
    (self.clients which).contains model = ((self.registry model).map (·.serves which)).getD false := by
  unfold registry
  cases which <;> cases (self.clients .chatCompletion).contains model <;>
    cases (self.clients .completion).contains model <;> rfl

theorem contains_eq_false_of_registry_eq_none {self : ModelManager} {model : String}
    (h : self.registry model = none) (which : Engines) :
    (self.clients which).contains model = false := by
  rw [contains_eq_registry, h]
  rfl

end ModelManager

open ModelManager

/-- A put of a new name adds it to the maps its type asks for. -/
theorem contains_handlePut {entry : ModelEntry} {mgr : ModelManager}
    (h : mgr.registry entry.name = none) (which : Engines) (m : String) :
    ((handlePut entry mgr).2.clients which).contains m =
      (entry.modelType.serves which && decide (m = entry.name) || (mgr.clients which).contains m) := by
  have hfree := contains_eq_false_of_registry_eq_none h
  rcases entry with ⟨name, _ | _ | _⟩
  · -- chat
    simp only [handlePut, addChatCompletionsModel, addModel_of_contains_eq_false _ _ (hfree _),
      contains_setClients_insert]
    cases which <;> simp [ModelType.serves]
  · -- completion
    simp only [handlePut, addCompletionsModel, addModel_of_contains_eq_false _ _ (hfree _),
      contains_setClients_insert]
    cases which <;> simp [ModelType.serves]
  · -- backend: the first add succeeds, and the second map still lacks the name
    have hsecond : ((mgr.setClients .chatCompletion
        ⟨(mgr.clients .chatCompletion).engines.insert name ⟨name, .backend⟩⟩).clients .completion).contains
          name = false := by
      rw [clients_setClients, if_neg (by decide)]
      exact hfree _
    simp only [handlePut, addChatCompletionsModel, addCompletionsModel,
      addModel_of_contains_eq_false _ _ (hfree _), addModel_of_contains_eq_false _ _ hsecond,
      contains_setClients_insert]
    cases which <;> simp [ModelType.serves]

/-- A put of a name the registry lacks registers it with its type. -/
theorem registry_handlePut {entry : ModelEntry} {mgr : ModelManager}
    (h : mgr.registry entry.name = none) :
    (handlePut entry mgr).2.registry = Function.update mgr.registry entry.name (some entry.modelType) := by
  funext m
  unfold ModelManager.registry
  rw [contains_handlePut h, contains_handlePut h]
  by_cases hm : m = entry.name
  · subst hm
    rw [Function.update_self, contains_eq_false_of_registry_eq_none h,
      contains_eq_false_of_registry_eq_none h]
    simpa using ModelType.ofServes_serves entry.modelType
  · rw [Function.update_of_ne hm]
    simp [hm]

/-- A delete unregisters the trimmed key. -/
theorem registry_handleDelete (pfx key : String) (mgr : ModelManager) :
    (handleDelete pfx key mgr).2.registry =
      Function.update mgr.registry (trimStartMatches key pfx) none := by
  funext m
  unfold ModelManager.registry handleDelete removeChatCompletionsModel removeCompletionsModel
  simp only [contains_removeModel]
  by_cases hm : m = trimStartMatches key pfx
  · subst hm
    rw [Function.update_self]
    simp [ModelType.ofServes]
  · rw [Function.update_of_ne hm]
    simp [hm]

/-- One step of the watcher is one step of its registry. -/
theorem registry_modelWatcherStep (pfx : String) (mgr : ModelManager) (event : WatchEvent) :
    (modelWatcherStep pfx mgr event).registry = registryStep pfx mgr.registry event := by
  cases event with
  | put key value =>
      cases value with
      | none => rfl
      | some entry =>
          simp only [modelWatcherStep, registryStep, hasModelAny_eq]
          by_cases hknown : (mgr.registry entry.name).isSome
          · rw [if_pos hknown, if_pos hknown]
          · rw [if_neg hknown, if_neg hknown]
            exact registry_handlePut (Option.not_isSome_iff_eq_none.mp hknown)
  | delete key => exact registry_handleDelete pfx key mgr

/-- The watcher refines the registry over every run. -/
theorem registry_modelWatcher (pfx : String) (events : List WatchEvent) :
    ∀ mgr : ModelManager,
      (modelWatcher pfx mgr events).registry = events.foldl (registryStep pfx) mgr.registry := by
  induction events with
  | nil => intro mgr; rfl
  | cons event events ih =>
      intro mgr
      rw [modelWatcher, List.foldl_cons, ← modelWatcher, ih, registry_modelWatcherStep, List.foldl_cons]

/-! ### The present keys -/

/-- The keys present under the prefix, each with its parsed value. -/
abbrev Live := AList (fun _ : String => Option ModelEntry)

/-- An event on the present keys. -/
def liveStep (live : Live) : WatchEvent → Live
  | .put key value => live.insert key value
  | .delete key => live.erase key

/-- The keys present after a watch's events, from the start of the watch. -/
def liveAfter (events : List WatchEvent) : Live :=
  events.foldl liveStep ∅

/-- Some present key registers the name with a type the map serves. -/
def LiveServes (which : Engines) (live : Live) (model : String) : Prop :=
  ∃ key entry, live.lookup key = some (some entry) ∧ entry.name = model ∧
    entry.modelType.serves which = true

section Llmctl

variable (pfx : String)

/-- The registry of the present keys, read at the keys llmctl writes. -/
def liveRegistry (live : Live) : Registry :=
  fun model => ((live.lookup (pfx ++ model)).bind id).map ModelEntry.modelType

/-- Every present key is llmctl's key of the entry it holds: the prefix, then
    a name that does not itself start with the prefix. -/
def WellKeyed (live : Live) : Prop :=
  ∀ key value, live.lookup key = some value →
    ∃ entry, value = some entry ∧ key = pfx ++ entry.name ∧ ¬ pfx.toList <+: entry.name.toList

/-- An event as llmctl makes it: a put creates the key of its entry's name
    (`kv_create`), a delete removes a present key. -/
def LlmctlEvent (live : Live) : WatchEvent → Prop
  | .put key (some entry) => key = pfx ++ entry.name ∧ key ∉ live ∧ ¬ pfx.toList <+: entry.name.toList
  | .put _ none => False
  | .delete key => key ∈ live

/-- A run of events each made as llmctl makes them. -/
def LlmctlRun : Live → List WatchEvent → Prop
  | _, [] => True
  | live, event :: events => LlmctlEvent pfx live event ∧ LlmctlRun (liveStep live event) events

variable {pfx}

theorem trimStartMatchesList_of_not_prefix {p s : List Char} (h : ¬ p <+: s) (n : Nat) :
    trimStartMatchesList p n s = s := by
  cases n with
  | zero => rfl
  | succ n => rw [trimStartMatchesList, if_neg (fun hp => h hp.2)]

/-- The prefix of llmctl's key is trimmed back to the name. -/
theorem trimStartMatches_append (hp : pfx ≠ "") {model : String}
    (hm : ¬ pfx.toList <+: model.toList) : trimStartMatches (pfx ++ model) pfx = model := by
  have hne : pfx.toList ≠ [] := fun h => hp (String.toList_eq_nil_iff.mp h)
  have hlen : (pfx ++ model).length = (pfx.length + model.length - 1) + 1 := by
    have : 0 < pfx.length := by
      rw [← String.length_toList]
      exact List.length_pos_iff.mpr hne
    rw [← String.length_toList, String.toList_append, List.length_append, String.length_toList,
      String.length_toList]
    omega
  rw [trimStartMatches, hlen, String.toList_append, trimStartMatchesList,
    if_pos ⟨hne, List.prefix_append _ _⟩, List.drop_left, trimStartMatchesList_of_not_prefix hm,
    String.ofList_toList]

theorem wellKeyed_empty : WellKeyed pfx ∅ := by
  intro key value h
  simp at h

/-- An event made as llmctl makes it keeps every present key llmctl's. -/
theorem wellKeyed_liveStep {live : Live} (hw : WellKeyed pfx live) :
    ∀ {event : WatchEvent}, LlmctlEvent pfx live event → WellKeyed pfx (liveStep live event)
  | .put key (some entry), ⟨hkey, _, hname⟩ => by
      intro key' value h
      by_cases hk : key' = key
      · subst hk
        rw [liveStep, AList.lookup_insert] at h
        exact ⟨entry, (Option.some.inj h).symm, hkey, hname⟩
      · rw [liveStep, AList.lookup_insert_ne hk] at h
        exact hw key' value h
  | .delete key, _ => by
      intro key' value h
      by_cases hk : key' = key
      · subst hk
        rw [liveStep, AList.lookup_erase] at h
        exact absurd h (Option.some_ne_none _).symm
      · rw [liveStep, AList.lookup_erase_ne hk] at h
        exact hw key' value h

/-- Under llmctl's keys one event keeps the registry that of the present keys. -/
theorem registryStep_liveRegistry (hp : pfx ≠ "") {live : Live} (hw : WellKeyed pfx live) :
    ∀ {event : WatchEvent}, LlmctlEvent pfx live event →
      registryStep pfx (liveRegistry pfx live) event = liveRegistry pfx (liveStep live event)
  | .put key (some entry), ⟨hkey, hfresh, _⟩ => by
      -- the key is new, so the name is not registered yet
      have hnone : liveRegistry pfx live entry.name = none := by
        rw [liveRegistry, ← hkey, AList.lookup_eq_none.mpr hfresh]
        rfl
      funext m
      rw [registryStep, hnone, Option.isSome_none, if_neg Bool.false_ne_true, liveStep, liveRegistry]
      by_cases hm : m = entry.name
      · subst hm
        rw [Function.update_self, ← hkey, AList.lookup_insert]
        rfl
      · have hk : pfx ++ m ≠ key := by
          rw [hkey]
          exact fun h => hm (String.append_right_inj pfx |>.mp h)
        rw [Function.update_of_ne hm, AList.lookup_insert_ne hk]
        rfl
  | .delete key, hmem => by
      -- the present key is llmctl's, so its trimmed form is the name it holds
      obtain ⟨value, hvalue⟩ := Option.isSome_iff_exists.mp (AList.lookup_isSome.mpr hmem)
      obtain ⟨entry, -, hkey, hname⟩ := hw key value hvalue
      funext m
      rw [registryStep, hkey, trimStartMatches_append hp hname, liveStep, liveRegistry]
      by_cases hm : m = entry.name
      · subst hm
        rw [Function.update_self, AList.lookup_erase]
        rfl
      · have hk : pfx ++ m ≠ pfx ++ entry.name :=
          fun h => hm (String.append_right_inj pfx |>.mp h)
        rw [Function.update_of_ne hm, AList.lookup_erase_ne hk]
        rfl

/-- Under llmctl's keys a run keeps the registry that of the present keys. -/
theorem foldl_registryStep_liveRegistry (hp : pfx ≠ "") :
    ∀ (events : List WatchEvent) (live : Live), WellKeyed pfx live → LlmctlRun pfx live events →
      events.foldl (registryStep pfx) (liveRegistry pfx live) =
        liveRegistry pfx (events.foldl liveStep live)
  | [], _, _, _ => rfl
  | event :: events, live, hw, ⟨hevent, hrun⟩ => by
      rw [List.foldl_cons, registryStep_liveRegistry hp hw hevent, List.foldl_cons]
      exact foldl_registryStep_liveRegistry hp events _ (wellKeyed_liveStep hw hevent) hrun

theorem wellKeyed_foldl_liveStep :
    ∀ (events : List WatchEvent) (live : Live), WellKeyed pfx live → LlmctlRun pfx live events →
      WellKeyed pfx (events.foldl liveStep live)
  | [], _, hw, _ => hw
  | _ :: events, _, hw, ⟨hevent, hrun⟩ =>
      wellKeyed_foldl_liveStep events _ (wellKeyed_liveStep hw hevent) hrun

/-- Under llmctl's keys a name is registered by the one key that can hold it. -/
theorem liveServes_iff {live : Live} (hw : WellKeyed pfx live) (which : Engines) (model : String) :
    LiveServes which live model ↔
      ((liveRegistry pfx live model).map (·.serves which)).getD false = true := by
  constructor
  · rintro ⟨key, entry, hlookup, rfl, hserves⟩
    obtain ⟨entry', hentry, hkey, -⟩ := hw key _ hlookup
    obtain rfl := Option.some.inj hentry.symm
    rw [liveRegistry, ← hkey, hlookup]
    exact hserves
  · intro h
    rw [liveRegistry] at h
    cases hlookup : live.lookup (pfx ++ model) with
    | none => rw [hlookup] at h; exact absurd h Bool.false_ne_true
    | some value =>
        obtain ⟨entry, rfl, hkey, -⟩ := hw _ _ hlookup
        rw [hlookup] at h
        exact ⟨pfx ++ model, entry, hlookup,
          (String.append_right_inj pfx).mp hkey.symm, h⟩

end Llmctl

/-- Under llmctl's keys the watcher serves a name exactly when a present key
    registers it with a type the map serves: a name is served while its key is
    present, and a delete of its key takes it away. -/
theorem modelWatcher_tracks_llmctl {pfx : String} (hp : pfx ≠ "") {events : List WatchEvent}
    (hrun : LlmctlRun pfx ∅ events) (which : Engines) (model : String) :
    ((modelWatcher pfx ModelManager.new events).clients which).contains model = true ↔
      LiveServes which (liveAfter events) model := by
  have hstart : ModelManager.new.registry = liveRegistry pfx ∅ := rfl
  rw [liveAfter, liveServes_iff (wellKeyed_foldl_liveStep events ∅ wellKeyed_empty hrun), contains_eq_registry,
    registry_modelWatcher, hstart, foldl_registryStep_liveRegistry hp events ∅ wellKeyed_empty hrun]

/-- A worker that registered `llama` through `LocalModel::attach`, under the
    prefix `dynamo-run` watches: its key is under the prefix, and once the key
    is deleted no key is left, but `llama` is still served. The trimmed key is
    `_generate-1a`, which names no model. -/
theorem modelWatcher_keeps_deleted_model (toLowercase : String → String)
    (hserviceName : toLowercase "dynamo_backend" = "dynamo_backend")
    (hkey : toLowercase "dynamo.backend.generate-1a" = "dynamo.backend.generate-1a") :
    let backend : Runtime.Component := ⟨⟨"dynamo"⟩, "backend"⟩
    let pfx := backend.serviceName toLowercase
    let key := ModelNetworkName.fromLocal toLowercase ⟨backend, "generate", false⟩ 26
    let events := [WatchEvent.put key (some ⟨"llama", .chat⟩), .delete key]
    Runtime.IsUnder pfx key ∧ ¬ LiveServes .chatCompletion (liveAfter events) "llama" ∧
      ((modelWatcher pfx ModelManager.new events).clients .chatCompletion).contains "llama" = true := by
  intro backend pfx key events
  have hpfx : pfx = "dynamo_backend" := by
    dsimp only [pfx, backend, Runtime.Component.serviceName]
    rw [show "dynamo" ++ "_" ++ "backend" = "dynamo_backend" from rfl, Runtime.slugify, hserviceName]
    decide
  have hkey' : key = "dynamo_backend_generate-1a" := by
    dsimp only [key, backend, ModelNetworkName.fromLocal, ModelNetworkName.fromParts]
    rw [show "dynamo" ++ "." ++ "backend" ++ "." ++ "generate" ++ "-" ++ Runtime.lowerHex 26 =
      "dynamo.backend.generate-1a" by decide, Runtime.slugify, hkey]
    decide
  have hevents : events = [WatchEvent.put "dynamo_backend_generate-1a" (some ⟨"llama", .chat⟩),
      .delete "dynamo_backend_generate-1a"] := by
    rw [← hkey']
  rw [hpfx, hevents, hkey']
  refine ⟨by decide, ?_, rfl⟩
  -- the put and the delete of the one key leave no key
  rintro ⟨k, entry, hlookup, -⟩
  have hempty : liveAfter [WatchEvent.put "dynamo_backend_generate-1a" (some ⟨"llama", .chat⟩),
      .delete "dynamo_backend_generate-1a"] = ∅ := rfl
  rw [hempty] at hlookup
  exact absurd hlookup (by simp)

theorem modelWatcher_keeps_deleted_model_of_id :
    (id "dynamo_backend" = "dynamo_backend" ∧
      id "dynamo.backend.generate-1a" = "dynamo.backend.generate-1a") ∧
    let backend : Runtime.Component := ⟨⟨"dynamo"⟩, "backend"⟩
    let pfx := backend.serviceName id
    let key := ModelNetworkName.fromLocal id ⟨backend, "generate", false⟩ 26
    let events := [WatchEvent.put key (some ⟨"llama", .chat⟩), .delete key]
    Runtime.IsUnder pfx key ∧ ¬ LiveServes .chatCompletion (liveAfter events) "llama" ∧
      ((modelWatcher pfx ModelManager.new events).clients .chatCompletion).contains "llama" = true :=
  ⟨⟨rfl, rfl⟩, modelWatcher_keeps_deleted_model id rfl rfl⟩

end Http

end Dynamo
