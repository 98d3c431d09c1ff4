import Mathlib.Algebra.Order.Field.Rat
import Dynamo.Lib.Bytes
import Dynamo.Lib.Collections
import Dynamo.KvRouter.RadixTree

/-!
# The KV Scheduler

`DefaultWorkerSelector::select_worker` and `process_worker_selection` of
`lib/llm/src/kv_router/scheduler.rs`, and the step of `KvScheduler`'s
background loop that calls them.

The selector first takes the largest `num_requests_waiting` of all
endpoints, starting from `0.0`, and returns `NoEndpoints` when that is
`0.0`. It then scores each endpoint with the logit `2 * score -
gpu_cache_usage - normalized_waiting`, keeps the endpoints of the best
logit, and picks one of them, at random when there are several. The blocks
it reports the request needs are `min(isl_tokens / block_size, 1)`, and the
blocks the chosen worker has cached are its overlap score.
`process_worker_selection` then adds `required_blocks - overlap_blocks` to
the worker's `kv_active_blocks`, a `u64` subtraction. The loop serves the
request on `Ok`, waits for new endpoints on `AllWorkersBusy`, and on any
other error leaves its loop for good.

The selector computes in `f64`; the model computes in `ℚ`. Every divisor is
positive where it is used (`isl_tokens`, `kv_total_blocks`, and
`max_waiting` in the branch that divides by it) and no value is infinite,
so no `NaN` arises, and the facts proved here only use that a largest
number of waiting requests of zero means that none waits, and that some
endpoint has the best logit. The `HashMap` of endpoints is an `AList`, its
iteration order that of its entries. `rand::rng().random_range(0..n)` is the
parameter `rng`, any choice of an index below `n`.

Two facts settle how the scheduler behaves. At start-up every worker has
no waiting request, and then `select_worker` returns `NoEndpoints` and the
loop stops serving: `selectWorker_fails_when_idle`. And `required_blocks` is
at most one, so a worker with two cached blocks makes the `u64` update
underflow: `selectWorker_underflows`.

## Main definitions

* `ForwardPassMetrics`, `Endpoint`, `ProcessedEndpoints`,
  `SchedulingRequest`, `WorkerSelectionResult`, `KvSchedulerError`: The
  data the selector reads and returns.
* `DefaultWorkerSelector.selectWorker`: The selector.
* `processWorkerSelection`: The update of the chosen worker's metrics.
* `SchedulerStep`, `schedulerStep`: What the background loop does with one
  request.

## Theorems

* `maxWaiting_eq_zero_iff`: The largest waiting count is zero exactly when
  no endpoint has a waiting request.
* `DefaultWorkerSelector.logitLoop_spec`: The logit loop keeps endpoints of
  the map, and at least one.
* `DefaultWorkerSelector.selectWorker_spec`: What the selector returns.
* `selectWorker_fails_when_idle`: All endpoints idle stops the scheduler.
* `selectWorker_underflows`: Two cached blocks underflow the load update.
-/

namespace Dynamo

namespace KvRouter

open Bytes

/-- `ForwardPassMetrics`, with the fields the scheduler reads. -/
structure ForwardPassMetrics where
  kvActiveBlocks : Nat
  kvTotalBlocks : Nat
  numRequestsWaiting : Nat
  deriving DecidableEq, Repr

/-- `Endpoint`, with its metrics. -/
structure Endpoint where
  data : ForwardPassMetrics
  deriving DecidableEq, Repr

/-- `ProcessedEndpoints`: the endpoints by worker. -/
structure ProcessedEndpoints where
  endpoints : AList (fun _ : WorkerId => Endpoint)

/-- `SchedulingRequest`: the length of the request and its overlap scores. -/
structure SchedulingRequest where
  islTokens : Nat
  overlap : OverlapScores

/-- `WorkerSelectionResult`. -/
structure WorkerSelectionResult where
  workerId : WorkerId
  requiredBlocks : Nat
  overlapBlocks : Nat
  deriving DecidableEq, Repr

/-- `KvSchedulerError`. -/
inductive KvSchedulerError where
  | noEndpoints
  | allWorkersBusy
  | subscriberShutdown
  deriving DecidableEq, Repr

/-- The largest `num_requests_waiting`, from `0.0`. -/
def maxWaiting (entries : List (Sigma fun _ : WorkerId => Endpoint)) : ℚ :=
  entries.foldl (fun m e => max m (e.2.data.numRequestsWaiting : ℚ)) 0

/-- The largest waiting count is zero exactly when no endpoint has a waiting
    request: the counts are never negative. -/
theorem maxWaiting_eq_zero_iff (entries : List (Sigma fun _ : WorkerId => Endpoint)) :
    maxWaiting entries = 0 ↔ ∀ e ∈ entries, e.2.data.numRequestsWaiting = 0 := by
  unfold maxWaiting
  -- the fold from any start `m ≥ 0` is `0` exactly when `m` is and every count is
  suffices h : ∀ m : ℚ, 0 ≤ m →
      (entries.foldl (fun m e => max m (e.2.data.numRequestsWaiting : ℚ)) m = 0 ↔
        m = 0 ∧ ∀ e ∈ entries, e.2.data.numRequestsWaiting = 0) by
    rw [h 0 le_rfl]
    exact ⟨fun h => h.2, fun h => ⟨rfl, h⟩⟩
  induction entries with
  | nil =>
    intro m _
    simp only [List.foldl_nil, List.not_mem_nil, false_imp_iff, implies_true, and_true]
  | cons e entries ih =>
    intro m hm
    rw [List.foldl_cons, ih _ (le_max_of_le_left hm), List.forall_mem_cons]
    have hcount : (0 : ℚ) ≤ e.2.data.numRequestsWaiting := Nat.cast_nonneg _
    constructor
    · rintro ⟨hmax, hrest⟩
      have hle := max_le_iff.mp hmax.le
      exact ⟨le_antisymm hle.1 hm, ⟨Nat.cast_eq_zero.mp (le_antisymm hle.2 hcount), hrest⟩⟩
    · rintro ⟨rfl, he, hrest⟩
      rw [he, Nat.cast_zero, max_self]
      exact ⟨rfl, hrest⟩

namespace DefaultWorkerSelector

variable (request : SchedulingRequest) (blockSize : Nat)

/-- The score of a worker: its overlap as a share of the request, `0.0` for
    a worker with none. -/
def workerScore (w : WorkerId) : ℚ :=
  (request.overlap.scores w : ℚ) * blockSize / request.islTokens

/-- The logit of an endpoint. -/
def logit (maxWaiting : ℚ) (w : WorkerId) (ep : Endpoint) : ℚ :=
  let gpuCacheUsage := (ep.data.kvActiveBlocks : ℚ) / ep.data.kvTotalBlocks
  let normalizedWaiting :=
    if maxWaiting > 0 then (ep.data.numRequestsWaiting : ℚ) / maxWaiting else 0
  2 * workerScore request blockSize w - gpuCacheUsage - normalizedWaiting

/-- One pass of the logit loop: the best logit so far (`none` for
    `f64::NEG_INFINITY`) and the workers that reach it. -/
def logitStep (maxWaiting : ℚ) :
    Option ℚ × List WorkerId → (Sigma fun _ : WorkerId => Endpoint) →
      Except Abort (Option ℚ × List WorkerId)
  | (bestLogit, bestWorkers), ⟨w, ep⟩ =>
    if ep.data.kvTotalBlocks = 0 then .error (.panic "assertion failed: ep.data.kv_total_blocks > 0")
    else
      let l := logit request blockSize maxWaiting w ep
      match bestLogit with
      | none => .ok (some l, [w])
      | some b =>
        if l > b then .ok (some l, [w])
        else if l = b then .ok (bestLogit, bestWorkers ++ [w])
        else .ok (bestLogit, bestWorkers)

/-- The end of `select_worker`, once the worker is chosen. -/
def selection (w : WorkerId) : Except Abort (Except KvSchedulerError WorkerSelectionResult) :=
  if blockSize = 0 then .error (.panic "attempt to divide by zero")
  else
    let totalBlocks := min (request.islTokens / blockSize) 1
    let overlapBlocks := request.overlap.scores w
    .ok (.ok ⟨w, totalBlocks, overlapBlocks⟩)

/-- `DefaultWorkerSelector::select_worker`. -/
def selectWorker (rng : (n : Nat) → Fin (n + 1)) (workers : ProcessedEndpoints) :
    Except Abort (Except KvSchedulerError WorkerSelectionResult) :=
  if request.islTokens = 0 then .error (.panic "assertion failed: request.isl_tokens > 0")
  else
    let maxWaiting := maxWaiting workers.endpoints.entries
    if maxWaiting = 0 then .ok (.error .noEndpoints)
    else do
      let (_, bestWorkers) ←
        workers.endpoints.entries.foldlM (logitStep request blockSize maxWaiting) (none, [])
      match bestWorkers with
      | [] => .ok (.error .noEndpoints)
      | [w] => selection request blockSize w
      -- `random_range(0..len)` over the tied workers
      | w :: w' :: ws => selection request blockSize ((w :: w' :: ws).get (rng (ws.length + 1)))

section Spec

/-- The logit loop, over endpoints whose totals are positive, never panics;
    the workers it keeps are ones it started with or keys of the map, and it
    keeps at least one once it has seen an endpoint. -/
theorem logitLoop_spec (request : SchedulingRequest) (blockSize : Nat) (maxWaiting : ℚ) :
    ∀ (entries : List (Sigma fun _ : WorkerId => Endpoint)),
      (∀ e ∈ entries, 0 < e.2.data.kvTotalBlocks) →
      ∀ (best : Option ℚ) (ws : List WorkerId), (best.isSome → ws ≠ []) →
      ∃ best' ws', entries.foldlM (logitStep request blockSize maxWaiting) (best, ws) =
          .ok (best', ws') ∧
        (∀ w ∈ ws', w ∈ ws ∨ w ∈ entries.map Sigma.fst) ∧
        (entries ≠ [] ∨ best.isSome → ws' ≠ [])
  | [], _, best, ws, hinv => ⟨best, ws, rfl, fun w hw => Or.inl hw, fun h => by
      simp only [ne_eq, not_true_eq_false, false_or] at h
      exact hinv h⟩
  | ⟨w, ep⟩ :: entries, htotal, best, ws, hinv => by
    have hpos : ep.data.kvTotalBlocks ≠ 0 :=
      Nat.pos_iff_ne_zero.mp (htotal ⟨w, ep⟩ List.mem_cons_self)
    have hrest : ∀ e ∈ entries, 0 < e.2.data.kvTotalBlocks :=
      fun e he => htotal e (List.mem_cons_of_mem _ he)
    -- after this endpoint the best logit is set and some worker reaches it
    obtain ⟨best₁, ws₁, hstep, hkeep, hsome, hne⟩ :
        ∃ best₁ ws₁, logitStep request blockSize maxWaiting (best, ws) ⟨w, ep⟩ = .ok (best₁, ws₁) ∧
          (∀ x ∈ ws₁, x ∈ ws ∨ x = w) ∧ best₁.isSome ∧ ws₁ ≠ [] := by
      unfold logitStep
      dsimp only
      rw [if_neg hpos]
      cases best with
      | none => exact ⟨_, _, rfl, fun x hx => Or.inr (List.mem_singleton.mp hx), rfl,
          List.cons_ne_nil _ _⟩
      | some b =>
        have hws := hinv rfl
        dsimp only
        split_ifs
        · exact ⟨_, _, rfl, fun x hx => Or.inr (List.mem_singleton.mp hx), rfl,
            List.cons_ne_nil _ _⟩
        · refine ⟨_, _, rfl, fun x hx => ?_, rfl, by simp only [ne_eq, List.append_eq_nil_iff,
            List.cons_ne_nil, and_false, not_false_eq_true]⟩
          rcases List.mem_append.mp hx with hx | hx
          · exact Or.inl hx
          · exact Or.inr (List.mem_singleton.mp hx)
        · exact ⟨_, _, rfl, fun x hx => Or.inl hx, rfl, hws⟩
    obtain ⟨best', ws', hloop, hkeep', hne'⟩ :=
      logitLoop_spec request blockSize maxWaiting entries hrest best₁ ws₁ fun _ => hne
    refine ⟨best', ws', by rw [List.foldlM_cons, hstep, Except.ok_bind, hloop], ?_,
      fun _ => hne' (Or.inr hsome)⟩
    intro x hx
    rcases hkeep' x hx with hx | hx
    · rcases hkeep x hx with hx | rfl
      · exact Or.inl hx
      · exact Or.inr List.mem_cons_self
    · exact Or.inr (List.mem_cons_of_mem _ hx)

/-- What the selector returns, for a non-empty request, a positive block
    size and positive totals: `NoEndpoints` exactly when no endpoint has a
    waiting request, and otherwise a worker of the map with
    `min(isl_tokens / block_size, 1)` required blocks and its overlap score
    as cached blocks. -/
theorem selectWorker_spec (request : SchedulingRequest) (blockSize : Nat)
    (rng : (n : Nat) → Fin (n + 1)) (workers : ProcessedEndpoints)
    (hisl : 0 < request.islTokens) (hbs : 0 < blockSize)
    (htotal : ∀ e ∈ workers.endpoints.entries, 0 < e.2.data.kvTotalBlocks) :
    (selectWorker request blockSize rng workers = .ok (.error .noEndpoints) ↔
      ∀ e ∈ workers.endpoints.entries, e.2.data.numRequestsWaiting = 0) ∧
    ((∃ e ∈ workers.endpoints.entries, 0 < e.2.data.numRequestsWaiting) →
      ∃ w ∈ workers.endpoints.keys, selectWorker request blockSize rng workers =
        .ok (.ok ⟨w, min (request.islTokens / blockSize) 1, request.overlap.scores w⟩)) := by
  have hisl' : request.islTokens ≠ 0 := Nat.pos_iff_ne_zero.mp hisl
  have hbs' : blockSize ≠ 0 := Nat.pos_iff_ne_zero.mp hbs
  have hselection : ∀ w, selection request blockSize w =
      .ok (.ok ⟨w, min (request.islTokens / blockSize) 1, request.overlap.scores w⟩) := by
    intro w
    unfold selection
    rw [if_neg hbs']
  by_cases hidle : ∀ e ∈ workers.endpoints.entries, e.2.data.numRequestsWaiting = 0
  · -- nobody waits: the largest count is zero and the selector gives up
    have hzero := (maxWaiting_eq_zero_iff _).mpr hidle
    refine ⟨⟨fun _ => hidle, fun _ => ?_⟩, fun ⟨e, he, hpos⟩ => ?_⟩
    · unfold selectWorker
      rw [if_neg hisl']
      dsimp only
      rw [if_pos hzero]
    · rw [hidle e he] at hpos
      exact absurd hpos (Nat.lt_irrefl 0)
  · -- someone waits: the logit loop keeps a worker of the map
    have hmax : maxWaiting workers.endpoints.entries ≠ 0 :=
      fun h => hidle ((maxWaiting_eq_zero_iff _).mp h)
    have hne : workers.endpoints.entries ≠ [] := by
      intro hnil
      apply hidle
      rw [hnil]
      exact fun e he => absurd he List.not_mem_nil
    obtain ⟨best, ws, hloop, hkeep, hws⟩ :=
      logitLoop_spec request blockSize (maxWaiting workers.endpoints.entries) _ htotal none []
        (fun h => absurd h (by simp))
    have hws := hws (Or.inl hne)
    have hkey : ∀ w ∈ ws, w ∈ workers.endpoints.keys := by
      intro w hw
      rcases hkeep w hw with hw | hw
      · exact absurd hw List.not_mem_nil
      · exact hw
    -- the chosen worker is one of the kept ones
    obtain ⟨w, hw, hresult⟩ : ∃ w ∈ ws, selectWorker request blockSize rng workers =
        selection request blockSize w := by
      unfold selectWorker
      rw [if_neg hisl']
      dsimp only
      rw [if_neg hmax, hloop, Except.ok_bind]
      dsimp only
      match ws, hws with
      | [w], _ => exact ⟨w, List.mem_singleton_self w, rfl⟩
      | w :: w' :: ws, _ => exact ⟨_, List.get_mem _ _, rfl⟩
    have hresult' := hresult.trans (hselection w)
    refine ⟨⟨fun h => ?_, fun h => absurd h hidle⟩, fun _ => ⟨w, hkey w hw, hresult'⟩⟩
    rw [hresult'] at h
    cases h

end Spec

end DefaultWorkerSelector

/-- `process_worker_selection`: one more waiting request and the uncached
    blocks on the chosen worker, in `u64`. -/
def processWorkerSelection (checks : OverflowChecks) (workers : ProcessedEndpoints)
    (selection : WorkerSelectionResult) : Except Abort (ProcessedEndpoints × WorkerId) := do
  let worker ← Abort.expect (workers.endpoints.lookup selection.workerId) "worker not found"
  let numRequestsWaiting ← addUnsigned checks 64 worker.data.numRequestsWaiting 1
  let uncached ← subUnsigned checks 64 selection.requiredBlocks selection.overlapBlocks
  let kvActiveBlocks ← addUnsigned checks 64 worker.data.kvActiveBlocks uncached
  let worker : Endpoint :=
    ⟨{ worker.data with numRequestsWaiting := numRequestsWaiting, kvActiveBlocks := kvActiveBlocks }⟩
  pure (⟨workers.endpoints.insert selection.workerId worker⟩, selection.workerId)

/-- What `KvScheduler`'s background loop does with one request. -/
inductive SchedulerStep where
  | respond (workerId : WorkerId) (endpoints : ProcessedEndpoints)
  | waitForEndpoints
  | shutdown

/-- One request of `KvScheduler`'s background loop: serve it, wait for the
    endpoints to change when all workers are busy, or leave the loop on any
    other error. -/
def schedulerStep (rng : (n : Nat) → Fin (n + 1)) (checks : OverflowChecks)
    (endpoints : ProcessedEndpoints) (request : SchedulingRequest) (blockSize : Nat) :
    Except Abort SchedulerStep := do
  match ← DefaultWorkerSelector.selectWorker request blockSize rng endpoints with
  | .ok selection =>
    let (endpoints, workerId) ← processWorkerSelection checks endpoints selection
    pure (.respond workerId endpoints)
  | .error .allWorkersBusy => pure .waitForEndpoints
  | .error _ => pure .shutdown

/-- With no waiting request at any endpoint the selector returns
    `NoEndpoints`, whatever the endpoints, and the scheduler's loop takes
    its error branch and stops. -/
theorem selectWorker_fails_when_idle (rng : (n : Nat) → Fin (n + 1)) (checks : OverflowChecks)
    (endpoints : ProcessedEndpoints) (request : SchedulingRequest) (blockSize : Nat)
    (hisl : 0 < request.islTokens)
    (hidle : ∀ e ∈ endpoints.endpoints.entries, e.2.data.numRequestsWaiting = 0) :
    DefaultWorkerSelector.selectWorker request blockSize rng endpoints = .ok (.error .noEndpoints) ∧
      schedulerStep rng checks endpoints request blockSize = .ok .shutdown := by
  have hselect : DefaultWorkerSelector.selectWorker request blockSize rng endpoints =
      .ok (.error .noEndpoints) := by
    unfold DefaultWorkerSelector.selectWorker
    rw [if_neg (Nat.pos_iff_ne_zero.mp hisl)]
    dsimp only
    rw [if_pos ((maxWaiting_eq_zero_iff _).mpr hidle)]
  refine ⟨hselect, ?_⟩
  unfold schedulerStep
  rw [hselect]
  rfl

/-- One idle worker with a free cache, at start-up: the selector refuses a
    one-block request with `NoEndpoints` though the map has an endpoint, and
    the scheduler stops serving. -/
theorem kvScheduler_stops_when_idle (rng : (n : Nat) → Fin (n + 1)) (checks : OverflowChecks) :
    (7 : WorkerId) ∈ (⟨@AList.singleton WorkerId (fun _ => Endpoint) 7 ⟨⟨0, 16, 0⟩⟩⟩ : ProcessedEndpoints).endpoints ∧
    DefaultWorkerSelector.selectWorker ⟨16, OverlapScores.new⟩ 16 rng
        ⟨@AList.singleton WorkerId (fun _ => Endpoint) 7 ⟨⟨0, 16, 0⟩⟩⟩ = .ok (.error .noEndpoints) ∧
      schedulerStep rng checks ⟨@AList.singleton WorkerId (fun _ => Endpoint) 7 ⟨⟨0, 16, 0⟩⟩⟩ ⟨16, OverlapScores.new⟩ 16 =
        .ok .shutdown := by
  have hidle : ∀ e ∈ (@AList.singleton WorkerId (fun _ => Endpoint) 7 ⟨⟨0, 16, 0⟩⟩).entries,
      e.2.data.numRequestsWaiting = 0 := by
    intro e he
    rw [AList.singleton_entries, List.mem_singleton] at he
    rw [he]
  have hmem : (7 : WorkerId) ∈ @AList.singleton WorkerId (fun _ => Endpoint) 7 ⟨⟨0, 16, 0⟩⟩ := by
    rw [AList.mem_keys, AList.keys_singleton]
    exact List.mem_singleton_self 7
  exact ⟨hmem, selectWorker_fails_when_idle rng checks _ _ 16 (Nat.zero_lt_succ 15) hidle⟩

/-- Every block the selector reports as required is at most one, whatever
    the request. -/
theorem selectWorker_requiredBlocks_le_one {rng : (n : Nat) → Fin (n + 1)}
    {workers : ProcessedEndpoints} {request : SchedulingRequest} {blockSize : Nat}
    {r : WorkerSelectionResult}
    (h : DefaultWorkerSelector.selectWorker request blockSize rng workers = .ok (.ok r)) :
    r.requiredBlocks ≤ 1 := by
  unfold DefaultWorkerSelector.selectWorker at h
  -- every `Ok` comes from `selection`, which takes the minimum with one
  have hselection : ∀ w, DefaultWorkerSelector.selection request blockSize w = .ok (.ok r) →
      r.requiredBlocks ≤ 1 := by
    intro w hw
    unfold DefaultWorkerSelector.selection at hw
    split_ifs at hw
    cases hw
    exact Nat.min_le_right _ _
  split_ifs at h
  dsimp only at h
  split_ifs at h
  · -- nobody waits: no selection at all
    cases h
  rcases Except.bind_eq_ok h with ⟨⟨_, bestWorkers⟩, -, hsel⟩
  dsimp only at hsel
  match bestWorkers, hsel with
  | [w], hsel => exact hselection w hsel
  | w :: w' :: ws, hsel => exact hselection _ hsel

/-- A request of two blocks whose worker has cached both: the selector
    reports one required block and two cached ones, and
    `process_worker_selection` then subtracts two from one in `u64`, which
    panics with overflow checks and wraps `kv_active_blocks` to
    `2 ^ 64 - 1` without them. The overlap is the one `find_matches` gives
    once the worker has stored the request's two blocks, for every hash
    function. -/
theorem selectWorker_underflows (xxh3 : Tokens.Xxh3) (rng : (n : Nat) → Fin (n + 1)) :
    ∃ h₁ h₂ t, computeBlockHashForSeq xxh3 (List.replicate 32 0) 16 = .ok [h₁, h₂] ∧
      RadixTree.new.applyEvent ⟨7, ⟨0, .stored ⟨none, [⟨⟨1⟩, h₁⟩, ⟨⟨2⟩, h₂⟩]⟩⟩⟩ = .ok t ∧
      (t.findMatches [h₁, h₂] false).scores 7 = 2 ∧
      DefaultWorkerSelector.selectWorker ⟨32, t.findMatches [h₁, h₂] false⟩ 16 rng
          ⟨@AList.singleton WorkerId (fun _ => Endpoint) 7 ⟨⟨0, 16, 1⟩⟩⟩ = .ok (.ok ⟨7, 1, 2⟩) ∧
      processWorkerSelection .enabled ⟨@AList.singleton WorkerId (fun _ => Endpoint) 7 ⟨⟨0, 16, 1⟩⟩⟩ ⟨7, 1, 2⟩ =
        .error (.panic "attempt to subtract with overflow") ∧
      ∃ endpoints, processWorkerSelection .disabled ⟨@AList.singleton WorkerId (fun _ => Endpoint) 7 ⟨⟨0, 16, 1⟩⟩⟩ ⟨7, 1, 2⟩ =
          .ok (endpoints, 7) ∧
        (endpoints.endpoints.lookup 7).map (·.data.kvActiveBlocks) = some (2 ^ 64 - 1) := by
  -- the request's two chunks are alike, so both hash to one value
  obtain ⟨h, hhash⟩ : ∃ h, computeBlockHashForSeq xxh3 (List.replicate 32 0) 16 = .ok [h, h] :=
    ⟨_, rfl⟩
  obtain ⟨t, hstore⟩ : ∃ t,
      RadixTree.new.applyEvent ⟨7, ⟨0, .stored ⟨none, [⟨⟨1⟩, h⟩, ⟨⟨2⟩, h⟩]⟩⟩⟩ = .ok t := ⟨_, rfl⟩
  -- the walk meets the worker on both blocks of the chain it stored
  have hscore : (t.findMatches [h, h] false).scores 7 = 2 := by
    cases hstore
    simp [RadixTree.findMatches, RadixTree.findMatchesFrom, RadixTree.new, RadixTree.modify, RadixTree.insertLookup, RadixTree.lookupOf,
      RadixTree.root, OverlapScores.updateScores, OverlapScores.new, RadixBlock.new,
      Function.update, AList.lookup_insert, -AList.insert_empty]
  have hentries : (@AList.singleton WorkerId (fun _ => Endpoint) 7 ⟨⟨0, 16, 1⟩⟩).entries =
      [⟨7, ⟨⟨0, 16, 1⟩⟩⟩] := AList.singleton_entries _ _
  -- the only endpoint waits, so it is the one selected
  have hselect : DefaultWorkerSelector.selectWorker ⟨32, t.findMatches [h, h] false⟩ 16 rng
      ⟨@AList.singleton WorkerId (fun _ => Endpoint) 7 ⟨⟨0, 16, 1⟩⟩⟩ = .ok (.ok ⟨7, 1, 2⟩) := by
    obtain ⟨-, hbusy⟩ := DefaultWorkerSelector.selectWorker_spec ⟨32, _⟩ 16 rng ⟨@AList.singleton WorkerId (fun _ => Endpoint) 7 ⟨⟨0, 16, 1⟩⟩⟩
      (Nat.zero_lt_succ 31) (Nat.zero_lt_succ 15)
      (by rw [hentries]; intro e he; rw [List.mem_singleton.mp he]; exact Nat.zero_lt_succ 15)
    obtain ⟨w, hw, hresult⟩ := hbusy ⟨_, by rw [hentries]; exact List.mem_singleton_self _,
      Nat.zero_lt_one⟩
    rw [AList.keys_singleton, List.mem_singleton] at hw
    subst hw
    rw [hresult]
    dsimp only
    rw [hscore]
    rfl
  -- one minus two in `u64`
  have hsub : ¬ (2 ≤ 1) := by decide
  refine ⟨h, h, t, hhash, hstore, hscore, hselect, ?_, ?_⟩
  · unfold processWorkerSelection
    rw [AList.lookup_singleton, Abort.expect_some, Except.ok_bind, addUnsigned_of_lt _ (by decide),
      Except.ok_bind]
    unfold subUnsigned
    rw [if_neg hsub]
    rfl
  · -- without overflow checks the difference wraps to the largest `u64`
    refine ⟨⟨(@AList.singleton WorkerId (fun _ => Endpoint) 7 ⟨⟨0, 16, 1⟩⟩).insert 7
      ⟨⟨0 + (2 ^ 64 + 1 - 2), 16, 1 + 1⟩⟩⟩, ?_, ?_⟩
    · unfold processWorkerSelection
      rw [AList.lookup_singleton, Abort.expect_some, Except.ok_bind, addUnsigned_of_lt _ (by decide),
        Except.ok_bind]
      unfold subUnsigned
      rw [if_neg hsub]
      dsimp only
      rw [Except.ok_bind, addUnsigned_of_lt _ (by decide), Except.ok_bind]
      rfl
    · dsimp only
      rw [AList.lookup_insert]
      rfl
end KvRouter

end Dynamo
