import Mathlib.Data.List.Infix
import Mathlib.Algebra.Group.Int.Defs
import Dynamo.Lib.Collections

/-!
# Instance Discovery

An endpoint instance started by `EndpointConfigBuilder::start` listens on the
NATS subject `subject_to(lease_id)`, `{service}.{name}-{lease_id:x}`, and
registers a `ComponentEndpointInfo` naming that subject in etcd under
`etcd_path_with_id(lease_id)`, `{ns}/components/{component}/{name}:{lease_id:x}`,
attached to its lease. A dynamic `Client` of an endpoint watches the etcd
prefix `etcd_path()`, `{ns}/components/{component}/{name}`, and keeps a map
from key to record. `PushRouter` sends a request for a listed record `x` to
`subject_to(x.id())`, recomputed from its own endpoint.

The watcher's map is the part of the store under the prefix
(`Client.newDynamic_mirrors`). Every live key was written by a start
(`Registered`), so the client lists exactly the records of the live
instances whose key starts with its prefix (`Client.mem_endpoints_iff`). The
prefix has no delimiter after the name. For an endpoint of the same
component, the key starts with the prefix exactly when the name followed by
`:` and the lease id starts with the client's name
(`isUnder_etcdPathWithId_iff`). So the client of `generate` also lists the
instances of `generate_tokens`. The router then sends to a subject built from
its own name, which is not where such an instance listens
(`subjectTo_eq_iff`, `client_lists_prefixed_endpoint`).

## Main definitions

* `Endpoint.etcdPath`, `Endpoint.etcdPathWithId`, `Endpoint.subjectTo`: The
  formatted names.
* `Endpoint.info`: The record an instance registers.
* `Etcd.apply`: A start or the end of a lease, with the watch events it makes.
* `Client.newDynamic`: The client's watcher over a run.
* `PushRouter.roundRobin`, `PushRouter.random`, `PushRouter.direct`: The
  subject a request is sent to.

## Theorems

* `Client.newDynamic_mirrors`: The watcher's map is the store under the
  prefix.
* `Client.mem_endpoints_iff`: What the client lists.
* `Client.endpoints_registered`: Each listed record is a live instance's,
  under the prefix.
* `PushRouter.byOffset_eq_ok`, `PushRouter.direct_eq_ok`: A request goes to
  the subject the client's own endpoint gives a listed id.
* `isUnder_etcdPathWithId_iff`: Which instances the prefix admits.
* `subjectTo_eq_iff`: The router's subject is the instance's only for the
  same name.
* `client_lists_prefixed_endpoint`: The client of `generate` lists an
  instance of `generate_tokens` and routes to a subject nobody listens on.
-/

namespace Dynamo

namespace Runtime

/-- `{:x}` of an `i64`: its two's complement bits in lower-case hex. -/
def lowerHex (x : Int) : String :=
  String.ofList (Nat.toDigits 16 (x % 2 ^ 64).toNat)

/-- A key lies under a prefix when its text starts with the prefix, as an etcd
    prefix range holds it. -/
def IsUnder (pfx key : String) : Prop :=
  pfx.toList <+: key.toList

instance (pfx key : String) : Decidable (IsUnder pfx key) :=
  inferInstanceAs (Decidable (pfx.toList <+: key.toList))

/-- `Namespace`: its name. -/
structure Namespace where
  name : String
  deriving DecidableEq

/-- `Component`: its namespace and name. -/
structure Component where
  «namespace» : Namespace
  name : String
  deriving DecidableEq

/-- `Endpoint`: its component, name, and whether it is static. -/
structure Endpoint where
  component : Component
  name : String
  isStatic : Bool

/-- `Component::etcd_path`. -/
def Component.etcdPath (self : Component) : String :=
  self.namespace.name ++ "/components/" ++ self.name

/-- `Endpoint::etcd_path`: the prefix a client watches. -/
def Endpoint.etcdPath (self : Endpoint) : String :=
  self.component.etcdPath ++ "/" ++ self.name

/-- `Endpoint::etcd_path_with_id`: the key an instance registers under. -/
def Endpoint.etcdPathWithId (self : Endpoint) (leaseId : Int) : String :=
  if self.isStatic then self.etcdPath else self.etcdPath ++ ":" ++ lowerHex leaseId

/-- `Endpoint::name_with_id`. -/
def Endpoint.nameWithId (self : Endpoint) (leaseId : Int) : String :=
  if self.isStatic then self.name else self.name ++ "-" ++ lowerHex leaseId

/-- `TransportType`: where an instance listens. -/
inductive TransportType where
  | natsTcp (subject : String)
  deriving DecidableEq, Repr

/-- `ComponentEndpointInfo`: the record an instance registers. -/
structure ComponentEndpointInfo where
  component : String
  endpoint : String
  «namespace» : String
  leaseId : Int
  transport : TransportType
  deriving DecidableEq, Repr

/-- `ComponentEndpointInfo::id`. -/
def ComponentEndpointInfo.id (self : ComponentEndpointInfo) : Int :=
  self.leaseId

section Subjects

-- `str::to_lowercase` is left open: Unicode case mapping is not modelled
variable (toLowercase : String → String)

/-- `Slug::slugify`: lower case, with every character that is not an ASCII
    lower-case letter, digit, `-` or `_` replaced by `_`, and the leading `_`
    removed. -/
def slugify (s : String) : String :=
  String.ofList (((toLowercase s).toList.map fun c =>
    if c.isLower || c.isDigit || c == '-' || c == '_' then c else '_').dropWhile (· == '_'))

/-- `Component::service_name`. -/
def Component.serviceName (self : Component) : String :=
  slugify toLowercase (self.namespace.name ++ "_" ++ self.name)

/-- `Endpoint::subject_to`: the subject of the instance of a lease. -/
def Endpoint.subjectTo (self : Endpoint) (leaseId : Int) : String :=
  self.component.serviceName toLowercase ++ "." ++ self.nameWithId leaseId

/-- The record `EndpointConfigBuilder::start` registers for the instance of a
    lease. -/
def Endpoint.info (self : Endpoint) (leaseId : Int) : ComponentEndpointInfo :=
  ⟨self.component.name, self.name, self.component.namespace.name, leaseId,
    .natsTcp (self.subjectTo toLowercase leaseId)⟩

end Subjects

/-! ### etcd and the watch -/

/-- The etcd keys, each with its value and lease. -/
structure Etcd where
  kvs : AList (fun _ : String => ComponentEndpointInfo × Int)

/-- `WatchEvent`, with the value of a put already parsed. -/
inductive WatchEvent where
  | put (key : String) (value : ComponentEndpointInfo)
  | delete (key : String)

/-- The key of an event. -/
def WatchEvent.key : WatchEvent → String
  | .put key _ => key
  | .delete key => key

/-- `kv_create`: the key is created with its lease unless it exists. -/
def Etcd.kvCreate (self : Etcd) (key : String) (value : ComponentEndpointInfo) (leaseId : Int) :
    Except String Unit × Etcd × List WatchEvent :=
  if key ∈ self.kvs then (.error "failed to create key", self, [])
  else (.ok (), ⟨self.kvs.insert key (value, leaseId)⟩, [.put key value])

/-- The keys a lease holds. -/
def Etcd.leaseKeys (self : Etcd) (leaseId : Int) : List String :=
  (self.kvs.entries.filter fun e => e.2.2 == leaseId).map (·.1)

/-- The end of a lease: etcd deletes each key it holds. -/
def Etcd.revoke (self : Etcd) (leaseId : Int) : Etcd × List WatchEvent :=
  (⟨(self.leaseKeys leaseId).foldl (fun kvs key => kvs.erase key) self.kvs⟩,
    (self.leaseKeys leaseId).map .delete)

/-- What happens in etcd: an instance starts, or a lease ends. -/
inductive Op where
  | start (endpoint : Endpoint) (leaseId : Int)
  | revoke (leaseId : Int)

/-- An operation: the store after it and the events it makes. -/
def Etcd.apply (toLowercase : String → String) (self : Etcd) : Op → Etcd × List WatchEvent
  | .start endpoint leaseId =>
    let r := self.kvCreate (endpoint.etcdPathWithId leaseId) (endpoint.info toLowercase leaseId) leaseId
    (r.2.1, r.2.2)
  | .revoke leaseId => self.revoke leaseId

/-- The map of the watcher task of `Client::new_dynamic`. -/
abbrev EndpointMap := AList (fun _ : String => ComponentEndpointInfo)

/-- The watcher task on one event. -/
def watcherStep (map : EndpointMap) : WatchEvent → EndpointMap
  | .put key value => map.insert key value
  | .delete key => map.erase key

/-- The events a prefix watch delivers: those of the keys under the prefix. -/
def deliver (pfx : String) (events : List WatchEvent) : List WatchEvent :=
  events.filter fun e => decide (IsUnder pfx e.key)

/-- The first events of `kv_get_and_watch_prefix`: a put of every key under
    the prefix. -/
def Etcd.snapshot (self : Etcd) (pfx : String) : List WatchEvent :=
  (self.kvs.entries.filter fun e => decide (IsUnder pfx e.1)).map fun e => .put e.1 e.2.1

/-- The operations in order, with the watcher of a client of `E` taking the
    events delivered to it: the store and the watcher's map after them. -/
def Client.run (toLowercase : String → String) (E : Endpoint) :
    Etcd → EndpointMap → List Op → Etcd × EndpointMap
  | etcd, map, [] => (etcd, map)
  | etcd, map, op :: ops =>
    let r := etcd.apply toLowercase op
    Client.run toLowercase E r.1 ((deliver E.etcdPath r.2).foldl watcherStep map) ops

/-- `Client::new_dynamic` on a store, then the operations after it. -/
def Client.newDynamic (toLowercase : String → String) (E : Endpoint) (etcd : Etcd) (ops : List Op) :
    Etcd × EndpointMap :=
  Client.run toLowercase E etcd ((etcd.snapshot E.etcdPath).foldl watcherStep ∅) ops

/-- `Client::endpoints`: the records of the watcher's map. -/
def endpoints (map : EndpointMap) : List ComponentEndpointInfo :=
  map.values

/-! ### The watcher mirrors the store -/

/-- The watcher's map holds exactly the keys of the store under the prefix,
    each with its record. -/
def Mirrors (pfx : String) (etcd : Etcd) (map : EndpointMap) : Prop :=
  ∀ key, map.lookup key = if IsUnder pfx key then (etcd.kvs.lookup key).map Prod.fst else none

/-- The snapshot's puts of a list of entries with distinct keys: a key of the
    list under the prefix reads its record, any other key reads as before. -/
theorem lookup_foldl_snapshot (pfx : String) :
    ∀ {l : List (Sigma fun _ : String => ComponentEndpointInfo × Int)}, l.NodupKeys →
      ∀ (map : EndpointMap) (key : String),
        (((l.filter fun e => decide (IsUnder pfx e.1)).map fun e =>
            WatchEvent.put e.1 e.2.1).foldl watcherStep map).lookup key =
          if IsUnder pfx key ∧ key ∈ l.keys then (l.dlookup key).map Prod.fst else map.lookup key
  | [], _, map, key => by
      rw [if_neg (fun h => List.not_mem_nil h.2)]
      rfl
  | ⟨k, v⟩ :: l, hl, map, key => by
      rw [List.nodupKeys_cons] at hl
      have ih := lookup_foldl_snapshot pfx hl.2
      by_cases hunder : IsUnder pfx k
      · simp only [List.filter_cons, hunder, decide_true, if_true, List.map_cons, List.foldl_cons]
        rw [ih]
        by_cases hk : key = k
        · -- the entry itself, which no later entry shares a key with
          rw [hk, if_neg (fun h => hl.1 h.2), if_pos ⟨hunder, List.mem_cons_self⟩,
            List.dlookup_cons_eq]
          exact AList.lookup_insert _
        · rw [List.dlookup_cons_ne _ _ hk, watcherStep, AList.lookup_insert_ne hk]
          by_cases hmem : IsUnder pfx key ∧ key ∈ l.keys
          · rw [if_pos hmem, if_pos ⟨hmem.1, List.mem_cons_of_mem k hmem.2⟩]
          · rw [if_neg hmem, if_neg (fun h => hmem ⟨h.1, (List.mem_cons.mp h.2).resolve_left hk⟩)]
      · simp only [List.filter_cons, hunder, decide_false, Bool.false_eq_true, if_false]
        rw [ih]
        by_cases hk : key = k
        · rw [if_neg (fun h => hunder (hk ▸ h.1)), if_neg (fun h => hunder (hk ▸ h.1))]
        · rw [List.dlookup_cons_ne _ _ hk]
          by_cases hmem : IsUnder pfx key ∧ key ∈ l.keys
          · rw [if_pos hmem, if_pos ⟨hmem.1, List.mem_cons_of_mem k hmem.2⟩]
          · rw [if_neg hmem, if_neg (fun h => hmem ⟨h.1, (List.mem_cons.mp h.2).resolve_left hk⟩)]

/-- The snapshot gives the watcher the store under the prefix. -/
theorem mirrors_snapshot (pfx : String) (etcd : Etcd) :
    Mirrors pfx etcd ((etcd.snapshot pfx).foldl watcherStep ∅) := by
  intro key
  rw [Etcd.snapshot, lookup_foldl_snapshot pfx etcd.kvs.nodupKeys]
  by_cases hunder : IsUnder pfx key
  · rw [if_pos hunder]
    by_cases hmem : key ∈ etcd.kvs.entries.keys
    · rw [if_pos ⟨hunder, hmem⟩]
      rfl
    · -- a key the store does not hold reads nothing on either side
      rw [if_neg (fun h => hmem h.2), AList.lookup_empty]
      have hnone : etcd.kvs.lookup key = none := List.dlookup_eq_none.mpr hmem
      rw [hnone, Option.map_none]
  · rw [if_neg hunder, if_neg (fun h => hunder h.1)]
    exact AList.lookup_empty key

/-- The deletes a lease's end delivers are those of its keys under the
    prefix. -/
theorem foldl_deliver_delete (pfx : String) (keys : List String) (map : EndpointMap) :
    (deliver pfx (keys.map .delete)).foldl watcherStep map =
      (keys.filter fun k => decide (IsUnder pfx k)).foldl (fun m k => m.erase k) map := by
  rw [deliver, List.filter_map, List.foldl_map]
  rfl

/-- Every operation keeps the watcher's map the store under the prefix. -/
theorem mirrors_apply (toLowercase : String → String) {pfx : String} {etcd : Etcd}
    {map : EndpointMap} (h : Mirrors pfx etcd map) (op : Op) :
    Mirrors pfx (etcd.apply toLowercase op).1
      ((deliver pfx (etcd.apply toLowercase op).2).foldl watcherStep map) := by
  cases op with
  | start endpoint leaseId =>
      simp only [Etcd.apply, Etcd.kvCreate]
      by_cases hmem : endpoint.etcdPathWithId leaseId ∈ etcd.kvs
      · -- a key that exists is not created, and nothing is sent
        rw [if_pos hmem]
        exact h
      · rw [if_neg hmem]
        dsimp only
        -- the put is delivered exactly when the new key is under the prefix
        have hput : ∀ m : EndpointMap, (deliver pfx [.put (endpoint.etcdPathWithId leaseId)
            (endpoint.info toLowercase leaseId)]).foldl watcherStep m =
            if IsUnder pfx (endpoint.etcdPathWithId leaseId) then
              m.insert (endpoint.etcdPathWithId leaseId) (endpoint.info toLowercase leaseId)
            else m := by
          intro m
          by_cases hunder : IsUnder pfx (endpoint.etcdPathWithId leaseId)
          · simp only [deliver, List.filter_cons, List.filter_nil, WatchEvent.key, hunder,
              decide_true, if_true, List.foldl_cons, List.foldl_nil]
            rfl
          · simp only [deliver, List.filter_cons, List.filter_nil, WatchEvent.key, hunder,
              decide_false, Bool.false_eq_true, if_false, List.foldl_nil]
        intro key
        rw [hput]
        by_cases hk : key = endpoint.etcdPathWithId leaseId
        · rw [hk, AList.lookup_insert]
          by_cases hunder : IsUnder pfx (endpoint.etcdPathWithId leaseId)
          · rw [if_pos hunder, if_pos hunder]
            exact AList.lookup_insert _
          · rw [if_neg hunder, h, if_neg hunder, if_neg hunder]
        · rw [AList.lookup_insert_ne hk, ← h key]
          split_ifs
          · exact AList.lookup_insert_ne hk
          · rfl
  | revoke leaseId =>
      simp only [Etcd.apply, Etcd.revoke]
      rw [foldl_deliver_delete]
      intro key
      rw [AList.lookup_foldl_erase, AList.lookup_foldl_erase]
      by_cases hunder : IsUnder pfx key
      · -- a key under the prefix is deleted from both or from neither
        rw [if_pos hunder]
        by_cases hmem : key ∈ etcd.leaseKeys leaseId
        · rw [if_pos (List.mem_filter.mpr ⟨hmem, decide_eq_true hunder⟩), if_pos hmem]
          rfl
        · rw [if_neg (fun h' => hmem (List.mem_filter.mp h').1), if_neg hmem, h, if_pos hunder]
      · have hout : key ∉ (etcd.leaseKeys leaseId).filter fun k => decide (IsUnder pfx k) :=
          fun h' => hunder (of_decide_eq_true (List.mem_filter.mp h').2)
        rw [if_neg hunder, if_neg hout, h, if_neg hunder]

/-- Over any run the watcher's map stays the store under the prefix. -/
theorem Client.run_mirrors (toLowercase : String → String) (E : Endpoint) :
    ∀ (etcd : Etcd) (map : EndpointMap) (ops : List Op), Mirrors E.etcdPath etcd map →
      Mirrors E.etcdPath (Client.run toLowercase E etcd map ops).1
        (Client.run toLowercase E etcd map ops).2
  | _, _, [], h => h
  | _, _, op :: ops, h =>
      Client.run_mirrors toLowercase E _ _ ops (mirrors_apply toLowercase h op)

/-- The client's watcher, however late it starts, holds the store under its
    prefix. -/
theorem Client.newDynamic_mirrors (toLowercase : String → String) (E : Endpoint) (etcd : Etcd)
    (ops : List Op) :
    Mirrors E.etcdPath (Client.newDynamic toLowercase E etcd ops).1
      (Client.newDynamic toLowercase E etcd ops).2 :=
  Client.run_mirrors toLowercase E etcd _ ops (mirrors_snapshot E.etcdPath etcd)

/-- The client lists the record of every key of the store under its prefix,
    and nothing else. -/
theorem Client.mem_endpoints_iff (toLowercase : String → String) (E : Endpoint) (etcd : Etcd)
    (ops : List Op) (x : ComponentEndpointInfo) :
    x ∈ endpoints (Client.newDynamic toLowercase E etcd ops).2 ↔
      ∃ key, IsUnder E.etcdPath key ∧
        ((Client.newDynamic toLowercase E etcd ops).1.kvs.lookup key).map Prod.fst = some x := by
  rw [endpoints, AList.mem_values]
  have hm := Client.newDynamic_mirrors toLowercase E etcd ops
  constructor
  · rintro ⟨key, hkey⟩
    rw [hm key] at hkey
    by_cases hunder : IsUnder E.etcdPath key
    · rw [if_pos hunder] at hkey
      exact ⟨key, hunder, hkey⟩
    · rw [if_neg hunder] at hkey
      cases hkey
  · rintro ⟨key, hunder, hkey⟩
    exact ⟨key, by rw [hm key, if_pos hunder, hkey]⟩

/-! ### What is registered -/

/-- Every key of the store was written by a start: it is an instance's key,
    holding the instance's record. -/
def Registered (toLowercase : String → String) (etcd : Etcd) : Prop :=
  ∀ key value leaseId, etcd.kvs.lookup key = some (value, leaseId) →
    ∃ endpoint : Endpoint, key = endpoint.etcdPathWithId leaseId ∧
      value = endpoint.info toLowercase leaseId

theorem registered_apply {toLowercase : String → String} {etcd : Etcd}
    (h : Registered toLowercase etcd) (op : Op) : Registered toLowercase (etcd.apply toLowercase op).1 := by
  cases op with
  | start endpoint leaseId =>
      simp only [Etcd.apply, Etcd.kvCreate]
      split_ifs
      · exact h
      · intro key value lease hkey
        by_cases hk : key = endpoint.etcdPathWithId leaseId
        · -- the key just created holds the record of its start
          rw [hk, AList.lookup_insert, Option.some.injEq, Prod.mk.injEq] at hkey
          obtain ⟨rfl, rfl⟩ := hkey
          exact ⟨endpoint, hk, rfl⟩
        · rw [AList.lookup_insert_ne hk] at hkey
          exact h key value lease hkey
  | revoke leaseId =>
      intro key value lease hkey
      simp only [Etcd.apply, Etcd.revoke] at hkey
      rw [AList.lookup_foldl_erase] at hkey
      split_ifs at hkey
      exact h key value lease hkey

theorem Client.run_registered (toLowercase : String → String) (E : Endpoint) :
    ∀ (etcd : Etcd) (map : EndpointMap) (ops : List Op), Registered toLowercase etcd →
      Registered toLowercase (Client.run toLowercase E etcd map ops).1
  | _, _, [], h => h
  | _, _, op :: ops, h => Client.run_registered toLowercase E _ _ ops (registered_apply h op)

/-- From a store that only starts wrote, the client lists the records of the
    live instances whose key starts with its prefix. -/
theorem Client.endpoints_registered (toLowercase : String → String) (E : Endpoint) {etcd : Etcd}
    (h : Registered toLowercase etcd) (ops : List Op) {x : ComponentEndpointInfo}
    (hx : x ∈ endpoints (Client.newDynamic toLowercase E etcd ops).2) :
    ∃ (endpoint : Endpoint) (leaseId : Int), x = endpoint.info toLowercase leaseId ∧
      IsUnder E.etcdPath (endpoint.etcdPathWithId leaseId) ∧
      (Client.newDynamic toLowercase E etcd ops).1.kvs.lookup (endpoint.etcdPathWithId leaseId) =
        some (x, leaseId) := by
  obtain ⟨key, hunder, hkey⟩ := (Client.mem_endpoints_iff toLowercase E etcd ops x).mp hx
  obtain ⟨⟨value, leaseId⟩, hlookup, hvalue⟩ := Option.map_eq_some_iff.mp hkey
  have hreg := Client.run_registered toLowercase E etcd
    ((etcd.snapshot E.etcdPath).foldl watcherStep ∅) ops h
  obtain ⟨endpoint, rfl, rfl⟩ := hreg key value leaseId hlookup
  cases hvalue
  exact ⟨endpoint, leaseId, rfl, hunder, hlookup⟩

/-! ### Names -/

/-- An instance of the same component lies under a dynamic client's prefix
    exactly when its name, a `:` and its lease id start with the client's
    name: there is no delimiter after the name. -/
theorem isUnder_etcdPathWithId_iff {E endpoint : Endpoint} (hc : endpoint.component = E.component)
    (hstatic : endpoint.isStatic = false) (leaseId : Int) :
    IsUnder E.etcdPath (endpoint.etcdPathWithId leaseId) ↔
      E.name.toList <+: (endpoint.name ++ ":" ++ lowerHex leaseId).toList := by
  simp only [IsUnder, Endpoint.etcdPathWithId, hstatic, Bool.false_eq_true, if_false,
    Endpoint.etcdPath, hc, String.toList_append, List.append_assoc]
  rw [List.prefix_append_right_inj, List.prefix_append_right_inj]

/-- Two dynamic endpoints of one component address the instance of a lease at
    the same subject exactly when they have the same name. -/
theorem subjectTo_eq_iff (toLowercase : String → String) {E endpoint : Endpoint}
    (hc : endpoint.component = E.component) (hE : E.isStatic = false)
    (hstatic : endpoint.isStatic = false) (leaseId : Int) :
    E.subjectTo toLowercase leaseId = endpoint.subjectTo toLowercase leaseId ↔
      E.name = endpoint.name := by
  simp only [Endpoint.subjectTo, Endpoint.nameWithId, hE, hstatic, Bool.false_eq_true, if_false,
    hc, ← String.toList_inj, String.toList_append, List.append_assoc, List.append_right_inj]
  rw [← List.append_assoc, ← List.append_assoc, List.append_left_inj, List.append_left_inj]

/-! ### The router -/

/-- `{:?}` of a string with nothing to escape. -/
def debugString (s : String) : String :=
  "\"" ++ s ++ "\""

section Router

variable (toLowercase : String → String)

/-- The choice `round_robin` and `random` share: the record at a counter's
    offset, addressed at the subject the client's endpoint gives its id. -/
def PushRouter.byOffset (client : Endpoint) (endpoints : List ComponentEndpointInfo)
    (counter : Nat) : Except String String :=
  if h : endpoints.length = 0 then
    .error ("no endpoints found for endpoint " ++ debugString client.etcdPath)
  else
    .ok (client.subjectTo toLowercase
      (endpoints.get ⟨counter % endpoints.length, Nat.mod_lt _ (Nat.pos_of_ne_zero h)⟩).id)

/-- `PushRouter::round_robin`, at the counter's value before its increment. -/
def PushRouter.roundRobin (client : Endpoint) (endpoints : List ComponentEndpointInfo)
    (counter : Nat) : Except String String :=
  PushRouter.byOffset toLowercase client endpoints counter

/-- `PushRouter::random`, at the drawn value. -/
def PushRouter.random (client : Endpoint) (endpoints : List ComponentEndpointInfo) (draw : Nat) :
    Except String String :=
  PushRouter.byOffset toLowercase client endpoints draw

/-- `PushRouter::direct`. -/
def PushRouter.direct (client : Endpoint) (endpoints : List ComponentEndpointInfo)
    (endpointId : Int) : Except String String :=
  if endpoints.any (·.id == endpointId) then .ok (client.subjectTo toLowercase endpointId)
  else
    .error ("endpoint_id=" ++ toString endpointId ++ " not found for endpoint " ++
      debugString client.etcdPath)

/-- A request sent by offset goes to the subject the client's endpoint gives
    the id of a listed record. -/
theorem PushRouter.byOffset_eq_ok {client : Endpoint} {endpoints : List ComponentEndpointInfo}
    {counter : Nat} {subject : String}
    (h : PushRouter.byOffset toLowercase client endpoints counter = .ok subject) :
    ∃ x ∈ endpoints, subject = client.subjectTo toLowercase x.id := by
  unfold PushRouter.byOffset at h
  split at h
  · cases h
  · cases h
    exact ⟨_, List.get_mem _ _, rfl⟩

/-- A request sent directly goes to the subject the client's endpoint gives
    the id of a listed record. -/
theorem PushRouter.direct_eq_ok {client : Endpoint} {endpoints : List ComponentEndpointInfo}
    {endpointId : Int} {subject : String}
    (h : PushRouter.direct toLowercase client endpoints endpointId = .ok subject) :
    ∃ x ∈ endpoints, x.id = endpointId ∧ subject = client.subjectTo toLowercase x.id := by
  unfold PushRouter.direct at h
  split at h
  · rename_i hany
    cases h
    obtain ⟨x, hx, hid⟩ := List.any_eq_true.mp hany
    have hid' : x.id = endpointId := beq_iff_eq.mp hid
    exact ⟨x, hx, hid', by rw [hid']⟩
  · cases h

end Router

/-- The client of `generate` lists the instance of `generate_tokens` of the
    same component, and the router sends its requests to a subject that
    instance does not listen on. -/
theorem client_lists_prefixed_endpoint (toLowercase : String → String) :
    let backend : Component := ⟨⟨"dynamo"⟩, "backend"⟩
    let generate : Endpoint := ⟨backend, "generate", false⟩
    let tokens : Endpoint := ⟨backend, "generate_tokens", false⟩
    let client := Client.newDynamic toLowercase generate ⟨∅⟩ [.start tokens 26]
    endpoints client.2 = [tokens.info toLowercase 26] ∧
      PushRouter.roundRobin toLowercase generate (endpoints client.2) 0 =
        .ok (generate.subjectTo toLowercase 26) ∧
      (tokens.info toLowercase 26).transport ≠ .natsTcp (generate.subjectTo toLowercase 26) := by
  intro backend generate tokens client
  have hunder : IsUnder generate.etcdPath (tokens.etcdPathWithId 26) := by decide
  -- the start's key is new, and its put is delivered to the client
  have hlist : endpoints client.2 = [tokens.info toLowercase 26] := by
    simp only [client, Client.newDynamic, Client.run, Etcd.snapshot, Etcd.apply, Etcd.kvCreate,
      deliver, AList.notMem_empty, if_false, List.filter_cons, WatchEvent.key, hunder, decide_true,
      if_true, List.filter_nil, List.foldl_cons, List.foldl_nil, watcherStep, endpoints]
    rfl
  refine ⟨hlist, ?_, ?_⟩
  · rw [hlist]
    rfl
  intro h
  -- the subjects agree only for equal names, and the names differ
  have hsubject := TransportType.natsTcp.inj h
  have hname : generate.name ≠ tokens.name := by decide
  exact hname ((@subjectTo_eq_iff toLowercase generate tokens rfl rfl rfl 26).mp hsubject.symm)

end Runtime

end Dynamo
