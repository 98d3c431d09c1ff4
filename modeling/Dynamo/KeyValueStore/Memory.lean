import Dynamo.Lib.Collections

/-!
# The In-Memory Key-Value Store

`MemoryStorage` keeps its buckets in a map, each bucket a map from a key to a
revision and a value. An insert of a key the bucket does not hold creates it.
An insert at the revision the key already has changes nothing and returns
`Exists`. An insert at another revision replaces the entry and returns
`Created`. `delete` removes the key, and `get` reads the map
(`MemoryStorage.get_insert`, `MemoryStorage.insert_outcome`).

Changes reach a `watch` stream through one unbounded channel that the whole
storage shares. Only the insert of a key the bucket does not hold sends its
`(key, value)` on it. A replacement sends nothing
(`MemoryStorage.insert_changes_of_held`). The stream first yields the bucket's
values and remembers them as seen. It then takes the changes off the channel
in the order they were sent, whatever bucket sent them and whenever, and
yields those whose value it did not see. `MemoryWatch.run_yields` says this
over every run of inserts, deletes and passes of the stream: what the stream
has taken, followed by what is still queued, is what was queued before
followed by what the operations sent, and the stream has yielded the unseen
values of what it took.

So a replacement never reaches the stream: after an insert of `value1`, a
watch, and an insert of `GK` at a new revision that returns `Created`, the
stream yields nothing more however often it is polled
(`memoryWatch_misses_replacement`).

## Main definitions

* `MemoryStorage.insert`, `MemoryStorage.delete`, `MemoryStorage.get`,
  `MemoryStorage.entries`: The calls of a bucket.
* `MemoryStorage.watch`: The start of a `watch` stream, its snapshot.
* `MemoryWatch.recv`: One pass of the stream's loop.
* `MemoryWatch.run`: Operations in order while a stream is open.
* `MemoryStorage.sent`, `MemoryWatch.sentAlong`: The changes sent.

## Theorems

* `MemoryStorage.insert_outcome`, `MemoryStorage.get_insert`: The map an
  insert leaves.
* `MemoryStorage.insert_changes_of_vacant`,
  `MemoryStorage.insert_changes_of_held`: Only a new key is sent.
* `MemoryWatch.run_yields`: What the stream yields over any run.
* `memoryWatch_misses_replacement`: A replacement is never yielded.
-/

namespace Dynamo

namespace KeyValueStore

/-- `StorageOutcome`: whether an insert stored its value. -/
inductive StorageOutcome where
  | created (revision : Nat)
  | exists (revision : Nat)
  deriving DecidableEq, Repr

/-- `StorageError`, of the variants `MemoryStorage` returns. -/
inductive StorageError where
  | missingBucket (name : String)
  deriving DecidableEq, Repr

/-- `MemoryBucket`: each key's revision and value. -/
abbrev MemoryBucket := AList (fun _ : String => Nat × String)

/-- `MemoryStorage`: the buckets by name, and the queue of the change channel,
    the `(key, value)` pairs sent and not yet received. -/
structure MemoryStorage where
  data : AList (fun _ : String => MemoryBucket)
  changes : List (String × String)

/-- `MemoryStorage::new`: no bucket, nothing sent. -/
def MemoryStorage.new : MemoryStorage :=
  ⟨∅, []⟩

/-- `get_or_create_bucket`: an empty bucket unless one of the name exists. -/
def MemoryStorage.getOrCreateBucket (self : MemoryStorage) (bucketName : String) : MemoryStorage :=
  if bucketName ∈ self.data then self else { self with data := self.data.insert bucketName ∅ }

/-- `MemoryBucketRef::insert`. -/
def MemoryStorage.insert (self : MemoryStorage) (name key value : String) (revision : Nat) :
    Except StorageError StorageOutcome × MemoryStorage :=
  match self.data.lookup name with
  | none => (.error (.missingBucket name), self)
  | some bucket =>
    match bucket.lookup key with
    | none =>
      -- `Entry::Vacant`: stored, and sent on the change channel
      (.ok (.created revision),
        { data := self.data.insert name (bucket.insert key (revision, value))
          changes := self.changes ++ [(key, value)] })
    | some (rev, _) =>
      if rev = revision then (.ok (.exists revision), self)
      else
        (.ok (.created revision),
          { self with data := self.data.insert name (bucket.insert key (revision, value)) })

/-- `MemoryBucketRef::get`: the key's value, and nothing when the bucket is
    missing. -/
def MemoryStorage.get (self : MemoryStorage) (name key : String) : Option String :=
  match self.data.lookup name with
  | none => none
  | some bucket => (bucket.lookup key).map (·.2)

/-- `MemoryBucketRef::delete`. -/
def MemoryStorage.delete (self : MemoryStorage) (name key : String) :
    Except StorageError Unit × MemoryStorage :=
  match self.data.lookup name with
  | none => (.error (.missingBucket name), self)
  | some bucket => (.ok (), { self with data := self.data.insert name (bucket.erase key) })

/-- `MemoryBucketRef::entries`: every key with its value. -/
def MemoryStorage.entries (self : MemoryStorage) (name : String) :
    Except StorageError (List (String × String)) :=
  match self.data.lookup name with
  | some bucket => .ok (bucket.entries.map fun e => (e.1, e.2.2))
  | none => .error (.missingBucket name)

/-- A `watch` stream past its snapshot: the values it yielded there. -/
structure MemoryWatch where
  seen : List String

/-- The start of `MemoryBucketRef::watch`: every value of the bucket, each
    yielded and remembered as seen. With the bucket missing the stream ends. -/
def MemoryStorage.watch (self : MemoryStorage) (name : String) : Option (List String × MemoryWatch) :=
  match self.data.lookup name with
  | none => none
  | some bucket =>
    let values := bucket.values.map (·.2)
    some (values, ⟨values⟩)

/-- One pass of the stream's loop: the next change on the channel, whatever
    bucket sent it, yielded unless its value was seen. With the channel empty
    the stream waits. -/
def MemoryWatch.recv (self : MemoryWatch) (storage : MemoryStorage) : Option String × MemoryStorage :=
  match storage.changes with
  | [] => (none, storage)
  | (_, v) :: rest => (if v ∈ self.seen then none else some v, { storage with changes := rest })

/-- What happens while a stream is open: a call of a bucket, or a pass of the
    stream. -/
inductive Op where
  | insert (name key value : String) (revision : Nat)
  | delete (name key : String)
  | recv

/-- One operation: the store after it, and what the stream yields. -/
def MemoryWatch.step (self : MemoryWatch) (storage : MemoryStorage) : Op → MemoryStorage × List String
  | .insert name key value revision => ((storage.insert name key value revision).2, [])
  | .delete name key => ((storage.delete name key).2, [])
  | .recv => ((self.recv storage).2, (self.recv storage).1.toList)

/-- Operations in order: the store after them, and what the stream yields. -/
def MemoryWatch.run (self : MemoryWatch) : MemoryStorage → List Op → MemoryStorage × List String
  | storage, [] => (storage, [])
  | storage, op :: ops =>
    let r := self.run (self.step storage op).1 ops
    (r.1, (self.step storage op).2 ++ r.2)

/-! ### The map -/

namespace MemoryStorage

variable {self : MemoryStorage} {name : String} {bucket : MemoryBucket}

/-- An insert returns `Exists` exactly when the key is held at its revision. -/
theorem insert_outcome (h : self.data.lookup name = some bucket) (key value : String)
    (revision : Nat) :
    (self.insert name key value revision).1 =
      if (bucket.lookup key).map (·.1) = some revision then .ok (.exists revision)
      else .ok (.created revision) := by
  rw [insert, h]
  dsimp only
  rcases hkey : bucket.lookup key with _ | ⟨rev, old⟩
  · rfl
  · dsimp only
    by_cases hrev : rev = revision
    · rw [if_pos hrev, Option.map_some, if_pos (by rw [hrev])]
    · rw [if_neg hrev, Option.map_some, if_neg (fun h => hrev (Option.some.inj h))]

/-- After an insert the key reads its new value, unless it was held at the
    same revision; other keys and buckets read as before. -/
theorem get_insert (h : self.data.lookup name = some bucket) (key value : String)
    (revision : Nat) (name' key' : String) :
    (self.insert name key value revision).2.get name' key' =
      if name' = name ∧ key' = key ∧ (bucket.lookup key).map (·.1) ≠ some revision then some value
      else self.get name' key' := by
  -- the bucket after a store, as `get` reads it
  have hstored : ∀ changes,
      (({ data := self.data.insert name (bucket.insert key (revision, value)), changes } :
        MemoryStorage).get name' key') =
        if name' = name ∧ key' = key then some value else self.get name' key' := by
    intro changes
    unfold get
    by_cases hname : name' = name
    · rw [hname, AList.lookup_insert, h]
      dsimp only
      by_cases hk : key' = key
      · rw [hk, AList.lookup_insert, if_pos ⟨rfl, rfl⟩]
        rfl
      · rw [AList.lookup_insert_ne hk, if_neg (fun hc => hk hc.2)]
    · rw [AList.lookup_insert_ne hname, if_neg (fun hc => hname hc.1)]
  rw [insert, h]
  dsimp only
  rcases hkey : bucket.lookup key with _ | ⟨rev, old⟩
  · dsimp only
    rw [hstored, Option.map_none]
    by_cases hc : name' = name ∧ key' = key
    · rw [if_pos hc, if_pos ⟨hc.1, hc.2, (Option.some_ne_none revision).symm⟩]
    · rw [if_neg hc, if_neg (fun h' => hc ⟨h'.1, h'.2.1⟩)]
  · dsimp only
    by_cases hrev : rev = revision
    · rw [if_pos hrev, Option.map_some, hrev]
      -- a repeated revision stores nothing
      rw [if_neg (fun h' => h'.2.2 rfl)]
    · rw [if_neg hrev, hstored, Option.map_some]
      by_cases hc : name' = name ∧ key' = key
      · rw [if_pos hc, if_pos ⟨hc.1, hc.2, fun h' => hrev (Option.some.inj h')⟩]
      · rw [if_neg hc, if_neg (fun h' => hc ⟨h'.1, h'.2.1⟩)]

/-! ### The change channel -/

/-- The change an operation sends: an insert of a key that its bucket does
    not hold. -/
def sent (self : MemoryStorage) : Op → List (String × String)
  | .insert name key value _ =>
    match self.data.lookup name with
    | some bucket => if bucket.lookup key = none then [(key, value)] else []
    | none => []
  | _ => []

/-- The insert of a key the bucket does not hold is sent. -/
theorem insert_changes_of_vacant (h : self.data.lookup name = some bucket) {key : String}
    (hkey : bucket.lookup key = none) (value : String) (revision : Nat) :
    (self.insert name key value revision).2.changes = self.changes ++ [(key, value)] := by
  rw [insert, h]
  dsimp only
  rw [hkey]

/-- The insert of a key the bucket holds sends nothing, also when it replaces
    the value. -/
theorem insert_changes_of_held (h : self.data.lookup name = some bucket) {key : String}
    {held : Nat × String} (hkey : bucket.lookup key = some held) (value : String)
    (revision : Nat) :
    (self.insert name key value revision).2.changes = self.changes := by
  rw [insert, h]
  dsimp only
  rw [hkey]
  dsimp only
  split_ifs <;> rfl

/-- Every insert queues what `sent` says. -/
theorem insert_changes (name key value : String) (revision : Nat) :
    (self.insert name key value revision).2.changes =
      self.changes ++ self.sent (.insert name key value revision) := by
  rcases hb : self.data.lookup name with _ | bucket
  · have hsent : self.sent (.insert name key value revision) = [] := by
      rw [sent, hb]
    rw [hsent, List.append_nil, insert, hb]
  · rcases hkey : bucket.lookup key with _ | held
    · have hsent : self.sent (.insert name key value revision) = [(key, value)] := by
        rw [sent, hb]
        exact if_pos hkey
      rw [hsent, insert_changes_of_vacant hb hkey]
    · have hsent : self.sent (.insert name key value revision) = [] := by
        rw [sent, hb]
        exact if_neg (fun h' => Option.some_ne_none held (hkey.symm.trans h'))
      rw [hsent, List.append_nil, insert_changes_of_held hb hkey]

theorem delete_changes (name key : String) : (self.delete name key).2.changes = self.changes := by
  unfold delete
  split <;> rfl

end MemoryStorage

/-! ### The stream -/

namespace MemoryWatch

/-- The changes the operations send along a run, in order. -/
def sentAlong (self : MemoryWatch) : MemoryStorage → List Op → List (String × String)
  | _, [] => []
  | storage, op :: ops => storage.sent op ++ self.sentAlong (self.step storage op).1 ops

/-- What the stream yields of the changes it took: the values it did not see. -/
def unseen (self : MemoryWatch) (taken : List (String × String)) : List String :=
  taken.filterMap fun c => if c.2 ∈ self.seen then none else some c.2

/-- One operation: the change it takes off the channel, if any, followed by
    what stays queued, is what was queued followed by what it sends; and it
    yields the unseen value of what it took. -/
theorem step_changes (self : MemoryWatch) (storage : MemoryStorage) (op : Op) :
    ∃ taken, taken ++ (self.step storage op).1.changes = storage.changes ++ storage.sent op ∧
      (self.step storage op).2 = self.unseen taken := by
  cases op with
  | insert name key value revision =>
      exact ⟨[], MemoryStorage.insert_changes name key value revision, rfl⟩
  | delete name key =>
      have hsent : storage.sent (.delete name key) = [] := rfl
      refine ⟨[], ?_, rfl⟩
      rw [step, MemoryStorage.delete_changes, List.nil_append, hsent, List.append_nil]
  | recv =>
      have hsent : storage.sent .recv = [] := rfl
      rw [hsent, List.append_nil, step, recv]
      rcases hq : storage.changes with _ | ⟨⟨k, v⟩, rest⟩
      · exact ⟨[], hq, rfl⟩
      · refine ⟨[(k, v)], rfl, ?_⟩
        dsimp only
        by_cases hv : v ∈ self.seen
        · rw [if_pos hv, unseen, List.filterMap_cons, if_pos hv]
          rfl
        · rw [if_neg hv, unseen, List.filterMap_cons, if_neg hv]
          rfl

/-- Over any run, what the stream took off the channel, followed by what is
    still queued, is what was queued before followed by what the operations
    sent; and the stream has yielded the unseen values of what it took. -/
theorem run_yields (self : MemoryWatch) : ∀ (storage : MemoryStorage) (ops : List Op),
    ∃ taken, taken ++ (self.run storage ops).1.changes =
        storage.changes ++ self.sentAlong storage ops ∧
      (self.run storage ops).2 = self.unseen taken
  | storage, [] => ⟨[], by rw [run, sentAlong, List.append_nil]; rfl, rfl⟩
  | storage, op :: ops => by
      obtain ⟨taken, hq, hy⟩ := self.step_changes storage op
      obtain ⟨taken', hq', hy'⟩ := self.run_yields (self.step storage op).1 ops
      refine ⟨taken ++ taken', ?_, ?_⟩
      · rw [run, sentAlong, List.append_assoc, hq', ← List.append_assoc, hq, List.append_assoc]
      · rw [run, hy, hy', unseen, unseen, unseen, List.filterMap_append]

/-- Passes of the stream over an empty channel yield nothing. -/
theorem run_recv_of_nil (self : MemoryWatch) {storage : MemoryStorage} (h : storage.changes = [])
    (n : Nat) : (self.run storage (List.replicate n .recv)).2 = [] := by
  induction n with
  | zero => rfl
  | succ n ih =>
      have hstep : self.step storage .recv = (storage, []) := by
        rw [step, recv, h]
        rfl
      rw [List.replicate_succ, run, hstep]
      exact ih

end MemoryWatch

/-- A replacement is never yielded: after `value1` is inserted and the
    stream has yielded it, `GK` replaces it at a new revision and the insert
    returns `Created`, but no pass of the stream yields anything more. -/
theorem memoryWatch_misses_replacement (n : Nat) :
    let storage : MemoryStorage :=
      ((MemoryStorage.new.getOrCreateBucket "mdc").insert "mdc" "test1" "value1" 0).2
    storage.watch "mdc" = some (["value1"], ⟨["value1"]⟩) ∧
      (storage.insert "mdc" "test1" "GK" 1).1 = .ok (.created 1) ∧
      (MemoryWatch.run ⟨["value1"]⟩ storage (.insert "mdc" "test1" "GK" 1 :: List.replicate n .recv)).2 =
        [] := by
  refine ⟨rfl, rfl, ?_⟩
  cases n with
  | zero => rfl
  | succ n =>
      -- the first pass takes the insert of `value1`, which was seen; then the channel is empty
      rw [List.replicate_succ]
      exact MemoryWatch.run_recv_of_nil ⟨["value1"]⟩ rfl n

end KeyValueStore

end Dynamo
