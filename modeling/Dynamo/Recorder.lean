import Mathlib.Logic.Function.Basic
import Mathlib.Data.List.Infix

/-!
# The Event Recorder

`Recorder` of `lib/llm/src/recorder.rs` writes the events its producers send
to a JSONL file, one `RecordEntry` a line, from a task that receives them
from a channel. With `max_lines_per_file` set to `L`, the task counts the
lines of the current file, and when the count reaches `L` it opens the next
file, whose name `create_rotated_path` makes by putting the file index before
the last `.` of the whole path.

The recorder is a state machine here: the producers' sends, `shutdown`, and
one pass of the task's loop at an instant are the actions, in any order
(`Recorder.run`). While every rotated file opens, the count of the current
file is the number of events written modulo `L`, and the file is the one the
index names (`Recorder.Rotating`, `Recorder.rotating_run`).

The last `.` of the path is in the file name only when the file name has
one, or the directories have none (`createRotatedPath_keeps_dir_iff`).
Otherwise the index goes into a directory, whose rotated name need not
exist: the open fails, the task keeps writing to the old file without
resetting its count, and every later event tries the next index. With the
path `out.d/events` and `L = 1`, the rotated file is `out1.d/events`, and
every event stays in `out.d/events` (`recorder_rotates_into_directory`).

Events can also be left unwritten: the task checks cancellation before the
channel, so the events still in the channel when `shutdown` is seen are never
received, and after it the files and the count do not change
(`Recorder.run_of_cancelled`).

## Main definitions

* `createRotatedPath`: `create_rotated_path`.
* `FileSystem`: Directories, and the lines of each file.
* `Recorder`, `Recorder.new`: The channel, the shared count, the task's
  state, and the files.
* `Recorder.writerStep`, `Recorder.step`, `Recorder.run`: One pass of the
  task, one action, and a schedule of them.
* `sendEvents`: `Recorder::send_events` on one file.

## Theorems

* `createRotatedPath_keeps_dir_iff`: When the index stays in the file name.
* `Recorder.rotating_run`, `Recorder.rotating_of_new`: While rotated files
  open, each line goes to the file its number names.
* `Recorder.run_of_cancelled`: After cancellation nothing is written.
* `sendEvents_of_lines`: Reading back the lines of entries.
* `recorder_rotates_into_directory`: A rotation into a directory that does
  not exist.
-/

namespace Dynamo

/-- A path, as the characters of its `to_string_lossy`. -/
abbrev Path := List Char

/-! ### Paths -/

/-- `str::rfind(c)`: the position of the last `c`. Positions count
    characters; a `.` or `/` is one byte, so splitting there splits where
    Rust's byte position does. -/
def rfind (c : Char) : List Char → Option Nat
  | [] => none
  | x :: xs =>
      match rfind c xs with
      | some i => some (i + 1)
      | none => if x = c then some 0 else none

/-- `create_rotated_path`: the index before the last `.` of the path, or at
    its end when it has none. -/
def createRotatedPath (basePath : Path) (index : Nat) : Path :=
  match rfind '.' basePath with
  | some extPos => basePath.take extPos ++ (toString index).toList ++ basePath.drop extPos
  | none => basePath ++ (toString index).toList

theorem rfind_append (c : Char) (l₁ l₂ : List Char) :
    rfind c (l₁ ++ l₂) =
      match rfind c l₂ with
      | some i => some (i + l₁.length)
      | none => rfind c l₁ := by
  induction l₁ with
  | nil =>
      rw [List.nil_append]
      cases rfind c l₂ <;> rfl
  | cons x l₁ ih =>
      rw [List.cons_append, rfind, ih]
      cases rfind c l₂ with
      | some i =>
          simp only [List.length_cons, Option.some.injEq]
          omega
      | none => rfl

theorem rfind_eq_none_iff {c : Char} : ∀ {s : List Char}, rfind c s = none ↔ c ∉ s
  | [] => ⟨fun _ => List.not_mem_nil, fun _ => rfl⟩
  | x :: xs => by
      rw [rfind, List.mem_cons, not_or]
      cases h : rfind c xs with
      | some i =>
          have hmem : c ∈ xs := by
            by_contra hc
            rw [rfind_eq_none_iff.mpr hc] at h
            cases h
          simp only [reduceCtorEq, false_iff, not_and, not_not]
          exact fun _ => hmem
      | none =>
          have hmem : c ∉ xs := rfind_eq_none_iff.mp h
          by_cases hx : x = c
          · simp only [hx, if_true, reduceCtorEq, false_iff, not_and, not_not]
            exact fun h' => absurd trivial h'
          · simp only [hx, if_false, true_iff]
            exact ⟨fun h' => hx h'.symm, hmem⟩

theorem rfind_eq_some {c : Char} : ∀ {s : List Char} {i : Nat}, rfind c s = some i →
    ∃ h : i < s.length, s[i] = c
  | [], i, h => by cases h
  | x :: xs, i, h => by
      unfold rfind at h
      cases hr : rfind c xs with
      | some j =>
          rw [hr] at h
          cases h
          obtain ⟨hj, hget⟩ := rfind_eq_some hr
          exact ⟨by simp only [List.length_cons]; omega, hget⟩
      | none =>
          rw [hr] at h
          by_cases hx : x = c
          · rw [if_pos hx] at h
            cases h
            exact ⟨by simp only [List.length_cons]; omega, hx⟩
          · rw [if_neg hx] at h
            cases h

/-- The digits of an index, which are never a `.`. -/
theorem toString_index (index : Nat) : (toString index).toList ≠ [] ∧ '.' ∉ (toString index).toList := by
  have hrepr : (toString index).toList = Nat.toDigits 10 index := Nat.toList_repr
  rw [hrepr]
  refine ⟨Nat.toDigits_ne_nil, fun h => ?_⟩
  have hdigit := Nat.isDigit_of_mem_toDigits (by decide) (by decide) h
  exact absurd hdigit (by decide)

/-- The rotated path keeps the directories of the path exactly when the last
    `.` is in the file name: the file name has one, or the directories have
    none. Otherwise a digit stands where a directory had its `.`. -/
theorem createRotatedPath_keeps_dir_iff (dir name : Path) (index : Nat) :
    dir <+: createRotatedPath (dir ++ name) index ↔ '.' ∈ name ∨ '.' ∉ dir := by
  obtain ⟨hne, hdot⟩ := toString_index index
  unfold createRotatedPath
  rw [rfind_append]
  cases hname : rfind '.' name with
  | some j =>
      -- the `.` is in the file name: the index goes in after the directories
      have hmem : '.' ∈ name := by
        by_contra hn
        rw [rfind_eq_none_iff.mpr hn] at hname
        cases hname
      simp only [Nat.add_comm j, List.take_append, List.drop_append, List.take_of_length_le
        (Nat.le_add_right dir.length j), Nat.add_sub_cancel_left, List.drop_of_length_le
        (Nat.le_add_right dir.length j), List.nil_append, List.append_assoc, List.prefix_append,
        true_iff]
      exact Or.inl hmem
  | none =>
      have hname' : '.' ∉ name := rfind_eq_none_iff.mp hname
      cases hdir : rfind '.' dir with
      | none =>
          have hdir' : '.' ∉ dir := rfind_eq_none_iff.mp hdir
          simp only [List.append_assoc, List.prefix_append, hdir', not_false_eq_true, or_true]
      | some p =>
          -- the `.` is in a directory: the index replaces it at position `p`
          obtain ⟨hp, hget⟩ := rfind_eq_some hdir
          have hmem : '.' ∈ dir := List.mem_iff_getElem.mpr ⟨p, hp, hget⟩
          simp only [hname', hmem, not_true_eq_false, or_self, iff_false]
          intro hpre
          rw [List.take_append_of_le_length (Nat.le_of_lt hp),
            List.drop_append_of_le_length (Nat.le_of_lt hp)] at hpre
          obtain ⟨d, rest, hd⟩ := List.exists_cons_of_ne_nil hne
          rw [hd] at hpre hdot
          have hlen : (dir.take p).length = p := List.length_take_of_le (Nat.le_of_lt hp)
          rw [List.append_assoc, List.cons_append] at hpre
          have hat := hpre.getElem hp
          simp only [List.getElem_append_right (Nat.le_of_eq hlen), hlen, Nat.sub_self,
            List.getElem_cons_zero, hget] at hat
          exact hdot (hat ▸ List.mem_cons_self)

/-- `Path::parent`: the characters before the last `/`, or the empty path,
    which is the working directory. -/
def parent (p : Path) : Path :=
  match rfind '/' p with
  | some i => p.take i
  | none => []

/-! ### Files -/

/-- The directories that exist, and the lines of each file that exists. -/
structure FileSystem where
  dirs : Path → Bool
  files : Path → Option (List String)

namespace FileSystem

/-- Whether a file can be created at the path: its directory exists. -/
def canCreate (fs : FileSystem) (path : Path) : Bool :=
  parent path = [] || fs.dirs (parent path)

/-- `fs::create_dir_all`: the directory and every directory above it. -/
def createDirAll (fs : FileSystem) (dir : Path) : FileSystem :=
  { fs with dirs := fun d => fs.dirs d || decide (d = dir) || (d ++ ['/']).isPrefixOf dir }

/-- `OpenOptions::new().create(true).write(true).truncate(true).open(path)`:
    an empty file, when its directory exists. -/
def openTruncate (fs : FileSystem) (path : Path) : Option FileSystem :=
  if fs.canCreate path then some { fs with files := Function.update fs.files path (some []) }
  else none

/-- A line written to the file. -/
def appendLine (fs : FileSystem) (path : Path) (line : String) : FileSystem :=
  { fs with files := Function.update fs.files path (some ((fs.files path).getD [] ++ [line])) }

end FileSystem

/-! ### The recorder -/

/-- `RecordEntry`: the milliseconds since the recorder started, and the
    event. -/
structure RecordEntry (α : Type) where
  timestamp : Nat
  event : α
  deriving DecidableEq, Repr

/-- A recorder: the channel's events, the cancellation token, the shared
    count and first instant, the writer task's state (whether it runs, its
    file, its line count and file index), its limits, and the files. The
    channel is unbounded here: a full channel only delays a send, and an
    event is in the channel once its send has completed. -/
structure Recorder (α : Type) where
  queue : List α
  cancelled : Bool
  eventCount : Nat
  firstEventTime : Option Nat
  running : Bool
  startTime : Nat
  basePath : Path
  current : Path
  lineCount : Nat
  fileIndex : Nat
  maxLinesPerFile : Option Nat
  maxCount : Option Nat
  maxTime : Option Nat
  fs : FileSystem

/-- An action of a run: a producer's completed send, `shutdown`, or one pass
    of the writer task's loop at an instant. -/
inductive Action (α : Type) where
  | send (event : α)
  | shutdown
  | writerStep (now : Nat)

namespace Recorder

variable {α : Type} (toJson : RecordEntry α → Except String String)

/-- `Recorder::new` at the instant `now`: the directory of the path made if
    it does not exist, the file created empty, and the task started. `none`
    is the `io::Error` of a failed open. -/
def new (fs : FileSystem) (outputPath : Path) (maxLinesPerFile maxCount maxTime : Option Nat)
    (now : Nat) : Option (Recorder α) :=
  let fs := if fs.dirs (parent outputPath) then fs else fs.createDirAll (parent outputPath)
  (fs.openTruncate outputPath).map fun fs =>
    { queue := [], cancelled := false, eventCount := 0, firstEventTime := none, running := true,
      startTime := now, basePath := outputPath, current := outputPath, lineCount := 0,
      fileIndex := 0, maxLinesPerFile, maxCount, maxTime, fs }

/-- The rotation check after a line is written: at `max_lines` lines the next
    file is opened, and when the open fails the task keeps its file and its
    count, with the index moved on. -/
def rotate (r : Recorder α) : Recorder α :=
  match r.maxLinesPerFile with
  | some maxLines =>
      if r.lineCount ≥ maxLines then
        let fileIndex := r.fileIndex + 1
        let newPath := createRotatedPath r.basePath fileIndex
        match r.fs.openTruncate newPath with
        | some fs => { r with fs, fileIndex, current := newPath, lineCount := 0 }
        | none => { r with fileIndex }
      else r
  | none => r

/-- The JSON line and its newline written to the task's file, and counted. -/
def writeLine (r : Recorder α) (json : String) : Recorder α :=
  { r with fs := r.fs.appendLine r.current json, lineCount := r.lineCount + 1 }

/-- The shared count moved on, and the task ended at `max_count`. -/
def countEvent (r : Recorder α) : Recorder α :=
  let r := { r with eventCount := r.eventCount + 1 }
  match r.maxCount with
  | some max => if r.eventCount ≥ max then { r with cancelled := true, running := false } else r
  | none => r

/-- The branch of the task's loop that receives an event at the instant
    `now`. An event that does not serialize is skipped, uncounted. -/
def receive (r : Recorder α) (now : Nat) (event : α) : Recorder α :=
  let r := { r with firstEventTime := r.firstEventTime.or (some now) }
  match toJson ⟨now - r.startTime, event⟩ with
  | .error _ => r
  | .ok json => ((r.writeLine json).rotate).countEvent

/-- The biased `select!`: cancellation before the channel, and a task with
    an empty channel waits. -/
def select (r : Recorder α) (now : Nat) : Recorder α :=
  if r.cancelled then { r with running := false }
  else
    match r.queue with
    | [] => r
    | event :: rest => { r with queue := rest }.receive toJson now event

/-- One pass of the task's loop at the instant `now`: the time limit, then
    the `select!`. -/
def writerStep (r : Recorder α) (now : Nat) : Recorder α :=
  if r.running then
    match r.maxTime with
    | some maxTime =>
        if now ≥ r.startTime + maxTime then { r with cancelled := true, running := false }
        else r.select toJson now
    | none => r.select toJson now
  else r

/-- One action. A send to a task that has returned fails, as its receiver
    is dropped. -/
def step (r : Recorder α) : Action α → Recorder α
  | .send event => if r.running then { r with queue := r.queue ++ [event] } else r
  | .shutdown => { r with cancelled := true }
  | .writerStep now => r.writerStep toJson now

/-- A schedule of actions. -/
def run (r : Recorder α) : List (Action α) → Recorder α
  | [] => r
  | a :: actions => (r.step toJson a).run actions

/-! ### The ways an action goes -/

/-- The biased select leaves the recorder as it is (an empty channel),
    ends the task (cancellation), or receives the event at the head of the
    channel. -/
theorem select_cases (r : Recorder α) (now : Nat) :
    r.select toJson now = r ∨
      (∃ cancelled running, (r.cancelled = true → cancelled = true) ∧
        r.select toJson now = { r with cancelled, running }) ∨
      ∃ event rest, r.cancelled = false ∧ r.queue = event :: rest ∧
        r.select toJson now = { r with queue := rest }.receive toJson now event := by
  unfold select
  cases hc : r.cancelled with
  | true =>
      rw [if_pos rfl]
      exact Or.inr (Or.inl ⟨true, false, fun _ => rfl, rfl⟩)
  | false =>
      rw [if_neg Bool.false_ne_true]
      cases hq : r.queue with
      | nil => exact Or.inl rfl
      | cons event rest => exact Or.inr (Or.inr ⟨event, rest, rfl, rfl, rfl⟩)

/-- The four ways an action goes: nothing happens, a send joins the
    channel, only the flags change (a cancellation keeps its flag), or the
    task receives the event at the head of the channel. -/
theorem step_cases (r : Recorder α) (a : Action α) :
    r.step toJson a = r ∨
      (∃ event, r.step toJson a = { r with queue := r.queue ++ [event] }) ∨
      (∃ cancelled running, (r.cancelled = true → cancelled = true) ∧
        r.step toJson a = { r with cancelled, running }) ∨
      ∃ now event rest, r.cancelled = false ∧ r.queue = event :: rest ∧
        r.step toJson a = { r with queue := rest }.receive toJson now event := by
  cases a with
  | send event =>
      dsimp only [step]
      split
      · exact Or.inr (Or.inl ⟨event, rfl⟩)
      · exact Or.inl rfl
  | shutdown => exact Or.inr (Or.inr (Or.inl ⟨true, r.running, fun _ => rfl, rfl⟩))
  | writerStep now =>
      -- past the time limit the select decides, with one case fewer
      have hselect : r.step toJson (.writerStep now) = r.select toJson now ∨
          ∃ cancelled running, (r.cancelled = true → cancelled = true) ∧
            r.step toJson (.writerStep now) = { r with cancelled, running } := by
        dsimp only [step, writerStep]
        split
        · split
          · split
            · exact Or.inr ⟨true, false, fun _ => rfl, rfl⟩
            · exact Or.inl rfl
          · exact Or.inl rfl
        · exact Or.inr ⟨r.cancelled, r.running, fun h => h, rfl⟩
      rcases hselect with hstep | hflags
      · rw [hstep]
        rcases select_cases toJson r now with h | h | ⟨event, rest, h⟩
        · exact Or.inl h
        · exact Or.inr (Or.inr (Or.inl h))
        · exact Or.inr (Or.inr (Or.inr ⟨now, event, rest, h⟩))
      · exact Or.inr (Or.inr (Or.inl hflags))

/-! ### What no action changes -/

theorem openTruncate_dirs {fs fs' : FileSystem} {path : Path} (h : fs.openTruncate path = some fs') :
    fs'.dirs = fs.dirs := by
  unfold FileSystem.openTruncate at h
  split at h
  · cases h
    rfl
  · cases h

/-- The directories, the path and the line limit, which the task never
    changes. -/
structure Frame (r r' : Recorder α) : Prop where
  dirs : r'.fs.dirs = r.fs.dirs
  basePath : r'.basePath = r.basePath
  maxLinesPerFile : r'.maxLinesPerFile = r.maxLinesPerFile

theorem Frame.trans {r r' r'' : Recorder α} (h : Frame r r') (h' : Frame r' r'') : Frame r r'' :=
  ⟨h'.dirs.trans h.dirs, h'.basePath.trans h.basePath, h'.maxLinesPerFile.trans h.maxLinesPerFile⟩

theorem frame_rotate (r : Recorder α) : Frame r r.rotate := by
  unfold rotate
  split
  · split
    · dsimp only
      split
      · rename_i fs hopen
        exact ⟨openTruncate_dirs hopen, rfl, rfl⟩
      · exact ⟨rfl, rfl, rfl⟩
    · exact ⟨rfl, rfl, rfl⟩
  · exact ⟨rfl, rfl, rfl⟩

theorem frame_countEvent (r : Recorder α) : Frame r r.countEvent := by
  unfold countEvent
  dsimp only
  split
  · split
    · exact ⟨rfl, rfl, rfl⟩
    · exact ⟨rfl, rfl, rfl⟩
  · exact ⟨rfl, rfl, rfl⟩

theorem frame_receive (r : Recorder α) (now : Nat) (event : α) : Frame r (r.receive toJson now event) := by
  unfold receive
  dsimp only
  split
  · exact ⟨rfl, rfl, rfl⟩
  · rename_i json _
    have hrot := frame_rotate ({ r with firstEventTime := r.firstEventTime.or (some now) }.writeLine json)
    exact Frame.trans ⟨hrot.dirs, hrot.basePath, hrot.maxLinesPerFile⟩ (frame_countEvent _)

theorem frame_step (r : Recorder α) (a : Action α) : Frame r (r.step toJson a) := by
  rcases step_cases toJson r a with h | ⟨event, h⟩ | ⟨cancelled, running, -, h⟩ |
      ⟨now, event, rest, -, -, h⟩ <;> rw [h]
  · exact ⟨rfl, rfl, rfl⟩
  · exact ⟨rfl, rfl, rfl⟩
  · exact ⟨rfl, rfl, rfl⟩
  · have hreceive := frame_receive toJson { r with queue := rest } now event
    exact ⟨hreceive.dirs, hreceive.basePath, hreceive.maxLinesPerFile⟩

theorem frame_run : ∀ (r : Recorder α) (actions : List (Action α)), Frame r (r.run toJson actions)
  | _, [] => ⟨rfl, rfl, rfl⟩
  | r, a :: actions => (frame_step toJson r a).trans (frame_run (r.step toJson a) actions)

/-! ### Rotation -/

theorem succ_mod_div_of_eq {n L : Nat} (hL : 0 < L) (h : n % L + 1 = L) :
    (n + 1) % L = 0 ∧ (n + 1) / L = n / L + 1 := by
  have hdm := Nat.div_add_mod n L
  have hn : n + 1 = L * (n / L + 1) := by
    rw [Nat.mul_add, Nat.mul_one]
    omega
  rw [hn, Nat.mul_mod_right, Nat.mul_div_cancel_left _ hL]
  exact ⟨rfl, rfl⟩

theorem succ_mod_div_of_lt {n L : Nat} (hL : 0 < L) (h : n % L + 1 < L) :
    (n + 1) % L = n % L + 1 ∧ (n + 1) / L = n / L := by
  have hdm := Nat.div_add_mod n L
  have hn : n + 1 = L * (n / L) + (n % L + 1) := by omega
  rw [hn, Nat.mul_add_mod, Nat.mod_eq_of_lt h, Nat.mul_add_div hL, Nat.div_eq_of_lt h]
  exact ⟨rfl, rfl⟩

/-- The file of the `index`-th group of lines: the path itself, then the
    rotated paths. -/
def rotatedPath (basePath : Path) (index : Nat) : Path :=
  if index = 0 then basePath else createRotatedPath basePath index

/-- With files of `L` lines, the task's count is the number of events
    written modulo `L`, and its file is the one their quotient names. -/
structure Rotating (L : Nat) (r : Recorder α) : Prop where
  maxLines : r.maxLinesPerFile = some L
  lineCount_eq : r.lineCount = r.eventCount % L
  fileIndex_eq : r.fileIndex = r.eventCount / L
  current_eq : r.current = rotatedPath r.basePath (r.eventCount / L)

theorem rotate_eventCount (r : Recorder α) : r.rotate.eventCount = r.eventCount := by
  unfold rotate
  split
  · split
    · dsimp only
      split
      · rfl
      · rfl
    · rfl
  · rfl

/-- Counting an event changes only the count and, at the limit, the flags. -/
theorem countEvent_eq (r : Recorder α) :
    ∃ cancelled running, r.countEvent =
      { r with eventCount := r.eventCount + 1, cancelled, running } := by
  unfold countEvent
  dsimp only
  split
  · split
    · exact ⟨true, false, rfl⟩
    · exact ⟨r.cancelled, r.running, rfl⟩
  · exact ⟨r.cancelled, r.running, rfl⟩

section Rotation

variable {L : Nat} (hL : 0 < L)
include hL

/-- The rotation check after the line of the `n`-th event, `n` the count so
    far: the count and the file are in step again once `n + 1` events are
    counted, when the next rotated file opens. -/
theorem rotating_rotate {r : Recorder α} (hmax : r.maxLinesPerFile = some L)
    (hline : r.lineCount = r.eventCount % L + 1) (hindex : r.fileIndex = r.eventCount / L)
    (hcurrent : r.current = rotatedPath r.basePath (r.eventCount / L))
    (hopen : ∀ i, 0 < i → r.fs.canCreate (createRotatedPath r.basePath i) = true) :
    Rotating L { r.rotate with eventCount := r.eventCount + 1 } := by
  have hmod := Nat.mod_lt r.eventCount hL
  unfold rotate
  rw [hmax]
  dsimp only
  by_cases hfull : r.eventCount % L + 1 < L
  · -- the file has room: count and index move with the events
    obtain ⟨hmod', hdiv'⟩ := succ_mod_div_of_lt hL hfull
    rw [if_neg (by omega)]
    refine ⟨hmax, ?_, ?_, ?_⟩
    · show r.lineCount = (r.eventCount + 1) % L
      omega
    · show r.fileIndex = (r.eventCount + 1) / L
      omega
    · show r.current = rotatedPath r.basePath ((r.eventCount + 1) / L)
      rw [hdiv']
      exact hcurrent
  · -- the file is full: the next one opens
    have heq : r.eventCount % L + 1 = L := by omega
    obtain ⟨hmod', hdiv'⟩ := succ_mod_div_of_eq hL heq
    rw [if_pos (by omega)]
    obtain ⟨fs', hsome⟩ : ∃ fs', r.fs.openTruncate (createRotatedPath r.basePath (r.fileIndex + 1)) =
        some fs' := by
      unfold FileSystem.openTruncate
      rw [if_pos (hopen (r.fileIndex + 1) (Nat.succ_pos _))]
      exact ⟨_, rfl⟩
    simp only [hsome]
    refine ⟨rfl, ?_, ?_, ?_⟩
    · exact hmod'.symm
    · show r.fileIndex + 1 = (r.eventCount + 1) / L
      omega
    · show createRotatedPath r.basePath (r.fileIndex + 1) =
        rotatedPath r.basePath ((r.eventCount + 1) / L)
      rw [hdiv', ← hindex, rotatedPath, if_neg (Nat.succ_ne_zero _)]

/-- Receiving an event keeps the count and the file in step, when the next
    rotated file opens. -/
theorem rotating_receive {r : Recorder α} (h : Rotating L r)
    (hopen : ∀ i, 0 < i → r.fs.canCreate (createRotatedPath r.basePath i) = true)
    (now : Nat) (event : α) : Rotating L (r.receive toJson now event) := by
  obtain ⟨hmax, hline, hindex, hcurrent⟩ := h
  unfold receive
  dsimp only
  split
  · exact ⟨hmax, hline, hindex, hcurrent⟩
  · rename_i json _
    -- the line goes to the current file, then the rotation, then the count
    have hrot := rotating_rotate hL (r := { r with firstEventTime := r.firstEventTime.or (some now) }.writeLine json)
      hmax (by show r.lineCount + 1 = r.eventCount % L + 1; omega) hindex hcurrent hopen
    obtain ⟨cancelled, running, hc⟩ :=
      countEvent_eq ({ r with firstEventTime := r.firstEventTime.or (some now) }.writeLine json).rotate
    rw [hc, rotate_eventCount]
    exact ⟨hrot.maxLines, hrot.lineCount_eq, hrot.fileIndex_eq, hrot.current_eq⟩

theorem rotating_step {r : Recorder α} (h : Rotating L r)
    (hopen : ∀ i, 0 < i → r.fs.canCreate (createRotatedPath r.basePath i) = true)
    (a : Action α) : Rotating L (r.step toJson a) := by
  obtain ⟨hmax, hline, hindex, hcurrent⟩ := h
  rcases step_cases toJson r a with hstep | ⟨event, hstep⟩ | ⟨cancelled, running, -, hstep⟩ |
      ⟨now, event, rest, -, -, hstep⟩ <;> rw [hstep]
  · exact ⟨hmax, hline, hindex, hcurrent⟩
  · exact ⟨hmax, hline, hindex, hcurrent⟩
  · exact ⟨hmax, hline, hindex, hcurrent⟩
  · exact rotating_receive toJson hL (r := { r with queue := rest }) ⟨hmax, hline, hindex, hcurrent⟩
      hopen now event

/-- Over any schedule in which every rotated file can be created, the
    task's count and file follow the number of events written: the `k`-th
    line goes to the file of group `k / L`, each file takes `L` lines before
    the next opens, and the last takes the rest. -/
theorem rotating_run :
    ∀ (r : Recorder α), Rotating L r →
      (∀ i, 0 < i → r.fs.canCreate (createRotatedPath r.basePath i) = true) →
      ∀ actions : List (Action α), Rotating L (r.run toJson actions)
  | r, h, hopen, [] => h
  | r, h, hopen, a :: actions => by
      have hframe := frame_step toJson r a
      -- creating a file reads only the directories, which the action kept
      have hopen' : ∀ i, 0 < i →
          (r.step toJson a).fs.canCreate (createRotatedPath (r.step toJson a).basePath i) = true := by
        intro i hi
        unfold FileSystem.canCreate
        rw [hframe.dirs, hframe.basePath]
        exact hopen i hi
      exact rotating_run _ (rotating_step toJson hL h hopen a) hopen' actions

end Rotation

theorem rotating_new {fs : FileSystem} {outputPath : Path} {L : Nat} {maxCount maxTime : Option Nat}
    {now : Nat} {r : Recorder α} (h : new fs outputPath (some L) maxCount maxTime now = some r) :
    Rotating L r := by
  unfold new at h
  obtain ⟨fs', _, hr⟩ := Option.map_eq_some_iff.mp h
  cases hr
  exact ⟨rfl, (Nat.zero_mod L).symm, (Nat.zero_div L).symm, by rw [Nat.zero_div]; rfl⟩

/-- A recorder made with files of `L` lines keeps its count and its file in
    step with the events written, over any schedule in which every rotated
    file can be created. -/
theorem rotating_of_new {fs : FileSystem} {outputPath : Path} {L : Nat} (hL : 0 < L)
    {maxCount maxTime : Option Nat} {now : Nat} {r : Recorder α}
    (h : new fs outputPath (some L) maxCount maxTime now = some r)
    (hopen : ∀ i, 0 < i → r.fs.canCreate (createRotatedPath r.basePath i) = true)
    (actions : List (Action α)) : Rotating L (r.run toJson actions) :=
  rotating_run toJson hL r (rotating_new h) hopen actions

/-! ### Cancellation -/

/-- A cancelled recorder writes nothing more: no action changes its files or
    its count, and it stays cancelled. -/
theorem step_of_cancelled {r : Recorder α} (h : r.cancelled = true) (a : Action α) :
    (r.step toJson a).cancelled = true ∧ (r.step toJson a).fs = r.fs ∧
      (r.step toJson a).eventCount = r.eventCount := by
  -- the biased select sees the cancellation before the channel
  rcases step_cases toJson r a with hstep | ⟨event, hstep⟩ | ⟨cancelled, running, hkeep, hstep⟩ |
      ⟨now, event, rest, hc, -, -⟩
  · rw [hstep]
    exact ⟨h, rfl, rfl⟩
  · rw [hstep]
    exact ⟨h, rfl, rfl⟩
  · rw [hstep]
    exact ⟨hkeep h, rfl, rfl⟩
  · rw [h] at hc
    cases hc

/-- Events still in the channel at cancellation are never written. -/
theorem run_of_cancelled :
    ∀ (r : Recorder α), r.cancelled = true → ∀ actions : List (Action α),
      (r.run toJson actions).fs = r.fs ∧ (r.run toJson actions).eventCount = r.eventCount
  | r, _, [] => ⟨rfl, rfl⟩
  | r, h, a :: actions => by
      obtain ⟨hc, hfs, hcount⟩ := step_of_cancelled toJson h a
      obtain ⟨hfs', hcount'⟩ := run_of_cancelled (r.step toJson a) hc actions
      exact ⟨hfs'.trans hfs, hcount'.trans hcount⟩

end Recorder

/-! ### Reading back -/

/-- `Recorder::send_events` on the lines of a file, with `timed` false and no
    time limit: the entries of the lines that parse, skipping blank lines,
    until `max_count` are sent. `none` is the error of a missing file. -/
def sendEvents {α : Type} (fromJson : String → Except String (RecordEntry α)) (fs : FileSystem)
    (filename : Path) (maxCount : Option Nat) : Option (List (RecordEntry α)) :=
  (fs.files filename).map fun lines => go lines []
where
  go : List String → List (RecordEntry α) → List (RecordEntry α)
    | [], sent => sent
    | line :: lines, sent =>
        if maxCount.any (sent.length ≥ ·) then sent
        else if line.trimAscii.isEmpty then go lines sent
        else
          match fromJson line with
          | .ok record => go lines (sent ++ [record])
          | .error _ => go lines sent

section ReadBack

variable {α : Type} (fromJson : String → Except String (RecordEntry α)) (json : RecordEntry α → String)

/-- Lines that are not blank and parse back to their entries are read back
    as those entries, in order. -/
theorem sendEvents_go_of_lines (hround : ∀ e, fromJson (json e) = .ok e)
    (hblank : ∀ e, (json e).trimAscii.isEmpty = false) :
    ∀ entries sent : List (RecordEntry α),
      sendEvents.go fromJson none (entries.map json) sent = sent ++ entries
  | [], sent => (List.append_nil sent).symm
  | e :: entries, sent => by
      rw [List.map_cons, sendEvents.go]
      simp only [Option.any_none, Bool.false_eq_true, if_false, hblank e, hround e]
      rw [sendEvents_go_of_lines hround hblank entries, List.append_assoc, List.singleton_append]

theorem sendEvents_of_lines (hround : ∀ e, fromJson (json e) = .ok e)
    (hblank : ∀ e, (json e).trimAscii.isEmpty = false) {fs : FileSystem} {filename : Path}
    {entries : List (RecordEntry α)} (h : fs.files filename = some (entries.map json)) :
    sendEvents fromJson fs filename none = some entries := by
  unfold sendEvents
  rw [h, Option.map_some, sendEvents_go_of_lines fromJson json hround hblank, List.nil_append]

end ReadBack

/-! ### A rotation into a directory -/

/-- The path `out.d/events`, whose directory exists, with files of one line:
    the first rotated file is `out1.d/events`, in a directory that does not
    exist. Two events are sent, received and written before `shutdown`, and
    both are in `out.d/events`: the rotation never happens, and the index
    moves on to 2. -/
theorem recorder_rotates_into_directory :
    let fs : FileSystem := ⟨fun d => decide (d = "out.d".toList), fun _ => none⟩
    let path : Path := "out.d/events".toList
    let toJson : RecordEntry Nat → Except String String :=
      fun e => .ok (toString e.timestamp ++ " " ++ toString e.event)
    let actions : List (Action Nat) :=
      [.send 7, .send 8, .writerStep 1, .writerStep 2, .shutdown, .writerStep 3]
    fs.dirs (parent path) = true ∧ createRotatedPath path 1 = "out1.d/events".toList ∧
      (Recorder.new fs path (some 1) none none 0).map (fun r =>
        let r := r.run toJson actions
        (r.fs.files path, r.fs.files (createRotatedPath path 1), r.eventCount, r.fileIndex)) =
        some (some ["1 7", "2 8"], none, 2, 2) := by
  refine ⟨by decide, by decide, by decide⟩

end Dynamo
