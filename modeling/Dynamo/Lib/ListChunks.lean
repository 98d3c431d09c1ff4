import Mathlib.Data.List.Basic

/-!
# Exact Chunks and Threaded Maps

Two list combinators, stated for arbitrary element types, that sequences of
fixed-size hashed blocks are built from.

`chunksExact n l` is the iterator `chunks_exact(n)`: the consecutive pieces of
`l` that have length exactly `n`, in order. Whatever is left at the end, fewer
than `n` elements, is `chunksRem n l`, the iterator's `remainder()`. The
definition reads the pieces off by index, `take n` after `drop (i * n)`, so
every question about one chunk is a question about `take` and `drop`.

The lemma that carries the weight is `chunksExact_append`: chunking a
concatenation is chunking the left part and then chunking what the left part
left over, joined to the right part. Splitting a list at any point therefore
commits to the same chunks as splitting it at once, which is exactly the
question an incremental builder of blocks has to answer.

`threadMap f g s l` maps over `l` while threading a state: the image of an
element is computed from the state the previous image left (`g` of that
image), starting from `s`. A chain of hashes in which each block's hash
depends on its parent's has this shape. `threadState` is the state left at
the end. The lemmas say how the map splits over an append, that it commutes
with `take`, and that a projection which ignores the state sees a plain map.

## Main definitions

* `List.chunksExact`: The consecutive pieces of length exactly `n`.
* `List.chunksRem`: The tail too short to form a piece.
* `List.threadMap`: A map that threads a state from each image to the next.
* `List.threadState`: The state a threaded map leaves at the end.

## Theorems

* `List.length_chunksExact`: There are `l.length / n` pieces.
* `List.length_of_mem_chunksExact`: Every piece has length `n`.
* `List.flatten_chunksExact_append_chunksRem`: The pieces and the tail
  rebuild the list.
* `List.length_chunksRem_lt`: The tail is shorter than a piece.
* `List.chunksExact_append`: Chunking an append goes through the left
  part's tail.
* `List.chunksExact_take`: Chunking a prefix of whole pieces is a prefix of
  the chunks.
* `List.threadMap_append`: A threaded map splits over an append.
* `List.threadMap_take`: A threaded map commutes with `take`.
* `List.map_threadMap`: A projection that ignores the state sees a plain map.
-/

namespace List

variable {α β σ : Type*}

/-- The consecutive pieces of `l` of length exactly `n`, as `chunks_exact(n)`
    yields them. A tail shorter than `n` is not a piece; for `n = 0` there are
    none. -/
def chunksExact (n : Nat) (l : List α) : List (List α) :=
  (range (l.length / n)).map fun i => (l.drop (i * n)).take n

/-- The tail `chunks_exact(n).remainder()` leaves: what follows the last whole
    piece. -/
def chunksRem (n : Nat) (l : List α) : List α :=
  l.drop (l.length / n * n)

@[simp]
theorem length_chunksExact (n : Nat) (l : List α) :
    (chunksExact n l).length = l.length / n := by
  simp only [chunksExact, length_map, length_range]

theorem getElem_chunksExact (n : Nat) (l : List α) (i : Nat)
    (h : i < (chunksExact n l).length) :
    (chunksExact n l)[i] = (l.drop (i * n)).take n := by
  simp only [chunksExact, getElem_map, getElem_range]

theorem length_of_mem_chunksExact {n : Nat} {l c : List α} (h : c ∈ chunksExact n l) :
    c.length = n := by
  simp only [chunksExact, mem_map, mem_range] at h
  obtain ⟨i, hi, rfl⟩ := h
  -- Piece `i` ends at `(i + 1) * n`, inside the whole pieces.
  have hend : (i + 1) * n ≤ l.length := by
    calc (i + 1) * n ≤ l.length / n * n := Nat.mul_le_mul_right n hi
      _ ≤ l.length := Nat.div_mul_le_self l.length n
  simp only [length_take, length_drop]
  rw [Nat.add_mul, Nat.one_mul] at hend
  omega

/-- The first `k` pieces taken by index flatten to the first `k * n` elements. -/
theorem flatten_map_range_take_drop (n : Nat) (l : List α) (k : Nat) :
    ((range k).map fun i => (l.drop (i * n)).take n).flatten = l.take (k * n) := by
  induction k with
  | zero => simp only [range_zero, map_nil, flatten_nil, Nat.zero_mul, take_zero]
  | succ k ih =>
      rw [range_succ, map_append, flatten_append, ih, map_singleton, flatten_singleton,
        Nat.succ_mul, take_add]

theorem flatten_chunksExact (n : Nat) (l : List α) :
    (chunksExact n l).flatten = l.take (l.length / n * n) :=
  flatten_map_range_take_drop n l (l.length / n)

@[simp]
theorem flatten_chunksExact_append_chunksRem (n : Nat) (l : List α) :
    (chunksExact n l).flatten ++ chunksRem n l = l := by
  rw [flatten_chunksExact, chunksRem, take_append_drop]

theorem length_chunksRem (n : Nat) (l : List α) :
    (chunksRem n l).length = l.length % n := by
  simp only [chunksRem, length_drop]
  have h := Nat.mod_add_div l.length n
  rw [Nat.mul_comm] at h
  omega

theorem length_chunksRem_lt {n : Nat} (hn : 0 < n) (l : List α) :
    (chunksRem n l).length < n := by
  rw [length_chunksRem]
  exact Nat.mod_lt _ hn

/-- A list shorter than `n` has no whole piece. -/
theorem chunksExact_of_length_lt {n : Nat} {l : List α} (h : l.length < n) :
    chunksExact n l = [] := by
  rw [chunksExact, Nat.div_eq_of_lt h, range_zero, map_nil]

/-- A list of length exactly `n` is one piece. -/
theorem chunksExact_of_length_eq {n : Nat} {l : List α} (hn : 0 < n) (h : l.length = n) :
    chunksExact n l = [l] := by
  rw [chunksExact, h, Nat.div_self hn, range_one, map_singleton, Nat.zero_mul, drop_zero,
    ← h, take_length]

theorem chunksRem_of_length_lt {n : Nat} {l : List α} (h : l.length < n) :
    chunksRem n l = l := by
  rw [chunksRem, Nat.div_eq_of_lt h, Nat.zero_mul, drop_zero]

theorem chunksRem_of_length_eq {n : Nat} {l : List α} (hn : 0 < n) (h : l.length = n) :
    chunksRem n l = [] := by
  rw [chunksRem, h, Nat.div_self hn, Nat.one_mul, ← h, drop_length]

/-- Chunking a concatenation whose left part is a whole number of pieces
    chunks the two parts apart. -/
theorem chunksExact_append_of_length_eq_mul {n k : Nat} (hn : 0 < n) {a b : List α}
    (ha : a.length = k * n) :
    chunksExact n (a ++ b) = chunksExact n a ++ chunksExact n b := by
  have hka : a.length / n = k := by rw [ha, Nat.mul_div_cancel k hn]
  have hlen : (a ++ b).length / n = k + b.length / n := by
    rw [length_append, ha, Nat.mul_comm k n, Nat.mul_add_div hn]
  rw [chunksExact, chunksExact, chunksExact, hlen, hka, range_add, map_append, map_map]
  congr 1
  · -- The pieces of the left part never reach into the right part.
    apply map_congr_left
    intro i hi
    rw [mem_range] at hi
    have hin : i * n + n ≤ a.length := by
      rw [ha, ← Nat.succ_mul]
      exact Nat.mul_le_mul_right n hi
    rw [drop_append_of_le_length (by omega),
      take_append_of_le_length (by simp only [length_drop]; omega)]
  · apply map_congr_left
    intro j _
    simp only [Function.comp_apply]
    rw [Nat.add_mul, ← ha, ← drop_drop, drop_left]

/-- Chunking an append: the left part's pieces, then the pieces of its tail
    joined to the right part. -/
theorem chunksExact_append {n : Nat} (hn : 0 < n) (l r : List α) :
    chunksExact n (l ++ r) = chunksExact n l ++ chunksExact n (chunksRem n l ++ r) := by
  have hsplit : l = l.take (l.length / n * n) ++ chunksRem n l := by
    rw [chunksRem, take_append_drop]
  have hwhole : (l.take (l.length / n * n)).length = l.length / n * n := by
    rw [length_take]
    exact Nat.min_eq_left (Nat.div_mul_le_self l.length n)
  -- The tail is too short to hold a piece, so `l` has the pieces of its prefix.
  have hl : chunksExact n l = chunksExact n (l.take (l.length / n * n)) := by
    conv_lhs => rw [hsplit]
    rw [chunksExact_append_of_length_eq_mul hn hwhole,
      chunksExact_of_length_lt (length_chunksRem_lt hn l), append_nil]
  calc chunksExact n (l ++ r)
      = chunksExact n (l.take (l.length / n * n) ++ (chunksRem n l ++ r)) := by
        conv_lhs => rw [hsplit]
        rw [append_assoc]
    _ = chunksExact n (l.take (l.length / n * n)) ++ chunksExact n (chunksRem n l ++ r) :=
        chunksExact_append_of_length_eq_mul hn hwhole
    _ = chunksExact n l ++ chunksExact n (chunksRem n l ++ r) := by rw [hl]

/-- The tail of a concatenation whose left part is a whole number of pieces
    is the tail of the right part. -/
theorem chunksRem_append_of_length_eq_mul {n k : Nat} (hn : 0 < n) {a b : List α}
    (ha : a.length = k * n) :
    chunksRem n (a ++ b) = chunksRem n b := by
  have hlen : (a ++ b).length / n * n = k * n + b.length / n * n := by
    rw [length_append, ha, Nat.mul_comm k n, Nat.mul_add_div hn, Nat.add_mul, Nat.mul_comm n k]
  rw [chunksRem, chunksRem, hlen, ← drop_drop, ← ha, drop_left]

/-- The tail of an append is the tail of the left part's tail joined to the
    right part. -/
theorem chunksRem_append {n : Nat} (hn : 0 < n) (l r : List α) :
    chunksRem n (l ++ r) = chunksRem n (chunksRem n l ++ r) := by
  have hsplit : l = l.take (l.length / n * n) ++ chunksRem n l := by
    rw [chunksRem, take_append_drop]
  have hwhole : (l.take (l.length / n * n)).length = l.length / n * n := by
    rw [length_take]
    exact Nat.min_eq_left (Nat.div_mul_le_self l.length n)
  conv_lhs => rw [hsplit, append_assoc]
  exact chunksRem_append_of_length_eq_mul hn hwhole

/-- Chunking a prefix of `k` whole pieces gives the first `k` pieces. -/
theorem chunksExact_take {n k : Nat} (hn : 0 < n) {l : List α} (hk : k ≤ l.length / n) :
    chunksExact n (l.take (k * n)) = (chunksExact n l).take k := by
  have hkn : k * n ≤ l.length :=
    Nat.le_trans (Nat.mul_le_mul_right n hk) (Nat.div_mul_le_self l.length n)
  have hpre : (l.take (k * n)).length = k * n := by
    rw [length_take]
    exact Nat.min_eq_left hkn
  have hcount : (chunksExact n (l.take (k * n))).length = k := by
    rw [length_chunksExact, hpre, Nat.mul_div_cancel k hn]
  conv_rhs => rw [← take_append_drop (k * n) l, chunksExact_append_of_length_eq_mul hn hpre]
  exact (take_left' hcount).symm

/-- Map `l` threading a state: the image of each element is computed from the
    state the previous image left, `g` of that image, beginning with `s`. -/
def threadMap (f : σ → α → β) (g : β → σ) : σ → List α → List β
  | _, [] => []
  | s, a :: l => f s a :: threadMap f g (g (f s a)) l

/-- The state a threaded map leaves after its last element. -/
def threadState (f : σ → α → β) (g : β → σ) : σ → List α → σ
  | s, [] => s
  | s, a :: l => threadState f g (g (f s a)) l

section Thread

variable (f : σ → α → β) (g : β → σ)

@[simp]
theorem threadMap_nil (s : σ) : threadMap f g s [] = [] := rfl

@[simp]
theorem threadMap_cons (s : σ) (a : α) (l : List α) :
    threadMap f g s (a :: l) = f s a :: threadMap f g (g (f s a)) l := rfl

@[simp]
theorem threadState_nil (s : σ) : threadState f g s [] = s := rfl

@[simp]
theorem threadState_cons (s : σ) (a : α) (l : List α) :
    threadState f g s (a :: l) = threadState f g (g (f s a)) l := rfl

@[simp]
theorem length_threadMap (s : σ) (l : List α) : (threadMap f g s l).length = l.length := by
  induction l generalizing s with
  | nil => rfl
  | cons a l ih => simp only [threadMap_cons, length_cons, ih]

theorem threadMap_append (s : σ) (l₁ l₂ : List α) :
    threadMap f g s (l₁ ++ l₂) = threadMap f g s l₁ ++ threadMap f g (threadState f g s l₁) l₂ := by
  induction l₁ generalizing s with
  | nil => rfl
  | cons a l ih => simp only [cons_append, threadMap_cons, threadState_cons, ih]

theorem threadState_append (s : σ) (l₁ l₂ : List α) :
    threadState f g s (l₁ ++ l₂) = threadState f g (threadState f g s l₁) l₂ := by
  induction l₁ generalizing s with
  | nil => rfl
  | cons a l ih => simp only [cons_append, threadState_cons, ih]

theorem threadMap_take (s : σ) (l : List α) (k : Nat) :
    (threadMap f g s l).take k = threadMap f g s (l.take k) := by
  induction l generalizing s k with
  | nil => simp only [threadMap_nil, take_nil]
  | cons a l ih =>
      cases k with
      | zero => simp only [take_zero, threadMap_nil]
      | succ k => simp only [threadMap_cons, take_succ_cons, ih]

/-- The state left at the end is `g` of the last image, or the initial state
    when there is none. -/
theorem threadState_eq_getLast? (s : σ) (l : List α) :
    threadState f g s l = ((threadMap f g s l).getLast?.map g).getD s := by
  induction l generalizing s with
  | nil => rfl
  | cons a l ih =>
      rw [threadState_cons, ih, threadMap_cons]
      -- Past the first element the last image exists, so the fallback is unused.
      cases l with
      | nil => rfl
      | cons b l => simp only [threadMap_cons, getLast?_cons, Option.map_some,
          Option.getD_some]

/-- A projection of the images that does not look at the threaded state sees
    a plain map. -/
theorem map_threadMap {γ : Type*} (h : β → γ) (k : α → γ) (hk : ∀ s a, h (f s a) = k a)
    (s : σ) (l : List α) : (threadMap f g s l).map h = l.map k := by
  induction l generalizing s with
  | nil => rfl
  | cons a l ih => simp only [threadMap_cons, map_cons, hk, ih]

end Thread

end List
