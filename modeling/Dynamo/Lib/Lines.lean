import Mathlib.Data.List.Basic

/-!
# The Lines of a Stream

A stream read line by line is a run of lines, each ended by a separator,
followed by a tail that no separator ends yet. `IsLines sep s bodies tail`
says that `s` is made so of the line bodies `bodies` and of `tail`. Every
stream has such a decomposition, the one `split` computes
(`isLines_split`), and only one (`IsLines.unique`).

The decomposition is what a reader sees that keeps the unfinished tail in a
buffer. When more of the stream arrives, its new lines are the lines of the
old tail followed by the new piece (`IsLines.append`). This is why the lines of
a stream do not depend on how it was cut into pieces.

Nothing here names a program.

## Main definitions

* `Lines.join`: Line bodies, each followed by the separator, then a tail.
* `Lines.IsLines`: A stream is so made of its lines and its tail.
* `Lines.split`: The lines and the tail of a stream.

## Theorems

* `Lines.isLines_split`: `split` decomposes every stream.
* `Lines.IsLines.unique`: A stream has one decomposition.
* `Lines.split_eq`: Every decomposition is the one `split` computes.
* `Lines.IsLines.append`: The lines of a stream with more appended.
* `Lines.intercalate_append_singleton`: Joining lines with one more.
-/

namespace Lines

variable {α : Type} (sep : α)

/-- The line bodies, each followed by the separator, then the tail. -/
def join (bodies : List (List α)) (tail : List α) : List α :=
  bodies.flatMap (· ++ [sep]) ++ tail

@[simp]
theorem join_nil (tail : List α) : join sep [] tail = tail := rfl

@[simp]
theorem join_cons (body : List α) (bodies : List (List α)) (tail : List α) :
    join sep (body :: bodies) tail = body ++ sep :: join sep bodies tail := by
  rw [join, List.flatMap_cons, List.append_assoc, List.append_assoc, join, List.singleton_append]

theorem join_append (bodies bodies' : List (List α)) (tail : List α) :
    join sep (bodies ++ bodies') tail = bodies.flatMap (· ++ [sep]) ++ join sep bodies' tail := by
  rw [join, List.flatMap_append, List.append_assoc, join]

/-- Each line takes at least its separator. -/
theorem length_le_length_join (bodies : List (List α)) (tail : List α) :
    bodies.length ≤ (join sep bodies tail).length := by
  induction bodies with
  | nil => exact Nat.zero_le _
  | cons body bodies ih =>
      rw [join_cons, List.length_append, List.length_cons, List.length_cons]
      omega

/-- Joining with a separator, one more piece after a non-empty list. -/
theorem intercalate_append_singleton (sep v : List α) :
    ∀ {l : List (List α)}, l ≠ [] → sep.intercalate (l ++ [v]) = sep.intercalate l ++ sep ++ v
  | [], h => absurd rfl h
  | [a], _ => by
      rw [List.singleton_append, List.intercalate_cons_cons, List.intercalate_singleton,
        List.intercalate_singleton]
  | a :: b :: l, _ => by
      have ih := intercalate_append_singleton sep v (List.cons_ne_nil b l)
      rw [List.cons_append] at ih
      simp only [List.cons_append, List.intercalate_cons_cons, ih, List.append_assoc]

/-- `s` is the line bodies `bodies`, each followed by the separator, and then
    `tail`; no body and not the tail holds the separator. -/
structure IsLines (s : List α) (bodies : List (List α)) (tail : List α) : Prop where
  eq : s = join sep bodies tail
  bodies_free : ∀ b ∈ bodies, sep ∉ b
  tail_free : sep ∉ tail

variable {sep}

theorem IsLines.of_free {tail : List α} (h : sep ∉ tail) : IsLines sep tail [] tail :=
  ⟨rfl, fun _ hb => absurd hb List.not_mem_nil, h⟩

/-- A decomposition with a first line. -/
theorem IsLines.cons {body tail : List α} {bodies : List (List α)} {s : List α}
    (hbody : sep ∉ body) (h : IsLines sep s bodies tail) :
    IsLines sep (body ++ sep :: s) (body :: bodies) tail := by
  refine ⟨?_, ?_, h.tail_free⟩
  · rw [join_cons, ← h.eq]
  · intro b hb
    rcases List.mem_cons.mp hb with rfl | hb
    · exact hbody
    · exact h.bodies_free b hb

/-- Two bodies free of the separator that end at its first occurrence are
    the same. -/
theorem eq_of_append_sep {l l' x y : List α} (hl : sep ∉ l) (hl' : sep ∉ l')
    (h : l ++ sep :: x = l' ++ sep :: y) : l = l' ∧ x = y := by
  induction l generalizing l' with
  | nil =>
      cases l' with
      | nil => exact ⟨rfl, (List.cons.inj h).2⟩
      | cons a l' =>
          -- the stream starts with the separator, so `l'` cannot start it
          have ha : sep = a := (List.cons.inj h).1
          exact absurd (ha ▸ List.mem_cons_self) hl'
  | cons a l ih =>
      cases l' with
      | nil =>
          have ha : a = sep := (List.cons.inj h).1
          exact absurd (ha ▸ List.mem_cons_self) hl
      | cons a' l' =>
          obtain ⟨rfl, htail⟩ := List.cons.inj h
          have hrec := ih (fun hm => hl (List.mem_cons_of_mem a hm))
            (fun hm => hl' (List.mem_cons_of_mem a hm)) htail
          exact ⟨by rw [hrec.1], hrec.2⟩

/-- A stream has one decomposition into lines and a tail. -/
theorem IsLines.unique {s tail tail' : List α} {bodies bodies' : List (List α)}
    (h : IsLines sep s bodies tail) (h' : IsLines sep s bodies' tail') :
    bodies = bodies' ∧ tail = tail' := by
  induction bodies generalizing s bodies' with
  | nil =>
      cases bodies' with
      | nil => exact ⟨rfl, h.eq.symm.trans h'.eq⟩
      | cons b' bs' =>
          -- the tail holds no separator, but the other decomposition puts one in it
          have hs : tail = b' ++ sep :: join sep bs' tail' := by
            rw [← join_cons, ← h'.eq, h.eq, join_nil]
          exact absurd (hs ▸ List.mem_append_right b' List.mem_cons_self) h.tail_free
  | cons b bs ih =>
      cases bodies' with
      | nil =>
          have hs : tail' = b ++ sep :: join sep bs tail := by
            rw [← join_cons, ← h.eq, h'.eq, join_nil]
          exact absurd (hs ▸ List.mem_append_right b List.mem_cons_self) h'.tail_free
      | cons b' bs' =>
          have hs : b ++ sep :: join sep bs tail = b' ++ sep :: join sep bs' tail' := by
            rw [← join_cons, ← join_cons, ← h.eq, ← h'.eq]
          obtain ⟨rfl, hrest⟩ := eq_of_append_sep (h.bodies_free b List.mem_cons_self)
            (h'.bodies_free b' List.mem_cons_self) hs
          have hbs : IsLines sep (join sep bs tail) bs tail :=
            ⟨rfl, fun x hx => h.bodies_free x (List.mem_cons_of_mem b hx), h.tail_free⟩
          have hbs' : IsLines sep (join sep bs tail) bs' tail' :=
            ⟨hrest, fun x hx => h'.bodies_free x (List.mem_cons_of_mem b hx), h'.tail_free⟩
          obtain ⟨rfl, rfl⟩ := ih hbs hbs'
          exact ⟨rfl, rfl⟩

/-- The lines of a stream with more appended are its own lines and then the
    lines of its tail with the new piece. -/
theorem IsLines.append {s tail tail' more : List α} {bodies bodies' : List (List α)}
    (h : IsLines sep s bodies tail) (h' : IsLines sep (tail ++ more) bodies' tail') :
    IsLines sep (s ++ more) (bodies ++ bodies') tail' := by
  refine ⟨?_, ?_, h'.tail_free⟩
  · rw [h.eq, join, List.append_assoc, h'.eq, join_append, join]
  · intro b hb
    rcases List.mem_append.mp hb with hb | hb
    · exact h.bodies_free b hb
    · exact h'.bodies_free b hb

section Split

variable [DecidableEq α] (sep)

/-- The line bodies of a stream and its unfinished tail. -/
def split : List α → List (List α) × List α
  | [] => ([], [])
  | a :: s =>
    let r := split s
    if a = sep then ([] :: r.1, r.2)
    else
      match r.1 with
      | [] => ([], a :: r.2)
      | l :: ls => ((a :: l) :: ls, r.2)

/-- `split` decomposes every stream. -/
theorem isLines_split : ∀ s : List α, IsLines sep s (split sep s).1 (split sep s).2
  | [] => IsLines.of_free List.not_mem_nil
  | a :: s => by
      have ih := isLines_split s
      rw [split]
      by_cases ha : a = sep
      · -- an empty line ends at the head
        rw [if_pos ha, ha]
        exact IsLines.cons List.not_mem_nil ih
      · rw [if_neg ha]
        split
        · -- no separator in `s`: the head joins the tail
          rename_i hnil
          rw [hnil] at ih
          have htail : s = (split sep s).2 := ih.eq
          refine htail ▸ IsLines.of_free ?_
          rw [List.mem_cons, not_or]
          exact ⟨Ne.symm ha, htail ▸ ih.tail_free⟩
        · -- the head joins the first line
          rename_i l ls hcons
          rw [hcons] at ih
          have hfirst : IsLines sep (join sep ls (split sep s).2) ls (split sep s).2 :=
            ⟨rfl, fun b hb => ih.bodies_free b (List.mem_cons_of_mem l hb), ih.tail_free⟩
          have hs : a :: s = (a :: l) ++ sep :: join sep ls (split sep s).2 := by
            rw [List.cons_append, ← join_cons, ← ih.eq]
          rw [hs]
          refine IsLines.cons ?_ hfirst
          rw [List.mem_cons, not_or]
          exact ⟨Ne.symm ha, ih.bodies_free l List.mem_cons_self⟩

variable {sep}

/-- Every decomposition of a stream is the one `split` computes. -/
theorem split_eq {s tail : List α} {bodies : List (List α)} (h : IsLines sep s bodies tail) :
    split sep s = (bodies, tail) := by
  obtain ⟨hb, ht⟩ := (isLines_split sep s).unique h
  rw [← hb, ← ht]

end Split

end Lines
