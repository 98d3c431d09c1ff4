import Mathlib.Data.List.Infix

/-!
# Finding a Pattern in a Sliding Window

A program that looks for a pattern in a stream of text does not keep the
whole text. It keeps a window, the last `m` elements of what it has seen, adds
each new piece to the window, searches the window, and trims it back to `m`.

`findFirst` is the search, the index of the first occurrence of a pattern, and
`findFirst_isSome_iff` says it finds one exactly when the pattern is an
infix. `keepLast m` is the trimming: trimming after every piece keeps the
same window as trimming once at the end (`keepLast_append_keepLast`).

A window of `m` is wide enough for a pattern of at most `m` elements, as long
as the pattern did not already occur in the text before the new piece: an
occurrence in the whole text then ends in the new piece and so starts in the
window (`infix_keepLast_append_iff`).

Nothing here names a program.

## Main definitions

* `Search.findFirst`: The index of the first occurrence of a pattern.
* `Search.keepLast`: The last `m` elements of a list.

## Theorems

* `Search.findFirst_isSome_iff`: The search finds exactly the infixes.
* `Search.findFirst_le_length`: An occurrence starts within the list.
* `Search.keepLast_append_keepLast`: Trimming as one goes is trimming at the
  end.
* `Search.infix_keepLast_append_iff`: The window sees every new occurrence.
-/

namespace Search

variable {α : Type}

section Find

variable [DecidableEq α]

/-- The index of the first occurrence of `pat` in a list, if it occurs. -/
def findFirst (pat : List α) : List α → Option Nat
  | [] => if pat.isPrefixOf [] then some 0 else none
  | c :: cs => if pat.isPrefixOf (c :: cs) then some 0 else (findFirst pat cs).map (· + 1)

/-- The search finds the pattern exactly when it is an infix. -/
theorem findFirst_isSome_iff {pat : List α} : ∀ {s : List α},
    (findFirst pat s).isSome ↔ pat <:+: s
  | [] => by
      rw [findFirst, List.infix_nil]
      by_cases h : pat.isPrefixOf [] = true
      · rw [if_pos h]
        exact ⟨fun _ => List.prefix_nil.mp (List.isPrefixOf_iff_prefix.mp h), fun _ => rfl⟩
      · rw [if_neg h]
        refine ⟨fun hc => absurd hc (by decide), fun hp => absurd ?_ h⟩
        rw [hp]
        rfl
  | c :: cs => by
      rw [findFirst, List.infix_cons_iff, ← List.isPrefixOf_iff_prefix]
      by_cases h : pat.isPrefixOf (c :: cs) = true
      · rw [if_pos h]
        exact ⟨fun _ => Or.inl h, fun _ => rfl⟩
      · rw [if_neg h, Option.isSome_map, findFirst_isSome_iff]
        exact ⟨Or.inr, fun hc => hc.resolve_left h⟩

/-- An occurrence found starts within the list. -/
theorem findFirst_le_length {pat : List α} : ∀ {s : List α} {i : Nat},
    findFirst pat s = some i → i ≤ s.length
  | [], i, h => by
      rw [findFirst] at h
      split at h
      · cases h
        exact Nat.le_refl _
      · cases h
  | c :: cs, i, h => by
      rw [findFirst] at h
      split at h
      · cases h
        exact Nat.zero_le _
      · -- found in the tail, one place further on
        obtain ⟨j, hj, rfl⟩ := Option.map_eq_some_iff.mp h
        have := findFirst_le_length hj
        rw [List.length_cons]
        omega

end Find

/-- The last `m` elements of a list, or all of them. -/
def keepLast (m : Nat) (s : List α) : List α :=
  s.drop (s.length - m)

theorem length_keepLast (m : Nat) (s : List α) : (keepLast m s).length = min m s.length := by
  rw [keepLast, List.length_drop]
  omega

theorem keepLast_of_length_le {m : Nat} {s : List α} (h : s.length ≤ m) : keepLast m s = s := by
  rw [keepLast, Nat.sub_eq_zero_of_le h, List.drop_zero]

/-- Trimming the window before a piece is added and after keeps the same
    window as trimming only after. -/
theorem keepLast_append_keepLast (m : Nat) (e t : List α) :
    keepLast m (keepLast m e ++ t) = keepLast m (e ++ t) := by
  -- both sides drop a prefix of `e ++ t`, and the two prefixes have one length
  have hdrop : keepLast m e ++ t = (e ++ t).drop (e.length - m) := by
    rw [keepLast, List.drop_append_of_le_length (Nat.sub_le _ _)]
  rw [hdrop, keepLast, List.drop_drop, keepLast]
  congr 1
  simp only [List.length_drop, List.length_append]
  omega

/-- An occurrence of a pattern of at most `m` elements in `e ++ t` that is
    not inside `e` lies in the last `m` elements of `e` followed by `t`; and
    every occurrence there is one in `e ++ t`. -/
theorem infix_keepLast_append_iff {pat e t : List α} {m : Nat} (hm : pat.length ≤ m)
    (hne : ¬ pat <:+: e) : pat <:+: keepLast m e ++ t ↔ pat <:+: e ++ t := by
  constructor
  · intro h
    -- the window followed by `t` is a suffix of `e ++ t`
    have hsuffix : keepLast m e ++ t <:+ e ++ t := by
      rw [keepLast, ← List.drop_append_of_le_length (Nat.sub_le _ _)]
      exact List.drop_suffix _ _
    exact h.trans hsuffix.isInfix
  · rintro ⟨a, b, hab⟩
    have hlen := congrArg List.length hab
    simp only [List.length_append] at hlen
    by_cases hin : a.length + pat.length ≤ e.length
    · -- the occurrence ends inside `e`
      have htake := congrArg (List.take e.length) hab
      rw [List.take_append_of_le_length (Nat.le_refl _), List.take_length] at htake
      have hle : (a ++ pat).length ≤ e.length := by
        rw [List.length_append]
        exact hin
      rw [List.take_append, List.take_of_length_le hle] at htake
      exact absurd ⟨a, _, htake⟩ hne
    · -- the occurrence ends in `t`, so it starts after `e.length - m`
      refine ⟨a.drop (e.length - m), b, ?_⟩
      have hdrop := congrArg (List.drop (e.length - m)) hab
      rw [List.append_assoc, List.drop_append_of_le_length (by omega),
        List.drop_append_of_le_length (Nat.sub_le _ _)] at hdrop
      rw [List.append_assoc, hdrop, keepLast]

end Search
