import Mathlib.Data.List.Infix

/-!
# Logs Closed by an End Marker

A writer appends items to a log and, when it stops, at most one end marker
`x` that no item equals. A reader that has taken a prefix of what was written
learns two things from the marker alone. What it has read before any marker
is a prefix of the items (`List.prefix_of_append_eq_of_not_mem`). And once
it has read a marker it has read every item, since the first occurrence of
the marker splits a list in one way only (`List.append_cons_inj_of_not_mem`).

Nothing here names a program: these are the facts a stream with an
end-of-stream message needs.

## Theorems

* `List.append_cons_inj_of_not_mem`: The first marker splits a list in one
  way.
* `List.prefix_of_append_eq_of_not_mem`: What precedes the marker in a read
  is a prefix of the items.
-/

namespace List

variable {α : Type*} {a b u v t : List α} {x : α}

/-- The first occurrence of `x` splits a list in exactly one way. -/
theorem append_cons_inj_of_not_mem (ha : x ∉ a) (hb : x ∉ b) (h : a ++ x :: u = b ++ x :: v) :
    a = b ∧ u = v := by
  induction a generalizing b with
  | nil =>
    cases b with
    | nil => exact ⟨rfl, (cons.inj h).2⟩
    | cons y b =>
      -- the marker would be the head of `b`
      rw [nil_append, cons_append, cons.injEq] at h
      exact absurd (by rw [h.1]; exact mem_cons_self) hb
  | cons y a ih =>
    cases b with
    | nil =>
      rw [nil_append, cons_append, cons.injEq] at h
      exact absurd (by rw [← h.1]; exact mem_cons_self) ha
    | cons z b =>
      rw [cons_append, cons_append, cons.injEq] at h
      obtain ⟨hab, huv⟩ := ih (fun hx => ha (mem_cons_of_mem _ hx))
        (fun hx => hb (mem_cons_of_mem _ hx)) h.2
      exact ⟨by rw [h.1, hab], huv⟩

/-- Items followed by at most the marker: a list free of the marker that
    another read starts with is a prefix of the items. -/
theorem prefix_of_append_eq_of_not_mem (h : a ++ u = b ++ t) (ht : t = [] ∨ t = [x])
    (hx : x ∉ a) : a <+: b := by
  rcases append_eq_append_iff.mp h with ⟨a', hb, -⟩ | ⟨c', ha, htc⟩
  · exact ⟨a', hb.symm⟩
  · -- `a` runs past the items, into the marker
    rcases ht with rfl | rfl
    · rw [nil_eq, append_eq_nil_iff] at htc
      rw [ha, htc.1, append_nil]
    · cases c' with
      | nil => rw [ha, append_nil]
      | cons y c' =>
        rw [cons_append, cons.injEq] at htc
        exact absurd (by rw [ha, htc.1]; exact mem_append_right _ mem_cons_self) hx

end List
