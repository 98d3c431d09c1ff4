import Mathlib.Data.List.Chain
import Mathlib.Data.Set.Insert

/-!
# Counting Along a Prefix

A predicate that holds on a prefix of a list: once an element fails it, every
later element fails it too. Such a predicate is a chain of the relation "if
the next element satisfies it, so does this one", and counting it measures the
prefix where it holds. So counting a prefix of the list gives the smaller of
the count and the prefix's length, and the `i`-th element satisfies the
predicate exactly when the count passes `i`.

The second half is about ranking. Each member `w` of some type has its own
prefix-closed predicate on the same list, and its score is how many elements
satisfy it. Cutting the list just after the first element that exactly one
member satisfies does not change who ranks first: that member was ahead of
everyone from that element on, and the cut keeps it ahead.

Nothing here names a program: these are the facts a walk down a tree needs
whose nodes lose members as it goes deeper.

## Main definitions

* `List.PrefixClosed`: The predicate holds on a prefix.
* `topScorers`: The members with a positive score that nobody beats.

## Theorems

* `List.countP_take_of_prefixClosed`: Counting a prefix of the list.
* `List.lt_countP_iff_of_prefixClosed`: The count passes `i` exactly when the
  `i`-th element is in.
* `List.topScorers_take_findIdx`: Cutting after the first element with one
  member keeps the top scorers.
-/

/-- The members with a positive score that no other member beats. -/
def topScorers {β : Type*} (s : β → Nat) : Set β :=
  {w | 0 < s w ∧ ∀ v, s v ≤ s w}

/-- One member strictly ahead of all the others is the only top scorer. -/
theorem topScorers_eq_singleton {β : Type*} {s : β → Nat} {u : β} (hpos : 0 < s u)
    (hlt : ∀ v, v ≠ u → s v < s u) : topScorers s = {u} := by
  ext w
  simp only [topScorers, Set.mem_ofPred_eq, Set.mem_singleton_iff]
  constructor
  · rintro ⟨-, hmax⟩
    by_contra hne
    exact absurd (hmax u) (Nat.not_le.mpr (hlt w hne))
  · rintro rfl
    refine ⟨hpos, fun v => ?_⟩
    by_cases hv : v = w
    · rw [hv]
    · exact Nat.le_of_lt (hlt v hv)

namespace List

variable {α : Type*}

/-- `p` holds on a prefix of the list: an element that satisfies it comes
    only after elements that do. -/
def PrefixClosed (p : α → Bool) (l : List α) : Prop :=
  IsChain (fun a b => p b = true → p a = true) l

variable {p : α → Bool}

theorem PrefixClosed.tail {a : α} {l : List α} (h : PrefixClosed p (a :: l)) :
    PrefixClosed p l :=
  (isChain_cons.mp h).2

/-- From an element outside on, every element is outside. -/
theorem PrefixClosed.eq_false_of_mem :
    ∀ {a : α} {l : List α}, PrefixClosed p (a :: l) → p a = false → ∀ x ∈ a :: l, p x = false
  | a, [], _, ha, x, hx => by
      rw [mem_singleton] at hx
      rw [hx, ha]
  | a, b :: l, h, ha, x, hx => by
      obtain ⟨hab, hrest⟩ := isChain_cons.mp h
      -- `b` follows `a`, so `b` inside would put `a` inside
      have hb : p b = false := by
        cases hpb : p b with
        | false => rfl
        | true => rw [hab b rfl hpb] at ha; exact absurd ha (by decide)
      rcases mem_cons.mp hx with rfl | hx
      · exact ha
      · exact PrefixClosed.eq_false_of_mem hrest hb x hx

/-- A list that starts outside counts nothing. -/
theorem countP_eq_zero_of_prefixClosed {a : α} {l : List α} (h : PrefixClosed p (a :: l))
    (ha : p a = false) : countP p (a :: l) = 0 :=
  countP_eq_zero.mpr fun x hx => by rw [h.eq_false_of_mem ha x hx]; exact Bool.false_ne_true

/-- Counting the first `m` elements: the count, up to `m`. -/
theorem countP_take_of_prefixClosed :
    ∀ {l : List α}, PrefixClosed p l → ∀ m, countP p (l.take m) = min (countP p l) m
  | [], _, m => by simp
  | a :: l, _, 0 => by simp
  | a :: l, h, m + 1 => by
      rw [take_succ_cons]
      cases ha : p a with
      | false =>
          -- nothing from `a` on is counted
          have hzero := countP_eq_zero_of_prefixClosed h ha
          have hle : countP p (a :: l.take m) ≤ countP p (a :: l) :=
            ((take_sublist m l).cons_cons a).countP_le
          omega
      | true =>
          rw [countP_cons_of_pos ha, countP_cons_of_pos ha, countP_take_of_prefixClosed h.tail m]
          omega

/-- The count passes `i` exactly when the `i`-th element is inside. -/
theorem lt_countP_iff_of_prefixClosed :
    ∀ {l : List α}, PrefixClosed p l → ∀ {i : Nat} (hi : i < l.length),
      i < countP p l ↔ p l[i] = true
  | a :: l, h, 0, _ => by
      cases ha : p a with
      | false => simp [countP_eq_zero_of_prefixClosed h ha, ha]
      | true => simp [countP_cons_of_pos ha, ha]
  | a :: l, h, i + 1, hi => by
      have hil : i < l.length := Nat.lt_of_succ_lt_succ hi
      rw [getElem_cons_succ]
      cases ha : p a with
      | false =>
          -- everything after `a` is outside as well
          have hout := h.eq_false_of_mem ha l[i] (mem_cons_of_mem a (getElem_mem _))
          rw [countP_eq_zero_of_prefixClosed h ha, hout]
          simp
      | true =>
          rw [countP_cons_of_pos ha, ← lt_countP_iff_of_prefixClosed h.tail]
          omega

section Ranking

variable {β : Type*} (P : β → α → Bool) (q : α → Bool) (l : List α)

/-- Cutting the list just after the first element that `q` picks, when `q`
    picks only elements that exactly one member satisfies, keeps the top
    scorers: that member is the only one to reach the cut, before and after. -/
theorem topScorers_take_findIdx (hP : ∀ w, PrefixClosed (P w) l)
    (hq : ∀ x ∈ l, q x = true → ∃ u, ∀ w, P w x = true ↔ w = u) :
    topScorers (fun w => countP (P w) (l.take (l.findIdx q + 1))) =
      topScorers (fun w => countP (P w) l) := by
  by_cases hlt : l.findIdx q < l.length
  · -- the cut is at `l[i]`, which only `u` satisfies
    obtain ⟨u, hu⟩ := hq _ (getElem_mem hlt) findIdx_getElem
    have hreach : ∀ w, l.findIdx q < countP (P w) l ↔ w = u := fun w =>
      (lt_countP_iff_of_prefixClosed (hP w) hlt).trans (hu w)
    have hfull : ∀ v, v ≠ u → countP (P v) l < countP (P u) l := fun v hv =>
      Nat.lt_of_le_of_lt (Nat.not_lt.mp fun h => hv ((hreach v).mp h)) ((hreach u).mpr rfl)
    have hcut : ∀ v, countP (P v) (l.take (l.findIdx q + 1)) = min (countP (P v) l) (l.findIdx q + 1) :=
      fun v => countP_take_of_prefixClosed (hP v) _
    have hcutu := (hreach u).mpr rfl
    rw [topScorers_eq_singleton (u := u) (by omega) hfull]
    refine topScorers_eq_singleton (by rw [hcut]; omega) fun v hv => ?_
    have hv' : ¬ l.findIdx q < countP (P v) l := fun h => hv ((hreach v).mp h)
    rw [hcut, hcut]
    omega
  · -- no element is picked and the cut is the whole list
    rw [take_of_length_le (by omega)]

end Ranking

end List
