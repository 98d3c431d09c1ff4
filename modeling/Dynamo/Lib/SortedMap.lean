import Mathlib.Data.List.Perm.Basic
import Mathlib.Order.Lattice

/-!
# Ordered Maps as Sorted Lists

A `BTreeMap<K, V>` is modelled by its entries in ascending order. The map
compares keys with their `Ord`, and that order need not look at the whole
key. It is given here as a projection `key : K → κ` into a linear order, and
two keys with the same projection are one key to the map: `insert` then
keeps the key already stored, replaces its value and returns the old one, as
`BTreeMap::insert` does, and `remove` takes out the entry whose key compares
equal. `pop_first` is the head of the list.

The representation invariant `Sorted` says that the projections ascend
strictly, so no two entries compare equal. Every operation keeps it.
`insert_of_forall_ne` is the insertion of a key that compares equal to no
stored key: nothing is returned, and the entries are the old ones and the
new one. `remove_of_perm` is the removal of a stored key: the entry goes and
the others stay.

## Main definitions

* `SortedMap.Sorted`: The entries ascend strictly by the projection.
* `SortedMap.insert`: `BTreeMap::insert`.
* `SortedMap.remove`: `BTreeMap::remove`.

## Theorems

* `SortedMap.Sorted.insert`, `SortedMap.Sorted.remove`: The operations keep
  the entries sorted.
* `SortedMap.insert_of_forall_ne`: Inserting a new key.
* `SortedMap.remove_of_perm`: Removing a stored key.
-/

namespace SortedMap

variable {K V κ : Type*} [LinearOrder κ] (key : K → κ)

/-- The entries ascend strictly by the projection of their keys. -/
def Sorted (m : List (K × V)) : Prop :=
  m.Pairwise fun a b => key a.1 < key b.1

/-- `BTreeMap::insert`: an entry whose key compares equal keeps its key and
    takes the new value, and its old value is returned; otherwise the entry
    goes in its place in the order. -/
def insert (k : K) (v : V) : List (K × V) → List (K × V) × Option V
  | [] => ([(k, v)], none)
  | e :: m =>
    if key k < key e.1 then ((k, v) :: e :: m, none)
    else if key k = key e.1 then ((e.1, v) :: m, some e.2)
    else
      let r := insert k v m
      (e :: r.1, r.2)

/-- `BTreeMap::remove`: the entry whose key compares equal is taken out, and
    its value returned. -/
def remove (k : K) : List (K × V) → List (K × V) × Option V
  | [] => ([], none)
  | e :: m =>
    if key e.1 = key k then (m, some e.2)
    else
      let r := remove k m
      (e :: r.1, r.2)

variable {key}

/-- An entry after an insert compares equal to the inserted key or was there
    before. -/
theorem mem_insert {k : K} {v : V} {m : List (K × V)} {e' : K × V}
    (h : e' ∈ (insert key k v m).1) : key e'.1 = key k ∨ e' ∈ m := by
  induction m with
  | nil =>
    rw [insert, List.mem_singleton] at h
    exact Or.inl (by rw [h])
  | cons e m ih =>
    rw [insert] at h
    split_ifs at h with hlt heq
    · rcases List.mem_cons.mp h with rfl | h
      · exact Or.inl rfl
      · exact Or.inr h
    · rcases List.mem_cons.mp h with rfl | h
      · exact Or.inl heq.symm
      · exact Or.inr (List.mem_cons_of_mem e h)
    · rcases List.mem_cons.mp h with rfl | h
      · exact Or.inr List.mem_cons_self
      · exact (ih h).imp_right (List.mem_cons_of_mem e)

theorem Sorted.insert {m : List (K × V)} (hs : Sorted key m) (k : K) (v : V) :
    Sorted key (SortedMap.insert key k v m).1 := by
  induction m with
  | nil => exact List.pairwise_singleton _ _
  | cons e m ih =>
    have hhead : ∀ x ∈ m, key e.1 < key x.1 := fun _ hx => List.rel_of_pairwise_cons hs hx
    rw [SortedMap.insert]
    split_ifs with hlt heq
    · -- the new entry goes first: it is below the old head, hence below all
      refine List.Pairwise.cons (fun x hx => ?_) hs
      rcases List.mem_cons.mp hx with rfl | hx
      · exact hlt
      · exact hlt.trans (hhead x hx)
    · exact List.Pairwise.cons hhead hs.of_cons
    · -- the new entry goes further down, above the head
      refine List.Pairwise.cons (fun x hx => ?_) (ih hs.of_cons)
      rcases mem_insert hx with hx | hx
      · rw [hx]
        exact lt_of_le_of_ne (not_lt.mp hlt) (Ne.symm heq)
      · exact hhead x hx

/-- Inserting a key that compares equal to no stored key returns nothing and
    adds its entry to the others. -/
theorem insert_of_forall_ne {k : K} {v : V} {m : List (K × V)} (h : ∀ e ∈ m, key e.1 ≠ key k) :
    (insert key k v m).2 = none ∧ (insert key k v m).1.Perm ((k, v) :: m) := by
  induction m with
  | nil => exact ⟨rfl, List.Perm.refl _⟩
  | cons e m ih =>
    have hne : key k ≠ key e.1 := fun heq => h e List.mem_cons_self heq.symm
    obtain ⟨hnone, hperm⟩ := ih fun e' he' => h e' (List.mem_cons_of_mem e he')
    rw [insert]
    split_ifs with hlt
    · exact ⟨rfl, List.Perm.refl _⟩
    · exact ⟨hnone, (hperm.cons e).trans (List.Perm.swap _ _ _)⟩

/-- What `remove` leaves is part of the map. -/
theorem remove_sublist (k : K) (m : List (K × V)) : (remove key k m).1.Sublist m := by
  induction m with
  | nil => exact List.Sublist.refl _
  | cons e m ih =>
    rw [remove]
    split_ifs
    · exact List.sublist_cons_self e m
    · exact ih.cons_cons e

theorem Sorted.remove {m : List (K × V)} (hs : Sorted key m) (k : K) :
    Sorted key (SortedMap.remove key k m).1 :=
  hs.sublist (remove_sublist k m)

/-- Removing the key of a stored entry of a sorted map takes out that entry
    and returns its value; the other entries stay. -/
theorem remove_of_perm {m rest : List (K × V)} {e : K × V} {k : K} (hs : Sorted key m)
    (hp : m.Perm (e :: rest)) (hk : key k = key e.1) :
    (remove key k m).2 = some e.2 ∧ (remove key k m).1.Perm rest := by
  classical
  induction m generalizing rest with
  | nil => exact absurd hp.symm.length_eq (by simp)
  | cons x m ih =>
    have hhead : ∀ y ∈ m, key x.1 < key y.1 := fun _ hy => List.rel_of_pairwise_cons hs hy
    rw [remove]
    split_ifs with hx
    · -- the head compares equal, so it is the entry: a later one is above it
      have he : e = x := by
        rcases List.mem_cons.mp (hp.symm.subset List.mem_cons_self) with he | he
        · exact he
        · exact absurd (hx.trans hk) (ne_of_lt (hhead e he))
      subst he
      exact ⟨rfl, (List.perm_cons e).mp hp⟩
    · -- the entry is further down; the head is among the others
      have hxe : x ≠ e := fun hxe => hx (by rw [hxe, hk])
      have hxrest : x ∈ rest := by
        rcases List.mem_cons.mp (hp.subset List.mem_cons_self) with h | h
        · exact absurd h hxe
        · exact h
      have hrest : rest.Perm (x :: rest.erase x) := List.perm_cons_erase hxrest
      have hm : m.Perm (e :: rest.erase x) :=
        (List.perm_cons x).mp (hp.trans ((hrest.cons e).trans (List.Perm.swap x e _)))
      obtain ⟨hsome, hperm⟩ := ih hs.of_cons hm
      exact ⟨hsome, (hperm.cons x).trans hrest.symm⟩

end SortedMap
