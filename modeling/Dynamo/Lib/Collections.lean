import Mathlib.Data.List.AList
import Mathlib.Data.Finset.Max
import Mathlib.Data.Finset.Sort
import Mathlib.Data.List.GetD
import Mathlib.Data.List.Chain

/-!
# Maps and Ordered Sets

Two collections of the Rust standard library as a model uses them. A
`HashMap<K, V>` is an `AList`, a list of entries with distinct keys; what the
model reads of it is lookups and, for counting what it holds, its values. A
`BTreeSet<T>` is a `Finset` of a linear order, and `pop_first` takes its least
element out.

Nothing here names a program: the lemmas are the ones the block pool's
accounting needs, how the values of a map move when a key is inserted or
erased, and what `pop_first` returns.

## Main definitions

* `AList.values`: The values of a map, one per key.
* `AList.upsert`: `HashMap::entry(key).or_insert(init)`, then an update.
* `AList.applyItems`: The value a key ends with when items are applied to it.
* `Finset.popFirst`: `BTreeSet::pop_first`, the least element and the rest.

## Theorems

* `AList.mem_values`: A value is held exactly when some key looks it up.
* `AList.values_erase_perm`: Erasing a key takes its value out.
* `AList.values_insert`: Inserting replaces the key's old value.
* `AList.lookup_insert_eq_some`: What a lookup finds after an insert.
* `AList.lookup_foldl_erase`: What a lookup finds after keys are erased.
* `AList.filterMap_lookup_keys`: Looking up every key, in order, gives the
  values.
* `AList.lookup_foldl_upsert`: What a lookup finds after items are upserted.
* `Option.forall_of_eq_some`: A fact about the value an option holds.
* `List.sortedGE_append_singleton`, `List.sortedGE_iff_antitone_getD`: When a
  list is non-increasing.
* `Finset.popFirst_eq_none`: Only the empty set has no least element.
* `Finset.popFirst_eq_some`: The element taken is the least, and it is gone.
* `Finset.sort_of_popFirst`: The element taken heads the ascending list.
-/

namespace AList

variable {α β : Type*}

/-- The values of a map, one per key, in the order of its entries. -/
def values (s : AList (fun _ : α => β)) : List β :=
  s.entries.map Sigma.snd

@[simp]
theorem values_empty : (∅ : AList (fun _ : α => β)).values = [] := rfl

@[simp]
theorem lookup_singleton [DecidableEq α] (a : α) (b : β) :
    (AList.singleton a b : AList (fun _ : α => β)).lookup a = some b := by
  rw [← AList.insert_empty, AList.lookup_insert]

@[simp]
theorem length_values (s : AList (fun _ : α => β)) : s.values.length = s.keys.length := by
  simp only [values, List.length_map, AList.keys, List.keys]

variable [DecidableEq α]

theorem mem_values {s : AList (fun _ : α => β)} {b : β} :
    b ∈ s.values ↔ ∃ a, s.lookup a = some b := by
  unfold values
  rw [List.mem_map]
  constructor
  · rintro ⟨⟨a, b'⟩, hmem, rfl⟩
    exact ⟨a, AList.mem_lookup_iff.mpr hmem⟩
  · rintro ⟨a, hlookup⟩
    exact ⟨⟨a, b⟩, AList.mem_lookup_iff.mp hlookup, rfl⟩

/-- A lookup after an insert finds the new entry, or an old one of another key. -/
theorem lookup_insert_eq_some {s : AList (fun _ : α => β)} {a a' : α} {b b' : β} :
    (s.insert a b).lookup a' = some b' ↔ (a' = a ∧ b' = b) ∨ (a' ≠ a ∧ s.lookup a' = some b') := by
  by_cases h : a' = a
  · subst h
    rw [AList.lookup_insert, Option.some.injEq]
    simp only [true_and, ne_eq, not_true_eq_false, false_and, or_false]
    exact eq_comm
  · rw [AList.lookup_insert_ne h]
    simp only [h, false_and, ne_eq, not_false_eq_true, true_and, false_or]

/-- Inserting a key puts its value in front of the values of the other keys. -/
theorem values_insert (s : AList (fun _ : α => β)) (a : α) (b : β) :
    (s.insert a b).values = b :: (s.erase a).values := by
  simp only [values, AList.entries_insert, List.map_cons]
  rfl

theorem values_erase_of_not_mem {s : AList (fun _ : α => β)} {a : α} (h : a ∉ s) :
    (s.erase a).values = s.values := by
  unfold values
  congr 1
  exact List.kerase_of_notMem_keys h

/-- Erasing a key that is present takes exactly its value out. -/
theorem values_erase_perm {s : AList (fun _ : α => β)} {a : α} {b : β}
    (h : s.lookup a = some b) : s.values.Perm (b :: (s.erase a).values) := by
  have hkey : a ∈ s.entries.keys := AList.lookup_isSome.mp (by rw [h]; rfl)
  obtain ⟨b', l₁, l₂, -, hsplit, herase⟩ := List.exists_of_kerase hkey
  -- the entry found by the split is the one the lookup returned
  have hb : b' = b := by
    have hmem : (⟨a, b'⟩ : Sigma (fun _ : α => β)) ∈ s.entries := by
      rw [hsplit]
      exact List.mem_append_right _ List.mem_cons_self
    rw [← AList.mem_lookup_iff, h, Option.mem_def, Option.some.injEq] at hmem
    exact hmem.symm
  have hvals : s.values = l₁.map Sigma.snd ++ b :: l₂.map Sigma.snd := by
    simp only [values, hsplit, List.map_append, List.map_cons, hb]
  have herased : (s.erase a).values = l₁.map Sigma.snd ++ l₂.map Sigma.snd := by
    show (s.entries.kerase a).map Sigma.snd = _
    rw [herase, List.map_append]
  rw [hvals, herased]
  exact List.perm_middle

/-- Erasing keys one after another: an erased key is gone, and every other
    key reads as before. -/
theorem lookup_foldl_erase (s : AList (fun _ : α => β)) (keys : List α) (a : α) :
    (keys.foldl (fun s k => s.erase k) s).lookup a = if a ∈ keys then none else s.lookup a := by
  induction keys generalizing s with
  | nil => rfl
  | cons k keys ih =>
      rw [List.foldl_cons, ih]
      by_cases hk : a = k
      · rw [if_pos (List.mem_cons.mpr (Or.inl hk)), hk, AList.lookup_erase]
        split <;> rfl
      · rw [AList.lookup_erase_ne hk]
        by_cases hmem : a ∈ keys
        · rw [if_pos hmem, if_pos (List.mem_cons_of_mem k hmem)]
        · rw [if_neg hmem, if_neg (fun h => (List.mem_cons.mp h).elim hk hmem)]

/-- Looking up each key of a list of entries with distinct keys, in order,
    gives their values. -/
theorem filterMap_dlookup_keys :
    ∀ l : List (Sigma (fun _ : α => β)), l.NodupKeys →
      l.keys.filterMap (fun a => l.dlookup a) = l.map Sigma.snd
  | [], _ => rfl
  | ⟨a, b⟩ :: l, hnodup => by
    rw [List.nodupKeys_cons] at hnodup
    -- the keys after the first miss it, so their lookups skip it
    have hrest : l.keys.filterMap (fun k => (⟨a, b⟩ :: l).dlookup k) =
        l.keys.filterMap (fun k => l.dlookup k) := by
      refine List.filterMap_congr fun k hk => ?_
      exact List.dlookup_cons_ne l ⟨a, b⟩ fun hka => hnodup.1 (hka ▸ hk)
    rw [List.keys_cons, List.filterMap_cons, List.dlookup_cons_eq, hrest,
      filterMap_dlookup_keys l hnodup.2, List.map_cons]

/-- Looking up every key of a map, in order, gives its values. -/
theorem filterMap_lookup_keys (s : AList (fun _ : α => β)) :
    s.keys.filterMap s.lookup = s.values :=
  filterMap_dlookup_keys s.entries s.nodupKeys

/-- `HashMap::entry(key).or_insert(init)` followed by an update of the entry:
    the key's value, or `init` when it has none, updated. -/
def upsert (key : α) (init : β) (update : β → β) (s : AList (fun _ : α => β)) :
    AList (fun _ : α => β) :=
  s.insert key (update ((s.lookup key).getD init))

/-- The value a key ends with when items are applied to it in turn, starting
    from the value it has, if any; an item that finds no value starts from its
    own initial one. -/
def applyItems {ι : Type*} (init : ι → β) (update : ι → β → β) : Option β → List ι → Option β
  | o, [] => o
  | o, x :: xs => applyItems init update (some (update x (o.getD (init x)))) xs

/-- Upserting items in turn: each key ends with its own items applied in
    order, and a key no item names reads as before. -/
theorem lookup_foldl_upsert {ι : Type*} (key : ι → α) (init : ι → β) (update : ι → β → β) (a : α) :
    ∀ (xs : List ι) (s : AList (fun _ : α => β)),
      (xs.foldl (fun s x => s.upsert (key x) (init x) (update x)) s).lookup a =
        applyItems init update (s.lookup a) (xs.filter fun x => key x = a)
  | [], _ => rfl
  | x :: xs, s => by
      rw [List.foldl_cons, lookup_foldl_upsert key init update a xs, List.filter_cons]
      by_cases hx : key x = a
      · -- the item names the key: its update is the first applied
        rw [if_pos (decide_eq_true hx), upsert, ← hx, AList.lookup_insert, applyItems]
      · rw [if_neg (by simpa using hx), upsert, AList.lookup_insert_ne (Ne.symm hx)]

/-- Items applied to a value: the updates in turn. -/
theorem applyItems_some {ι : Type*} (init : ι → β) (update : ι → β → β) :
    ∀ (b : β) (xs : List ι), applyItems init update (some b) xs = some (xs.foldl (fun b x => update x b) b)
  | _, [] => rfl
  | b, x :: xs => by
      rw [applyItems, Option.getD_some, applyItems_some init update _ xs, List.foldl_cons]

/-- Items applied to no value: the first starts from its own initial value. -/
theorem applyItems_none_cons {ι : Type*} (init : ι → β) (update : ι → β → β) (x : ι) (xs : List ι) :
    applyItems init update none (x :: xs) = some ((x :: xs).foldl (fun b y => update y b) (init x)) := by
  rw [applyItems, Option.getD_none, applyItems_some, List.foldl_cons]

end AList

/-- What holds of the value an option is holds of every value it is. -/
theorem Option.forall_of_eq_some {α : Type*} {o : Option α} {a : α} {P : α → Prop} (ho : o = some a)
    (ha : P a) : ∀ a', o = some a' → P a' := by
  rintro a' rfl
  exact Option.some.inj ho ▸ ha

namespace List

/-- Appending keeps a non-increasing list so exactly when the new entry is at
    most the last. -/
theorem sortedGE_append_singleton {α : Type*} [Preorder α] {l : List α} (hl : l.SortedGE)
    (x : α) : (l ++ [x]).SortedGE ↔ ∀ y ∈ l.getLast?, x ≤ y := by
  rw [sortedGE_iff_isChain, isChain_append]
  simp only [hl.isChain, isChain_singleton, head?_cons, Option.mem_def, Option.some.injEq,
    forall_eq', true_and, ge_iff_le]

/-- A list of naturals is non-increasing exactly when it is so read with
    zeros past its end. -/
theorem sortedGE_iff_antitone_getD (l : List ℕ) : l.SortedGE ↔ Antitone fun i => l.getD i 0 := by
  rw [sortedGE_iff_getElem_ge_getElem_of_le]
  constructor
  · intro h i j hij
    by_cases hj : j < l.length
    · have hi : i < l.length := by omega
      simp only [getD_eq_getElem _ _ hi, getD_eq_getElem _ _ hj]
      exact h hij
    · simp only [getD_eq_default _ _ (Nat.le_of_not_lt hj), Nat.zero_le]
  · intro h i j hi hj hji
    have hle := h hji
    simpa only [getD_eq_getElem _ _ hi, getD_eq_getElem _ _ hj] using hle

end List

namespace Finset

variable {α : Type*} [LinearOrder α]

/-- `BTreeSet::pop_first`: the least element, with the set it leaves. -/
def popFirst (s : Finset α) : Option (α × Finset α) :=
  match s.min with
  | ⊤ => none
  | (a : α) => some (a, s.erase a)

theorem popFirst_eq_none {s : Finset α} : s.popFirst = none ↔ s = ∅ := by
  rw [← Finset.min_eq_top]
  unfold popFirst
  cases s.min with
  | top => exact ⟨fun _ => rfl, fun _ => rfl⟩
  | coe a => simp only [reduceCtorEq, false_iff]; exact WithTop.coe_ne_top

theorem popFirst_eq_some {s : Finset α} {a : α} {s' : Finset α}
    (h : s.popFirst = some (a, s')) : a ∈ s ∧ (∀ b ∈ s, a ≤ b) ∧ s' = s.erase a := by
  unfold popFirst at h
  cases hmin : s.min with
  | top => rw [hmin] at h; exact absurd h (by simp only [reduceCtorEq, not_false_eq_true])
  | coe m =>
      rw [hmin] at h
      simp only [Option.some.injEq, Prod.mk.injEq] at h
      obtain ⟨rfl, rfl⟩ := h
      refine ⟨Finset.mem_of_min hmin, fun b hb => ?_, rfl⟩
      have hle := Finset.min_le hb
      rw [hmin] at hle
      exact WithTop.coe_le_coe.mp hle

/-- What `pop_first` leaves is the rest of the set. -/
theorem mem_of_popFirst {s : Finset α} {a : α} {s' : Finset α} (h : s.popFirst = some (a, s'))
    {b : α} (hb : b ∈ s') : b ∈ s ∧ b ≠ a := by
  obtain ⟨-, -, rfl⟩ := popFirst_eq_some h
  exact ⟨Finset.mem_of_mem_erase hb, Finset.ne_of_mem_erase hb⟩

/-- The element `pop_first` takes heads the set's ascending list, and the
    rest of the list is the set it leaves. -/
theorem sort_of_popFirst {s : Finset α} {a : α} {s' : Finset α}
    (h : s.popFirst = some (a, s')) : s.sort = a :: s'.sort := by
  obtain ⟨hmem, hleast, rfl⟩ := popFirst_eq_some h
  conv_lhs => rw [← Finset.insert_erase hmem]
  exact Finset.sort_insert _ (fun b hb => hleast b (Finset.mem_of_mem_erase hb))
    (Finset.notMem_erase a s)

end Finset
