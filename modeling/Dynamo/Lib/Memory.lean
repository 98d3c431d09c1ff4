import Mathlib.Data.List.Range
import Mathlib.Data.Nat.Bitwise

/-!
# Aligned Addresses and Contiguous Regions

Address arithmetic as a memory layout uses it. Rounding up to a power of two
is done in machine code by adding `a - 1` and clearing the low bits with a
mask; `and_two_pow_sub_two_pow` says what the mask does, and `alignedUp` is
the rounding it computes, with the three facts a caller needs: it is at or
above the address, less than one alignment above it, and a multiple of the
alignment.

A grid of regions, row `b` at `b * rowStride` and column `l` at
`l * colStride` within its row, is laid out without overlap when a region
fits in a column and a row's columns fit in a row (`grid_disjoint`).

A copy of `n` bytes from `src` to `dst` maps `dst + i` to `src + i`;
`copyMap` lists those pairs in order. Copying `n` consecutive slices of `m`
bytes, one after the other, maps the same pairs in the same order as one
copy of `n * m` bytes (`copyMap_mul`).

Nothing here names a program.

## Main definitions

* `Memory.alignedUp`: The least multiple of the alignment at or above an
  address.
* `Memory.copyMap`: The byte pairs a copy maps.

## Theorems

* `Memory.and_two_pow_sub_two_pow`: Masking off the low bits rounds down.
* `Memory.le_alignedUp`, `Memory.alignedUp_lt`, `Memory.dvd_alignedUp`:
  What rounding up gives.
* `Memory.grid_disjoint`: Distinct cells of a grid do not overlap.
* `Memory.grid_cell_end_le`: Every cell ends within the grid.
* `Memory.copyMap_mul`: One long copy is the slices copied in order.
-/

namespace Memory

/-! ### Rounding up -/

/-- Clearing the low `k` of `w` bits rounds down to a multiple of `2 ^ k`. -/
theorem and_two_pow_sub_two_pow {x w k : Nat} (hx : x < 2 ^ w) (hk : k ≤ w) :
    x &&& (2 ^ w - 2 ^ k) = x / 2 ^ k * 2 ^ k := by
  -- the mask is `w - k` ones shifted up by `k`
  have hmask : 2 ^ w - 2 ^ k = (2 ^ (w - k) - 1) * 2 ^ k := by
    rw [Nat.sub_mul, Nat.one_mul, ← Nat.pow_add, Nat.sub_add_cancel hk]
  rw [hmask]
  apply Nat.eq_of_testBit_eq
  intro j
  simp only [Nat.testBit_and, Nat.testBit_mul_two_pow, Nat.testBit_two_pow_sub_one,
    Nat.testBit_div_two_pow]
  by_cases hkj : k ≤ j
  · rw [Nat.sub_add_cancel hkj]
    by_cases hjw : j < w
    · simp only [hkj, decide_true, Bool.true_and, show j - k < w - k by omega, Bool.and_true]
    · -- above the width, `x` has no bits
      rw [Nat.testBit_lt_two_pow (Nat.lt_of_lt_of_le hx (Nat.pow_le_pow_right (by decide)
        (Nat.le_of_not_lt hjw)))]
      simp only [hkj, decide_true, Bool.true_and, Bool.false_and]
  · simp only [hkj, decide_false, Bool.false_and, Bool.and_false]

/-- The least multiple of `a` at or above `x`. -/
def alignedUp (x a : Nat) : Nat :=
  (x + a - 1) / a * a

variable {x a : Nat}

theorem le_alignedUp (ha : 0 < a) : x ≤ alignedUp x a := by
  unfold alignedUp
  have := Nat.lt_div_mul_add (a := x + a - 1) ha
  omega

/-- Rounding up adds less than one alignment. -/
theorem alignedUp_lt (ha : 0 < a) : alignedUp x a < x + a := by
  unfold alignedUp
  have := Nat.div_mul_le_self (x + a - 1) a
  omega

theorem dvd_alignedUp : a ∣ alignedUp x a :=
  Nat.dvd_mul_left a _

/-! ### Grids of regions -/

/-- Two cells of a grid whose regions fit their columns, and whose columns fit
    their rows, are disjoint unless they are the same cell. -/
theorem grid_disjoint {rowStride colStride size cols b l b' l' : Nat}
    (hsize : size ≤ colStride) (hrow : cols * colStride ≤ rowStride)
    (hl : l < cols) (hl' : l' < cols) (hne : (b, l) ≠ (b', l')) :
    b * rowStride + l * colStride + size ≤ b' * rowStride + l' * colStride ∨
      b' * rowStride + l' * colStride + size ≤ b * rowStride + l * colStride := by
  -- a cell ends within its column, and a column within its row
  have hend : ∀ {c}, c < cols → c * colStride + size ≤ rowStride := fun {c} hc => by
    have : (c + 1) * colStride ≤ cols * colStride := Nat.mul_le_mul_right _ hc
    rw [Nat.succ_mul] at this
    omega
  have hcol : ∀ {c c'}, c < c' → c * colStride + size ≤ c' * colStride := fun {c c'} hcc' => by
    have : (c + 1) * colStride ≤ c' * colStride := Nat.mul_le_mul_right _ hcc'
    rw [Nat.succ_mul] at this
    omega
  have hrows : ∀ {r r'}, r < r' → r * rowStride + rowStride ≤ r' * rowStride := fun {r r'} hrr' => by
    have : (r + 1) * rowStride ≤ r' * rowStride := Nat.mul_le_mul_right _ hrr'
    rwa [Nat.succ_mul] at this
  rcases Nat.lt_trichotomy b b' with hb | rfl | hb
  · exact Or.inl (by have := hend hl; have := hrows hb; omega)
  · have hll' : l ≠ l' := fun h => hne (by rw [h])
    rcases Nat.lt_or_gt_of_ne hll' with hlt | hlt
    · exact Or.inl (by have := hcol hlt; omega)
    · exact Or.inr (by have := hcol hlt; omega)
  · exact Or.inr (by have := hend hl'; have := hrows hb; omega)

/-- A cell of a grid of `rows` rows and `cols` columns ends where the last
    row's columns end, or before. -/
theorem grid_cell_end_le {rowStride colStride rows cols b l : Nat} (hb : b < rows)
    (hl : l < cols) :
    b * rowStride + l * colStride + colStride ≤ (rows - 1) * rowStride + cols * colStride := by
  have hrow : b * rowStride ≤ (rows - 1) * rowStride := Nat.mul_le_mul_right _ (by omega)
  have hcol : (l + 1) * colStride ≤ cols * colStride := Nat.mul_le_mul_right _ hl
  rw [Nat.succ_mul] at hcol
  omega

/-! ### Copies -/

/-- The byte pairs `(src + i, dst + i)` a copy of `n` bytes maps, in order. -/
def copyMap (src dst n : Nat) : List (Nat × Nat) :=
  (List.range n).map fun i => (src + i, dst + i)

theorem copyMap_add (src dst m n : Nat) :
    copyMap src dst (m + n) = copyMap src dst m ++ copyMap (src + m) (dst + m) n := by
  simp only [copyMap, List.range_add, List.map_append, List.map_map]
  congr 2
  funext i
  simp only [Function.comp, Prod.mk.injEq]
  omega

/-- Copying `n` consecutive slices of `m` bytes maps the same pairs, in the
    same order, as one copy of `n * m` bytes. -/
theorem copyMap_mul (src dst m : Nat) : ∀ n,
    copyMap src dst (n * m) =
      (List.range n).flatMap fun l => copyMap (src + l * m) (dst + l * m) m
  | 0 => by simp only [Nat.zero_mul, copyMap, List.range_zero, List.map_nil, List.flatMap_nil]
  | n + 1 => by
      rw [Nat.succ_mul, copyMap_add, copyMap_mul src dst m n, List.range_succ,
        List.flatMap_append, List.flatMap_singleton]

end Memory
