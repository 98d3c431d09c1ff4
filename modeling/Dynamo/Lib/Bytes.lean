import Mathlib.Data.List.TakeDrop
import Mathlib.Algebra.Order.Group.Nat
import Dynamo.Lib.Abort

/-!
# Bytes, Big-Endian Words and Unsigned Arithmetic

What a Rust program does with a byte buffer and with `usize` sums, stated
for buffers as lists of bytes.

A `u64` written with `to_be_bytes` or `BufMut::put_u64` is eight bytes, most
significant first, and `Buf::get_u64` reads it back. `beBytes k n` is the
low `k` bytes of `n` in that order and `beValue` reads any number of bytes
back; a `u64` is the case `k = 8`. The round trip is `beValue_beBytes`: the
bytes keep the value modulo `256 ^ k`, so a value that fits comes back
unchanged.

An addition on a `w`-bit unsigned integer has two meanings in Rust, chosen
by the build: with overflow checks on (the default of a debug build) an
overflowing sum panics, and with them off (the default of a release build)
it wraps. `OverflowChecks` names the two and `addUnsigned` is the sum under
either; below the bound both are the plain sum. The same setting decides
whether `debug_assert!` runs.

Slicing a buffer past its end and `split_to` past its end both panic;
`sliceTo` and `splitTo` return `Abort.panic` there with the library's
messages.

## Main definitions

* `beBytes`, `beValue`: Big-endian bytes of a number, and their value.
* `putU64`, `getU64`: The eight-byte case.
* `OverflowChecks`: Whether unsigned overflow panics or wraps.
* `addUnsigned`, `subUnsigned`, `mulUnsigned`: Rust's `+`, `-` and `*` on a
  `w`-bit unsigned integer.
* `debugAssert`: An assertion of a debug build only.
* `sliceTo`, `splitTo`: Taking a prefix of a buffer, which panics past its end.

## Theorems

* `beValue_beBytes`: Big-endian bytes keep their value modulo `256 ^ k`.
* `getU64_putU64`: Reading back a written `u64`.
* `addUnsigned_of_lt`: Below the bound a sum is the plain sum, in either build.
* `addUnsigned_enabled_eq_ok`: With overflow checks, a sum that returns is
  exact; likewise for `-` and `*`.
* `splitTo_of_le`: Splitting within the buffer.
-/

namespace Bytes

/-- The low `k` bytes of `n`, most significant first. -/
def beBytes : Nat → Nat → List UInt8
  | 0, _ => []
  | k + 1, n => beBytes k (n / 256) ++ [UInt8.ofNat (n % 256)]

/-- The value of bytes read most significant first. -/
def beValue (bytes : List UInt8) : Nat :=
  bytes.foldl (fun acc b => acc * 256 + b.toNat) 0

@[simp]
theorem length_beBytes (k n : Nat) : (beBytes k n).length = k := by
  induction k generalizing n with
  | zero => rfl
  | succ k ih => simp only [beBytes, List.length_append, ih, List.length_singleton]

theorem beValue_append_singleton (bytes : List UInt8) (b : UInt8) :
    beValue (bytes ++ [b]) = beValue bytes * 256 + b.toNat := by
  unfold beValue
  rw [List.foldl_append, List.foldl_cons, List.foldl_nil]

theorem beValue_beBytes (k n : Nat) : beValue (beBytes k n) = n % 256 ^ k := by
  induction k generalizing n with
  | zero => simp only [beBytes, beValue, List.foldl_nil, pow_zero, Nat.mod_one]
  | succ k ih =>
    rw [beBytes, beValue_append_singleton, ih]
    -- the last byte is the low digit, the rest the digits above it
    have hbyte : (UInt8.ofNat (n % 256)).toNat = n % 256 := by
      rw [UInt8.toNat_ofNat', Nat.mod_mod]
    rw [hbyte, Nat.pow_succ, Nat.mul_comm (256 ^ k) 256, Nat.mod_mul]
    omega

/-- `put_u64`: the eight bytes of a `u64`, most significant first. -/
def putU64 (n : Nat) : List UInt8 := beBytes 8 n

/-- `get_u64`: the `u64` in the first eight bytes. -/
def getU64 (bytes : List UInt8) : Nat := beValue (bytes.take 8)

@[simp]
theorem length_putU64 (n : Nat) : (putU64 n).length = 8 := length_beBytes 8 n

theorem getU64_putU64 (n : Nat) (rest : List UInt8) : getU64 (putU64 n ++ rest) = n % 2 ^ 64 := by
  unfold getU64
  have hpow : (256 : Nat) ^ 8 = 2 ^ 64 := rfl
  rw [List.take_left' (length_putU64 n), putU64, beValue_beBytes, hpow]

theorem getU64_putU64_of_lt {n : Nat} (hn : n < 2 ^ 64) (rest : List UInt8) :
    getU64 (putU64 n ++ rest) = n := by
  rw [getU64_putU64, Nat.mod_eq_of_lt hn]

/-- A `u64` read from the front of a buffer does not see what follows its
    eight bytes. -/
theorem getU64_append_of_le {bytes : List UInt8} (h : 8 ≤ bytes.length) (rest : List UInt8) :
    getU64 (bytes ++ rest) = getU64 bytes := by
  unfold getU64
  rw [List.take_append_of_le_length h]

/-- Whether an unsigned sum that overflows panics (a build with overflow
    checks, the default of a debug build) or wraps (without them, the
    default of a release build). -/
inductive OverflowChecks where
  | enabled
  | disabled
  deriving DecidableEq, Repr

/-- `a + b` on a `w`-bit unsigned integer. -/
def addUnsigned (checks : OverflowChecks) (w a b : Nat) : Except Abort Nat :=
  if a + b < 2 ^ w then .ok (a + b)
  else
    match checks with
    | .enabled => .error (.panic "attempt to add with overflow")
    | .disabled => .ok ((a + b) % 2 ^ w)

theorem addUnsigned_of_lt (checks : OverflowChecks) {w a b : Nat} (h : a + b < 2 ^ w) :
    addUnsigned checks w a b = .ok (a + b) := by
  unfold addUnsigned
  rw [if_pos h]

theorem addUnsigned_enabled_of_le {w a b : Nat} (h : 2 ^ w ≤ a + b) :
    addUnsigned .enabled w a b = .error (.panic "attempt to add with overflow") := by
  unfold addUnsigned
  rw [if_neg (Nat.not_lt.mpr h)]

/-- With overflow checks, a sum that returns is the exact sum. -/
theorem addUnsigned_enabled_eq_ok {w a b r : Nat} (h : addUnsigned .enabled w a b = .ok r) :
    a + b < 2 ^ w ∧ r = a + b := by
  unfold addUnsigned at h
  split at h
  · exact ⟨‹_›, (Except.ok.inj h).symm⟩
  · cases h

theorem addUnsigned_disabled (w a b : Nat) : addUnsigned .disabled w a b = .ok ((a + b) % 2 ^ w) := by
  unfold addUnsigned
  by_cases h : a + b < 2 ^ w
  · rw [if_pos h, Nat.mod_eq_of_lt h]
  · rw [if_neg h]

/-- `a - b` on a `w`-bit unsigned integer: below zero it panics with
    overflow checks and wraps without them. -/
def subUnsigned (checks : OverflowChecks) (w a b : Nat) : Except Abort Nat :=
  if b ≤ a then .ok (a - b)
  else
    match checks with
    | .enabled => .error (.panic "attempt to subtract with overflow")
    | .disabled => .ok (2 ^ w + a - b)

theorem subUnsigned_of_le (checks : OverflowChecks) {w a b : Nat} (h : b ≤ a) :
    subUnsigned checks w a b = .ok (a - b) := by
  unfold subUnsigned
  rw [if_pos h]

theorem subUnsigned_enabled_eq_ok {w a b r : Nat} (h : subUnsigned .enabled w a b = .ok r) :
    b ≤ a ∧ r = a - b := by
  unfold subUnsigned at h
  split at h
  · exact ⟨‹_›, (Except.ok.inj h).symm⟩
  · cases h

/-- `a * b` on a `w`-bit unsigned integer. -/
def mulUnsigned (checks : OverflowChecks) (w a b : Nat) : Except Abort Nat :=
  if a * b < 2 ^ w then .ok (a * b)
  else
    match checks with
    | .enabled => .error (.panic "attempt to multiply with overflow")
    | .disabled => .ok ((a * b) % 2 ^ w)

theorem mulUnsigned_of_lt (checks : OverflowChecks) {w a b : Nat} (h : a * b < 2 ^ w) :
    mulUnsigned checks w a b = .ok (a * b) := by
  unfold mulUnsigned
  rw [if_pos h]

theorem mulUnsigned_enabled_eq_ok {w a b r : Nat} (h : mulUnsigned .enabled w a b = .ok r) :
    a * b < 2 ^ w ∧ r = a * b := by
  unfold mulUnsigned at h
  split at h
  · exact ⟨‹_›, (Except.ok.inj h).symm⟩
  · cases h

/-- `debug_assert!`: a debug build, which is also the build with overflow
    checks, evaluates the condition and panics with the message when it is
    false; a release build does neither. -/
def debugAssert (checks : OverflowChecks) (cond : Except Abort Bool) (msg : String) :
    Except Abort Unit :=
  match checks with
  | .enabled => do if ← cond then pure () else throw (.panic msg)
  | .disabled => pure ()

theorem debugAssert_of_eq_ok (checks : OverflowChecks) {cond : Except Abort Bool} (msg : String)
    (h : cond = .ok true) : debugAssert checks cond msg = .ok () := by
  cases checks with
  | enabled => rw [debugAssert, h]; rfl
  | disabled => rfl

/-- `&buf[..n]`: the first `n` bytes, which panics past the end. -/
def sliceTo {α : Type} (buf : List α) (n : Nat) : Except Abort (List α) :=
  if n ≤ buf.length then .ok (buf.take n)
  else .error (.panic s!"range end index {n} out of range for slice of length {buf.length}")

/-- `BytesMut::split_to`: the first `n` bytes and what follows, which panics
    past the end. -/
def splitTo {α : Type} (buf : List α) (n : Nat) : Except Abort (List α × List α) :=
  if n ≤ buf.length then .ok (buf.take n, buf.drop n)
  else .error (.panic s!"split_to out of bounds: {n} <= {buf.length}")

theorem sliceTo_of_le {α : Type} {buf : List α} {n : Nat} (h : n ≤ buf.length) :
    sliceTo buf n = .ok (buf.take n) := by
  unfold sliceTo
  rw [if_pos h]

theorem sliceTo_of_lt {α : Type} {buf : List α} {n : Nat} (h : buf.length < n) :
    sliceTo buf n =
      .error (.panic s!"range end index {n} out of range for slice of length {buf.length}") := by
  unfold sliceTo
  rw [if_neg (Nat.not_le.mpr h)]

theorem splitTo_of_le {α : Type} {buf : List α} {n : Nat} (h : n ≤ buf.length) :
    splitTo buf n = .ok (buf.take n, buf.drop n) := by
  unfold splitTo
  rw [if_pos h]

end Bytes
