import Mathlib.Logic.Equiv.List
import Mathlib.Data.Nat.Digits.Defs
import Mathlib.Data.List.AList

/-!
# Byte Codecs

`serde_json::to_vec` and `serde_json::from_slice` at one type, as a pair of
functions `Json α`. The crate is outside the repository, and what a model
relies on is what its documentation promises for derived implementations:
`to_vec` succeeds, and `from_slice` reads back the value it wrote
(`Json.RoundTrips`).

Any encodable type has a codec with that property: write the base-256 digits
of its code and read them back (`Json.ofEncodable`). It is not JSON, but it
has the one property the models use, so a statement that assumes a
round-tripping codec can be run on it.

The digits and the codes of pairs and strings are computed by well-founded
recursion, which `decide` does not unfold. A codec that a run should go
through is therefore written by hand: a writer and a reader that undoes it
(`Json.ofReader`), built from structurally recursive pieces, such as a
string as three bytes per character (`stringBytes`, `readString`) or a
number in unary (`Json.unary`).

## Main definitions

* `Json`: An encoder to bytes and a decoder from bytes.
* `Json.RoundTrips`: The decoder reads back what the encoder writes.
* `Json.WritesNonempty`: The encoder never writes nothing.
* `Json.ofEncodable`: A codec for any encodable type.
* `Json.ofReader`: A codec from a writer and a reader that undoes it.
* `Json.unary`: A number as that many ones closed by a zero.
* `stringBytes`, `readString`: A string as the code points of its characters.

## Theorems

* `Json.RoundTrips.fromSlice_of_toVec`: Reading back what was written.
* `Json.roundTrips_ofEncodable`: That codec round-trips.
* `Json.roundTrips_ofReader`, `Json.writesNonempty_ofReader`: A writer with a
  reader that undoes it round-trips, and writes something if it always does.
* `readString_stringBytes`: Strings read back.
-/

/-- `serde_json::to_vec` and `serde_json::from_slice` at one type; an error
    carries the message of `serde_json::Error`. -/
structure Json (α : Type) where
  toVec : α → Except String (List UInt8)
  fromSlice : List UInt8 → Except String α

namespace Json

variable {α : Type}

/-- What serde_json promises a derived implementation: writing succeeds, and
    reading the bytes back gives the value. -/
def RoundTrips (json : Json α) : Prop :=
  ∀ x, ∃ bytes, json.toVec x = .ok bytes ∧ json.fromSlice bytes = .ok x

/-- What serde_json's writer also promises: a JSON document is never empty. -/
def WritesNonempty (json : Json α) : Prop :=
  ∀ x bytes, json.toVec x = .ok bytes → bytes ≠ []

/-- A round-tripping decoder reads back whatever its encoder wrote. -/
theorem RoundTrips.fromSlice_of_toVec {json : Json α} (h : json.RoundTrips) {x : α}
    {bytes : List UInt8} (hwrite : json.toVec x = .ok bytes) : json.fromSlice bytes = .ok x := by
  obtain ⟨bytes', hwrite', hread⟩ := h x
  rw [hwrite, Except.ok.injEq] at hwrite'
  rw [hwrite']
  exact hread

/-- The base-256 digits of a value's code, least significant first. -/
def ofEncodable [Encodable α] : Json α where
  toVec x := .ok ((Nat.digits 256 (Encodable.encode x)).map UInt8.ofNat)
  fromSlice bytes :=
    match Encodable.decode (Nat.ofDigits 256 (bytes.map UInt8.toNat)) with
    | some x => .ok x
    | none => .error "invalid value"

theorem roundTrips_ofEncodable [Encodable α] : (ofEncodable : Json α).RoundTrips := by
  intro x
  refine ⟨_, rfl, ?_⟩
  -- every digit fits in a byte
  have hdigits : ((Nat.digits 256 (Encodable.encode x)).map UInt8.ofNat).map UInt8.toNat =
      Nat.digits 256 (Encodable.encode x) := by
    rw [List.map_map]
    refine (List.map_congr_left fun d hd => ?_).trans (List.map_id _)
    have hlt : d < 256 := Nat.digits_lt_base (by decide) hd
    simp only [Function.comp_apply, UInt8.toNat_ofNat', Nat.reducePow, Nat.mod_eq_of_lt hlt, id]
  simp only [ofEncodable, hdigits, Nat.ofDigits_digits, Encodable.encodek]

/-- A codec from a writer and a reader that undoes it. -/
def ofReader (write : α → List UInt8) (read : List UInt8 → Option α) : Json α where
  toVec x := .ok (write x)
  fromSlice bytes :=
    match read bytes with
    | some x => .ok x
    | none => .error "invalid value"

theorem roundTrips_ofReader {write : α → List UInt8} {read : List UInt8 → Option α}
    (h : ∀ x, read (write x) = some x) : (ofReader write read).RoundTrips :=
  fun x => ⟨write x, rfl, by simp only [ofReader, h]⟩

theorem writesNonempty_ofReader {write : α → List UInt8} {read : List UInt8 → Option α}
    (h : ∀ x, write x ≠ []) : (ofReader write read).WritesNonempty := by
  intro x bytes hwrite
  rw [← Except.ok.inj hwrite]
  exact h x

/-- A number as that many ones closed by a zero. -/
def unary : Json Nat :=
  ofReader (fun n => List.replicate n 1 ++ [0]) fun bytes => some (bytes.length - 1)

theorem roundTrips_unary : unary.RoundTrips :=
  roundTrips_ofReader fun n => by simp

theorem writesNonempty_unary : unary.WritesNonempty :=
  writesNonempty_ofReader fun n => by simp

end Json

/-- A character as the three bytes of its code point, the high one first:
    every code point is below `2 ^ 24`. -/
def charBytes (c : Char) : List UInt8 :=
  [UInt8.ofNat (c.toNat / 65536), UInt8.ofNat (c.toNat / 256), UInt8.ofNat c.toNat]

/-- Characters read back three bytes at a time. -/
def readChars : List UInt8 → Option (List Char)
  | [] => some []
  | a :: b :: c :: rest =>
    (readChars rest).map (Char.ofNat (a.toNat * 65536 + b.toNat * 256 + c.toNat) :: ·)
  | _ => none

theorem Char.toNat_lt_two_pow (c : Char) : c.toNat < 2 ^ 24 := by
  have hvalid := c.valid
  simp only [UInt32.isValidChar, Nat.isValidChar] at hvalid
  simp only [Char.toNat]
  omega

theorem readChars_flatMap_charBytes (cs : List Char) :
    readChars (cs.flatMap charBytes) = some cs := by
  induction cs with
  | nil => rfl
  | cons c cs ih =>
    -- the three bytes put the code point back together
    have hcode : (UInt8.ofNat (c.toNat / 65536)).toNat * 65536 +
        (UInt8.ofNat (c.toNat / 256)).toNat * 256 + (UInt8.ofNat c.toNat).toNat = c.toNat := by
      have := Char.toNat_lt_two_pow c
      simp only [UInt8.toNat_ofNat']
      omega
    rw [List.flatMap_cons, charBytes, List.cons_append, List.cons_append, List.cons_append,
      List.nil_append, readChars, ih, hcode, Char.ofNat_toNat]
    rfl

/-- A string as the bytes of its characters. -/
def stringBytes (s : String) : List UInt8 :=
  s.toList.flatMap charBytes

/-- A string read back from the bytes of its characters. -/
def readString (bytes : List UInt8) : Option String :=
  (readChars bytes).map String.ofList

theorem readString_stringBytes (s : String) : readString (stringBytes s) = some s := by
  rw [readString, stringBytes, readChars_flatMap_charBytes, Option.map_some, String.ofList_toList]

/-- A byte is encoded by its value. -/
instance encodableUInt8 : Encodable UInt8 :=
  Encodable.ofLeftInverse UInt8.toNat UInt8.ofNat fun _ => UInt8.ofNat_toNat

/-- A map is encoded by its entries. -/
instance encodableAList {α : Type} {β : α → Type} [DecidableEq α] [Encodable α]
    [∀ a, Encodable (β a)] : Encodable (AList β) :=
  Encodable.ofLeftInjection AList.entries
    (fun l => if h : l.keys.Nodup then some ⟨l, h⟩ else none)
    fun s => dif_pos s.nodupKeys

/-- A character is encoded by its code point. -/
instance encodableChar : Encodable Char :=
  Encodable.ofLeftInverse Char.toNat Char.ofNat Char.ofNat_toNat

/-- A character's code point shifted past zero: a digit base `2 ^ 32 + 1`
    that is never zero. -/
def charDigit (c : Char) : Nat := c.toNat + 1

theorem charDigit_lt (c : Char) : charDigit c < 2 ^ 32 + 1 := by
  have := c.val.toNat_lt
  simp only [charDigit, Char.toNat]
  omega

/-- A string is encoded by its characters as the digits of one number. Its
    code grows with its length, where the nested pairs that encode a list
    square it at every character. -/
instance encodableString : Encodable String where
  encode s := Nat.ofDigits (2 ^ 32 + 1) (s.toList.map charDigit)
  decode n := some (String.ofList ((Nat.digits (2 ^ 32 + 1) n).map fun d => Char.ofNat (d - 1)))
  encodek s := by
    -- every digit is below the base and none is zero, so the digits read back
    have hdigits : Nat.digits (2 ^ 32 + 1) (Nat.ofDigits (2 ^ 32 + 1) (s.toList.map charDigit)) =
        s.toList.map charDigit := by
      refine Nat.digits_ofDigits _ (by norm_num) _ (fun d hd => ?_) fun h => ?_
      · obtain ⟨c, -, rfl⟩ := List.mem_map.mp hd
        exact charDigit_lt c
      · obtain ⟨c, -, hc⟩ := List.mem_map.mp (List.getLast_mem h)
        rw [← hc, charDigit]
        omega
    rw [hdigits, List.map_map]
    have hchar : (fun d => Char.ofNat (d - 1)) ∘ charDigit = id :=
      funext fun c => by simp [charDigit, Char.ofNat_toNat]
    rw [hchar, List.map_id, String.ofList_toList]
