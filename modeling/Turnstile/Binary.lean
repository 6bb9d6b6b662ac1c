import Std.Data.ExtTreeSet

/-!
# The binary form of records

Records are kept as bytes.  Words have a fixed width with the least byte first; an optional value is
a zero byte, or a one byte and the value; a text and a list are their length as a 64-bit word and
then their items; a record is its fields in order.

Reading takes a value off the start of the bytes and leaves the rest, so that records read one field
after the other.  What comes after a whole record does not matter.

* `Binary`: the types with a binary form.
* `Binary.via`, `Binary.narrow`: the binary form of a type inside another one.
* `Binary.read?`: the value that bytes start with.
* `ofLeBytes_leBytes`, `split?_append`, `ofUtf8?_utf8`: words, pieces of bytes and texts are read
  back as they were written.
-/

set_option autoImplicit false

namespace Turnstile

/-- The content of an entry of the store. -/
abbrev Bytes := List UInt8

/-- A type whose values are written as bytes and read off the start of bytes. -/
class Binary (α : Type) where
  encode : α → Bytes
  decode : Bytes → Option (α × Bytes)

namespace Binary

/-- The value that bytes start with. -/
def read? {α : Type} [Binary α] (bytes : Bytes) : Option α := (decode bytes).map Prod.fst

/-! ## Words -/

/-- The `width` least bytes of a number, the least first. -/
def leBytes : (width : Nat) → Nat → Bytes
  | 0, _ => []
  | width + 1, n => UInt8.ofNat n :: leBytes width (n / 256)

/-- The number with the given bytes, the least first. -/
def ofLeBytes : Bytes → Nat
  | [] => 0
  | b :: bytes => b.toNat + 256 * ofLeBytes bytes

/-- The first `n` of some bytes and the rest, if there are so many. -/
def split? (n : Nat) (bytes : Bytes) : Option (Bytes × Bytes) :=
  let first := bytes.take n
  if first.length = n then some (first, bytes.drop n) else none

@[simp] theorem length_leBytes (width n : Nat) : (leBytes width n).length = width := by
  induction width generalizing n with
  | zero => rfl
  | succ width ih => simp [leBytes, ih]

/-- Bytes hold a number up to what is too large for them. -/
theorem ofLeBytes_leBytes (width n : Nat) : ofLeBytes (leBytes width n) = n % Nat.pow 256 width := by
  induction width generalizing n with
  | zero => simp [leBytes, ofLeBytes, Nat.mod_one]
  | succ width ih =>
    have h : Nat.pow 256 (width + 1) = 256 * Nat.pow 256 width := Nat.mul_comm _ _
    rw [leBytes, ofLeBytes, ih, UInt8.toNat_ofNat', h, Nat.mod_mul]

/-- What stands before a rest of bytes is split off it by its length. -/
theorem split?_append (first rest : Bytes) :
    split? first.length (first ++ rest) = some (first, rest) := by
  simp [split?]

/-- Bytes that are too few are not split. -/
theorem split?_eq_none_iff {n : Nat} {bytes : Bytes} :
    split? n bytes = none ↔ bytes.length < n := by
  simp only [split?, List.length_take, ite_eq_right_iff, reduceCtorEq, imp_false]
  omega

instance : Binary UInt32 where
  encode n := leBytes 4 n.toNat
  decode bytes := (split? 4 bytes).map fun (bs, rest) => (UInt32.ofNat (ofLeBytes bs), rest)

instance : Binary UInt64 where
  encode n := leBytes 8 n.toNat
  decode bytes := (split? 8 bytes).map fun (bs, rest) => (UInt64.ofNat (ofLeBytes bs), rest)

def encodeLength (n : Nat) : Bytes := encode (UInt64.ofNat n)

def decodeLength (bytes : Bytes) : Option (Nat × Bytes) :=
  (decode bytes).map fun ((n : UInt64), rest) => (n.toNat, rest)

/-! ## Compounds -/

instance {α β : Type} [Binary α] [Binary β] : Binary (α × β) where
  encode p := encode p.1 ++ encode p.2
  decode bytes := do
    let (a, bytes) ← decode bytes
    let (b, bytes) ← decode bytes
    some ((a, b), bytes)

instance {α : Type} [Binary α] : Binary (Option α) where
  encode
    | none => [0]
    | some a => 1 :: encode a
  decode
    | 0 :: bytes => some (none, bytes)
    | 1 :: bytes => (decode bytes).map fun (a, rest) => (some a, rest)
    | _ => none

def utf8 (s : String) : Bytes := s.toList.flatMap String.utf8EncodeChar

def ofUtf8? (bytes : Bytes) : Option String := String.fromUTF8? bytes.toByteArray

/-- The bytes of a text are read back as the text. -/
theorem ofUtf8?_utf8 (s : String) : ofUtf8? (utf8 s) = some s := by
  have h : (utf8 s).toByteArray = s.toByteArray := String.utf8Encode_toList
  rw [ofUtf8?, h, String.fromUTF8?, dif_pos s.isValidUTF8]
  rfl

instance : Binary String where
  encode s := encodeLength (utf8 s).length ++ utf8 s
  decode bytes := do
    let (n, bytes) ← decodeLength bytes
    let (bs, bytes) ← split? n bytes
    let s ← ofUtf8? bs
    some (s, bytes)

/-- A number of items, one after the other. -/
def decodeItems {α : Type} [Binary α] : (count : Nat) → Bytes → Option (List α × Bytes)
  | 0, bytes => some ([], bytes)
  | count + 1, bytes => do
    let (a, bytes) ← decode bytes
    let (as, bytes) ← decodeItems count bytes
    some (a :: as, bytes)

instance {α : Type} [Binary α] : Binary (List α) where
  encode l := encodeLength l.length ++ l.flatMap encode
  decode bytes := (decodeLength bytes).bind fun (n, rest) => decodeItems n rest

/-! ## Types inside other types -/

/-- The form of a type whose values stand for values of another one, read where they do. -/
@[reducible] def narrow {α β : Type} [Binary β] (f : α → β) (g : β → Option α) : Binary α where
  encode a := encode (f a)
  decode bytes := do
    let (b, rest) ← decode bytes
    let a ← g b
    some (a, rest)

/-- The form of a type whose values correspond to those of another one. -/
@[reducible] def via {α β : Type} [Binary β] (f : α → β) (g : β → α) : Binary α :=
  narrow f (some ∘ g)

/-- A set of texts is the list of its members in rising order. -/
instance : Binary (Std.ExtTreeSet String) :=
  via Std.ExtTreeSet.toList fun l => Std.ExtTreeSet.ofList l

end Binary

end Turnstile
