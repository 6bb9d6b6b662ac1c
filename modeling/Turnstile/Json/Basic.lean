/-!
# JSON values

A value keeps what its text says: members of an object in their order with repetitions, and numbers
apart by how they are written, because a number with a point or an exponent never stands for a
count.

A string may hold an escape that is half of a surrogate pair.  Such a string names no text; it is
kept as `none`, so that a reader which has no use for it can pass over it.
-/

set_option autoImplicit false

namespace Turnstile

inductive Json where
  | null
  | bool (b : Bool)
  /-- A number written with digits alone. -/
  | nat (n : Nat)
  /-- Any other number, as it is written. -/
  | number (literal : String)
  /-- A string, or `none` where an escape in it names no character. -/
  | string (s : Option String)
  | array (items : List Json)
  | object (members : List (Option String × Json))

namespace Json

def text (s : String) : Json := .string (some s)

def word (n : UInt64) : Json := .nat n.toNat

/-- A value that may be missing, as `null` where it is. -/
def ofOption {α : Type} (f : α → Json) : Option α → Json
  | none => .null
  | some a => f a

/-- An object from names and values. -/
def record (members : List (String × Json)) : Json :=
  .object (members.map fun (name, value) => (some name, value))

def text? : Json → Option String
  | .string s => s
  | _ => none

/-- The value of a number below a bound, if it is written with digits alone. -/
def below? (bound : Nat) : Json → Option Nat
  | .nat n => if n < bound then some n else none
  | _ => none

def word? (j : Json) : Option UInt64 := (j.below? UInt64.size).map UInt64.ofNat

def word32? (j : Json) : Option UInt32 := (j.below? UInt32.size).map UInt32.ofNat

/-- The items of an array, each read with `f`. -/
def items? {α : Type} (f : Json → Option α) : Json → Option (List α)
  | .array items => items.mapM f
  | _ => none

end Json

end Turnstile
