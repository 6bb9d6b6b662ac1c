/-!
# Numerals inside an address

The parts of an address are numerals that differ in base, length and range.  A `Numeral` states what
one kind of part allows, and `Numeral.read` takes the longest run of digits and accepts it whole or
not at all.

* `value`: the number that a run of digits stands for.
* `octet`, `group`, `port`, `zone`: the four kinds of part.
* `read_eq_some_iff`: what reading a numeral accepts.
-/

set_option autoImplicit false

namespace Turnstile.Address

/-- What a numeral of one kind may look like. -/
structure Numeral where
  /-- Ten or sixteen. -/
  base : Nat
  /-- The largest number of digits, if there is one. -/
  maxDigits : Option Nat
  /-- Whether a numeral of several digits may start with zero. -/
  leadingZero : Bool
  max : Nat

def octet : Numeral := ⟨10, some 3, false, 0xFF⟩

def group : Numeral := ⟨16, some 4, true, 0xFFFF⟩

def port : Numeral := ⟨10, none, true, 0xFFFF⟩

def zone : Numeral := ⟨10, none, true, 0xFFFFFFFF⟩

/-- The value of a character as a digit to a base of at most sixteen. -/
def digit? (base : Nat) (c : Char) : Option Nat :=
  let n :=
    if '0' ≤ c ∧ c ≤ '9' then c.toNat - '0'.toNat
    else if 'a' ≤ c ∧ c ≤ 'f' then c.toNat - 'a'.toNat + 10
    else if 'A' ≤ c ∧ c ≤ 'F' then c.toNat - 'A'.toNat + 10
    else base
  if n < base then some n else none

def isDigit (base : Nat) (c : Char) : Bool := (digit? base c).isSome

/-- The number that digits stand for, the highest digit first. -/
def value (base : Nat) (ds : List Char) : Nat :=
  ds.foldl (fun n c => n * base + (digit? base c).getD 0) 0

/-- What a numeral of the kind `k` demands of its digits. -/
def Numeral.Allows (k : Numeral) (ds : List Char) : Prop :=
  ds ≠ [] ∧ (∀ m ∈ k.maxDigits, ds.length ≤ m) ∧
    (k.leadingZero = true ∨ ds.length = 1 ∨ ds.head? ≠ some '0') ∧ value k.base ds ≤ k.max

instance (k : Numeral) (ds : List Char) : Decidable (k.Allows ds) :=
  inferInstanceAs (Decidable (_ ∧ _ ∧ _ ∧ _))

/-- Reads a numeral off the start of a text: all digits there are, or nothing. -/
def Numeral.read (k : Numeral) (cs : List Char) : Option (Nat × List Char) :=
  let ds := cs.takeWhile (isDigit k.base)
  if k.Allows ds then some (value k.base ds, cs.dropWhile (isDigit k.base)) else none

theorem Numeral.read_eq_some_iff {k : Numeral} {cs rest : List Char} {n : Nat} :
    k.read cs = some (n, rest) ↔
      k.Allows (cs.takeWhile (isDigit k.base)) ∧ value k.base (cs.takeWhile (isDigit k.base)) = n ∧
        cs.dropWhile (isDigit k.base) = rest := by
  simp only [Numeral.read, Option.ite_none_right_eq_some, Option.some.injEq, Prod.mk.injEq]

end Turnstile.Address
