import Turnstile.Identity.Address.Reader
import Turnstile.Text.Blank

/-!
# Writing addresses

An address has one written form: bytes in decimals; groups in small hexadecimal digits without
leading zeros, where the longest run of two or more zero groups, the first of several, is left out
between two colons.

* `text`: the written form of an address.
* `canonical`: the one form of a client's address, and of anything else the text without blanks
  around it and in small letters.
-/

set_option autoImplicit false

namespace Turnstile.Address

/-- Where the longest run of zero groups starts, and how long it is; the first of the longest. -/
def longestZeros : List UInt16 → Nat × Nat
  | [] => (0, 0)
  | g :: gs =>
    let here := ((g :: gs).takeWhile (· = 0)).length
    let later := longestZeros gs
    if later.2 ≤ here then (0, here) else (later.1 + 1, later.2)

/-- Groups with colons between them. -/
def joined : List UInt16 → List Char
  | [] => []
  | [g] => Nat.toDigits 16 g.toNat
  | g :: gs => Nat.toDigits 16 g.toNat ++ ':' :: joined gs

def groupsText (gs : List UInt16) : List Char :=
  let run := longestZeros gs
  if run.2 < 2 then joined gs
  else joined (gs.take run.1) ++ [':', ':'] ++ joined (gs.drop (run.1 + run.2))

def text : Address → List Char
  | .v4 a b c d =>
    Nat.toDigits 10 a.toNat ++ '.' :: Nat.toDigits 10 b.toNat ++ '.' :: Nat.toDigits 10 c.toNat
      ++ '.' :: Nat.toDigits 10 d.toNat
  | .v6 g => groupsText g.toList

/-- The one form of a client's address.  Text that is no address is kept without the blanks around
it and in small letters. -/
def canonical (raw : String) : String :=
  let cs := Text.trim raw.toList
  match ofText? cs with
  | some a => String.ofList a.collapsed.text
  | none => String.ofList (cs.map Char.toLower)

end Turnstile.Address
