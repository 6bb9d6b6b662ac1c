import Turnstile.Identity.Address.Basic
import Turnstile.Identity.Address.Numeral

/-!
# Reading addresses

Every reader takes a text and gives what it read with the rest of the text, or nothing.

A short address is four bytes with points between them.  A long one is eight groups with colons
between them; two colons stand for one or more zero groups, and the last two groups may be written
as a short address, except right before the two colons.

A client is named by a plain address, by an address and a port, by an address in brackets, or by a
short address with something else than a port after a colon.

* `plain?`: a text that is one address and nothing else.
* `ofText?`: the address that names a client.
-/

set_option autoImplicit false

namespace Turnstile.Address

/-- The text after a given character at its start. -/
def expect (c : Char) : List Char → Option (List Char)
  | [] => none
  | d :: cs => if d = c then some cs else none

def readByte (cs : List Char) : Option (UInt8 × List Char) :=
  (octet.read cs).map fun (n, cs) => (UInt8.ofNat n, cs)

def readNextByte (cs : List Char) : Option (UInt8 × List Char) :=
  (expect '.' cs).bind readByte

/-- The four bytes of a short address. -/
def readBytes (cs : List Char) : Option ((UInt8 × UInt8 × UInt8 × UInt8) × List Char) := do
  let (a, cs) ← readByte cs
  let (b, cs) ← readNextByte cs
  let (c, cs) ← readNextByte cs
  let (d, cs) ← readNextByte cs
  some ((a, b, c, d), cs)

def readShort (cs : List Char) : Option (Address × List Char) :=
  (readBytes cs).map fun ((a, b, c, d), cs) => (.v4 a b c d, cs)

/-- A short address as the two groups that hold it. -/
def readDotted (cs : List Char) : Option ((UInt16 × UInt16) × List Char) :=
  (readBytes cs).map fun ((a, b, c, d), cs) => ((groupOfBytes a b, groupOfBytes c d), cs)

def readGroup (cs : List Char) : Option (UInt16 × List Char) :=
  (group.read cs).map fun (n, cs) => (UInt16.ofNat n, cs)

/-- What comes before a group: nothing before the first one, a colon before the others. -/
def afterColon (first : Bool) (cs : List Char) : Option (List Char) :=
  if first then some cs else expect ':' cs

/-- Groups with colons between them. -/
structure Groups where
  groups : List UInt16
  /-- Whether the last two of them were written as a short address. -/
  dotted : Bool
  rest : List Char

/-- As many groups as can be read, at most `room`.  A short address takes the room of two groups and
ends them. -/
def readGroups : (room : Nat) → (first : Bool) → List Char → Groups
  | 0, _, cs => ⟨[], false, cs⟩
  | room + 1, first, cs =>
    match if 0 < room then (afterColon first cs).bind readDotted else none with
    | some ((g, h), rest) => ⟨[g, h], true, rest⟩
    | none =>
      match (afterColon first cs).bind readGroup with
      | some (g, rest) =>
        let more := readGroups room false rest
        ⟨g :: more.groups, more.dotted, more.rest⟩
      | none => ⟨[], false, cs⟩

/-- The groups of a long address around two colons: those that are not written are zero. -/
def fillZeros (head tail : List UInt16) : List UInt16 :=
  head ++ List.replicate (8 - head.length - tail.length) 0 ++ tail

def readLong (cs : List Char) : Option (Address × List Char) :=
  let head := readGroups 8 true cs
  if head.groups.length = 8 then (ofGroups? head.groups).map (·, head.rest)
  else if head.dotted then none
  else
    match head.rest with
    | ':' :: ':' :: cs =>
      let tail := readGroups (7 - head.groups.length) true cs
      (ofGroups? (fillZeros head.groups tail.groups)).map (·, tail.rest)
    | _ => none

/-- A value that was read, if nothing comes after it. -/
def whole {α : Type} : Option (α × List Char) → Option α
  | some (a, []) => some a
  | _ => none

/-- A text that is one address. -/
def plain? (cs : List Char) : Option Address :=
  match readShort cs with
  | some r => whole (some r)
  | none => whole (readLong cs)

def readPort (cs : List Char) : Option (List Char) := do
  let cs ← expect ':' cs
  let (_, cs) ← port.read cs
  some cs

/-- The zone of a long address, if it has one. -/
def skipZone (cs : List Char) : List Char :=
  match (expect '%' cs).bind zone.read with
  | some (_, rest) => rest
  | none => cs

def readShortEndpoint (cs : List Char) : Option (Address × List Char) := do
  let (a, cs) ← readShort cs
  let cs ← readPort cs
  some (a, cs)

/-- A long address in brackets, perhaps with a zone, and a port. -/
def readLongEndpoint (cs : List Char) : Option (Address × List Char) := do
  let cs ← expect '[' cs
  let (a, cs) ← readLong cs
  let cs ← expect ']' (skipZone cs)
  let cs ← readPort cs
  some (a, cs)

/-- A text that is an address with a port. -/
def endpoint? (cs : List Char) : Option Address :=
  match readShortEndpoint cs with
  | some r => whole (some r)
  | none => whole (readLongEndpoint cs)

/-- A text that is an address in brackets. -/
def bracketed? : List Char → Option Address
  | '[' :: cs => if cs.getLast? = some ']' then plain? cs.dropLast else none
  | _ => none

/-- A text with a single colon and an address before it. -/
def host? (cs : List Char) : Option Address :=
  match cs.dropWhile (· ≠ ':') with
  | ':' :: rest => if ':' ∈ rest then none else plain? (cs.takeWhile (· ≠ ':'))
  | _ => none

/-- The address that names a client, in the first of the four forms that fits. -/
def ofText? (cs : List Char) : Option Address :=
  plain? cs <|> endpoint? cs <|> bracketed? cs <|> host? cs

end Turnstile.Address
