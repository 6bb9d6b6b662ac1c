import Turnstile.Json.Basic

/-!
# Reading JSON

The grammar is the standard one: blanks are the space, the tab and the two line ends; strings hold
no control characters; numbers have no leading zeros; no comma stands before a closing bracket.

Every reader takes a text and gives what it read with the rest of the text, or nothing.  A value
holds values inside it, so the reader of values has a bound on its depth; `read?` gives it more than
the text can use.

* `read?`: the value that a whole text stands for.
-/

set_option autoImplicit false

namespace Turnstile.Json

/-- Whether a character may stand between two parts of a text. -/
def isGap (c : Char) : Bool := c = ' ' || c = '\t' || c = '\n' || c = '\r'

/-- A text without the gap at its start. -/
def skipGap (cs : List Char) : List Char := cs.dropWhile isGap

/-! ## Strings -/

/-- A part of a string: a character, or half of a surrogate pair. -/
inductive Piece where
  | char (c : Char)
  | half (n : Nat)
  deriving DecidableEq, Repr

def hexDigit? (c : Char) : Option Nat :=
  if '0' ≤ c ∧ c ≤ '9' then some (c.toNat - '0'.toNat)
  else if 'a' ≤ c ∧ c ≤ 'f' then some (c.toNat - 'a'.toNat + 10)
  else if 'A' ≤ c ∧ c ≤ 'F' then some (c.toNat - 'A'.toNat + 10)
  else none

/-- The part of a string that a number of sixteen bits names. -/
def Piece.ofNat (n : Nat) : Piece :=
  if 0xD800 ≤ n ∧ n < 0xE000 then .half n else .char (Char.ofNat n)

/-- The part of a string that four digits name. -/
def numbered? (a b c d : Char) : Option Piece := do
  let a ← hexDigit? a
  let b ← hexDigit? b
  let c ← hexDigit? c
  let d ← hexDigit? d
  some (.ofNat (((a * 16 + b) * 16 + c) * 16 + d))

/-- The character that a letter after a backslash names. -/
def escaped? (c : Char) : Option Char :=
  match c with
  | '"' => some '"'
  | '\\' => some '\\'
  | '/' => some '/'
  | 'b' => some '\x08'
  | 'f' => some '\x0c'
  | 'n' => some '\n'
  | 'r' => some '\r'
  | 't' => some '\t'
  | _ => none

/-- The parts of a string up to its closing quote, which is taken too. -/
def readPieces : List Char → Option (List Piece × List Char)
  | [] => none
  | '"' :: cs => some ([], cs)
  | '\\' :: 'u' :: a :: b :: c :: d :: cs => do
    let p ← numbered? a b c d
    let (ps, rest) ← readPieces cs
    some (p :: ps, rest)
  | '\\' :: c :: cs => do
    let c ← escaped? c
    let (ps, rest) ← readPieces cs
    some (.char c :: ps, rest)
  | c :: cs =>
    if c.toNat < 0x20 ∨ c = '\\' then none
    else do
      let (ps, rest) ← readPieces cs
      some (.char c :: ps, rest)

/-- The character that two halves make together. -/
def pairChar (hi lo : Nat) : Char := Char.ofNat (0x10000 + (hi - 0xD800) * 0x400 + (lo - 0xDC00))

/-- The characters of a string, if all its halves stand in pairs, an upper one before a lower
one. -/
def joinPieces : List Piece → Option (List Char)
  | [] => some []
  | .char c :: ps => (joinPieces ps).map (c :: ·)
  | .half hi :: .half lo :: ps =>
    if hi < 0xDC00 ∧ 0xDC00 ≤ lo then (joinPieces ps).map (pairChar hi lo :: ·) else none
  | .half _ :: _ => none

/-- A string after its opening quote. -/
def readString (cs : List Char) : Option (Option String × List Char) :=
  (readPieces cs).map fun (ps, rest) => ((joinPieces ps).map String.ofList, rest)

/-! ## Numbers -/

/-- The digits at the start of a text, with the rest. -/
def spanDigits (cs : List Char) : List Char × List Char :=
  (cs.takeWhile Char.isDigit, cs.dropWhile Char.isDigit)

/-- The digits of a whole part: a zero alone, or digits that do not start with zero. -/
def readWhole (cs : List Char) : Option (List Char × List Char) :=
  match spanDigits cs with
  | ([], _) => none
  | (['0'], rest) => some (['0'], rest)
  | ('0' :: _, _) => none
  | r => some r

/-- The part after a point, with the point; nothing where there is no point. -/
def readFraction : List Char → Option (List Char × List Char)
  | '.' :: cs =>
    match spanDigits cs with
    | ([], _) => none
    | (ds, rest) => some ('.' :: ds, rest)
  | cs => some ([], cs)

/-- The sign of an exponent, with the rest. -/
def spanSign : List Char → List Char × List Char
  | '+' :: cs => (['+'], cs)
  | '-' :: cs => (['-'], cs)
  | cs => ([], cs)

/-- The exponent, with its letter; nothing where there is none. -/
def readExponent : List Char → Option (List Char × List Char)
  | [] => some ([], [])
  | c :: cs =>
    if c = 'e' ∨ c = 'E' then
      match spanDigits (spanSign cs).2 with
      | ([], _) => none
      | (ds, rest) => some (c :: (spanSign cs).1 ++ ds, rest)
    else some ([], c :: cs)

/-- A number that starts with a digit. -/
def readUnsigned (cs : List Char) : Option (Json × List Char) := do
  let (whole, cs) ← readWhole cs
  let (fraction, cs) ← readFraction cs
  let (exponent, cs) ← readExponent cs
  if fraction = [] ∧ exponent = [] then some (.nat (Nat.ofDigitChars 10 whole 0), cs)
  else some (.number (String.ofList (whole ++ fraction ++ exponent)), cs)

def readNumber : List Char → Option (Json × List Char)
  | '-' :: cs =>
    (readUnsigned cs).map fun
      | (.number literal, rest) => (.number ("-" ++ literal), rest)
      | (.nat n, rest) => (.number ("-" ++ toString n), rest)
      | r => r
  | cs => readUnsigned cs

/-! ## Values -/

/-- The text after a word at its start. -/
def expectWord : List Char → List Char → Option (List Char)
  | [], cs => some cs
  | _ :: _, [] => none
  | w :: ws, c :: cs => if c = w then expectWord ws cs else none

mutual

/-- A value, after a gap. -/
def readValue : (depth : Nat) → List Char → Option (Json × List Char)
  | 0, _ => none
  | depth + 1, cs =>
    match skipGap cs with
    | 'n' :: cs => (expectWord ['u', 'l', 'l'] cs).map (.null, ·)
    | 't' :: cs => (expectWord ['r', 'u', 'e'] cs).map (.bool true, ·)
    | 'f' :: cs => (expectWord ['a', 'l', 's', 'e'] cs).map (.bool false, ·)
    | '"' :: cs => (readString cs).map fun (s, cs) => (.string s, cs)
    | '[' :: cs =>
      match skipGap cs with
      | ']' :: cs => some (.array [], cs)
      | cs => (readItems depth cs).map fun (items, cs) => (.array items, cs)
    | '\x7b' :: cs =>
      match skipGap cs with
      | '\x7d' :: cs => some (.object [], cs)
      | cs => (readMembers depth cs).map fun (members, cs) => (.object members, cs)
    | cs => readNumber cs

/-- The items of an array, the first of which must be there, and the closing bracket. -/
def readItems : (depth : Nat) → List Char → Option (List Json × List Char)
  | 0, _ => none
  | depth + 1, cs => do
    let (item, cs) ← readValue depth cs
    match skipGap cs with
    | ']' :: cs => some ([item], cs)
    | ',' :: cs =>
      let (items, cs) ← readItems depth cs
      some (item :: items, cs)
    | _ => none

/-- The members of an object, the first of which must be there, and the closing brace. -/
def readMembers : (depth : Nat) → List Char → Option (List (Option String × Json) × List Char)
  | 0, _ => none
  | depth + 1, cs => do
    let cs ← expectWord ['"'] (skipGap cs)
    let (name, cs) ← readString cs
    let cs ← expectWord [':'] (skipGap cs)
    let (value, cs) ← readValue depth cs
    match skipGap cs with
    | '\x7d' :: cs => some ([(name, value)], cs)
    | ',' :: cs =>
      let (members, cs) ← readMembers depth cs
      some ((name, value) :: members, cs)
    | _ => none

end

/-- The value that a text stands for.  No part of the text is taken twice at the same depth, so
twice its length is depth enough. -/
def read? (s : String) : Option Json :=
  let cs := s.toList
  match readValue (2 * cs.length + 2) cs with
  | some (j, rest) => if skipGap rest = [] then some j else none
  | none => none

end Turnstile.Json
