import Turnstile.Json.Basic

/-!
# Writing JSON

The written form has no blanks.  A quote, a backslash and the five control characters that have a
letter are written after a backslash, the other control characters by number, and all else as it is.

* `write`: the text of a value.
-/

set_option autoImplicit false

namespace Turnstile.Json

def hexDigit (n : Nat) : Char := Nat.digitChar (n % 16)

def writeChar (c : Char) : List Char :=
  match c with
  | '"' => ['\\', '"']
  | '\\' => ['\\', '\\']
  | '\x08' => ['\\', 'b']
  | '\x0c' => ['\\', 'f']
  | '\n' => ['\\', 'n']
  | '\r' => ['\\', 'r']
  | '\t' => ['\\', 't']
  | c =>
    if c.toNat < 0x20 then ['\\', 'u', '0', '0', hexDigit (c.toNat / 16), hexDigit c.toNat]
    else [c]

def writeString (cs : List Char) : List Char := '"' :: cs.flatMap writeChar ++ ['"']

/-- A string that may name no text, which is then written as an empty one. -/
def writeText : Option String → List Char
  | none => writeString []
  | some s => writeString s.toList

mutual

def writeValue : Json → List Char
  | .null => ['n', 'u', 'l', 'l']
  | .bool true => ['t', 'r', 'u', 'e']
  | .bool false => ['f', 'a', 'l', 's', 'e']
  | .nat n => Nat.toDigits 10 n
  | .number literal => literal.toList
  | .string s => writeText s
  | .array [] => ['[', ']']
  | .array (item :: items) => '[' :: writeValue item ++ writeItems items
  | .object [] => ['\x7b', '\x7d']
  | .object ((name, value) :: members) =>
    '\x7b' :: writeText name ++ ':' :: writeValue value ++ writeMembers members

/-- The items of an array after the first, and the closing bracket. -/
def writeItems : List Json → List Char
  | [] => [']']
  | item :: items => ',' :: writeValue item ++ writeItems items

/-- The members of an object after the first, and the closing brace. -/
def writeMembers : List (Option String × Json) → List Char
  | [] => ['\x7d']
  | (name, value) :: members =>
    ',' :: writeText name ++ ':' :: writeValue value ++ writeMembers members

end

def write (j : Json) : String := String.ofList (writeValue j)

end Turnstile.Json
