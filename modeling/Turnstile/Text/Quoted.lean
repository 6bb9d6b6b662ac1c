import Turnstile.Text.Hidden

/-!
# Texts quoted for a reader

A quoted text stands between double quotes.  A quote and a backslash inside it are written after a
backslash, tab, line feed, carriage return and the zero character by letter, other characters
without a shape of their own by number, and all else as it is.
-/

set_option autoImplicit false

namespace Turnstile.Text

/-- The digits of a number to the base sixteen, in small letters. -/
def hexDigits (n : Nat) : List Char := Nat.toDigits 16 n

def quoteChar (c : Char) : List Char :=
  match c with
  | '"' => ['\\', '"']
  | '\\' => ['\\', '\\']
  | '\t' => ['\\', 't']
  | '\n' => ['\\', 'n']
  | '\r' => ['\\', 'r']
  | '\x00' => ['\\', '0']
  | c => if isHidden c then ['\\', 'u', '\x7b'] ++ hexDigits c.toNat ++ ['\x7d'] else [c]

/-- A text between double quotes. -/
def quoted (s : String) : String :=
  String.ofList ('"' :: s.toList.flatMap quoteChar ++ ['"'])

/-- Texts in square brackets, quoted and with commas between them. -/
def quotedList (l : List String) : String :=
  "[" ++ ", ".intercalate (l.map quoted) ++ "]"

end Turnstile.Text
