import Turnstile.Json.Basic

/-!
# Reading records out of JSON

A record is an object whose members have the names of its fields, in any order, or an array of the
fields in their order, from which the last ones may be missing.  Members with other names do not
count; a field that is given twice, and a name that is no text, make the record unreadable.

A word out of a fixed list is a string, or an object with that word as its only member and `null`
under it.

* `fields?`: the fields of a record, as far as they are given.
* `oneOf?`, `orDefault`, `nullable`: readers for one field.
-/

set_option autoImplicit false

namespace Turnstile.Json

/-- The values of the members with a name. -/
def membersNamed (name : String) (members : List (Option String × Json)) : List Json :=
  members.filterMap fun (n, value) => if n = some name then some value else none

/-- The value of a field that is given at most once. -/
def field? (members : List (Option String × Json)) (name : String) : Option (Option Json) :=
  match membersNamed name members with
  | [] => some none
  | [value] => some (some value)
  | _ => none

/-- The fields of a record with the given names, as far as they are given. -/
def fields? (names : List String) : Json → Option (List (Option Json))
  | .object members =>
    if members.all fun m => m.1.isSome then names.mapM (field? members) else none
  | .array items =>
    if items.length ≤ names.length then
      some (items.map some ++ List.replicate (names.length - items.length) none)
    else none
  | _ => none

/-- Reads a field, or takes a default where it is not given. -/
def orDefault {α : Type} (default : α) (f : Json → Option α) : Option Json → Option α
  | none => some default
  | some j => f j

/-- Reads a value, or `null` as no value. -/
def nullable {α : Type} (f : Json → Option α) : Json → Option (Option α)
  | .null => some none
  | j => (f j).map some

/-- Reads one of a fixed list of words. -/
def oneOf? {α : Type} (ofName? : String → Option α) : Json → Option α
  | .string (some s) => ofName? s
  | .object [(some s, .null)] => ofName? s
  | _ => none

end Turnstile.Json
