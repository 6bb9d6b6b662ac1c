import Turnstile.Binary
import Turnstile.Identity.Tracker
import Turnstile.Word

/-!
# What is kept of violations

Outcomes are kept by the hour, violations by the day and the minute.  The trackers with violations
on a day are listed on rosters, one of sixteen for each tracker, so that no list grows too long.

* `hourName`, `dayName`, `pathName`, `minuteName`, `rosterName`: the names of the records.
* `rosterOf`: the number of the roster that lists a tracker.
-/

set_option autoImplicit false

namespace Turnstile.Violation

def hourMillis : UInt64 := 3600000

def dayMillis : UInt64 := 86400000

def minuteMillis : UInt64 := 60000

def hourOf (now : UInt64) : UInt64 := now / hourMillis

def dayOf (now : UInt64) : UInt64 := now / dayMillis

/-- The outcomes of a tracker's requests in an hour. -/
structure Outcomes where
  allowed : UInt64
  blocked : UInt64
  deriving DecidableEq, Repr

def Outcomes.none : Outcomes := ⟨0, 0⟩

def Outcomes.add (o : Outcomes) (allowed : Bool) : Outcomes :=
  if allowed then { o with allowed := satAdd o.allowed 1 }
  else { o with blocked := satAdd o.blocked 1 }

instance : Binary Outcomes :=
  Binary.via (fun o => (o.allowed, o.blocked)) fun (allowed, blocked) => ⟨allowed, blocked⟩

/-- Keys of trackers that have violations on a day. -/
structure Roster where
  members : Std.ExtTreeSet String

def Roster.empty : Roster := ⟨∅⟩

instance : Binary Roster := Binary.via Roster.members fun members => ⟨members⟩

/-- The number of rosters that share the trackers of a day. -/
def rosterCount : Nat := 16

/-- A word that is spread evenly over texts: byte by byte, exclusive or and a product with a prime
number. -/
def spread (bytes : Bytes) : UInt64 :=
  bytes.foldl (fun h b => (h ^^^ b.toUInt64) * 0x100000001b3) 0xcbf29ce484222325

/-- The number of the roster that lists a tracker. -/
def rosterOf (tracker : String) : Nat := (spread (Binary.utf8 tracker)).toNat % rosterCount

def numeral (n : Nat) : String := Nat.repr n

def hourName (now : UInt64) (t : Tracker) : String :=
  "vm:hour:" ++ numeral (hourOf now).toNat ++ ":" ++ t.key

def dayName (day : UInt64) (tracker : String) : String :=
  "vm:day:" ++ numeral day.toNat ++ ":tracker:" ++ tracker

def pathName (day : UInt64) (path : String) : String :=
  "vm:day:" ++ numeral day.toNat ++ ":path:" ++ path

def minuteName (t : Tracker) : String := "vm:minute:" ++ t.key

def rosterName (day : UInt64) (roster : Nat) : String :=
  "vm:day:" ++ numeral day.toNat ++ ":violators:" ++ numeral roster

end Turnstile.Violation
