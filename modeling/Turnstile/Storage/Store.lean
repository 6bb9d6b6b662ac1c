import Turnstile.Storage.Error
import Turnstile.Storage.TimedMap

/-!
# The store

A store is a timed map that can be away.  During an outage every call fails, changes no entry, and
is counted.  A store may run on a clock of its own; otherwise it takes the clock of its callers.

* `get`, `set`, `delete`: the three calls.
* `get_of_outage`, `set_of_outage`, `delete_of_outage`: what they do during an outage.
-/

set_option autoImplicit false

namespace Turnstile

/-- A timed map with its clock and its health. -/
structure Store where
  entries : TimedMap
  /-- The instant on the store's own clock, if it has one. -/
  ownClock : Option UInt64
  /-- Whether the store is away. -/
  outage : Bool
  /-- The number of calls that failed because the store was away. -/
  failedCalls : UInt64

namespace Store

def empty (ownClock : Option UInt64) : Store := ⟨.empty, ownClock, false, 0⟩

/-- The instant that counts for the store, given the clock of its callers. -/
def time (s : Store) (now : UInt64) : UInt64 := s.ownClock.getD now

/-- How calls fail while the store is away. -/
def awayError : StoreError := .unavailable "simulated outage"

/-- The answer of a call that finds the store away. -/
def refuse {α : Type} (s : Store) : Except StoreError α × Store :=
  (.error awayError, { s with failedCalls := s.failedCalls + 1 })

def get (s : Store) (now : UInt64) (key : String) : Except StoreError (Option Bytes) × Store :=
  if s.outage then s.refuse
  else
    let (answer, entries) := s.entries.get (s.time now) key
    (.ok answer, { s with entries })

/-- Writes bytes under a key, with a time to live if there is one. -/
def set (s : Store) (now : UInt64) (key : String) (value : Bytes) (ttl : Option Duration) :
    Except StoreError Unit × Store :=
  if s.outage then s.refuse
  else (.ok (), { s with entries := s.entries.set (s.time now) key value ttl })

def delete (s : Store) (key : String) : Except StoreError Unit × Store :=
  if s.outage then s.refuse else (.ok (), { s with entries := s.entries.delete key })

/-- The number of entries, expired ones included. -/
def size (s : Store) : Nat := s.entries.size

/-- Drops the entries that have expired, and tells how many they were. -/
def purge (s : Store) (now : UInt64) : Nat × Store :=
  let entries := s.entries.purge (s.time now)
  (s.entries.size - entries.size, { s with entries })

def clear (s : Store) : Store := { s with entries := .empty }

/-- What a key reads at an instant, outages aside. -/
def lookup (s : Store) (now : UInt64) (key : String) : Option Bytes :=
  s.entries.lookup (s.time now) key

theorem get_of_outage {s : Store} (h : s.outage = true) (now : UInt64) (key : String) :
    s.get now key = s.refuse := by
  simp [get, h]

theorem set_of_outage {s : Store} (h : s.outage = true) (now : UInt64) (key : String)
    (value : Bytes) (ttl : Option Duration) : s.set now key value ttl = s.refuse := by
  simp [set, h]

theorem delete_of_outage {s : Store} (h : s.outage = true) (key : String) :
    s.delete key = s.refuse := by
  simp [delete, h]

/-- A store that is not away answers what the key reads. -/
theorem get_of_not_outage {s : Store} (h : s.outage = false) (now : UInt64) (key : String) :
    (s.get now key).1 = .ok (s.lookup now key) := by
  simp [get, h, lookup, TimedMap.fst_get]

end Store

end Turnstile
