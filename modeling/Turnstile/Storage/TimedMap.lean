import Std.Data.ExtTreeMap
import Turnstile.Binary
import Turnstile.Duration

/-!
# Entries that live until a deadline

A timed map gives bytes to keys.  An entry may have a deadline, and from that instant on it reads as
missing, though it takes up room until somebody reads it or expired entries are purged.

* `lookup`: what a key reads at an instant.
* `lookup_get`, `lookup_set`, `lookup_delete`, `lookup_purge`, `lookup_empty`: what each operation
  does to that reading, at the instant it takes place or any later one.
-/

set_option autoImplicit false

namespace Turnstile

/-- Bytes and the instant from which they do not count, if there is one. -/
structure Entry where
  value : Bytes
  deadline : Option UInt64
  deriving DecidableEq, Repr

/-- Whether the deadline of an entry has come. -/
def Entry.expired (e : Entry) (now : UInt64) : Bool := e.deadline.any (· ≤ now)

structure TimedMap where
  entries : Std.ExtTreeMap String Entry

namespace TimedMap

def empty : TimedMap := ⟨∅⟩

/-- The entry under a key that has not expired. -/
def live? (m : TimedMap) (now : UInt64) (key : String) : Option Entry :=
  m.entries[key]?.filter fun e => !e.expired now

/-- What a key reads at an instant. -/
def lookup (m : TimedMap) (now : UInt64) (key : String) : Option Bytes :=
  (m.live? now key).map Entry.value

/-- Reads a key, and drops its entry where that has expired. -/
def get (m : TimedMap) (now : UInt64) (key : String) : Option Bytes × TimedMap :=
  match m.entries[key]? with
  | none => (none, m)
  | some e => if e.expired now then (none, ⟨m.entries.erase key⟩) else (some e.value, m)

/-- The entry that is written at an instant with a time to live. -/
def entryAt (now : UInt64) (value : Bytes) (ttl : Option Duration) : Entry :=
  ⟨value, ttl.map fun d => satAdd now d.millis⟩

/-- Writes bytes under a key, in place of what was there. -/
def set (m : TimedMap) (now : UInt64) (key : String) (value : Bytes) (ttl : Option Duration) :
    TimedMap :=
  ⟨m.entries.insert key (entryAt now value ttl)⟩

def delete (m : TimedMap) (key : String) : TimedMap := ⟨m.entries.erase key⟩

/-- Drops the entries that have expired. -/
def purge (m : TimedMap) (now : UInt64) : TimedMap :=
  ⟨m.entries.filter fun _ e => !e.expired now⟩

/-- The number of entries, expired ones included. -/
def size (m : TimedMap) : Nat := m.entries.size

/-! ## What the operations do to a reading -/

theorem expired_mono {e : Entry} {s t : UInt64} (hst : s ≤ t) (h : e.expired s = true) :
    e.expired t = true := by
  unfold Entry.expired at *
  cases hd : e.deadline with
  | none => simp [hd] at h
  | some d =>
    simp only [hd, Option.any_some, decide_eq_true_eq] at h ⊢
    exact UInt64.le_trans h hst

theorem lookup_of_getElem? {m : TimedMap} {key : String} {e : Entry} (h : m.entries[key]? = some e)
    (now : UInt64) : m.lookup now key = if e.expired now then none else some e.value := by
  cases he : e.expired now <;> simp only [lookup, live?, h, Option.filter_some, he] <;> rfl

theorem lookup_of_getElem?_eq_none {m : TimedMap} {key : String} (h : m.entries[key]? = none)
    (now : UInt64) : m.lookup now key = none := by
  simp [lookup, live?, h]

@[simp] theorem lookup_empty (now : UInt64) (key : String) : empty.lookup now key = none :=
  lookup_of_getElem?_eq_none Std.ExtTreeMap.getElem?_empty now

/-- A key reads what `get` answers. -/
theorem fst_get (m : TimedMap) (now : UInt64) (key : String) :
    (m.get now key).1 = m.lookup now key := by
  unfold get
  cases h : m.entries[key]? with
  | none => exact (lookup_of_getElem?_eq_none h now).symm
  | some e =>
    rw [lookup_of_getElem? h]
    cases he : e.expired now <;> simp [he]

/-- Reading a key changes no reading from then on. -/
theorem lookup_get {m : TimedMap} {s t : UInt64} (hst : s ≤ t) (key other : String) :
    (m.get s key).2.lookup t other = m.lookup t other := by
  unfold get
  cases h : m.entries[key]? with
  | none => rfl
  | some e =>
    cases he : e.expired s with
    | false => simp [he]
    | true =>
      by_cases hk : key = other
      · subst hk
        rw [lookup_of_getElem? h, expired_mono hst he]
        simp [he, lookup, live?]
      · simp [he, lookup, live?, Std.ExtTreeMap.getElem?_erase, hk]

/-- A key reads what was written last, until its time to live is over. -/
theorem lookup_set (m : TimedMap) (s t : UInt64) (key other : String) (value : Bytes)
    (ttl : Option Duration) :
    (m.set s key value ttl).lookup t other =
      if key = other then
        if (entryAt s value ttl).expired t then none else some value
      else m.lookup t other := by
  by_cases hk : key = other
  · subst hk
    have h : (m.set s key value ttl).entries[key]? = some (entryAt s value ttl) := by simp [set]
    rw [lookup_of_getElem? h, if_pos rfl]
    rfl
  · simp [set, lookup, live?, Std.ExtTreeMap.getElem?_insert, hk]

/-- A removed key reads nothing. -/
theorem lookup_delete (m : TimedMap) (t : UInt64) (key other : String) :
    (m.delete key).lookup t other = if key = other then none else m.lookup t other := by
  by_cases hk : key = other <;> simp [delete, lookup, live?, Std.ExtTreeMap.getElem?_erase, hk]

/-- Purging changes no reading from then on. -/
theorem lookup_purge {m : TimedMap} {s t : UInt64} (hst : s ≤ t) (key : String) :
    (m.purge s).lookup t key = m.lookup t key := by
  have hp : (m.purge s).entries[key]? = m.live? s key := by
    simp [purge, live?, Std.ExtTreeMap.getElem?_filter]
  cases h : m.entries[key]? with
  | none =>
    rw [lookup_of_getElem?_eq_none h, lookup_of_getElem?_eq_none]
    simp [hp, live?, h]
  | some e =>
    cases he : e.expired s with
    | false =>
      rw [lookup_of_getElem? h, lookup_of_getElem? (e := e)]
      simp [hp, live?, h, he]
    | true =>
      rw [lookup_of_getElem? h, expired_mono hst he, if_pos rfl, lookup_of_getElem?_eq_none]
      simp [hp, live?, h, he]

end TimedMap

end Turnstile
