import Turnstile.Env

/-!
# Records under names

A shelf keeps records of any type that has a binary form.  All its names stand under one label in
the store.  A record that cannot be read is removed, and counts as missing.

A counter on a shelf counts until a fixed instant: what is added to it moves the count and leaves
the instant alone.

* `load`, `save`, `remove`: records by name.
* `increment`, `counter`: counters by name.
-/

set_option autoImplicit false

namespace Turnstile

/-- Records under one label. -/
structure Shelf where
  /-- What all keys of the shelf start with. -/
  label : String
  deriving DecidableEq, Repr

/-- A count and the instant at which it is over. -/
structure Counter where
  count : UInt64
  endsAt : UInt64
  deriving DecidableEq, Repr

instance : Binary Counter :=
  Binary.via (fun c => (c.count, c.endsAt)) fun (count, endsAt) => ⟨count, endsAt⟩

def Counter.running (c : Counter) (now : UInt64) : Bool := now < c.endsAt

/-- A new counter, which counts for the given span. -/
def Counter.opened (now : UInt64) (ttl : Duration) : Counter := ⟨1, satAdd now ttl.millis⟩

/-- A counter after one more: the running one, or a new one. -/
def Counter.next (current : Option Counter) (now : UInt64) (ttl : Duration) : Counter :=
  match current with
  | some c => if c.running now then { c with count := satAdd c.count 1 } else opened now ttl
  | none => opened now ttl

/-- What a counter reads. -/
def Counter.reading (current : Option Counter) (now : UInt64) : UInt64 :=
  match current with
  | some c => if c.running now then c.count else 0
  | none => 0

namespace Shelf

/-- The label of shelves that are given none. -/
def defaultLabel : String := "admission:"

def key (s : Shelf) (name : String) : String := s.label ++ name

/-- The record under a name, if there is one that can be read. -/
def load {α : Type} [Binary α] (s : Shelf) (name : String) : StoreM (Option α) := do
  match ← StoreM.get (s.key name) with
  | none => pure none
  | some bytes =>
    match Binary.read? bytes with
    | some a => pure (some a)
    | none =>
      GateM.log (.recordDiscarded (s.key name))
      StoreM.delete (s.key name)
      pure none

def save {α : Type} [Binary α] (s : Shelf) (name : String) (a : α) (ttl : Option Duration) :
    StoreM Unit :=
  StoreM.set (s.key name) (Binary.encode a) ttl

def remove (s : Shelf) (name : String) : StoreM Unit := StoreM.delete (s.key name)

/-- Adds one to the counter under a name, which is new or over it counts for the given span, and
gives the count. -/
def increment (s : Shelf) (name : String) (ttl : Duration) : StoreM UInt64 := do
  let now ← GateM.now
  let current ← s.load name
  let c := Counter.next current now ttl
  s.save name c (some (.ofMillis (satSub c.endsAt now)))
  pure c.count

def counter (s : Shelf) (name : String) : StoreM UInt64 := do
  let now ← GateM.now
  let current ← s.load name
  pure (Counter.reading current now)

end Shelf

end Turnstile
