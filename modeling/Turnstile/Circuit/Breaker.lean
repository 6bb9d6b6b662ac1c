import Turnstile.Circuit.Settings
import Turnstile.Shelf

/-!
# The breaker

A breaker keeps circuits on a shelf.  It writes a circuit only when an operation changes it, and
logs a change of state only after it is written.  Without the store every circuit counts as
closed.

* `admits`: whether a circuit lets a caller through.
* `recordSuccess`, `recordFailure`, `record`: what became of a caller.
* `reset`, `status`: forgetting a circuit, and looking at one.
-/

set_option autoImplicit false

namespace Turnstile

open Circuit (Key)

structure Breaker where
  shelf : Shelf
  settings : Circuit.Settings
  deriving DecidableEq, Repr

/-- A circuit as others see it. -/
structure Circuit.Status where
  key : Key
  circuit : Circuit
  /-- The instant that an open circuit announces for its next probe. -/
  nextProbe : Option UInt64
  deriving DecidableEq, Repr

namespace Breaker

/-- A breaker, if nothing is wrong with its settings. -/
def ofSettings (shelf : Shelf) (settings : Circuit.Settings) : Except SettingsError Breaker :=
  match settings.fault? with
  | none => .ok ⟨shelf, settings⟩
  | some e => .error e

def thresholds (b : Breaker) : Circuit.Thresholds := b.settings.thresholds

/-- The record of a circuit, a fresh one where there is none. -/
def load (b : Breaker) (key : Key) : StoreM Circuit := do
  let c : Option Circuit ← b.shelf.load key.text
  pure (c.getD .fresh)

def save (b : Breaker) (key : Key) (c : Circuit) : StoreM Unit :=
  b.shelf.save key.text c (some b.settings.recordTtl)

def storeFailed (key : Key) (e : StoreError) : GateM Unit := do
  GateM.count .countStoreError
  GateM.log (.circuitUnavailable e key)

/-- Whether a circuit lets a caller through, or the failure of the store. -/
def tryAdmits (b : Breaker) (key : Key) : StoreM Bool := do
  let c ← b.load key
  let now ← GateM.now
  let (through, c') := c.poll b.thresholds now
  if c'.state = c.state then pure through
  else
    b.save key c'
    GateM.log (.probeAdmitted key)
    pure through

def admits (b : Breaker) (key : Key) : GateM Bool := do
  match ← (b.tryAdmits key).attempt with
  | .ok through => pure through
  | .error e =>
    storeFailed key e
    pure true

/-- Brings a circuit from one record to the next, and logs the event of that, if there is one. -/
def advance (b : Breaker) (key : Key) (c c' : Circuit) (event : Option Event) : StoreM Unit :=
  if c' = c then pure ()
  else do
    b.save key c'
    match event with
    | none => pure ()
    | some e => GateM.log e

def successEvent (key : Key) (c c' : Circuit) : Option Event :=
  if c.state = .halfOpen ∧ c'.state = .closed then some (.circuitClosed key) else none

def failureEvent (key : Key) (c c' : Circuit) : Option Event :=
  if c'.state = .open then some (.circuitOpened key c.state c'.failures) else none

/-- Counts a success, or gives the failure of the store. -/
def trySuccess (b : Breaker) (key : Key) : StoreM Unit := do
  let c ← b.load key
  let c' := c.succeed b.thresholds
  b.advance key c c' (successEvent key c c')

/-- Counts a failure, or gives the failure of the store. -/
def tryFailure (b : Breaker) (key : Key) : StoreM Unit := do
  let c ← b.load key
  let now ← GateM.now
  let c' := c.fail b.thresholds now
  b.advance key c c' (failureEvent key c c')

/-- Carries out an operation on a circuit; a failure of the store is counted and logged. -/
def settle (key : Key) (x : StoreM Unit) : GateM Unit := do
  match ← x.attempt with
  | .ok () => pure ()
  | .error e => storeFailed key e

def recordSuccess (b : Breaker) (key : Key) : GateM Unit := settle key (b.trySuccess key)

def recordFailure (b : Breaker) (key : Key) : GateM Unit := settle key (b.tryFailure key)

def record (b : Breaker) (key : Key) (succeeded : Bool) : GateM Unit :=
  if succeeded then b.recordSuccess key else b.recordFailure key

def reset (b : Breaker) (key : Key) : GateM Unit :=
  settle key do
    b.shelf.remove key.text
    GateM.log (.circuitReset key)

def statusOf (b : Breaker) (key : Key) (c : Circuit) : Circuit.Status :=
  ⟨key, c, c.nextProbe b.thresholds⟩

def status (b : Breaker) (key : Key) : GateM Circuit.Status := do
  match ← (b.load key).attempt with
  | .ok c => pure (b.statusOf key c)
  | .error e =>
    storeFailed key e
    pure (b.statusOf key .fresh)

end Breaker

end Turnstile
