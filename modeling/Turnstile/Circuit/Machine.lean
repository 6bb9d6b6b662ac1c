import Turnstile.Binary
import Turnstile.Word

/-!
# Circuits

A circuit is closed, open or half-open.  A closed one counts failures in a row and opens when they
reach a threshold.  An open one refuses everything until its timeout is over, and then lets callers
probe as a half-open one, which closes after enough successes and opens again at the first failure.

All of it is a pure machine on a record; who keeps the record is another matter.

* `poll`, `succeed`, `fail`: the three moves.
* `nextProbe`: when an open circuit lets a probe through.
-/

set_option autoImplicit false

namespace Turnstile

inductive Circuit.State where
  | closed
  | open
  | halfOpen
  deriving DecidableEq, Repr

/-- The record of a circuit. -/
structure Circuit where
  state : Circuit.State
  /-- Failures in a row, up to those that opened the circuit. -/
  failures : UInt32
  /-- Successes since the circuit became half-open. -/
  successes : UInt32
  /-- When the circuit opened, if it has. -/
  openedAt : Option UInt64
  deriving DecidableEq, Repr

namespace Circuit

def State.name : State → String
  | .closed => "closed"
  | .open => "open"
  | .halfOpen => "half_open"

def State.ofName? : String → Option State
  | "closed" => some .closed
  | "open" => some .open
  | "half_open" => some .halfOpen
  | _ => none

/-- What makes a circuit change its state. -/
structure Thresholds where
  /-- The failures in a row that open a closed circuit. -/
  failures : UInt32
  /-- The successes that close a half-open circuit. -/
  successes : UInt32
  /-- The milliseconds after which an open circuit lets probes through. -/
  timeout : UInt64
  deriving DecidableEq, Repr

/-- The record of a circuit that nothing has happened to. -/
def fresh : Circuit := ⟨.closed, 0, 0, none⟩

/-- Whether the timeout of an open circuit is over: more time has passed than it lasts. -/
def rested (c : Circuit) (t : Thresholds) (now : UInt64) : Bool :=
  t.timeout < satSub now (c.openedAt.getD 0)

/-- Whether a caller is let through, and the record after that. -/
def poll (c : Circuit) (t : Thresholds) (now : UInt64) : Bool × Circuit :=
  match c.state with
  | .closed | .halfOpen => (true, c)
  | .open =>
    if c.rested t now then (true, { c with state := .halfOpen, successes := 0 }) else (false, c)

def trip (c : Circuit) (now : UInt64) : Circuit :=
  { c with state := .open, openedAt := some now, successes := 0 }

/-- The record after a success.  An open circuit does not notice late ones. -/
def succeed (c : Circuit) (t : Thresholds) : Circuit :=
  match c.state with
  | .closed => { c with failures := 0 }
  | .halfOpen =>
    let successes := satSucc32 c.successes
    if t.successes ≤ successes then fresh else { c with successes }
  | .open => c

/-- The record after a failure.  An open circuit does not notice late ones. -/
def fail (c : Circuit) (t : Thresholds) (now : UInt64) : Circuit :=
  match c.state with
  | .closed =>
    let failures := satSucc32 c.failures
    if t.failures ≤ failures then { c with failures }.trip now else { c with failures }
  | .halfOpen => c.trip now
  | .open => c

/-- The instant that an open circuit announces for its next probe. -/
def nextProbe (c : Circuit) (t : Thresholds) : Option UInt64 :=
  match c.state with
  | .open => c.openedAt.map fun opened => satAdd opened t.timeout
  | _ => none

def State.index : State → UInt32
  | .closed => 0
  | .open => 1
  | .halfOpen => 2

def State.ofIndex? (n : UInt32) : Option State :=
  if n = 0 then some .closed else if n = 1 then some .open else if n = 2 then some .halfOpen
  else none

instance : Binary State := Binary.narrow State.index State.ofIndex?

instance : Binary Circuit :=
  Binary.via (fun c => (c.state, c.failures, c.successes, c.openedAt))
    fun (state, failures, successes, openedAt) => ⟨state, failures, successes, openedAt⟩

end Circuit

end Turnstile
