import Turnstile.Event
import Turnstile.Metrics
import Turnstile.Storage.Store

/-!
# The surroundings of an operation

An operation reads a clock and the store, writes the log and moves the counters of its gate.  All
that is one value, `Env`, and an operation is a function on it: `GateM` for operations that always
answer, `StoreM` for those that a failing call on the store cuts short.

Calls on the store may be made to fail: `faults` says which of the calls since the record of calls
was started fails, and how, without reaching the store.  Every call is recorded with its answer.

* `StoreM.get`, `StoreM.set`, `StoreM.delete`: the three calls on the store.
* `GateM.log`, `GateM.count`, `GateM.now`: the other effects.
* `StoreM.attempt`: an operation that answers with its failure.
-/

set_option autoImplicit false

namespace Turnstile

inductive Call where
  | get (key : String) (answer : Except StoreError (Option Bytes))
  | set (key : String) (value : Bytes) (ttl : Option Duration) (answer : Except StoreError Unit)
  | delete (key : String) (answer : Except StoreError Unit)

def Call.error? : Call → Option StoreError
  | .get _ (.error e) | .set _ _ _ (.error e) | .delete _ (.error e) => some e
  | _ => none

/-- What an operation reads and changes. -/
structure Env where
  /-- The clock in milliseconds. -/
  now : UInt64
  store : Store
  /-- Which calls fail without reaching the store, by their place in `calls`. -/
  faults : Nat → Option StoreError
  /-- The calls on the store, the first one first. -/
  calls : List Call
  /-- The log, the first event first. -/
  events : List Event
  metrics : Metrics

namespace Env

/-- The surroundings at an instant, with nothing in the records. -/
def start (now : UInt64) (store : Store) : Env := ⟨now, store, fun _ => none, [], [], .zero⟩

/-- The surroundings with new records of calls and events, and with calls that fail. -/
def restart (env : Env) (faults : Nat → Option StoreError) : Env :=
  { env with faults, calls := [], events := [] }

/-- The surroundings after a span of time.  The clock goes around at the end of the word. -/
def advance (env : Env) (d : Duration) : Env := { env with now := env.now + d.millis }

def setClock (env : Env) (now : UInt64) : Env := { env with now }

/-- The surroundings with the store away or back. -/
def setOutage (env : Env) (outage : Bool) : Env :=
  { env with store := { env.store with outage } }

end Env

/-- An operation that always answers. -/
abbrev GateM := StateM Env

/-- An operation that a failing call on the store cuts short. -/
abbrev StoreM := ExceptT StoreError GateM

namespace GateM

def now : GateM UInt64 := do
  let env ← get
  pure env.now

def log (e : Event) : GateM Unit := modify fun env => { env with events := env.events ++ [e] }

def count (f : Metrics → Metrics) : GateM Unit :=
  modify fun env => { env with metrics := f env.metrics }

end GateM

namespace StoreM

/-- A call: it fails as the surroundings say or as the store does, and is recorded. -/
def call {α : Type} (op : UInt64 → Store → Except StoreError α × Store)
    (record : Except StoreError α → Call) : StoreM α :=
  ExceptT.mk do
    let env ← get
    match env.faults env.calls.length with
    | some e =>
      set { env with calls := env.calls ++ [record (.error e)] }
      pure (.error e)
    | none =>
      let (answer, store) := op env.now env.store
      set { env with store, calls := env.calls ++ [record answer] }
      pure answer

def get (key : String) : StoreM (Option Bytes) :=
  call (fun now store => store.get now key) (.get key)

def set (key : String) (value : Bytes) (ttl : Option Duration) : StoreM Unit :=
  call (fun now store => store.set now key value ttl) (.set key value ttl)

def delete (key : String) : StoreM Unit :=
  call (fun _ store => store.delete key) (.delete key)

/-- An operation that answers with its failure. -/
def attempt {α : Type} (x : StoreM α) : GateM (Except StoreError α) := x.run

end StoreM

end Turnstile
