import Turnstile.Gate.Admission

/-!
# Actions on a gate

All that can be asked of a gate as values, with the answers, so that whole runs can be written down
and replayed.

* `perform`: the answer to an action.
* `Step`, `replay`: a run, where each step sets the clock and says whether the store is away and
  which calls on it fail.
-/

set_option autoImplicit false

namespace Turnstile.Gate

inductive Action where
  | request (t : Tracker) (path policy : String)
  | report (t : Tracker) (succeeded : Bool)
  | reportFor (t : Tracker) (policy : String) (succeeded : Bool)
  | resetCircuits (t : Tracker)
  | statusOf (t : Tracker)
  | statusFor (t : Tracker) (policy : String)
  | anyOpen (t : Tracker)
  | stats (t : Tracker)
  | top (limit : UInt64)
  | onPath (path : String)
  deriving DecidableEq, Repr

inductive Answer where
  | decision (d : Decision)
  | done
  | status (s : Circuit.Status)
  | open (b : Bool)
  | stats (s : Stats)
  | ranking (l : List Violator)
  | count (n : UInt64)
  | refused (e : AdmissionError)
  deriving DecidableEq, Repr

/-- The answer of an operation that may refuse. -/
def Answer.ofExcept {α : Type} (f : α → Answer) : Except AdmissionError α → Answer
  | .ok a => f a
  | .error e => .refused e

def perform (g : Gate) : Action → GateM Answer
  | .request t path policy => do
    let d ← g.request t path policy
    pure (.ofExcept .decision d)
  | .report t succeeded => do
    g.report t succeeded
    pure .done
  | .reportFor t policy succeeded => do
    let r ← g.reportFor t policy succeeded
    pure (.ofExcept (fun _ => .done) r)
  | .resetCircuits t => do
    g.resetCircuits t
    pure .done
  | .statusOf t => do
    let s ← g.statusOf t
    pure (.status s)
  | .statusFor t policy => do
    let s ← g.statusFor t policy
    pure (.ofExcept .status s)
  | .anyOpen t => do
    let b ← g.anyOpen t
    pure (.open b)
  | .stats t => do
    let s ← g.monitor.stats t
    pure (.stats s)
  | .top limit => do
    let l ← g.monitor.top limit
    pure (.ranking l)
  | .onPath path => do
    let n ← g.monitor.onPath path
    pure (.count n)

/-- An action at an instant, with the failures of the store that it meets. -/
structure Step where
  now : UInt64
  /-- Whether the store is away. -/
  outage : Bool
  /-- Which calls on the store fail without reaching it. -/
  faults : Nat → Option StoreError
  action : Action

/-- The surroundings of a step: the records of calls and events start anew. -/
def Step.env (s : Step) (env : Env) : Env :=
  ((env.restart s.faults).setClock s.now).setOutage s.outage

def take (g : Gate) (s : Step) : GateM Answer := do
  modify s.env
  g.perform s.action

/-- The answers to the steps of a run. -/
def replay (g : Gate) : List Step → GateM (List Answer)
  | [] => pure []
  | s :: run => do
    let a ← g.take s
    let rest ← g.replay run
    pure (a :: rest)

end Turnstile.Gate
