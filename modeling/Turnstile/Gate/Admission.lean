import Turnstile.Gate.Build
import Turnstile.Gate.Decision

/-!
# Admission

A request names a tracker, a path and a policy.  Open circuits refuse it before the quota is
touched. Otherwise the limiter decides, the monitor takes note, and the circuit of the policy
counts the outcome: an admission as a success, a denial as a failure.  Callers may report what
became of admitted work, which counts in the same way.

* `request`: the decision on a request.
* `report`, `reportFor`: what became of admitted work.
* `resetCircuits`: closing all circuits of a tracker.
* `statusOf`, `statusFor`, `anyOpen`: looking at circuits.
-/

set_option autoImplicit false

namespace Turnstile

open Circuit (Key Scope)

/-- Why a gate cannot answer. -/
inductive AdmissionError where
  | unknownPolicy (name : String)
  deriving DecidableEq, Repr

def AdmissionError.message : AdmissionError → String
  | .unknownPolicy name => "unknown policy '" ++ name ++ "'"

namespace Gate

def policy (g : Gate) (name : String) : Except AdmissionError Policy :=
  match g.policies.get? name with
  | some p => .ok p
  | none => .error (.unknownPolicy name)

def withPolicy {α : Type} (g : Gate) (name : String) (f : Policy → GateM α) :
    GateM (Except AdmissionError α) :=
  match g.policy name with
  | .error e => pure (.error e)
  | .ok p => do
    let a ← f p
    pure (.ok a)

/-- The circuit that counts the outcomes of a tracker under a policy. -/
def policyCircuit (g : Gate) (t : Tracker) (p : Policy) : Key :=
  match g.scope with
  | .perTracker => .ofTracker t
  | .perPolicy => .scoped t p.name

/-- The circuits that must let a request through, in the order in which they are asked. -/
def guards (g : Gate) (t : Tracker) (p : Policy) : List Key :=
  match g.scope with
  | .perTracker => [.ofTracker t]
  | .perPolicy => [.ofTracker t, .scoped t p.name]

def circuits (g : Gate) (t : Tracker) : List Key :=
  match g.scope with
  | .perTracker => [.ofTracker t]
  | .perPolicy => .ofTracker t :: g.policies.policies.map fun p => .scoped t p.name

/-! ## Deciding -/

/-- The first circuit that does not let a caller through. -/
def firstOpen (b : Breaker) : List Key → GateM (Option Key)
  | [] => pure none
  | key :: keys => do
    let through ← b.admits key
    if through then firstOpen b keys else pure (some key)

/-- The decision on a request that an open circuit refuses. -/
def refusal (p : Policy) (now resetAt : UInt64) : Decision where
  allowed := false
  policy := p.name
  limit := p.maxRequests
  remaining := 0
  resetAt := resetAt
  retryAfter := some (ceilSecs (satSub resetAt now))
  circuitOpen := true
  degraded := false

/-- The decision on a request that the limiter decides. -/
def ruling (p : Policy) (o : Outcome) : Decision where
  allowed := o.allowed
  policy := p.name
  limit := o.limit
  remaining := o.remaining
  resetAt := o.resetAt
  retryAfter := o.retryAfter
  circuitOpen := false
  degraded := o.degraded

def refuse (g : Gate) (t : Tracker) (path : String) (p : Policy) (key : Key) : GateM Decision := do
  GateM.count .countCircuitRejected
  g.monitor.recordOutcome t path false
  let now ← GateM.now
  let status ← g.breaker.status key
  GateM.log (.requestRefused t key p.name)
  pure (refusal p now (status.nextProbe.getD (satAdd now g.breaker.thresholds.timeout)))

/-- Takes note of what the limiter said. -/
def settle (g : Gate) (t : Tracker) (path : String) (p : Policy) (o : Outcome) : GateM Unit :=
  if o.allowed then do
    GateM.count .countAdmitted
    g.breaker.recordSuccess (g.policyCircuit t p)
  else do
    GateM.count .countRateLimited
    let _ ← g.monitor.recordViolation t path ⟨p.name, p.maxRequests, o.retryAfter, false⟩
    g.breaker.recordFailure (g.policyCircuit t p)

/-- The decision on a request under a policy. -/
def judge (g : Gate) (t : Tracker) (path : String) (p : Policy) : GateM Decision := do
  match ← firstOpen g.breaker (g.guards t p) with
  | some key => g.refuse t path p key
  | none =>
    let o ← g.limiter.check t p
    g.monitor.recordOutcome t path o.allowed
    g.settle t path p o
    pure (ruling p o)

/-- The decision on a request under the policy with a name. -/
def request (g : Gate) (t : Tracker) (path policy : String) :
    GateM (Except AdmissionError Decision) :=
  g.withPolicy policy fun p => g.judge t path p

/-! ## Reports and circuits -/

/-- Counts what became of admitted work in the circuit of the tracker. -/
def report (g : Gate) (t : Tracker) (succeeded : Bool) : GateM Unit :=
  g.breaker.record (.ofTracker t) succeeded

/-- Counts what became of admitted work in the circuit of a policy. -/
def reportFor (g : Gate) (t : Tracker) (policy : String) (succeeded : Bool) :
    GateM (Except AdmissionError Unit) :=
  g.withPolicy policy fun p => g.breaker.record (g.policyCircuit t p) succeeded

def resetAll (b : Breaker) : List Key → GateM Unit
  | [] => pure ()
  | key :: keys => do
    b.reset key
    resetAll b keys

def resetCircuits (g : Gate) (t : Tracker) : GateM Unit := resetAll g.breaker (g.circuits t)

def statusOf (g : Gate) (t : Tracker) : GateM Circuit.Status := g.breaker.status (.ofTracker t)

def statusFor (g : Gate) (t : Tracker) (policy : String) :
    GateM (Except AdmissionError Circuit.Status) :=
  g.withPolicy policy fun p => g.breaker.status (g.policyCircuit t p)

/-- Whether one of some circuits is open; none is looked at after that. -/
def someOpen (b : Breaker) : List Key → GateM Bool
  | [] => pure false
  | key :: keys => do
    let status ← b.status key
    if status.circuit.state = .open then pure true else someOpen b keys

/-- Whether a circuit of a tracker is open. -/
def anyOpen (g : Gate) (t : Tracker) : GateM Bool := someOpen g.breaker (g.circuits t)

end Gate

end Turnstile
