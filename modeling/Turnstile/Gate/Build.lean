import Turnstile.Circuit.Breaker
import Turnstile.Quota.Limiter
import Turnstile.Violation.Monitor

/-!
# Building a gate

A gate joins a table of policies with a limiter, a breaker and a monitor that share one shelf.

* `Plan`: what a gate is built from.
* `Plan.gate`: the gate, or the first thing that is wrong with the plan.
* `Plan.build`: the same as an operation, which logs that the gate was built.
-/

set_option autoImplicit false

namespace Turnstile

structure Gate where
  policies : PolicyTable
  limiter : Limiter
  breaker : Breaker
  monitor : Monitor
  scope : Circuit.Scope
  deriving DecidableEq, Repr

/-- What a gate is built from. -/
structure Plan where
  policies : List Policy
  circuit : Circuit.Settings
  monitor : Violation.Settings
  scope : Circuit.Scope
  /-- What all keys of the gate in the store start with. -/
  label : String
  deriving DecidableEq, Repr

inductive PlanError where
  | noPolicies
  | policy (e : PolicyError)
  | settings (e : SettingsError)
  deriving DecidableEq, Repr

namespace PlanError

def message : PlanError → String
  | noPolicies => "at least one policy must be configured"
  | policy e => "policy configuration error: " ++ e.message
  | settings e => "configuration error: " ++ e.message

/-- The text of the fault that a fault comes from. -/
def source? : PlanError → Option String
  | noPolicies => none
  | policy e => some e.message
  | settings e => some e.message

end PlanError

namespace Plan

/-- A plan without policies and with the standard settings. -/
def standard : Plan := ⟨[], .standard, .standard, .perTracker, Shelf.defaultLabel⟩

/-- The gate of a plan, or the first thing that is wrong: no policies, a policy, the breaker's
settings, the monitor's settings. -/
def gate (p : Plan) : Except PlanError Gate :=
  if p.policies = [] then .error .noPolicies
  else
    match PolicyTable.ofList p.policies with
    | .error e => .error (.policy e)
    | .ok policies =>
      match Breaker.ofSettings ⟨p.label⟩ p.circuit with
      | .error e => .error (.settings e)
      | .ok breaker =>
        match Monitor.ofSettings ⟨p.label⟩ p.monitor with
        | .error e => .error (.settings e)
        | .ok monitor => .ok ⟨policies, ⟨⟨p.label⟩⟩, breaker, monitor, p.scope⟩

/-- Builds the gate of a plan. -/
def build (p : Plan) : GateM (Except PlanError Gate) :=
  match p.gate with
  | .error e => pure (.error e)
  | .ok g => do
    GateM.log (.gateBuilt g.policies.names g.scope)
    pure (.ok g)

end Plan

end Turnstile
