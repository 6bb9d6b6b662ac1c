import Turnstile.Gate.Action

/-!
# Gates that share a store

Several gates may work on one store and one clock.  Each has metrics of its own; everything else
around them is common.

* `Fleet.build`: a number of gates from one plan.
* `Fleet.onGate`: an operation of one of the gates.
-/

set_option autoImplicit false

namespace Turnstile

/-- Gates with their metrics, and what they share. -/
structure Fleet where
  /-- What the gates share; its metrics are those of the gate that acted last. -/
  env : Env
  gates : List (Gate × Metrics)

namespace Fleet

/-- Builds a number of gates from one plan. -/
def buildGates (p : Plan) : (count : Nat) → GateM (Except PlanError (List Gate))
  | 0 => pure (.ok [])
  | count + 1 => do
    match ← p.build with
    | .error e => pure (.error e)
    | .ok g =>
      match ← buildGates p count with
      | .error e => pure (.error e)
      | .ok gates => pure (.ok (g :: gates))

/-- A number of gates from one plan around a store, or what is wrong with the plan. -/
def build (env : Env) (p : Plan) (count : Nat) : Except PlanError Fleet :=
  match (buildGates p count).run env with
  | (.error e, _) => .error e
  | (.ok gates, env) => .ok ⟨env, gates.map fun g => (g, .zero)⟩

/-- An operation of the gate with a number, if there is such a gate. -/
def onGate {α : Type} (f : Fleet) (number : Nat) (x : Gate → GateM α) : Option (α × Fleet) :=
  match f.gates[number]? with
  | none => none
  | some (g, metrics) =>
    let (a, env) := (x g).run { f.env with metrics }
    some (a, ⟨env, f.gates.set number (g, env.metrics)⟩)

end Fleet

end Turnstile
