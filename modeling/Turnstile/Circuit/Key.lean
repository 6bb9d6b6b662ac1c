import Turnstile.Identity.Tracker

/-!
# Which circuit

A tracker has a circuit of its own, and may have one for each policy besides.
-/

set_option autoImplicit false

namespace Turnstile.Circuit

/-- Which circuit the decisions under a policy feed. -/
inductive Scope where
  /-- The one circuit of the tracker. -/
  | perTracker
  /-- The circuit of the tracker and the policy. -/
  | perPolicy
  deriving DecidableEq, Repr

def Scope.name : Scope → String
  | .perTracker => "per_tracker"
  | .perPolicy => "per_policy"

def Scope.ofName? : String → Option Scope
  | "per_tracker" => some .perTracker
  | "per_policy" => some .perPolicy
  | _ => none

def Scope.label : Scope → String
  | .perTracker => "PerTracker"
  | .perPolicy => "PerPolicy"

structure Key where
  text : String
  deriving DecidableEq, Repr

def Key.ofTracker (t : Tracker) : Key := ⟨"cb:" ++ t.key⟩

/-- The circuit of a tracker within a scope, such as a policy's name. -/
def Key.scoped (t : Tracker) (scope : String) : Key := ⟨"cb@" ++ scope ++ ":" ++ t.key⟩

end Turnstile.Circuit
