import Turnstile.Gate.Build

/-!
# Configurations

A configuration is what a gate is built from as it stands in a file: the recovery time of circuits
is a number of milliseconds there.

* `Configuration.plan`: the plan that a configuration stands for.
* `CircuitSection.ofSettings_settings`: settings and back give the same section.
-/

set_option autoImplicit false

namespace Turnstile

/-- The settings of a breaker in a configuration. -/
structure CircuitSection where
  failureThreshold : UInt32
  successThreshold : UInt32
  recoveryMillis : UInt64
  deriving DecidableEq, Repr

namespace CircuitSection

def settings (s : CircuitSection) : Circuit.Settings :=
  ⟨s.failureThreshold, s.successThreshold, .ofMillis s.recoveryMillis⟩

/-- The section that stands for settings, parts of a millisecond aside. -/
def ofSettings (s : Circuit.Settings) : CircuitSection :=
  ⟨s.failureThreshold, s.successThreshold, s.recovery.millis⟩

def standard : CircuitSection := ofSettings .standard

/-- Settings and back give the same section. -/
@[simp] theorem ofSettings_settings (s : CircuitSection) : ofSettings s.settings = s := by
  simp [ofSettings, settings]

end CircuitSection

/-- What a gate is built from, as it stands in a file. -/
structure Configuration where
  label : String
  policies : List Policy
  circuit : CircuitSection
  monitor : Violation.Settings
  scope : Circuit.Scope
  deriving DecidableEq, Repr

namespace Configuration

/-- The configuration of an empty file. -/
def standard : Configuration := ⟨Shelf.defaultLabel, [], .standard, .standard, .perTracker⟩

def plan (c : Configuration) : Plan :=
  ⟨c.policies, c.circuit.settings, c.monitor, c.scope, c.label⟩

end Configuration

end Turnstile
