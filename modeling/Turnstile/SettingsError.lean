/-!
# Faults of settings

The settings of a breaker and of a monitor are numbers that must be greater than zero.
-/

set_option autoImplicit false

namespace Turnstile

inductive SettingsError where
  | zeroFailureThreshold
  | zeroSuccessThreshold
  | zeroRecoveryTimeout
  | zeroAnomalyThreshold
  | zeroTrackedViolators
  deriving DecidableEq, Repr

def SettingsError.message : SettingsError → String
  | .zeroFailureThreshold => "circuit breaker failure_threshold must be greater than 0"
  | .zeroSuccessThreshold => "circuit breaker success_threshold must be greater than 0"
  | .zeroRecoveryTimeout => "circuit breaker recovery timeout must be greater than 0"
  | .zeroAnomalyThreshold => "monitor anomaly_threshold must be greater than 0"
  | .zeroTrackedViolators => "monitor max_tracked_violators must be greater than 0"

end Turnstile
