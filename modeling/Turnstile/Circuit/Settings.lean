import Turnstile.Circuit.Machine
import Turnstile.Duration
import Turnstile.SettingsError

/-!
# What a breaker may be set to

The thresholds of a breaker's circuits, with the recovery time as a span.  All three must be greater
than zero.  A circuit that nobody touches is forgotten after twice the recovery time.

* `Settings.fault?`: the first thing that is wrong with the settings.
-/

set_option autoImplicit false

namespace Turnstile

namespace Circuit

structure Settings where
  failureThreshold : UInt32
  successThreshold : UInt32
  /-- How long an open circuit refuses everything. -/
  recovery : Duration
  deriving DecidableEq, Repr

namespace Settings

/-- Five failures, one success, thirty seconds. -/
def standard : Settings := ⟨5, 1, .ofMillis 30000⟩

/-- The first thing that is wrong with settings, if anything is. -/
def fault? (s : Settings) : Option SettingsError :=
  if s.failureThreshold = 0 then some .zeroFailureThreshold
  else if s.successThreshold = 0 then some .zeroSuccessThreshold
  else if s.recovery.IsZero then some .zeroRecoveryTimeout
  else none

def thresholds (s : Settings) : Thresholds :=
  ⟨s.failureThreshold, s.successThreshold, s.recovery.millis⟩

/-- How long the record of a circuit is kept. -/
def recordTtl (s : Settings) : Duration := s.recovery.double

end Settings

end Circuit

end Turnstile
