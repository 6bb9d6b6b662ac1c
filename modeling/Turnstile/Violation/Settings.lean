import Turnstile.SettingsError

/-!
# What a monitor may be set to

How many violations a tracker may have in a minute, and how many trackers are ranked.  Both must be
greater than zero.
-/

set_option autoImplicit false

namespace Turnstile.Violation

structure Settings where
  /-- The violations in a minute that are not yet an anomaly. -/
  anomalyThreshold : UInt64
  /-- The largest number of trackers that are ranked. -/
  maxTracked : UInt64
  deriving DecidableEq, Repr

namespace Settings

/-- Ten violations a minute, a thousand trackers. -/
def standard : Settings := ⟨10, 1000⟩

/-- The first thing that is wrong with settings, if anything is. -/
def fault? (s : Settings) : Option SettingsError :=
  if s.anomalyThreshold = 0 then some .zeroAnomalyThreshold
  else if s.maxTracked = 0 then some .zeroTrackedViolators
  else none

end Settings

end Turnstile.Violation
