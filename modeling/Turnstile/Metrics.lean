import Turnstile.Word

/-!
# Metrics

A gate counts what it decides, the failures of the store it met and the anomalies it reported.  The
counters go around at the end of the word; sums over them stop at the largest word.

* `total`, `rejectionRate`: the requests that were decided, and the share of them that was refused.
-/

set_option autoImplicit false

namespace Turnstile

structure Metrics where
  admitted : UInt64
  rateLimited : UInt64
  circuitRejected : UInt64
  storeErrors : UInt64
  anomalies : UInt64
  deriving DecidableEq, Repr

namespace Metrics

def zero : Metrics := ⟨0, 0, 0, 0, 0⟩

def countAdmitted (m : Metrics) : Metrics := { m with admitted := m.admitted + 1 }

def countRateLimited (m : Metrics) : Metrics := { m with rateLimited := m.rateLimited + 1 }

def countCircuitRejected (m : Metrics) : Metrics :=
  { m with circuitRejected := m.circuitRejected + 1 }

def countStoreError (m : Metrics) : Metrics := { m with storeErrors := m.storeErrors + 1 }

def countAnomaly (m : Metrics) : Metrics := { m with anomalies := m.anomalies + 1 }

def rejected (m : Metrics) : UInt64 := satAdd m.rateLimited m.circuitRejected

/-- The requests that were decided. -/
def total (m : Metrics) : UInt64 := satAdd (satAdd m.admitted m.rateLimited) m.circuitRejected

/-- The share of requests that was refused, zero where there were none. -/
def rejectionRate (m : Metrics) : Float :=
  if m.total = 0 then 0 else m.rejected.toFloat / m.total.toFloat

end Metrics

end Turnstile
