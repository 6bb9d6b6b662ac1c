import Turnstile.Word

/-!
# Decisions

What a gate says about a request, and the response headers that tell the caller.
-/

set_option autoImplicit false

namespace Turnstile

/-- What a gate says about a request. -/
structure Decision where
  allowed : Bool
  /-- The name of the policy that was asked for. -/
  policy : String
  limit : UInt64
  /-- The requests that are left of it. -/
  remaining : UInt64
  /-- When the quota or the circuit next frees up. -/
  resetAt : UInt64
  /-- For a denied request, the seconds after which to try again. -/
  retryAfter : Option UInt64
  /-- Whether an open circuit denies the request. -/
  circuitOpen : Bool
  /-- Whether the store had no part in the decision. -/
  degraded : Bool
  deriving DecidableEq, Repr

namespace Decision

def decimal (n : UInt64) : String := Nat.repr n.toNat

/-- The headers of a response, with the reset time in seconds rounded up. -/
def headers (d : Decision) : List (String × String) :=
  [("X-RateLimit-Limit", decimal d.limit), ("X-RateLimit-Remaining", decimal d.remaining),
    ("X-RateLimit-Reset", decimal (ceilDiv d.resetAt 1000))]
  ++ d.retryAfter.toList.map fun secs => ("Retry-After", decimal secs)

end Decision

end Turnstile
