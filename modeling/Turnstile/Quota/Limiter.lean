import Turnstile.Quota.Window
import Turnstile.Shelf

/-!
# The limiter

The limiter counts the requests of a tracker under a policy in a record on its shelf.  Under a
policy that blocks, going over the quota also leaves a block, and while that lasts requests are
denied without being counted.

Without the store a request is admitted: the answer is then marked as degraded.

* `tryCheck`: a request against its quota, or the failure of the store.
* `check`: the same, admitting the request where the store fails.
-/

set_option autoImplicit false

namespace Turnstile

/-- What the limiter says about a request. -/
structure Outcome where
  allowed : Bool
  limit : UInt64
  /-- The requests that are left of it. -/
  remaining : UInt64
  /-- When the quota next frees up. -/
  resetAt : UInt64
  /-- For a denied request, the seconds after which to try again. -/
  retryAfter : Option UInt64
  /-- Whether a block denies the request. -/
  blocked : Bool
  /-- Whether the store had no part in the answer. -/
  degraded : Bool
  deriving DecidableEq, Repr

structure Block where
  endsAt : UInt64
  deriving DecidableEq, Repr

instance : Binary Block := Binary.via Block.endsAt fun endsAt => ⟨endsAt⟩

def Block.active (b : Block) (now : UInt64) : Bool := now < b.endsAt

/-- Counts requests against quotas. -/
structure Limiter where
  shelf : Shelf
  deriving DecidableEq, Repr

namespace Limiter

/-- The name of the record that counts a tracker's requests under a policy. -/
def windowName (t : Tracker) (p : Policy) : String := "rl:" ++ p.name ++ ":" ++ t.key

/-- The name of the record that blocks a tracker under a policy. -/
def blockName (t : Tracker) (p : Policy) : String := "rl-block:" ++ p.name ++ ":" ++ t.key

/-- How much longer than its window a log is kept. -/
def logGrace : Duration := .ofMillis 1000

/-- The answer to a request that a block denies. -/
def blockedOutcome (p : Policy) (b : Block) (now : UInt64) : Outcome where
  allowed := false
  limit := p.maxRequests
  remaining := 0
  resetAt := b.endsAt
  retryAfter := some (ceilSecs (satSub b.endsAt now))
  blocked := true
  degraded := false

/-- The answer to a request that its window decides. -/
def windowOutcome (p : Policy) (v : Verdict) : Outcome where
  allowed := v.allowed
  limit := p.maxRequests
  remaining := v.remaining
  resetAt := v.resetAt
  retryAfter := v.retryAfter
  blocked := false
  degraded := false

/-- The answer to a request whose denial starts a block. -/
def penalised (o : Outcome) (b : Block) (length : UInt64) : Outcome :=
  { o with resetAt := b.endsAt, retryAfter := some (ceilSecs length), blocked := true }

/-- The answer to a request without the store. -/
def openOutcome (p : Policy) (now : UInt64) : Outcome where
  allowed := true
  limit := p.maxRequests
  remaining := p.maxRequests
  resetAt := p.windowEnd now
  retryAfter := none
  blocked := false
  degraded := true

/-- The block that lasts for a tracker under a policy. -/
def activeBlock (l : Limiter) (t : Tracker) (p : Policy) (now : UInt64) : StoreM (Option Block) :=
  match p.block with
  | none => pure none
  | some _ => do
    let b : Option Block ← l.shelf.load (blockName t p)
    pure (b.filter fun b => b.active now)

/-- Counts a request in a fixed window. -/
def checkFixed (l : Limiter) (t : Tracker) (p : Policy) (now : UInt64) : StoreM Verdict := do
  let current ← l.shelf.load (windowName t p)
  let (c, v) := WindowCounter.register current p now
  l.shelf.save (windowName t p) c (some (.ofMillis (satSub (c.resetAt p) now)))
  pure v

/-- Logs a request in a sliding window. -/
def checkSliding (l : Limiter) (t : Tracker) (p : Policy) (now : UInt64) : StoreM Verdict := do
  let current : Option SlidingLog ← l.shelf.load (windowName t p)
  let (log, v) := (current.getD .empty).register p now
  l.shelf.save (windowName t p) log (some (p.windowSpan.add logGrace))
  pure v

/-- The verdict of the window that a policy asks for. -/
def checkWindow (l : Limiter) (t : Tracker) (p : Policy) (now : UInt64) : StoreM Verdict :=
  match p.algorithm with
  | .fixedWindow => l.checkFixed t p now
  | .slidingWindow => l.checkSliding t p now

/-- Starts a block where a policy has one, and gives the answer to the denied request. -/
def penalise (l : Limiter) (t : Tracker) (p : Policy) (now : UInt64) (o : Outcome) :
    StoreM Outcome :=
  match p.block with
  | none => pure o
  | some length => do
    let b : Block := ⟨satAdd now length⟩
    l.shelf.save (blockName t p) b (some (.ofMillis length))
    pure (penalised o b length)

/-- A request against its quota. -/
def tryCheck (l : Limiter) (t : Tracker) (p : Policy) : StoreM Outcome := do
  let now ← GateM.now
  match ← l.activeBlock t p now with
  | some b => pure (blockedOutcome p b now)
  | none =>
    let v ← l.checkWindow t p now
    if v.allowed then pure (windowOutcome p v)
    else
      let o ← l.penalise t p now (windowOutcome p v)
      GateM.log (.rateLimited t p.name o.retryAfter)
      pure o

/-- A request against its quota; it is admitted where the store fails. -/
def check (l : Limiter) (t : Tracker) (p : Policy) : GateM Outcome := do
  match ← (l.tryCheck t p).attempt with
  | .ok o => pure o
  | .error e =>
    GateM.count .countStoreError
    GateM.log (.limiterUnavailable e t p.name)
    let now ← GateM.now
    pure (openOutcome p now)

end Limiter

end Turnstile
