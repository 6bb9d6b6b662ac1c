import Turnstile.Quota.Policy

/-!
# Windows

Two ways to count the requests of a window.  A `WindowCounter` counts from the request that opened
the window to the window's end; a `SlidingLog` remembers when requests came and counts those within
the last window's length.  Either one registers every request, admitted or not, and gives a verdict.

* `WindowCounter.register`, `SlidingLog.register`: the record after a request, and its verdict.
* `ceilSecs`: milliseconds in seconds, rounded up and never zero.
-/

set_option autoImplicit false

namespace Turnstile

/-- Milliseconds in seconds, rounded up, and at least one. -/
def ceilSecs (ms : UInt64) : UInt64 := max (ceilDiv ms 1000) 1

/-- What a window says about a request. -/
structure Verdict where
  allowed : Bool
  /-- The requests that the window still admits. -/
  remaining : UInt64
  /-- When the quota next frees up. -/
  resetAt : UInt64
  /-- For a request that is not allowed, the seconds after which to try again. -/
  retryAfter : Option UInt64
  deriving DecidableEq, Repr

/-- The number of requests in the window that started at an instant. -/
structure WindowCounter where
  hits : UInt64
  start : UInt64
  deriving DecidableEq, Repr

namespace WindowCounter

def opened (now : UInt64) : WindowCounter := ⟨1, now⟩

def resetAt (c : WindowCounter) (p : Policy) : UInt64 := p.windowEnd c.start

def expired (c : WindowCounter) (p : Policy) (now : UInt64) : Bool := c.resetAt p ≤ now

/-- The counter after a request: in the window that is open, or in a new one. -/
def next (current : Option WindowCounter) (p : Policy) (now : UInt64) : WindowCounter :=
  match current with
  | some c => if c.expired p now then opened now else { c with hits := satAdd c.hits 1 }
  | none => opened now

/-- What a counter that has counted a request says about it. -/
def verdict (c : WindowCounter) (p : Policy) (now : UInt64) : Verdict where
  allowed := c.hits ≤ p.maxRequests
  remaining := satSub p.maxRequests c.hits
  resetAt := c.resetAt p
  retryAfter := if c.hits ≤ p.maxRequests then none else some (ceilSecs (satSub (c.resetAt p) now))

def register (current : Option WindowCounter) (p : Policy) (now : UInt64) :
    WindowCounter × Verdict :=
  let c := next current p now
  (c, c.verdict p now)

instance : Binary WindowCounter :=
  Binary.via (fun c => (c.hits, c.start)) fun (hits, start) => ⟨hits, start⟩

end WindowCounter

/-- When requests came, the oldest first. -/
structure SlidingLog where
  times : List UInt64
  deriving DecidableEq, Repr

namespace SlidingLog

def empty : SlidingLog := ⟨[]⟩

/-- Whether a time has left the window that ends now.  While the clock is younger than a window
nothing has. -/
def gone (p : Policy) (now time : UInt64) : Bool :=
  time ≤ satSub now p.window ∧ p.window ≤ now

/-- Drops the oldest times as long as they have left the window. -/
def purge (l : SlidingLog) (p : Policy) (now : UInt64) : SlidingLog :=
  ⟨l.times.dropWhile (gone p now)⟩

/-- The log after a request. -/
def next (l : SlidingLog) (p : Policy) (now : UInt64) : SlidingLog :=
  ⟨(l.purge p now).times ++ [now]⟩

def count (l : SlidingLog) : UInt64 := wordOfNat l.times.length

/-- What a log that holds a request says about it. -/
def verdict (l : SlidingLog) (p : Policy) (now : UInt64) : Verdict where
  allowed := l.count ≤ p.maxRequests
  remaining := satSub p.maxRequests l.count
  resetAt := p.windowEnd now
  retryAfter :=
    if l.count ≤ p.maxRequests then none
    else some (ceilSecs (satSub (p.windowEnd (l.times.head?.getD now)) now))

def register (l : SlidingLog) (p : Policy) (now : UInt64) : SlidingLog × Verdict :=
  let l := l.next p now
  (l, l.verdict p now)

instance : Binary SlidingLog := Binary.via SlidingLog.times fun times => ⟨times⟩

end SlidingLog

end Turnstile
