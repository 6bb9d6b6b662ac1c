import Turnstile.Circuit.Key
import Turnstile.Circuit.Machine
import Turnstile.Storage.Error
import Turnstile.Text.Quoted

/-!
# Log events

Everything that is worth a line in the log, one constructor for each kind of line.  An event has a
level, a message and named fields; events about attacks are marked for those who watch security.

* `Event.level`, `Event.message`, `Event.fields`, `Event.security`: how an event is written.
-/

set_option autoImplicit false

namespace Turnstile

inductive Level where
  | error
  | warn
  | info
  | debug
  deriving DecidableEq, Repr

def Level.name : Level → String
  | .error => "ERROR"
  | .warn => "WARN"
  | .info => "INFO"
  | .debug => "DEBUG"

/-- An event of the log. -/
inductive Event where
  /-- A record could not be read and is removed. -/
  | recordDiscarded (key : String)
  /-- The limiter met a failure of the store. -/
  | limiterUnavailable (error : StoreError) (tracker : Tracker) (policy : String)
  | rateLimited (tracker : Tracker) (policy : String) (retryAfter : Option UInt64)
  /-- The breaker met a failure of the store. -/
  | circuitUnavailable (error : StoreError) (circuit : Circuit.Key)
  /-- An open circuit lets a probe through. -/
  | probeAdmitted (circuit : Circuit.Key)
  | circuitClosed (circuit : Circuit.Key)
  | circuitOpened (circuit : Circuit.Key) (was : Circuit.State) (failures : UInt32)
  | circuitReset (circuit : Circuit.Key)
  /-- The monitor could not record an outcome or a violation. -/
  | outcomeLost (error : StoreError) (tracker : Tracker) (path : String)
  /-- The monitor could not read what it knows of a tracker. -/
  | statsUnavailable (error : StoreError) (tracker : Tracker)
  /-- The monitor could not rank trackers. -/
  | rankingUnavailable (error : StoreError)
  /-- The monitor could not read the violations on a path. -/
  | pathUnavailable (error : StoreError) (path : String)
  /-- A tracker has more violations in a minute than it may have. -/
  | attackSuspected (tracker : Tracker) (path policy : String) (circuitOpen : Bool)
      (lastMinute threshold : UInt64)
  | requestRefused (tracker : Tracker) (circuit : Circuit.Key) (policy : String)
  | gateBuilt (policies : List String) (scope : Circuit.Scope)
  deriving DecidableEq, Repr

namespace Event

def level : Event → Level
  | attackSuspected .. => .error
  | recordDiscarded _ | limiterUnavailable .. | circuitUnavailable .. | outcomeLost ..
  | statsUnavailable .. | rankingUnavailable _ | pathUnavailable .. => .warn
  | probeAdmitted _ | circuitClosed _ | circuitOpened .. | circuitReset _ => .info
  | rateLimited .. | requestRefused .. | gateBuilt .. => .debug

/-- Whether an event is for those who watch security. -/
def security : Event → Bool
  | attackSuspected .. => true
  | _ => false

/-- The failure of the store that an event tells of. -/
def error? : Event → Option StoreError
  | limiterUnavailable e _ _ | circuitUnavailable e _ | outcomeLost e _ _ | statsUnavailable e _
  | rankingUnavailable e | pathUnavailable e _ => some e
  | _ => none

def message : Event → String
  | recordDiscarded _ => "Discarding undecodable record"
  | limiterUnavailable .. => "Rate limit store unavailable, failing open"
  | rateLimited .. => "Request rate limited"
  | circuitUnavailable .. => "Circuit store unavailable, treating circuit as closed"
  | probeAdmitted _ => "Circuit half-open, admitting probe"
  | circuitClosed _ => "Circuit closed after successful probes"
  | circuitOpened .. => "Circuit opened"
  | circuitReset _ => "Circuit reset"
  | outcomeLost .. => "Violation store unavailable, outcome not recorded"
  | statsUnavailable .. => "Violation store unavailable, reporting zeros"
  | rankingUnavailable _ => "Violation store unavailable, no ranking"
  | pathUnavailable .. => "Violation store unavailable"
  | attackSuspected .. => "Suspected attack pattern"
  | requestRefused .. => "Request refused by open circuit"
  | gateBuilt .. => "Admission controller built"

def wordText (n : UInt64) : String := Nat.repr n.toNat

def boolText (b : Bool) : String := if b then "true" else "false"

def delayText : Option UInt64 → String
  | none => "None"
  | some n => "Some(" ++ wordText n ++ ")"

def fields : Event → List (String × String)
  | recordDiscarded key => [("key", key)]
  | limiterUnavailable e t p => [("error", e.message), ("tracker", t.key), ("policy", p)]
  | rateLimited t p retry =>
    [("tracker", t.key), ("policy", p), ("retry_after_secs", delayText retry)]
  | circuitUnavailable e c => [("error", e.message), ("circuit", c.text)]
  | probeAdmitted c | circuitClosed c | circuitReset c => [("circuit", c.text)]
  | circuitOpened c was failures =>
    [("circuit", c.text), ("from", was.name), ("failures", Nat.repr failures.toNat)]
  | outcomeLost e t path => [("error", e.message), ("tracker", t.key), ("path", path)]
  | statsUnavailable e t => [("error", e.message), ("tracker", t.key)]
  | rankingUnavailable e => [("error", e.message)]
  | pathUnavailable e path => [("error", e.message), ("path", path)]
  | attackSuspected t path policy circuitOpen lastMinute threshold =>
    [("tracker", t.key), ("path", path), ("policy", policy),
      ("circuit_open", boolText circuitOpen), ("violations_last_minute", wordText lastMinute),
      ("threshold", wordText threshold)]
  | requestRefused t c p => [("tracker", t.key), ("circuit", c.text), ("policy", p)]
  | gateBuilt policies scope => [("policies", Text.quotedList policies), ("scope", scope.label)]

end Event

end Turnstile
