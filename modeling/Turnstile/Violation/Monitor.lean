import Turnstile.Shelf
import Turnstile.Violation.Records
import Turnstile.Violation.Settings

/-!
# The monitor

The monitor records outcomes and violations, ranks the trackers with the most violations on a day,
and reports a tracker that has more violations in a minute than it may have.

Only as many trackers are ranked as the settings say: when one joins the rosters, those with the
fewest violations leave them.  Nothing the monitor knows decides a request, so a failure of the
store is counted and logged and then forgotten.

* `recordOutcome`, `recordViolation`: what happens to requests.
* `stats`, `top`, `onPath`: what is known of a tracker, of all trackers, and of a path.
-/

set_option autoImplicit false

namespace Turnstile

open Violation

structure Violator where
  tracker : String
  violations : UInt64
  deriving DecidableEq, Repr

namespace Violator

/-- Whether one tracker is evicted before another one: fewer violations, then the later name. -/
def weaker (a b : Violator) : Bool :=
  a.violations < b.violations || (a.violations = b.violations && b.tracker ≤ a.tracker)

/-- Whether one tracker is ranked before another one: more violations, then the earlier name. -/
def stronger (a b : Violator) : Bool :=
  b.violations < a.violations || (a.violations = b.violations && a.tracker ≤ b.tracker)

end Violator

/-- What a violation was. -/
structure Violation where
  policy : String
  limit : UInt64
  retryAfter : Option UInt64
  circuitOpen : Bool
  deriving DecidableEq, Repr

/-- The report of too many violations in a minute. -/
structure Anomaly where
  tracker : Tracker
  path : String
  lastMinute : UInt64
  threshold : UInt64
  deriving DecidableEq, Repr

structure Stats where
  tracker : Tracker
  allowedThisHour : UInt64
  blockedThisHour : UInt64
  violationsToday : UInt64
  violationsLastMinute : UInt64
  deriving DecidableEq, Repr

structure Monitor where
  shelf : Shelf
  settings : Violation.Settings
  deriving DecidableEq, Repr

namespace Monitor

/-- A monitor, if nothing is wrong with its settings. -/
def ofSettings (shelf : Shelf) (settings : Violation.Settings) : Except SettingsError Monitor :=
  match settings.fault? with
  | none => .ok ⟨shelf, settings⟩
  | some e => .error e

def hour : Duration := .ofMillis hourMillis

def day : Duration := .ofMillis dayMillis

/-- How long the violations of a minute are counted. -/
def minute : Duration := .ofMillis minuteMillis

/-- Carries out an operation; a failure of the store is counted, logged and answered. -/
def recover {α : Type} (x : StoreM α) (event : StoreError → Event) (answer : α) : GateM α := do
  match ← x.attempt with
  | .ok a => pure a
  | .error e =>
    GateM.count .countStoreError
    GateM.log (event e)
    pure answer

/-! ## Outcomes -/

/-- Records whether a request was allowed, or gives the failure of the store. -/
def tryRecordOutcome (m : Monitor) (t : Tracker) (allowed : Bool) : StoreM Unit := do
  let now ← GateM.now
  let current : Option Outcomes ← m.shelf.load (hourName now t)
  m.shelf.save (hourName now t) ((current.getD .none).add allowed) (some hour)

def recordOutcome (m : Monitor) (t : Tracker) (path : String) (allowed : Bool) : GateM Unit :=
  recover (m.tryRecordOutcome t allowed) (.outcomeLost · t path) ()

/-! ## Rosters -/

def roster (m : Monitor) (d : UInt64) (number : Nat) : StoreM (Option Roster) :=
  m.shelf.load (rosterName d number)

def saveRoster (m : Monitor) (d : UInt64) (number : Nat) (r : Roster) : StoreM Unit :=
  m.shelf.save (rosterName d number) r (some day)

/-- Those of some trackers that have violations on a day, with the number of their roster. -/
def counted (m : Monitor) (d : UInt64) (number : Nat) : List String → StoreM (List (Nat × Violator))
  | [] => pure []
  | t :: ts => do
    let n ← m.shelf.counter (dayName d t)
    let rest ← m.counted d number ts
    if 0 < n then pure ((number, ⟨t, n⟩) :: rest) else pure rest

/-- The members of some rosters that have violations on a day. -/
def listed (m : Monitor) (d : UInt64) : List Nat → StoreM (List (Nat × Violator))
  | [] => pure []
  | number :: numbers => do
    match ← m.roster d number with
    | none => m.listed d numbers
    | some r =>
      let here ← m.counted d number r.members.toList
      let rest ← m.listed d numbers
      pure (here ++ rest)

/-- The members of all rosters that have violations on a day. -/
def ranked (m : Monitor) (d : UInt64) : StoreM (List (Nat × Violator)) :=
  m.listed d (List.range rosterCount)

/-- Strikes trackers off their rosters. -/
def evict (m : Monitor) (d : UInt64) : List (Nat × Violator) → StoreM Unit
  | [] => pure ()
  | (number, v) :: rest => do
    match ← m.roster d number with
    | none => m.evict d rest
    | some r =>
      if v.tracker ∈ r.members then
        m.saveRoster d number ⟨r.members.erase v.tracker⟩
        m.evict d rest
      else m.evict d rest

/-- Strikes the weakest trackers off the rosters until no more are listed than may be. -/
def enforceCapacity (m : Monitor) (d : UInt64) : StoreM Unit := do
  let all ← m.ranked d
  let excess := all.length - m.settings.maxTracked.toNat
  m.evict d ((all.mergeSort fun a b => a.2.weaker b.2).take excess)

/-- Lists a tracker for a day, if it is not listed yet. -/
def enlist (m : Monitor) (d : UInt64) (t : Tracker) : StoreM Unit := do
  let number := rosterOf t.key
  let current ← m.roster d number
  let r := current.getD .empty
  if t.key ∈ r.members then pure ()
  else
    m.saveRoster d number ⟨r.members.insert t.key⟩
    m.enforceCapacity d

/-! ## Violations -/

/-- Records a violation, or gives the failure of the store. -/
def tryRecordViolation (m : Monitor) (t : Tracker) (path : String) (v : Violation) :
    StoreM (Option Anomaly) := do
  let now ← GateM.now
  let d := dayOf now
  let _ ← m.shelf.increment (dayName d t.key) day
  let _ ← m.shelf.increment (pathName d path) day
  m.enlist d t
  let lastMinute ← m.shelf.increment (minuteName t) minute
  let threshold := m.settings.anomalyThreshold
  if lastMinute ≤ threshold then pure none
  else
    GateM.count .countAnomaly
    GateM.log (.attackSuspected t path v.policy v.circuitOpen lastMinute threshold)
    pure (some ⟨t, path, lastMinute, threshold⟩)

/-- Records a violation, and reports it if it is an anomaly. -/
def recordViolation (m : Monitor) (t : Tracker) (path : String) (v : Violation) :
    GateM (Option Anomaly) :=
  recover (m.tryRecordViolation t path v) (.outcomeLost · t path) none

/-! ## Questions -/

/-- What is known of a tracker, or the failure of the store. -/
def tryStats (m : Monitor) (t : Tracker) : StoreM Stats := do
  let now ← GateM.now
  let outcomes : Option Outcomes ← m.shelf.load (hourName now t)
  let o := outcomes.getD .none
  let today ← m.shelf.counter (dayName (dayOf now) t.key)
  let lastMinute ← m.shelf.counter (minuteName t)
  pure ⟨t, o.allowed, o.blocked, today, lastMinute⟩

def stats (m : Monitor) (t : Tracker) : GateM Stats :=
  recover (m.tryStats t) (.statsUnavailable · t) ⟨t, 0, 0, 0, 0⟩

/-- The trackers of the day by rank, at most `limit`, or the failure of the store. -/
def tryTop (m : Monitor) (limit : UInt64) : StoreM (List Violator) := do
  let now ← GateM.now
  let all ← m.ranked (dayOf now)
  pure (((all.map Prod.snd).mergeSort Violator.stronger).take limit.toNat)

/-- The trackers of the day by rank, at most `limit`. -/
def top (m : Monitor) (limit : UInt64) : GateM (List Violator) :=
  recover (m.tryTop limit) .rankingUnavailable []

/-- The violations on a path on the day, or the failure of the store. -/
def tryOnPath (m : Monitor) (path : String) : StoreM UInt64 := do
  let now ← GateM.now
  m.shelf.counter (pathName (dayOf now) path)

def onPath (m : Monitor) (path : String) : GateM UInt64 :=
  recover (m.tryOnPath path) (.pathUnavailable · path) 0

end Monitor

end Turnstile
