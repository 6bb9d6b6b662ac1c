import Turnstile.Binary
import Turnstile.Duration
import Turnstile.Text.Blank

/-!
# Policies

A policy names a quota: how many requests a tracker may make within a window, how the window is
counted, and whether going over the quota blocks the tracker for a while.

* `Policy.fault?`: the first thing that is wrong with a policy.
* `PolicyTable.ofList`: the table of valid policies with different names, or the first fault.
-/

set_option autoImplicit false

namespace Turnstile

inductive Algorithm where
  /-- A window starts with a request and ends as a whole. -/
  | fixedWindow
  /-- The window before every request is looked at. -/
  | slidingWindow
  deriving DecidableEq, Repr

def Algorithm.name : Algorithm → String
  | .fixedWindow => "fixed_window"
  | .slidingWindow => "sliding_window"

def Algorithm.ofName? : String → Option Algorithm
  | "fixed_window" => some .fixedWindow
  | "sliding_window" => some .slidingWindow
  | _ => none

structure Policy where
  name : String
  /-- The length of the window in milliseconds. -/
  window : UInt64
  /-- The requests that a window admits. -/
  maxRequests : UInt64
  /-- For how many milliseconds going over the quota blocks a tracker, if it does. -/
  block : Option UInt64
  algorithm : Algorithm
  deriving DecidableEq, Repr

inductive PolicyError where
  | emptyName
  | zeroWindow (name : String)
  | zeroMaxRequests (name : String)
  | zeroBlock (name : String)
  | duplicateName (name : String)
  deriving DecidableEq, Repr

def PolicyError.message : PolicyError → String
  | .emptyName => "policy name must not be empty"
  | .zeroWindow name => "policy '" ++ name ++ "': window_ms must be greater than 0"
  | .zeroMaxRequests name => "policy '" ++ name ++ "': max_requests must be greater than 0"
  | .zeroBlock name => "policy '" ++ name ++ "': block_duration_ms must be greater than 0"
  | .duplicateName name => "policy '" ++ name ++ "' is defined more than once"

namespace Policy

/-- The first thing that is wrong with a policy, if anything is. -/
def fault? (p : Policy) : Option PolicyError :=
  if Text.trimmed p.name = "" then some .emptyName
  else if p.window = 0 then some (.zeroWindow p.name)
  else if p.maxRequests = 0 then some (.zeroMaxRequests p.name)
  else if p.block = some 0 then some (.zeroBlock p.name)
  else none

/-- A policy itself if nothing is wrong with it. -/
def validate (p : Policy) : Except PolicyError Policy :=
  match p.fault? with
  | none => .ok p
  | some e => .error e

/-- A policy that does not block. -/
def ofQuota (name : String) (algorithm : Algorithm) (maxRequests : UInt64) (window : Duration) :
    Except PolicyError Policy :=
  validate ⟨name, window.millis, maxRequests, none, algorithm⟩

/-- A policy that blocks trackers for a while when they go over the quota. -/
def withBlock (p : Policy) (d : Duration) : Except PolicyError Policy :=
  validate { p with block := some d.millis }

def windowSpan (p : Policy) : Duration := .ofMillis p.window

/-- The instant at which a window that starts at `t` ends. -/
def windowEnd (p : Policy) (t : UInt64) : UInt64 := satAdd t p.window

end Policy

def Algorithm.index : Algorithm → UInt32
  | .fixedWindow => 0
  | .slidingWindow => 1

def Algorithm.ofIndex? (n : UInt32) : Option Algorithm :=
  if n = 0 then some .fixedWindow else if n = 1 then some .slidingWindow else none

instance : Binary Algorithm := Binary.narrow Algorithm.index Algorithm.ofIndex?

instance : Binary Policy :=
  Binary.via (fun p => (p.name, p.window, p.maxRequests, p.block, p.algorithm))
    fun (name, window, maxRequests, block, algorithm) =>
      ⟨name, window, maxRequests, block, algorithm⟩

/-! ## Tables -/

/-- Policies under their names, in the order in which they were given. -/
structure PolicyTable where
  policies : List Policy
  deriving DecidableEq, Repr

namespace PolicyTable

def get? (t : PolicyTable) (name : String) : Option Policy :=
  t.policies.find? fun p => p.name = name

/-- The names of all policies in rising order. -/
def names (t : PolicyTable) : List String :=
  (t.policies.map Policy.name).mergeSort fun a b => a ≤ b

def size (t : PolicyTable) : Nat := t.policies.length

/-- Adds policies to a table until one is invalid or has a name that is taken. -/
def extend (t : PolicyTable) : List Policy → Except PolicyError PolicyTable
  | [] => .ok t
  | p :: ps =>
    match p.fault? with
    | some e => .error e
    | none =>
      if (t.get? p.name).isSome then .error (.duplicateName p.name)
      else extend ⟨t.policies ++ [p]⟩ ps

/-- The table of given policies, or the fault of the first one that is invalid or has a name that is
taken. -/
def ofList (policies : List Policy) : Except PolicyError PolicyTable := extend ⟨[]⟩ policies

end PolicyTable

end Turnstile
