import Turnstile.Configuration.Basic
import Turnstile.Json.Decode
import Turnstile.Json.Printer
import Turnstile.Json.Reader

/-!
# Configurations as text

A configuration is written as one JSON object without blanks, with all its fields in their order.
Reading is more generous: fields may be in any order or missing, and others may stand between them.

* `Configuration.text`, `Configuration.ofText?`: writing and reading.
-/

set_option autoImplicit false

namespace Turnstile

/-! ## Policies -/

def Policy.fieldNames : List String :=
  ["name", "window_ms", "max_requests", "block_duration_ms", "algorithm"]

def Policy.toJson (p : Policy) : Json :=
  .record
    [("name", .text p.name), ("window_ms", .word p.window), ("max_requests", .word p.maxRequests),
      ("block_duration_ms", .ofOption .word p.block), ("algorithm", .text p.algorithm.name)]

def Policy.ofJson? (j : Json) : Option Policy :=
  match j.fields? Policy.fieldNames with
  | some [some name, some window, some maxRequests, block, algorithm] => do
    let name ← name.text?
    let window ← window.word?
    let maxRequests ← maxRequests.word?
    let block ← Json.orDefault none (Json.nullable Json.word?) block
    let algorithm ← Json.orDefault .fixedWindow (Json.oneOf? Algorithm.ofName?) algorithm
    some ⟨name, window, maxRequests, block, algorithm⟩
  | _ => none

/-! ## Settings -/

def CircuitSection.fieldNames : List String :=
  ["failure_threshold", "success_threshold", "recovery_timeout_ms"]

def CircuitSection.toJson (s : CircuitSection) : Json :=
  .record
    [("failure_threshold", .nat s.failureThreshold.toNat),
      ("success_threshold", .nat s.successThreshold.toNat),
      ("recovery_timeout_ms", .word s.recoveryMillis)]

def CircuitSection.ofJson? (j : Json) : Option CircuitSection :=
  match j.fields? CircuitSection.fieldNames with
  | some [failures, successes, recovery] => do
    let failures ← Json.orDefault CircuitSection.standard.failureThreshold Json.word32? failures
    let successes ← Json.orDefault CircuitSection.standard.successThreshold Json.word32? successes
    let recovery ← Json.orDefault CircuitSection.standard.recoveryMillis Json.word? recovery
    some ⟨failures, successes, recovery⟩
  | _ => none

def Violation.Settings.fieldNames : List String := ["anomaly_threshold", "max_tracked_violators"]

def Violation.Settings.toJson (s : Violation.Settings) : Json :=
  .record
    [("anomaly_threshold", .word s.anomalyThreshold), ("max_tracked_violators", .word s.maxTracked)]

def Violation.Settings.ofJson? (j : Json) : Option Violation.Settings :=
  match j.fields? Violation.Settings.fieldNames with
  | some [threshold, tracked] => do
    let threshold ← Json.orDefault Violation.Settings.standard.anomalyThreshold Json.word? threshold
    let tracked ← Json.orDefault Violation.Settings.standard.maxTracked Json.word? tracked
    some ⟨threshold, tracked⟩
  | _ => none

/-! ## Configurations -/

namespace Configuration

def fieldNames : List String :=
  ["key_prefix", "policies", "circuit_breaker", "monitor", "breaker_scope"]

def toJson (c : Configuration) : Json :=
  .record
    [("key_prefix", .text c.label), ("policies", .array (c.policies.map Policy.toJson)),
      ("circuit_breaker", c.circuit.toJson), ("monitor", c.monitor.toJson),
      ("breaker_scope", .text c.scope.name)]

def ofJson? (j : Json) : Option Configuration :=
  match j.fields? fieldNames with
  | some [label, policies, circuit, monitor, scope] => do
    let label ← Json.orDefault standard.label Json.text? label
    let policies ← Json.orDefault standard.policies (Json.items? Policy.ofJson?) policies
    let circuit ← Json.orDefault standard.circuit CircuitSection.ofJson? circuit
    let monitor ← Json.orDefault standard.monitor Violation.Settings.ofJson? monitor
    let scope ← Json.orDefault standard.scope (Json.oneOf? Circuit.Scope.ofName?) scope
    some ⟨label, policies, circuit, monitor, scope⟩
  | _ => none

/-- A configuration as text. -/
def text (c : Configuration) : String := c.toJson.write

/-- The configuration that a text stands for. -/
def ofText? (s : String) : Option Configuration := (Json.read? s).bind ofJson?

end Configuration

end Turnstile
