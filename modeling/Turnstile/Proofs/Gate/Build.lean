import Turnstile.Gate.Admission
import Turnstile.Proofs.Env.Frame
import Turnstile.Proofs.Quota.Policy

/-!
# Gates that are built

* `Gate.Built`: what a gate has of its plan.
* `Plan.built_of_build`: a gate that is built has it.
* `Plan.gate_of_valid`: a plan in which nothing is wrong has a gate.
-/

set_option autoImplicit false

namespace Turnstile

/-- A gate is that of a plan: the policies are valid and have different names, and limiter, breaker
and monitor share the plan's label. -/
structure Gate.Built (pl : Plan) (g : Gate) : Prop where
  policies_eq : g.policies.policies = pl.policies
  policies_valid : ∀ p ∈ pl.policies, p.fault? = none
  names_nodup : (pl.policies.map Policy.name).Nodup
  limiter_eq : g.limiter = ⟨⟨pl.label⟩⟩
  breaker_eq : g.breaker = ⟨⟨pl.label⟩, pl.circuit⟩
  circuit_valid : pl.circuit.fault? = none
  monitor_eq : g.monitor = ⟨⟨pl.label⟩, pl.monitor⟩
  scope_eq : g.scope = pl.scope

namespace Plan

variable {pl : Plan} {g : Gate}

theorem built_of_gate (h : pl.gate = .ok g) : g.Built pl := by
  unfold gate at h
  split at h
  · cases h
  · split at h
    · cases h
    · rename_i policies hpolicies
      obtain ⟨hlist, hvalid, hnodup⟩ := PolicyTable.ofList_eq_ok_iff.mp hpolicies
      unfold Breaker.ofSettings Monitor.ofSettings at h
      cases hc : pl.circuit.fault? with
      | some e =>
        rw [hc] at h
        cases h
      | none =>
        cases hm : pl.monitor.fault? with
        | some e =>
          rw [hc, hm] at h
          cases h
        | none =>
          rw [hc, hm] at h
          cases h
          exact ⟨hlist, hvalid, hnodup, rfl, rfl, hc, rfl, rfl⟩

/-- **A gate that is built is that of its plan.** -/
theorem built_of_build {env env' : Env} (h : pl.build.on env = (.ok g, env')) : g.Built pl := by
  unfold build at h
  cases hg : pl.gate with
  | error e =>
    rw [hg] at h
    cases h
  | ok g' =>
    rw [hg] at h
    cases h
    exact built_of_gate hg

/-- The gate of a plan in which nothing is wrong. -/
def validGate (pl : Plan) : Gate :=
  ⟨⟨pl.policies⟩, ⟨⟨pl.label⟩⟩, ⟨⟨pl.label⟩, pl.circuit⟩, ⟨⟨pl.label⟩, pl.monitor⟩, pl.scope⟩

theorem gate_of_valid (hne : pl.policies ≠ []) (hpolicies : ∀ p ∈ pl.policies, p.fault? = none)
    (hnodup : (pl.policies.map Policy.name).Nodup) (hcircuit : pl.circuit.fault? = none)
    (hmonitor : pl.monitor.fault? = none) : pl.gate = .ok pl.validGate := by
  have hlist : PolicyTable.ofList pl.policies = .ok ⟨pl.policies⟩ :=
    PolicyTable.ofList_eq_ok_iff.mpr ⟨rfl, hpolicies, hnodup⟩
  simp only [gate, hne, ↓reduceIte, hlist, Breaker.ofSettings, hcircuit, Monitor.ofSettings,
    hmonitor, validGate]

theorem build_of_valid (hne : pl.policies ≠ []) (hpolicies : ∀ p ∈ pl.policies, p.fault? = none)
    (hnodup : (pl.policies.map Policy.name).Nodup) (hcircuit : pl.circuit.fault? = none)
    (hmonitor : pl.monitor.fault? = none) (env : Env) :
    ∃ env', pl.build.on env = (.ok pl.validGate, env') := by
  simp only [build, gate_of_valid hne hpolicies hnodup hcircuit hmonitor]
  exact ⟨_, rfl⟩

/-- A plan that admits two requests a second. -/
def twoPerSecond (circuit : Circuit.Settings) (scope : Circuit.Scope) : Plan :=
  { standard with policies := [.twoPerSecond .fixedWindow], circuit, scope }

theorem policies_twoPerSecond (circuit : Circuit.Settings) (scope : Circuit.Scope) :
    ∀ p ∈ (twoPerSecond circuit scope).policies, p.fault? = none := by
  intro p hp
  rw [List.mem_singleton.mp hp]
  exact Policy.fault?_twoPerSecond _

theorem build_twoPerSecond (circuit : Circuit.Settings) (hcircuit : circuit.fault? = none)
    (scope : Circuit.Scope) (env : Env) :
    ∃ env', (twoPerSecond circuit scope).build.on env =
      (.ok (twoPerSecond circuit scope).validGate, env') :=
  build_of_valid (by simp [twoPerSecond]) (policies_twoPerSecond circuit scope)
    (by simp [twoPerSecond]) hcircuit rfl env

/-- A plan that admits a request a second, and blocks those who make more for five seconds. -/
def onePerSecond : Plan :=
  { standard with policies := [⟨"login", 1000, 1, some 5000, .slidingWindow⟩] }

theorem build_onePerSecond (env : Env) :
    ∃ env', onePerSecond.build.on env = (.ok onePerSecond.validGate, env') :=
  build_of_valid (by decide) (by decide +kernel) (by decide) rfl rfl env

end Plan

namespace Gate.Built

variable {pl : Plan} {g : Gate} {p : Policy} {name : String}

theorem policy_of_mem (h : g.Built pl) (hp : p ∈ pl.policies) : g.policy p.name = .ok p := by
  have hget : g.policies.get? p.name = some p :=
    PolicyTable.get?_of_mem (by rw [h.policies_eq]; exact h.names_nodup)
      (by rw [h.policies_eq]; exact hp)
  simp only [policy, hget]

theorem mem_of_get? (h : g.Built pl) (hp : g.policies.get? name = some p) :
    p ∈ pl.policies ∧ p.name = name :=
  ⟨h.policies_eq ▸ List.mem_of_find?_eq_some hp, by simpa using List.find?_some hp⟩

theorem policyCircuit_eq (h : g.Built pl) (hscope : pl.scope = .perPolicy) (t : Tracker)
    (p : Policy) : g.policyCircuit t p = .scoped t p.name := by
  rw [policyCircuit, h.scope_eq, hscope]

theorem guards_eq (h : g.Built pl) (hscope : pl.scope = .perPolicy) (t : Tracker) (p : Policy) :
    g.guards t p = [.ofTracker t, .scoped t p.name] := by
  rw [guards, h.scope_eq, hscope]

theorem circuits_eq (h : g.Built pl) (hscope : pl.scope = .perPolicy) (t : Tracker) :
    g.circuits t = .ofTracker t :: pl.policies.map fun p => .scoped t p.name := by
  rw [circuits, h.scope_eq, hscope, h.policies_eq]

theorem policy_of_unknown (h : g.Built pl) (hname : ∀ p ∈ pl.policies, p.name ≠ name) :
    g.policy name = .error (.unknownPolicy name) := by
  have hget : g.policies.get? name = none := by
    rw [PolicyTable.get?_eq_none_iff, h.policies_eq]
    exact hname
  simp only [policy, hget]

end Gate.Built

end Turnstile
