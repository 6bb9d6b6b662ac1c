import Turnstile.Proofs.Gate.Build
import Turnstile.Proofs.Text.ByteOrder

/-!
# Everything that is wrong with a plan

What can be wrong with a plan is listed in an order: that it has no policies, then policy by policy
what is wrong with each and that an earlier one has its name, then what is wrong with the settings
of the breaker and of the monitor.  A gate is built if that list is empty, and the first thing on it
is the answer otherwise.

* `Policy.faults`, `Policy.faultsAfter`: what is wrong with a policy, by itself and after others.
* `PolicyTable.faults`, `Circuit.Settings.faults`, `Violation.Settings.faults`, `Plan.faults`: what
  is wrong with the parts of a plan and with all of it.
* `PolicyTable.ofList_eq`: the table of policies, or the first fault.
* `PolicyTable.Lists`: a table is read back as the policies it was made of.
* `Plan.build_faults`: what building a gate answers.
-/

set_option autoImplicit false

namespace Turnstile

/-! ## Policies -/

namespace Policy

/-- What is wrong with a policy by itself. -/
def faults (p : Policy) : List PolicyError :=
  (if Text.trimmed p.name = "" then [.emptyName] else []) ++
    (if p.window = 0 then [.zeroWindow p.name] else []) ++
    (if p.maxRequests = 0 then [.zeroMaxRequests p.name] else []) ++
    (if p.block = some 0 then [.zeroBlock p.name] else [])

/-- What is wrong with a policy that comes after others. -/
def faultsAfter (earlier : List Policy) (p : Policy) : List PolicyError :=
  p.faults ++ if p.name ∈ earlier.map Policy.name then [.duplicateName p.name] else []

theorem fault?_eq_head? (p : Policy) : p.fault? = p.faults.head? := by
  unfold fault? faults
  repeat' split
  all_goals rfl

end Policy

namespace PolicyTable

/-- What is wrong with policies in a row. -/
def faults (ps : List Policy) : List PolicyError :=
  ps.zipIdx.flatMap fun (p, i) => p.faultsAfter (ps.take i)

variable {t : PolicyTable}

theorem isSome_get?_iff {name : String} :
    (t.get? name).isSome ↔ name ∈ t.policies.map Policy.name := by
  rw [Option.isSome_iff_ne_none, ne_eq, get?_eq_none_iff]
  simp

/-- Adding policies stops at the first fault that one has by itself or after those before it. -/
theorem extend_eq (t : PolicyTable) (ps : List Policy) :
    t.extend ps =
      match ((ps.zipIdx t.size).flatMap fun (p, i) =>
        p.faultsAfter ((t.policies ++ ps).take i)).head? with
      | none => .ok ⟨t.policies ++ ps⟩
      | some e => .error e := by
  induction ps generalizing t with
  | nil => simp [extend]
  | cons p ps ih =>
    have htake : (t.policies ++ p :: ps).take t.size = t.policies := List.take_left
    rw [List.zipIdx_cons, List.flatMap_cons, List.head?_append]
    dsimp only
    rw [htake, Policy.faultsAfter, List.head?_append, ← Policy.fault?_eq_head?, extend]
    cases hp : p.fault? with
    | some e => rfl
    | none =>
      by_cases htaken : (t.get? p.name).isSome
      · simp [htaken, isSome_get?_iff.mp htaken]
      · have hfree : p.name ∉ t.policies.map Policy.name := fun h => htaken (isSome_get?_iff.mpr h)
        have hnext := ih ⟨t.policies ++ [p]⟩
        rw [size, List.length_append, List.length_singleton] at hnext
        simp only [List.append_assoc, List.singleton_append] at hnext
        simp only [htaken, hfree, Bool.false_eq_true, ↓reduceIte, List.head?_nil, Option.none_or]
        exact hnext

/-- **The table of policies is there if nothing is wrong with them**; otherwise the first fault
is. -/
theorem ofList_eq (ps : List Policy) :
    ofList ps = match (faults ps).head? with
      | none => .ok ⟨ps⟩
      | some e => .error e :=
  extend_eq ⟨[]⟩ ps

/-- A table is read back as policies with different names. -/
structure Lists (t : PolicyTable) (ps : List Policy) : Prop where
  get?_iff : ∀ name p, t.get? name = some p ↔ p ∈ ps ∧ p.name = name
  get?_none : ∀ name, t.get? name = none ↔ ∀ p ∈ ps, p.name ≠ name
  names_perm : t.names.Perm (ps.map Policy.name)
  /-- The names are in the order of their bytes, and no name is there twice. -/
  names_rising : t.names.Pairwise fun a b => Binary.utf8 a < Binary.utf8 b
  size_eq : t.size = ps.length

theorem lists_of_nodup (hn : (t.policies.map Policy.name).Nodup) : t.Lists t.policies := by
  refine ⟨fun name p => ⟨fun h => ?_, ?_⟩, fun name => get?_eq_none_iff, ?_, ?_, rfl⟩
  · exact ⟨List.mem_of_find?_eq_some h, by simpa using List.find?_some h⟩
  · rintro ⟨hp, rfl⟩
    exact get?_of_mem hn hp
  · exact List.mergeSort_perm _ _
  · have htrans : ∀ a b c : String, decide (a ≤ b) = true → decide (b ≤ c) = true →
        decide (a ≤ c) = true := fun a b c hab hbc =>
      decide_eq_true (String.le_trans (of_decide_eq_true hab) (of_decide_eq_true hbc))
    have hsorted := List.pairwise_mergeSort htrans (fun a b => by simp [String.le_total])
      (t.policies.map Policy.name)
    have hnodup : t.names.Nodup := (List.mergeSort_perm _ _).nodup_iff.mpr hn
    refine (hsorted.and hnodup).imp fun ⟨hle, hne⟩ => Binary.utf8_lt_iff.mpr ?_
    exact String.not_le.mp fun hge => hne (String.le_antisymm (of_decide_eq_true hle) hge)

end PolicyTable

/-! ## Settings -/

namespace Circuit.Settings

/-- What is wrong with the settings of a breaker. -/
def faults (s : Settings) : List SettingsError :=
  (if s.failureThreshold = 0 then [.zeroFailureThreshold] else []) ++
    (if s.successThreshold = 0 then [.zeroSuccessThreshold] else []) ++
    (if s.recovery.IsZero then [.zeroRecoveryTimeout] else [])

theorem fault?_eq_head? (s : Settings) : s.fault? = s.faults.head? := by
  unfold fault? faults
  repeat' split
  all_goals rfl

end Circuit.Settings

namespace Violation.Settings

/-- What is wrong with the settings of a monitor. -/
def faults (s : Settings) : List SettingsError :=
  (if s.anomalyThreshold = 0 then [.zeroAnomalyThreshold] else []) ++
    (if s.maxTracked = 0 then [.zeroTrackedViolators] else [])

theorem fault?_eq_head? (s : Settings) : s.fault? = s.faults.head? := by
  unfold fault? faults
  repeat' split
  all_goals rfl

end Violation.Settings

/-! ## Plans -/

namespace Plan

/-- What is wrong with a plan. -/
def faults (pl : Plan) : List PlanError :=
  (if pl.policies = [] then [.noPolicies] else []) ++
    (PolicyTable.faults pl.policies).map .policy ++
    (pl.circuit.faults ++ pl.monitor.faults).map .settings

theorem gate_eq (pl : Plan) :
    pl.gate = match pl.faults.head? with
      | none => .ok pl.validGate
      | some e => .error e := by
  unfold gate faults
  by_cases hnone : pl.policies = []
  · simp [hnone]
  · rw [if_neg hnone, if_neg hnone, PolicyTable.ofList_eq, Breaker.ofSettings, Monitor.ofSettings,
      Circuit.Settings.fault?_eq_head?, Violation.Settings.fault?_eq_head?]
    cases hpolicies : PolicyTable.faults pl.policies with
    | cons e es => simp
    | nil =>
      cases hcircuit : pl.circuit.faults with
      | cons e es => simp
      | nil => cases hmonitor : pl.monitor.faults <;> simp [validGate]

/-- **A gate is built exactly if nothing is wrong with its plan, and the first fault is told
otherwise.**  The table of the gate that is built gives under each name the one policy of that name,
its names are those of the policies, each one once and in the order of their bytes, and it is as
large as the plan has policies. -/
theorem build_faults (pl : Plan) (env : Env) :
    match pl.faults with
    | e :: _ => (pl.build.on env).1 = .error e
    | [] => ∃ g, (pl.build.on env).1 = .ok g ∧ g.policies.Lists pl.policies := by
  have hgate := pl.gate_eq
  cases hfaults : pl.faults with
  | cons e es =>
    rw [hfaults, List.head?_cons] at hgate
    simp only [build, hgate, GateM.on_pure]
  | nil =>
    rw [hfaults, List.head?_nil] at hgate
    refine ⟨pl.validGate, ?_, PolicyTable.lists_of_nodup (built_of_gate hgate).names_nodup⟩
    simp only [build, hgate]
    rfl

end Plan

end Turnstile
