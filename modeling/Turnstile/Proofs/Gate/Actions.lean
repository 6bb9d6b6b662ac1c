import Turnstile.Proofs.Gate.Judged
import Turnstile.Proofs.Gate.Runs

/-!
# What a step does to a circuit

Of all that can be asked of a gate only three things change how a circuit is seen: a request whose
outcome it counts, a report on it, and a reset of it.  A request that an open circuit refuses, and
everything that is only looked at, changes nothing.

* `Gate.fed`, `Gate.reported`, `Gate.resets`: the circuit that an action is about.
* `Gate.take_of_quiet`: a step that is about another circuit, or about none.
* `Gate.take_of_request`, `Gate.take_of_report`: the steps that feed a circuit.
-/

set_option autoImplicit false

namespace Turnstile

open Circuit (Key seen)

namespace Gate

/-! ## Which circuit -/

/-- The circuit that the outcome of a request feeds. -/
def fed (g : Gate) : Action → Option Key
  | .request t _ policy => (g.policies.get? policy).map (g.policyCircuit t)
  | _ => none

/-- The circuits that a request has to pass. -/
def guarded (g : Gate) : Action → List Key
  | .request t _ policy => ((g.policies.get? policy).map (g.guards t)).getD []
  | _ => []

/-- The circuit that a report is about. -/
def reported (g : Gate) : Action → Option Key
  | .report t _ => some (.ofTracker t)
  | .reportFor t policy _ => (g.policies.get? policy).map (g.policyCircuit t)
  | _ => none

/-- Whether an action resets a circuit. -/
def resets (g : Gate) (key : Key) : Action → Bool
  | .resetCircuits t => key ∈ g.circuits t
  | _ => false

/-- Whether an answer denies a request because the quota is used up. -/
def Answer.limited : Answer → Bool
  | .decision d => !d.allowed && !d.circuitOpen
  | _ => false

/-- Whether an answer denies a request because a circuit is open. -/
def Answer.shut : Answer → Bool
  | .decision d => !d.allowed && d.circuitOpen
  | _ => false

/-- Whether an answer admits a request. -/
def Answer.admits : Answer → Bool
  | .decision d => d.allowed
  | _ => false

variable {pl : Plan} {g : Gate} {t : Tracker} {p : Policy} {env env' : Env} {s : Step} {key : Key}

/-! ## Circuits and their keys -/

/-- A circuit of a policy guards the requests that feed it, and no others. -/
theorem mem_guards_iff (g : Gate) (t u : Tracker) (p q : Policy) :
    g.policyCircuit t p ∈ g.guards u q ↔ g.policyCircuit u q = g.policyCircuit t p := by
  unfold policyCircuit guards
  cases g.scope with
  | perTracker => simp [eq_comm]
  | perPolicy =>
    have hne : Key.scoped t p.name ≠ Key.ofTracker u := fun e =>
      tracker_ne_scoped g.breaker.shelf u t p.name (congrArg _ (congrArg Key.text e.symm))
    simp [hne, eq_comm]

theorem mem_guarded_iff (g : Gate) (t : Tracker) (p : Policy) (a : Action) :
    g.policyCircuit t p ∈ g.guarded a ↔ g.fed a = some (g.policyCircuit t p) := by
  cases a with
  | request u path policy =>
    cases hq : g.policies.get? policy with
    | none => simp [guarded, fed, hq]
    | some q => simpa [guarded, fed, hq] using mem_guards_iff g t u p q
  | _ => simp [guarded, fed]

theorem not_under_vm (hg : g.Built pl) (hkey : key ∈ g.guards t p) :
    ¬ g.monitor.shelf.Under "vm:" (g.breaker.shelf.key key.text) := by
  obtain ⟨name, hname⟩ := text_of_mem_guards hkey
  rw [hname, hg.monitor_eq, hg.breaker_eq]
  exact Shelf.not_under (by decide) (by decide) _ name

theorem not_reaches (hg : g.Built pl) (hkey : key ∈ g.guards t p) {u : Tracker} {q : Policy}
    (hother : key ∉ g.guards u q) : ¬ g.Reaches u q (g.breaker.shelf.key key.text) := by
  obtain ⟨name, hname⟩ := text_of_mem_guards hkey
  rintro (⟨k, hk, he⟩ | hrl | hvm)
  · exact hother (Key.eq_of_key he ▸ hk)
  · rw [hname, hg.limiter_eq, hg.breaker_eq] at hrl
    exact Shelf.not_under (by decide) (by decide) _ name hrl
  · exact not_under_vm hg hkey hvm

/-! ## Steps that leave a circuit alone -/

theorem unmoved_someOpen (h : env.Healthy) (b : Breaker) (key : Key) (keys : List Key) :
    b.Unmoved key env ((someOpen b keys).on env).2 := by
  induction keys generalizing env with
  | nil => exact .refl h
  | cons k keys ih =>
    have hstatus := Breaker.Unmoved.status h b key k
    simp only [someOpen, GateM.on_bind]
    split
    · exact hstatus
    · exact hstatus.trans (ih hstatus.healthy)

theorem touches_resetAll (b : Breaker) (keys : List Key) :
    (resetAll b keys).Touches fun key => ∃ k ∈ keys, key = b.shelf.key k.text :=
  (closed_resetAll (GateM.closed_uses _ fun _ => False) fun k hk =>
    Breaker.uses_reset ⟨k, hk, rfl⟩).touches

/-- **A step that neither feeds a circuit nor reports on it nor resets it leaves it alone.** -/
theorem take_of_quiet (hg : g.Built pl) (hkey : key = g.policyCircuit t p) (h : env.Healthy)
    (hs : s.Healthy) (hfed : g.fed s.action ≠ some key) (hreported : g.reported s.action ≠ some key)
    (hreset : g.resets key s.action = false) :
    g.breaker.Unmoved key (s.env env) ((g.take s).on env).2 := by
  have h := Step.healthy_env hs h
  have hmem : key ∈ g.guards t p := hkey ▸ policyCircuit_mem_guards g t p
  have hlook : ∀ k, g.breaker.Unmoved key (s.env env) ((g.breaker.status k).on (s.env env)).2 :=
    fun k => .status h g.breaker key k
  have hwatch : ∀ {α : Type} {x : GateM α}, x.Touches (g.monitor.shelf.Under "vm:") →
      g.breaker.Unmoved key (s.env env) (x.on (s.env env)).2 := fun hx =>
    .of_frame h (hx _) (not_under_vm hg hmem)
  rw [on_take]
  generalize s.env env = env at h hlook hwatch
  cases ha : s.action with
  | request u path policy =>
    rw [ha] at hfed
    simp only [perform, GateM.on_bind, GateM.on_pure, request, withPolicy, Gate.policy]
    cases hq : g.policies.get? policy with
    | none => exact .refl h
    | some q =>
      have hother : key ∉ g.guards u q := by
        rw [hkey, mem_guards_iff]
        intro he
        exact hfed (by simp [fed, hq, he, hkey])
      exact .of_frame h (g.touches_judge u path q env) (not_reaches hg hmem hother)
  | report u succeeded =>
    rw [ha] at hreported
    have hne : Key.ofTracker u ≠ key := fun e => hreported (congrArg some e)
    obtain ⟨env', hrecord, hput⟩ := g.breaker.record_of_healthy h (.ofTracker u) succeeded
    simp only [perform, GateM.on_bind, GateM.on_pure, report, hrecord]
    exact .of_puts_other h hne hput
  | reportFor u policy succeeded =>
    rw [ha] at hreported
    simp only [perform, GateM.on_bind, GateM.on_pure, reportFor, withPolicy, Gate.policy]
    cases hq : g.policies.get? policy with
    | none => exact .refl h
    | some q =>
      have hne : g.policyCircuit u q ≠ key := fun e => hreported (by simp [reported, hq, e])
      obtain ⟨env', hrecord, hput⟩ := g.breaker.record_of_healthy h (g.policyCircuit u q) succeeded
      simp only [GateM.on_bind, GateM.on_pure, hrecord]
      exact .of_puts_other h hne hput
  | resetCircuits u =>
    rw [ha] at hreset
    refine .of_frame h (touches_resetAll g.breaker (g.circuits u) env) ?_
    rintro ⟨k, hk, he⟩
    have hk : key ∈ g.circuits u := Key.eq_of_key he ▸ hk
    simp [resets, hk] at hreset
  | statusOf u => exact hlook _
  | statusFor u policy =>
    simp only [perform, GateM.on_bind, GateM.on_pure, statusFor, withPolicy, Gate.policy]
    cases hq : g.policies.get? policy with
    | none => exact .refl h
    | some q => exact hlook _
  | anyOpen u => exact unmoved_someOpen h g.breaker key (g.circuits u)
  | stats u => exact hwatch (g.monitor.touches_stats u)
  | top limit => exact hwatch (g.monitor.touches_top limit)
  | onPath path => exact hwatch (g.monitor.touches_onPath path)

/-! ## Steps that feed a circuit -/

/-- **A step that asks for admission** is answered by a decision.  If an open circuit refuses it, the
circuit that it would have fed is left alone; otherwise that circuit has let it through and counts
its outcome. -/
theorem take_of_request (hg : g.Built pl) (h : env.Healthy) (hs : s.Healthy)
    (hfed : g.fed s.action = some key) :
    ∃ d env', (g.take s).on env = (.decision d, env') ∧
      (d.circuitOpen = true ∧ d.allowed = false ∧ g.breaker.Unmoved key (s.env env) env' ∨
       d.circuitOpen = false ∧ env'.Healthy ∧ env'.now = s.now ∧
        let slot := env.slot (g.breaker.shelf.key key.text)
        ((seen s.now slot).poll g.breaker.thresholds s.now).1 = true ∧
        env'.slot (g.breaker.shelf.key key.text) =
          g.breaker.moved s.now (fun c => c.outcome g.breaker.thresholds s.now d.allowed)
            (g.breaker.moved s.now (fun c => (c.poll g.breaker.thresholds s.now).2) slot)) := by
  cases ha : s.action with
  | request u path policy =>
    rw [ha] at hfed
    obtain ⟨q, hq, rfl⟩ := Option.map_eq_some_iff.mp hfed
    have h := Step.healthy_env hs h
    refine ⟨((g.judge u path q).on (s.env env)).1, ((g.judge u path q).on (s.env env)).2, ?_, ?_⟩
    · rw [on_take, ha]
      simp only [perform, GateM.on_bind, GateM.on_pure, request, withPolicy, Gate.policy, hq]
      rfl
    · rcases hjudge : (g.judge u path q).on (s.env env) with ⟨d, env'⟩
      cases hopen : d.circuitOpen with
      | true =>
        obtain ⟨hdenied, hunmoved⟩ := judge_of_shut hg h hjudge hopen
        exact .inl ⟨rfl, hdenied, hunmoved⟩
      | false =>
        obtain ⟨hhealthy, hnow, hguards⟩ := judge_of_ruled hg h hjudge hopen
        obtain ⟨hthrough, hslot⟩ := hguards _ (policyCircuit_mem_guards g u q)
        exact .inr ⟨rfl, hhealthy, hnow, hthrough, by simpa using hslot⟩
  | _ =>
    rw [ha] at hfed
    cases hfed

/-- **A step that reports on a circuit** moves it by what is reported. -/
theorem take_of_report (h : env.Healthy) (hs : s.Healthy)
    (hreported : g.reported s.action = some key) :
    ∃ succeeded, (s.env env).Puts (g.breaker.shelf.key key.text)
      (g.breaker.moved s.now (fun c => c.outcome g.breaker.thresholds s.now succeeded)
        (env.slot (g.breaker.shelf.key key.text))) ((g.take s).on env).2 := by
  have h := Step.healthy_env hs h
  rw [on_take]
  cases ha : s.action with
  | report u succeeded =>
    rw [ha] at hreported
    cases hreported
    obtain ⟨env', hrecord, hput⟩ := g.breaker.record_of_healthy h (.ofTracker u) succeeded
    refine ⟨succeeded, ?_⟩
    simp only [perform, GateM.on_bind, GateM.on_pure, report, hrecord]
    exact hput
  | reportFor u policy succeeded =>
    rw [ha] at hreported
    obtain ⟨q, hq, rfl⟩ := Option.map_eq_some_iff.mp hreported
    obtain ⟨env', hrecord, hput⟩ := g.breaker.record_of_healthy h (g.policyCircuit u q) succeeded
    refine ⟨succeeded, ?_⟩
    simp only [perform, GateM.on_bind, GateM.on_pure, reportFor, withPolicy, Gate.policy, hq, hrecord]
    exact hput
  | _ =>
    rw [ha] at hreported
    cases hreported

end Gate

end Turnstile
