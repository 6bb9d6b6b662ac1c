import Turnstile.Proofs.Gate.Actions
import Turnstile.Proofs.Gate.Handles
import Turnstile.Proofs.Gate.Places
import Turnstile.Proofs.Gate.Probes

/-!
# Resetting the circuits of a tracker

A reset removes the records of all circuits that a gate can have written for a tracker, whichever of
them a failing store has left behind.  What is left in the store of circuits is that of other
trackers, and no other record is touched.

* `Gate.resetAll_of_healthy`: what removing some circuits does to the store.
* `Gate.left_keeps`: a run leaves every key alone that the gate does not keep.
* `Gate.someOpen_of_absent`, `Gate.firstOpen_of_absent`: circuits without a record are closed.
* `Gate.closed_after_reset`: after a reset.
-/

set_option autoImplicit false

namespace Turnstile

open Circuit (Key seen)

/-! ## Removing what is not there -/

theorem TimedMap.delete_of_absent {m : TimedMap} {key : String} (h : m.entries[key]? = none) :
    m.delete key = m := by
  refine congrArg TimedMap.mk (Std.ExtTreeMap.ext_getElem? fun other => ?_)
  rw [Std.ExtTreeMap.getElem?_erase]
  by_cases hother : key = other
  · rw [← hother, h]
    simp
  · simp [hother]

theorem Breaker.store_reset_of_absent {b : Breaker} {key : Key} {env : Env} (h : env.Healthy)
    (habsent : env.slot (b.shelf.key key.text) = none) :
    ((b.reset key).on env).2.store = env.store := by
  have hstore : env.store.delete (b.shelf.key key.text) = (.ok (), env.store) := by
    simp only [Store.delete, h.outage_eq, Bool.false_eq_true, ↓reduceIte,
      TimedMap.delete_of_absent habsent]
    rw [← h.outage_eq]
  have hdelete : (b.shelf.remove key.text).on env = (.ok (), { env with
      calls := env.calls ++ [.delete (b.shelf.key key.text) (.ok ())] }) := by
    rw [Shelf.remove, StoreM.delete, StoreM.call_of_healthy h, hstore]
  have hreset : (b.reset key).on env = ((), ((GateM.log (.circuitReset key)).on { env with
      calls := env.calls ++ [.delete (b.shelf.key key.text) (.ok ())] }).2) :=
    settle_of_ok (StoreM.on_bind_of_ok hdelete)
  rw [hreset]
  rfl

theorem Circuit.seen_none (now : UInt64) : seen now none = fresh := rfl

namespace Gate

variable {pl : Plan} {g : Gate} {t : Tracker} {p : Policy} {b : Breaker} {keys : List Key}
  {env : Env} {run : List Step}

/-! ## Circuits one after the other -/

/-- The circuits have no record. -/
def Absent (b : Breaker) (keys : List Key) (env : Env) : Prop :=
  ∀ k ∈ keys, env.slot (b.shelf.key k.text) = none

theorem Absent.of_slots {env' : Env} (h : Absent b keys env)
    (hslot : ∀ key, env'.slot key = env.slot key) : Absent b keys env' :=
  fun k hk => (hslot _).trans (h k hk)

/-- **Removing circuits** leaves none of them, and everything else. -/
theorem resetAll_of_healthy (h : env.Healthy) (b : Breaker) (keys : List Key) :
    Absent b keys ((resetAll b keys).on env).2 := by
  induction keys generalizing env with
  | nil => nofun
  | cons k keys ih =>
    obtain ⟨env₁, hreset, hput⟩ := b.reset_of_healthy h k
    have hrest := ih (hput.healthy h)
    have hon : (resetAll b (k :: keys)).on env = (resetAll b keys).on env₁ := by
      simp only [resetAll, GateM.on_bind, hreset]
    rw [hon]
    intro k' hk'
    by_cases hmem : k' ∈ keys
    · exact hrest k' hmem
    · obtain rfl := (List.mem_cons.mp hk').resolve_right hmem
      rw [(touches_resetAll b keys env₁).slot_eq, hput.slot_key]
      rintro ⟨k, hk, heq⟩
      exact hmem (Key.eq_of_key heq ▸ hk)

/-- Removing circuits that are not there leaves the store as it is. -/
theorem store_resetAll_of_absent (h : env.Healthy) (habsent : Absent b keys env) :
    ((resetAll b keys).on env).2.store = env.store := by
  induction keys generalizing env with
  | nil => rfl
  | cons k keys ih =>
    obtain ⟨hk, hkeys⟩ := List.forall_mem_cons.mp habsent
    have hstore := Breaker.store_reset_of_absent h hk
    obtain ⟨env₁, hreset, hput⟩ := b.reset_of_healthy h k
    rw [hreset] at hstore
    simp only [resetAll, GateM.on_bind, hreset]
    rw [ih (hput.healthy h) fun k' hk' => ?_, hstore]
    show env₁.store.entries.entries[_]? = none
    rw [hstore]
    exact hkeys k' hk'

/-- A circuit without a record is fresh. -/
theorem status_of_absent (h : env.Healthy) {k : Key}
    (habsent : env.slot (b.shelf.key k.text) = none) :
    ∃ env', (b.status k).on env = (⟨k, .fresh, none⟩, env') ∧ env.Same env' := by
  obtain ⟨env', hstatus, hput⟩ := b.status_of_healthy h k
  rw [habsent] at hstatus
  have hread : readable Circuit env.now (env.slot (b.shelf.key k.text)) =
      env.slot (b.shelf.key k.text) := by rw [habsent]; rfl
  rw [hread] at hput
  exact ⟨env', hstatus, hput.same⟩

/-- None of the circuits without a record is open. -/
theorem someOpen_of_absent (h : env.Healthy) (habsent : Absent b keys env) :
    ((someOpen b keys).on env).1 = false := by
  induction keys generalizing env with
  | nil => rfl
  | cons k keys ih =>
    obtain ⟨hk, hkeys⟩ := List.forall_mem_cons.mp habsent
    obtain ⟨env₁, hstatus, hsame⟩ := status_of_absent h hk
    simp only [someOpen, GateM.on_bind, hstatus]
    exact ih (hsame.healthy h) (Absent.of_slots hkeys fun _ => hsame.slot_eq _ id)

/-- Circuits without a record let a caller through. -/
theorem firstOpen_of_absent (h : env.Healthy)
    (hnodup : (keys.map fun k => b.shelf.key k.text).Nodup) (habsent : Absent b keys env) :
    ((firstOpen b keys).on env).1 = none := by
  cases hopen : ((firstOpen b keys).on env).1 with
  | none => rfl
  | some shut =>
    obtain ⟨hmem, hshut⟩ := firstOpen_some_of_healthy h hnodup (Prod.ext hopen rfl)
    rw [habsent shut hmem, Circuit.seen_none, Circuit.fst_poll_fresh] at hshut
    cases hshut

/-! ## Runs with failures -/

/-- **A run leaves alone what the gate does not keep**, and the clock of the store. -/
theorem left_keeps (g : Gate) (run : List Step) (env : Env) :
    (g.left run env).store.ownClock = env.store.ownClock ∧
      ∀ key, ¬ g.Keeps key → (g.left run env).slot key = env.slot key := by
  induction run generalizing env with
  | nil => exact ⟨rfl, fun _ _ => rfl⟩
  | cons s run ih =>
    have hf := g.touches_perform s.action (s.env env)
    obtain ⟨hclock, hslot⟩ := ih ((g.take s).on env).2
    rw [left_cons]
    exact ⟨hclock.trans hf.ownClock_eq, fun key hkey =>
      (hslot key hkey).trans (hf.slot_eq key hkey)⟩

/-- A step that no failure can meet, whatever has happened before it. -/
theorem healthy_env_at (hclock : env.store.ownClock = none) (now : UInt64) (a : Action) :
    ((Step.at now a).env env).Healthy :=
  ⟨rfl, rfl, hclock⟩

/-- A circuit that has a record after a run is the circuit of some tracker. -/
theorem circuit_of_left (hg : g.Built pl) {start : UInt64} {key : String}
    (hkey : g.breaker.shelf.Under "cb" key)
    (hslot : (g.left run (.start start (.empty none))).slot key ≠ none) :
    ∃ u, ∃ k ∈ g.circuits u, key = g.breaker.shelf.key k.text := by
  by_contra hnone
  refine hslot (((g.left_keeps run _).2 key ?_).trans (Env.slot_start start key))
  obtain ⟨name, rfl⟩ := hkey
  rw [Keeps, hg.limiter_eq, hg.monitor_eq]
  rw [hg.breaker_eq] at hnone ⊢
  rintro (hcircuit | hrl | hvm)
  · exact hnone hcircuit
  · exact Shelf.not_under (by decide) (by decide) _ name hrl
  · exact Shelf.not_under (by decide) (by decide) _ name hvm

/-! ## After a reset -/

/-- **A reset leaves none of the circuits of a tracker**, and everything else. -/
theorem take_reset (h : env.store.ownClock = none) (g : Gate) (now : UInt64) (t : Tracker) :
    let after := ((g.take (.at now (.resetCircuits t))).on env).2
    after.Healthy ∧ Absent g.breaker (g.circuits t) after ∧
      ∀ key, (∀ k ∈ g.circuits t, key ≠ g.breaker.shelf.key k.text) →
        after.slot key = env.slot key := by
  intro after
  have hhealthy := healthy_env_at h now (.resetCircuits t)
  have hf := touches_resetAll g.breaker (g.circuits t) ((Step.at now (.resetCircuits t)).env env)
  refine ⟨hhealthy.of_frame hf, resetAll_of_healthy hhealthy g.breaker (g.circuits t), ?_⟩
  rintro key hkey
  refine hf.slot_eq key ?_
  rintro ⟨k, hk, heq⟩
  exact hkey k hk heq

/-- Windows, logs, blocks and what the monitor has are no circuits, and the circuit of another
tracker is not one of a tracker's. -/
theorem ne_circuit (hg : g.Built pl) {key : String}
    (hkey : g.limiter.shelf.Under "rl" key ∨ g.monitor.shelf.Under "vm:" key ∨
      ∃ u, u ≠ t ∧ key = g.breaker.shelf.key (Key.ofTracker u).text) :
    ∀ k ∈ g.circuits t, key ≠ g.breaker.shelf.key k.text := by
  rintro k hk rfl
  have howns := owns_of_mem_circuits hk
  rcases hkey with hrl | hvm | ⟨u, hu, heq⟩
  · obtain ⟨name, hname⟩ := named_of_owns howns
    rw [hname, hg.limiter_eq, hg.breaker_eq] at hrl
    exact Shelf.not_under (by decide) (by decide) _ name hrl
  · exact elsewhere_of_owns hg howns hvm
  · rcases howns with rfl | ⟨p, _, rfl⟩
    · obtain ⟨-, rfl⟩ := place_inj (a := .circuit) (b := .circuit) trivial trivial
        ((key_ofTracker hg t).symm.trans (heq.trans (key_ofTracker hg u)))
      exact hu rfl
    · exact tracker_ne_scoped g.breaker.shelf u t p.name heq.symm

/-- **After a reset all circuits of a tracker are closed.**  Let a gate be built, in either scope,
and let any run on it start from an empty store; the store may be away and calls may fail at any of
its steps.  Then let the circuits of a tracker be reset, at any instant, by calls that do not fail.
Whenever the store does not fail after that:

* no circuit of the tracker is open, that of the tracker and those for all policies are fresh ones,
  and no request of the tracker is refused because a circuit is open;
* a second reset leaves the store as it is;
* the circuits that have a record are those of other trackers, so none that the gate could have
  written for the tracker is left out;
* every other key has what it had, so all windows, logs and blocks are there, all that the monitor
  has, and the circuit of each other tracker. -/
theorem closed_after_reset (pl : Plan) (g : Gate) (built built' : Env)
    (hbuild : pl.build.on built = (.ok g, built')) (start now : UInt64) (run : List Step)
    (t : Tracker) :
    let before := g.left run (.start start (.empty none))
    let after := ((g.take (.at now (.resetCircuits t))).on before).2
    let later (now : UInt64) (a : Action) := (g.take (.at now a)).on after
    (∀ instant, (later instant (.anyOpen t)).1 = .open false ∧
      (later instant (.statusOf t)).1 = .status ⟨.ofTracker t, .fresh, none⟩ ∧
      (∀ p ∈ pl.policies,
        (later instant (.statusFor t p.name)).1 = .status ⟨g.policyCircuit t p, .fresh, none⟩ ∧
        ∀ path, ∃ d, (later instant (.request t path p.name)).1 = .decision d ∧
          d.circuitOpen = false) ∧
      (later instant (.resetCircuits t)).2.store = after.store) ∧
    (∀ key, g.breaker.shelf.Under "cb" key → after.slot key ≠ none →
      ∃ u, u ≠ t ∧ ∃ k ∈ g.circuits u, key = g.breaker.shelf.key k.text) ∧
    (∀ key, (∀ k ∈ g.circuits t, key ≠ g.breaker.shelf.key k.text) →
      after.slot key = before.slot key) ∧
    ∀ key, g.limiter.shelf.Under "rl" key ∨ g.monitor.shelf.Under "vm:" key ∨
      (∃ u, u ≠ t ∧ key = g.breaker.shelf.key (Key.ofTracker u).text) →
      after.slot key = before.slot key := by
  intro before after later
  have hg := Plan.built_of_build hbuild
  have hclock : before.store.ownClock = none := (g.left_keeps run _).1
  obtain ⟨hafter, habsent, hframe⟩ := take_reset hclock g now t
  have hhealthy : ∀ instant a, ((Step.at instant a).env after).Healthy := fun instant a =>
    healthy_env_at hafter.ownClock_eq instant a
  have hleft : ∀ instant a, Absent g.breaker (g.circuits t) ((Step.at instant a).env after) :=
    fun _ _ => habsent
  refine ⟨fun instant => ⟨?_, ?_, fun p hp => ⟨?_, fun path => ?_⟩, ?_⟩, ?_, hframe,
    fun key hkey => hframe key (ne_circuit hg hkey)⟩
  · exact congrArg Answer.open (someOpen_of_absent (hhealthy instant _) (hleft instant _))
  · obtain ⟨_, hstatus, _⟩ := status_of_absent (hhealthy instant (.statusOf t))
      (habsent _ (ofTracker_mem_circuits g t))
    exact congrArg (fun r => Answer.status r.1) hstatus
  · have hmem := mem_circuits_of_mem_guards (hg.policies_eq ▸ hp) (policyCircuit_mem_guards g t p)
    obtain ⟨_, hstatus, _⟩ := status_of_absent (hhealthy instant (.statusFor t p.name))
      (habsent _ hmem)
    show ((g.perform (.statusFor t p.name)).on _).1 = _
    simp only [perform, statusFor, withPolicy, hg.policy_of_mem hp, GateM.on_bind, GateM.on_pure,
      Answer.ofExcept, hstatus]
  · let asked := (Step.at instant (.request t path p.name)).env after
    have hguards : Absent g.breaker (g.guards t p) asked := fun k hk =>
      habsent k (mem_circuits_of_mem_guards (hg.policies_eq ▸ hp) hk)
    have hopen := firstOpen_of_absent (hhealthy instant _) (guards_nodup g t p) hguards
    refine ⟨((g.judge t path p).on asked).1, ?_, ?_⟩
    · show ((g.perform (.request t path p.name)).on _).1 = _
      simp only [perform, request, withPolicy, hg.policy_of_mem hp, GateM.on_bind, GateM.on_pure,
        Answer.ofExcept]
      rfl
    · rw [← Bool.not_eq_true, circuitOpen_judge_iff]
      exact not_not_intro hopen
  · exact (store_resetAll_of_absent (hhealthy instant _) (hleft instant _)).trans (by
      show { after.store with outage := false } = after.store
      rw [← hafter.outage_eq])
  · intro key hkey hslot
    -- what has a record after the reset is no circuit of the tracker, and had it before
    have hother : ∀ k ∈ g.circuits t, key ≠ g.breaker.shelf.key k.text := by
      rintro k hk rfl
      exact hslot (habsent k hk)
    rw [hframe key hother] at hslot
    obtain ⟨u, k, hk, rfl⟩ := circuit_of_left hg hkey hslot
    exact ⟨u, fun hu => hother k (hu ▸ hk) rfl, k, hk, rfl⟩

/-- Both circuits of a tracker are opened by reports, and the second call of a reset fails. -/
def failedReset : List Step :=
  [.at 0 (.report (.user "alice") false), .at 1 (.reportFor (.user "alice") "login" false),
    ⟨2, false, fun n => if n = 1 then some .timeout else none,
      .resetCircuits (.user "alice")⟩]

/-- The failed reset has left the circuit of the policy open.  The next one closes it. -/
theorem closed_after_failedReset :
    let g := (Plan.twoPerSecond oneFailure .perPolicy).validGate
    let before := g.left failedReset (.start 0 (.empty none))
    let after := ((g.take (.at 3 (.resetCircuits (.user "alice")))).on before).2
    (∃ env', (Plan.twoPerSecond oneFailure .perPolicy).build.on (.start 0 (.empty none)) =
      (.ok g, env')) ∧
    ((g.take (.at 3 (.anyOpen (.user "alice")))).on before).1 = .open true ∧
    ((g.take (.at 3 (.anyOpen (.user "alice")))).on after).1 = .open false ∧
    ∃ d, ((g.take (.at 3 (.request (.user "alice") "/" "login"))).on after).1 = .decision d ∧
      d.circuitOpen = false := by
  intro g before after
  obtain ⟨env', hbuild⟩ :=
    Plan.build_twoPerSecond oneFailure rfl .perPolicy (.start 0 (.empty none))
  obtain ⟨hclosed, -⟩ := closed_after_reset _ g _ env' hbuild 0 3 failedReset (.user "alice")
  obtain ⟨hanyOpen, -, hpolicies, -⟩ := hclosed 3
  exact ⟨⟨env', hbuild⟩, by decide +kernel, hanyOpen,
    (hpolicies (.twoPerSecond .fixedWindow) List.mem_cons_self).2 "/"⟩

end Gate

end Turnstile
