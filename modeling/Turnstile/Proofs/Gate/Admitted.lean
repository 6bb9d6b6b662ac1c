import Turnstile.Proofs.Gate.Judged

/-!
# Requests that are admitted

An admitted request polls the circuits that guard it and counts a success with the circuit of its
policy.

* `Gate.judge_of_allowed`: what it leaves of each of the circuits.
* `Gate.seen_of_allowed`: none of them is open afterwards.
* `Gate.seen_tracker_of_perTracker`: where a tracker has one circuit, its failures are cleared.
* `Gate.seen_tracker_of_perPolicy`: where every policy has a circuit, the tracker's counts on.
-/

set_option autoImplicit false

namespace Turnstile

namespace Gate

open Circuit (Key seen)

variable {pl : Plan} {g : Gate} {t : Tracker} {p : Policy} {env env' : Env}

/-- **What an admitted request does to circuits**: those that guard it are polled, and the policy's
counts a success. -/
theorem judge_of_allowed (hg : g.Built pl) (h : env.Healthy) {path : String} {d : Decision}
    (hjudge : (g.judge t path p).on env = (d, env')) (hallowed : d.allowed = true) :
    env'.Healthy ∧ env'.now = env.now ∧ ∀ k ∈ g.guards t p,
      ((seen env.now (env.slot (g.breaker.shelf.key k.text))).poll
        g.breaker.thresholds env.now).1 = true ∧
      env'.slot (g.breaker.shelf.key k.text) =
        let polled := g.breaker.moved env.now (fun c => (c.poll g.breaker.thresholds env.now).2)
          (env.slot (g.breaker.shelf.key k.text))
        if k = g.policyCircuit t p then
          g.breaker.moved env.now (fun c => c.succeed g.breaker.thresholds) polled
        else polled := by
  have hruled : d.circuitOpen = false := by
    rw [← Bool.not_eq_true]
    intro hshut
    rw [(judge_of_shut hg h hjudge hshut).1] at hallowed
    cases hallowed
  have hjudged := judge_of_ruled hg h hjudge hruled
  rw [hallowed] at hjudged
  exact hjudged

/-- The circuits that guard an admitted request are not open after it. -/
theorem seen_of_allowed (hg : g.Built pl) (h : env.Healthy) {path : String} {d : Decision}
    (hjudge : (g.judge t path p).on env = (d, env')) (hallowed : d.allowed = true)
    {later : UInt64} (hlater : env.now ≤ later) {k : Key} (hk : k ∈ g.guards t p) :
    (seen later (env'.slot (g.breaker.shelf.key k.text))).state ≠ .open := by
  obtain ⟨_, _, hguards⟩ := judge_of_allowed hg h hjudge hallowed
  obtain ⟨hthrough, hslot⟩ := hguards k hk
  have hpolled := Circuit.state_snd_poll hthrough
  rw [hslot]
  dsimp only
  split
  · exact Breaker.seen_moved_ne_open hlater
      (Circuit.state_succeed (Breaker.seen_moved_ne_open (UInt64.le_refl _) hpolled) _)
  · exact Breaker.seen_moved_ne_open hlater hpolled

/-- Where the tracker has one circuit, an admitted request clears what a closed one has counted. -/
theorem seen_tracker_of_perTracker (hg : g.Built pl) (hscope : g.scope = .perTracker)
    (h : env.Healthy) {path : String} {d : Decision}
    (hjudge : (g.judge t path p).on env = (d, env')) (hallowed : d.allowed = true)
    {later : UInt64} (hlater : env.now ≤ later)
    (hclosed : (seen env.now
      (env.slot (g.breaker.shelf.key (Key.ofTracker t).text))).state = .closed) :
    (seen later (env'.slot (g.breaker.shelf.key (Key.ofTracker t).text))).state = .closed ∧
      (seen later (env'.slot (g.breaker.shelf.key (Key.ofTracker t).text))).failures = 0 := by
  obtain ⟨_, _, hguards⟩ := judge_of_allowed hg h hjudge hallowed
  have hcircuit : Key.ofTracker t = g.policyCircuit t p := by
    unfold policyCircuit
    rw [hscope]
  have hk : Key.ofTracker t ∈ g.guards t p := hcircuit ▸ policyCircuit_mem_guards g t p
  obtain ⟨_, hslot⟩ := hguards _ hk
  rw [hslot, if_pos hcircuit, Breaker.moved_poll_of_closed hclosed]
  rcases Breaker.seen_moved hlater g.breaker (fun c => c.succeed g.breaker.thresholds)
    (readable Circuit env.now (env.slot (g.breaker.shelf.key (Key.ofTracker t).text)))
    with heq | heq <;> rw [heq]
  · rw [Breaker.seen_readable (UInt64.le_refl _)]
    simp only [Circuit.succeed, hclosed, and_self]
  · exact ⟨rfl, rfl⟩

/-- Where every policy has a circuit of its own, an admitted request leaves a closed circuit of the
tracker alone. -/
theorem seen_tracker_of_perPolicy (hg : g.Built pl) (hscope : g.scope = .perPolicy)
    (h : env.Healthy) {path : String} {d : Decision}
    (hjudge : (g.judge t path p).on env = (d, env')) (hallowed : d.allowed = true)
    {later : UInt64} (hlater : env.now ≤ later)
    (hclosed : (seen env.now
      (env.slot (g.breaker.shelf.key (Key.ofTracker t).text))).state = .closed) :
    seen later (env'.slot (g.breaker.shelf.key (Key.ofTracker t).text)) =
      seen later (env.slot (g.breaker.shelf.key (Key.ofTracker t).text)) := by
  obtain ⟨_, _, hguards⟩ := judge_of_allowed hg h hjudge hallowed
  have hk : Key.ofTracker t ∈ g.guards t p := by
    unfold guards
    rw [hscope]
    exact List.mem_cons_self
  have hne : Key.ofTracker t ≠ g.policyCircuit t p := by
    unfold policyCircuit
    rw [hscope]
    exact fun e => tracker_ne_scoped g.breaker.shelf t t p.name (congrArg _ (congrArg Key.text e))
  obtain ⟨_, hslot⟩ := hguards _ hk
  rw [hslot, if_neg hne, Breaker.moved_poll_of_closed hclosed, Breaker.seen_readable hlater]

end Gate

end Turnstile
