import Mathlib.Data.List.Nodup
import Turnstile.Proofs.Circuit.Slot
import Turnstile.Proofs.Gate.Coherence

/-!
# What a request does to circuits

A request asks the circuits that guard it.  If one of them is open the request is refused, and no
circuit that it would have fed is any different for it.  Otherwise each of them has been polled, and
the circuit of the policy counts what the limiter said.  Limiter and monitor leave circuits alone.

* `Gate.firstOpen_split`, `Gate.firstOpen_append`: where a circuit refuses, and where those before it
  do not.
* `Gate.touches_judge`: a request touches the circuits that guard it and no others.
* `Gate.judge_of_ruled`: what a request that the limiter decides leaves of each of them.
* `Gate.judge_of_shut`: a request that an open circuit refuses leaves the policy's circuit alone.
-/

set_option autoImplicit false

namespace Turnstile

open Circuit (Key seen)

/-- The circuit after an outcome. -/
def Circuit.outcome (c : Circuit) (t : Circuit.Thresholds) (now : UInt64) (succeeded : Bool) :
    Circuit :=
  if succeeded then c.succeed t else c.fail t now

theorem Breaker.record_of_healthy {env : Env} (h : env.Healthy) (b : Breaker) (key : Key)
    (succeeded : Bool) :
    ∃ env', (b.record key succeeded).on env = ((), env') ∧
      env.Puts (b.shelf.key key.text) (b.moved env.now
        (fun c => c.outcome b.thresholds env.now succeeded) (env.slot (b.shelf.key key.text))) env' := by
  cases succeeded with
  | true => exact b.recordSuccess_of_healthy h key
  | false => exact b.recordFailure_of_healthy h key

namespace Gate

variable {pl : Plan} {g : Gate} {t : Tracker} {p : Policy} {env env' : Env}

/-! ## The circuits that guard a request -/

/-- The first circuit is asked, and the others if it lets through. -/
theorem firstOpen_cons (h : env.Healthy) (b : Breaker) (k : Key) (keys : List Key) :
    ∃ env₁, (firstOpen b (k :: keys)).on env =
        (if ((seen env.now (env.slot (b.shelf.key k.text))).poll b.thresholds env.now).1 then
          (firstOpen b keys).on env₁ else (some k, env₁)) ∧
      env.Puts (b.shelf.key k.text) (b.moved env.now (fun c => (c.poll b.thresholds env.now).2)
        (env.slot (b.shelf.key k.text))) env₁ := by
  obtain ⟨env₁, hadmits, hput⟩ := b.admits_of_healthy h k
  refine ⟨env₁, ?_, hput⟩
  simp only [firstOpen, GateM.on_bind, hadmits]
  split <;> rfl

theorem firstOpen_none_of_healthy {b : Breaker} {keys : List Key} (h : env.Healthy)
    (hnodup : (keys.map fun k => b.shelf.key k.text).Nodup)
    (hnone : (firstOpen b keys).on env = (none, env')) :
    ∀ k ∈ keys,
      ((seen env.now (env.slot (b.shelf.key k.text))).poll b.thresholds env.now).1 = true ∧
      env'.slot (b.shelf.key k.text) = b.moved env.now (fun c => (c.poll b.thresholds env.now).2)
        (env.slot (b.shelf.key k.text)) := by
  induction keys generalizing env with
  | nil => nofun
  | cons k keys ih =>
    obtain ⟨hk, hnodup⟩ := List.nodup_cons.mp hnodup
    obtain ⟨env₁, hasked, hput⟩ := firstOpen_cons h b k keys
    rw [hasked] at hnone
    cases hpoll : ((seen env.now (env.slot (b.shelf.key k.text))).poll b.thresholds env.now).1 with
    | false =>
      rw [hpoll] at hnone
      cases hnone
    | true =>
      rw [hpoll, if_pos rfl] at hnone
      have hrest := ih (hput.healthy h) hnodup hnone
      intro k' hk'
      rcases List.mem_cons.mp hk' with rfl | hk'
      · refine ⟨hpoll, ?_⟩
        have hf := touches_firstOpen b keys env₁
        rw [hnone] at hf
        rw [hf.slot_eq, hput.slot_key]
        rintro ⟨k'', hk'', he⟩
        exact hk (List.mem_map.mpr ⟨k'', hk'', he.symm⟩)
      · have hne : b.shelf.key k'.text ≠ b.shelf.key k.text := fun e =>
          hk (List.mem_map.mpr ⟨k', hk', e⟩)
        obtain ⟨hthrough, hslot⟩ := hrest k' hk'
        rw [hput.now_eq, hput.slot_of_ne hne] at hthrough hslot
        exact ⟨hthrough, hslot⟩

theorem tracker_ne_scoped (s : Shelf) (t u : Tracker) (scope : String) :
    s.key (Key.ofTracker t).text ≠ s.key (Key.scoped u scope).text := by
  intro h
  have hscoped : (Key.scoped u scope).text = "cb@" ++ (scope ++ ":" ++ u.key) := by
    simp [Key.scoped, ← String.append_assoc]
  rw [hscoped] at h
  exact Shelf.not_under (by decide) (by decide) s _ ⟨t.key, h.symm⟩

theorem guards_nodup (g : Gate) (t : Tracker) (p : Policy) :
    ((g.guards t p).map fun k => g.breaker.shelf.key k.text).Nodup := by
  unfold guards
  cases g.scope with
  | perTracker => simp
  | perPolicy => simpa using tracker_ne_scoped g.breaker.shelf t t p.name

/-- Limiter and monitor leave the circuits alone. -/
theorem slot_of_frame (hg : g.Built pl) {key : Key} (hkey : key ∈ g.guards t p)
    (hf : Env.Frame (fun k => g.limiter.shelf.Under "rl" k ∨ g.monitor.shelf.Under "vm:" k) env env') :
    env'.slot (g.breaker.shelf.key key.text) = env.slot (g.breaker.shelf.key key.text) := by
  apply hf.slot_eq
  obtain ⟨name, hname⟩ := text_of_mem_guards hkey
  rw [hname, hg.monitor_eq, hg.breaker_eq, hg.limiter_eq]
  rintro (h | h)
  · exact Shelf.not_under (by decide) (by decide) _ name h
  · exact Shelf.not_under (by decide) (by decide) _ name h

/-- The circuit of the policy is the last one that is asked. -/
theorem getLast?_guards (g : Gate) (t : Tracker) (p : Policy) :
    (g.guards t p).getLast? = some (g.policyCircuit t p) := by
  unfold policyCircuit guards
  cases g.scope <;> rfl

/-- If a circuit refuses, it is either the last one or one before it; neither changes the last. -/
theorem unmoved_of_firstOpen {b : Breaker} {keys : List Key} {key shut : Key} (h : env.Healthy)
    (hnodup : keys.Nodup) (hlast : keys.getLast? = some key)
    (hopen : (firstOpen b keys).on env = (some shut, env')) : b.Unmoved key env env' := by
  induction keys generalizing env with
  | nil => cases hlast
  | cons k keys ih =>
    obtain ⟨hk, hnodup⟩ := List.nodup_cons.mp hnodup
    obtain ⟨env₁, hasked, hput⟩ := firstOpen_cons h b k keys
    rw [hasked] at hopen
    cases hpoll : ((seen env.now (env.slot (b.shelf.key k.text))).poll b.thresholds env.now).1 with
    | false =>
      rw [hpoll] at hopen
      cases hopen
      by_cases hkey : shut = key
      · subst hkey
        rw [Breaker.moved_of_same (Circuit.snd_poll_of_fst_eq_false hpoll)] at hput
        exact .of_readable h hput
      · exact .of_puts_other h hkey hput
    | true =>
      rw [hpoll, if_pos rfl] at hopen
      cases keys with
      | nil => cases hopen
      | cons k' keys =>
        have hlast : (k' :: keys).getLast? = some key := by rwa [List.getLast?_cons_cons] at hlast
        have hne : k ≠ key := fun e => hk (e ▸ List.mem_of_getLast? hlast)
        exact (Breaker.Unmoved.of_puts_other h hne hput).trans
          (ih (hput.healthy h) hnodup hlast hopen)

/-- **If a circuit refuses**, it does not let a caller through, and is left alone; those that were
asked before it are not open any more. -/
theorem firstOpen_split {b : Breaker} {keys : List Key} {shut : Key} (h : env.Healthy)
    (hnodup : (keys.map fun k => b.shelf.key k.text).Nodup)
    (hopen : (firstOpen b keys).on env = (some shut, env')) :
    ∃ before rest, keys = before ++ shut :: rest ∧
      ((seen env.now (env.slot (b.shelf.key shut.text))).poll b.thresholds env.now).1 = false ∧
      b.Unmoved shut env env' ∧
      ∀ k ∈ before, ∀ later, env.now ≤ later →
        (seen later (env'.slot (b.shelf.key k.text))).state ≠ .open := by
  induction keys generalizing env with
  | nil => cases hopen
  | cons k keys ih =>
    obtain ⟨hk, hnodup⟩ := List.nodup_cons.mp hnodup
    obtain ⟨env₁, hasked, hput⟩ := firstOpen_cons h b k keys
    rw [hasked] at hopen
    cases hpoll : ((seen env.now (env.slot (b.shelf.key k.text))).poll b.thresholds env.now).1 with
    | false =>
      rw [hpoll] at hopen
      cases hopen
      rw [Breaker.moved_of_same (Circuit.snd_poll_of_fst_eq_false hpoll)] at hput
      exact ⟨[], keys, rfl, hpoll, .of_readable h hput, nofun⟩
    | true =>
      rw [hpoll, if_pos rfl] at hopen
      obtain ⟨before, rest, rfl, hshut, hu, hbefore⟩ := ih (hput.healthy h) hnodup hopen
      have hkey : b.shelf.key shut.text ≠ b.shelf.key k.text := fun e =>
        hk (List.mem_map.mpr ⟨shut, by simp, e⟩)
      have hne : k ≠ shut := fun e => hkey (by rw [e])
      rw [hput.now_eq, hput.slot_of_ne hkey] at hshut
      refine ⟨k :: before, rest, rfl, hshut, (Breaker.Unmoved.of_puts_other h hne hput).trans hu, ?_⟩
      intro k' hk' later hlater
      rcases List.mem_cons.mp hk' with rfl | hk'
      · -- the other circuits that are asked do not touch this one
        have hf := touches_firstOpen b (before ++ shut :: rest) env₁
        rw [hopen] at hf
        rw [hf.slot_eq, hput.slot_key]
        · exact Breaker.seen_moved_ne_open hlater (Circuit.state_snd_poll hpoll)
        · rintro ⟨k'', hk'', he⟩
          exact hk (List.mem_map.mpr ⟨k'', hk'', he.symm⟩)
      · rw [← hput.now_eq] at hlater
        exact hbefore k' hk' later hlater

/-- A circuit that refuses guards the request, and does not let a caller through. -/
theorem firstOpen_some_of_healthy {b : Breaker} {keys : List Key} {shut : Key} (h : env.Healthy)
    (hnodup : (keys.map fun k => b.shelf.key k.text).Nodup)
    (hopen : (firstOpen b keys).on env = (some shut, env')) :
    shut ∈ keys ∧
      ((seen env.now (env.slot (b.shelf.key shut.text))).poll b.thresholds env.now).1 = false := by
  obtain ⟨before, rest, rfl, hshut, -⟩ := firstOpen_split h hnodup hopen
  exact ⟨List.mem_append_right _ List.mem_cons_self, hshut⟩

/-- Circuits that are not open let the request pass on to those after them. -/
theorem firstOpen_append {b : Breaker} {before keys : List Key} (h : env.Healthy)
    (hnodup : ((before ++ keys).map fun k => b.shelf.key k.text).Nodup)
    (hseen : ∀ k ∈ before, (seen env.now (env.slot (b.shelf.key k.text))).state ≠ .open) :
    ∃ env₁, (firstOpen b (before ++ keys)).on env = (firstOpen b keys).on env₁ ∧ env₁.Healthy ∧
      env₁.now = env.now ∧
      ∀ k ∈ keys, env₁.slot (b.shelf.key k.text) = env.slot (b.shelf.key k.text) := by
  induction before generalizing env with
  | nil => exact ⟨env, rfl, h, rfl, fun _ _ => rfl⟩
  | cons k before ih =>
    obtain ⟨hk, hnodup⟩ := List.nodup_cons.mp hnodup
    obtain ⟨env₁, hasked, hput⟩ := firstOpen_cons h b k (before ++ keys)
    have hthrough : ((seen env.now (env.slot (b.shelf.key k.text))).poll b.thresholds env.now).1 =
        true := by
      rw [← Bool.not_eq_false, Circuit.fst_poll_eq_false_iff]
      exact fun h => hseen k List.mem_cons_self h.1
    have hother : ∀ k' ∈ before ++ keys,
        env₁.slot (b.shelf.key k'.text) = env.slot (b.shelf.key k'.text) := fun k' hk' =>
      hput.slot_of_ne fun e => hk (List.mem_map.mpr ⟨k', hk', e⟩)
    obtain ⟨env₂, hrest, h₂, hnow, hslot⟩ := ih (hput.healthy h) hnodup fun k' hk' => by
      rw [hput.now_eq, hother k' (List.mem_append_left _ hk')]
      exact hseen k' (List.mem_cons_of_mem k hk')
    rw [hthrough, if_pos rfl] at hasked
    exact ⟨env₂, hasked.trans hrest, h₂, hnow.trans hput.now_eq, fun k' hk' =>
      (hslot k' hk').trans (hother k' (List.mem_append_right _ hk'))⟩

/-! ## What a request touches -/

/-- The keys that a request may change. -/
def Reaches (g : Gate) (t : Tracker) (p : Policy) (key : String) : Prop :=
  (∃ k ∈ g.guards t p, key = g.breaker.shelf.key k.text) ∨
    g.limiter.shelf.Under "rl" key ∨ g.monitor.shelf.Under "vm:" key

theorem touches_settle (g : Gate) (t : Tracker) (path : String) (p : Policy) (o : Outcome) :
    (g.settle t path p o).Touches fun key =>
      key = g.breaker.shelf.key (g.policyCircuit t p).text ∨ g.monitor.shelf.Under "vm:" key :=
  (closed_settle (GateM.closed_uses _ Metrics.Deciding) .count (Breaker.uses_recordSuccess (.inl rfl))
    (Breaker.uses_recordFailure (.inl rfl))
    (fun path v => .bind (Monitor.uses_recordViolation (fun _ => .inr) t path v) fun _ => .pure ())
    path o).touches

/-- **A request touches the circuits that guard it** and no others. -/
theorem touches_judge (g : Gate) (t : Tracker) (path : String) (p : Policy) :
    (g.judge t path p).Touches (g.Reaches t p) :=
  (uses_judge (C := fun _ => True) (fun k hk => .inl ⟨k, hk, rfl⟩)
    (.inr (.inl (g.limiter.under_window t p))) (.inr (.inl (g.limiter.under_block t p)))
    (fun _ => .inr ∘ .inr) (fun _ _ => trivial) path).touches

/-! ## What a request does -/

theorem circuitOpen_judge_iff (g : Gate) (t : Tracker) (path : String) (p : Policy) (env : Env) :
    ((g.judge t path p).on env).1.circuitOpen = true ↔
      ((firstOpen g.breaker (g.guards t p)).on env).1 ≠ none := by
  unfold judge
  rw [GateM.on_bind]
  rcases (firstOpen g.breaker (g.guards t p)).on env with ⟨_ | key, env₁⟩
  · exact ⟨fun h => Bool.noConfusion h, fun h => absurd rfl h⟩
  · exact ⟨fun _ => nofun, fun _ => rfl⟩

theorem settle_slot (hg : g.Built pl) (h : env.Healthy) (path : String) (o : Outcome) :
    ((g.settle t path p o).on env).2.slot (g.breaker.shelf.key (g.policyCircuit t p).text) =
      g.breaker.moved env.now (fun c => c.outcome g.breaker.thresholds env.now o.allowed)
        (env.slot (g.breaker.shelf.key (g.policyCircuit t p).text)) := by
  unfold settle
  cases ho : o.allowed with
  | true =>
    have hcount := Env.Puts.count env (g.breaker.shelf.key (g.policyCircuit t p).text)
      Metrics.countAdmitted
    obtain ⟨env', hsuccess, hput⟩ :=
      g.breaker.recordSuccess_of_healthy (hcount.healthy h) (g.policyCircuit t p)
    rw [if_pos rfl, GateM.on_bind, hsuccess, hput.slot_key, hcount.slot_key, hcount.now_eq]
    rfl
  | false =>
    have htouches : (GateM.count .countRateLimited >>= fun _ => g.monitor.recordViolation t path
        ⟨p.name, p.maxRequests, o.retryAfter, false⟩).Touches
        (fun k => g.limiter.shelf.Under "rl" k ∨ g.monitor.shelf.Under "vm:" k) :=
      GateM.touches_bind (GateM.touches_count _) fun _ =>
        GateM.touches_mono (g.monitor.touches_recordViolation t path _) fun _ => .inr
    have hf := htouches env
    obtain ⟨env', hfailure, hput⟩ :=
      g.breaker.recordFailure_of_healthy (h.of_frame hf) (g.policyCircuit t p)
    rw [hf.now_eq, slot_of_frame hg (policyCircuit_mem_guards g t p) hf] at hput
    rw [if_neg Bool.false_ne_true, GateM.on_bind, GateM.on_bind]
    rw [GateM.on_bind] at hfailure
    rw [hfailure]
    exact hput.slot_key

/-- **What a request that the limiter decides does to circuits**: those that guard it are polled,
and the policy's counts the outcome. -/
theorem judge_of_ruled (hg : g.Built pl) (h : env.Healthy) {path : String} {d : Decision}
    (hjudge : (g.judge t path p).on env = (d, env')) (hruled : d.circuitOpen = false) :
    env'.Healthy ∧ env'.now = env.now ∧ ∀ k ∈ g.guards t p,
      ((seen env.now (env.slot (g.breaker.shelf.key k.text))).poll
        g.breaker.thresholds env.now).1 = true ∧
      env'.slot (g.breaker.shelf.key k.text) =
        let polled := g.breaker.moved env.now (fun c => (c.poll g.breaker.thresholds env.now).2)
          (env.slot (g.breaker.shelf.key k.text))
        if k = g.policyCircuit t p then
          g.breaker.moved env.now (fun c => c.outcome g.breaker.thresholds env.now d.allowed) polled
        else polled := by
  have hjudged := g.touches_judge t path p env
  rw [hjudge] at hjudged
  refine ⟨h.of_frame hjudged, hjudged.now_eq, ?_⟩
  unfold judge at hjudge
  rw [GateM.on_bind] at hjudge
  have hf₁ := touches_firstOpen g.breaker (g.guards t p) env
  rcases hopen : (firstOpen g.breaker (g.guards t p)).on env with ⟨_ | key, env₁⟩
  · rw [hopen] at hjudge hf₁
    have hpolled := firstOpen_none_of_healthy h (guards_nodup g t p) hopen
    simp only [GateM.on_bind, GateM.on_pure] at hjudge
    obtain ⟨rfl, rfl⟩ := Prod.mk.inj hjudge
    have htouches : (g.limiter.check t p >>= fun o =>
        g.monitor.recordOutcome t path o.allowed).Touches
        (fun k => g.limiter.shelf.Under "rl" k ∨ g.monitor.shelf.Under "vm:" k) :=
      GateM.touches_bind (GateM.touches_mono (g.limiter.touches_check t p) fun _ => .inl) fun o =>
        GateM.touches_mono (g.monitor.touches_recordOutcome t path o.allowed) fun _ => .inr
    have hf₂ := htouches env₁
    have hnow := hf₁.now_eq.symm ▸ hf₂.now_eq
    intro k hk
    obtain ⟨hthrough, hslot⟩ := hpolled k hk
    refine ⟨hthrough, ?_⟩
    rw [← hslot, ← slot_of_frame hg hk hf₂]
    by_cases hkey : k = g.policyCircuit t p
    · rw [if_pos hkey, hkey, ← hnow]
      exact settle_slot hg ((h.of_frame hf₁).of_frame hf₂) path _
    · rw [if_neg hkey]
      apply (g.touches_settle t path p _ _).slot_eq
      rintro (he | hvm)
      · exact hkey (Key.eq_of_key he)
      · obtain ⟨name, hname⟩ := text_of_mem_guards hk
        rw [hname, hg.monitor_eq, hg.breaker_eq] at hvm
        exact Shelf.not_under (by decide) (by decide) _ name hvm
  · rw [hopen] at hjudge
    have hrefused : ((g.refuse t path p key).on env₁).1.circuitOpen = true := rfl
    rw [show (g.refuse t path p key).on env₁ = (d, env') from hjudge, hruled] at hrefused
    cases hrefused

/-- What is noted of a refusal is no circuit. -/
theorem touches_noted (g : Gate) (t : Tracker) (path : String) :
    (GateM.count .countCircuitRejected >>= fun _ => g.monitor.recordOutcome t path false).Touches
      fun k => g.limiter.shelf.Under "rl" k ∨ g.monitor.shelf.Under "vm:" k :=
  GateM.touches_bind (GateM.touches_count _) fun _ =>
    GateM.touches_mono (g.monitor.touches_recordOutcome t path false) fun _ => .inr

/-- A refusal leaves the circuits that guard the request alone. -/
theorem unmoved_refuse (hg : g.Built pl) (h : env.Healthy) {key : Key} (hkey : key ∈ g.guards t p)
    (path : String) (shut : Key) :
    g.breaker.Unmoved key env ((g.refuse t path p shut).on env).2 := by
  have hf := touches_noted g t path env
  have hnoted : g.breaker.Unmoved key env
      ((GateM.count .countCircuitRejected >>= fun _ =>
        g.monitor.recordOutcome t path false).on env).2 :=
    ⟨h.of_frame hf, hf.now_eq, fun _ _ => by rw [slot_of_frame hg hkey hf]⟩
  have hstatus := Breaker.Unmoved.status hnoted.healthy g.breaker key shut
  exact (hnoted.trans hstatus).trans
    (.of_frame hstatus.healthy (GateM.touches_log (K := fun _ => False) _ _) nofun)

/-- **A request that an open circuit refuses** is denied, and leaves the circuit of the policy
alone. -/
theorem judge_of_shut (hg : g.Built pl) (h : env.Healthy) {path : String} {d : Decision}
    (hjudge : (g.judge t path p).on env = (d, env')) (hshut : d.circuitOpen = true) :
    d.allowed = false ∧ g.breaker.Unmoved (g.policyCircuit t p) env env' := by
  unfold judge at hjudge
  rw [GateM.on_bind] at hjudge
  rcases hopen : (firstOpen g.breaker (g.guards t p)).on env with ⟨_ | key, env₁⟩
  · rw [hopen] at hjudge
    simp only [GateM.on_bind, GateM.on_pure] at hjudge
    obtain ⟨rfl, rfl⟩ := Prod.mk.inj hjudge
    cases hshut
  · rw [hopen] at hjudge
    have hasked := unmoved_of_firstOpen h (guards_nodup g t p).of_map
      (getLast?_guards g t p) hopen
    have hrefused := unmoved_refuse hg hasked.healthy (policyCircuit_mem_guards g t p) path key
    obtain ⟨rfl, rfl⟩ := Prod.mk.inj hjudge
    exact ⟨rfl, hasked.trans hrefused⟩

end Gate

end Turnstile
