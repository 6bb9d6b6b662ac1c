import Turnstile.Proofs.Circuit.Dated
import Turnstile.Proofs.Gate.Handles
import Turnstile.Proofs.Gate.Probes
import Turnstile.Proofs.Gate.Tallies

/-!
# Refusals by open circuits

A request is refused because a circuit is open if and only if one of the circuits that guard it has
the record of an open one whose timeout is not over.  Such a refusal costs nothing: it is counted as
a request that was blocked, and nothing else of the quota or of the monitor is different for it.

* `Gate.Dated`, `Gate.dated_left`: in all that a run leaves open circuits know when they opened.
* `Gate.firstOpen_barred`: which circuit refuses, and what those before it become.
* `Gate.refuse_of_healthy`: what a refusal writes.
* `Gate.FreeOfQuota`: what a refused request leaves of the store.
* `Gate.refused_iff_barred`: which requests are refused, until when, and at what cost.
-/

set_option autoImplicit false

namespace Turnstile

open Circuit (Key seen)
open Violation

namespace Gate

variable {pl : Plan} {g : Gate} {t : Tracker} {p : Policy} {key shut : Key} {env env' : Env}
  {K : String → Prop} {run : List Step}

/-! ## Circuits know when they opened -/

/-- The store does not fail, and whatever it has as an open circuit says when it opened. -/
structure Dated (g : Gate) (env : Env) : Prop where
  healthy : env.Healthy
  dated : ∀ name, g.breaker.Dated (env.slot (g.breaker.shelf.key ("cb" ++ name)))

theorem dated_start (g : Gate) (now : UInt64) : g.Dated (.start now (.empty none)) where
  healthy := Env.healthy_start now
  dated name := by
    rw [Env.slot_start]
    exact Breaker.dated_none g.breaker

theorem Dated.of_frame (h : g.Dated env) (hf : Env.Frame K env env')
    (hK : ∀ name, ¬ K (g.breaker.shelf.key ("cb" ++ name))) : g.Dated env' where
  healthy := h.healthy.of_frame hf
  dated name := by
    rw [hf.slot_eq _ (hK name)]
    exact h.dated name

theorem Dated.puts {slot : Option Entry} (h : g.Dated env)
    (hput : env.Puts (g.breaker.shelf.key key.text) slot env') (hslot : g.breaker.Dated slot) :
    g.Dated env' where
  healthy := hput.healthy h.healthy
  dated name := by
    by_cases hname : g.breaker.shelf.key ("cb" ++ name) = g.breaker.shelf.key key.text
    · rw [hname, hput.slot_key]
      exact hslot
    · rw [hput.slot_of_ne hname]
      exact h.dated name

theorem Dated.at (h : g.Dated env) (hkey : Holding.circuit.Named key.text) :
    g.breaker.Dated (env.slot (g.breaker.shelf.key key.text)) := by
  obtain ⟨name, hname⟩ := hkey
  rw [hname]
  exact h.dated name

/-- Limiter and monitor leave the circuits dated. -/
theorem Dated.after (h : g.Dated env) (hg : g.Built pl) {α : Type} {x : GateM α}
    (hx : x.Touches fun key =>
      g.limiter.shelf.Under "rl" key ∨ g.monitor.shelf.Under "vm:" key) :
    g.Dated (x.on env).2 := by
  refine h.of_frame (hx env) fun name => ?_
  rw [hg.limiter_eq, hg.monitor_eq, hg.breaker_eq]
  rintro (hrl | hvm)
  · exact Shelf.not_under (by decide) (by decide) _ name hrl
  · exact Shelf.not_under (by decide) (by decide) _ name hvm

section Breaker

variable (h : g.Dated env) (hkey : Holding.circuit.Named key.text)

include h hkey

theorem Dated.admits : g.Dated ((g.breaker.admits key).on env).2 := by
  obtain ⟨env', hon, hput⟩ := g.breaker.admits_of_healthy h.healthy key
  rw [hon]
  exact h.puts hput ((h.at hkey).moved (Circuit.datesAt_poll _ _))

theorem Dated.record (succeeded : Bool) :
    g.Dated ((g.breaker.record key succeeded).on env).2 := by
  obtain ⟨env', hon, hput⟩ := g.breaker.record_of_healthy h.healthy key succeeded
  rw [hon]
  refine h.puts hput ((h.at hkey).moved ?_)
  cases succeeded with
  | true => exact Circuit.datesAt_succeed _ _
  | false => exact Circuit.datesAt_fail _ _

theorem Dated.status : g.Dated ((g.breaker.status key).on env).2 := by
  obtain ⟨env', hon, hput⟩ := g.breaker.status_of_healthy h.healthy key
  rw [hon]
  exact h.puts hput ((h.at hkey).readable _)

omit hkey in
theorem Dated.reset : g.Dated ((g.breaker.reset key).on env).2 := by
  obtain ⟨env', hon, hput⟩ := g.breaker.reset_of_healthy h.healthy key
  rw [hon]
  exact h.puts hput (Breaker.dated_none _)

end Breaker

/-- **Circuits go on to know when they opened**, whatever is asked of a gate. -/
theorem dated_perform (hg : g.Built pl) (a : Action) (h : g.Dated env) :
    g.Dated ((g.perform a).on env).2 := by
  -- every part of it leaves the circuits dated
  let R (env env' : Env) : Prop := g.Dated env → g.Dated env'
  have hR : Env.Steady (fun _ => False) (fun _ => True) R :=
    ⟨fun _ h => h, fun _ _ _ h₁ h₂ h => h₂ (h₁ h),
      fun e env h => h.of_frame (K := fun _ => False) (GateM.touches_log e env) fun _ => id,
      fun f _ env h => h.of_frame (K := fun _ => False) (GateM.touches_count f env) fun _ => id,
      nofun, nofun, nofun⟩
  have hQ := GateM.closed_moves hR
  have hlimiter : ∀ {α : Type} {x : GateM α}, x.Touches (g.limiter.shelf.Under "rl") → x.Moves R :=
    fun hx env h => h.after hg (GateM.touches_mono hx fun _ => .inl)
  have hmonitor : ∀ {α : Type} {x : GateM α}, x.Touches (g.monitor.shelf.Under "vm:") → x.Moves R :=
    fun hx env h => h.after hg (GateM.touches_mono hx fun _ => .inr)
  suffices hmoves : (g.perform a).Moves R from hmoves env h
  cases htracker : a.tracker? with
  | some t =>
    refine closed_perform hQ htracker (fun path _ p _ hp => ?_)
      (fun k hk succeeded env h => h.record (named_of_owns hk) succeeded)
      (fun k _ env h => h.reset) (fun k hk env h => h.status (named_of_owns hk))
      (hmonitor (g.monitor.touches_stats t))
    have hpolicy := named_policyCircuit hp t
    exact Asks.judge hQ {
      count := fun {f} _ => hR.count f (.inl trivial)
      admits := fun k hk env h => h.admits (named_of_mem_guards hp hk)
      status := fun k hk env h => h.status (named_of_mem_guards hp hk)
      success := fun env h => h.record hpolicy true
      failure := fun env h => h.record hpolicy false
      check := hlimiter (g.limiter.touches_check t p)
      outcome := fun path allowed => hmonitor (g.monitor.touches_recordOutcome t path allowed)
      violation := fun path v => hQ.bind (hmonitor (g.monitor.touches_recordViolation t path v))
        fun _ => hQ.pure () } path
  | none =>
    cases a with
    | top limit => exact hQ.bind (hmonitor (g.monitor.touches_top limit)) fun _ => hQ.pure _
    | onPath path => exact hQ.bind (hmonitor (g.monitor.touches_onPath path)) fun _ => hQ.pure _
    | _ => cases htracker

/-- **Circuits know when they opened in all that a run leaves.** -/
theorem dated_left (hg : g.Built pl) (hhealthy : ∀ s ∈ run, s.Healthy) (h : g.Dated env) :
    g.Dated (g.left run env) := by
  induction run generalizing env with
  | nil => exact h
  | cons s run ih =>
    obtain ⟨hs, hhealthy⟩ := List.forall_mem_cons.mp hhealthy
    rw [left_cons, on_take]
    exact ih hhealthy (dated_perform hg s.action ⟨Step.healthy_env hs h.healthy, h.dated⟩)

/-! ## Which circuit refuses -/

/-- **The circuit that refuses bars the way**, and those before it have been polled. -/
theorem firstOpen_barred {b : Breaker} {keys : List Key} (h : env.Healthy)
    (hnodup : (keys.map fun k => b.shelf.key k.text).Nodup)
    (hopen : (firstOpen b keys).on env = (some shut, env')) :
    ∃ before rest, keys = before ++ shut :: rest ∧
      (∀ k ∈ before,
        ((seen env.now (env.slot (b.shelf.key k.text))).poll b.thresholds env.now).1 = true) ∧
      ((seen env.now (env.slot (b.shelf.key shut.text))).poll b.thresholds env.now).1 = false ∧
      (∀ k ∈ before ++ [shut], env'.slot (b.shelf.key k.text) =
        b.moved env.now (fun c => (c.poll b.thresholds env.now).2)
          (env.slot (b.shelf.key k.text))) ∧
      Env.Frame (fun key => ∃ k ∈ before ++ [shut], key = b.shelf.key k.text) env env' := by
  induction keys generalizing env with
  | nil => cases hopen
  | cons k keys ih =>
    obtain ⟨hk, hnodup⟩ := List.nodup_cons.mp hnodup
    obtain ⟨env₁, hasked, hput⟩ := firstOpen_cons h b k keys
    rw [hasked] at hopen
    cases hpoll : ((seen env.now (env.slot (b.shelf.key k.text))).poll b.thresholds env.now).1 with
    | false =>
      rw [hpoll] at hopen
      cases hopen
      refine ⟨[], keys, rfl, nofun, hpoll, ?_, hput.frame.mono fun _ he => ⟨shut, by simp, he⟩⟩
      intro k' hk'
      rw [List.mem_singleton.mp hk']
      exact hput.slot_key
    | true =>
      rw [hpoll, if_pos rfl] at hopen
      obtain ⟨before, rest, rfl, hbefore, hshut, hpolled, hf⟩ := ih (hput.healthy h) hnodup hopen
      have hne : ∀ k' ∈ before ++ [shut], b.shelf.key k'.text ≠ b.shelf.key k.text :=
        fun k' hk' e => hk (List.mem_map.mpr ⟨k', by
          rcases List.mem_append.mp hk' with hmem | hmem
          · exact List.mem_append_left _ hmem
          · rw [List.mem_singleton.mp hmem]
            simp, e⟩)
      have hslot : ∀ k' ∈ before ++ [shut],
          env₁.slot (b.shelf.key k'.text) = env.slot (b.shelf.key k'.text) := fun k' hk' =>
        hput.slot_of_ne (hne k' hk')
      rw [hput.now_eq] at hbefore hshut hpolled
      rw [hslot shut (by simp)] at hshut
      have hframe := (hput.frame.mono fun key he =>
        (⟨k, by simp, he⟩ : ∃ k' ∈ k :: before ++ [shut], key = b.shelf.key k'.text)).trans
          (hf.mono fun _ ⟨k', hk', he⟩ => ⟨k', List.mem_cons_of_mem k hk', he⟩)
      refine ⟨k :: before, rest, rfl, ?_, hshut, ?_, hframe⟩
      · intro k' hk'
        rcases List.mem_cons.mp hk' with rfl | hk'
        · exact hpoll
        · have hthrough := hbefore k' hk'
          rwa [hslot k' (List.mem_append_left _ hk')] at hthrough
      · intro k' hk'
        rcases List.mem_cons.mp hk' with rfl | hk'
        · -- the circuits that are asked later do not touch this one
          rw [hf.slot_eq, hput.slot_key]
          rintro ⟨k'', hk'', he⟩
          exact hne k'' hk'' he.symm
        · rw [hpolled k' hk', hslot k' hk']

/-- Only the tracker's circuit is asked before another one, and only where policies have circuits of
their own. -/
theorem guards_split {before rest : List Key} (h : g.guards t p = before ++ shut :: rest) :
    before = [] ∧ shut = .ofTracker t ∨
      before = [.ofTracker t] ∧ shut = .scoped t p.name ∧ g.scope = .perPolicy := by
  unfold guards at h
  cases hs : g.scope with
  | perTracker =>
    rw [hs] at h
    obtain ⟨rfl, hshut⟩ | ⟨_, _, hnil⟩ := List.cons_eq_append_iff.mp h
    · exact .inl ⟨rfl, (List.cons.inj hshut).1⟩
    · simp at hnil
  | perPolicy =>
    rw [hs] at h
    obtain ⟨rfl, hshut⟩ | ⟨before', rfl, hrest⟩ := List.cons_eq_append_iff.mp h
    · exact .inl ⟨rfl, (List.cons.inj hshut).1⟩
    · obtain ⟨rfl, hshut⟩ | ⟨_, _, hnil⟩ := List.cons_eq_append_iff.mp hrest
      · exact .inr ⟨rfl, (List.cons.inj hshut).1, rfl⟩
      · simp at hnil

/-! ## What a refusal leaves -/

theorem ne_hour_of_named (hg : g.Built pl) (hkey : Holding.circuit.Named key.text) (now : UInt64)
    (t : Tracker) : g.breaker.shelf.key key.text ≠ g.monitor.shelf.key (hourName now t) := by
  obtain ⟨name, hname⟩ := hkey
  intro heq
  have hunder := g.monitor.under_hour t now
  rw [← heq, hname, hg.breaker_eq, hg.monitor_eq] at hunder
  exact Shelf.not_under (by decide) (by decide) _ name hunder

/-- **What a refusal writes**: the circuit that refuses is read, and the hour has one more request
that was blocked. -/
theorem refuse_of_healthy (hg : g.Built pl) (h : env.Healthy) (hp : p ∈ g.policies.policies)
    (hkey : key ∈ g.guards t p) (path : String) :
    let hour := g.monitor.shelf.key (hourName env.now t)
    let circuit := g.breaker.shelf.key key.text
    ∃ env', (g.refuse t path p key).on env =
        (refusal p env.now (((seen env.now (env.slot circuit)).nextProbe g.breaker.thresholds).getD
          (satAdd env.now g.breaker.thresholds.timeout)), env') ∧
      Env.Frame (fun k => k = circuit ∨ k = hour) env env' ∧
      env'.slot circuit = readable Circuit env.now (env.slot circuit) ∧
      env'.slot hour = some (TimedMap.entryAt env.now
        (Binary.encode (((recordIn Outcomes env.now (env.slot hour)).getD .none).add false))
        (some Monitor.hour)) := by
  intro hour circuit
  have hne : circuit ≠ hour := ne_hour_of_named hg (named_of_mem_guards hp hkey) _ t
  have hcount := Env.Puts.count env hour .countCircuitRejected
  obtain ⟨env₁, hnoted, hput₁⟩ :=
    Monitor.recordOutcome_of_healthy (hcount.healthy h) g.monitor t path false
  rw [hcount.now_eq, hcount.slot_key] at hput₁
  have hput₁ := hcount.trans hput₁
  have h₁ := hput₁.healthy h
  obtain ⟨env₂, hstatus, hput₂⟩ := g.breaker.status_of_healthy h₁ key
  rw [hput₁.now_eq, hput₁.slot_of_ne hne] at hput₂
  have hlog := Env.Puts.log env₂ circuit (.requestRefused t key p.name)
  rw [hput₂.slot_key] at hlog
  have hput₂ := hput₂.trans hlog
  have hleft : ((g.refuse t path p key).on env).2 =
      ((GateM.log (.requestRefused t key p.name)).on env₂).2 := by
    unfold refuse
    rw [GateM.on_bind, GateM.on_bind, hnoted, GateM.on_bind, GateM.on_bind]
    simp only [GateM.on_now, hstatus]
    rfl
  have hframe := (hput₁.frame.mono fun k (hk : k = hour) => (.inr hk : k = circuit ∨ _)).trans
    (hput₂.frame.mono fun _ => .inl)
  exact ⟨_, Prod.ext (fst_refuse hg h hkey path) hleft, hframe, hput₂.slot_key,
    (hput₂.slot_of_ne hne.symm).trans hput₁.slot_key⟩

/-- The entry for the outcomes of an hour that has one more request that was blocked. -/
def blockedEntry (g : Gate) (t : Tracker) (env : Env) : Entry :=
  TimedMap.entryAt env.now (Binary.encode (((recordIn Outcomes env.now
    (env.slot (g.monitor.shelf.key (hourName env.now t)))).getD .none).add false))
    (some Monitor.hour)

/-- Some circuits have been polled, the hour has one more request that was blocked, and that is
all. -/
structure Turned (g : Gate) (t : Tracker) (asked : List Key) (env env' : Env) : Prop where
  healthy : env'.Healthy
  now_eq : env'.now = env.now
  polled : ∀ k ∈ asked, ∀ later, env.now ≤ later →
    recordIn Circuit later (env'.slot (g.breaker.shelf.key k.text)) =
      recordIn Circuit later (g.breaker.moved env.now
        (fun c => (c.poll g.breaker.thresholds env.now).2) (env.slot (g.breaker.shelf.key k.text)))
  blocked : env'.slot (g.monitor.shelf.key (hourName env.now t)) = some (g.blockedEntry t env)
  slot_eq : ∀ key, (∀ k ∈ asked, key ≠ g.breaker.shelf.key k.text) →
    key ≠ g.monitor.shelf.key (hourName env.now t) → env'.slot key = env.slot key

/-- **What a request does that a circuit refuses**, and the instant that it is told. -/
theorem judge_of_barred (hg : g.Built pl) (h : g.Dated env) (hp : p ∈ g.policies.policies)
    (path : String) (hrefuses : g.Refuses shut t p env) :
    ∃ before rest opened env', g.guards t p = before ++ shut :: rest ∧
      (∀ k ∈ before, ¬ g.breaker.Bars k env) ∧ g.breaker.Bars shut env ∧
      g.breaker.OpenSince shut opened env ∧
      (g.judge t path p).on env =
        (refusal p env.now (satAdd opened g.breaker.thresholds.timeout), env') ∧
      g.Turned t (before ++ [shut]) env env' := by
  rcases hopen : (firstOpen g.breaker (g.guards t p)).on env with ⟨answer, env₁⟩
  obtain rfl : answer = some shut := by rwa [Refuses, hopen] at hrefuses
  obtain ⟨before, rest, hguards, hbefore, hshut, hpolled, hf₁⟩ :=
    firstOpen_barred h.healthy (guards_nodup g t p) hopen
  have hmem : ∀ k ∈ before ++ [shut], k ∈ g.guards t p := fun k hk => by
    rw [hguards, List.append_cons]
    exact List.mem_append_left _ hk
  have hnamed := fun k hk => named_of_mem_guards (t := t) hp (hmem k hk)
  have hlast : shut ∈ before ++ [shut] := by simp
  have h₁ := h.healthy.of_frame hf₁
  obtain ⟨env', hrefuse, hf₂, hread, hhour⟩ := refuse_of_healthy hg h₁ hp (hmem shut hlast) path
  rw [hf₁.now_eq] at hf₂ hread hhour
  have hnothour : ∀ k ∈ before ++ [shut], g.breaker.shelf.key k.text ≠
      g.monitor.shelf.key (hourName env.now t) := fun k hk => ne_hour_of_named hg (hnamed k hk) _ t
  -- the circuit that refuses is seen as it was, and its probe is announced
  have hsame : seen env.now (env₁.slot (g.breaker.shelf.key shut.text)) =
      seen env.now (env.slot (g.breaker.shelf.key shut.text)) := by
    rw [hpolled shut hlast, Breaker.seen_moved_eq (UInt64.le_refl _),
      if_pos (Circuit.snd_poll_of_fst_eq_false hshut)]
  obtain ⟨hstate, -⟩ := Circuit.fst_poll_eq_false_iff.mp hshut
  obtain ⟨opened, hsince, hopened, -⟩ := (h.at (hnamed shut hlast)).openSince h.healthy hstate
  have hprobe : (seen env.now (env.slot (g.breaker.shelf.key shut.text))).nextProbe
      g.breaker.thresholds = some (satAdd opened g.breaker.thresholds.timeout) := by
    rw [Circuit.nextProbe, hstate, hopened]
    rfl
  rw [hf₁.now_eq, hsame, hprobe, Option.getD_some] at hrefuse
  refine ⟨before, rest, opened, env', hguards, fun k hk hbars => ?_,
    ((h.at (hnamed shut hlast)).poll_eq_false_iff h.healthy).mp hshut, hsince, ?_, ?_⟩
  · have hpoll := ((h.at (hnamed k (List.mem_append_left _ hk))).poll_eq_false_iff h.healthy).mpr
      hbars
    rw [hbefore k hk] at hpoll
    cases hpoll
  · unfold judge
    rw [GateM.on_bind, hopen]
    exact hrefuse
  · refine ⟨h₁.of_frame hf₂, hf₂.now_eq.trans hf₁.now_eq, fun k hk later hlater => ?_, ?_,
      fun key hcircuit hne => ?_⟩
    · by_cases hkshut : k = shut
      · rw [hkshut, hread, recordIn_readable_later hlater, hpolled shut hlast]
      · rw [hf₂.slot_eq, hpolled k hk]
        rintro (heq | heq)
        · exact hkshut (Key.eq_of_key heq)
        · exact hnothour k hk heq
    · rw [hhour, hf₁.slot_eq, blockedEntry]
      rintro ⟨k, hk, heq⟩
      exact hnothour k hk heq.symm
    · rw [hf₂.slot_eq, hf₁.slot_eq]
      · rintro ⟨k, hk, heq⟩
        exact hcircuit k hk heq
      · rintro (heq | heq)
        · exact hcircuit shut hlast heq
        · exact hne heq

/-! ## At what cost -/

/-- What a request leaves of the store that is refused because a circuit is open. -/
structure FreeOfQuota (g : Gate) (t : Tracker) (env env' : Env) : Prop where
  /-- Windows, logs and blocks, the counts and rosters of violations, and the outcomes of other
  hours and trackers. -/
  kept : ∀ (kind : Holding) (name : String), kind.Named name → kind ≠ .circuit →
    name ≠ hourName env.now t →
    env'.slot (g.monitor.shelf.key name) = env.slot (g.monitor.shelf.key name)
  blocked : ((g.monitor.stats t).on env').1 = { ((g.monitor.stats t).on env).1 with
    blockedThisHour := satAdd ((g.monitor.stats t).on env).1.blockedThisHour 1 }
  circuits : ∀ key later, Holding.circuit.Named key.text → env.now ≤ later →
    (key = .ofTracker t → ¬ g.breaker.Overdue key env) →
    (env'.setClock later).record Circuit g.breaker.shelf key.text =
      (env.setClock later).record Circuit g.breaker.shelf key.text
  /-- The one circuit that may change. -/
  overdue : g.breaker.Overdue (.ofTracker t) env → g.scope = .perPolicy ∧
    ∃ c, env.record Circuit g.breaker.shelf (Key.ofTracker t).text = some c ∧
      env'.record Circuit g.breaker.shelf (Key.ofTracker t).text =
        some { c with state := .halfOpen, successes := 0 }

namespace Turned

variable {asked : List Key} (hturned : g.Turned t asked env env')
  (hnamed : ∀ k ∈ asked, Holding.circuit.Named k.text) (hg : g.Built pl)

include hturned hnamed hg

/-- What is no circuit and not the hour is as it was. -/
theorem kept {kind : Holding} {name : String} (hname : kind.Named name)
    (hkind : kind ≠ .circuit) (hhour : name ≠ hourName env.now t) :
    env'.slot (g.monitor.shelf.key name) = env.slot (g.monitor.shelf.key name) := by
  refine hturned.slot_eq _ (fun k hk heq => ?_) fun heq => hhour (Shelf.key_inj heq)
  rw [hg.monitor_eq, hg.breaker_eq] at heq
  rcases Holding.eq_of_named (Shelf.key_inj heq ▸ hname) (hnamed k hk) with hcircuit | ⟨-, hlimits⟩
  · exact hkind hcircuit
  · exact absurd hlimits (by decide)

/-- The statistics have one more request that was blocked. -/
theorem stats (h : env.Healthy) (hmax : env.now < maxWord) :
    ((g.monitor.stats t).on env').1 = { ((g.monitor.stats t).on env).1 with
      blockedThisHour := satAdd ((g.monitor.stats t).on env).1.blockedThisHour 1 } := by
  have hlives : env.now < satAdd env.now Monitor.hour.millis := by
    rw [lt_satAdd_iff hmax]
    have hpos : 0 < Monitor.hour.millis.toNat := by decide
    omega
  have hcounter : ∀ name, Holding.counter.Named name →
      env'.slot (g.monitor.shelf.key name) = env.slot (g.monitor.shelf.key name) := by
    intro name hname
    refine hturned.kept hnamed hg hname (by decide) fun heq => ?_
    have hboth : Holding.counter = .outcomes ∨ _ :=
      Holding.eq_of_named hname (heq ▸ ⟨env.now, t, rfl⟩)
    exact absurd hboth (by decide)
  simp only [Monitor.stats_of_healthy hturned.healthy, Monitor.stats_of_healthy h, hturned.now_eq,
    hcounter _ (.inl ⟨_, _, rfl⟩), hcounter _ (.inr (.inr ⟨t, rfl⟩)), hturned.blocked, blockedEntry,
    recordIn_entryAt (Monitor.Outcomes.exact _) hlives, Option.getD_some]
  rfl

omit hnamed in
/-- A circuit that is not overdue reads as it did. -/
theorem record (h : g.Dated env) {later : UInt64} (hkey : Holding.circuit.Named key.text)
    (hlater : env.now ≤ later) (hover : key ∈ asked → ¬ g.breaker.Overdue key env) :
    (env'.setClock later).record Circuit g.breaker.shelf key.text =
      (env.setClock later).record Circuit g.breaker.shelf key.text := by
  rw [record_setClock hturned.healthy, record_setClock h.healthy]
  by_cases hasked : key ∈ asked
  · rw [hturned.polled key hasked later hlater]
    exact (h.at hkey).record_polled h.healthy (hover hasked) hlater
  · rw [hturned.slot_eq _ (fun k hk heq => hasked ((Key.eq_of_key heq : key = k) ▸ hk))
      (ne_hour_of_named hg hkey _ t)]

omit hnamed hg in
/-- A circuit that is overdue becomes half-open. -/
theorem record_of_overdue (h : g.Dated env) (hmax : env.now < maxWord) (hasked : key ∈ asked)
    (hkey : Holding.circuit.Named key.text) (hover : g.breaker.Overdue key env) :
    ∃ c, env.record Circuit g.breaker.shelf key.text = some c ∧
      env'.record Circuit g.breaker.shelf key.text =
        some { c with state := .halfOpen, successes := 0 } := by
  obtain ⟨c, hc, hlives, hpolled⟩ := (h.at hkey).record_polled_of_overdue h.healthy hmax hover
  refine ⟨c, hc, ?_⟩
  rw [hturned.healthy.record_eq, hturned.now_eq, hturned.polled key hasked _ (UInt64.le_refl _),
    hpolled, if_pos hlives]

end Turned

/-- Whoever is turned away finds a circuit that is not overdue. -/
theorem not_overdue_of_bars {b : Breaker} (h : b.Bars key env) : ¬ b.Overdue key env := by
  obtain ⟨opened, ⟨c, hc, _, hopened⟩, hle⟩ := h
  rintro ⟨opened', ⟨c', hc', _, hopened'⟩, hlt⟩
  obtain rfl := Option.some.inj (hc.symm.trans hc')
  obtain rfl := Option.some.inj (hopened.symm.trans hopened')
  omega

/-- **A request that a circuit refuses is free of quota.** -/
theorem freeOfQuota (hg : g.Built pl) (h : g.Dated env) (hmax : env.now < maxWord)
    (hp : p ∈ g.policies.policies) {before rest : List Key}
    (hguards : g.guards t p = before ++ shut :: rest) (hbars : g.breaker.Bars shut env)
    (hturned : g.Turned t (before ++ [shut]) env env') : g.FreeOfQuota t env env' := by
  have hnamed : ∀ k ∈ before ++ [shut], Holding.circuit.Named k.text := fun k hk =>
    named_of_mem_guards (t := t) hp (by
      rw [hguards, List.append_cons]
      exact List.mem_append_left _ hk)
  refine ⟨fun kind name => hturned.kept hnamed hg, hturned.stats hnamed hg h.healthy hmax,
    fun key later hkey hlater hover => hturned.record hg h hkey hlater fun hasked => ?_,
    fun hover => ?_⟩
  · rcases List.mem_append.mp hasked with hbefore | hlast
    · obtain ⟨rfl, -⟩ | ⟨rfl, -⟩ := guards_split hguards
      · cases hbefore
      · exact hover (List.mem_singleton.mp hbefore)
    · rw [List.mem_singleton.mp hlast]
      exact not_overdue_of_bars hbars
  · obtain ⟨-, rfl⟩ | ⟨rfl, -, hscope⟩ := guards_split hguards
    · exact absurd hover (not_overdue_of_bars hbars)
    · exact ⟨hscope, hturned.record_of_overdue h hmax (by simp) (hnamed _ (by simp)) hover⟩

/-- No more requests of an hour are blocked than there are steps. -/
theorem blocked_le_length (hg : g.Built pl) (hhealthy : ∀ s ∈ run, s.Healthy)
    (hmax : ∀ s ∈ run, s.now < maxWord) {now : UInt64} (hnow : now < maxWord) (start : UInt64)
    (t : Tracker) :
    ((g.monitor.stats t).on
      ((g.left run (.start start (.empty none))).setClock now)).1.blockedThisHour.toNat ≤
        run.length := by
  let trace := g.traced run (.start start (.empty none))
  have hstart : g.monitor.Knows (tallied []) (.start start (.empty none)) :=
    g.monitor.knows_start start
  have hknows : g.monitor.Knows (tallied trace) (g.left run (.start start (.empty none))) :=
    knows_replay hg hhealthy hmax hstart
  have hhere : g.monitor.Knows (tallied trace)
      ((g.left run (.start start (.empty none))).setClock now) :=
    ⟨hknows.sound.of_slots (hknows.sound.healthy.setClock now) fun _ => rfl, hknows.hours,
      hknows.days, hknows.paths⟩
  have hfew : (tallied trace).blocked (hourOf now) t ≤ trace.length := List.countP_le_length
  have hsteps : trace.length ≤ run.length := by
    simp only [trace, traced, List.length_zip]
    omega
  obtain ⟨_, _, hstats, _⟩ := hhere.stats hnow t
  rw [hstats, toNat_wordOfNat]
  dsimp only [Env.now_setClock]
  omega

/-- **Which requests are refused because a circuit is open, and at what cost.**  Let a gate be
built, and start it on an empty store that does not fail.  After any run below the end of the clock,
and at any instant below it, a request under one of its policies is answered, and the decision says
that a circuit is open if and only if one of the circuits that guard the request has the record of
an open one of which at most the timeout has passed.  If so,

* the decision is reset at the end of the timeout of the first such circuit;
* no record of the limiter and none of the monitor is different for it, except that the tracker has
  one more request of the hour that was blocked;
* no record of a circuit is different for it either, except that where policies have circuits of
  their own the circuit of the tracker is half-open if it was open for longer than the timeout.

The number of blocked requests stops at the largest word, which takes more steps than there are
words. -/
theorem refused_iff_barred (pl : Plan) (g : Gate) (built built' : Env)
    (hbuild : pl.build.on built = (.ok g, built')) (start now : UInt64) (run : List Step)
    (hhealthy : ∀ s ∈ run, s.Healthy) (hmax : ∀ s ∈ run, s.now < maxWord) (hnow : now < maxWord)
    (t : Tracker) (p : Policy) (hp : p ∈ pl.policies) (path : String) :
    let env := (g.left run (.start start (.empty none))).setClock now
    let blocked (env : Env) := ((g.monitor.stats t).on env).1.blockedThisHour
    ∃ d env', (g.request t path p.name).on env = (.ok d, env') ∧
      (d.circuitOpen = true ↔ ∃ k ∈ g.guards t p, g.breaker.Bars k env) ∧
      (d.circuitOpen = true →
        (∃ before shut rest opened, g.guards t p = before ++ shut :: rest ∧
          (∀ k ∈ before, ¬ g.breaker.Bars k env) ∧ g.breaker.Bars shut env ∧
          g.breaker.OpenSince shut opened env ∧
          d.resetAt = satAdd opened g.breaker.thresholds.timeout) ∧
        g.FreeOfQuota t env env' ∧
        (run.length + 1 < wordCount → (blocked env').toNat = (blocked env).toNat + 1)) := by
  intro env blocked
  have hg := Plan.built_of_build hbuild
  rw [← hg.policies_eq] at hp
  have hleft := dated_left hg hhealthy (g.dated_start start)
  have h : g.Dated env := ⟨hleft.healthy.setClock now, hleft.dated⟩
  have hjudged : ∀ r, (g.judge t path p).on env = r →
      (g.request t path p.name).on env = (.ok r.1, r.2) := by
    rintro r rfl
    simp only [request, withPolicy, hg.policy_of_mem (hg.policies_eq ▸ hp), GateM.on_bind,
      GateM.on_pure]
  cases hopen : ((firstOpen g.breaker (g.guards t p)).on env).1 with
  | none =>
    have hruled : ((g.judge t path p).on env).1.circuitOpen = false := by
      rw [← Bool.not_eq_true, circuitOpen_judge_iff]
      exact not_not_intro hopen
    have hnone : ¬ ∃ k ∈ g.guards t p, g.breaker.Bars k env := by
      rintro ⟨k, hk, hbars⟩
      obtain ⟨hthrough, -⟩ :=
        firstOpen_none_of_healthy h.healthy (guards_nodup g t p) (Prod.ext hopen rfl) k hk
      rw [((h.at (named_of_mem_guards hp hk)).poll_eq_false_iff h.healthy).mpr hbars] at hthrough
      cases hthrough
    refine ⟨_, _, hjudged _ rfl, ?_, fun hd => absurd hd (by simp [hruled])⟩
    exact iff_of_false (by simp [hruled]) hnone
  | some shut =>
    obtain ⟨before, rest, opened, env', hguards, hbefore, hbars, hsince, hjudge, hturned⟩ :=
      judge_of_barred hg h hp path hopen
    have hfree := freeOfQuota hg h hnow hp hguards hbars hturned
    refine ⟨_, _, hjudged _ hjudge, ⟨fun _ => ⟨shut, by simp [hguards], hbars⟩, fun _ => rfl⟩,
      fun _ => ⟨⟨before, shut, rest, opened, hguards, hbefore, hbars, hsince, rfl⟩, hfree,
        fun hlength => ?_⟩⟩
    have hfew : (blocked env).toNat ≤ run.length :=
      blocked_le_length hg hhealthy hmax hnow start t
    have hone : (1 : UInt64).toNat = 1 := rfl
    simp only [blocked] at hfew ⊢
    rw [hfree.blocked, toNat_satAdd, hone]
    omega

/-- Alice's own circuit opens, and four seconds later her circuit for the policy. -/
def bothOpened : List Step :=
  [.at 0 (.report (.user "alice") false), .at 4000 (.reportFor (.user "alice") "login" false)]

/-- After six seconds her own circuit lets a probe through, and that for the policy refuses it until
its five seconds are over. -/
theorem refused_at_sixSeconds :
    let g := (Plan.twoPerSecond oneFailure .perPolicy).validGate
    let env := (g.left bothOpened (.start 0 (.empty none))).setClock 6000
    (∃ env', (Plan.twoPerSecond oneFailure .perPolicy).build.on (.start 0 (.empty none)) =
      (.ok g, env')) ∧
    (∀ s ∈ bothOpened, s.Healthy) ∧ (∀ s ∈ bothOpened, s.now < maxWord) ∧
    g.breaker.Overdue (.ofTracker (.user "alice")) env ∧
    ∃ d env', (g.request (.user "alice") "/" "login").on env = (.ok d, env') ∧
      d.circuitOpen = true ∧ d.resetAt = 9000 ∧ g.FreeOfQuota (.user "alice") env env' ∧
      (((g.monitor.stats (.user "alice")).on env').1.blockedThisHour).toNat =
        (((g.monitor.stats (.user "alice")).on env).1.blockedThisHour).toNat + 1 := by
  intro g env
  obtain ⟨built, hbuild⟩ :=
    Plan.build_twoPerSecond oneFailure rfl .perPolicy (.start 0 (.empty none))
  have hhealthy : ∀ s ∈ bothOpened, s.Healthy := by simp [bothOpened, Step.healthy_at]
  have hmax : ∀ s ∈ bothOpened, s.now < maxWord := by decide
  have hover : g.breaker.Overdue (.ofTracker (.user "alice")) env :=
    ⟨0, ⟨⟨.open, 1, 0, some 0⟩, by decide +kernel, rfl, rfl⟩, by decide +kernel⟩
  have hbars : g.breaker.Bars (.scoped (.user "alice") "login") env :=
    ⟨4000, ⟨⟨.open, 1, 0, some 4000⟩, by decide +kernel, rfl, rfl⟩, by decide +kernel⟩
  obtain ⟨d, env', hrequest, hiff, hrefused⟩ :=
    refused_iff_barred _ g _ built hbuild 0 6000 bothOpened hhealthy hmax (by decide)
      (.user "alice") (.twoPerSecond .fixedWindow) List.mem_cons_self "/"
  have hopen := hiff.mpr ⟨_, by simp [guards, g, Plan.validGate, Plan.twoPerSecond,
    Policy.twoPerSecond], hbars⟩
  obtain ⟨-, hfree, hblocked⟩ := hrefused hopen
  have htold : ((g.request (.user "alice") "/" "login").on env).1 =
      .ok (refusal (.twoPerSecond .fixedWindow) 6000 9000) := by decide +kernel
  refine ⟨⟨built, hbuild⟩, hhealthy, hmax, hover, d, env', hrequest, hopen, ?_, hfree,
    hblocked (by decide)⟩
  obtain rfl := Except.ok.inj ((congrArg Prod.fst hrequest).symm.trans htold)
  rfl

end Gate

end Turnstile
