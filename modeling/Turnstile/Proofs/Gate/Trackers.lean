import Turnstile.Proofs.Gate.Places
import Turnstile.Proofs.Gate.Runs
import Turnstile.Proofs.Violation.Recorded

/-!
# One tracker among others

What is asked about a tracker is answered by what the store has under the keys of that tracker, and
changes nothing under the keys of another one.  The rosters and the counts of paths are shared, but
no answer about a tracker depends on them.  Whoever is ranked has the count of the day read by
others; on the day, that leaves it as it is.

* `Gate.Alone`: surroundings in which the same is known of a tracker.
* `Gate.Spares`: what makes no difference to a tracker.
* `Gate.alike_perform`: what is asked about a tracker, in two surroundings.
* `Gate.spares_perform`: what is not asked about it.
* `Gate.traced_of_tracker`: a run and the same run without some of the steps about others.
-/

set_option autoImplicit false

namespace Turnstile.Gate

open Circuit (Key)
open Violation

variable {pl : Plan} {g : Gate} {t u : Tracker} {p : Policy} {key path : String} {d : UInt64}
  {C : (Metrics → Metrics) → Prop} {α : Type} {env env' env₁ : Env}

/-! ## The keys of a tracker -/

/-- The keys of a tracker, apart from those of its counts of days. -/
def Undated (g : Gate) (t : Tracker) (key : String) : Prop :=
  ∃ a : Place, a.Plain ∧ (∀ d, a ≠ .day d) ∧ key = g.place t a

theorem of_undated (h : g.Undated t key) : g.Of t key := by
  obtain ⟨a, ha, _, rfl⟩ := h
  exact ⟨a, ha, rfl⟩

theorem not_undated_day (d : UInt64) (x : String) :
    ¬ g.Undated t (g.monitor.shelf.key (dayName d x)) := by
  rintro ⟨a, _, ha, hkey⟩
  exact not_ofDay_place ha (hkey ▸ g.monitor.ofDay_dayKey d x)

section Plain

variable (hg : g.Built pl) (hplain : ∀ p ∈ pl.policies, ':' ∉ p.name.toList)

include hg hplain

theorem undated_of_owns {k : Key} (h : g.Owns t k) : g.Undated t (g.breaker.shelf.key k.text) := by
  rcases h with rfl | ⟨p, hp, rfl⟩
  · exact ⟨.circuit, trivial, nofun, key_ofTracker hg t⟩
  · rw [hg.policies_eq] at hp
    exact ⟨.circuitFor p.name, hplain p hp, nofun, key_scoped hg t p.name⟩

theorem undated_window (t : Tracker) (hp : p ∈ g.policies.policies) :
    g.Undated t (g.limiter.shelf.key (Limiter.windowName t p)) := by
  rw [hg.policies_eq] at hp
  exact ⟨.window p.name, hplain p hp, nofun, key_window hg t p⟩

theorem undated_block (t : Tracker) (hp : p ∈ g.policies.policies) :
    g.Undated t (g.limiter.shelf.key (Limiter.blockName t p)) := by
  rw [hg.policies_eq] at hp
  exact ⟨.block p.name, hplain p hp, nofun, key_block hg t p⟩

end Plain

theorem undated_hour (g : Gate) (t : Tracker) (now : UInt64) :
    g.Undated t (g.monitor.shelf.key (hourName now t)) :=
  ⟨.hour (hourOf now), trivial, nofun, key_hour g now t⟩

theorem undated_minute (g : Gate) (t : Tracker) :
    g.Undated t (g.monitor.shelf.key (minuteName t)) :=
  ⟨.minute, trivial, nofun, key_minute g t⟩

theorem of_day (g : Gate) (d : UInt64) (t : Tracker) :
    g.Of t (g.monitor.shelf.key (dayName d t.key)) :=
  ⟨.day d, trivial, key_day g d t⟩

/-- What is kept of a day is kept of a tracker if it is a count of its violations. -/
theorem day_of_ofDay (h : g.Of t key) (hd : g.monitor.OfDay d key) :
    ∃ e, key = g.monitor.shelf.key (dayName e t.key) := by
  obtain ⟨a, _, rfl⟩ := h
  cases a with
  | day e => exact ⟨e, (key_day g e t).symm⟩
  | _ => exact absurd hd (not_ofDay_place nofun)

theorem not_of_path (d : UInt64) (path : String) :
    ¬ g.Of t (g.monitor.shelf.key (pathName d path)) := by
  intro h
  obtain ⟨e, hkey⟩ := day_of_ofDay h (g.monitor.ofDay_pathKey d path)
  exact g.monitor.dayKey_ne_pathKey e d t.key path hkey.symm

theorem not_of_roster (h : g.monitor.RosterKey d key) : ¬ g.Of t key := by
  obtain ⟨k, rfl⟩ := h
  intro h
  obtain ⟨e, hkey⟩ := day_of_ofDay h (g.monitor.ofDay_rosterKey d k)
  exact g.monitor.dayKey_ne_rosterKey e d t.key k hkey.symm

/-- What a violation changes of a tracker: its counts of the day and of the minute. -/
theorem of_marks (h : g.Of t key) (hm : g.monitor.Marks d u path key) :
    key = g.monitor.shelf.key (dayName d u.key) ∨ key = g.monitor.shelf.key (minuteName u) := by
  rcases hm with hkey | hkey | hroster | hkey
  · exact .inl hkey
  · exact absurd (hkey ▸ h) (not_of_path d path)
  · exact absurd h (not_of_roster hroster)
  · exact .inr hkey

/-! ## What is asked about a tracker -/

/-- Sound surroundings in which the same is known of a tracker. -/
structure Alone (g : Gate) (t : Tracker) (env env' : Env) : Prop where
  sound : g.monitor.Sound env
  sound' : g.monitor.Sound env'
  slot_eq : ∀ key, g.Of t key → env'.slot key = env.slot key

/-- The same at the same instant. -/
def AloneNow (g : Gate) (t : Tracker) (env env' : Env) : Prop :=
  env'.now = env.now ∧ g.Alone t env env'

theorem AloneNow.agree {K : String → Prop} (h : g.AloneNow t env env')
    (hK : ∀ key, K key → g.Of t key) : env.Agree K env' :=
  Env.agree_of_healthy h.2.sound.healthy h.2.sound'.healthy h.1 fun key hkey =>
    h.2.slot_eq key (hK key hkey)

theorem closed_aloneNow (g : Gate) (t : Tracker) : GateM.Closed (GateM.Alike (g.AloneNow t)) :=
  GateM.closed_alike (fun _ _ h => h.1) fun e env env' ⟨hnow, h⟩ =>
    ⟨hnow, h.sound.same (GateM.touches_log e env), h.sound'.same (GateM.touches_log e env'),
      h.slot_eq⟩

theorem sound_of_undated {x : GateM α} (hx : x.Uses (g.Undated t) C) (h : g.monitor.Sound env) :
    g.monitor.Sound (x.on env).2 :=
  h.of_frame (hx.touches env) (hx.steady (Env.steady_mortal _ C) env h.mortal) not_undated_day

theorem alike_of_undated {x : GateM α} (hx : x.Uses (g.Undated t) C) :
    x.Alike (g.AloneNow t) := by
  intro env env' h
  obtain ⟨hanswer, hagree⟩ := hx.alike env env' (h.agree fun _ => of_undated)
  refine ⟨hanswer, hagree.now_eq, sound_of_undated hx h.2.sound, sound_of_undated hx h.2.sound',
    fun key hkey => ?_⟩
  by_cases hused : g.Undated t key
  · exact hagree.store.slot_eq key hused
  · rw [(hx.touches env').slot_eq key hused, (hx.touches env).slot_eq key hused,
      h.2.slot_eq key hkey]

theorem alike_stats (g : Gate) (t : Tracker) : (g.monitor.stats t).Alike (g.AloneNow t) := by
  intro env env' h
  have huses : (g.monitor.stats t).Uses (g.Of t) fun _ => False :=
    Monitor.uses_stats (fun now => of_undated (undated_hour g t now)) (fun d => of_day g d t)
      (of_undated (undated_minute g t))
  obtain ⟨hanswer, hagree⟩ := huses.alike env env' (h.agree fun _ => id)
  exact ⟨hanswer, hagree.now_eq, h.2.sound.stats t, h.2.sound'.stats t, hagree.store.slot_eq⟩

/-- A violation of the tracker adds to the same counts of it. -/
theorem alike_violation (g : Gate) (t : Tracker) (path : String) (v : Violation) :
    (noted (g.monitor.recordViolation t path v)).Alike (g.AloneNow t) := by
  rintro env env' ⟨hnow, h⟩
  obtain ⟨env₁, hon, hf, hs, hday, _, hminute⟩ :=
    Monitor.recordViolation_of_sound h.sound t path v
  obtain ⟨env₁', hon', hf', hs', hday', _, hminute'⟩ :=
    Monitor.recordViolation_of_sound h.sound' t path v
  simp only [noted, GateM.on_bind, GateM.on_pure, hon, hon']
  refine ⟨trivial, by rw [hf'.now_eq, hf.now_eq, hnow], hs, hs', fun key hkey => ?_⟩
  rw [hnow] at hf' hday' hminute'
  by_cases hmarks : g.monitor.Marks (dayOf env.now) t path key
  · rcases of_marks hkey hmarks with rfl | rfl
    · rw [hday, hday', h.slot_eq _ hkey]
    · rw [hminute, hminute', h.slot_eq _ hkey]
  · rw [hf.slot_eq key hmarks, hf'.slot_eq key hmarks, h.slot_eq key hkey]

section Plain

variable (hg : g.Built pl) (hplain : ∀ p ∈ pl.policies, ':' ∉ p.name.toList)

include hg hplain

/-- What is asked about a tracker has a property, if operations on its keys have it, and counting,
its statistics and its violations. -/
theorem closed_about {Q : {α : Type} → GateM α → Prop} (hQ : GateM.Closed Q)
    (huses : ∀ {α : Type} {x : GateM α}, x.Uses (g.Undated t) (fun _ => True) → Q x)
    (hviolation : ∀ path v, Q (noted (g.monitor.recordViolation t path v)))
    (hstats : Q (g.monitor.stats t)) {a : Action} (ha : a.tracker? = some t) : Q (g.perform a) := by
  refine closed_perform hQ ha (fun path policy p _ hp => ?_)
    (fun k hk succeeded => huses (Breaker.uses_record (undated_of_owns hg hplain hk) succeeded))
    (fun k hk => huses (Breaker.uses_reset (undated_of_owns hg hplain hk)))
    (fun k hk => huses (Breaker.uses_status (undated_of_owns hg hplain hk))) hstats
  have hguard : ∀ k ∈ g.guards t p, g.Undated t (g.breaker.shelf.key k.text) := fun k hk =>
    undated_of_owns hg hplain (owns_of_mem_guards hp hk)
  have hcircuit := hguard _ (policyCircuit_mem_guards g t p)
  exact Asks.judge hQ
    { count := fun _ => huses (.count trivial)
      admits := fun k hk => huses (Breaker.uses_admits (hguard k hk))
      status := fun k hk => huses (Breaker.uses_status (hguard k hk))
      success := huses (Breaker.uses_recordSuccess hcircuit)
      failure := huses (Breaker.uses_recordFailure hcircuit)
      check := huses (Limiter.uses_check (undated_window hg hplain t hp)
        (undated_block hg hplain t hp))
      outcome := fun path allowed =>
        huses (Monitor.uses_recordOutcome (undated_hour g t) path allowed)
      violation := hviolation } path

/-- **What is asked about a tracker is answered by what is known of it**, and leaves the same known
of it. -/
theorem alike_perform {a : Action} (ha : a.tracker? = some t) :
    (g.perform a).Alike (g.AloneNow t) :=
  closed_about hg hplain (closed_aloneNow g t) alike_of_undated (alike_violation g t)
    (alike_stats g t) ha

end Plain

/-! ## What is not asked about it -/

/-- What happens makes no difference to a tracker. -/
def Spares (g : Gate) (t : Tracker) (env env' : Env) : Prop :=
  g.monitor.Sound env → g.monitor.Sound env' ∧ Env.Frame (fun key => ¬ g.Of t key) env env'

theorem closed_spares (g : Gate) (t : Tracker) : GateM.Closed (GateM.Moves (g.Spares t)) := by
  have hsame : ∀ {env env' : Env}, env.Same env' → g.Spares t env env' := fun hsame h =>
    ⟨h.same hsame, hsame.frame _⟩
  refine GateM.closed_moves (K := fun _ => False) (C := fun _ => False)
    ⟨fun env => hsame (.refl env), fun env env₁ env₂ h₁ h₂ h => ?_,
      fun e env => hsame (GateM.touches_log e env),
      fun f _ env => hsame (GateM.touches_count f env), nofun, nofun, nofun⟩
  obtain ⟨hs₁, hf₁⟩ := h₁ h
  obtain ⟨hs₂, hf₂⟩ := h₂ hs₁
  exact ⟨hs₂, hf₁.trans hf₂⟩

theorem not_of (hne : u ≠ t) (h : g.Of u key) : ¬ g.Of t key := fun h' => hne (of_inj h h')

theorem spares_stats (hne : u ≠ t) : (g.monitor.stats u).Moves (g.Spares t) := by
  intro env h
  have huses : (g.monitor.stats u).Uses (g.Of u) fun _ => False :=
    Monitor.uses_stats (fun now => of_undated (undated_hour g u now)) (fun d => of_day g d u)
      (of_undated (undated_minute g u))
  exact ⟨h.stats u, (huses.touches env).mono fun _ => not_of hne⟩

theorem spares_violation (hne : u ≠ t) (path : String) (v : Violation) :
    (noted (g.monitor.recordViolation u path v)).Moves (g.Spares t) := by
  intro env h
  obtain ⟨env', hon, hf, hs, _⟩ := Monitor.recordViolation_of_sound h u path v
  simp only [noted, GateM.on_bind, GateM.on_pure, hon]
  refine ⟨hs, hf.mono fun key hmarks hkey => ?_⟩
  rcases of_marks hkey hmarks with rfl | rfl
  · exact not_of hne (of_day g _ u) hkey
  · exact not_of hne (of_undated (undated_minute g u)) hkey

/-- **What is not asked about a tracker makes no difference to it.** -/
theorem spares_perform (hg : g.Built pl) (hplain : ∀ p ∈ pl.policies, ':' ∉ p.name.toList)
    {a : Action} (ha : a.tracker? ≠ some t) : (g.perform a).Moves (g.Spares t) := by
  have hQ := closed_spares g t
  cases hu : a.tracker? with
  | some u =>
    have hne : u ≠ t := fun e => ha (e ▸ hu)
    exact closed_about hg hplain hQ (fun hx env h => ⟨sound_of_undated hx h,
      (hx.touches env).mono fun _ hkey => not_of hne (of_undated hkey)⟩) (spares_violation hne)
      (spares_stats hne) hu
  | none =>
    cases a with
    | top limit =>
      refine hQ.bind (fun env h => ?_) fun _ => hQ.pure _
      obtain ⟨hf, hs⟩ := h.top limit
      exact ⟨hs, hf.mono fun _ => not_of_roster⟩
    | onPath path =>
      refine hQ.bind (fun env h => ?_) fun _ => hQ.pure _
      have huses : (g.monitor.onPath path).Uses
          (fun key => ∃ d, key = g.monitor.shelf.key (pathName d path)) fun _ => False :=
        Monitor.uses_onPath fun d => ⟨d, rfl⟩
      refine ⟨h.of_frame (huses.touches env) (huses.steady (Env.steady_mortal _ _) env h.mortal)
        fun d x ⟨e, hkey⟩ => g.monitor.dayKey_ne_pathKey d e x path hkey, ?_⟩
      exact (huses.touches env).mono fun key ⟨d, hkey⟩ => hkey ▸ not_of_path d path
    | _ => cases hu

/-! ## Runs -/

variable {run : List Step}

theorem Alone.symm (h : g.Alone t env env') : g.Alone t env' env :=
  ⟨h.sound', h.sound, fun key hkey => (h.slot_eq key hkey).symm⟩

theorem Alone.step {s : Step} (hs : s.Healthy) (h : g.Alone t env env') :
    g.Alone t (s.env env) env' :=
  ⟨h.sound.of_slots (Step.healthy_env hs h.sound.healthy) fun _ => rfl, h.sound', h.slot_eq⟩

/-- A step that is not about the tracker, in one of two runs. -/
theorem Alone.take (hg : g.Built pl) (hplain : ∀ p ∈ pl.policies, ':' ∉ p.name.toList) {s : Step}
    (hs : s.Healthy) (ha : s.action.tracker? ≠ some t) (h : g.Alone t env env') :
    g.Alone t ((g.take s).on env).2 env' := by
  have h := h.step hs
  obtain ⟨hsound, hf⟩ := spares_perform hg hplain ha (s.env env) h.sound
  refine ⟨hsound, h.sound', fun key hkey => ?_⟩
  rw [h.slot_eq key hkey]
  exact (hf.slot_eq key (not_not_intro hkey)).symm

/-- **Steps about others make no difference to what is answered about a tracker.** -/
theorem traced_of_tracker (hg : g.Built pl) (hplain : ∀ p ∈ pl.policies, ':' ∉ p.name.toList)
    (hhealthy : ∀ s ∈ run, s.Healthy) {keep : Step → Bool}
    (hkeep : ∀ s : Step, s.action.tracker? = some t → keep s = true) (h : g.Alone t env env') :
    (g.traced (run.filter keep) env').filter (fun x => x.1.action.tracker? = some t) =
      (g.traced run env).filter fun x => x.1.action.tracker? = some t := by
  refine (filter_traced (fun s => s.action.tracker? = some t)
    (R := fun run env env' => (∀ s ∈ run, s.Healthy) ∧ g.Alone t env env')
    (fun s hs => hkeep s (of_decide_eq_true hs)) (fun s run env env' ⟨hhealthy, h⟩ _ => ?_)
    (fun s run env env' ⟨hhealthy, h⟩ hs => ?_) ⟨hhealthy, h⟩).1
  · obtain ⟨hs, hhealthy⟩ := List.forall_mem_cons.mp hhealthy
    by_cases ha : s.action.tracker? = some t
    · obtain ⟨hanswer, _, hafter⟩ := alike_perform hg hplain ha (s.env env) (s.env env')
        ⟨rfl, ((h.step hs).symm.step hs).symm⟩
      exact ⟨fun _ => hanswer, hhealthy, hafter⟩
    · exact ⟨fun hlook => absurd (of_decide_eq_true hlook) ha, hhealthy,
        ((h.take hg hplain hs ha).symm.take hg hplain hs ha).symm⟩
  · obtain ⟨hstep, hhealthy⟩ := List.forall_mem_cons.mp hhealthy
    have ha : s.action.tracker? ≠ some t := fun ha => by simp [hkeep s ha] at hs
    exact ⟨hhealthy, h.take hg hplain hstep ha⟩

end Turnstile.Gate
