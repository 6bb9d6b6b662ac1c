import Mathlib.Algebra.BigOperators.Group.Finset.Piecewise
import Turnstile.Proofs.Gate.Actions
import Turnstile.Proofs.Gate.Places
import Turnstile.Proofs.Violation.Tallies

/-!
# The monitor and the decisions

What the monitor of a gate counts is the history of the gate's decisions: an admission is an allowed
request, a denial of either kind is a blocked one, and a denial for the quota is a violation of its
tracker and on its path.

* `Gate.tallied`: the numbers of a trace.
* `Gate.knows_judge`, `Gate.knows_take`: a decision and a step.
* `Gate.knows_replay`: a run.
* `Gate.stats_eq_tallied`: the statistics are those of the history.
-/

set_option autoImplicit false

namespace Turnstile

open Circuit (Key)
open Violation (hourOf dayOf)

/-- One more decision. -/
def Tally.decided (y : Tally) (now : UInt64) (t : Tracker) (path : String) (d : Decision) : Tally :=
  if d.allowed then y.outcome now t true
  else if d.circuitOpen then y.outcome now t false
  else (y.outcome now t false).violation now t path

namespace Gate

/-! ## The numbers of a trace -/

/-- Who asks for admission. -/
def Action.asker? : Action → Option Tracker
  | .request t _ _ => some t
  | _ => none

/-- On which path admission is asked for. -/
def Action.path? : Action → Option String
  | .request _ path _ => some path
  | _ => none

/-- Whether an answer denies a request. -/
def Answer.denies : Answer → Bool
  | .decision d => !d.allowed
  | _ => false

/-- The numbers of a trace: the decisions of each hour and each tracker that allow and that deny, and
the decisions of each day that deny for the quota, by tracker and by path. -/
def tallied (trace : List (Step × Answer)) : Tally where
  allowed h t := trace.countP fun x =>
    x.1.action.asker? = some t ∧ hourOf x.1.now = h ∧ x.2.admits = true
  blocked h t := trace.countP fun x =>
    x.1.action.asker? = some t ∧ hourOf x.1.now = h ∧ x.2.denies = true
  violations d t := trace.countP fun x =>
    x.1.action.asker? = some t ∧ dayOf x.1.now = d ∧ x.2.limited = true
  onPath d path := trace.countP fun x =>
    x.1.action.path? = some path ∧ dayOf x.1.now = d ∧ x.2.limited = true

variable {trace : List (Step × Answer)} {s : Step} {a : Answer} {d : Decision} {t : Tracker}
  {path policy : String}

theorem tallied_concat_other (h : ∀ d, a ≠ .decision d) :
    tallied (trace ++ [(s, a)]) = tallied trace := by
  cases a with
  | decision d => exact absurd rfl (h d)
  | _ => simp [tallied, Answer.admits, Answer.denies, Answer.limited]

theorem tallied_concat_request (h : s.action = .request t path policy) :
    tallied (trace ++ [(s, .decision d)]) = (tallied trace).decided s.now t path d := by
  unfold Tally.decided
  cases ha : d.allowed <;> cases ho : d.circuitOpen <;>
    simp [tallied, Tally.outcome, Tally.violation, h, ha, ho, Action.asker?, Action.path?,
      Answer.admits, Answer.denies, Answer.limited, List.countP_singleton]

/-! ## Steps -/

variable {pl : Plan} {g : Gate} {p : Policy} {y : Tally} {env : Env} {run : List Step}

theorem knows_env (hs : s.Healthy) (h : g.monitor.Knows y env) : g.monitor.Knows y (s.env env) :=
  ⟨h.sound.of_slots (Step.healthy_env hs h.sound.healthy) fun _ => rfl, h.hours, h.days, h.paths⟩

/-- Limiter and breaker change none of the numbers. -/
theorem knows_of_uses {α : Type} {C : (Metrics → Metrics) → Prop} {x : GateM α}
    (hx : x.Uses g.Elsewhere C) (h : g.monitor.Knows y env) :
    g.monitor.Knows y (x.on env).2 ∧ (x.on env).2.now = env.now := by
  have hf := hx.touches env
  have hmortal := hx.steady (Env.steady_mortal _ C) env h.sound.mortal
  have hdays := fun d x => not_not_intro (g.monitor.under_day d x)
  exact ⟨h.of_frame hf (h.sound.of_frame hf hmortal hdays)
    (fun h' u => not_not_intro (g.monitor.under_hourKey h' u)) hdays
    fun d path => not_not_intro (g.monitor.under_path d path), hf.now_eq⟩

/-- What the limiter says is taken note of by the monitor. -/
theorem knows_settle (hg : g.Built pl) (hp : p ∈ g.policies.policies) (h : g.monitor.Knows y env)
    (hnow : env.now < maxWord) (t : Tracker) (path : String) (o : Outcome) :
    g.monitor.Knows (if o.allowed then y else y.violation env.now t path)
      ((g.settle t path p o).on env).2 := by
  have hcircuit := elsewhere_of_owns hg (owns_of_mem_guards hp (policyCircuit_mem_guards g t p))
  have hcount : ∀ f, g.monitor.Knows y ((GateM.count f).on env).2 := fun f =>
    h.same (GateM.touches_count f env)
  unfold settle
  cases o.allowed with
  | true =>
    rw [if_pos rfl, if_pos rfl, GateM.on_bind]
    exact (knows_of_uses (C := fun _ => False) (Breaker.uses_recordSuccess hcircuit) (hcount _)).1
  | false =>
    rw [if_neg Bool.false_ne_true, if_neg Bool.false_ne_true, GateM.on_bind, GateM.on_bind]
    exact (knows_of_uses (C := fun _ => False) (Breaker.uses_recordFailure hcircuit)
      ((hcount .countRateLimited).recordViolation hnow t path _)).1

/-- **A decision is counted by the monitor** as what it is. -/
theorem knows_judge (hg : g.Built pl) (hp : p ∈ g.policies.policies) (h : g.monitor.Knows y env)
    (hnow : env.now < maxWord) (t : Tracker) (path : String) :
    g.monitor.Knows (y.decided env.now t path ((g.judge t path p).on env).1)
      ((g.judge t path p).on env).2 := by
  have hguards : ∀ k ∈ g.guards t p, g.Elsewhere (g.breaker.shelf.key k.text) :=
    fun k hk => elsewhere_of_owns hg (owns_of_mem_guards hp hk)
  have huses : (firstOpen g.breaker (g.guards t p)).Uses g.Elsewhere fun _ => False :=
    closed_firstOpen (GateM.closed_uses _ _) fun k hk => Breaker.uses_admits (hguards k hk)
  obtain ⟨h₁, hnow₁⟩ := knows_of_uses huses h
  unfold judge
  rw [GateM.on_bind]
  rcases hopen : (firstOpen g.breaker (g.guards t p)).on env with ⟨_ | key, env₁⟩ <;>
    rw [hopen] at h₁ hnow₁ <;> rw [← hnow₁] at hnow ⊢
  · have hlimiter : (g.limiter.check t p).Uses g.Elsewhere fun _ => False :=
      Limiter.uses_check (elsewhere_of_limiter hg (g.limiter.under_window t p))
        (elsewhere_of_limiter hg (g.limiter.under_block t p))
    obtain ⟨h₂, hnow₂⟩ := knows_of_uses hlimiter h₁
    simp only [GateM.on_bind, GateM.on_pure]
    generalize (g.limiter.check t p).on env₁ = r at h₂ hnow₂
    obtain ⟨o, env₂⟩ := r
    rw [← hnow₂] at hnow ⊢
    obtain ⟨h₃, hnow₃⟩ := h₂.recordOutcome hnow t path o.allowed
    have h₄ := knows_settle hg hp h₃ (hnow₃ ▸ hnow) t path o
    rw [hnow₃] at h₄
    have hdecided : y.decided env₂.now t path (ruling p o) =
        if o.allowed then y.outcome env₂.now t o.allowed
        else (y.outcome env₂.now t o.allowed).violation env₂.now t path := by
      unfold Tally.decided ruling
      cases o.allowed <;> rfl
    rw [hdecided]
    exact h₄
  · have hkey : key ∈ g.guards t p := mem_of_firstOpen _ _ env key (by rw [hopen]; rfl)
    have hcount : g.monitor.Knows y ((GateM.count .countCircuitRejected).on env₁).2 :=
      h₁.same (GateM.touches_count _ env₁)
    obtain ⟨h₂, _⟩ := hcount.recordOutcome hnow t path false
    obtain ⟨h₃, _⟩ := knows_of_uses (C := fun _ => False)
      (Breaker.uses_status (hguards key hkey)) h₂
    exact h₃.same (GateM.touches_log _ _)

/-- What is no request changes none of the numbers. -/
theorem knows_perform (hg : g.Built pl) {a : Action}
    (ha : ∀ t path policy, a ≠ .request t path policy) (h : g.monitor.Knows y env)
    (hnow : env.now < maxWord) :
    g.monitor.Knows y ((g.perform a).on env).2 := by
  -- every part of it leaves the numbers and the clock alone
  let R (env env' : Env) : Prop := g.monitor.Knows y env ∧ env.now < maxWord →
    g.monitor.Knows y env' ∧ env'.now < maxWord
  have hR : Env.Steady (fun _ => False) (fun _ => True) R :=
    ⟨fun _ h => h, fun _ _ _ h₁ h₂ h => h₂ (h₁ h),
      fun e env h => ⟨h.1.same (GateM.touches_log e env), h.2⟩,
      fun f _ env h => ⟨h.1.same (GateM.touches_count f env), h.2⟩, nofun, nofun, nofun⟩
  have hQ := GateM.closed_moves hR
  have huses : ∀ {α : Type} {x : GateM α}, x.Uses g.Elsewhere (fun _ => False) → x.Moves R := by
    intro α x hx env h
    obtain ⟨hknows, hnow⟩ := knows_of_uses hx h.1
    exact ⟨hknows, hnow ▸ h.2⟩
  have hmoves : (g.perform a).Moves R := by
    cases htracker : a.tracker? with
    | some t =>
      refine closed_perform hQ htracker (fun path policy p he _ => absurd he (ha t path policy))
        (fun k hk succeeded => huses (Breaker.uses_record (elsewhere_of_owns hg hk) succeeded))
        (fun k hk => huses (Breaker.uses_reset (elsewhere_of_owns hg hk)))
        (fun k hk => huses (Breaker.uses_status (elsewhere_of_owns hg hk))) fun env h => ?_
      obtain ⟨_, env', hstats, hknows⟩ := h.1.stats h.2 t
      have hnow : ((g.monitor.stats t).on env).2.now = env.now :=
        (g.monitor.touches_stats t env).now_eq
      rw [hstats] at hnow ⊢
      exact ⟨hknows, hnow ▸ h.2⟩
    | none =>
      cases a with
      | top limit =>
        exact hQ.bind (fun env h => ⟨h.1.top limit,
          (g.monitor.touches_top limit env).now_eq ▸ h.2⟩) fun _ => hQ.pure _
      | onPath path =>
        refine hQ.bind (fun env h => ?_) fun _ => hQ.pure _
        obtain ⟨env', honPath, hknows⟩ := h.1.onPath h.2 path
        have hnow : ((g.monitor.onPath path).on env).2.now = env.now :=
          (g.monitor.touches_onPath path env).now_eq
        rw [honPath] at hnow ⊢
        exact ⟨hknows, hnow ▸ h.2⟩
      | _ => cases htracker
  exact (hmoves env ⟨h, hnow⟩).1

/-- **A step is counted by the monitor** as its answer says. -/
theorem knows_take (hg : g.Built pl) (hs : s.Healthy) (hmax : s.now < maxWord)
    (h : g.monitor.Knows (tallied trace) env) :
    g.monitor.Knows (tallied (trace ++ [(s, ((g.take s).on env).1)])) ((g.take s).on env).2 := by
  have h := knows_env hs h
  rw [on_take]
  by_cases ha : ∃ t path policy, s.action = .request t path policy
  · obtain ⟨t, path, policy, ha⟩ := ha
    rw [ha]
    simp only [perform, GateM.on_bind, GateM.on_pure, request, withPolicy, Gate.policy]
    cases hp : g.policies.get? policy with
    | none =>
      rw [tallied_concat_other fun _ hd => by cases hd]
      exact h
    | some p =>
      simp only [GateM.on_bind, GateM.on_pure, Answer.ofExcept]
      rw [tallied_concat_request ha]
      exact knows_judge hg (List.mem_of_find?_eq_some hp) h hmax t path
  · rw [tallied_concat_other fun d hd => ha (request_of_decision hd)]
    exact knows_perform hg (fun t path policy he => ha ⟨t, path, policy, he⟩) h hmax

/-- **A run is counted by the monitor.** -/
theorem knows_replay (hg : g.Built pl) (hhealthy : ∀ s ∈ run, s.Healthy)
    (hmax : ∀ s ∈ run, s.now < maxWord) (h : g.monitor.Knows (tallied trace) env) :
    g.monitor.Knows (tallied (trace ++ g.traced run env)) (g.left run env) := by
  induction run generalizing trace env with
  | nil => simpa [traced, left, replay] using h
  | cons s run ih =>
    obtain ⟨hs, hhealthy⟩ := List.forall_mem_cons.mp hhealthy
    obtain ⟨hsmax, hmax⟩ := List.forall_mem_cons.mp hmax
    rw [traced_cons, left_cons, List.append_cons]
    exact ih hhealthy hmax (knows_take hg hs hsmax h)

/-! ## Sums -/

/-- What is counted for each of some things is counted once in all. -/
theorem sum_countP {α β : Type} [DecidableEq β] {S : Finset β} {l : List α} {f : α → Option β}
    {q : α → Prop} [DecidablePred q] (h : ∀ a ∈ l, q a → ∃ b ∈ S, f a = some b) :
    ∑ b ∈ S, l.countP (fun a => f a = some b ∧ q a) = l.countP fun a => q a := by
  induction l with
  | nil => simp
  | cons a l ih =>
    obtain ⟨ha, hl⟩ := List.forall_mem_cons.mp h
    simp only [List.countP_cons, Finset.sum_add_distrib, ih hl]
    congr 1
    by_cases hq : q a
    · obtain ⟨b, hb, hf⟩ := ha hq
      simp [hf, hq, hb]
    · simp [hq]

theorem asked_of_limited {x : Step × Answer} (hx : x ∈ g.traced run env) (h : x.2.limited = true) :
    ∃ t path policy, x.1.action = .request t path policy := by
  refine forall_mem_traced (P := fun x => x.2.limited = true → ∃ t path policy,
    x.1.action = .request t path policy) (fun s env h => ?_) x hx h
  cases ha : ((g.take s).on env).1 with
  | decision d => exact request_of_decision ha
  | _ =>
    rw [ha] at h
    cases h

/-- **Trackers and paths have the same number of violations in all.** -/
theorem sum_violations_eq_sum_onPath (d : UInt64) {trackers : Finset Tracker} {paths : Finset String}
    (h : ∀ s ∈ run, ∀ t path policy, s.action = .request t path policy →
      t ∈ trackers ∧ path ∈ paths) :
    ∑ t ∈ trackers, (tallied (g.traced run env)).violations d t =
      ∑ path ∈ paths, (tallied (g.traced run env)).onPath d path := by
  have htrackers : ∀ x ∈ g.traced run env, dayOf x.1.now = d ∧ x.2.limited = true →
      ∃ t ∈ trackers, x.1.action.asker? = some t := by
    rintro x hx ⟨_, hlimited⟩
    obtain ⟨t, path, policy, ha⟩ := asked_of_limited hx hlimited
    exact ⟨t, (h x.1 (mem_of_mem_traced hx) t path policy ha).1, by rw [ha, Action.asker?]⟩
  have hpaths : ∀ x ∈ g.traced run env, dayOf x.1.now = d ∧ x.2.limited = true →
      ∃ path ∈ paths, x.1.action.path? = some path := by
    rintro x hx ⟨_, hlimited⟩
    obtain ⟨t, path, policy, ha⟩ := asked_of_limited hx hlimited
    exact ⟨path, (h x.1 (mem_of_mem_traced hx) t path policy ha).2, by rw [ha, Action.path?]⟩
  exact (sum_countP htrackers).trans (sum_countP hpaths).symm

/-! ## The history -/

/-- **The statistics are those of the history.**  Let a gate be built, and start it on an empty store
that does not fail.  After any run below the end of the clock, and at any instant below it:

* the statistics of a tracker give the numbers of the decisions of the hour that allowed and that
  denied its requests, and of those of the day that denied them for the quota;
* on a path there are as many violations as decisions of the day that denied a request there for the
  quota;
* so the violations of all trackers are as many as those on all paths.

Numbers stop at the largest word, which takes more steps than there are words. -/
theorem stats_eq_tallied (pl : Plan) (g : Gate) (built built' : Env)
    (hbuild : pl.build.on built = (.ok g, built')) (start now : UInt64) (run : List Step)
    (hhealthy : ∀ s ∈ run, s.Healthy) (hmax : ∀ s ∈ run, s.now < maxWord) (hnow : now < maxWord) :
    let trace := g.traced run (.start start (.empty none))
    let env := (g.left run (.start start (.empty none))).setClock now
    let stats (t : Tracker) := ((g.monitor.stats t).on env).1
    let onPath (path : String) := ((g.monitor.onPath path).on env).1
    (∀ t, (stats t).allowedThisHour = wordOfNat ((tallied trace).allowed (hourOf now) t) ∧
      (stats t).blockedThisHour = wordOfNat ((tallied trace).blocked (hourOf now) t) ∧
      (stats t).violationsToday = wordOfNat ((tallied trace).violations (dayOf now) t)) ∧
    (∀ path, onPath path = wordOfNat ((tallied trace).onPath (dayOf now) path)) ∧
    (run.length < wordCount → ∀ (trackers : Finset Tracker) (paths : Finset String),
      (∀ s ∈ run, ∀ t path policy, s.action = .request t path policy →
        t ∈ trackers ∧ path ∈ paths) →
      ∑ t ∈ trackers, (stats t).violationsToday.toNat = ∑ path ∈ paths, (onPath path).toNat) := by
  intro trace env stats onPath
  have hg := Plan.built_of_build hbuild
  have h : g.monitor.Knows (tallied trace) env := by
    have hstart : g.monitor.Knows (tallied []) (.start start (.empty none)) :=
      g.monitor.knows_start start
    have hleft := knows_replay hg hhealthy hmax hstart
    rw [List.nil_append] at hleft
    exact ⟨hleft.sound.of_slots (hleft.sound.healthy.setClock now) fun _ => rfl, hleft.hours,
      hleft.days, hleft.paths⟩
  have hstats : ∀ t, (stats t).allowedThisHour = wordOfNat ((tallied trace).allowed (hourOf now) t) ∧
      (stats t).blockedThisHour = wordOfNat ((tallied trace).blocked (hourOf now) t) ∧
      (stats t).violationsToday = wordOfNat ((tallied trace).violations (dayOf now) t) := by
    intro t
    obtain ⟨_, _, hon, _⟩ := h.stats hnow t
    simp only [stats, hon]
    exact ⟨rfl, rfl, rfl⟩
  have honPath : ∀ path, onPath path = wordOfNat ((tallied trace).onPath (dayOf now) path) := by
    intro path
    obtain ⟨_, hon, _⟩ := h.onPath hnow path
    simp only [onPath, hon]
    rfl
  refine ⟨hstats, honPath, fun hlength trackers paths hall => ?_⟩
  have htoNat : ∀ {q : Step × Answer → Bool}, (wordOfNat (trace.countP q)).toNat = trace.countP q := by
    intro q
    have hle : trace.countP q ≤ trace.length := List.countP_le_length
    have htrace : trace.length ≤ run.length := by
      simp only [trace, traced, List.length_zip]
      omega
    rw [toNat_wordOfNat]
    omega
  calc
    ∑ t ∈ trackers, (stats t).violationsToday.toNat
      = ∑ t ∈ trackers, (tallied trace).violations (dayOf now) t :=
        Finset.sum_congr rfl fun t _ => by
          rw [(hstats t).2.2]
          exact htoNat
    _ = ∑ path ∈ paths, (tallied trace).onPath (dayOf now) path :=
        sum_violations_eq_sum_onPath (dayOf now) hall
    _ = ∑ path ∈ paths, (onPath path).toNat :=
        Finset.sum_congr rfl fun path _ => by
          rw [honPath path]
          exact htoNat.symm

/-- Alice asks three times for what she may have twice a second, and again in the next hour. -/
def fourRequests : List Step :=
  [0, 1, 2, 3600000].map fun now => .at now (.request (.user "alice") "/" "login")

/-- What is known of her then: one request of the hour, and the violation of the day. -/
theorem stats_fourRequests :
    let g := (Plan.twoPerSecond .standard .perTracker).validGate
    let env := (g.left fourRequests (.start 0 (.empty none))).setClock 3600001
    let stats := ((g.monitor.stats (.user "alice")).on env).1
    (∃ env', (Plan.twoPerSecond .standard .perTracker).build.on (.start 0 (.empty none)) =
      (.ok g, env')) ∧
    (∀ s ∈ fourRequests, s.Healthy) ∧ (∀ s ∈ fourRequests, s.now < maxWord) ∧
    (stats.allowedThisHour, stats.blockedThisHour, stats.violationsToday) = (1, 0, 1) ∧
    ((g.monitor.onPath "/").on env).1.toNat = stats.violationsToday.toNat := by
  intro g env stats
  obtain ⟨env', hbuild⟩ := Plan.build_twoPerSecond .standard rfl .perTracker (.start 0 (.empty none))
  have hhealthy : ∀ s ∈ fourRequests, s.Healthy := by
    simp [fourRequests, Step.healthy_at]
  have hmax : ∀ s ∈ fourRequests, s.now < maxWord := by decide
  obtain ⟨hstats, _, hsum⟩ := stats_eq_tallied _ g _ env' hbuild 0 3600001 fourRequests hhealthy hmax
    (by decide)
  obtain ⟨hallowed, hblocked, hviolations⟩ := hstats (.user "alice")
  have htallied : (let y := tallied (g.traced fourRequests (.start 0 (.empty none)))
      (y.allowed (hourOf 3600001) (.user "alice"), y.blocked (hourOf 3600001) (.user "alice"),
        y.violations (dayOf 3600001) (.user "alice"))) = (1, 0, 1) := by decide +kernel
  simp only [Prod.mk.injEq] at htallied
  have hzero : wordOfNat 0 = 0 := by decide
  have hone : wordOfNat 1 = 1 := by decide
  rw [htallied.1, hone] at hallowed
  rw [htallied.2.1, hzero] at hblocked
  rw [htallied.2.2, hone] at hviolations
  have hsum := hsum (by decide) {.user "alice"} {"/"} (by simp [fourRequests, Step.at])
  rw [Finset.sum_singleton, Finset.sum_singleton] at hsum
  beta_reduce at hallowed hblocked hviolations hsum
  refine ⟨⟨env', hbuild⟩, hhealthy, hmax, ?_, ?_⟩
  · rw [hallowed, hblocked, hviolations]
  · rw [hsum]

end Gate

end Turnstile
