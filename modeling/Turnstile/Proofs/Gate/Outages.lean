import Turnstile.Proofs.Env.Agree
import Turnstile.Proofs.Gate.Judged
import Turnstile.Proofs.Gate.Runs

/-!
# Outages

While the store is away every call on it fails, and whoever made the call gives up what it was about
to write.  So requests are admitted without a count, nothing that is stored changes, and afterwards
a gate goes on as if it had not been asked anything in the meantime.

* `StoreM.Fails`: operations that fail.
* `Gate.judge_of_away`: the decision on a request.
* `Gate.stored_take_of_away`: the store has after a step what it had before.
* `Gate.outages_transparent`: a run with outages and the same run without what was asked then.
-/

set_option autoImplicit false

namespace Turnstile

variable {α β : Type} {env env' : Env}

/-! ## Operations without the store -/

/-- An operation on the store fails. -/
def StoreM.Fails (x : StoreM α) (env : Env) : Prop := ∃ e, (x.on env).1 = .error e

namespace StoreM

theorem Fails.bind {x : StoreM α} (h : x.Fails env) (f : α → StoreM β) : (x >>= f).Fails env := by
  obtain ⟨e, he⟩ := h
  rw [Fails, on_bind]
  rcases hx : x.on env with ⟨e' | a, env₁⟩
  · exact ⟨e', rfl⟩
  · rw [hx] at he
    cases he

theorem get_of_away (h : env.store.outage = true) (key : String) : (get key).Fails env := by
  rw [Fails, get, on_call, Store.get_of_outage h]
  split
  · exact ⟨_, rfl⟩
  · exact ⟨_, rfl⟩

end StoreM

theorem Shelf.load_of_away [Binary α] (h : env.store.outage = true) (s : Shelf) (name : String) :
    (s.load name : StoreM (Option α)).Fails env :=
  (StoreM.get_of_away h (s.key name)).bind _

/-- Without the store every circuit lets callers through. -/
theorem Breaker.admits_of_away (h : env.store.outage = true) (b : Breaker) (key : Circuit.Key) :
    ((b.admits key).on env).1 = true := by
  obtain ⟨e, he⟩ : (b.tryAdmits key).Fails env := ((b.shelf.load_of_away h key.text).bind _).bind _
  simp only [admits, GateM.on_bind, GateM.on_attempt, he, GateM.on_pure]

namespace Limiter

theorem tryCheck_of_away (h : env.store.outage = true) (l : Limiter) (t : Tracker) (p : Policy) :
    (l.tryCheck t p).Fails env := by
  have hwindow : ∀ now, (l.checkWindow t p now).Fails env := by
    intro now
    unfold checkWindow
    split
    · exact (l.shelf.load_of_away h _).bind _
    · exact (l.shelf.load_of_away h _).bind _
  unfold tryCheck StoreM.Fails
  rw [StoreM.on_bind_of_ok (StoreM.on_now env)]
  unfold activeBlock
  cases p.block with
  | none =>
    rw [StoreM.on_bind_of_ok (StoreM.on_pure none env)]
    exact (hwindow env.now).bind _
  | some _ => exact ((l.shelf.load_of_away h _).bind _).bind _

/-- Without the store every request is admitted, and the answer says so. -/
theorem check_of_away (h : env.store.outage = true) (l : Limiter) (t : Tracker) (p : Policy) :
    ((l.check t p).on env).1 = openOutcome p env.now := by
  obtain ⟨e, he⟩ := tryCheck_of_away h l t p
  have hnow : ((l.tryCheck t p).on env).2.now = env.now := (l.touches_tryCheck t p env).now_eq
  simp only [check, GateM.on_bind, GateM.on_attempt, he, GateM.on_count, GateM.on_log, GateM.on_now,
    GateM.on_pure, hnow]

end Limiter

/-- An operation of a gate changes nothing that is stored while the store is away. -/
theorem GateM.Uses.stored_eq {K : String → Prop} {C : (Metrics → Metrics) → Prop} {x : GateM α}
    (hx : x.Uses K C) (h : env.store.outage = true) :
    (x.on env).2.store.entries = env.store.entries := by
  have hcall : ∀ {γ : Type} {op : UInt64 → Store → Except StoreError γ × Store}
      {record : Except StoreError γ → Call},
      (∀ now (s : Store), s.outage = true → op now s = s.refuse) → ∀ env : Env,
      env.store.outage = true → ((StoreM.call op record).on env).2.store.outage = true ∧
        ((StoreM.call op record).on env).2.store.entries = env.store.entries := by
    intro γ op record hop env h
    rw [StoreM.on_call, hop _ _ h]
    split
    · exact ⟨h, rfl⟩
    · exact ⟨h, rfl⟩
  -- each piece leaves the store away, with what it has
  refine (hx.steady (R := fun env env' => env.store.outage = true →
    env'.store.outage = true ∧ env'.store.entries = env.store.entries) ?_ env h).2
  refine ⟨fun _ h => ⟨h, rfl⟩, fun env env₁ env₂ h₁ h₂ h => ?_, fun _ _ h => ⟨h, rfl⟩,
    fun _ _ _ h => ⟨h, rfl⟩, fun _ _ => hcall fun now s hs => s.get_of_outage hs now _,
    fun _ _ _ _ => hcall fun now s hs => s.set_of_outage hs now _ _ _,
    fun _ _ => hcall fun _ s hs => s.delete_of_outage hs _⟩
  obtain ⟨haway, heq⟩ := h₁ h
  obtain ⟨haway', heq'⟩ := h₂ haway
  exact ⟨haway', heq'.trans heq⟩

namespace Gate

variable {pl : Plan} {g : Gate} {s : Step} {run : List Step}

/-! ## Steps while the store is away -/

theorem firstOpen_of_away (h : env.store.outage = true) (b : Breaker) (keys : List Circuit.Key) :
    ((firstOpen b keys).on env).1 = none := by
  induction keys generalizing env with
  | nil => rfl
  | cons k keys ih =>
    have haway : ((b.admits k).on env).2.store.outage = true :=
      ((Breaker.uses_admits (K := fun _ => True) (C := fun _ => False) trivial).touches
        env).outage_eq.trans h
    simp only [firstOpen, GateM.on_bind, Breaker.admits_of_away h, ↓reduceIte]
    exact ih haway

/-- **Without the store a request is admitted**, with all of the quota left. -/
theorem judge_of_away (h : env.store.outage = true) (g : Gate) (t : Tracker) (path : String)
    (p : Policy) :
    ((g.judge t path p).on env).1 = ruling p (Limiter.openOutcome p env.now) := by
  have hnone := firstOpen_of_away h g.breaker (g.guards t p)
  have hf := touches_firstOpen g.breaker (g.guards t p) env
  unfold judge
  rw [GateM.on_bind]
  rcases hopen : (firstOpen g.breaker (g.guards t p)).on env with ⟨_ | key, env₁⟩
  · rw [hopen] at hf
    have haway : env₁.store.outage = true := hf.outage_eq.trans h
    have hnow : env₁.now = env.now := hf.now_eq
    simp only [GateM.on_bind, GateM.on_pure, Limiter.check_of_away haway, hnow]
  · rw [hopen] at hnone
    cases hnone

/-- **A step changes nothing that is stored** while the store is away. -/
theorem stored_take_of_away (g : Gate) (hs : s.outage = true) (env : Env) :
    ((g.take s).on env).2.store.entries = env.store.entries := by
  have haway : (s.env env).store.outage = true := hs
  have huses : (g.perform s.action).Uses (fun _ => True) fun _ => True :=
    uses_perform g s.action (fun _ => trivial) fun _ _ _ _ _ _ => trivial
  exact huses.stored_eq haway

/-! ## Runs with outages -/

/-- Surroundings with the same things stored, on the same clock. -/
def Stored (env env' : Env) : Prop :=
  env'.store.ownClock = env.store.ownClock ∧ env'.store.entries = env.store.entries

theorem Stored.refl (env : Env) : Stored env env := ⟨rfl, rfl⟩

/-- A step that only one of two runs takes, while the store is away. -/
theorem stored_of_away (g : Gate) (hs : s.outage = true) (h : Stored env env') :
    Stored ((g.take s).on env).2 env' := by
  have hf : Env.Frame (fun _ => True) (s.env env) ((g.take s).on env).2 :=
    (uses_perform (C := fun _ => True) g s.action (fun _ => trivial)
      fun _ _ _ _ _ _ => trivial).touches (s.env env)
  exact ⟨h.1.trans hf.ownClock_eq.symm, h.2.trans (stored_take_of_away g hs env).symm⟩

/-- A step makes surroundings agree if they have the same under some keys. -/
theorem Step.agree_env {K : String → Prop} (s : Step)
    (hclock : env'.store.ownClock = env.store.ownClock)
    (hslot : ∀ key, K key → env'.slot key = env.slot key) :
    (s.env env).Agree K (s.env env') :=
  ⟨rfl, ⟨hclock, rfl, hslot⟩, fun _ => rfl⟩

/-- **A step is answered by what is stored.** -/
theorem take_of_stored (g : Gate) (s : Step) (h : Stored env env') :
    ((g.take s).on env').1 = ((g.take s).on env).1 ∧
      Stored ((g.take s).on env).2 ((g.take s).on env').2 := by
  have huses : (g.perform s.action).Uses (fun _ => True) fun _ => True :=
    uses_perform g s.action (fun _ => trivial) fun _ _ _ _ _ _ => trivial
  obtain ⟨hclock, hentries⟩ := h
  have hslot : ∀ key, True → env'.slot key = env.slot key := by
    intro key _
    rw [Env.slot, hentries, Env.slot]
  obtain ⟨hanswer, hagree⟩ := huses.alike _ _ (s.agree_env hclock hslot)
  refine ⟨hanswer, hagree.store.ownClock_eq, congrArg TimedMap.mk ?_⟩
  exact Std.ExtTreeMap.ext_getElem? fun key => hagree.store.slot_eq key trivial

/-- **Outages are transparent.**  Let a gate be built, and start it on whatever the store has.  In
every run, with any outages, whichever other calls fail and however the clock moves:

* a request under a policy of the plan that is made while the store is away is allowed, is marked as
  degraded, has all of the quota left and no time to wait, and no circuit refuses it;
* whatever is asked while the store is away changes nothing that is stored;
* all other answers are those of the run without what was asked while the store was away, and so is
  what is stored in the end. -/
theorem outages_transparent (pl : Plan) (g : Gate) (built built' : Env)
    (hbuild : pl.build.on built = (.ok g, built')) (env : Env) (run : List Step) :
    (∀ x ∈ g.traced run env, x.1.outage = true → ∀ t path, ∀ p ∈ pl.policies,
      x.1.action = .request t path p.name → ∃ d, x.2 = .decision d ∧ d.allowed = true ∧
        d.degraded = true ∧ d.limit = p.maxRequests ∧ d.remaining = d.limit ∧
        d.retryAfter = none ∧ d.circuitOpen = false) ∧
    (∀ s : Step, s.outage = true → ∀ env : Env,
      ((g.take s).on env).2.store.entries = env.store.entries) ∧
    g.traced (run.filter fun s => !s.outage) env =
      (g.traced run env).filter (fun x => !x.1.outage) ∧
    (g.left (run.filter fun s => !s.outage) env).store.entries = (g.left run env).store.entries := by
  have hg := Plan.built_of_build hbuild
  obtain ⟨htraced, _, hleft⟩ := filter_traced (g := g) (fun s => !s.outage)
    (R := fun _ => Stored) (fun _ => id)
    (fun s _ _ _ h _ => ⟨fun _ => (take_of_stored g s h).1, (take_of_stored g s h).2⟩)
    (fun s _ _ _ h hs => stored_of_away g (by simpa using hs) h) (Stored.refl env)
  refine ⟨forall_mem_traced fun s env hs t path p hp ha => ?_,
    fun s hs env => stored_take_of_away g hs env, ?_, hleft⟩
  · have haway : (s.env env).store.outage = true := hs
    have hjudge := judge_of_away haway g t path p
    refine ⟨ruling p (Limiter.openOutcome p s.now), ?_, rfl, rfl, rfl, rfl, rfl, rfl⟩
    rw [on_take, ha]
    simp only [perform, GateM.on_bind, GateM.on_pure, request, withPolicy, hg.policy_of_mem hp,
      hjudge]
    rfl
  · -- all steps that are left are looked at
    have hall : ∀ x ∈ g.traced (run.filter fun s => !s.outage) env, (!x.1.outage) = true :=
      fun x hx => List.of_mem_filter (p := fun s => !s.outage) (mem_of_mem_traced hx)
    rwa [List.filter_eq_self.mpr hall] at htraced

/-- Four requests, of which the second and the third find the store away. -/
def interrupted : List Step :=
  [(0, false), (1, true), (2, true), (3, false)].map fun (now, outage) =>
    ⟨now, outage, fun _ => none, .request (.user "alice") "/" "login"⟩

/-- Two requests a second are admitted, and two more while the store is away. -/
theorem admitted_interrupted :
    let g := (Plan.twoPerSecond .standard .perTracker).validGate
    let env := Env.start 0 (.empty none)
    (∃ env', (Plan.twoPerSecond .standard .perTracker).build.on env = (.ok g, env')) ∧
    (g.traced (interrupted.filter fun s => !s.outage) env).map Prod.snd =
      ((g.traced interrupted env).filter fun x => !x.1.outage).map Prod.snd ∧
    (∀ x ∈ g.traced interrupted env, x.1.outage = true → ∃ d, x.2 = .decision d ∧
      d.degraded = true ∧ d.remaining = 2) := by
  intro g env
  obtain ⟨built', hbuild⟩ := Plan.build_twoPerSecond .standard rfl .perTracker env
  obtain ⟨hopen, _, htraced, _⟩ := outages_transparent _ g env built' hbuild env interrupted
  refine ⟨⟨built', hbuild⟩, congrArg _ htraced, fun x hx haway => ?_⟩
  have haction : ∀ s ∈ interrupted, s.action = .request (.user "alice") "/" "login" := by
    simp [interrupted]
  obtain ⟨d, hd, _, hdegraded, hlimit, hremaining, _⟩ := hopen x hx haway (.user "alice") "/"
    (.twoPerSecond .fixedWindow) List.mem_cons_self (haction x.1 (mem_of_mem_traced hx))
  exact ⟨d, hd, hdegraded, hremaining.trans hlimit⟩

end Gate

end Turnstile
