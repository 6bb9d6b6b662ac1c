import Turnstile.Proofs.Circuit.Shut
import Turnstile.Proofs.Gate.Build
import Turnstile.Proofs.Gate.Uses
import Turnstile.Proofs.Quota.Verdict

/-!
# Coherent decisions

A decision is put together in five ways: a circuit refuses the request, a block lasts, a block
starts, a window decides, or the store fails and the request is admitted.  Whatever bytes the store
has under its keys and whichever calls fail, the parts of the decision agree with each other.

* `Decision.Coherent`: what the parts of a decision say to each other.
* `Limiter.check_coherent`: what the limiter decides is coherent.
* `Gate.refuse_coherent`: so is the refusal of a circuit.
* `Gate.request_coherent`: every request under a policy of the plan gets a coherent decision, and
  every other request changes nothing.
-/

set_option autoImplicit false

namespace Turnstile

open Circuit (Key)

/-- The parts of a decision under a policy agree with each other. -/
structure Decision.Coherent (p : Policy) (now : UInt64) (d : Decision) : Prop where
  limit_eq : d.limit = p.maxRequests
  remaining_le : d.remaining ≤ d.limit
  /-- Who is admitted need not wait, and only they. -/
  allowed_iff : d.allowed = true ↔ d.retryAfter = none
  /-- Who is denied has nothing left, and waits for an instant that has not passed. -/
  denied : d.allowed = false →
    d.remaining = 0 ∧ now ≤ d.resetAt ∧ ∃ secs, d.retryAfter = some secs ∧ 1 ≤ secs
  circuitOpen_denied : d.circuitOpen = true → d.allowed = false
  degraded_full : d.degraded = true → d.allowed = true ∧ d.remaining = d.limit
  counted : d.allowed = true → d.degraded = false → d.remaining < d.limit
  /-- The seconds to wait are those to the reset, unless a sliding window without block denies. -/
  wait_eq : d.allowed = false →
    d.circuitOpen = true ∨ p.algorithm = .fixedWindow ∨ p.block ≠ none →
    (∀ length ∈ p.block, now.toNat + length.toNat < wordCount) →
    ∃ secs, d.retryAfter = some secs ∧
      secs.toNat = max 1 ((d.resetAt.toNat - now.toNat + 999) / 1000)

theorem one_le_ceilSecs (ms : UInt64) : 1 ≤ ceilSecs ms := by
  rw [UInt64.le_iff_toNat_le, toNat_ceilSecs, UInt64.toNat_one]
  exact Nat.le_max_left ..

namespace Decision

variable {p : Policy} {now wait : UInt64} {d : Decision}

theorem coherent_of_denied (hallowed : d.allowed = false) (hlimit : d.limit = p.maxRequests)
    (hremaining : d.remaining = 0) (hretry : d.retryAfter = some (ceilSecs wait))
    (hdegraded : d.degraded = false) (hreset : now ≤ d.resetAt)
    (hwait : d.circuitOpen = true ∨ p.algorithm = .fixedWindow ∨ p.block ≠ none →
      (∀ length ∈ p.block, now.toNat + length.toNat < wordCount) →
      wait.toNat = d.resetAt.toNat - now.toNat) : d.Coherent p now where
  limit_eq := hlimit
  remaining_le := by
    rw [hremaining]
    exact UInt64.zero_le
  allowed_iff := by simp [hallowed, hretry]
  denied _ := ⟨hremaining, hreset, _, hretry, one_le_ceilSecs wait⟩
  circuitOpen_denied _ := hallowed
  degraded_full h := by simp [hdegraded] at h
  counted h := by simp [hallowed] at h
  wait_eq _ h hblock := ⟨_, hretry, by rw [toNat_ceilSecs, hwait h hblock]⟩

theorem coherent_of_allowed (hallowed : d.allowed = true) (hlimit : d.limit = p.maxRequests)
    (hretry : d.retryAfter = none) (hopen : d.circuitOpen = false)
    (hremaining : if d.degraded then d.remaining = d.limit else d.remaining < d.limit) :
    d.Coherent p now where
  limit_eq := hlimit
  remaining_le := by
    split at hremaining
    · rw [hremaining]
      exact UInt64.le_refl d.limit
    · exact UInt64.le_of_lt hremaining
  allowed_iff := by simp [hallowed, hretry]
  denied h := by simp [hallowed] at h
  circuitOpen_denied h := by simp [hopen] at h
  degraded_full h := ⟨hallowed, by simpa [h] using hremaining⟩
  counted _ h := by simpa [h] using hremaining
  wait_eq h := by simp [hallowed] at h

/-- The refusal of a circuit is coherent if what it waits for has not passed. -/
theorem coherent_refusal {resetAt : UInt64} (h : now ≤ resetAt) :
    (Gate.refusal p now resetAt).Coherent p now :=
  coherent_of_denied rfl rfl rfl rfl rfl h fun _ _ => toNat_satSub resetAt now

end Decision

/-! ## What the limiter decides -/

namespace Limiter

open Gate (ruling)

variable {p : Policy} {now n wait : UInt64} {v : Verdict}

theorem blockedOutcome_coherent {b : Block} (h : now < b.endsAt) :
    (ruling p (blockedOutcome p b now)).Coherent p now :=
  Decision.coherent_of_denied rfl rfl rfl rfl rfl (UInt64.le_of_lt h) fun _ _ =>
    toNat_satSub b.endsAt now

theorem openOutcome_coherent (p : Policy) (now : UInt64) :
    (ruling p (openOutcome p now)).Coherent p now :=
  Decision.coherent_of_allowed rfl rfl rfl rfl rfl

theorem windowOutcome_coherent_of_allowed (hc : v.Counts p now n wait) (hv : v.allowed = true) :
    (ruling p (windowOutcome p v)).Coherent p now :=
  Decision.coherent_of_allowed hv rfl (hc.retryAfter_of_allowed hv) rfl (hc.remaining_lt hv)

theorem windowOutcome_coherent_of_denied (hc : v.Counts p now n wait) (hv : v.allowed = false)
    (hfixed : p.algorithm = .fixedWindow → wait = satSub v.resetAt now) (hp : p.block = none) :
    (ruling p (windowOutcome p v)).Coherent p now := by
  refine Decision.coherent_of_denied hv rfl (hc.remaining_eq_zero hv) (hc.retryAfter_of_denied hv)
    rfl hc.le_resetAt ?_
  rintro (hopen | halg | hblock) _
  · cases hopen
  · rw [hfixed halg, toNat_satSub]
    rfl
  · exact absurd hp hblock

theorem penalised_coherent {length : UInt64} (hc : v.Counts p now n wait) (hv : v.allowed = false)
    (hp : p.block = some length) :
    (ruling p (penalised (windowOutcome p v) ⟨satAdd now length⟩ length)).Coherent p now := by
  refine Decision.coherent_of_denied hv rfl (hc.remaining_eq_zero hv) rfl rfl (le_satAdd now length)
    fun _ hblock => ?_
  have hlt := hblock length (by simp [hp])
  show length.toNat = (satAdd now length).toNat - now.toNat
  rw [toNat_satAdd]
  omega

/-- What the limiter decides when the store does not fail, on whatever the store has. -/
theorem tryCheck_coherent {l : Limiter} {t : Tracker} {env env' : Env} {o : Outcome}
    (h : (l.tryCheck t p).on env = (.ok o, env')) : (ruling p o).Coherent p env.now := by
  unfold tryCheck at h
  rw [StoreM.on_bind_of_ok (StoreM.on_now env)] at h
  refine StoreM.answers_bind (P := fun o => (ruling p o).Coherent p env.now)
    (l.activeBlock_active t p env.now) ?_ env env' o h
  intro b hb
  cases b with
  | some b => exact StoreM.answers_pure (blockedOutcome_coherent (hb b rfl))
  | none =>
    refine StoreM.answers_bind (l.checkWindow_counts t p env.now) ?_
    rintro v ⟨n, wait, hc, hfixed⟩
    cases hv : v.allowed with
    | true =>
      rw [if_pos rfl]
      exact StoreM.answers_pure (windowOutcome_coherent_of_allowed hc hv)
    | false =>
      rw [if_neg Bool.false_ne_true]
      refine StoreM.answers_bind (Q := fun o => (ruling p o).Coherent p env.now) ?_ ?_
      · unfold penalise
        split
        · rename_i hp
          exact StoreM.answers_pure (windowOutcome_coherent_of_denied hc hv hfixed hp)
        · rename_i length hp
          exact StoreM.answers_bind (StoreM.answers_true _) fun _ _ =>
            StoreM.answers_pure (penalised_coherent hc hv hp)
      · exact fun o ho => StoreM.answers_bind (StoreM.answers_true _) fun _ _ =>
          StoreM.answers_pure ho

/-- **Whatever the store does, the limiter decides coherently.** -/
theorem check_coherent (l : Limiter) (t : Tracker) (p : Policy) (env : Env) :
    (ruling p ((l.check t p).on env).1).Coherent p env.now := by
  unfold check
  simp only [GateM.on_bind, GateM.on_attempt]
  have hnow : ((l.tryCheck t p).on env).2.now = env.now := (l.touches_tryCheck t p env).now_eq
  rcases hr : (l.tryCheck t p).on env with ⟨e | o, env'⟩
  · rw [hr] at hnow
    show (ruling p (openOutcome p env'.now)).Coherent p env.now
    rw [hnow]
    exact openOutcome_coherent p env.now
  · exact tryCheck_coherent hr

end Limiter

/-! ## What a gate decides -/

namespace Gate

variable {pl : Plan} {g : Gate} {t : Tracker} {p : Policy} {env env' : Env}

theorem text_of_mem_guards {key : Key} (h : key ∈ g.guards t p) : ∃ name, key.text = "cb" ++ name := by
  have htracker : (Key.ofTracker t).text = "cb" ++ (":" ++ t.key) := by
    simp [Key.ofTracker, ← String.append_assoc]
  have hscoped : (Key.scoped t p.name).text = "cb" ++ ("@" ++ p.name ++ ":" ++ t.key) := by
    simp [Key.scoped, ← String.append_assoc]
  unfold guards at h
  cases hs : g.scope with
  | perTracker =>
    rw [hs] at h
    rw [List.mem_singleton.mp h]
    exact ⟨_, htracker⟩
  | perPolicy =>
    rw [hs] at h
    rcases List.mem_cons.mp h with rfl | h
    · exact ⟨_, htracker⟩
    · rw [List.mem_singleton.mp h]
      exact ⟨_, hscoped⟩

theorem touches_firstOpen (b : Breaker) (keys : List Key) :
    (firstOpen b keys).Touches fun key => ∃ k ∈ keys, key = b.shelf.key k.text :=
  (closed_firstOpen (GateM.closed_uses _ fun _ => False) fun k hk =>
    Breaker.uses_admits ⟨k, hk, rfl⟩).touches

/-- The circuit that refuses a request shuts callers out. -/
theorem shuts_of_firstOpen {b : Breaker} {keys : List Key} {key : Key}
    (h : (firstOpen b keys).on env = (some key, env')) : key ∈ keys ∧ b.Shuts key env' := by
  induction keys generalizing env with
  | nil => cases h
  | cons k keys ih =>
    simp only [firstOpen, GateM.on_bind] at h
    rcases hk : (b.admits k).on env with ⟨through, env₁⟩
    rw [hk] at h
    cases through with
    | true =>
      obtain ⟨hmem, hshuts⟩ := ih h
      exact ⟨List.mem_cons_of_mem k hmem, hshuts⟩
    | false =>
      cases h
      exact ⟨List.mem_cons_self, Breaker.shuts_of_admits hk⟩

/-- **The refusal of a circuit is coherent**: between its record being read and its status, only the
monitor has written. -/
theorem refuse_coherent (hg : g.Built pl) {key : Key} (hkey : key ∈ g.guards t p)
    (hshuts : g.breaker.Shuts key env) (path : String) :
    ((g.refuse t path p key).on env).1.Coherent p env.now := by
  have htouches : (GateM.count .countCircuitRejected >>= fun _ =>
      g.monitor.recordOutcome t path false).Touches (g.monitor.shelf.Under "vm:") :=
    GateM.touches_bind (GateM.touches_count _) fun _ => g.monitor.touches_recordOutcome t path false
  have hf := htouches env
  have hother : ¬ g.monitor.shelf.Under "vm:" (g.breaker.shelf.key key.text) := by
    obtain ⟨name, hname⟩ := text_of_mem_guards hkey
    rw [hname, hg.monitor_eq, hg.breaker_eq]
    exact Shelf.not_under (by decide) (by decide) _ name
  have hnext := (hshuts.of_frame hf hother).le_nextProbe
  rw [← hf.now_eq]
  exact Decision.coherent_refusal hnext

theorem judge_coherent (hg : g.Built pl) (t : Tracker) (path : String) (p : Policy) (env : Env) :
    ((g.judge t path p).on env).1.Coherent p env.now := by
  unfold judge
  simp only [GateM.on_bind]
  have hf := touches_firstOpen g.breaker (g.guards t p) env
  rcases hopen : (firstOpen g.breaker (g.guards t p)).on env with ⟨_ | key, env₁⟩
  · rw [hopen] at hf
    have ho := g.limiter.check_coherent t p env₁
    rw [hf.now_eq] at ho
    exact ho
  · rw [hopen] at hf
    obtain ⟨hkey, hshuts⟩ := shuts_of_firstOpen hopen
    have hd := refuse_coherent hg hkey hshuts path
    rw [hf.now_eq] at hd
    exact hd

/-- **Every decision is coherent.**  Let a gate be built.  Whatever the store has under its keys,
whichever clock it runs on, whether it is away and whichever calls on it fail: a request under a
policy of the plan gets a decision whose parts agree with each other; and a request under a name
that no policy has gets the one error there is, makes no call on the store, writes nothing to the
log and moves no counter. -/
theorem request_coherent (pl : Plan) (g : Gate) (built built' : Env)
    (hbuild : pl.build.on built = (.ok g, built')) (t : Tracker) (path name : String) (env : Env) :
    (∀ p ∈ pl.policies, p.name = name →
      ∃ d env', (g.request t path name).on env = (.ok d, env') ∧ d.Coherent p env.now) ∧
    ((∀ p ∈ pl.policies, p.name ≠ name) →
      (g.request t path name).on env = (.error (.unknownPolicy name), env)) := by
  have hg := Plan.built_of_build hbuild
  constructor
  · rintro p hp rfl
    refine ⟨((g.judge t path p).on env).1, ((g.judge t path p).on env).2, ?_,
      judge_coherent hg t path p env⟩
    simp only [request, withPolicy, hg.policy_of_mem hp, GateM.on_bind, GateM.on_pure]
  · intro hname
    simp only [request, withPolicy, hg.policy_of_unknown hname, GateM.on_pure]

/-- A gate whose store fails at every call still decides, and still knows its policies. -/
theorem request_coherent_twoPerSecond :
    let g := (Plan.twoPerSecond .standard .perPolicy).validGate
    let env := (Env.start 5 (.empty none)).restart fun _ => some (.unavailable "gone")
    (∃ d env', (g.request (.user "alice") "/claims" "login").on env = (.ok d, env') ∧
      d.Coherent (.twoPerSecond .fixedWindow) 5) ∧
    (g.request (.user "alice") "/claims" "logout").on env =
      (.error (.unknownPolicy "logout"), env) := by
  intro g env
  obtain ⟨built', hbuild⟩ := Plan.build_twoPerSecond .standard rfl .perPolicy env
  obtain ⟨hknown, _⟩ := request_coherent _ g env built' hbuild (.user "alice") "/claims" "login" env
  obtain ⟨_, hunknown⟩ :=
    request_coherent _ g env built' hbuild (.user "alice") "/claims" "logout" env
  refine ⟨hknown _ List.mem_cons_self rfl, hunknown ?_⟩
  intro p hp
  rw [List.mem_singleton.mp hp]
  decide

end Gate

end Turnstile
