import Turnstile.Gate.Action
import Turnstile.Proofs.Touches

/-!
# What can be asked of a gate

All that is asked of a gate is put together from the operations of its parts, so what holds of those
holds of all that is asked.  Only requests are counted, each by the one counter of the decision on
it.

* `Metrics.Deciding`: the counters of decisions.
* `Gate.Asks`, `Gate.Asks.judge`: the parts of a request, and a request.
* `Gate.Owns`, `Gate.closed_perform`, `Gate.closed_perform_circuits`: the circuits of a tracker, and
  what can be asked about one.
* `Gate.uses_judge`, `Gate.uses_perform`: which keys a request and any action use.
* `Gate.touches_perform`: a gate keeps to the circuits that it can reset, the limiter and the monitor.
-/

set_option autoImplicit false

namespace Turnstile

open Circuit (Key)

/-- The counters of decisions. -/
inductive Metrics.Deciding : (Metrics → Metrics) → Prop
  | admitted : Deciding countAdmitted
  | rateLimited : Deciding countRateLimited
  | circuitRejected : Deciding countCircuitRejected

namespace Gate

section Closed

variable {Q : {α : Type} → GateM α → Prop} (hQ : GateM.Closed Q) {g : Gate} {t : Tracker}
  {p : Policy} {b : Breaker} {keys : List Key}

/-! ## Circuits one after the other -/

include hQ in
theorem closed_firstOpen (hkeys : ∀ k ∈ keys, Q (b.admits k)) : Q (firstOpen b keys) := by
  induction keys with
  | nil => exact hQ.pure none
  | cons k keys ih =>
    obtain ⟨hk, hkeys⟩ := List.forall_mem_cons.mp hkeys
    refine hQ.bind hk fun through => ?_
    split
    · exact ih hkeys
    · exact hQ.pure _

include hQ in
theorem closed_someOpen (hkeys : ∀ k ∈ keys, Q (b.status k)) : Q (someOpen b keys) := by
  induction keys with
  | nil => exact hQ.pure false
  | cons k keys ih =>
    obtain ⟨hk, hkeys⟩ := List.forall_mem_cons.mp hkeys
    refine hQ.bind hk fun status => ?_
    split
    · exact hQ.pure true
    · exact ih hkeys

include hQ in
theorem closed_resetAll (hkeys : ∀ k ∈ keys, Q (b.reset k)) : Q (resetAll b keys) := by
  induction keys with
  | nil => exact hQ.pure ()
  | cons k keys ih =>
    obtain ⟨hk, hkeys⟩ := List.forall_mem_cons.mp hkeys
    exact hQ.bind hk fun _ => ih hkeys

/-! ## Requests -/

theorem mem_of_firstOpen (b : Breaker) (keys : List Key) (env : Env) :
    ∀ key ∈ ((firstOpen b keys).on env).1, key ∈ keys := by
  induction keys generalizing env with
  | nil => nofun
  | cons k keys ih =>
    simp only [firstOpen, GateM.on_bind]
    split
    · exact fun key hkey => List.mem_cons_of_mem k (ih _ key hkey)
    · rintro _ ⟨⟩
      exact List.mem_cons_self

theorem policyCircuit_mem_guards (g : Gate) (t : Tracker) (p : Policy) :
    g.policyCircuit t p ∈ g.guards t p := by
  unfold policyCircuit guards
  cases g.scope <;> simp

/-- An operation of which nobody reads the answer. -/
def noted {α : Type} (x : GateM α) : GateM Unit := x >>= fun _ => pure ()

include hQ in
/-- What is done about a ruling. -/
theorem closed_settle (hcount : ∀ {f}, Metrics.Deciding f → Q (GateM.count f))
    (hsuccess : Q (g.breaker.recordSuccess (g.policyCircuit t p)))
    (hfailure : Q (g.breaker.recordFailure (g.policyCircuit t p)))
    (hviolation : ∀ path v, Q (noted (g.monitor.recordViolation t path v))) (path : String)
    (o : Outcome) : Q (g.settle t path p o) := by
  unfold settle
  split
  · exact hQ.bind (hcount .admitted) fun _ => hsuccess
  · refine hQ.bind (hcount .rateLimited) fun _ => ?_
    have hnoted := hQ.bind (hviolation path ⟨p.name, p.maxRequests, o.retryAfter, false⟩) fun _ =>
      hfailure
    rwa [noted, bind_assoc] at hnoted

/-- The parts of a request have a property. -/
structure Asks (g : Gate) (t : Tracker) (p : Policy) (Q : {α : Type} → GateM α → Prop) : Prop where
  count : ∀ {f}, Metrics.Deciding f → Q (GateM.count f)
  admits : ∀ k ∈ g.guards t p, Q (g.breaker.admits k)
  status : ∀ k ∈ g.guards t p, Q (g.breaker.status k)
  success : Q (g.breaker.recordSuccess (g.policyCircuit t p))
  failure : Q (g.breaker.recordFailure (g.policyCircuit t p))
  check : Q (g.limiter.check t p)
  outcome : ∀ path allowed, Q (g.monitor.recordOutcome t path allowed)
  violation : ∀ path v, Q (noted (g.monitor.recordViolation t path v))

namespace Asks

variable (h : g.Asks t p Q)

include hQ h

theorem refuse {key : Key} (hkey : key ∈ g.guards t p) (path : String) :
    Q (g.refuse t path p key) :=
  hQ.bind (h.count .circuitRejected) fun _ => hQ.bind (h.outcome path false) fun _ =>
    hQ.bind hQ.now fun _ => hQ.bind (h.status key hkey) fun _ => hQ.bind (hQ.log rfl rfl) fun _ =>
      hQ.pure _

/-- **What the parts of a request have, the request has.** -/
theorem judge (path : String) : Q (g.judge t path p) := by
  refine hQ.bindOf (P := fun shut => ∀ key ∈ shut, key ∈ g.guards t p)
    (closed_firstOpen hQ h.admits) (mem_of_firstOpen _ _) fun shut hshut => ?_
  split
  · rename_i key
    exact h.refuse hQ (hshut key rfl) path
  · exact hQ.bind h.check fun o => hQ.bind (h.outcome path o.allowed) fun _ =>
      hQ.bind (closed_settle hQ h.count h.success h.failure h.violation path o) fun _ => hQ.pure _

end Asks

/-! ## Everything else -/

include hQ in
theorem closed_withPolicy {α : Type} {name : String} {f : Policy → GateM α}
    (hf : ∀ p, g.policies.get? name = some p → Q (f p)) : Q (g.withPolicy name f) := by
  unfold withPolicy Gate.policy
  cases hp : g.policies.get? name with
  | none => exact hQ.pure _
  | some p => exact hQ.bind (hf p hp) fun _ => hQ.pure _

/-- The circuits of a tracker. -/
def Owns (g : Gate) (t : Tracker) (key : Key) : Prop :=
  key = .ofTracker t ∨ ∃ p ∈ g.policies.policies, key = .scoped t p.name

theorem owns_of_mem_guards {key : Key} (hp : p ∈ g.policies.policies) (h : key ∈ g.guards t p) :
    g.Owns t key := by
  unfold guards at h
  cases hs : g.scope with
  | perTracker =>
    rw [hs] at h
    exact .inl (List.mem_singleton.mp h)
  | perPolicy =>
    rw [hs] at h
    rcases List.mem_cons.mp h with rfl | h
    · exact .inl rfl
    · exact .inr ⟨p, hp, List.mem_singleton.mp h⟩

theorem owns_of_mem_circuits {key : Key} (h : key ∈ g.circuits t) : g.Owns t key := by
  unfold circuits at h
  cases hs : g.scope with
  | perTracker =>
    rw [hs] at h
    exact .inl (List.mem_singleton.mp h)
  | perPolicy =>
    rw [hs] at h
    rcases List.mem_cons.mp h with rfl | h
    · exact .inl rfl
    · obtain ⟨p, hp, rfl⟩ := List.mem_map.mp h
      exact .inr ⟨p, hp, rfl⟩

/-- The tracker that an action is about. -/
def Action.tracker? : Action → Option Tracker
  | .request t _ _ | .report t _ | .reportFor t _ _ | .resetCircuits t | .statusOf t
  | .statusFor t _ | .anyOpen t | .stats t => some t
  | .top _ | .onPath _ => none

/-- What guards a request is one of the circuits of its tracker. -/
theorem mem_circuits_of_mem_guards {key : Key} (hp : p ∈ g.policies.policies)
    (h : key ∈ g.guards t p) : key ∈ g.circuits t := by
  unfold guards at h
  unfold circuits
  cases hs : g.scope with
  | perTracker => rwa [hs] at h
  | perPolicy =>
    rw [hs] at h
    rcases List.mem_cons.mp h with rfl | h
    · exact List.mem_cons_self
    · rw [List.mem_singleton.mp h]
      exact List.mem_cons_of_mem _ (List.mem_map.mpr ⟨p, hp, rfl⟩)

theorem ofTracker_mem_circuits (g : Gate) (t : Tracker) : Key.ofTracker t ∈ g.circuits t := by
  unfold circuits
  cases g.scope <;> simp

include hQ in
/-- **What can be asked about a tracker** is put together from requests, operations on the circuits
that a reset of the tracker closes, and its statistics. -/
theorem closed_perform_circuits {a : Action} (ha : a.tracker? = some t)
    (hask : ∀ path policy p, a = .request t path policy → p ∈ g.policies.policies →
      Q (g.judge t path p))
    (hrecord : ∀ k ∈ g.circuits t, ∀ succeeded, Q (g.breaker.record k succeeded))
    (hreset : ∀ k ∈ g.circuits t, Q (g.breaker.reset k))
    (hstatus : ∀ k ∈ g.circuits t, Q (g.breaker.status k)) (hstats : Q (g.monitor.stats t)) :
    Q (g.perform a) := by
  have hknown : ∀ {name p}, g.policies.get? name = some p → p ∈ g.policies.policies := fun hp =>
    List.mem_of_find?_eq_some hp
  have hcircuit : ∀ {name p}, g.policies.get? name = some p → g.policyCircuit t p ∈ g.circuits t :=
    fun hp => mem_circuits_of_mem_guards (hknown hp) (policyCircuit_mem_guards g t _)
  have howned := ofTracker_mem_circuits g t
  cases a <;> cases ha
  case request path policy =>
    exact hQ.bind (closed_withPolicy hQ fun p hp => hask path policy p rfl (hknown hp)) fun _ =>
      hQ.pure _
  case report succeeded => exact hQ.bind (hrecord _ howned succeeded) fun _ => hQ.pure _
  case reportFor policy succeeded =>
    exact hQ.bind (closed_withPolicy hQ fun p hp => hrecord _ (hcircuit hp) succeeded) fun _ =>
      hQ.pure _
  case resetCircuits => exact hQ.bind (closed_resetAll hQ hreset) fun _ => hQ.pure _
  case statusOf => exact hQ.bind (hstatus _ howned) fun _ => hQ.pure _
  case statusFor policy =>
    exact hQ.bind (closed_withPolicy hQ fun p hp => hstatus _ (hcircuit hp)) fun _ => hQ.pure _
  case anyOpen => exact hQ.bind (closed_someOpen hQ hstatus) fun _ => hQ.pure _
  case stats => exact hQ.bind hstats fun _ => hQ.pure _

include hQ in
/-- The same, where more is known of the circuits that are the tracker's by their names. -/
theorem closed_perform {a : Action} (ha : a.tracker? = some t)
    (hask : ∀ path policy p, a = .request t path policy → p ∈ g.policies.policies →
      Q (g.judge t path p))
    (hrecord : ∀ k, g.Owns t k → ∀ succeeded, Q (g.breaker.record k succeeded))
    (hreset : ∀ k, g.Owns t k → Q (g.breaker.reset k))
    (hstatus : ∀ k, g.Owns t k → Q (g.breaker.status k)) (hstats : Q (g.monitor.stats t)) :
    Q (g.perform a) :=
  closed_perform_circuits hQ ha hask (fun k hk => hrecord k (owns_of_mem_circuits hk))
    (fun k hk => hreset k (owns_of_mem_circuits hk)) (fun k hk => hstatus k (owns_of_mem_circuits hk))
    hstats

end Closed

/-! ## Which keys are used -/

variable {K : String → Prop} {C : (Metrics → Metrics) → Prop} {g : Gate} {t : Tracker} {p : Policy}

theorem uses_asks (hguards : ∀ k ∈ g.guards t p, K (g.breaker.shelf.key k.text))
    (hwindow : K (g.limiter.shelf.key (Limiter.windowName t p)))
    (hblock : K (g.limiter.shelf.key (Limiter.blockName t p)))
    (hvm : ∀ key, g.monitor.shelf.Under "vm:" key → K key) (hC : ∀ f, Metrics.Deciding f → C f) :
    g.Asks t p (GateM.Uses K C) where
  count hf := .count (hC _ hf)
  admits k hk := Breaker.uses_admits (hguards k hk)
  status k hk := Breaker.uses_status (hguards k hk)
  success := Breaker.uses_recordSuccess (hguards _ (policyCircuit_mem_guards g t p))
  failure := Breaker.uses_recordFailure (hguards _ (policyCircuit_mem_guards g t p))
  check := Limiter.uses_check hwindow hblock
  outcome := Monitor.uses_recordOutcome fun now => hvm _ (g.monitor.under_hour t now)
  violation path v := .bind (Monitor.uses_recordViolation hvm t path v) fun _ => .pure ()

/-- **A request** calls the store on its circuits, its window and block, and what the monitor has. -/
theorem uses_judge (hguards : ∀ k ∈ g.guards t p, K (g.breaker.shelf.key k.text))
    (hwindow : K (g.limiter.shelf.key (Limiter.windowName t p)))
    (hblock : K (g.limiter.shelf.key (Limiter.blockName t p)))
    (hvm : ∀ key, g.monitor.shelf.Under "vm:" key → K key) (hC : ∀ f, Metrics.Deciding f → C f)
    (path : String) : (g.judge t path p).Uses K C :=
  (uses_asks hguards hwindow hblock hvm hC).judge (GateM.closed_uses K C) path

/-- **Everything that is asked of a gate** is made of calls on the store, each failure of which is
counted and logged. -/
theorem uses_perform (g : Gate) (a : Action) (hK : ∀ key, K key)
    (hC : ∀ t path policy, a = .request t path policy → ∀ f, Metrics.Deciding f → C f) :
    (g.perform a).Uses K C := by
  cases ha : a.tracker? with
  | some t =>
    refine closed_perform (GateM.closed_uses K C) ha (fun path policy p he _ => ?_)
      (fun k _ => Breaker.uses_record (hK _)) (fun k _ => Breaker.uses_reset (hK _))
      (fun k _ => Breaker.uses_status (hK _))
      (Monitor.uses_stats (fun _ => hK _) (fun _ => hK _) (hK _))
    exact uses_judge (fun _ _ => hK _) (hK _) (hK _) (fun _ _ => hK _) (hC t path policy he) path
  | none =>
    cases a with
    | top limit => exact .bind (Monitor.uses_top (fun _ _ => hK _) limit) fun _ => .pure _
    | onPath path => exact .bind (Monitor.uses_onPath fun _ => hK _) fun _ => .pure _
    | _ => cases ha

/-- The keys that are a circuit of some tracker, or the limiter's, or the monitor's. -/
def Keeps (g : Gate) (key : String) : Prop :=
  (∃ t, ∃ k ∈ g.circuits t, key = g.breaker.shelf.key k.text) ∨
    g.limiter.shelf.Under "rl" key ∨ g.monitor.shelf.Under "vm:" key

/-- **Nothing that is asked of a gate touches any other key.** -/
theorem touches_perform (g : Gate) (a : Action) : (g.perform a).Touches g.Keeps := by
  suffices h : (g.perform a).Uses g.Keeps fun _ => True from h.touches
  have hvm : ∀ key, g.monitor.shelf.Under "vm:" key → g.Keeps key := fun _ => .inr ∘ .inr
  cases ha : a.tracker? with
  | some t =>
    have hcircuit : ∀ k ∈ g.circuits t, g.Keeps (g.breaker.shelf.key k.text) := fun k hk =>
      .inl ⟨t, k, hk, rfl⟩
    refine closed_perform_circuits (GateM.closed_uses _ _) ha (fun path _ p _ hp => ?_)
      (fun k hk => Breaker.uses_record (hcircuit k hk))
      (fun k hk => Breaker.uses_reset (hcircuit k hk))
      (fun k hk => Breaker.uses_status (hcircuit k hk))
      (Monitor.uses_stats (fun now => hvm _ (g.monitor.under_hour t now))
        (fun d => hvm _ (g.monitor.under_day d t.key)) (hvm _ (g.monitor.under_minute t)))
    exact uses_judge (fun k hk => hcircuit k (mem_circuits_of_mem_guards hp hk))
      (.inr (.inl (g.limiter.under_window t p))) (.inr (.inl (g.limiter.under_block t p))) hvm
      (fun _ _ => trivial) path
  | none =>
    cases a with
    | top limit => exact .bind (Monitor.uses_top hvm limit) fun _ => .pure _
    | onPath path =>
      exact .bind (Monitor.uses_onPath fun d => hvm _ (g.monitor.under_path d path)) fun _ => .pure _
    | _ => cases ha

end Gate

end Turnstile
