import Turnstile.Proofs.Gate.Actions
import Turnstile.Proofs.Gate.Places

/-!
# What is asked beside a tracker and a policy

Where every policy has its circuits, what is decided of a tracker under a policy depends on four
records: the window and the block, the circuit of the two, and the circuit of the tracker alone.
The last one stays closed as long as nobody reports on the tracker without a policy.

Whoever asks whether some circuit of a tracker is open stops at the first one, so others decide
whether the record of a circuit that has expired is dropped then.  Nobody notices that later.

* `Gate.Beside`: the keys of everything else.
* `Gate.Like`: two stores in which the four records are alike for those who read them at some
  instants.
* `Gate.leaves_perform`, `Gate.leaves_anyOpen`: what is asked about anything else.
-/

set_option autoImplicit false

namespace Turnstile

open Circuit (Key seen)

/-- The tracker and the name of the policy that an action is about. -/
def Gate.Action.pair? : Gate.Action → Option (Tracker × String)
  | .request t _ policy | .reportFor t policy _ | .statusFor t policy => some (t, policy)
  | _ => none

/-- The tracker and the name of the policy for which an action counts. -/
def Gate.Action.fed? : Gate.Action → Option (Tracker × String)
  | .request t _ policy | .reportFor t policy _ => some (t, policy)
  | _ => none

/-- The places of what decides the requests of a tracker under a policy. -/
def Place.Concerns (policy : String) : Place → Prop
  | circuit => True
  | circuitFor other | window other | block other => other = policy
  | _ => False

namespace Gate

variable {pl : Plan} {g : Gate} {t u : Tracker} {p q : Policy} {a : Place} {key : String}
  {C : (Metrics → Metrics) → Prop} {α : Type} {now : UInt64} {P : UInt64 → Prop}
  {env env' env₁ env₂ : Env}

/-! ## Keys beside -/

/-- The keys of what does not decide the requests of a tracker under a policy. -/
def Beside (g : Gate) (t : Tracker) (p : Policy) (key : String) : Prop :=
  ∀ a : Place, a.Concerns p.name → key ≠ g.place t a

/-- The monitor has no part in it. -/
theorem beside_of_vm (h : g.monitor.shelf.Under "vm:" key) : g.Beside t p key := by
  rintro a ha rfl
  obtain ⟨name, hkey⟩ := h
  have hname := congrArg String.toList (Shelf.key_inj hkey)
  cases a <;> simp [Place.name, Place.head, Place.Concerns] at ha hname

section Plain

variable (hg : g.Built pl) (hplain : ∀ p ∈ pl.policies, ':' ∉ p.name.toList) (hp : p ∈ pl.policies)

theorem plain_of_concerns (hplain : ':' ∉ p.name.toList) (ha : a.Concerns p.name) : a.Plain := by
  cases a with
  | circuitFor | window | block => exact ha ▸ hplain
  | _ => trivial

include hplain hp

/-- What is kept of another tracker or another policy is beside. -/
theorem beside_place (ha : a.Plain) (hne : ¬ (u = t ∧ a.Concerns p.name)) :
    g.Beside t p (g.place u a) := by
  intro b hb hkey
  obtain ⟨rfl, rfl⟩ := place_inj ha (plain_of_concerns (hplain p hp) hb) hkey
  exact hne ⟨rfl, hb⟩

include hg

theorem beside_ofTracker (hne : u ≠ t) :
    g.Beside t p (g.breaker.shelf.key (Key.ofTracker u).text) := by
  rw [key_ofTracker hg]
  exact beside_place hplain hp trivial fun h => hne h.1

theorem beside_scoped (hq : q ∈ pl.policies) (hne : ¬ (u = t ∧ q.name = p.name)) :
    g.Beside t p (g.breaker.shelf.key (Key.scoped u q.name).text) := by
  rw [key_scoped hg]
  exact beside_place hplain hp (hplain q hq) hne

theorem beside_window (hq : q ∈ pl.policies) (hne : ¬ (u = t ∧ q.name = p.name)) :
    g.Beside t p (g.limiter.shelf.key (Limiter.windowName u q)) := by
  rw [key_window hg]
  exact beside_place hplain hp (hplain q hq) hne

theorem beside_block (hq : q ∈ pl.policies) (hne : ¬ (u = t ∧ q.name = p.name)) :
    g.Beside t p (g.limiter.shelf.key (Limiter.blockName u q)) := by
  rw [key_block hg]
  exact beside_place hplain hp (hplain q hq) hne

theorem beside_of_owns (hne : u ≠ t) {k : Key} (hk : g.Owns u k) :
    g.Beside t p (g.breaker.shelf.key k.text) := by
  rcases hk with rfl | ⟨q, hq, rfl⟩
  · exact beside_ofTracker hg hplain hp hne
  · rw [hg.policies_eq] at hq
    exact beside_scoped hg hplain hp hq fun h => hne h.1

end Plain

/-! ## What is alike -/

/-- The store does not fail and has no circuit of the tracker alone. -/
structure Unreported (g : Gate) (t : Tracker) (env : Env) : Prop where
  healthy : env.Healthy
  circuit_eq : env.slot (g.place t .circuit) = none

/-- Two stores have the same window and block, and the same circuit of the two for those who read it
at instants `P`. -/
structure Like (g : Gate) (t : Tracker) (p : Policy) (P : UInt64 → Prop) (env env' : Env) :
    Prop where
  unreported : g.Unreported t env
  unreported' : g.Unreported t env'
  window_eq : env'.slot (g.place t (.window p.name)) = env.slot (g.place t (.window p.name))
  block_eq : env'.slot (g.place t (.block p.name)) = env.slot (g.place t (.block p.name))
  circuitFor_eq : ∀ now, P now →
    readable Circuit now (env'.slot (g.place t (.circuitFor p.name))) =
      readable Circuit now (env.slot (g.place t (.circuitFor p.name)))

namespace Like

theorem refl (h : g.Unreported t env) : g.Like t p P env env := ⟨h, h, rfl, rfl, fun _ _ => rfl⟩

theorem symm (h : g.Like t p P env env') : g.Like t p P env' env :=
  ⟨h.unreported', h.unreported, h.window_eq.symm, h.block_eq.symm, fun now hP =>
    (h.circuitFor_eq now hP).symm⟩

theorem trans (h₁ : g.Like t p P env env₁) (h₂ : g.Like t p P env₁ env₂) :
    g.Like t p P env env₂ :=
  ⟨h₁.unreported, h₂.unreported', h₂.window_eq.trans h₁.window_eq, h₂.block_eq.trans h₁.block_eq,
    fun now hP => (h₂.circuitFor_eq now hP).trans (h₁.circuitFor_eq now hP)⟩

theorem mono {P' : UInt64 → Prop} (h : g.Like t p P env env') (hP : ∀ now, P' now → P now) :
    g.Like t p P' env env' :=
  ⟨h.unreported, h.unreported', h.window_eq, h.block_eq, fun now hnow =>
    h.circuitFor_eq now (hP now hnow)⟩

theorem of_frame {K : String → Prop} (h : g.Unreported t env) (hf : Env.Frame K env env₁)
    (hK : ∀ a : Place, a.Concerns p.name → ¬ K (g.place t a)) : g.Like t p P env env₁ := by
  have hslot : ∀ a : Place, a.Concerns p.name → env₁.slot (g.place t a) = env.slot (g.place t a) :=
    fun a ha => hf.slot_eq _ (hK a ha)
  refine ⟨h, ⟨h.healthy.of_frame hf, (hslot .circuit trivial).trans h.circuit_eq⟩,
    hslot (.window p.name) rfl, hslot (.block p.name) rfl, fun now _ => ?_⟩
  rw [hslot (.circuitFor p.name) rfl]

theorem of_same (h : g.Unreported t env) (hsame : env.Same env₁) : g.Like t p P env env₁ :=
  .of_frame h hsame fun _ _ => id

/-- What is written into the circuit of the two, as far as others can tell. -/
theorem of_puts (hplain : ':' ∉ p.name.toList) (h : g.Unreported t env) {slot : Option Entry}
    (hput : env.Puts (g.place t (.circuitFor p.name)) slot env₁)
    (hslot : ∀ now, P now → readable Circuit now slot =
      readable Circuit now (env.slot (g.place t (.circuitFor p.name)))) :
    g.Like t p P env env₁ := by
  have hne : ∀ a : Place, a.Plain → a ≠ .circuitFor p.name →
      env₁.slot (g.place t a) = env.slot (g.place t a) := fun a ha hne =>
    hput.slot_of_ne fun hkey => hne (place_inj (b := .circuitFor p.name) ha hplain hkey).1
  refine ⟨h, ⟨hput.healthy h.healthy, (hne .circuit trivial nofun).trans h.circuit_eq⟩,
    hne (.window p.name) hplain nofun, hne (.block p.name) hplain nofun, fun now hP => ?_⟩
  rw [hput.slot_key, hslot now hP]

end Like

/-! ## What is asked about anything else -/

/-- What happens at an instant makes no difference at the instants `P`. -/
def Leaves (g : Gate) (t : Tracker) (p : Policy) (now : UInt64) (P : UInt64 → Prop)
    (env env₁ : Env) : Prop :=
  env.now = now → g.Unreported t env → env₁.now = now ∧ g.Like t p P env env₁

theorem closed_leaves (g : Gate) (t : Tracker) (p : Policy) (now : UInt64) (P : UInt64 → Prop) :
    GateM.Closed (GateM.Moves (g.Leaves t p now P)) := by
  have hsame : ∀ {env env₁ : Env}, env.Same env₁ → g.Leaves t p now P env env₁ :=
    fun hsame hnow h => ⟨hsame.now_eq.trans hnow, .of_same h hsame⟩
  refine GateM.closed_moves (K := fun _ => False) (C := fun _ => False)
    ⟨fun env => hsame (.refl env), fun env env₁ env₂ h₁ h₂ hnow h => ?_,
      fun e env => hsame (GateM.touches_log e env),
      fun f _ env => hsame (GateM.touches_count f env), nofun, nofun, nofun⟩
  obtain ⟨hnow₁, hlike₁⟩ := h₁ hnow h
  obtain ⟨hnow₂, hlike₂⟩ := h₂ hnow₁ hlike₁.unreported'
  exact ⟨hnow₂, hlike₁.trans hlike₂⟩

theorem leaves_of_beside {x : GateM α} (hx : x.Uses (g.Beside t p) C) :
    x.Moves (g.Leaves t p now P) := fun env hnow h =>
  ⟨(hx.touches env).now_eq.trans hnow, .of_frame h (hx.touches env) fun a ha hkey => hkey a ha rfl⟩

theorem leaves_of_same {x : GateM α} (hx : ∀ env, g.Unreported t env → env.Same (x.on env).2) :
    x.Moves (g.Leaves t p now P) := fun env hnow h =>
  ⟨(hx env h).now_eq.trans hnow, .of_same h (hx env h)⟩

/-- The circuit of the tracker lets everybody through, and stays as it is. -/
theorem admits_ofTracker (hg : g.Built pl) (h : g.Unreported t env) :
    ((g.breaker.admits (.ofTracker t)).on env).1 = true ∧
      env.Same ((g.breaker.admits (.ofTracker t)).on env).2 := by
  obtain ⟨env₁, hon, hput⟩ := g.breaker.admits_of_healthy h.healthy (.ofTracker t)
  rw [key_ofTracker hg, h.circuit_eq] at hon hput
  have hput : env.Puts (g.place t .circuit) none env₁ := hput
  rw [← h.circuit_eq] at hput
  rw [hon]
  exact ⟨rfl, hput.same⟩

theorem status_ofTracker (hg : g.Built pl) (h : g.Unreported t env) :
    ((g.breaker.status (.ofTracker t)).on env).1 = g.breaker.statusOf (.ofTracker t) .fresh ∧
      env.Same ((g.breaker.status (.ofTracker t)).on env).2 := by
  obtain ⟨env₁, hon, hput⟩ := g.breaker.status_of_healthy h.healthy (.ofTracker t)
  rw [key_ofTracker hg, h.circuit_eq] at hon hput
  have hput : env.Puts (g.place t .circuit) none env₁ := hput
  rw [← h.circuit_eq] at hput
  rw [hon]
  exact ⟨rfl, hput.same⟩

theorem leaves_status_of_beside (hg : g.Built pl) {k : Key} (hk : k = .ofTracker t ∨
    g.Beside t p (g.breaker.shelf.key k.text)) :
    (g.breaker.status k).Moves (g.Leaves t p now P) := by
  rcases hk with rfl | hk
  · exact leaves_of_same fun env h => (status_ofTracker hg h).2
  · exact leaves_of_beside (C := fun _ => True) (Breaker.uses_status hk)

section Plain

variable (hg : g.Built pl) (hplain : ∀ p ∈ pl.policies, ':' ∉ p.name.toList) (hp : p ∈ pl.policies)
  (hscope : pl.scope = .perPolicy)

include hg hplain hp

theorem ofTracker_or_beside (u : Tracker) : Key.ofTracker u = .ofTracker t ∨
    g.Beside t p (g.breaker.shelf.key (Key.ofTracker u).text) := by
  by_cases hu : u = t
  · exact .inl (hu ▸ rfl)
  · exact .inr (beside_ofTracker hg hplain hp hu)

include hscope

/-- A request under another policy, or of another tracker. -/
theorem leaves_judge (hq : q ∈ pl.policies) (hne : ¬ (u = t ∧ q.name = p.name)) (path : String) :
    (g.judge u path q).Moves (g.Leaves t p now P) := by
  have hscoped := beside_scoped hg hplain hp hq hne
  have hguards : ∀ k ∈ g.guards u q,
      k = .ofTracker t ∨ g.Beside t p (g.breaker.shelf.key k.text) := by
    rw [hg.guards_eq hscope]
    exact List.forall_mem_cons.mpr ⟨ofTracker_or_beside hg hplain hp u,
      List.forall_mem_singleton.mpr (.inr hscoped)⟩
  rw [← hg.policyCircuit_eq hscope] at hscoped
  have huses : ∀ {α : Type} {x : GateM α}, x.Uses (g.Beside t p) (fun _ => True) →
      x.Moves (g.Leaves t p now P) := leaves_of_beside
  refine Asks.judge (closed_leaves g t p now P)
    { count := fun _ => huses (.count trivial)
      admits := fun k hk => ?_
      status := fun k hk => leaves_status_of_beside hg (hguards k hk)
      success := huses (Breaker.uses_recordSuccess hscoped)
      failure := huses (Breaker.uses_recordFailure hscoped)
      check := huses (Limiter.uses_check (beside_window hg hplain hp hq hne)
        (beside_block hg hplain hp hq hne))
      outcome := fun path allowed => huses (Monitor.uses_recordOutcome
        (fun now => beside_of_vm (g.monitor.under_hour u now)) path allowed)
      violation := fun path v => huses (.bind (Monitor.uses_recordViolation
        (fun _ => beside_of_vm) u path v) fun _ => .pure ()) } path
  rcases hguards k hk with rfl | hk
  · exact leaves_of_same fun env h => (admits_ofTracker hg h).2
  · exact huses (Breaker.uses_admits hk)

/-- **What is asked about anything else makes no difference**, reports on the tracker, resets and
questions for all its circuits apart. -/
theorem leaves_perform {a : Action} (hpair : a.pair? ≠ some (t, p.name))
    (hreport : ∀ succeeded, a ≠ .report t succeeded) (hreset : a ≠ .resetCircuits t)
    (hopen : a ≠ .anyOpen t) : (g.perform a).Moves (g.Leaves t p now P) := by
  have hQ := closed_leaves g t p now P
  have huses : ∀ {α : Type} {x : GateM α}, x.Uses (g.Beside t p) (fun _ => True) →
      x.Moves (g.Leaves t p now P) := leaves_of_beside
  cases a with
  | request u path policy =>
    refine hQ.bind (closed_withPolicy hQ fun q hq => ?_) fun _ => hQ.pure _
    obtain ⟨hmem, rfl⟩ := hg.mem_of_get? hq
    exact leaves_judge hg hplain hp hscope hmem (fun ⟨hu, hname⟩ =>
      hpair (by rw [hu, hname]; rfl)) path
  | report u succeeded =>
    have hne : u ≠ t := fun hu => hreport succeeded (hu ▸ rfl)
    exact hQ.bind (huses (Breaker.uses_record (beside_ofTracker hg hplain hp hne) succeeded))
      fun _ => hQ.pure _
  | reportFor u policy succeeded =>
    refine hQ.bind (closed_withPolicy hQ fun q hq => ?_) fun _ => hQ.pure _
    obtain ⟨hmem, rfl⟩ := hg.mem_of_get? hq
    rw [hg.policyCircuit_eq hscope]
    exact huses (Breaker.uses_record (beside_scoped hg hplain hp hmem fun ⟨hu, hname⟩ =>
      hpair (by rw [hu, hname]; rfl)) succeeded)
  | resetCircuits u =>
    have hne : u ≠ t := fun hu => hreset (hu ▸ rfl)
    exact hQ.bind (closed_resetAll hQ fun k hk => huses (Breaker.uses_reset
      (beside_of_owns hg hplain hp hne (owns_of_mem_circuits hk)))) fun _ => hQ.pure _
  | statusOf u =>
    exact hQ.bind (leaves_status_of_beside hg (ofTracker_or_beside hg hplain hp u))
      fun _ => hQ.pure _
  | statusFor u policy =>
    refine hQ.bind (closed_withPolicy hQ fun q hq => ?_) fun _ => hQ.pure _
    obtain ⟨hmem, rfl⟩ := hg.mem_of_get? hq
    rw [hg.policyCircuit_eq hscope]
    exact huses (Breaker.uses_status (beside_scoped hg hplain hp hmem fun ⟨hu, hname⟩ =>
      hpair (by rw [hu, hname]; rfl)))
  | anyOpen u =>
    have hne : u ≠ t := fun hu => hopen (hu ▸ rfl)
    exact hQ.bind (closed_someOpen hQ fun k hk => huses (Breaker.uses_status
      (beside_of_owns hg hplain hp hne (owns_of_mem_circuits hk)))) fun _ => hQ.pure _
  | stats u =>
    have hhour := fun now => beside_of_vm (t := t) (p := p) (g.monitor.under_hour u now)
    exact hQ.bind (huses (Monitor.uses_stats hhour (fun d => beside_of_vm
      (g.monitor.under_day d u.key)) (beside_of_vm (g.monitor.under_minute u)))) fun _ => hQ.pure _
  | top limit =>
    exact hQ.bind (huses (Monitor.uses_top (fun _ => beside_of_vm) limit)) fun _ => hQ.pure _
  | onPath path =>
    exact hQ.bind (huses (Monitor.uses_onPath fun d => beside_of_vm (g.monitor.under_path d path)))
      fun _ => hQ.pure _

omit hscope in
/-- **Whether some circuit of the tracker is open**: who asks for that may drop the record of the
circuit, which nobody notices from then on. -/
theorem leaves_anyOpen (hP : ∀ later, P later → now ≤ later) :
    (g.perform (.anyOpen t)).Moves (g.Leaves t p now P) := by
  have hQ := closed_leaves g t p now P
  refine hQ.bind (closed_someOpen hQ fun k hk => ?_) fun _ => hQ.pure _
  by_cases hpair : k = .scoped t p.name
  · subst hpair
    rintro env rfl h
    obtain ⟨env₁, hon, hput⟩ := g.breaker.status_of_healthy h.healthy (.scoped t p.name)
    rw [key_scoped hg] at hput
    rw [hon]
    exact ⟨hput.now_eq, .of_puts (hplain p hp) h hput fun later hlater =>
      readable_readable_later (hP later hlater) _⟩
  · refine leaves_status_of_beside hg ?_
    rcases owns_of_mem_circuits hk with rfl | ⟨q, hq, rfl⟩
    · exact .inl rfl
    · rw [hg.policies_eq] at hq
      exact .inr (beside_scoped hg hplain hp hq fun h => hpair (by rw [h.2]))

end Plain

end Gate

end Turnstile
