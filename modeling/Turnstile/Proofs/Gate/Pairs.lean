import Turnstile.Proofs.Env.Agree
import Turnstile.Proofs.Gate.Beside

/-!
# One policy among others

Where every policy has its circuits, a tracker under a policy is answered by its four records.  So
two runs that treat these alike give the same answers, whatever else one of them asks.

* `Gate.alike_pair`: what is asked about the tracker under the policy, in two surroundings.
* `Gate.like_reset`: all circuits of the tracker are reset.
* `Gate.Orderly`: the runs in which the records stay alike.
* `Gate.traced_of_pair`: a run and the same run without some of the requests and reports about
  others.
-/

set_option autoImplicit false

namespace Turnstile.Gate

open Circuit (Key seen)

variable {pl : Plan} {g : Gate} {t : Tracker} {p : Policy} {α : Type} {now : UInt64}
  {P : UInt64 → Prop} {env env' env₁ env₁' : Env}

/-! ## What is asked about the tracker under the policy -/

/-- The same at the same instant, which is one of `P`. -/
def LikeNow (g : Gate) (t : Tracker) (p : Policy) (P : UInt64 → Prop) (env env' : Env) : Prop :=
  (env'.now = env.now ∧ P env.now) ∧ g.Like t p P env env'

theorem closed_likeNow (g : Gate) (t : Tracker) (p : Policy) (P : UInt64 → Prop) :
    GateM.Closed (GateM.Alike (g.LikeNow t p P)) :=
  GateM.closed_alike (fun _ _ h => h.1.1) fun e env env' ⟨hnow, h⟩ => ⟨hnow,
    ((Like.of_same h.unreported (GateM.touches_log e env)).symm.trans h).trans
      (.of_same h.unreported' (GateM.touches_log e env'))⟩

/-- What makes no difference, and answers the same. -/
theorem alike_of_leaves {x : GateM α} (hx : ∀ now, x.Moves (g.Leaves t p now P))
    (hanswer : ∀ env env', g.Unreported t env → g.Unreported t env' →
      (x.on env').1 = (x.on env).1) : x.Alike (g.LikeNow t p P) := by
  rintro env env' ⟨⟨hnow, hP⟩, h⟩
  obtain ⟨hnow₁, hlike₁⟩ := hx env.now env rfl h.unreported
  obtain ⟨hnow₁', hlike₁'⟩ := hx env.now env' hnow h.unreported'
  refine ⟨hanswer env env' h.unreported h.unreported', ⟨hnow₁'.trans hnow₁.symm, hnow₁ ▸ hP⟩, ?_⟩
  exact (hlike₁.symm.trans h).trans hlike₁'

/-- What is written on both sides is alike if it is the same for the two. -/
theorem Like.of_frames {K : String → Prop} (h : g.Like t p P env env') (hf : Env.Frame K env env₁)
    (hf' : Env.Frame K env' env₁') (hcircuit : ¬ K (g.place t .circuit))
    (hK : ∀ key, K key → env₁'.slot key = env₁.slot key) : g.Like t p P env₁ env₁' := by
  have hslot : ∀ key, env'.slot key = env.slot key → env₁'.slot key = env₁.slot key := by
    intro key heq
    by_cases hkey : K key
    · exact hK key hkey
    · rw [hf.slot_eq key hkey, hf'.slot_eq key hkey, heq]
  refine ⟨⟨h.unreported.healthy.of_frame hf, ?_⟩, ⟨h.unreported'.healthy.of_frame hf', ?_⟩,
    hslot _ h.window_eq, hslot _ h.block_eq, fun later hlater => ?_⟩
  · exact (hf.slot_eq _ hcircuit).trans h.unreported.circuit_eq
  · exact (hf'.slot_eq _ hcircuit).trans h.unreported'.circuit_eq
  · by_cases hkey : K (g.place t (.circuitFor p.name))
    · rw [hK _ hkey]
    · rw [hf.slot_eq _ hkey, hf'.slot_eq _ hkey, h.circuitFor_eq later hlater]

/-- An operation on the circuit of the two that goes by what can be read of it. -/
theorem alike_of_puts (hplain : ':' ∉ p.name.toList) {x : GateM α}
    (answer : UInt64 → Option Entry → α) (after : UInt64 → Option Entry → Option Entry)
    (hon : ∀ env, env.Healthy → ∃ env₁,
      x.on env = (answer env.now (env.slot (g.place t (.circuitFor p.name))), env₁) ∧
      env.Puts (g.place t (.circuitFor p.name))
        (after env.now (env.slot (g.place t (.circuitFor p.name)))) env₁)
    (hcongr : ∀ now slot slot', readable Circuit now slot' = readable Circuit now slot →
      answer now slot' = answer now slot ∧ after now slot' = after now slot) :
    x.Alike (g.LikeNow t p P) := by
  rintro env env' ⟨⟨hnow, hP⟩, h⟩
  obtain ⟨env₁, hon₁, hput⟩ := hon env h.unreported.healthy
  obtain ⟨env₁', hon₁', hput'⟩ := hon env' h.unreported'.healthy
  obtain ⟨hanswer, hafter⟩ := hcongr env.now _ _ (h.circuitFor_eq env.now hP)
  rw [hnow, hanswer] at hon₁'
  rw [hnow, hafter] at hput'
  rw [hon₁, hon₁']
  have hcircuit : g.place t .circuit ≠ g.place t (.circuitFor p.name) := fun hkey =>
    Place.noConfusion (place_inj (a := .circuit) (b := .circuitFor p.name) trivial hplain hkey).1
  refine ⟨rfl, ⟨by rw [hput'.now_eq, hput.now_eq, hnow], hput.now_eq ▸ hP⟩,
    h.of_frames hput.frame hput'.frame hcircuit ?_⟩
  rintro key rfl
  rw [hput'.slot_key, hput.slot_key]

theorem seen_congr {slot slot' : Option Entry}
    (h : readable Circuit now slot' = readable Circuit now slot) :
    seen now slot' = seen now slot := by
  rw [seen, recordIn, h, seen, recordIn]

theorem moved_congr (b : Breaker) (move : Circuit → Circuit) {slot slot' : Option Entry}
    (h : readable Circuit now slot' = readable Circuit now slot) :
    b.moved now move slot' = b.moved now move slot := by
  rw [Breaker.moved, Breaker.moved, seen_congr h, h]

section Plain

variable (hg : g.Built pl) (hplain : ':' ∉ p.name.toList)

include hg hplain

theorem alike_admits : (g.breaker.admits (.scoped t p.name)).Alike (g.LikeNow t p P) := by
  refine alike_of_puts hplain
    (fun now slot => ((seen now slot).poll g.breaker.thresholds now).1)
    (fun now slot => g.breaker.moved now (fun c => (c.poll g.breaker.thresholds now).2) slot)
    (fun env h => ?_) fun now slot slot' h => ⟨by rw [seen_congr h], moved_congr _ _ h⟩
  rw [← key_scoped hg]
  exact g.breaker.admits_of_healthy h _

theorem alike_record (succeeded : Bool) :
    (g.breaker.record (.scoped t p.name) succeeded).Alike (g.LikeNow t p P) := by
  refine alike_of_puts hplain (fun _ _ => ())
    (fun now slot =>
      g.breaker.moved now (fun c => c.outcome g.breaker.thresholds now succeeded) slot)
    (fun env h => ?_) fun now slot slot' h => ⟨rfl, moved_congr _ _ h⟩
  rw [← key_scoped hg]
  exact g.breaker.record_of_healthy h _ succeeded

theorem alike_status : (g.breaker.status (.scoped t p.name)).Alike (g.LikeNow t p P) := by
  refine alike_of_puts hplain
    (fun now slot => g.breaker.statusOf (.scoped t p.name) (seen now slot))
    (fun now slot => readable Circuit now slot)
    (fun env h => ?_) fun now slot slot' h => ⟨by rw [seen_congr h], h⟩
  rw [← key_scoped hg]
  exact g.breaker.status_of_healthy h _

/-- The limiter goes by the window and the block. -/
theorem alike_check : (g.limiter.check t p).Alike (g.LikeNow t p P) := by
  rintro env env' ⟨⟨hnow, hP⟩, h⟩
  have huses : (g.limiter.check t p).Uses
      (fun key => key = g.place t (.window p.name) ∨ key = g.place t (.block p.name))
      fun _ => False :=
    Limiter.uses_check (.inl (key_window hg t p)) (.inr (key_block hg t p))
  have hagree := Env.agree_of_healthy h.unreported.healthy h.unreported'.healthy hnow
    fun key (hkey : key = g.place t (.window p.name) ∨ key = g.place t (.block p.name)) =>
      hkey.elim (fun e => e ▸ h.window_eq) fun e => e ▸ h.block_eq
  have hcircuit : ¬ (g.place t .circuit = g.place t (.window p.name) ∨
      g.place t .circuit = g.place t (.block p.name)) := by
    rintro (hkey | hkey)
    · cases (place_inj (a := .circuit) (b := .window p.name) trivial hplain hkey).1
    · cases (place_inj (a := .circuit) (b := .block p.name) trivial hplain hkey).1
  obtain ⟨hanswer, hafter⟩ := huses.alike env env' hagree
  exact ⟨hanswer, ⟨hafter.now_eq, (huses.touches env).now_eq ▸ hP⟩,
    h.of_frames (huses.touches env) (huses.touches env') hcircuit hafter.store.slot_eq⟩

end Plain

section Plain

variable (hg : g.Built pl) (hplain : ∀ p ∈ pl.policies, ':' ∉ p.name.toList) (hp : p ∈ pl.policies)
  (hscope : pl.scope = .perPolicy)

include hg hplain hp hscope

theorem alike_judge (path : String) : (g.judge t path p).Alike (g.LikeNow t p P) := by
  have hname := hplain p hp
  have hcircuit := hg.policyCircuit_eq hscope t p
  have hguards : ∀ k ∈ g.guards t p, k = .ofTracker t ∨ k = .scoped t p.name := by
    rw [hg.guards_eq hscope]
    simp
  have hmonitor : ∀ {x : GateM Unit}, x.Uses (g.Beside t p) (fun _ => True) →
      x.Alike (g.LikeNow t p P) := fun hx =>
    alike_of_leaves (fun _ => leaves_of_beside hx) fun _ _ _ _ => rfl
  refine Asks.judge (closed_likeNow g t p P)
    { count := fun _ => hmonitor (.count trivial)
      admits := fun k hk => ?_
      status := fun k hk => ?_
      success := hcircuit ▸ alike_record hg hname true
      failure := hcircuit ▸ alike_record hg hname false
      check := alike_check hg hname
      outcome := fun path allowed => hmonitor (Monitor.uses_recordOutcome
        (fun now => beside_of_vm (g.monitor.under_hour t now)) path allowed)
      violation := fun path v => hmonitor (.bind (Monitor.uses_recordViolation
        (fun _ => beside_of_vm) t path v) fun _ => .pure ()) } path
  · rcases hguards k hk with rfl | rfl
    · exact alike_of_leaves (fun _ => leaves_of_same fun env h => (admits_ofTracker hg h).2)
        fun env env' h h' => by rw [(admits_ofTracker hg h).1, (admits_ofTracker hg h').1]
    · exact alike_admits hg hname
  · rcases hguards k hk with rfl | rfl
    · exact alike_of_leaves (fun _ => leaves_of_same fun env h => (status_ofTracker hg h).2)
        fun env env' h h' => by rw [(status_ofTracker hg h).1, (status_ofTracker hg h').1]
    · exact alike_status hg hname

/-- **What is asked about the tracker under the policy** is answered by the four records. -/
theorem alike_pair {a : Action} (ha : a.pair? = some (t, p.name)) :
    (g.perform a).Alike (g.LikeNow t p P) := by
  have hQ := closed_likeNow g t p P
  have hcircuit := hg.policyCircuit_eq hscope t p
  have hget : ∀ q, g.policies.get? p.name = some q → q = p := fun q hq => by
    have hpolicy := hg.policy_of_mem hp
    rw [policy, hq] at hpolicy
    exact Except.ok.inj hpolicy
  cases a <;> cases ha
  case request path =>
    refine hQ.bind (closed_withPolicy hQ fun q hq => ?_) fun _ => hQ.pure _
    obtain rfl := hget q hq
    exact alike_judge hg hplain hp hscope path
  case reportFor succeeded =>
    refine hQ.bind (closed_withPolicy hQ fun q hq => ?_) fun _ => hQ.pure _
    obtain rfl := hget q hq
    exact hcircuit ▸ alike_record hg (hplain q hp) succeeded
  case statusFor =>
    refine hQ.bind (closed_withPolicy hQ fun q hq => ?_) fun _ => hQ.pure _
    obtain rfl := hget q hq
    exact hcircuit ▸ alike_status hg (hplain q hp)

end Plain

/-! ## Resets -/

/-- After circuits are reset there is none of them. -/
theorem slot_resetAll (b : Breaker) (keys : List Key) {k : Key} (h : env.Healthy)
    (hk : k ∈ keys ∨ env.slot (b.shelf.key k.text) = none) :
    ((resetAll b keys).on env).2.slot (b.shelf.key k.text) = none := by
  induction keys generalizing env with
  | nil => exact hk.resolve_left (List.not_mem_nil)
  | cons k' keys ih =>
    obtain ⟨env₁, hreset, hput⟩ := b.reset_of_healthy h k'
    simp only [resetAll, GateM.on_bind, hreset]
    refine ih (hput.healthy h) ?_
    by_cases hkey : b.shelf.key k.text = b.shelf.key k'.text
    · exact .inr (by rw [hkey, hput.slot_key])
    · refine hk.imp (fun hmem => ?_) fun hnone => by rw [hput.slot_of_ne hkey, hnone]
      exact (List.mem_cons.mp hmem).resolve_left fun e => hkey (e ▸ rfl)

section Plain

variable (hg : g.Built pl) (hplain : ∀ p ∈ pl.policies, ':' ∉ p.name.toList) (hp : p ∈ pl.policies)
  (hscope : pl.scope = .perPolicy)

include hg hplain hp hscope

/-- A reset removes the circuits and leaves the rest. -/
theorem after_reset (h : g.Unreported t env) :
    g.Unreported t ((g.perform (.resetCircuits t)).on env).2 ∧
      ((g.perform (.resetCircuits t)).on env).2.slot (g.place t (.circuitFor p.name)) = none ∧
      ∀ a : Place, a.Plain → a ≠ .circuit → (∀ policy, a ≠ .circuitFor policy) →
        ((g.perform (.resetCircuits t)).on env).2.slot (g.place t a) = env.slot (g.place t a) := by
  have hcircuits := hg.circuits_eq hscope t
  have hf := touches_resetAll g.breaker (g.circuits t) env
  have hnone := fun k hk => slot_resetAll g.breaker (g.circuits t) (k := k) h.healthy (.inl hk)
  refine ⟨⟨h.healthy.of_frame hf, ?_⟩, ?_, fun a ha hne hne' => hf.slot_eq _ ?_⟩
  · rw [← key_ofTracker hg]
    exact hnone _ (hcircuits ▸ List.mem_cons_self)
  · rw [← key_scoped hg]
    exact hnone _ (hcircuits ▸ List.mem_cons_of_mem _ (List.mem_map.mpr ⟨p, hp, rfl⟩))
  · rintro ⟨k, hk, hkey⟩
    rw [hcircuits] at hk
    rcases List.mem_cons.mp hk with rfl | hk
    · rw [key_ofTracker hg] at hkey
      exact hne (place_inj (b := .circuit) ha trivial hkey).1
    · obtain ⟨q, hq, rfl⟩ := List.mem_map.mp hk
      rw [key_scoped hg] at hkey
      exact hne' q.name (place_inj (b := .circuitFor q.name) ha (hplain q hq) hkey).1

theorem like_reset (h : g.Like t p P env env') {P' : UInt64 → Prop} :
    g.Like t p P' ((g.perform (.resetCircuits t)).on env).2
      ((g.perform (.resetCircuits t)).on env').2 := by
  obtain ⟨hafter, hnone, hrest⟩ := after_reset hg hplain hp hscope h.unreported
  obtain ⟨hafter', hnone', hrest'⟩ := after_reset hg hplain hp hscope h.unreported'
  refine ⟨hafter, hafter', ?_, ?_, fun _ _ => by rw [hnone, hnone']⟩
  · have hname : (Place.window p.name).Plain := hplain p hp
    rw [hrest _ hname nofun nofun, hrest' _ hname nofun nofun, h.window_eq]
  · have hname : (Place.block p.name).Plain := hplain p hp
    rw [hrest _ hname nofun nofun, hrest' _ hname nofun nofun, h.block_eq]

end Plain

/-! ## Runs -/

variable {s : Step} {run : List Step}

/-- The instants at which a run asks about a tracker under a policy. -/
def asked (t : Tracker) (p : Policy) (run : List Step) (now : UInt64) : Prop :=
  ∃ s ∈ run, s.action.pair? = some (t, p.name) ∧ s.now = now

theorem Like.step (hs : s.Healthy) (h : g.Like t p P env env') : g.Like t p P (s.env env) env' :=
  ⟨⟨Step.healthy_env hs h.unreported.healthy, h.unreported.circuit_eq⟩, h.unreported',
    h.window_eq, h.block_eq, h.circuitFor_eq⟩

/-- A step that makes no difference, in one of two runs. -/
theorem Like.take (hs : s.Healthy) (hleaves : (g.perform s.action).Moves (g.Leaves t p s.now P))
    (h : g.Like t p P env env') : g.Like t p P ((g.take s).on env).2 env' :=
  have h := h.step hs
  (hleaves (s.env env) rfl h.unreported).2.symm.trans h

theorem pair_of_fed {a : Action} {x : Tracker × String} (h : a.fed? = some x) :
    a.pair? = some x := by
  cases a <;> first | exact h | cases h

/-- A run on a store that does not fail, without reports on the tracker alone; and its clock is not
set back behind a question for all circuits of the tracker when it asks about it under the
policy. -/
structure Orderly (t : Tracker) (p : Policy) (run : List Step) : Prop where
  healthy : ∀ s ∈ run, s.Healthy
  unreported : ∀ s ∈ run, ∀ succeeded, s.action ≠ .report t succeeded
  onward : run.Pairwise fun s s' =>
    s.action = .anyOpen t → s'.action.pair? = some (t, p.name) → s.now ≤ s'.now

theorem Orderly.tail (h : Orderly t p (s :: run)) : Orderly t p run :=
  ⟨(List.forall_mem_cons.mp h.healthy).2, (List.forall_mem_cons.mp h.unreported).2,
    (List.pairwise_cons.mp h.onward).2⟩

theorem Orderly.le (h : Orderly t p (s :: run)) (hopen : s.action = .anyOpen t) {later : UInt64}
    (hlater : asked t p run later) : s.now ≤ later := by
  obtain ⟨s', hmem, hpair, rfl⟩ := hlater
  exact (List.pairwise_cons.mp h.onward).1 s' hmem hopen hpair

theorem Like.tail (h : g.Like t p (asked t p (s :: run)) env env') :
    g.Like t p (asked t p run) env env' :=
  h.mono fun _ ⟨s', hmem, hpair⟩ => ⟨s', List.mem_cons_of_mem s hmem, hpair⟩

section Plain

variable (hg : g.Built pl) (hplain : ∀ p ∈ pl.policies, ':' ∉ p.name.toList) (hp : p ∈ pl.policies)
  (hscope : pl.scope = .perPolicy)

include hg hplain hp hscope

/-- A step that both of two runs take. -/
theorem take_of_like (horderly : Orderly t p (s :: run))
    (h : g.Like t p (asked t p (s :: run)) env env') :
    (s.action.pair? = some (t, p.name) → ((g.take s).on env').1 = ((g.take s).on env).1) ∧
      g.Like t p (asked t p run) ((g.take s).on env).2 ((g.take s).on env').2 := by
  have hs : s.Healthy := horderly.healthy s List.mem_cons_self
  have hstep := ((h.step hs).symm.step hs).symm
  by_cases hpair : s.action.pair? = some (t, p.name)
  · have hnow : asked t p (s :: run) s.now := ⟨s, List.mem_cons_self, hpair, rfl⟩
    obtain ⟨hanswer, _, hlike⟩ :=
      alike_pair hg hplain hp hscope hpair (s.env env) (s.env env') ⟨⟨rfl, hnow⟩, hstep⟩
    exact ⟨fun _ => hanswer, hlike.tail⟩
  · refine ⟨fun h => absurd h hpair, ?_⟩
    by_cases hreset : s.action = .resetCircuits t
    · rw [on_take, on_take, hreset]
      exact like_reset hg hplain hp hscope hstep
    · have hleaves : (g.perform s.action).Moves (g.Leaves t p s.now (asked t p run)) := by
        by_cases hopen : s.action = .anyOpen t
        · rw [hopen]
          exact leaves_anyOpen hg hplain hp fun _ => horderly.le hopen
        · exact leaves_perform hg hplain hp hscope hpair
            (horderly.unreported s List.mem_cons_self) hreset hopen
      exact ((h.tail.take hs hleaves).symm.take hs hleaves).symm

/-- **Requests and reports about others make no difference to what is answered about a tracker under
a policy.** -/
theorem traced_of_pair (horderly : Orderly t p run) {keep : Step → Bool}
    (hkeep : ∀ s : Step, keep s = false → ∃ x, s.action.fed? = some x ∧ x ≠ (t, p.name))
    (h : g.Like t p (asked t p run) env env') :
    (g.traced (run.filter keep) env').filter (fun x => x.1.action.pair? = some (t, p.name)) =
      (g.traced run env).filter fun x => x.1.action.pair? = some (t, p.name) := by
  have hother : ∀ s : Step, keep s = false → s.action.pair? ≠ some (t, p.name) ∧
      s.action ≠ .resetCircuits t ∧ s.action ≠ .anyOpen t := by
    intro s hs
    obtain ⟨x, hfed, hne⟩ := hkeep s hs
    refine ⟨fun h => hne (Option.some.inj ((pair_of_fed hfed).symm.trans h)), ?_, ?_⟩ <;>
      exact fun h => by rw [h] at hfed; cases hfed
  refine (filter_traced (fun s => s.action.pair? = some (t, p.name))
    (R := fun run env env' => Orderly t p run ∧ g.Like t p (asked t p run) env env')
    (fun s hs => ?_) (fun s run env env' ⟨horderly, h⟩ _ => ?_)
    (fun s run env env' ⟨horderly, h⟩ hs => ?_) ⟨horderly, h⟩).1
  · rw [← Bool.not_eq_false]
    exact fun hdrop => (hother s hdrop).1 (of_decide_eq_true hs)
  · obtain ⟨hanswer, hlike⟩ := take_of_like hg hplain hp hscope horderly h
    exact ⟨fun hlook => hanswer (of_decide_eq_true hlook), horderly.tail, hlike⟩
  · obtain ⟨hpair, hreset, hopen⟩ := hother s hs
    exact ⟨horderly.tail, h.tail.take (horderly.healthy s List.mem_cons_self)
      (leaves_perform hg hplain hp hscope hpair (horderly.unreported s List.mem_cons_self) hreset
        hopen)⟩

end Plain

end Turnstile.Gate
