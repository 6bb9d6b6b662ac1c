import Turnstile.Proofs.Env.Agree
import Turnstile.Proofs.Env.Keeps
import Turnstile.Proofs.Gate.Actions
import Turnstile.Proofs.Gate.Handles
import Turnstile.Proofs.Gate.Runs

/-!
# Questions

Some actions only ask: for the state of a circuit, for statistics, for a ranking.  They do write to
the store, as whoever reads a record takes it out if it has expired or cannot be read.  But nobody
can tell: the next reading would have found nothing there, and would have taken it out itself.

* `Gate.Action.asks`: the actions that only ask.
* `Holding.Like`: slots in which every reading from an instant on finds the same.
* `Gate.Near`: surroundings that nobody can tell apart.
* `Gate.near_of_asks`, `Gate.near_take`: a question in one of them, and any step in both.
* `Gate.questions_unseen`: a run with questions and the run without them.
-/

set_option autoImplicit false

namespace Turnstile

open Circuit (Key)

/-- Those of some items that are marked. -/
def marked {α : Type} (marks : List Bool) (l : List α) : List α :=
  ((l.zip marks).filter Prod.snd).map Prod.fst

theorem marked_cons {α : Type} (mark : Bool) (marks : List Bool) (a : α) (l : List α) :
    marked (mark :: marks) (a :: l) = if mark then a :: marked marks l else marked marks l := by
  cases mark <;> rfl

/-- From an instant on two slots read the same for records of a kind, and a reading leaves the same
in both. -/
def Holding.Like (h : Holding) (now : UInt64) (slot slot' : Option Entry) : Prop :=
  ∀ later, now ≤ later → readable h.Record later slot' = readable h.Record later slot

/-- An entry is there in vain: it has expired or cannot be read. -/
def Holding.Dead (h : Holding) (now : UInt64) (slot : Option Entry) : Prop :=
  ∀ e ∈ slot, e.holds h.Record now = false

/-- Slots that read the same are the same, or what is in them is there in vain. -/
theorem Holding.Like.eq_or_dead {h : Holding} {now later : UInt64} {slot slot' : Option Entry}
    (hlike : h.Like now slot slot') (hle : now ≤ later) :
    slot' = slot ∨ h.Dead later slot ∧ h.Dead later slot' := by
  have hreadable := hlike later hle
  unfold readable at hreadable
  cases hfilter : slot.filter (Entry.holds h.Record later) with
  | some e =>
    rw [hfilter] at hreadable
    obtain ⟨hslot, _⟩ := Option.filter_eq_some_iff.mp hfilter
    obtain ⟨hslot', _⟩ := Option.filter_eq_some_iff.mp hreadable
    exact .inl (hslot'.trans hslot.symm)
  | none =>
    rw [hfilter] at hreadable
    refine .inr ⟨fun e he => ?_, fun e he => ?_⟩
    · simpa using Option.filter_eq_none_iff.mp hfilter e he
    · simpa using Option.filter_eq_none_iff.mp hreadable e he

namespace Gate

/-- An action that only asks. -/
def Action.asks : Action → Bool
  | .statusOf _ | .statusFor _ _ | .anyOpen _ | .stats _ | .top _ | .onPath _ => true
  | .request _ _ _ | .report _ _ | .reportFor _ _ _ | .resetCircuits _ => false

/-- Healthy surroundings that nobody can tell apart from an instant on: they have the same metrics,
and the same under each key, except that records for which somebody may ask may read the same
only. -/
structure Near (s : Shelf) (now : UInt64) (env env' : Env) : Prop where
  healthy : env.Healthy
  healthy' : env'.Healthy
  metrics_eq : env'.metrics = env.metrics
  slot : ∀ key, env'.slot key = env.slot key ∨ ∃ (h : Holding) (name : String), ¬ h.Limits ∧
    h.Named name ∧ key = s.key name ∧ h.Like now (env.slot key) (env'.slot key)

/-- Near surroundings with the same clock. -/
structure Along (s : Shelf) (now : UInt64) (env env' : Env) : Prop where
  near : Near s now env env'
  now_eq : env.now = now
  now_eq' : env'.now = now

variable {α : Type} {P : α → Prop} {s : Shelf} {g : Gate} {now : UInt64}
  {env env' env₁ env₁' : Env} {h : Holding} {name key : String}

/-! ## Readings -/

theorem Near.refl (henv : env.Healthy) : Near s now env env := ⟨henv, henv, rfl, fun _ => .inl rfl⟩

theorem Near.mono {later : UInt64} (hnear : Near s now env env') (hle : now ≤ later) :
    Near s later env env' := by
  refine ⟨hnear.healthy, hnear.healthy', hnear.metrics_eq, fun key => ?_⟩
  rcases hnear.slot key with heq | ⟨h, name, hasked, hname, hkey, hlike⟩
  · exact .inl heq
  · exact .inr ⟨h, name, hasked, hname, hkey, fun t ht => hlike t (UInt64.le_trans hle ht)⟩

/-- Under the name of a record near surroundings read the same. -/
theorem Near.like (hnear : Near s now env env') (hname : h.Named name) :
    h.Like now (env.slot (s.key name)) (env'.slot (s.key name)) := by
  rcases hnear.slot (s.key name) with heq | ⟨k, other, hasked, hother, hkey, hlike⟩
  · rw [heq]
    exact fun _ _ => rfl
  · obtain rfl := Shelf.key_inj hkey
    obtain rfl | ⟨_, hlimits⟩ := Holding.eq_of_named hname hother
    · exact hlike
    · exact absurd hlimits hasked

/-- What is put under a key in one of two near surroundings, if it reads the same. -/
theorem Near.puts (hnear : Near s now env env') {slot slot' : Option Entry}
    (hput : env.Puts key slot env₁) (hput' : env'.Puts key slot' env₁')
    (hmetrics : env₁'.metrics = env₁.metrics)
    (hslot : slot' = slot ∨ ∃ (h : Holding) (name : String), ¬ h.Limits ∧ h.Named name ∧
      key = s.key name ∧ h.Like now slot slot') : Near s now env₁ env₁' := by
  refine ⟨hput.healthy hnear.healthy, hput'.healthy hnear.healthy', hmetrics, fun other => ?_⟩
  by_cases hother : other = key
  · subst hother
    rwa [hput.slot_key, hput'.slot_key]
  · rw [hput.slot_of_ne hother, hput'.slot_of_ne hother]
    exact hnear.slot other

theorem Along.puts (halong : Along s now env env') {slot : Option Entry}
    (hput : env.Puts key slot env₁) (hput' : env'.Puts key slot env₁')
    (hmetrics : env₁.metrics = env.metrics) (hmetrics' : env₁'.metrics = env'.metrics) :
    Along s now env₁ env₁' where
  near := by
    refine halong.near.puts hput hput' ?_ (.inl rfl)
    rw [hmetrics, hmetrics', halong.near.metrics_eq]
  now_eq := hput.now_eq.trans halong.now_eq
  now_eq' := hput'.now_eq.trans halong.now_eq'

theorem Along.count (halong : Along s now env env') (f : Metrics → Metrics) :
    Along s now ((GateM.count f).on env).2 ((GateM.count f).on env').2 where
  near := ⟨halong.near.healthy.of_frame (GateM.touches_count (K := fun _ => False) f env),
    halong.near.healthy'.of_frame (GateM.touches_count (K := fun _ => False) f env'),
    congrArg f halong.near.metrics_eq, halong.near.slot⟩
  now_eq := halong.now_eq
  now_eq' := halong.now_eq'

theorem Along.log (halong : Along s now env env') (e : Event) :
    Along s now ((GateM.log e).on env).2 ((GateM.log e).on env').2 where
  near := ⟨halong.near.healthy.of_frame (GateM.touches_log (K := fun _ => False) e env),
    halong.near.healthy'.of_frame (GateM.touches_log (K := fun _ => False) e env'),
    halong.near.metrics_eq, halong.near.slot⟩
  now_eq := halong.now_eq
  now_eq' := halong.now_eq'

/-! ## Operations on records -/

theorem metrics_of_on {x : StoreM α} {r : Except StoreError α}
    (hx : x.on env = (r, env₁)) (h : (x.on env).2.metrics = env.metrics) :
    env₁.metrics = env.metrics := by
  rwa [hx] at h

/-- **Questions on one side** are answered, and leave the surroundings near. -/
theorem near_of_looks {x : StoreM α} (hx : x.Looks s) (hnear : Near s env.now env env') :
    ∃ a env₁, x.on env = (.ok a, env₁) ∧ env₁.now = env.now ∧ Near s env.now env₁ env' := by
  induction hx generalizing env with
  | pure a => exact ⟨a, env, rfl, rfl, hnear⟩
  | bind _ _ ihx ihf =>
    obtain ⟨a, env₁, hx, hnow, hnear₁⟩ := ihx hnear
    rw [StoreM.on_bind_of_ok hx, ← hnow]
    exact ihf a (hnow ▸ hnear₁)
  | now => exact ⟨env.now, env, rfl, rfl, hnear⟩
  | load h hasked hname =>
    obtain ⟨env₁, hload, hput⟩ := s.load_of_healthy (α := h.Record) _ hnear.healthy
    refine ⟨_, env₁, hload, hput.now_eq, ?_⟩
    refine hnear.puts hput (.refl env' _) ?_ (.inr ⟨h, _, hasked, hname, rfl, fun later hle => ?_⟩)
    · rw [metrics_of_on hload (s.metrics_load _ env), hnear.metrics_eq]
    · rw [readable_readable_later hle]
      exact hnear.like hname later hle

/-- **Operations on both sides** answer the same, and leave the surroundings near. -/
theorem along_of_handles {x : StoreM α} (hx : x.Handles s g now (fun _ _ => True) P)
    (halong : Along s now env env') :
    ∃ a env₁ env₁', x.on env = (.ok a, env₁) ∧ x.on env' = (.ok a, env₁') ∧ P a ∧
      Along s now env₁ env₁' := by
  induction hx generalizing env env' with
  | pure ha => exact ⟨_, env, env', rfl, rfl, ha, halong⟩
  | bind _ _ ihx ihf =>
    obtain ⟨a, env₁, env₁', hx, hx', ha, halong₁⟩ := ihx halong
    rw [StoreM.on_bind_of_ok hx, StoreM.on_bind_of_ok hx']
    exact ihf a ha halong₁
  | now =>
    refine ⟨now, env, env', ?_, ?_, rfl, halong⟩
    · rw [StoreM.on_now, halong.now_eq]
    · rw [StoreM.on_now, halong.now_eq']
  | log e => exact ⟨(), _, _, rfl, rfl, trivial, halong.log e⟩
  | count f => exact ⟨(), _, _, rfl, rfl, trivial, halong.count f⟩
  | load h hname =>
    obtain ⟨env₁, hload, hput⟩ := s.load_of_healthy (α := h.Record) _ halong.near.healthy
    obtain ⟨env₁', hload', hput'⟩ := s.load_of_healthy (α := h.Record) _ halong.near.healthy'
    have hlike := halong.near.like hname now (UInt64.le_refl now)
    rw [halong.now_eq] at hload hput
    rw [halong.now_eq', hlike] at hput'
    rw [halong.now_eq', recordIn, hlike] at hload'
    refine ⟨_, env₁, env₁', hload, hload', fun _ _ => trivial, ?_⟩
    exact halong.puts hput hput' (metrics_of_on hload (s.metrics_load _ env))
      (metrics_of_on hload' (s.metrics_load _ env'))
  | @save h name _ _ a ttl _ _ =>
    obtain ⟨env₁, hsave, hput⟩ := s.save_of_healthy name halong.near.healthy a (some ttl)
    obtain ⟨env₁', hsave', hput'⟩ := s.save_of_healthy name halong.near.healthy' a (some ttl)
    rw [halong.now_eq] at hput
    rw [halong.now_eq'] at hput'
    refine ⟨(), env₁, env₁', hsave, hsave', trivial, ?_⟩
    exact halong.puts hput hput' (metrics_of_on hsave (s.metrics_save _ env a _))
      (metrics_of_on hsave' (s.metrics_save _ env' a _))
  | @remove h name _ =>
    obtain ⟨env₁, hremove, hput⟩ := s.remove_of_healthy name halong.near.healthy
    obtain ⟨env₁', hremove', hput'⟩ := s.remove_of_healthy name halong.near.healthy'
    refine ⟨(), env₁, env₁', hremove, hremove', trivial, ?_⟩
    exact halong.puts hput hput' (metrics_of_on hremove (s.metrics_remove _ env))
      (metrics_of_on hremove' (s.metrics_remove _ env'))

theorem serves_alike : GateM.Serves s g now (fun _ _ => True) (GateM.Alike (Along s now)) where
  closed := GateM.closed_alike (fun _ _ h => h.now_eq'.trans h.now_eq.symm) fun e _ _ h => h.log e
  event e _ _ h := ⟨rfl, h.log e⟩
  count f _ _ h := ⟨rfl, h.count f⟩
  attempt hx env env' h := by
    obtain ⟨a, env₁, env₁', hon, hon', _, halong⟩ := along_of_handles hx h
    rw [GateM.on_attempt, GateM.on_attempt, hon, hon']
    exact ⟨rfl, halong⟩

/-! ## Steps -/

variable {pl : Plan} {st : Step} {run : List Step}

/-- An operation in one of two near surroundings leaves them near. -/
def NearOn (s : Shelf) (env' : Env) (x : GateM α) : Prop :=
  ∀ env, Near s env.now env env' → (x.on env).2.now = env.now ∧ Near s env.now (x.on env).2 env'

theorem closed_nearOn : GateM.Closed (NearOn s env') where
  pure _ _ h := ⟨rfl, h⟩
  bindOf hx hP hf env h := by
    obtain ⟨hnow, hnear⟩ := hx env h
    obtain ⟨hnow', hnear'⟩ := hf _ (hP env) _ (hnow ▸ hnear)
    exact ⟨hnow'.trans hnow, hnow ▸ hnear'⟩
  now _ h := ⟨rfl, h⟩
  log _ _ env h := ⟨rfl, h.healthy.of_frame (GateM.touches_log (K := fun _ => False) _ env),
    h.healthy', h.metrics_eq, h.slot⟩

theorem nearOn_recover {x : StoreM α} (hx : x.Looks s) (event : StoreError → Event) (answer : α) :
    NearOn s env' (Monitor.recover x event answer) := by
  intro env h
  obtain ⟨a, env₁, hon, hnow, hnear⟩ := near_of_looks hx h
  simp only [Monitor.recover, GateM.on_bind, GateM.on_attempt, hon, GateM.on_pure]
  exact ⟨hnow, hnear⟩

theorem nearOn_status {key : Key} (hkey : Holding.circuit.Named key.text) :
    NearOn g.breaker.shelf env' (g.breaker.status key) := by
  intro env h
  obtain ⟨c, env₁, hon, hnow, hnear⟩ := near_of_looks (Breaker.looks_load hkey g.breaker) h
  simp only [Breaker.status, GateM.on_bind, GateM.on_attempt, hon, GateM.on_pure]
  exact ⟨hnow, hnear⟩

/-- **A question in one of two near surroundings leaves them near.** -/
theorem near_of_asks (hg : g.Built pl) {a : Action} (ha : a.asks = true) :
    NearOn ⟨pl.label⟩ env' (g.perform a) := by
  have hshelf : g.breaker.shelf = ⟨pl.label⟩ := by rw [hg.breaker_eq]
  have hmonitor : g.monitor.shelf = ⟨pl.label⟩ := by rw [hg.monitor_eq]
  have hstatus {t : Tracker} {k : Key} (hk : g.Owns t k) :
      NearOn ⟨pl.label⟩ env' (g.breaker.status k) :=
    hshelf ▸ nearOn_status (named_of_owns hk)
  have hrecover {α : Type} {x : StoreM α} (hx : x.Looks g.monitor.shelf)
      (event : StoreError → Event) (answer : α) :
      NearOn ⟨pl.label⟩ env' (Monitor.recover x event answer) :=
    hmonitor ▸ nearOn_recover hx event answer
  cases a with
  | statusOf t => exact closed_nearOn.bind (hstatus (.inl rfl)) fun _ => closed_nearOn.pure _
  | statusFor t policy =>
    refine closed_nearOn.bind (closed_withPolicy closed_nearOn fun p hp => ?_) fun _ =>
      closed_nearOn.pure _
    exact hstatus (owns_of_mem_guards (List.mem_of_find?_eq_some hp)
      (policyCircuit_mem_guards g t p))
  | anyOpen t =>
    exact closed_nearOn.bind
      (closed_someOpen closed_nearOn fun k hk => hstatus (owns_of_mem_circuits hk)) fun _ =>
        closed_nearOn.pure _
  | stats t =>
    exact closed_nearOn.bind (hrecover (g.monitor.looks_tryStats t) _ _) fun _ =>
      closed_nearOn.pure _
  | top limit =>
    exact closed_nearOn.bind (hrecover (g.monitor.looks_tryTop limit) _ _) fun _ =>
      closed_nearOn.pure _
  | onPath path =>
    exact closed_nearOn.bind (hrecover (g.monitor.looks_tryOnPath path) _ _) fun _ =>
      closed_nearOn.pure _
  | _ => cases ha

/-- **A step in two near surroundings** is answered the same and leaves them near. -/
theorem near_take (hg : g.Built pl) (hst : st.Healthy) (hle : now ≤ st.now)
    (hnear : Near ⟨pl.label⟩ now env env') :
    ((g.take st).on env').1 = ((g.take st).on env).1 ∧
      Along ⟨pl.label⟩ st.now ((g.take st).on env).2 ((g.take st).on env').2 := by
  rw [on_take, on_take]
  refine serves_perform hg serves_alike st.action _ _ ⟨?_, rfl, rfl⟩
  have hnear := hnear.mono hle
  exact ⟨st.healthy_env hst hnear.healthy, st.healthy_env hst hnear.healthy', hnear.metrics_eq,
    hnear.slot⟩

/-! ## Runs -/

/-- A run in one of two near surroundings, and in the other one the run without some questions. -/
theorem near_run (hg : g.Built pl) {marks : List Bool} (hmarks : marks.length = run.length)
    (hhealthy : ∀ st ∈ run, st.Healthy)
    (hasks : ∀ x ∈ run.zip marks, x.2 = false → x.1.action.asks = true)
    (hrun : (now :: run.map Step.now).Pairwise (· ≤ ·)) (hle : now ≤ env.now)
    (hnear : Near ⟨pl.label⟩ now env env') :
    g.traced (marked marks run) env' = marked marks (g.traced run env) ∧
      ∃ last, last ≤ (g.left run env).now ∧
        Near ⟨pl.label⟩ last (g.left run env) (g.left (marked marks run) env') := by
  induction run generalizing now env env' marks with
  | nil =>
    cases List.length_eq_zero_iff.mp hmarks
    exact ⟨rfl, now, hle, hnear⟩
  | cons st run ih =>
    obtain ⟨mark, marks, rfl⟩ := List.exists_cons_of_length_eq_add_one hmarks
    obtain ⟨hst, hhealthy⟩ := List.forall_mem_cons.mp hhealthy
    obtain ⟨hask, hmore⟩ := List.forall_mem_cons.mp hasks
    obtain ⟨hfirst, hrest⟩ := List.pairwise_cons.mp hrun
    have hle := hfirst st.now List.mem_cons_self
    have hlength : marks.length = run.length := Nat.succ.inj hmarks
    rw [marked_cons, traced_cons, marked_cons, left_cons]
    cases mark with
    | true =>
      obtain ⟨hanswer, halong⟩ := near_take hg hst hle hnear
      obtain ⟨htraced, hleft⟩ := ih hlength hhealthy hmore hrest
        (UInt64.le_of_eq halong.now_eq.symm) halong.near
      rw [if_pos rfl, if_pos rfl, traced_cons, left_cons, hanswer, htraced]
      exact ⟨rfl, hleft⟩
    | false =>
      have hnear := hnear.mono hle
      obtain ⟨hnow, hnear⟩ := near_of_asks hg (hask rfl) (st.env env)
        ⟨st.healthy_env hst hnear.healthy, hnear.healthy', hnear.metrics_eq, hnear.slot⟩
      exact ih hlength hhealthy hmore hrest (UInt64.le_of_eq hnow.symm) hnear

/-- **Questions are not seen.**  Let a gate be built, and let the store have anything whatever in it.
Put questions into a run, at any points of it, such that no call on the store fails and the clock
does not fall; the marks say which steps of the run with the questions are those of the run without
them.  Then

* all other steps are answered as they are without the questions;
* the metrics are the same in the end;
* and so is what the store has under every key, except for records that have expired by then or
  cannot be read, which may be missing from the one or the other or not be the same. -/
theorem questions_unseen (pl : Plan) (g : Gate) (built built' : Env)
    (hbuild : pl.build.on built = (.ok g, built')) (env : Env) (henv : env.Healthy)
    (run : List Step) (hhealthy : ∀ st ∈ run, st.Healthy)
    (hrun : (run.map Step.now).Pairwise (· ≤ ·)) (marks : List Bool)
    (hmarks : marks.length = run.length)
    (hasks : ∀ x ∈ run.zip marks, x.2 = false → x.1.action.asks = true) :
    let asked := g.left run env
    let unasked := g.left (marked marks run) env
    g.traced (marked marks run) env = marked marks (g.traced run env) ∧
    unasked.metrics = asked.metrics ∧
    ∀ key, unasked.slot key = asked.slot key ∨
      ∃ (h : Holding) (name : String), h.Named name ∧ key = Shelf.key ⟨pl.label⟩ name ∧
        h.Dead asked.now (asked.slot key) ∧ h.Dead asked.now (unasked.slot key) := by
  intro asked unasked
  have hzero : (0 :: run.map Step.now).Pairwise (· ≤ ·) :=
    List.pairwise_cons.mpr ⟨fun _ _ => UInt64.zero_le, hrun⟩
  obtain ⟨htraced, last, hlast, hnear⟩ := near_run (Plan.built_of_build hbuild) hmarks hhealthy hasks
    hzero UInt64.zero_le (.refl henv)
  refine ⟨htraced, hnear.metrics_eq, fun key => ?_⟩
  rcases hnear.slot key with heq | ⟨h, name, _, hname, hkey, hlike⟩
  · exact .inl heq
  · rcases hlike.eq_or_dead hlast with heq | hdead
    · exact .inl heq
    · exact .inr ⟨h, name, hname, hkey, hdead⟩

/-- A store with something under the name of Alice's circuit that is no circuit. -/
def spoiled : Env :=
  let store := Store.empty none
  .start 0 { store with entries := store.entries.set 0 "admission:cb:user:alice" [9] none }

/-- Two requests, and somebody who asks about everything. -/
def curious : List Step :=
  [.at 0 (.statusOf (.user "alice")), .at 1 (.request (.user "bob") "/" "login"),
    .at 2 (.anyOpen (.user "bob")), .at 3 (.request (.user "bob") "/" "login"),
    .at 4 (.stats (.user "bob")), .at 5 (.onPath "/")]

/-- The questions take out what cannot be read, and Bob is admitted twice with and without them. -/
theorem unseen_curious :
    let g := (Plan.twoPerSecond .standard .perTracker).validGate
    let marks := [false, true, false, true, false, false]
    let key := "admission:cb:user:alice"
    (∃ env', (Plan.twoPerSecond .standard .perTracker).build.on spoiled = (.ok g, env')) ∧
    (curious.map Step.now).Pairwise (· ≤ ·) ∧
    (g.left curious spoiled).slot key = none ∧
    (g.left (marked marks curious) spoiled).slot key = some ⟨[9], none⟩ ∧
    (g.traced (marked marks curious) spoiled).map (fun x => x.2.admits) = [true, true] ∧
    (g.left (marked marks curious) spoiled).metrics = (g.left curious spoiled).metrics := by
  intro g marks key
  obtain ⟨env', hbuild⟩ := Plan.build_twoPerSecond .standard rfl .perTracker spoiled
  obtain ⟨htraced, hmetrics, _⟩ := questions_unseen _ g spoiled env' hbuild spoiled ⟨rfl, rfl, rfl⟩
    curious (by simp [curious, Step.healthy_at]) (by decide) marks rfl (by decide)
  refine ⟨⟨env', hbuild⟩, by decide, by decide +kernel, by decide +kernel, ?_, hmetrics⟩
  rw [htraced]
  decide +kernel

end Gate

end Turnstile
