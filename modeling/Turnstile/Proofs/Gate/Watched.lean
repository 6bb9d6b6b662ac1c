import Mathlib.Data.List.Forall2
import Turnstile.Proofs.Env.Unharmed
import Turnstile.Proofs.Gate.Places
import Turnstile.Proofs.Gate.Runs

/-!
# The monitor only watches

In the middle of a request the monitor reads and writes records of its own, scans rosters and
strikes trackers off them, in as many calls on the store as it takes; and each of these calls may
find bytes that are no record, or fail.  Whatever becomes of all that, no request is decided by it.

* `Gate.watchedBy`: a gate with another monitor.
* `Gate.twins_judge`, `Gate.twins_perform`: what is asked of the two.
* `Gate.FailsOnly`: the runs in which only calls on some keys are made to fail.
* `Gate.answers_eq_of_monitors`: two runs with different monitors, and different failures for them.
-/

set_option autoImplicit false

namespace Turnstile.Gate

variable {pl : Plan} {g g' : Gate} {m : Violation.Settings} {t : Tracker} {p : Policy}
  {a a' : Action} {s s' : Step} {run run' : List Step} {env env' : Env}

/-! ## Gates that differ in the monitor -/

/-- A gate whose monitor is set to something else. -/
def watchedBy (g : Gate) (m : Violation.Settings) : Gate :=
  { g with monitor := { g.monitor with settings := m } }

theorem Built.eq_watchedBy (hg : g.Built pl) (hg' : g'.Built { pl with monitor := m }) :
    g' = g.watchedBy m := by
  obtain ⟨⟨policies⟩, limiter, breaker, monitor, scope⟩ := g
  obtain ⟨⟨policies'⟩, limiter', breaker', monitor', scope'⟩ := g'
  obtain ⟨rfl, _, _, rfl, rfl, _, rfl, rfl⟩ := hg
  obtain ⟨rfl, _, _, rfl, rfl, _, rfl, rfl⟩ := hg'
  rfl

/-! ## Requests -/

section Requests

open GateM

variable (hg : g.Built pl) (hp : p ∈ g.policies.policies)

/-- What one monitor notes of a request and what another one notes are on keys of theirs. -/
theorem twins_recordOutcome (g : Gate) (m : Violation.Settings) (t : Tracker) (path path' : String)
    (allowed : Bool) : Twins g.Elsewhere (g.monitor.recordOutcome t path allowed)
      ((g.watchedBy m).monitor.recordOutcome t path' allowed) :=
  have hhour : ∀ now, ¬ g.Elsewhere (g.monitor.shelf.key (Violation.hourName now t)) := fun now =>
    not_not_intro (g.monitor.under_hour t now)
  twins_of_unseen (C := fun _ => False) (D := fun _ => False)
    (Monitor.uses_recordOutcome hhour path allowed) (Monitor.uses_recordOutcome hhour path' allowed)

theorem twins_recordViolation (g : Gate) (m : Violation.Settings) (t : Tracker)
    (path path' : String) (v : Violation) :
    Twins g.Elsewhere (noted (g.monitor.recordViolation t path v))
      (noted ((g.watchedBy m).monitor.recordViolation t path' v)) :=
  have hvm : ∀ key, g.monitor.shelf.Under "vm:" key → ¬ g.Elsewhere key := fun _ => not_not_intro
  twins_of_unseen (C := fun _ => False) (D := fun _ => False)
    (.bind (Monitor.uses_recordViolation hvm t path v) fun _ => .pure ())
    (.bind (Monitor.uses_recordViolation (m := (g.watchedBy m).monitor) hvm t path' v) fun _ =>
      .pure ())

include hg hp

theorem twins_settle (path path' : String) (o : Outcome) :
    Twins g.Elsewhere (g.settle t path p o) ((g.watchedBy m).settle t path' p o) := by
  have hcircuit : g.Elsewhere (g.breaker.shelf.key (g.policyCircuit t p).text) :=
    elsewhere_of_owns hg (owns_of_mem_guards hp (policyCircuit_mem_guards g t p))
  have hcount : ∀ f, Twins g.Elsewhere (count f) (count f) := fun f =>
    (Uses.count (C := fun _ => True) trivial).twins
  unfold settle
  split
  · exact .bind (hcount _) fun _ =>
      (Breaker.uses_recordSuccess (C := fun _ => False) hcircuit).twins
  · refine .bind (hcount _) fun _ => ?_
    have hrest := (twins_recordViolation g m t path path'
      ⟨p.name, p.maxRequests, o.retryAfter, false⟩).bind fun _ =>
        (Breaker.uses_recordFailure (C := fun _ => False) hcircuit).twins
    simp only [noted, bind_assoc, pure_bind] at hrest
    exact hrest

/-- **A request is decided alike** whatever the monitor is set to and does. -/
theorem twins_judge (path path' : String) :
    Twins g.Elsewhere (g.judge t path p) ((g.watchedBy m).judge t path' p) := by
  have hguard : ∀ k ∈ g.guards t p, g.Elsewhere (g.breaker.shelf.key k.text) := fun k hk =>
    elsewhere_of_owns hg (owns_of_mem_guards hp hk)
  have hfirst : (firstOpen g.breaker (g.guards t p)).Uses g.Elsewhere fun _ => True :=
    closed_firstOpen (closed_uses _ _) fun k hk => Breaker.uses_admits (hguard k hk)
  have hmem := mem_of_firstOpen g.breaker (g.guards t p)
  refine hfirst.twins.bindOf (P := fun shut => ∀ key ∈ shut, key ∈ g.guards t p) hmem hmem
    fun shut hshut => ?_
  cases shut with
  | some key =>
    have hstatus : (g.breaker.status key).Uses g.Elsewhere fun _ => True :=
      Breaker.uses_status (hguard key (hshut key rfl))
    refine .bind (Uses.count (C := fun _ => True) trivial).twins fun _ =>
      .bind (twins_recordOutcome g m t path path' false) fun _ => ?_
    exact (Uses.bind (C := fun _ => True) .now fun now => .bind hstatus fun _ =>
      .bind (.log rfl rfl) fun _ => .pure _).twins
  | none =>
    have hcheck : (g.limiter.check t p).Uses g.Elsewhere fun _ => True :=
      Limiter.uses_check (elsewhere_of_limiter hg (g.limiter.under_window t p))
        (elsewhere_of_limiter hg (g.limiter.under_block t p))
    exact .bind hcheck.twins fun o =>
      .bind (twins_recordOutcome g m t path path' o.allowed) fun _ =>
        .bind (twins_settle hg hp path path' o) fun _ => (Uses.pure (C := fun _ => True) _).twins

end Requests

/-! ## Everything that is asked -/

/-- An action without the path that it names. -/
def Action.pathless : Action → Action
  | .request t _ policy => .request t "" policy
  | a => a

/-- Whether an action is a question to the monitor. -/
def Action.watches : Action → Bool
  | .stats _ | .top _ | .onPath _ => true
  | _ => false

/-- Only requests name a path. -/
theorem eq_of_pathless (h : a'.pathless = a.pathless)
    (hrequest : ∀ t path policy, a ≠ .request t path policy) : a' = a := by
  cases a with
  | request t path policy => exact absurd rfl (hrequest t path policy)
  | _ =>
    cases a' with
    | request => cases h
    | _ => exact h

/-- What is asked of the monitor is on its keys. -/
theorem uses_perform_of_watches (g : Gate) (m : Violation.Settings) (ha : a.watches = true) :
    ((g.watchedBy m).perform a).Uses (fun key => ¬ g.Elsewhere key) fun _ => False := by
  cases a <;> cases ha
  case stats t =>
    exact .bind (Monitor.uses_stats (fun now => not_not_intro (g.monitor.under_hour t now))
      (fun d => not_not_intro (g.monitor.under_day d t.key))
      (not_not_intro (g.monitor.under_minute t))) fun _ => .pure _
  case top limit =>
    exact .bind (Monitor.uses_top (m := (g.watchedBy m).monitor) (fun _ => not_not_intro) limit)
      fun _ => .pure _
  case onPath path =>
    exact .bind (Monitor.uses_onPath fun d => not_not_intro (g.monitor.under_path d path)) fun _ =>
      .pure _

/-- What is asked about circuits is on keys of theirs. -/
theorem uses_perform_of_circuits (hg : g.Built pl) (ha : a.watches = false)
    (hrequest : ∀ t path policy, a ≠ .request t path policy) :
    (g.perform a).Uses g.Elsewhere fun _ => False := by
  have hQ := GateM.closed_uses g.Elsewhere fun _ => False
  have hown : ∀ {t k}, g.Owns t k → g.Elsewhere (g.breaker.shelf.key k.text) := elsewhere_of_owns hg
  have hcircuit : ∀ {t name p}, g.policies.get? name = some p → g.Owns t (g.policyCircuit t p) :=
    fun hp => owns_of_mem_guards (List.mem_of_find?_eq_some hp) (policyCircuit_mem_guards g _ _)
  cases a with
  | request t path policy => exact absurd rfl (hrequest t path policy)
  | report t succeeded =>
    exact .bind (Breaker.uses_record (hown (.inl rfl)) succeeded) fun _ => .pure _
  | reportFor t policy succeeded =>
    exact .bind (closed_withPolicy hQ fun p hp =>
      Breaker.uses_record (hown (hcircuit hp)) succeeded) fun _ => .pure _
  | resetCircuits t =>
    exact .bind (closed_resetAll hQ fun k hk =>
      Breaker.uses_reset (hown (owns_of_mem_circuits hk))) fun _ => .pure _
  | statusOf t => exact .bind (Breaker.uses_status (hown (.inl rfl))) fun _ => .pure _
  | statusFor t policy =>
    exact .bind (closed_withPolicy hQ fun p hp => Breaker.uses_status (hown (hcircuit hp))) fun _ =>
      .pure _
  | anyOpen t =>
    exact .bind (closed_someOpen hQ fun k hk =>
      Breaker.uses_status (hown (owns_of_mem_circuits hk))) fun _ => .pure _
  | stats | top | onPath => cases ha

/-- **Everything is answered alike**, questions to the monitor apart. -/
theorem twins_perform (hg : g.Built pl) (hpath : a'.pathless = a.pathless)
    (ha : a.watches = false) :
    GateM.Twins g.Elsewhere (g.perform a) ((g.watchedBy m).perform a') := by
  cases a with
  | request t path policy =>
    obtain ⟨path', rfl⟩ : ∃ path', a' = .request t path' policy := by
      cases a' <;> cases hpath
      exact ⟨_, rfl⟩
    have hpure : ∀ {α : Type} (x : α), GateM.Twins g.Elsewhere (pure x) (pure x) := fun x =>
      (GateM.Uses.pure (C := fun _ => False) x).twins
    refine .bind ?_ fun _ => hpure _
    show GateM.Twins _ (g.withPolicy policy _) (g.withPolicy policy _)
    unfold withPolicy Gate.policy
    cases hp : g.policies.get? policy with
    | none => exact hpure _
    | some p =>
      exact .bind (twins_judge hg (List.mem_of_find?_eq_some hp) path path') fun _ => hpure _
  | stats | top | onPath => cases ha
  | _ =>
    obtain rfl := eq_of_pathless hpath nofun
    exact (uses_perform_of_circuits hg ha nofun).twins

/-! ## Steps -/

/-- Steps at the same instant that ask the same but for the path of a request, with the store away
in both or in none. -/
structure Step.Parallel (s s' : Step) : Prop where
  now_eq : s'.now = s.now
  outage_eq : s'.outage = s.outage
  pathless_eq : s'.action.pathless = s.action.pathless

/-- Stores on the same clock that differ in what the monitor keeps at most. -/
structure Level (g : Gate) (env env' : Env) : Prop where
  ownClock_eq : env'.store.ownClock = env.store.ownClock
  slot_eq : ∀ key, g.Elsewhere key → env'.slot key = env.slot key

theorem watches_pathless (a : Action) : a.pathless.watches = a.watches := by
  cases a <;> rfl

theorem watches_of_pathless (h : a'.pathless = a.pathless) : a'.watches = a.watches := by
  rw [← watches_pathless a', h, watches_pathless]

/-- **A step is answered alike and leaves the stores level**, as long as only calls of the monitors
are made to fail. -/
theorem take_of_level (hg : g.Built pl) (hs : s.Parallel s') (h : g.Level env env')
    (hu : ((g.take s).on env).2.Unharmed g.Elsewhere)
    (hu' : (((g.watchedBy m).take s').on env').2.Unharmed g.Elsewhere) :
    (s.action.watches = false →
      (((g.watchedBy m).take s').on env').1 = ((g.take s).on env).1) ∧
      g.Level ((g.take s).on env).2 (((g.watchedBy m).take s').on env').2 := by
  have hmatch : (s.env env).Matches g.Elsewhere (s'.env env') :=
    ⟨hs.now_eq, h.ownClock_eq, hs.outage_eq, h.slot_eq⟩
  cases hw : s.action.watches with
  | false =>
    obtain ⟨hanswer, hafter⟩ :=
      (twins_perform hg hs.pathless_eq hw).alongside (s.env env) (s'.env env') hmatch hu hu'
    exact ⟨fun _ => hanswer, hafter.store.ownClock_eq, hafter.store.slot_eq⟩
  | true =>
    have hw' := (watches_of_pathless hs.pathless_eq).trans hw
    have hafter := hmatch.of_frames ((uses_perform_of_watches g g.monitor.settings hw).touches _)
      ((uses_perform_of_watches g m hw').touches _) (fun _ => not_not_intro) fun _ => not_not_intro
    exact ⟨nofun, hafter.store.ownClock_eq, hafter.store.slot_eq⟩

/-! ## Runs -/

/-- In a run all calls that are made to fail are on keys of `K`. -/
def FailsOnly (g : Gate) (K : String → Prop) : List Step → Env → Prop
  | [], _ => True
  | s :: run, env =>
    ((g.take s).on env).2.Unharmed (fun key => ¬ K key) ∧ g.FailsOnly K run ((g.take s).on env).2

/-- The answers of a run to all that is not asked of the monitor. -/
def unwatched (g : Gate) (run : List Step) (env : Env) : List Answer :=
  ((g.traced run env).filter fun x => !x.1.action.watches).map Prod.snd

theorem unwatched_cons (g : Gate) (s : Step) (run : List Step) (env : Env) :
    g.unwatched (s :: run) env =
      if s.action.watches then g.unwatched run ((g.take s).on env).2
      else ((g.take s).on env).1 :: g.unwatched run ((g.take s).on env).2 := by
  unfold unwatched
  rw [traced_cons, List.filter_cons]
  cases hw : s.action.watches <;> simp

theorem replay_of_level (hg : g.Built pl) (hruns : List.Forall₂ Step.Parallel run run')
    (h : g.Level env env') (hu : g.FailsOnly (g.monitor.shelf.Under "vm:") run env)
    (hu' : (g.watchedBy m).FailsOnly (g.monitor.shelf.Under "vm:") run' env') :
    (g.watchedBy m).unwatched run' env' = g.unwatched run env ∧
      ∀ n, g.Level (g.left (run.take n) env) ((g.watchedBy m).left (run'.take n) env') := by
  induction hruns generalizing env env' with
  | nil =>
    refine ⟨rfl, fun n => ?_⟩
    rw [List.take_nil]
    exact h
  | @cons s s' run run' hs _ ih =>
    obtain ⟨hu, hrest⟩ := hu
    obtain ⟨hu', hrest'⟩ := hu'
    obtain ⟨hanswer, hlevel⟩ := take_of_level hg hs h hu hu'
    obtain ⟨hanswers, hlevels⟩ := ih hlevel hrest hrest'
    refine ⟨?_, fun n => ?_⟩
    · rw [unwatched_cons, unwatched_cons, watches_of_pathless hs.pathless_eq]
      cases hw : s.action.watches with
      | true => exact hanswers
      | false => exact congrArg₂ List.cons (hanswer hw) hanswers
    · cases n with
      | zero => exact h
      | succ n => exact hlevels n

/-- **The monitor never decides.**  Let two gates be built from plans that differ in the settings of
the monitor at most, and let them start on the same clock from stores that have the same under every
key but the monitor's, where each may have anything.  Let the same be asked of both at the same
instants, but for the paths of requests; let the store be away at the same steps, and let calls on
keys of the monitor, and no others, fail in any way, in each run in its own.  Then all requests,
reports, resets and questions about circuits are answered alike, and after every step the stores
have the same under every key but the monitor's. -/
theorem answers_eq_of_monitors (pl : Plan) (m : Violation.Settings) (g g' : Gate)
    (built built₁ built' built₁' : Env) (hbuild : pl.build.on built = (.ok g, built₁))
    (hbuild' : ({ pl with monitor := m } : Plan).build.on built' = (.ok g', built₁'))
    (env env' : Env) (hclock : env'.store.ownClock = env.store.ownClock)
    (hslot : ∀ key, g.Elsewhere key → env'.slot key = env.slot key) (run run' : List Step)
    (hruns : List.Forall₂ Step.Parallel run run')
    (hfails : g.FailsOnly (g.monitor.shelf.Under "vm:") run env)
    (hfails' : g'.FailsOnly (g'.monitor.shelf.Under "vm:") run' env') :
    g'.unwatched run' env' = g.unwatched run env ∧
      ∀ n key, g.Elsewhere key →
        (g'.left (run'.take n) env').slot key = (g.left (run.take n) env).slot key := by
  have hg := Plan.built_of_build hbuild
  obtain rfl := hg.eq_watchedBy (Plan.built_of_build hbuild')
  obtain ⟨hanswers, hlevel⟩ := replay_of_level hg hruns ⟨hclock, hslot⟩ hfails hfails'
  exact ⟨hanswers, fun n => (hlevel n).slot_eq⟩

/-- A request of which the call with a number fails. -/
def watchedRequest (path : String) (failing : Nat) : Step :=
  ⟨0, false, fun n => if n = failing then some (.unavailable "gone") else none,
    .request (.user "alice") path "login"⟩

/-- A request of which a call fails, a request that finds the store away, a report, and a question
to the monitor. -/
def watchedRun (path : String) (failing : Nat) : List Step :=
  [watchedRequest path failing,
    ⟨1, true, fun _ => none, .request (.user "alice") path "login"⟩,
    .at 2 (.report (.user "alice") false), .at 3 (.stats (.user "alice"))]

/-- A store that has a byte in place of the outcomes of an hour. -/
def garbled : Store :=
  ((Store.empty none).set 0 "admission:vm:hour:0:user:alice" [7] none).2

/-- A step is unharmed if the calls that fail are on other keys. -/
theorem unharmed_take {K : String → Prop}
    (h : ∀ n c, ((g.take s).on env).2.calls[n]? = some c → s.faults n ≠ none → ¬ K c.key) :
    ((g.take s).on env).2.Unharmed K := by
  have hsame : ((g.take s).on env).2.faults = s.faults :=
    ((uses_perform g s.action (fun _ => trivial) fun _ _ _ _ _ _ => trivial).steady
      (Env.steady_continues (fun _ => True) fun _ => True) (s.env env)).1
  intro n c hn hK
  rw [hsame]
  by_contra hfails
  exact h n c hn hfails hK

theorem failsOnly_watchedRun {path : String} {failing : Nat}
    (hlabel : g.monitor.shelf.label = Shelf.defaultLabel)
    (hcall : (((g.take (watchedRequest path failing)).on env).2.calls[failing]?).map Call.key =
      some "admission:vm:hour:0:user:alice") :
    g.FailsOnly (g.monitor.shelf.Under "vm:") (watchedRun path failing) env := by
  have hnone : ∀ {s : Step} {env : Env}, s.faults = (fun _ => none) →
      ((g.take s).on env).2.Unharmed fun key => ¬ g.monitor.shelf.Under "vm:" key := by
    intro s env hs
    refine unharmed_take fun n _ _ hfails => absurd ?_ hfails
    rw [hs]
  refine ⟨unharmed_take fun n c hn hfails => not_not_intro ?_, hnone rfl, hnone rfl, hnone rfl,
    trivial⟩
  have hfailing : n = failing := by
    by_contra hne
    exact hfails (if_neg hne)
  rw [hfailing] at hn
  rw [hn, Option.map_some] at hcall
  refine ⟨"hour:0:user:alice", ?_⟩
  rw [Option.some.inj hcall, Shelf.key, hlabel]
  rfl

/-- A gate on an empty store, and a gate that ranks one tracker, reports a second violation in a
minute and is on a garbled store, where the record is discarded in one call more.  The first gate
fails to read the record, the second one to delete it. -/
theorem answers_eq_watchedRun :
    let g := (Plan.twoPerSecond .standard .perTracker).validGate
    let g' := g.watchedBy ⟨1, 1⟩
    let env := Env.start 0 (.empty none)
    let env' := Env.start 0 garbled
    g'.unwatched (watchedRun "/b" 4) env' = g.unwatched (watchedRun "/a" 3) env ∧
      ∀ n key, g.Elsewhere key → (g'.left ((watchedRun "/b" 4).take n) env').slot key =
        (g.left ((watchedRun "/a" 3).take n) env).slot key := by
  intro g g' env env'
  obtain ⟨built, hbuild⟩ := Plan.build_twoPerSecond .standard rfl .perTracker env
  obtain ⟨built', hbuild'⟩ : ∃ built', ({ Plan.twoPerSecond .standard .perTracker with
      monitor := ⟨1, 1⟩ } : Plan).build.on env = (.ok g', built') := by
    refine Plan.build_of_valid ?_ ?_ ?_ rfl rfl env
    · simp [Plan.twoPerSecond]
    · exact Plan.policies_twoPerSecond .standard .perTracker
    · simp [Plan.twoPerSecond]
  have hslot : ∀ key, g.Elsewhere key → env'.slot key = env.slot key := by
    intro key hkey
    have hne : "admission:vm:hour:0:user:alice" ≠ key := by
      rintro rfl
      exact hkey ⟨"hour:0:user:alice", rfl⟩
    simp [Env.slot, env', env, Env.start, garbled, Store.set, Store.empty, TimedMap.set,
      Std.ExtTreeMap.getElem?_insert, hne]
  have hfails : g.FailsOnly (g.monitor.shelf.Under "vm:") (watchedRun "/a" 3) env :=
    failsOnly_watchedRun rfl (by decide +kernel)
  have hfails' : g'.FailsOnly (g'.monitor.shelf.Under "vm:") (watchedRun "/b" 4) env' :=
    failsOnly_watchedRun rfl (by decide +kernel)
  have hruns : List.Forall₂ Step.Parallel (watchedRun "/a" 3) (watchedRun "/b" 4) :=
    .cons ⟨rfl, rfl, rfl⟩ (.cons ⟨rfl, rfl, rfl⟩ (.cons ⟨rfl, rfl, rfl⟩
      (.cons ⟨rfl, rfl, rfl⟩ .nil)))
  exact answers_eq_of_monitors (.twoPerSecond .standard .perTracker) ⟨1, 1⟩ g g' env built env
    built' hbuild hbuild' env env' rfl hslot _ _ hruns hfails hfails'

end Turnstile.Gate
