import Turnstile.Proofs.Env.Ledger
import Turnstile.Proofs.Gate.Actions

/-!
# The counters of a gate

Whatever a gate is asked, and whichever calls on the store fail, its counters are those that its
answers, its calls and its log tell: each decision is counted as what it is, each call that fails
once, and each report of an attack once.

* `Event.warning_iff`, `Event.lookup_error`: the events that tell of a failure, and what they tell.
* `Env.Decided`: the counters of decisions are ahead by some answers.
* `Gate.decided_perform`, `Gate.booked_perform`: what any action does to the counters.
* `Gate.calls`, `Gate.events`: the calls and the events of a run.
* `Gate.metrics_of_run`: the counters after a run.
-/

set_option autoImplicit false

namespace Turnstile

/-! ## Events -/

namespace Event

/-- A warning about a failure of the store, rather than one about a record that cannot be read. -/
def warnsOfFailure (e : Event) : Bool :=
  e.level = .warn && e.message != "Discarding undecodable record"

/-- An error for those who watch security. -/
def alarms (e : Event) : Bool := e.level = .error && e.security

/-- The warnings, but for those of undecodable records, are the events that tell of a failure. -/
theorem warnsOfFailure_eq (e : Event) : e.warnsOfFailure = e.error?.isSome := by
  cases e <;> rfl

theorem alarms_eq (e : Event) : e.alarms = e.security := by
  cases e <;> rfl

/-- **A warning carries the text of the failure** that it tells of. -/
theorem lookup_error {e : Event} {failure : StoreError} (h : e.error? = some failure) :
    e.fields.lookup "error" = some failure.message := by
  cases e <;> simp [error?] at h <;> simp [fields, h]

/-- The texts that the warnings carry are those of the failures that they tell of. -/
theorem map_lookup_error (events : List Event) :
    (events.filter warnsOfFailure).map (fun e => e.fields.lookup "error") =
      (told events).map fun failure => some failure.message := by
  induction events with
  | nil => rfl
  | cons e events ih =>
    cases he : e.error? with
    | none => simpa [told, warnsOfFailure_eq, he] using ih
    | some failure => simpa [told, warnsOfFailure_eq, he, lookup_error he] using ih

end Event

/-! ## Decisions -/

open Gate (Answer Action Step)

/-- Between two surroundings some answers were given, and the counters of decisions are ahead by
those of them that admit, that deny for the quota, and that deny for an open circuit. -/
structure Env.Decided (answers : List Answer) (env env' : Env) : Prop where
  admitted : env'.metrics.admitted = env.metrics.admitted + .ofNat (answers.countP Answer.admits)
  rateLimited :
    env'.metrics.rateLimited = env.metrics.rateLimited + .ofNat (answers.countP Answer.limited)
  circuitRejected :
    env'.metrics.circuitRejected = env.metrics.circuitRejected + .ofNat (answers.countP Answer.shut)

namespace Env.Decided

variable {answers more : List Answer} {env env₁ env₂ : Env}

theorem refl (env : Env) : env.Decided [] env := ⟨by simp, by simp, by simp⟩

theorem trans (h : env.Decided answers env₁) (h' : env₁.Decided more env₂) :
    env.Decided (answers ++ more) env₂ := by
  refine ⟨?_, ?_, ?_⟩
  · rw [h'.admitted, h.admitted, List.countP_append, UInt64.ofNat_add, UInt64.add_assoc]
  · rw [h'.rateLimited, h.rateLimited, List.countP_append, UInt64.ofNat_add, UInt64.add_assoc]
  · rw [h'.circuitRejected, h.circuitRejected, List.countP_append, UInt64.ofNat_add,
      UInt64.add_assoc]

/-- Only the counters matter. -/
theorem congr {env' env₃ : Env} (h : env.Decided answers env₁)
    (heq : env'.metrics.decided = env.metrics.decided)
    (heq₁ : env₃.metrics.decided = env₁.metrics.decided) : env'.Decided answers env₃ := by
  obtain ⟨hadmitted, hlimited, hrejected⟩ := h
  simp only [Metrics.decided, Prod.mk.injEq] at heq heq₁
  obtain ⟨ha, hl, hr⟩ := heq
  obtain ⟨ha₁, hl₁, hr₁⟩ := heq₁
  exact ⟨by rw [ha, ha₁, hadmitted], by rw [hl, hl₁, hlimited], by rw [hr, hr₁, hrejected]⟩

/-- What is no decision counts for none. -/
theorem of_other {answer : Answer} (h : ∀ d, answer ≠ .decision d)
    (heq : env₁.metrics.decided = env.metrics.decided) : env.Decided [answer] env₁ := by
  have hnone : env.Decided [answer] env := by
    cases answer with
    | decision d => exact absurd rfl (h d)
    | _ => exact ⟨by simp [Answer.admits], by simp [Answer.limited], by simp [Answer.shut]⟩
  exact hnone.congr rfl heq

end Env.Decided

/-- The counter of a decision. -/
def Decision.counter (d : Decision) : Metrics → Metrics :=
  if d.allowed then .countAdmitted
  else if d.circuitOpen then .countCircuitRejected else .countRateLimited

/-- A decision is counted by its counter. -/
theorem Env.decided_counter (d : Decision) (env : Env) :
    env.Decided [.decision d] ((GateM.count d.counter).on env).2 := by
  unfold Decision.counter
  cases ha : d.allowed <;> cases ho : d.circuitOpen <;> constructor <;>
    simp [ha, ho, Answer.admits, Answer.limited, Answer.shut, Metrics.countAdmitted,
      Metrics.countCircuitRejected, Metrics.countRateLimited]

namespace Gate

/-- What the limiter says is counted as what it says. -/
theorem decided_settle (g : Gate) (t : Tracker) (path : String) (p : Policy) (o : Outcome)
    (env : Env) : env.Decided [.decision (ruling p o)] ((g.settle t path p o).on env).2 := by
  have hcount := env.decided_counter (ruling p o)
  unfold settle
  cases ho : o.allowed with
  | true =>
    have hcounter : (ruling p o).counter = .countAdmitted := by simp [Decision.counter, ruling, ho]
    rw [hcounter] at hcount
    rw [if_pos rfl, GateM.on_bind]
    exact hcount.congr rfl
      ((Breaker.uses_recordSuccess (K := fun _ => True) trivial).decided_eq _)
  | false =>
    have hcounter : (ruling p o).counter = .countRateLimited := by
      simp [Decision.counter, ruling, ho]
    rw [hcounter] at hcount
    rw [if_neg Bool.false_ne_true, GateM.on_bind]
    refine hcount.congr rfl (GateM.Uses.decided_eq (K := fun _ => True) ?_ _)
    exact .bind (Monitor.uses_recordViolation (fun _ _ => trivial) t path _) fun _ =>
      Breaker.uses_recordFailure trivial

/-- **A decision is counted once**, as what it is. -/
theorem decided_judge (g : Gate) (t : Tracker) (path : String) (p : Policy) (env : Env) :
    env.Decided [.decision ((g.judge t path p).on env).1] ((g.judge t path p).on env).2 := by
  have hopen : ((firstOpen g.breaker (g.guards t p)).on env).2.metrics.decided =
      env.metrics.decided :=
    (closed_firstOpen (GateM.closed_uses (fun _ => True) _) fun _ _ =>
      Breaker.uses_admits trivial).decided_eq env
  unfold judge
  rw [GateM.on_bind]
  rcases hfirst : (firstOpen g.breaker (g.guards t p)).on env with ⟨_ | key, env₁⟩
  · -- the limiter decides, and what it says is counted last
    rw [hfirst] at hopen
    have hasked : ((g.limiter.check t p >>= fun o => g.monitor.recordOutcome t path o.allowed).on
        env₁).2.metrics.decided = env₁.metrics.decided :=
      (GateM.Uses.bind (Limiter.uses_check (K := fun _ => True) trivial trivial) fun o =>
        Monitor.uses_recordOutcome (fun _ => trivial) path o.allowed).decided_eq env₁
    exact (decided_settle g t path p _ _).congr (hopen.symm.trans hasked.symm) rfl
  · -- a circuit refuses, and that is counted first
    rw [hfirst] at hopen
    have hcount := env₁.decided_counter ((g.refuse t path p key).on env₁).1
    have hrest : ((g.refuse t path p key).on env₁).2.metrics.decided =
        ((GateM.count .countCircuitRejected).on env₁).2.metrics.decided := by
      unfold refuse
      rw [GateM.on_bind]
      refine GateM.Uses.decided_eq (K := fun _ => True) ?_ _
      exact .bind (Monitor.uses_recordOutcome (fun _ => trivial) path false) fun _ =>
        .bind .now fun _ => .bind (Breaker.uses_status trivial) fun _ =>
          .bind (.log rfl rfl) fun _ => .pure _
    exact hcount.congr hopen.symm hrest

/-- **An action is counted as a decision if it is one.** -/
theorem decided_perform (g : Gate) (a : Action) (env : Env) :
    env.Decided [((g.perform a).on env).1] ((g.perform a).on env).2 := by
  by_cases ha : ∃ t path policy, a = .request t path policy
  · obtain ⟨t, path, policy, rfl⟩ := ha
    simp only [perform, GateM.on_bind, GateM.on_pure, request, withPolicy, Gate.policy]
    cases g.policies.get? policy with
    | none => exact .of_other (fun _ hd => by cases hd) rfl
    | some p => exact decided_judge g t path p env
  · have huses : (g.perform a).Uses (fun _ => True) fun _ => False :=
      uses_perform g a (fun _ => trivial) fun t path policy he => absurd ⟨t, path, policy, he⟩ ha
    exact .of_other (fun d hd => ha (request_of_decision hd)) (huses.decided_eq env)

/-- **The calls, the log and the counters of an action agree.** -/
theorem booked_perform (g : Gate) (a : Action) (env : Env) :
    env.Booked [] ((g.perform a).on env).2 := by
  have huses : (g.perform a).Uses (fun _ => True) Metrics.Deciding :=
    uses_perform g a (fun _ => trivial) fun _ _ _ _ _ => id
  refine huses.booked ?_ env
  rintro f (_ | _ | _) m <;> exact ⟨rfl, rfl⟩

/-! ## Runs -/

/-- The calls on the store that a run makes, the first one first. -/
def calls (g : Gate) : List Step → Env → List Call
  | [], _ => []
  | s :: run, env => ((g.take s).on env).2.calls ++ g.calls run ((g.take s).on env).2

/-- What a run writes to the log, the first event first. -/
def events (g : Gate) : List Step → Env → List Event
  | [], _ => []
  | s :: run, env => ((g.take s).on env).2.events ++ g.events run ((g.take s).on env).2

/-- **The counters of decisions after a run** are ahead by its answers. -/
theorem decided_replay (g : Gate) (run : List Step) (env : Env) :
    env.Decided ((g.replay run).on env).1 (g.left run env) := by
  induction run generalizing env with
  | nil => exact .refl env
  | cons s run ih =>
    have hfirst : env.Decided [((g.take s).on env).1] ((g.take s).on env).2 :=
      (decided_perform g s.action (s.env env)).congr rfl rfl
    rw [on_replay_cons, left_cons]
    exact hfirst.trans (ih _)

/-- **The calls of a run and its log tell the same**, and the counters of failures and of anomalies
are ahead by what they tell. -/
theorem told_replay (g : Gate) (run : List Step) (env : Env) :
    failures (g.calls run env) = told (g.events run env) ∧
    (g.left run env).metrics.storeErrors =
      env.metrics.storeErrors + .ofNat (told (g.events run env)).length ∧
    (g.left run env).metrics.anomalies =
      env.metrics.anomalies + .ofNat ((g.events run env).countP Event.security) := by
  induction run generalizing env with
  | nil => exact ⟨rfl, by simp [events, left, replay, told], by simp [events, left, replay]⟩
  | cons s run ih =>
    -- a step starts its own records of calls and events
    obtain ⟨calls, events, hcalls, hevents, hfailures, herrors, halarms⟩ :=
      booked_perform g s.action (s.env env)
    rw [← on_take] at hcalls hevents herrors halarms
    obtain ⟨hrest, hresterrors, hrestalarms⟩ := ih ((g.take s).on env).2
    have hcalls : ((g.take s).on env).2.calls = calls := hcalls
    have hevents : ((g.take s).on env).2.events = events := hevents
    simp only [Gate.calls, Gate.events, left_cons, hcalls, hevents, failures_append, told_append]
    refine ⟨?_, ?_, ?_⟩
    · rw [hfailures, hrest, List.append_nil]
    · rw [hresterrors, herrors, List.length_append, UInt64.ofNat_add, ← UInt64.add_assoc]
      rfl
    · rw [hrestalarms, halarms, List.countP_append, UInt64.ofNat_add, ← UInt64.add_assoc]
      rfl

/-- **The counters are an exact ledger.**  Let a gate start with its counters at zero, on whatever
the store has.  After any run, at which the store may be away and any calls on it may fail, and up
to the size of the words that count:

* the failures are as many as the calls that failed, and as many as the warnings, those of
  undecodable records aside; and the warnings carry the texts of these failures, in their order;
* the admissions, the denials for the quota and the refusals are as many as the decisions that the
  run was answered with admit, deny without an open circuit, and deny for one;
* the anomalies are as many as the errors in the log for those who watch security. -/
theorem metrics_of_run (g : Gate) (env : Env) (hzero : env.metrics = .zero) (run : List Step) :
    let m := (g.left run env).metrics
    let answers := ((g.replay run).on env).1
    let failed := failures (g.calls run env)
    let warnings := (g.events run env).filter Event.warnsOfFailure
    m.storeErrors = .ofNat failed.length ∧ m.storeErrors = .ofNat warnings.length ∧
    warnings.map (fun e => e.fields.lookup "error") = failed.map (fun e => some e.message) ∧
    m.admitted = .ofNat (answers.countP Answer.admits) ∧
    m.rateLimited = .ofNat (answers.countP Answer.limited) ∧
    m.circuitRejected = .ofNat (answers.countP Answer.shut) ∧
    m.anomalies = .ofNat ((g.events run env).countP Event.alarms) := by
  intro m answers failed warnings
  obtain ⟨htold, herrors, halarms⟩ := told_replay g run env
  obtain ⟨hadmitted, hlimited, hrejected⟩ := decided_replay g run env
  rw [hzero, Metrics.zero, UInt64.zero_add] at *
  have htexts : warnings.map (fun e => e.fields.lookup "error") =
      failed.map fun e => some e.message := by
    rw [Event.map_lookup_error, ← htold]
  have hlength : warnings.length = failed.length := by
    simpa only [List.length_map] using congrArg List.length htexts
  have herrors : m.storeErrors = .ofNat failed.length := by rw [herrors, ← htold]
  have hsecurity : Event.alarms = Event.security := funext Event.alarms_eq
  exact ⟨herrors, hlength ▸ herrors, htexts, hadmitted, hlimited, hrejected, hsecurity ▸ halarms⟩

/-- A gate that admits two requests a second, and opens a circuit at the first denial. -/
def strict : Gate := (Plan.twoPerSecond ⟨1, 1, .ofMillis 5000⟩ .perPolicy).validGate

/-- Four requests and a question while calls fail: the first one of the first request, the seventh
one of the third, and all of the question. -/
def troubled : List Step :=
  let ask (now : UInt64) (faults : Nat → Option StoreError) : Step :=
    ⟨now, false, faults, .request (.user "alice") "/" "login"⟩
  [ask 0 fun n => if n = 0 then some .timeout else none, ask 1 fun _ => none,
    ask 2 fun n => if n = 6 then some (.codec "cut short") else none, ask 3 fun _ => none,
    ⟨4, true, fun _ => none, .statusOf (.user "alice")⟩]

/-- The ledger of a run at which calls fail in three ways. -/
theorem metrics_of_troubled :
    let env := Env.start 0 (.empty none)
    let warnings := (strict.events troubled env).filter Event.warnsOfFailure
    let m := (strict.left troubled env).metrics
    env.metrics = .zero ∧ m.storeErrors = 3 ∧ warnings.length = 3 ∧
    warnings.map (fun e => e.fields.lookup "error") =
      [some "store operation timed out", some "store codec error: cut short",
        some "store unavailable: simulated outage"] ∧
    m.admitted = 2 ∧ m.rateLimited = 1 ∧ m.circuitRejected = 1 ∧ m.anomalies = 0 := by
  intro env warnings m
  obtain ⟨herrors, _, htexts, hadmitted, hlimited, hrejected, halarms⟩ :=
    metrics_of_run strict env rfl troubled
  have hfailed : failures (strict.calls troubled env) =
      [.timeout, .codec "cut short", Store.awayError] := by decide +kernel
  have hadmits : ((strict.replay troubled).on env).1.countP Answer.admits = 2 := by
    decide +kernel
  have hdenies : ((strict.replay troubled).on env).1.countP Answer.limited = 1 := by
    decide +kernel
  have hrefuses : ((strict.replay troubled).on env).1.countP Answer.shut = 1 := by
    decide +kernel
  have hattacks : (strict.events troubled env).countP Event.alarms = 0 := by decide +kernel
  rw [hfailed] at herrors htexts
  rw [hadmits] at hadmitted
  rw [hdenies] at hlimited
  rw [hrefuses] at hrejected
  rw [hattacks] at halarms
  have hwarnings : warnings.length = 3 := by
    have hlength := congrArg List.length htexts
    rwa [List.length_map, List.length_map] at hlength
  exact ⟨rfl, herrors, hwarnings, htexts, hadmitted, hlimited, hrejected, halarms⟩

end Gate

end Turnstile
