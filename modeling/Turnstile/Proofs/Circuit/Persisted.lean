import Turnstile.Proofs.Circuit.AtOnce
import Turnstile.Proofs.Circuit.Slot
import Turnstile.Proofs.Env.Noted

/-!
# What the log says of a circuit

The record of a circuit is what counts: it may be gone, expired or damaged, and is then that of a
fresh circuit.  An operation of the breaker moves it as a whole or leaves it as it is, and a failure
of any of its calls leaves it as it is.  Only what has been written is announced, so the events of
the log lead from one state of the record to the next one.

* `Breaker.current`: what counts of a circuit.
* `Circuit.announced`: the events that announce a change of state.
* `Breaker.Moves`: an operation on the store that moves a circuit, or fails.
* `Breaker.load_cases`, `Breaker.moves_advance`: reading a circuit, and bringing it to a record.
* `Breaker.Carries`: what an operation of the breaker makes of a circuit and tells of it.
* `Breaker.carries_operations`: the three operations on a circuit, whatever fails.
-/

set_option autoImplicit false

namespace Turnstile

open Circuit (Key)

namespace Circuit

/-- The message by which the log announces that a circuit has come to a state. -/
def State.notice : State → String
  | .closed => "Circuit closed after successful probes"
  | .open => "Circuit opened"
  | .halfOpen => "Circuit half-open, admitting probe"

/-- The events that announce what a circuit has come to: one, where the state is another one. -/
def announced (key : Key) (c c' : Circuit) : List Event :=
  if c'.state = c.state then []
  else
    match c'.state with
    | .closed => [.circuitClosed key]
    | .open => [.circuitOpened key c.state c'.failures]
    | .halfOpen => [.probeAdmitted key]

variable {key : Key} {c c' : Circuit} {t : Thresholds} {now : UInt64}

theorem announced_of_state (h : c'.state = c.state) : announced key c c' = [] := if_pos h

theorem announced_self (key : Key) (c : Circuit) : announced key c c = [] := announced_of_state rfl

theorem announced_informs : ∀ e ∈ announced key c c', e.informs := by
  unfold announced
  split
  · simp
  · split <;> simp [Event.informs, Event.level]

/-- A state is announced where a circuit has come to it from another one. -/
theorem announced_iff (state : State) :
    (∃ e ∈ announced key c c', e.message = state.notice) ↔ c'.state = state ∧ c.state ≠ state := by
  unfold announced
  by_cases h : c'.state = c.state
  · simp [h]
  · rw [if_neg h]
    cases hs : c'.state <;> cases state <;> simp [Event.message, State.notice] <;>
      exact fun e => h (hs.trans e.symm)

/-! ## The events of the breaker -/

theorem announced_poll (h : (c.poll t now).2 ≠ c) :
    announced key c (c.poll t now).2 = [.probeAdmitted key] := by
  have hstate : (c.poll t now).2.state ≠ c.state := fun e => h (snd_poll_eq_iff.mpr e)
  rw [announced, if_neg hstate]
  unfold poll at hstate ⊢
  cases hs : c.state with
  | closed => simp [hs] at hstate
  | halfOpen => simp [hs] at hstate
  | «open» => cases hr : c.rested t now <;> simp [hs, hr] at hstate ⊢

theorem announced_succeed (key : Key) (c : Circuit) (t : Thresholds) :
    announced key c (c.succeed t) = (Breaker.successEvent key c (c.succeed t)).toList := by
  unfold announced Breaker.successEvent succeed
  cases hs : c.state with
  | closed => simp
  | halfOpen => by_cases hle : t.successes ≤ satSucc32 c.successes <;> simp [hle, fresh]
  | «open» => simp [hs]

theorem announced_fail (h : c.fail t now ≠ c) :
    announced key c (c.fail t now) = (Breaker.failureEvent key c (c.fail t now)).toList := by
  unfold announced Breaker.failureEvent
  unfold fail at h ⊢
  cases hs : c.state with
  | closed => by_cases hle : t.failures ≤ satSucc32 c.failures <;> simp [hle, trip]
  | halfOpen => simp [trip]
  | «open» => simp [hs] at h

end Circuit

namespace Breaker

open Circuit (announced)

variable {α : Type} {b : Breaker} {key : Key} {move : Circuit → Circuit} {env env₁ : Env}

/-- What counts of a circuit: its record in the store, or that of a fresh one. -/
def current (b : Breaker) (key : Key) (env : Env) : Circuit :=
  (env.record Circuit b.shelf key.text).getD .fresh

/-- Records that are written at this instant are there at this instant. -/
def Retains (b : Breaker) (env : Env) : Prop :=
  env.store.time env.now < satAdd (env.store.time env.now) b.settings.recordTtl.millis

theorem retains_of_recovery (hrecovery : 500000 ≤ b.settings.recovery.nanos)
    (htime : env.store.time env.now < maxWord) : b.Retains env := by
  rw [Retains, lt_satAdd_iff htime]
  have := b.settings.recordTtl_eq_zero_iff
  omega

theorem Retains.of_frame {K : String → Prop} (h : b.Retains env) (hf : Env.Frame K env env₁) :
    b.Retains env₁ := by
  unfold Retains Store.time at h ⊢
  rwa [hf.now_eq, hf.ownClock_eq]

/-! ## Operations on the store -/

/-- An operation fails and leaves a circuit as it is, without news; or it moves the circuit and
announces what the circuit has come to. -/
def Moves (b : Breaker) (key : Key) (move : Circuit → Circuit) (x : StoreM α) (answer : α)
    (env : Env) : Prop :=
  (∃ e env', x.on env = (.error e, env') ∧ env.Noted [e] [] env' ∧
      b.current key env' = b.current key env) ∨
    ∃ env', x.on env = (.ok answer, env') ∧ b.current key env' = move (b.current key env) ∧
      env.Noted [] (announced key (b.current key env) (move (b.current key env))) env'

/-- Reading a circuit leaves it as it is. -/
theorem load_cases (b : Breaker) (key : Key) (env : Env) :
    (∃ e env', (b.load key).on env = (.error e, env') ∧ env.Noted [e] [] env' ∧
        b.current key env' = b.current key env) ∨
      ∃ env', (b.load key).on env = (.ok (b.current key env), env') ∧ env.Noted [] [] env' ∧
        b.current key env' = b.current key env ∧ env'.now = env.now ∧
        (b.Retains env → b.Retains env') := by
  have hnoted := b.shelf.silent_load (α := Circuit) key.text env
  have hrecord := b.shelf.record_load (α := Circuit) key.text env
  have hframe : Env.Frame (· = b.shelf.key key.text) env
      ((b.shelf.load key.text : StoreM (Option Circuit)).on env).2 :=
    (Shelf.uses_load (α := Circuit) (K := (· = b.shelf.key key.text)) rfl).touches env
  rcases hload : (b.shelf.load key.text : StoreM (Option Circuit)).on env with ⟨e | r, env'⟩ <;>
    rw [hload] at hnoted hrecord hframe
  · refine .inl ⟨e, env', ?_, hnoted, congrArg (·.getD .fresh) hrecord⟩
    rw [load, StoreM.on_bind, hload]
  · obtain rfl := (Shelf.load_ok hload).1
    refine .inr ⟨env', ?_, hnoted, congrArg (·.getD .fresh) hrecord, hframe.now_eq, ?_⟩
    · rw [load, StoreM.on_bind_of_ok hload, StoreM.on_pure, current]
    · exact fun hretains => hretains.of_frame hframe

/-- Bringing a circuit to the next record announces the state, if the event is the right one. -/
theorem moves_advance (hretains : b.Retains env) (key : Key) (move : Circuit → Circuit)
    (event : Option Event) (hevent : move (b.current key env) ≠ b.current key env →
      announced key (b.current key env) (move (b.current key env)) = event.toList) :
    b.Moves key move
      (b.advance key (b.current key env) (move (b.current key env)) event) () env := by
  unfold advance
  by_cases hmove : move (b.current key env) = b.current key env
  · rw [if_pos hmove]
    refine .inr ⟨env, StoreM.on_pure _ _, hmove.symm, ?_⟩
    rw [hmove, Circuit.announced_self]
    exact .refl env
  · rw [if_neg hmove]
    rcases b.shelf.save_cases key.text
      (Circuit.exact_circuit (move (b.current key env))) hretains with
      ⟨e, env', hsave, hnoted, hrecord⟩ | ⟨env', hsave, hnoted, hrecord⟩
    · refine .inl ⟨e, env', ?_, hnoted, congrArg (·.getD .fresh) hrecord⟩
      rw [StoreM.on_bind, save, hsave]
    · have hcurrent : b.current key env' = move (b.current key env) :=
        congrArg (·.getD .fresh) hrecord
      refine .inr ?_
      cases event with
      | none =>
        refine ⟨env', StoreM.on_bind_of_ok hsave, hcurrent, ?_⟩
        rw [hevent hmove]
        exact hnoted
      | some e =>
        refine ⟨_, StoreM.on_bind_of_ok hsave, hcurrent, ?_⟩
        have hinforms : e.informs := Circuit.announced_informs e (by rw [hevent hmove]; simp)
        have hlog := hnoted.trans (env'.noted_log e)
        rw [List.filter_cons_of_pos hinforms] at hlog
        rw [hevent hmove]
        exact hlog

/-- An operation that reads a circuit and goes on with it. -/
theorem Moves.of_load {f : Circuit → StoreM α} {answer : α} (hretains : b.Retains env)
    (h : ∀ env₁, b.current key env₁ = b.current key env → env₁.now = env.now → b.Retains env₁ →
      b.Moves key move (f (b.current key env₁)) answer env₁) :
    b.Moves key move (b.load key >>= f) answer env := by
  rcases load_cases b key env with ⟨e, env₁, hload, hnoted, hcurrent⟩ |
    ⟨env₁, hload, hnoted, hcurrent, hnow, hretains₁⟩
  · exact .inl ⟨e, env₁, by rw [StoreM.on_bind, hload], hnoted, hcurrent⟩
  · rcases h env₁ hcurrent hnow (hretains₁ hretains) with ⟨e, env₂, hf, hnoted₂, hcurrent₂⟩ |
      ⟨env₂, hf, hcurrent₂, hnoted₂⟩
    · refine .inl ⟨e, env₂, ?_, hnoted.trans hnoted₂, hcurrent₂.trans hcurrent⟩
      rw [StoreM.on_bind_of_ok hload, ← hcurrent, hf]
    · rw [hcurrent] at hcurrent₂ hnoted₂
      refine .inr ⟨env₂, ?_, hcurrent₂, hnoted.trans hnoted₂⟩
      rw [StoreM.on_bind_of_ok hload, ← hcurrent, hf]

theorem Moves.bind_pure {x : StoreM Unit} (h : b.Moves key move x () env) (answer : α) :
    b.Moves key move (x >>= fun _ => pure answer) answer env := by
  rcases h with ⟨e, env', hx, hnoted, hcurrent⟩ | ⟨env', hx, hmoved⟩
  · exact .inl ⟨e, env', by rw [StoreM.on_bind, hx], hnoted, hcurrent⟩
  · exact .inr ⟨env', by rw [StoreM.on_bind_of_ok hx, StoreM.on_pure], hmoved⟩

theorem moves_trySuccess (hretains : b.Retains env) :
    b.Moves key (·.succeed b.thresholds) (b.trySuccess key) () env := by
  refine Moves.of_load hretains fun env₁ _ _ hretains₁ => ?_
  exact moves_advance hretains₁ key (·.succeed b.thresholds) _
    fun _ => Circuit.announced_succeed key _ _

theorem moves_tryFailure (hretains : b.Retains env) :
    b.Moves key (·.fail b.thresholds env.now) (b.tryFailure key) () env := by
  refine Moves.of_load hretains fun env₁ _ hnow hretains₁ => ?_
  have hadvance := moves_advance hretains₁ key (·.fail b.thresholds env.now) _
    fun hmove => Circuit.announced_fail hmove
  unfold Moves at hadvance ⊢
  rwa [StoreM.on_bind_of_ok (StoreM.on_now env₁), hnow]

theorem moves_tryAdmits (hretains : b.Retains env) :
    b.Moves key (fun c => (c.poll b.thresholds env.now).2) (b.tryAdmits key)
      ((b.current key env).poll b.thresholds env.now).1 env := by
  rw [tryAdmits_eq]
  refine Moves.of_load hretains fun env₁ hcurrent hnow hretains₁ => ?_
  have hadvance := (moves_advance hretains₁ key (fun c => (c.poll b.thresholds env.now).2)
    (some (.probeAdmitted key)) fun hmove => Circuit.announced_poll hmove).bind_pure
    ((b.current key env).poll b.thresholds env.now).1
  rw [← hcurrent] at hadvance ⊢
  unfold Moves at hadvance ⊢
  rwa [StoreM.on_bind_of_ok (StoreM.on_now env₁), hnow]

/-! ## Operations that always answer -/

/-- An operation brings a circuit to the next record as a whole, or meets a failure and leaves it as
it is; and it announces what the circuit has come to. -/
structure Carries (b : Breaker) (key : Key) (move : Circuit → Circuit) (x : GateM α)
    (env : Env) : Prop where
  /-- Nothing but the record of the circuit is touched. -/
  touches : Env.Frame (· = b.shelf.key key.text) env (x.on env).2
  kept : x.met env ≠ [] → b.current key (x.on env).2 = b.current key env
  moved : x.met env = [] → b.current key (x.on env).2 = move (b.current key env)
  news : x.news env = announced key (b.current key env) (b.current key (x.on env).2)
  /-- A state is announced if the circuit has come to it from another one, and only then. -/
  told : ∀ state, (∃ e ∈ x.news env, e.message = state.notice) ↔
    (b.current key (x.on env).2).state = state ∧ (b.current key env).state ≠ state

/-- What a failure is told of is no news. -/
theorem noted_storeFailed (key : Key) (e : StoreError) (env : Env) :
    env.Noted [] [] ((storeFailed key e).on env).2 := by
  have hlog := (env.noted_count .countStoreError).trans
    (((GateM.count .countStoreError).on env).2.noted_log (.circuitUnavailable e key))
  rwa [List.filter_cons_of_neg (by simp [Event.informs, Event.level])] at hlog

theorem current_storeFailed (b : Breaker) (key : Key) (e : StoreError) (env : Env) :
    b.current key ((storeFailed key e).on env).2 = b.current key env := rfl

theorem carries_of_noted {y : GateM α} {met : List StoreError} {news : List Event}
    (htouches : Env.Frame (· = b.shelf.key key.text) env (y.on env).2)
    (hnoted : env.Noted met news (y.on env).2)
    (hkept : met ≠ [] → b.current key (y.on env).2 = b.current key env)
    (hmoved : met = [] → b.current key (y.on env).2 = move (b.current key env))
    (hnews : news = announced key (b.current key env) (b.current key (y.on env).2)) :
    b.Carries key move y env := by
  have hnews' := hnoted.news_eq.trans hnews
  refine ⟨htouches, ?_, ?_, hnews', fun state => ?_⟩
  · rwa [hnoted.met_eq]
  · rwa [hnoted.met_eq]
  · rw [hnews', Circuit.announced_iff]

/-- An operation that moves a circuit or fails, with another answer where it fails. -/
theorem Moves.carries {x : StoreM α} {answer : α} (h : b.Moves key move x answer env)
    (other : α) {y : GateM α}
    (hok : ∀ env', x.on env = (.ok answer, env') → y.on env = (answer, env'))
    (herror : ∀ e env', x.on env = (.error e, env') →
      y.on env = (other, ((storeFailed key e).on env').2))
    (htouches : Env.Frame (· = b.shelf.key key.text) env (y.on env).2) :
    b.Carries key move y env ∧ (y.on env).1 = if y.met env = [] then answer else other := by
  rcases h with ⟨e, env', hx, hnoted, hcurrent⟩ | ⟨env', hx, hcurrent, hnoted⟩
  · have hy := herror e env' hx
    have hnoted : env.Noted [e] [] (y.on env).2 := by
      rw [hy]
      exact hnoted.trans (noted_storeFailed key e env')
    have hkept : b.current key (y.on env).2 = b.current key env := by
      rw [hy, current_storeFailed, hcurrent]
    refine ⟨carries_of_noted htouches hnoted (fun _ => hkept) nofun ?_, ?_⟩
    · rw [hkept, Circuit.announced_self]
    · rw [hnoted.met_eq, hy, if_neg (List.cons_ne_nil e [])]
  · have hy := hok env' hx
    have henv : (y.on env).2 = env' := by rw [hy]
    rw [← henv] at hnoted hcurrent
    refine ⟨carries_of_noted htouches hnoted (fun h => absurd rfl h) (fun _ => hcurrent) ?_, ?_⟩
    · rw [hcurrent]
    · rw [hnoted.met_eq, hy, if_pos rfl]

theorem Moves.carries_settle {x : StoreM Unit} (h : b.Moves key move x () env)
    (hx : x.Uses (· = b.shelf.key key.text)) : b.Carries key move (settle key x) env := by
  refine (h.carries () (fun env' hx => settle_of_ok hx) (fun e env' hx => ?_)
    ((uses_settle (C := fun _ => False) hx).touches env)).1
  simp only [settle, GateM.on_bind, GateM.on_attempt, hx]

/-- Asking a circuit: whoever meets a failure is let through. -/
theorem carries_admits (hretains : b.Retains env) (key : Key) :
    b.Carries key (fun c => (c.poll b.thresholds env.now).2) (b.admits key) env ∧
      ((b.admits key).on env).1 = if (b.admits key).met env = [] then
        ((b.current key env).poll b.thresholds env.now).1 else true := by
  refine (moves_tryAdmits hretains).carries true (fun env' hx => ?_) (fun e env' hx => ?_)
    ((uses_admits (K := (· = b.shelf.key key.text)) (C := fun _ => False) rfl).touches env)
  · simp only [admits, GateM.on_bind, GateM.on_attempt, hx, GateM.on_pure]
  · simp only [admits, GateM.on_bind, GateM.on_attempt, hx, GateM.on_pure]

/-- **The record of a circuit is moved as a whole or left as it is, and the log says which.**
Whatever the store has under the key of the circuit, whichever calls fail, and whether or not the
store goes by the clock of the gate: where records are kept for a millisecond or more,

* asking a circuit, counting a success and counting a failure bring what counts of the circuit to
  the record that the machine of circuits says, at the instant of the gate, if no call fails;
* if a call fails it is left as it is, and whoever asks is let through;
* an event of the log that says that the circuit is half-open, closed or open stands for a change of
  its state to that one, and each change of state has one. -/
theorem carries_operations (b : Breaker) (key : Key) (env : Env)
    (hrecovery : 500000 ≤ b.settings.recovery.nanos)
    (htime : env.store.time env.now < maxWord) :
    b.Carries key (fun c => (c.poll b.thresholds env.now).2) (b.admits key) env ∧
      ((b.admits key).on env).1 = (if (b.admits key).met env = [] then
        ((b.current key env).poll b.thresholds env.now).1 else true) ∧
      b.Carries key (·.succeed b.thresholds) (b.recordSuccess key) env ∧
      b.Carries key (·.fail b.thresholds env.now) (b.recordFailure key) env := by
  have hretains := retains_of_recovery hrecovery htime
  obtain ⟨hadmits, hanswer⟩ := carries_admits hretains key
  exact ⟨hadmits, hanswer, (moves_trySuccess hretains).carries_settle (uses_trySuccess rfl),
    (moves_tryFailure hretains).carries_settle (uses_tryFailure rfl)⟩

/-- A failure that cannot be written, as the second call meets a timeout, is not counted. -/
theorem kept_at_failedSave :
    let b := withRecovery 1000000
    let key := Key.ofTracker (.user "alice")
    let env := (Env.start 7 (.empty none)).restart fun n => if n = 1 then some .timeout else none
    500000 ≤ b.settings.recovery.nanos ∧ env.store.time env.now < maxWord ∧
      (b.recordFailure key).met env = [.timeout] ∧
      b.current key ((b.recordFailure key).on env).2 = b.current key env := by
  intro b key env
  have hrecovery : 500000 ≤ b.settings.recovery.nanos := by decide
  have htime : env.store.time env.now < maxWord := by decide
  have hmet : (b.recordFailure key).met env = [.timeout] := by decide +kernel
  refine ⟨hrecovery, htime, hmet, ?_⟩
  exact (carries_operations b key env hrecovery htime).2.2.2.kept (by rw [hmet]; decide)

end Breaker

end Turnstile
