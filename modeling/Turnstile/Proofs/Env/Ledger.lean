import Turnstile.Proofs.Env.Uses

/-!
# What is written down of failures

A call on the store that fails is told of in the log and counted, once, by whoever made it; and a
report of an attack is counted as one.  So the log and the counters of an operation follow from each
other and from its calls.

* `failures`, `told`: the failures that calls meet, and those that events tell of.
* `Env.Booked`: calls, events and counters agree with each other, but for a failure that is not told
  of yet.
* `StoreM.Uses.booked`, `GateM.Uses.booked`: an operation on the store owes its own failure, and one
  of a gate owes nothing.
* `GateM.Uses.decided_eq`: what is not a decision is not counted as one.
-/

set_option autoImplicit false

namespace Turnstile

variable {α : Type} {K : String → Prop} {C : (Metrics → Metrics) → Prop} {env env₁ env₂ : Env}

/-- The failures that calls meet, the first one first. -/
def failures (calls : List Call) : List StoreError := calls.filterMap Call.error?

/-- The failures that events tell of, the first one first. -/
def told (events : List Event) : List StoreError := events.filterMap Event.error?

@[simp] theorem failures_append (calls more : List Call) :
    failures (calls ++ more) = failures calls ++ failures more :=
  List.filterMap_append

@[simp] theorem told_append (events more : List Event) :
    told (events ++ more) = told events ++ told more :=
  List.filterMap_append

/-- The counters that decisions move. -/
def Metrics.decided (m : Metrics) : UInt64 × UInt64 × UInt64 :=
  (m.admitted, m.rateLimited, m.circuitRejected)

/-! ## Calls, events and counters -/

/-- Between two surroundings some calls were made and some events logged.  The failures of the calls
are those that the events tell of, in the same order, and then those that are owed; the counters of
failures and of anomalies are ahead by what the events tell. -/
def Env.Booked (owed : List StoreError) (env env' : Env) : Prop :=
  ∃ calls events, env'.calls = env.calls ++ calls ∧ env'.events = env.events ++ events ∧
    failures calls = told events ++ owed ∧
    env'.metrics.storeErrors = env.metrics.storeErrors + .ofNat (told events).length ∧
    env'.metrics.anomalies = env.metrics.anomalies + .ofNat (events.countP Event.security)

/-- The failure that an answer stands for. -/
def StoreM.owed : Except StoreError α → List StoreError
  | .ok _ => []
  | .error e => [e]

namespace Env.Booked

variable {owed : List StoreError}

theorem refl (env : Env) : env.Booked [] env :=
  ⟨[], [], by simp, by simp, rfl, by simp [told], by simp⟩

theorem trans (h₁ : env.Booked [] env₁) (h₂ : env₁.Booked owed env₂) : env.Booked owed env₂ := by
  obtain ⟨calls, events, hcalls, hevents, hfailures, herrors, halarms⟩ := h₁
  obtain ⟨calls', events', hcalls', hevents', hfailures', herrors', halarms'⟩ := h₂
  refine ⟨calls ++ calls', events ++ events', ?_, ?_, ?_, ?_, ?_⟩
  · rw [hcalls', hcalls, List.append_assoc]
  · rw [hevents', hevents, List.append_assoc]
  · rw [failures_append, told_append, hfailures, hfailures', List.append_nil, List.append_assoc]
  · rw [herrors', herrors, told_append, List.length_append, UInt64.ofNat_add, UInt64.add_assoc]
  · rw [halarms', halarms, List.countP_append, UInt64.ofNat_add, UInt64.add_assoc]

/-- What is owed is told of and counted. -/
theorem settle {e : StoreError} {event : Event} (hevent : event.error? = some e)
    (h : env.Booked [e] env₁) :
    env.Booked [] ((GateM.log event).on ((GateM.count .countStoreError).on env₁).2).2 := by
  obtain ⟨calls, events, hcalls, hevents, hfailures, herrors, halarms⟩ := h
  have hsecurity : event.security = false := by
    cases event <;> simp [Event.error?] at hevent <;> rfl
  refine ⟨calls, events ++ [event], hcalls, ?_, ?_, ?_, ?_⟩
  · simp [hevents]
  · simp [hfailures, told, hevent]
  · simp [Metrics.countStoreError, herrors, told, hevent, UInt64.ofNat_add, UInt64.add_assoc]
  · simp [Metrics.countStoreError, halarms, hsecurity]

end Env.Booked

/-- A log entry that tells of nothing. -/
theorem Env.booked_log {e : Event} (herror : e.error? = none) (hsecurity : e.security = false)
    (env : Env) : env.Booked [] ((GateM.log e).on env).2 :=
  ⟨[], [e], by simp, by simp, by simp [failures, told, herror], by simp [told, herror],
    by simp [hsecurity]⟩

/-- The report of an attack and its count. -/
theorem Env.booked_alarm {e : Event} (hsecurity : e.security = true) (env : Env) :
    env.Booked [] ((GateM.log e).on ((GateM.count .countAnomaly).on env).2).2 := by
  have herror : e.error? = none := by
    cases e with
    | attackSuspected => rfl
    | _ => cases hsecurity
  exact ⟨[], [e], by simp, by simp, by simp [failures, told, herror],
    by simp [Metrics.countAnomaly, told, herror], by simp [Metrics.countAnomaly, hsecurity]⟩

/-- A counter of decisions is none of failures or anomalies. -/
theorem Env.booked_count {f : Metrics → Metrics}
    (hf : ∀ m, (f m).storeErrors = m.storeErrors ∧ (f m).anomalies = m.anomalies) (env : Env) :
    env.Booked [] ((GateM.count f).on env).2 :=
  ⟨[], [], by simp, by simp, rfl, by simp [told, hf], by simp [hf]⟩

namespace StoreM

/-- A call is recorded with its answer, and owes its failure. -/
theorem booked_call {op : UInt64 → Store → Except StoreError α × Store}
    {record : Except StoreError α → Call}
    (hrecord : ∀ answer, failures [record answer] = owed answer) (env : Env) :
    env.Booked (owed ((call op record).on env).1) ((call op record).on env).2 := by
  rw [on_call]
  split
  · exact ⟨[_], [], rfl, by simp, hrecord _, by simp [told], by simp⟩
  · exact ⟨[_], [], rfl, by simp, hrecord _, by simp [told], by simp⟩

/-- **An operation on the store owes its failure**, if it fails, and that of no other call. -/
theorem Uses.booked {x : StoreM α} (h : x.Uses K) (env : Env) :
    env.Booked (owed (x.on env).1) (x.on env).2 := by
  induction h generalizing env with
  | pure a => exact .refl env
  | @bind _ _ x f _ _ hx hf =>
    have hfirst := hx env
    rw [on_bind]
    rcases hr : x.on env with ⟨e | a, env₁⟩
    · rw [hr] at hfirst
      exact hfirst
    · rw [hr] at hfirst
      exact hfirst.trans (hf a env₁)
  | now => exact .refl env
  | log herror hsecurity => exact Env.booked_log herror hsecurity env
  | alarm hsecurity _ hx => exact (Env.booked_alarm hsecurity env).trans (hx _)
  | get _ => exact booked_call (fun answer => by cases answer <;> rfl) env
  | set _ _ _ => exact booked_call (fun answer => by cases answer <;> rfl) env
  | delete _ => exact booked_call (fun answer => by cases answer <;> rfl) env

end StoreM

namespace GateM

/-- **An operation of a gate owes nothing**: each failure of a call is told of and counted. -/
theorem Uses.booked
    (hC : ∀ f, C f → ∀ m, (f m).storeErrors = m.storeErrors ∧ (f m).anomalies = m.anomalies)
    {x : GateM α} (h : x.Uses K C) (env : Env) : env.Booked [] (x.on env).2 := by
  induction h generalizing env with
  | pure a => exact .refl env
  | bindOf _ hP _ hx hf => exact (hx env).trans (hf _ (hP env) _)
  | now => exact .refl env
  | log herror hsecurity => exact Env.booked_log herror hsecurity env
  | count hf => exact Env.booked_count (hC _ hf) env
  | @attempt _ _ x f y event hx _ hevent _ herror hok hy =>
    have hfirst := hx.booked env
    rw [on_bind, on_attempt]
    rcases hr : x.on env with ⟨e | a, env₁⟩
    · rw [hr] at hfirst
      rw [herror]
      exact (hfirst.settle (hevent e)).trans (hy e _)
    · rw [hr] at hfirst
      exact hfirst.trans (hok a env₁)

/-- **Without the counters of decisions nothing is decided.** -/
theorem Uses.decided_eq {x : GateM α} (h : x.Uses K fun _ => False) (env : Env) :
    (x.on env).2.metrics.decided = env.metrics.decided := by
  have hcall : ∀ {β : Type} (op : UInt64 → Store → Except StoreError β × Store)
      (record : Except StoreError β → Call) (env : Env),
      ((StoreM.call op record).on env).2.metrics.decided = env.metrics.decided := by
    intro β op record env
    rw [StoreM.on_call]
    split <;> rfl
  refine h.steady (R := fun env env' => env'.metrics.decided = env.metrics.decided) ?_ env
  refine ⟨fun _ => rfl, fun _ _ _ h h' => h'.trans h, fun _ _ => rfl, ?_, fun _ _ => hcall _ _,
    fun _ _ _ _ => hcall _ _, fun _ _ => hcall _ _⟩
  rintro f (hf | rfl | rfl) env
  · exact hf.elim
  · rfl
  · rfl

end GateM

end Turnstile
