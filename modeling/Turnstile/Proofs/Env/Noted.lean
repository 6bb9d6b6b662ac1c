import Turnstile.Proofs.Env.Failing
import Turnstile.Proofs.Env.Ledger

/-!
# What an operation meets and what it tells

An operation meets the failures of its calls on the store, and what it logs at the level of
information is news.  An operation on records has no news, and meets a failure only if it fails
itself, as the first call that fails ends it.

* `GateM.met`, `GateM.news`: the failures of the calls of an operation, and its news.
* `Env.Noted`: both between two surroundings, with `refl` and `trans`.
* `StoreM.Uses.met`: an operation on the store meets its own failure and no other.
* `StoreM.Silent`, `Shelf.silent_load`, `Shelf.silent_save`: operations without news.
* `Shelf.record_load`: reading a record leaves it as it is, whatever fails.
* `Shelf.save_cases`: a record is saved, or stays as it is.
-/

set_option autoImplicit false

namespace Turnstile

variable {α β : Type} {K : String → Prop} {env env₁ env' : Env}

/-- Whether an event is news. -/
def Event.informs (e : Event) : Bool := e.level = .info

/-- The failures that the calls of an operation meet, the first one first. -/
def GateM.met (x : GateM α) (env : Env) : List StoreError :=
  failures ((x.on env).2.calls.drop env.calls.length)

/-- What an operation logs at the level of information. -/
def GateM.news (x : GateM α) (env : Env) : List Event :=
  ((x.on env).2.events.drop env.events.length).filter Event.informs

/-- Between two surroundings calls were made that met some failures, and events logged of which some
are news. -/
def Env.Noted (met : List StoreError) (news : List Event) (env env' : Env) : Prop :=
  ∃ calls events, env'.calls = env.calls ++ calls ∧ env'.events = env.events ++ events ∧
    failures calls = met ∧ events.filter Event.informs = news

namespace Env

variable {met more : List StoreError} {news later : List Event}

theorem Noted.refl (env : Env) : env.Noted [] [] env := ⟨[], [], by simp, by simp, rfl, rfl⟩

theorem Noted.trans (h₁ : env.Noted met news env₁) (h₂ : env₁.Noted more later env') :
    env.Noted (met ++ more) (news ++ later) env' := by
  obtain ⟨calls, events, hcalls, hevents, hmet, hnews⟩ := h₁
  obtain ⟨calls', events', hcalls', hevents', hmet', hnews'⟩ := h₂
  refine ⟨calls ++ calls', events ++ events', ?_, ?_, ?_, ?_⟩
  · rw [hcalls', hcalls, List.append_assoc]
  · rw [hevents', hevents, List.append_assoc]
  · rw [failures_append, hmet, hmet']
  · rw [List.filter_append, hnews, hnews']

theorem noted_log (e : Event) (env : Env) :
    env.Noted [] ([e].filter Event.informs) ((GateM.log e).on env).2 :=
  ⟨[], [e], by simp, by simp, rfl, rfl⟩

theorem noted_count (f : Metrics → Metrics) (env : Env) :
    env.Noted [] [] ((GateM.count f).on env).2 :=
  ⟨[], [], by simp, by simp, rfl, rfl⟩

theorem Noted.met_eq {x : GateM α} (h : env.Noted met news (x.on env).2) : x.met env = met := by
  obtain ⟨calls, _, hcalls, _, hmet, _⟩ := h
  rw [GateM.met, hcalls, List.drop_left, hmet]

theorem Noted.news_eq {x : GateM α} (h : env.Noted met news (x.on env).2) : x.news env = news := by
  obtain ⟨_, events, _, hevents, _, hnews⟩ := h
  rw [GateM.news, hevents, List.drop_left, hnews]

end Env

/-! ## Operations on the store -/

namespace StoreM

/-- An operation that meets its own failure, if it fails, and no other, and that has no news. -/
def Silent (x : StoreM α) : Prop :=
  ∀ env : Env, env.Noted (owed (x.on env).1) [] (x.on env).2

theorem silent_pure (a : α) : (pure a : StoreM α).Silent := Env.Noted.refl

theorem silent_bind {x : StoreM α} {f : α → StoreM β} (hx : x.Silent) (hf : ∀ a, (f a).Silent) :
    (x >>= f).Silent := by
  intro env
  have hfirst := hx env
  rw [on_bind]
  rcases hr : x.on env with ⟨e | a, env₁⟩
  · rw [hr] at hfirst
    exact hfirst
  · rw [hr] at hfirst
    exact hfirst.trans (hf a env₁)

theorem silent_log {e : Event} (h : e.informs = false) :
    (liftM (GateM.log e) : StoreM Unit).Silent := by
  intro env
  have hlog := env.noted_log e
  rw [List.filter_cons_of_neg (by simp [h]), List.filter_nil] at hlog
  exact hlog

theorem silent_call {op : UInt64 → Store → Except StoreError α × Store}
    {record : Except StoreError α → Call}
    (hrecord : ∀ answer, failures [record answer] = owed answer) : (call op record).Silent := by
  intro env
  rw [on_call]
  split
  · exact ⟨[_], [], rfl, by simp, hrecord _, rfl⟩
  · exact ⟨[_], [], rfl, by simp, hrecord _, rfl⟩

theorem silent_get (key : String) : (get key).Silent :=
  silent_call fun answer => by cases answer <;> rfl

theorem silent_set (key : String) (value : Bytes) (ttl : Option Duration) :
    (set key value ttl).Silent :=
  silent_call fun answer => by cases answer <;> rfl

theorem silent_delete (key : String) : (delete key).Silent :=
  silent_call fun answer => by cases answer <;> rfl

/-- **An operation on the store meets its own failure**, if it fails, and no other one. -/
theorem Uses.met {x : StoreM α} (h : x.Uses K) (env : Env) :
    x.attempt.met env = owed (x.on env).1 := by
  suffices hmet : ∃ calls, (x.on env).2.calls = env.calls ++ calls ∧
      failures calls = owed (x.on env).1 by
    obtain ⟨calls, hcalls, hfailures⟩ := hmet
    rw [GateM.met, GateM.on_attempt, hcalls, List.drop_left, hfailures]
  have hcall : ∀ {γ : Type} {y : StoreM γ}, y.Silent → ∀ env : Env,
      ∃ calls, (y.on env).2.calls = env.calls ++ calls ∧ failures calls = owed (y.on env).1 := by
    intro γ y hy env
    obtain ⟨calls, _, hcalls, _, hfailures, _⟩ := hy env
    exact ⟨calls, hcalls, hfailures⟩
  induction h generalizing env with
  | pure a => exact ⟨[], by simp, rfl⟩
  | @bind _ _ x f _ _ hx hf =>
    obtain ⟨calls, hcalls, hfailures⟩ := hx env
    rw [on_bind]
    rcases hr : x.on env with ⟨e | a, env₁⟩
    · rw [hr] at hcalls hfailures
      exact ⟨calls, hcalls, hfailures⟩
    · rw [hr] at hcalls hfailures
      obtain ⟨calls', hcalls', hfailures'⟩ := hf a env₁
      dsimp only at hcalls
      refine ⟨calls ++ calls', ?_, ?_⟩
      · rw [hcalls', hcalls, List.append_assoc]
      · rw [failures_append, hfailures, hfailures']
        rfl
  | now => exact ⟨[], by simp, rfl⟩
  | log _ _ => exact ⟨[], by simp, rfl⟩
  | alarm _ _ hx => exact hx _
  | get _ => exact hcall (silent_get _) env
  | set _ value ttl => exact hcall (silent_set _ _ _) env
  | delete _ => exact hcall (silent_delete _) env

/-- Neither does one that goes on without a call meet another failure. -/
theorem Uses.met_of_calls {x : StoreM α} (h : x.Uses K) {y : GateM β}
    (hcalls : (y.on env).2.calls = (x.on env).2.calls) : y.met env = owed (x.on env).1 := by
  rw [← h.met env, GateM.met, GateM.met, GateM.on_attempt, hcalls]

end StoreM

/-! ## Records -/

variable [Binary α] {s : Shelf} {name : String}

/-- An entry that has expired makes no difference to the record that is read. -/
theorem recordIn_live (now : UInt64) (slot : Option Entry) :
    recordIn α now (slot.filter fun e => !e.expired now) = recordIn α now slot := by
  unfold recordIn readable
  rw [Option.filter_filter]
  congr 2
  funext e
  cases he : e.expired now <;> simp [Entry.holds, he]

namespace Shelf

theorem silent_load (s : Shelf) (name : String) : (s.load name : StoreM (Option α)).Silent := by
  refine StoreM.silent_bind (StoreM.silent_get _) fun v => ?_
  split
  · exact StoreM.silent_pure none
  · split
    · exact StoreM.silent_pure _
    · exact StoreM.silent_bind (StoreM.silent_log rfl) fun _ =>
        StoreM.silent_bind (StoreM.silent_delete _) fun _ => StoreM.silent_pure none

theorem silent_save (s : Shelf) (name : String) (a : α) (ttl : Option Duration) :
    (s.save name a ttl).Silent :=
  StoreM.silent_set _ _ _

/-- **Reading a record leaves it as it is**, whatever the slot has and whichever call fails. -/
theorem record_load (s : Shelf) (name : String) (env : Env) :
    ((s.load name : StoreM (Option α)).on env).2.record α s name = env.record α s name := by
  have hf : Env.Frame (· = s.key name) env ((s.load name : StoreM (Option α)).on env).2 :=
    (uses_load (α := α) (K := (· = s.key name)) rfl).touches env
  have htime : ((s.load name : StoreM (Option α)).on env).2.store.time
      ((s.load name : StoreM (Option α)).on env).2.now = env.store.time env.now := by
    unfold Store.time
    rw [hf.now_eq, hf.ownClock_eq]
  rw [Env.record, htime, Env.record]
  -- the slot is left alone, or loses an entry from which no record is read
  unfold load
  rw [StoreM.on_bind]
  rcases hget : (StoreM.get (s.key name)).on env with ⟨e | v, env₁⟩
  · rw [(StoreM.quiet_get hget).same.slot_eq _ id]
  · obtain ⟨hv, hslot⟩ := StoreM.get_ok hget
    have hlive : recordIn α (env.store.time env.now) (env₁.slot (s.key name)) =
        recordIn α (env.store.time env.now) (env.slot (s.key name)) := by
      rw [hslot, recordIn_live]
    cases v with
    | none => exact hlive
    | some bytes =>
      cases hr : (Binary.read? bytes : Option α) with
      | some a =>
        simp only [hr]
        exact hlive
      | none =>
        have hnone : recordIn α (env.store.time env.now) (env.slot (s.key name)) = none := by
          obtain ⟨e, he, rfl⟩ := Option.map_eq_some_iff.mp hv.symm
          rw [← recordIn_live, he, recordIn_some, hr, ite_self]
        simp only [hr]
        rw [StoreM.on_bind_of_ok (StoreM.on_lift _ _), StoreM.on_bind]
        rcases hdel : (StoreM.delete (s.key name)).on
          ((GateM.log (.recordDiscarded (s.key name))).on env₁).2 with ⟨e | _, env₂⟩
        · have hkept : env₂.slot (s.key name) = env₁.slot (s.key name) :=
            (StoreM.quiet_delete hdel).same.slot_eq _ id
          dsimp only
          rw [hkept, hlive]
        · dsimp only
          rw [StoreM.on_pure, StoreM.delete_ok hdel, hnone]
          rfl

/-- **A record is saved, or it stays as it is** and the failure is met. -/
theorem save_cases (s : Shelf) (name : String) {a : α} (ha : Binary.Exact a) {ttl : Duration}
    (httl : env.store.time env.now < satAdd (env.store.time env.now) ttl.millis) :
    (∃ e env', (s.save name a (some ttl)).on env = (.error e, env') ∧ env.Noted [e] [] env' ∧
        env'.record α s name = env.record α s name) ∨
      ∃ env', (s.save name a (some ttl)).on env = (.ok (), env') ∧ env.Noted [] [] env' ∧
        env'.record α s name = some a := by
  have hnoted := s.silent_save name a (some ttl) env
  rcases hsave : (s.save name a (some ttl)).on env with ⟨e | _, env'⟩ <;> rw [hsave] at hnoted
  · refine .inl ⟨e, env', rfl, hnoted, ?_⟩
    exact Env.record_of_frame (StoreM.quiet_set hsave).same id
  · have hput := StoreM.set_ok hsave
    refine .inr ⟨env', rfl, hnoted, ?_⟩
    rw [Env.record, Store.time, hput.frame.now_eq, hput.frame.ownClock_eq, hput.slot_key]
    exact recordIn_entryAt ha httl

end Shelf

end Turnstile
