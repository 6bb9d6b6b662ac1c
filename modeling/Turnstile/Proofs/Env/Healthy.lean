import Turnstile.Proofs.Env.Uses
import Turnstile.Proofs.Word

/-!
# Operations that meet no failure

Surroundings are healthy when no call fails and the store runs on the clock of its callers.  There
every operation on a shelf answers, and what it does is a change of one slot: `Env.Puts` says so,
and what is put in the slot depends on nothing but the slot and the clock.

* `Env.Puts`, `Env.Same`: what changes one slot, and what changes none.
* `Shelf.load_of_healthy`, `Shelf.save_of_healthy`, `Shelf.remove_of_healthy`: records by name.
* `Shelf.increment_of_healthy`, `Shelf.counter_of_healthy`: counters by name.
-/

set_option autoImplicit false

namespace Turnstile

variable {α β : Type}

/-- Surroundings in which no call on the store fails. -/
structure Env.Healthy (env : Env) : Prop where
  faults_eq : env.faults = fun _ => none
  outage_eq : env.store.outage = false
  ownClock_eq : env.store.ownClock = none

/-- `env'` is `env` with `slot` under a key, records of calls, events and metrics aside. -/
structure Env.Puts (env : Env) (key : String) (slot : Option Entry) (env' : Env) : Prop where
  frame : Env.Frame (· = key) env env'
  slot_key : env'.slot key = slot

namespace Env

variable {K : String → Prop} {env env' env₁ : Env} {key : String} {slot : Option Entry}

theorem healthy_start (now : UInt64) : (start now (.empty none)).Healthy := ⟨rfl, rfl, rfl⟩

theorem slot_start (now : UInt64) (key : String) : (start now (.empty none)).slot key = none :=
  Std.ExtTreeMap.getElem?_empty

theorem Healthy.of_frame (h : env.Healthy) (hf : Frame K env env') : env'.Healthy :=
  ⟨hf.faults_eq.trans h.faults_eq, hf.outage_eq.trans h.outage_eq,
   hf.ownClock_eq.trans h.ownClock_eq⟩

theorem Healthy.setClock (h : env.Healthy) (now : UInt64) : (env.setClock now).Healthy :=
  ⟨h.faults_eq, h.outage_eq, h.ownClock_eq⟩

@[simp] theorem slot_setClock (env : Env) (now : UInt64) (key : String) :
    (env.setClock now).slot key = env.slot key := rfl

@[simp] theorem now_setClock (env : Env) (now : UInt64) : (env.setClock now).now = now := rfl

@[simp] theorem events_setClock (env : Env) (now : UInt64) :
    (env.setClock now).events = env.events := rfl

namespace Puts

theorem healthy (h : env.Puts key slot env') (he : env.Healthy) : env'.Healthy :=
  he.of_frame h.frame

theorem now_eq (h : env.Puts key slot env') : env'.now = env.now := h.frame.now_eq

theorem slot_of_ne (h : env.Puts key slot env') {other : String} (hne : other ≠ key) :
    env'.slot other = env.slot other :=
  h.frame.slot_eq other hne

theorem refl (env : Env) (key : String) : env.Puts key (env.slot key) env := ⟨.refl _ env, rfl⟩

theorem log (env : Env) (key : String) (e : Event) :
    env.Puts key (env.slot key) ((GateM.log e).on env).2 :=
  ⟨GateM.touches_log e env, rfl⟩

theorem count (env : Env) (key : String) (f : Metrics → Metrics) :
    env.Puts key (env.slot key) ((GateM.count f).on env).2 :=
  ⟨GateM.touches_count f env, rfl⟩

theorem trans {slot₁ : Option Entry} (h₁ : env.Puts key slot₁ env₁) (h₂ : env₁.Puts key slot env') :
    env.Puts key slot env' :=
  ⟨h₁.frame.trans h₂.frame, h₂.slot_key⟩

end Puts

/-- Surroundings that differ in records of calls, events and metrics only. -/
def Same (env env' : Env) : Prop := Frame (fun _ => False) env env'

namespace Same

theorem refl (env : Env) : env.Same env := Frame.refl _ env

theorem trans (h₁ : env.Same env₁) (h₂ : env₁.Same env') : env.Same env' := Frame.trans h₁ h₂

theorem healthy (h : env.Same env') (he : env.Healthy) : env'.Healthy := he.of_frame h

theorem frame (h : env.Same env') (K : String → Prop) : Frame K env env' :=
  Frame.mono h fun _ => False.elim

end Same

/-- Putting back what is in a slot changes nothing. -/
theorem Puts.same (h : env.Puts key (env.slot key) env') : env.Same env' := by
  obtain ⟨⟨hnow, hclock, houtage, hfaults, hslot⟩, hkey⟩ := h
  refine ⟨hnow, hclock, houtage, hfaults, fun other _ => ?_⟩
  by_cases hother : other = key
  · rw [hother, hkey]
  · exact hslot other hother

end Env

/-! ## Calls -/

namespace StoreM

/-- A call on a healthy store is the operation of the store. -/
theorem call_of_healthy {env : Env} (h : env.Healthy)
    (op : UInt64 → Store → Except StoreError α × Store) (record : Except StoreError α → Call) :
    (call op record).on env =
      ((op env.now env.store).1,
        { env with
          store := (op env.now env.store).2
          calls := env.calls ++ [record (op env.now env.store).1] }) := by
  rw [on_call, h.faults_eq]

theorem get_of_healthy {env : Env} (h : env.Healthy) (key : String) :
    ∃ env', (get key).on env =
        (.ok (((env.slot key).filter fun e => !e.expired env.now).map Entry.value), env') ∧
      env.Puts key ((env.slot key).filter fun e => !e.expired env.now) env' := by
  have hs : env.store.get env.now key =
      (.ok (env.store.lookup env.now key),
        { env.store with entries := (env.store.entries.get env.now key).2 }) := by
    simp [Store.get, h.outage_eq, Store.time, h.ownClock_eq, Store.lookup, TimedMap.fst_get]
  refine ⟨((get key).on env).2, Prod.ext ?_ rfl, touches_get (K := (· = key)) rfl env, ?_⟩
  · rw [get, call_of_healthy h, hs]
    simp only [Store.lookup, Store.time, h.ownClock_eq]
    rfl
  · rw [get, call_of_healthy h, hs]
    exact TimedMap.getElem?_get env.store.entries env.now key

theorem set_of_healthy {env : Env} (h : env.Healthy) (key : String) (value : Bytes)
    (ttl : Option Duration) :
    ∃ env', (set key value ttl).on env = (.ok (), env') ∧
      env.Puts key (some (TimedMap.entryAt env.now value ttl)) env' := by
  have hs : env.store.set env.now key value ttl =
      (.ok (), { env.store with entries := env.store.entries.set env.now key value ttl }) := by
    simp [Store.set, h.outage_eq, Store.time, h.ownClock_eq]
  refine ⟨((set key value ttl).on env).2, Prod.ext ?_ rfl,
    touches_set (K := (· = key)) rfl value ttl env, ?_⟩
  · rw [set, call_of_healthy h, hs]
  · rw [set, call_of_healthy h, hs]
    show (env.store.entries.set env.now key value ttl).entries[key]? = _
    simp [TimedMap.set]

theorem delete_of_healthy {env : Env} (h : env.Healthy) (key : String) :
    ∃ env', (delete key).on env = (.ok (), env') ∧ env.Puts key none env' := by
  have hs : env.store.delete key =
      (.ok (), { env.store with entries := env.store.entries.delete key }) := by
    simp [Store.delete, h.outage_eq]
  refine ⟨((delete key).on env).2, Prod.ext ?_ rfl, touches_delete (K := (· = key)) rfl env, ?_⟩
  · rw [delete, call_of_healthy h, hs]
  · rw [delete, call_of_healthy h, hs]
    show (env.store.entries.delete key).entries[key]? = _
    simp [TimedMap.delete]

/-- **An operation whose calls do not fail does not fail.** -/
theorem Uses.ok_of_healthy {K : String → Prop} {x : StoreM α} (hx : x.Uses K) {env : Env}
    (h : env.Healthy) : ∃ a env', x.on env = (.ok a, env') := by
  induction hx generalizing env with
  | pure a => exact ⟨a, env, rfl⟩
  | @bind _ _ x f hx _ ihx ihf =>
    obtain ⟨a, env₁, hfirst⟩ := ihx h
    have hf := hx.touches env
    rw [GateM.on_attempt, hfirst] at hf
    rw [on_bind_of_ok hfirst]
    exact ihf a (h.of_frame hf)
  | now => exact ⟨env.now, env, rfl⟩
  | log _ _ => exact ⟨(), _, rfl⟩
  | alarm _ _ ih => exact ih ⟨h.faults_eq, h.outage_eq, h.ownClock_eq⟩
  | get _ =>
    obtain ⟨env', hget, _⟩ := get_of_healthy h _
    exact ⟨_, env', hget⟩
  | set _ value ttl =>
    obtain ⟨env', hset, _⟩ := set_of_healthy h _ value (some ttl)
    exact ⟨(), env', hset⟩
  | delete _ =>
    obtain ⟨env', hdelete, _⟩ := delete_of_healthy h _
    exact ⟨(), env', hdelete⟩

end StoreM

/-! ## Records -/

/-- An entry that is written with the time that is left until an instant lives until then. -/
theorem entryAt_until {now endsAt : UInt64} (h : now ≤ endsAt) (value : Bytes) :
    TimedMap.entryAt now value (some (.ofMillis (satSub endsAt now))) = ⟨value, some endsAt⟩ := by
  simp [TimedMap.entryAt, satAdd_satSub h]

namespace Shelf

variable [Binary α] (s : Shelf) (name : String)

theorem load_of_healthy {env : Env} (h : env.Healthy) :
    ∃ env', (s.load name : StoreM (Option α)).on env =
        (.ok (recordIn α env.now (env.slot (s.key name))), env') ∧
      env.Puts (s.key name) (readable α env.now (env.slot (s.key name))) env' := by
  obtain ⟨env₁, hget, hput⟩ := StoreM.get_of_healthy h (s.key name)
  unfold load
  rw [StoreM.on_bind_of_ok hget]
  unfold recordIn readable
  cases hs : env.slot (s.key name) with
  | none =>
    rw [hs] at hput
    exact ⟨env₁, rfl, hput⟩
  | some e =>
    rw [hs] at hput
    cases he : e.expired env.now with
    | true =>
      simp only [Option.filter_some, he] at hput ⊢
      simp only [Entry.holds, he]
      exact ⟨env₁, rfl, hput⟩
    | false =>
      simp only [Option.filter_some, he] at hput ⊢
      simp only [Entry.holds, he]
      cases hr : (Binary.read? e.value : Option α) with
      | some a => exact ⟨env₁, by simp [hr], by simpa using hput⟩
      | none =>
        -- the record is removed, as any reading of an expired one would do
        have hlog := Env.Puts.log env₁ (s.key name) (.recordDiscarded (s.key name))
        obtain ⟨env₂, hdel, hput₂⟩ :=
          StoreM.delete_of_healthy (hlog.healthy (hput.healthy h)) (s.key name)
        refine ⟨env₂, ?_, ?_⟩
        · simp only [Bool.not_false, ↓reduceIte, Option.map_some, hr]
          rw [StoreM.on_bind_of_ok (StoreM.on_lift _ _), StoreM.on_bind_of_ok hdel]
          simp
        · simpa using (hput.trans hlog).trans hput₂

theorem save_of_healthy {env : Env} (h : env.Healthy) (a : α) (ttl : Option Duration) :
    ∃ env', (s.save name a ttl).on env = (.ok (), env') ∧
      env.Puts (s.key name) (some (TimedMap.entryAt env.now (Binary.encode a) ttl)) env' :=
  StoreM.set_of_healthy h _ _ _

theorem remove_of_healthy {env : Env} (h : env.Healthy) :
    ∃ env', (s.remove name).on env = (.ok (), env') ∧ env.Puts (s.key name) none env' :=
  StoreM.delete_of_healthy h _

end Shelf

theorem Counter.exact (c : Counter) : Binary.Exact c :=
  Binary.exact_narrow rfl (Binary.exact_pair (Binary.exact_word c.count) (Binary.exact_word c.endsAt))

theorem Counter.le_endsAt_next (current : Option Counter) (now : UInt64) (ttl : Duration) :
    now ≤ (next current now ttl).endsAt := by
  unfold next
  split
  · rename_i c
    split
    · rename_i hrunning
      exact UInt64.le_of_lt (of_decide_eq_true hrunning)
    · exact le_satAdd now ttl.millis
  · exact le_satAdd now ttl.millis

/-- A counter as the store has it, with the instant at which it is over as its deadline. -/
def Counter.entry (c : Counter) : Entry := ⟨Binary.encode c, some c.endsAt⟩

theorem Counter.recordIn_entry (c : Counter) (now : UInt64) :
    recordIn Counter now (some c.entry) = if now < c.endsAt then some c else none :=
  recordIn_written c.exact

theorem Counter.readable_entry (c : Counter) (now : UInt64) :
    readable Counter now (some c.entry) = if now < c.endsAt then some c.entry else none :=
  readable_written c.exact

/-- One more is counted by a counter that is not over. -/
theorem Counter.next_of_lt {c : Counter} {now : UInt64} (h : now < c.endsAt) (ttl : Duration) :
    next (some c) now ttl = { c with count := satAdd c.count 1 } :=
  if_pos (decide_eq_true h)

theorem Counter.reading_of_lt {c : Counter} {now : UInt64} (h : now < c.endsAt) :
    reading (some c) now = c.count :=
  if_pos (decide_eq_true h)

/-- A slot after an increment of its counter: the next counter, with the instant at which it is over
as its deadline. -/
def incremented (now : UInt64) (ttl : Duration) (slot : Option Entry) : Option Entry :=
  let c := Counter.next (recordIn Counter now slot) now ttl
  some ⟨Binary.encode c, some c.endsAt⟩

theorem Shelf.increment_of_healthy (s : Shelf) (name : String) (ttl : Duration) {env : Env}
    (h : env.Healthy) :
    ∃ env', (s.increment name ttl).on env =
        (.ok (Counter.next (recordIn Counter env.now (env.slot (s.key name))) env.now ttl).count,
          env') ∧
      env.Puts (s.key name) (incremented env.now ttl (env.slot (s.key name))) env' := by
  obtain ⟨env₁, hload, hput₁⟩ := s.load_of_healthy (α := Counter) name h
  obtain ⟨env₂, hsave, hput₂⟩ := s.save_of_healthy name (hput₁.healthy h)
    (Counter.next (recordIn Counter env.now (env.slot (s.key name))) env.now ttl)
    (some (.ofMillis (satSub
      (Counter.next (recordIn Counter env.now (env.slot (s.key name))) env.now ttl).endsAt env.now)))
  rw [hput₁.now_eq, entryAt_until (Counter.le_endsAt_next _ env.now ttl)] at hput₂
  refine ⟨env₂, ?_, hput₁.trans hput₂⟩
  unfold increment
  rw [StoreM.on_bind_of_ok (StoreM.on_now env), StoreM.on_bind_of_ok hload,
    StoreM.on_bind_of_ok hsave, StoreM.on_pure]

theorem Shelf.counter_of_healthy (s : Shelf) (name : String) {env : Env} (h : env.Healthy) :
    ∃ env', (s.counter name).on env =
        (.ok (Counter.reading (recordIn Counter env.now (env.slot (s.key name))) env.now), env') ∧
      env.Puts (s.key name) (readable Counter env.now (env.slot (s.key name))) env' := by
  obtain ⟨env', hload, hput⟩ := s.load_of_healthy (α := Counter) name h
  refine ⟨env', ?_, hput⟩
  unfold counter
  rw [StoreM.on_bind_of_ok (StoreM.on_now env), StoreM.on_bind_of_ok hload, StoreM.on_pure]

end Turnstile
