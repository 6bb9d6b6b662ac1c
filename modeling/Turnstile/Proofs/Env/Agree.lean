import Turnstile.Proofs.Env.Healthy

/-!
# Operations in two surroundings

An operation sees of its surroundings the clock, the failures it is going to meet, and what the store
has under the keys that it calls the store on.  In two surroundings that agree on all of this it
answers the same and leaves both agreeing.  Nothing else can make a difference: not the other keys,
the counters or the log.

* `Store.Agree`, `Env.Agree`: stores and surroundings that agree on some keys.
* `GateM.Alike`: operations that do the same in related surroundings.
* `StoreM.Uses.agree`, `GateM.Uses.alike`: an operation sees only the keys that it uses.
-/

set_option autoImplicit false

namespace Turnstile

variable {α β : Type} {K : String → Prop}

/-! ## Stores -/

/-- Two stores on the same clock that have the same under the keys `K`, and are both away or both
there. -/
structure Store.Agree (K : String → Prop) (s s' : Store) : Prop where
  ownClock_eq : s'.ownClock = s.ownClock
  outage_eq : s'.outage = s.outage
  slot_eq : ∀ key, K key → s'.entries.entries[key]? = s.entries.entries[key]?

namespace Store.Agree

variable {s s' : Store}

theorem time_eq (h : s.Agree K s') (now : UInt64) : s'.time now = s.time now := by
  rw [Store.time, Store.time, h.ownClock_eq]

theorem lookup (h : s.Agree K s') {key : String} (hK : K key) (now : UInt64) :
    s'.lookup now key = s.lookup now key := by
  simp only [Store.lookup, TimedMap.lookup, TimedMap.live?, h.time_eq, h.slot_eq key hK]

theorem get (h : s.Agree K s') {key : String} (hK : K key) (now : UInt64) :
    (s'.get now key).1 = (s.get now key).1 ∧ (s.get now key).2.Agree K (s'.get now key).2 := by
  have hlookup := h.lookup hK now
  unfold Store.get
  rw [h.outage_eq]
  cases houtage : s.outage with
  | true => exact ⟨rfl, ⟨h.ownClock_eq, h.outage_eq, h.slot_eq⟩⟩
  | false =>
    simp only [Bool.false_eq_true, ↓reduceIte, TimedMap.fst_get]
    refine ⟨congrArg Except.ok hlookup, ⟨h.ownClock_eq, rfl, fun other hother => ?_⟩⟩
    by_cases hne : key = other
    · rw [← hne, TimedMap.getElem?_get, TimedMap.getElem?_get, h.time_eq, h.slot_eq key hK]
    · rw [TimedMap.getElem?_get_of_ne hne, TimedMap.getElem?_get_of_ne hne, h.slot_eq other hother]

theorem set (h : s.Agree K s') (now : UInt64) (key : String) (value : Bytes)
    (ttl : Option Duration) :
    (s'.set now key value ttl).1 = (s.set now key value ttl).1 ∧
      (s.set now key value ttl).2.Agree K (s'.set now key value ttl).2 := by
  unfold Store.set
  rw [h.outage_eq, h.time_eq]
  cases houtage : s.outage with
  | true => exact ⟨rfl, ⟨h.ownClock_eq, h.outage_eq, h.slot_eq⟩⟩
  | false =>
    refine ⟨rfl, ⟨h.ownClock_eq, rfl, fun other hother => ?_⟩⟩
    simp [TimedMap.set, Std.ExtTreeMap.getElem?_insert, h.slot_eq other hother]

theorem delete (h : s.Agree K s') (key : String) :
    (s'.delete key).1 = (s.delete key).1 ∧ (s.delete key).2.Agree K (s'.delete key).2 := by
  unfold Store.delete
  rw [h.outage_eq]
  cases houtage : s.outage with
  | true => exact ⟨rfl, ⟨h.ownClock_eq, h.outage_eq, h.slot_eq⟩⟩
  | false =>
    refine ⟨rfl, ⟨h.ownClock_eq, rfl, fun other hother => ?_⟩⟩
    simp [TimedMap.delete, Std.ExtTreeMap.getElem?_erase, h.slot_eq other hother]

end Store.Agree

/-! ## Surroundings -/

/-- Two surroundings at the same instant, in which the same calls are going to fail, and that have
the same under the keys `K`. -/
structure Env.Agree (K : String → Prop) (env env' : Env) : Prop where
  now_eq : env'.now = env.now
  store : env.store.Agree K env'.store
  faults_eq : ∀ n, env'.faults (env'.calls.length + n) = env.faults (env.calls.length + n)

/-- Where no call fails, surroundings agree if they have the same under the keys. -/
theorem Env.agree_of_healthy {env env' : Env} (h : env.Healthy) (h' : env'.Healthy)
    (hnow : env'.now = env.now) (hslot : ∀ key, K key → env'.slot key = env.slot key) :
    env.Agree K env' where
  now_eq := hnow
  store := ⟨by rw [h.ownClock_eq, h'.ownClock_eq], by rw [h.outage_eq, h'.outage_eq], hslot⟩
  faults_eq n := by rw [h.faults_eq, h'.faults_eq]

/-- In related surroundings an operation answers the same, and leaves them related. -/
def GateM.Alike (Rel : Env → Env → Prop) (x : GateM α) : Prop :=
  ∀ env env', Rel env env' → (x.on env').1 = (x.on env).1 ∧ Rel (x.on env).2 (x.on env').2

namespace GateM

variable {Rel : Env → Env → Prop}

theorem alike_bindOf {x : GateM α} {f : α → GateM β} {P : α → Prop} (hx : x.Alike Rel)
    (hP : ∀ env, P (x.on env).1) (hf : ∀ a, P a → (f a).Alike Rel) : (x >>= f).Alike Rel := by
  intro env env' h
  obtain ⟨hanswer, hrel⟩ := hx env env' h
  simp only [on_bind, hanswer]
  exact hf _ (hP env) _ _ hrel

/-- What does the same in related surroundings, put together, does the same. -/
theorem closed_alike (hnow : ∀ env env', Rel env env' → env'.now = env.now)
    (hlog : ∀ e env env', Rel env env' → Rel ((log e).on env).2 ((log e).on env').2) :
    Closed (Alike Rel) where
  pure _ _ _ h := ⟨rfl, h⟩
  bindOf := alike_bindOf
  now env env' h := ⟨hnow env env' h, h⟩
  log _ _ env env' h := ⟨rfl, hlog _ env env' h⟩

end GateM

namespace StoreM

variable {env env' : Env}

/-- A call that does the same to stores that agree. -/
theorem agree_call {op : UInt64 → Store → Except StoreError α × Store}
    {record : Except StoreError α → Call}
    (hop : ∀ now (s s' : Store), s.Agree K s' →
      (op now s').1 = (op now s).1 ∧ (op now s).2.Agree K (op now s').2) (h : env.Agree K env') :
    ((call op record).on env').1 = ((call op record).on env).1 ∧
      ((call op record).on env).2.Agree K ((call op record).on env').2 := by
  have hfault : env'.faults env'.calls.length = env.faults env.calls.length := h.faults_eq 0
  have hlater : ∀ a a' n, env'.faults ((env'.calls ++ [record a']).length + n) =
      env.faults ((env.calls ++ [record a]).length + n) := by
    intro a a' n
    simpa only [List.length_append, List.length_singleton, Nat.add_assoc] using h.faults_eq (1 + n)
  obtain ⟨hanswer, hstore⟩ := hop env.now _ _ h.store
  rw [on_call, on_call, hfault, h.now_eq]
  cases env.faults env.calls.length with
  | some e => exact ⟨rfl, ⟨rfl, h.store, hlater _ _⟩⟩
  | none => exact ⟨hanswer, ⟨rfl, hstore, hlater _ _⟩⟩

/-- **An operation on the store sees only the keys that it uses.** -/
theorem Uses.agree {x : StoreM α} (hx : x.Uses K) (h : env.Agree K env') :
    (x.on env').1 = (x.on env).1 ∧ (x.on env).2.Agree K (x.on env').2 := by
  induction hx generalizing env env' with
  | pure a => exact ⟨rfl, h⟩
  | @bind _ _ x f _ _ ihx ihf =>
    obtain ⟨hanswer, hagree⟩ := ihx h
    rw [on_bind, on_bind]
    rcases hr : x.on env with ⟨e | a, env₁⟩ <;> rcases hr' : x.on env' with ⟨e' | a', env₁'⟩ <;>
      rw [hr, hr'] at hanswer hagree <;> cases hanswer
    · exact ⟨rfl, hagree⟩
    · exact ihf a hagree
  | now => exact ⟨congrArg Except.ok h.now_eq, h⟩
  | log _ _ => exact ⟨rfl, h.now_eq, h.store, h.faults_eq⟩
  | alarm _ _ ih => exact ih ⟨h.now_eq, h.store, h.faults_eq⟩
  | get hK => exact agree_call (fun now _ _ hs => hs.get hK now) h
  | set hK value ttl => exact agree_call (fun now _ _ hs => hs.set now _ value (some ttl)) h
  | delete hK => exact agree_call (fun _ _ _ hs => hs.delete _) h

end StoreM

/-- **An operation of a gate sees only the keys that it uses.** -/
theorem GateM.Uses.alike {C : (Metrics → Metrics) → Prop} {x : GateM α} (hx : x.Uses K C) :
    x.Alike (Env.Agree K) := by
  induction hx with
  | pure a => exact fun env env' h => ⟨rfl, h⟩
  | bindOf _ hP _ ihx ihf => exact alike_bindOf ihx hP ihf
  | now => exact fun env env' h => ⟨h.now_eq, h⟩
  | log _ _ => exact fun env env' h => ⟨rfl, h.now_eq, h.store, h.faults_eq⟩
  | count _ => exact fun env env' h => ⟨rfl, h.now_eq, h.store, h.faults_eq⟩
  | @attempt _ _ x f y event hx _ _ _ herror ihok ihy =>
    intro env env' h
    obtain ⟨hanswer, hagree⟩ := hx.agree h
    simp only [on_bind, on_attempt, hanswer]
    cases (x.on env).1 with
    | ok a => exact ihok a _ _ hagree
    | error e =>
      simp only [herror, on_bind]
      exact ihy e _ _ ⟨hagree.now_eq, hagree.store, hagree.faults_eq⟩

end Turnstile
