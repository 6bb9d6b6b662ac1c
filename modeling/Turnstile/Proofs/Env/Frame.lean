import Turnstile.Env

/-!
# What operations change

An operation is a function on its surroundings, and `on` gives what it answers and what it leaves.
Operations reach the store through three calls only, so each of them leaves the clock and all keys
alone but those that it calls.

* `GateM.on_bind`, `StoreM.on_bind`: operations one after the other.
* `Env.Frame`: surroundings that differ in what the store has under some keys at most.
* `StoreM.touches_get`, `StoreM.touches_set`, `StoreM.touches_delete`: a call touches its key.
-/

set_option autoImplicit false

namespace Turnstile

variable {α β : Type}

/-- What an operation answers and the surroundings that it leaves. -/
def GateM.on (x : GateM α) (env : Env) : α × Env := x.run env

/-- What an operation on the store answers, or how it failed, and the surroundings that it leaves. -/
def StoreM.on (x : StoreM α) (env : Env) : Except StoreError α × Env := x.attempt.on env

/-! ## Operations one after the other -/

namespace GateM

@[simp] theorem on_pure (a : α) (env : Env) : (pure a : GateM α).on env = (a, env) := rfl

@[simp] theorem on_bind (x : GateM α) (f : α → GateM β) (env : Env) :
    (x >>= f).on env = (f (x.on env).1).on (x.on env).2 := rfl

@[simp] theorem on_now (env : Env) : GateM.now.on env = (env.now, env) := rfl

@[simp] theorem on_log (e : Event) (env : Env) :
    (GateM.log e).on env = ((), { env with events := env.events ++ [e] }) := rfl

@[simp] theorem on_count (f : Metrics → Metrics) (env : Env) :
    (GateM.count f).on env = ((), { env with metrics := f env.metrics }) := rfl

@[simp] theorem on_modify (f : Env → Env) (env : Env) :
    (modify f : GateM Unit).on env = ((), f env) := rfl

@[simp] theorem on_attempt (x : StoreM α) (env : Env) : x.attempt.on env = x.on env := rfl

end GateM

namespace StoreM

@[simp] theorem on_pure (a : α) (env : Env) : (pure a : StoreM α).on env = (.ok a, env) := rfl

@[simp] theorem on_lift (x : GateM α) (env : Env) :
    (liftM x : StoreM α).on env = (.ok (x.on env).1, (x.on env).2) := rfl

theorem on_now (env : Env) : (liftM GateM.now : StoreM UInt64).on env = (.ok env.now, env) := rfl

theorem on_bind (x : StoreM α) (f : α → StoreM β) (env : Env) :
    (x >>= f).on env =
      match x.on env with
      | (.ok a, env₁) => (f a).on env₁
      | (.error e, env₁) => (.error e, env₁) := by
  show ((ExceptT.bindCont f (x.on env).1 : GateM _)).on (x.on env).2 = _
  rcases x.on env with ⟨_ | a, env₁⟩ <;> rfl

theorem on_bind_of_ok {x : StoreM α} {f : α → StoreM β} {env env₁ : Env} {a : α}
    (h : x.on env = (.ok a, env₁)) : (x >>= f).on env = (f a).on env₁ := by
  rw [on_bind, h]

/-- A call fails as the surroundings say, without reaching the store, or is the operation of the
store; either way it is recorded. -/
theorem on_call (op : UInt64 → Store → Except StoreError α × Store)
    (record : Except StoreError α → Call) (env : Env) :
    (call op record).on env =
      match env.faults env.calls.length with
      | some e => (.error e, { env with calls := env.calls ++ [record (.error e)] })
      | none => ((op env.now env.store).1,
          { env with
            store := (op env.now env.store).2
            calls := env.calls ++ [record (op env.now env.store).1] }) := by
  unfold call StoreM.on StoreM.attempt GateM.on
  cases hf : env.faults env.calls.length <;>
    simp only [ExceptT.run_mk, StateT.run_bind, StateT.run_get, pure_bind, hf] <;> rfl

/-- A call leaves the store as it is, or as the operation of the store leaves it. -/
theorem store_call (op : UInt64 → Store → Except StoreError α × Store)
    (record : Except StoreError α → Call) (env : Env) :
    ((call op record).on env).2.store = env.store ∨
      ((call op record).on env).2.store = (op env.now env.store).2 := by
  rw [on_call]
  split
  · exact .inl rfl
  · exact .inr rfl

/-- Of two operations one after the other that succeed both do. -/
theorem ok_of_on_bind {x : StoreM α} {f : α → StoreM β} {env env₂ : Env} {b : β}
    (h : (x >>= f).on env = (.ok b, env₂)) :
    ∃ a env₁, x.on env = (.ok a, env₁) ∧ (f a).on env₁ = (.ok b, env₂) := by
  rw [on_bind] at h
  rcases hx : x.on env with ⟨e | a, env₁⟩
  · rw [hx] at h
    cases h
  · rw [hx] at h
    exact ⟨a, env₁, rfl, h⟩

end StoreM

/-! ## Frames -/

/-- Reading a key leaves the entries of other keys as they are. -/
theorem TimedMap.getElem?_get_of_ne {m : TimedMap} {now : UInt64} {key other : String}
    (hne : key ≠ other) : (m.get now key).2.entries[other]? = m.entries[other]? := by
  unfold TimedMap.get
  split
  · rfl
  · split
    · simp [Std.ExtTreeMap.getElem?_erase, hne]
    · rfl

/-- Reading a key leaves its entry there unless it has expired. -/
theorem TimedMap.getElem?_get (m : TimedMap) (now : UInt64) (key : String) :
    (m.get now key).2.entries[key]? = m.entries[key]?.filter fun e => !e.expired now := by
  unfold TimedMap.get
  cases hk : m.entries[key]? with
  | none => simp [hk]
  | some e => cases he : e.expired now <;> simp [he, hk, Option.filter_some]

/-- What the store has under a key, expired or not. -/
def Env.slot (env : Env) (key : String) : Option Entry := env.store.entries.entries[key]?

/-- Surroundings that differ in the records and in what the store has under the keys `K` at most. -/
structure Env.Frame (K : String → Prop) (env env' : Env) : Prop where
  now_eq : env'.now = env.now
  ownClock_eq : env'.store.ownClock = env.store.ownClock
  outage_eq : env'.store.outage = env.store.outage
  faults_eq : env'.faults = env.faults
  slot_eq : ∀ key, ¬ K key → env'.slot key = env.slot key

namespace Env.Frame

variable {K L : String → Prop} {env env₁ env₂ : Env}

theorem refl (K : String → Prop) (env : Env) : Frame K env env :=
  ⟨rfl, rfl, rfl, rfl, fun _ _ => rfl⟩

theorem trans (h₁ : Frame K env env₁) (h₂ : Frame K env₁ env₂) : Frame K env env₂ :=
  ⟨h₂.now_eq.trans h₁.now_eq, h₂.ownClock_eq.trans h₁.ownClock_eq, h₂.outage_eq.trans h₁.outage_eq,
   h₂.faults_eq.trans h₁.faults_eq, fun key hk => (h₂.slot_eq key hk).trans (h₁.slot_eq key hk)⟩

theorem mono (h : Frame K env env₁) (hKL : ∀ key, K key → L key) : Frame L env env₁ :=
  ⟨h.now_eq, h.ownClock_eq, h.outage_eq, h.faults_eq, fun key hk => h.slot_eq key fun hK =>
    hk (hKL key hK)⟩

theorem setClock (h : Frame K env env₁) (now : UInt64) :
    Frame K (env.setClock now) (env₁.setClock now) :=
  ⟨rfl, h.ownClock_eq, h.outage_eq, h.faults_eq, h.slot_eq⟩

end Env.Frame

/-- An operation changes what the store has under the keys `K` at most. -/
def GateM.Touches (K : String → Prop) (x : GateM α) : Prop := ∀ env, Env.Frame K env (x.on env).2

/-- An operation on the store changes what the store has under the keys `K` at most. -/
def StoreM.Touches (K : String → Prop) (x : StoreM α) : Prop := x.attempt.Touches K

namespace GateM

variable {K : String → Prop}

theorem touches_bind {x : GateM α} {f : α → GateM β} (hx : x.Touches K)
    (hf : ∀ a, (f a).Touches K) : (x >>= f).Touches K := fun env =>
  (hx env).trans (hf _ _)

theorem touches_log (e : Event) : (GateM.log e).Touches K := fun _ =>
  ⟨rfl, rfl, rfl, rfl, fun _ _ => rfl⟩

theorem touches_count (f : Metrics → Metrics) : (GateM.count f).Touches K := fun _ =>
  ⟨rfl, rfl, rfl, rfl, fun _ _ => rfl⟩

theorem touches_mono {L : String → Prop} {x : GateM α} (hx : x.Touches K)
    (hKL : ∀ key, K key → L key) : x.Touches L := fun env => (hx env).mono hKL

end GateM

namespace StoreM

variable {K : String → Prop}

/-- A call touches the keys that the store changes in it. -/
theorem touches_call {op : UInt64 → Store → Except StoreError α × Store}
    {record : Except StoreError α → Call}
    (hop : ∀ now (s : Store), (op now s).2.ownClock = s.ownClock ∧ (op now s).2.outage = s.outage ∧
      ∀ key, ¬ K key → (op now s).2.entries.entries[key]? = s.entries.entries[key]?) :
    (call op record).Touches K := by
  intro env
  show Env.Frame K env ((call op record).on env).2
  rw [on_call]
  split
  · exact ⟨rfl, rfl, rfl, rfl, fun _ _ => rfl⟩
  · obtain ⟨hc, ho, hs⟩ := hop env.now env.store
    exact ⟨rfl, hc, ho, rfl, hs⟩

theorem touches_get {key : String} (hK : K key) : (get key).Touches K := by
  refine touches_call fun now s => ?_
  unfold Store.get
  split
  · exact ⟨rfl, rfl, fun _ _ => rfl⟩
  · refine ⟨rfl, rfl, fun other ho => ?_⟩
    have hne : key ≠ other := fun e => ho (e ▸ hK)
    exact TimedMap.getElem?_get_of_ne hne

theorem touches_set {key : String} (hK : K key) (value : Bytes) (ttl : Option Duration) :
    (set key value ttl).Touches K := by
  refine touches_call fun now s => ?_
  unfold Store.set
  split
  · exact ⟨rfl, rfl, fun _ _ => rfl⟩
  · refine ⟨rfl, rfl, fun other ho => ?_⟩
    have hne : key ≠ other := fun e => ho (e ▸ hK)
    simp [TimedMap.set, Std.ExtTreeMap.getElem?_insert, hne]

theorem touches_delete {key : String} (hK : K key) : (delete key).Touches K := by
  refine touches_call fun now s => ?_
  unfold Store.delete
  split
  · exact ⟨rfl, rfl, fun _ _ => rfl⟩
  · refine ⟨rfl, rfl, fun other ho => ?_⟩
    have hne : key ≠ other := fun e => ho (e ▸ hK)
    simp [TimedMap.delete, Std.ExtTreeMap.getElem?_erase, hne]

end StoreM

end Turnstile
