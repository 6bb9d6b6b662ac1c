import Turnstile.Proofs.Env.Lasting

/-!
# Operations that may fail

Any call may be made to fail, and the store may be away.  A call that fails leaves everything as it
is but for the record of calls, so an operation on a shelf does what it does in a healthy store, or
a first part of it, and answers only if it has done all of it.

* `Env.Quiet`: surroundings that are the same and have the same log.
* `StoreM.Uses.on_healed`: what succeeds does the same if nothing is going to fail.
* `Env.steady_answered`: no call fails unless the surroundings say so.
* `Legible`: a slot that holds a record of a type or nothing, at any instant.
* `Shelf.load_legible`, `Shelf.increment_legible`: what can be read is not removed.
* `Lasts.load_any`, `Counts.increment_any`, `Shelf.save_any`: records, whatever fails.
-/

set_option autoImplicit false

namespace Turnstile

variable {α : Type} {env env' env₁ : Env}

/-- Surroundings that differ in records of calls and metrics only. -/
structure Env.Quiet (env env' : Env) : Prop where
  same : env.Same env'
  events_eq : env'.events = env.events

theorem Env.Quiet.refl (env : Env) : env.Quiet env := ⟨.refl env, rfl⟩

theorem Env.Quiet.trans (h : env.Quiet env₁) (h₁ : env₁.Quiet env') : env.Quiet env' :=
  ⟨h.same.trans h₁.same, h₁.events_eq.trans h.events_eq⟩

/-! ## Calls -/

namespace StoreM

theorem events_call (op : UInt64 → Store → Except StoreError α × Store)
    (record : Except StoreError α → Call) (env : Env) :
    ((call op record).on env).2.events = env.events := by
  rw [on_call]
  split <;> rfl

/-- A call that fails leaves everything as it is. -/
theorem quiet_of_error {op : UInt64 → Store → Except StoreError α × Store}
    {record : Except StoreError α → Call}
    (hop : ∀ now (s : Store), op now s = s.refuse ∨ ∃ a, (op now s).1 = .ok a) {e : StoreError}
    (h : (call op record).on env = (.error e, env')) : env.Quiet env' := by
  have hevents := events_call op record env
  rw [h] at hevents
  refine ⟨?_, hevents⟩
  rw [on_call] at h
  split at h
  · obtain ⟨_, rfl⟩ := Prod.mk.inj h
    exact ⟨rfl, rfl, rfl, rfl, fun _ _ => rfl⟩
  · obtain ⟨hanswer, rfl⟩ := Prod.mk.inj h
    rcases hop env.now env.store with hrefuse | ⟨a, hok⟩
    · rw [hrefuse]
      exact ⟨rfl, rfl, rfl, rfl, fun _ _ => rfl⟩
    · rw [hok] at hanswer
      cases hanswer

theorem quiet_get {key : String} {e : StoreError} (h : (get key).on env = (.error e, env')) :
    env.Quiet env' := by
  refine quiet_of_error (fun now s => ?_) h
  unfold Store.get
  split
  · exact .inl rfl
  · exact .inr ⟨_, rfl⟩

theorem quiet_set {key : String} {value : Bytes} {ttl : Option Duration} {e : StoreError}
    (h : (set key value ttl).on env = (.error e, env')) : env.Quiet env' := by
  refine quiet_of_error (fun now s => ?_) h
  unfold Store.set
  split
  · exact .inl rfl
  · exact .inr ⟨_, rfl⟩

theorem quiet_delete {key : String} {e : StoreError} (h : (delete key).on env = (.error e, env')) :
    env.Quiet env' := by
  refine quiet_of_error (fun now s => ?_) h
  unfold Store.delete
  split
  · exact .inl rfl
  · exact .inr ⟨_, rfl⟩

theorem set_ok {key : String} {value : Bytes} {ttl : Option Duration}
    (h : (set key value ttl).on env = (.ok (), env')) :
    env.Puts key (some (TimedMap.entryAt (env.store.time env.now) value ttl)) env' := by
  have hframe : Env.Frame (· = key) env ((set key value ttl).on env).2 :=
    touches_set (K := (· = key)) rfl value ttl env
  rw [h] at hframe
  refine ⟨hframe, ?_⟩
  have h := call_ok h
  unfold Store.set at h
  split at h
  · cases h
  · obtain ⟨_, hstore⟩ := Prod.mk.inj h
    unfold Env.slot
    rw [← hstore]
    simp [TimedMap.set]

end StoreM

/-! ## Without failures -/

/-- The surroundings with the store back and no call that is going to fail. -/
def Env.healed (env : Env) : Env :=
  { env with faults := fun _ => none, store := { env.store with outage := false } }

@[simp] theorem Env.slot_healed (env : Env) (key : String) :
    env.healed.slot key = env.slot key := rfl

theorem Env.healthy_healed (hclock : env.store.ownClock = none) : env.healed.Healthy :=
  ⟨rfl, rfl, hclock⟩

namespace StoreM

/-- A call that succeeds does so if nothing is going to fail. -/
theorem call_healed {op : UInt64 → Store → Except StoreError α × Store}
    {record : Except StoreError α → Call}
    (hop : ∀ now (s : Store), s.outage = true → op now s = s.refuse)
    (hback : ∀ now (s : Store), s.outage = false → (op now s).2.outage = false) {a : α}
    (h : (call op record).on env = (.ok a, env')) :
    (call op record).on env.healed = (.ok a, env'.healed) := by
  rw [on_call] at h
  split at h
  · cases h
  · obtain ⟨hanswer, rfl⟩ := Prod.mk.inj h
    have houtage : env.store.outage = false := by
      cases hout : env.store.outage with
      | false => rfl
      | true =>
        rw [hop _ _ hout] at hanswer
        cases hanswer
    have hhere : ({ env.store with outage := false } : Store) = env.store := by
      rw [← houtage]
    have hthere : ({ (op env.now env.store).2 with outage := false } : Store) =
        (op env.now env.store).2 := by
      rw [← hback env.now env.store houtage]
    rw [on_call]
    simp only [Env.healed, hhere, hthere, hanswer]

/-- **An operation that succeeds does the same if nothing is going to fail.** -/
theorem Uses.on_healed {K : String → Prop} {x : StoreM α} (hx : x.Uses K) {a : α}
    (h : x.on env = (.ok a, env')) : x.on env.healed = (.ok a, env'.healed) := by
  induction hx generalizing env env' with
  | pure a =>
    cases h
    rfl
  | bind _ _ ihx ihf =>
    obtain ⟨b, env₁, hfirst, hrest⟩ := ok_of_on_bind h
    rw [on_bind_of_ok (ihx hfirst)]
    exact ihf b hrest
  | now =>
    cases h
    rfl
  | log _ _ =>
    cases h
    rfl
  | alarm _ _ ih => exact ih h
  | get _ =>
    refine call_healed (fun now s hs => Store.get_of_outage hs now _) (fun now s hs => ?_) h
    simp [Store.get, hs]
  | set _ value ttl =>
    refine call_healed (fun now s hs => Store.set_of_outage hs now _ _ _) (fun now s hs => ?_) h
    simp [Store.set, hs]
  | delete _ =>
    refine call_healed (fun now s hs => Store.delete_of_outage hs _) (fun now s hs => ?_) h
    simp [Store.delete, hs]

end StoreM

/-- Surroundings in which no call fails and none on record has failed. -/
structure Env.Answered (env : Env) : Prop where
  healthy : env.Healthy
  calls : ∀ c ∈ env.calls, c.error? = none

/-- In a healthy store no call fails. -/
theorem Env.steady_answered (K : String → Prop) (C : (Metrics → Metrics) → Prop) :
    Env.Steady K C fun env env' => env.Answered → env'.Answered := by
  have hcall : ∀ {β : Type} {op : UInt64 → Store → Except StoreError β × Store}
      {record : Except StoreError β → Call} {key : String},
      (∀ a, (record (.ok a)).error? = none) →
      (∀ now (s : Store), s.outage = false → ∃ a, (op now s).1 = .ok a) →
      (StoreM.call op record).Touches (· = key) → ∀ env : Env, env.Answered →
      ((StoreM.call op record).on env).2.Answered := by
    intro β op record key hrecord hop htouches env h
    refine ⟨h.healthy.of_frame (htouches env), fun c hc => ?_⟩
    obtain ⟨a, ha⟩ := hop env.now env.store h.healthy.outage_eq
    rw [StoreM.call_of_healthy h.healthy, ha] at hc
    rcases List.mem_append.mp hc with hc | hc
    · exact h.calls c hc
    · rw [List.mem_singleton.mp hc]
      exact hrecord a
  refine ⟨fun _ h => h, fun _ _ _ h₁ h₂ h => h₂ (h₁ h), fun _ _ h => ⟨⟨h.1.1, h.1.2, h.1.3⟩, h.2⟩,
    fun _ _ _ h => ⟨⟨h.1.1, h.1.2, h.1.3⟩, h.2⟩,
    fun key _ => hcall (fun _ => rfl) (fun now s hs => ?_)
      (StoreM.touches_get (K := (· = key)) rfl),
    fun key _ value ttl => hcall (fun _ => rfl) (fun now s hs => ?_)
      (StoreM.touches_set (K := (· = key)) rfl value (some ttl)),
    fun key _ => hcall (fun _ => rfl) (fun now s hs => ?_)
      (StoreM.touches_delete (K := (· = key)) rfl)⟩
  · exact ⟨_, Store.get_of_not_outage hs now key⟩
  · exact ⟨(), by simp [Store.set, hs]⟩
  · exact ⟨(), by simp [Store.delete, hs]⟩

/-! ## Records that can be read -/

variable [Binary α] {P : UInt64 → Prop} {s : Shelf} {name : String}

/-- Whatever a slot holds can be read as a record of a type. -/
def Legible (α : Type) [Binary α] (slot : Option Entry) : Prop :=
  ∀ e ∈ slot, (Binary.read? e.value : Option α).isSome

theorem legible_none : Legible α none := nofun

theorem Legible.filter {slot : Option Entry} (h : Legible α slot) (p : Entry → Bool) :
    Legible α (slot.filter p) := fun e he => h e (Option.mem_filter_iff.mp he).1

theorem legible_written {a : α} (ha : Binary.Exact a) (deadline : Option UInt64) :
    Legible α (some ⟨Binary.encode a, deadline⟩) := by
  rintro e ⟨⟩
  rw [Binary.read?_encode ha]
  rfl

/-- What is read at an instant, or nothing, can be read at any. -/
theorem Lasts.legible {r : Option α} {slot : Option Entry} {now : UInt64} (h : Lasts P r slot)
    (hP : P now) : Legible α slot := by
  intro e he
  obtain rfl : slot = some e := he
  obtain ⟨_, hslot⟩ := h now hP
  rw [readable, Option.filter_some] at hslot
  split at hslot
  · rename_i hholds
    exact (Bool.and_eq_true _ _ ▸ hholds).2
  · cases hslot

namespace Shelf

/-- **A record that can be read stays where it is**, unless it has expired, and nothing is
logged. -/
theorem load_legible (h : Legible α (env.slot (s.key name))) :
    ((s.load name : StoreM (Option α)).on env).2.events = env.events ∧
      (((s.load name : StoreM (Option α)).on env).2.slot (s.key name) = env.slot (s.key name) ∨
        ((s.load name : StoreM (Option α)).on env).2.slot (s.key name) =
          (env.slot (s.key name)).filter fun e => !e.expired (env.store.time env.now)) := by
  unfold load
  rw [StoreM.on_bind]
  have hevents : ((StoreM.get (s.key name)).on env).2.events = env.events :=
    StoreM.events_call _ _ env
  rcases hget : (StoreM.get (s.key name)).on env with ⟨e | v, env₁⟩
  · have hquiet := StoreM.quiet_get hget
    exact ⟨hquiet.events_eq, .inl (hquiet.same.slot_eq _ id)⟩
  · obtain ⟨hv, hslot⟩ := StoreM.get_ok hget
    rw [hget] at hevents
    dsimp only at hevents ⊢
    cases v with
    | none => exact ⟨hevents, .inr hslot⟩
    | some bytes =>
      obtain ⟨e, he, rfl⟩ := Option.map_eq_some_iff.mp hv.symm
      obtain ⟨a, ha⟩ := Option.isSome_iff_exists.mp (h.filter _ e he)
      simp only [ha]
      exact ⟨hevents, .inr hslot⟩

end Shelf

/-! ## Whatever fails -/

/-- **A record that lasts is read, or the reading fails**; nothing else happens. -/
theorem Lasts.load_any {r : Option α} (hclock : env.store.ownClock = none) (hP : P env.now)
    (hl : Lasts P r (env.slot (s.key name))) :
    env.Quiet ((s.load name : StoreM (Option α)).on env).2 ∧
      ∀ a, ((s.load name : StoreM (Option α)).on env).1 = .ok a → a = r := by
  have htime : env.store.time env.now = env.now := by simp [Store.time, hclock]
  obtain ⟨hr, hslot⟩ := hl env.now hP
  have hframe : Env.Frame (· = s.key name) env ((s.load name : StoreM (Option α)).on env).2 :=
    (Shelf.uses_load (α := α) (K := (· = s.key name)) rfl).touches env
  obtain ⟨hevents, hkept⟩ := Shelf.load_legible (hl.legible hP)
  -- an entry that is read has not expired
  have hfilter : ((env.slot (s.key name)).filter fun e => !e.expired (env.store.time env.now)) =
      env.slot (s.key name) := by
    rw [htime]
    cases hs : env.slot (s.key name) with
    | none => rfl
    | some e =>
      rw [hs] at hslot
      have hholds := (Option.filter_eq_some_iff.mp hslot).2
      rw [Option.filter_some, if_pos (Bool.and_eq_true _ _ ▸ hholds).1]
  rw [hfilter, or_self] at hkept
  refine ⟨⟨Env.Puts.same ⟨hframe, hkept⟩, hevents⟩, fun a ha => ?_⟩
  rw [(Shelf.load_ok (Prod.ext ha rfl)).1, Env.record, htime, hr]

/-- A record is saved, or nothing happens. -/
theorem Shelf.save_any (s : Shelf) (name : String) (hclock : env.store.ownClock = none) (a : α)
    (ttl : Option Duration) :
    (∃ e env', (s.save name a ttl).on env = (.error e, env') ∧ env.Quiet env') ∨
      ∃ env', (s.save name a ttl).on env = (.ok (), env') ∧
        env.Puts (s.key name) (some (TimedMap.entryAt env.now (Binary.encode a) ttl)) env' ∧
        env'.events = env.events := by
  have htime : env.store.time env.now = env.now := by simp [Store.time, hclock]
  have hevents : ((s.save name a ttl).on env).2.events = env.events := StoreM.events_call _ _ env
  rcases hsave : (s.save name a ttl).on env with ⟨e | _, env'⟩
  · exact .inl ⟨e, env', rfl, StoreM.quiet_set hsave⟩
  · rw [hsave] at hevents
    have hput := StoreM.set_ok hsave
    rw [htime] at hput
    exact .inr ⟨env', rfl, hput, hevents⟩

/-- **What is added to a counter that lasts is counted, or nothing happens.** -/
theorem Counts.increment_any {n : UInt64} (hclock : env.store.ownClock = none) (hP : P env.now)
    (hc : Counts P n (env.slot (s.key name))) (ttl : Duration)
    (httl : ∀ now, P now → now < satAdd env.now ttl.millis) :
    (∃ e env', (s.increment name ttl).on env = (.error e, env') ∧ env.Quiet env') ∨
      ∃ env' slot, (s.increment name ttl).on env = (.ok (satAdd n 1), env') ∧
        env.Puts (s.key name) slot env' ∧ Counts P (satAdd n 1) slot ∧
        env'.events = env.events := by
  obtain ⟨hcount, hcounts⟩ := hc.incremented hP ttl httl
  obtain ⟨r, hlasts, _⟩ := hc
  have hr := (hlasts env.now hP).1
  unfold Turnstile.incremented at hcounts
  rw [hr] at hcount hcounts
  unfold Shelf.increment
  rw [StoreM.on_bind_of_ok (StoreM.on_now env), StoreM.on_bind]
  obtain ⟨hquiet, hanswer⟩ := hlasts.load_any hclock hP
  rcases hload : (s.load name : StoreM (Option Counter)).on env with ⟨e | r', env₁⟩
  · rw [hload] at hquiet
    exact .inl ⟨e, env₁, rfl, hquiet⟩
  · rw [hload] at hquiet hanswer
    obtain rfl := hanswer r' rfl
    dsimp only
    have hclock₁ : env₁.store.ownClock = none := hquiet.same.ownClock_eq.trans hclock
    rw [StoreM.on_bind]
    rcases s.save_any name hclock₁ (Counter.next r' env.now ttl)
      (some (.ofMillis (satSub (Counter.next r' env.now ttl).endsAt env.now))) with
      ⟨e, env₂, hsave, hquiet₂⟩ | ⟨env₂, hsave, hput, hevents⟩
    · rw [hsave]
      exact .inl ⟨e, env₂, rfl, hquiet.trans hquiet₂⟩
    · rw [hsave, ← hcount]
      rw [hquiet.same.now_eq, entryAt_until (Counter.le_endsAt_next _ env.now ttl)] at hput
      rw [← hcount] at hcounts
      exact .inr ⟨env₂, _, rfl, ⟨(hquiet.same.frame _).trans hput.frame, hput.slot_key⟩, hcounts,
        hevents.trans hquiet.events_eq⟩

/-- A counter that can be read can be read when something was added to it, and nothing is logged. -/
theorem Shelf.increment_legible (h : Legible Counter (env.slot (s.key name))) (ttl : Duration) :
    ((s.increment name ttl).on env).2.events = env.events ∧
      Legible Counter (((s.increment name ttl).on env).2.slot (s.key name)) := by
  unfold increment
  rw [StoreM.on_bind_of_ok (StoreM.on_now env), StoreM.on_bind]
  obtain ⟨hevents, hkept⟩ := load_legible h
  have hlegible : Legible Counter
      (((s.load name : StoreM (Option Counter)).on env).2.slot (s.key name)) := by
    rcases hkept with hslot | hslot <;> rw [hslot]
    · exact h
    · exact h.filter _
  rcases hload : (s.load name : StoreM (Option Counter)).on env with ⟨e | r, env₁⟩ <;>
    rw [hload] at hevents hlegible
  · exact ⟨hevents, hlegible⟩
  · dsimp only
    rw [StoreM.on_bind]
    have hevents₂ : ((s.save name (Counter.next r env.now ttl) (some (.ofMillis
        (satSub (Counter.next r env.now ttl).endsAt env.now)))).on env₁).2.events = env₁.events :=
      StoreM.events_call _ _ env₁
    rcases hsave : (s.save name (Counter.next r env.now ttl) (some (.ofMillis
        (satSub (Counter.next r env.now ttl).endsAt env.now)))).on env₁ with ⟨e | _, env₂⟩ <;>
      rw [hsave] at hevents₂
    · have hquiet := StoreM.quiet_set hsave
      refine ⟨hquiet.events_eq.trans hevents, ?_⟩
      dsimp only
      rw [hquiet.same.slot_eq _ id]
      exact hlegible
    · refine ⟨hevents₂.trans hevents, ?_⟩
      dsimp only [StoreM.on_pure]
      rw [(StoreM.set_ok hsave).slot_key]
      exact legible_written (Counter.exact _) _

end Turnstile
