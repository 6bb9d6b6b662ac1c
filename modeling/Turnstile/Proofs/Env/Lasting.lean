import Turnstile.Proofs.Env.Healthy

/-!
# Records that last

A record lasts for some instants if it is read at each of them and no reading drops it.  What is
written with a deadline lasts for all instants before that; a counter that is over later than all of
them counts whatever is added to it.

* `Lasts`: a slot that is read alike at some instants.
* `Lasts.load`: reading it.
* `Counts`: a slot with a counter that goes on counting.
* `Counts.counter`, `Counts.incremented`: reading the counter and adding to it.
* `Env.Mortal`: a store that keeps nothing for ever.
-/

set_option autoImplicit false

namespace Turnstile

variable {α : Type} [Binary α] {P : UInt64 → Prop} {slot : Option Entry} {s : Shelf} {name : String}
  {env : Env}

/-- At some instants a record, or none, is read from a slot, and reading leaves the slot. -/
def Lasts (P : UInt64 → Prop) (r : Option α) (slot : Option Entry) : Prop :=
  ∀ now, P now → recordIn α now slot = r ∧ readable α now slot = slot

theorem lasts_none : Lasts P (none : Option α) none := fun _ _ => ⟨rfl, rfl⟩

theorem lasts_written {a : α} (ha : Binary.Exact a) {deadline : UInt64}
    (h : ∀ now, P now → now < deadline) :
    Lasts P (some a) (some ⟨Binary.encode a, some deadline⟩) := by
  intro now hnow
  rw [recordIn_written ha, readable_written ha, if_pos (h now hnow), if_pos (h now hnow)]
  exact ⟨rfl, rfl⟩

theorem Lasts.load {r : Option α} (h : env.Healthy) (hP : P env.now)
    (hl : Lasts P r (env.slot (s.key name))) :
    ∃ env', (s.load name).on env = (.ok r, env') ∧ env.Same env' := by
  obtain ⟨env', hload, hput⟩ := s.load_of_healthy (α := α) name h
  obtain ⟨hr, hslot⟩ := hl env.now hP
  rw [hr] at hload
  rw [hslot] at hput
  exact ⟨env', hload, hput.same⟩

/-! ## Counters -/

/-- A slot with a counter, or none, that reads a number and is not over at any of some instants. -/
def Counts (P : UInt64 → Prop) (n : UInt64) (slot : Option Entry) : Prop :=
  ∃ r : Option Counter, Lasts P r slot ∧ (r.map Counter.count).getD 0 = n ∧
    ∀ c ∈ r, ∀ now, P now → now < c.endsAt

theorem counts_none : Counts P 0 none := ⟨none, lasts_none, rfl, nofun⟩

variable {n : UInt64}

/-- A counter that lasts reads its number. -/
theorem Counts.reading {now : UInt64} (hc : Counts P n slot) (hP : P now) :
    Counter.reading (recordIn Counter now slot) now = n := by
  obtain ⟨r, hlasts, hcount, hends⟩ := hc
  rw [(hlasts now hP).1]
  cases r with
  | none => exact hcount
  | some c =>
    rw [Counter.reading_of_lt (hends c rfl now hP)]
    exact hcount

theorem Counts.counter (h : env.Healthy) (hP : P env.now)
    (hc : Counts P n (env.slot (s.key name))) :
    ∃ env', (s.counter name).on env = (.ok n, env') ∧ env.Same env' := by
  obtain ⟨env', hcounter, hput⟩ := s.counter_of_healthy name h
  rw [hc.reading hP] at hcounter
  obtain ⟨r, hlasts, _⟩ := hc
  rw [(hlasts env.now hP).2] at hput
  exact ⟨env', hcounter, hput.same⟩

/-- **What is added to a counter that lasts is counted**, and the counter goes on to last. -/
theorem Counts.incremented {now : UInt64} (hnow : P now) (hc : Counts P n slot) (ttl : Duration)
    (httl : ∀ later, P later → later < satAdd now ttl.millis) :
    (Counter.next (recordIn Counter now slot) now ttl).count = satAdd n 1 ∧
      Counts P (satAdd n 1) (incremented now ttl slot) := by
  obtain ⟨r, hlasts, hcount, hends⟩ := hc
  have hnext : (Counter.next r now ttl).count = satAdd n 1 ∧
      ∀ later, P later → later < (Counter.next r now ttl).endsAt := by
    cases r with
    | none =>
      rw [← hcount]
      exact ⟨rfl, httl⟩
    | some c =>
      rw [Counter.next_of_lt (hends c rfl now hnow), ← hcount]
      exact ⟨rfl, hends c rfl⟩
  unfold Turnstile.incremented
  rw [(hlasts now hnow).1]
  refine ⟨hnext.1, _, lasts_written (Counter.exact _) hnext.2, hnext.1, ?_⟩
  rintro c ⟨⟩
  exact hnext.2

theorem Counts.increment (h : env.Healthy) (hP : P env.now)
    (hc : Counts P n (env.slot (s.key name))) (ttl : Duration)
    (httl : ∀ now, P now → now < satAdd env.now ttl.millis) :
    ∃ env' slot, (s.increment name ttl).on env = (.ok (satAdd n 1), env') ∧
      env.Puts (s.key name) slot env' ∧ Counts P (satAdd n 1) slot := by
  obtain ⟨env', hincrement, hput⟩ := s.increment_of_healthy name ttl h
  obtain ⟨hcount, hcounts⟩ := hc.incremented hP ttl httl
  rw [hcount] at hincrement
  exact ⟨env', _, hincrement, hput, hcounts⟩

/-- Reading a counter, at any instant, leaves one that goes on counting. -/
theorem Counts.readable {now : UInt64} (hc : ∃ n, Counts P n slot) :
    ∃ n, Counts P n (readable Counter now slot) := by
  unfold Turnstile.readable
  cases slot with
  | none => exact hc
  | some e =>
    rw [Option.filter_some]
    split
    · exact hc
    · exact ⟨0, counts_none⟩

/-! ## Deadlines -/

/-- Nothing is kept for ever: all entries have expired when the clock stands at its end. -/
def Env.Mortal (env : Env) : Prop := ∀ key e, env.slot key = some e → e.expired maxWord = true

theorem Env.mortal_start (now : UInt64) : (start now (.empty none)).Mortal := by
  intro key e h
  rw [slot_start] at h
  cases h

/-- What is not kept for ever is not there when the clock stands at its end. -/
theorem Env.Mortal.readable_eq_none {env : Env} (h : env.Mortal) (key : String) :
    readable α maxWord (env.slot key) = none := by
  unfold readable
  cases hs : env.slot key with
  | none => rfl
  | some e => simp [Option.filter_some, Entry.holds, h key e hs]

theorem expired_maxWord {value : Bytes} {now : UInt64} {ttl : Duration} :
    (TimedMap.entryAt now value (some ttl)).expired maxWord = true := by
  simpa [Entry.expired, TimedMap.entryAt, UInt64.le_iff_toNat_le, toNat_maxWord] using
    toNat_le_max (satAdd now ttl.millis)

/-- Everything that is written has a deadline. -/
theorem Env.steady_mortal (K : String → Prop) (C : (Metrics → Metrics) → Prop) :
    Env.Steady K C fun env env' => env.Mortal → env'.Mortal := by
  -- what the store has after a call was there before, or is written with a deadline
  have hcall : ∀ {β : Type} {op : UInt64 → Store → Except StoreError β × Store}
      {record : Except StoreError β → Call},
      (∀ now (s : Store) (key : String) (e : Entry),
        (op now s).2.entries.entries[key]? = some e →
          s.entries.entries[key]? = some e ∨ e.expired maxWord = true) → ∀ env : Env, env.Mortal →
      ((StoreM.call op record).on env).2.Mortal := by
    intro β op record hop env h key e he
    rcases StoreM.store_call op record env with hs | hs <;> rw [slot, hs] at he
    · exact h key e he
    · exact (hop env.now env.store key e he).elim (h key e) id
  refine ⟨fun _ h => h, fun _ _ _ h₁ h₂ h => h₂ (h₁ h), fun _ _ h => h, fun _ _ _ h => h,
    fun key _ => hcall fun now s other e he => .inl ?_,
    fun key _ value ttl => hcall fun now s other e he => ?_,
    fun key _ => hcall fun now s other e he => .inl ?_⟩
  · unfold Store.get at he
    split at he
    · exact he
    · by_cases hne : key = other
      · subst hne
        exact (Option.filter_eq_some_iff.mp (TimedMap.getElem?_get _ _ _ ▸ he)).1
      · exact TimedMap.getElem?_get_of_ne hne ▸ he
  · unfold Store.set at he
    split at he
    · exact .inl he
    · by_cases hne : key = other
      · subst hne
        refine .inr ?_
        obtain rfl : TimedMap.entryAt (s.time now) value (some ttl) = e := by
          simpa [TimedMap.set] using he
        exact expired_maxWord
      · exact .inl (by simpa [TimedMap.set, Std.ExtTreeMap.getElem?_insert, hne] using he)
  · unfold Store.delete at he
    split at he
    · exact he
    · by_cases hne : key = other
      · simp [TimedMap.delete, hne] at he
      · simpa [TimedMap.delete, Std.ExtTreeMap.getElem?_erase, hne] using he

end Turnstile
