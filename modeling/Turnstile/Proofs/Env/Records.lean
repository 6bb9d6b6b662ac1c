import Turnstile.Proofs.Env.Frame
import Turnstile.Proofs.Storage.RoundTrip
import Turnstile.Shelf

/-!
# Records in any surroundings

What reading a record gives depends on the slot of its key and on the clock of the store.  Calls may
fail, the store may be away and a slot may hold any bytes: a reading that succeeds gives the record
in the slot, and leaves the slot as it is if there is one.

* `readable`, `recordIn`: what reading a record leaves in its slot, and the record.
* `Env.record`: the record under a name of a shelf.
* `Shelf.load_ok`: a reading that succeeds.
* `StoreM.Answers`: a property of what an operation answers whenever it succeeds.
-/

set_option autoImplicit false

namespace Turnstile

variable {α β : Type}

/-- Whether an entry counts at an instant and holds a record of a type. -/
def Entry.holds (α : Type) [Binary α] (now : UInt64) (e : Entry) : Bool :=
  !e.expired now && (Binary.read? e.value : Option α).isSome

/-- What reading a record at an instant leaves in its slot. -/
def readable (α : Type) [Binary α] (now : UInt64) (slot : Option Entry) : Option Entry :=
  slot.filter (Entry.holds α now)

/-- The record in a slot at an instant. -/
def recordIn (α : Type) [Binary α] (now : UInt64) (slot : Option Entry) : Option α :=
  (readable α now slot).bind fun e => Binary.read? e.value

section Written

variable [Binary α] {a : α} {now deadline : UInt64}

theorem holds_written (ha : Binary.Exact a) :
    Entry.holds α now ⟨Binary.encode a, some deadline⟩ = decide (now < deadline) := by
  simp only [Entry.holds, Entry.expired, Option.any_some, Binary.read?_encode ha,
    Option.isSome_some, Bool.and_true]
  rw [Bool.eq_iff_iff]
  simp

/-- A record that was written with a deadline is there until the deadline. -/
theorem readable_written (ha : Binary.Exact a) :
    readable α now (some ⟨Binary.encode a, some deadline⟩) =
      if now < deadline then some ⟨Binary.encode a, some deadline⟩ else none := by
  rw [readable, Option.filter_some, holds_written ha]
  simp

theorem recordIn_written (ha : Binary.Exact a) :
    recordIn α now (some ⟨Binary.encode a, some deadline⟩) =
      if now < deadline then some a else none := by
  rw [recordIn, readable_written ha]
  split
  · exact Binary.read?_encode ha
  · rfl

/-- A record that was written for a span is read at once. -/
theorem recordIn_entryAt {ttl : Duration} (ha : Binary.Exact a)
    (h : now < satAdd now ttl.millis) :
    recordIn α now (some (TimedMap.entryAt now (Binary.encode a) (some ttl))) = some a :=
  (recordIn_written ha).trans (if_pos h)

end Written

theorem recordIn_some [Binary α] (now : UInt64) (e : Entry) :
    recordIn α now (some e) = if e.expired now then none else Binary.read? e.value := by
  unfold recordIn readable
  rw [Option.filter_some]
  cases he : e.expired now with
  | true => simp [Entry.holds, he]
  | false => cases hr : (Binary.read? e.value : Option α) <;> simp [Entry.holds, he, hr]

/-- A record that is not there at an instant is not there later. -/
theorem recordIn_later [Binary α] {now later : UInt64} (h : now ≤ later) (slot : Option Entry) :
    recordIn α later slot = recordIn α now slot ∨ recordIn α later slot = none := by
  cases slot with
  | none => exact .inl rfl
  | some e =>
    rw [recordIn_some, recordIn_some]
    cases he : e.expired later with
    | true => exact .inr rfl
    | false =>
      cases hn : e.expired now with
      | true => rw [TimedMap.expired_mono h hn] at he; cases he
      | false => exact .inl rfl

/-- An entry that counts at an instant counts before. -/
theorem Entry.holds_of_later [Binary α] {now later : UInt64} (h : now ≤ later) {e : Entry}
    (he : e.holds α later = true) : e.holds α now = true := by
  rw [holds, Bool.and_eq_true] at he ⊢
  refine ⟨?_, he.2⟩
  cases hn : e.expired now with
  | true => rw [TimedMap.expired_mono h hn] at he; cases he.1
  | false => rfl

/-- What reading a record leaves is there later as it would be without the reading. -/
theorem readable_readable_later [Binary α] {now later : UInt64} (h : now ≤ later)
    (slot : Option Entry) : readable α later (readable α now slot) = readable α later slot := by
  unfold readable
  rw [Option.filter_filter]
  congr 1
  funext e
  cases he : e.holds α later with
  | true => rw [Entry.holds_of_later h he]; rfl
  | false => rw [Bool.and_false]

theorem recordIn_readable_later [Binary α] {now later : UInt64} (h : now ≤ later)
    (slot : Option Entry) : recordIn α later (readable α now slot) = recordIn α later slot := by
  rw [recordIn, readable_readable_later h, recordIn]

/-! ## Answers -/

/-- Whenever an operation succeeds, its answer has a property. -/
def StoreM.Answers (P : α → Prop) (x : StoreM α) : Prop :=
  ∀ env env' a, x.on env = (.ok a, env') → P a

namespace StoreM

variable {P : α → Prop}

theorem answers_true (x : StoreM α) : x.Answers fun _ => True := fun _ _ _ _ => trivial

theorem answers_pure {a : α} (h : P a) : (pure a : StoreM α).Answers P := by
  intro env env' b hb
  cases hb
  exact h

theorem answers_bind {Q : β → Prop} {x : StoreM β} {f : β → StoreM α} (hx : x.Answers Q)
    (hf : ∀ b, Q b → (f b).Answers P) : (x >>= f).Answers P := by
  intro env env' a h
  obtain ⟨b, env₁, hb, ha⟩ := ok_of_on_bind h
  exact hf b (hx env env₁ b hb) env₁ env' a ha

/-- A call that succeeds has reached the store. -/
theorem call_ok {op : UInt64 → Store → Except StoreError α × Store}
    {record : Except StoreError α → Call} {env env' : Env} {a : α}
    (h : (call op record).on env = (.ok a, env')) :
    op env.now env.store = (.ok a, env'.store) := by
  rw [on_call] at h
  split at h
  · cases h
  · obtain ⟨hanswer, henv⟩ := Prod.ext_iff.mp h
    exact Prod.ext hanswer (congrArg Env.store henv)

theorem get_ok {key : String} {env env' : Env} {v : Option Bytes}
    (h : (get key).on env = (.ok v, env')) :
    v = ((env.slot key).filter fun e => !e.expired (env.store.time env.now)).map Entry.value ∧
      env'.slot key = (env.slot key).filter fun e => !e.expired (env.store.time env.now) := by
  have h := call_ok h
  unfold Store.get at h
  split at h
  · cases h
  · obtain ⟨hanswer, hstore⟩ := Prod.mk.inj h
    have hv : (env.store.entries.get (env.store.time env.now) key).1 = v := Except.ok.inj hanswer
    rw [TimedMap.fst_get] at hv
    refine ⟨hv.symm, ?_⟩
    unfold Env.slot
    rw [← hstore]
    exact TimedMap.getElem?_get env.store.entries _ key

theorem delete_ok {key : String} {env env' : Env} (h : (delete key).on env = (.ok (), env')) :
    env'.slot key = none := by
  have h := call_ok h
  unfold Store.delete at h
  split at h
  · cases h
  · obtain ⟨_, hstore⟩ := Prod.mk.inj h
    unfold Env.slot
    rw [← hstore]
    simp [TimedMap.delete]

end StoreM

/-! ## Shelves -/

/-- The record under a name of a shelf. -/
def Env.record (α : Type) [Binary α] (env : Env) (s : Shelf) (name : String) : Option α :=
  recordIn α (env.store.time env.now) (env.slot (s.key name))

theorem Env.record_of_frame [Binary α] {K : String → Prop} {env env' : Env} {s : Shelf}
    {name : String} (hf : Env.Frame K env env') (hK : ¬ K (s.key name)) :
    env'.record α s name = env.record α s name := by
  unfold record Store.time
  rw [hf.now_eq, hf.ownClock_eq, hf.slot_eq _ hK]

namespace Shelf

variable [Binary α] {s : Shelf} {name : String} {env env' : Env}

/-- **A reading that succeeds gives the record in the slot**, and leaves it there. -/
theorem load_ok {r : Option α} (h : (s.load name).on env = (.ok r, env')) :
    r = env.record α s name ∧
      env'.slot (s.key name) = readable α (env.store.time env.now) (env.slot (s.key name)) := by
  obtain ⟨v, env₁, hget, hrest⟩ := StoreM.ok_of_on_bind h
  obtain ⟨hv, hslot⟩ := StoreM.get_ok hget
  unfold Env.record recordIn readable
  cases hs : env.slot (s.key name) with
  | none =>
    rw [hs] at hv hslot
    subst hv
    cases hrest
    exact ⟨rfl, hslot⟩
  | some e =>
    rw [hs] at hv hslot
    cases he : e.expired (env.store.time env.now) with
    | true =>
      simp only [Option.filter_some, he] at hv hslot ⊢
      simp only [Entry.holds, he]
      subst hv
      cases hrest
      exact ⟨rfl, hslot⟩
    | false =>
      simp only [Option.filter_some, he] at hv hslot ⊢
      simp only [Entry.holds, he]
      subst hv
      cases hr : (Binary.read? e.value : Option α) with
      | some a =>
        simp only [Bool.not_false, ↓reduceIte, Option.map_some, hr] at hrest
        cases hrest
        exact ⟨by simp [hr], by simpa using hslot⟩
      | none =>
        simp only [Bool.not_false, ↓reduceIte, Option.map_some, hr] at hrest
        obtain ⟨_, env₂, _, hrest⟩ := StoreM.ok_of_on_bind hrest
        obtain ⟨_, env₃, hdel, hrest⟩ := StoreM.ok_of_on_bind hrest
        cases hrest
        exact ⟨by simp, by simpa using StoreM.delete_ok hdel⟩

end Shelf

end Turnstile
