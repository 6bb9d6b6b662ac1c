import Turnstile.Proofs.Circuit.Slot
import Turnstile.Proofs.Quota.Account
import Turnstile.Proofs.Storage.PrefixFree
import Turnstile.Proofs.Violation.Tallies

/-!
# Records in a healthy store

A record that is saved is there until its time to live is over, and more bytes after its own do no
harm.  A record that is torn is not taken for another one: reading it removes it, and nothing else.

* `Shelf.Durable`: what becomes of a record.
* `Shelf.durable_of_exact`: exact values of types that stream are durable.
* `Shelf.durable_records`: all types of records are durable.
-/

set_option autoImplicit false

namespace Turnstile

open Binary (Short Torn)

/-! ## Types of records -/

theorem exact_algorithm (a : Algorithm) : Binary.Exact a := by
  have hindex : Algorithm.ofIndex? a.index = some a := by cases a <;> rfl
  exact Binary.exact_narrow hindex (Binary.exact_word32 a.index)

theorem Policy.exact {p : Policy} (h : Short p.name) : Binary.Exact p :=
  Binary.exact_narrow rfl (Binary.exact_pair (Binary.exact_text h)
    (Binary.exact_pair (Binary.exact_word p.window) (Binary.exact_pair
      (Binary.exact_word p.maxRequests) (Binary.exact_pair
        (Binary.exact_option fun b _ => Binary.exact_word b) (exact_algorithm p.algorithm)))))

section Streams

open Binary

theorem streams_policy : Streams Policy :=
  streams_narrow (streams_pair streams_text (streams_pair streams_word (streams_pair streams_word
    (streams_pair (streams_option streams_word) (streams_narrow streams_word32 _ _))))) _ _

theorem streams_circuit : Streams Circuit :=
  streams_narrow (streams_pair (streams_narrow streams_word32 _ _) (streams_pair streams_word32
    (streams_pair streams_word32 (streams_option streams_word)))) _ _

theorem streams_windowCounter : Streams WindowCounter :=
  streams_narrow (streams_pair streams_word streams_word) _ _

theorem streams_slidingLog : Streams SlidingLog := streams_narrow (streams_list streams_word) _ _

theorem streams_block : Streams Block := streams_narrow streams_word _ _

theorem streams_counter : Streams Counter :=
  streams_narrow (streams_pair streams_word streams_word) _ _

theorem streams_outcomes : Streams Violation.Outcomes :=
  streams_narrow (streams_pair streams_word streams_word) _ _

theorem streams_roster : Streams Violation.Roster := streams_narrow streams_texts _ _

end Streams

/-! ## What becomes of a record -/

namespace Shelf

variable {α : Type} [Binary α]

/-- What becomes of a record on any shelf of a healthy store, under any name. -/
structure Durable (a : α) : Prop where
  /-- What was saved is loaded as long as its time to live runs. -/
  kept : ∀ (s : Shelf) (name : String) (env : Env) (ttl : Option Duration) (later : UInt64),
    env.Healthy → (∀ d ∈ ttl, later < satAdd env.now d.millis) →
    ∃ env₁ env₂, (s.save name a ttl).on env = (.ok (), env₁) ∧
      (s.load name : StoreM (Option α)).on (env₁.setClock later) = (.ok (some a), env₂) ∧
      (env₁.setClock later).Same env₂
  /-- What follows its bytes in an entry does not matter. -/
  followed : ∀ (s : Shelf) (name : String) (env : Env) (more : Bytes) (deadline : Option UInt64),
    env.Healthy → (∀ d ∈ deadline, env.now < d) →
    env.slot (s.key name) = some ⟨Binary.encode a ++ more, deadline⟩ →
    ∃ env', (s.load name : StoreM (Option α)).on env = (.ok (some a), env') ∧ env.Same env'
  /-- An entry with a part of its bytes reads as missing.  It is removed, and no other one is. -/
  torn : ∀ (s : Shelf) (name : String) (env : Env) (bytes : Bytes) (deadline : Option UInt64),
    env.Healthy → (∀ d ∈ deadline, env.now < d) → Torn bytes (Binary.encode a) →
    env.slot (s.key name) = some ⟨bytes, deadline⟩ →
    ∃ env', (s.load name : StoreM (Option α)).on env = (.ok none, env') ∧
      env.Puts (s.key name) none env'

/-! ## Loading an entry that counts -/

section Load

variable {a : α} {e : Entry} {env : Env} (s : Shelf) (name : String)

theorem expired_eq_false_iff {now : UInt64} : e.expired now = false ↔ ∀ d ∈ e.deadline, now < d := by
  cases hd : e.deadline <;> simp [Entry.expired, hd]

theorem load_of_read (h : env.Healthy) (hslot : env.slot (s.key name) = some e)
    (hlive : ∀ d ∈ e.deadline, env.now < d) (hread : Binary.read? e.value = some a) :
    ∃ env', (s.load name : StoreM (Option α)).on env = (.ok (some a), env') ∧ env.Same env' := by
  have hexpired := expired_eq_false_iff.mpr hlive
  obtain ⟨env', hload, hput⟩ := s.load_of_healthy (α := α) name h
  rw [hslot, recordIn_some, hexpired, hread] at hload
  have hholds : Entry.holds α env.now e = true := by
    rw [Entry.holds, hexpired, hread]
    rfl
  rw [hslot, readable, Option.filter_some, if_pos hholds, ← hslot] at hput
  exact ⟨env', hload, hput.same⟩

theorem load_of_unread (h : env.Healthy) (hslot : env.slot (s.key name) = some e)
    (hread : (Binary.read? e.value : Option α) = none) :
    ∃ env', (s.load name : StoreM (Option α)).on env = (.ok none, env') ∧
      env.Puts (s.key name) none env' := by
  obtain ⟨env', hload, hput⟩ := s.load_of_healthy (α := α) name h
  have hholds : ¬ Entry.holds α env.now e = true := by simp [Entry.holds, hread]
  rw [hslot, recordIn_some, hread, ite_self] at hload
  rw [hslot, readable, Option.filter_some, if_neg hholds] at hput
  exact ⟨env', hload, hput⟩

end Load

/-- **Exact values of types that stream are durable.** -/
theorem durable_of_exact (hα : Binary.Streams α) {a : α} (ha : Binary.Exact a) : Durable a where
  kept := by
    intro s name env ttl later h hrunning
    obtain ⟨env₁, hsave, hput⟩ := s.save_of_healthy name h a ttl
    have hlive : ∀ d ∈ (TimedMap.entryAt env.now (Binary.encode a) ttl).deadline, later < d := by
      intro _ hd
      obtain ⟨d, httl, rfl⟩ := Option.map_eq_some_iff.mp hd
      exact hrunning d httl
    obtain ⟨env₂, hload, hsame⟩ := s.load_of_read name ((hput.healthy h).setClock later)
      hput.slot_key hlive (Binary.read?_encode ha)
    exact ⟨env₁, env₂, hsave, hload, hsame⟩
  followed := by
    intro s name env more deadline h hlive hslot
    refine s.load_of_read name h hslot hlive ?_
    rw [Binary.read?, ha more, Option.map_some]
  torn := by
    intro s name env bytes deadline h _ htorn hslot
    exact s.load_of_unread name h hslot (Binary.read?_of_torn hα ha htorn)

/-- **Every record is durable**: a pair of a word and a text, a policy, a circuit, a window of either
kind, a counter, a block, the outcomes of an hour and a roster.  Texts and lists have lengths that
are words. -/
theorem durable_records :
    (∀ (n : UInt64) (s : String), Short s → Durable (n, s)) ∧
    (∀ p : Policy, Short p.name → Durable p) ∧
    (∀ c : Circuit, Durable c) ∧
    (∀ c : WindowCounter, Durable c) ∧
    (∀ l : SlidingLog, l.times.length < wordCount → Durable l) ∧
    (∀ c : Counter, Durable c) ∧
    (∀ b : Block, Durable b) ∧
    (∀ o : Violation.Outcomes, Durable o) ∧
    (∀ r : Violation.Roster, r.Small → Durable r) := by
  refine ⟨fun n s hs => ?_, fun p hp => ?_, fun c => ?_, fun c => ?_, fun l hl => ?_, fun c => ?_,
    fun b => ?_, fun o => ?_, fun r hr => ?_⟩
  · exact durable_of_exact (Binary.streams_pair Binary.streams_word Binary.streams_text)
      (Binary.exact_pair (Binary.exact_word n) (Binary.exact_text hs))
  · exact durable_of_exact streams_policy (Policy.exact hp)
  · exact durable_of_exact streams_circuit (Circuit.exact_circuit c)
  · exact durable_of_exact streams_windowCounter (Account.exact_counter c)
  · exact durable_of_exact streams_slidingLog (Account.exact_log hl)
  · exact durable_of_exact streams_counter c.exact
  · exact durable_of_exact streams_block (Account.exact_block b)
  · exact durable_of_exact streams_outcomes (Monitor.Outcomes.exact o)
  · exact durable_of_exact streams_roster hr.exact

/-- A store in which the first three bytes of a record are left. -/
def leftover : Env :=
  .start 1000 ⟨TimedMap.empty.set 0 "admission:visits" [7, 0, 0] none, none, false, 0⟩

/-- The leftover of a pair is removed. -/
theorem durable_leftover :
    ∃ env', (load ⟨"admission:"⟩ "visits" : StoreM (Option (UInt64 × String))).on leftover =
        (.ok none, env') ∧ leftover.Puts "admission:visits" none env' := by
  have hslot : leftover.slot "admission:visits" = some ⟨[7, 0, 0], none⟩ :=
    Std.ExtTreeMap.getElem?_insert_self
  exact (durable_records.1 7 "alice" (by decide)).torn ⟨"admission:"⟩ "visits" leftover [7, 0, 0]
    none ⟨rfl, rfl, rfl⟩ nofun (by decide) hslot

end Shelf

end Turnstile
