import Turnstile.Proofs.Circuit.Shut
import Turnstile.Proofs.Circuit.Tally

/-!
# When circuits opened

A circuit opens at an instant, its record is written there with a time to live, and nothing writes
it again before it stops being open.  So whatever is read as an open circuit says when it opened, and
is kept for that time from then on.

* `Breaker.Dated`: such a slot, and `Breaker.Dated.moved`: moves keep it so.
* `Breaker.OpenSince`, `Breaker.Bars`, `Breaker.Overdue`: the record of an open circuit, before and
  after its timeout is over.
* `Breaker.Dated.poll_eq_false_iff`: whom a circuit turns away.
* `Breaker.record_polled`: what a poll makes of a record.
-/

set_option autoImplicit false

namespace Turnstile

open Circuit (Key seen)

/-- A store that runs on the clock of its callers reads a record at their instant. -/
theorem Env.Healthy.record_eq {α : Type} [Binary α] {env : Env} (h : env.Healthy) (s : Shelf)
    (name : String) : env.record α s name = recordIn α env.now (env.slot (s.key name)) := by
  unfold Env.record Store.time
  rw [h.ownClock_eq]
  rfl

namespace Circuit

variable {c : Circuit} {t : Thresholds} {now : UInt64}

/-- A poll writes the record of a circuit that is open and whose timeout is over, and no other. -/
theorem snd_poll_ne_iff : (c.poll t now).2 ≠ c ↔ c.state = .open ∧ c.rested t now = true := by
  rw [Ne, snd_poll_eq_iff]
  unfold poll
  cases hs : c.state with
  | closed => simp [hs]
  | halfOpen => simp [hs]
  | «open» => cases c.rested t now <;> simp [hs]

theorem snd_poll_of_rested (hs : c.state = .open) (hr : c.rested t now = true) :
    (c.poll t now).2 = { c with state := .halfOpen, successes := 0 } := by
  simp [poll, hs, hr]

/-- A move dates a circuit if it opens one at the instant only. -/
def DatesAt (now : UInt64) (move : Circuit → Circuit) : Prop :=
  ∀ c, move c ≠ c → (move c).state = .open → (move c).openedAt = some now

theorem datesAt_poll (t : Thresholds) (now : UInt64) : DatesAt now fun c => (c.poll t now).2 := by
  intro c hne hopen
  obtain ⟨hs, hr⟩ := snd_poll_ne_iff.mp hne
  dsimp only at hopen
  rw [snd_poll_of_rested hs hr] at hopen
  cases hopen

theorem datesAt_succeed (t : Thresholds) (now : UInt64) : DatesAt now fun c => c.succeed t := by
  intro c hne hopen
  by_cases hs : c.state = .open
  · exact absurd (by simp only [succeed, hs]) hne
  · exact absurd hopen (state_succeed hs t)

theorem datesAt_fail (t : Thresholds) (now : UInt64) : DatesAt now fun c => c.fail t now := by
  intro c hne hopen
  by_cases hs : c.state = .open
  · exact absurd (fail_of_open hs t now) hne
  · rcases fail_cases hs t now with ⟨_, hopened⟩ | ⟨_, hclosed, _⟩
    · exact hopened
    · exact absurd (hopen.symm.trans hclosed) (by decide)

end Circuit

namespace Breaker

open Circuit (DatesAt)

variable {b : Breaker} {key : Key} {env : Env} {slot : Option Entry} {now later opened : UInt64}

/-! ## Slots -/

/-- Whatever can be read from a slot as an open circuit says when it opened, and its deadline is
that instant and the time to live. -/
def Dated (b : Breaker) (slot : Option Entry) : Prop :=
  ∀ e ∈ slot, ∀ c : Circuit, Binary.read? e.value = some c → c.state = .open →
    ∃ opened, c.openedAt = some opened ∧
      e.deadline = some (satAdd opened b.settings.recordTtl.millis)

theorem dated_none (b : Breaker) : b.Dated none := nofun

theorem Dated.readable (h : b.Dated slot) (now : UInt64) : b.Dated (readable Circuit now slot) :=
  fun e he => h e (Option.filter_eq_some_iff.mp he).1

theorem Dated.moved {move : Circuit → Circuit} (h : b.Dated slot) (hmove : DatesAt now move) :
    b.Dated (b.moved now move slot) := by
  unfold Breaker.moved
  split
  · exact h.readable now
  · rename_i hne
    rintro e ⟨⟩ c hread hopen
    obtain rfl : move (seen now slot) = c :=
      Option.some.inj ((Binary.read?_encode (Circuit.exact_circuit _)).symm.trans hread)
    exact ⟨now, hmove _ hne hopen, rfl⟩

/-! ## Records -/

/-- The record of a circuit is there, and is that of one that has been open since an instant. -/
def OpenSince (b : Breaker) (key : Key) (opened : UInt64) (env : Env) : Prop :=
  ∃ c, env.record Circuit b.shelf key.text = some c ∧ c.state = .open ∧ c.openedAt = some opened

/-- The record of a circuit is that of an open one whose timeout is not over. -/
def Bars (b : Breaker) (key : Key) (env : Env) : Prop :=
  ∃ opened, b.OpenSince key opened env ∧
    env.now.toNat - opened.toNat ≤ b.thresholds.timeout.toNat

/-- The record of a circuit is that of an open one whose timeout is over. -/
def Overdue (b : Breaker) (key : Key) (env : Env) : Prop :=
  ∃ opened, b.OpenSince key opened env ∧
    b.thresholds.timeout.toNat < env.now.toNat - opened.toNat

theorem seen_of_record (h : env.Healthy) {c : Circuit}
    (hc : env.record Circuit b.shelf key.text = some c) :
    seen env.now (env.slot (b.shelf.key key.text)) = c := by
  rw [seen, ← h.record_eq, hc, Option.getD_some]

/-- What is seen as an open circuit is the record of one that is there. -/
theorem record_of_open (h : env.Healthy)
    (hopen : (seen env.now (env.slot (b.shelf.key key.text))).state = .open) :
    env.record Circuit b.shelf key.text =
      some (seen env.now (env.slot (b.shelf.key key.text))) := by
  rw [h.record_eq, seen] at *
  cases hr : recordIn Circuit env.now (env.slot (b.shelf.key key.text)) with
  | none =>
    rw [hr] at hopen
    cases hopen
  | some c => rfl

/-- An entry from which a record is read. -/
theorem entry_of_recordIn {c : Circuit} (h : recordIn Circuit now slot = some c) :
    ∃ e ∈ slot, Binary.read? e.value = some c ∧ e.expired now = false := by
  cases slot with
  | none => cases h
  | some e =>
    rw [recordIn_some] at h
    split at h
    · cases h
    · rename_i he
      exact ⟨e, rfl, h, by simpa using he⟩

/-- **An open circuit knows when it opened**, and its record has not expired. -/
theorem Dated.openSince (hdated : b.Dated (env.slot (b.shelf.key key.text))) (h : env.Healthy)
    (hopen : (seen env.now (env.slot (b.shelf.key key.text))).state = .open) :
    ∃ opened, b.OpenSince key opened env ∧
      (seen env.now (env.slot (b.shelf.key key.text))).openedAt = some opened ∧
      env.now < satAdd opened b.settings.recordTtl.millis := by
  have hrecord := record_of_open h hopen
  obtain ⟨e, he, hread, hlive⟩ := entry_of_recordIn ((h.record_eq _ _).symm.trans hrecord)
  obtain ⟨opened, hopened, hdeadline⟩ := hdated e he _ hread hopen
  refine ⟨opened, ⟨_, hrecord, hopen, hopened⟩, hopened, ?_⟩
  simpa [Entry.expired, hdeadline] using hlive

theorem rested_iff {c : Circuit} {t : Circuit.Thresholds} (h : c.openedAt = some opened) :
    c.rested t now = true ↔ t.timeout.toNat < now.toNat - opened.toNat := by
  simp [Circuit.rested, h, UInt64.lt_iff_toNat_lt, toNat_satSub]

/-- **A circuit turns a caller away exactly when its record bars the way.** -/
theorem Dated.poll_eq_false_iff (hdated : b.Dated (env.slot (b.shelf.key key.text)))
    (h : env.Healthy) :
    ((seen env.now (env.slot (b.shelf.key key.text))).poll b.thresholds env.now).1 = false ↔
      b.Bars key env := by
  rw [Circuit.fst_poll_eq_false_iff]
  constructor
  · rintro ⟨hopen, hrested⟩
    obtain ⟨opened, hsince, hopened, -⟩ := hdated.openSince h hopen
    refine ⟨opened, hsince, ?_⟩
    rw [← Bool.not_eq_true, rested_iff hopened] at hrested
    omega
  · rintro ⟨opened, ⟨c, hc, hopen, hopened⟩, hle⟩
    rw [seen_of_record h hc, ← Bool.not_eq_true, rested_iff hopened]
    exact ⟨hopen, by omega⟩

/-- A poll writes a record exactly when it is overdue. -/
theorem Dated.poll_ne_iff (hdated : b.Dated (env.slot (b.shelf.key key.text))) (h : env.Healthy) :
    ((seen env.now (env.slot (b.shelf.key key.text))).poll b.thresholds env.now).2 ≠
        seen env.now (env.slot (b.shelf.key key.text)) ↔
      b.Overdue key env := by
  rw [Circuit.snd_poll_ne_iff]
  constructor
  · rintro ⟨hopen, hrested⟩
    obtain ⟨opened, hsince, hopened, -⟩ := hdated.openSince h hopen
    exact ⟨opened, hsince, (rested_iff hopened).mp hrested⟩
  · rintro ⟨opened, ⟨c, hc, hopen, hopened⟩, hlt⟩
    rw [seen_of_record h hc, rested_iff hopened]
    exact ⟨hopen, hlt⟩

/-! ## What a poll leaves -/

/-- The entry of a slot after a poll of a record that is not overdue is read as it was. -/
theorem Dated.record_polled (hdated : b.Dated (env.slot (b.shelf.key key.text))) (h : env.Healthy)
    (hover : ¬ b.Overdue key env) (hlater : env.now ≤ later) :
    recordIn Circuit later (b.moved env.now (fun c => (c.poll b.thresholds env.now).2)
        (env.slot (b.shelf.key key.text))) =
      recordIn Circuit later (env.slot (b.shelf.key key.text)) := by
  rw [moved_of_same (Decidable.not_not.mp (mt (hdated.poll_ne_iff h).mp hover)),
    recordIn_readable_later hlater]

/-- **An overdue circuit becomes half-open by a poll**, for the time to live of its record. -/
theorem Dated.record_polled_of_overdue (hdated : b.Dated (env.slot (b.shelf.key key.text)))
    (h : env.Healthy) (hnow : env.now < maxWord) (hover : b.Overdue key env) :
    ∃ c, env.record Circuit b.shelf key.text = some c ∧
      env.now < satAdd env.now b.settings.recordTtl.millis ∧
      ∀ later, recordIn Circuit later (b.moved env.now (fun c => (c.poll b.thresholds env.now).2)
          (env.slot (b.shelf.key key.text))) =
        if later < satAdd env.now b.settings.recordTtl.millis then
          some { c with state := .halfOpen, successes := 0 }
        else none := by
  have hmoved := (hdated.poll_ne_iff h).mpr hover
  obtain ⟨hopen, hrested⟩ := Circuit.snd_poll_ne_iff.mp hmoved
  obtain ⟨opened, -, hopened, hlive⟩ := hdated.openSince h hopen
  refine ⟨_, record_of_open h hopen, ?_, fun later => ?_⟩
  · -- the record has outlived the timeout, so its time to live is not zero
    have hpast := (rested_iff hopened).mp hrested
    rw [lt_satAdd_iff hnow] at hlive ⊢
    omega
  · rw [Breaker.moved, if_neg hmoved, entry, Circuit.snd_poll_of_rested hopen hrested]
    exact recordIn_written (Circuit.exact_circuit _)

end Breaker

end Turnstile
