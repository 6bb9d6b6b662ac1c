import Mathlib.Logic.Function.Iterate
import Turnstile.Proofs.Circuit.Lifetime
import Turnstile.Proofs.Circuit.Shut
import Turnstile.Proofs.Circuit.Tally

/-!
# Failures at one instant

A circuit that fails as often as its threshold is open, and refuses callers at the instant at which
it opened.  But between two failures its record has to last, and the store counts the time that a
record lives in whole milliseconds.  A recovery time below half a millisecond leaves it none: every
record has expired when it is written, and the failures never add up.

* `Circuit.refuses_of_failures`: the circuit after enough failures at one instant.
* `Circuit.Memory.answers_failures`, `Circuit.Memory.answers_failures_of_brief`: what callers are
  told after failures, where records last and where they do not.
* `Circuit.Settings.recordTtl_eq_zero_iff`: which recovery times leave a record no time.
* `Breaker.visits_failures`: both for a breaker on its store.
-/

set_option autoImplicit false

namespace Turnstile

namespace Circuit

variable {c : Circuit} {t : Thresholds} {now : UInt64}

/-- A closed circuit that fails as often as its threshold asks for opens at the instant of the
failures. -/
theorem open_of_failures (now : UInt64) {n : Nat} (hc : c.state = .closed)
    (hfew : c.failures.toNat < t.failures.toNat)
    (hmany : t.failures.toNat ≤ c.failures.toNat + n) :
    ((fun c => fail c t now)^[n] c).state = .open ∧
      ((fun c => fail c t now)^[n] c).openedAt = some now := by
  induction n generalizing c with
  | zero => omega
  | succ n ih =>
    rw [Function.iterate_succ_apply]
    rcases fail_cases (by rw [hc]; decide) t now with ⟨hopen, hat⟩ | ⟨_, hclosed, hcount, hstill⟩
    · -- the failures that follow find it open
      rw [Function.iterate_fixed (fail_of_open hopen t now)]
      exact ⟨hopen, hat⟩
    · exact ih hclosed hstill (by omega)

/-- An open circuit refuses callers at the instant at which it opened. -/
theorem refuses_of_openedAt (hopen : c.state = .open) (hat : c.openedAt = some now) :
    (c.poll t now).1 = false := by
  rw [fst_poll_eq_false_iff]
  refine ⟨hopen, ?_⟩
  rw [rested, hat, Option.getD_some, decide_eq_false_iff_not, UInt64.lt_iff_toNat_lt, toNat_satSub]
  omega

/-- **As many failures as the threshold, all at one instant, make a fresh circuit refuse.** -/
theorem refuses_of_failures (hpos : 0 < t.failures.toNat) :
    (((fun c => fail c t now)^[t.failures.toNat] fresh).poll t now).1 = false := by
  obtain ⟨hopen, hat⟩ := open_of_failures (c := fresh) now rfl hpos (Nat.le_add_left ..)
  exact refuses_of_openedAt hopen hat

namespace Memory

open Breaker (Answer Visit)

variable {m : Memory} {ttl : UInt64} {key : Key}

/-- What is left of a memory at the instant of a failure. -/
theorem circuit_lapse_fail (m : Memory) (t : Thresholds) (key : Key) :
    ((m.answer t ttl key ⟨now, .fail⟩).2.lapse ttl now).circuit =
      if (m.lapse ttl now).circuit.fail t now = (m.lapse ttl now).circuit
      then (m.lapse ttl now).circuit
      else if now < satAdd now ttl then (m.lapse ttl now).circuit.fail t now else .fresh := by
  rw [answer, circuit_lapse_put, lapse_lapse (UInt64.le_refl now)]

/-- Where records last, failures at one instant add up. -/
theorem answers_failures (hlast : now < satAdd now ttl) (m : Memory) (t : Thresholds) (key : Key)
    (n : Nat) :
    m.answers t ttl key (List.replicate n ⟨now, .fail⟩ ++ [⟨now, .admits⟩]) =
      List.replicate n .done ++
        [.through (((fun c => fail c t now)^[n] (m.lapse ttl now).circuit).poll t now).1] := by
  induction n generalizing m with
  | zero => rfl
  | succ n ih =>
    have hleft : ((m.answer t ttl key ⟨now, .fail⟩).2.lapse ttl now).circuit =
        (m.lapse ttl now).circuit.fail t now := by
      rw [circuit_lapse_fail, if_pos hlast]
      split
      · rename_i hsame
        exact hsame.symm
      · rfl
    rw [List.replicate_succ, List.replicate_succ, List.cons_append, List.cons_append, answers, ih,
      hleft, Function.iterate_succ_apply]
    rfl

/-- Where a record has expired when it is written, failures leave nothing. -/
theorem answers_failures_of_brief (hbrief : ¬ now < satAdd now ttl)
    (hm : (m.lapse ttl now).circuit = .fresh) (t : Thresholds) (key : Key) (n : Nat) :
    m.answers t ttl key (List.replicate n ⟨now, .fail⟩ ++ [⟨now, .admits⟩]) =
      List.replicate n .done ++ [.through true] := by
  induction n generalizing m with
  | zero => simp [answers, answer, hm, fst_poll_fresh]
  | succ n ih =>
    have hleft : ((m.answer t ttl key ⟨now, .fail⟩).2.lapse ttl now).circuit = .fresh := by
      rw [circuit_lapse_fail, if_neg hbrief, hm, ite_self]
    rw [List.replicate_succ, List.replicate_succ, List.cons_append, List.cons_append, answers,
      ih hleft]
    rfl

end Memory

/-- A recovery time below half a millisecond leaves a record no whole millisecond. -/
theorem Settings.recordTtl_eq_zero_iff (s : Settings) :
    s.recordTtl.millis.toNat = 0 ↔ s.recovery.nanos < 500000 := by
  rw [recordTtl, Duration.millis, toNat_wordOfNat]
  simp only [Duration.wholeMillis, Duration.double, Duration.ofNanos, Duration.perMilli, wordCount]
  omega

end Circuit

namespace Breaker

open Circuit (Key Memory)

/-- The store has a blank memory of a circuit for which it has no record. -/
theorem holds_blank {env : Env} (h : env.Healthy) (b : Breaker) (key : Key)
    (hnone : env.record Circuit b.shelf key.text = none) : b.Holds key .blank env where
  healthy := h
  seen_eq later hle := by
    rw [Env.record, Store.time, h.ownClock_eq, Option.getD_none] at hnone
    have hlater : recordIn Circuit later (env.slot (b.shelf.key key.text)) = none :=
      (recordIn_later hle _).elim (·.trans hnone) id
    rw [Circuit.seen, hlater]
    rfl

/-- **Whether failures trip a circuit at once.**  Let nothing be wrong with the settings of a
breaker, let its store not fail and have no record of a circuit, and let the circuit fail as often as
its threshold, all at one instant below the largest word.  A caller that comes at that instant is
refused if the recovery time is at least half a millisecond.  With a recovery time below that, which
is no less valid, the caller is let through. -/
theorem visits_failures (b : Breaker) (key : Key) (env : Env) (hvalid : b.settings.fault? = none)
    (hhealthy : env.Healthy) (hnone : env.record Circuit b.shelf key.text = none)
    (hmax : env.now < maxWord) :
    let failures := b.settings.failureThreshold.toNat
    ((b.visits key (List.replicate failures ⟨env.now, .fail⟩ ++ [⟨env.now, .admits⟩])).on env).1 =
      List.replicate failures .done ++
        [.through (decide (b.settings.recovery.nanos < 500000))] := by
  intro failures
  have hpos : 0 < b.thresholds.failures.toNat := Circuit.Settings.failureThreshold_pos hvalid
  have hlasts : env.now < satAdd env.now b.settings.recordTtl.millis ↔
      ¬ b.settings.recovery.nanos < 500000 := by
    rw [lt_satAdd_iff hmax, ← Circuit.Settings.recordTtl_eq_zero_iff]
    omega
  have hsorted : (env.now :: (List.replicate failures ⟨env.now, .fail⟩ ++
      [⟨env.now, .admits⟩] : List Visit).map Visit.now).Pairwise (· ≤ ·) := by
    rw [List.map_append, List.map_replicate, List.map_singleton, ← List.replicate_succ',
      ← List.replicate_succ, List.pairwise_replicate]
    exact .inr (UInt64.le_refl _)
  rw [visits_of_holds (holds_blank hhealthy b key hnone) hsorted]
  by_cases hbrief : b.settings.recovery.nanos < 500000
  · rw [Memory.answers_failures_of_brief (fun h => hlasts.mp h hbrief) rfl, decide_eq_true hbrief]
  · have hrefuses : (((fun c => Circuit.fail c b.thresholds env.now)^[failures]
        (Memory.blank.lapse b.settings.recordTtl.millis env.now).circuit).poll b.thresholds
          env.now).1 = false := Circuit.refuses_of_failures hpos
    rw [Memory.answers_failures (hlasts.mpr hbrief), hrefuses, decide_eq_false hbrief]

/-- A breaker that three failures trip, with a recovery time in nanoseconds. -/
def withRecovery (nanos : UInt64) : Breaker := ⟨⟨Shelf.defaultLabel⟩, ⟨3, 1, .ofParts 0 nanos⟩⟩

/-- Half a millisecond is enough. -/
theorem refused_halfMilli :
    (withRecovery 500000).settings.fault? = none ∧
    (((withRecovery 500000).visits (.ofTracker (.user "alice"))
      [⟨7, .fail⟩, ⟨7, .fail⟩, ⟨7, .fail⟩, ⟨7, .admits⟩]).on (.start 7 (.empty none))).1 =
        [.done, .done, .done, .through false] := by
  have hvalid : (withRecovery 500000).settings.fault? = none := by decide
  have hnone : (Env.start 7 (.empty none)).record Circuit (withRecovery 500000).shelf
      (Key.ofTracker (.user "alice")).text = none := by
    rw [Env.record, Env.slot_start]
    rfl
  exact ⟨hvalid, visits_failures (withRecovery 500000) (.ofTracker (.user "alice"))
    (.start 7 (.empty none)) hvalid (Env.healthy_start 7) hnone (by decide)⟩

/-- Two fifths of a millisecond are not: three failures leave no trace. -/
theorem not_refused_twoFifthsMilli :
    (withRecovery 400000).settings.fault? = none ∧
    (((withRecovery 400000).visits (.ofTracker (.user "alice"))
      [⟨7, .fail⟩, ⟨7, .fail⟩, ⟨7, .fail⟩, ⟨7, .admits⟩, ⟨7, .status⟩]).on
        (.start 7 (.empty none))).1 =
        [.done, .done, .done, .through true, .status ⟨.ofTracker (.user "alice"), .fresh, none⟩] :=
  ⟨by decide, by decide +kernel⟩

end Breaker

end Turnstile
