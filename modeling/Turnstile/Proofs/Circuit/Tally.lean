import Turnstile.Proofs.Circuit.Slot
import Turnstile.Proofs.Word

/-!
# Failures in a row

A circuit that counts failures has counted them all if each of them came before the record of the
one before it had expired; a record that expires takes the count with it.

* `Circuit.fail_cases`: what a failure does to a circuit that is not open.
* `Breaker.tally`: the circuit after failures at given instants.
* `Circuit.Settings.Lasting`: no record expires in between.
* `Breaker.tally_of_lasting`, `Breaker.tally_of_not_lasting`: whether the circuit ends up open.
-/

set_option autoImplicit false

namespace Turnstile

namespace Circuit

theorem Settings.failureThreshold_pos {s : Settings} (h : s.fault? = none) :
    0 < s.failureThreshold.toNat := by
  unfold Settings.fault? at h
  split at h
  · cases h
  · rename_i hne
    exact Nat.pos_of_ne_zero fun e => hne (UInt32.toNat.inj e)

variable {c : Circuit} {t : Thresholds} {now : UInt64}

/-- A failure opens a circuit, or a closed one counts it and stays below the threshold. -/
theorem fail_cases (h : c.state ≠ .open) (t : Thresholds) (now : UInt64) :
    (c.fail t now).state = .open ∧ (c.fail t now).openedAt = some now ∨
      c.state = .closed ∧ (c.fail t now).state = .closed ∧
        (c.fail t now).failures.toNat = c.failures.toNat + 1 ∧
        (c.fail t now).failures.toNat < t.failures.toNat := by
  unfold fail
  cases hs : c.state with
  | «open» => exact absurd hs h
  | halfOpen => exact .inl ⟨rfl, rfl⟩
  | closed =>
    by_cases hle : t.failures ≤ satSucc32 c.failures
    · simp only [hle, ↓reduceIte]
      exact .inl ⟨rfl, rfl⟩
    · simp only [hle, ↓reduceIte]
      rw [UInt32.le_iff_toNat_le, toNat_satSucc32] at hle
      have := t.failures.toNat_lt
      refine .inr ⟨trivial, trivial, ?_, ?_⟩ <;> rw [toNat_satSucc32] <;> omega

/-- A closed circuit that one more failure leaves below the threshold stays closed. -/
theorem fail_of_few (h : c.state = .closed) (hfew : c.failures.toNat + 1 < t.failures.toNat) :
    (c.fail t now).state = .closed ∧ (c.fail t now).failures.toNat = c.failures.toNat + 1 := by
  have hlt := t.failures.toNat_lt
  have hcount : (satSucc32 c.failures).toNat = c.failures.toNat + 1 := by
    rw [toNat_satSucc32]
    omega
  have hle : ¬ t.failures ≤ satSucc32 c.failures := by
    rw [UInt32.le_iff_toNat_le, hcount]
    omega
  simp only [fail, h, hle, ↓reduceIte, hcount, and_self]

theorem fail_of_open (h : c.state = .open) (t : Thresholds) (now : UInt64) : c.fail t now = c := by
  simp only [fail, h]

/-- A failure changes every circuit but an open one. -/
theorem fail_ne (h : c.state ≠ .open) (t : Thresholds) (now : UInt64) : c.fail t now ≠ c := by
  intro he
  rcases fail_cases h t now with ⟨hopen, _⟩ | ⟨_, _, hcount, _⟩
  · exact h (he ▸ hopen)
  · rw [he] at hcount
    omega

theorem fail_fresh_of_few (t : Thresholds) (now : UInt64) (hfew : 1 < t.failures.toNat) :
    (fresh.fail t now).state = .closed ∧ (fresh.fail t now).failures.toNat = 1 :=
  fail_of_few rfl hfew

/-- Each of some failures comes before the record of the one before it expires, and so would a step
at the instant of the last one. -/
def Settings.Lasting (s : Settings) : List UInt64 → Prop
  | [] => True
  | [last] => last < satAdd last s.recordTtl.millis
  | last :: now :: times => now < satAdd last s.recordTtl.millis ∧ s.Lasting (now :: times)

theorem lt_of_lasting {s : Settings} {last : UInt64} {times : List UInt64}
    (h : s.Lasting (last :: times)) :
    times.getLast?.getD last < satAdd (times.getLast?.getD last) s.recordTtl.millis := by
  induction times generalizing last with
  | nil => exact h
  | cons now times ih =>
    rw [List.getLast?_cons, Option.getD_some]
    exact ih h.2

end Circuit

namespace Breaker

/-- The circuit after failures, the last of which came at an instant and left a record. -/
def tally (b : Breaker) (last : UInt64) (c : Circuit) : List UInt64 → Circuit
  | [] => c
  | now :: times =>
    let kept := if now < satAdd last b.settings.recordTtl.millis then c else .fresh
    b.tally now (kept.fail b.thresholds now) times

variable {b : Breaker} {last : UInt64} {c : Circuit} {times : List UInt64}

/-- Failures that are all counted open the circuit, or there are still fewer than its threshold. -/
theorem tally_of_lasting (h : b.settings.Lasting (last :: times)) {n : Nat}
    (hc : c.state = .open ∨ c.state = .closed ∧ n ≤ c.failures.toNat) :
    (b.tally last c times).state = .open ∨ (b.tally last c times).state = .closed ∧
      n + times.length ≤ (b.tally last c times).failures.toNat := by
  induction times generalizing last c n with
  | nil => exact hc
  | cons now times ih =>
    obtain ⟨hlt, h⟩ := h
    simp only [tally, hlt, ↓reduceIte, List.length_cons]
    rw [show n + (times.length + 1) = n + 1 + times.length by omega]
    apply ih h
    rcases hc with hopen | ⟨hclosed, hn⟩
    · rw [Circuit.fail_of_open hopen]
      exact .inl hopen
    · rcases Circuit.fail_cases (by rw [hclosed]; decide) b.thresholds now with
        ⟨hopen, _⟩ | ⟨_, hstill, hcount, _⟩
      · exact .inl hopen
      · exact .inr ⟨hstill, by omega⟩

/-- Too few failures leave a circuit closed. -/
theorem tally_of_few (hc : c.state = .closed)
    (hfew : c.failures.toNat + times.length < b.thresholds.failures.toNat) :
    (b.tally last c times).state = .closed := by
  induction times generalizing last c with
  | nil => exact hc
  | cons now times ih =>
    rw [List.length_cons] at hfew
    unfold tally
    by_cases hlt : now < satAdd last b.settings.recordTtl.millis
    · rw [if_pos hlt]
      have hone : c.failures.toNat + 1 < b.thresholds.failures.toNat := by omega
      obtain ⟨hclosed, hcount⟩ := Circuit.fail_of_few hc hone
      exact ih hclosed (by omega)
    · rw [if_neg hlt]
      obtain ⟨hclosed, hcount⟩ := Circuit.fail_fresh_of_few b.thresholds now (by omega)
      exact ih hclosed (by omega)

/-- A circuit whose record expires in between has not counted all failures. -/
theorem tally_of_not_lasting (h : ¬ b.settings.Lasting (last :: times))
    (hlast : times.getLast?.getD last <
      satAdd (times.getLast?.getD last) b.settings.recordTtl.millis)
    (hfew : times.length < b.thresholds.failures.toNat) :
    (b.tally last c times).state = .closed := by
  induction times generalizing last c with
  | nil => exact absurd hlast h
  | cons now times ih =>
    rw [List.length_cons] at hfew
    unfold tally
    by_cases hlt : now < satAdd last b.settings.recordTtl.millis
    · rw [if_pos hlt]
      refine ih (fun hl => h ⟨hlt, hl⟩) ?_ (by omega)
      rwa [List.getLast?_cons, Option.getD_some] at hlast
    · rw [if_neg hlt]
      obtain ⟨hclosed, hcount⟩ := Circuit.fail_fresh_of_few b.thresholds now (by omega)
      exact tally_of_few hclosed (by omega)

/-- **Failures open the circuit exactly if no record expires in between**, when they are as many as
its threshold. -/
theorem tally_open_iff
    (hc : c.state = .open ∨ c.state = .closed ∧ 1 ≤ c.failures.toNat)
    (hend : (b.tally last c times).state = .closed →
      (b.tally last c times).failures.toNat < b.thresholds.failures.toNat)
    (hlength : times.length + 1 = b.thresholds.failures.toNat) :
    ((b.tally last c times).state = .open ∧ times.getLast?.getD last <
      satAdd (times.getLast?.getD last) b.settings.recordTtl.millis) ↔
      b.settings.Lasting (last :: times) := by
  constructor
  · rintro ⟨hopen, hlast⟩
    refine Classical.byContradiction fun hnot => ?_
    rw [tally_of_not_lasting hnot hlast (by omega)] at hopen
    cases hopen
  · intro h
    refine ⟨?_, Circuit.lt_of_lasting h⟩
    rcases tally_of_lasting h hc with hopen | ⟨hclosed, hcount⟩
    · exact hopen
    · have := hend hclosed
      omega

end Breaker

end Turnstile
