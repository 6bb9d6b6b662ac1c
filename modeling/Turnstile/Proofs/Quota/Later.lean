import Turnstile.Proofs.Quota.Trailing
import Turnstile.Proofs.Word
import Turnstile.Quota.Limiter

/-!
# Quotas at a later time

A window looks at times only to compare them and to measure the spans between them.  So where
everything happens later by some span, what it counts and says is the same, but for the instants
that it tells.  Nothing must be moved past the largest word: there sums stop, and spans get shorter.

The clock may be younger than a window.  A sliding window has lost nothing then, and the same is
true when everything happens later, as the times in its log are later as well.

* `WindowCounter.later`, `SlidingLog.later`, `Verdict.later`, `Block.later`, `Outcome.later`: what
  is kept and what is said, moved.
* `WindowCounter.register_later`, `SlidingLog.register_later`: requests in moved windows.
* `Limiter.blockedOutcome_later`, `Limiter.penalised_later`: blocks that are moved.
-/

set_option autoImplicit false

namespace Turnstile

variable {d now : UInt64} {p : Policy}

/-! ## What is moved -/

def WindowCounter.later (d : UInt64) (c : WindowCounter) : WindowCounter :=
  { c with start := c.start + d }

def SlidingLog.later (d : UInt64) (l : SlidingLog) : SlidingLog := ⟨l.times.map (· + d)⟩

def Verdict.later (d : UInt64) (v : Verdict) : Verdict := { v with resetAt := v.resetAt + d }

def Block.later (d : UInt64) (b : Block) : Block := ⟨b.endsAt + d⟩

def Outcome.later (d : UInt64) (o : Outcome) : Outcome := { o with resetAt := o.resetAt + d }

theorem toNat_add_lt_of_le {a b d : UInt64} (hle : a ≤ b) {n : Nat}
    (h : b.toNat + d.toNat + n < wordCount) : a.toNat + d.toNat + n < wordCount := by
  rw [UInt64.le_iff_toNat_le] at hle
  omega

section

variable (hroom : now.toNat + d.toNat + p.window.toNat < wordCount)

include hroom

theorem Policy.windowEnd_later {start : UInt64} (hstart : start ≤ now) :
    p.windowEnd (start + d) = p.windowEnd start + d ∧
      (p.windowEnd start).toNat + d.toNat < wordCount := by
  have h := toNat_add_lt_of_le hstart hroom
  refine ⟨satAdd_add h, ?_⟩
  rw [windowEnd, toNat_satAdd]
  omega

/-! ## Fixed windows -/

namespace WindowCounter

variable {c : WindowCounter} {current : Option WindowCounter}

theorem next_later (hcurrent : ∀ c ∈ current, c.start ≤ now) :
    next (current.map (later d)) p (now + d) = (next current p now).later d := by
  cases current with
  | none => rfl
  | some c =>
    obtain ⟨hend, hlt⟩ := Policy.windowEnd_later hroom (hcurrent c rfl)
    have hexpired : (c.later d).expired p (now + d) = c.expired p now := by
      unfold expired resetAt later
      rw [hend, decide_eq_decide]
      exact add_le_add_iff_of_lt hlt (by omega)
    simp only [next, Option.map_some, hexpired]
    split <;> rfl

omit hroom in
theorem start_next_le {latest : UInt64} (hle : now ≤ latest)
    (hcurrent : ∀ c ∈ current, c.start ≤ latest) : (next current p now).start ≤ latest := by
  unfold next
  split
  · rename_i c
    split
    · exact hle
    · exact hcurrent c rfl
  · exact hle

theorem verdict_later (hstart : c.start ≤ now) :
    (c.later d).verdict p (now + d) = (c.verdict p now).later d := by
  obtain ⟨hend, hlt⟩ := Policy.windowEnd_later hroom hstart
  simp only [verdict, Verdict.later, resetAt, later, hend,
    satSub_add_add hlt (show now.toNat + d.toNat < wordCount by omega)]
  rfl

theorem register_later (hcurrent : ∀ c ∈ current, c.start ≤ now) :
    register (current.map (later d)) p (now + d) =
      ((register current p now).1.later d, (register current p now).2.later d) := by
  simp only [register, next_later hroom hcurrent,
    verdict_later hroom (start_next_le (UInt64.le_refl now) hcurrent)]

end WindowCounter

/-! ## Sliding windows -/

namespace SlidingLog

variable {l : SlidingLog}

theorem gone_later {time : UInt64} (htime : time ≤ now) :
    gone p (now + d) (time + d) = gone p now time := by
  have h := toNat_add_lt_of_le htime hroom
  rw [Bool.eq_iff_iff, gone_iff, gone_iff, toNat_add_of_lt (by omega), toNat_add_of_lt (by omega)]
  omega

theorem purge_later (htimes : ∀ time ∈ l.times, time ≤ now) :
    (l.later d).purge p (now + d) = (l.purge p now).later d := by
  obtain ⟨times⟩ := l
  refine congrArg SlidingLog.mk ?_
  show (times.map (· + d)).dropWhile _ = (times.dropWhile _).map _
  replace htimes : ∀ time ∈ times, time ≤ now := htimes
  induction times with
  | nil => rfl
  | cons time times ih =>
    obtain ⟨htime, htimes⟩ := List.forall_mem_cons.mp htimes
    simp only [List.map_cons, List.dropWhile_cons, gone_later hroom htime]
    split
    · exact ih htimes
    · rfl

theorem next_later (htimes : ∀ time ∈ l.times, time ≤ now) :
    (l.later d).next p (now + d) = (l.next p now).later d := by
  unfold next
  rw [purge_later hroom htimes]
  simp [later]

omit hroom in
theorem times_next_le {latest : UInt64} (hle : now ≤ latest)
    (htimes : ∀ time ∈ l.times, time ≤ latest) : ∀ time ∈ (l.next p now).times, time ≤ latest := by
  intro time htime
  rcases List.mem_append.mp htime with htime | htime
  · exact htimes time ((List.dropWhile_suffix _).subset htime)
  · rwa [List.mem_singleton.mp htime]

omit hroom in
theorem times_getD_le {read : Option SlidingLog}
    (hread : ∀ l ∈ read, ∀ time ∈ l.times, time ≤ now) :
    ∀ time ∈ (read.getD .empty).times, time ≤ now := by
  cases read with
  | none => exact nofun
  | some l => exact hread l rfl

theorem verdict_later (htimes : ∀ time ∈ l.times, time ≤ now) :
    (l.later d).verdict p (now + d) = (l.verdict p now).later d := by
  have hhead : l.times.head?.getD now ≤ now := by
    cases htimes' : l.times with
    | nil => exact UInt64.le_refl now
    | cons time times => exact htimes time (htimes' ▸ List.mem_cons_self)
  have hmoved : (l.later d).times.head?.getD (now + d) = l.times.head?.getD now + d := by
    rw [later, List.head?_map]
    cases l.times.head? <;> rfl
  have hcount : (l.later d).count = l.count := by simp [count, later]
  obtain ⟨hend, _⟩ := Policy.windowEnd_later hroom (UInt64.le_refl now)
  obtain ⟨hhead, hlt⟩ := Policy.windowEnd_later hroom hhead
  simp only [verdict, Verdict.later, hcount, hmoved, hend, hhead,
    satSub_add_add hlt (show now.toNat + d.toNat < wordCount by omega)]

theorem register_later (htimes : ∀ time ∈ l.times, time ≤ now) :
    (l.later d).register p (now + d) =
      ((l.register p now).1.later d, (l.register p now).2.later d) := by
  simp only [register, next_later hroom htimes,
    verdict_later hroom (times_next_le (UInt64.le_refl now) htimes)]

end SlidingLog

end

/-! ## Blocks -/

theorem Block.active_later {b : Block} (hb : b.endsAt.toNat + d.toNat < wordCount)
    (hnow : now.toNat + d.toNat < wordCount) : (b.later d).active (now + d) = b.active now := by
  unfold active later
  rw [decide_eq_decide]
  exact add_lt_add_iff_of_lt hnow hb

namespace Limiter

theorem blockedOutcome_later {b : Block} (hb : b.endsAt.toNat + d.toNat < wordCount)
    (hnow : now.toNat + d.toNat < wordCount) :
    blockedOutcome p (b.later d) (now + d) = (blockedOutcome p b now).later d := by
  simp only [blockedOutcome, Outcome.later, Block.later, satSub_add_add hb hnow]

theorem windowOutcome_later (v : Verdict) :
    windowOutcome p (v.later d) = (windowOutcome p v).later d := rfl

theorem penalised_later (o : Outcome) (b : Block) (length : UInt64) :
    penalised (o.later d) (b.later d) length = (penalised o b length).later d := rfl

end Limiter

end Turnstile
