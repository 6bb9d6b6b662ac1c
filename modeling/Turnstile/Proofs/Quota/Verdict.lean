import Turnstile.Proofs.Env.Records
import Turnstile.Proofs.Word
import Turnstile.Quota.Limiter

/-!
# Verdicts on any record

A window may find any counter and any log in the store.  Its verdict is always that of a number of
requests, this one included, and so it is consistent in itself.

* `Verdict.Counts`: the verdict of a number of requests.
* `WindowCounter.register_counts`, `SlidingLog.register_counts`: the verdicts on any record.
* `Limiter.checkWindow_counts`: the verdicts of the limiter.
-/

set_option autoImplicit false

namespace Turnstile

/-- A verdict is that of `n` requests, with `wait` milliseconds to wait if they are too many. -/
structure Verdict.Counts (p : Policy) (now : UInt64) (v : Verdict) (n wait : UInt64) : Prop where
  pos : 0 < n.toNat
  allowed_eq : v.allowed = decide (n ≤ p.maxRequests)
  remaining_eq : v.remaining = satSub p.maxRequests n
  retryAfter_eq : v.retryAfter = if n ≤ p.maxRequests then none else some (ceilSecs wait)
  le_resetAt : now ≤ v.resetAt

variable {p : Policy} {now : UInt64}

namespace Verdict.Counts

variable {v : Verdict} {n wait : UInt64}

theorem le_of_allowed (h : v.Counts p now n wait) (hv : v.allowed = true) : n ≤ p.maxRequests := by
  simpa [h.allowed_eq] using hv

theorem not_le_of_denied (h : v.Counts p now n wait) (hv : v.allowed = false) :
    ¬ n ≤ p.maxRequests := by
  simpa [h.allowed_eq] using hv

/-- An admitted request leaves less than the whole quota. -/
theorem remaining_lt (h : v.Counts p now n wait) (hv : v.allowed = true) :
    v.remaining < p.maxRequests := by
  have hpos := h.pos
  have hle := h.le_of_allowed hv
  rw [UInt64.le_iff_toNat_le] at hle
  rw [h.remaining_eq, UInt64.lt_iff_toNat_lt, toNat_satSub]
  omega

theorem remaining_eq_zero (h : v.Counts p now n wait) (hv : v.allowed = false) :
    v.remaining = 0 := by
  have hle := h.not_le_of_denied hv
  rw [UInt64.le_iff_toNat_le] at hle
  apply UInt64.toNat.inj
  rw [h.remaining_eq, toNat_satSub, UInt64.toNat_zero]
  omega

theorem retryAfter_of_allowed (h : v.Counts p now n wait) (hv : v.allowed = true) :
    v.retryAfter = none := by
  rw [h.retryAfter_eq, if_pos (h.le_of_allowed hv)]

theorem retryAfter_of_denied (h : v.Counts p now n wait) (hv : v.allowed = false) :
    v.retryAfter = some (ceilSecs wait) := by
  rw [h.retryAfter_eq, if_neg (h.not_le_of_denied hv)]

end Verdict.Counts

namespace WindowCounter

theorem hits_next_pos (current : Option WindowCounter) (p : Policy) (now : UInt64) :
    0 < (next current p now).hits.toNat := by
  unfold next
  split
  · split
    · exact Nat.one_pos
    · rw [toNat_satAdd]
      simp only [UInt64.toNat_one, wordCount]
      omega
  · exact Nat.one_pos

theorem le_resetAt_next (current : Option WindowCounter) (p : Policy) (now : UInt64) :
    now ≤ (next current p now).resetAt p := by
  unfold next
  split
  · rename_i c
    split
    · exact le_satAdd now p.window
    · rename_i he
      have he : ¬ c.resetAt p ≤ now := by simpa [WindowCounter.expired] using he
      exact UInt64.le_of_lt (UInt64.not_le.mp he)
  · exact le_satAdd now p.window

theorem register_counts (current : Option WindowCounter) (p : Policy) (now : UInt64) :
    (register current p now).2.Counts p now (next current p now).hits
      (satSub (register current p now).2.resetAt now) where
  pos := hits_next_pos current p now
  allowed_eq := rfl
  remaining_eq := rfl
  retryAfter_eq := rfl
  le_resetAt := le_resetAt_next current p now

end WindowCounter

namespace SlidingLog

theorem count_next_pos (l : SlidingLog) (p : Policy) (now : UInt64) :
    0 < (l.next p now).count.toNat := by
  simp only [count, next, List.length_append, List.length_singleton, toNat_wordOfNat, wordCount]
  omega

theorem register_counts (l : SlidingLog) (p : Policy) (now : UInt64) :
    (l.register p now).2.Counts p now (l.next p now).count
      (satSub (p.windowEnd ((l.next p now).times.head?.getD now)) now) where
  pos := count_next_pos l p now
  allowed_eq := rfl
  remaining_eq := rfl
  retryAfter_eq := rfl
  le_resetAt := le_satAdd now p.window

end SlidingLog

namespace Limiter

/-- **Whatever the store has, the verdict is that of a number of requests**; in a fixed window the
time to wait is the time to its end. -/
theorem checkWindow_counts (l : Limiter) (t : Tracker) (p : Policy) (now : UInt64) :
    (l.checkWindow t p now).Answers fun v => ∃ n wait, v.Counts p now n wait ∧
      (p.algorithm = .fixedWindow → wait = satSub v.resetAt now) := by
  unfold checkWindow
  cases halg : p.algorithm with
  | fixedWindow =>
    refine StoreM.answers_bind (StoreM.answers_true _) fun current _ => ?_
    refine StoreM.answers_bind (StoreM.answers_true _) fun _ _ => StoreM.answers_pure ?_
    exact ⟨_, _, WindowCounter.register_counts current p now, fun _ => rfl⟩
  | slidingWindow =>
    refine StoreM.answers_bind (StoreM.answers_true _) fun current _ => ?_
    refine StoreM.answers_bind (StoreM.answers_true _) fun _ _ => StoreM.answers_pure ?_
    exact ⟨_, _, SlidingLog.register_counts _ p now, nofun⟩

theorem activeBlock_active (l : Limiter) (t : Tracker) (p : Policy) (now : UInt64) :
    (l.activeBlock t p now).Answers fun b => ∀ b' ∈ b, now < b'.endsAt := by
  unfold activeBlock
  cases p.block with
  | none => exact StoreM.answers_pure nofun
  | some length =>
    refine StoreM.answers_bind (StoreM.answers_true _) fun b _ => StoreM.answers_pure ?_
    intro b' hb'
    simpa [Block.active] using (Option.mem_filter_iff.mp hb').2

end Limiter

end Turnstile
