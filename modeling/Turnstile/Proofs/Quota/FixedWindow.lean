import Mathlib.Data.List.Basic
import Mathlib.Data.List.Induction
import Turnstile.Proofs.Batches
import Turnstile.Proofs.Quota.Policy
import Turnstile.Proofs.Quota.Run

/-!
# Fixed windows

A limiter that starts without entries splits a run into windows: the first request at or after the
end of a window opens the next one.  In a window the first requests are admitted, as many as the
quota has.  Two windows that follow each other start at least a window's length apart, so no
interval of that length meets more than two of them.

* `Splits`: how a run splits into windows.
* `Account.exists_splits`: the counter of the last window, and the verdicts in all of them.
* `Splits.length_inInterval_le`: what an interval has of the first requests of every window.
* `Limiter.checks_fixedWindow`: both for the limiter on its store.
-/

set_option autoImplicit false

namespace Turnstile

/-- The requests that a fixed window counts. -/
structure CountedWindow where
  /-- The request that opens the window. -/
  start : UInt64
  /-- The requests that follow it. -/
  later : List UInt64

namespace CountedWindow

/-- The requests of a window. -/
def times (w : CountedWindow) : List UInt64 := w.start :: w.later

/-- The counter of a window. -/
def counter (w : CountedWindow) : WindowCounter := ⟨wordOfNat w.times.length, w.start⟩

/-- What the counter of a window says about its requests. -/
def verdicts (w : CountedWindow) (p : Policy) : List Verdict :=
  w.times.mapIdx fun i now => (⟨wordOfNat (i + 1), w.start⟩ : WindowCounter).verdict p now

/-- A window with one more request. -/
def add (w : CountedWindow) (now : UInt64) : CountedWindow := { w with later := w.later ++ [now] }

def batch (w : CountedWindow) : Batch UInt64 := ⟨w.start, w.later⟩

end CountedWindow

/-- A run splits into windows.  Requests belong to a window until its end, and to a new one from
then on. -/
structure Splits (p : Policy) (times : List UInt64) (ws : List CountedWindow) : Prop where
  times_eq : times = ws.flatMap CountedWindow.times
  lt_end : ∀ w ∈ ws, ∀ s ∈ w.later, s < p.windowEnd w.start
  apart : ws.Pairwise fun w w' => ∀ s ∈ w'.times, p.windowEnd w.start ≤ s

section Step

variable {p : Policy} {times : List UInt64} {ws : List CountedWindow} {w : CountedWindow}
  {now : UInt64}

/-- The windows of a run are the batches that it is cut into by their ends. -/
theorem splits_iff_batches : Splits p times ws ↔
    Batches UInt64.toNat (fun start => (p.windowEnd start).toNat) times
      (ws.map CountedWindow.batch) := by
  constructor
  · intro h
    refine ⟨?_, ?_, ?_⟩
    · rw [h.times_eq, List.flatMap_map]
      rfl
    · intro b hb s hs
      obtain ⟨w, hw, rfl⟩ := List.mem_map.mp hb
      exact UInt64.lt_iff_toNat_lt.mp (h.lt_end w hw s hs)
    · rw [List.pairwise_map]
      exact h.apart.imp fun hends s hs => UInt64.le_iff_toNat_le.mp (hends s hs)
  · intro h
    refine ⟨?_, ?_, ?_⟩
    · rw [h.run_eq, List.flatMap_map]
      rfl
    · intro w hw s hs
      exact UInt64.lt_iff_toNat_lt.mpr (h.lt_ends w.batch (List.mem_map_of_mem hw) s hs)
    · have hapart := h.apart
      rw [List.pairwise_map] at hapart
      exact hapart.imp fun hends s hs => UInt64.le_iff_toNat_le.mpr (hends s hs)

/-- A request after the end of all windows opens one. -/
theorem Splits.open (h : Splits p times ws) (hend : ∀ w ∈ ws, p.windowEnd w.start ≤ now) :
    Splits p (times ++ [now]) (ws ++ [⟨now, []⟩]) := by
  rw [splits_iff_batches] at h ⊢
  rw [List.map_append]
  refine h.start fun b hb => ?_
  obtain ⟨w, hw, rfl⟩ := List.mem_map.mp hb
  exact UInt64.le_iff_toNat_le.mp (hend w hw)

/-- A request before the end of the last window belongs to it. -/
theorem Splits.add (h : Splits p times (ws ++ [w])) (hend : now < p.windowEnd w.start)
    (hstart : w.start ≤ now) : Splits p (times ++ [now]) (ws ++ [w.add now]) := by
  rw [splits_iff_batches, List.map_append] at h ⊢
  exact Batches.add h (UInt64.lt_iff_toNat_lt.mp hend) (UInt64.le_iff_toNat_le.mp hstart)

/-- All windows but the last one have ended when the last one is opened. -/
theorem Splits.end_le (h : Splits p times (ws ++ [w])) :
    ∀ w' ∈ ws, p.windowEnd w'.start ≤ w.start := fun w' hw' =>
  (List.pairwise_append.mp h.apart).2.2 w' hw' w (by simp) w.start List.mem_cons_self

theorem expired_counter (w : CountedWindow) (p : Policy) (now : UInt64) :
    w.counter.expired p now = decide (p.windowEnd w.start ≤ now) := rfl

theorem next_counter_of_lt (h : now < p.windowEnd w.start) :
    WindowCounter.next (some w.counter) p now = (w.add now).counter := by
  have hopen : w.counter.expired p now = false := by
    rw [expired_counter, decide_eq_false_iff_not, UInt64.not_le]
    exact h
  show (if w.counter.expired p now = true then _ else _) = _
  rw [hopen, if_neg Bool.false_ne_true]
  simp [CountedWindow.counter, CountedWindow.add, CountedWindow.times, satAdd_wordOfNat_one]

theorem next_counter_of_le (h : p.windowEnd w.start ≤ now) :
    WindowCounter.next (some w.counter) p now = (⟨now, []⟩ : CountedWindow).counter := by
  have hover : w.counter.expired p now = true := decide_eq_true h
  simp only [WindowCounter.next, hover, ↓reduceIte]
  rfl

theorem verdicts_add (w : CountedWindow) (p : Policy) (now : UInt64) :
    (w.add now).verdicts p = w.verdicts p ++ [(w.add now).counter.verdict p now] := by
  show List.mapIdx _ (w.times ++ [now]) = _
  rw [List.mapIdx_concat]
  simp [CountedWindow.verdicts, CountedWindow.counter, CountedWindow.times, CountedWindow.add]

end Step

namespace Account

variable {p : Policy}

theorem register_fixedWindow (halg : p.algorithm = .fixedWindow) (a : Account) (now : UInt64) :
    a.register p now =
      ({ a with counter := some (WindowCounter.next a.counter p now) },
        (WindowCounter.next a.counter p now).verdict p now) := by
  simp only [register, halg, WindowCounter.register]

/-- **A run splits into windows as the counter does it**, and has the verdicts of their counters. -/
theorem exists_splits (halg : p.algorithm = .fixedWindow) {times : List UInt64}
    (hs : times.Pairwise (· ≤ ·)) :
    ∃ ws, Splits p times ws ∧
      empty.verdicts p times = ws.flatMap (fun w => w.verdicts p) ∧
      (empty.registered p times).counter = ws.getLast?.map CountedWindow.counter := by
  induction times using List.reverseRecOn with
  | nil => exact ⟨[], ⟨rfl, List.forall_mem_nil _, .nil⟩, rfl, rfl⟩
  | append_singleton times now ih =>
    obtain ⟨hs, _, hnow⟩ := List.pairwise_append.mp hs
    obtain ⟨ws, hsplits, hverdicts, hcounter⟩ := ih hs
    have hreg : empty.registered p (times ++ [now]) = ((empty.registered p times).register p now).1 :=
      registered_append ..
    rw [hreg, verdicts_append, hverdicts, verdicts, register_fixedWindow halg, hcounter]
    cases ws using List.reverseRecOn with
    | nil => exact ⟨[⟨now, []⟩], hsplits.open (List.forall_mem_nil _), rfl, rfl⟩
    | append_singleton ws w =>
      rw [List.getLast?_concat, Option.map_some]
      have hstart : w.start ≤ now :=
        hnow w.start (by simp [hsplits.times_eq, CountedWindow.times]) now (by simp)
      by_cases hend : now < p.windowEnd w.start
      · -- the last window goes on
        rw [next_counter_of_lt hend]
        refine ⟨ws ++ [w.add now], hsplits.add hend hstart, ?_, ?_⟩
        · simp [verdicts_add, verdicts]
        · simp
      · -- all windows have ended
        have hend := UInt64.not_lt.mp hend
        rw [next_counter_of_le hend]
        refine ⟨ws ++ [w] ++ [⟨now, []⟩], hsplits.open ?_, ?_, ?_⟩
        · intro w' hw'
          rcases List.mem_append.mp hw' with hw' | hw'
          · exact UInt64.le_trans (hsplits.end_le w' hw') hstart
          · rw [List.mem_singleton.mp hw']
            exact hend
        · simp [verdicts, CountedWindow.verdicts, CountedWindow.times, CountedWindow.counter]
        · simp

end Account

/-! ## Admitted requests -/

/-- Those of some times that lie in the interval `[lo, lo + length)`. -/
def inInterval (length lo : Nat) (times : List UInt64) : List UInt64 :=
  times.filter fun s => lo ≤ s.toNat ∧ s.toNat < lo + length

theorem admitted_mapIdx (times : List UInt64) (n : Nat) :
    admitted times (times.mapIdx fun i _ => decide (i + 1 ≤ n)) = times.take n := by
  induction times generalizing n with
  | nil => simp [admitted]
  | cons s times ih =>
    rw [List.mapIdx_cons]
    cases n with
    | zero => exact ih 0
    | succ n => simpa [admitted] using congrArg (s :: ·) (ih n)

theorem admitted_flatMap (ws : List CountedWindow) (n : Nat) :
    admitted (ws.flatMap CountedWindow.times)
        (ws.flatMap fun w => w.times.mapIdx fun i _ => decide (i + 1 ≤ n)) =
      ws.flatMap fun w => w.times.take n := by
  induction ws with
  | nil => rfl
  | cons w ws ih =>
    simp only [List.flatMap_cons]
    rw [admitted_append (by simp), admitted_mapIdx, ih]

theorem allowed_verdict {p : Policy} {n : Nat} (h : p.maxRequests < maxWord ∨ n < wordCount)
    (start now : UInt64) :
    ((⟨wordOfNat n, start⟩ : WindowCounter).verdict p now).allowed =
      decide (n ≤ p.maxRequests.toNat) :=
  decide_eq_decide.mpr (wordOfNat_le_iff h)

theorem toNat_remaining_verdict (p : Policy) (n : Nat) (start now : UInt64) :
    ((⟨wordOfNat n, start⟩ : WindowCounter).verdict p now).remaining.toNat =
      p.maxRequests.toNat - n := by
  have := toNat_le_max p.maxRequests
  show (satSub p.maxRequests (wordOfNat n)).toNat = _
  rw [toNat_satSub, toNat_wordOfNat]
  omega

/-- What is read off the verdicts of a run depends on the places that its requests have in their
windows. -/
theorem Splits.map_verdicts {β : Type} {p : Policy} {times : List UInt64} {ws : List CountedWindow}
    (h : Splits p times ws) (f : Verdict → β) (g : CountedWindow → Nat → β)
    (hfg : ∀ w i now, i < times.length →
      f ((⟨wordOfNat (i + 1), w.start⟩ : WindowCounter).verdict p now) = g w i) :
    (ws.flatMap fun w => w.verdicts p).map f =
      ws.flatMap fun w => w.times.mapIdx fun i _ => g w i := by
  rw [List.map_flatMap]
  apply List.flatMap_congr
  intro w hw
  have hlen : w.times.length ≤ times.length := by
    rw [h.times_eq]
    exact (List.sublist_flatten_of_mem (List.mem_map_of_mem hw)).length_le
  apply List.ext_getElem (by simp [CountedWindow.verdicts])
  intro i hi _
  have hi : i < w.times.length := by simpa [CountedWindow.verdicts] using hi
  simp only [CountedWindow.verdicts, List.getElem_map, List.getElem_mapIdx]
  exact hfg w i _ (Nat.lt_of_lt_of_le hi hlen)

section Interval

variable {p : Policy} {times : List UInt64} {ws : List CountedWindow} {w w' : CountedWindow}

theorem Splits.tail (h : Splits p times (w :: ws)) :
    Splits p (ws.flatMap CountedWindow.times) ws :=
  ⟨rfl, fun w hw => h.lt_end w (List.mem_cons_of_mem _ hw), (List.pairwise_cons.mp h.apart).2⟩

theorem Splits.le_end (h : Splits p times (w :: ws)) : ∀ s ∈ w.times, s ≤ p.windowEnd w.start := by
  intro s hs
  rcases List.mem_cons.mp hs with rfl | hs
  · exact le_satAdd w.start p.window
  · exact UInt64.le_of_lt (h.lt_end w List.mem_cons_self s hs)

theorem Splits.lt_max (h : Splits p times ws) (hmax : ∀ s ∈ times, s < maxWord) :
    ∀ w ∈ ws, ∀ s ∈ w.times, s < maxWord := by
  rw [h.times_eq] at hmax
  exact fun w hw s hs => hmax s (List.mem_flatMap.mpr ⟨w, hw, hs⟩)

theorem inInterval_append (length lo : Nat) (xs ys : List UInt64) :
    inInterval length lo (xs ++ ys) = inInterval length lo xs ++ inInterval length lo ys :=
  List.filter_append ..

theorem length_inInterval_take_le (length lo n : Nat) (times : List UInt64) :
    (inInterval length lo (times.take n)).length ≤ n :=
  Nat.le_trans (List.length_filter_le ..) (List.length_take_le n times)

/-- The windows after the second one come too late for an interval that meets the first one. -/
theorem Splits.interval_le (h : Splits p times (w :: w' :: ws)) (hmax : ∀ s ∈ times, s < maxWord)
    {s : UInt64} (hs : s ∈ w.times) :
    ∀ w'' ∈ ws, ∀ u ∈ w''.times, s.toNat + p.window.toNat ≤ u.toNat := by
  intro w'' hw'' u hu
  have hsw : s ≤ p.windowEnd w.start := h.le_end s hs
  have hw' : p.windowEnd w.start ≤ w'.start :=
    (List.pairwise_cons.mp h.apart).1 w' List.mem_cons_self w'.start List.mem_cons_self
  have hu' : p.windowEnd w'.start ≤ u := (List.pairwise_cons.mp h.tail.apart).1 w'' hw'' u hu
  have hlt := h.lt_max hmax w'' (by simp [hw'']) u hu
  have hexact := toNat_satAdd_of_lt hu' hlt
  have hle := UInt64.le_trans hsw hw'
  rw [UInt64.le_iff_toNat_le] at hle hu'
  rw [Policy.windowEnd, hexact] at hu'
  omega

/-- **An interval as long as a window has the first requests of two windows at most.** -/
theorem Splits.length_inInterval_le (h : Splits p times ws) (hmax : ∀ s ∈ times, s < maxWord)
    (n lo : Nat) :
    (inInterval p.window.toNat lo (ws.flatMap fun w => w.times.take n)).length ≤ 2 * n := by
  induction ws generalizing times with
  | nil => exact Nat.zero_le _
  | cons w ws ih =>
    have htail : ∀ s ∈ ws.flatMap CountedWindow.times, s < maxWord := by
      rw [h.times_eq] at hmax
      exact fun s hs => hmax s (List.mem_append_right _ hs)
    have hrest := ih h.tail htail
    rw [List.flatMap_cons, inInterval_append, List.length_append]
    cases hin : inInterval p.window.toNat lo (w.times.take n) with
    | nil => simpa using hrest
    | cons s _ =>
      -- the interval meets the first window, so it meets none after the second
      have hs : s ∈ inInterval p.window.toNat lo (w.times.take n) := by simp [hin]
      obtain ⟨hs, hlo⟩ := List.mem_filter.mp hs
      have hfirst := length_inInterval_take_le p.window.toNat lo n w.times
      rw [hin] at hfirst
      cases ws with
      | nil => simp only [List.flatMap_nil, inInterval, List.filter_nil, List.length_nil]; omega
      | cons w' ws =>
        have hlate := h.interval_le hmax (List.mem_of_mem_take hs)
        have hnone : inInterval p.window.toNat lo (ws.flatMap fun w => w.times.take n) = [] := by
          apply List.filter_eq_nil_iff.mpr
          intro u hu
          obtain ⟨w'', hw'', hu⟩ := List.mem_flatMap.mp hu
          have := hlate w'' hw'' u (List.mem_of_mem_take hu)
          simp only [decide_eq_true_eq] at hlo ⊢
          omega
        have hsecond := length_inInterval_take_le p.window.toNat lo n w'.times
        rw [List.flatMap_cons, inInterval_append, hnone, List.append_nil]
        omega

end Interval

/-- **Fixed windows through the store.**  A limiter that starts without entries answers a run of
requests.  Without blocks the run splits into windows, and the request at place `i` of a window is
admitted if it is among the first of the quota, is told what is then left of the quota, and when
the window ends.  And with or without blocks an interval `[lo, lo + length)`, which is the interval
`(lo - 1, lo - 1 + length]`, has at most twice the quota of admitted requests.  The count of a window
stops at the largest word, where it no longer tells a request from the next; so if the quota is as
large as that, the run is shorter. -/
theorem Limiter.checks_fixedWindow (l : Limiter) (t : Tracker) (p : Policy) (start : UInt64)
    (times : List UInt64) (hvalid : p.fault? = none) (halg : p.algorithm = .fixedWindow)
    (hsorted : times.Pairwise (· ≤ ·)) (hmax : ∀ s ∈ times, s < maxWord)
    (hcount : p.maxRequests < maxWord ∨ times.length < wordCount) :
    let outcomes := ((l.checks t p times).on (.start start (.empty none))).1
    (p.block = none → ∃ ws, Splits p times ws ∧
      outcomes.map (fun o => (o.allowed, o.remaining.toNat, o.resetAt)) =
        ws.flatMap fun w => w.times.mapIdx fun i _ =>
          (decide (i + 1 ≤ p.maxRequests.toNat), p.maxRequests.toNat - (i + 1),
            p.windowEnd w.start)) ∧
    ∀ lo, (inInterval p.window.toNat lo
      (admitted times (outcomes.map Outcome.allowed))).length ≤ 2 * p.maxRequests.toNat := by
  intro outcomes
  have houtcomes : outcomes = Account.empty.checks p times :=
    l.checks_start t start (Policy.window_ne_zero hvalid)
      ⟨hsorted, hmax, Nat.zero_lt_succ _, by simp [halg]⟩
  rw [houtcomes]
  constructor
  · intro hblock
    obtain ⟨ws, hsplits, hverdicts, _⟩ := Account.exists_splits halg hsorted
    refine ⟨ws, hsplits, ?_⟩
    rw [Account.checks_of_no_block hblock rfl, hverdicts, List.map_map]
    refine hsplits.map_verdicts _ (fun w i => (_, _, p.windowEnd w.start)) fun w i now hi => ?_
    have hi : p.maxRequests < maxWord ∨ i + 1 < wordCount :=
      hcount.imp_right (Nat.lt_of_le_of_lt hi)
    simp only [Function.comp_apply, Limiter.windowOutcome, allowed_verdict hi,
      toNat_remaining_verdict]
    rfl
  · intro lo
    obtain ⟨counted, hsub, hadm⟩ := Account.empty.exists_counted p times
    obtain ⟨ws, hsplits, hverdicts, _⟩ := Account.exists_splits halg (hsorted.sublist hsub)
    have hallowed := hsplits.map_verdicts Verdict.allowed
      (fun _ i => decide (i + 1 ≤ p.maxRequests.toNat)) fun w i now hi =>
        allowed_verdict (hcount.imp_right (Nat.lt_of_le_of_lt (Nat.le_trans hi hsub.length_le)))
          w.start now
    rw [hadm, hverdicts, hallowed, hsplits.times_eq, admitted_flatMap]
    exact hsplits.length_inInterval_le (fun s hs => hmax s (hsub.subset hs)) _ lo

/-- A run of two windows, and what the interval around the end of the first one has of it. -/
theorem Limiter.checks_fixedWindow_twoPerSecond :
    let outcomes := (((⟨⟨Shelf.defaultLabel⟩⟩ : Limiter).checks (.user "alice")
      (.twoPerSecond .fixedWindow) [100, 1000, 1100, 1200]).on (.start 0 (.empty none))).1
    (∃ ws, Splits (.twoPerSecond .fixedWindow) [100, 1000, 1100, 1200] ws ∧
      outcomes.map (fun o => (o.allowed, o.remaining.toNat, o.resetAt)) =
        ws.flatMap fun w => w.times.mapIdx fun i _ =>
          (decide (i + 1 ≤ 2), 2 - (i + 1), satAdd w.start 1000)) ∧
    (inInterval 1000 1000
      (admitted [100, 1000, 1100, 1200] (outcomes.map Outcome.allowed))).length ≤ 4 := by
  obtain ⟨hsplits, hbound⟩ := Limiter.checks_fixedWindow ⟨⟨Shelf.defaultLabel⟩⟩ (.user "alice")
    (.twoPerSecond .fixedWindow) 0 [100, 1000, 1100, 1200] (Policy.fault?_twoPerSecond _) rfl
    (by decide) (by simp [maxWord]) (.inl (by decide))
  exact ⟨hsplits rfl, hbound 1000⟩

end Turnstile
