import Mathlib.Data.List.Induction
import Turnstile.Proofs.Quota.Policy
import Turnstile.Proofs.Quota.Run

/-!
# Sliding windows

A limiter that starts without entries keeps in its log the requests of the trailing window and no
others, whether they were admitted or not.  So it admits a request exactly when the window that ends
with it has no more requests than the quota, and no window of that length ever has more admitted
ones.

* `Account.times_next_registered`: what the log holds.
* `Account.length_inWindow_admitted_le`: what the window admits in any trailing window.
* `Limiter.checks_slidingWindow`: both for the limiter on its store.
-/

set_option autoImplicit false

namespace Turnstile

/-- A trailing window that ends with the last of some times has all of them that a later one has. -/
theorem length_inWindow_le_of_le {length now later : Nat} {times : List UInt64} (hle : now ≤ later)
    (htimes : ∀ s ∈ times, s.toNat ≤ now) :
    (inWindow length later times).length ≤ (inWindow length now times).length := by
  rw [← inWindow_inWindow hle htimes]
  exact (inWindow_sublist ..).length_le

namespace Account

variable {p : Policy}

theorem register_slidingWindow (halg : p.algorithm = .slidingWindow) (a : Account) (now : UInt64) :
    a.register p now = ({ a with log := a.log.next p now }, (a.log.next p now).verdict p now) := by
  simp only [register, halg, SlidingLog.register]

/-- **After a request the log is the trailing window of all requests.** -/
theorem times_next_registered (halg : p.algorithm = .slidingWindow) (hw : p.window ≠ 0)
    {past : List UInt64} {now : UInt64} (hs : (past ++ [now]).Pairwise (· ≤ ·)) :
    ((empty.registered p past).log.next p now).times =
      inWindow p.window.toNat now.toNat (past ++ [now]) := by
  induction past using List.reverseRecOn generalizing now with
  | nil => exact SlidingLog.times_next .nil (by simp [empty, SlidingLog.empty, registered]) hw
  | append_singleton past s ih =>
    obtain ⟨hpast, _, hle⟩ := List.pairwise_append.mp hs
    have hlast : ∀ u ∈ past ++ [s], u.toNat ≤ s.toNat := le_getLast hpast List.getLast?_concat
    have hreg : (empty.registered p (past ++ [s])).log =
        (empty.registered p past).log.next p s := by
      rw [registered_append]
      show (register _ p s).1.log = _
      rw [register_slidingWindow halg]
    have hlog := ih hpast
    rw [← hreg] at hlog
    have hsub : (empty.registered p (past ++ [s])).log.times.Sublist (past ++ [s]) := by
      rw [hlog]
      exact inWindow_sublist ..
    have hnow : ∀ u ∈ past ++ [s], u ≤ now := fun u hu => hle u hu now (by simp)
    have hsn : s.toNat ≤ now.toNat := hnow s (by simp)
    rw [SlidingLog.times_next (hpast.sublist hsub) (fun u hu => hnow u (hsub.subset hu)) hw, hlog,
      inWindow_append _ _ (inWindow _ _ _), inWindow_inWindow hsn hlast,
      ← inWindow_append]

/-- What a request is told depends on the requests in its trailing window alone. -/
theorem allowed_register_registered (halg : p.algorithm = .slidingWindow) (hw : p.window ≠ 0)
    {past : List UInt64} {now : UInt64} (hs : (past ++ [now]).Pairwise (· ≤ ·))
    (hfits : (inWindow p.window.toNat now.toNat (past ++ [now])).length < wordCount) :
    ((empty.registered p past).register p now).2.allowed = true ↔
      (inWindow p.window.toNat now.toNat (past ++ [now])).length ≤ p.maxRequests.toNat := by
  rw [← wordOfNat_le_iff (.inr hfits), ← times_next_registered halg hw hs, register_slidingWindow halg]
  exact decide_eq_true_iff

/-- **No trailing window has more admitted requests than the quota.** -/
theorem length_inWindow_admitted_le (halg : p.algorithm = .slidingWindow) (hw : p.window ≠ 0)
    {times : List UInt64} (hs : times.Pairwise (· ≤ ·))
    (hfits : ∀ now, (inWindow p.window.toNat now times).length < wordCount) (later : Nat) :
    (inWindow p.window.toNat later (admitted times ((empty.verdicts p times).map
      Verdict.allowed))).length ≤ p.maxRequests.toNat := by
  induction times using List.reverseRecOn with
  | nil => exact Nat.zero_le _
  | append_singleton times now ih =>
    have hsub : times.Sublist (times ++ [now]) := List.sublist_append_left ..
    have hprev := ih (hs.sublist hsub) fun a => Nat.lt_of_le_of_lt (length_inWindow_le _ a hsub) (hfits a)
    have hlen : times.length = ((empty.verdicts p times).map Verdict.allowed).length := by
      rw [List.length_map, length_verdicts]
    rw [verdicts_append, List.map_append, admitted_append hlen, inWindow_append]
    cases hv : ((empty.registered p times).register p now).2.allowed with
    | false => simpa [verdicts, admitted, hv, inWindow] using hprev
    | true =>
      by_cases hin : now.toNat ≤ later ∧ later < now.toNat + p.window.toNat
      · -- what the later window has of the run so far, the window at `now` has as well
        have hcount := (allowed_register_registered halg hw hs (hfits _)).mp hv
        have hle : ∀ s ∈ times ++ [now], s.toNat ≤ now.toNat :=
          le_getLast hs List.getLast?_concat
        have hadm : admitted [now] (((empty.registered p times).verdicts p [now]).map
            Verdict.allowed) = [now] := by
          simp [verdicts, admitted, hv]
        rw [hadm, ← inWindow_append]
        calc (inWindow p.window.toNat later (admitted times _ ++ [now])).length
            ≤ (inWindow p.window.toNat later (times ++ [now])).length :=
              length_inWindow_le _ later ((admitted_sublist times _).append_right [now])
          _ ≤ (inWindow p.window.toNat now.toNat (times ++ [now])).length :=
              length_inWindow_le_of_le hin.1 hle
          _ ≤ p.maxRequests.toNat := hcount
      · simpa [verdicts, admitted, hv, inWindow, hin] using hprev

end Account

/-- **Sliding windows through the store.**  A limiter that starts without entries answers a run of
requests.  No window `(now - length, now]` has more admitted ones than the quota; and without
blocks a request is admitted exactly when the window that ends with it has no more requests than
the quota, itself and the denied ones included.  The only bound on the run is that a log is a list
whose length is a machine word. -/
theorem Limiter.checks_slidingWindow (l : Limiter) (t : Tracker) (p : Policy) (start : UInt64)
    (times : List UInt64) (hvalid : p.fault? = none) (halg : p.algorithm = .slidingWindow)
    (hsorted : times.Pairwise (· ≤ ·)) (hmax : ∀ s ∈ times, s < maxWord)
    (hfits : ∀ now, (inWindow p.window.toNat now times).length < wordCount) :
    let outcomes := ((l.checks t p times).on (.start start (.empty none))).1
    (∀ now, (inWindow p.window.toNat now
      (admitted times (outcomes.map Outcome.allowed))).length ≤ p.maxRequests.toNat) ∧
    (p.block = none → ∀ past now later, times = past ++ now :: later →
      ∃ o, outcomes[past.length]? = some o ∧
        (o.allowed = true ↔
          (inWindow p.window.toNat now.toNat (past ++ [now])).length ≤ p.maxRequests.toNat)) := by
  intro outcomes
  have hw := Policy.window_ne_zero hvalid
  have houtcomes : outcomes = Account.empty.checks p times :=
    l.checks_start t start hw ⟨hsorted, hmax, Nat.zero_lt_succ _, fun _ => hfits⟩
  rw [houtcomes]
  constructor
  · intro now
    obtain ⟨counted, hsub, hadm⟩ := Account.empty.exists_counted p times
    rw [hadm]
    exact Account.length_inWindow_admitted_le halg hw (hsorted.sublist hsub)
      (fun a => Nat.lt_of_le_of_lt (length_inWindow_le _ a hsub) (hfits a)) now
  · rintro hblock past now later rfl
    refine ⟨Limiter.windowOutcome p ((Account.empty.registered p past).register p now).2, ?_, ?_⟩
    · rw [Account.checks_of_no_block hblock rfl, Account.verdicts_append, List.map_append,
        List.getElem?_append_right] <;> simp [Account.length_verdicts, Account.verdicts]
    · have hsub : (past ++ [now]).Sublist (past ++ now :: later) := by simp
      exact Account.allowed_register_registered halg hw (hsorted.sublist hsub)
        (Nat.lt_of_le_of_lt (length_inWindow_le _ _ hsub) (hfits _))

/-- Half a second apart two requests a second pass, and one more a millisecond later does not. -/
theorem Limiter.checks_slidingWindow_twoPerSecond :
    let outcomes := (((⟨⟨Shelf.defaultLabel⟩⟩ : Limiter).checks (.user "alice")
      (.twoPerSecond .slidingWindow) [100, 600, 1100, 1101]).on (.start 0 (.empty none))).1
    (∃ o, outcomes[2]? = some o ∧ o.allowed = true) ∧
      ∃ o, outcomes[3]? = some o ∧ ¬ o.allowed = true := by
  obtain ⟨_, hexact⟩ := Limiter.checks_slidingWindow ⟨⟨Shelf.defaultLabel⟩⟩ (.user "alice")
    (.twoPerSecond .slidingWindow) 0 [100, 600, 1100, 1101] (Policy.fault?_twoPerSecond _) rfl
    (by decide) (by simp [maxWord]) fun _ => Nat.lt_of_le_of_lt (List.length_filter_le ..) (by decide)
  obtain ⟨o, ho, hallowed⟩ := hexact rfl [100, 600] 1100 [1101] rfl
  obtain ⟨o', ho', hallowed'⟩ := hexact rfl [100, 600, 1100] 1101 [] rfl
  exact ⟨⟨o, ho, hallowed.mpr (by decide)⟩, o', ho', fun h => absurd (hallowed'.mp h) (by decide)⟩

end Turnstile
