import Turnstile.Proofs.Quota.SlidingWindow
import Turnstile.Proofs.Quota.Visits

/-!
# Coming back to a sliding window

A request that a sliding window denies is logged like any other, and its tracker is told to come
back when the oldest logged request leaves the window.  By then the denied request has taken that
place, and the window is as full as it was, unless others have left it as well.

* `Account.retryAfter_register_registered`: what a denied request is told.
* `Account.Kept.admitsFrom_iff`: from when on a window admits, in terms of what it has logged.
* `Limiter.admitsFrom_iff_of_denied`: from when on a tracker that was denied is admitted.
-/

set_option autoImplicit false

namespace Turnstile

namespace Account

variable {p : Policy} {past : List UInt64} {now : UInt64}

/-- A denied request is told to come back when the oldest of its window leaves. -/
theorem retryAfter_register_registered (halg : p.algorithm = .slidingWindow) (hw : p.window ≠ 0)
    (hs : (past ++ [now]).Pairwise (· ≤ ·))
    (hdenied : ((empty.registered p past).register p now).2.allowed = false) :
    ∃ oldest, (inWindow p.window.toNat now.toNat (past ++ [now])).head? = some oldest ∧
      ((empty.registered p past).register p now).2.retryAfter =
        some (ceilSecs (satSub (p.windowEnd oldest) now)) := by
  have hpos : 0 < p.window.toNat := Nat.pos_of_ne_zero fun e => hw (UInt64.toNat.inj e)
  rw [register_slidingWindow halg] at hdenied ⊢
  have hfull : ¬ ((empty.registered p past).log.next p now).count ≤ p.maxRequests :=
    of_decide_eq_false hdenied
  obtain ⟨oldest, hhead⟩ : ∃ oldest,
      (inWindow p.window.toNat now.toNat (past ++ [now])).head? = some oldest := by
    rw [inWindow_concat hpos]
    exact Option.isSome_iff_exists.mp (by simp)
  refine ⟨oldest, hhead, ?_⟩
  simp only [SlidingLog.verdict, hfull, ↓reduceIte, times_next_registered halg hw hs, hhead,
    Option.getD_some]

/-- A window admits a request if fewer of those before it than the quota are left in the window. -/
theorem allowed_register_iff (halg : p.algorithm = .slidingWindow) (hw : p.window ≠ 0)
    (hs : (past ++ [now]).Pairwise (· ≤ ·))
    (hfits : (inWindow p.window.toNat now.toNat past).length + 1 < wordCount) :
    ((empty.registered p past).register p now).2.allowed = true ↔
      (inWindow p.window.toNat now.toNat past).length < p.maxRequests.toNat := by
  have hpos : 0 < p.window.toNat := Nat.pos_of_ne_zero fun e => hw (UInt64.toNat.inj e)
  have hlength : (inWindow p.window.toNat now.toNat (past ++ [now])).length =
      (inWindow p.window.toNat now.toNat past).length + 1 := by
    rw [inWindow_concat hpos, List.length_append, List.length_singleton]
  rw [allowed_register_registered halg hw hs (hlength ▸ hfits), hlength]
  exact Nat.succ_le_iff

variable {l : Limiter} {t : Tracker} {env : Env} {logged : List UInt64} {instant : UInt64}

/-- A run that a window logs may end with a request at a later instant. -/
theorem ready_concat (hs : logged.Pairwise (· ≤ ·)) (hle : ∀ s ∈ logged, s ≤ instant)
    (hmax : instant < maxWord)
    (hfits : ∀ now, (inWindow p.window.toNat now logged).length + 1 < wordCount) :
    Ready empty p (logged ++ [instant]) :=
  ready_append_later hs hle hmax fun _ => hfits

/-- From when on a window admits that has logged all requests. -/
theorem Kept.admitsFrom_iff (halg : p.algorithm = .slidingWindow) (hw : p.window ≠ 0)
    (hblock : p.block = none) (hk : Kept l t p (empty.registered p logged) env)
    (hs : logged.Pairwise (· ≤ ·)) (hle : ∀ s ∈ logged, s ≤ instant) (hmax : instant < maxWord)
    (hfits : ∀ now, (inWindow p.window.toNat now logged).length + 1 < wordCount) :
    l.AdmitsFrom t p env instant ↔
      (inWindow p.window.toNat instant.toNat logged).length < p.maxRequests.toNat := by
  have hanswer : ∀ (between : List Visit) (later : UInt64), (∀ v ∈ between, v.Apart t p) →
      instant ≤ later → later < maxWord →
      (((l.checkAt t p later).on (l.left between env)).1.allowed = true ↔
        (inWindow p.window.toNat later.toNat logged).length < p.maxRequests.toNat) := by
    intro between later hbetween hlater hlt
    have hready := ready_concat hs (fun s hmem => UInt64.le_trans (hle s hmem) hlater) hlt hfits
    have hrest := hready.checked hw
    rw [checked_of_no_block hblock rfl] at hrest
    rw [hk.checkAt_left hw hrest hbetween,
      check_of_no_block_policy hblock (block_registered empty p logged)]
    exact allowed_register_iff halg hw hready.sorted (hfits _)
  constructor
  · intro hadmits
    exact (hanswer [] instant nofun (UInt64.le_refl _) hmax).mp
      (hadmits [] instant nofun (UInt64.le_refl _) hmax)
  · intro hroom between later hbetween hlater hlt
    -- a later window has no more of what was logged
    refine (hanswer between later hbetween hlater hlt).mpr (Nat.lt_of_le_of_lt ?_ hroom)
    exact length_inWindow_le_of_le hlater hle

end Account

/-- **From when on a denied tracker is admitted.**  On an empty store let a sliding window that does
not block deny a request of a tracker, whoever came before.  Then its window has more requests than
the quota, itself and those that were denied before included.  The tracker is told to come back when
the oldest of them leaves.  But it is admitted from an instant on if and only if fewer of them than
the quota are left in the window then, so that in general it is not yet at the instant that it is
told.  At the latest it is when the window has passed in which it was denied. -/
theorem Limiter.admitsFrom_iff_of_denied (l : Limiter) (t : Tracker) (p : Policy)
    (start now : UInt64) (before : List Visit) (hvalid : p.fault? = none)
    (halg : p.algorithm = .slidingWindow) (hblock : p.block = none)
    (hbefore : ∀ v ∈ before, v.Of t p ∨ v.Apart t p)
    (hsorted : (Visit.timesOf t p before ++ [now]).Pairwise (· ≤ ·)) (hmax : now < maxWord)
    (hfits : ∀ instant, (inWindow p.window.toNat instant
      (Visit.timesOf t p before ++ [now])).length + 1 < wordCount) :
    let logged := Visit.timesOf t p before ++ [now]
    let denied := (l.checkAt t p now).on (l.left before (.start start (.empty none)))
    denied.1.allowed = false →
      p.maxRequests.toNat < (inWindow p.window.toNat now.toNat logged).length ∧
      (∃ oldest, (inWindow p.window.toNat now.toNat logged).head? = some oldest ∧
        denied.1.retryAfter = some (ceilSecs (satSub (p.windowEnd oldest) now))) ∧
      ∀ instant, now ≤ instant → instant < maxWord →
        (l.AdmitsFrom t p denied.2 instant ↔
          (inWindow p.window.toNat instant.toNat logged).length < p.maxRequests.toNat) ∧
        (now.toNat + p.window.toNat ≤ instant.toNat → l.AdmitsFrom t p denied.2 instant) := by
  intro logged denied hdenied
  have hw := Policy.window_ne_zero hvalid
  have hquota : 0 < p.maxRequests.toNat :=
    Nat.pos_of_ne_zero fun e => (Policy.fault?_eq_none_iff.mp hvalid).2.2.1 (UInt64.toNat.inj e)
  have hle : ∀ s ∈ logged, s ≤ now := Account.le_getLast hsorted List.getLast?_concat
  have hfits' : ∀ instant, (inWindow p.window.toNat instant logged).length < wordCount :=
    fun instant => Nat.lt_of_succ_lt (hfits instant)
  have hready : Account.empty.Ready p logged :=
    (Account.ready_concat hsorted hle hmax hfits).sublist (List.sublist_append_left ..)
  obtain ⟨env, hcheck, hlogged⟩ :=
    Account.checkAt_left_of_no_block (l := l) hw hblock start hready hbefore
  have hresult : denied = _ := hcheck
  rw [hresult] at hdenied ⊢
  refine ⟨?_, Account.retryAfter_register_registered halg hw hsorted hdenied,
    fun instant hinstant hlt => ?_⟩
  · rw [← Nat.not_le, ← Account.allowed_register_registered halg hw hsorted (hfits' _)]
    exact Bool.eq_false_iff.mp hdenied
  · have hiff := hlogged.admitsFrom_iff halg hw hblock hsorted
      (fun s hs => UInt64.le_trans (hle s hs) hinstant) hlt hfits
    refine ⟨hiff, fun hpassed => hiff.mpr ?_⟩
    have hnone : inWindow p.window.toNat instant.toNat logged = [] := inWindow_eq_nil fun s hs =>
      Nat.le_trans (Nat.add_le_add_right (UInt64.le_iff_toNat_le.mp (hle s hs)) _) hpassed
    rw [hnone]
    exact hquota

/-- The limiter whose shelf has the default label. -/
def Limiter.standard : Limiter := ⟨⟨Shelf.defaultLabel⟩⟩

/-- Two requests of a tracker, with one of another in between. -/
def Visit.twoLogins : List Visit :=
  [⟨0, .user "alice", .twoPerSecond .slidingWindow⟩, ⟨50, .user "bob", .twoPerSecond .slidingWindow⟩,
    ⟨100, .user "alice", .twoPerSecond .slidingWindow⟩]

/-- A third request within a second is denied, and the tracker admitted when two of the three have
left the window. -/
theorem Limiter.admitsFrom_of_twoLogins :
    let denied := (standard.checkAt (.user "alice") (.twoPerSecond .slidingWindow) 200).on
      (standard.left Visit.twoLogins (.start 0 (.empty none)))
    denied.1.allowed = false ∧
      standard.AdmitsFrom (.user "alice") (.twoPerSecond .slidingWindow) denied.2 1100 ∧
      ¬ standard.AdmitsFrom (.user "alice") (.twoPerSecond .slidingWindow) denied.2 1099 := by
  intro denied
  have hdenied : denied.1.allowed = false := by decide +kernel
  obtain ⟨_, _, hfrom⟩ := admitsFrom_iff_of_denied standard (.user "alice")
    (.twoPerSecond .slidingWindow) 0 200 Visit.twoLogins (Policy.fault?_twoPerSecond _) rfl rfl
    (by decide) (by decide) (by decide)
    (fun _ => Nat.lt_of_le_of_lt (Nat.succ_le_succ (List.length_filter_le ..)) (by decide)) hdenied
  refine ⟨hdenied, (hfrom 1100 (by decide) (by decide)).1.mpr (by decide), fun hadmits => ?_⟩
  exact absurd ((hfrom 1099 (by decide) (by decide)).1.mp hadmits) (by decide)

/-- A policy of one request in ten seconds, in a sliding window. -/
def Policy.onePerTenSeconds : Policy := ⟨"login", 10000, 1, none, .slidingWindow⟩

/-- A tracker that is denied once and then comes back whenever it is told to is denied each time. -/
theorem Limiter.denied_when_told :
    Policy.onePerTenSeconds.fault? = none ∧
    ((standard.checks (.user "alice") .onePerTenSeconds [1000, 4000, 11000, 14000, 21000]).on
      (.start 0 (.empty none))).1.map (fun o => (o.allowed, o.retryAfter)) =
        [(true, none), (false, some 7), (false, some 3), (false, some 7), (false, some 3)] ∧
    4000 + 1000 * 7 = 11000 ∧ 11000 + 1000 * 3 = 14000 ∧ 14000 + 1000 * 7 = 21000 :=
  ⟨by decide +kernel, by decide +kernel, rfl, rfl, rfl⟩

end Turnstile
