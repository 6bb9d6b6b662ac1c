import Mathlib.Data.List.Induction
import Mathlib.Order.Bounds.Defs
import Turnstile.Proofs.Quota.Later
import Turnstile.Proofs.Quota.Retry

/-!
# When a window is over

A denied request is told when its window resets.  For a fixed window that is its end; for a sliding
one it is a window's length after the request, when everything that was logged by then has left.
Either way nothing that was counted is left in the window from the reset on, and the next request is
admitted.  A fixed window that has denied a request denies all others up to its end.

* `Visit.Before`: the visits before a request.
* `Account.UpTo`, `Account.Over`: when what the window counts has come, and that it is over.
* `Account.allowed_check_of_over`: a request after that.
* `Account.Full`: a fixed window that denies until it ends.
* `Limiter.admitsFrom_resetAt`: from when on a tracker is admitted that no block denies.
-/

set_option autoImplicit false

namespace Turnstile

/-- What comes before a request of a tracker under a policy: requests of its own, at instants that do
not fall up to this one, and others that are counted elsewhere.  The clock is below the largest word,
and no trailing window is too full for a log that the store can hold with one more request. -/
structure Visit.Before (t : Tracker) (p : Policy) (before : List Visit) (now : UInt64) : Prop where
  of_or_apart : ∀ v ∈ before, v.Of t p ∨ v.Apart t p
  sorted : (timesOf t p before ++ [now]).Pairwise (· ≤ ·)
  lt_max : now < maxWord
  fits : p.algorithm = .slidingWindow → ∀ instant,
    (inWindow p.window.toNat instant (timesOf t p before ++ [now])).length + 1 < wordCount

/-- The seconds that a tracker is told to wait for an instant are the least that lead there, but at
least one. -/
theorem isLeast_ceilSecs {now instant : UInt64} (h : now ≤ instant) :
    IsLeast {n : Nat | 0 < n ∧ instant.toNat ≤ now.toNat + 1000 * n}
      (ceilSecs (satSub instant now)).toNat := by
  rw [UInt64.le_iff_toNat_le] at h
  rw [toNat_ceilSecs, toNat_satSub]
  constructor
  · show 0 < _ ∧ _ ≤ _
    omega
  · rintro n ⟨hpos, hn⟩
    omega

namespace Account

variable {l : Limiter} {t : Tracker} {p : Policy} {a : Account} {env : Env} {now later : UInt64}

/-! ## What is counted -/

/-- What the window has counted came up to an instant. -/
structure UpTo (a : Account) (last : UInt64) : Prop where
  start_le : ∀ c ∈ a.counter, c.start ≤ last
  times_le : ∀ s ∈ a.log.times, s ≤ last

theorem upTo_empty (last : UInt64) : empty.UpTo last := ⟨nofun, nofun⟩

theorem UpTo.mono {last : UInt64} (h : a.UpTo last) (hle : last ≤ now) : a.UpTo now :=
  ⟨fun c hc => UInt64.le_trans (h.start_le c hc) hle,
    fun s hs => UInt64.le_trans (h.times_le s hs) hle⟩

theorem UpTo.lift {last : UInt64} (h : a.UpTo last) (now : UInt64) : (a.lift now).UpTo last :=
  ⟨h.start_le, h.times_le⟩

theorem UpTo.register (h : a.UpTo now) (p : Policy) : (a.register p now).1.UpTo now := by
  unfold Account.register
  cases p.algorithm with
  | fixedWindow =>
    refine ⟨fun c hc => ?_, h.times_le⟩
    rw [← Option.some.inj hc]
    exact WindowCounter.start_next_le (UInt64.le_refl now) h.start_le
  | slidingWindow =>
    exact ⟨h.start_le, SlidingLog.times_next_le (UInt64.le_refl now) h.times_le⟩

theorem UpTo.check (h : a.UpTo now) (p : Policy) : (a.check p now).1.UpTo now := by
  cases hb : (a.lift now).block with
  | some b =>
    rw [check_of_block hb]
    exact h.lift now
  | none =>
    obtain ⟨block, ht⟩ := exists_block_tally (a.lift now) p now
    have hregister := (h.lift now).register p
    rw [check_of_no_block hb, ht]
    exact ⟨hregister.start_le, hregister.times_le⟩

/-- The verdict of a window is that of a number of requests; in a fixed window the time to wait is
the time to its end. -/
theorem register_counts (a : Account) (p : Policy) (now : UInt64) :
    ∃ n wait, (a.register p now).2.Counts p now n wait ∧
      (p.algorithm = .fixedWindow → wait = satSub (a.register p now).2.resetAt now) := by
  unfold register
  cases p.algorithm with
  | fixedWindow => exact ⟨_, _, WindowCounter.register_counts a.counter p now, fun _ => rfl⟩
  | slidingWindow => exact ⟨_, _, SlidingLog.register_counts a.log p now, nofun⟩

/-! ## A window that is over -/

/-- Nothing that was counted is left in the window. -/
def Over (a : Account) (p : Policy) (later : UInt64) : Prop :=
  match p.algorithm with
  | .fixedWindow => ∀ c ∈ a.counter, c.resetAt p ≤ later
  | .slidingWindow => ∀ s ∈ a.log.times, s.toNat + p.window.toNat ≤ later.toNat

/-- A window is over a window's length after the last request that it has counted. -/
theorem UpTo.over {last : UInt64} (h : a.UpTo last) (hend : p.windowEnd last ≤ later)
    (hlater : later < maxWord) : a.Over p later := by
  have hexact := toNat_satAdd_of_lt hend hlater
  have hle := hend
  rw [UInt64.le_iff_toNat_le, Policy.windowEnd, hexact] at hle
  unfold Over
  cases p.algorithm with
  | fixedWindow =>
    intro c hc
    have hstart := UInt64.le_iff_toNat_le.mp (h.start_le c hc)
    rw [WindowCounter.resetAt, Policy.windowEnd, UInt64.le_iff_toNat_le, toNat_satAdd]
    omega
  | slidingWindow =>
    intro s hs
    have htime := UInt64.le_iff_toNat_le.mp (h.times_le s hs)
    omega

/-- A window that has counted a request is over from the reset on that its verdict tells. -/
theorem over_resetAt (h : a.UpTo now) (hreset : (a.register p now).2.resetAt ≤ later)
    (hlater : later < maxWord) : (a.register p now).1.Over p later := by
  cases halg : p.algorithm with
  | fixedWindow =>
    simp only [register, halg] at hreset ⊢
    simp only [Over, halg]
    intro c hc
    rw [← Option.some.inj hc]
    exact hreset
  | slidingWindow =>
    refine (h.register p).over (UInt64.le_trans ?_ hreset) hlater
    simp only [register, halg]
    exact UInt64.le_refl _

/-- A window that is over admits a request. -/
theorem allowed_register_of_over (hquota : p.maxRequests ≠ 0) (h : a.Over p later) :
    (a.register p later).2.allowed = true := by
  have hone : (1 : UInt64) ≤ p.maxRequests := by
    rw [UInt64.le_iff_toNat_le, UInt64.toNat_one]
    exact Nat.pos_of_ne_zero fun e => hquota (UInt64.toNat.inj e)
  unfold Over at h
  unfold register
  cases halg : p.algorithm with
  | fixedWindow =>
    simp only [halg] at h
    have hopened : WindowCounter.next a.counter p later = .opened later := by
      unfold WindowCounter.next
      split
      · rename_i c hc
        exact if_pos (decide_eq_true (h c hc))
      · rfl
    simp only [WindowCounter.register, hopened]
    exact decide_eq_true hone
  | slidingWindow =>
    simp only [halg] at h
    have hgone : (a.log.purge p later).times = [] :=
      List.dropWhile_eq_nil_iff.mpr fun s hs => SlidingLog.gone_iff.mpr (h s hs)
    have hcount : (a.log.next p later).count = 1 := by
      simp [SlidingLog.next, SlidingLog.count, hgone, wordOfNat, wordCount]
    simp only [SlidingLog.register, SlidingLog.verdict, hcount]
    exact decide_eq_true hone

/-- When its block has ended, the window decides about a request. -/
theorem allowed_check_of_ended (hblock : ∀ b ∈ a.block, b.endsAt ≤ later) :
    (a.check p later).2.allowed = (a.register p later).2.allowed := by
  have hlift : (a.lift later).block = none := by
    refine Option.filter_eq_none_iff.mpr fun b hb => ?_
    rw [Block.active, decide_eq_true_eq, UInt64.not_lt]
    exact hblock b hb
  rw [check_of_no_block hlift, allowed_tally, lift, register_block]

/-- **A request is admitted when the window and the block are over.** -/
theorem allowed_check_of_over (hquota : p.maxRequests ≠ 0) (hblock : ∀ b ∈ a.block, b.endsAt ≤ later)
    (h : a.Over p later) : (a.check p later).2.allowed = true := by
  rw [allowed_check_of_ended hblock]
  exact allowed_register_of_over hquota h

/-! ## A fixed window that is full -/

/-- A fixed window that has counted more requests than the quota, and when it ends. -/
def Full (a : Account) (p : Policy) (resetAt : UInt64) : Prop :=
  ∃ c ∈ a.counter, c.resetAt p = resetAt ∧ p.maxRequests < c.hits

theorem full_register (halg : p.algorithm = .fixedWindow)
    (hdenied : (a.register p now).2.allowed = false) :
    (a.register p now).1.Full p (a.register p now).2.resetAt := by
  simp only [register, halg] at hdenied ⊢
  exact ⟨_, rfl, rfl, UInt64.not_le.mp (of_decide_eq_false hdenied)⟩

/-- Before its end a full window denies a request, and stays full. -/
theorem Full.register {resetAt : UInt64} (h : a.Full p resetAt) (halg : p.algorithm = .fixedWindow)
    (hnow : now < resetAt) :
    (a.register p now).2.allowed = false ∧ (a.register p now).1.Full p resetAt := by
  obtain ⟨c, hc, hend, hmany⟩ := h
  have hopen : c.expired p now = false := by
    rw [WindowCounter.expired, hend]
    exact decide_eq_false (UInt64.not_le.mpr hnow)
  have hnext : WindowCounter.next a.counter p now = { c with hits := satAdd c.hits 1 } := by
    rw [Option.mem_def.mp hc]
    simp only [WindowCounter.next, hopen, Bool.false_eq_true, ↓reduceIte]
  have hhits : p.maxRequests < satAdd c.hits 1 := UInt64.lt_of_lt_of_le hmany (le_satAdd ..)
  simp only [Account.register, halg, WindowCounter.register, hnext]
  exact ⟨decide_eq_false (UInt64.not_le.mpr hhits), _, rfl, hend, hhits⟩

theorem Full.registered {resetAt : UInt64} {times : List UInt64} (h : a.Full p resetAt)
    (halg : p.algorithm = .fixedWindow) (htimes : ∀ s ∈ times, s < resetAt) :
    (a.registered p times).Full p resetAt := by
  induction times generalizing a with
  | nil => exact h
  | cons now times ih =>
    obtain ⟨hnow, htimes⟩ := List.forall_mem_cons.mp htimes
    exact ih (h.register halg hnow).2 htimes

theorem log_registered_of_fixed (halg : p.algorithm = .fixedWindow) (a : Account)
    (times : List UInt64) : (a.registered p times).log = a.log := by
  induction times generalizing a with
  | nil => rfl
  | cons now times ih =>
    refine (ih (a.register p now).1).trans ?_
    simp only [register, halg]

/-! ## Visits before a request -/

/-- What visits before a request have left is ready for the request and a later one. -/
theorem ready_before {before : List Visit} (h : Visit.Before t p before now) (hle : now ≤ later)
    (hlater : later < maxWord) :
    Ready empty p (Visit.timesOf t p before ++ [now] ++ [later]) :=
  ready_append_later h.sorted (fun s hs =>
    UInt64.le_trans (le_getLast h.sorted List.getLast?_concat s hs) hle) hlater h.fits

theorem upTo_checked {times : List UInt64} (h : (times ++ [now]).Pairwise (· ≤ ·)) :
    (empty.checked p times).UpTo now := by
  induction times using List.reverseRecOn generalizing now with
  | nil => exact upTo_empty now
  | append_singleton times s ih =>
    obtain ⟨hs, _, hle⟩ := List.pairwise_append.mp h
    have hlast := (ih hs).check p
    rw [checked_append]
    exact hlast.mono (hle s (by simp) now (by simp))

/-- What a request after any visits is told and leaves, which is ready for a later one. -/
theorem exists_kept_of_before (hw : p.window ≠ 0) {before : List Visit}
    (h : Visit.Before t p before now) (l : Limiter) (start : UInt64) :
    let a := empty.checked p (Visit.timesOf t p before)
    ∃ env, (l.checkAt t p now).on (l.left before (.start start (.empty none))) =
        ((a.check p now).2, env) ∧
      Kept l t p (a.check p now).1 env ∧
      ∀ later, now ≤ later → later < maxWord → Ready (a.check p now).1 p [later] := by
  intro a
  have hnow := (ready_before h (UInt64.le_refl now) h.lt_max).sublist (List.sublist_append_left ..)
  obtain ⟨env, hcheck, hk⟩ := checkAt_left_of_ready hw l start hnow h.of_or_apart
  refine ⟨env, hcheck, hk, fun later hle hlater => ?_⟩
  have hall := ready_before h hle hlater
  rw [List.append_assoc] at hall
  exact (hall.checked hw).check hw

/-- A tracker whose block and window are over by an instant is admitted from then on. -/
theorem Kept.admitsFrom_of_over (hvalid : p.fault? = none) (hk : Kept l t p a env)
    {instant : UInt64} (hblock : ∀ b ∈ a.block, b.endsAt ≤ instant)
    (hover : ∀ later, instant ≤ later → later < maxWord → a.Over p later ∧ Ready a p [later]) :
    l.AdmitsFrom t p env instant := by
  intro between later hbetween hle hlater
  obtain ⟨hover, hready⟩ := hover later hle hlater
  rw [hk.checkAt_left (Policy.window_ne_zero hvalid) hready hbetween]
  exact allowed_check_of_over (Policy.maxRequests_ne_zero hvalid)
    (fun b hb => UInt64.le_trans (hblock b hb) hle) hover

/-- A tracker whose fixed window is full is denied until it ends. -/
theorem Kept.denied_of_full (halg : p.algorithm = .fixedWindow) (hw : p.window ≠ 0)
    (hblock : p.block = none) (hk : Kept l t p a env) (hlog : a.log = .empty) {resetAt : UInt64}
    (hfull : a.Full p resetAt) {between : List Visit} (hlater : later < resetAt)
    (hbetween : ∀ v ∈ between, v.Of t p ∨ v.Apart t p)
    (hs : (Visit.timesOf t p between ++ [later]).Pairwise (· ≤ ·)) :
    ((l.checkAt t p later).on (l.left between env)).1.allowed = false := by
  have hle : ∀ s ∈ Visit.timesOf t p between ++ [later], s < resetAt := fun s hs' =>
    UInt64.lt_of_le_of_lt (le_getLast hs List.getLast?_concat s hs') hlater
  have hready : Ready a p (Visit.timesOf t p between ++ [later]) := by
    refine ⟨?_, fun s hs' => UInt64.lt_of_lt_of_le (hle s hs') (le_maxWord resetAt), ?_, ?_⟩
    · rwa [hlog]
    · rw [hlog]
      exact Nat.zero_lt_succ _
    · rw [halg]
      exact nofun
  have hnone := hk.block_none hblock
  have hleft := hk.left hw (hready.sublist (List.sublist_append_left ..)) hbetween
  have hlast := hready.checked hw
  rw [checked_of_no_block hblock hnone] at hleft hlast
  obtain ⟨env', hcheck, _⟩ := hleft.checkAt hlast
  rw [hcheck, check_of_no_block_policy hblock ((block_registered ..).trans hnone)]
  exact ((hfull.registered halg fun s hs' => hle s (List.mem_append_left _ hs')).register halg
    hlater).1

end Account

/-- **Without blocks the reset is one.**  On an empty store let a policy that does not block deny a
request of a tracker, whatever came before.  From the instant at which it is told that its window
resets the tracker is admitted.

A fixed window is not over before: up to that instant every request is denied, whatever comes in
between.  And the seconds that the tracker is told to wait are the least that lead there. -/
theorem Limiter.admitsFrom_resetAt (l : Limiter) (t : Tracker) (p : Policy) (start now : UInt64)
    (before : List Visit) (hvalid : p.fault? = none) (hblock : p.block = none)
    (hbefore : Visit.Before t p before now) :
    let denied := (l.checkAt t p now).on (l.left before (.start start (.empty none)))
    denied.1.allowed = false →
      l.AdmitsFrom t p denied.2 denied.1.resetAt ∧
      (p.algorithm = .fixedWindow →
        (∃ secs, denied.1.retryAfter = some secs ∧
          IsLeast {n : Nat | 0 < n ∧ denied.1.resetAt.toNat ≤ now.toNat + 1000 * n} secs.toNat) ∧
        ∀ between later, (∀ v ∈ between, v.Of t p ∨ v.Apart t p) →
          (Visit.timesOf t p between ++ [later]).Pairwise (· ≤ ·) → later < denied.1.resetAt →
          ((l.checkAt t p later).on (l.left between denied.2)).1.allowed = false) := by
  intro denied hdenied
  have hw := Policy.window_ne_zero hvalid
  obtain ⟨env, hcheck, hk, hready⟩ := Account.exists_kept_of_before hw hbefore l start
  have hupTo := Account.upTo_checked (p := p) hbefore.sorted
  have hresult : denied = _ := hcheck
  rw [Account.checked_of_no_block hblock rfl] at hcheck hk hready hupTo hresult
  have hnone : (Account.empty.registered p (Visit.timesOf t p before)).block = none :=
    Account.block_registered ..
  rw [Account.check_of_no_block_policy hblock hnone] at hk hready hresult
  rw [hresult] at hdenied ⊢
  obtain ⟨n, wait, hcounts, hwait⟩ := Account.register_counts
    (Account.empty.registered p (Visit.timesOf t p before)) p now
  refine ⟨hk.admitsFrom_of_over hvalid ?_ fun later hle hlater => ⟨?_, ?_⟩, fun halg => ⟨?_, ?_⟩⟩
  · rw [Account.block_register, hnone]
    exact nofun
  · exact Account.over_resetAt hupTo hle hlater
  · exact hready later (UInt64.le_trans hcounts.le_resetAt hle) hlater
  · refine ⟨_, hcounts.retryAfter_of_denied hdenied, ?_⟩
    rw [hwait halg]
    exact isLeast_ceilSecs hcounts.le_resetAt
  · intro between later hbetween hs hlater
    have hlog := Account.log_registered_of_fixed halg Account.empty
      (Visit.timesOf t p before ++ [now])
    rw [Account.registered_append] at hlog
    exact hk.denied_of_full halg hw hblock hlog (Account.full_register halg hdenied) hlater hbetween
      hs

/-- Two requests of a tracker under a policy, with one of another in between. -/
def Visit.logins (p : Policy) : List Visit :=
  [⟨100, .user "alice", p⟩, ⟨150, .user "bob", p⟩, ⟨200, .user "alice", p⟩]

/-- A third request within a second is denied, and so is a fourth, up to the end of the window that
the first one has opened. -/
theorem Limiter.admitsFrom_resetAt_logins :
    let denied := (standard.checkAt (.user "alice") (.twoPerSecond .fixedWindow) 250).on
      (standard.left (Visit.logins (.twoPerSecond .fixedWindow)) (.start 0 (.empty none)))
    denied.1 = ⟨false, 2, 0, 1100, some 1, false, false⟩ ∧
      standard.AdmitsFrom (.user "alice") (.twoPerSecond .fixedWindow) denied.2 1100 ∧
      ((standard.checkAt (.user "alice") (.twoPerSecond .fixedWindow) 1099).on
        (standard.left [⟨1050, .user "alice", .twoPerSecond .fixedWindow⟩] denied.2)).1.allowed =
          false := by
  have hbefore : Visit.Before (.user "alice") (.twoPerSecond .fixedWindow)
      (Visit.logins (.twoPerSecond .fixedWindow)) 250 := ⟨by decide, by decide, by decide, nofun⟩
  have hdenied : ((standard.checkAt (.user "alice") (.twoPerSecond .fixedWindow) 250).on
      (standard.left (Visit.logins (.twoPerSecond .fixedWindow)) (.start 0 (.empty none)))).1 =
        ⟨false, 2, 0, 1100, some 1, false, false⟩ := by decide +kernel
  have hresets := admitsFrom_resetAt standard (.user "alice") (.twoPerSecond .fixedWindow) 0 250 _
    (Policy.fault?_twoPerSecond _) rfl hbefore
  dsimp only at hresets ⊢
  generalize (standard.checkAt (.user "alice") (.twoPerSecond .fixedWindow) 250).on _ = denied at *
  rw [hdenied] at hresets
  obtain ⟨hadmits, hfixed⟩ := hresets rfl
  exact ⟨hdenied, hadmits, (hfixed rfl).2 [⟨1050, .user "alice", .twoPerSecond .fixedWindow⟩] 1099
    (by decide) (by decide) (by decide)⟩

end Turnstile
