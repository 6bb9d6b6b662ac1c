import Turnstile.Proofs.Quota.Blocks
import Turnstile.Proofs.Quota.FixedWindow
import Turnstile.Proofs.Quota.Resets

/-!
# The reset of a block

A denied request that starts a block is told the end of the block for its reset, and no longer that
of its window.  But the window has counted it, and may not be over when the block ends.  A block that
is at least as long as the window outlasts it: what the window has counted came when the block
started, at the latest.  Under a shorter block a tracker that goes over its quota as soon as a window
opens comes back at the reset and is denied again.

* `Account.Punctual`: the block started with the last request that was counted.
* `Account.allowed_register_within`, `Account.checked_within`: requests within one window.
* `Limiter.ResetsHold`: denied trackers are admitted from their resets on.
* `Limiter.resetsHold_iff_of_block`: under which policies with a block that is so.
-/

set_option autoImplicit false

namespace Turnstile

namespace Account

variable {p : Policy} {a : Account} {now later length : UInt64}

/-! ## A block that a denied request starts -/

theorem tally_of_penalised (hp : p.block = some length)
    (hdenied : (a.register p now).2.allowed = false) :
    a.tally p now = ({ (a.register p now).1 with block := some ⟨satAdd now length⟩ },
      Limiter.penalised (Limiter.windowOutcome p (a.register p now).2) ⟨satAdd now length⟩
        length) := by
  rw [tally_of_denied hdenied]
  simp only [penalise, hp]

/-- A denied request leaves a block that ends at the instant that it is told. -/
theorem block_check_of_denied (hp : p.block = some length)
    (hdenied : (a.check p now).2.allowed = false) :
    (a.check p now).1.block = some ⟨(a.check p now).2.resetAt⟩ ∧
      now ≤ (a.check p now).2.resetAt := by
  cases hb : (a.lift now).block with
  | some b =>
    have hactive : b.active now = true := (Option.mem_filter_iff.mp hb).2
    rw [check_of_block hb]
    exact ⟨hb, UInt64.le_of_lt (of_decide_eq_true hactive)⟩
  | none =>
    rw [check_of_no_block hb] at hdenied ⊢
    rw [allowed_tally] at hdenied
    rw [tally_of_penalised hp hdenied]
    exact ⟨rfl, le_satAdd now length⟩

/-- The block started with the last request that was counted. -/
def Punctual (a : Account) (length : UInt64) : Prop :=
  ∀ b ∈ a.block, ∃ last, b.endsAt = satAdd last length ∧ a.UpTo last

theorem Punctual.check (h : a.Punctual length) (hp : p.block = some length) (hupTo : a.UpTo now) :
    (a.check p now).1.Punctual length := by
  cases hb : (a.lift now).block with
  | some b =>
    rw [check_of_block hb]
    intro b' hb'
    obtain ⟨last, hend, hlast⟩ := h b' (Option.mem_filter_iff.mp hb').1
    exact ⟨last, hend, hlast.start_le, hlast.times_le⟩
  | none =>
    rw [check_of_no_block hb]
    cases hv : ((a.lift now).register p now).2.allowed with
    | true =>
      rw [tally_of_allowed hv, Punctual, block_register, hb]
      exact nofun
    | false =>
      have hcounted := (hupTo.lift now).register p
      rw [tally_of_penalised hp hv]
      intro b hb
      rw [← Option.some.inj hb]
      exact ⟨now, rfl, hcounted.start_le, hcounted.times_le⟩

theorem punctual_checked (hp : p.block = some length) {times : List UInt64}
    (hs : times.Pairwise (· ≤ ·)) : (empty.checked p times).Punctual length := by
  induction times using List.reverseRecOn with
  | nil => exact nofun
  | append_singleton times now ih =>
    rw [checked_append]
    exact (ih (List.pairwise_append.mp hs).1).check hp (upTo_checked hs)

/-! ## Requests within one window -/

/-- The counter of a window after the requests that it has counted. -/
theorem counter_registered_within (halg : p.algorithm = .fixedWindow) (start : UInt64)
    (times : List UInt64) (hend : ∀ s ∈ times, s < p.windowEnd start) :
    (empty.registered p (start :: times)).counter =
      some (⟨start, times⟩ : CountedWindow).counter := by
  induction times using List.reverseRecOn with
  | nil =>
    show (register _ p start).1.counter = _
    rw [register_fixedWindow halg]
    rfl
  | append_singleton times s ih =>
    have hcounter := ih fun u hu => hend u (List.mem_append_left _ hu)
    rw [← List.cons_append, registered_append]
    show (register _ p s).1.counter = _
    rw [register_fixedWindow halg, hcounter,
      next_counter_of_lt (w := ⟨start, times⟩) (hend s (by simp))]
    rfl

/-- A window admits as many of the requests that come before its end as the quota has. -/
theorem allowed_register_within (hw : p.window ≠ 0) {start : UInt64} {times : List UInt64}
    (hs : (start :: times ++ [now]).Pairwise (· ≤ ·)) (hend : now < p.windowEnd start)
    (hfits : times.length + 2 < wordCount) :
    ((empty.registered p (start :: times)).register p now).2.allowed = true ↔
      times.length + 2 ≤ p.maxRequests.toNat := by
  have hle : ∀ s ∈ start :: times ++ [now], s ≤ now := le_getLast hs List.getLast?_concat
  cases halg : p.algorithm with
  | fixedWindow =>
    have hcounter := counter_registered_within halg start times fun s hs' =>
      UInt64.lt_of_le_of_lt (hle s (by simp [hs'])) hend
    have hcount : (CountedWindow.add ⟨start, times⟩ now).counter =
        ⟨wordOfNat (times.length + 2), start⟩ := by
      simp [CountedWindow.counter, CountedWindow.add, CountedWindow.times]
    rw [register_fixedWindow halg, hcounter, next_counter_of_lt (w := ⟨start, times⟩) hend, hcount,
      allowed_verdict (.inr hfits), decide_eq_true_iff]
  | slidingWindow =>
    have hall : inWindow p.window.toNat now.toNat (start :: times ++ [now]) =
        start :: times ++ [now] := by
      refine List.filter_eq_self.mpr fun s hs' => ?_
      have hsn := UInt64.le_iff_toNat_le.mp (hle s hs')
      have hstart : start ≤ s := by
        rcases List.mem_cons.mp hs' with rfl | hs'
        · exact UInt64.le_refl s
        · exact (List.pairwise_cons.mp hs).1 s hs'
      rw [UInt64.le_iff_toNat_le] at hstart
      rw [UInt64.lt_iff_toNat_lt, Policy.windowEnd, toNat_satAdd] at hend
      rw [decide_eq_true_eq]
      omega
    have hlength : (start :: times ++ [now]).length = times.length + 2 := by simp
    rw [allowed_register_registered halg hw hs (by rwa [hall, hlength]), hall, hlength]

/-- An admitted request leaves what the window alone does. -/
theorem checked_concat_of_allowed (times : List UInt64)
    (hsame : empty.checked p times = empty.registered p times)
    (hallowed : ((empty.registered p times).register p now).2.allowed = true) :
    empty.checked p (times ++ [now]) = empty.registered p (times ++ [now]) := by
  have hnone := block_registered empty p times
  have hlift := lift_of_block_none hnone now
  rw [checked_append, registered_append, hsame]
  show (Account.check _ p now).1 = (Account.register _ p now).1
  rw [check_of_no_block (by rw [hlift]; exact hnone), hlift, tally_of_allowed hallowed]

/-- Up to its quota a tracker is not blocked, and all its requests are counted. -/
theorem checked_within (hvalid : p.fault? = none) {start : UInt64} {times : List UInt64}
    (hs : (start :: times).Pairwise (· ≤ ·)) (hend : ∀ s ∈ times, s < p.windowEnd start)
    (hfew : times.length + 1 ≤ p.maxRequests.toNat) :
    empty.checked p (start :: times) = empty.registered p (start :: times) := by
  induction times using List.reverseRecOn with
  | nil =>
    refine checked_concat_of_allowed [] rfl ?_
    refine allowed_register_of_over (Policy.maxRequests_ne_zero hvalid) ?_
    unfold Over
    cases p.algorithm <;> exact nofun
  | append_singleton times s ih =>
    have hsub : (start :: times).Sublist (start :: (times ++ [s])) :=
      (List.sublist_append_left ..).cons_cons start
    rw [List.length_append, List.length_singleton] at hfew
    have hsame := ih (hs.sublist hsub) (fun u hu => hend u (List.mem_append_left _ hu)) (by omega)
    have hmax := toNat_le_max p.maxRequests
    exact checked_concat_of_allowed _ hsame ((allowed_register_within (Policy.window_ne_zero hvalid) hs
      (hend s (by simp)) (by omega)).mpr hfew)

/-! ## A quota that is used up at once -/

theorem pairwise_replicate_concat (n : Nat) (now : UInt64) :
    (List.replicate n (0 : UInt64) ++ [now]).Pairwise (· ≤ ·) := by
  rw [List.pairwise_append, List.pairwise_replicate]
  refine ⟨.inr (UInt64.le_refl 0), List.pairwise_singleton .., fun s hs u _ => ?_⟩
  rw [List.eq_of_mem_replicate hs]
  exact UInt64.zero_le

/-- Under a block that is shorter than the window, a tracker that has used up its quota with the
first instant is denied at that instant, and again when it comes back at the end of the block. -/
theorem denied_at_end (hvalid : p.fault? = none) (hp : p.block = some length)
    (hlt : length < p.window) (hquota : p.maxRequests.toNat + 2 < wordCount) :
    let a := empty.checked p (List.replicate p.maxRequests.toNat 0)
    (a.check p 0).2.allowed = false ∧ (a.check p 0).2.resetAt = length ∧
      ((a.check p 0).1.check p length).2.allowed = false := by
  have hw := Policy.window_ne_zero hvalid
  have hfrom : ∀ span, satAdd 0 span = span := fun span => satAdd_of_toNat_eq (Nat.zero_add _).symm
  have hlength : length < p.windowEnd 0 := by rwa [Policy.windowEnd, hfrom]
  have hzero : 0 < p.windowEnd 0 := UInt64.lt_of_le_of_lt UInt64.zero_le hlength
  obtain ⟨k, hk⟩ := Nat.exists_eq_succ_of_ne_zero fun e =>
    Policy.maxRequests_ne_zero hvalid (UInt64.toNat.inj e)
  rw [hk] at hquota ⊢
  intro a
  have ha : a = empty.registered p (0 :: List.replicate k 0) := by
    refine checked_within hvalid ?_ (fun s hs => ?_) ?_
    · exact (pairwise_replicate_concat (k + 1) 0).sublist (List.sublist_append_left ..)
    · rwa [List.eq_of_mem_replicate hs]
    · rw [List.length_replicate, hk]
  have hnone : a.block = none := ha ▸ block_registered ..
  have hlift := lift_of_block_none hnone 0
  have hdenied : (a.register p 0).2.allowed = false := by
    rw [ha, ← Bool.not_eq_true, allowed_register_within hw (pairwise_replicate_concat (k + 1) 0) hzero
      (by rw [List.length_replicate]; omega), List.length_replicate]
    omega
  have hcheck := tally_of_penalised hp hdenied
  rw [hfrom] at hcheck
  rw [check_of_no_block (by rw [hlift, hnone]), hlift, hcheck]
  refine ⟨hdenied, rfl, ?_⟩
  have hcounted : (a.register p 0).1 = empty.registered p (0 :: List.replicate (k + 1) 0) := by
    rw [ha, List.replicate_succ', ← List.cons_append, registered_append]
    rfl
  rw [allowed_check_of_ended, register_block, hcounted, ← Bool.not_eq_true,
    allowed_register_within hw (pairwise_replicate_concat (k + 2) length) hlength
      (by rw [List.length_replicate]; omega), List.length_replicate]
  · omega
  · intro b hb
    rw [← Option.some.inj hb]
    exact UInt64.le_refl _

end Account

/-- **Denied trackers are admitted from their resets on**: on an empty store, whenever the limiter
denies a request of a tracker under a policy, whatever came before. -/
def Limiter.ResetsHold (l : Limiter) (t : Tracker) (p : Policy) : Prop :=
  ∀ (start now : UInt64) (before : List Visit), Visit.Before t p before now →
    let denied := (l.checkAt t p now).on (l.left before (.start start (.empty none)))
    denied.1.allowed = false → l.AdmitsFrom t p denied.2 denied.1.resetAt

namespace Limiter

variable {p : Policy} {length : UInt64}

/-- A block that is at least as long as the window outlasts it. -/
theorem resetsHold_of_le (l : Limiter) (t : Tracker) (hvalid : p.fault? = none)
    (hp : p.block = some length) (hle : p.window ≤ length) : l.ResetsHold t p := by
  intro start now before hbefore denied hdenied
  have hw := Policy.window_ne_zero hvalid
  obtain ⟨env, hcheck, hk, hready⟩ := Account.exists_kept_of_before hw hbefore l start
  have hresult : denied = _ := hcheck
  rw [hresult] at hdenied ⊢
  obtain ⟨hblock, hnow⟩ := Account.block_check_of_denied hp hdenied
  have hpunctual := (Account.punctual_checked hp (List.pairwise_append.mp hbefore.sorted).1).check hp
    (Account.upTo_checked hbefore.sorted)
  obtain ⟨last, hreset, hlast⟩ := hpunctual _ hblock
  refine hk.admitsFrom_of_over hvalid (fun b hb => ?_) fun later hlater hmax => ⟨?_, ?_⟩
  · rw [hblock] at hb
    rw [← Option.some.inj hb]
    exact UInt64.le_refl _
  · have hend : p.windowEnd last ≤ satAdd last length := satAdd_le_satAdd last hle
    rw [← hreset] at hend
    exact hlast.over (UInt64.le_trans hend hlater) hmax
  · exact hready later (UInt64.le_trans hnow hlater) hmax

/-- Under a block that is shorter than the window a tracker comes back too early that goes over its
quota with the first instant of a window. -/
theorem not_resetsHold_of_lt (l : Limiter) (t : Tracker) (hvalid : p.fault? = none)
    (hp : p.block = some length) (hlt : length < p.window)
    (hquota : p.maxRequests.toNat + 2 < wordCount) : ¬ l.ResetsHold t p := by
  intro hresets
  have hw := Policy.window_ne_zero hvalid
  have htimes := Visit.timesOf_map t p (List.replicate p.maxRequests.toNat 0)
  have hbefore : Visit.Before t p
      ((List.replicate p.maxRequests.toNat 0).map fun now => ⟨now, t, p⟩) 0 := by
    refine ⟨by simp [Visit.Of], ?_, by decide, fun _ instant => ?_⟩ <;> rw [htimes]
    · exact Account.pairwise_replicate_concat ..
    · have hle := (inWindow_sublist p.window.toNat instant
        (List.replicate p.maxRequests.toNat 0 ++ [0])).length_le
      rw [List.length_append, List.length_replicate, List.length_singleton] at hle
      omega
  obtain ⟨env, hcheck, hk, hready⟩ := Account.exists_kept_of_before hw hbefore l 0
  obtain ⟨hdenied, hreset, hagain⟩ := Account.denied_at_end hvalid hp hlt hquota
  rw [htimes] at hcheck hk hready
  have hadmits := hresets 0 0 _ hbefore
  rw [hcheck] at hadmits
  have hmax := UInt64.lt_of_lt_of_le hlt (le_maxWord p.window)
  have hallowed := hadmits hdenied [] length (List.forall_mem_nil _)
    (hreset ▸ UInt64.le_refl _) hmax
  rw [hk.checkAt_left hw (hready length UInt64.zero_le hmax) (List.forall_mem_nil _), hagain]
    at hallowed
  exact Bool.false_ne_true hallowed

/-- **The reset of a block is one if the block outlasts the window.**  Let a policy be valid and have
a block.  If the block is at least as long as the window, then a tracker that is denied under the
policy, whatever came before, by its window or by a block, is admitted from the reset on that it is
told.  If the block is shorter, then that is not so: there are requests after which a tracker is told
a reset and denied at it.  For that a word must have room for two requests more than the quota. -/
theorem resetsHold_iff_of_block (l : Limiter) (t : Tracker) (p : Policy) (length : UInt64)
    (hvalid : p.fault? = none) (hp : p.block = some length) :
    (p.window ≤ length → l.ResetsHold t p) ∧
    (p.maxRequests.toNat + 2 < wordCount → l.ResetsHold t p → p.window ≤ length) := by
  refine ⟨l.resetsHold_of_le t hvalid hp, fun hquota hresets => UInt64.not_lt.mp fun hlt => ?_⟩
  exact l.not_resetsHold_of_lt t hvalid hp hlt hquota hresets

/-- A block of five seconds outlasts a window of one, and one of a second does not outlast ten. -/
theorem resetsHold_onePerWindow :
    standard.ResetsHold (.user "alice") (onePerWindow 1000 5000) ∧
      ¬ standard.ResetsHold (.user "alice") (onePerWindow 10000 1000) := by
  refine ⟨(resetsHold_iff_of_block standard (.user "alice") (onePerWindow 1000 5000) 5000
    (by decide +kernel) rfl).1 (by decide), fun hresets => ?_⟩
  have hle := (resetsHold_iff_of_block standard (.user "alice") (onePerWindow 10000 1000) 1000
    (by decide +kernel) rfl).2 (by decide) hresets
  exact absurd hle (by decide)

/-- A tracker that is denied early in a window and comes back at its reset is denied again. -/
theorem denied_at_reset :
    (onePerWindow 10000 1000).fault? = none ∧
    ((standard.checks (.user "alice") (onePerWindow 10000 1000) [0, 100, 1100]).on
      (.start 0 (.empty none))).1.map (fun o => (o.allowed, o.resetAt)) =
        [(true, 10000), (false, 1100), (false, 2100)] :=
  ⟨by decide +kernel, by decide +kernel⟩

end Limiter

end Turnstile
