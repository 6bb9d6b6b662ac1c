import Turnstile.Proofs.Quota.Run
import Turnstile.Proofs.Touches

/-!
# Requests of many trackers

Trackers make their requests under various policies in between one another.  A request that has its
records elsewhere leaves what the limiter remembers of a tracker under a policy alone.  So that is
what the tracker's own requests under the policy have left, whoever else came.

* `Visit`: a request of some tracker under some policy.
* `Account.checked`: the account after requests.
* `Account.Kept.left`, `Account.Kept.checkAt_left`: what the store has of a tracker under a policy
  after any visits, and what the tracker is told then.
* `Limiter.AdmitsFrom`: from when on a tracker is admitted.
-/

set_option autoImplicit false

namespace Turnstile

/-- A request of a tracker under a policy, at an instant. -/
structure Visit where
  now : UInt64
  tracker : Tracker
  policy : Policy
  deriving DecidableEq, Repr

namespace Visit

/-- The visit is one of a tracker under a policy. -/
def Of (t : Tracker) (p : Policy) (v : Visit) : Prop := v.tracker = t ∧ v.policy = p

instance (t : Tracker) (p : Policy) (v : Visit) : Decidable (v.Of t p) :=
  inferInstanceAs (Decidable (_ ∧ _))

/-- The visit is counted elsewhere than those of a tracker under a policy. -/
def Apart (t : Tracker) (p : Policy) (v : Visit) : Prop :=
  Limiter.windowName v.tracker v.policy ≠ Limiter.windowName t p

instance (t : Tracker) (p : Policy) (v : Visit) : Decidable (v.Apart t p) :=
  inferInstanceAs (Decidable (_ ≠ _))

/-- The instants of those visits that are of a tracker under a policy. -/
def timesOf (t : Tracker) (p : Policy) (visits : List Visit) : List UInt64 :=
  (visits.filter fun v => v.Of t p).map now

variable {t : Tracker} {p : Policy} {v : Visit}

theorem Apart.not_of (h : v.Apart t p) : ¬ v.Of t p := by
  rintro ⟨rfl, rfl⟩
  exact h rfl

theorem timesOf_cons_of (h : v.Of t p) (visits : List Visit) :
    timesOf t p (v :: visits) = v.now :: timesOf t p visits := by
  simp [timesOf, h]

theorem timesOf_cons_apart (h : v.Apart t p) (visits : List Visit) :
    timesOf t p (v :: visits) = timesOf t p visits := by
  simp [timesOf, h.not_of]

theorem timesOf_map (t : Tracker) (p : Policy) (times : List UInt64) :
    timesOf t p (times.map fun now => ⟨now, t, p⟩) = times := by
  induction times with
  | nil => rfl
  | cons now times ih => exact (timesOf_cons_of ⟨rfl, rfl⟩ _).trans (congrArg (now :: ·) ih)

theorem timesOf_apart {visits : List Visit} (h : ∀ v ∈ visits, v.Apart t p) :
    timesOf t p visits = [] := by
  simpa [timesOf] using fun v hv => (h v hv).not_of

end Visit

/-- What visits leave, one after the other. -/
def Limiter.left (l : Limiter) (visits : List Visit) (env : Env) : Env :=
  visits.foldl (fun env v => ((l.checkAt v.tracker v.policy v.now).on env).2) env

namespace Account

/-- The account after requests at given instants. -/
def checked (a : Account) (p : Policy) (times : List UInt64) : Account :=
  times.foldl (fun a now => (a.check p now).1) a

variable {l : Limiter} {t : Tracker} {p : Policy} {a : Account} {env env' : Env}

theorem checked_append (a : Account) (p : Policy) (xs ys : List UInt64) :
    a.checked p (xs ++ ys) = (a.checked p xs).checked p ys :=
  List.foldl_append

theorem block_registered (a : Account) (p : Policy) (times : List UInt64) :
    (a.registered p times).block = a.block := by
  induction times generalizing a with
  | nil => rfl
  | cons now times ih => exact (ih (a.register p now).1).trans (block_register a p now)

theorem checked_of_no_block (hp : p.block = none) (ha : a.block = none) (times : List UInt64) :
    a.checked p times = a.registered p times := by
  induction times generalizing a with
  | nil => rfl
  | cons now times ih =>
    show (a.check p now).1.checked p times = (a.register p now).1.registered p times
    rw [check_of_no_block_policy hp ha]
    exact ih ((block_register a p now).trans ha)

/-- What is ready for a run is ready for the rest of it. -/
theorem Ready.checked (hw : p.window ≠ 0) {past times : List UInt64}
    (h : Ready a p (past ++ times)) : Ready (a.checked p past) p times := by
  induction past generalizing a with
  | nil => exact h
  | cons now past ih => exact ih (h.check hw)

/-- A run may end with a request at a later instant. -/
theorem ready_append_later {logged : List UInt64} {instant : UInt64} (hs : logged.Pairwise (· ≤ ·))
    (hle : ∀ s ∈ logged, s ≤ instant) (hmax : instant < maxWord)
    (hfits : p.algorithm = .slidingWindow →
      ∀ now, (inWindow p.window.toNat now logged).length + 1 < wordCount) :
    Ready empty p (logged ++ [instant]) where
  sorted := by
    show (logged ++ [instant]).Pairwise (· ≤ ·)
    refine List.pairwise_append.mpr ⟨hs, List.pairwise_singleton _ _, fun s hmem u hu => ?_⟩
    rw [List.mem_singleton.mp hu]
    exact hle s hmem
  lt_max s hmem := by
    rcases List.mem_append.mp hmem with hmem | hmem
    · exact UInt64.lt_of_le_of_lt (hle s hmem) hmax
    · rwa [List.mem_singleton.mp hmem]
  length_lt := Nat.zero_lt_succ _
  fits halg now := by
    have hlast := (inWindow_sublist p.window.toNat now [instant]).length_le
    have hlogged := hfits halg now
    rw [List.length_singleton] at hlast
    show (inWindow p.window.toNat now (logged ++ [instant])).length < wordCount
    rw [inWindow_append, List.length_append]
    omega

/-! ## One visit -/

/-- Requests that are counted elsewhere are blocked elsewhere. -/
theorem blockName_ne {s : Tracker} {q : Policy}
    (h : Limiter.windowName s q ≠ Limiter.windowName t p) :
    Limiter.blockName s q ≠ Limiter.blockName t p := by
  intro hblock
  apply h
  simpa [Limiter.windowName, Limiter.blockName, String.ext_iff] using hblock

theorem windowName_ne_blockName (s t : Tracker) (q p : Policy) :
    Limiter.windowName s q ≠ Limiter.blockName t p := by
  intro h
  simp [Limiter.windowName, Limiter.blockName, String.ext_iff] at h

/-- A visit that is counted elsewhere leaves the records of a tracker under a policy alone. -/
theorem exists_frame_of_apart (l : Limiter) (env : Env) {v : Visit} (hv : v.Apart t p) :
    ∃ K : String → Prop, ¬ K (l.shelf.key (Limiter.windowName t p)) ∧
      ¬ K (l.shelf.key (Limiter.blockName t p)) ∧
      Env.Frame K (env.setClock v.now) ((l.checkAt v.tracker v.policy v.now).on env).2 := by
  have htouches : (l.check v.tracker v.policy).Touches fun key =>
      key = l.shelf.key (Limiter.windowName v.tracker v.policy) ∨
        key = l.shelf.key (Limiter.blockName v.tracker v.policy) :=
    (Limiter.uses_check (C := fun _ => False) (.inl rfl) (.inr rfl)).touches
  refine ⟨_, ?_, ?_, htouches (env.setClock v.now)⟩
  · rintro (he | he)
    · exact hv (Shelf.key_inj he).symm
    · exact windowName_ne_blockName _ _ _ _ (Shelf.key_inj he)
  · rintro (he | he)
    · exact windowName_ne_blockName _ _ _ _ (Shelf.key_inj he).symm
    · exact blockName_ne hv (Shelf.key_inj he).symm

/-- A visit that is counted elsewhere leaves an account alone. -/
theorem Kept.apart (hk : Kept l t p a env) {v : Visit} (hv : v.Apart t p) :
    Kept l t p a ((l.checkAt v.tracker v.policy v.now).on env).2 := by
  obtain ⟨K, hwindow, hblock, hf⟩ := exists_frame_of_apart l env hv
  exact ⟨(hk.healthy.setClock v.now).of_frame hf, (hf.slot_eq _ hwindow).trans hk.window_eq,
    (hf.slot_eq _ hblock).trans hk.block_eq, hk.block_none⟩

/-! ## A run -/

/-- **What the limiter remembers of a tracker under a policy** after any visits is what the tracker's
own requests under the policy leave, if all others are counted elsewhere. -/
theorem Kept.left (hw : p.window ≠ 0) {visits : List Visit} (hk : Kept l t p a env)
    (hr : Ready a p (Visit.timesOf t p visits))
    (hvisits : ∀ v ∈ visits, v.Of t p ∨ v.Apart t p) :
    Kept l t p (a.checked p (Visit.timesOf t p visits)) (l.left visits env) := by
  induction visits generalizing a env with
  | nil => exact hk
  | cons v visits ih =>
    have hrest := fun u hu => hvisits u (List.mem_cons_of_mem v hu)
    rcases hvisits v List.mem_cons_self with hof | hapart
    · rw [Visit.timesOf_cons_of hof] at hr ⊢
      obtain ⟨env', hcheck, hk'⟩ := hk.checkAt hr
      have hleft : l.left (v :: visits) env = l.left visits env' := by
        obtain ⟨rfl, rfl⟩ := hof
        show l.left visits ((l.checkAt v.tracker v.policy v.now).on env).2 = _
        rw [hcheck]
      rw [hleft]
      exact ih hk' (hr.check hw) hrest
    · rw [Visit.timesOf_cons_apart hapart] at hr ⊢
      exact ih (hk.apart hapart) hr hrest

/-- A request that comes after visits of others is one on the account. -/
theorem Kept.checkAt_left (hw : p.window ≠ 0) {between : List Visit} {later : UInt64}
    (hk : Kept l t p a env) (hr : Ready a p [later]) (hbetween : ∀ v ∈ between, v.Apart t p) :
    ((l.checkAt t p later).on (l.left between env)).1 = (a.check p later).2 := by
  have hleft : Kept l t p (a.checked p (Visit.timesOf t p between)) (l.left between env) := by
    refine hk.left hw ?_ fun v hv => .inr (hbetween v hv)
    rw [Visit.timesOf_apart hbetween]
    exact hr.sublist (List.nil_sublist _)
  rw [Visit.timesOf_apart hbetween] at hleft
  obtain ⟨_, hcheck, _⟩ := hleft.checkAt hr
  exact congrArg Prod.fst hcheck

/-- **A request after any visits** is one on the account that the tracker's own ones have left. -/
theorem checkAt_left_of_ready (hw : p.window ≠ 0) (l : Limiter) (start : UInt64)
    {before : List Visit} {now : UInt64} (hr : Ready empty p (Visit.timesOf t p before ++ [now]))
    (hbefore : ∀ v ∈ before, v.Of t p ∨ v.Apart t p) :
    let a := empty.checked p (Visit.timesOf t p before)
    ∃ env, (l.checkAt t p now).on (l.left before (.start start (.empty none))) =
        ((a.check p now).2, env) ∧ Kept l t p (a.check p now).1 env := by
  intro a
  have hkept := (kept_start l t p start).left hw (hr.sublist (List.sublist_append_left ..)) hbefore
  exact hkept.checkAt (hr.checked hw)

/-- Without blocks a request after any visits is registered after the tracker's own ones. -/
theorem checkAt_left_of_no_block (hw : p.window ≠ 0) (hblock : p.block = none) (start : UInt64)
    {before : List Visit} {now : UInt64} (hr : Ready empty p (Visit.timesOf t p before ++ [now]))
    (hbefore : ∀ v ∈ before, v.Of t p ∨ v.Apart t p) :
    ∃ env, (l.checkAt t p now).on (l.left before (.start start (.empty none))) =
        (Limiter.windowOutcome p
          ((empty.registered p (Visit.timesOf t p before)).register p now).2, env) ∧
      Kept l t p (empty.registered p (Visit.timesOf t p before ++ [now])) env := by
  obtain ⟨env, hcheck, hk⟩ := checkAt_left_of_ready hw l start hr hbefore
  rw [checked_of_no_block hblock rfl,
    check_of_no_block_policy hblock (block_registered _ p _)] at hcheck hk
  refine ⟨env, hcheck, ?_⟩
  rwa [registered_append]

end Account

/-- From an instant on the next request of a tracker under a policy is admitted, whoever else came
before it. -/
def Limiter.AdmitsFrom (l : Limiter) (t : Tracker) (p : Policy) (env : Env) (instant : UInt64) :
    Prop :=
  ∀ (between : List Visit) (later : UInt64), (∀ v ∈ between, v.Apart t p) →
    instant ≤ later → later < maxWord →
    ((l.checkAt t p later).on (l.left between env)).1.allowed = true

end Turnstile
