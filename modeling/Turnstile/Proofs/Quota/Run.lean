import Turnstile.Proofs.Quota.Account

/-!
# Runs of requests

A run is a list of instants that do not fall, with a request at each of them.  The limiter answers
a run as the account does, provided that the store can hold the log at every instant of it.

While a block lasts its requests leave the window alone.  So a block does nothing but take requests
out of the run that the window counts, and what is admitted of a run is what the window alone admits
of a part of it.

* `Limiter.checks`: the answers of the limiter to a run.
* `Limiter.checks_start`: they are the answers of the account.
* `Account.checks_of_no_block`: without blocks they are the verdicts of the window.
* `Account.exists_counted`: with blocks the window has counted a part of the run.
-/

set_option autoImplicit false

namespace Turnstile

/-- A request at an instant. -/
def Limiter.checkAt (l : Limiter) (t : Tracker) (p : Policy) (now : UInt64) : GateM Outcome := do
  modify fun env => env.setClock now
  l.check t p

/-- Requests at given instants. -/
def Limiter.checks (l : Limiter) (t : Tracker) (p : Policy) : List UInt64 → GateM (List Outcome)
  | [] => pure []
  | now :: times => do
    let o ← l.checkAt t p now
    let rest ← l.checks t p times
    pure (o :: rest)

/-- Those of some instants whose request was admitted. -/
def admitted (times : List UInt64) (allowed : List Bool) : List UInt64 :=
  ((times.zip allowed).filter Prod.snd).map Prod.fst

theorem admitted_append {xs ys : List UInt64} {fs gs : List Bool} (h : xs.length = fs.length) :
    admitted (xs ++ ys) (fs ++ gs) = admitted xs fs ++ admitted ys gs := by
  simp [admitted, List.zip_append h]

theorem admitted_sublist (times : List UInt64) (flags : List Bool) :
    (admitted times flags).Sublist times := by
  induction times generalizing flags with
  | nil => exact .refl []
  | cons s times ih =>
    cases flags with
    | nil => exact List.nil_sublist _
    | cons flag flags =>
      cases flag with
      | true => exact (ih flags).cons_cons s
      | false => exact (ih flags).cons s

namespace Account

/-- The answers to requests at given instants. -/
def checks (a : Account) (p : Policy) : List UInt64 → List Outcome
  | [] => []
  | now :: times => (a.check p now).2 :: (a.check p now).1.checks p times

/-- What the window says about requests that it all counts. -/
def verdicts (a : Account) (p : Policy) : List UInt64 → List Verdict
  | [] => []
  | now :: times => (a.register p now).2 :: (a.register p now).1.verdicts p times

/-- The account after requests that its window all counts. -/
def registered (a : Account) (p : Policy) (times : List UInt64) : Account :=
  times.foldl (fun a now => (a.register p now).1) a

variable {l : Limiter} {t : Tracker} {p : Policy} {a : Account} {env : Env}

/-! ## The limiter -/

/-- A run after which nothing is lost: the instants do not fall, the clock stays below the largest
word, and no window is too full for a log that the store can hold. -/
structure Ready (a : Account) (p : Policy) (times : List UInt64) : Prop where
  sorted : (a.log.times ++ times).Pairwise (· ≤ ·)
  lt_max : ∀ s ∈ times, s < maxWord
  length_lt : a.log.times.length < wordCount
  fits : p.algorithm = .slidingWindow →
    ∀ now, (inWindow p.window.toNat now (a.log.times ++ times)).length < wordCount

theorem Ready.orderly {now : UInt64} {times : List UInt64} (h : Ready a p (now :: times)) :
    a.Orderly now where
  sorted := (List.pairwise_append.mp h.sorted).1
  le_now s hs := (List.pairwise_append.mp h.sorted).2.2 s hs now List.mem_cons_self
  length_lt := h.length_lt

/-- What is ready for a run is ready for a part of it. -/
theorem Ready.sublist {times times' : List UInt64} (h : Ready a p times)
    (hsub : times'.Sublist times) : Ready a p times' where
  sorted := h.sorted.sublist (hsub.append_left a.log.times)
  lt_max s hs := h.lt_max s (hsub.subset hs)
  length_lt := h.length_lt
  fits halg now :=
    Nat.lt_of_le_of_lt (length_inWindow_le _ now (hsub.append_left a.log.times)) (h.fits halg now)

/-- A block is all that the answer to a denied request changes. -/
theorem exists_block_tally (a : Account) (p : Policy) (now : UInt64) :
    ∃ block, (a.tally p now).1 = { (a.register p now).1 with block } := by
  cases h : (a.register p now).2.allowed with
  | true =>
    rw [tally_of_allowed h]
    exact ⟨_, rfl⟩
  | false =>
    rw [tally_of_denied h]
    unfold penalise
    cases p.block with
    | none => exact ⟨_, rfl⟩
    | some length => exact ⟨_, rfl⟩

theorem log_check (a : Account) (p : Policy) (now : UInt64) :
    (a.check p now).1.log = a.log ∨
      p.algorithm = .slidingWindow ∧ (a.check p now).1.log = a.log.next p now := by
  cases hb : (a.lift now).block with
  | some b =>
    rw [check_of_block hb]
    exact .inl rfl
  | none =>
    obtain ⟨block, ht⟩ := exists_block_tally (a.lift now) p now
    rw [check_of_no_block hb, ht]
    unfold register
    cases p.algorithm with
    | fixedWindow => exact .inl rfl
    | slidingWindow => exact .inr ⟨rfl, rfl⟩

theorem Ready.check {now : UInt64} {times : List UInt64} (h : Ready a p (now :: times))
    (hw : p.window ≠ 0) : Ready (a.check p now).1 p times := by
  have ho := h.orderly
  have hlog : ((a.check p now).1.log.times ++ times).Sublist (a.log.times ++ now :: times) ∧
      (a.check p now).1.log.times.length < wordCount := by
    rcases log_check a p now with hlog | ⟨halg, hlog⟩
    · rw [hlog]
      exact ⟨(List.sublist_cons_self now times).append_left a.log.times, h.length_lt⟩
    · have happ : a.log.times ++ now :: times = a.log.times ++ [now] ++ times := List.append_cons ..
      have hfits := h.fits halg now.toNat
      rw [happ, inWindow_append, List.length_append] at hfits
      rw [hlog, SlidingLog.times_next ho.sorted ho.le_now hw, happ]
      exact ⟨(inWindow_sublist ..).append_right times, by omega⟩
  refine ⟨h.sorted.sublist hlog.1, ?_, hlog.2, ?_⟩
  · exact fun s hs => h.lt_max s (List.mem_cons_of_mem now hs)
  · exact fun halg later => Nat.lt_of_le_of_lt (length_inWindow_le _ later hlog.1) (h.fits halg later)

/-- A request at an instant is one on the account. -/
theorem Kept.checkAt (hk : Kept l t p a env) {now : UInt64} {times : List UInt64}
    (hr : Ready a p (now :: times)) :
    ∃ env', (l.checkAt t p now).on env = ((a.check p now).2, env') ∧
      Kept l t p (a.check p now).1 env' := by
  obtain ⟨env', hcheck, hk', _⟩ :=
    check_of_kept (hk.setClock now) hr.orderly (hr.lt_max now List.mem_cons_self)
  exact ⟨env', hcheck, hk'⟩

theorem checks_of_kept {times : List UInt64} (hw : p.window ≠ 0) (hk : Kept l t p a env)
    (hr : Ready a p times) : ((l.checks t p times).on env).1 = a.checks p times := by
  induction times generalizing a env with
  | nil => rfl
  | cons now times ih =>
    obtain ⟨env', hcheck, hk'⟩ := hk.checkAt hr
    simp only [Limiter.checks, GateM.on_bind, hcheck, GateM.on_pure, checks]
    rw [ih hk' (hr.check hw)]

/-! ## The window -/

theorem registered_append (a : Account) (p : Policy) (xs ys : List UInt64) :
    a.registered p (xs ++ ys) = (a.registered p xs).registered p ys :=
  List.foldl_append

theorem verdicts_append (a : Account) (p : Policy) (xs ys : List UInt64) :
    a.verdicts p (xs ++ ys) = a.verdicts p xs ++ (a.registered p xs).verdicts p ys := by
  induction xs generalizing a with
  | nil => rfl
  | cons now xs ih => exact congrArg ((a.register p now).2 :: ·) (ih (a.register p now).1)

theorem length_verdicts (a : Account) (p : Policy) (times : List UInt64) :
    (a.verdicts p times).length = times.length := by
  induction times generalizing a with
  | nil => rfl
  | cons now times ih => exact congrArg Nat.succ (ih (a.register p now).1)

theorem lift_of_block_none (ha : a.block = none) (now : UInt64) : a.lift now = a := by
  unfold lift
  rw [ha, Option.filter_none, ← ha]

/-- Without blocks a request is registered, and its answer is the verdict of the window. -/
theorem check_of_no_block_policy (hp : p.block = none) (ha : a.block = none) (now : UInt64) :
    a.check p now = ((a.register p now).1, Limiter.windowOutcome p (a.register p now).2) := by
  have hlift := lift_of_block_none ha now
  rw [check_of_no_block (by rw [hlift, ha]), hlift]
  unfold tally penalise
  simp [hp]

theorem checks_of_no_block {times : List UInt64} (hp : p.block = none) (ha : a.block = none) :
    a.checks p times = (a.verdicts p times).map (Limiter.windowOutcome p) := by
  induction times generalizing a with
  | nil => rfl
  | cons now times ih =>
    simp only [checks, verdicts, List.map_cons, check_of_no_block_policy hp ha]
    rw [ih ((block_register a p now).trans ha)]

theorem register_block (a : Account) (p : Policy) (block : Option Block) (now : UInt64) :
    ({ a with block } : Account).register p now =
      ({ (a.register p now).1 with block }, (a.register p now).2) := by
  unfold register
  cases p.algorithm <;> rfl

theorem verdicts_block (a : Account) (p : Policy) (block : Option Block) (times : List UInt64) :
    ({ a with block } : Account).verdicts p times = a.verdicts p times := by
  induction times generalizing a with
  | nil => rfl
  | cons now times ih =>
    unfold verdicts
    rw [register_block, ih]

theorem allowed_tally (a : Account) (p : Policy) (now : UInt64) :
    (a.tally p now).2.allowed = (a.register p now).2.allowed := by
  cases h : (a.register p now).2.allowed with
  | true =>
    rw [tally_of_allowed h]
    exact h
  | false =>
    rw [tally_of_denied h]
    unfold penalise
    cases p.block with
    | none => exact h
    | some length => exact h

theorem verdicts_tally (a : Account) (p : Policy) (now : UInt64) (times : List UInt64) :
    (a.tally p now).1.verdicts p times = (a.register p now).1.verdicts p times := by
  obtain ⟨block, ht⟩ := exists_block_tally a p now
  rw [ht, verdicts_block]

/-- **A block takes requests out of the run that the window counts**, and does nothing else. -/
theorem exists_counted (a : Account) (p : Policy) (times : List UInt64) :
    ∃ counted : List UInt64, counted.Sublist times ∧
      admitted times ((a.checks p times).map Outcome.allowed) =
        admitted counted ((a.verdicts p counted).map Verdict.allowed) := by
  induction times generalizing a with
  | nil => exact ⟨[], .refl [], rfl⟩
  | cons now times ih =>
    have hlift : ∀ times, (a.lift now).verdicts p times = a.verdicts p times :=
      verdicts_block a p _
    cases hb : (a.lift now).block with
    | some b =>
      obtain ⟨counted, hsub, hadm⟩ := ih (a.lift now)
      refine ⟨counted, hsub.cons now, ?_⟩
      simp only [checks, check_of_block hb, List.map_cons, Limiter.blockedOutcome]
      rw [← hlift, ← hadm]
      rfl
    | none =>
      obtain ⟨counted, hsub, hadm⟩ := ih ((a.lift now).tally p now).1
      refine ⟨now :: counted, hsub.cons_cons now, ?_⟩
      rw [verdicts_tally] at hadm
      rw [← hlift]
      simp only [checks, verdicts, check_of_no_block hb, List.map_cons, allowed_tally]
      cases ((a.lift now).register p now).2.allowed with
      | true => exact congrArg (now :: ·) hadm
      | false => exact hadm

end Account

/-- The answers of a limiter that starts without entries are those of an account. -/
theorem Limiter.checks_start (l : Limiter) (t : Tracker) {p : Policy} {times : List UInt64}
    (now : UInt64) (hw : p.window ≠ 0) (hr : Account.empty.Ready p times) :
    ((l.checks t p times).on (.start now (.empty none))).1 = Account.empty.checks p times :=
  Account.checks_of_kept hw (Account.kept_start l t p now) hr

end Turnstile
