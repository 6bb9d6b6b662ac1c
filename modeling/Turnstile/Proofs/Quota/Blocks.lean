import Turnstile.Proofs.Quota.Visits

/-!
# Blocks

Under a policy with a block a request that its window denies starts one.  Until the block ends it
denies every request, and neither the window nor the block itself learns of them: what is denied by a
block does not count, and does not make the block longer.  The block and the entry that holds it end
at one instant, and from then on the window decides again, on what the denied request had left.

* `Outcome.Blocked`: what a request is told that a block denies.
* `Limiter.Blocking`: the store has a block, and what it has of the window.
* `Limiter.Blocking.checkAt_of_lt`, `Limiter.Blocking.checkAt_of_le`: a request before the end of the
  block, and one after it.
* `Limiter.Blocking.left`: any requests before the end of the block.
* `Limiter.blocked_until`: all of it for a request that starts a block.
-/

set_option autoImplicit false

namespace Turnstile

/-- A request is told that a block denies it, and when and after how many seconds that ends. -/
structure Outcome.Blocked (endsAt now : UInt64) (o : Outcome) : Prop where
  denied : o.allowed = false
  blocked : o.blocked = true
  remaining_eq : o.remaining = 0
  resetAt_eq : o.resetAt = endsAt
  retryAfter_eq : ∃ secs, o.retryAfter = some secs ∧
    secs.toNat = max 1 ((endsAt.toNat - now.toNat + 999) / 1000)

namespace Limiter

variable {l : Limiter} {t : Tracker} {p : Policy} {env : Env} {endsAt now : UInt64}

theorem blocked_blockedOutcome (p : Policy) (endsAt now : UInt64) :
    (blockedOutcome p ⟨endsAt⟩ now).Blocked endsAt now where
  denied := rfl
  blocked := rfl
  remaining_eq := rfl
  resetAt_eq := rfl
  retryAfter_eq := ⟨_, rfl, by rw [toNat_ceilSecs, toNat_satSub]⟩

/-- A request that its window denies is told of the block that it starts. -/
theorem blocked_judged {length : UInt64} {window : Option Entry} (hp : p.block = some length)
    (hend : endsAt.toNat = now.toNat + length.toNat)
    (hdenied : (judged p now window).allowed = false) :
    (verdictIn p now window).allowed = false ∧ (judged p now window).Blocked endsAt now := by
  obtain ⟨n, wait, hcounts⟩ := verdictIn_counts p now window
  unfold judged at hdenied ⊢
  cases hv : (verdictIn p now window).allowed with
  | true => simp [hv, windowOutcome] at hdenied
  | false =>
    refine ⟨rfl, ?_⟩
    simp only [hv, Bool.false_eq_true, ↓reduceIte, penalty, hp, satAdd_of_toNat_eq hend]
    refine ⟨hv, rfl, hcounts.remaining_eq_zero hv, rfl, _, rfl, ?_⟩
    rw [toNat_ceilSecs, hend, Nat.add_sub_cancel_left]

/-! ## The block in the store -/

theorem blockIn_blockEntry {length : UInt64} (hp : p.block = some length) (endsAt now : UInt64) :
    blockIn p now (some (blockEntry endsAt)) = if now < endsAt then some ⟨endsAt⟩ else none := by
  simp only [blockIn, hp, blockEntry]
  rw [recordIn_written (Account.exact_block ⟨endsAt⟩)]
  by_cases h : now < endsAt <;> simp [h, Block.active, Option.filter_some]

theorem blockRead_blockEntry (p : Policy) (h : now < endsAt) :
    blockRead p now (some (blockEntry endsAt)) = some (blockEntry endsAt) := by
  unfold blockRead blockEntry
  cases p.block with
  | none => rfl
  | some length => exact (readable_written (Account.exact_block ⟨endsAt⟩)).trans (if_pos h)

/-- The store has a block of a tracker under a policy, and something for its window. -/
structure Blocking (l : Limiter) (t : Tracker) (p : Policy) (endsAt : UInt64)
    (window : Option Entry) (env : Env) : Prop where
  healthy : env.Healthy
  window_eq : env.slot (l.shelf.key (windowName t p)) = window
  block_eq : env.slot (l.shelf.key (blockName t p)) = some (blockEntry endsAt)

namespace Blocking

variable {window : Option Entry} {length : UInt64}

/-- **Before its end a block denies a request**, which leaves block and window as they are. -/
theorem checkAt_of_lt (h : Blocking l t p endsAt window env) (hp : p.block = some length)
    (hnow : now < endsAt) :
    ∃ env', (l.checkAt t p now).on env = (blockedOutcome p ⟨endsAt⟩ now, env') ∧
      Blocking l t p endsAt window env' := by
  have hhealthy := h.healthy.setClock now
  have hblock : (env.setClock now).slot (l.shelf.key (blockName t p)) = some (blockEntry endsAt) :=
    h.block_eq
  obtain ⟨env', hcheck, hput⟩ := check_of_blockIn (l := l) (t := t) (p := p) (b := ⟨endsAt⟩) hhealthy
    (by rw [hblock, blockIn_blockEntry hp]; exact if_pos hnow)
  rw [hblock, Env.now_setClock, blockRead_blockEntry p hnow] at hput
  exact ⟨env', hcheck, hput.healthy hhealthy,
    (hput.slot_of_ne (windowKey_ne_blockKey l t p)).trans h.window_eq, hput.slot_key⟩

/-- **From its end on** the window decides. -/
theorem checkAt_of_le (h : Blocking l t p endsAt window env) (hp : p.block = some length)
    (hnow : endsAt ≤ now) : ((l.checkAt t p now).on env).1 = judged p now window := by
  have hblock : (env.setClock now).slot (l.shelf.key (blockName t p)) = some (blockEntry endsAt) :=
    h.block_eq
  obtain ⟨env', hcheck, _⟩ := check_of_no_blockIn (l := l) (t := t) (p := p)
    (h.healthy.setClock now)
    (by rw [hblock, blockIn_blockEntry hp]; exact if_neg (UInt64.not_lt.mpr hnow))
  have hwindow : (env.setClock now).slot (l.shelf.key (windowName t p)) = window := h.window_eq
  rw [hwindow] at hcheck
  exact congrArg Prod.fst hcheck

theorem apart (h : Blocking l t p endsAt window env) {v : Visit} (hv : v.Apart t p) :
    Blocking l t p endsAt window ((l.checkAt v.tracker v.policy v.now).on env).2 := by
  obtain ⟨K, hwindow, hblock, hf⟩ := Account.exists_frame_of_apart l env hv
  exact ⟨(h.healthy.setClock v.now).of_frame hf, (hf.slot_eq _ hwindow).trans h.window_eq,
    (hf.slot_eq _ hblock).trans h.block_eq⟩

/-- Requests before its end leave a block and its window as they are, whoever comes between them. -/
theorem left (h : Blocking l t p endsAt window env) (hp : p.block = some length)
    {during : List Visit} (hduring : ∀ v ∈ during, v.Apart t p ∨ v.Of t p ∧ v.now < endsAt) :
    Blocking l t p endsAt window (l.left during env) := by
  induction during generalizing env with
  | nil => exact h
  | cons v during ih =>
    refine ih ?_ fun u hu => hduring u (List.mem_cons_of_mem v hu)
    rcases hduring v List.mem_cons_self with hapart | ⟨⟨rfl, rfl⟩, hlt⟩
    · exact h.apart hapart
    · obtain ⟨env', hcheck, h'⟩ := h.checkAt_of_lt hp hlt
      show Blocking l v.tracker v.policy endsAt window
        ((l.checkAt v.tracker v.policy v.now).on env).2
      rw [hcheck]
      exact h'

end Blocking

/-- Whatever visits there are, a store that does not fail goes on not to fail. -/
theorem healthy_left (h : env.Healthy) (l : Limiter) (visits : List Visit) :
    (l.left visits env).Healthy := by
  induction visits generalizing env with
  | nil => exact h
  | cons v visits ih =>
    have htouches : (l.check v.tracker v.policy).Touches (l.shelf.Under "rl") :=
      touches_check l v.tracker v.policy
    exact ih ((h.setClock v.now).of_frame (htouches (env.setClock v.now)))

/-- A request that finds no block and is denied leaves one. -/
theorem blocking_of_denied {length : UInt64} (h : env.Healthy) (hp : p.block = some length)
    (hend : endsAt.toNat = now.toNat + length.toNat)
    (hfound : ((l.activeBlock t p now).on (env.setClock now)).1 = .ok none)
    (hdenied : ((l.checkAt t p now).on env).1.allowed = false) :
    let rejected := (l.checkAt t p now).on env
    rejected.1.Blocked endsAt now ∧
      Blocking l t p endsAt (rejected.2.slot (l.shelf.key (windowName t p))) rejected.2 := by
  intro rejected
  have hhealthy := h.setClock now
  obtain ⟨_, hactive, _⟩ := activeBlock_of_healthy hhealthy l t p
  rw [Env.now_setClock] at hactive
  have hnone := Except.ok.inj ((congrArg Prod.fst hactive).symm.trans hfound)
  obtain ⟨env', hcheck, hhealthy', _, _, hblock⟩ := check_of_no_blockIn hhealthy hnone
  have hrejected : rejected = _ := hcheck
  rw [show (l.checkAt t p now).on env = _ from hcheck] at hdenied
  obtain ⟨hv, hblocked⟩ := blocked_judged hp hend hdenied
  rw [hrejected]
  refine ⟨hblocked, hhealthy', rfl, ?_⟩
  rw [hblock]
  simp only [Env.now_setClock, hv, Bool.false_eq_true, ↓reduceIte, blockStarted, hp,
    satAdd_of_toNat_eq hend]

/-- **A block denies, does not count and is not extended.**  On an empty store let any requests come,
and then one of a tracker under a policy with a block, which finds no block that lasts and is denied.
If the end of the block that it starts is a word, then the request is told of that.  And whatever
requests come before that instant, and others that are counted elsewhere:

* what the store has for the window and for the block stays as the denied request left it;
* a request before the instant is denied by the block, and told how long it lasts;
* one from that instant on is judged by the window, on the entry that the denied request left, unless
  that has expired. -/
theorem blocked_until (l : Limiter) (t : Tracker) (p : Policy) (length start now endsAt : UInt64)
    (before : List Visit) (hp : p.block = some length)
    (hend : endsAt.toNat = now.toNat + length.toNat) :
    let found := l.left before (.start start (.empty none))
    let rejected := (l.checkAt t p now).on found
    ((l.activeBlock t p now).on (found.setClock now)).1 = .ok none →
    rejected.1.allowed = false →
      rejected.1.Blocked endsAt now ∧
      ∀ during : List Visit, (∀ v ∈ during, v.Apart t p ∨ v.Of t p ∧ v.now < endsAt) →
        let left := l.left during rejected.2
        left.slot (l.shelf.key (windowName t p)) =
          rejected.2.slot (l.shelf.key (windowName t p)) ∧
        left.slot (l.shelf.key (blockName t p)) = rejected.2.slot (l.shelf.key (blockName t p)) ∧
        (∀ later < endsAt, ((l.checkAt t p later).on left).1.Blocked endsAt later) ∧
        ∀ later, endsAt ≤ later → ((l.checkAt t p later).on left).1 =
          judged p later (rejected.2.slot (l.shelf.key (windowName t p))) := by
  intro found rejected hfound hdenied
  obtain ⟨hblocked, hblocking⟩ := blocking_of_denied
    (healthy_left (Env.healthy_start start) l before) hp hend hfound hdenied
  refine ⟨hblocked, fun during hduring => ?_⟩
  intro left
  have hleft := hblocking.left hp hduring
  refine ⟨hleft.window_eq, hleft.block_eq.trans hblocking.block_eq.symm, fun later hlt => ?_,
    fun later hle => hleft.checkAt_of_le hp hle⟩
  obtain ⟨_, hcheck, _⟩ := hleft.checkAt_of_lt hp hlt
  rw [hcheck]
  exact blocked_blockedOutcome p endsAt later

/-- A policy of one request in a fixed window, that blocks trackers which make more. -/
def onePerWindow (window length : UInt64) : Policy := ⟨"login", window, 1, some length, .fixedWindow⟩

/-- A request that comes too early starts a block of five seconds.  Two more come before it ends, one
of another tracker's in between; the last of them is told how long it lasts, and when it has ended
the next one opens a window. -/
theorem blocked_until_fiveSeconds :
    let l : Limiter := ⟨⟨Shelf.defaultLabel⟩⟩
    let p := onePerWindow 1000 5000
    let rejected := (l.checkAt (.user "alice") p 100).on
      (l.left [⟨0, .user "alice", p⟩] (.start 0 (.empty none)))
    let left := l.left [⟨200, .user "alice", p⟩, ⟨250, .user "bob", p⟩, ⟨3000, .user "alice", p⟩]
      rejected.2
    rejected.1.Blocked 5100 100 ∧
      ((l.checkAt (.user "alice") p 5099).on left).1.Blocked 5100 5099 ∧
      ((l.checkAt (.user "alice") p 5100).on left).1 = ⟨true, 1, 0, 6100, none, false, false⟩ := by
  intro l p rejected left
  obtain ⟨hblocked, hrest⟩ := blocked_until l (.user "alice") p 5000 0 100 5100
    [⟨0, .user "alice", p⟩] rfl (by decide) (by decide +kernel) (by decide +kernel)
  obtain ⟨_, _, hbefore, hafter⟩ := hrest
    [⟨200, .user "alice", p⟩, ⟨250, .user "bob", p⟩, ⟨3000, .user "alice", p⟩] (by decide)
  refine ⟨hblocked, hbefore 5099 (by decide), ?_⟩
  rw [hafter 5100 (by decide)]
  decide +kernel

end Limiter

end Turnstile
