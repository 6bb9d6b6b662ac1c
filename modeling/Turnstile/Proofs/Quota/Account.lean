import Turnstile.Proofs.Quota.Slots
import Turnstile.Proofs.Quota.Trailing

/-!
# The limiter without its store

What the limiter remembers of a tracker under a policy is an `Account`: a counter or a log, and a
block.  `Account.check` is a request on the account alone.  The entries of the store that hold an
account expire exactly when it makes no difference, so a limiter on a healthy store gives the
answers of the account.

* `Account.Kept`: the store has the account.
* `Account.check_of_kept`: a request to the limiter is a request on the account.
-/

set_option autoImplicit false

namespace Turnstile

/-- What the limiter remembers of a tracker under a policy. -/
structure Account where
  /-- The counter of a fixed window. -/
  counter : Option WindowCounter
  /-- The log of a sliding window. -/
  log : SlidingLog
  block : Option Block

namespace Account

/-- The account of a tracker that has made no request. -/
def empty : Account := ⟨none, .empty, none⟩

/-- The account after a request that its window counts, and the verdict of the window. -/
def register (a : Account) (p : Policy) (now : UInt64) : Account × Verdict :=
  match p.algorithm with
  | .fixedWindow =>
    let r := WindowCounter.register a.counter p now
    ({ a with counter := some r.1 }, r.2)
  | .slidingWindow =>
    let r := a.log.register p now
    ({ a with log := r.1 }, r.2)

/-- The account after a denied request, and the answer. -/
def penalise (a : Account) (p : Policy) (now : UInt64) (o : Outcome) : Account × Outcome :=
  match p.block with
  | none => (a, o)
  | some length =>
    let b : Block := ⟨satAdd now length⟩
    ({ a with block := some b }, Limiter.penalised o b length)

/-- The account after a request that no block denies, and the answer. -/
def tally (a : Account) (p : Policy) (now : UInt64) : Account × Outcome :=
  let r := a.register p now
  let o := Limiter.windowOutcome p r.2
  if r.2.allowed then (r.1, o) else r.1.penalise p now o

/-- The account without a block that is over. -/
def lift (a : Account) (now : UInt64) : Account :=
  { a with block := a.block.filter fun b => b.active now }

/-- The account after a request, and the answer. -/
def check (a : Account) (p : Policy) (now : UInt64) : Account × Outcome :=
  let a := a.lift now
  match a.block with
  | some b => (a, Limiter.blockedOutcome p b now)
  | none => a.tally p now

/-! ## The account in the store -/

/-- The instant at which the store drops a log whose last request came at `last`. -/
def logDeadline (p : Policy) (last : UInt64) : UInt64 :=
  satAdd last (p.windowSpan.add Limiter.logGrace).millis

/-- What the store has for the window of an account. -/
def windowSlot (a : Account) (p : Policy) : Option Entry :=
  match p.algorithm with
  | .fixedWindow => a.counter.map fun c => ⟨Binary.encode c, some (c.resetAt p)⟩
  | .slidingWindow =>
    a.log.times.getLast?.map fun last => ⟨Binary.encode a.log, some (logDeadline p last)⟩

/-- What the store has for the block of an account. -/
def blockSlot (a : Account) : Option Entry :=
  a.block.map fun b => ⟨Binary.encode b, some b.endsAt⟩

/-- A log that the store can hold, with times that do not fall up to an instant. -/
structure Orderly (a : Account) (now : UInt64) : Prop where
  sorted : a.log.times.Pairwise (· ≤ ·)
  le_now : ∀ s ∈ a.log.times, s ≤ now
  length_lt : a.log.times.length < wordCount

/-- The store has an account. -/
structure Kept (l : Limiter) (t : Tracker) (p : Policy) (a : Account) (env : Env) : Prop where
  healthy : env.Healthy
  window_eq : env.slot (l.shelf.key (Limiter.windowName t p)) = a.windowSlot p
  block_eq : env.slot (l.shelf.key (Limiter.blockName t p)) = a.blockSlot
  block_none : p.block = none → a.block = none

theorem exact_counter (c : WindowCounter) : Binary.Exact c :=
  Binary.exact_narrow rfl (Binary.exact_pair (Binary.exact_word c.hits) (Binary.exact_word c.start))

theorem exact_log {l : SlidingLog} (h : l.times.length < wordCount) : Binary.Exact l :=
  Binary.exact_narrow rfl (Binary.exact_list h fun s _ => Binary.exact_word s)

theorem exact_block (b : Block) : Binary.Exact b :=
  Binary.exact_narrow rfl (Binary.exact_word b.endsAt)

/-! ### The block -/

variable {l : Limiter} {t : Tracker} {p : Policy} {a : Account} {env : Env}

theorem kept_start (l : Limiter) (t : Tracker) (p : Policy) (now : UInt64) :
    Kept l t p empty (.start now (.empty none)) where
  healthy := Env.healthy_start now
  window_eq := by
    rw [Env.slot_start]
    unfold windowSlot
    cases p.algorithm <;> rfl
  block_eq := Env.slot_start now _
  block_none _ := rfl

theorem Kept.setClock (hk : Kept l t p a env) (now : UInt64) : Kept l t p a (env.setClock now) :=
  ⟨hk.healthy.setClock now, hk.window_eq, hk.block_eq, hk.block_none⟩

theorem blockSlot_lift (a : Account) (now : UInt64) :
    (a.lift now).blockSlot = readable Block now a.blockSlot := by
  unfold lift blockSlot
  cases hb : a.block with
  | none => rfl
  | some b =>
    rw [Option.map_some, readable_written (exact_block b)]
    by_cases h : now < b.endsAt <;> simp [Block.active, h, Option.filter_some]

theorem block_lift (a : Account) (now : UInt64) :
    (a.lift now).block = (recordIn Block now a.blockSlot).filter fun b => b.active now := by
  unfold lift blockSlot
  cases hb : a.block with
  | none => rfl
  | some b =>
    rw [Option.map_some, recordIn_written (exact_block b)]
    by_cases h : now < b.endsAt <;> simp [Block.active, h, Option.filter_some]

/-- A policy that does not block finds no block on the account. -/
theorem blockIn_blockSlot (h : p.block = none → a.block = none) (now : UInt64) :
    Limiter.blockIn p now a.blockSlot = (a.lift now).block := by
  unfold Limiter.blockIn
  cases hb : p.block with
  | none => rw [lift, h hb, Option.filter_none]
  | some length => exact (block_lift a now).symm

theorem blockRead_blockSlot (h : p.block = none → a.block = none) (now : UInt64) :
    Limiter.blockRead p now a.blockSlot = (a.lift now).blockSlot := by
  unfold Limiter.blockRead
  cases hb : p.block with
  | none => simp only [lift, blockSlot, h hb, Option.filter_none]
  | some length => exact (blockSlot_lift a now).symm

/-! ### The counter -/

/-- A window that is over counts as no window. -/
theorem next_live (c : WindowCounter) (p : Policy) (now : UInt64) :
    WindowCounter.next (if now < c.resetAt p then some c else none) p now =
      WindowCounter.next (some c) p now := by
  by_cases h : now < c.resetAt p
  · rw [if_pos h]
  · have he : c.expired p now = true := by
      simpa [WindowCounter.expired] using UInt64.not_lt.mp h
    rw [if_neg h]
    simp [WindowCounter.next, he]

theorem next_windowSlot_fixed (ha : p.algorithm = .fixedWindow) (a : Account) (now : UInt64) :
    WindowCounter.next (recordIn WindowCounter now (a.windowSlot p)) p now =
      WindowCounter.next a.counter p now := by
  simp only [windowSlot, ha]
  cases a.counter with
  | none => rfl
  | some c =>
    rw [Option.map_some, recordIn_written (exact_counter c)]
    exact next_live c p now

/-! ### The log -/

theorem toNat_millis_logSpan (p : Policy) :
    (p.windowSpan.add Limiter.logGrace).millis.toNat =
      min (p.window.toNat + 1000) (wordCount - 1) := by
  have := p.window.toNat_lt
  rw [Duration.millis, toNat_wordOfNat]
  simp only [Duration.wholeMillis, Duration.add, Policy.windowSpan, Limiter.logGrace,
    Duration.ofMillis, Duration.ofNanos, Duration.perMilli, wordCount, UInt64.reduceToNat]
  omega

theorem le_getLast {times : List UInt64} {last : UInt64} (hs : times.Pairwise (· ≤ ·))
    (h : times.getLast? = some last) : ∀ s ∈ times, s ≤ last := by
  obtain ⟨front, rfl⟩ := List.getLast?_eq_some_iff.mp h
  intro s hmem
  rcases List.mem_append.mp hmem with hmem | hmem
  · exact (List.pairwise_append.mp hs).2.2 s hmem last List.mem_cons_self
  · rw [List.mem_singleton.mp hmem]
    exact UInt64.le_refl last

/-- What the store has dropped the window has dropped before. -/
theorem purge_of_logDeadline {log : SlidingLog} {last now : UInt64}
    (hlast : ∀ s ∈ log.times, s ≤ last) (hd : logDeadline p last ≤ now) (hnow : now < maxWord) :
    log.purge p now = .empty := by
  have hexact := toNat_satAdd_of_lt hd hnow
  have hmillis := toNat_millis_logSpan p
  have hle := hd
  rw [UInt64.le_iff_toNat_le, logDeadline, hexact] at hle
  rw [lt_maxWord_iff] at hnow
  show SlidingLog.mk _ = ⟨[]⟩
  congr 1
  rw [List.dropWhile_eq_nil_iff]
  intro s hs
  have hsl := hlast s hs
  rw [UInt64.le_iff_toNat_le] at hsl
  rw [SlidingLog.gone_iff]
  omega

theorem next_windowSlot_sliding (ha : p.algorithm = .slidingWindow) {now : UInt64} (ho : a.Orderly now)
    (hnow : now < maxWord) :
    ((recordIn SlidingLog now (a.windowSlot p)).getD .empty).next p now = a.log.next p now := by
  simp only [windowSlot, ha]
  cases hl : a.log.times.getLast? with
  | none =>
    have : a.log = .empty := by
      show SlidingLog.mk _ = ⟨[]⟩
      rw [List.getLast?_eq_none_iff.mp hl]
    rw [this]
    rfl
  | some last =>
    rw [Option.map_some, recordIn_written (exact_log ho.length_lt)]
    by_cases h : now < logDeadline p last
    · rw [if_pos h, Option.getD_some]
    · have hp := purge_of_logDeadline (le_getLast ho.sorted hl) (UInt64.not_lt.mp h) hnow
      rw [if_neg h, Option.getD_none]
      unfold SlidingLog.next
      rw [hp]
      rfl

/-! ### A request -/

/-- The verdict of the window in the store is that of the account. -/
theorem verdictIn_windowSlot {now : UInt64} (ho : a.Orderly now) (hnow : now < maxWord) :
    Limiter.verdictIn p now (a.windowSlot p) = (a.register p now).2 := by
  unfold Limiter.verdictIn register
  cases ha : p.algorithm with
  | fixedWindow => simp only [WindowCounter.register, next_windowSlot_fixed ha]
  | slidingWindow => simp only [SlidingLog.register, next_windowSlot_sliding ha ho hnow]

theorem windowCounted_windowSlot {now : UInt64} (ho : a.Orderly now) (hnow : now < maxWord) :
    Limiter.windowCounted p now (a.windowSlot p) = (a.register p now).1.windowSlot p := by
  unfold Limiter.windowCounted register
  cases ha : p.algorithm with
  | fixedWindow =>
    simp only [next_windowSlot_fixed ha]
    simp [windowSlot, ha, WindowCounter.register]
  | slidingWindow =>
    simp only [next_windowSlot_sliding ha ho hnow]
    simp [windowSlot, ha, SlidingLog.register, SlidingLog.next, TimedMap.entryAt, logDeadline]

theorem block_register (a : Account) (p : Policy) (now : UInt64) :
    (a.register p now).1.block = a.block := by
  unfold register
  cases p.algorithm <;> rfl

theorem check_of_block {now : UInt64} {b : Block} (h : (a.lift now).block = some b) :
    a.check p now = (a.lift now, Limiter.blockedOutcome p b now) := by
  simp only [check, h]

theorem check_of_no_block {now : UInt64} (h : (a.lift now).block = none) :
    a.check p now = (a.lift now).tally p now := by
  simp only [check, h]

theorem tally_of_allowed {now : UInt64} (h : (a.register p now).2.allowed = true) :
    a.tally p now = ((a.register p now).1, Limiter.windowOutcome p (a.register p now).2) := by
  simp only [tally, h, ↓reduceIte]

theorem tally_of_denied {now : UInt64} (h : (a.register p now).2.allowed = false) :
    a.tally p now =
      (a.register p now).1.penalise p now (Limiter.windowOutcome p (a.register p now).2) := by
  simp only [tally, h, Bool.false_eq_true, ↓reduceIte]

/-- What a denied request is told, and what it leaves in the slots. -/
theorem penalise_slots (a : Account) (p : Policy) (now : UInt64) (o : Outcome) :
    (a.penalise p now o).2 = Limiter.penalty p now o ∧
      (a.penalise p now o).1.windowSlot p = a.windowSlot p ∧
      (a.penalise p now o).1.blockSlot = Limiter.blockStarted p now a.blockSlot ∧
      (p.block = none → (a.penalise p now o).1.block = a.block) := by
  unfold penalise Limiter.penalty Limiter.blockStarted
  cases p.block with
  | none => exact ⟨rfl, rfl, rfl, fun _ => rfl⟩
  | some length => exact ⟨rfl, rfl, rfl, nofun⟩

/-- What a request is told that no block denies, and what it leaves in the slots. -/
theorem tally_slots {now : UInt64} (ho : a.Orderly now) (hnow : now < maxWord) :
    (a.tally p now).2 = Limiter.judged p now (a.windowSlot p) ∧
      (a.tally p now).1.windowSlot p = Limiter.windowCounted p now (a.windowSlot p) ∧
      (a.tally p now).1.blockSlot =
        (if (Limiter.verdictIn p now (a.windowSlot p)).allowed then a.blockSlot
          else Limiter.blockStarted p now a.blockSlot) ∧
      (p.block = none → (a.tally p now).1.block = a.block) := by
  have hblock : (a.register p now).1.blockSlot = a.blockSlot := by
    rw [blockSlot, blockSlot, block_register]
  rw [windowCounted_windowSlot ho hnow, Limiter.judged, verdictIn_windowSlot ho hnow]
  cases hv : (a.register p now).2.allowed with
  | true =>
    rw [tally_of_allowed hv]
    simp only [↓reduceIte]
    exact ⟨trivial, trivial, hblock, fun _ => block_register a p now⟩
  | false =>
    obtain ⟨htold, hwindow, hstarted, hnone⟩ := penalise_slots (a.register p now).1 p now
      (Limiter.windowOutcome p (a.register p now).2)
    rw [tally_of_denied hv]
    simp only [Bool.false_eq_true, ↓reduceIte]
    exact ⟨htold, hwindow, by rw [hstarted, hblock], fun hp => by rw [hnone hp, block_register]⟩

/-- **A request to the limiter is a request on the account**, and the store has the account after
it. -/
theorem check_of_kept (hk : Kept l t p a env) (ho : a.Orderly env.now) (hnow : env.now < maxWord) :
    ∃ env', (l.check t p).on env = ((a.check p env.now).2, env') ∧
      Kept l t p (a.check p env.now).1 env' ∧ env'.now = env.now := by
  have hin := blockIn_blockSlot hk.block_none env.now
  have hread := blockRead_blockSlot hk.block_none env.now
  have hlift : p.block = none → (a.lift env.now).block = none := fun hp => by
    rw [lift, hk.block_none hp, Option.filter_none]
  rw [← hk.block_eq] at hin hread
  cases hb : (a.lift env.now).block with
  | some b =>
    obtain ⟨env', hcheck, hput⟩ := Limiter.check_of_blockIn hk.healthy (hin.trans hb)
    rw [check_of_block hb]
    exact ⟨env', hcheck, ⟨hput.healthy hk.healthy,
      (hput.slot_of_ne (Limiter.windowKey_ne_blockKey l t p)).trans hk.window_eq,
      hput.slot_key.trans hread, hlift⟩, hput.now_eq⟩
  | none =>
    obtain ⟨env', hcheck, hhealthy, hnow', hwindow, hblock⟩ :=
      Limiter.check_of_no_blockIn hk.healthy (hin.trans hb)
    have hslot : env.slot (l.shelf.key (Limiter.windowName t p)) = (a.lift env.now).windowSlot p :=
      hk.window_eq
    rw [hslot] at hcheck hwindow hblock
    rw [hread] at hblock
    obtain ⟨htold, hcounted, hstarted, hnone⟩ := tally_slots (a := a.lift env.now) (p := p)
      ⟨ho.sorted, ho.le_now, ho.length_lt⟩ hnow
    rw [check_of_no_block hb]
    exact ⟨env', hcheck.trans (by rw [htold]), ⟨hhealthy, hwindow.trans hcounted.symm,
      hblock.trans hstarted.symm, fun hp => (hnone hp).trans hb⟩, hnow'⟩

end Account

end Turnstile
