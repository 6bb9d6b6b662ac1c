import Turnstile.Proofs.Env.Healthy
import Turnstile.Proofs.Quota.Verdict

/-!
# The limiter on two slots

A request to the limiter reads and writes two slots of the store, that of the window and that of the
block.  While the store does not fail, what the request is told and what it leaves there depend on
what the slots hold and on the clock, and on nothing else.  The slots may hold anything: an entry that
has expired or cannot be read counts as none.

* `Limiter.blockIn`, `Limiter.verdictIn`: the block and the verdict in a slot.
* `Limiter.judged`: what a request is told that no block denies.
* `Limiter.check_of_blockIn`, `Limiter.check_of_no_blockIn`: a request to the limiter.
-/

set_option autoImplicit false

namespace Turnstile

theorem Limiter.windowKey_ne_blockKey (l : Limiter) (t : Tracker) (p : Policy) :
    l.shelf.key (windowName t p) ≠ l.shelf.key (blockName t p) := by
  intro h
  simp [Shelf.key, windowName, blockName, String.ext_iff, String.toList_append] at h

namespace Limiter

/-! ## What is in a slot -/

/-- The block in a slot that denies requests, under a policy that has blocks. -/
def blockIn (p : Policy) (now : UInt64) (slot : Option Entry) : Option Block :=
  match p.block with
  | none => none
  | some _ => (recordIn Block now slot).filter fun b => b.active now

/-- The slot of a block after a look at it. -/
def blockRead (p : Policy) (now : UInt64) (slot : Option Entry) : Option Entry :=
  match p.block with
  | none => slot
  | some _ => readable Block now slot

/-- The entry of a block, which expires when the block ends. -/
def blockEntry (endsAt : UInt64) : Entry := ⟨Binary.encode (⟨endsAt⟩ : Block), some endsAt⟩

/-- The slot of a block after a request that its window denies. -/
def blockStarted (p : Policy) (now : UInt64) (slot : Option Entry) : Option Entry :=
  match p.block with
  | none => slot
  | some length => some (blockEntry (satAdd now length))

/-- What the window in a slot says about a request. -/
def verdictIn (p : Policy) (now : UInt64) (slot : Option Entry) : Verdict :=
  match p.algorithm with
  | .fixedWindow => (WindowCounter.register (recordIn WindowCounter now slot) p now).2
  | .slidingWindow => (((recordIn SlidingLog now slot).getD .empty).register p now).2

/-- The slot of a window after a request that it has counted. -/
def windowCounted (p : Policy) (now : UInt64) (slot : Option Entry) : Option Entry :=
  match p.algorithm with
  | .fixedWindow =>
    let c := WindowCounter.next (recordIn WindowCounter now slot) p now
    some ⟨Binary.encode c, some (c.resetAt p)⟩
  | .slidingWindow =>
    let log := ((recordIn SlidingLog now slot).getD .empty).next p now
    some (TimedMap.entryAt now (Binary.encode log) (some (p.windowSpan.add logGrace)))

/-- The answer to a denied request, which may start a block. -/
def penalty (p : Policy) (now : UInt64) (o : Outcome) : Outcome :=
  match p.block with
  | none => o
  | some length => penalised o ⟨satAdd now length⟩ length

/-- What a request is told that no block denies and that finds its window in a slot. -/
def judged (p : Policy) (now : UInt64) (slot : Option Entry) : Outcome :=
  let v := verdictIn p now slot
  if v.allowed then windowOutcome p v else penalty p now (windowOutcome p v)

/-- Whatever is in a slot, its verdict is that of a number of requests. -/
theorem verdictIn_counts (p : Policy) (now : UInt64) (slot : Option Entry) :
    ∃ n wait, (verdictIn p now slot).Counts p now n wait := by
  unfold verdictIn
  cases p.algorithm with
  | fixedWindow => exact ⟨_, _, WindowCounter.register_counts _ p now⟩
  | slidingWindow => exact ⟨_, _, SlidingLog.register_counts _ p now⟩

/-! ## The parts of a request -/

variable {env : Env}

theorem activeBlock_of_healthy (h : env.Healthy) (l : Limiter) (t : Tracker) (p : Policy) :
    ∃ env', (l.activeBlock t p env.now).on env =
        (.ok (blockIn p env.now (env.slot (l.shelf.key (blockName t p)))), env') ∧
      env.Puts (l.shelf.key (blockName t p))
        (blockRead p env.now (env.slot (l.shelf.key (blockName t p)))) env' := by
  unfold activeBlock blockIn blockRead
  cases p.block with
  | none => exact ⟨env, rfl, .refl env _⟩
  | some length =>
    obtain ⟨env', hload, hput⟩ := l.shelf.load_of_healthy (α := Block) (blockName t p) h
    exact ⟨env', StoreM.on_bind_of_ok hload, hput⟩

theorem checkFixed_of_healthy (h : env.Healthy) (l : Limiter) (t : Tracker) (p : Policy) :
    let key := l.shelf.key (windowName t p)
    let c := WindowCounter.next (recordIn WindowCounter env.now (env.slot key)) p env.now
    ∃ env', (l.checkFixed t p env.now).on env = (.ok (c.verdict p env.now), env') ∧
      env.Puts key (some ⟨Binary.encode c, some (c.resetAt p)⟩) env' := by
  intro key c
  obtain ⟨env₁, hload, hput₁⟩ := l.shelf.load_of_healthy (α := WindowCounter) (windowName t p) h
  obtain ⟨env₂, hsave, hput₂⟩ := l.shelf.save_of_healthy (windowName t p) (hput₁.healthy h) c
    (some (.ofMillis (satSub (c.resetAt p) env.now)))
  rw [hput₁.now_eq, entryAt_until (WindowCounter.le_resetAt_next _ p env.now)] at hput₂
  refine ⟨env₂, ?_, hput₁.trans hput₂⟩
  unfold checkFixed
  rw [StoreM.on_bind_of_ok hload]
  exact StoreM.on_bind_of_ok hsave

theorem checkSliding_of_healthy (h : env.Healthy) (l : Limiter) (t : Tracker) (p : Policy) :
    let key := l.shelf.key (windowName t p)
    let log := ((recordIn SlidingLog env.now (env.slot key)).getD .empty).next p env.now
    ∃ env', (l.checkSliding t p env.now).on env = (.ok (log.verdict p env.now), env') ∧
      env.Puts key (some (TimedMap.entryAt env.now (Binary.encode log)
        (some (p.windowSpan.add logGrace)))) env' := by
  intro key log
  obtain ⟨env₁, hload, hput₁⟩ := l.shelf.load_of_healthy (α := SlidingLog) (windowName t p) h
  obtain ⟨env₂, hsave, hput₂⟩ := l.shelf.save_of_healthy (windowName t p) (hput₁.healthy h) log
    (some (p.windowSpan.add logGrace))
  rw [hput₁.now_eq] at hput₂
  refine ⟨env₂, ?_, hput₁.trans hput₂⟩
  unfold checkSliding
  rw [StoreM.on_bind_of_ok hload]
  exact StoreM.on_bind_of_ok hsave

theorem checkWindow_of_healthy (h : env.Healthy) (l : Limiter) (t : Tracker) (p : Policy) :
    ∃ env', (l.checkWindow t p env.now).on env =
        (.ok (verdictIn p env.now (env.slot (l.shelf.key (windowName t p)))), env') ∧
      env.Puts (l.shelf.key (windowName t p))
        (windowCounted p env.now (env.slot (l.shelf.key (windowName t p)))) env' := by
  unfold checkWindow verdictIn windowCounted
  cases p.algorithm with
  | fixedWindow => exact checkFixed_of_healthy h l t p
  | slidingWindow => exact checkSliding_of_healthy h l t p

theorem penalise_of_healthy (h : env.Healthy) (l : Limiter) (t : Tracker) (p : Policy)
    (o : Outcome) :
    ∃ env', (l.penalise t p env.now o).on env = (.ok (penalty p env.now o), env') ∧
      env.Puts (l.shelf.key (blockName t p))
        (blockStarted p env.now (env.slot (l.shelf.key (blockName t p)))) env' := by
  unfold penalise penalty blockStarted
  cases p.block with
  | none => exact ⟨env, rfl, .refl env _⟩
  | some length =>
    obtain ⟨env', hsave, hput⟩ := l.shelf.save_of_healthy (blockName t p) h
      (⟨satAdd env.now length⟩ : Block) (some (.ofMillis length))
    refine ⟨env', StoreM.on_bind_of_ok hsave, ?_⟩
    simpa [TimedMap.entryAt, blockEntry] using hput

/-! ## A request -/

variable {l : Limiter} {t : Tracker} {p : Policy}

theorem check_of_ok {env' : Env} {o : Outcome} (h : (l.tryCheck t p).on env = (.ok o, env')) :
    (l.check t p).on env = (o, env') := by
  simp only [check, GateM.on_bind, GateM.on_attempt, h, GateM.on_pure]

/-- **A request that a block denies** only looks at the block. -/
theorem check_of_blockIn (h : env.Healthy) {b : Block}
    (hb : blockIn p env.now (env.slot (l.shelf.key (blockName t p))) = some b) :
    ∃ env', (l.check t p).on env = (blockedOutcome p b env.now, env') ∧
      env.Puts (l.shelf.key (blockName t p))
        (blockRead p env.now (env.slot (l.shelf.key (blockName t p)))) env' := by
  obtain ⟨env', hblock, hput⟩ := activeBlock_of_healthy h l t p
  refine ⟨env', check_of_ok ?_, hput⟩
  unfold tryCheck
  rw [StoreM.on_bind_of_ok (StoreM.on_now env), StoreM.on_bind_of_ok hblock, hb]
  rfl

/-- A request that no block denies goes on from where its window has counted it. -/
theorem tryCheck_of_no_blockIn (h : env.Healthy)
    (hb : blockIn p env.now (env.slot (l.shelf.key (blockName t p))) = none) :
    let window := env.slot (l.shelf.key (windowName t p))
    let v := verdictIn p env.now window
    ∃ env', (l.tryCheck t p).on env = (if v.allowed then pure (windowOutcome p v)
        else do
          let o ← l.penalise t p env.now (windowOutcome p v)
          GateM.log (.rateLimited t p.name o.retryAfter)
          pure o : StoreM Outcome).on env' ∧
      env'.Healthy ∧ env'.now = env.now ∧
      env'.slot (l.shelf.key (windowName t p)) = windowCounted p env.now window ∧
      env'.slot (l.shelf.key (blockName t p)) =
        blockRead p env.now (env.slot (l.shelf.key (blockName t p))) := by
  intro window v
  have hne := windowKey_ne_blockKey l t p
  obtain ⟨env₁, hblock, hput₁⟩ := activeBlock_of_healthy h l t p
  have hwindow₁ : env₁.slot (l.shelf.key (windowName t p)) = window := hput₁.slot_of_ne hne
  obtain ⟨env₂, hwindow, hput₂⟩ := checkWindow_of_healthy (hput₁.healthy h) l t p
  rw [hput₁.now_eq, hwindow₁] at hwindow hput₂
  refine ⟨env₂, ?_, hput₂.healthy (hput₁.healthy h), hput₂.now_eq.trans hput₁.now_eq,
    hput₂.slot_key, (hput₂.slot_of_ne hne.symm).trans hput₁.slot_key⟩
  unfold tryCheck
  rw [StoreM.on_bind_of_ok (StoreM.on_now env), StoreM.on_bind_of_ok hblock, hb]
  exact StoreM.on_bind_of_ok hwindow

/-- **A request that no block denies** is judged by its window, and starts a block if that denies
it. -/
theorem check_of_no_blockIn (h : env.Healthy)
    (hb : blockIn p env.now (env.slot (l.shelf.key (blockName t p))) = none) :
    let window := env.slot (l.shelf.key (windowName t p))
    let block := blockRead p env.now (env.slot (l.shelf.key (blockName t p)))
    ∃ env', (l.check t p).on env = (judged p env.now window, env') ∧
      env'.Healthy ∧ env'.now = env.now ∧
      env'.slot (l.shelf.key (windowName t p)) = windowCounted p env.now window ∧
      env'.slot (l.shelf.key (blockName t p)) =
        if (verdictIn p env.now window).allowed then block else blockStarted p env.now block := by
  intro window block
  obtain ⟨env₁, htry, hhealthy, hnow, hwindow, hblock⟩ := tryCheck_of_no_blockIn h hb
  unfold judged
  dsimp only at htry ⊢
  cases hv : (verdictIn p env.now window).allowed with
  | true =>
    rw [hv, if_pos rfl] at htry
    exact ⟨env₁, check_of_ok htry, hhealthy, hnow, hwindow, hblock⟩
  | false =>
    obtain ⟨env₂, hpenalise, hput⟩ := penalise_of_healthy hhealthy l t p
      (windowOutcome p (verdictIn p env.now window))
    rw [hnow] at hpenalise
    rw [hnow, hblock] at hput
    have hlogged := fun e => hput.trans (.log env₂ _ e)
    rw [hv, if_neg Bool.false_ne_true, StoreM.on_bind_of_ok hpenalise,
      StoreM.on_bind_of_ok (StoreM.on_lift _ _)] at htry
    exact ⟨_, check_of_ok htry, (hlogged _).healthy hhealthy, (hlogged _).now_eq.trans hnow,
      ((hlogged _).slot_of_ne (windowKey_ne_blockKey l t p)).trans hwindow,
      (hlogged _).slot_key.trans hput.slot_key⟩

end Limiter

end Turnstile
