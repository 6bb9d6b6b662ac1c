import Turnstile.Proofs.Env.Healthy
import Turnstile.Proofs.Touches

/-!
# Circuits in the store

While the store does not fail, an operation on a circuit is a move of its record: what is seen of
the circuit at the instant is moved, and where that changes it the new record is written with a time
to live.  A record that has expired is seen as a fresh circuit.

* `Circuit.seen`: the circuit in a slot at an instant.
* `Breaker.moved`: a slot after a move of its circuit.
* `Breaker.admits_of_healthy`, `Breaker.recordSuccess_of_healthy`,
  `Breaker.recordFailure_of_healthy`: the operations as moves.
* `Breaker.reset_of_healthy`, `Breaker.status_of_healthy`: the operations that remove and read.
* `Breaker.seen_moved_eq`, `Breaker.seen_moved`: what is seen of a circuit after a move.
* `Breaker.Unmoved`: what has happened makes no difference to a circuit.
-/

set_option autoImplicit false

namespace Turnstile

open Circuit (Key)

namespace Circuit

theorem exact_state (s : State) : Binary.Exact s := by
  have hindex : State.ofIndex? s.index = some s := by cases s <;> rfl
  exact Binary.exact_narrow hindex (Binary.exact_word32 s.index)

theorem exact_circuit (c : Circuit) : Binary.Exact c :=
  Binary.exact_narrow rfl (Binary.exact_pair (exact_state c.state)
    (Binary.exact_pair (Binary.exact_word32 c.failures) (Binary.exact_pair
      (Binary.exact_word32 c.successes) (Binary.exact_option fun t _ => Binary.exact_word t))))

/-- A circuit is known by its key on a shelf. -/
theorem Key.eq_of_key {s : Shelf} {k k' : Key} (h : s.key k.text = s.key k'.text) : k = k' :=
  congrArg Key.mk (Shelf.key_inj h)

/-- The circuit in a slot at an instant. -/
def seen (now : UInt64) (slot : Option Entry) : Circuit := (recordIn Circuit now slot).getD .fresh

/-- A poll changes a record where it changes its state. -/
theorem snd_poll_eq_iff {c : Circuit} {t : Thresholds} {now : UInt64} :
    (c.poll t now).2 = c ↔ (c.poll t now).2.state = c.state := by
  constructor
  · exact fun h => by rw [h]
  · unfold poll
    cases hs : c.state with
    | closed => simp
    | halfOpen => simp
    | «open» => cases c.rested t now <;> simp

/-- Who is let through leaves a circuit that is not open. -/
theorem state_snd_poll {c : Circuit} {t : Thresholds} {now : UInt64} (h : (c.poll t now).1 = true) :
    (c.poll t now).2.state ≠ .open := by
  unfold poll at h ⊢
  cases hs : c.state with
  | closed => simp [hs]
  | halfOpen => simp [hs]
  | «open» => cases hr : c.rested t now <;> simp [hs, hr] at h ⊢

theorem state_succeed {c : Circuit} (h : c.state ≠ .open) (t : Thresholds) :
    (c.succeed t).state ≠ .open := by
  unfold succeed
  cases hs : c.state with
  | closed => simp
  | halfOpen => by_cases hle : t.successes ≤ satSucc32 c.successes <;> simp [hle, fresh]
  | «open» => exact absurd hs h

end Circuit

namespace Breaker

open Circuit (seen)

/-- The entry that keeps a circuit from an instant on. -/
def entry (b : Breaker) (now : UInt64) (c : Circuit) : Entry :=
  TimedMap.entryAt now (Binary.encode c) (some b.settings.recordTtl)

/-- A slot after a move of its circuit. -/
def moved (b : Breaker) (now : UInt64) (move : Circuit → Circuit) (slot : Option Entry) :
    Option Entry :=
  if move (seen now slot) = seen now slot then readable Circuit now slot
  else some (b.entry now (move (seen now slot)))

variable {b : Breaker} {key : Key} {env : Env}

/-! ## Operations -/

theorem load_of_healthy (h : env.Healthy) (b : Breaker) (key : Key) :
    ∃ env', (b.load key).on env = (.ok (seen env.now (env.slot (b.shelf.key key.text))), env') ∧
      env.Puts (b.shelf.key key.text)
        (readable Circuit env.now (env.slot (b.shelf.key key.text))) env' := by
  obtain ⟨env', hload, hput⟩ := b.shelf.load_of_healthy (α := Circuit) key.text h
  exact ⟨env', StoreM.on_bind_of_ok hload, hput⟩

theorem advance_of_healthy (h : env.Healthy) (b : Breaker) (key : Key) (c c' : Circuit)
    (event : Option Event) :
    ∃ env', (b.advance key c c' event).on env = (.ok (), env') ∧
      env.Puts (b.shelf.key key.text)
        (if c' = c then env.slot (b.shelf.key key.text) else some (b.entry env.now c')) env' := by
  unfold advance
  by_cases hc : c' = c
  · rw [if_pos hc, if_pos hc]
    exact ⟨env, rfl, .refl env _⟩
  · rw [if_neg hc, if_neg hc]
    obtain ⟨env₁, hsave, hput⟩ :=
      b.shelf.save_of_healthy key.text h c' (some b.settings.recordTtl)
    unfold save
    rw [StoreM.on_bind_of_ok hsave]
    cases event with
    | none => exact ⟨env₁, rfl, hput⟩
    | some e =>
      have hlog := Env.Puts.log env₁ (b.shelf.key key.text) e
      rw [hput.slot_key] at hlog
      exact ⟨_, rfl, hput.trans hlog⟩

/-- Asking a circuit brings it to its next record, and answers. -/
theorem tryAdmits_eq (b : Breaker) (key : Key) :
    b.tryAdmits key = (do
      let c ← b.load key
      let now ← GateM.now
      b.advance key c (c.poll b.thresholds now).2 (some (.probeAdmitted key))
      pure (c.poll b.thresholds now).1) := by
  unfold tryAdmits
  congr 1
  funext c
  congr 1
  funext now
  unfold advance
  dsimp only
  by_cases hstate : (c.poll b.thresholds now).2.state = c.state
  · rw [if_pos hstate, if_pos (Circuit.snd_poll_eq_iff.mpr hstate), pure_bind]
  · rw [if_neg hstate, if_neg fun e => hstate (Circuit.snd_poll_eq_iff.mp e), bind_assoc]

theorem admits_of_healthy (h : env.Healthy) (b : Breaker) (key : Key) :
    ∃ env', (b.admits key).on env =
        (((seen env.now (env.slot (b.shelf.key key.text))).poll b.thresholds env.now).1, env') ∧
      env.Puts (b.shelf.key key.text) (b.moved env.now (fun c => (c.poll b.thresholds env.now).2)
        (env.slot (b.shelf.key key.text))) env' := by
  obtain ⟨env₁, hload, hput⟩ := load_of_healthy h b key
  obtain ⟨env₂, hadvance, hput₂⟩ := advance_of_healthy (hput.healthy h) b key
    (seen env.now (env.slot (b.shelf.key key.text)))
    ((seen env.now (env.slot (b.shelf.key key.text))).poll b.thresholds env.now).2
    (some (.probeAdmitted key))
  rw [hput.slot_key, hput.now_eq] at hput₂
  have htry : (b.tryAdmits key).on env = (.ok ((seen env.now
      (env.slot (b.shelf.key key.text))).poll b.thresholds env.now).1, env₂) := by
    rw [tryAdmits_eq, StoreM.on_bind_of_ok hload, StoreM.on_bind_of_ok (StoreM.on_now env₁),
      hput.now_eq, StoreM.on_bind_of_ok hadvance, StoreM.on_pure]
  refine ⟨env₂, ?_, hput.trans hput₂⟩
  simp only [admits, GateM.on_bind, GateM.on_attempt, htry, GateM.on_pure]

theorem settle_of_ok {x : StoreM Unit} {env' : Env} (h : x.on env = (.ok (), env')) :
    (settle key x).on env = ((), env') := by
  simp only [settle, GateM.on_bind, GateM.on_attempt, h, GateM.on_pure]

theorem recordSuccess_of_healthy (h : env.Healthy) (b : Breaker) (key : Key) :
    ∃ env', (b.recordSuccess key).on env = ((), env') ∧
      env.Puts (b.shelf.key key.text) (b.moved env.now (fun c => c.succeed b.thresholds)
        (env.slot (b.shelf.key key.text))) env' := by
  obtain ⟨env₁, hload, hput⟩ := load_of_healthy h b key
  obtain ⟨env₂, hadvance, hput₂⟩ := advance_of_healthy (hput.healthy h) b key
    (seen env.now (env.slot (b.shelf.key key.text)))
    ((seen env.now (env.slot (b.shelf.key key.text))).succeed b.thresholds) (successEvent key _ _)
  rw [hput.slot_key, hput.now_eq] at hput₂
  refine ⟨env₂, settle_of_ok ?_, hput.trans hput₂⟩
  unfold trySuccess
  rw [StoreM.on_bind_of_ok hload]
  exact hadvance

theorem recordFailure_of_healthy (h : env.Healthy) (b : Breaker) (key : Key) :
    ∃ env', (b.recordFailure key).on env = ((), env') ∧
      env.Puts (b.shelf.key key.text) (b.moved env.now (fun c => c.fail b.thresholds env.now)
        (env.slot (b.shelf.key key.text))) env' := by
  obtain ⟨env₁, hload, hput⟩ := load_of_healthy h b key
  obtain ⟨env₂, hadvance, hput₂⟩ := advance_of_healthy (hput.healthy h) b key
    (seen env.now (env.slot (b.shelf.key key.text)))
    ((seen env.now (env.slot (b.shelf.key key.text))).fail b.thresholds env.now)
    (failureEvent key _ _)
  rw [hput.slot_key, hput.now_eq] at hput₂
  refine ⟨env₂, settle_of_ok ?_, hput.trans hput₂⟩
  unfold tryFailure
  rw [StoreM.on_bind_of_ok hload, StoreM.on_bind_of_ok (StoreM.on_now env₁), hput.now_eq]
  exact hadvance

theorem reset_of_healthy (h : env.Healthy) (b : Breaker) (key : Key) :
    ∃ env', (b.reset key).on env = ((), env') ∧ env.Puts (b.shelf.key key.text) none env' := by
  obtain ⟨env₁, hremove, hput⟩ := b.shelf.remove_of_healthy key.text h
  have hlog := Env.Puts.log env₁ (b.shelf.key key.text) (.circuitReset key)
  rw [hput.slot_key] at hlog
  refine ⟨_, settle_of_ok ?_, hput.trans hlog⟩
  rw [StoreM.on_bind_of_ok hremove, StoreM.on_lift]

theorem status_of_healthy (h : env.Healthy) (b : Breaker) (key : Key) :
    ∃ env', (b.status key).on env =
        (b.statusOf key (seen env.now (env.slot (b.shelf.key key.text))), env') ∧
      env.Puts (b.shelf.key key.text)
        (readable Circuit env.now (env.slot (b.shelf.key key.text))) env' := by
  obtain ⟨env', hload, hput⟩ := load_of_healthy h b key
  refine ⟨env', ?_, hput⟩
  simp only [status, GateM.on_bind, GateM.on_attempt, hload, GateM.on_pure]

/-! ## What is seen later -/

variable {now later : UInt64} {slot : Option Entry}

theorem seen_entry (b : Breaker) (now later : UInt64) (c : Circuit) :
    seen later (some (b.entry now c)) =
      if later < satAdd now b.settings.recordTtl.millis then c else .fresh := by
  show (recordIn Circuit later (some ⟨Binary.encode c, some _⟩)).getD .fresh = _
  rw [recordIn_written (Circuit.exact_circuit c)]
  split <;> rfl

/-- What has been read is seen later as it would be without the reading. -/
theorem seen_readable (h : now ≤ later) (slot : Option Entry) :
    seen later (readable Circuit now slot) = seen later slot := by
  rw [seen, recordIn_readable_later h, seen]

theorem seen_later (h : now ≤ later) (slot : Option Entry) :
    seen later slot = seen now slot ∨ seen later slot = .fresh := by
  unfold seen
  rcases recordIn_later (α := Circuit) h slot with heq | hnone
  · exact .inl (by rw [heq])
  · exact .inr (by rw [hnone, Option.getD_none])

/-- What is seen after a move: the record that the move wrote until it expires, or what was there
before if the move has changed nothing. -/
theorem seen_moved_eq (h : now ≤ later) (b : Breaker) (move : Circuit → Circuit)
    (slot : Option Entry) :
    seen later (b.moved now move slot) =
      if move (seen now slot) = seen now slot then seen later slot
      else if later < satAdd now b.settings.recordTtl.millis then move (seen now slot)
      else .fresh := by
  unfold moved
  split
  · exact seen_readable h slot
  · exact seen_entry b now later _

/-- **After a move the circuit is seen as moved**, or as a fresh one once the record has expired. -/
theorem seen_moved (h : now ≤ later) (b : Breaker) (move : Circuit → Circuit)
    (slot : Option Entry) :
    seen later (b.moved now move slot) = move (seen now slot) ∨
      seen later (b.moved now move slot) = .fresh := by
  unfold moved
  split
  · rename_i hmove
    rw [seen_readable h, hmove]
    exact seen_later h slot
  · rw [seen_entry]
    split
    · exact .inl rfl
    · exact .inr rfl

theorem seen_moved_ne_open (h : now ≤ later) {move : Circuit → Circuit}
    (hmove : (move (seen now slot)).state ≠ .open) :
    (seen later (b.moved now move slot)).state ≠ .open := by
  rcases seen_moved h b move slot with heq | heq <;> rw [heq]
  · exact hmove
  · decide

/-- A move that changes nothing reads the circuit and no more. -/
theorem moved_of_same {move : Circuit → Circuit} (h : move (seen now slot) = seen now slot) :
    b.moved now move slot = readable Circuit now slot := by
  rw [moved, if_pos h]

/-- A closed circuit is read by a poll and no more. -/
theorem moved_poll_of_closed {t : Circuit.Thresholds} (h : (seen now slot).state = .closed) :
    b.moved now (fun c => (c.poll t now).2) slot = readable Circuit now slot :=
  moved_of_same (by simp only [Circuit.poll, h])

/-! ## Circuits that are left alone -/

/-- A circuit is seen from now on as it would have been without what has happened. -/
structure Unmoved (b : Breaker) (key : Key) (env env' : Env) : Prop where
  healthy : env'.Healthy
  now_eq : env'.now = env.now
  seen_eq : ∀ later, env.now ≤ later →
    seen later (env'.slot (b.shelf.key key.text)) = seen later (env.slot (b.shelf.key key.text))

namespace Unmoved

variable {env' env₁ : Env} {K : String → Prop}

theorem refl (h : env.Healthy) : b.Unmoved key env env := ⟨h, rfl, fun _ _ => rfl⟩

theorem trans (h₁ : b.Unmoved key env env₁) (h₂ : b.Unmoved key env₁ env') :
    b.Unmoved key env env' :=
  ⟨h₂.healthy, h₂.now_eq.trans h₁.now_eq, fun later hle =>
    (h₂.seen_eq later (by rwa [h₁.now_eq])).trans (h₁.seen_eq later hle)⟩

theorem of_frame (h : env.Healthy) (hf : Env.Frame K env env') (hK : ¬ K (b.shelf.key key.text)) :
    b.Unmoved key env env' :=
  ⟨h.of_frame hf, hf.now_eq, fun _ _ => by rw [hf.slot_eq _ hK]⟩

theorem of_readable (h : env.Healthy) (hput : env.Puts (b.shelf.key key.text)
    (readable Circuit env.now (env.slot (b.shelf.key key.text))) env') : b.Unmoved key env env' :=
  ⟨hput.healthy h, hput.now_eq, fun later hle => by rw [hput.slot_key, seen_readable hle]⟩

/-- Another circuit is left alone by what changes one of them. -/
theorem of_puts_other {other : Key} (h : env.Healthy) (hne : other ≠ key) {slot : Option Entry}
    (hput : env.Puts (b.shelf.key other.text) slot env') : b.Unmoved key env env' :=
  of_frame h hput.frame fun e => hne (Key.eq_of_key e).symm

theorem status (h : env.Healthy) (b : Breaker) (key other : Key) :
    b.Unmoved key env ((b.status other).on env).2 := by
  obtain ⟨env', hstatus, hput⟩ := b.status_of_healthy h other
  rw [hstatus]
  by_cases hkey : other = key
  · subst hkey
    exact of_readable h hput
  · exact of_puts_other h hkey hput

end Unmoved

end Breaker

end Turnstile
