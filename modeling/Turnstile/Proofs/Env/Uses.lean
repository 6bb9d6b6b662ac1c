import Turnstile.Proofs.Env.Records

/-!
# What operations are made of

Every operation is put together from a few pieces: readings of the clock, lines in the log, counts,
and calls on the store.  `Uses` says which keys the calls are on.  On the store the first call that
fails ends an operation; a gate counts and logs that failure, once, and goes on without the answer.

What holds of the pieces, and of two operations one after the other, holds of all operations.  So
what an operation is made of is said once, and a property of all of them is an induction on that.

* `StoreM.Uses`, `GateM.Uses`: the operations that call the store on some keys.
* `GateM.Closed`: properties that operations have if their parts do; `GateM.closed_moves` is one.
* `StoreM.Uses.steady`, `GateM.Uses.steady`: what all pieces do to the surroundings, they do.
* `StoreM.Uses.touches`, `GateM.Uses.touches`: so they touch these keys and no others.
* `Shelf.uses_load`, `Shelf.uses_save`, `Shelf.uses_increment`, `Shelf.uses_counter`: records.
-/

set_option autoImplicit false

namespace Turnstile

variable {α β : Type} {K : String → Prop}

/-- Operations on the store that call it on keys `K`.  What is written has a time to live; an event
of the log tells of no failure, and one about an attack comes with a count of it. -/
inductive StoreM.Uses (K : String → Prop) : {α : Type} → StoreM α → Prop
  | pure {α : Type} (a : α) : Uses K (pure a : StoreM α)
  | bind {α β : Type} {x : StoreM α} {f : α → StoreM β} (hx : Uses K x) (hf : ∀ a, Uses K (f a)) :
    Uses K (x >>= f)
  | now : Uses K (liftM GateM.now : StoreM UInt64)
  | log {e : Event} (herror : e.error? = none) (hsecurity : e.security = false) :
    Uses K (liftM (GateM.log e) : StoreM Unit)
  | alarm {α : Type} {e : Event} {x : StoreM α} (hsecurity : e.security = true) (hx : Uses K x) :
    Uses K (do
      GateM.count .countAnomaly
      GateM.log e
      x)
  | get {key : String} (hK : K key) : Uses K (StoreM.get key)
  | set {key : String} (hK : K key) (value : Bytes) (ttl : Duration) :
    Uses K (StoreM.set key value (some ttl))
  | delete {key : String} (hK : K key) : Uses K (StoreM.delete key)

/-- Operations of a gate that call the store on keys `K` and count what it decides by `C`.  The
failure of an operation on the store is counted and logged before anything else happens.  What comes
after an operation matters for the answers `P` that it can give. -/
inductive GateM.Uses (K : String → Prop) (C : (Metrics → Metrics) → Prop) :
    {α : Type} → GateM α → Prop
  | pure {α : Type} (a : α) : Uses K C (pure a : GateM α)
  | bindOf {α β : Type} {x : GateM α} {f : α → GateM β} {P : α → Prop} (hx : Uses K C x)
    (hP : ∀ env, P (x.on env).1) (hf : ∀ a, P a → Uses K C (f a)) : Uses K C (x >>= f)
  | now : Uses K C GateM.now
  | log {e : Event} (herror : e.error? = none) (hsecurity : e.security = false) :
    Uses K C (GateM.log e)
  | count {f : Metrics → Metrics} (hf : C f) : Uses K C (GateM.count f)
  | attempt {α β : Type} {x : StoreM α} {f : Except StoreError α → GateM β}
    {y : StoreError → GateM β} {event : StoreError → Event} (hx : x.Uses K)
    (hok : ∀ a, Uses K C (f (.ok a))) (hevent : ∀ e, (event e).error? = some e)
    (hy : ∀ e, Uses K C (y e))
    (herror : ∀ e, f (.error e) = do
      GateM.count .countStoreError
      GateM.log (event e)
      y e) :
    Uses K C (x.attempt >>= f)

variable {C : (Metrics → Metrics) → Prop}

theorem GateM.Uses.bind {x : GateM α} {f : α → GateM β} (hx : x.Uses K C)
    (hf : ∀ a, (f a).Uses K C) : (x >>= f).Uses K C :=
  .bindOf (P := fun _ => True) hx (fun _ => trivial) fun a _ => hf a

/-- A property of operations that those have which are put together from operations that have it. -/
structure GateM.Closed (Q : {α : Type} → GateM α → Prop) : Prop where
  pure : ∀ {α : Type} (a : α), Q (Pure.pure a)
  bindOf : ∀ {α β : Type} {x : GateM α} {f : α → GateM β} {P : α → Prop},
    Q x → (∀ env, P (x.on env).1) → (∀ a, P a → Q (f a)) → Q (x >>= f)
  now : Q GateM.now
  log : ∀ {e : Event}, e.error? = none → e.security = false → Q (GateM.log e)

theorem GateM.Closed.bind {Q : {α : Type} → GateM α → Prop} (hQ : Closed Q) {x : GateM α}
    {f : α → GateM β} (hx : Q x) (hf : ∀ a, Q (f a)) : Q (x >>= f) :=
  hQ.bindOf (P := fun _ => True) hx (fun _ => trivial) fun a _ => hf a

theorem GateM.closed_uses (K : String → Prop) (C : (Metrics → Metrics) → Prop) :
    Closed (GateM.Uses K C) :=
  ⟨.pure, .bindOf, .now, .log⟩

/-! ## What all pieces do -/

/-- What an operation may do to its surroundings in one piece, on keys `K` and with counters `C`. -/
structure Env.Steady (K : String → Prop) (C : (Metrics → Metrics) → Prop)
    (R : Env → Env → Prop) : Prop where
  refl : ∀ env, R env env
  trans : ∀ env env₁ env₂, R env env₁ → R env₁ env₂ → R env env₂
  log : ∀ e env, R env ((GateM.log e).on env).2
  count : ∀ f, C f ∨ f = .countStoreError ∨ f = .countAnomaly →
    ∀ env, R env ((GateM.count f).on env).2
  get : ∀ key, K key → ∀ env, R env ((StoreM.get key).on env).2
  set : ∀ key, K key → ∀ value ttl env, R env ((StoreM.set key value (some ttl)).on env).2
  delete : ∀ key, K key → ∀ env, R env ((StoreM.delete key).on env).2

variable {R : Env → Env → Prop}

theorem StoreM.Uses.steady {x : StoreM α} (h : x.Uses K) (hR : Env.Steady K C R) (env : Env) :
    R env (x.on env).2 := by
  induction h generalizing env with
  | pure a => exact hR.refl env
  | @bind _ _ x f _ _ hx hf =>
    have hfirst := hx env
    rw [on_bind]
    rcases hr : x.on env with ⟨e | a, env₁⟩
    · rw [hr] at hfirst
      exact hfirst
    · rw [hr] at hfirst
      exact hR.trans _ _ _ hfirst (hf a env₁)
  | now => exact hR.refl env
  | log _ _ => exact hR.log _ env
  | @alarm _ e _ _ _ hx =>
    have hcount := hR.count _ (.inr (.inr rfl)) env
    exact hR.trans _ _ _ (hR.trans _ _ _ hcount (hR.log e _)) (hx _)
  | get hK => exact hR.get _ hK env
  | set hK value ttl => exact hR.set _ hK value ttl env
  | delete hK => exact hR.delete _ hK env

/-- **What all pieces do to the surroundings, an operation does.** -/
theorem GateM.Uses.steady {x : GateM α} (h : x.Uses K C) (hR : Env.Steady K C R) (env : Env) :
    R env (x.on env).2 := by
  induction h generalizing env with
  | pure a => exact hR.refl env
  | bindOf _ hP _ hx hf => exact hR.trans _ _ _ (hx env) (hf _ (hP env) _)
  | now => exact hR.refl env
  | log _ _ => exact hR.log _ env
  | count hf => exact hR.count _ (.inl hf) env
  | @attempt _ _ x f y event hx _ _ _ herror hok hy =>
    have hfirst := hx.steady hR env
    rw [on_bind, on_attempt]
    rcases hr : x.on env with ⟨e | a, env₁⟩
    · rw [hr] at hfirst
      rw [herror]
      have hcount := hR.count _ (.inr (.inl rfl)) env₁
      exact hR.trans _ _ _ hfirst
        (hR.trans _ _ _ (hR.trans _ _ _ hcount (hR.log (event e) _)) (hy e _))
    · rw [hr] at hfirst
      exact hR.trans _ _ _ hfirst (hok a env₁)

theorem Env.steady_frame (K : String → Prop) (C : (Metrics → Metrics) → Prop) :
    Env.Steady K C (Env.Frame K) where
  refl := .refl K
  trans _ _ _ := .trans
  log := GateM.touches_log
  count f _ := GateM.touches_count f
  get _ := StoreM.touches_get
  set _ hK value ttl := StoreM.touches_set hK value (some ttl)
  delete _ := StoreM.touches_delete

theorem StoreM.Uses.touches {x : StoreM α} (h : x.Uses K) : x.Touches K :=
  h.steady (Env.steady_frame K fun _ => False)

/-- An operation touches the keys that it calls the store on and no others. -/
theorem GateM.Uses.touches {x : GateM α} (h : x.Uses K C) : x.Touches K :=
  h.steady (Env.steady_frame K C)

/-- An operation moves its surroundings in some way. -/
def GateM.Moves (R : Env → Env → Prop) (x : GateM α) : Prop := ∀ env, R env (x.on env).2

/-- If all pieces move the surroundings in a way, what is put together does. -/
theorem GateM.closed_moves (hR : Env.Steady K C R) : Closed (GateM.Moves R) where
  pure _ := hR.refl
  bindOf hx hP hf env := hR.trans _ _ _ (hx env) (hf _ (hP env) _)
  now := hR.refl
  log _ _ := hR.log _

/-! ## Records -/

namespace Shelf

variable {s : Shelf} {name : String}

theorem uses_load [Binary α] (hK : K (s.key name)) : (s.load name : StoreM (Option α)).Uses K := by
  unfold load
  refine .bind (.get hK) fun v => ?_
  split
  · exact .pure none
  · split
    · exact .pure _
    · exact .bind (.log rfl rfl) fun _ => .bind (.delete hK) fun _ => .pure none

theorem uses_save [Binary α] (hK : K (s.key name)) (a : α) (ttl : Duration) :
    (s.save name a (some ttl)).Uses K :=
  .set hK _ ttl

theorem uses_remove (hK : K (s.key name)) : (s.remove name).Uses K := .delete hK

theorem uses_increment (hK : K (s.key name)) (ttl : Duration) : (s.increment name ttl).Uses K :=
  .bind .now fun _ => .bind (uses_load hK) fun _ => .bind (uses_save hK _ _) fun _ => .pure _

theorem uses_counter (hK : K (s.key name)) : (s.counter name).Uses K :=
  .bind .now fun _ => .bind (uses_load hK) fun _ => .pure _

end Shelf

end Turnstile
