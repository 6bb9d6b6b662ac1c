import Turnstile.Proofs.Circuit.History
import Turnstile.Proofs.Gate.Reports

/-!
# The announced probe

An open circuit announces an instant for its next probe, and whoever is refused is told to come back
then.  The circuit lets callers through after that instant, and not yet at it.  So a request that is
repeated at the announced instant is refused once more, and one that is repeated later is not
refused by the same circuit.

* `Circuit.fst_poll_iff`: whom a circuit lets through, in terms of what it announces.
* `Gate.Refuses`: a circuit refuses a request.
* `Gate.firstOpen_iff`: which of the circuits that are asked refuses.
* `Gate.through_after_announced`: a refused request that is repeated.
-/

set_option autoImplicit false

namespace Turnstile

open Circuit (Key seen)

namespace Circuit

variable {c : Circuit} {t : Thresholds} {probe : UInt64}

/-- **A circuit that announces a probe lets callers through after that instant**, and not before or
at it, even where the instant is the largest word. -/
theorem fst_poll_iff (h : c.nextProbe t = some probe) (now : UInt64) :
    (c.poll t now).1 = true ↔ probe < now := by
  unfold nextProbe at h
  split at h
  · rename_i hopen
    obtain ⟨opened, hopened, rfl⟩ := Option.map_eq_some_iff.mp h
    have hmax := toNat_le_max now
    rw [← Bool.not_eq_false, fst_poll_eq_false_iff]
    simp only [hopen, true_and, rested, hopened, Option.getD_some, Bool.not_eq_false,
      decide_eq_true_eq, UInt64.lt_iff_toNat_lt, toNat_satSub, toNat_satAdd]
    omega
  · cases h

/-- A record announces an instant for its next probe, and lets callers through after it. -/
structure Announces (c : Circuit) (t : Thresholds) (probe : UInt64) : Prop where
  nextProbe_eq : c.nextProbe t = some probe
  through_iff : ∀ now, (c.poll t now).1 = true ↔ probe < now

/-- A circuit that moves have opened announces a probe. -/
theorem exists_announces (hfailures : t.failures ≠ 0) (hsuccesses : t.successes ≠ 0)
    {moves : List Move} (hopen : (after t moves).state = .open) :
    ∃ probe, (after t moves).Announces t probe := by
  have hfail : 0 < t.failures.toNat := Nat.pos_of_ne_zero fun e => hfailures (UInt32.toNat.inj e)
  have hsucc : 0 < t.successes.toNat :=
    Nat.pos_of_ne_zero fun e => hsuccesses (UInt32.toNat.inj e)
  obtain ⟨_, _, hsome, _⟩ := (recounts_after hfail hsucc moves).open hopen
  obtain ⟨opened, hopened⟩ := Option.isSome_iff_exists.mp hsome
  have hprobe : (after t moves).nextProbe t = some (satAdd opened t.timeout) := by
    rw [nextProbe, hopen, hopened]
    rfl
  exact ⟨_, hprobe, fst_poll_iff hprobe⟩

end Circuit

namespace Gate

variable {pl : Plan} {g : Gate} {t : Tracker} {p : Policy} {key shut : Key} {env env' : Env}

/-! ## Asking the circuits -/

/-- **Which circuit refuses**: if no circuit before it is open, one refuses exactly when it does not
let a caller through. -/
theorem firstOpen_iff {b : Breaker} {before rest : List Key} (h : env.Healthy)
    (hnodup : ((before ++ shut :: rest).map fun k => b.shelf.key k.text).Nodup)
    (hbefore : ∀ k ∈ before, (seen env.now (env.slot (b.shelf.key k.text))).state ≠ .open) :
    ((firstOpen b (before ++ shut :: rest)).on env).1 = some shut ↔
      ((seen env.now (env.slot (b.shelf.key shut.text))).poll b.thresholds env.now).1 = false := by
  obtain ⟨env₁, hasked, h₁, hnow, hslot⟩ := firstOpen_append h hnodup hbefore
  rw [List.map_append, List.nodup_append] at hnodup
  rw [hasked, ← hnow, ← hslot shut List.mem_cons_self]
  refine ⟨fun hopen => ?_, firstOpen_of_shut rest h₁⟩
  exact (firstOpen_some_of_healthy h₁ hnodup.2.1 (Prod.ext hopen rfl)).2

/-! ## Refusals -/

/-- The circuit that refuses a request is the one with a key. -/
def Refuses (g : Gate) (key : Key) (t : Tracker) (p : Policy) (env : Env) : Prop :=
  ((firstOpen g.breaker (g.guards t p)).on env).1 = some key

instance (g : Gate) (key : Key) (t : Tracker) (p : Policy) (env : Env) :
    Decidable (g.Refuses key t p env) :=
  inferInstanceAs (Decidable (_ = _))

/-- What a circuit says that refuses a request: it is the probe that the circuit announces. -/
theorem fst_refuse (hg : g.Built pl) (h : env.Healthy) (hkey : key ∈ g.guards t p) (path : String) :
    ((g.refuse t path p key).on env).1 =
      refusal p env.now (((seen env.now (env.slot (g.breaker.shelf.key key.text))).nextProbe
        g.breaker.thresholds).getD (satAdd env.now g.breaker.thresholds.timeout)) := by
  have hf := touches_noted g t path env
  obtain ⟨env', hstatus, _⟩ := g.breaker.status_of_healthy (h.of_frame hf) key
  rw [hf.now_eq, slot_of_frame hg hkey hf] at hstatus
  rw [GateM.on_bind] at hf hstatus
  unfold refuse
  simp only [GateM.on_bind, GateM.on_now, GateM.on_pure, hf.now_eq, hstatus]
  rfl

/-- **A refused request that is repeated**, with nothing in between, is refused by the same circuit
exactly when that does not let a caller through by then. -/
theorem judge_of_refuses (hg : g.Built pl) (h : env.Healthy) (hrefuses : g.Refuses key t p env)
    (path : String) :
    ∃ env', (g.judge t path p).on env =
        (refusal p env.now (((seen env.now (env.slot (g.breaker.shelf.key key.text))).nextProbe
          g.breaker.thresholds).getD (satAdd env.now g.breaker.thresholds.timeout)), env') ∧
      ∀ later, env.now ≤ later → (g.Refuses key t p (env'.setClock later) ↔
        ((seen later (env.slot (g.breaker.shelf.key key.text))).poll
          g.breaker.thresholds later).1 = false) := by
  rcases hopen : (firstOpen g.breaker (g.guards t p)).on env with ⟨shut, env₁⟩
  have hshut : shut = some key := by rwa [Refuses, hopen] at hrefuses
  subst hshut
  obtain ⟨before, rest, hguards, -, hasked, hbefore⟩ :=
    firstOpen_split h (guards_nodup g t p) hopen
  have hkey : key ∈ g.guards t p := by simp [hguards]
  have hseen : seen env.now (env₁.slot (g.breaker.shelf.key key.text)) =
      seen env.now (env.slot (g.breaker.shelf.key key.text)) :=
    hasked.seen_eq _ (UInt64.le_refl _)
  refine ⟨((g.refuse t path p key).on env₁).2, ?_, fun later hlater => ?_⟩
  · unfold judge
    rw [GateM.on_bind, hopen]
    refine Prod.ext ?_ rfl
    show ((g.refuse t path p key).on env₁).1 = _
    rw [fst_refuse hg hasked.healthy hkey, hasked.now_eq, hseen]
  · have hlater₁ : env₁.now ≤ later := hasked.now_eq ▸ hlater
    have hrefused : ∀ k ∈ g.guards t p,
        g.breaker.Unmoved k env₁ ((g.refuse t path p key).on env₁).2 := fun k hk =>
      unmoved_refuse hg hasked.healthy hk path key
    have hnodup := guards_nodup g t p
    rw [hguards] at hnodup hrefused
    rw [Refuses, hguards, firstOpen_iff ((hrefused key (by simp)).healthy.setClock later) hnodup]
    · rw [Env.now_setClock, Env.slot_setClock, (hrefused key (by simp)).seen_eq later hlater₁,
        hasked.seen_eq later hlater]
    · intro k hk
      rw [Env.now_setClock, Env.slot_setClock,
        (hrefused k (List.mem_append_left _ hk)).seen_eq later hlater₁]
      exact hbefore k hk later hlater

/-! ## Who comes back -/

theorem record_setClock (h : env.Healthy) (b : Breaker) (key : Key) (now : UInt64) :
    (env.setClock now).record Circuit b.shelf key.text =
      recordIn Circuit now (env.slot (b.shelf.key key.text)) := by
  unfold Env.record Store.time
  rw [(h.setClock now).ownClock_eq]
  rfl

/-- A circuit whose record is there shuts callers out until the instant that it announces; after
that, and once the record has expired, it does not. -/
theorem fst_poll_seen_iff (h : env.Healthy) {b : Breaker} {c : Circuit} {probe : UInt64}
    (hc : env.record Circuit b.shelf key.text = some c) (hprobe : c.Announces b.thresholds probe)
    {later : UInt64} (hlater : env.now ≤ later) :
    ((seen later (env.slot (b.shelf.key key.text))).poll b.thresholds later).1 = false ↔
      later ≤ probe ∧ (env.setClock later).record Circuit b.shelf key.text ≠ none := by
  have hnow : recordIn Circuit env.now (env.slot (b.shelf.key key.text)) = some c :=
    (record_setClock h b key env.now).symm.trans hc
  rw [record_setClock h b key later, seen]
  rcases recordIn_later (α := Circuit) hlater (env.slot (b.shelf.key key.text)) with hthere | hgone
  · rw [hthere, hnow, Option.getD_some, ← Bool.not_eq_true, hprobe.through_iff later, UInt64.not_lt]
    simp
  · rw [hgone, Option.getD_none, Circuit.fst_poll_fresh]
    simp

/-- A circuit that refuses lets through after the instant that a refusal gives, whatever it is. -/
theorem fst_poll_of_nextProbe_lt {b : Breaker} {slot : Option Entry} {now later : UInt64}
    (hshut : ((seen now slot).poll b.thresholds now).1 = false)
    (hlater : ((seen now slot).nextProbe b.thresholds).getD (satAdd now b.thresholds.timeout) <
      later) :
    ((seen later slot).poll b.thresholds later).1 = true := by
  have hle : now ≤ later :=
    UInt64.le_of_lt (UInt64.lt_of_le_of_lt (Circuit.le_nextProbe hshut now) hlater)
  rcases Breaker.seen_later hle slot with heq | heq
  · rw [heq, ← Bool.not_eq_false]
    exact fun hshut' => UInt64.not_le.mpr hlater (Circuit.le_nextProbe hshut' now)
  · rw [heq, Circuit.fst_poll_fresh]

/-- Who waits for the seconds that a refusal names does not come before its instant. -/
theorem resetAt_le_of_retryAfter {now resetAt later secs : UInt64}
    (hsecs : secs ∈ (refusal p now resetAt).retryAfter)
    (hlater : later.toNat = now.toNat + 1000 * secs.toNat) : resetAt ≤ later := by
  obtain rfl := Option.some.inj hsecs
  rw [toNat_ceilSecs, toNat_satSub] at hlater
  rw [UInt64.le_iff_toNat_le]
  omega

/-- **Callers come through after the announced instant.**  Let both thresholds be greater than zero,
and let moves have opened a circuit.  It announces an instant for its next probe, and lets callers
through after that instant, and not yet at it.

With these thresholds let a gate be built, and on a store that does not fail let a request under one
of its policies be refused because a circuit is open.  Repeated after the instant that the decision
gives for the reset, with nothing in between, the request is not refused by that circuit, whatever
the store had.  If the moves have led to the record of the circuit, then the instant is the announced
one, and until then the circuit refuses again, the instant itself included, as long as the store has
the record.  So a caller who waits for as many seconds as the decision says is refused again exactly
when they end at the announced instant. -/
theorem through_after_announced (thresholds : Circuit.Thresholds)
    (hfailures : thresholds.failures ≠ 0) (hsuccesses : thresholds.successes ≠ 0)
    (moves : List Circuit.Move) (hopen : (Circuit.after thresholds moves).state = .open) :
    ∃ probe, (Circuit.after thresholds moves).Announces thresholds probe ∧
      ∀ (pl : Plan) (g : Gate) (built built' : Env), pl.build.on built = (.ok g, built') →
        g.breaker.thresholds = thresholds →
        ∀ (t : Tracker) (p : Policy), p ∈ pl.policies →
        ∀ (path : String) (env env' : Env) (d : Decision), env.Healthy →
          (g.request t path p.name).on env = (.ok d, env') → d.circuitOpen = true →
          ∃ key, g.Refuses key t p env ∧
            (∀ later, d.resetAt < later → ¬ g.Refuses key t p (env'.setClock later)) ∧
            (env.record Circuit g.breaker.shelf key.text = some (Circuit.after thresholds moves) →
              d.resetAt = probe ∧ ∀ later, env.now ≤ later →
                (g.Refuses key t p (env'.setClock later) ↔ later ≤ probe ∧
                  (env.setClock later).record Circuit g.breaker.shelf key.text ≠ none) ∧
                ∀ secs ∈ d.retryAfter, later.toNat = env.now.toNat + 1000 * secs.toNat →
                  (g.Refuses key t p (env'.setClock later) ↔ later = probe ∧
                    (env.setClock later).record Circuit g.breaker.shelf key.text ≠ none)) := by
  obtain ⟨probe, hprobe⟩ := Circuit.exists_announces hfailures hsuccesses hopen
  refine ⟨probe, hprobe, ?_⟩
  rintro pl g built built' hbuild rfl t p hp path env env' d h hrequest hdenied
  have hg := Plan.built_of_build hbuild
  simp only [request, withPolicy, hg.policy_of_mem hp, GateM.on_bind, GateM.on_pure] at hrequest
  obtain ⟨hd, rfl⟩ := Prod.mk.inj hrequest
  obtain rfl := Except.ok.inj hd
  obtain ⟨key, hrefuses⟩ := Option.ne_none_iff_exists'.mp
    ((circuitOpen_judge_iff g t path p env).mp hdenied)
  obtain ⟨env₁, hjudge, hagain⟩ := judge_of_refuses hg h hrefuses path
  obtain ⟨_, hshut⟩ := firstOpen_some_of_healthy h (guards_nodup g t p) (Prod.ext hrefuses rfl)
  rw [hjudge]
  refine ⟨key, hrefuses, fun later hlater hrefuses' => ?_, fun hrecord => ?_⟩
  · have hle : env.now ≤ later :=
      UInt64.le_of_lt (UInt64.lt_of_le_of_lt (Circuit.le_nextProbe hshut env.now) hlater)
    have hshut' := (hagain later hle).mp hrefuses'
    rw [fst_poll_of_nextProbe_lt hshut hlater] at hshut'
    cases hshut'
  · have hc : seen env.now (env.slot (g.breaker.shelf.key key.text)) =
        Circuit.after g.breaker.thresholds moves := by
      rw [seen, ← record_setClock h]
      exact congrArg (Option.getD · .fresh) hrecord
    simp only [hc, hprobe.nextProbe_eq, Option.getD_some]
    refine ⟨rfl, fun later hlater => ?_⟩
    have hiff := (hagain later hlater).trans (fst_poll_seen_iff h hrecord hprobe hlater)
    refine ⟨hiff, fun secs hsecs hwaited => hiff.trans ?_⟩
    have hreset := resetAt_le_of_retryAfter hsecs hwaited
    exact and_congr_left fun _ => ⟨fun hle => UInt64.le_antisymm hle hreset, UInt64.le_of_eq⟩

/-- One failure, one success, five seconds. -/
def oneFailure : Circuit.Settings := ⟨1, 1, .ofMillis 5000⟩

/-- A gate with one circuit for each tracker, which one failure opens. -/
def tripwire : Gate := (Plan.twoPerSecond oneFailure .perTracker).validGate

/-- The empty store at the start of the clock, after a failure of a tracker has been reported. -/
def afterFailure : Env := ((tripwire.report (.user "alice") false).on (.start 0 (.empty none))).2

/-- What the tracker's next request is told, and what it leaves. -/
def toldAfterFailure : Except AdmissionError Decision × Env :=
  (tripwire.request (.user "alice") "/" "login").on afterFailure

/-- The circuit refuses the tracker again before the five seconds are over, and lets it through once
they have passed. -/
theorem through_after_fiveSeconds :
    (Circuit.after oneFailure.thresholds [.fail 0]).Announces oneFailure.thresholds 5000 ∧
    tripwire.Refuses (.ofTracker (.user "alice")) (.user "alice") (.twoPerSecond .fixedWindow)
      (toldAfterFailure.2.setClock 4000) ∧
    ∀ later, 5000 < later → ¬ tripwire.Refuses (.ofTracker (.user "alice")) (.user "alice")
      (.twoPerSecond .fixedWindow) (toldAfterFailure.2.setClock later) := by
  obtain ⟨probe, hprobe, hgates⟩ := through_after_announced oneFailure.thresholds (by decide)
    (by decide) [.fail 0] (by decide)
  have hfive : probe = 5000 := Option.some.inj (hprobe.nextProbe_eq.symm.trans rfl)
  obtain ⟨_, hbuild⟩ := Plan.build_twoPerSecond oneFailure rfl .perTracker (.start 0 (.empty none))
  have htold : toldAfterFailure.1 = .ok (refusal (.twoPerSecond .fixedWindow) 0 5000) := by
    decide +kernel
  have hhealthy : afterFailure.Healthy := by
    obtain ⟨_, hreport, hput⟩ := tripwire.breaker.record_of_healthy (Env.healthy_start 0)
      (.ofTracker (.user "alice")) false
    rw [afterFailure, report, hreport]
    exact hput.healthy (Env.healthy_start 0)
  obtain ⟨key, hrefuses, hafter, hmoves⟩ := hgates (.twoPerSecond oneFailure .perTracker) tripwire _ _
    hbuild rfl (.user "alice") (.twoPerSecond .fixedWindow) List.mem_cons_self "/" afterFailure
    toldAfterFailure.2 _ hhealthy (Prod.ext htold rfl) rfl
  have hkey : tripwire.Refuses (.ofTracker (.user "alice")) (.user "alice")
      (.twoPerSecond .fixedWindow) afterFailure := by
    decide +kernel
  obtain rfl := Option.some.inj (hrefuses.symm.trans hkey)
  have hrecord : afterFailure.record Circuit tripwire.breaker.shelf
      (Key.ofTracker (.user "alice")).text =
        some (Circuit.after oneFailure.thresholds [.fail 0]) := by
    decide +kernel
  obtain ⟨-, huntil⟩ := hmoves hrecord
  subst hfive
  exact ⟨hprobe, (huntil 4000 (by decide +kernel)).1.mpr ⟨by decide, by decide +kernel⟩, hafter⟩

/-- The circuit that a failure at the start of the clock opens announces a probe at five seconds, and
refuses it.  The tracker is told to come back in five seconds, does so, and is refused again. -/
theorem refused_at_fiveSeconds :
    ((Circuit.after oneFailure.thresholds [.fail 0]).state = .open ∧
      (Circuit.after oneFailure.thresholds [.fail 0]).nextProbe oneFailure.thresholds = some 5000 ∧
      ((Circuit.after oneFailure.thresholds [.fail 0]).poll oneFailure.thresholds 5000).1 =
        false) ∧
    (∃ env, (Plan.twoPerSecond oneFailure .perTracker).build.on (.start 0 (.empty none)) =
      (.ok tripwire, env)) ∧
    (∃ d, toldAfterFailure.1 = .ok d ∧ d.circuitOpen = true ∧ d.resetAt = 5000 ∧
      d.retryAfter = some 5) ∧
    tripwire.Refuses (.ofTracker (.user "alice")) (.user "alice") (.twoPerSecond .fixedWindow)
      (toldAfterFailure.2.setClock 5000) ∧
    refusing ((tripwire.request (.user "alice") "/" "login").on
      (toldAfterFailure.2.setClock 5000)).1 = true := by
  have htold : toldAfterFailure.1 = .ok (refusal (.twoPerSecond .fixedWindow) 0 5000) := by
    decide +kernel
  exact ⟨by decide, Plan.build_twoPerSecond oneFailure rfl .perTracker _,
    ⟨_, htold, rfl, rfl, by decide⟩, by decide +kernel, by decide +kernel⟩

end Gate

end Turnstile
