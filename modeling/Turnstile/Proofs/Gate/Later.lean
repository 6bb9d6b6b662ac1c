import Turnstile.Proofs.Gate.Apart
import Turnstile.Proofs.Gate.Handles
import Turnstile.Proofs.Gate.Watched

/-!
# Decisions at a later time

Where on the clock a gate starts makes no difference to what it decides: if all steps of a run are
later by some span, then all decisions are the same, but for the instants that they announce, which
are later by the span.  A clock that is still younger than a window or than the recovery time is no
exception.  At its other end instants stop at the largest word, so the run must stay away from there
for as long as anything lasts.

* `Decision.later`, `Gate.Answer.later`, `Gate.Step.later`: decisions, answers and steps, moved.
* `Gate.Roomy`: an instant that is moved leaves room for everything that lasts.
* `Gate.coupled_tryAdmits`, `Gate.coupled_check`, `Gate.coupled_judge`, `Gate.coupled_perform`: the
  circuits, the quotas, requests and all actions.
* `Gate.answers_later`: a run and the run that is later.
-/

set_option autoImplicit false

namespace Turnstile

open Circuit (Key)

/-- A decision that is made later. -/
def Decision.later (d : UInt64) (x : Decision) : Decision := { x with resetAt := x.resetAt + d }

namespace Gate

/-- An answer that is given later. -/
def Answer.later (d : UInt64) : Answer → Answer
  | .decision x => .decision (x.later d)
  | .status s => .status (s.later d)
  | a => a

def Step.later (d : UInt64) (s : Step) : Step := { s with now := s.now + d }

/-- From an instant that is moved on, there is room for all spans of the settings. -/
def Roomy (g : Gate) (d now : UInt64) : Prop :=
  ∀ n ∈ g.spans, now.toNat + d.toNat + n < wordCount

variable {α : Type} {g : Gate} {pl : Plan} {d now : UInt64} {t : Tracker} {p : Policy} {key : Key}

/-! ## Room -/

namespace Roomy

variable (hroom : g.Roomy d now)

include hroom

theorem instant : now.toNat + d.toNat < wordCount :=
  Nat.lt_of_le_of_lt (Nat.le_add_right _ _) (hroom _ g.recordTtl_mem_spans)

theorem window (hp : p ∈ g.policies.policies) :
    now.toNat + d.toNat + p.window.toNat < wordCount := by
  have h := hroom _ (window_mem_spans hp)
  omega

/-- The recovery time is shorter than the time for which circuits are kept. -/
theorem timeout : now.toNat + d.toNat + g.breaker.thresholds.timeout.toNat < wordCount := by
  have h := hroom _ g.recordTtl_mem_spans
  have hle : g.breaker.settings.recovery.wholeMillis ≤ g.breaker.settings.recordTtl.wholeMillis := by
    have hnanos := g.breaker.settings.recovery.nanos_lt
    refine Nat.div_le_div_right (Nat.le_min.mpr ⟨?_, ?_⟩) <;> omega
  have htimeout : g.breaker.thresholds.timeout.toNat ≤ g.breaker.settings.recovery.wholeMillis := by
    rw [Breaker.thresholds, Circuit.Settings.thresholds, Duration.millis, toNat_wordOfNat]
    omega
  omega

/-- Whatever decisions are made from is written with a deadline that can be moved. -/
theorem written {h : Holding} (hh : h.Decides) {read : Option h.Record} {a : h.Record}
    {ttl : Duration} (hw : g.Writes now h read a ttl) (hread : ∀ r ∈ read, h.Timely now r) :
    now.toNat + d.toNat + ttl.millis.toNat < wordCount := by
  obtain ⟨n, hn, hle⟩ := spanned_of_writes (UInt64.le_refl now) hh hw hread
  have h := hroom n hn
  omega

end Roomy

/-! ## The breaker -/

section Breaker

open StoreM

variable (hg : g.Built pl) (hroom : g.Roomy d now) (hkey : Holding.circuit.Named key.text)

include hg hroom hkey

theorem coupled_circuit :
    Coupled (Abreast ⟨pl.label⟩ d now) (fun c c' => c' = c.later d ∧ c.Settled now)
      (g.breaker.load key) (g.breaker.load key) := by
  unfold Breaker.load
  rw [hg.breaker_eq]
  refine .bind (coupled_load (h := .circuit) (by decide) hkey hroom.instant) ?_
  rintro read _ ⟨rfl, hsound⟩
  cases read with
  | none => exact .pure ⟨rfl, Circuit.settled_fresh now⟩
  | some c => exact .pure ⟨rfl, hsound c rfl⟩

theorem coupled_saveCircuit {c : Circuit} (hc : c.Settled now) :
    Coupled (Abreast ⟨pl.label⟩ d now) (fun _ _ => True) (g.breaker.save key c)
      (g.breaker.save key (c.later d)) := by
  have hlasts := hroom.written (by decide) (.circuit none c) nofun
  unfold Breaker.save
  rw [hg.breaker_eq] at hlasts ⊢
  exact coupled_save (h := .circuit) (by decide) hkey hc hlasts

theorem coupled_tryAdmits :
    Coupled (Abreast ⟨pl.label⟩ d now) Eq (g.breaker.tryAdmits key)
      (g.breaker.tryAdmits key) := by
  refine .bind (coupled_circuit hg hroom hkey) ?_
  rintro c _ ⟨rfl, hsettled⟩
  refine .bind (.lift coupled_now) ?_
  rintro _ _ ⟨rfl, rfl⟩
  rw [Circuit.poll_later hsettled hroom.instant]
  have hpoll : (c.poll g.breaker.thresholds now).2.Settled now := Circuit.settled_poll hsettled
  generalize c.poll g.breaker.thresholds now = polled at hpoll
  obtain ⟨through, c'⟩ := polled
  show Coupled _ _ (if c'.state = c.state then _ else _) (if c'.state = c.state then _ else _)
  by_cases hstate : c'.state = c.state
  · rw [if_pos hstate, if_pos hstate]
    exact .pure rfl
  · rw [if_neg hstate, if_neg hstate]
    exact .bind (coupled_saveCircuit hg hroom hkey hpoll) fun _ _ _ =>
      .bind (.lift (coupled_log _ _)) fun _ _ _ => .pure rfl

theorem coupled_advance {c c' : Circuit} (hc' : c'.Settled now) (event : Option Event) :
    Coupled (Abreast ⟨pl.label⟩ d now) (fun _ _ => True) (g.breaker.advance key c c' event)
      (g.breaker.advance key (c.later d) (c'.later d) event) := by
  unfold Breaker.advance
  by_cases hsame : c' = c
  · rw [if_pos hsame, if_pos (Circuit.later_inj.mpr hsame)]
    exact .pure trivial
  · rw [if_neg hsame, if_neg (Circuit.later_inj.not.mpr hsame)]
    refine .bind (coupled_saveCircuit hg hroom hkey hc') fun _ _ _ => ?_
    cases event with
    | none => exact .pure trivial
    | some e => exact .lift (coupled_log e e)

theorem coupled_trySuccess :
    Coupled (Abreast ⟨pl.label⟩ d now) (fun _ _ => True) (g.breaker.trySuccess key)
      (g.breaker.trySuccess key) := by
  refine .bind (coupled_circuit hg hroom hkey) ?_
  rintro c _ ⟨rfl, hsettled⟩
  rw [Circuit.succeed_later]
  exact coupled_advance hg hroom hkey (Circuit.settled_succeed hsettled) _

theorem coupled_tryFailure :
    Coupled (Abreast ⟨pl.label⟩ d now) (fun _ _ => True) (g.breaker.tryFailure key)
      (g.breaker.tryFailure key) := by
  refine .bind (coupled_circuit hg hroom hkey) ?_
  rintro c _ ⟨rfl, hsettled⟩
  refine .bind (.lift coupled_now) ?_
  rintro _ _ ⟨rfl, rfl⟩
  rw [Circuit.fail_later]
  exact coupled_advance hg hroom hkey (Circuit.settled_fail hsettled) _

theorem coupled_admits :
    GateM.Coupled (Abreast ⟨pl.label⟩ d now) Eq (g.breaker.admits key)
      (g.breaker.admits key) :=
  (coupled_tryAdmits hg hroom hkey).attempt fun _ _ h => .pure h

theorem coupled_record (succeeded : Bool) :
    GateM.Coupled (Abreast ⟨pl.label⟩ d now) (fun _ _ => True) (g.breaker.record key succeeded)
      (g.breaker.record key succeeded) := by
  cases succeeded with
  | true => exact (coupled_trySuccess hg hroom hkey).attempt fun _ _ _ => .pure trivial
  | false => exact (coupled_tryFailure hg hroom hkey).attempt fun _ _ _ => .pure trivial

/-- A circuit is seen as it is later, and the probe that it announces can be moved. -/
theorem coupled_status :
    GateM.Coupled (Abreast ⟨pl.label⟩ d now)
      (fun s s' => s' = s.later d ∧ ∀ probe ∈ s.nextProbe, probe.toNat + d.toNat < wordCount)
      (g.breaker.status key) (g.breaker.status key) := by
  refine (coupled_circuit hg hroom hkey).attempt ?_
  rintro c _ ⟨rfl, hsettled⟩
  exact .pure ⟨Breaker.statusOf_later key hsettled hroom.timeout,
    fun probe hprobe => Circuit.nextProbe_room hsettled hroom.timeout hprobe⟩

omit hroom hkey in
theorem coupled_reset (key : Key) :
    GateM.Coupled (Abreast ⟨pl.label⟩ d now) (fun _ _ => True) (g.breaker.reset key)
      (g.breaker.reset key) := by
  have hremove : Coupled (Abreast ⟨pl.label⟩ d now) (fun _ _ => True)
      (g.breaker.shelf.remove key.text) (g.breaker.shelf.remove key.text) := by
    rw [hg.breaker_eq]
    exact coupled_remove key.text
  exact (hremove.bind fun _ _ _ => .lift (coupled_log _ _)).attempt fun _ _ _ => .pure trivial

end Breaker

/-! ## The limiter -/

section Limiter

open StoreM Limiter

variable (hg : g.Built pl) (hroom : g.Roomy d now) (hp : p ∈ g.policies.policies) (t : Tracker)

include hg hroom

theorem coupled_activeBlock (p : Policy) :
    Coupled (Abreast ⟨pl.label⟩ d now)
      (fun b b' => b' = b.map (Block.later d) ∧ ∀ x ∈ b, x.endsAt.toNat + d.toNat < wordCount)
      (g.limiter.activeBlock t p now) (g.limiter.activeBlock t p (now + d)) := by
  unfold activeBlock
  rw [hg.limiter_eq]
  cases p.block with
  | none => exact .pure ⟨rfl, nofun⟩
  | some length =>
    refine .bind (coupled_load (h := .block) (by decide) (named_block t p) hroom.instant) ?_
    rintro read _ ⟨rfl, hsound⟩
    cases read with
    | none => exact .pure ⟨rfl, nofun⟩
    | some b =>
      have hb : b.endsAt.toNat + d.toNat < wordCount := hsound b rfl
      refine .pure ⟨?_, fun x hx => ?_⟩
      · show Option.filter _ (some (b.later d)) = _
        rw [Option.filter_some, Option.filter_some, Block.active_later hb hroom.instant]
        split <;> rfl
      · cases (Option.mem_filter_iff.mp hx).1
        exact hb

include hp

theorem coupled_checkFixed :
    Coupled (Abreast ⟨pl.label⟩ d now) (fun v v' => v' = v.later d) (g.limiter.checkFixed t p now)
      (g.limiter.checkFixed t p (now + d)) := by
  unfold checkFixed
  rw [hg.limiter_eq]
  refine .bind (coupled_load (h := .window) (by decide) (named_window t p) hroom.instant) ?_
  rintro read _ ⟨rfl, hstart⟩
  have hwindow := hroom.window hp
  have hnext : (WindowCounter.next read p now).start ≤ now :=
    WindowCounter.start_next_le (UInt64.le_refl now) hstart
  obtain ⟨hend, hlt⟩ := Policy.windowEnd_later hwindow hnext
  have hlasts := hroom.written (by decide) (.window hp read) hstart
  have httl : satSub (((WindowCounter.next read p now).later d).resetAt p) (now + d) =
      satSub ((WindowCounter.next read p now).resetAt p) now := by
    refine (congrArg (satSub · (now + d)) hend).trans ?_
    exact satSub_add_add hlt hroom.instant
  rw [show read.map (Holding.window.later d) = read.map (WindowCounter.later d) from rfl,
    WindowCounter.register_later hwindow hstart]
  refine .bind (R := fun _ _ => True) ?_ fun _ _ _ => .pure rfl
  show Coupled _ _ _ (Shelf.save _ _ _
    (some (.ofMillis (satSub (((WindowCounter.next read p now).later d).resetAt p) (now + d)))))
  rw [httl]
  exact coupled_save (h := .window) (by decide) (named_window t p) hnext hlasts

theorem coupled_checkSliding :
    Coupled (Abreast ⟨pl.label⟩ d now) (fun v v' => v' = v.later d)
      (g.limiter.checkSliding t p now) (g.limiter.checkSliding t p (now + d)) := by
  unfold checkSliding
  rw [hg.limiter_eq]
  refine .bind (coupled_load (h := .log) (by decide) (named_window t p) hroom.instant) ?_
  rintro read _ ⟨rfl, htimes⟩
  have hread : (read.map (Holding.log.later d)).getD .empty = (read.getD .empty).later d := by
    cases read <;> rfl
  have hlasts := hroom.written (by decide) (.log hp read) htimes
  have htimes := SlidingLog.times_getD_le htimes
  rw [hread, SlidingLog.register_later (hroom.window hp) htimes]
  exact .bind (coupled_save (h := .log) (by decide) (named_window t p)
    (SlidingLog.times_next_le (UInt64.le_refl now) htimes) hlasts) fun _ _ _ => .pure rfl

theorem coupled_penalise (o : Outcome) :
    Coupled (Abreast ⟨pl.label⟩ d now) (fun o o' => o' = o.later d) (g.limiter.penalise t p now o)
      (g.limiter.penalise t p (now + d) (o.later d)) := by
  unfold penalise
  rw [hg.limiter_eq]
  cases hblock : p.block with
  | none => exact .pure rfl
  | some length =>
    have hlasts := hroom _ (block_mem_spans hp hblock)
    have hends : (satAdd now length).toNat + d.toNat < wordCount := by
      rw [toNat_satAdd]
      omega
    have hmillis := hroom.written (by decide) (.block hp hblock none) nofun
    dsimp only
    rw [satAdd_add hlasts]
    exact .bind (coupled_save (h := .block) (by decide) (named_block t p)
      (a := ⟨satAdd now length⟩) hends hmillis) fun _ _ _ => .pure (penalised_later o _ length)

theorem coupled_tryCheck :
    Coupled (Abreast ⟨pl.label⟩ d now) (fun o o' => o' = o.later d) (g.limiter.tryCheck t p)
      (g.limiter.tryCheck t p) := by
  refine .bind (.lift coupled_now) ?_
  rintro _ _ ⟨rfl, rfl⟩
  refine .bind (coupled_activeBlock hg hroom t p) ?_
  rintro b _ ⟨rfl, hends⟩
  cases b with
  | some b => exact .pure (blockedOutcome_later (hends b rfl) hroom.instant)
  | none =>
    have hwindow : Coupled (Abreast ⟨pl.label⟩ d now) (fun v v' => v' = v.later d)
        (g.limiter.checkWindow t p now) (g.limiter.checkWindow t p (now + d)) := by
      unfold checkWindow
      cases p.algorithm with
      | fixedWindow => exact coupled_checkFixed hg hroom hp t
      | slidingWindow => exact coupled_checkSliding hg hroom hp t
    refine .bind hwindow ?_
    rintro v _ rfl
    show Coupled _ _ (if v.allowed then _ else _) (if v.allowed then _ else _)
    cases v.allowed with
    | true => exact .pure (windowOutcome_later v)
    | false =>
      refine .bind (coupled_penalise hg hroom hp t _) ?_
      rintro o _ rfl
      exact .bind (.lift (coupled_log _ _)) fun _ _ _ => .pure rfl

/-- **A quota decides the same later.** -/
theorem coupled_check :
    GateM.Coupled (Abreast ⟨pl.label⟩ d now) (fun o o' => o' = o.later d) (g.limiter.check t p)
      (g.limiter.check t p) :=
  (coupled_tryCheck hg hroom hp t).attempt fun _ _ h => .pure h

end Limiter

/-! ## Requests -/

section Requests

open GateM

variable (hg : g.Built pl) (hroom : g.Roomy d now)

include hg

/-- What the monitor is told goes unseen. -/
theorem coupled_monitor {x : GateM α} (hx : x.Touches (g.monitor.shelf.Under "vm:")) :
    Coupled (Abreast ⟨pl.label⟩ d now) (fun _ _ => True) x x := by
  rw [hg.monitor_eq] at hx
  exact coupled_unseen hx hx

include hroom

theorem coupled_firstOpen {keys : List Key} (hkeys : ∀ k ∈ keys, Holding.circuit.Named k.text) :
    Coupled (Abreast ⟨pl.label⟩ d now)
      (fun shut shut' => shut = shut' ∧ ∀ k ∈ shut, Holding.circuit.Named k.text)
      (firstOpen g.breaker keys) (firstOpen g.breaker keys) := by
  induction keys with
  | nil => exact .pure ⟨rfl, nofun⟩
  | cons k keys ih =>
    obtain ⟨hk, hkeys⟩ := List.forall_mem_cons.mp hkeys
    refine .bind (coupled_admits hg hroom hk) ?_
    rintro through _ rfl
    cases through with
    | true => exact ih hkeys
    | false =>
      refine .pure ⟨rfl, fun k' hk' => ?_⟩
      cases hk'
      exact hk

theorem coupled_refuse (hkey : Holding.circuit.Named key.text) (t : Tracker) (path : String)
    (p : Policy) :
    Coupled (Abreast ⟨pl.label⟩ d now) (fun x x' => x' = x.later d) (g.refuse t path p key)
      (g.refuse t path p key) := by
  refine .bind (coupled_count _) fun _ _ _ =>
    .bind (coupled_monitor hg (Monitor.touches_recordOutcome _ _ path false)) fun _ _ _ =>
      .bind coupled_now ?_
  rintro _ _ ⟨rfl, rfl⟩
  refine .bind (coupled_status hg hroom hkey) ?_
  rintro s _ ⟨rfl, hprobe⟩
  refine .bind (coupled_log _ _) fun _ _ _ => .pure ?_
  -- the circuit announces a probe, or one is announced for it
  have hreset : ∃ reset, s.nextProbe.getD (satAdd now g.breaker.thresholds.timeout) = reset ∧
      (s.later d).nextProbe.getD (satAdd (now + d) g.breaker.thresholds.timeout) = reset + d ∧
      reset.toNat + d.toNat < wordCount := by
    have htimeout := hroom.timeout
    unfold Circuit.Status.later
    cases hs : s.nextProbe with
    | some probe => exact ⟨probe, rfl, rfl, hprobe probe hs⟩
    | none =>
      refine ⟨_, rfl, satAdd_add htimeout, ?_⟩
      rw [Option.getD_none, toNat_satAdd]
      omega
  obtain ⟨reset, hreset, hlater, hlt⟩ := hreset
  rw [hreset, hlater]
  simp only [refusal, Decision.later, satSub_add_add hlt hroom.instant]

variable (hp : p ∈ g.policies.policies)

include hp

theorem coupled_settle (t : Tracker) (path : String) (o : Outcome) :
    Coupled (Abreast ⟨pl.label⟩ d now) (fun _ _ => True) (g.settle t path p o)
      (g.settle t path p (o.later d)) := by
  have hcircuit := named_policyCircuit hp t
  unfold settle
  show Coupled _ _ (if o.allowed then _ else _) (if o.allowed then _ else _)
  cases o.allowed with
  | true =>
    exact .bind (coupled_count _) fun _ _ _ => coupled_record hg hroom hcircuit true
  | false =>
    exact .bind (coupled_count _) fun _ _ _ =>
      .bind (coupled_monitor hg (Monitor.touches_recordViolation _ _ path _)) fun _ _ _ =>
        coupled_record hg hroom hcircuit false

/-- **A request is decided the same later.** -/
theorem coupled_judge (t : Tracker) (path : String) :
    Coupled (Abreast ⟨pl.label⟩ d now) (fun x x' => x' = x.later d) (g.judge t path p)
      (g.judge t path p) := by
  refine .bind (coupled_firstOpen hg hroom fun k hk => named_of_mem_guards hp hk) ?_
  rintro shut _ ⟨rfl, hnamed⟩
  cases shut with
  | some k => exact coupled_refuse hg hroom (hnamed k rfl) t path p
  | none =>
    refine .bind (coupled_check hg hroom hp t) ?_
    rintro o _ rfl
    exact .bind (coupled_monitor hg (Monitor.touches_recordOutcome _ _ path o.allowed)) fun _ _ _ =>
      .bind (coupled_settle hg hroom hp t path o) fun _ _ _ => .pure rfl

end Requests

/-! ## Everything that is asked -/

section Actions

open GateM

variable (hg : g.Built pl) (hroom : g.Roomy d now)

include hg

theorem coupled_resetAll (keys : List Key) :
    Coupled (Abreast ⟨pl.label⟩ d now) (fun _ _ => True) (resetAll g.breaker keys)
      (resetAll g.breaker keys) := by
  induction keys with
  | nil => exact .pure trivial
  | cons k keys ih => exact .bind (coupled_reset hg k) fun _ _ _ => ih

include hroom

theorem coupled_someOpen {keys : List Key} (hkeys : ∀ k ∈ keys, Holding.circuit.Named k.text) :
    Coupled (Abreast ⟨pl.label⟩ d now) Eq (someOpen g.breaker keys)
      (someOpen g.breaker keys) := by
  induction keys with
  | nil => exact .pure rfl
  | cons k keys ih =>
    obtain ⟨hk, hkeys⟩ := List.forall_mem_cons.mp hkeys
    refine .bind (coupled_status hg hroom hk) ?_
    rintro s _ ⟨rfl, _⟩
    show Coupled _ _ (if s.circuit.state = .open then _ else _)
      (if s.circuit.state = .open then _ else _)
    split
    · exact .pure rfl
    · exact ih hkeys

omit hg hroom in
/-- What is asked under the name of a policy. -/
theorem coupled_withPolicy {Rel : Env → Env → Prop} {name : String} {f : Policy → GateM α}
    {answer : α → Answer}
    (hf : ∀ p ∈ g.policies.policies, Coupled Rel (fun a a' => answer a' = (answer a).later d) (f p)
      (f p)) :
    Coupled Rel (fun a a' => a' = a.later d)
      (g.withPolicy name f >>= fun r => pure (Answer.ofExcept answer r))
      (g.withPolicy name f >>= fun r => pure (Answer.ofExcept answer r)) := by
  unfold withPolicy Gate.policy
  cases hp : g.policies.get? name with
  | none => exact .pure rfl
  | some p =>
    simp only [bind_assoc, pure_bind]
    exact .bind (hf p (List.mem_of_find?_eq_some hp)) fun _ _ h => .pure h

/-- **Everything is answered the same later**, questions to the monitor apart. -/
theorem coupled_perform {a : Action} (ha : a.watches = false) :
    Coupled (Abreast ⟨pl.label⟩ d now) (fun x x' => x' = x.later d) (g.perform a)
      (g.perform a) := by
  have htracker (t : Tracker) : Holding.circuit.Named (Key.ofTracker t).text :=
    named_of_owns (g := g) (.inl rfl)
  cases a with
  | request t path policy =>
    exact coupled_withPolicy fun p hp =>
      (coupled_judge hg hroom hp t path).mono fun _ _ h => congrArg Answer.decision h
  | report t succeeded =>
    exact .bind (coupled_record hg hroom (htracker t) succeeded) fun _ _ _ => .pure rfl
  | reportFor t policy succeeded =>
    exact coupled_withPolicy fun p hp =>
      (coupled_record hg hroom (named_policyCircuit hp t) succeeded).mono fun _ _ _ => rfl
  | resetCircuits t => exact .bind (coupled_resetAll hg _) fun _ _ _ => .pure rfl
  | statusOf t =>
    exact .bind (coupled_status hg hroom (htracker t)) fun _ _ h => .pure (h.1 ▸ rfl)
  | statusFor t policy =>
    exact coupled_withPolicy fun p hp =>
      (coupled_status hg hroom (named_policyCircuit hp t)).mono fun _ _ h => h.1 ▸ rfl
  | anyOpen t =>
    exact .bind (coupled_someOpen hg hroom fun k hk => named_of_owns (owns_of_mem_circuits hk))
      fun _ _ h => .pure (h ▸ rfl)
  | stats | top | onPath => cases ha

end Actions

/-! ## Steps -/

variable {env env' : Env} {st : Step} {run : List Step}

/-- **A step is answered the same later**, and leaves surroundings that are apart. -/
theorem take_later (hg : g.Built pl) (hst : st.Healthy) (hroom : g.Roomy d st.now)
    (hle : now ≤ st.now) (hapart : Apart ⟨pl.label⟩ d now env env') :
    (st.action.watches = false →
      ((g.take (st.later d)).on env').1 = ((g.take st).on env).1.later d) ∧
      Apart ⟨pl.label⟩ d st.now ((g.take st).on env).2 ((g.take (st.later d)).on env').2 := by
  have habreast : Abreast ⟨pl.label⟩ d st.now (st.env env) ((st.later d).env env') := by
    have hapart := hapart.mono hle
    exact ⟨⟨st.healthy_env hst hapart.healthy, (st.later d).healthy_env ⟨hst.1, hst.2⟩
      hapart.healthy', hapart.slot⟩, rfl, rfl⟩
  cases hwatches : st.action.watches with
  | false =>
    obtain ⟨hanswer, hafter⟩ := coupled_perform hg hroom hwatches _ _ habreast
    exact ⟨fun _ => hanswer, hafter.apart⟩
  | true =>
    have htouches : (g.perform st.action).Touches (g.monitor.shelf.Under "vm:") :=
      GateM.touches_mono (uses_perform_of_watches g g.monitor.settings hwatches).touches
        fun _ => not_not.mp
    obtain ⟨_, hafter⟩ := coupled_monitor hg htouches _ _ habreast
    exact ⟨nofun, hafter.apart⟩

/-! ## Runs -/

/-- A run in one of two surroundings that are apart, and in the other one the run that is later. -/
theorem unwatched_later (hg : g.Built pl) (hhealthy : ∀ st ∈ run, st.Healthy)
    (hrun : (now :: run.map Step.now).Pairwise (· ≤ ·)) (hroom : ∀ st ∈ run, g.Roomy d st.now)
    (hapart : Apart ⟨pl.label⟩ d now env env') :
    g.unwatched (run.map (Step.later d)) env' = (g.unwatched run env).map (Answer.later d) := by
  induction run generalizing now env env' with
  | nil => rfl
  | cons st run ih =>
    obtain ⟨hle, hrest⟩ := List.pairwise_cons.mp hrun
    obtain ⟨hst, hhealthy⟩ := List.forall_mem_cons.mp hhealthy
    obtain ⟨hroomy, hroom⟩ := List.forall_mem_cons.mp hroom
    obtain ⟨hanswer, hafter⟩ := take_later hg hst hroomy (hle st.now List.mem_cons_self) hapart
    rw [List.map_cons, unwatched_cons, unwatched_cons, ih hhealthy hrest hroom hafter]
    show (if st.action.watches then _ else _) = _
    cases hwatches : st.action.watches with
    | true => rfl
    | false => exact congrArg₂ List.cons (hanswer hwatches) rfl

/-- **Decisions do not depend on where the clock stands.**  Let a gate be built, and let the store
be healthy and have nothing under the gate's label.  In a run whose clock does not fall let every
step be later by a span, and let there be room for everything that lasts: from no instant of the
later run on may twice the recovery time, the length of a window with a second more, or that of a
block reach past the largest word.  Then all requests, reports, resets and questions about circuits
are answered as before, with the instants that are announced later by the span. -/
theorem answers_later (pl : Plan) (g : Gate) (built built' : Env)
    (hbuild : pl.build.on built = (.ok g, built')) (env : Env) (henv : env.Healthy)
    (hfresh : ∀ name, env.slot (Shelf.key ⟨pl.label⟩ name) = none) (run : List Step)
    (hhealthy : ∀ st ∈ run, st.Healthy) (hrun : (run.map Step.now).Pairwise (· ≤ ·)) (d : UInt64)
    (hroom : ∀ st ∈ run, ∀ n ∈ g.spans, st.now.toNat + d.toNat + n < wordCount) :
    g.unwatched (run.map (Step.later d)) env = (g.unwatched run env).map (Answer.later d) := by
  have hzero : (0 :: run.map Step.now).Pairwise (· ≤ ·) :=
    List.pairwise_cons.mpr ⟨fun _ _ => UInt64.zero_le, hrun⟩
  refine unwatched_later (Plan.built_of_build hbuild) hhealthy hzero hroom ⟨henv, henv, ?_⟩
  intro h name _ _
  rw [hfresh name]
  exact .none

/-- A request that is admitted and one that is denied, in the first second of the clock. -/
def twiceAtOnce : List Step :=
  [.at 0 (.request .anonymous "/" "login"), .at 10 (.request .anonymous "/" "login")]

/-- The same two requests in the middle of the word. -/
theorem later_twiceAtOnce :
    let g := Plan.onePerSecond.validGate
    let env := Env.start 0 (.empty none)
    let d : UInt64 := 9223372036854775808
    (∃ env', Plan.onePerSecond.build.on env = (.ok g, env')) ∧
    (∀ st ∈ twiceAtOnce, ∀ n ∈ g.spans, st.now.toNat + d.toNat + n < wordCount) ∧
    g.unwatched (twiceAtOnce.map (Step.later d)) env =
      [.decision ⟨true, "login", 1, 0, 1000 + d, none, false, false⟩,
        .decision ⟨false, "login", 1, 0, 5010 + d, some 5, false, false⟩] := by
  intro g env d
  obtain ⟨env', hbuild⟩ := Plan.build_onePerSecond env
  have hhealthy : ∀ st ∈ twiceAtOnce, st.Healthy := by simp [twiceAtOnce, Step.healthy_at]
  have hroom : ∀ st ∈ twiceAtOnce, ∀ n ∈ g.spans, st.now.toNat + d.toNat + n < wordCount := by
    decide +kernel
  refine ⟨⟨env', hbuild⟩, hroom, ?_⟩
  rw [answers_later _ g env env' hbuild env (Env.healthy_start 0) (fun name => Env.slot_start 0 _)
    twiceAtOnce hhealthy (by decide) d hroom]
  decide +kernel

end Gate

end Turnstile
