import Mathlib.Data.List.Chain
import Turnstile.Proofs.Circuit.Tally
import Turnstile.Proofs.Gate.Admitted

/-!
# Reported failures

A caller asks for admission, does the work and reports that it failed, again and again.  What the
gate has admitted and what is reported go to the same circuits.

* `Gate.failedWork`, `Gate.failedWorks`: pieces of work that fail.
* `Gate.Reported`: what is left after a failure was reported.
* `Gate.reported_of_failedWork`, `Gate.reported_of_failedWorks`: one piece of work, and a run.
* `Gate.circuitOpen_iff_of_reported`: what the next request meets.
* `Gate.refused_after_failures_iff`: whether as many failures as the threshold trip the breaker.
-/

set_option autoImplicit false

namespace Turnstile

open Circuit (Key seen)

/-- A piece of work that is asked for on a path, and later reported on. -/
structure Work where
  path : String
  asked : UInt64
  reported : UInt64

/-- The instants of a piece of work. -/
def Work.steps (w : Work) : List UInt64 := [w.asked, w.reported]

/-- A step follows another one within a span of time. -/
def Duration.Spans (d : Duration) (s u : UInt64) : Prop :=
  s ≤ u ∧ (u.toNat - s.toNat) * Duration.perMilli < d.nanos

instance (d : Duration) (s u : UInt64) : Decidable (d.Spans s u) :=
  inferInstanceAs (Decidable (s ≤ u ∧ (u.toNat - s.toNat) * Duration.perMilli < d.nanos))

theorem Duration.lt_of_spans {ms s u : UInt64} (h : (ofMillis ms).Spans s u) :
    u.toNat < s.toNat + ms.toNat := by
  have hnanos : (ofMillis ms).nanos ≤ ms.toNat * perMilli := Nat.min_le_left _ _
  have hlt : u.toNat - s.toNat < ms.toNat :=
    Nat.lt_of_mul_lt_mul_right (Nat.lt_of_lt_of_le h.2 hnanos)
  omega

namespace Gate

/-- A piece of work that fails: it is asked for, and the failure is reported. -/
def failedWork (g : Gate) (t : Tracker) (policy : String) (w : Work) :
    GateM (Except AdmissionError Decision) := do
  modify fun env => env.setClock w.asked
  let answer ← g.request t w.path policy
  modify fun env => env.setClock w.reported
  g.report t false
  pure answer

/-- Pieces of work that fail, one after the other, with what was said to each. -/
def failedWorks (g : Gate) (t : Tracker) (policy : String) :
    List Work → GateM (List (Except AdmissionError Decision))
  | [] => pure []
  | w :: works => do
    let answer ← g.failedWork t policy w
    let rest ← g.failedWorks t policy works
    pure (answer :: rest)

/-- Whether an answer admits. -/
def admitting : Except AdmissionError Decision → Bool
  | .ok d => d.allowed
  | .error _ => false

/-- Whether an answer refuses because a circuit is open. -/
def refusing : Except AdmissionError Decision → Bool
  | .ok d => d.circuitOpen
  | .error _ => false

variable {pl : Plan} {g : Gate} {t : Tracker} {p : Policy} {env env' : Env}

/-! ## Work that fails -/

/-- What is left after a failure was reported at an instant: the record of the tracker's circuit is
new, and the other circuits that guard the policy are not open. -/
structure Reported (g : Gate) (t : Tracker) (p : Policy) (at' : UInt64) (c : Circuit) (env : Env) :
    Prop where
  healthy : env.Healthy
  now_eq : env.now = at'
  slot_eq : env.slot (g.breaker.shelf.key (Key.ofTracker t).text) = some (g.breaker.entry at' c)
  counted : c.state = .open ∧ c.openedAt = some at' ∨
    c.state = .closed ∧ 1 ≤ c.failures.toNat ∧ c.failures.toNat < g.breaker.thresholds.failures.toNat
  others : ∀ k ∈ g.guards t p, k ≠ Key.ofTracker t →
    (seen at' (env.slot (g.breaker.shelf.key k.text))).state ≠ .open

theorem Reported.openedAt_of_open {last : UInt64} {c : Circuit} (h : Reported g t p last c env)
    (hopen : c.state = .open) : c.openedAt = some last := by
  rcases h.counted with ⟨_, hopened⟩ | ⟨hclosed, _⟩
  · exact hopened
  · rw [hopen] at hclosed
    cases hclosed

theorem Reported.failures_of_closed {last : UInt64} {c : Circuit} (h : Reported g t p last c env)
    (hclosed : c.state = .closed) :
    1 ≤ c.failures.toNat ∧ c.failures.toNat < g.breaker.thresholds.failures.toNat := by
  rcases h.counted with ⟨hopen, _⟩ | ⟨_, hcount⟩
  · rw [hopen] at hclosed
    cases hclosed
  · exact hcount

/-- A threshold of one is reached by any failure. -/
theorem Reported.open_of_one {last : UInt64} {c : Circuit} (h : Reported g t p last c env)
    (hone : g.breaker.thresholds.failures.toNat = 1) : c.state = .open := by
  rcases h.counted with ⟨hopen, _⟩ | ⟨_, hcount⟩
  · exact hopen
  · omega

theorem ofTracker_mem_guards (g : Gate) (t : Tracker) (p : Policy) :
    Key.ofTracker t ∈ g.guards t p := by
  unfold guards
  cases g.scope <;> exact List.mem_cons_self

/-- A failure that is reported of a circuit that is not open is counted. -/
theorem reported_of_report (h : env.Healthy) {s : Circuit}
    (hs : seen env.now (env.slot (g.breaker.shelf.key (Key.ofTracker t).text)) = s)
    (hopen : s.state ≠ .open)
    (hothers : ∀ k ∈ g.guards t p, k ≠ Key.ofTracker t →
      (seen env.now (env.slot (g.breaker.shelf.key k.text))).state ≠ .open) :
    Reported g t p env.now (s.fail g.breaker.thresholds env.now) ((g.report t false).on env).2 := by
  obtain ⟨env', hreport, hput⟩ := g.breaker.recordFailure_of_healthy h (Key.ofTracker t)
  have hmoved := Circuit.fail_ne hopen g.breaker.thresholds env.now
  rw [show (g.report t false).on env = ((), env') from hreport]
  rw [Breaker.moved, hs, if_neg hmoved] at hput
  refine ⟨hput.healthy h, hput.now_eq, hput.slot_key, ?_, ?_⟩
  · rcases Circuit.fail_cases hopen g.breaker.thresholds env.now with hopened | ⟨_, hclosed, hcount, hlt⟩
    · exact .inl hopened
    · exact .inr ⟨hclosed, by omega, hlt⟩
  · intro k hk hne
    have hkey : g.breaker.shelf.key k.text ≠ g.breaker.shelf.key (Key.ofTracker t).text :=
      fun e => hne (Key.eq_of_key e)
    rw [hput.slot_of_ne hkey]
    exact hothers k hk hne

/-- **One piece of work that fails.**  Its failure is counted by the circuit that the tracker has
then, which is not open. -/
theorem reported_of_failedWork (hg : g.Built pl) (hp : p ∈ pl.policies) (h : env.Healthy) {w : Work}
    (hle : w.asked ≤ w.reported) {answer : Except AdmissionError Decision}
    (hwork : (g.failedWork t p.name w).on env = (answer, env')) (hadmits : admitting answer = true) :
    ∃ s, s.state ≠ .open ∧
      Reported g t p w.reported (s.fail g.breaker.thresholds w.reported) env' ∧
      let before := seen w.asked (env.slot (g.breaker.shelf.key (Key.ofTracker t).text))
      (before.poll g.breaker.thresholds w.asked).1 = true ∧
      (before.state = .closed →
        (g.scope = .perTracker → s.state = .closed ∧ s.failures = 0) ∧
        (g.scope = .perPolicy →
          s = seen w.reported (env.slot (g.breaker.shelf.key (Key.ofTracker t).text)))) := by
  simp only [failedWork, request, withPolicy, hg.policy_of_mem hp, GateM.on_bind, GateM.on_modify,
    GateM.on_pure] at hwork
  rcases hjudge : (g.judge t w.path p).on (env.setClock w.asked) with ⟨d, env₁⟩
  rw [hjudge] at hwork
  obtain ⟨rfl, rfl⟩ := Prod.mk.inj hwork
  have hallowed : d.allowed = true := hadmits
  obtain ⟨hhealthy, _, hguards⟩ := judge_of_allowed hg (h.setClock w.asked) hjudge hallowed
  have hseen : ∀ k ∈ g.guards t p, (seen w.reported
      (env₁.slot (g.breaker.shelf.key k.text))).state ≠ .open := fun k hk =>
    seen_of_allowed hg (h.setClock w.asked) hjudge hallowed hle hk
  have htracker := ofTracker_mem_guards g t p
  refine ⟨_, hseen _ htracker, ?_, (hguards _ htracker).1, fun hclosed => ⟨fun hscope => ?_,
    fun hscope => ?_⟩⟩
  · exact reported_of_report (hhealthy.setClock w.reported) rfl (hseen _ htracker) fun k hk _ =>
      hseen k hk
  · exact seen_tracker_of_perTracker hg hscope (h.setClock w.asked) hjudge hallowed hle hclosed
  · exact seen_tracker_of_perPolicy hg hscope (h.setClock w.asked) hjudge hallowed hle hclosed

/-- A run is its first piece of work and the rest. -/
theorem failedWorks_cons {policy : String} {w : Work} {works : List Work}
    {answers : List (Except AdmissionError Decision)}
    (hrun : (g.failedWorks t policy (w :: works)).on env = (answers, env')) :
    ∃ answer rest env₁, (g.failedWork t policy w).on env = (answer, env₁) ∧
      (g.failedWorks t policy works).on env₁ = (rest, env') ∧ answers = answer :: rest := by
  simp only [failedWorks, GateM.on_bind, GateM.on_pure] at hrun
  obtain ⟨rfl, rfl⟩ := Prod.mk.inj hrun
  exact ⟨_, _, _, rfl, rfl, rfl⟩

theorem not_rested_of_spans {c : Circuit} {last now : UInt64} {s : Circuit.Settings}
    (hopened : c.openedAt = some last) (hspan : s.recovery.Spans last now) :
    c.rested s.thresholds now = false := by
  have hle : now.toNat - last.toNat ≤ s.recovery.nanos / Duration.perMilli := by
    rw [Nat.le_div_iff_mul_le (by decide)]
    exact Nat.le_of_lt hspan.2
  have := toNat_le_max now
  simp only [Circuit.rested, hopened, Option.getD_some, decide_eq_false_iff_not,
    UInt64.lt_iff_toNat_lt, toNat_satSub, Circuit.Settings.thresholds, Duration.millis,
    toNat_wordOfNat, Duration.wholeMillis]
  omega

/-- **The next piece of work that fails.**  With one circuit for the tracker, being admitted has
cleared the count; with a circuit for each policy, the count goes on unless its record has
expired. -/
theorem reported_step (hg : g.Built pl) (hp : p ∈ pl.policies) {last : UInt64} {c : Circuit}
    (hr : Reported g t p last c env) {w : Work} (hspan : pl.circuit.recovery.Spans last w.asked)
    (hle : w.asked ≤ w.reported) {answer : Except AdmissionError Decision}
    (hwork : (g.failedWork t p.name w).on env = (answer, env')) (hadmits : admitting answer = true) :
    ∃ s, s.state ≠ .open ∧
      Reported g t p w.reported (s.fail g.breaker.thresholds w.reported) env' ∧
      (g.scope = .perTracker → s.state = .closed ∧ s.failures = 0) ∧
      (g.scope = .perPolicy →
        s = if w.reported < satAdd last g.breaker.settings.recordTtl.millis then c else .fresh) := by
  obtain ⟨s, hopen, hreported, hthrough, hscopes⟩ :=
    reported_of_failedWork hg hp hr.healthy hle hwork hadmits
  rw [hr.slot_eq, Breaker.seen_entry] at hthrough hscopes
  have hclosed : (if w.asked < satAdd last g.breaker.settings.recordTtl.millis then c
      else Circuit.fresh).state = .closed := by
    split at hthrough
    · rename_i hlt
      rw [if_pos hlt]
      rcases hr.counted with ⟨hstate, hopened⟩ | ⟨hstate, _⟩
      · -- an open circuit would not have rested yet
        have hrested : c.rested g.breaker.thresholds w.asked = false := by
          rw [Breaker.thresholds, hg.breaker_eq]
          exact not_rested_of_spans hopened hspan
        rw [Circuit.fst_poll_eq_false_iff.mpr ⟨hstate, hrested⟩] at hthrough
        cases hthrough
      · exact hstate
    · rename_i hlt
      rw [if_neg hlt]
      rfl
  obtain ⟨htracker, hpolicy⟩ := hscopes hclosed
  rw [Breaker.seen_entry] at hpolicy
  exact ⟨s, hopen, hreported, htracker, hpolicy⟩

/-- **A run of work that fails**, after a first failure.  With a circuit for each policy the
tracker's has the tally of the failures; with one circuit it stays closed below two. -/
theorem reported_of_failedWorks (hg : g.Built pl) (hp : p ∈ pl.policies) {works : List Work}
    {last : UInt64} {c : Circuit} (hr : Reported g t p last c env)
    (hspans : (last :: works.flatMap Work.steps).IsChain pl.circuit.recovery.Spans)
    {answers : List (Except AdmissionError Decision)}
    (hrun : (g.failedWorks t p.name works).on env = (answers, env'))
    (hadmits : ∀ a ∈ answers, admitting a = true) :
    ∃ c', Reported g t p ((works.map Work.reported).getLast?.getD last) c' env' ∧
      (g.scope = .perPolicy → c' = g.breaker.tally last c (works.map Work.reported)) ∧
      (g.scope = .perTracker → 1 < g.breaker.thresholds.failures.toNat →
        (works = [] → c.state = .closed) → c'.state = .closed) := by
  induction works generalizing last c env answers with
  | nil =>
    cases hrun
    exact ⟨c, hr, fun _ => rfl, fun _ _ hc => hc rfl⟩
  | cons w works ih =>
    obtain ⟨hasked, hchain⟩ := List.isChain_cons_cons.mp hspans
    obtain ⟨hreported, hchain⟩ := List.isChain_cons_cons.mp hchain
    obtain ⟨answer, rest, env₁, hwork, hrest, rfl⟩ := failedWorks_cons hrun
    obtain ⟨s, hopen, hr₁, htracker, hpolicy⟩ :=
      reported_step hg hp hr hasked hreported.1 hwork (hadmits _ List.mem_cons_self)
    obtain ⟨c', hr', hpolicy', htracker'⟩ :=
      ih hr₁ hchain hrest fun a ha => hadmits a (List.mem_cons_of_mem _ ha)
    refine ⟨c', ?_, ?_, ?_⟩
    · rwa [List.map_cons, List.getLast?_cons, Option.getD_some]
    · intro hscope
      rw [hpolicy' hscope, hpolicy hscope]
      rfl
    · intro hscope hfew _
      obtain ⟨hclosed, hzero⟩ := htracker hscope
      have hone : s.failures.toNat + 1 < g.breaker.thresholds.failures.toNat := by
        rw [hzero]
        exact hfew
      exact htracker' hscope hfew fun _ => (Circuit.fail_of_few hclosed hone).1

/-! ## The next request -/

theorem firstOpen_of_seen {b : Breaker} {keys : List Key} (h : env.Healthy)
    (hnodup : (keys.map fun k => b.shelf.key k.text).Nodup)
    (hseen : ∀ k ∈ keys, (seen env.now (env.slot (b.shelf.key k.text))).state ≠ .open) :
    ((firstOpen b keys).on env).1 = none := by
  rw [← List.append_nil keys] at hnodup ⊢
  obtain ⟨env₁, hasked, _⟩ := firstOpen_append h hnodup hseen
  rw [hasked]
  rfl

theorem firstOpen_of_shut {b : Breaker} {k : Key} (keys : List Key) (h : env.Healthy)
    (hshut : ((seen env.now (env.slot (b.shelf.key k.text))).poll b.thresholds env.now).1 = false) :
    ((firstOpen b (k :: keys)).on env).1 = some k := by
  obtain ⟨env₁, hasked, _⟩ := firstOpen_cons h b k keys
  rw [hasked, hshut]
  rfl

theorem guards_eq_cons (g : Gate) (t : Tracker) (p : Policy) :
    ∃ keys, g.guards t p = .ofTracker t :: keys := by
  unfold guards
  cases g.scope <;> exact ⟨_, rfl⟩

/-- **The next request is refused exactly when the failures have opened the circuit** and its record
has not expired at once. -/
theorem circuitOpen_iff_of_reported {last : UInt64} {c : Circuit} (hr : Reported g t p last c env)
    (path : String) :
    ((g.judge t path p).on env).1.circuitOpen = true ↔
      c.state = .open ∧ last < satAdd last g.breaker.settings.recordTtl.millis := by
  have hseen : seen env.now (env.slot (g.breaker.shelf.key (Key.ofTracker t).text)) =
      if last < satAdd last g.breaker.settings.recordTtl.millis then c else .fresh := by
    rw [hr.slot_eq, Breaker.seen_entry, hr.now_eq]
  rw [circuitOpen_judge_iff]
  constructor
  · intro hsome
    by_contra hcon
    apply hsome
    apply firstOpen_of_seen hr.healthy (guards_nodup g t p)
    intro k hk
    by_cases hkey : k = Key.ofTracker t
    · rw [hkey, hseen]
      split
      · rename_i hlt
        exact fun hopen => hcon ⟨hopen, hlt⟩
      · decide
    · rw [hr.now_eq]
      exact hr.others k hk hkey
  · rintro ⟨hopen, hlt⟩
    obtain ⟨keys, hguards⟩ := guards_eq_cons g t p
    rw [hguards, firstOpen_of_shut keys hr.healthy]
    · nofun
    · have hopened := hr.openedAt_of_open hopen
      rw [hseen, if_pos hlt, Circuit.fst_poll_eq_false_iff, hr.now_eq]
      refine ⟨hopen, ?_⟩
      simp [Circuit.rested, hopened, UInt64.lt_iff_toNat_lt, toNat_satSub]

/-! ## Whether failures trip the breaker -/

/-- **Records last** where the recovery time is a whole number of milliseconds and the clock is not
at its end, as two reports are then less than twice the recovery time apart. -/
theorem lasting_of_spans {s : Circuit.Settings} {ms : UInt64} (hrecovery : s.recovery = .ofMillis ms)
    (hpos : 0 < ms.toNat) {works : List Work}
    (hspans : (works.flatMap Work.steps).IsChain s.recovery.Spans)
    (hbefore : ∀ w ∈ works, w.reported < maxWord) : s.Lasting (works.map Work.reported) := by
  have httl : s.recordTtl.millis.toNat = min (2 * ms.toNat) (wordCount - 1) := by
    rw [Circuit.Settings.recordTtl, hrecovery, Duration.toNat_millis_double_ofMillis]
  induction works with
  | nil => trivial
  | cons w works ih =>
    have hw := hbefore w List.mem_cons_self
    obtain ⟨_, hchain⟩ := List.isChain_cons_cons.mp hspans
    cases works with
    | nil =>
      refine (lt_satAdd_iff hw).mpr ?_
      unfold wordCount at httl
      omega
    | cons w' works =>
      obtain ⟨hasked, hchain⟩ := List.isChain_cons_cons.mp hchain
      obtain ⟨hreported, _⟩ := List.isChain_cons_cons.mp hchain
      refine ⟨?_, ih hchain fun v hv => hbefore v (List.mem_cons_of_mem w hv)⟩
      have hfirst := Duration.lt_of_spans (hrecovery ▸ hasked)
      have hsecond := Duration.lt_of_spans (hrecovery ▸ hreported)
      have hlast := hbefore w' (List.mem_cons_of_mem w List.mem_cons_self)
      have hmax := lt_maxWord_iff.mp hlast
      rw [lt_satAdd_iff hlast]
      omega

/-- With a circuit for each policy, as many failures as the threshold leave the tracker's open and
readable if and only if no record has expired. -/
theorem open_iff_of_tally {first last : UInt64} {c c' : Circuit} {env₁ : Env} {times : List UInt64}
    (hr : Reported g t p first c env) (hr' : Reported g t p last c' env₁)
    (htally : c' = g.breaker.tally first c times) (hlast : last = times.getLast?.getD first)
    (hlength : times.length + 1 = g.breaker.thresholds.failures.toNat) :
    c'.state = .open ∧ last < satAdd last g.breaker.settings.recordTtl.millis ↔
      g.breaker.settings.Lasting (first :: times) := by
  subst htally hlast
  exact Breaker.tally_open_iff (hr.counted.imp And.left fun h => ⟨h.1, h.2.1⟩)
    (fun hclosed => (hr'.failures_of_closed hclosed).2) hlength

/-- **When reported failures trip the breaker.**  Let a gate be built, and on a store that does not
fail let as many pieces of work be admitted and fail as the breaker's threshold says, one step after
the other, each within the recovery time.  Then the next request at the instant of the last report
is refused by an open circuit if and only if every policy has a circuit of its own or the threshold
is one, and no record of the tracker's circuit has expired in between.

With one circuit for the tracker each admission counts as a success there, and clears the failure
that was reported before it. -/
theorem refused_after_failures_iff (pl : Plan) (g : Gate) (built built' : Env)
    (hbuild : pl.build.on built = (.ok g, built')) (t : Tracker) (p : Policy)
    (hp : p ∈ pl.policies) (env env' : Env) (h : env.Healthy) (works : List Work)
    (hlength : works.length = pl.circuit.failureThreshold.toNat)
    (hspans : (works.flatMap Work.steps).IsChain pl.circuit.recovery.Spans)
    (answers : List (Except AdmissionError Decision))
    (hrun : (g.failedWorks t p.name works).on env = (answers, env'))
    (hadmits : ∀ a ∈ answers, admitting a = true) (path : String) :
    refusing ((g.request t path p.name).on env').1 = true ↔
      (pl.scope = .perPolicy ∨ pl.circuit.failureThreshold = 1) ∧
        pl.circuit.Lasting (works.map Work.reported) := by
  have hg := Plan.built_of_build hbuild
  have hthreshold : g.breaker.thresholds.failures = pl.circuit.failureThreshold := by
    rw [hg.breaker_eq]
    rfl
  have hsettings : g.breaker.settings = pl.circuit := by rw [hg.breaker_eq]
  have hpos : 0 < pl.circuit.failureThreshold.toNat :=
    Circuit.Settings.failureThreshold_pos hg.circuit_valid
  cases works with
  | nil =>
    rw [List.length_nil] at hlength
    omega
  | cons w works =>
    rw [List.length_cons] at hlength
    obtain ⟨hreported, hchain⟩ := List.isChain_cons_cons.mp hspans
    obtain ⟨answer, rest, env₁, hwork, hrest, rfl⟩ := failedWorks_cons hrun
    obtain ⟨s, _, hr₁, _⟩ :=
      reported_of_failedWork hg hp h hreported.1 hwork (hadmits _ List.mem_cons_self)
    obtain ⟨c, hr, hpolicy, htracker⟩ := reported_of_failedWorks hg hp hr₁ hchain hrest
      fun a ha => hadmits a (List.mem_cons_of_mem _ ha)
    have hrequest : refusing ((g.request t path p.name).on env').1 =
        ((g.judge t path p).on env').1.circuitOpen := by
      simp only [request, withPolicy, hg.policy_of_mem hp, GateM.on_bind, GateM.on_pure, refusing]
    have hlength : (works.map Work.reported).length + 1 = g.breaker.thresholds.failures.toNat := by
      rw [List.length_map, hlength, hthreshold]
    rw [hrequest, circuitOpen_iff_of_reported hr, ← hg.scope_eq, ← hthreshold, ← hsettings,
      List.map_cons]
    cases hscope : g.scope with
    | perPolicy =>
      have hiff := open_iff_of_tally hr₁ hr (hpolicy hscope) rfl hlength
      simpa using hiff
    | perTracker =>
      by_cases hone : g.breaker.thresholds.failures = 1
      · -- one piece of work, and any failure opens the circuit
        have hone' : g.breaker.thresholds.failures.toNat = 1 := by
          rw [hone]
          rfl
        have hnil : works = [] := by
          apply List.eq_nil_of_length_eq_zero
          rw [List.length_map] at hlength
          omega
        subst hnil
        simp [hr.open_of_one hone', hone, Circuit.Settings.Lasting]
      · -- every admission has cleared the count
        have hone' : g.breaker.thresholds.failures.toNat ≠ 1 := fun e => hone (UInt32.toNat.inj e)
        have hmany : 1 < g.breaker.thresholds.failures.toNat := by omega
        have hclosed : c.state = .closed := by
          refine htracker hscope hmany fun hnil => ?_
          rw [hnil, List.map_nil, List.length_nil] at hlength
          omega
        simp [hclosed, hone]

/-- Two failures, one success, five seconds. -/
def twoFailures : Circuit.Settings := ⟨2, 1, .ofMillis 5000⟩

/-- Two pieces of work, the steps of which are less than five seconds apart. -/
def twoWorks : List Work := [⟨"/", 0, 100⟩, ⟨"/", 600, 1600⟩]

/-- What is said to a tracker whose two pieces of work fail, and what is left of an empty store. -/
def afterTwoFailures (scope : Circuit.Scope) : List (Except AdmissionError Decision) × Env :=
  ((Plan.twoPerSecond twoFailures scope).validGate.failedWorks (.user "alice") "login" twoWorks).on
    (.start 0 (.empty none))

/-- Two failures trip the breaker where the policy has a circuit of its own. -/
theorem refused_after_twoFailures :
    refusing (((Plan.twoPerSecond twoFailures .perPolicy).validGate.request (.user "alice") "/"
      "login").on (afterTwoFailures .perPolicy).2).1 = true := by
  obtain ⟨_, hbuild⟩ := Plan.build_twoPerSecond twoFailures rfl .perPolicy (.start 0 (.empty none))
  have hspans : (twoWorks.flatMap Work.steps).IsChain twoFailures.recovery.Spans := by decide
  have hadmits : ∀ a ∈ (afterTwoFailures .perPolicy).1, admitting a = true := by decide +kernel
  have hrecovery : twoFailures.recovery = .ofMillis 5000 := rfl
  have hlasting := lasting_of_spans hrecovery (by decide) hspans (by decide)
  exact (refused_after_failures_iff (.twoPerSecond twoFailures .perPolicy) _ _ _ hbuild
    (.user "alice") (.twoPerSecond .fixedWindow) List.mem_cons_self (.start 0 (.empty none))
    (afterTwoFailures .perPolicy).2 (Env.healthy_start 0) twoWorks rfl hspans
    (afterTwoFailures .perPolicy).1 (Prod.eta _).symm hadmits "/").mpr ⟨.inl rfl, hlasting⟩

/-- Where the tracker has one circuit, the same two failures are admitted and reported alike and do
not trip it. -/
theorem not_refused_after_twoFailures :
    (∃ env, (Plan.twoPerSecond twoFailures .perTracker).build.on (.start 0 (.empty none)) =
      (.ok (Plan.twoPerSecond twoFailures .perTracker).validGate, env)) ∧
    twoWorks.length = twoFailures.failureThreshold.toNat ∧
    (twoWorks.flatMap Work.steps).IsChain twoFailures.recovery.Spans ∧
    (∀ a ∈ (afterTwoFailures .perTracker).1, admitting a = true) ∧
    refusing (((Plan.twoPerSecond twoFailures .perTracker).validGate.request (.user "alice") "/"
      "login").on (afterTwoFailures .perTracker).2).1 = false :=
  ⟨Plan.build_twoPerSecond twoFailures rfl .perTracker _, rfl, by decide, by decide +kernel,
    by decide +kernel⟩

end Gate

end Turnstile
