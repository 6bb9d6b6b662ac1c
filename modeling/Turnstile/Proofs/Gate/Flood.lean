import Mathlib.Data.List.Chain
import Turnstile.Proofs.Circuit.Tally
import Turnstile.Proofs.Gate.Actions

/-!
# Floods

A tracker that goes on asking after its quota is used up is denied, again and again, and every
denial is a failure of its circuit.  As many denials as the breaker's threshold open the circuit, if
no record of it expires on the way.  Then it refuses everybody until the recovery time is over,
whatever is reported meanwhile, and after that it lets the first one through.

* `Gate.Counting`, `Gate.Tripped`: a circuit on the way to its threshold, and one that has opened.
* `Gate.Counting.strike`: a denial brings a circuit one step further.
* `Gate.Counting.replay`, `Gate.Tripped.replay`: a flood, and what comes after it.
* `Gate.shut_after_flood`: the flood is cut off.
-/

set_option autoImplicit false

namespace Turnstile

open Circuit (Key seen)

theorem Duration.toNat_millis (d : Duration) : d.millis.toNat = min d.wholeMillis (wordCount - 1) :=
  toNat_wordOfNat _

/-- Twice a span of a millisecond or more is longer than the span, unless both pass the word. -/
theorem Duration.lt_millis_double {d : Duration} (hd : 1 ≤ d.wholeMillis) {n : Nat}
    (hn : n ≤ d.wholeMillis) (hword : n < wordCount - 1) : n < d.double.millis.toNat := by
  rw [toNat_millis]
  simp only [wholeMillis, double, ofNanos, perMilli, wordCount] at *
  omega

namespace Gate

variable {pl : Plan} {g : Gate} {t : Tracker} {p : Policy} {env env' : Env} {key : Key}

/-! ## A circuit that counts -/

/-- A circuit has counted denials at some instants, unless the record of the last one has expired,
and needs more of them to open. -/
structure Counting (b : Breaker) (key : Key) (times : List UInt64) (env : Env) : Prop where
  healthy : env.Healthy
  few : times.length < b.thresholds.failures.toNat
  seen_eq : ∀ later, env.now ≤ later →
    (∀ last ∈ times.getLast?, later < satAdd last b.settings.recordTtl.millis) →
    (seen later (env.slot (b.shelf.key key.text))).state = .closed ∧
      (seen later (env.slot (b.shelf.key key.text))).failures.toNat = times.length

/-- A circuit has opened at an instant, and nobody has changed it since. -/
structure Tripped (b : Breaker) (key : Key) (opened : UInt64) (env : Env) : Prop where
  healthy : env.Healthy
  opened_le : opened ≤ env.now
  seen_eq : ∃ c : Circuit, c.state = .open ∧ c.openedAt = some opened ∧
    ∀ later, env.now ≤ later → seen later (env.slot (b.shelf.key key.text)) =
      if later < satAdd opened b.settings.recordTtl.millis then c else .fresh

theorem counting_of_closed {b : Breaker} (h : env.Healthy) (hpos : 0 < b.thresholds.failures.toNat)
    (hclosed : ((b.status key).on env).1.circuit.state = .closed)
    (hzero : ((b.status key).on env).1.circuit.failures = 0) : Counting b key [] env := by
  obtain ⟨env', hstatus, _⟩ := b.status_of_healthy h key
  rw [hstatus] at hclosed hzero
  refine ⟨h, hpos, fun later hle _ => ?_⟩
  rcases Breaker.seen_later hle (env.slot (b.shelf.key key.text)) with heq | heq <;> rw [heq]
  · exact ⟨hclosed, congrArg UInt32.toNat hzero⟩
  · exact ⟨rfl, rfl⟩

variable {b : Breaker} {times : List UInt64} {opened : UInt64} {s : Step}

theorem Counting.of_unmoved (hc : Counting b key times env) (hle : env.now ≤ s.now)
    (hu : b.Unmoved key (s.env env) env') : Counting b key times env' := by
  refine ⟨hu.healthy, hc.few, fun later hlater hlast => ?_⟩
  rw [hu.now_eq] at hlater
  rw [hu.seen_eq later hlater]
  exact hc.seen_eq later (UInt64.le_trans hle hlater) hlast

theorem Tripped.of_unmoved (ht : Tripped b key opened env) (hle : env.now ≤ s.now)
    (hu : b.Unmoved key (s.env env) env') : Tripped b key opened env' := by
  obtain ⟨c, hopen, hopened, hseen⟩ := ht.seen_eq
  have hnow : env'.now = s.now := hu.now_eq
  refine ⟨hu.healthy, hnow ▸ UInt64.le_trans ht.opened_le hle, c, hopen, hopened,
    fun later hlater => ?_⟩
  rw [hnow] at hlater
  rw [hu.seen_eq later hlater]
  exact hseen later (UInt64.le_trans hle hlater)

/-- **A denial is counted**, or it is the one that opens the circuit. -/
theorem Counting.strike (hc : Counting b key times env) {now : UInt64} (hle : env.now ≤ now)
    (hkept : ∀ last ∈ times.getLast?, now < satAdd last b.settings.recordTtl.millis)
    (h : env'.Healthy) (hnow : env'.now = now)
    (hslot : env'.slot (b.shelf.key key.text) =
      b.moved now (fun c => c.fail b.thresholds now)
        (b.moved now (fun c => (c.poll b.thresholds now).2) (env.slot (b.shelf.key key.text)))) :
    Counting b key (times ++ [now]) env' ∨
      (times ++ [now]).length = b.thresholds.failures.toNat ∧ Tripped b key now env' := by
  obtain ⟨hclosed, hcount⟩ := hc.seen_eq now hle hkept
  have hne : (seen now (env.slot (b.shelf.key key.text))).state ≠ .open := by
    rw [hclosed]
    decide
  have hentry : env'.slot (b.shelf.key key.text) = some (b.entry now
      ((seen now (env.slot (b.shelf.key key.text))).fail b.thresholds now)) := by
    rw [hslot, Breaker.moved_poll_of_closed hclosed, Breaker.moved,
      Breaker.seen_readable (UInt64.le_refl now), if_neg (Circuit.fail_ne hne _ now)]
  generalize seen now (env.slot (b.shelf.key key.text)) = c at hclosed hcount hne hentry
  have hlength : (times ++ [now]).length = times.length + 1 := List.length_append
  have hlast : (times ++ [now]).getLast? = some now := List.getLast?_concat
  by_cases hfew : times.length + 1 < b.thresholds.failures.toNat
  · -- the record is new, and what it has counted is there until it expires
    have hfailed : (c.fail b.thresholds now).state = .closed ∧
        (c.fail b.thresholds now).failures.toNat = c.failures.toNat + 1 :=
      Circuit.fail_of_few hclosed (hcount ▸ hfew)
    refine .inl ⟨h, by rw [hlength]; exact hfew, fun later _ hlater => ?_⟩
    rw [hentry, Breaker.seen_entry, if_pos (hlater now (by rw [hlast]; rfl))]
    exact ⟨hfailed.1, by rw [hlength, hfailed.2, hcount]⟩
  · have hall : times.length + 1 = b.thresholds.failures.toNat := by
      have := hc.few
      omega
    refine .inr ⟨by rw [hlength, hall], h, UInt64.le_of_eq hnow.symm, c.fail b.thresholds now, ?_⟩
    rcases Circuit.fail_cases hne b.thresholds now with ⟨hopen, hopened⟩ | ⟨_, _, hmore, hlt⟩
    · refine ⟨hopen, hopened, fun later _ => ?_⟩
      rw [hentry, Breaker.seen_entry]
    · omega

/-! ## A circuit that is open -/

/-- An instant within the recovery time of the opening. -/
theorem lt_record_end (hmillis : 1 ≤ b.settings.recovery.wholeMillis) {now : UInt64}
    (hle : opened ≤ now) (hnow : now.toNat ≤ opened.toNat + b.settings.recovery.wholeMillis)
    (hmax : now < maxWord) : now < satAdd opened b.settings.recordTtl.millis := by
  rw [lt_satAdd_iff hmax]
  rw [UInt64.le_iff_toNat_le] at hle
  rw [lt_maxWord_iff] at hmax
  have hspan : now.toNat - opened.toNat ≤ b.settings.recovery.wholeMillis := by omega
  have hlt := Duration.lt_millis_double hmillis hspan (by omega)
  unfold Circuit.Settings.recordTtl
  omega

theorem rested_iff {c : Circuit} (hopened : c.openedAt = some opened) (s : Circuit.Settings)
    (now : UInt64) :
    c.rested s.thresholds now = true ↔ opened.toNat + s.recovery.wholeMillis < now.toNat := by
  have := toNat_le_max now
  simp only [Circuit.rested, hopened, Option.getD_some, decide_eq_true_eq, UInt64.lt_iff_toNat_lt,
    toNat_satSub, Circuit.Settings.thresholds, Duration.toNat_millis]
  omega

/-- Until the recovery time is over an open circuit is seen open, and nobody is let through. -/
theorem Tripped.shut (ht : Tripped b key opened env)
    (hmillis : 1 ≤ b.settings.recovery.wholeMillis) {now : UInt64} (hle : env.now ≤ now)
    (hnow : now.toNat ≤ opened.toNat + b.settings.recovery.wholeMillis) (hmax : now < maxWord) :
    (seen now (env.slot (b.shelf.key key.text))).state = .open ∧
      ((seen now (env.slot (b.shelf.key key.text))).poll b.thresholds now).1 = false := by
  obtain ⟨c, hopen, hat, hseen⟩ := ht.seen_eq
  rw [hseen now hle, if_pos (lt_record_end hmillis (UInt64.le_trans ht.opened_le hle) hnow hmax)]
  refine ⟨hopen, Circuit.fst_poll_eq_false_iff.mpr ⟨hopen, ?_⟩⟩
  rw [← Bool.not_eq_true, Breaker.thresholds, rested_iff hat]
  omega

/-- After the recovery time an open circuit lets callers through, whether its record has expired
or not. -/
theorem Tripped.through (ht : Tripped b key opened env) {now : UInt64} (hle : env.now ≤ now)
    (hnow : opened.toNat + b.settings.recovery.wholeMillis < now.toNat) :
    ((seen now (env.slot (b.shelf.key key.text))).poll b.thresholds now).1 = true := by
  obtain ⟨c, hopen, hat, hseen⟩ := ht.seen_eq
  rw [hseen now hle]
  split
  · rw [← Bool.not_eq_false, Circuit.fst_poll_eq_false_iff]
    rintro ⟨_, hrested⟩
    rw [Breaker.thresholds, (rested_iff hat _ now).mpr hnow] at hrested
    cases hrested
  · rfl

theorem outcome_of_open {c : Circuit} (h : c.state = .open) (t : Circuit.Thresholds) (now : UInt64)
    (succeeded : Bool) : c.outcome t now succeeded = c := by
  cases succeeded with
  | true => simp only [Circuit.outcome, Circuit.succeed, h, ↓reduceIte]
  | false => exact Circuit.fail_of_open h t now

/-- A step within the recovery time of an opening that does not reset the circuit. -/
structure Calm (g : Gate) (key : Key) (opened : UInt64) (s : Step) : Prop where
  healthy : s.Healthy
  before_end : s.now < maxWord
  in_recovery : s.now.toNat ≤ opened.toNat + g.breaker.settings.recovery.wholeMillis
  no_reset : g.resets key s.action = false

/-- **A step while the circuit is open** leaves it open, and if it asks for admission it is
refused. -/
theorem Tripped.take (hg : g.Built pl) (hkey : key = g.policyCircuit t p)
    (ht : Tripped g.breaker key opened env)
    (hmillis : 1 ≤ g.breaker.settings.recovery.wholeMillis) (hle : env.now ≤ s.now)
    (hcalm : g.Calm key opened s) :
    Tripped g.breaker key opened ((g.take s).on env).2 ∧ ((g.take s).on env).2.now = s.now ∧
      (g.fed s.action = some key → ((g.take s).on env).1.shut = true) := by
  obtain ⟨hs, hmax, hnow, hreset⟩ := hcalm
  obtain ⟨hopen, hpoll⟩ := ht.shut hmillis hle hnow hmax
  by_cases hfed : g.fed s.action = some key
  · obtain ⟨d, env', htake, ⟨hrefused, hdenied, hu⟩ | ⟨_, _, _, hthrough, _⟩⟩ :=
      take_of_request hg ht.healthy hs hfed
    · rw [htake]
      exact ⟨ht.of_unmoved hle hu, hu.now_eq, fun _ => by simp [Answer.shut, hrefused, hdenied]⟩
    · rw [hpoll] at hthrough
      cases hthrough
  · have hu : g.breaker.Unmoved key (s.env env) ((g.take s).on env).2 := by
      by_cases hreported : g.reported s.action = some key
      · obtain ⟨succeeded, hput⟩ := take_of_report ht.healthy hs hreported
        rw [Breaker.moved_of_same (outcome_of_open hopen _ _ succeeded)] at hput
        exact .of_readable (Step.healthy_env hs ht.healthy) hput
      · exact take_of_quiet hg hkey ht.healthy hs hfed hreported hreset
    exact ⟨ht.of_unmoved hle hu, hu.now_eq, fun h => absurd h hfed⟩

/-! ## Runs -/

/-- Whether a step is a request that a circuit guards and that is denied as the quota is used up. -/
def denies (g : Gate) (key : Key) (x : Step × Answer) : Bool :=
  decide (key ∈ g.guarded x.1.action) && x.2.limited

/-- The instants of the denials that a circuit guards. -/
def denials (g : Gate) (key : Key) (l : List (Step × Answer)) : List UInt64 :=
  (l.filter (g.denies key)).map fun x => x.1.now

theorem denials_cons (g : Gate) (key : Key) (x : Step × Answer) (l : List (Step × Answer)) :
    g.denials key (x :: l) =
      if g.denies key x = true then x.1.now :: g.denials key l else g.denials key l := by
  unfold denials
  rw [List.filter_cons]
  split <;> rfl

/-- A step at which the store does not fail, the clock is not at its end, and nothing but a denial or
a refusal happens to a circuit. -/
structure Lone (g : Gate) (key : Key) (x : Step × Answer) : Prop where
  healthy : x.1.Healthy
  before_end : x.1.now < maxWord
  no_admission : key ∈ g.guarded x.1.action → x.2.admits = false
  no_report : g.reported x.1.action ≠ some key
  no_reset : g.resets key x.1.action = false

/-- Two denials are less than twice the recovery time apart, in whole milliseconds. -/
def Close (g : Gate) (s u : UInt64) : Prop :=
  u.toNat < s.toNat + g.breaker.settings.recovery.double.wholeMillis

/-- A circuit's denials in a run, each close to the one before it, with nothing else between them that
the circuit notices: they are as many as the threshold, and the last one comes at an instant that is
the latest of the run. -/
structure Flood (g : Gate) (key : Key) (close : UInt64 → UInt64 → Prop) (last : UInt64)
    (l : List (Step × Answer)) : Prop where
  lone : ∀ x ∈ l, g.Lone key x
  many : (g.denials key l).length = g.breaker.thresholds.failures.toNat
  close : (g.denials key l).IsChain close
  ends : (g.denials key l).getLast? = some last
  latest : ∀ x ∈ l, x.1.now ≤ last

/-- A step that does not ask a circuit, report on it or reset it. -/
structure Quiet (g : Gate) (key : Key) (s : Step) : Prop where
  healthy : s.Healthy
  no_request : key ∉ g.guarded s.action
  no_report : g.reported s.action ≠ some key
  no_reset : g.resets key s.action = false

/-- A step of a flood: a denial is counted, and everything else leaves the circuit as it was. -/
theorem Counting.take (hg : g.Built pl) (hkey : key = g.policyCircuit t p)
    (hc : Counting g.breaker key times env) (hle : env.now ≤ s.now)
    (hs : g.Lone key (s, ((g.take s).on env).1)) :
    ((g.take s).on env).2.now = s.now ∧
      if g.denies key (s, ((g.take s).on env).1) = true then
        (∀ last ∈ times.getLast?, s.now < satAdd last g.breaker.settings.recordTtl.millis) →
        Counting g.breaker key (times ++ [s.now]) ((g.take s).on env).2 ∨
          (times ++ [s.now]).length = g.breaker.thresholds.failures.toNat ∧
            Tripped g.breaker key s.now ((g.take s).on env).2
      else Counting g.breaker key times ((g.take s).on env).2 := by
  obtain ⟨hhealthy, _, hadmission, hreport, hreset⟩ := hs
  dsimp only at hhealthy hadmission hreport hreset
  rw [hkey, mem_guarded_iff, ← hkey] at hadmission
  have hdenies : ∀ a, g.denies key (s, a) = (decide (g.fed s.action = some key) && a.limited) := by
    intro a
    simp only [denies, hkey, mem_guarded_iff]
  by_cases hfed : g.fed s.action = some key
  · obtain ⟨d, env', htake, ⟨hopen, _, hu⟩ | ⟨hruled, h', hnow, _, hslot⟩⟩ :=
      take_of_request hg hc.healthy hhealthy hfed
    · rw [htake, hdenies, if_neg (by simp [Answer.limited, hopen])]
      exact ⟨hu.now_eq, hc.of_unmoved hle hu⟩
    · have hdenied : d.allowed = false := by simpa [htake, Answer.admits] using hadmission hfed
      rw [hdenied] at hslot
      rw [htake, hdenies, if_pos (by simp [Answer.limited, hfed, hruled, hdenied])]
      exact ⟨hnow, fun hkept => hc.strike hle hkept h' hnow hslot⟩
  · have hu := take_of_quiet hg hkey hc.healthy hhealthy hfed hreport hreset
    rw [hdenies, if_neg (by simp [hfed])]
    exact ⟨hu.now_eq, hc.of_unmoved hle hu⟩

/-- **While the recovery time of an opening lasts** every request that the circuit guards is
refused. -/
theorem Tripped.replay (hg : g.Built pl) (hkey : key = g.policyCircuit t p) {run : List Step}
    (ht : Tripped g.breaker key opened env)
    (hmillis : 1 ≤ g.breaker.settings.recovery.wholeMillis) (honward : Onward env run)
    (hcalm : ∀ s ∈ run, g.Calm key opened s) :
    Tripped g.breaker key opened (g.left run env) ∧
      ∀ x ∈ g.traced run env, key ∈ g.guarded x.1.action → x.2.shut = true := by
  induction run generalizing env with
  | nil => exact ⟨ht, fun _ hx => absurd hx List.not_mem_nil⟩
  | cons s run ih =>
    obtain ⟨hle, honward⟩ := onward_cons honward
    obtain ⟨hs, hcalm⟩ := List.forall_mem_cons.mp hcalm
    obtain ⟨ht', hnow, hshut⟩ := ht.take hg hkey hmillis hle hs
    rw [← hnow] at honward
    obtain ⟨hend, hrest⟩ := ih ht' honward hcalm
    refine ⟨hend, List.forall_mem_cons.mpr ⟨fun hguarded => ?_, hrest⟩⟩
    rw [hkey, mem_guarded_iff, ← hkey] at hguarded
    exact hshut hguarded

/-- A circuit that nobody asks, reports on or resets stays as it is. -/
theorem Tripped.replay_quiet (hg : g.Built pl) (hkey : key = g.policyCircuit t p)
    {run rest : List Step} (ht : Tripped g.breaker key opened env)
    (honward : Onward env (run ++ rest)) (hquiet : ∀ s ∈ run, g.Quiet key s) :
    Tripped g.breaker key opened (g.left run env) ∧ Onward (g.left run env) rest := by
  induction run generalizing env with
  | nil => exact ⟨ht, honward⟩
  | cons s run ih =>
    obtain ⟨hle, honward⟩ := onward_cons honward
    obtain ⟨⟨hs, hrequest, hreport, hreset⟩, hquiet⟩ := List.forall_mem_cons.mp hquiet
    rw [hkey, mem_guarded_iff, ← hkey] at hrequest
    have hu := take_of_quiet hg hkey ht.healthy hs hrequest hreport hreset
    rw [← show ((g.take s).on env).2.now = s.now from hu.now_eq] at honward
    exact ih (ht.of_unmoved hle hu) honward hquiet

theorem lt_of_close {s u : UInt64} (h : g.Close s u) (hmax : u < maxWord) :
    u < satAdd s g.breaker.settings.recordTtl.millis := by
  rw [lt_satAdd_iff hmax, Circuit.Settings.recordTtl, Duration.toNat_millis]
  rw [lt_maxWord_iff] at hmax
  unfold Close at h
  omega

/-- **A flood opens the circuit** at its last denial, however many denials it has counted before. -/
theorem Counting.replay (hg : g.Built pl) (hkey : key = g.policyCircuit t p) {run : List Step}
    {last : UInt64} (hc : Counting g.breaker key times env)
    (hmillis : 1 ≤ g.breaker.settings.recovery.wholeMillis) (honward : Onward env run)
    (hlone : ∀ x ∈ g.traced run env, g.Lone key x)
    (hclose : (times ++ g.denials key (g.traced run env)).IsChain g.Close)
    (hmany : (times ++ g.denials key (g.traced run env)).length =
      g.breaker.thresholds.failures.toNat)
    (hends : (times ++ g.denials key (g.traced run env)).getLast? = some last)
    (hlatest : ∀ x ∈ g.traced run env, x.1.now ≤ last) :
    Tripped g.breaker key last (g.left run env) := by
  induction run generalizing times env with
  | nil =>
    have hfew := hc.few
    rw [← hmany] at hfew
    exact absurd hfew (by simp [traced, denials])
  | cons s run ih =>
    obtain ⟨hle, honward⟩ := onward_cons honward
    rw [traced_cons] at hlone hlatest
    rw [traced_cons, denials_cons] at hclose hmany hends
    obtain ⟨hs, hlone⟩ := List.forall_mem_cons.mp hlone
    obtain ⟨_, hlatest⟩ := List.forall_mem_cons.mp hlatest
    obtain ⟨hnow, htaken⟩ := hc.take hg hkey hle hs
    rw [← hnow] at honward
    show Tripped g.breaker key last (g.left run ((g.take s).on env).2)
    cases hdenies : g.denies key (s, ((g.take s).on env).1) with
    | false =>
      rw [hdenies, if_neg Bool.false_ne_true] at hclose hmany hends htaken
      exact ih htaken honward hlone hclose hmany hends hlatest
    | true =>
      rw [hdenies, if_pos rfl] at hclose hmany hends htaken
      have hkept : ∀ last ∈ times.getLast?,
          s.now < satAdd last g.breaker.settings.recordTtl.millis := fun last hlast =>
        lt_of_close ((List.isChain_append.mp hclose).2.2 last hlast s.now rfl) hs.before_end
      rw [List.append_cons] at hclose hmany hends
      rcases htaken hkept with hcounting | ⟨hlength, htripped⟩
      · exact ih hcounting honward hlone hclose hmany hends hlatest
      · -- no denial comes after the one that opens the circuit, and no time passes
        have hnone : g.denials key (g.traced run ((g.take s).on env).2) = [] := by
          rw [List.length_append, hlength] at hmany
          exact List.eq_nil_of_length_eq_zero (by omega)
        rw [hnone, List.append_nil, List.getLast?_concat] at hends
        obtain rfl := Option.some.inj hends
        have hcalm : ∀ x ∈ g.traced run ((g.take s).on env).2, g.Calm key s.now x.1 := by
          intro x hx
          have hlast := UInt64.le_iff_toNat_le.mp (hlatest x hx)
          obtain ⟨hhealthy, hmax, _, _, hreset⟩ := hlone x hx
          exact ⟨hhealthy, hmax, Nat.le_add_right_of_le hlast, hreset⟩
        exact (htripped.replay hg hkey hmillis honward (forall_of_traced hcalm)).1

/-! ## The first request after the recovery time -/

/-- Once the recovery time is over the circuit lets a request through; if the request is refused it
is for another circuit. -/
theorem Tripped.probe (ht : Tripped g.breaker key opened env) (hs : s.Healthy) (hle : env.now ≤ s.now)
    (hguarded : key ∈ g.guarded s.action)
    (hnow : opened.toNat + g.breaker.settings.recovery.wholeMillis < s.now.toNat) :
    ((g.breaker.admits key).on (s.env env)).1 = true ∧
      (((g.take s).on env).1.shut = true → ∃ k ∈ g.guarded s.action, k ≠ key ∧
        ((g.breaker.admits k).on (s.env env)).1 = false) := by
  have h := Step.healthy_env hs ht.healthy
  obtain ⟨env', hadmits, _⟩ := g.breaker.admits_of_healthy h key
  rw [Step.slot_env, Step.now_env, ht.through hle hnow] at hadmits
  refine ⟨by rw [hadmits], fun hshut => ?_⟩
  rw [on_take] at hshut
  cases ha : s.action with
  | request u path policy =>
    rw [ha] at hshut hguarded
    cases hq : g.policies.get? policy with
    | none => simp [guarded, hq] at hguarded
    | some q =>
      simp only [perform, request, withPolicy, Gate.policy, hq, GateM.on_bind, GateM.on_pure,
        Answer.ofExcept, Answer.shut, Bool.and_eq_true] at hshut
      have hkeys : g.guarded (.request u path policy) = g.guards u q := by
        simp only [guarded, hq, Option.map_some, Option.getD_some]
      rcases hopen : (firstOpen g.breaker (g.guards u q)).on (s.env env) with ⟨_ | k, env₁⟩
      · have hnone := (circuitOpen_judge_iff g u path q (s.env env)).mp hshut.2
        rw [hopen] at hnone
        exact absurd rfl hnone
      · obtain ⟨hk, hpoll⟩ := firstOpen_some_of_healthy h (guards_nodup g u q) hopen
        obtain ⟨env₂, hadmits', _⟩ := g.breaker.admits_of_healthy h k
        rw [hpoll] at hadmits'
        refine ⟨k, hkeys ▸ hk, ?_, by rw [hadmits']⟩
        rintro rfl
        rw [hadmits] at hadmits'
        cases hadmits'
  | _ =>
    rw [ha] at hguarded
    simp [guarded] at hguarded

/-- **A sustained flood is cut off.**  Let a gate be built whose recovery time is a millisecond or
more.  While the store does not fail and the clock does not fall, let a circuit that guards the
requests of a tracker under a policy be closed without failures, and then as many of these requests
be denied for the quota as the breaker's threshold says, each in less than twice the recovery time,
in whole milliseconds, after the one before, and nothing else be admitted, reported or reset that
the circuit would count.

Then for the recovery time after the last denial every request that the circuit guards is refused
because a circuit is open, whatever else is asked and reported, unless the circuit is reset.  If
after that nobody asks, reports or resets, the next request is let through by the circuit; only
another circuit can refuse it. -/
theorem shut_after_flood (pl : Plan) (g : Gate) (built built' : Env)
    (hbuild : pl.build.on built = (.ok g, built')) (hmillis : 1 ≤ pl.circuit.recovery.wholeMillis)
    (t : Tracker) (p : Policy) (key : Key) (hkey : key = g.policyCircuit t p) (env : Env)
    (h : env.Healthy) (hclosed : ((g.breaker.status key).on env).1.circuit.state = .closed)
    (hzero : ((g.breaker.status key).on env).1.circuit.failures = 0)
    (flood : List Step) (honward : Onward env flood) (last : UInt64)
    (hflood : g.Flood key g.Close last (g.traced flood env))
    (calm : List Step) (honward₁ : Onward (g.left flood env) calm)
    (hcalm : ∀ s ∈ calm, g.Calm key last s) :
    (∀ x ∈ g.traced calm (g.left flood env), key ∈ g.guarded x.1.action → x.2.shut = true) ∧
    ∀ (quiet : List Step) (probe : Step),
      Onward (g.left calm (g.left flood env)) (quiet ++ [probe]) → (∀ s ∈ quiet, g.Quiet key s) →
      probe.Healthy → key ∈ g.guarded probe.action →
      last.toNat + pl.circuit.recovery.wholeMillis < probe.now.toNat →
      let met := g.left quiet (g.left calm (g.left flood env))
      ((g.breaker.admits key).on (probe.env met)).1 = true ∧
        (((g.take probe).on met).1.shut = true → ∃ k ∈ g.guarded probe.action, k ≠ key ∧
          ((g.breaker.admits k).on (probe.env met)).1 = false) := by
  have hg := Plan.built_of_build hbuild
  have hsettings : g.breaker.settings = pl.circuit := by rw [hg.breaker_eq]
  have hpos : 0 < g.breaker.thresholds.failures.toNat := by
    rw [Breaker.thresholds, hsettings]
    exact Circuit.Settings.failureThreshold_pos hg.circuit_valid
  rw [← hsettings] at hmillis ⊢
  obtain ⟨hlone, hmany, hclose, hends, hlatest⟩ := hflood
  have htripped := (counting_of_closed h hpos hclosed hzero).replay hg hkey hmillis honward hlone
    hclose hmany hends hlatest
  obtain ⟨hstill, hshut⟩ := htripped.replay hg hkey hmillis honward₁ hcalm
  refine ⟨hshut, fun quiet probe honward₂ hquiet hs hguarded hnow => ?_⟩
  obtain ⟨hmet, hlast⟩ := hstill.replay_quiet hg hkey honward₂ hquiet
  exact hmet.probe hs (onward_cons hlast).1 hguarded hnow

theorem healthy_of_request (hg : g.Built pl) (h : env.Healthy) (hs : s.Healthy)
    (hfed : g.fed s.action = some key) : ((g.take s).on env).2.Healthy := by
  obtain ⟨d, env', htake, ⟨_, _, hu⟩ | ⟨_, h', _⟩⟩ := take_of_request hg h hs hfed <;> rw [htake]
  · exact hu.healthy
  · exact h'

/-- A run of healthy steps is a flood if what can be computed of it says so. -/
theorem flood_of_steps {run : List Step} {close : UInt64 → UInt64 → Prop} {last : UInt64}
    {times : List UInt64} (hhealthy : ∀ s ∈ run, s.Healthy) (hmax : ∀ s ∈ run, s.now < maxWord)
    (hadmission : ∀ x ∈ g.traced run env, key ∈ g.guarded x.1.action → x.2.admits = false)
    (hothers : ∀ s ∈ run, g.reported s.action ≠ some key ∧ g.resets key s.action = false)
    (htimes : g.denials key (g.traced run env) = times)
    (hmany : times.length = g.breaker.thresholds.failures.toNat) (hclose : times.IsChain close)
    (hends : times.getLast? = some last) (hlatest : ∀ s ∈ run, s.now ≤ last) :
    g.Flood key close last (g.traced run env) := by
  subst htimes
  have hmem : ∀ x ∈ g.traced run env, x.1 ∈ run := fun x hx => (List.of_mem_zip hx).1
  refine ⟨fun x hx => ?_, hmany, hclose, hends, fun x hx => hlatest _ (hmem x hx)⟩
  exact ⟨hhealthy _ (hmem x hx), hmax _ (hmem x hx), hadmission x hx, (hothers _ (hmem x hx)).1,
    (hothers _ (hmem x hx)).2⟩

instance (env : Env) (run : List Step) : Decidable (Onward env run) :=
  inferInstanceAs (Decidable ((env.now :: run.map Step.now).Pairwise (· ≤ ·)))

instance (g : Gate) (s u : UInt64) : Decidable (g.Close s u) :=
  inferInstanceAs (Decidable (u.toNat < s.toNat + g.breaker.settings.recovery.double.wholeMillis))

/-- A gate of two requests a second, where two failures open a circuit for some time. -/
def twoStrikes (recovery : Duration) (scope : Circuit.Scope) : Gate :=
  (Plan.twoPerSecond ⟨2, 1, recovery⟩ scope).validGate

/-- A request of one tracker. -/
def Step.login (now : UInt64) : Step := .at now (.request (.user "alice") "/" "login")

/-- What is left when the tracker has used up the quota of the first second. -/
def usedUp (g : Gate) : Env := g.left [.login 0, .login 0] (.start 0 (.empty none))

theorem healthy_usedUp (hg : g.Built pl) (hfed : g.fed (Step.login 0).action = some key) :
    (usedUp g).Healthy := by
  have hlogin : (Step.login 0).Healthy := Step.healthy_at 0 _
  rw [usedUp, left, on_replay_cons, on_replay_cons]
  exact healthy_of_request hg (healthy_of_request hg (Env.healthy_start 0) hlogin hfed) hlogin hfed

/-- Two denials at 100 and 300 open a policy's circuit for five seconds, whatever is reported; the
request after that is let through. -/
theorem shut_after_twoDenials :
    let g := twoStrikes (.ofMillis 5000) .perPolicy
    let key := Key.scoped (.user "alice") "login"
    let flood := [Step.login 100, .login 300]
    let calm := [Step.at 400 (.reportFor (.user "alice") "login" false), .login 500, .login 5300]
    let quiet := [Step.at 5400 (.statusOf (.user "alice"))]
    (∀ x ∈ g.traced calm (g.left flood (usedUp g)), key ∈ g.guarded x.1.action →
      x.2.shut = true) ∧
    ((g.breaker.admits key).on ((Step.login 5500).env
      (g.left quiet (g.left calm (g.left flood (usedUp g)))))).1 = true := by
  intro g key flood calm quiet
  obtain ⟨built, hbuild⟩ : ∃ env, (Plan.twoPerSecond ⟨2, 1, .ofMillis 5000⟩ .perPolicy).build.on
      (.start 0 (.empty none)) = (.ok g, env) := Plan.build_twoPerSecond _ rfl _ _
  have hlogin : ∀ now, (Step.login now).Healthy := fun now => Step.healthy_at now _
  have hfed : g.fed (Step.login 0).action = some key := by decide +kernel
  obtain ⟨hclosed, hadmission, htimes, honward, honward₁, honward₂, hguarded⟩ :
      ((g.breaker.status key).on (usedUp g)).1.circuit = .fresh ∧
      (∀ x ∈ g.traced flood (usedUp g), key ∈ g.guarded x.1.action → x.2.admits = false) ∧
      g.denials key (g.traced flood (usedUp g)) = [100, 300] ∧
      Onward (usedUp g) flood ∧ Onward (g.left flood (usedUp g)) calm ∧
      Onward (g.left calm (g.left flood (usedUp g))) (quiet ++ [.login 5500]) ∧
      key ∈ g.guarded (Step.login 5500).action := by
    decide +kernel
  have hflood : g.Flood key g.Close 300 (g.traced flood (usedUp g)) :=
    flood_of_steps (by simp [flood, hlogin]) (by decide) hadmission (by decide +kernel) htimes
      (by decide) (by decide) rfl (by decide)
  have hcalm : ∀ s ∈ calm, g.Calm key 300 s := by
    have hhealthy : ∀ s ∈ calm, s.Healthy := by simp [calm, hlogin, Step.healthy_at]
    have hrest : ∀ s ∈ calm, s.now < maxWord ∧
        s.now.toNat ≤ UInt64.toNat 300 + g.breaker.settings.recovery.wholeMillis ∧
        g.resets key s.action = false := by
      decide +kernel
    exact fun s hs => ⟨hhealthy s hs, (hrest s hs).1, (hrest s hs).2.1, (hrest s hs).2.2⟩
  obtain ⟨hshut, hthrough⟩ := shut_after_flood (.twoPerSecond ⟨2, 1, .ofMillis 5000⟩ .perPolicy) g
    (.start 0 (.empty none)) built hbuild (by decide) (.user "alice") (.twoPerSecond .fixedWindow)
    key rfl (usedUp g) (healthy_usedUp (Plan.built_of_build hbuild) hfed) (by rw [hclosed]; rfl)
    (by rw [hclosed]; rfl) flood honward 300 hflood calm honward₁ hcalm
  have hquiet : ∀ s ∈ quiet, g.Quiet key s := by
    intro s hs
    obtain rfl := List.mem_singleton.mp hs
    exact ⟨Step.healthy_at _ _, List.not_mem_nil, nofun, rfl⟩
  exact ⟨hshut, (hthrough quiet (.login 5500) honward₂ hquiet (hlogin 5500) hguarded (by decide)).1⟩

/-- Where the recovery time is not a whole number of milliseconds, the record of a denial can expire
before twice the recovery time is over: at 1.2 ms the denial at 1 is forgotten at 3, though 2.4 ms
have not passed, and the next request is denied for the quota once more. -/
theorem not_shut_after_fraction :
    let recovery := Duration.ofParts 0 1200000
    let g := twoStrikes recovery .perTracker
    let key := Key.ofTracker (.user "alice")
    let flood := [Step.login 1, .login 3]
    (∃ env, (Plan.twoPerSecond ⟨2, 1, recovery⟩ .perTracker).build.on (.start 0 (.empty none)) =
      (.ok g, env)) ∧
    1 ≤ recovery.wholeMillis ∧ key = g.policyCircuit (.user "alice") (.twoPerSecond .fixedWindow) ∧
    (usedUp g).Healthy ∧ ((g.breaker.status key).on (usedUp g)).1.circuit = .fresh ∧
    Onward (usedUp g) flood ∧
    g.Flood key (fun s u => (u.toNat - s.toNat) * Duration.perMilli < 2 * recovery.nanos) 3
      (g.traced flood (usedUp g)) ∧
    Onward (g.left flood (usedUp g)) [.login 3] ∧ g.Calm key 3 (.login 3) ∧
    key ∈ g.guarded (Step.login 3).action ∧
    ((g.take (.login 3)).on (g.left flood (usedUp g))).1.shut = false := by
  intro recovery g key flood
  obtain ⟨built, hbuild⟩ : ∃ env, (Plan.twoPerSecond ⟨2, 1, recovery⟩ .perTracker).build.on
      (.start 0 (.empty none)) = (.ok g, env) := Plan.build_twoPerSecond _ rfl _ _
  have hlogin : ∀ now, (Step.login now).Healthy := fun now => Step.healthy_at now _
  have hfed : g.fed (Step.login 0).action = some key := by decide +kernel
  obtain ⟨hclosed, hadmission, htimes, honward, honward₁, hguarded, hanswer⟩ :
      ((g.breaker.status key).on (usedUp g)).1.circuit = .fresh ∧
      (∀ x ∈ g.traced flood (usedUp g), key ∈ g.guarded x.1.action → x.2.admits = false) ∧
      g.denials key (g.traced flood (usedUp g)) = [1, 3] ∧
      Onward (usedUp g) flood ∧ Onward (g.left flood (usedUp g)) [.login 3] ∧
      key ∈ g.guarded (Step.login 3).action ∧
      ((g.take (.login 3)).on (g.left flood (usedUp g))).1.shut = false := by
    decide +kernel
  have hflood : g.Flood key
      (fun s u => (u.toNat - s.toNat) * Duration.perMilli < 2 * recovery.nanos) 3
      (g.traced flood (usedUp g)) :=
    flood_of_steps (by simp [flood, hlogin]) (by decide) hadmission (by decide +kernel) htimes
      (by decide) (by decide) rfl (by decide)
  exact ⟨⟨built, hbuild⟩, by decide, rfl, healthy_usedUp (Plan.built_of_build hbuild) hfed, hclosed,
    honward, hflood, honward₁, ⟨hlogin 3, by decide, by decide, by decide +kernel⟩, hguarded,
    hanswer⟩

end Gate

end Turnstile
