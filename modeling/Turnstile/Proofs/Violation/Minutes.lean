import Turnstile.Proofs.Batches
import Turnstile.Proofs.Violation.Kept
import Turnstile.Proofs.Violation.Ranking

/-!
# Violations in a minute

A minute of a tracker is not one of the clock: it starts with a violation and is over sixty seconds
later, and the first violation from then on starts the next one.  The violations of a tracker split
into minutes in one way only, and the counter of the tracker counts those of the last one.  So an
alarm is raised for each violation that is one too many in its minute, and for no other.

* `Violation.Minute`, `Violation.Minutes`: how violations are cut into minutes.
* `Violation.Minute.next_of_lt`, `Violation.Minute.next_of_le`: the counter of a minute.
* `Monitor.reports`: what is answered to the violations of a run, and what is logged.
* `Monitor.Counted`, `Monitor.counted_offences`: the counter and the reports of a run.
* `Monitor.alarms_exact`: who is reported, and what the statistics say about the minute.
-/

set_option autoImplicit false

namespace Turnstile

open Violation

/-- What is logged for those who watch security is logged as an error. -/
theorem Event.level_of_security {e : Event} (h : e.security = true) : e.level = .error := by
  cases e with
  | attackSuspected => rfl
  | _ => cases h

namespace Violation

/-! ## Minutes -/

/-- The violations of a tracker that are counted together. -/
abbrev Minute : Type := Batch Offence

namespace Minute

/-- The instant at which a minute is over. -/
def ends (w : Minute) : Nat := w.first.now.toNat + 60000

/-- The counter of a minute. -/
def counter (w : Minute) : Counter :=
  ⟨wordOfNat w.items.length, satAdd w.first.now minuteMillis⟩

/-- The counter of a minute as the store has it. -/
def entry (w : Minute) : Entry := ⟨Binary.encode (counter w), some (counter w).endsAt⟩

end Minute

/-- A run of violations is cut into minutes.  Violations belong to a minute until it is over, and to
a new one from then on. -/
def Minutes (run : List Offence) (ws : List Minute) : Prop :=
  Batches (fun o => o.now.toNat) (fun o => o.now.toNat + 60000) run ws

/-- The violations of the minute that an instant belongs to, none if the last one is over. -/
def lastMinute (ws : List Minute) (now : UInt64) : UInt64 :=
  match ws.getLast? with
  | some w => if now.toNat < w.ends then wordOfNat w.items.length else 0
  | none => 0

variable {run : List Offence} {ws : List Minute} {w : Minute} {o : Offence} {now : UInt64}

/-! ## The counter of a minute -/

namespace Minute

theorem recordIn_entry (w : Minute) (hmax : now < maxWord) :
    recordIn Counter now (some w.entry) = if now.toNat < w.ends then some w.counter else none := by
  have hiff : now < w.counter.endsAt ↔ now.toNat < w.ends := lt_satAdd_iff hmax
  exact (w.counter.recordIn_entry now).trans (if_congr hiff rfl rfl)

/-- One more is counted until the minute is over. -/
theorem next_of_lt (hmax : o.now < maxWord) (h : o.now.toNat < w.ends) :
    Counter.next (recordIn Counter o.now (some w.entry)) o.now Monitor.minute =
      counter (w.add o) := by
  have hlt : o.now < w.counter.endsAt := (lt_satAdd_iff hmax).mpr h
  rw [recordIn_entry w hmax, if_pos h, Counter.next_of_lt hlt]
  simp [counter, Batch.add, Batch.items, satAdd_wordOfNat_one]

/-- A new minute starts when there is none, or when it is over. -/
theorem next_of_le (hmax : o.now < maxWord) (h : ∀ w ∈ ws.getLast?, w.ends ≤ o.now.toNat) :
    Counter.next (recordIn Counter o.now (ws.getLast?.map entry)) o.now Monitor.minute =
      counter ⟨o, []⟩ := by
  have hnone : recordIn Counter o.now (ws.getLast?.map entry) = none := by
    cases hlast : ws.getLast? with
    | none => rfl
    | some w =>
      have hover : ¬ o.now.toNat < w.ends := Nat.not_lt.mpr (h w hlast)
      rw [Option.map_some, recordIn_entry w hmax, if_neg hover]
  rw [hnone, Counter.next, Counter.opened, Monitor.minute, Duration.millis_ofMillis]
  rfl

theorem incremented_eq {slot : Option Entry} {now : UInt64}
    (h : Counter.next (recordIn Counter now slot) now Monitor.minute = w.counter) :
    incremented now Monitor.minute slot = some w.entry := by
  rw [incremented, h]
  rfl

/-- What the counter reads. -/
theorem reading_entry (hmax : now < maxWord) :
    Counter.reading (recordIn Counter now (ws.getLast?.map entry)) now = lastMinute ws now := by
  unfold lastMinute
  cases ws.getLast? with
  | none => rfl
  | some w =>
    rw [Option.map_some, recordIn_entry w hmax]
    dsimp only
    split
    · rename_i h
      have hlt : now < w.counter.endsAt := (lt_satAdd_iff hmax).mpr h
      exact Counter.reading_of_lt hlt
    · rfl

end Minute

end Violation

namespace Monitor

variable {m : Monitor} {t u : Tracker} {path : String} {run : List Offence} {o : Offence}
  {ws : List Minute} {d : UInt64} {env env' : Env}

/-! ## Reports -/

/-- What comes of a violation. -/
structure Report where
  offence : Offence
  answer : Option Anomaly
  /-- What is logged while the violation is recorded. -/
  events : List Event

/-- A report to those who watch security. -/
structure Signal where
  offence : Offence
  answer : Option Anomaly
  alarms : List Event

def Report.signal (r : Report) : Signal := ⟨r.offence, r.answer, r.events.filter Event.security⟩

def report (m : Monitor) (o : Offence) (env : Env) : Report :=
  ⟨o, ((m.offend o).on env).1, ((m.offend o).on env).2.events.drop env.events.length⟩

/-- What comes of the violations of a run, one after the other. -/
def reports (m : Monitor) : List Offence → Env → List Report
  | [], _ => []
  | o :: run, env => m.report o env :: m.reports run ((m.offend o).on env).2

/-- What is due to a violation by its number in the minute: an anomaly and an alarm if it is one too
many, and otherwise neither. -/
def due (m : Monitor) (o : Offence) (k : Nat) : Signal :=
  if wordOfNat k ≤ m.settings.anomalyThreshold then ⟨o, none, []⟩
  else ⟨o, some ⟨o.tracker, o.path, wordOfNat k, m.settings.anomalyThreshold⟩,
    [.attackSuspected o.tracker o.path o.violation.policy o.violation.circuitOpen (wordOfNat k)
      m.settings.anomalyThreshold]⟩

/-- What is due to the violations of some minutes. -/
def dues (m : Monitor) (ws : List Minute) : List Signal :=
  ws.flatMap fun w => w.items.mapIdx fun i o => m.due o (i + 1)

theorem due_eq (m : Monitor) (o : Offence) (k : Nat) :
    m.due o k = ⟨o, m.anomaly? o.tracker o.path (wordOfNat k), alarms o.tracker o.path o.violation
      (m.anomaly? o.tracker o.path (wordOfNat k))⟩ := by
  unfold due anomaly?
  split
  · rfl
  · rfl

theorem offences_concat (m : Monitor) (run : List Offence) (o : Offence) (env : Env) :
    ((m.offences (run ++ [o])).on env).2 = ((m.offend o).on ((m.offences run).on env).2).2 := by
  induction run generalizing env with
  | nil => rfl
  | cons o' run ih =>
    simp only [List.cons_append, offences, GateM.on_bind, GateM.on_pure]
    exact ih _

theorem reports_concat (m : Monitor) (run : List Offence) (o : Offence) (env : Env) :
    m.reports (run ++ [o]) env =
      m.reports run env ++ [m.report o ((m.offences run).on env).2] := by
  induction run generalizing env with
  | nil => rfl
  | cons o' run ih =>
    simp only [List.cons_append, reports, offences, GateM.on_bind, GateM.on_pure, ih]

theorem on_offend (m : Monitor) (o : Offence) (env : Env) :
    (m.offend o).on env =
      (m.recordViolation o.tracker o.path o.violation).on (env.setClock o.now) := by
  simp only [offend, GateM.on_bind, GateM.on_modify]

/-- Who watches security is told of the anomaly that is answered, and of nothing else. -/
theorem signal_report (m : Monitor) (o : Offence) (env : Env) :
    (m.report o env).signal = ⟨o, ((m.offend o).on env).1,
      alarms o.tracker o.path o.violation ((m.offend o).on env).1⟩ := by
  obtain ⟨new, hnew, hsecurity⟩ :=
    m.alarms_recordViolation o.tracker o.path o.violation (env.setClock o.now)
  rw [Env.events_setClock] at hnew
  simp only [report, Report.signal, on_offend, hnew, List.drop_left, hsecurity]

/-! ## A run -/

theorem minuteKey_inj (h : m.shelf.key (minuteName t) = m.shelf.key (minuteName u)) : t = u := by
  have h := congrArg String.toList (Shelf.key_inj h)
  rw [minuteName, minuteName, String.toList_append, String.toList_append (s := "vm:minute:")] at h
  exact Tracker.key_inj.mp (String.toList_inj.mp (List.append_cancel_left h))

/-- The minutes of a tracker are changed by its own violations only. -/
theorem not_marks_minute (hne : t ≠ u) : ¬ m.Marks d t path (m.shelf.key (minuteName u)) := by
  rintro (heq | heq | ⟨k, heq⟩ | heq)
  · exact not_ofDay_minuteKey u (heq ▸ m.ofDay_dayKey d t.key)
  · exact not_ofDay_minuteKey u (heq ▸ m.ofDay_pathKey d path)
  · exact not_ofDay_minuteKey u (heq ▸ m.ofDay_rosterKey d k)
  · exact hne (minuteKey_inj heq).symm

/-- The minutes of a tracker after a run: its violations split into them, the store has the counter
of the last one, and reported was what was due. -/
structure Counted (m : Monitor) (t : Tracker) (run : List Offence) (reports : List Report)
    (ws : List Minute) (env : Env) : Prop where
  minutes : Minutes (run.filter fun o => o.tracker = t) ws
  slot : env.slot (m.shelf.key (minuteName t)) = ws.getLast?.map Minute.entry
  signals : (reports.filter fun r => r.offence.tracker = t).map Report.signal = m.dues ws

/-- One more violation of a tracker starts a minute or belongs to the last one, and the counter and
what is due follow. -/
theorem exists_minute (h : Minutes run ws) (hmax : o.now < maxWord)
    (hle : ∀ o' ∈ run, o'.now ≤ o.now) (m : Monitor) :
    ∃ ws' w, Minutes (run ++ [o]) (ws' ++ [w]) ∧
      Counter.next (recordIn Counter o.now (ws.getLast?.map Minute.entry)) o.now minute =
        w.counter ∧
      m.dues (ws' ++ [w]) = m.dues ws ++ [m.due o w.items.length] := by
  have hle' : ∀ o' ∈ run, o'.now.toNat ≤ o.now.toNat := fun o' ho' =>
    UInt64.le_iff_toNat_le.mp (hle o' ho')
  obtain ⟨hends, hstart⟩ | ⟨init, w, rfl, hlt, hadd⟩ := h.concat hle'
  · refine ⟨ws, ⟨o, []⟩, hstart, Minute.next_of_le hmax hends, ?_⟩
    simp [dues, Batch.items]
  · refine ⟨init, w.add o, hadd, ?_, ?_⟩
    · rw [List.getLast?_concat, Option.map_some]
      exact Minute.next_of_lt hmax hlt
    · have hitems : (w.add o).items = w.items ++ [o] := rfl
      simp only [dues, List.flatMap_append, List.flatMap_singleton, hitems, List.mapIdx_concat,
        List.length_append, List.length_singleton, List.append_assoc]

/-- **One more violation** is reported as it is due, and counted. -/
theorem Counted.offend {reports : List Report} (h : m.Counted t run reports ws env)
    (hsound : m.Sound env) (hmax : o.now < maxWord) (hle : ∀ o' ∈ run, o'.now ≤ o.now) :
    m.Sound ((m.offend o).on env).2 ∧
      ∃ ws', m.Counted t (run ++ [o]) (reports ++ [m.report o env]) ws'
        ((m.offend o).on env).2 := by
  obtain ⟨env', hon, hf, hsound', _, _, hminute⟩ := recordViolation_of_sound
    (hsound.of_slots (hsound.healthy.setClock o.now) fun _ => rfl) o.tracker o.path o.violation
  have hsignal := m.signal_report o env
  have hoffence : (m.report o env).offence = o := rfl
  rw [on_offend, hon] at hsignal ⊢
  refine ⟨hsound', ?_⟩
  dsimp only at hsignal hf ⊢
  by_cases ht : o.tracker = t
  · subst ht
    rw [Env.slot_setClock, Env.now_setClock, h.slot] at hsignal hminute
    have hpast : ∀ o' ∈ run.filter fun o' => o'.tracker = o.tracker, o'.now ≤ o.now :=
      fun o' ho' => hle o' (List.mem_of_mem_filter ho')
    obtain ⟨ws', w, hminutes, hnext, hdues⟩ := exists_minute h.minutes hmax hpast m
    refine ⟨ws' ++ [w], ?_, ?_, ?_⟩
    · simpa using hminutes
    · rw [hminute, Minute.incremented_eq hnext, List.getLast?_concat]
      rfl
    · have hdue : (m.report o env).signal = m.due o w.items.length := by
        rw [hsignal, hnext, due_eq]
        rfl
      rw [List.filter_append, List.map_append, h.signals, hdues, ← hdue]
      simp [hoffence]
  · refine ⟨ws, ?_, ?_, ?_⟩
    · simpa [ht] using h.minutes
    · rw [hf.slot_eq _ (not_marks_minute ht)]
      exact h.slot
    · rw [List.filter_append, List.map_append, h.signals]
      simp [hoffence, ht]

/-- **A run of violations** is reported as it is due, and the minutes of a tracker are counted. -/
theorem counted_offences (m : Monitor) (start : UInt64) (t : Tracker)
    (hsorted : (run.map Offence.now).Pairwise (· ≤ ·)) (hmax : ∀ o ∈ run, o.now < maxWord) :
    m.Sound ((m.offences run).on (.start start (.empty none))).2 ∧
      ∃ ws, m.Counted t run (m.reports run (.start start (.empty none))) ws
        ((m.offences run).on (.start start (.empty none))).2 := by
  induction run using List.reverseRecOn with
  | nil =>
    refine ⟨m.sound_start start, [], ⟨rfl, nofun, .nil⟩, ?_, rfl⟩
    exact Env.slot_start start _
  | append_singleton run o ih =>
    rw [List.map_append, List.pairwise_append] at hsorted
    obtain ⟨hpast, ho⟩ := List.forall_mem_append.mp hmax
    obtain ⟨hsound, ws, hcounted⟩ := ih hsorted.1 hpast
    rw [offences_concat, reports_concat]
    exact hcounted.offend hsound (ho o List.mem_cons_self) fun o' ho' =>
      hsorted.2.2 o'.now (List.mem_map_of_mem ho') o.now (by simp)

/-- **Nothing but alarms is logged**, as long as names are short and trackers few. -/
theorem Kept.events_reports {all : List String} {n : UInt64 → String → UInt64}
    (hshort : ∀ x ∈ all, Binary.Short x) (hfew : all.length < wordCount) (h : m.Kept all n env)
    (hhealthy : env.Healthy) (hmax : ∀ o ∈ run, o.now < maxWord)
    (hall : ∀ o ∈ run, o.tracker.key ∈ all) :
    ∀ r ∈ m.reports run env, ∀ e ∈ r.events, e.security = true := by
  induction run generalizing n env with
  | nil => exact nofun
  | cons o run ih =>
    obtain ⟨ho, hmax⟩ := List.forall_mem_cons.mp hmax
    obtain ⟨hhere, hall⟩ := List.forall_mem_cons.mp hall
    have hset : m.Kept all n (env.setClock o.now) := h.of_slots h.ownClock_eq fun _ => rfl
    have hhealthy' := hhealthy.setClock o.now
    have hevents := hset.events_recordViolation hshort hfew hhealthy' ho hhere o.path o.violation
    obtain ⟨n', hkept⟩ := hset.recordViolation hshort hfew ho hhere o.path o.violation
    have hafter : ((m.recordViolation o.tracker o.path o.violation).on
        (env.setClock o.now)).2.Healthy :=
      hhealthy'.of_frame (m.touches_recordViolation o.tracker o.path o.violation _)
    rw [reports, on_offend]
    refine List.forall_mem_cons.mpr ⟨fun e he => ?_, ih hkept hafter hmax hall⟩
    rw [report, on_offend, hevents, Env.events_setClock, List.drop_left] at he
    exact security_of_mem_alarms he

/-- **Alarms are exact.**  Whatever the settings, let a monitor start on an empty store that does
not fail, and let any trackers have violations on any paths at instants that do not fall, below the
largest word.  The violations of each tracker split into minutes in one way, and what is answered to
each and logged for those who watch security is what is due to it by its number in its minute: an
anomaly and one error if it is one too many, and otherwise nothing.  At any later instant the
statistics of the tracker give the number of violations in the last minute as long as it lasts, and
none after it.

Numbers stop at the largest word.  Nothing else is logged at all where the lengths of names and the
number of trackers are words, as for all that fits into memory. -/
theorem alarms_exact (m : Monitor) (start now : UInt64) (run : List Offence) (t : Tracker)
    (hsorted : (start :: run.map Offence.now ++ [now]).Pairwise (· ≤ ·)) (hmax : now < maxWord) :
    let env := ((m.offences run).on (.start start (.empty none))).2.setClock now
    let reports := m.reports run (.start start (.empty none))
    ∃ ws, Minutes (run.filter fun o => o.tracker = t) ws ∧
      (∀ ws', Minutes (run.filter fun o => o.tracker = t) ws' → ws' = ws) ∧
      (reports.filter fun r => r.offence.tracker = t).map Report.signal = m.dues ws ∧
      ((m.stats t).on env).1.violationsLastMinute = lastMinute ws now ∧
      (∀ r ∈ reports, ∀ e ∈ r.events, e.security = true → e.level = .error) ∧
      ((∀ o ∈ run, Binary.Short o.tracker.key) →
        (run.map fun o => o.tracker.key).dedup.length < wordCount →
        ∀ r ∈ reports, ∀ e ∈ r.events, e.security = true) := by
  intro env reports
  rw [List.cons_append, List.pairwise_cons] at hsorted
  obtain ⟨htimes, _, hlast⟩ := List.pairwise_append.mp hsorted.2
  have hbelow : ∀ o ∈ run, o.now < maxWord := fun o ho =>
    UInt64.lt_of_le_of_lt (hlast o.now (List.mem_map_of_mem ho) now (by simp)) hmax
  obtain ⟨hsound, ws, hminutes, hslot, hsignals⟩ := m.counted_offences start t htimes hbelow
  refine ⟨ws, hminutes, fun ws' => hminutes.unique, hsignals, ?_, ?_, ?_⟩
  · rw [m.stats_of_healthy (hsound.healthy.setClock now) t]
    exact (congrArg (fun slot => Counter.reading (recordIn Counter now slot) now) hslot).trans
      (Minute.reading_entry hmax)
  · intro r _ e _ he
    exact Event.level_of_security he
  · intro hshort hfew
    refine Kept.events_reports (fun x hx => ?_) hfew (m.kept_start _ start)
      (Env.healthy_start start) hbelow fun o ho => List.mem_dedup.mpr (List.mem_map_of_mem ho)
    obtain ⟨o, ho, rfl⟩ := List.mem_map.mp (List.mem_dedup.mp hx)
    exact hshort o ho

/-- A user is at it again. -/
def again (user : String) (now : UInt64) : Offence :=
  ⟨now, .user user, "/", ⟨"login", 2, none, false⟩⟩

/-- Alice is at it three times, the last time just when her minute is over, and Bob once. -/
def persisting : List Offence :=
  [again "alice" 0, again "bob" 1, again "alice" 59999, again "alice" 60000]

/-- The minutes of Alice. -/
def aliceMinutes : List Minute :=
  [⟨again "alice" 0, [again "alice" 59999]⟩, ⟨again "alice" 60000, []⟩]

/-- Where one violation in a minute may be, Alice is reported for the second one of her first
minute, and has one in her second minute until that is over. -/
theorem alarms_persisting :
    let m : Monitor := ⟨⟨"violations"⟩, ⟨1, 100⟩⟩
    let env := ((m.offences persisting).on (.start 0 (.empty none))).2
    let reports := m.reports persisting (.start 0 (.empty none))
    (reports.filter fun r => r.offence.tracker = .user "alice").map (fun r => r.signal.answer) =
        [none, some ⟨.user "alice", "/", 2, 1⟩, none] ∧
      ((m.stats (.user "alice")).on (env.setClock 119999)).1.violationsLastMinute = 1 ∧
      ((m.stats (.user "alice")).on (env.setClock 120000)).1.violationsLastMinute = 0 := by
  intro m
  dsimp only
  have hall : Minutes (persisting.filter fun o => o.tracker = .user "alice") aliceMinutes := by
    refine ⟨rfl, ?_, ?_⟩
    · simp [aliceMinutes, again]
    · simp [aliceMinutes, Batch.items, again]
  obtain ⟨ws, hminutes, hunique, hsignals, hlasts, _⟩ :=
    alarms_exact m 0 119999 persisting (.user "alice") (by decide) (by decide)
  obtain ⟨ws', hminutes', _, _, hover, _⟩ :=
    alarms_exact m 0 120000 persisting (.user "alice") (by decide) (by decide)
  rw [hall.unique hminutes] at hsignals hlasts
  rw [hall.unique hminutes'] at hover
  have hdues : (m.dues aliceMinutes).map Signal.answer =
      [none, some ⟨.user "alice", "/", 2, 1⟩, none] := by
    decide +kernel
  have hfirst : lastMinute aliceMinutes 119999 = 1 := by decide
  have hsecond : lastMinute aliceMinutes 120000 = 0 := by decide
  rw [hfirst] at hlasts
  rw [hsecond] at hover
  refine ⟨?_, hlasts, hover⟩
  rw [← hdues, ← hsignals, List.map_map]
  rfl

end Monitor

end Turnstile
