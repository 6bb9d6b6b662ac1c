import Turnstile.Proofs.Env.Failing
import Turnstile.Proofs.Env.Keeps
import Turnstile.Proofs.Violation.Recorded

/-!
# What recording a violation is made of

A violation is counted and its tracker enlisted, which may fail at any call; then, if there were too
many in a minute, an alarm is raised.  Only the counting calls the store.  What is true of the few
ways in which it does, reading a count, reading a roster and writing one, is true of all of it.

* `Monitor.countViolation`, `Monitor.alarm`: the two halves.
* `Monitor.on_recordViolation_of_ok`, `Monitor.on_recordViolation_of_error`: put together.
* `Monitor.Pieces`, `Monitor.Pieces.enlist`: what the pieces of enlisting keep, enlisting keeps.
* `Monitor.alarms_recordViolation`: alarms are raised with the answer and not without it.
-/

set_option autoImplicit false

namespace Turnstile

open Violation StoreM

namespace Monitor

variable {m : Monitor} {d : UInt64} {t : Tracker} {path : String} {v : Violation}
  {env env₁ : Env}

/-! ## The two halves -/

/-- Counts a violation and enlists its tracker, and gives the violations of the tracker in the
minute. -/
def countViolation (m : Monitor) (t : Tracker) (path : String) : StoreM UInt64 := do
  let now ← GateM.now
  let d := dayOf now
  let _ ← m.shelf.increment (dayName d t.key) day
  let _ ← m.shelf.increment (pathName d path) day
  m.enlist d t
  m.shelf.increment (minuteName t) minute

/-- Answers to a violation that is one of so many in a minute. -/
def alarm (m : Monitor) (t : Tracker) (path : String) (v : Violation) (lastMinute : UInt64) :
    StoreM (Option Anomaly) :=
  if lastMinute ≤ m.settings.anomalyThreshold then pure none
  else do
    GateM.count .countAnomaly
    GateM.log <|
      .attackSuspected t path v.policy v.circuitOpen lastMinute m.settings.anomalyThreshold
    pure (some ⟨t, path, lastMinute, m.settings.anomalyThreshold⟩)

/-- What is logged with an answer. -/
def alarms (t : Tracker) (path : String) (v : Violation) (answer : Option Anomaly) : List Event :=
  answer.toList.map fun a =>
    .attackSuspected t path v.policy v.circuitOpen a.lastMinute a.threshold

theorem tryRecordViolation_eq (m : Monitor) (t : Tracker) (path : String) (v : Violation) :
    m.tryRecordViolation t path v = m.countViolation t path >>= m.alarm t path v := by
  simp only [tryRecordViolation, countViolation, bind_assoc]
  rfl

theorem uses_countViolation (m : Monitor) (t : Tracker) (path : String) :
    (m.countViolation t path).Uses fun _ => True :=
  .bind .now fun _ => .bind (Shelf.uses_increment trivial _) fun _ =>
    .bind (Shelf.uses_increment trivial _) fun _ =>
      .bind (uses_enlist (fun _ _ => trivial) _ t) fun _ => Shelf.uses_increment trivial _

/-- A violation that is counted is answered, and what is logged goes with the answer. -/
theorem on_recordViolation_of_ok {n : UInt64}
    (h : (m.countViolation t path).on env = (.ok n, env₁)) (v : Violation) :
    ∃ env', (m.recordViolation t path v).on env = (m.anomaly? t path n, env') ∧ env₁.Same env' ∧
      env'.events = env₁.events ++ alarms t path v (m.anomaly? t path n) := by
  unfold recordViolation anomaly?
  rw [tryRecordViolation_eq]
  by_cases hn : n ≤ m.settings.anomalyThreshold
  · rw [if_pos hn]
    refine ⟨env₁, recover_of_ok ?_ _ _, .refl env₁, by simp [alarms]⟩
    rw [on_bind_of_ok h, alarm, if_pos hn]
    rfl
  · rw [if_neg hn]
    refine ⟨_, recover_of_ok ?_ _ _,
      Env.Same.trans (GateM.touches_count .countAnomaly env₁) (GateM.touches_log (.attackSuspected t
        path v.policy v.circuitOpen n m.settings.anomalyThreshold) _), rfl⟩
    rw [on_bind_of_ok h, alarm, if_neg hn]
    rfl

/-- A failure is logged, and there is no answer. -/
theorem on_recordViolation_of_error {e : StoreError}
    (h : (m.countViolation t path).on env = (.error e, env₁)) (v : Violation) :
    ∃ env', (m.recordViolation t path v).on env = (none, env') ∧ env₁.Same env' ∧
      env'.events = env₁.events ++ [.outcomeLost e t path] := by
  have htry : (m.tryRecordViolation t path v).on env = (.error e, env₁) := by
    rw [tryRecordViolation_eq, on_bind, h]
  unfold recordViolation
  simp only [recover, GateM.on_bind, GateM.on_attempt, htry, GateM.on_pure]
  exact ⟨_, rfl, Env.Same.trans (GateM.touches_count .countStoreError env₁)
    (GateM.touches_log (.outcomeLost e t path) _), rfl⟩

/-! ## Enlisting -/

/-- What the pieces of enlisting on a day keep, whether they fail or not, as long as rosters are
written that are as good as those that are read. -/
structure Pieces (m : Monitor) (d : UInt64) (J : Env → Prop) (Good : Nat → Roster → Prop) :
    Prop where
  counter : ∀ x, (m.shelf.counter (dayName d x)).Keeps J fun _ => True
  roster : ∀ k, (m.roster d k).Keeps J fun r => ∀ r' ∈ r, Good k r'
  saveRoster : ∀ k r, Good k r → (m.saveRoster d k r).Keeps J fun _ => True
  erase : ∀ k r x, Good k r → Good k ⟨r.members.erase x⟩

namespace Pieces

variable {J : Env → Prop} {Good : Nat → Roster → Prop}

theorem counted (h : m.Pieces d J Good) (k : Nat) (ts : List String) :
    (m.counted d k ts).Keeps J fun _ => True := by
  induction ts with
  | nil => exact keeps_pure trivial
  | cons x ts ih =>
    refine keeps_bind (h.counter x) fun n _ => keeps_bind ih fun rest _ => ?_
    split
    · exact keeps_pure trivial
    · exact keeps_pure trivial

theorem listed (h : m.Pieces d J Good) (numbers : List Nat) :
    (m.listed d numbers).Keeps J fun _ => True := by
  induction numbers with
  | nil => exact keeps_pure trivial
  | cons k numbers ih =>
    refine keeps_bind (h.roster k) fun r _ => ?_
    cases r with
    | none => exact ih
    | some r =>
      exact keeps_bind (h.counted k _) fun _ _ => keeps_bind ih fun _ _ => keeps_pure trivial

theorem evict (h : m.Pieces d J Good) (out : List (Nat × Violator)) :
    (m.evict d out).Keeps J fun _ => True := by
  induction out with
  | nil => exact keeps_pure trivial
  | cons o out ih =>
    obtain ⟨k, w⟩ := o
    refine keeps_bind (h.roster k) fun r hr => ?_
    cases r with
    | none => exact ih
    | some r =>
      dsimp only
      split
      · exact keeps_bind (h.saveRoster k _ (h.erase k r w.tracker (hr r rfl))) fun _ _ => ih
      · exact ih

/-- **Enlisting keeps what its pieces keep**, if the tracker may join its roster. -/
theorem enlist (h : m.Pieces d J Good)
    (hjoin : ∀ r : Option Roster, (∀ r' ∈ r, Good (rosterOf t.key) r') →
      Good (rosterOf t.key) ⟨(r.getD .empty).members.insert t.key⟩) :
    (m.enlist d t).Keeps J fun _ => True := by
  refine keeps_bind (h.roster _) fun r hr => ?_
  dsimp only
  split
  · exact keeps_pure trivial
  · exact keeps_bind (h.saveRoster _ _ (hjoin r hr)) fun _ _ =>
      keeps_bind (h.listed _) fun all _ => h.evict _

end Pieces

/-! ## Alarms -/

/-- Since some events nothing was logged for those who watch security. -/
def Unalarmed (events : List Event) (env : Env) : Prop :=
  ∃ new, env.events = events ++ new ∧ ∀ e ∈ new, e.security = false

section Unalarmed

variable {α β : Type} {events : List Event} {s : Shelf} {name : String}

theorem Unalarmed.of_events {env' : Env} (h : Unalarmed events env)
    (heq : env'.events = env.events) : Unalarmed events env' := by
  obtain ⟨new, hnew, hsecurity⟩ := h
  exact ⟨new, heq.trans hnew, hsecurity⟩

theorem unalarmed_call (op : UInt64 → Store → Except StoreError β × Store)
    (record : Except StoreError β → Call) :
    (call op record).Keeps (Unalarmed events) fun _ => True := fun env h =>
  ⟨h.of_events (events_call op record env), fun _ _ => trivial⟩

theorem unalarmed_load [Binary α] :
    (s.load name : StoreM (Option α)).Keeps (Unalarmed events) fun _ => True := by
  have hlog : (liftM (GateM.log (.recordDiscarded (s.key name))) : StoreM Unit).Keeps
      (Unalarmed events) fun _ => True := by
    rintro env ⟨new, hnew, hsecurity⟩
    refine ⟨⟨new ++ [.recordDiscarded (s.key name)], ?_, fun e he => ?_⟩, fun _ _ => trivial⟩
    · simp [hnew]
    · rcases List.mem_append.mp he with he | he
      · exact hsecurity e he
      · rw [List.mem_singleton.mp he]
        rfl
  refine keeps_bind (unalarmed_call _ _) fun bytes _ => ?_
  cases bytes with
  | none => exact keeps_pure trivial
  | some bytes =>
    dsimp only
    split
    · exact keeps_pure trivial
    · exact keeps_bind hlog fun _ _ => keeps_bind (unalarmed_call _ _) fun _ _ => keeps_pure trivial

theorem keeps_now {J : Env → Prop} : (liftM GateM.now : StoreM UInt64).Keeps J fun _ => True :=
  fun _ h => ⟨h, fun _ _ => trivial⟩

theorem unalarmed_increment (ttl : Duration) :
    (s.increment name ttl).Keeps (Unalarmed events) fun _ => True :=
  keeps_bind keeps_now fun _ _ => keeps_bind unalarmed_load fun _ _ =>
    keeps_bind (unalarmed_call _ _) fun _ _ => keeps_pure trivial

theorem unalarmed_pieces (m : Monitor) (d : UInt64) (events : List Event) :
    m.Pieces d (Unalarmed events) fun _ _ => True where
  counter _ :=
    keeps_bind keeps_now fun _ _ => keeps_bind unalarmed_load fun _ _ => keeps_pure trivial
  roster _ env h := ⟨(unalarmed_load env h).1, fun _ _ _ _ => trivial⟩
  saveRoster _ _ _ := unalarmed_call _ _
  erase _ _ _ _ := trivial

theorem unalarmed_countViolation (m : Monitor) (t : Tracker) (path : String) :
    (m.countViolation t path).Keeps (Unalarmed events) fun _ => True :=
  keeps_bind keeps_now fun now _ => keeps_bind (unalarmed_increment _) fun _ _ =>
    keeps_bind (unalarmed_increment _) fun _ _ =>
      keeps_bind ((unalarmed_pieces m (dayOf now) events).enlist fun _ _ => trivial) fun _ _ =>
        unalarmed_increment _

end Unalarmed

theorem security_of_mem_alarms {answer : Option Anomaly} {e : Event}
    (h : e ∈ alarms t path v answer) : e.security = true := by
  obtain ⟨a, _, rfl⟩ := List.mem_map.mp h
  rfl

/-- **Alarms are raised with the answer and not without it**, whatever fails. -/
theorem alarms_recordViolation (m : Monitor) (t : Tracker) (path : String) (v : Violation)
    (env : Env) :
    ∃ new, ((m.recordViolation t path v).on env).2.events = env.events ++ new ∧
      new.filter Event.security = alarms t path v ((m.recordViolation t path v).on env).1 := by
  have hstart : Unalarmed env.events env := ⟨[], by simp, nofun⟩
  obtain ⟨⟨new, hnew, hsecurity⟩, _⟩ := unalarmed_countViolation m t path env hstart
  have hnone : new.filter Event.security = [] :=
    List.filter_eq_nil_iff.mpr fun e he => by simp [hsecurity e he]
  rcases hcount : (m.countViolation t path).on env with ⟨e | n, env₁⟩ <;> rw [hcount] at hnew <;>
    dsimp only at hnew
  · obtain ⟨env', hon, _, hevents⟩ := on_recordViolation_of_error hcount v
    rw [hon]
    refine ⟨new ++ [.outcomeLost e t path], by rw [hevents, hnew, List.append_assoc], ?_⟩
    rw [List.filter_append, hnone]
    rfl
  · obtain ⟨env', hon, _, hevents⟩ := on_recordViolation_of_ok hcount v
    rw [hon]
    refine ⟨new ++ alarms t path v (m.anomaly? t path n),
      by rw [hevents, hnew, List.append_assoc], ?_⟩
    rw [List.filter_append, hnone, List.nil_append]
    exact List.filter_eq_self.mpr fun e he => security_of_mem_alarms he

end Monitor

end Turnstile
