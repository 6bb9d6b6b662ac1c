import Turnstile.Proofs.Violation.Recorded

/-!
# What the monitor counts

The monitor counts the outcomes of each hour by tracker, and the violations of each day by tracker
and by path.  Every outcome moves one of these numbers and every violation two, and nothing else
moves any.  So at any instant the store has, of all hours and days, the numbers of what has happened.

* `Tally`, `Tally.outcome`, `Tally.violation`: the numbers, and what moves them.
* `Monitor.Knows`: a store that has them.
* `Monitor.Knows.recordOutcome`, `Monitor.Knows.recordViolation`: one more outcome or violation.
* `Monitor.Knows.stats`, `Monitor.Knows.onPath`: what is answered about them.
-/

set_option autoImplicit false

namespace Turnstile

open Violation

/-- The numbers of what has happened. -/
structure Tally where
  /-- The requests of a tracker that were allowed in an hour. -/
  allowed : UInt64 → Tracker → Nat
  /-- The requests of a tracker that were denied in an hour. -/
  blocked : UInt64 → Tracker → Nat
  /-- The violations of a tracker on a day. -/
  violations : UInt64 → Tracker → Nat
  /-- The violations on a path on a day. -/
  onPath : UInt64 → String → Nat

namespace Tally

def zero : Tally := ⟨fun _ _ => 0, fun _ _ => 0, fun _ _ => 0, fun _ _ => 0⟩

/-- One more request of a tracker that was allowed or denied. -/
def outcome (y : Tally) (now : UInt64) (t : Tracker) (allowed : Bool) : Tally where
  allowed h u := y.allowed h u + if t = u ∧ hourOf now = h ∧ allowed = true then 1 else 0
  blocked h u := y.blocked h u + if t = u ∧ hourOf now = h ∧ allowed = false then 1 else 0
  violations := y.violations
  onPath := y.onPath

/-- One more violation of a tracker on a path. -/
def violation (y : Tally) (now : UInt64) (t : Tracker) (path : String) : Tally where
  allowed := y.allowed
  blocked := y.blocked
  violations d u := y.violations d u + if t = u ∧ dayOf now = d then 1 else 0
  onPath d p := y.onPath d p + if path = p ∧ dayOf now = d then 1 else 0

/-- The outcomes of an hour as they are kept: numbers that stop at the largest word. -/
def outcomes (y : Tally) (h : UInt64) (t : Tracker) : Outcomes :=
  ⟨wordOfNat (y.allowed h t), wordOfNat (y.blocked h t)⟩

theorem outcomes_outcome (y : Tally) (now : UInt64) (t : Tracker) (allowed : Bool) :
    (y.outcome now t allowed).outcomes (hourOf now) t = (y.outcomes (hourOf now) t).add allowed := by
  cases allowed <;> simp [outcomes, outcome, Outcomes.add, satAdd_wordOfNat_one]

theorem outcomes_outcome_of_ne {y : Tally} {now h : UInt64} {t u : Tracker} {allowed : Bool}
    (hne : ¬ (t = u ∧ hourOf now = h)) :
    (y.outcome now t allowed).outcomes h u = y.outcomes h u := by
  have hallowed : ∀ b : Bool, ¬ (t = u ∧ hourOf now = h ∧ allowed = b) := fun b hb =>
    hne ⟨hb.1, hb.2.1⟩
  simp [outcomes, outcome, hallowed]

end Tally

namespace Monitor

/-- The store is sound and has the numbers of all hours and days. -/
structure Knows (m : Monitor) (y : Tally) (env : Env) : Prop where
  sound : m.Sound env
  hours : ∀ h t, ∃ r : Option Outcomes, Lasts (OnHour h) r (env.slot (m.hourKey h t)) ∧
    r.getD .none = y.outcomes h t
  days : ∀ d t, Counts (OnDay d) (wordOfNat (y.violations d t))
    (env.slot (m.shelf.key (dayName d t.key)))
  paths : ∀ d path, Counts (OnDay d) (wordOfNat (y.onPath d path))
    (env.slot (m.shelf.key (pathName d path)))

variable {m : Monitor} {y : Tally} {t : Tracker} {env env' : Env} {K : String → Prop}

theorem knows_start (m : Monitor) (now : UInt64) : m.Knows .zero (.start now (.empty none)) := by
  have hzero : wordOfNat 0 = 0 := rfl
  refine ⟨m.sound_start now, fun h t => ⟨none, ?_, rfl⟩, fun d t => ?_, fun d path => ?_⟩ <;>
    rw [Env.slot_start]
  · exact lasts_none
  · exact counts_none
  · exact counts_none

/-- What leaves the store sound and these keys alone changes none of the numbers. -/
theorem Knows.of_frame (h : m.Knows y env) (hf : Env.Frame K env env') (hsound : m.Sound env')
    (hhours : ∀ h t, ¬ K (m.hourKey h t)) (hdays : ∀ d t, ¬ K (m.shelf.key (dayName d t)))
    (hpaths : ∀ d path, ¬ K (m.shelf.key (pathName d path))) : m.Knows y env' where
  sound := hsound
  hours h' t := by
    rw [hf.slot_eq _ (hhours h' t)]
    exact h.hours h' t
  days d t := by
    rw [hf.slot_eq _ (hdays d t.key)]
    exact h.days d t
  paths d path := by
    rw [hf.slot_eq _ (hpaths d path)]
    exact h.paths d path

theorem Knows.same (h : m.Knows y env) (hsame : env.Same env') : m.Knows y env' :=
  h.of_frame hsame (h.sound.same hsame) (fun _ _ => id) (fun _ _ => id) fun _ _ => id

/-! ## What moves the numbers -/

theorem Outcomes.exact (o : Outcomes) : Binary.Exact o :=
  Binary.exact_narrow rfl (Binary.exact_pair (Binary.exact_word o.allowed) (Binary.exact_word o.blocked))

/-- **One more outcome** is one more in its hour. -/
theorem Knows.recordOutcome (h : m.Knows y env) (hnow : env.now < maxWord) (t : Tracker)
    (path : String) (allowed : Bool) :
    m.Knows (y.outcome env.now t allowed) ((m.recordOutcome t path allowed).on env).2 ∧
      ((m.recordOutcome t path allowed).on env).2.now = env.now := by
  have hhour : OnHour (hourOf env.now) env.now := ⟨rfl, hnow⟩
  obtain ⟨r, hlasts, hr⟩ := h.hours (hourOf env.now) t
  rw [← hourKey_eq] at hlasts
  obtain ⟨env₁, hload, hsame⟩ := hlasts.load h.sound.healthy hhour
  have h₁ := h.same hsame
  obtain ⟨env₂, hsave, hput⟩ := m.shelf.save_of_healthy (hourName env.now t) h₁.sound.healthy
    ((r.getD .none).add allowed) (some hour)
  have hsound := h₁.sound.after (Shelf.uses_save (K := (· = m.shelf.key (hourName env.now t))) rfl
    ((r.getD .none).add allowed) hour) fun d x heq =>
      not_ofDay_hourKey env.now t (heq ▸ m.ofDay_dayKey d x)
  have hon : (m.recordOutcome t path allowed).on env = ((), env₂) := by
    refine recover_of_ok ?_ _ _
    unfold tryRecordOutcome
    rw [StoreM.on_bind_of_ok (StoreM.on_now env), StoreM.on_bind_of_ok hload]
    exact hsave
  have hnow₁ : env₁.now = env.now := hsame.now_eq
  rw [hsave] at hsound
  rw [hon]
  refine ⟨⟨hsound, fun h' u => ?_, fun d u => ?_, fun d p => ?_⟩, hput.now_eq.trans hnow₁⟩
  · by_cases hsaved : t = u ∧ hourOf env.now = h'
    · obtain ⟨rfl, rfl⟩ := hsaved
      rw [← hourKey_eq, hput.slot_key, hnow₁, y.outcomes_outcome, ← hr]
      exact ⟨_, lasts_written (Outcomes.exact _) fun now => lt_hourEnd hhour, rfl⟩
    · have hne : m.hourKey h' u ≠ m.shelf.key (hourName env.now t) := by
        rw [hourKey_eq]
        exact fun heq => hsaved ⟨(hourKey_inj heq).2.symm, (hourKey_inj heq).1.symm⟩
      rw [hput.slot_of_ne hne, Tally.outcomes_outcome_of_ne hsaved]
      exact h₁.hours h' u
  · rw [hput.slot_of_ne fun heq => not_ofDay_hourKey env.now t (heq ▸ m.ofDay_dayKey d u.key)]
    exact h₁.days d u
  · rw [hput.slot_of_ne fun heq => not_ofDay_hourKey env.now t (heq ▸ m.ofDay_pathKey d p)]
    exact h₁.paths d p

/-- **One more violation** is one more of its tracker and one more on its path. -/
theorem Knows.recordViolation (h : m.Knows y env) (hnow : env.now < maxWord) (t : Tracker)
    (path : String) (v : Violation) :
    m.Knows (y.violation env.now t path) ((m.recordViolation t path v).on env).2 := by
  obtain ⟨env', hon, hf, hsound, hday, hpath, _⟩ := recordViolation_of_sound h.sound t path v
  have htoday : OnDay (dayOf env.now) env.now := ⟨rfl, hnow⟩
  rw [hon]
  have hmore : ∀ {n slot}, Counts (OnDay (dayOf env.now)) (wordOfNat n) slot →
      Counts (OnDay (dayOf env.now)) (wordOfNat (n + 1)) (incremented env.now day slot) := by
    intro n slot hc
    rw [← satAdd_wordOfNat_one]
    exact (hc.incremented htoday day fun later => lt_dayEnd htoday).2
  refine ⟨hsound, fun h' u => ?_, fun d u => ?_, fun d p => ?_⟩
  · rw [hf.slot_eq _ (not_marks_hour h' u)]
    exact h.hours h' u
  · by_cases hcounted : t = u ∧ dayOf env.now = d
    · have htally : (y.violation env.now t path).violations d u = y.violations d u + 1 := by
        simp [Tally.violation, hcounted]
      obtain ⟨rfl, rfl⟩ := hcounted
      rw [htally, hday]
      exact hmore (h.days _ t)
    · have htally : (y.violation env.now t path).violations d u = y.violations d u := by
        simp [Tally.violation, hcounted]
      rw [htally, hf.slot_eq _ (not_marks_day (by rwa [Tracker.key_inj]))]
      exact h.days d u
  · by_cases hcounted : path = p ∧ dayOf env.now = d
    · have htally : (y.violation env.now t path).onPath d p = y.onPath d p + 1 := by
        simp [Tally.violation, hcounted]
      obtain ⟨rfl, rfl⟩ := hcounted
      rw [htally, hpath]
      exact hmore (h.paths _ path)
    · have htally : (y.violation env.now t path).onPath d p = y.onPath d p := by
        simp [Tally.violation, hcounted]
      rw [htally, hf.slot_eq _ (not_marks_path hcounted)]
      exact h.paths d p

/-! ## What is answered -/

/-- **The statistics of a tracker** are the numbers of the hour and the day. -/
theorem Knows.stats (h : m.Knows y env) (hnow : env.now < maxWord) (t : Tracker) :
    ∃ lastMinute env', (m.stats t).on env =
        (⟨t, wordOfNat (y.allowed (hourOf env.now) t), wordOfNat (y.blocked (hourOf env.now) t),
          wordOfNat (y.violations (dayOf env.now) t), lastMinute⟩, env') ∧ m.Knows y env' := by
  obtain ⟨r, hlasts, hr⟩ := h.hours (hourOf env.now) t
  rw [← hourKey_eq] at hlasts
  obtain ⟨env₁, hload, hsame₁⟩ := hlasts.load h.sound.healthy ⟨rfl, hnow⟩
  have h₁ := h.same hsame₁
  have hnow₁ : env₁.now = env.now := hsame₁.now_eq
  obtain ⟨env₂, hcount, hsame₂⟩ := (h₁.days (dayOf env.now) t).counter h₁.sound.healthy
    ⟨by rw [hnow₁], by rwa [hnow₁]⟩
  have h₂ := h₁.same hsame₂
  obtain ⟨lastMinute, env₃, hminute, hf, hsound⟩ := h₂.sound.uses
    (Shelf.uses_counter (K := (· = m.shelf.key (minuteName t))) rfl)
    fun d x heq => not_ofDay_minuteKey t (heq ▸ m.ofDay_dayKey d x)
  refine ⟨lastMinute, env₃, recover_of_ok ?_ _ _, h₂.of_frame hf hsound
    (fun h' u heq => m.minuteKey_ne_hourKey h' u t heq.symm)
    (fun d x heq => not_ofDay_minuteKey t (heq ▸ m.ofDay_dayKey d x))
    fun d path heq => not_ofDay_minuteKey t (heq ▸ m.ofDay_pathKey d path)⟩
  unfold tryStats
  rw [StoreM.on_bind_of_ok (StoreM.on_now env), StoreM.on_bind_of_ok hload,
    StoreM.on_bind_of_ok hcount, StoreM.on_bind_of_ok hminute, hr]
  rfl

/-- **The violations on a path** are those of the day. -/
theorem Knows.onPath (h : m.Knows y env) (hnow : env.now < maxWord) (path : String) :
    ∃ env', (m.onPath path).on env = (wordOfNat (y.onPath (dayOf env.now) path), env') ∧
      m.Knows y env' := by
  obtain ⟨env', hcount, hsame⟩ := (h.paths (dayOf env.now) path).counter h.sound.healthy
    ⟨rfl, hnow⟩
  refine ⟨env', recover_of_ok ?_ _ _, h.same hsame⟩
  unfold tryOnPath
  rw [StoreM.on_bind_of_ok (StoreM.on_now env)]
  exact hcount

theorem Knows.top (h : m.Knows y env) (limit : UInt64) : m.Knows y ((m.top limit).on env).2 := by
  obtain ⟨hf, hsound⟩ := h.sound.top limit
  refine h.of_frame hf hsound ?_ (fun d t => not_rosterKey d t) ?_
  · rintro h' u ⟨k, heq⟩
    exact not_ofDay_hour h' u (heq ▸ m.ofDay_rosterKey _ k)
  · rintro d path ⟨k, heq⟩
    exact m.rosterKey_ne_pathKey _ _ k path heq.symm

end Monitor

end Turnstile
