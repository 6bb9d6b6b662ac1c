import Turnstile.Proofs.Env.Agree
import Turnstile.Proofs.Violation.Rosters

/-!
# What a violation changes

A violation adds to three counters, and enlists the tracker.  Whoever enlists reads the counts of
others, and changes nothing but the rosters: a count of the day that is read on the day is left as
it is, and nobody is listed any more when the clock stands at its end.

* `Monitor.Sound`: a store in which the counts of every day go on counting that day.
* `Monitor.frame_listed`, `Monitor.frame_enlist`: what reading and changing the ranking leaves alone.
* `Monitor.recordViolation_of_sound`: what a violation changes and what it answers.
* `Monitor.recordOutcome_of_healthy`, `Monitor.stats_of_healthy`: the records of one tracker.
* `Monitor.Sound.stats`, `Monitor.Sound.top`: questions leave the store sound.
-/

set_option autoImplicit false

namespace Turnstile

open Violation

namespace Monitor

variable {m : Monitor} {d : UInt64} {t : Tracker} {env env' : Env} {K : String → Prop}

/-- The store does not fail and keeps nothing for ever, and whatever it has under the key of a
tracker's count of a day goes on counting all that day. -/
structure Sound (m : Monitor) (env : Env) : Prop where
  healthy : env.Healthy
  mortal : env.Mortal
  counted : ∀ d x, ∃ n, Counts (OnDay d) n (env.slot (m.shelf.key (dayName d x)))

theorem sound_start (m : Monitor) (now : UInt64) : m.Sound (.start now (.empty none)) where
  healthy := Env.healthy_start now
  mortal := Env.mortal_start now
  counted d x := by
    rw [Env.slot_start]
    exact ⟨0, counts_none⟩

theorem Sound.of_frame (h : m.Sound env) (hf : Env.Frame K env env') (hmortal : env'.Mortal)
    (hK : ∀ d x, ¬ K (m.shelf.key (dayName d x))) : m.Sound env' where
  healthy := h.healthy.of_frame hf
  mortal := hmortal
  counted d x := by
    rw [hf.slot_eq _ (hK d x)]
    exact h.counted d x

theorem Sound.of_slots (h : m.Sound env) (hhealthy : env'.Healthy)
    (hslot : ∀ key, env'.slot key = env.slot key) : m.Sound env' where
  healthy := hhealthy
  mortal key e he := h.mortal key e (hslot key ▸ he)
  counted d x := by
    rw [hslot]
    exact h.counted d x

theorem Sound.same (h : m.Sound env) (hsame : env.Same env') : m.Sound env' :=
  h.of_slots (hsame.healthy h.healthy) fun key => hsame.slot_eq key id

/-- An operation that leaves the counts of all days alone leaves the store sound. -/
theorem Sound.after {α : Type} {x : StoreM α} (h : m.Sound env) (hx : x.Uses K)
    (hK : ∀ d x, ¬ K (m.shelf.key (dayName d x))) : m.Sound (x.on env).2 :=
  h.of_frame (hx.touches env) (hx.steady (Env.steady_mortal K fun _ => False) env h.mortal) hK

theorem Sound.uses {α : Type} {x : StoreM α} (h : m.Sound env) (hx : x.Uses K)
    (hK : ∀ d x, ¬ K (m.shelf.key (dayName d x))) :
    ∃ a env', x.on env = (.ok a, env') ∧ Env.Frame K env env' ∧ m.Sound env' := by
  obtain ⟨a, env', hon⟩ := hx.ok_of_healthy h.healthy
  have hf : Env.Frame K env (x.on env).2 := hx.touches env
  have hsound := h.after hx hK
  rw [hon] at hf hsound
  exact ⟨a, env', hon, hf, hsound⟩

/-! ## Reading the ranking -/

theorem not_rosterKey (e : UInt64) (x : String) : ¬ m.RosterKey d (m.shelf.key (dayName e x)) :=
  fun ⟨k, heq⟩ => m.dayKey_ne_rosterKey e d x k heq

/-- A count of the day that is read on the day is left as it is. -/
theorem Sound.counter (h : m.Sound env) (hd : OnDay d env.now) (x : String) :
    ∃ n env', (m.shelf.counter (dayName d x)).on env = (.ok n, env') ∧ env.Same env' := by
  obtain ⟨n, hc⟩ := h.counted d x
  obtain ⟨env', hcounter, hsame⟩ := hc.counter h.healthy hd
  exact ⟨n, env', hcounter, hsame⟩

theorem same_counted (h : m.Sound env) (hd : OnDay d env.now) (k : Nat) (ts : List String) :
    ∃ l env', (m.counted d k ts).on env = (.ok l, env') ∧ env.Same env' := by
  induction ts generalizing env with
  | nil => exact ⟨[], env, rfl, .refl env⟩
  | cons x ts ih =>
    obtain ⟨n, env₁, hcounter, hsame⟩ := h.counter hd x
    obtain ⟨rest, env₂, hrest, hsame'⟩ := ih (h.same hsame) (hsame.now_eq ▸ hd)
    unfold Monitor.counted
    rw [StoreM.on_bind_of_ok hcounter, StoreM.on_bind_of_ok hrest]
    split
    · exact ⟨_, env₂, rfl, hsame.trans hsame'⟩
    · exact ⟨_, env₂, rfl, hsame.trans hsame'⟩

theorem Sound.roster (h : m.Sound env) (d : UInt64) (k : Nat) :
    ∃ env', (m.roster d k).on env =
        (.ok (recordIn Roster env.now (env.slot (m.shelf.key (rosterName d k)))), env') ∧
      Env.Frame (m.RosterKey d) env env' ∧ m.Sound env' := by
  obtain ⟨env', hload, hput⟩ := m.shelf.load_of_healthy (α := Roster) (rosterName d k) h.healthy
  have huses : (m.roster d k).Uses (m.RosterKey d) := Shelf.uses_load ⟨k, rfl⟩
  have hsound := h.after huses not_rosterKey
  rw [Monitor.roster, hload] at hsound
  exact ⟨env', hload, hput.frame.mono fun _ heq => ⟨k, heq⟩, hsound⟩

/-- Whose roster is there when it is read: the clock is not at its end. -/
theorem Sound.lt_maxWord (h : m.Sound env) {key : String} {r : Roster}
    (hr : recordIn Roster env.now (env.slot key) = some r) : env.now < maxWord := by
  rw [lt_maxWord_iff]
  have hle := toNat_le_max env.now
  refine Nat.lt_of_le_of_ne hle fun heq => ?_
  have hnow : env.now = maxWord := UInt64.toNat.inj heq
  rw [hnow, recordIn, h.mortal.readable_eq_none] at hr
  cases hr

theorem frame_listed (h : m.Sound env) (hd : dayOf env.now = d) (numbers : List Nat) :
    ∃ l env', (m.listed d numbers).on env = (.ok l, env') ∧
      Env.Frame (m.RosterKey d) env env' ∧ m.Sound env' := by
  induction numbers generalizing env with
  | nil => exact ⟨[], env, rfl, .refl _ env, h⟩
  | cons k numbers ih =>
    obtain ⟨env₁, hroster, hf, h₁⟩ := h.roster d k
    unfold Monitor.listed
    rw [StoreM.on_bind_of_ok hroster]
    cases hr : recordIn Roster env.now (env.slot (m.shelf.key (rosterName d k))) with
    | none =>
      obtain ⟨l, env₂, hrest, hf₂, h₂⟩ := ih h₁ (hf.now_eq ▸ hd)
      exact ⟨l, env₂, hrest, hf.trans hf₂, h₂⟩
    | some r =>
      have hday : OnDay d env₁.now := hf.now_eq ▸ ⟨hd, h.lt_maxWord hr⟩
      obtain ⟨here, env₂, hhere, hsame⟩ := same_counted h₁ hday k r.members.toList
      obtain ⟨rest, env₃, hrest, hf₃, h₃⟩ := ih (h₁.same hsame) (hsame.now_eq ▸ hday.1)
      refine ⟨here ++ rest, env₃, ?_, (hf.trans (hsame.frame _)).trans hf₃, h₃⟩
      simp only [StoreM.on_bind_of_ok hhere, StoreM.on_bind_of_ok hrest, StoreM.on_pure]

theorem uses_saveRoster (m : Monitor) (d : UInt64) (k : Nat) (r : Roster) :
    (m.saveRoster d k r).Uses (m.RosterKey d) :=
  Shelf.uses_save ⟨k, rfl⟩ r day

/-- **Enlisting changes nothing but the rosters.** -/
theorem frame_enlist (h : m.Sound env) (hd : dayOf env.now = d) (t : Tracker) :
    ∃ env', (m.enlist d t).on env = (.ok (), env') ∧ Env.Frame (m.RosterKey d) env env' ∧
      m.Sound env' := by
  obtain ⟨env₁, hroster, hf, h₁⟩ := h.roster d (rosterOf t.key)
  unfold Monitor.enlist
  rw [StoreM.on_bind_of_ok hroster]
  dsimp only
  split
  · exact ⟨env₁, rfl, hf, h₁⟩
  · obtain ⟨_, env₂, hsave, hf₂, h₂⟩ := h₁.uses (uses_saveRoster m d (rosterOf t.key) _) not_rosterKey
    have hd₂ : dayOf env₂.now = d := by rw [hf₂.now_eq, hf.now_eq, hd]
    obtain ⟨all, env₃, hranked, hf₃, h₃⟩ := frame_listed h₂ hd₂ (List.range rosterCount)
    obtain ⟨_, env₄, hevict, hf₄, h₄⟩ :=
      h₃.uses (uses_evict (K := m.RosterKey d) (fun k => ⟨k, rfl⟩) _) not_rosterKey
    refine ⟨env₄, ?_, ((hf.trans hf₂).trans hf₃).trans hf₄, h₄⟩
    unfold enforceCapacity ranked
    rw [StoreM.on_bind_of_ok hsave, StoreM.on_bind_of_ok hranked]
    exact hevict

/-! ## A violation -/

theorem counts_incremented {now : UInt64} {slot : Option Entry} (hd : dayOf now = d)
    (hc : ∃ n, Counts (OnDay d) n slot) (hmortal : readable Counter maxWord slot = none) :
    ∃ n, Counts (OnDay d) n (incremented now day slot) := by
  by_cases hnow : now < maxWord
  · obtain ⟨n, hc⟩ := hc
    exact ⟨_, (hc.incremented ⟨hd, hnow⟩ day fun later => lt_dayEnd ⟨hd, hnow⟩).2⟩
  · -- at the end of the clock a new counter is over at once, which is on no day
    have hle := toNat_le_max now
    rw [lt_maxWord_iff] at hnow
    obtain rfl : now = maxWord := UInt64.toNat.inj (by rw [toNat_maxWord]; omega)
    have hends : ∀ later, OnDay d later → later < (Counter.opened maxWord day).endsAt :=
      fun later hlater => UInt64.lt_of_lt_of_le hlater.2 (le_satAdd maxWord _)
    unfold incremented
    rw [recordIn, hmortal]
    refine ⟨1, some (Counter.opened maxWord day), lasts_written (Counter.exact _) hends, rfl, ?_⟩
    rintro _ ⟨⟩
    exact hends

/-- One more for the count of a day. -/
theorem Sound.increment (h : m.Sound env) (hd : dayOf env.now = d) (x : String) :
    ∃ n env', (m.shelf.increment (dayName d x) day).on env = (.ok n, env') ∧
      env.Puts (m.shelf.key (dayName d x))
        (incremented env.now day (env.slot (m.shelf.key (dayName d x)))) env' ∧ m.Sound env' := by
  obtain ⟨env', hincrement, hput⟩ := m.shelf.increment_of_healthy (dayName d x) day h.healthy
  have huses : (m.shelf.increment (dayName d x) day).Uses fun _ => True :=
    Shelf.uses_increment trivial day
  have hmortal := huses.steady (Env.steady_mortal _ fun _ => False) env h.mortal
  rw [hincrement] at hmortal
  refine ⟨_, env', hincrement, hput, hput.healthy h.healthy, hmortal, fun e y => ?_⟩
  by_cases hkey : m.shelf.key (dayName e y) = m.shelf.key (dayName d x)
  · obtain ⟨rfl, rfl⟩ := dayKey_inj hkey
    rw [hput.slot_key]
    exact counts_incremented hd (h.counted e y) (h.mortal.readable_eq_none _)
  · rw [hput.slot_of_ne hkey]
    exact h.counted e y

/-- One more for a counter that is not the count of a day. -/
theorem Sound.increment_other (h : m.Sound env) {name : String} (ttl : Duration)
    (hname : ∀ d x, m.shelf.key (dayName d x) ≠ m.shelf.key name) :
    ∃ env', (m.shelf.increment name ttl).on env =
        (.ok (Counter.next (recordIn Counter env.now (env.slot (m.shelf.key name))) env.now
          ttl).count, env') ∧
      env.Puts (m.shelf.key name) (incremented env.now ttl (env.slot (m.shelf.key name))) env' ∧
      m.Sound env' := by
  obtain ⟨env', hincrement, hput⟩ := m.shelf.increment_of_healthy name ttl h.healthy
  have huses : (m.shelf.increment name ttl).Uses (· = m.shelf.key name) :=
    Shelf.uses_increment (K := (· = m.shelf.key name)) rfl ttl
  have hsound := h.after huses hname
  rw [hincrement] at hsound
  exact ⟨env', hincrement, hput, hsound⟩

/-- The keys that a violation of a tracker on a path may change. -/
def Marks (m : Monitor) (d : UInt64) (t : Tracker) (path key : String) : Prop :=
  key = m.shelf.key (dayName d t.key) ∨ key = m.shelf.key (pathName d path) ∨ m.RosterKey d key ∨
    key = m.shelf.key (minuteName t)

theorem not_marks_day {e : UInt64} {x path : String} (hne : ¬ (t.key = x ∧ d = e)) :
    ¬ m.Marks d t path (m.shelf.key (dayName e x)) := by
  rintro (heq | heq | ⟨k, heq⟩ | heq)
  · obtain ⟨he, hx⟩ := dayKey_inj heq
    exact hne ⟨hx.symm, he.symm⟩
  · exact m.dayKey_ne_pathKey e d x path heq
  · exact m.dayKey_ne_rosterKey e d x k heq
  · exact not_ofDay_minuteKey t (heq ▸ m.ofDay_dayKey e x)

theorem not_marks_path {e : UInt64} {path path' : String} (hne : ¬ (path = path' ∧ d = e)) :
    ¬ m.Marks d t path (m.shelf.key (pathName e path')) := by
  rintro (heq | heq | ⟨k, heq⟩ | heq)
  · exact m.dayKey_ne_pathKey d e t.key path' heq.symm
  · obtain ⟨he, hpath⟩ := pathKey_inj heq
    exact hne ⟨hpath.symm, he.symm⟩
  · exact m.rosterKey_ne_pathKey d e k path' heq.symm
  · exact not_ofDay_minuteKey t (heq ▸ m.ofDay_pathKey e path')

theorem not_marks_hour (h : UInt64) (u : Tracker) {path : String} :
    ¬ m.Marks d t path (m.hourKey h u) := by
  rintro (heq | heq | ⟨k, heq⟩ | heq)
  · exact not_ofDay_hour h u (heq ▸ m.ofDay_dayKey d t.key)
  · exact not_ofDay_hour h u (heq ▸ m.ofDay_pathKey d path)
  · exact not_ofDay_hour h u (heq ▸ m.ofDay_rosterKey d k)
  · exact m.minuteKey_ne_hourKey h u t heq.symm

/-- What is answered to a violation that is one of so many in a minute. -/
def anomaly? (m : Monitor) (t : Tracker) (path : String) (lastMinute : UInt64) : Option Anomaly :=
  if lastMinute ≤ m.settings.anomalyThreshold then none
  else some ⟨t, path, lastMinute, m.settings.anomalyThreshold⟩

/-- **What a violation changes**: the counts of the tracker on the day and in the minute, that of the
path on the day, and the rosters. -/
theorem recordViolation_of_sound (h : m.Sound env) (t : Tracker) (path : String) (v : Violation) :
    ∃ env', (m.recordViolation t path v).on env =
        (m.anomaly? t path (Counter.next
          (recordIn Counter env.now (env.slot (m.shelf.key (minuteName t)))) env.now minute).count,
          env') ∧
      Env.Frame (m.Marks (dayOf env.now) t path) env env' ∧ m.Sound env' ∧
      env'.slot (m.shelf.key (dayName (dayOf env.now) t.key)) =
        incremented env.now day (env.slot (m.shelf.key (dayName (dayOf env.now) t.key))) ∧
      env'.slot (m.shelf.key (pathName (dayOf env.now) path)) =
        incremented env.now day (env.slot (m.shelf.key (pathName (dayOf env.now) path))) ∧
      env'.slot (m.shelf.key (minuteName t)) =
        incremented env.now minute (env.slot (m.shelf.key (minuteName t))) := by
  obtain ⟨d, hd⟩ : ∃ d, dayOf env.now = d := ⟨_, rfl⟩
  rw [hd]
  -- no two of the four kinds of keys are the same
  have hday : ∀ e x, m.shelf.key (dayName e x) ≠ m.shelf.key (minuteName t) := fun e x heq =>
    not_ofDay_minuteKey t (heq ▸ m.ofDay_dayKey e x)
  have hpath : m.shelf.key (pathName d path) ≠ m.shelf.key (minuteName t) := fun heq =>
    not_ofDay_minuteKey t (heq ▸ m.ofDay_pathKey d path)
  have hroster : ¬ m.RosterKey d (m.shelf.key (minuteName t)) := fun ⟨k, heq⟩ =>
    not_ofDay_minuteKey t (heq ▸ m.ofDay_rosterKey d k)
  have hroster' : ¬ m.RosterKey d (m.shelf.key (pathName d path)) := fun ⟨k, heq⟩ =>
    m.rosterKey_ne_pathKey d d k path heq.symm
  obtain ⟨n, env₁, hcount, hput₁, h₁⟩ := h.increment hd t.key
  obtain ⟨env₂, hmark, hput₂, h₂⟩ := h₁.increment_other day fun e x =>
    m.dayKey_ne_pathKey e d x path
  have hnow₂ : env₂.now = env.now := hput₂.now_eq.trans hput₁.now_eq
  obtain ⟨env₃, henlist, hf₃, h₃⟩ := frame_enlist h₂ (hnow₂ ▸ hd) t
  have hnow₃ : env₃.now = env.now := hf₃.now_eq.trans hnow₂
  obtain ⟨env₄, hminute, hput₄, h₄⟩ := h₃.increment_other minute hday
  have hslot : ∀ key, key ≠ m.shelf.key (dayName d t.key) → key ≠ m.shelf.key (pathName d path) →
      ¬ m.RosterKey d key → env₃.slot key = env.slot key := fun key hne hne' hr => by
    rw [hf₃.slot_eq key hr, hput₂.slot_of_ne hne', hput₁.slot_of_ne hne]
  rw [hnow₃, hslot _ (hday d t.key).symm hpath.symm hroster] at hminute hput₄
  have hf : Env.Frame (m.Marks d t path) env env₄ :=
    (((hput₁.frame.mono fun _ => .inl).trans (hput₂.frame.mono fun _ => .inr ∘ .inl)).trans
      (hf₃.mono fun _ => .inr ∘ .inr ∘ .inl)).trans (hput₄.frame.mono fun _ => .inr ∘ .inr ∘ .inr)
  suffices htry : ∃ env', (m.tryRecordViolation t path v).on env = (.ok (m.anomaly? t path
      (Counter.next (recordIn Counter env.now (env.slot (m.shelf.key (minuteName t)))) env.now
        minute).count), env') ∧ env₄.Same env' by
    obtain ⟨env', htry, hsame⟩ := htry
    refine ⟨env', recover_of_ok htry _ _, hf.trans (hsame.frame _), h₄.same hsame, ?_, ?_, ?_⟩ <;>
      rw [hsame.slot_eq _ id]
    · rw [hput₄.slot_of_ne (hday d t.key), hf₃.slot_eq _ (not_rosterKey d t.key),
        hput₂.slot_of_ne (m.dayKey_ne_pathKey d d t.key path), hput₁.slot_key]
    · rw [hput₄.slot_of_ne hpath, hf₃.slot_eq _ hroster', hput₂.slot_key, hput₁.now_eq,
        hput₁.slot_of_ne (m.dayKey_ne_pathKey d d t.key path).symm]
    · exact hput₄.slot_key
  unfold tryRecordViolation anomaly?
  rw [StoreM.on_bind_of_ok (StoreM.on_now env)]
  dsimp only
  rw [hd, StoreM.on_bind_of_ok hcount, StoreM.on_bind_of_ok hmark, StoreM.on_bind_of_ok henlist,
    StoreM.on_bind_of_ok hminute]
  split
  · exact ⟨env₄, rfl, .refl env₄⟩
  · exact ⟨_, rfl, Env.Same.trans (GateM.touches_count _ env₄) (GateM.touches_log _ _)⟩

/-! ## On a store that does not fail -/

theorem recordOutcome_of_healthy (h : env.Healthy) (m : Monitor) (t : Tracker) (path : String)
    (allowed : Bool) :
    ∃ env', (m.recordOutcome t path allowed).on env = ((), env') ∧
      env.Puts (m.shelf.key (hourName env.now t)) (some (TimedMap.entryAt env.now
        (Binary.encode (((recordIn Outcomes env.now
          (env.slot (m.shelf.key (hourName env.now t)))).getD .none).add allowed)) (some hour)))
        env' := by
  obtain ⟨env₁, hload, hput₁⟩ := m.shelf.load_of_healthy (α := Outcomes) (hourName env.now t) h
  obtain ⟨env₂, hsave, hput₂⟩ := m.shelf.save_of_healthy (hourName env.now t) (hput₁.healthy h)
    (((recordIn Outcomes env.now (env.slot (m.shelf.key (hourName env.now t)))).getD .none).add
      allowed) (some hour)
  rw [hput₁.now_eq] at hput₂
  refine ⟨env₂, recover_of_ok ?_ _ _, hput₁.trans hput₂⟩
  unfold tryRecordOutcome
  rw [StoreM.on_bind_of_ok (StoreM.on_now env), StoreM.on_bind_of_ok hload]
  exact hsave

/-- The statistics of a tracker are three records as they stand. -/
theorem stats_of_healthy (h : env.Healthy) (m : Monitor) (t : Tracker) :
    let o := (recordIn Outcomes env.now (env.slot (m.shelf.key (hourName env.now t)))).getD .none
    let reading (name : String) :=
      Counter.reading (recordIn Counter env.now (env.slot (m.shelf.key name))) env.now
    ((m.stats t).on env).1 = ⟨t, o.allowed, o.blocked, reading (dayName (dayOf env.now) t.key),
      reading (minuteName t)⟩ := by
  intro o reading
  obtain ⟨env₁, hload, hput₁⟩ := m.shelf.load_of_healthy (α := Outcomes) (hourName env.now t) h
  have h₁ := hput₁.healthy h
  obtain ⟨env₂, hday, hput₂⟩ := m.shelf.counter_of_healthy (dayName (dayOf env.now) t.key) h₁
  obtain ⟨env₃, hminute, _⟩ := m.shelf.counter_of_healthy (minuteName t) (hput₂.healthy h₁)
  have hne : m.shelf.key (dayName (dayOf env.now) t.key) ≠ m.shelf.key (hourName env.now t) :=
    fun heq => not_ofDay_hourKey env.now t (heq ▸ m.ofDay_dayKey _ _)
  have hne' : m.shelf.key (minuteName t) ≠ m.shelf.key (dayName (dayOf env.now) t.key) :=
    fun heq => not_ofDay_minuteKey t (heq ▸ m.ofDay_dayKey _ _)
  have hne'' : m.shelf.key (minuteName t) ≠ m.shelf.key (hourName env.now t) := fun heq =>
    m.minuteKey_ne_hourKey (hourOf env.now) t t (heq.trans (m.hourKey_eq env.now t))
  rw [hput₁.now_eq, hput₁.slot_of_ne hne] at hday
  rw [hput₂.now_eq, hput₁.now_eq, hput₂.slot_of_ne hne', hput₁.slot_of_ne hne''] at hminute
  have htry : (m.tryStats t).on env = (.ok ⟨t, o.allowed, o.blocked,
      reading (dayName (dayOf env.now) t.key), reading (minuteName t)⟩, env₃) := by
    unfold tryStats
    rw [StoreM.on_bind_of_ok (StoreM.on_now env), StoreM.on_bind_of_ok hload,
      StoreM.on_bind_of_ok hday, StoreM.on_bind_of_ok hminute]
    rfl
  rw [stats, recover_of_ok htry]

/-! ## Questions -/

/-- Reading the count of a day, at any instant. -/
theorem Sound.read (h : m.Sound env) (d : UInt64) (x : String) :
    ∃ n env', (m.shelf.counter (dayName d x)).on env = (.ok n, env') ∧ m.Sound env' := by
  obtain ⟨env', hcounter, hput⟩ := m.shelf.counter_of_healthy (dayName d x) h.healthy
  have huses : (m.shelf.counter (dayName d x)).Uses fun _ => True := Shelf.uses_counter trivial
  have hmortal := huses.steady (Env.steady_mortal _ fun _ => False) env h.mortal
  rw [hcounter] at hmortal
  refine ⟨_, env', hcounter, hput.healthy h.healthy, hmortal, fun e y => ?_⟩
  by_cases hkey : m.shelf.key (dayName e y) = m.shelf.key (dayName d x)
  · obtain ⟨rfl, rfl⟩ := dayKey_inj hkey
    rw [hput.slot_key]
    exact Counts.readable (h.counted e y)
  · rw [hput.slot_of_ne hkey]
    exact h.counted e y

theorem Sound.stats (h : m.Sound env) (t : Tracker) : m.Sound ((m.stats t).on env).2 := by
  obtain ⟨_, env₁, hload, _, h₁⟩ := h.uses
    (Shelf.uses_load (α := Outcomes) (K := (· = m.shelf.key (hourName env.now t))) rfl)
    fun d x heq => not_ofDay_hourKey env.now t (heq ▸ m.ofDay_dayKey d x)
  obtain ⟨_, env₂, hcount, h₂⟩ := h₁.read (dayOf env.now) t.key
  obtain ⟨_, env₃, hminute, _, h₃⟩ := h₂.uses
    (Shelf.uses_counter (K := (· = m.shelf.key (minuteName t))) rfl)
    fun d x heq => not_ofDay_minuteKey t (heq ▸ m.ofDay_dayKey d x)
  have htry : ∃ a, (m.tryStats t).on env = (.ok a, env₃) := by
    unfold tryStats
    rw [StoreM.on_bind_of_ok (StoreM.on_now env), StoreM.on_bind_of_ok hload,
      StoreM.on_bind_of_ok hcount, StoreM.on_bind_of_ok hminute]
    exact ⟨_, rfl⟩
  obtain ⟨a, htry⟩ := htry
  rw [Monitor.stats, recover_of_ok htry]
  exact h₃

/-- **Looking at the ranking changes nothing but rosters.** -/
theorem Sound.top (h : m.Sound env) (limit : UInt64) :
    Env.Frame (m.RosterKey (dayOf env.now)) env ((m.top limit).on env).2 ∧
      m.Sound ((m.top limit).on env).2 := by
  obtain ⟨all, env₁, hranked, hf, h₁⟩ := frame_listed h rfl (List.range rosterCount)
  have htry : (m.tryTop limit).on env =
      (.ok (((all.map Prod.snd).mergeSort Violator.stronger).take limit.toNat), env₁) := by
    unfold tryTop ranked
    rw [StoreM.on_bind_of_ok (StoreM.on_now env), StoreM.on_bind_of_ok hranked]
    rfl
  rw [Monitor.top, recover_of_ok htry]
  exact ⟨hf, h₁⟩

end Monitor

end Turnstile
