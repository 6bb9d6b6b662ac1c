import Mathlib.Data.List.Perm.Subperm
import Turnstile.Proofs.Violation.Eviction
import Turnstile.Proofs.Violation.Pieces

/-!
# What no failure takes away

A failure may strike between any two calls: the violation is counted and the tracker not enlisted,
it is enlisted and those who are too many are not all struck off.  None of this takes away what
the next violation relies on.  Every count of a day goes on counting, and every roster lists names
that belong on it and have violations.

* `Violation.Listed`: rosters that list what they should.
* `Monitor.Kept`: what the store has of all days, whatever has failed.
* `Monitor.Kept.recordViolation`: one more violation, whatever fails.
* `Monitor.Kept.events_recordViolation`: nothing is logged on the way.
-/

set_option autoImplicit false

namespace Turnstile

open Violation StoreM

namespace Violation

/-- All names on a roster are of some trackers, belong on the roster and have violations. -/
def Listed (all : List String) (n : String → UInt64) (k : Nat) (r : Roster) : Prop :=
  ∀ x ∈ r.members, x ∈ all ∧ rosterOf x = k ∧ 0 < n x

variable {all : List String} {n n' : String → UInt64} {k : Nat} {r : Roster}

theorem Listed.mono (h : Listed all n k r) (hn : ∀ x, 0 < n x → 0 < n' x) : Listed all n' k r :=
  fun x hx => ⟨(h x hx).1, (h x hx).2.1, hn x (h x hx).2.2⟩

theorem Listed.erase (h : Listed all n k r) (x : String) : Listed all n k ⟨r.members.erase x⟩ :=
  fun y hy => h y (Std.ExtTreeSet.mem_of_mem_erase hy)

theorem Listed.join {r : Option Roster} {x : String} (h : ∀ r' ∈ r, Listed all n (rosterOf x) r')
    (hx : x ∈ all) (hpos : 0 < n x) :
    Listed all n (rosterOf x) ⟨(r.getD .empty).members.insert x⟩ := by
  intro y hy
  rcases mem_names_insert.mp (mem_names.mpr ⟨_, rfl, hy⟩) with rfl | hy
  · exact ⟨hx, rfl, hpos⟩
  · obtain ⟨r', hr', hy⟩ := mem_names.mp hy
    exact h r' hr' y hy

/-- A roster of few names with short ones is written in full. -/
theorem Listed.small (hshort : ∀ x ∈ all, Binary.Short x) (hfew : all.length < wordCount)
    (h : Listed all n k r) : r.Small where
  size := by
    refine Nat.lt_of_le_of_lt ?_ hfew
    refine (List.subperm_of_subset (nodup_names (some r)) fun x hx => ?_).length_le
    obtain ⟨_, ⟨⟩, hx⟩ := mem_names.mp hx
    exact (h x hx).1
  short x hx := hshort x (h x hx).1

end Violation

/-- The violations of all days with one more of a tracker on a day. -/
def Violation.bump (n : UInt64 → String → UInt64) (d : UInt64) (x : String) :
    UInt64 → String → UInt64 :=
  Function.update n d (Function.update (n d) x (satAdd (n d x) 1))

theorem Violation.le_bump (n : UInt64 → String → UInt64) (d : UInt64) (x : String) (e : UInt64)
    (y : String) : n e y ≤ bump n d x e y := by
  unfold bump
  by_cases he : e = d
  · subst he
    rw [Function.update_self]
    by_cases hy : y = x
    · rw [hy, Function.update_self]
      exact le_satAdd _ 1
    · rw [Function.update_of_ne hy]
      exact UInt64.le_refl _
  · rw [Function.update_of_ne he]
    exact UInt64.le_refl _

theorem Violation.bump_pos (n : UInt64 → String → UInt64) (d : UInt64) (x : String) :
    0 < bump n d x d x := by
  rw [bump, Function.update_self, Function.update_self]
  exact satAdd_one_pos _

namespace Monitor

variable {m : Monitor} {d : UInt64} {all : List String} {n : UInt64 → String → UInt64}
  {events : List Event} {t : Tracker} {path : String} {env env' : Env}

/-- What the store has of all days, whatever has failed: counts that go on counting, rosters that
list what they should, and counters that can be read. -/
structure Kept (m : Monitor) (all : List String) (n : UInt64 → String → UInt64) (env : Env) :
    Prop where
  ownClock_eq : env.store.ownClock = none
  counts : ∀ d x, Counts (OnDay d) (n d x) (env.slot (m.shelf.key (dayName d x)))
  rosters : ∀ d k, ∃ r : Option Roster,
    Lasts (OnDay d) r (env.slot (m.shelf.key (rosterName d k))) ∧ ∀ r' ∈ r, Listed all (n d) k r'
  paths : ∀ d path, Legible Counter (env.slot (m.shelf.key (pathName d path)))
  minutes : ∀ t, Legible Counter (env.slot (m.shelf.key (minuteName t)))

theorem kept_start (m : Monitor) (all : List String) (now : UInt64) :
    m.Kept all (fun _ _ => 0) (.start now (.empty none)) where
  ownClock_eq := rfl
  counts d x := by
    rw [Env.slot_start]
    exact counts_none
  rosters d k := by
    rw [Env.slot_start]
    exact ⟨none, lasts_none, nofun⟩
  paths d path := by
    rw [Env.slot_start]
    exact legible_none
  minutes t := by
    rw [Env.slot_start]
    exact legible_none

/-- The clock, what is going to fail and the records do not matter. -/
theorem Kept.of_slots (h : m.Kept all n env) (hclock : env'.store.ownClock = none)
    (hslot : ∀ key, env'.slot key = env.slot key) : m.Kept all n env' where
  ownClock_eq := hclock
  counts d x := by
    rw [hslot]
    exact h.counts d x
  rosters d k := by
    rw [hslot]
    exact h.rosters d k
  paths d path := by
    rw [hslot]
    exact h.paths d path
  minutes t := by
    rw [hslot]
    exact h.minutes t

theorem Kept.same (h : m.Kept all n env) (hsame : env.Same env') : m.Kept all n env' :=
  h.of_slots (hsame.ownClock_eq.trans h.ownClock_eq) fun key => hsame.slot_eq key id

/-- One more for the count of a day. -/
theorem Kept.count (h : m.Kept all n env) {x : String} {slot : Option Entry}
    (hput : env.Puts (m.shelf.key (dayName d x)) slot env')
    (hcounts : Counts (OnDay d) (satAdd (n d x) 1) slot) : m.Kept all (bump n d x) env' where
  ownClock_eq := hput.frame.ownClock_eq.trans h.ownClock_eq
  counts e y := by
    by_cases hkey : m.shelf.key (dayName e y) = m.shelf.key (dayName d x)
    · obtain ⟨rfl, rfl⟩ := dayKey_inj hkey
      rw [hput.slot_key, bump, Function.update_self, Function.update_self]
      exact hcounts
    · have hother : bump n d x e y = n e y := by
        unfold bump
        by_cases he : e = d
        · subst he
          rw [Function.update_self, Function.update_of_ne fun hy : y = x => hkey (hy ▸ rfl)]
        · rw [Function.update_of_ne he]
      rw [hput.slot_of_ne hkey, hother]
      exact h.counts e y
  rosters e k := by
    rw [hput.slot_of_ne (m.dayKey_ne_rosterKey d e x k).symm]
    obtain ⟨r, hlasts, hlisted⟩ := h.rosters e k
    exact ⟨r, hlasts, fun r' hr' => (hlisted r' hr').mono fun y hy =>
      UInt64.lt_of_lt_of_le hy (le_bump n d x e y)⟩
  paths e path := by
    rw [hput.slot_of_ne (m.dayKey_ne_pathKey d e x path).symm]
    exact h.paths e path
  minutes t := by
    rw [hput.slot_of_ne fun heq => not_ofDay_minuteKey t (heq ▸ m.ofDay_dayKey d x)]
    exact h.minutes t

/-- A roster is written that lists what it should. -/
theorem Kept.saveRoster (h : m.Kept all n env) {k : Nat} {r : Roster} {slot : Option Entry}
    (hput : env.Puts (m.shelf.key (rosterName d k)) slot env')
    (hlasts : Lasts (OnDay d) (some r) slot) (hr : Listed all (n d) k r) : m.Kept all n env' where
  ownClock_eq := hput.frame.ownClock_eq.trans h.ownClock_eq
  counts e x := by
    rw [hput.slot_of_ne (m.dayKey_ne_rosterKey e d x k)]
    exact h.counts e x
  rosters e j := by
    by_cases hkey : m.shelf.key (rosterName e j) = m.shelf.key (rosterName d k)
    · obtain ⟨rfl, rfl⟩ := rosterKey_inj hkey
      rw [hput.slot_key]
      refine ⟨some r, hlasts, ?_⟩
      rintro r' ⟨⟩
      exact hr
    · rw [hput.slot_of_ne hkey]
      exact h.rosters e j
  paths e path := by
    rw [hput.slot_of_ne (m.rosterKey_ne_pathKey d e k path).symm]
    exact h.paths e path
  minutes t := by
    rw [hput.slot_of_ne fun heq => not_ofDay_minuteKey t (heq ▸ m.ofDay_rosterKey d k)]
    exact h.minutes t

/-- The counter of a path or of a minute is changed and can still be read. -/
theorem Kept.of_counter (h : m.Kept all n env) {key : String} (hf : Env.Frame (· = key) env env')
    (hlegible : Legible Counter (env'.slot key))
    (hday : ∀ e x, m.shelf.key (dayName e x) ≠ key)
    (hroster : ∀ e k, m.shelf.key (rosterName e k) ≠ key) : m.Kept all n env' where
  ownClock_eq := hf.ownClock_eq.trans h.ownClock_eq
  counts e x := by
    rw [hf.slot_eq _ (hday e x)]
    exact h.counts e x
  rosters e k := by
    rw [hf.slot_eq _ (hroster e k)]
    exact h.rosters e k
  paths e path := by
    by_cases hkey : m.shelf.key (pathName e path) = key
    · rw [hkey]
      exact hlegible
    · rw [hf.slot_eq _ hkey]
      exact h.paths e path
  minutes t := by
    by_cases hkey : m.shelf.key (minuteName t) = key
    · rw [hkey]
      exact hlegible
    · rw [hf.slot_eq _ hkey]
      exact h.minutes t

/-! ## Whatever fails -/

/-- What the store has, on a day, when some events have been logged. -/
structure Keeping (m : Monitor) (all : List String) (n : UInt64 → String → UInt64) (d : UInt64)
    (events : List Event) (env : Env) : Prop where
  kept : m.Kept all n env
  today : OnDay d env.now
  events_eq : env.events = events

theorem Keeping.quiet (h : m.Keeping all n d events env) (hquiet : env.Quiet env') :
    m.Keeping all n d events env' :=
  ⟨h.kept.same hquiet.same, hquiet.same.now_eq ▸ h.today, hquiet.events_eq.trans h.events_eq⟩

/-- Counting on a path or in a minute takes nothing away. -/
theorem keeps_increment {name : String} (ttl : Duration)
    (hlegible : ∀ {env}, m.Kept all n env → Legible Counter (env.slot (m.shelf.key name)))
    (hday : ∀ e x, m.shelf.key (dayName e x) ≠ m.shelf.key name)
    (hroster : ∀ e k, m.shelf.key (rosterName e k) ≠ m.shelf.key name) :
    (m.shelf.increment name ttl).Keeps (m.Keeping all n d events) fun _ => True := by
  intro env h
  have huses : (m.shelf.increment name ttl).Uses (· = m.shelf.key name) :=
    Shelf.uses_increment (K := (· = m.shelf.key name)) rfl ttl
  have hf : Env.Frame _ env ((m.shelf.increment name ttl).on env).2 := huses.touches env
  obtain ⟨hevents, hslot⟩ := Shelf.increment_legible (hlegible h.kept) ttl
  exact ⟨⟨h.kept.of_counter hf hslot hday hroster, hf.now_eq ▸ h.today,
    hevents.trans h.events_eq⟩, fun _ _ => trivial⟩

section Few

variable (hshort : ∀ x ∈ all, Binary.Short x) (hfew : all.length < wordCount)

include hshort hfew

/-- The pieces of enlisting take nothing away. -/
theorem pieces_keeping : m.Pieces d (m.Keeping all n d events) (Listed all (n d)) where
  counter x := by
    refine keeps_bind keeps_now fun _ _ => keeps_bind (P := fun _ => True) (fun env h => ?_)
      fun _ _ => keeps_pure trivial
    obtain ⟨r, hlasts, _⟩ := h.kept.counts d x
    exact ⟨h.quiet (hlasts.load_any h.kept.ownClock_eq h.today).1, fun _ _ => trivial⟩
  roster k env h := by
    obtain ⟨r, hlasts, hlisted⟩ := h.kept.rosters d k
    obtain ⟨hquiet, hanswer⟩ := hlasts.load_any h.kept.ownClock_eq h.today
    exact ⟨h.quiet hquiet, fun r' hr' => hanswer r' hr' ▸ hlisted⟩
  saveRoster k r hr env h := by
    refine ⟨?_, fun _ _ => trivial⟩
    rcases m.shelf.save_any (rosterName d k) h.kept.ownClock_eq r (some day) with
      ⟨e, env', hsave, hquiet⟩ | ⟨env', hsave, hput, hevents⟩
    · rw [saveRoster, hsave]
      exact h.quiet hquiet
    · rw [saveRoster, hsave]
      refine ⟨h.kept.saveRoster hput ?_ hr, hput.now_eq ▸ h.today, hevents.trans h.events_eq⟩
      exact lasts_written (hr.small hshort hfew).exact fun now hnow => lt_dayEnd h.today hnow
  erase _ _ x h := h.erase x

/-- **Counting a violation takes nothing away**, wherever it fails. -/
theorem Keeping.countViolation (h : m.Keeping all n d events env) (ht : t.key ∈ all)
    (path : String) :
    ∃ n', m.Keeping all n' d events ((m.countViolation t path).on env).2 := by
  unfold Monitor.countViolation
  rw [on_bind_of_ok (on_now env)]
  dsimp only
  rw [h.today.1, on_bind]
  rcases (h.kept.counts d t.key).increment_any h.kept.ownClock_eq h.today day
    (fun now hnow => lt_dayEnd h.today hnow) with
    ⟨e, env₁, hcount, hquiet⟩ | ⟨env₁, slot, hcount, hput, hcounts, hevents⟩
  · rw [hcount]
    exact ⟨n, h.quiet hquiet⟩
  · rw [hcount]
    refine ⟨bump n d t.key, ?_⟩
    have h₁ : m.Keeping all (bump n d t.key) d events env₁ :=
      ⟨h.kept.count hput hcounts, hput.now_eq ▸ h.today, hevents.trans h.events_eq⟩
    have hrest : (do
        let _ ← m.shelf.increment (pathName d path) day
        m.enlist d t
        m.shelf.increment (minuteName t) minute : StoreM UInt64).Keeps
          (m.Keeping all (bump n d t.key) d events) fun _ => True :=
      keeps_bind (keeps_increment day (fun h => h.paths d path)
          (fun e x => m.dayKey_ne_pathKey e d x path)
          fun e k => m.rosterKey_ne_pathKey e d k path) fun _ _ =>
        keeps_bind ((pieces_keeping hshort hfew).enlist fun r hr =>
          Listed.join hr ht (bump_pos n d t.key)) fun _ _ =>
        keeps_increment minute (fun h => h.minutes t)
          (fun e x heq => not_ofDay_minuteKey t (heq ▸ m.ofDay_dayKey e x))
          fun e k heq => not_ofDay_minuteKey t (heq ▸ m.ofDay_rosterKey e k)
    exact (hrest env₁ h₁).1

/-- **A violation takes nothing away**, wherever it fails. -/
theorem Kept.recordViolation (h : m.Kept all n env) (hnow : env.now < maxWord) (ht : t.key ∈ all)
    (path : String) (v : Violation) :
    ∃ n', m.Kept all n' ((m.recordViolation t path v).on env).2 := by
  have htoday : m.Keeping all n (dayOf env.now) env.events env := ⟨h, ⟨rfl, hnow⟩, rfl⟩
  obtain ⟨n', h'⟩ := htoday.countViolation hshort hfew ht path
  refine ⟨n', ?_⟩
  rcases hcount : (m.countViolation t path).on env with ⟨e | lastMinute, env₁⟩ <;> rw [hcount] at h'
  · obtain ⟨env', hon, hsame, _⟩ := on_recordViolation_of_error hcount v
    rw [hon]
    exact h'.kept.same hsame
  · obtain ⟨env', hon, hsame, _⟩ := on_recordViolation_of_ok hcount v
    rw [hon]
    exact h'.kept.same hsame

/-- **Nothing but alarms is logged** when nothing fails. -/
theorem Kept.events_recordViolation (h : m.Kept all n env) (hhealthy : env.Healthy)
    (hnow : env.now < maxWord) (ht : t.key ∈ all) (path : String) (v : Violation) :
    ((m.recordViolation t path v).on env).2.events =
      env.events ++ alarms t path v ((m.recordViolation t path v).on env).1 := by
  have htoday : m.Keeping all n (dayOf env.now) env.events env := ⟨h, ⟨rfl, hnow⟩, rfl⟩
  obtain ⟨n', h'⟩ := htoday.countViolation hshort hfew ht path
  obtain ⟨lastMinute, env₁, hcount⟩ := (m.uses_countViolation t path).ok_of_healthy hhealthy
  obtain ⟨env', hon, _, hevents⟩ := on_recordViolation_of_ok hcount v
  rw [hcount] at h'
  rw [hon, hevents, h'.events_eq]

end Few

end Monitor

end Turnstile
