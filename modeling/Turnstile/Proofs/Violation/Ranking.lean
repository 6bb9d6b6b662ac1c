import Mathlib.Data.List.Dedup
import Mathlib.Data.List.Perm.Subperm
import Turnstile.Proofs.Violation.Best
import Turnstile.Proofs.Violation.Eviction

/-!
# The ranking of the day

Only so many trackers are on the rosters, and of the others nothing is left but their counts.  All
the same the ranking is that of all trackers with violations on the day, as far as it goes: who is
listed is always the best of them.

* `Violation.violationsOn`: how many violations a tracker has on a day of a run.
* `Violation.standings`: all violators of a day by rank, and `Violation.Ranking`: what that is.
* `Monitor.Ranked`: the store after a run.
* `Monitor.Ranked.offend`, `Monitor.Ranked.offences`: one more violation, and a run.
* `Monitor.top_eq_standings`: the ranking is exact.
-/

set_option autoImplicit false

namespace Turnstile

open Violation

/-- A violation that a tracker is found out at. -/
structure Offence where
  now : UInt64
  tracker : Tracker
  path : String
  violation : Violation

namespace Violation

/-! ## The history of a day -/

/-- How many violations a name has on a day. -/
def violationsOn (d : UInt64) (run : List Offence) (x : String) : Nat :=
  run.countP fun o => dayOf o.now = d ∧ o.tracker.key = x

/-- The violations of a day as a counter shows them, which stops at the largest word. -/
def countsOn (d : UInt64) (run : List Offence) (x : String) : UInt64 :=
  wordOfNat (violationsOn d run x)

/-- The names of all that have violations on a day. -/
def offenders (d : UInt64) (run : List Offence) : List String :=
  ((run.filter fun o => dayOf o.now = d).map fun o => o.tracker.key).dedup

/-- All that have violations on a day, by rank. -/
def standings (d : UInt64) (run : List Offence) : List Violator :=
  ((offenders d run).map (violator (countsOn d run))).mergeSort Violator.stronger

/-- A list of all that have violations on a day, with the number of them, each ahead of the ones
after it. -/
structure Ranking (d : UInt64) (run : List Offence) (l : List Violator) : Prop where
  mem_iff : ∀ v, v ∈ l ↔ 0 < violationsOn d run v.tracker ∧ v.violations = countsOn d run v.tracker
  ahead : l.Pairwise Violator.Ahead

variable {d : UInt64} {run : List Offence} {o : Offence} {x : String}

theorem violationsOn_pos_iff :
    0 < violationsOn d run x ↔ ∃ o ∈ run, dayOf o.now = d ∧ o.tracker.key = x := by
  simp [violationsOn, List.countP_pos_iff]

theorem countsOn_pos_iff : 0 < countsOn d run x ↔ 0 < violationsOn d run x := by
  rw [UInt64.lt_iff_toNat_lt, countsOn, toNat_wordOfNat, UInt64.toNat_zero]
  unfold wordCount
  omega

theorem mem_offenders : x ∈ offenders d run ↔ 0 < violationsOn d run x := by
  rw [violationsOn_pos_iff]
  simp [offenders, and_assoc]

/-- A violation of the day is one more for its tracker. -/
theorem countsOn_concat_today (run : List Offence) (o : Offence) :
    countsOn (dayOf o.now) (run ++ [o]) = Function.update (countsOn (dayOf o.now) run) o.tracker.key
      (satAdd (countsOn (dayOf o.now) run o.tracker.key) 1) := by
  funext x
  by_cases hx : x = o.tracker.key
  · subst hx
    rw [Function.update_self, countsOn, countsOn, satAdd_wordOfNat_one]
    simp [violationsOn, List.countP_append]
  · have hx' : o.tracker.key ≠ x := fun e => hx e.symm
    rw [Function.update_of_ne hx]
    simp [countsOn, violationsOn, List.countP_append, hx']

/-- A violation of another day is none of this one. -/
theorem countsOn_concat_other (run : List Offence) (h : d ≠ dayOf o.now) :
    countsOn d (run ++ [o]) = countsOn d run := by
  funext x
  simp [countsOn, violationsOn, List.countP_append, h.symm]

/-! ## The standings -/

theorem Ranking.nodup {l : List Violator} (h : Ranking d run l) : l.Nodup := by
  refine h.ahead.imp fun {a b} hahead heq => ?_
  subst heq
  exact Violator.Ahead.irrefl _ hahead

/-- There is one ranking. -/
theorem Ranking.unique {l l' : List Violator} (h : Ranking d run l) (h' : Ranking d run l') :
    l = l' := by
  refine List.Perm.eq_of_pairwise (fun a b _ _ hab hba => ?_) h.ahead h'.ahead ?_
  · exact absurd (hab.trans hba) (Violator.Ahead.irrefl a)
  · exact (List.perm_ext_iff_of_nodup h.nodup h'.nodup).mpr fun v =>
      (h.mem_iff v).trans (h'.mem_iff v).symm

theorem ranking_standings (d : UInt64) (run : List Offence) : Ranking d run (standings d run) := by
  have hnodup : ((offenders d run).map (violator (countsOn d run))).Nodup :=
    (List.nodup_dedup _).map fun x y h => congrArg Violator.tracker h
  refine ⟨fun v => ?_, Violator.pairwise_ahead_mergeSort hnodup⟩
  rw [standings, List.mem_mergeSort, List.mem_map]
  constructor
  · rintro ⟨x, hx, rfl⟩
    exact ⟨mem_offenders.mp hx, rfl⟩
  · rintro ⟨hpos, hcount⟩
    exact ⟨v.tracker, mem_offenders.mpr hpos, by rw [violator, ← hcount]⟩

/-- The best by rank are the first of all. -/
theorem eq_take_standings {capacity : Nat} {names : List String} {l : List Violator}
    (hbest : Best capacity (countsOn d run) names) (hahead : l.Pairwise Violator.Ahead)
    (hmem : ∀ v, v ∈ l ↔ v.tracker ∈ names ∧ v.violations = countsOn d run v.tracker)
    (hlength : l.length = names.length) : l = (standings d run).take capacity := by
  have hviolator : ∀ v : Violator, v.violations = countsOn d run v.tracker →
      v = violator (countsOn d run) v.tracker := by
    intro v hv
    rw [violator, ← hv]
  obtain ⟨hall, hsorted⟩ := ranking_standings d run
  -- after the best come the others
  let rest := (standings d run).filter fun v => v.tracker ∉ names
  have hrest : ∀ v, v ∈ rest ↔ v ∈ standings d run ∧ v.tracker ∉ names := by
    simp [rest]
  have hranking : Ranking d run (l ++ rest) := by
    refine ⟨fun v => ?_, List.pairwise_append.mpr ⟨hahead, hsorted.filter _, ?_⟩⟩
    · rw [List.mem_append, hmem, hrest, hall]
      constructor
      · rintro (⟨hv, hcount⟩ | ⟨hv, _⟩)
        · exact ⟨countsOn_pos_iff.mp (hbest.positive _ hv), hcount⟩
        · exact hv
      · intro hv
        by_cases hnames : v.tracker ∈ names
        · exact .inl ⟨hnames, hv.2⟩
        · exact .inr ⟨hv, hnames⟩
    · intro v hv w hw
      obtain ⟨hv, hcount⟩ := (hmem v).mp hv
      obtain ⟨hw, hout⟩ := (hrest w).mp hw
      obtain ⟨hpos, hcount'⟩ := (hall w).mp hw
      rw [hviolator v hcount, hviolator w hcount']
      exact hbest.ahead _ hv _ (countsOn_pos_iff.mpr hpos) hout
  rw [← hranking.unique (ranking_standings d run)]
  rcases Nat.lt_or_eq_of_le hbest.few with hlt | heq
  · have hnone : rest = [] := by
      refine List.eq_nil_iff_forall_not_mem.mpr fun v hv => ?_
      obtain ⟨hv, hout⟩ := (hrest v).mp hv
      exact hout (hbest.full hlt _ (countsOn_pos_iff.mpr ((hall v).mp hv).1))
    rw [hnone, List.append_nil, List.take_of_length_le (by omega)]
  · rw [List.take_left' (hlength.trans heq)]

/-- The ranking that rosters of the best give. -/
theorem mergeSort_listing {capacity : Nat} {R : Nat → Option Roster} (hR : Shelved R)
    (hbest : Best capacity (countsOn d run) (allNames R)) :
    ((listing (countsOn d run) R).map Prod.snd).mergeSort Violator.stronger =
      (standings d run).take capacity := by
  have htrackers : ((listing (countsOn d run) R).map Prod.snd).map Violator.tracker = allNames R := by
    rw [List.map_map]
    exact map_tracker_listing hbest.positive
  have hnodup : ((listing (countsOn d run) R).map Prod.snd).Nodup :=
    List.Nodup.of_map _ (htrackers ▸ nodup_allNames hR)
  refine eq_take_standings hbest (Violator.pairwise_ahead_mergeSort hnodup) (fun v => ?_) ?_
  · rw [List.mem_mergeSort, listing_eq hbest.positive, List.map_map, List.mem_map, allNames]
    simp only [List.mem_map, Prod.exists, Function.comp_apply, exists_eq_right]
    constructor
    · rintro ⟨k, x, hx, rfl⟩
      exact ⟨⟨k, hx⟩, rfl⟩
    · rintro ⟨⟨k, hx⟩, hcount⟩
      exact ⟨k, v.tracker, hx, by rw [violator, ← hcount]⟩
  · rw [List.length_mergeSort, ← htrackers, List.length_map Violator.tracker]

end Violation

namespace Monitor

/-! ## Runs -/

/-- Records a violation at its instant. -/
def offend (m : Monitor) (o : Offence) : GateM (Option Anomaly) := do
  modify fun env => env.setClock o.now
  m.recordViolation o.tracker o.path o.violation

/-- Records violations one after the other. -/
def offences (m : Monitor) : List Offence → GateM (List (Option Anomaly))
  | [] => pure []
  | o :: run => do
    let a ← m.offend o
    let rest ← m.offences run
    pure (a :: rest)

/-- The store after a run: at every instant from now on it has the counts of the day, and rosters
that list the best. -/
def Ranked (m : Monitor) (run : List Offence) (env : Env) : Prop :=
  ∀ now, env.now ≤ now → now < maxWord → ∃ R, Shelved R ∧
    Best m.settings.maxTracked.toNat (countsOn (dayOf now) run) (allNames R) ∧
    m.Filed (dayOf now) (countsOn (dayOf now) run) R (env.setClock now)

variable {m : Monitor} {d : UInt64} {n : String → UInt64} {R : Nat → Option Roster}
  {run : List Offence} {o : Offence} {env env' : Env}

theorem ranked_start (m : Monitor) (start : UInt64) :
    m.Ranked [] (.start start (.empty none)) := by
  refine fun now _ hmax => ⟨fun _ => none, nofun, best_nil fun _ => rfl,
    (Env.healthy_start start).setClock now, ⟨rfl, hmax⟩, fun x => ?_, fun k => ?_, nofun⟩
  · rw [Env.slot_setClock, Env.slot_start]
    exact counts_none
  · rw [Env.slot_setClock, Env.slot_start]
    exact lasts_none

/-- Sets are small enough to be written: only so many are listed, or there are only so many. -/
def Room (m : Monitor) (all : List String) : Prop :=
  m.settings.maxTracked < maxWord ∨ all.length < wordCount

/-- No roster is longer than all of them. -/
theorem length_names_le (hR : Shelved R) (t : String) :
    (names (R (rosterOf t))).length ≤ (allNames R).length := by
  refine (List.subperm_of_subset (nodup_names _) fun x hx => ?_).length_le
  rw [mem_allNames hR, ← hR _ x hx]
  exact hx

/-- Where one of some trackers is not listed, fewer are listed than there are. -/
theorem length_allNames_lt {all : List String} (hR : Shelved R) (hall : ∀ x ∈ allNames R, x ∈ all)
    {t : String} (ht : t ∈ all) (hout : t ∉ allNames R) : (allNames R).length < all.length :=
  (List.subperm_of_subset (List.nodup_cons.mpr ⟨hout, nodup_allNames hR⟩)
    (List.cons_subset.mpr ⟨ht, hall⟩)).length_le

/-- There is room for one more. -/
theorem length_names_lt {all : List String} (hroom : m.Room all) (hR : Shelved R)
    (hbest : Best m.settings.maxTracked.toNat n (allNames R)) (hall : ∀ x ∈ allNames R, x ∈ all)
    {t : String} (ht : t ∈ all) (hout : t ∉ names (R (rosterOf t))) :
    (names (R (rosterOf t))).length + 1 < wordCount := by
  have hlisted := length_names_le hR t
  rcases hroom with hmax | hfew
  · have := hbest.few
    rw [lt_maxWord_iff] at hmax
    omega
  · have := length_allNames_lt hR hall ht (mt (mem_allNames hR).mp hout)
    omega

/-- **One more violation.**  The counts and rosters of its day have it; those of later days are left
alone. -/
theorem Ranked.offend (h : m.Ranked run env) {all : List String} (hroom : m.Room all)
    (hall : ∀ o ∈ run, o.tracker.key ∈ all) (ho : o.tracker.key ∈ all)
    (hshort : Binary.Short o.tracker.key) (hle : env.now ≤ o.now) (hmax : o.now < maxWord) :
    m.Ranked (run ++ [o]) ((m.offend o).on env).2 ∧ ((m.offend o).on env).2.now = o.now := by
  obtain ⟨R, hR, hbest, hfiled⟩ := h o.now hle hmax
  have hlisted : ∀ x ∈ allNames R, x ∈ all := by
    intro x hx
    obtain ⟨o', ho', _, rfl⟩ := violationsOn_pos_iff.mp (countsOn_pos_iff.mp (hbest.positive x hx))
    exact hall o' ho'
  obtain ⟨answer, env', R', hrecord, hframe, hfiled', henlists⟩ := hfiled.recordViolation o.tracker
    o.path o.violation hshort (length_names_lt hroom hR hbest hlisted ho)
  obtain ⟨hR', hbest'⟩ := best_of_enlists hR hbest (le_satAdd _ 1) (satAdd_one_pos _) henlists
  rw [← countsOn_concat_today] at hfiled' hbest'
  have hon : ((m.offend o).on env).2 = env' := by
    simp only [Monitor.offend, GateM.on_bind, GateM.on_modify, hrecord]
  rw [hon]
  refine ⟨fun now hnow hlt => ?_, hframe.now_eq⟩
  rw [hframe.now_eq, Env.now_setClock] at hnow
  by_cases hday : dayOf now = dayOf o.now
  · rw [hday]
    exact ⟨R', hR', hbest', hfiled'.setClock ⟨hday, hlt⟩⟩
  · -- another day has keys of its own
    obtain ⟨R₀, hR₀, hbest₀, hfiled₀⟩ := h now (UInt64.le_trans hle hnow) hlt
    have hkey : ∀ key, m.OfDay (dayOf now) key → ¬ m.ViolationKey (dayOf o.now) o.tracker key := by
      rintro key hkey (htoday | rfl)
      · exact hday (ofDay_inj hkey htoday)
      · exact not_ofDay_minuteKey o.tracker hkey
    rw [countsOn_concat_other run hday]
    exact ⟨R₀, hR₀, hbest₀, hfiled₀.of_frame (hframe.setClock now)
      (fun x => hkey _ (m.ofDay_dayKey _ x)) fun k => hkey _ (m.ofDay_rosterKey _ k)⟩

/-- **A run of violations** leaves the best on the rosters, and ends no later than any instant that
is not before it. -/
theorem Ranked.offences (h : m.Ranked run env) {more : List Offence} {all : List String}
    (hroom : m.Room all) (hall : ∀ o ∈ run ++ more, o.tracker.key ∈ all)
    (hshort : ∀ o ∈ more, Binary.Short o.tracker.key) {now : UInt64}
    (hsorted : (env.now :: more.map Offence.now ++ [now]).Pairwise (· ≤ ·)) (hmax : now < maxWord) :
    m.Ranked (run ++ more) ((m.offences more).on env).2 ∧ ((m.offences more).on env).2.now ≤ now := by
  induction more generalizing run env with
  | nil =>
    rw [List.append_nil]
    exact ⟨h, (List.pairwise_cons.mp hsorted).1 now List.mem_cons_self⟩
  | cons o more ih =>
    rw [List.map_cons, List.cons_append, List.cons_append, List.pairwise_cons] at hsorted
    obtain ⟨hle, hsorted⟩ := hsorted
    obtain ⟨ho, hshort⟩ := List.forall_mem_cons.mp hshort
    have hpast : ∀ o ∈ run, o.tracker.key ∈ all := fun o ho => hall o (List.mem_append_left _ ho)
    have hhere : o.tracker.key ∈ all := hall o (by simp)
    have homax : o.now < maxWord :=
      UInt64.lt_of_le_of_lt ((List.pairwise_cons.mp hsorted).1 now (by simp)) hmax
    obtain ⟨h', hnow⟩ := h.offend hroom hpast hhere ho (hle o.now List.mem_cons_self) homax
    rw [List.append_cons] at hall ⊢
    rw [← hnow] at hsorted
    exact ih h' hall hshort hsorted

/-- **The ranking is exact.**  Whatever the settings, let a monitor start on an empty store that does
not fail, and let any trackers have violations on any paths at instants that do not fall, below the
largest word.  At any later instant the ranking is that of all trackers with violations on the day,
as far as it may go, so one that was struck off and is good enough again is back with all its
violations; the number of each is that of its statistics; and the rosters list the best alone, no
more of them than the settings say.

Names and sets have to be short enough for their lengths to be words, as all that fits into memory
is. -/
theorem top_eq_standings (m : Monitor) (start now : UInt64) (run : List Offence)
    (hsorted : (start :: run.map Offence.now ++ [now]).Pairwise (· ≤ ·)) (hmax : now < maxWord)
    (hshort : ∀ o ∈ run, Binary.Short o.tracker.key)
    (hroom : m.Room (run.map fun o => o.tracker.key).dedup) :
    let env := ((m.offences run).on (.start start (.empty none))).2.setClock now
    let best := (standings (dayOf now) run).take m.settings.maxTracked.toNat
    Ranking (dayOf now) run (standings (dayOf now) run) ∧
    (∀ limit, ((m.top limit).on env).1 =
      (standings (dayOf now) run).take (min limit.toNat m.settings.maxTracked.toNat)) ∧
    (∀ v ∈ standings (dayOf now) run, ∀ t : Tracker, t.key = v.tracker →
      ((m.stats t).on env).1.violationsToday = v.violations) ∧
    (m.roll (dayOf now) env).length ≤ m.settings.maxTracked.toNat ∧
    (m.roll (dayOf now) env).Perm (best.map Violator.tracker) := by
  intro env best
  obtain ⟨hranked, hnow⟩ := (m.ranked_start start).offences hroom
    (fun o ho => List.mem_dedup.mpr (List.mem_map_of_mem ho)) hshort hsorted hmax
  rw [List.nil_append] at hranked
  obtain ⟨R, hR, hbest, hfiled⟩ := hranked now hnow hmax
  have hranking := ranking_standings (dayOf now) run
  have hlisting := mergeSort_listing hR hbest
  have hroll : m.roll (dayOf now) env = allNames R := hfiled.roll
  refine ⟨hranking, fun limit => ?_, fun v hv t ht => ?_, ?_, ?_⟩
  · rw [hfiled.top, hlisting, List.take_take]
  · rw [hfiled.stats, ht, ((hranking.mem_iff v).mp hv).2]
  · rw [hroll]
    exact hbest.few
  · have hperm := List.mergeSort_perm ((listing (countsOn (dayOf now) run) R).map Prod.snd)
      Violator.stronger
    rw [hlisting] at hperm
    rw [hroll, ← map_tracker_listing hbest.positive]
    simpa only [List.map_map, Function.comp_def] using (hperm.map Violator.tracker).symm

/-- Where only one is listed, Alice and Bob take turns. -/
def takingTurns : List Offence :=
  [("alice", 0), ("bob", 1), ("bob", 2), ("alice", 3)].map fun (user, now) =>
    ⟨now, .user user, "/", ⟨"login", 2, none, false⟩⟩

/-- Who was struck off is ranked by all violations of the day once they are enough. -/
theorem top_takingTurns :
    let m : Monitor := ⟨⟨"violations"⟩, ⟨10, 1⟩⟩
    let env := ((m.offences takingTurns).on (.start 0 (.empty none))).2.setClock 4
    ((m.top 5).on env).1 = [⟨"user:alice", 2⟩] ∧ m.roll (dayOf 4) env = ["user:alice"] := by
  intro m env
  have hshort : ∀ o ∈ takingTurns, Binary.Short o.tracker.key := by decide +kernel
  obtain ⟨_, htop, _, _, hroll⟩ := top_eq_standings m 0 4 takingTurns (by decide) (by decide) hshort
    (.inl (by decide))
  have hstandings : standings (dayOf 4) takingTurns = [⟨"user:alice", 2⟩, ⟨"user:bob", 2⟩] := by
    have hall : (offenders (dayOf 4) takingTurns).map (violator (countsOn (dayOf 4) takingTurns)) =
        [⟨"user:bob", 2⟩, ⟨"user:alice", 2⟩] := by
      decide +kernel
    have hstronger : Violator.stronger ⟨"user:bob", 2⟩ ⟨"user:alice", 2⟩ = false := by decide +kernel
    rw [standings, hall]
    simp [List.mergeSort, hstronger]
  rw [hstandings] at hroll
  refine ⟨?_, List.perm_singleton.mp hroll⟩
  rw [htop, hstandings]
  rfl

end Monitor

end Turnstile
