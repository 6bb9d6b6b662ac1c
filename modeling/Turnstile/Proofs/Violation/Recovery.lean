import Turnstile.Proofs.Env.Ledger
import Turnstile.Proofs.Violation.Kept
import Turnstile.Proofs.Violation.Ranking

/-!
# Rosters after failures

Failures may leave more on the rosters than may be, and trackers with violations on none of them.
The first tracker that joins them without a failure sets the number right: of those that are listed
and itself the best are left.  Who was lost to a failure is back when it joins.

* `Violation.strongest`: the best of some names, and `Violation.strongest_eq`: who that is.
* `Monitor.Attempt`, `Monitor.attempts`: violations that are recorded while calls may fail.
* `Monitor.kept_attempts`: what no failure takes away.
* `Monitor.Filed.join`: a tracker joins the rosters of a day.
* `Monitor.roll_recovers`: the rosters after the first violation without failures.
-/

set_option autoImplicit false

namespace Turnstile

open Violation StoreM

namespace Violation

/-- The best of some names by their violations, as many as may be. -/
def strongest (capacity : Nat) (n : String → UInt64) (names : List String) : List String :=
  (((names.map (violator n)).mergeSort Violator.stronger).take capacity).map Violator.tracker

variable {capacity : Nat} {n : String → UInt64} {names order : List String}

/-- The best are left when the weakest are dropped. -/
theorem strongest_eq (hperm : order.Perm names)
    (hsorted : order.Pairwise fun x y => (violator n y).Ahead (violator n x)) :
    strongest capacity n names = (order.drop (order.length - capacity)).reverse := by
  have hnodup : names.Nodup := by
    refine hperm.nodup_iff.mp (hsorted.imp fun {x y} hahead heq => ?_)
    subst heq
    exact Violator.Ahead.irrefl _ hahead
  have hviolators : (names.map (violator n)).Nodup :=
    hnodup.map fun _ _ heq => congrArg Violator.tracker heq
  have hreverse : (order.map (violator n)).reverse.Pairwise Violator.Ahead := by
    rw [List.pairwise_reverse, List.pairwise_map]
    exact hsorted
  have hall : (names.map (violator n)).mergeSort Violator.stronger =
      (order.map (violator n)).reverse := by
    refine List.Perm.eq_of_pairwise (fun a b _ _ hab hba => ?_)
      (Violator.pairwise_ahead_mergeSort hviolators) hreverse ?_
    · exact absurd (hab.trans hba) (Violator.Ahead.irrefl a)
    · exact (List.mergeSort_perm _ _).trans
        ((hperm.symm.map (violator n)).trans (List.reverse_perm _).symm)
  have htracker : ∀ l : List String, (l.map (violator n)).map Violator.tracker = l := by
    intro l
    rw [List.map_map]
    exact List.map_id l
  rw [strongest, hall, List.take_reverse, List.map_reverse, List.length_map, ← List.map_drop,
    htracker]

/-- If they are not too many, all are the best. -/
theorem strongest_perm (h : names.length ≤ capacity) : (strongest capacity n names).Perm names := by
  rw [strongest, List.take_of_length_le (by simpa using h)]
  have hperm :=
    (List.mergeSort_perm (names.map (violator n)) Violator.stronger).map Violator.tracker
  rw [List.map_map] at hperm
  exact hperm.trans (by rw [show Violator.tracker ∘ violator n = id from rfl, List.map_id])

end Violation

namespace Monitor

/-! ## Violations while calls may fail -/

/-- A violation that is recorded while calls on the store may fail. -/
structure Attempt where
  offence : Offence
  /-- Whether the store is away. -/
  outage : Bool
  /-- Which calls are made to fail, by their place among those of the attempt. -/
  faults : Nat → Option StoreError

/-- The surroundings in which an attempt is made. -/
def Attempt.before (a : Attempt) (env : Env) : Env :=
  ((env.restart a.faults).setClock a.offence.now).setOutage a.outage

/-- The surroundings after an attempt. -/
def attempt (m : Monitor) (a : Attempt) (env : Env) : Env :=
  ((m.recordViolation a.offence.tracker a.offence.path a.offence.violation).on (a.before env)).2

/-- The surroundings after attempts, one after the other. -/
def attempts (m : Monitor) (run : List Attempt) (env : Env) : Env :=
  run.foldl (fun env a => m.attempt a env) env

/-- The violations of a name on a day that can be read. -/
def countOn (m : Monitor) (d : UInt64) (env : Env) (x : String) : UInt64 :=
  Counter.reading (env.record Counter m.shelf (dayName d x)) env.now

/-- The rosters of a day that can be read. -/
def rosters (m : Monitor) (d : UInt64) (env : Env) (k : Nat) : Option Roster :=
  env.record Roster m.shelf (rosterName d k)

variable {m : Monitor} {d : UInt64} {all : List String} {n : UInt64 → String → UInt64}
  {run : List Attempt} {a : Attempt} {env env' : Env}

theorem attempts_concat (m : Monitor) (run : List Attempt) (a : Attempt) (env : Env) :
    m.attempts (run ++ [a]) env = m.attempt a (m.attempts run env) := by
  simp only [attempts, List.foldl_append, List.foldl_cons, List.foldl_nil]

theorem ownClock_attempts (m : Monitor) (run : List Attempt) (env : Env) :
    (m.attempts run env).store.ownClock = env.store.ownClock := by
  induction run generalizing env with
  | nil => rfl
  | cons a run ih =>
    exact (ih _).trans (m.touches_recordViolation a.offence.tracker a.offence.path
      a.offence.violation (a.before env)).ownClock_eq

/-- No call of an attempt fails if the store is there and none is made to fail. -/
theorem calls_attempt (m : Monitor) (hclock : env.store.ownClock = none) (haway : a.outage = false)
    (hfaults : a.faults = fun _ => none) : ∀ c ∈ (m.attempt a env).calls, c.error? = none := by
  have huses : (m.recordViolation a.offence.tracker a.offence.path a.offence.violation).Uses
      (fun _ => True) fun _ => False := uses_recordViolation (fun _ _ => trivial) _ _ _
  have hbefore : (a.before env).Answered := ⟨⟨hfaults, haway, hclock⟩, nofun⟩
  exact (huses.steady (Env.steady_answered _ _) (a.before env) hbefore).calls

theorem roll_eq (m : Monitor) (d : UInt64) (env : Env) :
    m.roll d env = allNames (m.rosters d env) := by
  simp only [Monitor.roll, Violation.allNames, index, List.map_flatMap, List.map_map,
    Function.comp_def, List.map_id', rosters]

theorem rosters_same (h : env.Same env') (d : UInt64) : m.rosters d env' = m.rosters d env := by
  funext k
  exact Env.record_of_frame h id

theorem countOn_same (h : env.Same env') (d : UInt64) : m.countOn d env' = m.countOn d env := by
  funext x
  have hrecord : env'.record Counter m.shelf (dayName d x) =
      env.record Counter m.shelf (dayName d x) := Env.record_of_frame h id
  rw [countOn, countOn, hrecord, h.now_eq]

theorem Filed.rosters_eq {n : String → UInt64} {R : Nat → Option Roster}
    (h : m.Filed d n R env) : m.rosters d env = R := funext h.record

theorem Filed.countOn_eq {n : String → UInt64} {R : Nat → Option Roster}
    (h : m.Filed d n R env) : m.countOn d env = n := by
  funext x
  have htime : env.store.time env.now = env.now := by
    simp [Store.time, h.healthy.ownClock_eq]
  rw [countOn, Env.record, htime]
  exact (h.counts x).reading h.today

/-! ## What is relied on -/

section Few

variable (hshort : ∀ x ∈ all, Binary.Short x) (hfew : all.length < wordCount)

include hshort hfew

theorem Kept.attempt (h : m.Kept all n env) (hmax : a.offence.now < maxWord)
    (hall : a.offence.tracker.key ∈ all) : ∃ n', m.Kept all n' (m.attempt a env) := by
  have hbefore : m.Kept all n (a.before env) := h.of_slots h.ownClock_eq fun _ => rfl
  exact hbefore.recordViolation hshort hfew hmax hall a.offence.path a.offence.violation

/-- **What no failure takes away**, whatever fails in a run. -/
theorem kept_attempts (h : m.Kept all n env) (hmax : ∀ a ∈ run, a.offence.now < maxWord)
    (hall : ∀ a ∈ run, a.offence.tracker.key ∈ all) : ∃ n', m.Kept all n' (m.attempts run env) := by
  induction run generalizing n env with
  | nil => exact ⟨n, h⟩
  | cons a run ih =>
    obtain ⟨ha, hmax⟩ := List.forall_mem_cons.mp hmax
    obtain ⟨hall₁, hall⟩ := List.forall_mem_cons.mp hall
    obtain ⟨n', h'⟩ := h.attempt hshort hfew ha hall₁
    exact ih h' hmax hall

/-- The counts and the rosters of the day, if the store is back. -/
theorem Kept.filed (h : m.Kept all n env) (htoday : OnDay d env.now) :
    ∃ R, m.Filed d (n d) R env.healed ∧ ∀ k, ∀ r ∈ R k, Listed all (n d) k r := by
  choose R hlasts hlisted using h.rosters d
  exact ⟨R, ⟨Env.healthy_healed h.ownClock_eq, htoday, h.counts d, hlasts, fun k r hr =>
    (hlisted k r hr).small hshort hfew⟩, hlisted⟩

end Few

theorem shelved_of_listed {n : String → UInt64} {R : Nat → Option Roster}
    (h : ∀ k, ∀ r ∈ R k, Listed all n k r) :
    Shelved R ∧ ∀ x ∈ allNames R, x ∈ all ∧ 0 < n x := by
  have hlisted : ∀ k x, x ∈ names (R k) → x ∈ all ∧ rosterOf x = k ∧ 0 < n x := by
    intro k x hx
    obtain ⟨r, hr, hx⟩ := mem_names.mp hx
    exact h k r hr x hx
  have hR : Shelved R := fun k x hx => (hlisted k x hx).2.1.symm
  refine ⟨hR, fun x hx => ?_⟩
  obtain ⟨hall, _, hpos⟩ := hlisted _ x ((mem_allNames hR).mp hx)
  exact ⟨hall, hpos⟩

/-! ## The first violation without failures -/

/-- **A tracker joins the rosters of a day**, and those with the fewest violations leave them. -/
theorem Filed.join {n : String → UInt64} {R : Nat → Option Roster} (h : m.Filed d n R env)
    (hR : Shelved R) (hpositive : ∀ x ∈ allNames R, 0 < n x) {t : Tracker}
    (ht : Binary.Short t.key) (hout : t.key ∉ allNames R)
    (hsize : (names (R (rosterOf t.key))).length + 1 < wordCount) (path : String) (v : Violation) :
    ∃ answer env' R', (m.recordViolation t path v).on env = (answer, env') ∧
      m.Filed d (Function.update n t.key (satAdd (n t.key) 1)) R' env' ∧ Shelved R' ∧
      (allNames R').Perm (strongest m.settings.maxTracked.toNat
        (Function.update n t.key (satAdd (n t.key) 1)) (t.key :: allNames R)) := by
  obtain ⟨answer, env', R', hon, _, h', henlists⟩ := h.recordViolation t path v ht fun _ => hsize
  have hroster : t.key ∉ names (R (rosterOf t.key)) := by rwa [← mem_allNames hR]
  rw [Enlists, if_neg hroster] at henlists
  obtain ⟨R₁, hjoined, hnames⟩ := henlists
  obtain ⟨hR', order, hperm, hsorted, hleft⟩ := left_of_joined hR hroster
    (positive_cons hpositive (satAdd_one_pos _)) hjoined hnames
  refine ⟨answer, env', R', hon, h', hR', ?_⟩
  rw [strongest_eq hperm hsorted]
  exact hleft.symm.trans (List.reverse_perm _).symm

/-- What is recorded without a failure has been counted. -/
theorem countViolation_ok {t : Tracker} {path : String} {v : Violation} {before : Env}
    (hcalls : before.calls = [])
    (hok : ∀ c ∈ ((m.recordViolation t path v).on before).2.calls, c.error? = none) :
    ∃ lastMinute env₁, (m.countViolation t path).on before = (.ok lastMinute, env₁) := by
  rcases hcount : (m.countViolation t path).on before with ⟨e | lastMinute, env₁⟩
  · -- the failure is told of, so that one of the calls has met it
    obtain ⟨env', hon, _, hevents⟩ := on_recordViolation_of_error hcount v
    have hstart : Unalarmed before.events before := ⟨[], by simp, nofun⟩
    obtain ⟨new, hnew, _⟩ := (unalarmed_countViolation m t path before hstart).1
    rw [hcount] at hnew
    have huses : (m.recordViolation t path v).Uses (fun _ => True) fun _ => False :=
      uses_recordViolation (fun _ _ => trivial) t path v
    obtain ⟨calls, events, hcalls', hevents', hfailures, _⟩ := huses.booked nofun before
    rw [hon] at hok hcalls' hevents'
    have hevents : before.events ++ (new ++ [.outcomeLost e t path]) = before.events ++ events := by
      rw [← List.append_assoc, ← hnew]
      exact hevents.symm.trans hevents'
    obtain rfl := List.append_cancel_left hevents
    rw [told_append] at hfailures
    have hmem : e ∈ failures calls := by
      rw [hfailures]
      simp [told, Event.error?]
    obtain ⟨c, hc, herror⟩ := List.mem_filterMap.mp hmem
    rw [hcalls, List.nil_append] at hcalls'
    rw [hok c (hcalls' ▸ hc)] at herror
    cases herror
  · exact ⟨lastMinute, env₁, rfl⟩

/-- **The rosters recover.**  Let a monitor start on an empty store, and let any trackers have
violations at any instants below the largest word while the store is away or any calls on it fail,
in the middle of striking trackers off as well.  When then a tracker that is on no roster of the day
has a violation and no call fails, those left on the rosters are the best of the ones that were on
them and the tracker, as many as the settings say, and all of them if they are not more than that.
Nobody is listed twice, before or after, and everybody is on the roster that lists it.

Names have to be short enough and trackers few enough for their numbers to be words, as all that
fits into memory is. -/
theorem roll_recovers (m : Monitor) (start : UInt64) (run : List Attempt) (last : Attempt)
    (hmax : ∀ a ∈ run ++ [last], a.offence.now < maxWord)
    (hshort : ∀ a ∈ run ++ [last], Binary.Short a.offence.tracker.key)
    (hfew : ((run ++ [last]).map fun a => a.offence.tracker.key).dedup.length < wordCount) :
    let before := last.before (m.attempts run (.start start (.empty none)))
    let after := m.attempts (run ++ [last]) (.start start (.empty none))
    let capacity := m.settings.maxTracked.toNat
    let d := dayOf last.offence.now
    let t := last.offence.tracker.key
    t ∉ m.roll d before → (∀ c ∈ after.calls, c.error? = none) →
    (m.roll d after).Perm (strongest capacity (m.countOn d after) (t :: m.roll d before)) ∧
    ((t :: m.roll d before).length ≤ capacity → (m.roll d after).Perm (t :: m.roll d before)) ∧
    m.countOn d after =
      Function.update (m.countOn d before) t (satAdd (m.countOn d before t) 1) ∧
    (∀ x ∈ t :: m.roll d before, 0 < m.countOn d after x) ∧
    (m.roll d before).Nodup ∧ (m.roll d after).Nodup ∧
    Shelved (m.rosters d before) ∧ Shelved (m.rosters d after) := by
  intro before after capacity d t hout hok
  let all := ((run ++ [last]).map fun a => a.offence.tracker.key).dedup
  have hall : ∀ a ∈ run ++ [last], a.offence.tracker.key ∈ all := fun a ha =>
    List.mem_dedup.mpr (List.mem_map_of_mem ha)
  have hshort' : ∀ x ∈ all, Binary.Short x := by
    intro x hx
    obtain ⟨a, ha, rfl⟩ := List.mem_map.mp (List.mem_dedup.mp hx)
    exact hshort a ha
  have hlast : last ∈ run ++ [last] := by simp
  obtain ⟨n, hkept⟩ : ∃ n, m.Kept all n (m.attempts run (.start start (.empty none))) :=
    kept_attempts hshort' hfew (m.kept_start all start)
      (fun a ha => hmax a (List.mem_append_left _ ha))
      fun a ha => hall a (List.mem_append_left _ ha)
  have hbefore : m.Kept all n before := hkept.of_slots hkept.ownClock_eq fun _ => rfl
  obtain ⟨R, hfiled, hlisted⟩ := hbefore.filed hshort' hfew (d := d) ⟨rfl, hmax last hlast⟩
  obtain ⟨hR, hlisted⟩ := shelved_of_listed hlisted
  have hrosters : m.rosters d before = R := hfiled.rosters_eq
  have hcount : m.countOn d before = n d := hfiled.countOn_eq
  rw [roll_eq, hrosters] at hout
  -- what is done without a failure is done as if the store had been healthy
  have hafter : after = ((m.recordViolation last.offence.tracker last.offence.path
      last.offence.violation).on before).2 := m.attempts_concat run last _
  rw [hafter] at hok
  obtain ⟨lastMinute, env₁, hcounted⟩ := countViolation_ok rfl hok
  obtain ⟨env₂, hon, hsame, _⟩ := on_recordViolation_of_ok hcounted last.offence.violation
  obtain ⟨env₃, hhealed, hsame', _⟩ := on_recordViolation_of_ok
    ((m.uses_countViolation _ _).on_healed hcounted) last.offence.violation
  have hsize : (names (R (rosterOf t))).length + 1 < wordCount := by
    have hle := length_names_le hR t
    have hlt := length_allNames_lt hR (fun x hx => (hlisted x hx).1) (hall last hlast) hout
    have hfew : all.length < wordCount := hfew
    omega
  obtain ⟨_, _, R', hjoin, hfiled', hR', hperm⟩ := hfiled.join hR (fun x hx => (hlisted x hx).2)
    (hshort last hlast) hout hsize last.offence.path last.offence.violation
  rw [hhealed] at hjoin
  obtain ⟨_, rfl⟩ := Prod.mk.inj hjoin
  have hrosters' : m.rosters d after = R' := by
    rw [hafter, hon, rosters_same hsame]
    exact (rosters_same hsame' d).symm.trans hfiled'.rosters_eq
  have hcount' : m.countOn d after = Function.update (n d) t (satAdd (n d t) 1) := by
    rw [hafter, hon, countOn_same hsame]
    exact (countOn_same hsame' d).symm.trans hfiled'.countOn_eq
  simp only [roll_eq, hrosters, hrosters', hcount, hcount']
  exact ⟨hperm, fun hfit => hperm.trans (strongest_perm hfit), trivial,
    positive_cons (fun x hx => (hlisted x hx).2) (satAdd_one_pos _), nodup_allNames hR,
    nodup_allNames hR', hR, hR'⟩

/-- Where only one may be listed, Alice and Bob both are, as calls failed before anybody was struck
off; and Carol is counted and not listed, as a call failed before that. -/
def interrupted : List Attempt :=
  [("alice", 0, 10), ("bob", 1, 10), ("carol", 2, 2)].map fun (user, now, place) =>
    ⟨⟨now, .user user, "/", ⟨"login", 2, none, false⟩⟩, false,
      fun n => if n = place then some (.unavailable "reset") else none⟩

/-- Carol's second violation, during which no call fails. -/
def uninterrupted : Attempt :=
  ⟨⟨3, .user "carol", "/", ⟨"login", 2, none, false⟩⟩, false, fun _ => none⟩

/-- Too many are listed, and then the one that is the best by all violations of the day. -/
theorem roll_uninterrupted :
    let m : Monitor := ⟨⟨"violations"⟩, ⟨10, 1⟩⟩
    let env := m.attempts interrupted (.start 0 (.empty none))
    m.roll (dayOf 3) (uninterrupted.before env) = ["user:alice", "user:bob"] ∧
      m.roll (dayOf 3) (m.attempts (interrupted ++ [uninterrupted]) (.start 0 (.empty none))) =
        ["user:carol"] := by
  intro m env
  have hbefore : m.roll (dayOf 3) (uninterrupted.before env) = ["user:alice", "user:bob"] := by
    decide +kernel
  have hcounts : ["user:carol", "user:alice", "user:bob"].map
      (m.countOn (dayOf 3) (uninterrupted.before env)) = [1, 1, 1] := by
    decide +kernel
  have hkey : uninterrupted.offence.tracker.key = "user:carol" := by decide +kernel
  have hday : dayOf uninterrupted.offence.now = dayOf 3 := rfl
  have hok : ∀ c ∈ (m.attempts (interrupted ++ [uninterrupted]) (.start 0 (.empty none))).calls,
      c.error? = none := by
    rw [attempts_concat]
    exact calls_attempt m (m.ownClock_attempts interrupted _) rfl rfl
  have hout : uninterrupted.offence.tracker.key ∉
      m.roll (dayOf uninterrupted.offence.now) (uninterrupted.before env) := by
    rw [hday, hbefore, hkey]
    decide
  refine ⟨hbefore, ?_⟩
  obtain ⟨hroll, _, hcount, _⟩ := roll_recovers m 0 interrupted uninterrupted (by decide)
    (by decide +kernel) (by decide +kernel) hout hok
  rw [hday] at hroll hcount
  rw [hcount, hkey, hbefore] at hroll
  generalize hn : m.countOn (dayOf 3) (uninterrupted.before env) = n at hcounts hroll
  obtain ⟨hcarol₁, halice₁, hbob₁⟩ :
      n "user:carol" = 1 ∧ n "user:alice" = 1 ∧ n "user:bob" = 1 := by
    simpa using hcounts
  have hall : ["user:carol", "user:alice", "user:bob"].map
      (violator (Function.update n "user:carol" (satAdd (n "user:carol") 1))) =
        [⟨"user:carol", 2⟩, ⟨"user:alice", 1⟩, ⟨"user:bob", 1⟩] := by
    have htwice : satAdd 1 1 = 2 := by decide
    simp [violator, Function.update, hcarol₁, halice₁, hbob₁, htwice]
  have halice : Violator.stronger ⟨"user:carol", 2⟩ ⟨"user:alice", 1⟩ = true := by decide +kernel
  have hbob : Violator.stronger ⟨"user:carol", 2⟩ ⟨"user:bob", 1⟩ = true := by decide +kernel
  rw [strongest, hall] at hroll
  simpa [m, List.mergeSort, List.merge, halice, hbob] using hroll

end Monitor

end Turnstile
