import Mathlib.Data.List.Nodup
import Mathlib.Logic.Function.Basic
import Turnstile.Proofs.Env.Lasting
import Turnstile.Proofs.Violation.Day

/-!
# The rosters of a day

All day long the store has the counts of the trackers and the rosters that list them.  Who looks at
the ranking reads all of it and changes nothing; who joins or leaves changes a roster.

* `Violation.index`: the names on all rosters, with the numbers of the rosters.
* `Monitor.Filed`: the counts and the rosters of a day as the store has them.
* `Monitor.Filed.ranked`, `Monitor.Filed.top`, `Monitor.Filed.stats`: what is read of them.
* `Monitor.Filed.evict`, `Monitor.Filed.enforceCapacity`, `Monitor.Filed.enlist`: who is listed then.
* `Monitor.Filed.recordViolation`: what a violation changes.
-/

set_option autoImplicit false

namespace Turnstile

open Violation

namespace Violation

/-! ## Rosters as lists -/

/-- The names on a roster; a missing one has none. -/
def names (r : Option Roster) : List String := (r.map fun r => r.members.toList).getD []

/-- The names on all rosters with the numbers of the rosters. -/
def index (R : Nat → Option Roster) : List (Nat × String) :=
  (List.range rosterCount).flatMap fun k => (names (R k)).map fun x => (k, x)

/-- The names on all rosters that have violations, as violators with the numbers of the rosters. -/
def listing (n : String → UInt64) (R : Nat → Option Roster) : List (Nat × Violator) :=
  ((index R).filter fun e => 0 < n e.2).map fun e => (e.1, ⟨e.2, n e.2⟩)

/-- The order in which names are struck off. -/
def weakestFirst (n : String → UInt64) (R : Nat → Option Roster) : List (Nat × Violator) :=
  (listing n R).mergeSort fun a b => a.2.weaker b.2

/-- A roster that is read back as it is written: its size is a word, and so are the lengths of the
names. -/
structure Roster.Small (r : Roster) : Prop where
  size : r.members.toList.length < wordCount
  short : ∀ x ∈ r.members, Binary.Short x

theorem Roster.Small.exact {r : Roster} (h : r.Small) : Binary.Exact r :=
  Binary.exact_narrow rfl (Binary.exact_texts h.size h.short)

theorem Roster.Small.erase {r : Roster} (h : r.Small) (x : String) :
    (⟨r.members.erase x⟩ : Roster).Small := by
  refine ⟨?_, fun y hy => h.short y (Std.ExtTreeSet.mem_of_mem_erase hy)⟩
  have hsize := h.size
  rw [Std.ExtTreeSet.length_toList] at hsize ⊢
  exact Nat.lt_of_le_of_lt Std.ExtTreeSet.size_erase_le hsize

theorem mem_names {r : Option Roster} {x : String} : x ∈ names r ↔ ∃ r' ∈ r, x ∈ r'.members := by
  cases r with
  | none => simp [names]
  | some r => simp [names]

theorem mem_names_erase {r : Roster} {x y : String} :
    y ∈ names (some ⟨r.members.erase x⟩) ↔ y ≠ x ∧ y ∈ names (some r) := by
  rw [ne_comm]
  simp [names, Std.ExtTreeSet.mem_erase]

theorem mem_names_insert {r : Option Roster} {x y : String} :
    y ∈ names (some ⟨(r.getD .empty).members.insert x⟩) ↔ y = x ∨ y ∈ names r := by
  rw [eq_comm]
  cases r with
  | none => simp [names, Roster.empty, Std.ExtTreeSet.mem_insert]
  | some r => simp [names, Std.ExtTreeSet.mem_insert]

theorem Roster.Small.insert {r : Option Roster} (hr : ∀ r' ∈ r, r'.Small) {x : String}
    (hx : Binary.Short x) (hsize : (names r).length + 1 < wordCount) :
    (⟨(r.getD .empty).members.insert x⟩ : Roster).Small := by
  refine ⟨?_, fun y hy => ?_⟩
  · rw [Std.ExtTreeSet.length_toList]
    refine Nat.lt_of_le_of_lt Std.ExtTreeSet.size_insert_le ?_
    cases r with
    | none => exact hsize
    | some r => simpa [names] using hsize
  · rcases mem_names_insert.mp (mem_names.mpr ⟨_, rfl, hy⟩) with rfl | hy
    · exact hx
    · obtain ⟨r', hr', hy⟩ := mem_names.mp hy
      exact (hr r' hr').short y hy

theorem nodup_names (r : Option Roster) : (names r).Nodup := by
  cases r with
  | none => exact List.nodup_nil
  | some r =>
    refine (Std.ExtTreeSet.distinct_toList (t := r.members)).imp fun hne heq => hne ?_
    rw [heq]
    exact Std.ReflCmp.compare_self

theorem mem_index {R : Nat → Option Roster} {k : Nat} {x : String} :
    (k, x) ∈ index R ↔ k < rosterCount ∧ x ∈ names (R k) := by
  simp [index]

theorem nodup_index (R : Nat → Option Roster) : (index R).Nodup := by
  refine List.nodup_flatMap.mpr ⟨fun k _ => ?_, ?_⟩
  · exact (nodup_names (R k)).map fun _ _ h => (Prod.mk.inj h).2
  · refine List.nodup_range.imp fun hne => ?_
    intro e he he'
    obtain ⟨_, _, rfl⟩ := List.mem_map.mp he
    obtain ⟨_, _, h⟩ := List.mem_map.mp he'
    exact hne (Prod.mk.inj h).1.symm

theorem mem_listing {n : String → UInt64} {R : Nat → Option Roster} {e : Nat × Violator} :
    e ∈ listing n R ↔ (e.1 < rosterCount ∧ e.2.tracker ∈ names (R e.1)) ∧ 0 < e.2.violations ∧
      e.2.violations = n e.2.tracker := by
  obtain ⟨k, x, v⟩ := e
  simp only [listing, List.mem_map, List.mem_filter, decide_eq_true_eq, Prod.exists, Prod.mk.injEq,
    Violator.mk.injEq]
  constructor
  · rintro ⟨k, x, ⟨hmem, hpos⟩, rfl, rfl, rfl⟩
    exact ⟨mem_index.mp hmem, hpos, rfl⟩
  · rintro ⟨hmem, hpos, rfl⟩
    exact ⟨k, x, ⟨mem_index.mpr hmem, hpos⟩, rfl, rfl, rfl⟩

/-- What becomes of the rosters when a tracker is enlisted: nothing if it is listed, and otherwise
it joins its roster, and then as many are struck off as are too many. -/
def Enlists (capacity : Nat) (n : String → UInt64) (t : String) (R R' : Nat → Option Roster) : Prop :=
  if t ∈ names (R (rosterOf t)) then R' = R
  else ∃ R₁ : Nat → Option Roster,
    (∀ k x, x ∈ names (R₁ k) ↔ (k = rosterOf t ∧ x = t) ∨ x ∈ names (R k)) ∧
    ∀ k x, x ∈ names (R' k) ↔ x ∈ names (R₁ k) ∧
      (k, x) ∉ ((weakestFirst n R₁).take ((listing n R₁).length - capacity)).map
        fun e => (e.1, e.2.tracker)

end Violation

namespace Monitor

/-! ## What the store has on a day -/

/-- The store has the counts of all trackers on a day and the rosters of the day, for all day. -/
structure Filed (m : Monitor) (d : UInt64) (n : String → UInt64) (R : Nat → Option Roster)
    (env : Env) : Prop where
  healthy : env.Healthy
  today : OnDay d env.now
  counts : ∀ x, Counts (OnDay d) (n x) (env.slot (m.shelf.key (dayName d x)))
  rosters : ∀ k, Lasts (OnDay d) (R k) (env.slot (m.shelf.key (rosterName d k)))
  small : ∀ k, ∀ r ∈ R k, r.Small

variable {m : Monitor} {d : UInt64} {n : String → UInt64} {R : Nat → Option Roster} {env env' : Env}

theorem Filed.of_frame (h : m.Filed d n R env) {K : String → Prop} (hf : Env.Frame K env env')
    (hcounts : ∀ x, ¬ K (m.shelf.key (dayName d x)))
    (hrosters : ∀ k, ¬ K (m.shelf.key (rosterName d k))) : m.Filed d n R env' where
  healthy := h.healthy.of_frame hf
  today := hf.now_eq ▸ h.today
  counts x := by
    rw [hf.slot_eq _ (hcounts x)]
    exact h.counts x
  rosters k := by
    rw [hf.slot_eq _ (hrosters k)]
    exact h.rosters k
  small := h.small

theorem Filed.same (h : m.Filed d n R env) (hsame : env.Same env') : m.Filed d n R env' :=
  h.of_frame hsame (fun _ => id) fun _ => id

/-- What lasts the day is there at any other instant of the day. -/
theorem Filed.setClock (h : m.Filed d n R env) {now : UInt64} (hnow : OnDay d now) :
    m.Filed d n R (env.setClock now) :=
  ⟨h.healthy.setClock now, hnow, h.counts, h.rosters, h.small⟩

/-- The keys of the rosters of a day. -/
def RosterKey (m : Monitor) (d : UInt64) (key : String) : Prop :=
  ∃ k, key = m.shelf.key (rosterName d k)

/-! ## What is read -/

theorem Filed.counted (h : m.Filed d n R env) (k : Nat) (ts : List String) :
    ∃ env', (m.counted d k ts).on env =
        (.ok ((ts.filter fun x => 0 < n x).map fun x => (k, ⟨x, n x⟩)), env') ∧ env.Same env' := by
  induction ts generalizing env with
  | nil => exact ⟨env, rfl, .refl env⟩
  | cons x ts ih =>
    obtain ⟨env₁, hcount, hsame⟩ := (h.counts x).counter h.healthy h.today
    obtain ⟨env₂, hrest, hsame'⟩ := ih (h.same hsame)
    refine ⟨env₂, ?_, hsame.trans hsame'⟩
    unfold Monitor.counted
    rw [StoreM.on_bind_of_ok hcount, StoreM.on_bind_of_ok hrest]
    by_cases hpos : 0 < n x
    · simp [hpos]
    · simp [hpos]

theorem Filed.listed (h : m.Filed d n R env) (numbers : List Nat) :
    ∃ env', (m.listed d numbers).on env =
        (.ok (numbers.flatMap fun k =>
          ((names (R k)).filter fun x => 0 < n x).map fun x => (k, ⟨x, n x⟩)), env') ∧
      env.Same env' := by
  induction numbers generalizing env with
  | nil => exact ⟨env, rfl, .refl env⟩
  | cons k numbers ih =>
    obtain ⟨env₁, hload, hsame⟩ := (h.rosters k).load h.healthy h.today
    unfold Monitor.listed Monitor.roster
    rw [StoreM.on_bind_of_ok hload, List.flatMap_cons]
    cases hr : R k with
    | none =>
      obtain ⟨env₂, hrest, hsame'⟩ := ih (h.same hsame)
      exact ⟨env₂, hrest, hsame.trans hsame'⟩
    | some r =>
      obtain ⟨env₂, hhere, hsame₂⟩ := (h.same hsame).counted k r.members.toList
      obtain ⟨env₃, hrest, hsame₃⟩ := ih ((h.same hsame).same hsame₂)
      refine ⟨env₃, ?_, (hsame.trans hsame₂).trans hsame₃⟩
      simp only [StoreM.on_bind_of_ok hhere, StoreM.on_bind_of_ok hrest, StoreM.on_pure]
      rfl

/-- The ranking is read off the rosters and the counts. -/
theorem Filed.ranked (h : m.Filed d n R env) :
    ∃ env', (m.ranked d).on env = (.ok (listing n R), env') ∧ env.Same env' := by
  obtain ⟨env', hlisted, hsame⟩ := h.listed (List.range rosterCount)
  refine ⟨env', ?_, hsame⟩
  rw [Monitor.ranked, hlisted, listing, index, List.filter_flatMap, List.map_flatMap]
  simp only [List.filter_map, List.map_map]
  rfl

theorem recover_of_ok {α : Type} {x : StoreM α} {a : α} (h : x.on env = (.ok a, env'))
    (event : StoreError → Event) (answer : α) : (recover x event answer).on env = (a, env') := by
  simp only [recover, GateM.on_bind, GateM.on_attempt, h, GateM.on_pure]

theorem Filed.top (h : m.Filed d n R env) (limit : UInt64) :
    ((m.top limit).on env).1 =
      (((listing n R).map Prod.snd).mergeSort Violator.stronger).take limit.toNat := by
  obtain ⟨env', hranked, _⟩ := h.ranked
  have htry : (m.tryTop limit).on env =
      (.ok ((((listing n R).map Prod.snd).mergeSort Violator.stronger).take limit.toNat), env') := by
    unfold tryTop
    rw [StoreM.on_bind_of_ok (StoreM.on_now env), h.today.1, StoreM.on_bind_of_ok hranked]
    rfl
  rw [Monitor.top, recover_of_ok htry]

theorem Filed.stats (h : m.Filed d n R env) (t : Tracker) :
    ((m.stats t).on env).1.violationsToday = n t.key := by
  obtain ⟨env₁, hload, hput⟩ := m.shelf.load_of_healthy (α := Outcomes) (hourName env.now t) h.healthy
  have h₁ := h.of_frame hput.frame (fun x e => not_ofDay_hourKey env.now t (e ▸ m.ofDay_dayKey d x))
    fun k e => not_ofDay_hourKey env.now t (e ▸ m.ofDay_rosterKey d k)
  obtain ⟨env₂, hcount, hsame⟩ := (h₁.counts t.key).counter h₁.healthy h₁.today
  obtain ⟨env₃, hminute, _⟩ := m.shelf.counter_of_healthy (minuteName t) (hsame.healthy h₁.healthy)
  have htry : ∃ s, (m.tryStats t).on env = (.ok s, env₃) ∧ s.violationsToday = n t.key := by
    unfold tryStats
    rw [StoreM.on_bind_of_ok (StoreM.on_now env), StoreM.on_bind_of_ok hload, h.today.1,
      StoreM.on_bind_of_ok hcount, StoreM.on_bind_of_ok hminute]
    exact ⟨_, rfl, rfl⟩
  obtain ⟨s, htry, hs⟩ := htry
  rw [Monitor.stats, recover_of_ok htry, hs]

/-- The names on the rosters that can be read. -/
def roll (m : Monitor) (d : UInt64) (env : Env) : List String :=
  (List.range rosterCount).flatMap fun k => names (env.record Roster m.shelf (rosterName d k))

theorem Filed.record (h : m.Filed d n R env) (k : Nat) :
    env.record Roster m.shelf (rosterName d k) = R k := by
  have htime : env.store.time env.now = env.now := by
    simp [Store.time, h.healthy.ownClock_eq]
  rw [Env.record, htime]
  exact (h.rosters k env.now h.today).1

theorem Filed.roll (h : m.Filed d n R env) : m.roll d env = (index R).map Prod.snd := by
  simp only [Monitor.roll, h.record, index, List.map_flatMap, List.map_map, Function.comp_def,
    List.map_id']

/-! ## Who is listed -/

theorem Filed.saveRoster (h : m.Filed d n R env) (k : Nat) {r : Roster} (hr : r.Small) :
    ∃ env', (m.saveRoster d k r).on env = (.ok (), env') ∧ Env.Frame (m.RosterKey d) env env' ∧
      m.Filed d n (Function.update R k (some r)) env' := by
  obtain ⟨env', hsave, hput⟩ := m.shelf.save_of_healthy (rosterName d k) h.healthy r (some day)
  have hframe := hput.frame.mono (L := m.RosterKey d) fun _ he => ⟨k, he⟩
  refine ⟨env', hsave, hframe, h.healthy.of_frame hframe, hframe.now_eq ▸ h.today, fun x => ?_,
    fun j => ?_, fun j r' hr' => ?_⟩
  · rw [hput.slot_of_ne (m.dayKey_ne_rosterKey d d x k)]
    exact h.counts x
  · by_cases hj : j = k
    · subst hj
      rw [hput.slot_key, Function.update_self]
      exact lasts_written hr.exact fun now hnow => lt_dayEnd h.today hnow
    · rw [Function.update_of_ne hj, hput.slot_of_ne fun e => hj (rosterKey_inj e).2]
      exact h.rosters j
  · by_cases hj : j = k
    · subst hj
      rw [Function.update_self] at hr'
      cases hr'
      exact hr
    · rw [Function.update_of_ne hj] at hr'
      exact h.small j r' hr'

/-- **Who is struck off is listed no more**, and everybody else still is. -/
theorem Filed.evict (h : m.Filed d n R env) (out : List (Nat × Violator)) :
    ∃ env' R', (m.evict d out).on env = (.ok (), env') ∧ Env.Frame (m.RosterKey d) env env' ∧
      m.Filed d n R' env' ∧
      ∀ k x, x ∈ names (R' k) ↔
        x ∈ names (R k) ∧ (k, x) ∉ out.map fun e => (e.1, e.2.tracker) := by
  induction out generalizing env R with
  | nil => exact ⟨env, R, rfl, .refl _ env, h, fun k x => by simp⟩
  | cons o out ih =>
    obtain ⟨k, v⟩ := o
    obtain ⟨env₁, hload, hsame⟩ := (h.rosters k).load h.healthy h.today
    have h₁ := h.same hsame
    unfold Monitor.evict Monitor.roster
    rw [StoreM.on_bind_of_ok hload]
    by_cases hmem : v.tracker ∈ names (R k)
    · obtain ⟨r, hr, hv⟩ := mem_names.mp hmem
      obtain ⟨env₂, hsave, hframe, h₂⟩ := h₁.saveRoster k ((h.small k r hr).erase v.tracker)
      obtain ⟨env₃, R', hrest, hframe', h₃, hnames⟩ := ih h₂
      refine ⟨env₃, R', ?_, ((hsame.frame _).trans hframe).trans hframe', h₃, fun j x => ?_⟩
      · rw [hr]
        simp only [hv, ↓reduceIte]
        rw [StoreM.on_bind_of_ok hsave, hrest]
      · rw [hnames, List.map_cons, List.mem_cons, not_or, ← and_assoc]
        refine and_congr_left fun _ => ?_
        by_cases hj : j = k
        · have hr : R k = some r := hr
          rw [hj, Function.update_self, mem_names_erase, hr]
          simp [and_comm]
        · simp [hj]
    · obtain ⟨env₂, R', hrest, hframe, h₂, hnames⟩ := ih h₁
      refine ⟨env₂, R', ?_, (hsame.frame _).trans hframe, h₂, fun j x => ?_⟩
      · cases hr : R k with
        | none => exact hrest
        | some r =>
          have hv : v.tracker ∉ r.members := fun hv => hmem (mem_names.mpr ⟨r, hr, hv⟩)
          simp only [hv, ↓reduceIte]
          exact hrest
      · rw [hnames, List.map_cons, List.mem_cons, not_or, ← and_assoc]
        refine and_congr_left fun _ => ?_
        -- who is struck off was not on the roster anyway
        refine (and_iff_left_of_imp fun hx e => ?_).symm
        obtain ⟨rfl, rfl⟩ := Prod.mk.inj e
        exact hmem hx

/-- **Those with the fewest violations are struck off** until no more are listed than may be. -/
theorem Filed.enforceCapacity (h : m.Filed d n R env) :
    ∃ env' R', (m.enforceCapacity d).on env = (.ok (), env') ∧
      Env.Frame (m.RosterKey d) env env' ∧ m.Filed d n R' env' ∧
      ∀ k x, x ∈ names (R' k) ↔ x ∈ names (R k) ∧
        (k, x) ∉ ((weakestFirst n R).take
          ((listing n R).length - m.settings.maxTracked.toNat)).map fun e => (e.1, e.2.tracker) := by
  obtain ⟨env₁, hranked, hsame⟩ := h.ranked
  obtain ⟨env₂, R', hevict, hframe, h₂, hnames⟩ := (h.same hsame).evict
    ((weakestFirst n R).take ((listing n R).length - m.settings.maxTracked.toNat))
  refine ⟨env₂, R', ?_, (hsame.frame _).trans hframe, h₂, hnames⟩
  unfold Monitor.enforceCapacity
  rw [StoreM.on_bind_of_ok hranked]
  exact hevict

/-- **A tracker that is listed already changes nothing; one that is not joins**, and those with the
fewest violations leave. -/
theorem Filed.enlist (h : m.Filed d n R env) (t : Tracker) (ht : Binary.Short t.key)
    (hsize : t.key ∉ names (R (rosterOf t.key)) →
      (names (R (rosterOf t.key))).length + 1 < wordCount) :
    ∃ env' R', (m.enlist d t).on env = (.ok (), env') ∧ Env.Frame (m.RosterKey d) env env' ∧
      m.Filed d n R' env' ∧ Enlists m.settings.maxTracked.toNat n t.key R R' := by
  obtain ⟨env₁, hload, hsame⟩ := (h.rosters (rosterOf t.key)).load h.healthy h.today
  have h₁ := h.same hsame
  have hmem : t.key ∈ ((R (rosterOf t.key)).getD .empty).members ↔
      t.key ∈ names (R (rosterOf t.key)) := by
    cases R (rosterOf t.key) with
    | none => simp [names, Roster.empty]
    | some r => simp [names]
  unfold Monitor.enlist Monitor.roster Enlists
  rw [StoreM.on_bind_of_ok hload]
  by_cases hlisted : t.key ∈ names (R (rosterOf t.key))
  · refine ⟨env₁, R, ?_, hsame.frame _, h₁, by rw [if_pos hlisted]⟩
    simp only [hmem.mpr hlisted, ↓reduceIte, StoreM.on_pure]
  · obtain ⟨env₂, hsave, hframe, h₂⟩ := h₁.saveRoster (rosterOf t.key)
      (Roster.Small.insert (h.small _) ht (hsize hlisted))
    obtain ⟨env₃, R', henforce, hframe', h₃, hnames⟩ := h₂.enforceCapacity
    refine ⟨env₃, R', ?_, ((hsame.frame _).trans hframe).trans hframe', h₃, ?_⟩
    · simp only [hmem, hlisted, ↓reduceIte]
      rw [StoreM.on_bind_of_ok hsave, henforce]
    · rw [if_neg hlisted]
      refine ⟨_, fun k x => ?_, hnames⟩
      by_cases hk : k = rosterOf t.key
      · rw [hk, Function.update_self, mem_names_insert]
        simp
      · simp [hk]

/-! ## A violation -/

theorem Filed.count (h : m.Filed d n R env) {x : String} {count : UInt64} {slot : Option Entry}
    (hput : env.Puts (m.shelf.key (dayName d x)) slot env') (hcount : Counts (OnDay d) count slot) :
    m.Filed d (Function.update n x count) R env' where
  healthy := hput.healthy h.healthy
  today := hput.now_eq ▸ h.today
  counts y := by
    by_cases hy : y = x
    · rw [hy, Function.update_self, hput.slot_key]
      exact hcount
    · rw [Function.update_of_ne hy, hput.slot_of_ne fun e => hy (dayKey_inj e).2]
      exact h.counts y
  rosters k := by
    rw [hput.slot_of_ne (m.dayKey_ne_rosterKey d d x k).symm]
    exact h.rosters k
  small := h.small

/-- The keys that a violation of a tracker may change. -/
def ViolationKey (m : Monitor) (d : UInt64) (t : Tracker) (key : String) : Prop :=
  m.OfDay d key ∨ key = m.shelf.key (minuteName t)

/-- **A violation is counted and enlists the tracker.** -/
theorem Filed.recordViolation (h : m.Filed d n R env) (t : Tracker) (path : String) (v : Violation)
    (ht : Binary.Short t.key)
    (hsize : t.key ∉ names (R (rosterOf t.key)) →
      (names (R (rosterOf t.key))).length + 1 < wordCount) :
    ∃ answer env' R', (m.recordViolation t path v).on env = (answer, env') ∧
      Env.Frame (m.ViolationKey d t) env env' ∧
      m.Filed d (Function.update n t.key (satAdd (n t.key) 1)) R' env' ∧
      Enlists m.settings.maxTracked.toNat (Function.update n t.key (satAdd (n t.key) 1)) t.key R R' := by
  obtain ⟨env₁, slot, hcount, hput, hcounts⟩ := (h.counts t.key).increment h.healthy h.today day
    fun now hnow => lt_dayEnd h.today hnow
  have h₁ := h.count hput hcounts
  have hf₁ := hput.frame.mono (L := m.ViolationKey d t) fun _ e => .inl (e ▸ m.ofDay_dayKey d t.key)
  obtain ⟨env₂, hpath, hput₂⟩ := m.shelf.increment_of_healthy (pathName d path) day h₁.healthy
  have h₂ := h₁.of_frame hput₂.frame (fun x e => m.dayKey_ne_pathKey d d x path e)
    fun k e => m.rosterKey_ne_pathKey d d k path e
  have hf₂ := hput₂.frame.mono (L := m.ViolationKey d t) fun _ e => .inl (e ▸ m.ofDay_pathKey d path)
  obtain ⟨env₃, R', henlist, hrosters, h₃, henlists⟩ := h₂.enlist t ht hsize
  have hf₃ := hrosters.mono (L := m.ViolationKey d t) fun _ ⟨k, e⟩ =>
    .inl (e ▸ m.ofDay_rosterKey d k)
  obtain ⟨env₄, hminute, hput₄⟩ := m.shelf.increment_of_healthy (minuteName t) minute h₃.healthy
  have h₄ := h₃.of_frame hput₄.frame (fun x e => not_ofDay_minuteKey t (e ▸ m.ofDay_dayKey d x))
    fun k e => not_ofDay_minuteKey t (e ▸ m.ofDay_rosterKey d k)
  have hf₄ := hput₄.frame.mono (L := m.ViolationKey d t) fun _ => .inr
  have hframe := ((hf₁.trans hf₂).trans hf₃).trans hf₄
  suffices htry : ∃ answer env', (m.tryRecordViolation t path v).on env = (.ok answer, env') ∧
      env₄.Same env' by
    obtain ⟨answer, env', htry, hsame⟩ := htry
    exact ⟨answer, env', R', recover_of_ok htry _ _, hframe.trans (hsame.frame _), h₄.same hsame,
      henlists⟩
  unfold tryRecordViolation
  rw [StoreM.on_bind_of_ok (StoreM.on_now env)]
  dsimp only
  rw [h.today.1, StoreM.on_bind_of_ok hcount, StoreM.on_bind_of_ok hpath,
    StoreM.on_bind_of_ok henlist, StoreM.on_bind_of_ok hminute]
  split
  · exact ⟨none, env₄, rfl, .refl env₄⟩
  · exact ⟨_, _, rfl, Env.Same.trans (GateM.touches_count _ env₄) (GateM.touches_log _ _)⟩

end Monitor

end Turnstile
