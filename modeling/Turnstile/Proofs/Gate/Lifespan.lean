import Turnstile.Proofs.Env.Keeps
import Turnstile.Proofs.Gate.Handles
import Turnstile.Proofs.Gate.Runs
import Turnstile.Proofs.Gate.Timely

/-!
# Nothing is kept for ever

Nothing but a deadline ever takes the records of a gate out of the store, so every entry that is
written has to have one, and one that is not far away.  Whatever calls fail, it has one.  How far
away that is depends on what has been found: a counter that is still running is written back with
the end that it had, wherever it has that from.  So if the store has records that are ahead of the
clock, the lifespan is counted from the latest instant that they may be from, until the clock passes
it.  A gate leaves no such records unless its clock falls.

* `Gate.written`: the entries that are written in a run.
* `Gate.Tidy`: all that a gate finds of its own in the store is timely.
* `Gate.tidy_take`: a step keeps that, and leaves what was there before and what it has written.
* `Gate.tidy_left`: and so does a run.
* `Gate.written_briefly`: what is written in a run has a deadline within the lifespan, and once that
  is over a store that was empty is empty again.
* `Gate.written_farAhead`: a counter that is ahead of the clock is written for longer.
-/

set_option autoImplicit false

namespace Turnstile

/-- An entry that is written under a key at an instant. -/
structure Write where
  instant : UInt64
  key : String
  entry : Entry

/-- What a call writes, if it succeeds in writing something. -/
def Call.write? (now : UInt64) : Call → Option Write
  | .set key value ttl (.ok ()) => some ⟨now, key, TimedMap.entryAt now value ttl⟩
  | _ => none

/-- What has been written since the record of calls was started. -/
def Env.writes (env : Env) : List Write := env.calls.filterMap (Call.write? env.now)

namespace Gate

/-- What is written in a run. -/
def written (g : Gate) : List Step → Env → List Write
  | [], _ => []
  | s :: run, env => ((g.take s).on env).2.writes ++ g.written run ((g.take s).on env).2

/-- An entry has a deadline, no later than the lifespan of the gate after an instant. -/
def Briefly (g : Gate) (top : Nat) (w : Write) : Prop :=
  ∃ deadline, w.entry.deadline = some deadline ∧ deadline.toNat ≤ top + g.lifespan

/-- What a shelf has under the names of each kind of records is timely at an instant, if it can be
read. -/
structure Tidy (s : Shelf) (now : UInt64) (env : Env) : Prop where
  ownClock_eq : env.store.ownClock = none
  timely : ∀ (h : Holding) (name : String), h.Named name → ∀ e ∈ env.slot (s.key name),
    ∀ a : h.Record, Binary.read? e.value = some a → h.Timely now a

/-- Within a step that started in `before`: the shelf is tidy at an instant `top`, and what there is
was there before or has been written since then, to live for the lifespan of the gate from there at
most. -/
structure Tidying (g : Gate) (s : Shelf) (top : UInt64) (before env : Env) : Prop where
  tidy : Tidy s top env
  now_eq : env.now = before.now
  brief : ∀ w ∈ env.writes, g.Briefly top.toNat w
  origin : ∀ key, ∀ e ∈ env.slot key,
    before.slot key = some e ∨ ∃ w ∈ env.writes, w.key = key ∧ w.entry = e

end Gate

/-- A map of which all entries have expired is purged of everything. -/
theorem TimedMap.purge_eq_empty {m : TimedMap} {now : UInt64}
    (h : ∀ (key : String) (e : Entry), m.entries[key]? = some e → e.expired now = true) :
    m.purge now = .empty := by
  show TimedMap.mk _ = ⟨∅⟩
  congr 1
  refine Std.ExtTreeMap.ext_getElem? fun key => ?_
  cases hkey : m.entries[key]? with
  | none => simp [Std.ExtTreeMap.getElem?_filter, hkey]
  | some e => simp [Std.ExtTreeMap.getElem?_filter, hkey, h key e hkey]

theorem Store.purge_eq_empty {s : Store} {now : UInt64} (hclock : s.ownClock = none)
    (h : ∀ (key : String) (e : Entry), s.entries.entries[key]? = some e → e.expired now = true) :
    (s.purge now).2.entries = .empty := by
  have htime : s.time now = now := by
    rw [Store.time, hclock]
    rfl
  show s.entries.purge (s.time now) = .empty
  rw [htime]
  exact TimedMap.purge_eq_empty h

/-! ## Calls -/

namespace Gate

open StoreM Violation

variable {g : Gate} {s : Shelf} {top : UInt64} {before env env' : Env} {key : String}

/-- A shelf that is tidy stays so as time passes. -/
theorem Tidy.mono {later : UInt64} (h : Tidy s top env) (hle : top ≤ later) : Tidy s later env :=
  ⟨h.ownClock_eq, fun k name hname e he a ha => (h.timely k name hname e he a ha).mono hle⟩

/-- A store that has nothing on the shelf is tidy from the beginning. -/
theorem tidy_of_fresh (hclock : env.store.ownClock = none)
    (hfresh : ∀ name, env.slot (s.key name) = none) : Tidy s 0 env := by
  refine ⟨hclock, fun k name _ e he => ?_⟩
  rw [hfresh name] at he
  cases he

/-- Whatever a store has, it is tidy at the last instant there is. -/
theorem tidy_maxWord (hclock : env.store.ownClock = none) : Tidy s maxWord env :=
  ⟨hclock, fun _ _ _ _ _ a _ => Holding.timely_maxWord a⟩

/-- An entry that may be written: it lives for the lifespan at most, and is timely however it is
read. -/
structure Fine (g : Gate) (s : Shelf) (top : UInt64) (w : Write) : Prop where
  brief : g.Briefly top.toNat w
  timely : ∀ (k : Holding) (name : String), k.Named name → w.key = s.key name →
    ∀ a : k.Record, Binary.read? w.entry.value = some a → k.Timely top a

/-- What a call leaves if all that it writes is fine. -/
theorem Tidying.of_writes (h : g.Tidying s top before env) {w : Option Write}
    (hnow : env'.now = env.now) (hclock : env'.store.ownClock = env.store.ownClock)
    (hwrites : env'.writes = env.writes ++ w.toList)
    (hslot : ∀ key, ∀ e ∈ env'.slot key,
      env.slot key = some e ∨ ∃ x ∈ w, x.key = key ∧ x.entry = e)
    (hfine : ∀ x ∈ w, g.Fine s top x) : g.Tidying s top before env' where
  tidy := by
    refine ⟨hclock.trans h.tidy.ownClock_eq, fun k name hname e he => ?_⟩
    rcases hslot _ e he with he | ⟨x, hx, hkey, rfl⟩
    · exact h.tidy.timely k name hname e he
    · exact (hfine x hx).timely k name hname hkey
  now_eq := hnow.trans h.now_eq
  brief x hx := by
    rw [hwrites, List.mem_append, Option.mem_toList] at hx
    rcases hx with hx | hx
    · exact h.brief x hx
    · exact (hfine x hx).brief
  origin key e he := by
    rw [hwrites]
    rcases hslot key e he with he | ⟨x, hx, hw⟩
    · rcases h.origin key e he with he | ⟨x, hx, hw⟩
      · exact .inl he
      · exact .inr ⟨x, List.mem_append_left _ hx, hw⟩
    · exact .inr ⟨x, List.mem_append_right _ (Option.mem_toList.mpr hx), hw⟩

theorem Tidying.of_same (h : g.Tidying s top before env) (hnow : env'.now = env.now)
    (hstore : env'.store = env.store) (hwrites : env'.writes = env.writes) :
    g.Tidying s top before env' := by
  refine h.of_writes (w := none) hnow (by rw [hstore]) ?_ (fun key e he => .inl ?_) nofun
  · rw [hwrites]
    exact (List.append_nil _).symm
  · unfold Env.slot at he ⊢
    rwa [← hstore]

theorem writes_append (env : Env) (c : Call) (store : Store) :
    ({ env with store, calls := env.calls ++ [c] } : Env).writes =
      env.writes ++ (c.write? env.now).toList := by
  unfold Env.writes
  rw [List.filterMap_append]
  rfl

/-- A call either fails before it reaches the store, or does what the store does. -/
theorem tidying_call {α : Type} {op : UInt64 → Store → Except StoreError α × Store}
    {record : Except StoreError α → Call} (h : g.Tidying s top before env)
    (hrecord : ∀ e, (record (.error e)).write? env.now = none)
    (hclock : (op env.now env.store).2.ownClock = env.store.ownClock)
    (hslot : ∀ key, ∀ e ∈ (op env.now env.store).2.entries.entries[key]?, env.slot key = some e ∨
      ∃ w ∈ (record (op env.now env.store).1).write? env.now, w.key = key ∧ w.entry = e)
    (hfine : ∀ w ∈ (record (op env.now env.store).1).write? env.now, g.Fine s top w) :
    g.Tidying s top before ((call op record).on env).2 := by
  rw [on_call]
  split
  · refine h.of_same rfl rfl ?_
    rw [writes_append env (record (.error _)) env.store, hrecord]
    exact List.append_nil _
  · exact h.of_writes rfl hclock (writes_append env _ _) hslot hfine

theorem tidying_get (h : g.Tidying s top before env) (key : String) :
    g.Tidying s top before ((StoreM.get key).on env).2 := by
  refine tidying_call h (fun _ => rfl) ?_ (fun other e he => .inl ?_) nofun
  · unfold Store.get
    split <;> rfl
  · unfold Store.get at he
    split at he
    · exact he
    · by_cases hother : key = other
      · subst hother
        have he : e ∈ (env.store.entries.get _ key).2.entries[key]? := he
        rw [TimedMap.getElem?_get] at he
        exact (Option.mem_filter_iff.mp he).1
      · exact (TimedMap.getElem?_get_of_ne hother).symm.trans he

theorem tidying_delete (h : g.Tidying s top before env) (key : String) :
    g.Tidying s top before ((StoreM.delete key).on env).2 := by
  refine tidying_call h (fun _ => rfl) ?_ (fun other e he => .inl ?_) nofun
  · unfold Store.delete
    split <;> rfl
  · unfold Store.delete at he
    split at he
    · exact he
    · by_cases hother : key = other
      · simp [TimedMap.delete, hother] at he
      · simp only [TimedMap.delete, Std.ExtTreeMap.getElem?_erase,
          Std.LawfulEqCmp.compare_eq_iff_eq, hother, ↓reduceIte] at he
        exact he

theorem tidying_set (h : g.Tidying s top before env) (key : String) (value : Bytes) (ttl : Duration)
    (hfine : g.Fine s top ⟨env.now, key, TimedMap.entryAt env.now value (some ttl)⟩) :
    g.Tidying s top before ((StoreM.set key value (some ttl)).on env).2 := by
  have htime : env.store.time env.now = env.now := by
    rw [Store.time, h.tidy.ownClock_eq]
    rfl
  refine tidying_call h (fun _ => rfl) ?_ (fun other e he => ?_) fun w hw => ?_
  · unfold Store.set
    split <;> rfl
  · unfold Store.set at he ⊢
    split at he
    · exact .inl he
    · rename_i houtage
      by_cases hother : key = other
      · subst hother
        simp only [htime] at he
        simp only [TimedMap.set, Std.ExtTreeMap.getElem?_insert_self, Option.mem_some_iff] at he
        rw [if_neg houtage]
        exact .inr ⟨_, rfl, rfl, he⟩
      · simp only [TimedMap.set, Std.ExtTreeMap.getElem?_insert, Std.LawfulEqCmp.compare_eq_iff_eq,
          hother, ↓reduceIte] at he
        exact .inl he
  · unfold Store.set at hw
    split at hw
    · cases hw
    · cases hw
      exact hfine

/-! ## Operations -/

variable {α : Type} {P : α → Prop} {now : UInt64}

theorem tidying_load (h : Holding) {name : String} (hname : h.Named name) :
    (s.load name : StoreM (Option h.Record)).Keeps (g.Tidying s top before)
      fun read => ∀ a ∈ read, h.Timely top a := by
  unfold Shelf.load
  refine keeps_bind (P := fun v => ∀ bytes ∈ v, ∀ a : h.Record, Binary.read? bytes = some a →
    h.Timely top a) (fun env henv => ⟨tidying_get henv _, ?_⟩) fun v hv => ?_
  · intro v hv bytes hbytes a ha
    obtain ⟨rfl, _⟩ := get_ok (Prod.ext hv rfl)
    obtain ⟨e, he, rfl⟩ := Option.map_eq_some_iff.mp hbytes
    exact henv.tidy.timely h name hname e (Option.mem_filter_iff.mp he).1 a ha
  · split
    · exact keeps_pure nofun
    · rename_i bytes
      split
      · rename_i a ha
        refine keeps_pure fun b hb => ?_
        cases hb
        exact hv bytes rfl a ha
      · refine keeps_bind (P := fun _ => True) (fun env henv => ⟨henv.of_same rfl rfl rfl, ?_⟩)
          fun _ _ => keeps_bind (P := fun _ => True) (fun env henv => ⟨tidying_delete henv _, ?_⟩)
            fun _ _ => keeps_pure nofun
        · exact fun _ _ => trivial
        · exact fun _ _ => trivial

/-- What may be written is fine. -/
theorem fine_of_writes (hle : now ≤ top) {h : Holding} {name : String} (hname : h.Named name)
    {read : Option h.Record} (hread : ∀ r ∈ read, h.Timely top r) {a : h.Record} {ttl : Duration}
    (hw : g.Writes now h read a ttl) :
    g.Fine s top ⟨now, s.key name, TimedMap.entryAt now (Binary.encode a) (some ttl)⟩ where
  brief := by
    refine ⟨_, rfl, ?_⟩
    have hbrief := brief_of_writes hle hw hread
    rw [toNat_satAdd]
    omega
  timely k other hother hkey b hb := by
    obtain rfl : name = other := Shelf.key_inj hkey
    exact Holding.timely_reread hname hother (timely_of_writes hle hw hread) hb

/-- **Operations on records keep the store tidy.** -/
theorem keeps_tidying (hle : before.now ≤ top) {x : StoreM α}
    (hx : x.Handles s g before.now (fun h => h.Timely top) P) :
    x.Keeps (g.Tidying s top before) P := by
  induction hx with
  | pure ha => exact keeps_pure ha
  | bind _ _ ihx ihf => exact keeps_bind ihx ihf
  | now => exact fun env henv => ⟨henv, fun a ha => (Except.ok.inj ha).symm.trans henv.now_eq⟩
  | log e => exact fun env henv => ⟨henv.of_same rfl rfl rfl, fun _ _ => trivial⟩
  | count f => exact fun env henv => ⟨henv.of_same rfl rfl rfl, fun _ _ => trivial⟩
  | load h hname => exact tidying_load h hname
  | save hname hread hw =>
    refine fun env henv => ⟨?_, fun _ _ => trivial⟩
    refine tidying_set henv _ _ _ ?_
    rw [henv.now_eq]
    exact fine_of_writes hle hname hread hw
  | remove h hname => exact fun env henv => ⟨tidying_delete henv _, fun _ _ => trivial⟩

/-- An operation keeps the store tidy. -/
def TidyingOn (g : Gate) (s : Shelf) (top : UInt64) (before : Env) (x : GateM α) : Prop :=
  ∀ env, g.Tidying s top before env → g.Tidying s top before (x.on env).2

theorem serves_tidying (hle : before.now ≤ top) : GateM.Serves s g before.now
    (fun h => h.Timely top) (g.TidyingOn s top before) where
  closed :=
    ⟨fun _ _ => id, fun hx hP hf env henv => hf _ (hP env) _ (hx env henv), fun _ => id,
      fun _ _ _ henv => henv.of_same rfl rfl rfl⟩
  event _ _ henv := henv.of_same rfl rfl rfl
  count _ _ henv := henv.of_same rfl rfl rfl
  attempt hx env henv := (keeps_tidying hle hx env henv).1

/-! ## Runs -/

variable {pl : Plan} {st : Step} {run : List Step} {latest : UInt64}

/-- **A step keeps the store tidy**, and leaves nothing new but what it has written. -/
theorem tidy_take (hg : g.Built pl) (htidy : Tidy ⟨pl.label⟩ top env) (hle : st.now ≤ top) :
    g.Tidying ⟨pl.label⟩ top (st.env env) ((g.take st).on env).2 := by
  rw [on_take]
  exact serves_perform hg (serves_tidying hle) st.action _
    ⟨⟨htidy.ownClock_eq, htidy.timely⟩, rfl, nofun, fun key e he => .inl he⟩

theorem instant_of_mem_writes {w : Write} (hw : w ∈ env.writes) : w.instant = env.now := by
  obtain ⟨c, _, hc⟩ := List.mem_filterMap.mp hw
  unfold Call.write? at hc
  split at hc
  · cases hc
    rfl
  · cases hc

/-- What a step writes lives for the lifespan from the latest instant that records may be from, or
from the write if that is later. -/
theorem brief_take (hg : g.Built pl)
    (htidy : ∀ top, latest ≤ top → st.now ≤ top → Tidy ⟨pl.label⟩ top env) :
    ∀ w ∈ ((g.take st).on env).2.writes, g.Briefly (max latest.toNat w.instant.toNat) w := by
  intro w hw
  -- the store is tidy at whichever of the two instants is the later
  rcases UInt64.le_total latest st.now with hle | hle
  · have hstep := tidy_take hg (htidy st.now hle (UInt64.le_refl _)) (UInt64.le_refl _)
    obtain ⟨deadline, hdeadline, hlast⟩ := hstep.brief w hw
    have hinstant : w.instant = st.now := (instant_of_mem_writes hw).trans hstep.now_eq
    rw [← hinstant] at hlast
    exact ⟨deadline, hdeadline, by omega⟩
  · have hstep := tidy_take hg (htidy latest (UInt64.le_refl _) hle) hle
    obtain ⟨deadline, hdeadline, hlast⟩ := hstep.brief w hw
    exact ⟨deadline, hdeadline, by omega⟩

/-- What a run leaves was there before or is one of the entries that it has written.  The store is
tidy at the later of two instants: the latest that its records were from, and that of the clock. -/
theorem tidy_left (hg : g.Built pl)
    (htidy : ∀ top, latest ≤ top → now ≤ top → Tidy ⟨pl.label⟩ top env)
    (hrun : (now :: run.map Step.now).Pairwise (· ≤ ·)) :
    (∀ w ∈ g.written run env, g.Briefly (max latest.toNat w.instant.toNat) w) ∧
    (∀ top, latest ≤ top → (∀ time ∈ now :: run.map Step.now, time ≤ top) →
      Tidy ⟨pl.label⟩ top (g.left run env)) ∧
    ∀ key, ∀ e ∈ (g.left run env).slot key,
      env.slot key = some e ∨ ∃ w ∈ g.written run env, w.key = key ∧ w.entry = e := by
  induction run generalizing now env with
  | nil =>
    exact ⟨nofun, fun top hlatest hnow => htidy top hlatest (hnow now List.mem_cons_self),
      fun key e he => .inl he⟩
  | cons st run ih =>
    obtain ⟨hle, hrest⟩ := List.pairwise_cons.mp hrun
    have htidy (top : UInt64) (hlatest : latest ≤ top) (hnow : st.now ≤ top) :
        Tidy ⟨pl.label⟩ top env :=
      htidy top hlatest (UInt64.le_trans (hle st.now List.mem_cons_self) hnow)
    obtain ⟨hbrief, hleft, horigin⟩ :=
      ih (fun top hlatest hnow => (tidy_take hg (htidy top hlatest hnow) hnow).tidy) hrest
    rw [left_cons]
    refine ⟨fun w hw => ?_, fun top hlatest htimes => ?_, fun key e he => ?_⟩
    · rcases List.mem_append.mp hw with hw | hw
      · exact brief_take hg htidy w hw
      · exact hbrief w hw
    · exact hleft top hlatest fun time htime => htimes time (List.mem_cons_of_mem _ htime)
    · rcases horigin key e he with he | ⟨w, hw, hkey⟩
      · have hlast : st.now ≤ maxWord := le_maxWord _
        have hstep := tidy_take hg (htidy maxWord (le_maxWord _) hlast) hlast
        rcases hstep.origin key e he with he | ⟨w, hw, hkey⟩
        · exact .inl he
        · exact .inr ⟨w, List.mem_append_left _ hw, hkey⟩
      · exact .inr ⟨w, List.mem_append_right _ hw, hkey⟩

/-- The same for a store that is tidy at some instant, wherever the clock is. -/
theorem left_of_tidy (hg : g.Built pl) (hrun : (run.map Step.now).Pairwise (· ≤ ·))
    (htidy : Tidy ⟨pl.label⟩ latest env) :
    (∀ w ∈ g.written run env, g.Briefly (max latest.toNat w.instant.toNat) w) ∧
    (∀ top, latest ≤ top → (∀ st ∈ run, st.now ≤ top) → Tidy ⟨pl.label⟩ top (g.left run env)) ∧
    ∀ key, ∀ e ∈ (g.left run env).slot key,
      env.slot key = some e ∨ ∃ w ∈ g.written run env, w.key = key ∧ w.entry = e := by
  have hzero : (0 :: run.map Step.now).Pairwise (· ≤ ·) :=
    List.pairwise_cons.mpr ⟨fun _ _ => UInt64.zero_le, hrun⟩
  obtain ⟨hbrief, hleft, horigin⟩ := tidy_left hg (fun _ hle _ => htidy.mono hle) hzero
  refine ⟨hbrief, fun top hlatest htimes => ?_, horigin⟩
  exact hleft top hlatest
    (List.forall_mem_cons.mpr ⟨UInt64.zero_le, List.forall_mem_map.mpr htimes⟩)

/-- If the store was empty, then the lifespan is counted from the write, and nothing is left when it
is over. -/
theorem left_of_empty (hg : g.Built pl) (hrun : (run.map Step.now).Pairwise (· ≤ ·))
    (hclock : env.store.ownClock = none) (hempty : env.store.entries = .empty) :
    (∀ w ∈ g.written run env, g.Briefly w.instant.toNat w) ∧
      ∀ now : UInt64, (∀ w ∈ g.written run env, w.instant.toNat + g.lifespan ≤ now.toNat) →
        ((g.left run env).store.purge now).2.entries = .empty := by
  have hnone (key : String) : env.slot key = none := by
    rw [Env.slot, hempty]
    exact Std.ExtTreeMap.getElem?_empty
  obtain ⟨hlast, hleft, horigin⟩ := left_of_tidy hg hrun (tidy_of_fresh hclock fun _ => hnone _)
  have hbrief : ∀ w ∈ g.written run env, g.Briefly w.instant.toNat w := by
    intro w hw
    have hbrief := hlast w hw
    rwa [UInt64.toNat_zero, Nat.zero_max] at hbrief
  refine ⟨hbrief, fun now hover => Store.purge_eq_empty ?_ fun key e he => ?_⟩
  · exact (hleft maxWord UInt64.zero_le fun _ _ => le_maxWord _).ownClock_eq
  · rcases horigin key e he with he | ⟨w, hw, _, rfl⟩
    · cases (hnone key).symm.trans he
    · obtain ⟨deadline, hdeadline, hle⟩ := hbrief w hw
      have hle : deadline ≤ now := Nat.le_trans hle (hover w hw)
      simp [Entry.expired, hdeadline, hle]

/-- **Nothing is kept for ever.**  Let a gate be built, and let the store run on its clock.  In
every run whose clock does not fall, whatever the store has, whatever calls fail and however often
the store is away:

* every entry that is written has a deadline;
* let nothing that the gate finds of its own at the start be ahead of some instant: no window has a
  request after it, and no counter ends more than a day after it.  Then every deadline is no later
  than the lifespan after that instant or that of the write, whichever is the later.  The lifespan
  is a day, twice the recovery time, the length of a window with a second more, or that of a block,
  whichever is the longest.  And nothing is ahead of that instant at the end, if the clock has not
  passed it;
* what is in the store at the end was there before or is one of the entries that were written;
* so if the store was empty, then every deadline is no later than the lifespan after the write, and
  if the lifespan is over for all that was written, then purging leaves the store empty. -/
theorem written_briefly (pl : Plan) (g : Gate) (built built' : Env)
    (hbuild : pl.build.on built = (.ok g, built')) (run : List Step)
    (hrun : (run.map Step.now).Pairwise (· ≤ ·)) (env : Env)
    (hclock : env.store.ownClock = none) :
    (∀ w ∈ g.written run env, w.entry.deadline ≠ none) ∧
    (∀ latest, Tidy ⟨pl.label⟩ latest env →
      (∀ w ∈ g.written run env, ∃ deadline, w.entry.deadline = some deadline ∧
        deadline.toNat ≤ max latest.toNat w.instant.toNat + g.lifespan) ∧
      ((∀ st ∈ run, st.now ≤ latest) → Tidy ⟨pl.label⟩ latest (g.left run env))) ∧
    (∀ key e, (g.left run env).slot key = some e →
      env.slot key = some e ∨ ∃ w ∈ g.written run env, w.key = key ∧ w.entry = e) ∧
    (env.store.entries = .empty →
      (∀ w ∈ g.written run env, ∃ deadline, w.entry.deadline = some deadline ∧
        deadline.toNat ≤ w.instant.toNat + g.lifespan) ∧
      ∀ now : UInt64, (∀ w ∈ g.written run env, w.instant.toNat + g.lifespan ≤ now.toNat) →
        ((g.left run env).store.purge now).2.entries = .empty) := by
  have hg := Plan.built_of_build hbuild
  obtain ⟨hbrief, _, horigin⟩ := left_of_tidy hg hrun (tidy_maxWord hclock)
  refine ⟨fun w hw => ?_, fun latest hlatest => ?_, horigin, left_of_empty hg hrun hclock⟩
  · obtain ⟨deadline, hdeadline, _⟩ := hbrief w hw
    rw [hdeadline]
    exact Option.some_ne_none deadline
  · obtain ⟨hbrief, hleft, _⟩ := left_of_tidy hg hrun hlatest
    exact ⟨hbrief, hleft latest (UInt64.le_refl _)⟩

/-- Three requests of which the second is denied, and the third fails at its fourth call. -/
def failingThird : List Step :=
  [.at 0 (.request (.user "alice") "/" "login"), .at 10 (.request (.user "alice") "/" "login"),
    ⟨20, false, fun n => if n = 3 then some .timeout else none, .request .anonymous "/" "login"⟩]

/-- The entries of three requests are gone a day after the last of them. -/
theorem written_failingThird :
    let g := Plan.onePerSecond.validGate
    let env := Env.start 0 (.empty none)
    (∃ env', Plan.onePerSecond.build.on env = (.ok g, env')) ∧
    (failingThird.map Step.now).Pairwise (· ≤ ·) ∧ (g.left failingThird env).store.size = 9 ∧
    (∀ w ∈ g.written failingThird env, ∃ deadline, w.entry.deadline = some deadline ∧
      deadline.toNat ≤ w.instant.toNat + 86400000) ∧
    ((g.left failingThird env).store.purge 86400020).2.entries = .empty := by
  intro g env
  obtain ⟨env', hbuild⟩ := Plan.build_onePerSecond env
  have hlifespan : g.lifespan = 86400000 := by decide +kernel
  obtain ⟨_, _, _, hempty⟩ := written_briefly _ g env env' hbuild failingThird (by decide) env rfl
  obtain ⟨hbrief, hgone⟩ := hempty rfl
  rw [hlifespan] at hbrief hgone
  exact ⟨⟨env', hbuild⟩, by decide, by decide +kernel, hbrief, hgone _ (by decide +kernel)⟩

/-- A store with a counter of violations of which the minute is to begin in two days.  It was left
by a gate with a clock that is ahead. -/
def aheadStore : Store :=
  let counter := Counter.opened 172800000 Monitor.minute
  { Store.empty none with
    entries := TimedMap.empty.set 0 (Shelf.key ⟨Shelf.defaultLabel⟩ (minuteName (.user "alice")))
      (Binary.encode counter) (some (.ofMillis counter.endsAt)) }

/-- **A counter that is ahead of the clock is written for longer than the lifespan.**  The second of
the three requests is denied.  That counts as a violation, and the counter that is found is written
back with the end that it had.  So it is still there a day after the last of the requests. -/
theorem written_farAhead :
    let g := Plan.onePerSecond.validGate
    let env := Env.start 0 aheadStore
    (∃ env', Plan.onePerSecond.build.on env = (.ok g, env')) ∧
    (failingThird.map Step.now).Pairwise (· ≤ ·) ∧ g.lifespan = 86400000 ∧
    (∃ w ∈ g.written failingThird env,
      w.instant = 10 ∧ w.key = Shelf.key ⟨Plan.onePerSecond.label⟩ (minuteName (.user "alice")) ∧
      w.entry.deadline = some 172860000) ∧
    ((g.left failingThird env).store.purge 86400020).2.size = 1 :=
  ⟨Plan.build_onePerSecond _, by decide, by decide +kernel, by decide +kernel, by decide +kernel⟩

end Gate

end Turnstile
