import Mathlib.Data.List.Induction
import Turnstile.Storage.Store

/-!
# A store reads what was written last

Entries that have expired stay in a store until somebody reads them or they are purged, so what a
store holds depends on everything that it was asked.  What it answers does not: a key reads the
bytes that were written under it last, until their time to live is over, and whatever else was read
or purged in between makes no difference.

* `Store.Step`, `Store.answers`, `Store.after`: what a store is asked, one instant after the other,
  what it answers, and what is left of it.
* `Store.LastWrote`: the last step that affects a key has written bytes that have not expired.
* `Store.lookup_after`: the reading of a key after any steps.
* `Store.purge_spec`: what is purged, and how much.
* `Store.refines_lastWrote`: the answers to a sequence of steps.
-/

set_option autoImplicit false

namespace Turnstile.Store

/-! ## Steps -/

/-- What a store can be asked. -/
inductive Op where
  | get (key : String)
  | set (key : String) (value : Bytes) (ttl : Option Duration)
  | delete (key : String)
  | purge
  | clear

/-- Whether an operation decides what a key reads from then on. -/
def Op.affects (key : String) : Op → Bool
  | .set other _ _ | .delete other => other = key
  | .clear => true
  | .get _ | .purge => false

/-- Whether an operation decides what some key reads from then on. -/
def Op.writes : Op → Bool
  | .set .. | .delete _ | .clear => true
  | .get _ | .purge => false

/-- An operation at an instant on the clock of the callers. -/
structure Step where
  now : UInt64
  op : Op

inductive Answer where
  | bytes (r : Except StoreError (Option Bytes))
  | done (r : Except StoreError Unit)
  | number (n : Nat)

def perform (s : Store) (x : Step) : Answer × Store :=
  match x.op with
  | .get key => ((s.get x.now key).map .bytes id)
  | .set key value ttl => ((s.set x.now key value ttl).map .done id)
  | .delete key => ((s.delete key).map .done id)
  | .purge => ((s.purge x.now).map .number id)
  | .clear => (.done (.ok ()), s.clear)

def answers (s : Store) : List Step → List Answer
  | [] => []
  | x :: steps => (s.perform x).1 :: (s.perform x).2.answers steps

/-- What is left of a store. -/
def after (s : Store) (steps : List Step) : Store := steps.foldl (fun s x => (s.perform x).2) s

variable {s : Store} {x : Step} {steps before later : List Step} {now : UInt64} {key : String}
  {value : Bytes}

theorem after_concat (s : Store) (steps : List Step) (x : Step) :
    s.after (steps ++ [x]) = ((s.after steps).perform x).2 :=
  List.foldl_append ..

/-- Each step is answered by what the steps before it have left. -/
theorem getElem?_answers (s : Store) (before : List Step) (x : Step) (later : List Step) :
    (s.answers (before ++ x :: later))[before.length]? = some ((s.after before).perform x).1 := by
  induction before generalizing s with
  | nil => rfl
  | cons y before ih => exact ih (s.perform y).2

/-! ## What a step does to a reading -/

/-- A store that is there and runs on the clock of its callers. -/
structure Ready (s : Store) : Prop where
  ownClock_eq : s.ownClock = none
  outage_eq : s.outage = false

theorem Ready.time_eq (h : s.Ready) (now : UInt64) : s.time now = now := by
  rw [time, h.ownClock_eq, Option.getD_none]

theorem Ready.perform (h : s.Ready) (x : Step) : (s.perform x).2.Ready := by
  obtain ⟨hclock, houtage⟩ := h
  unfold Store.perform
  cases x.op <;> constructor <;> simp [get, set, delete, purge, clear, hclock, houtage]

theorem ready_after (steps : List Step) : ((empty none).after steps).Ready := by
  induction steps using List.reverseRecOn with
  | nil => exact ⟨rfl, rfl⟩
  | append_singleton steps x ih =>
    rw [after_concat]
    exact ih.perform x

/-- What the keys that a step affects read at a later instant. -/
def Step.reading (x : Step) (now : UInt64) : Option Bytes :=
  match x.op with
  | .set _ value ttl => if (TimedMap.entryAt x.now value ttl).expired now then none else some value
  | _ => none

/-- **A step decides what the keys that it affects read, and no others.** -/
theorem lookup_perform (h : s.Ready) (hx : x.now ≤ now) (key : String) :
    (s.perform x).2.lookup now key =
      if x.op.affects key then x.reading now else s.lookup now key := by
  have hafter := h.perform x
  rw [lookup, lookup, h.time_eq, hafter.time_eq]
  clear hafter
  unfold perform Step.reading
  cases x.op with
  | get other => simp [get, h.outage_eq, h.time_eq, Op.affects, TimedMap.lookup_get hx]
  | set other value ttl =>
    simp [set, h.outage_eq, h.time_eq, Op.affects, TimedMap.lookup_set]
  | delete other => simp [delete, h.outage_eq, Op.affects, TimedMap.lookup_delete]
  | purge => simp [purge, h.time_eq, Op.affects, TimedMap.lookup_purge hx]
  | clear => simp [clear, Op.affects]

/-! ## What was written last -/

/-- Bytes written at one instant, with a time to live if there is one, have not expired at
another. -/
def Alive (s : UInt64) (ttl : Option Duration) (now : UInt64) : Prop :=
  ∀ d, ttl = some d → now.toNat < min (s.toNat + d.wholeMillis) (wordCount - 1)

/-- The last step that affects a key has written bytes that have not expired at an instant. -/
def LastWrote (steps : List Step) (key : String) (now : UInt64) (value : Bytes) : Prop :=
  ∃ before s ttl later, steps = before ++ ⟨s, .set key value ttl⟩ :: later ∧
    (∀ x ∈ later, x.op.affects key = false) ∧ Alive s ttl now

theorem expired_entryAt_eq_false_iff {s : UInt64} {ttl : Option Duration} :
    (TimedMap.entryAt s value ttl).expired now = false ↔ Alive s ttl now := by
  unfold Alive
  cases ttl with
  | none => simp [TimedMap.entryAt, Entry.expired]
  | some d =>
    have hdeadline : (satAdd s d.millis).toNat = min (s.toNat + d.wholeMillis) (wordCount - 1) := by
      rw [toNat_satAdd, Duration.millis, toNat_wordOfNat]
      omega
    simp [TimedMap.entryAt, Entry.expired, UInt64.lt_iff_toNat_lt, hdeadline]

theorem reading_eq_some_iff (h : x.op.affects key = true) :
    x.reading now = some value ↔ ∃ ttl, x.op = .set key value ttl ∧ Alive x.now ttl now := by
  unfold Step.reading
  cases hop : x.op with
  | set other written ttl =>
    obtain rfl : other = key := by simpa [hop, Op.affects] using h
    have halive : (TimedMap.entryAt x.now written ttl).expired now = false ↔ Alive x.now ttl now :=
      expired_entryAt_eq_false_iff
    cases hlive : (TimedMap.entryAt x.now written ttl).expired now with
    | false => simp [hlive, halive.mp hlive]
    | true =>
      have hover : ¬ Alive x.now ttl now := fun h => by simp [halive.mpr h] at hlive
      simp [hlive, hover]
  | get | delete | purge | clear => simp

/-- One step more: if it affects the key, then it decides. -/
theorem lastWrote_concat :
    LastWrote (steps ++ [x]) key now value ↔
      if x.op.affects key then x.reading now = some value else LastWrote steps key now value := by
  constructor
  · rintro ⟨before, s, ttl, later, hsteps, hlater, halive⟩
    rcases later.eq_nil_or_concat with rfl | ⟨later, y, rfl⟩
    · obtain ⟨-, rfl⟩ := List.append_singleton_inj.mp hsteps
      have haffects : (Op.set key value ttl).affects key = true := by simp [Op.affects]
      rw [if_pos haffects]
      exact (reading_eq_some_iff haffects).mpr ⟨ttl, rfl, halive⟩
    · rw [List.concat_eq_append, ← List.cons_append, ← List.append_assoc] at hsteps
      obtain ⟨rfl, rfl⟩ := List.append_singleton_inj.mp hsteps
      rw [List.concat_eq_append] at hlater
      rw [if_neg (by simp [hlater x (by simp)])]
      exact ⟨before, s, ttl, later, rfl, fun y hy => hlater y (List.mem_append_left _ hy), halive⟩
  · intro h
    split at h
    · next haffects =>
      obtain ⟨ttl, hop, halive⟩ := (reading_eq_some_iff haffects).mp h
      exact ⟨steps, x.now, ttl, [], by rw [← hop], nofun, halive⟩
    · next haffects =>
      obtain ⟨before, s, ttl, later, rfl, hlater, halive⟩ := h
      refine ⟨before, s, ttl, later ++ [x], by simp, fun y hy => ?_, halive⟩
      rcases List.mem_append.mp hy with hy | hy
      · exact hlater y hy
      · rw [List.mem_singleton.mp hy]
        exact Bool.eq_false_iff.mpr haffects

/-- **What a key reads** after any steps, as long as the clock is at none of them ahead. -/
theorem lookup_after (hnow : ∀ x ∈ steps, x.now ≤ now) :
    ((empty none).after steps).lookup now key = some value ↔ LastWrote steps key now value := by
  induction steps using List.reverseRecOn with
  | nil =>
    have hnone : ¬ LastWrote [] key now value := by
      rintro ⟨_, _, _, _, h, _⟩
      exact List.append_ne_nil_of_right_ne_nil _ (List.cons_ne_nil _ _) h.symm
    simp [after, lookup, empty, hnone]
  | append_singleton steps x ih =>
    rw [after_concat, lookup_perform (ready_after steps) (hnow x (by simp)), lastWrote_concat,
      ← ih fun y hy => hnow y (List.mem_append_left _ hy)]
    split
    · rfl
    · rfl

/-- What a step affects it writes. -/
theorem Op.affects_of_not_writes {op : Op} (h : op.writes = false) (key : String) :
    op.affects key = false := by
  cases op <;> first | rfl | cases h

/-- Steps that write nothing make no difference. -/
theorem lastWrote_filter :
    LastWrote (steps.filter fun x => x.op.writes) key now value ↔
      LastWrote steps key now value := by
  induction steps using List.reverseRecOn with
  | nil => rfl
  | append_singleton steps x ih =>
    rw [List.filter_append, lastWrote_concat]
    cases hx : x.op.writes with
    | true =>
      rw [List.filter_cons_of_pos (by exact hx), List.filter_nil, lastWrote_concat, ih]
    | false =>
      rw [List.filter_cons_of_neg (by simp [hx]), List.filter_nil, List.append_nil, ih,
        Op.affects_of_not_writes hx, if_neg Bool.false_ne_true]

/-! ## Purging -/

/-- **A purge drops the entries whose deadline has come, and no others**, and tells their number. -/
theorem purge_spec (h : s.Ready) (now : UInt64) :
    (∀ (key : String) (e : Entry), (s.purge now).2.entries.entries[key]? = some e ↔
      s.entries.entries[key]? = some e ∧ ∀ d, e.deadline = some d → now < d) ∧
    (s.purge now).1 = s.entries.entries.toList.countP fun x => x.2.expired now := by
  constructor
  · intro key e
    have hlive : e.expired now = false ↔ ∀ d, e.deadline = some d → now < d := by
      rw [Entry.expired]
      cases e.deadline <;> simp
    simp [purge, TimedMap.purge, h.time_eq, Std.ExtTreeMap.getElem?_filter, hlive]
  · have hcount := List.length_eq_countP_add_countP (fun x : String × Entry => x.2.expired now)
      (l := s.entries.entries.toList)
    have hrest : (s.entries.purge now).size =
        s.entries.entries.toList.countP fun x => decide ¬x.2.expired now = true := by
      rw [TimedMap.size, TimedMap.purge, ← Std.ExtTreeMap.length_toList,
        Std.ExtTreeMap.toList_filter, List.countP_eq_length_filter]
      simp
    rw [Std.ExtTreeMap.length_toList] at hcount
    show s.entries.size - (s.entries.purge (s.time now)).size = _
    rw [h.time_eq, hrest, TimedMap.size]
    omega

/-! ## Sequences of steps -/

/-- The clock does not fall. -/
def Onward (steps : List Step) : Prop := (steps.map Step.now).Pairwise (· ≤ ·)

theorem Onward.le (h : Onward (before ++ x :: later)) : ∀ y ∈ before, y.now ≤ x.now := by
  rw [Onward, List.map_append, List.map_cons, List.pairwise_append] at h
  exact fun y hy => h.2.2 y.now (List.mem_map_of_mem hy) x.now List.mem_cons_self

/-- A get answers what the key reads. -/
theorem perform_get (h : s.Ready) (now : UInt64) (key : String) :
    (s.perform ⟨now, .get key⟩).1 = .bytes (.ok (s.lookup now key)) :=
  congrArg Answer.bytes (get_of_not_outage h.outage_eq now key)

/-- **A store is a map of last writes.**  Let a store that is there and empty run on the clock of
its callers, and let it be asked anything while the clock does not fall.  Then

1. a get never fails, and is answered by some bytes if and only if the last step before it that
   affects the key has written these bytes, and they had no time to live or it is not over;
2. a purge drops the entries whose deadline has come, leaves all others, and is answered by the
   number of those it drops;
3. a get is answered alike in any other sequence that has written the same before it, whatever has
   been read and purged there. -/
theorem refines_lastWrote (steps : List Step) (hsteps : Onward steps) :
    (∀ before now key later, steps = before ++ ⟨now, .get key⟩ :: later →
      ∃ r, ((empty none).answers steps)[before.length]? = some (.bytes (.ok r)) ∧
        ∀ value, r = some value ↔ LastWrote before key now value) ∧
    (∀ before now later, steps = before ++ ⟨now, .purge⟩ :: later →
      let s := (empty none).after before
      (∀ (key : String) (e : Entry),
        ((empty none).after (before ++ [⟨now, .purge⟩])).entries.entries[key]? = some e ↔
          s.entries.entries[key]? = some e ∧ ∀ d, e.deadline = some d → now < d) ∧
      ((empty none).answers steps)[before.length]? =
        some (.number (s.entries.entries.toList.countP fun x => x.2.expired now))) ∧
    (∀ steps', Onward steps' → ∀ before before' now key later later',
      steps = before ++ ⟨now, .get key⟩ :: later → steps' = before' ++ ⟨now, .get key⟩ :: later' →
      (before'.filter fun x => x.op.writes) = before.filter (fun x => x.op.writes) →
      ((empty none).answers steps')[before'.length]? =
        ((empty none).answers steps)[before.length]?) := by
  have hget : ∀ {steps before now key later}, Onward steps →
      steps = before ++ ⟨now, .get key⟩ :: later →
      ∃ r, ((empty none).answers steps)[before.length]? = some (.bytes (.ok r)) ∧
        ∀ value, r = some value ↔ LastWrote before key now value := by
    rintro _ before now key later hsteps rfl
    refine ⟨((empty none).after before).lookup now key, ?_, fun value =>
      lookup_after hsteps.le⟩
    rw [getElem?_answers, perform_get (ready_after before)]
  refine ⟨fun _ _ _ _ => hget hsteps, ?_, ?_⟩
  · rintro before now later rfl s
    obtain ⟨hentries, hnumber⟩ := purge_spec (ready_after before) now
    rw [after_concat, getElem?_answers]
    exact ⟨hentries, congrArg (some ∘ Answer.number) hnumber⟩
  · intro steps' hsteps' before before' now key later later' he he' hwrites
    obtain ⟨r, hr, hread⟩ := hget hsteps he
    obtain ⟨r', hr', hread'⟩ := hget hsteps' he'
    have hsame : r' = r := by
      refine Option.ext fun value => ?_
      rw [hread', hread, ← lastWrote_filter, hwrites, lastWrote_filter]
    rw [hr, hr', hsame]

/-- A byte is written that lives for a tenth of a second. -/
def shortLived : Step := ⟨0, .set "k" [1] (some (.ofMillis 100))⟩

/-- It is read at the last instant at which it lives, and a purge and a get more before that make no
difference. -/
theorem answers_shortLived :
    ((empty none).answers [shortLived, ⟨99, .get "k"⟩, ⟨100, .get "k"⟩])[1]? =
        some (.bytes (.ok (some [1]))) ∧
      ((empty none).answers [shortLived, ⟨50, .purge⟩, ⟨99, .get "k"⟩, ⟨99, .get "k"⟩])[3]? =
        some (.bytes (.ok (some [1]))) := by
  have honward : Onward [shortLived, ⟨99, .get "k"⟩, ⟨100, .get "k"⟩] := by
    unfold Onward
    decide
  have honward' : Onward [shortLived, ⟨50, .purge⟩, ⟨99, .get "k"⟩, ⟨99, .get "k"⟩] := by
    unfold Onward
    decide
  have hlast : LastWrote [shortLived] "k" 99 [1] := by
    refine ⟨[], 0, _, [], rfl, nofun, fun d hd => ?_⟩
    rw [← Option.some.inj hd, Duration.wholeMillis_ofMillis]
    decide
  obtain ⟨hget, -, halike⟩ := refines_lastWrote _ honward
  obtain ⟨r, hr, hread⟩ := hget [shortLived] 99 "k" _ rfl
  rw [(hread [1]).mpr hlast] at hr
  exact ⟨hr, (halike _ honward' [shortLived] [shortLived, ⟨50, .purge⟩, ⟨99, .get "k"⟩] 99 "k" _ []
    rfl rfl rfl).trans hr⟩

end Turnstile.Store
