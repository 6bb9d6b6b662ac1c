import Turnstile.Proofs.Batches
import Turnstile.Proofs.Env.Healthy

/-!
# Epochs of a counter

What is counted under a name is counted in epochs.  The first increment opens one, which is over
when the span of that increment is; those before that belong to it, and the first one from then on
opens the next epoch.  The counter is written anew with every increment, each time with what is left
of the span, and its record and its deadline in the store stay together: both are over with the
epoch, whatever the times of the calls are.

* `Counter.Increment`, `Counter.Epochs`: increments, and how a run of them is cut into epochs.
* `Counter.Visit`, `Shelf.visit`, `Shelf.traced`, `Shelf.left`: runs on a shelf.
* `Counter.current`, `Counter.countAt`: the epoch that an instant belongs to, and what it counts.
* `Counter.Kept.visit`: what a visit answers, and what it leaves.
* `Counter.epochs_exact`: the answers of a run, and its counter in the store.
-/

set_option autoImplicit false

namespace Turnstile

namespace Counter

/-! ## Epochs -/

/-- One more at an instant, which counts for a span if nothing is being counted. -/
structure Increment where
  now : UInt64
  ttl : Duration

/-- The instant at which the epoch is over that an increment opens. -/
def Increment.endsAt (i : Increment) : UInt64 := satAdd i.now i.ttl.millis

/-- The increments that are counted together. -/
abbrev Epoch : Type := Batch Increment

namespace Epoch

/-- The instant at which an epoch is over. -/
def endsAt (e : Epoch) : UInt64 := e.first.endsAt

/-- The counter of an epoch. -/
def counter (e : Epoch) : Counter := ⟨wordOfNat e.items.length, e.endsAt⟩

theorem endsAt_counter (e : Epoch) : e.counter.endsAt = e.endsAt := rfl

end Epoch

/-- A run of increments is cut into epochs.  Increments belong to an epoch until it is over, and to
a new one from then on. -/
def Epochs (run : List Increment) (es : List Epoch) : Prop :=
  Batches (fun i => i.now.toNat) (fun i => i.endsAt.toNat) run es

/-- The epoch that an instant belongs to, after increments up to it. -/
def current (es : List Epoch) (now : UInt64) : Option Epoch :=
  es.getLast?.filter fun e => now < e.endsAt

/-- The increments so far in the epoch that an instant belongs to, none outside of any epoch. -/
def countAt (es : List Epoch) (now : UInt64) : Nat :=
  match current es now with
  | some e => e.items.length
  | none => 0

/-! ## Visits -/

inductive Act where
  | increment (ttl : Duration)
  | read
  /-- Anything that leaves the counter alone. -/
  | other (x : GateM Unit)

/-- What is done at an instant. -/
structure Visit where
  now : UInt64
  act : Act

def Visit.increment? (v : Visit) : Option Increment :=
  match v.act with
  | .increment ttl => some ⟨v.now, ttl⟩
  | .read | .other _ => none

/-- The increments of a run. -/
def increments (vs : List Visit) : List Increment := vs.filterMap Visit.increment?

/-- What is answered to visits, where they ask for a number. -/
abbrev Answer : Type := Option (Except StoreError UInt64)

/-- What is due to a visit after increments in epochs. -/
def due (es : List Epoch) (v : Visit) : Answer :=
  match v.act with
  | .increment _ => some (.ok (wordOfNat (countAt es v.now + 1)))
  | .read => some (.ok (wordOfNat (countAt es v.now)))
  | .other _ => none

/-- The numbers of increments in their epochs. -/
def numbers (es : List Epoch) : List Answer :=
  es.flatMap fun e => e.items.mapIdx fun i _ => some (.ok (wordOfNat (i + 1)))

end Counter

namespace Shelf

def act (s : Shelf) (name : String) : Counter.Act → GateM Counter.Answer
  | .increment ttl => do
    let answer ← (s.increment name ttl).attempt
    pure (some answer)
  | .read => do
    let answer ← (s.counter name).attempt
    pure (some answer)
  | .other x => do
    x
    pure none

/-- A visit of a counter. -/
def visit (s : Shelf) (name : String) (v : Counter.Visit) : GateM Counter.Answer := do
  modify fun env => env.setClock v.now
  s.act name v.act

/-- Visits with their answers, one after the other. -/
def traced (s : Shelf) (name : String) :
    List Counter.Visit → Env → List (Counter.Visit × Counter.Answer)
  | [], _ => []
  | v :: vs, env =>
    (v, ((s.visit name v).on env).1) :: s.traced name vs ((s.visit name v).on env).2

/-- The surroundings after visits. -/
def left (s : Shelf) (name : String) (vs : List Counter.Visit) (env : Env) : Env :=
  vs.foldl (fun env v => ((s.visit name v).on env).2) env

theorem on_visit (s : Shelf) (name : String) (v : Counter.Visit) (env : Env) :
    (s.visit name v).on env = (s.act name v.act).on (env.setClock v.now) := by
  simp only [visit, GateM.on_bind, GateM.on_modify]

theorem left_concat (s : Shelf) (name : String) (vs : List Counter.Visit) (v : Counter.Visit)
    (env : Env) : s.left name (vs ++ [v]) env = ((s.visit name v).on (s.left name vs env)).2 := by
  simp only [left, List.foldl_append, List.foldl_cons, List.foldl_nil]

theorem traced_concat (s : Shelf) (name : String) (vs : List Counter.Visit) (v : Counter.Visit)
    (env : Env) : s.traced name (vs ++ [v]) env =
      s.traced name vs env ++ [(v, ((s.visit name v).on (s.left name vs env)).1)] := by
  induction vs generalizing env with
  | nil => rfl
  | cons v' vs ih =>
    simp only [List.cons_append, traced, ih]
    rfl

end Shelf

namespace Counter

variable {s : Shelf} {name : String} {run : List Increment} {es : List Epoch} {e : Epoch}
  {i : Increment} {now : UInt64} {slot : Option Entry} {env : Env} {vs : List Visit} {v : Visit}

/-! ## The counter of the last epoch -/

/-- A slot has the counter of the last epoch, or nothing once that is over. -/
def Holds (es : List Epoch) (now : UInt64) (slot : Option Entry) : Prop :=
  slot = es.getLast?.map (fun e => e.counter.entry) ∨
    slot = none ∧ ∀ e ∈ es.getLast?, e.endsAt ≤ now

/-- What is read is the counter of the epoch that the instant belongs to. -/
theorem Holds.recordIn_eq (h : Holds es now slot) :
    recordIn Counter now slot = (current es now).map Epoch.counter := by
  unfold current
  cases hlast : es.getLast? with
  | none =>
    obtain rfl | ⟨rfl, _⟩ := h
    · rw [hlast]
      rfl
    · rfl
  | some e =>
    rw [Option.filter_some]
    obtain rfl | ⟨rfl, hover⟩ := h
    · rw [hlast, Option.map_some, recordIn_entry, Epoch.endsAt_counter]
      by_cases hlt : now < e.endsAt
      · rw [if_pos hlt, if_pos (decide_eq_true hlt)]
        rfl
      · rw [if_neg hlt, if_neg (by simpa using hlt)]
        rfl
    · have hlt : ¬ now < e.endsAt := UInt64.not_lt.mpr (hover e hlast)
      rw [if_neg (by simpa using hlt)]
      rfl

theorem Holds.later (h : Holds es now slot) {later : UInt64} (hle : now ≤ later) :
    Holds es later slot :=
  h.imp_right fun ⟨hslot, hover⟩ => ⟨hslot, fun e he => UInt64.le_trans (hover e he) hle⟩

/-- What reading leaves is the counter of the epoch as well. -/
theorem Holds.readable (h : Holds es now slot) : Holds es now (readable Counter now slot) := by
  obtain rfl | ⟨rfl, hover⟩ := h
  · cases hlast : es.getLast? with
    | none => exact .inl (by rw [hlast]; rfl)
    | some e =>
      rw [Option.map_some, readable_entry, Epoch.endsAt_counter]
      by_cases hlt : now < e.endsAt
      · rw [if_pos hlt]
        exact .inl (by rw [hlast]; rfl)
      · rw [if_neg hlt]
        refine .inr ⟨rfl, fun e' he' => ?_⟩
        obtain rfl : e = e' := Option.some.inj (hlast.symm.trans he')
        exact UInt64.not_lt.mp hlt
  · exact .inr ⟨rfl, hover⟩

theorem reading_current (es : List Epoch) (now : UInt64) :
    reading ((current es now).map Epoch.counter) now = wordOfNat (countAt es now) := by
  unfold countAt
  cases hcurrent : current es now with
  | none => rfl
  | some e =>
    have hlt : now < e.endsAt := by simpa using (Option.filter_eq_some_iff.mp hcurrent).2
    exact reading_of_lt (c := e.counter) hlt

/-- One more increment belongs to the current epoch, or it opens one. -/
theorem exists_epoch (h : Epochs run es) (hle : ∀ j ∈ run, j.now ≤ i.now) :
    ∃ init e, Epochs (run ++ [i]) (init ++ [e]) ∧ e.items.length = countAt es i.now + 1 ∧
      next ((current es i.now).map Epoch.counter) i.now i.ttl = e.counter ∧
      numbers (init ++ [e]) = numbers es ++ [some (.ok (wordOfNat (countAt es i.now + 1)))] := by
  have hle' : ∀ j ∈ run, j.now.toNat ≤ i.now.toNat := fun j hj =>
    UInt64.le_iff_toNat_le.mp (hle j hj)
  obtain ⟨hends, hstart⟩ | ⟨init, e, rfl, hlt, hadd⟩ := h.concat hle'
  · have hcurrent : current es i.now = none := by
      refine Option.filter_eq_none_iff.mpr fun e he => ?_
      have hover : e.endsAt ≤ i.now := UInt64.le_iff_toNat_le.mpr (hends e he)
      simpa using hover
    refine ⟨es, ⟨i, []⟩, hstart, ?_, ?_, ?_⟩
    · rw [countAt, hcurrent]
      rfl
    · rw [hcurrent]
      rfl
    · rw [countAt, hcurrent]
      simp [numbers, Batch.items]
  · have hlt : i.now < Epoch.endsAt e := UInt64.lt_iff_toNat_lt.mpr hlt
    have hcurrent : current (init ++ [e]) i.now = some e := by
      rw [current, List.getLast?_concat, Option.filter_some, if_pos (decide_eq_true hlt)]
    have hitems : (e.add i).items = e.items ++ [i] := rfl
    refine ⟨init, e.add i, hadd, ?_, ?_, ?_⟩
    · rw [countAt, hcurrent, hitems, List.length_append, List.length_singleton]
    · rw [hcurrent, Option.map_some, next_of_lt (c := Epoch.counter e) hlt]
      simp only [Epoch.counter, hitems, List.length_append, List.length_singleton,
        satAdd_wordOfNat_one]
      rfl
    · rw [countAt, hcurrent]
      simp only [numbers, List.flatMap_append, List.flatMap_singleton, hitems, List.mapIdx_concat,
        List.append_assoc]

/-! ## A run -/

/-- A run of visits: its increments split into epochs and were answered by their numbers, and the
store has the counter of the last epoch, unless that is over. -/
structure Kept (s : Shelf) (name : String) (vs : List Visit) (trace : List (Visit × Answer))
    (es : List Epoch) (env : Env) : Prop where
  healthy : env.Healthy
  epochs : Epochs (increments vs) es
  answers : (trace.filter fun x => x.1.increment?.isSome).map Prod.snd = numbers es
  holds : ∀ now, (∀ v ∈ vs, v.now ≤ now) → Holds es now (env.slot (s.key name))

theorem mem_increments (hi : i ∈ increments vs) : ∃ v ∈ vs, v.now = i.now := by
  obtain ⟨v, hv, hi⟩ := List.mem_filterMap.mp hi
  refine ⟨v, hv, ?_⟩
  unfold Visit.increment? at hi
  split at hi <;> cases hi
  rfl

theorem increments_concat (vs : List Visit) (v : Visit) :
    increments (vs ++ [v]) = increments vs ++ v.increment?.toList := by
  rw [increments, List.filterMap_append, increments]
  cases hv : v.increment? <;> simp [hv]

/-- A visit that is no increment leaves the epochs as they are. -/
theorem Kept.concat {trace : List (Visit × Answer)} {env' : Env} (h : Kept s name vs trace es env)
    (hv : v.increment? = none) (answer : Answer) (hhealthy : env'.Healthy)
    (hholds : ∀ now, (∀ v' ∈ vs ++ [v], v'.now ≤ now) → Holds es now (env'.slot (s.key name))) :
    Kept s name (vs ++ [v]) (trace ++ [(v, answer)]) es env' where
  healthy := hhealthy
  epochs := by
    rw [increments_concat, hv, Option.toList_none, List.append_nil]
    exact h.epochs
  answers := by
    rw [List.filter_append, List.map_append, h.answers]
    simp [hv]
  holds := hholds

/-- **A visit is answered as it is due**, and leaves the counter of the last epoch. -/
theorem Kept.visit {trace : List (Visit × Answer)} (h : Kept s name vs trace es env)
    (hle : ∀ v' ∈ vs, v'.now ≤ v.now)
    (hother : ∀ x, v.act = .other x → x.Touches (· ≠ s.key name)) :
    ((s.visit name v).on env).1 = due es v ∧
      ∃ es', Kept s name (vs ++ [v]) (trace ++ [(v, ((s.visit name v).on env).1)]) es'
        ((s.visit name v).on env).2 := by
  have hhealthy := h.healthy.setClock v.now
  have hholds : Holds es v.now ((env.setClock v.now).slot (s.key name)) := h.holds v.now hle
  obtain ⟨now, act⟩ := v
  rw [Shelf.on_visit]
  cases act with
  | increment ttl =>
    have hpast : ∀ j ∈ increments vs, j.now ≤ now := by
      intro j hj
      obtain ⟨v', hv', hnow⟩ := mem_increments hj
      exact hnow ▸ hle v' hv'
    obtain ⟨init, e, hepochs, hlength, hnext, hnumbers⟩ :=
      exists_epoch (i := ⟨now, ttl⟩) h.epochs hpast
    obtain ⟨env', hincrement, hput⟩ := s.increment_of_healthy name ttl hhealthy
    rw [Env.now_setClock, incremented, hholds.recordIn_eq, hnext] at hput
    rw [Env.now_setClock, hholds.recordIn_eq, hnext] at hincrement
    have hon : (s.act name (.increment ttl)).on (env.setClock now) =
        (due es ⟨now, .increment ttl⟩, env') := by
      simp only [Shelf.act, GateM.on_bind, GateM.on_attempt, hincrement, GateM.on_pure,
        Epoch.counter, hlength, due]
    rw [hon]
    refine ⟨rfl, init ++ [e], hput.healthy hhealthy, ?_, ?_, fun _ _ => .inl ?_⟩
    · rw [increments_concat]
      exact hepochs
    · rw [List.filter_append, List.map_append, h.answers, hnumbers]
      rfl
    · rw [hput.slot_key, List.getLast?_concat]
      rfl
  | read =>
    obtain ⟨env', hcounter, hput⟩ := s.counter_of_healthy name hhealthy
    rw [Env.now_setClock, hholds.recordIn_eq, reading_current] at hcounter
    have hon : (s.act name .read).on (env.setClock now) = (due es ⟨now, .read⟩, env') := by
      simp only [Shelf.act, GateM.on_bind, GateM.on_attempt, hcounter, GateM.on_pure, due]
    rw [hon]
    refine ⟨rfl, es, h.concat rfl _ (hput.healthy hhealthy) fun later hlater => ?_⟩
    rw [hput.slot_key]
    exact hholds.readable.later (hlater ⟨now, .read⟩ (by simp))
  | other x =>
    have hf := hother x rfl (env.setClock now)
    have hon : (s.act name (.other x)).on (env.setClock now) =
        (due es ⟨now, .other x⟩, (x.on (env.setClock now)).2) := by
      simp only [Shelf.act, GateM.on_bind, GateM.on_pure, due]
    rw [hon]
    refine ⟨rfl, es, h.concat rfl _ (hhealthy.of_frame hf) fun later hlater => ?_⟩
    rw [hf.slot_eq _ fun hne => hne rfl]
    exact h.holds later fun v hv => hlater v (List.mem_append_left _ hv)

/-- **A run of visits** keeps the counter of its last epoch. -/
theorem exists_kept (hhealthy : env.Healthy) (hnone : env.slot (s.key name) = none)
    (hsorted : (vs.map Visit.now).Pairwise (· ≤ ·))
    (hother : ∀ v ∈ vs, ∀ x, v.act = .other x → x.Touches (· ≠ s.key name)) :
    ∃ es, Kept s name vs (s.traced name vs env) es (s.left name vs env) := by
  induction vs using List.reverseRecOn with
  | nil => exact ⟨[], hhealthy, ⟨rfl, nofun, .nil⟩, rfl, fun _ _ => .inl hnone⟩
  | append_singleton vs v ih =>
    rw [List.map_append, List.pairwise_append] at hsorted
    obtain ⟨hpast, hv⟩ := List.forall_mem_append.mp hother
    obtain ⟨es, hkept⟩ := ih hsorted.1 hpast
    rw [Shelf.traced_concat, Shelf.left_concat]
    exact (hkept.visit (fun v' hv' => hsorted.2.2 v'.now (List.mem_map_of_mem hv') v.now (by simp))
      (hv v List.mem_cons_self)).2

/-- **Counters count exactly.**  Let a name of a shelf have no entry in a store that does not fail,
and let there be any increments of the counter under the name, each with any span, any readings of
it and anything else that leaves its key alone, at instants that do not fall.

* After each part of the run its increments split into epochs in one way, and the next visit is
  answered as is due: an increment by the number that it has in its epoch, a reading by the number
  of increments in the epoch that its instant belongs to, which is none outside of an epoch.
* The answers to all increments are their numbers in their epochs, epoch by epoch.
* After the run the entry is the counter of the last epoch, with the end of the epoch as its
  deadline; at no instant before that end is there none.

Ends of epochs and numbers stop at the largest word. -/
theorem epochs_exact (s : Shelf) (name : String) (env : Env) (hhealthy : env.Healthy)
    (hnone : env.slot (s.key name) = none) (vs : List Visit)
    (hsorted : (vs.map Visit.now).Pairwise (· ≤ ·))
    (hother : ∀ v ∈ vs, ∀ x, v.act = .other x → x.Touches (· ≠ s.key name)) :
    (∀ before v after, vs = before ++ v :: after →
      ∃ es, Epochs (increments before) es ∧ (∀ es', Epochs (increments before) es' → es' = es) ∧
        ((s.visit name v).on (s.left name before env)).1 = due es v) ∧
    ∃ es, Epochs (increments vs) es ∧ (∀ es', Epochs (increments vs) es' → es' = es) ∧
      ((s.traced name vs env).filter fun x => x.1.increment?.isSome).map Prod.snd = numbers es ∧
      ∀ now, (∀ v ∈ vs, v.now ≤ now) →
        (s.left name vs env).slot (s.key name) = es.getLast?.map (fun e =>
            ⟨Binary.encode (Epoch.counter e), some (Epoch.endsAt e)⟩) ∨
          (s.left name vs env).slot (s.key name) = none ∧
            ∀ e ∈ es.getLast?, Epoch.endsAt e ≤ now := by
  constructor
  · rintro before v after rfl
    rw [List.map_append, List.map_cons, List.pairwise_append] at hsorted
    obtain ⟨hpast, hrest⟩ := List.forall_mem_append.mp hother
    obtain ⟨es, hkept⟩ := exists_kept hhealthy hnone hsorted.1 hpast
    refine ⟨es, hkept.epochs, fun es' => hkept.epochs.unique, (hkept.visit ?_ ?_).1⟩
    · exact fun v' hv' => hsorted.2.2 v'.now (List.mem_map_of_mem hv') v.now List.mem_cons_self
    · exact hrest v List.mem_cons_self
  · obtain ⟨es, hkept⟩ := exists_kept hhealthy hnone hsorted hother
    exact ⟨es, hkept.epochs, fun es' => hkept.epochs.unique, hkept.answers, hkept.holds⟩

/-- Three increments for a minute each, of which the last one comes when the first one is over, with
a reading and an increment under another name in between. -/
def lapsing (s : Shelf) : List Visit :=
  let minute : Duration := .ofMillis 60000
  [⟨0, .increment minute⟩, ⟨1, .other do let _ ← (s.increment "bob" minute).attempt⟩, ⟨1, .read⟩,
    ⟨59999, .increment minute⟩, ⟨60000, .increment minute⟩]

/-- The third increment is the first one of its epoch, which ends a minute later. -/
theorem epochs_lapsing :
    let s : Shelf := ⟨"counts:"⟩
    let env := Env.start 0 (.empty none)
    ((s.traced "alice" (lapsing s) env).filter fun x => x.1.increment?.isSome).map Prod.snd =
        [some (.ok 1), some (.ok 2), some (.ok 1)] ∧
      ∃ e, (s.left "alice" (lapsing s) env).slot (s.key "alice") = some e ∧
        e.deadline = some 120000 := by
  intro s env
  have hother : ∀ v ∈ lapsing s, ∀ x, v.act = .other x → x.Touches (· ≠ s.key "alice") := by
    have hbob : (s.increment "bob" (.ofMillis 60000)).Touches (· ≠ s.key "alice") :=
      (Shelf.uses_increment (by decide) _).touches
    rintro v hv x hx
    simp only [lapsing, List.mem_cons, List.not_mem_nil, or_false] at hv
    rcases hv with rfl | rfl | rfl | rfl | rfl <;> cases hx
    exact fun env => hbob env
  obtain ⟨_, es, hepochs, _, hanswers, hslot⟩ := epochs_exact s "alice" env (Env.healthy_start 0)
    (Env.slot_start 0 _) (lapsing s) (by decide) hother
  obtain rfl : es = [⟨⟨0, .ofMillis 60000⟩, [⟨59999, .ofMillis 60000⟩]⟩,
      ⟨⟨60000, .ofMillis 60000⟩, []⟩] := by
    refine Batches.unique ⟨rfl, ?_, ?_⟩ hepochs
    · decide
    · decide
  refine ⟨hanswers.trans (by decide), ?_⟩
  obtain hentry | ⟨_, hover⟩ := hslot 60000 (by decide)
  · exact ⟨_, hentry, rfl⟩
  · exact absurd (hover _ rfl) (by decide)

end Counter

end Turnstile
