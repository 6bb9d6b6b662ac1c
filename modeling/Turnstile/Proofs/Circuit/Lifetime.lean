import Turnstile.Proofs.Circuit.Slot

/-!
# A circuit without its store

What a breaker remembers of a circuit is a `Circuit.Memory`: the circuit, and the instant of the last
call that changed it.  From twice the recovery time after that instant on, nothing is remembered.  A
breaker on a healthy store gives the answers of the memory: it writes only what has changed, so calls
that change nothing do not make a record live longer.

* `Breaker.Visit`, `Breaker.visits`: calls on one circuit at given instants, with their answers.
* `Circuit.Memory.answer`, `Circuit.Memory.answers`: the same calls on the memory.
* `Breaker.Holds`: the store has the memory, at the instant and at all later ones.
* `Breaker.visit_of_holds`, `Breaker.visits_of_holds`: one call, and a run.
-/

set_option autoImplicit false

namespace Turnstile

open Circuit (Key Thresholds seen)

/-! ## Calls on a circuit -/

namespace Breaker

/-- What can be asked of a circuit. -/
inductive Op where
  | admits
  | succeed
  | fail
  | reset
  | status
  deriving DecidableEq, Repr

inductive Answer where
  | through (b : Bool)
  | done
  | status (s : Circuit.Status)
  deriving DecidableEq, Repr

/-- A call at an instant. -/
structure Visit where
  now : UInt64
  op : Op
  deriving DecidableEq, Repr

def perform (b : Breaker) (key : Key) : Op → GateM Answer
  | .admits => do
    let through ← b.admits key
    pure (.through through)
  | .succeed => do
    b.recordSuccess key
    pure .done
  | .fail => do
    b.recordFailure key
    pure .done
  | .reset => do
    b.reset key
    pure .done
  | .status => do
    let s ← b.status key
    pure (.status s)

def visit (b : Breaker) (key : Key) (v : Visit) : GateM Answer := do
  modify fun env => env.setClock v.now
  b.perform key v.op

/-- Calls on a circuit, one after the other. -/
def visits (b : Breaker) (key : Key) : List Visit → GateM (List Answer)
  | [] => pure []
  | v :: run => do
    let a ← b.visit key v
    let rest ← b.visits key run
    pure (a :: rest)

end Breaker

/-! ## The memory -/

namespace Circuit

/-- A circuit, and the instant of the last call that changed it, if one did. -/
structure Memory where
  circuit : Circuit
  changedAt : Option UInt64
  deriving DecidableEq, Repr

namespace Memory

open Breaker (Answer Visit)

def blank : Memory := ⟨.fresh, none⟩

/-- The memory at an instant: nothing is left from the given span after the last change on. -/
def lapse (m : Memory) (ttl now : UInt64) : Memory :=
  if m.changedAt.any fun s => satAdd s ttl ≤ now then blank else m

/-- The memory after a call that leaves a circuit.  An equal one is no change. -/
def put (m : Memory) (now : UInt64) (c : Circuit) : Memory :=
  if c = m.circuit then m else ⟨c, some now⟩

/-- The answer to a call on what is left of the memory, and the memory after it. -/
def answer (m : Memory) (t : Thresholds) (ttl : UInt64) (key : Key) (v : Visit) : Answer × Memory :=
  let m := m.lapse ttl v.now
  match v.op with
  | .admits =>
    let r := m.circuit.poll t v.now
    (.through r.1, m.put v.now r.2)
  | .succeed => (.done, m.put v.now (m.circuit.succeed t))
  | .fail => (.done, m.put v.now (m.circuit.fail t v.now))
  | .reset => (.done, m.put v.now .fresh)
  | .status => (.status ⟨key, m.circuit, m.circuit.nextProbe t⟩, m)

/-- The answers to calls, one after the other. -/
def answers (m : Memory) (t : Thresholds) (ttl : UInt64) (key : Key) : List Visit → List Answer
  | [] => []
  | v :: run => (m.answer t ttl key v).1 :: (m.answer t ttl key v).2.answers t ttl key run

variable {m : Memory} {ttl now later : UInt64}

/-- What has lapsed stays lapsed. -/
theorem lapse_lapse (h : now ≤ later) : (m.lapse ttl now).lapse ttl later = m.lapse ttl later := by
  unfold lapse
  cases hm : m.changedAt with
  | none => simp [hm]
  | some s =>
    by_cases hnow : satAdd s ttl ≤ now
    · have hlater : satAdd s ttl ≤ later := UInt64.le_trans hnow h
      simp [hnow, hlater, blank]
    · simp [hnow, hm]

theorem circuit_lapse_put (m : Memory) (c : Circuit) :
    ((m.put now c).lapse ttl later).circuit =
      if c = m.circuit then (m.lapse ttl later).circuit
      else if later < satAdd now ttl then c else .fresh := by
  unfold put
  split
  · rfl
  · by_cases h : later < satAdd now ttl
    · have hle : ¬ satAdd now ttl ≤ later := UInt64.not_le.mpr h
      simp [lapse, h, hle]
    · simp [lapse, h, UInt64.not_lt.mp h, blank]

end Memory

end Circuit

/-! ## The memory in the store -/

namespace Breaker

open Circuit (Memory)

/-- The store has a memory: what is seen of the circuit from now on is what the memory has left. -/
structure Holds (b : Breaker) (key : Key) (m : Memory) (env : Env) : Prop where
  healthy : env.Healthy
  seen_eq : ∀ later, env.now ≤ later → seen later (env.slot (b.shelf.key key.text)) =
    (m.lapse b.settings.recordTtl.millis later).circuit

variable {b : Breaker} {key : Key} {m : Memory} {env env' : Env}

theorem holds_start (b : Breaker) (key : Key) (now : UInt64) :
    b.Holds key .blank (.start now (.empty none)) where
  healthy := Env.healthy_start now
  seen_eq later _ := by
    rw [Env.slot_start]
    rfl

theorem Holds.setClock (h : b.Holds key m env) {now : UInt64} (hnow : env.now ≤ now) :
    b.Holds key m (env.setClock now) :=
  ⟨h.healthy.setClock now, fun later hle => h.seen_eq later (UInt64.le_trans hnow hle)⟩

/-- A move of the circuit in the store is a move of the one in the memory. -/
theorem Holds.moved (h : b.Holds key m env) (move : Circuit → Circuit)
    (hput : env.Puts (b.shelf.key key.text)
      (b.moved env.now move (env.slot (b.shelf.key key.text))) env') :
    let left := m.lapse b.settings.recordTtl.millis env.now
    b.Holds key (left.put env.now (move left.circuit)) env' := by
  refine ⟨hput.healthy h.healthy, fun later hle => ?_⟩
  rw [hput.now_eq] at hle
  rw [hput.slot_key, seen_moved_eq hle, h.seen_eq env.now (UInt64.le_refl _), h.seen_eq later hle,
    Memory.circuit_lapse_put, Memory.lapse_lapse hle]

theorem Holds.read (h : b.Holds key m env)
    (hput : env.Puts (b.shelf.key key.text)
      (readable Circuit env.now (env.slot (b.shelf.key key.text))) env') :
    b.Holds key (m.lapse b.settings.recordTtl.millis env.now) env' := by
  refine ⟨hput.healthy h.healthy, fun later hle => ?_⟩
  rw [hput.now_eq] at hle
  rw [hput.slot_key, seen_readable hle, h.seen_eq later hle, Memory.lapse_lapse hle]

theorem Holds.removed (h : b.Holds key m env)
    (hput : env.Puts (b.shelf.key key.text) none env') :
    b.Holds key ((m.lapse b.settings.recordTtl.millis env.now).put env.now .fresh) env' := by
  refine ⟨hput.healthy h.healthy, fun later _ => ?_⟩
  rw [hput.slot_key, Memory.circuit_lapse_put]
  show Circuit.fresh = _
  by_cases hfresh : Circuit.fresh = (m.lapse b.settings.recordTtl.millis env.now).circuit
  · -- a fresh circuit lapses to a fresh one
    rw [if_pos hfresh, Memory.lapse]
    split
    · rfl
    · exact hfresh
  · rw [if_neg hfresh, ite_self]

/-- **A call on a circuit is a call on its memory**, and the store has the memory after it. -/
theorem visit_of_holds (h : b.Holds key m env) {v : Visit} (hnow : env.now ≤ v.now) :
    ∃ env', (b.visit key v).on env =
        ((m.answer b.thresholds b.settings.recordTtl.millis key v).1, env') ∧
      env'.now = v.now ∧
      b.Holds key (m.answer b.thresholds b.settings.recordTtl.millis key v).2 env' := by
  obtain ⟨now, op⟩ := v
  have h := h.setClock hnow
  have hseen := h.seen_eq now (UInt64.le_refl _)
  cases op with
  | admits =>
    obtain ⟨env', hadmits, hput⟩ := b.admits_of_healthy h.healthy key
    refine ⟨env', ?_, hput.now_eq, h.moved _ hput⟩
    simp only [visit, perform, GateM.on_bind, GateM.on_modify, hadmits, GateM.on_pure,
      Memory.answer, Env.now_setClock, hseen]
  | succeed =>
    obtain ⟨env', hsuccess, hput⟩ := b.recordSuccess_of_healthy h.healthy key
    refine ⟨env', ?_, hput.now_eq, h.moved _ hput⟩
    simp only [visit, perform, GateM.on_bind, GateM.on_modify, hsuccess, GateM.on_pure,
      Memory.answer]
  | fail =>
    obtain ⟨env', hfailure, hput⟩ := b.recordFailure_of_healthy h.healthy key
    refine ⟨env', ?_, hput.now_eq, h.moved _ hput⟩
    simp only [visit, perform, GateM.on_bind, GateM.on_modify, hfailure, GateM.on_pure,
      Memory.answer]
  | reset =>
    obtain ⟨env', hreset, hput⟩ := b.reset_of_healthy h.healthy key
    refine ⟨env', ?_, hput.now_eq, h.removed hput⟩
    simp only [visit, perform, GateM.on_bind, GateM.on_modify, hreset, GateM.on_pure,
      Memory.answer]
  | status =>
    obtain ⟨env', hstatus, hput⟩ := b.status_of_healthy h.healthy key
    refine ⟨env', ?_, hput.now_eq, h.read hput⟩
    simp only [visit, perform, GateM.on_bind, GateM.on_modify, hstatus, GateM.on_pure,
      Memory.answer, statusOf, Env.now_setClock, hseen]

theorem visits_of_holds (h : b.Holds key m env) {run : List Visit}
    (hsorted : (env.now :: run.map Visit.now).Pairwise (· ≤ ·)) :
    ((b.visits key run).on env).1 =
      m.answers b.thresholds b.settings.recordTtl.millis key run := by
  induction run generalizing m env with
  | nil => rfl
  | cons v run ih =>
    obtain ⟨hle, hsorted⟩ := List.pairwise_cons.mp hsorted
    obtain ⟨env', hvisit, hnow, h'⟩ := visit_of_holds h (hle v.now List.mem_cons_self)
    simp only [visits, GateM.on_bind, hvisit, GateM.on_pure, Memory.answers]
    rw [ih h' (by rw [hnow]; exact hsorted)]

/-- **A breaker gives the answers of its circuits' memories.**  Whatever its settings, let it start
on an empty store that does not fail, and ask anything of one circuit at instants that do not fall.
The answers are those of a single record, fresh at first and moved by polls, successes, failures and
resets, which is forgotten as soon as twice the recovery time, in whole milliseconds, has passed
since the last call that changed it. -/
theorem visits_eq_answers (b : Breaker) (key : Key) (start : UInt64) (run : List Visit)
    (hsorted : (start :: run.map Visit.now).Pairwise (· ≤ ·)) :
    ((b.visits key run).on (.start start (.empty none))).1 =
      Memory.blank.answers b.thresholds b.settings.recovery.double.millis key run :=
  visits_of_holds (holds_start b key start) hsorted

/-- A circuit that a failure opens at 10 is asked at 900, which changes nothing, and is forgotten at
2010, twice its recovery time of a second after the failure. -/
theorem visits_forgotten :
    let b : Breaker := ⟨⟨Shelf.defaultLabel⟩, ⟨1, 1, .ofMillis 1000⟩⟩
    let run : List Visit :=
      [⟨10, .fail⟩, ⟨900, .fail⟩, ⟨1010, .admits⟩, ⟨2009, .status⟩, ⟨2010, .status⟩]
    ((b.visits (.ofTracker (.user "alice")) run).on (.start 0 (.empty none))).1 =
      [.done, .done, .through false,
        .status ⟨.ofTracker (.user "alice"), ⟨.open, 1, 0, some 10⟩, some 1010⟩,
        .status ⟨.ofTracker (.user "alice"), .fresh, none⟩] := by
  intro b run
  rw [visits_eq_answers b (.ofTracker (.user "alice")) 0 run (by decide)]
  decide

end Breaker

end Turnstile
