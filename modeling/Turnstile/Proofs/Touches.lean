import Turnstile.Circuit.Breaker
import Turnstile.Proofs.Env.Uses
import Turnstile.Quota.Limiter
import Turnstile.Violation.Monitor

/-!
# What the parts of a gate touch

Limiter, breaker and monitor share a shelf, and each of them keeps to an area of it: the names of
its records start with letters of its own.  An operation of the limiter calls the store on two keys
of that area, one of the breaker on its one circuit.

* `Shelf.Under`: the keys of an area, and `Shelf.not_under`: areas have no key in common.
* `Limiter.uses_check`, `Breaker.uses_admits`, `Breaker.uses_record`, `Monitor.uses_recordOutcome`,
  `Monitor.uses_recordViolation`: what the operations are made of.
* `Limiter.touches_check`, `Monitor.touches_recordOutcome`, `Monitor.touches_recordViolation`: what
  they touch for that.
-/

set_option autoImplicit false

namespace Turnstile

open Circuit (Key)

variable {K : String → Prop} {C : (Metrics → Metrics) → Prop}

namespace Shelf

/-- The keys of a shelf for names that start with the letters of an area. -/
def Under (s : Shelf) (area key : String) : Prop := ∃ name, key = s.key (area ++ name)

theorem key_inj {s : Shelf} {name other : String} (h : s.key name = s.key other) : name = other := by
  have h := congrArg String.toList h
  simp only [key, String.toList_append] at h
  exact String.toList_inj.mp (List.append_cancel_left h)

/-- Areas of which none starts with the other have no key in common. -/
theorem not_under {area other : String} (harea : ¬ area.toList <+: other.toList)
    (hother : ¬ other.toList <+: area.toList) (s : Shelf) (name : String) :
    ¬ s.Under area (s.key (other ++ name)) := by
  rintro ⟨name', h⟩
  have h := congrArg String.toList (key_inj h)
  simp only [String.toList_append] at h
  rcases List.prefix_or_prefix_of_prefix ⟨_, h⟩ ⟨_, rfl⟩ with hstarts | hstarts
  · exact hother hstarts
  · exact harea hstarts

end Shelf

/-! ## The limiter -/

namespace Limiter

variable (l : Limiter) (t : Tracker) (p : Policy)

theorem under_window : l.shelf.Under "rl" (l.shelf.key (windowName t p)) :=
  ⟨":" ++ p.name ++ ":" ++ t.key, by simp [windowName, ← String.append_assoc]⟩

theorem under_block : l.shelf.Under "rl" (l.shelf.key (blockName t p)) :=
  ⟨"-block:" ++ p.name ++ ":" ++ t.key, by simp [blockName, ← String.append_assoc]⟩

section Uses

variable {l t p}

theorem uses_activeBlock (hblock : K (l.shelf.key (blockName t p))) (now : UInt64) :
    (l.activeBlock t p now).Uses K := by
  unfold activeBlock
  split
  · exact .pure none
  · exact .bind (Shelf.uses_load hblock) fun _ => .pure _

theorem uses_checkWindow (hwindow : K (l.shelf.key (windowName t p))) (now : UInt64) :
    (l.checkWindow t p now).Uses K := by
  unfold checkWindow
  split
  · exact .bind (Shelf.uses_load hwindow) fun _ =>
      .bind (Shelf.uses_save hwindow _ _) fun _ => .pure _
  · exact .bind (Shelf.uses_load hwindow) fun _ =>
      .bind (Shelf.uses_save hwindow _ _) fun _ => .pure _

theorem uses_penalise (hblock : K (l.shelf.key (blockName t p))) (now : UInt64) (o : Outcome) :
    (l.penalise t p now o).Uses K := by
  unfold penalise
  split
  · exact .pure o
  · exact .bind (Shelf.uses_save hblock _ _) fun _ => .pure _

theorem uses_tryCheck (hwindow : K (l.shelf.key (windowName t p)))
    (hblock : K (l.shelf.key (blockName t p))) : (l.tryCheck t p).Uses K := by
  refine .bind .now fun now => .bind (uses_activeBlock hblock now) fun b => ?_
  split
  · exact .pure _
  · refine .bind (uses_checkWindow hwindow now) fun v => ?_
    split
    · exact .pure _
    · exact .bind (uses_penalise hblock now _) fun _ => .bind (.log rfl rfl) fun _ => .pure _

theorem uses_check (hwindow : K (l.shelf.key (windowName t p)))
    (hblock : K (l.shelf.key (blockName t p))) : (l.check t p).Uses K C :=
  .attempt (uses_tryCheck hwindow hblock) (fun _ => .pure _) (fun _ => rfl)
    (fun _ => .bind .now fun _ => .pure _) fun _ => rfl

end Uses

theorem touches_tryCheck : (l.tryCheck t p).Touches (l.shelf.Under "rl") :=
  (uses_tryCheck (l.under_window t p) (l.under_block t p)).touches

theorem touches_check : (l.check t p).Touches (l.shelf.Under "rl") :=
  (uses_check (C := fun _ => False) (l.under_window t p) (l.under_block t p)).touches

end Limiter

/-! ## The breaker -/

namespace Breaker

variable {b : Breaker} {key : Key}

theorem uses_settle {x : StoreM Unit} (hx : x.Uses K) : (settle key x).Uses K C :=
  .attempt (y := fun _ => pure ()) hx (fun _ => .pure ()) (fun _ => rfl) (fun _ => .pure ())
    fun _ => rfl

variable (hK : K (b.shelf.key key.text))

include hK

theorem uses_load : (b.load key).Uses K :=
  .bind (Shelf.uses_load hK) fun _ => .pure _

theorem uses_tryAdmits : (b.tryAdmits key).Uses K := by
  refine .bind (uses_load hK) fun c => .bind .now fun now => ?_
  generalize c.poll b.thresholds now = r
  show StoreM.Uses K (if r.2.state = c.state then _ else _)
  by_cases h : r.2.state = c.state
  · rw [if_pos h]
    exact .pure _
  · rw [if_neg h]
    exact .bind (Shelf.uses_save hK _ _) fun _ => .bind (.log rfl rfl) fun _ => .pure _

theorem uses_admits : (b.admits key).Uses K C :=
  .attempt (uses_tryAdmits hK) (fun _ => .pure _) (fun _ => rfl) (fun _ => .pure true) fun _ => rfl

theorem uses_status : (b.status key).Uses K C :=
  .attempt (uses_load hK) (fun _ => .pure _) (fun _ => rfl) (fun _ => .pure _) fun _ => rfl

theorem uses_advance (c c' : Circuit) {event : Option Event}
    (hevent : ∀ e ∈ event, e.error? = none ∧ e.security = false) :
    (b.advance key c c' event).Uses K := by
  unfold advance
  split
  · exact .pure ()
  · refine .bind (Shelf.uses_save hK _ _) fun _ => ?_
    split
    · exact .pure ()
    · rename_i e
      exact .log (hevent e rfl).1 (hevent e rfl).2

theorem uses_trySuccess : (b.trySuccess key).Uses K := by
  refine .bind (uses_load hK) fun c => uses_advance hK _ _ fun e he => ?_
  unfold successEvent at he
  split at he
  · cases he
    exact ⟨rfl, rfl⟩
  · cases he

theorem uses_tryFailure : (b.tryFailure key).Uses K := by
  refine .bind (uses_load hK) fun c => .bind .now fun now => uses_advance hK _ _ fun e he => ?_
  unfold failureEvent at he
  split at he
  · cases he
    exact ⟨rfl, rfl⟩
  · cases he

theorem uses_recordSuccess : (b.recordSuccess key).Uses K C := uses_settle (uses_trySuccess hK)

theorem uses_recordFailure : (b.recordFailure key).Uses K C := uses_settle (uses_tryFailure hK)

theorem uses_record (succeeded : Bool) : (b.record key succeeded).Uses K C := by
  unfold record
  split
  · exact uses_recordSuccess hK
  · exact uses_recordFailure hK

theorem uses_reset : (b.reset key).Uses K C :=
  uses_settle (.bind (Shelf.uses_remove hK) fun _ => .log rfl rfl)

end Breaker

/-! ## The monitor -/

namespace Monitor

open Violation

variable (m : Monitor) (t : Tracker)

theorem under_hour (now : UInt64) : m.shelf.Under "vm:" (m.shelf.key (hourName now t)) :=
  ⟨"hour:" ++ numeral (hourOf now).toNat ++ ":" ++ t.key, by simp [hourName, ← String.append_assoc]⟩

theorem under_day (day : UInt64) (tracker : String) :
    m.shelf.Under "vm:" (m.shelf.key (dayName day tracker)) :=
  ⟨"day:" ++ numeral day.toNat ++ ":tracker:" ++ tracker, by simp [dayName, ← String.append_assoc]⟩

theorem under_path (day : UInt64) (path : String) :
    m.shelf.Under "vm:" (m.shelf.key (pathName day path)) :=
  ⟨"day:" ++ numeral day.toNat ++ ":path:" ++ path, by simp [pathName, ← String.append_assoc]⟩

theorem under_minute : m.shelf.Under "vm:" (m.shelf.key (minuteName t)) :=
  ⟨"minute:" ++ t.key, by simp [minuteName, ← String.append_assoc]⟩

theorem under_roster (day : UInt64) (number : Nat) :
    m.shelf.Under "vm:" (m.shelf.key (rosterName day number)) :=
  ⟨"day:" ++ numeral day.toNat ++ ":violators:" ++ numeral number, by
    simp [rosterName, ← String.append_assoc]⟩

section Uses

variable {m t}

theorem uses_recover {α : Type} {x : StoreM α} (hx : x.Uses K) {event : StoreError → Event}
    (hevent : ∀ e, (event e).error? = some e) (answer : α) : (recover x event answer).Uses K C :=
  .attempt hx (fun _ => .pure _) hevent (fun _ => .pure _) fun _ => rfl

theorem uses_recordOutcome (hhour : ∀ now, K (m.shelf.key (hourName now t))) (path : String)
    (allowed : Bool) : (m.recordOutcome t path allowed).Uses K C :=
  uses_recover (.bind .now fun now => .bind (Shelf.uses_load (hhour now)) fun _ =>
    Shelf.uses_save (hhour now) _ _) (fun _ => rfl) _

theorem uses_stats (hhour : ∀ now, K (m.shelf.key (hourName now t)))
    (hday : ∀ d, K (m.shelf.key (dayName d t.key))) (hminute : K (m.shelf.key (minuteName t))) :
    (m.stats t).Uses K C :=
  uses_recover (.bind .now fun now => .bind (Shelf.uses_load (hhour now)) fun _ =>
    .bind (Shelf.uses_counter (hday _)) fun _ => .bind (Shelf.uses_counter hminute) fun _ =>
      .pure _) (fun _ => rfl) _

theorem uses_onPath {path : String} (hpath : ∀ d, K (m.shelf.key (pathName d path))) :
    (m.onPath path).Uses K C :=
  uses_recover (.bind .now fun _ => Shelf.uses_counter (hpath _)) (fun _ => rfl) _

variable (hvm : ∀ key, m.shelf.Under "vm:" key → K key)

include hvm

theorem uses_counted (d : UInt64) (number : Nat) (ts : List String) :
    (m.counted d number ts).Uses K := by
  induction ts with
  | nil => exact .pure []
  | cons t ts ih =>
    refine .bind (Shelf.uses_counter (hvm _ (m.under_day d t))) fun n => .bind ih fun rest => ?_
    split
    · exact .pure _
    · exact .pure _

theorem uses_listed (d : UInt64) (numbers : List Nat) : (m.listed d numbers).Uses K := by
  induction numbers with
  | nil => exact .pure []
  | cons number numbers ih =>
    refine .bind (Shelf.uses_load (hvm _ (m.under_roster d number))) fun r => ?_
    split
    · exact ih
    · exact .bind (uses_counted hvm d number _) fun _ => .bind ih fun _ => .pure _

omit hvm in
theorem uses_evict {d : UInt64} (hrosters : ∀ number, K (m.shelf.key (rosterName d number)))
    (weak : List (Nat × Violator)) : (m.evict d weak).Uses K := by
  induction weak with
  | nil => exact .pure ()
  | cons w weak ih =>
    refine .bind (Shelf.uses_load (hrosters w.1)) fun r => ?_
    split
    · exact ih
    · split
      · exact .bind (Shelf.uses_save (hrosters w.1) _ _) fun _ => ih
      · exact ih

theorem uses_enlist (d : UInt64) (t : Tracker) : (m.enlist d t).Uses K := by
  have hrosters := fun number => hvm _ (m.under_roster d number)
  refine .bind (Shelf.uses_load (hrosters _)) fun r => ?_
  dsimp only
  split
  · exact .pure ()
  · exact .bind (Shelf.uses_save (hrosters _) _ _) fun _ =>
      .bind (uses_listed hvm d _) fun _ => uses_evict hrosters _

theorem uses_recordViolation (t : Tracker) (path : String) (v : Violation) :
    (m.recordViolation t path v).Uses K C := by
  refine uses_recover (.bind .now fun now => ?_) (fun _ => rfl) _
  refine .bind (Shelf.uses_increment (hvm _ (m.under_day _ _)) _) fun _ =>
    .bind (Shelf.uses_increment (hvm _ (m.under_path _ _)) _) fun _ =>
      .bind (uses_enlist hvm _ t) fun _ =>
        .bind (Shelf.uses_increment (hvm _ (m.under_minute t)) _) fun n => ?_
  dsimp only
  split
  · exact .pure none
  · exact .alarm rfl (.pure _)

theorem uses_top (limit : UInt64) : (m.top limit).Uses K C :=
  uses_recover (.bind .now fun _ => .bind (uses_listed hvm _ _) fun _ => .pure _) (fun _ => rfl) _

end Uses

theorem touches_recordOutcome (path : String) (allowed : Bool) :
    (m.recordOutcome t path allowed).Touches (m.shelf.Under "vm:") :=
  (uses_recordOutcome (C := fun _ => False) (m.under_hour t) path allowed).touches

theorem touches_recordViolation (path : String) (v : Violation) :
    (m.recordViolation t path v).Touches (m.shelf.Under "vm:") :=
  (uses_recordViolation (C := fun _ => False) (fun _ => id) t path v).touches

theorem touches_stats : (m.stats t).Touches (m.shelf.Under "vm:") :=
  (uses_stats (C := fun _ => False) (m.under_hour t) (fun d => m.under_day d t.key)
    (m.under_minute t)).touches

theorem touches_top (limit : UInt64) : (m.top limit).Touches (m.shelf.Under "vm:") :=
  (uses_top (C := fun _ => False) (fun _ => id) limit).touches

theorem touches_onPath (path : String) : (m.onPath path).Touches (m.shelf.Under "vm:") :=
  (uses_onPath (C := fun _ => False) fun d => m.under_path d path).touches

end Monitor

end Turnstile
