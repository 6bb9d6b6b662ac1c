import Turnstile.Proofs.Gate.Build
import Turnstile.Proofs.Gate.Holdings

/-!
# How a gate handles its records

Breaker, limiter and monitor handle the records of a gate, and whatever is asked of the gate is put
together from them.  So a property of everything that handles records, which two operations have one
after the other if both of them have it, is a property of all that can be asked.

* `Breaker.handles_tryAdmits`, `Limiter.handles_tryCheck`, `Monitor.handles_tryRecordOutcome`,
  `Monitor.handles_tryRecordViolation`: the operations on the store.
* `GateM.Serves`: such a property, and `Gate.serves_perform`: all that can be asked has it.
-/

set_option autoImplicit false

namespace Turnstile

open Circuit (Key)
open Violation

variable {α β : Type} {s : Shelf} {g : Gate} {now : UInt64}
  {Fits : (h : Holding) → h.Record → Prop}

namespace StoreM

theorem Handles.mono {P R : α → Prop} {x : StoreM α} (hx : x.Handles s g now Fits P)
    (hPR : ∀ a, P a → R a) : x.Handles s g now Fits R := by
  rw [← bind_pure x]
  exact .bind hx fun a ha => .pure (hPR a ha)

/-- Reading is handling. -/
theorem Looks.handles {x : StoreM α} (hx : x.Looks s) : x.Handles s g now Fits fun _ => True := by
  induction hx with
  | pure a => exact .pure trivial
  | bind _ _ ihx ihf => exact .bind ihx fun a _ => ihf a
  | now => exact Handles.now.mono fun _ _ => trivial
  | load h _ hname => exact (Handles.load h hname).mono fun _ _ => trivial

end StoreM

/-! ## The breaker -/

namespace Breaker

variable {key : Key} (hkey : Holding.circuit.Named key.text)

include hkey

theorem looks_load (b : Breaker) : (b.load key).Looks b.shelf :=
  .bind (.load .circuit (by decide) hkey) fun _ => .pure _

theorem handles_load : (g.breaker.load key).Handles g.breaker.shelf g now Fits fun _ => True :=
  (looks_load hkey g.breaker).handles

theorem handles_save (c : Circuit) :
    (g.breaker.save key c).Handles g.breaker.shelf g now Fits fun _ => True :=
  .save (h := .circuit) hkey (by nofun) (.circuit none c)

theorem handles_tryAdmits :
    (g.breaker.tryAdmits key).Handles g.breaker.shelf g now Fits fun _ => True := by
  refine .bind (handles_load hkey) fun c _ => .bind .now fun instant _ => ?_
  generalize c.poll g.breaker.thresholds instant = polled
  show StoreM.Handles _ _ _ _ _ (if polled.2.state = c.state then _ else _)
  by_cases h : polled.2.state = c.state
  · rw [if_pos h]
    exact .pure trivial
  · rw [if_neg h]
    exact .bind (handles_save hkey _) fun _ _ => .bind (.log _) fun _ _ => .pure trivial

theorem handles_advance (c c' : Circuit) (event : Option Event) :
    (g.breaker.advance key c c' event).Handles g.breaker.shelf g now Fits fun _ => True := by
  unfold advance
  split
  · exact .pure trivial
  · refine .bind (handles_save hkey _) fun _ _ => ?_
    split
    · exact .pure trivial
    · exact .log _

theorem handles_trySuccess :
    (g.breaker.trySuccess key).Handles g.breaker.shelf g now Fits fun _ => True :=
  .bind (handles_load hkey) fun _ _ => handles_advance hkey _ _ _

theorem handles_tryFailure :
    (g.breaker.tryFailure key).Handles g.breaker.shelf g now Fits fun _ => True :=
  .bind (handles_load hkey) fun _ _ => .bind .now fun _ _ => handles_advance hkey _ _ _

end Breaker

/-! ## The limiter -/

namespace Limiter

theorem named_window (t : Tracker) (p : Policy) : Holding.window.Named (windowName t p) :=
  ⟨p.name ++ ":" ++ t.key, by simp [windowName, ← String.append_assoc]⟩

theorem named_block (t : Tracker) (p : Policy) : Holding.block.Named (blockName t p) :=
  ⟨p.name ++ ":" ++ t.key, by simp [blockName, ← String.append_assoc]⟩

variable {p : Policy} (hp : p ∈ g.policies.policies) (t : Tracker)

theorem handles_activeBlock (p : Policy) :
    (g.limiter.activeBlock t p now).Handles g.limiter.shelf g now Fits fun _ => True := by
  unfold activeBlock
  split
  · exact .pure trivial
  · exact .bind (.load .block (named_block t p)) fun _ _ => .pure trivial

include hp

theorem handles_checkWindow :
    (g.limiter.checkWindow t p now).Handles g.limiter.shelf g now Fits fun _ => True := by
  unfold checkWindow
  split
  · exact .bind (.load .window (named_window t p)) fun read hread =>
      .bind (.save (h := .window) (named_window t p) hread (.window hp read)) fun _ _ =>
        .pure trivial
  · exact .bind (.load .log (named_window t p)) fun read hread =>
      .bind (.save (h := .log) (named_window t p) hread (.log hp read)) fun _ _ => .pure trivial

theorem handles_penalise (o : Outcome) :
    (g.limiter.penalise t p now o).Handles g.limiter.shelf g now Fits fun _ => True := by
  unfold penalise
  split
  · exact .pure trivial
  · rename_i length hblock
    exact .bind (.save (h := .block) (named_block t p) (by nofun) (.block hp hblock none))
      fun _ _ => .pure trivial

theorem handles_tryCheck :
    (g.limiter.tryCheck t p).Handles g.limiter.shelf g now Fits fun _ => True := by
  refine .bind .now fun instant hinstant => ?_
  subst hinstant
  refine .bind (handles_activeBlock t p) fun b _ => ?_
  split
  · exact .pure trivial
  · refine .bind (handles_checkWindow hp t) fun v _ => ?_
    split
    · exact .pure trivial
    · exact .bind (handles_penalise hp t _) fun _ _ => .bind (.log _) fun _ _ => .pure trivial

end Limiter

/-! ## The monitor -/

namespace Monitor

variable (m : Monitor) (t : Tracker) (d : UInt64)

theorem looks_counter {name : String} (hname : Holding.counter.Named name) :
    (m.shelf.counter name).Looks m.shelf :=
  .bind .now fun _ => .bind (.load .counter (by decide) hname) fun _ => .pure _

theorem looks_counted (number : Nat) (ts : List String) :
    (m.counted d number ts).Looks m.shelf := by
  induction ts with
  | nil => exact .pure []
  | cons t ts ih =>
    refine .bind (m.looks_counter (.inl ⟨d, t, rfl⟩)) fun n => .bind ih fun rest => ?_
    split
    · exact .pure _
    · exact .pure _

theorem looks_roster (number : Nat) : (m.roster d number).Looks m.shelf :=
  .load .roster (by decide) ⟨d, number, rfl⟩

theorem looks_listed (numbers : List Nat) : (m.listed d numbers).Looks m.shelf := by
  induction numbers with
  | nil => exact .pure []
  | cons number numbers ih =>
    refine .bind (m.looks_roster d number) fun r => ?_
    split
    · exact ih
    · exact .bind (m.looks_counted d number _) fun _ => .bind ih fun _ => .pure _

theorem looks_tryStats : (m.tryStats t).Looks m.shelf :=
  .bind .now fun now => .bind (.load .outcomes (by decide) ⟨now, t, rfl⟩) fun _ =>
    .bind (m.looks_counter (.inl ⟨_, _, rfl⟩)) fun _ =>
      .bind (m.looks_counter (.inr (.inr ⟨t, rfl⟩))) fun _ => .pure _

theorem looks_tryTop (limit : UInt64) : (m.tryTop limit).Looks m.shelf :=
  .bind .now fun _ => .bind (m.looks_listed _ _) fun _ => .pure _

theorem looks_tryOnPath (path : String) : (m.tryOnPath path).Looks m.shelf :=
  .bind .now fun _ => m.looks_counter (.inr (.inl ⟨_, path, rfl⟩))

theorem handles_tryRecordOutcome (allowed : Bool) :
    (g.monitor.tryRecordOutcome t allowed).Handles g.monitor.shelf g now Fits fun _ => True :=
  .bind .now fun instant _ => .bind (.load .outcomes ⟨instant, t, rfl⟩) fun read hread =>
    .save (h := .outcomes) ⟨instant, t, rfl⟩ hread (.outcomes read allowed)

theorem handles_saveRoster (number : Nat) (r : Roster) :
    (g.monitor.saveRoster d number r).Handles g.monitor.shelf g now Fits fun _ => True :=
  .save (h := .roster) ⟨d, number, rfl⟩ (by nofun) (.roster none r)

theorem handles_evict (weak : List (Nat × Violator)) :
    (g.monitor.evict d weak).Handles g.monitor.shelf g now Fits fun _ => True := by
  induction weak with
  | nil => exact .pure trivial
  | cons w weak ih =>
    refine .bind (g.monitor.looks_roster d w.1).handles fun r _ => ?_
    split
    · exact ih
    · split
      · exact .bind (handles_saveRoster d w.1 _) fun _ _ => ih
      · exact ih

theorem handles_enlist :
    (g.monitor.enlist d t).Handles g.monitor.shelf g now Fits fun _ => True := by
  refine .bind (g.monitor.looks_roster d _).handles fun r _ => ?_
  dsimp only
  split
  · exact .pure trivial
  · exact .bind (handles_saveRoster d _ _) fun _ _ =>
      .bind (g.monitor.looks_listed d _).handles fun _ _ => handles_evict d _

theorem handles_increment {name : String} (hname : Holding.counter.Named name) {ttl : Duration}
    (httl : ttl = day ∨ ttl = minute) :
    (s.increment name ttl).Handles s g now Fits fun _ => True := by
  refine .bind .now fun instant hinstant => ?_
  subst hinstant
  exact .bind (.load .counter hname) fun read hread =>
    .bind (.save (h := .counter) hname hread (.counter read httl)) fun _ _ => .pure trivial

theorem handles_tryRecordViolation (path : String) (v : Violation) :
    (g.monitor.tryRecordViolation t path v).Handles g.monitor.shelf g now Fits fun _ => True := by
  refine .bind .now fun instant _ => ?_
  refine .bind (handles_increment (.inl ⟨_, _, rfl⟩) (.inl rfl)) fun _ _ =>
    .bind (handles_increment (.inr (.inl ⟨_, path, rfl⟩)) (.inl rfl)) fun _ _ =>
      .bind (handles_enlist t _) fun _ _ =>
        .bind (handles_increment (.inr (.inr ⟨t, rfl⟩)) (.inr rfl)) fun n _ => ?_
  dsimp only
  split
  · exact .pure trivial
  · exact .bind (.count _) fun _ _ => .bind (.log _) fun _ _ => .pure trivial

end Monitor

/-! ## The gate -/

/-- A property of operations of a gate at an instant that everything has which handles records, and
that operations have if their parts do. -/
structure GateM.Serves (s : Shelf) (g : Gate) (now : UInt64)
    (Fits : (h : Holding) → h.Record → Prop) (Q : {α : Type} → GateM α → Prop) : Prop where
  closed : GateM.Closed Q
  event : ∀ e, Q (GateM.log e)
  count : ∀ f, Q (GateM.count f)
  attempt : ∀ {α : Type} {P : α → Prop} {x : StoreM α}, x.Handles s g now Fits P → Q x.attempt

namespace GateM.Serves

variable {Q : {α : Type} → GateM α → Prop} {key : Key}

/-- A failure is counted and logged, or there is an answer. -/
theorem storeFailed (h : Serves s g now Fits Q) (key : Key) (e : StoreError) :
    Q (Breaker.storeFailed key e) :=
  h.closed.bind (h.count _) fun _ => h.event _

theorem recover (h : Serves s g now Fits Q) {x : StoreM α} {P : α → Prop}
    (hx : x.Handles s g now Fits P) (event : StoreError → Event) (answer : α) :
    Q (Monitor.recover x event answer) := by
  refine h.closed.bind (h.attempt hx) fun r => ?_
  split
  · exact h.closed.pure _
  · exact h.closed.bind (h.count _) fun _ => h.closed.bind (h.event _) fun _ => h.closed.pure _

theorem settle (h : Serves s g now Fits Q) {x : StoreM Unit} {P : Unit → Prop}
    (hx : x.Handles s g now Fits P) (key : Key) : Q (Breaker.settle key x) := by
  refine h.closed.bind (h.attempt hx) fun r => ?_
  split
  · exact h.closed.pure _
  · exact h.storeFailed key _

end GateM.Serves

namespace Gate

variable {Q : {α : Type} → GateM α → Prop} {pl : Plan} {t : Tracker} {p : Policy} {key : Key}

theorem named_of_owns (h : g.Owns t key) : Holding.circuit.Named key.text := by
  rcases h with rfl | ⟨p, _, rfl⟩
  · exact ⟨":" ++ t.key, by simp [Key.ofTracker, ← String.append_assoc]⟩
  · exact ⟨"@" ++ p.name ++ ":" ++ t.key, by simp [Key.scoped, ← String.append_assoc]⟩

theorem named_of_mem_guards (hp : p ∈ g.policies.policies) (hkey : key ∈ g.guards t p) :
    Holding.circuit.Named key.text :=
  named_of_owns (owns_of_mem_guards hp hkey)

theorem named_policyCircuit (hp : p ∈ g.policies.policies) (t : Tracker) :
    Holding.circuit.Named (g.policyCircuit t p).text :=
  named_of_mem_guards hp (policyCircuit_mem_guards g t p)

section Breaker

variable (h : GateM.Serves g.breaker.shelf g now Fits Q) (hkey : Holding.circuit.Named key.text)

include h hkey

theorem serves_admits : Q (g.breaker.admits key) := by
  refine h.closed.bind (h.attempt (Breaker.handles_tryAdmits hkey)) fun r => ?_
  split
  · exact h.closed.pure _
  · exact h.closed.bind (h.storeFailed key _) fun _ => h.closed.pure _

theorem serves_status : Q (g.breaker.status key) := by
  refine h.closed.bind (h.attempt (Breaker.handles_load hkey)) fun r => ?_
  split
  · exact h.closed.pure _
  · exact h.closed.bind (h.storeFailed key _) fun _ => h.closed.pure _

theorem serves_record (succeeded : Bool) : Q (g.breaker.record key succeeded) := by
  unfold Breaker.record
  split
  · exact h.settle (Breaker.handles_trySuccess hkey) key
  · exact h.settle (Breaker.handles_tryFailure hkey) key

theorem serves_reset : Q (g.breaker.reset key) :=
  h.settle (.bind (.remove .circuit hkey) fun _ _ => .log _) key

end Breaker

theorem serves_check (h : GateM.Serves g.limiter.shelf g now Fits Q)
    (hp : p ∈ g.policies.policies) (t : Tracker) : Q (g.limiter.check t p) := by
  refine h.closed.bind (h.attempt (Limiter.handles_tryCheck hp t)) fun r => ?_
  split
  · exact h.closed.pure _
  · exact h.closed.bind (h.count _) fun _ => h.closed.bind (h.event _) fun _ =>
      h.closed.bind h.closed.now fun _ => h.closed.pure _

theorem serves_asks (hg : g.Built pl) (h : GateM.Serves ⟨pl.label⟩ g now Fits Q)
    (hp : p ∈ g.policies.policies) (t : Tracker) : g.Asks t p Q := by
  have hb : GateM.Serves g.breaker.shelf g now Fits Q := by rwa [hg.breaker_eq]
  have hl : GateM.Serves g.limiter.shelf g now Fits Q := by rwa [hg.limiter_eq]
  have hm : GateM.Serves g.monitor.shelf g now Fits Q := by rwa [hg.monitor_eq]
  have hcircuit := named_policyCircuit hp t
  refine ⟨fun _ => h.count _, fun k hk => serves_admits hb (named_of_mem_guards hp hk),
    fun k hk => serves_status hb (named_of_mem_guards hp hk), ?_, ?_, serves_check hl hp t, ?_, ?_⟩
  · exact hb.settle (Breaker.handles_trySuccess hcircuit) _
  · exact hb.settle (Breaker.handles_tryFailure hcircuit) _
  · exact fun path allowed => hm.recover (Monitor.handles_tryRecordOutcome t allowed) _ _
  · exact fun path v => h.closed.bind
      (hm.recover (Monitor.handles_tryRecordViolation t path v) _ _) fun _ => h.closed.pure ()

/-- **All that can be asked of a gate has what everything has that handles records.** -/
theorem serves_perform (hg : g.Built pl) (h : GateM.Serves ⟨pl.label⟩ g now Fits Q) (a : Action) :
    Q (g.perform a) := by
  have hb : GateM.Serves g.breaker.shelf g now Fits Q := by rwa [hg.breaker_eq]
  have hm : GateM.Serves g.monitor.shelf g now Fits Q := by rwa [hg.monitor_eq]
  cases ha : a.tracker? with
  | some t =>
    exact closed_perform h.closed ha
      (fun path policy p _ hp => (serves_asks hg h hp t).judge h.closed path)
      (fun k hk => serves_record hb (named_of_owns hk))
      (fun k hk => serves_reset hb (named_of_owns hk))
      (fun k hk => serves_status hb (named_of_owns hk))
      (hm.recover (g.monitor.looks_tryStats t).handles _ _)
  | none =>
    cases a with
    | top limit =>
      exact h.closed.bind (hm.recover (g.monitor.looks_tryTop limit).handles _ _) fun _ =>
        h.closed.pure _
    | onPath path =>
      exact h.closed.bind (hm.recover (g.monitor.looks_tryOnPath path).handles _ _) fun _ =>
        h.closed.pure _
    | _ => cases ha

end Gate

end Turnstile
