import Turnstile.Proofs.Gate.Uses
import Turnstile.Proofs.Violation.Day

/-!
# What a gate keeps

A gate keeps records of a few kinds, each under names of its own, and all that it ever reads or
writes is one of them.  What it writes depends on what it has read under the same name, on the
instant and on the settings; and so does the time to live that it writes with.

* `Holding`: the kinds of records, with their types and their names.
* `Holding.eq_of_named`: a name says the kind, except that counters of windows and logs share names.
* `Gate.Writes`: what is written, and for how long, one case for each place that writes.
* `StoreM.Looks`, `StoreM.Handles`: operations that read records, and that read and write them.
-/

set_option autoImplicit false

namespace Turnstile

open Violation

/-- The kinds of records that a gate keeps. -/
inductive Holding where
  | circuit
  /-- The requests of a fixed window. -/
  | window
  /-- The requests of a sliding window. -/
  | log
  | block
  | outcomes
  | roster
  /-- The violations of a tracker or on a path. -/
  | counter
  deriving DecidableEq

namespace Holding

@[reducible] def Record : Holding → Type
  | circuit => Circuit
  | window => WindowCounter
  | log => SlidingLog
  | block => Block
  | outcomes => Outcomes
  | roster => Roster
  | counter => Counter

instance : (h : Holding) → Binary h.Record
  | circuit => inferInstanceAs (Binary Circuit)
  | window => inferInstanceAs (Binary WindowCounter)
  | log => inferInstanceAs (Binary SlidingLog)
  | block => inferInstanceAs (Binary Block)
  | outcomes => inferInstanceAs (Binary Outcomes)
  | roster => inferInstanceAs (Binary Roster)
  | counter => inferInstanceAs (Binary Counter)

/-- The names of the records of a kind. -/
def Named : Holding → String → Prop
  | circuit, name => ∃ rest, name = "cb" ++ rest
  | window, name | log, name => ∃ rest, name = "rl:" ++ rest
  | block, name => ∃ rest, name = "rl-block:" ++ rest
  | outcomes, name => ∃ now t, name = hourName now t
  | roster, name => ∃ d number, name = rosterName d number
  | counter, name =>
    (∃ d x, name = dayName d x) ∨ (∃ d path, name = pathName d path) ∨ ∃ t, name = minuteName t

/-- The kinds of records that count the requests of a window. -/
def Limits (h : Holding) : Prop := h = window ∨ h = log

instance (h : Holding) : Decidable h.Limits := inferInstanceAs (Decidable (_ ∨ _))

/-- What the names of a kind start with. -/
def heads : Holding → List String
  | circuit => ["cb"]
  | window | log => ["rl:"]
  | block => ["rl-block:"]
  | outcomes => ["vm:hour:"]
  | roster => ["vm:day:"]
  | counter => ["vm:day:", "vm:minute:"]

variable {h k : Holding} {name : String}

theorem head_of_named (hname : h.Named name) : ∃ x ∈ h.heads, ∃ rest, name = x ++ rest := by
  cases h
  case circuit | window | log | block =>
    obtain ⟨rest, rfl⟩ := hname
    exact ⟨_, List.mem_singleton_self _, rest, rfl⟩
  case outcomes =>
    obtain ⟨now, t, rfl⟩ := hname
    exact ⟨_, List.mem_singleton_self _, numeral (hourOf now).toNat ++ ":" ++ t.key,
      by simp [hourName, ← String.append_assoc]⟩
  case roster =>
    obtain ⟨d, number, rfl⟩ := hname
    exact ⟨_, List.mem_singleton_self _, numeral d.toNat ++ ":violators:" ++ numeral number,
      by simp [rosterName, ← String.append_assoc]⟩
  case counter =>
    obtain ⟨d, x, rfl⟩ | ⟨d, path, rfl⟩ | ⟨t, rfl⟩ := hname
    · exact ⟨_, List.mem_cons_self, numeral d.toNat ++ ":tracker:" ++ x,
        by simp [dayName, ← String.append_assoc]⟩
    · exact ⟨_, List.mem_cons_self, numeral d.toNat ++ ":path:" ++ path,
        by simp [pathName, ← String.append_assoc]⟩
    · exact ⟨_, List.mem_cons_of_mem _ List.mem_cons_self, t.key, rfl⟩

theorem not_counter_of_roster (hroster : roster.Named name) : ¬ counter.Named name := by
  obtain ⟨d, number, rfl⟩ := hroster
  let m : Monitor := ⟨⟨""⟩, .standard⟩
  rintro (⟨e, x, heq⟩ | ⟨e, path, heq⟩ | ⟨t, heq⟩)
  · exact m.dayKey_ne_rosterKey e d x number (congrArg m.shelf.key heq.symm)
  · exact m.rosterKey_ne_pathKey d e number path (congrArg m.shelf.key heq)
  · exact Monitor.not_ofDay_minuteKey (m := m) t ⟨_, heq ▸ m.rosterKey_eq d number⟩

/-- Only windows and logs, and rosters and counters, have names that start alike. -/
theorem kinds_of_heads (h k : Holding) : ∀ x ∈ h.heads, ∀ y ∈ k.heads,
    x.toList <+: y.toList ∨ y.toList <+: x.toList →
      h = k ∨ h.Limits ∧ k.Limits ∨ h = roster ∧ k = counter ∨ h = counter ∧ k = roster := by
  cases h <;> cases k <;> decide

/-- **A name says the kind of its record**, unless it is that of a window. -/
theorem eq_of_named (hh : h.Named name) (hk : k.Named name) : h = k ∨ h.Limits ∧ k.Limits := by
  obtain ⟨x, hx, rest, hxname⟩ := head_of_named hh
  obtain ⟨y, hy, rest', hyname⟩ := head_of_named hk
  have hlist := congrArg String.toList (hxname.symm.trans hyname)
  rw [String.toList_append, String.toList_append] at hlist
  have hstarts := List.prefix_or_prefix_of_prefix ⟨_, hlist⟩ ⟨_, rfl⟩
  obtain heq | hlimits | ⟨rfl, rfl⟩ | ⟨rfl, rfl⟩ := kinds_of_heads h k x hx y hy hstarts
  · exact .inl heq
  · exact .inr hlimits
  · exact absurd hk (not_counter_of_roster hh)
  · exact absurd hh (not_counter_of_roster hk)

end Holding

/-! ## What is written -/

/-- What a gate writes at an instant under a name of some kind, given what it has read there, and
the time to live that it writes with.  A running window or counter is written until the instant at
which it is over; everything else is written for a span of the settings. -/
inductive Gate.Writes (g : Gate) (now : UInt64) :
    (h : Holding) → Option h.Record → h.Record → Duration → Prop
  | circuit (read : Option Circuit) (c : Circuit) :
    Writes g now .circuit read c g.breaker.settings.recordTtl
  | window {p : Policy} (hp : p ∈ g.policies.policies) (read : Option WindowCounter) :
    Writes g now .window read (WindowCounter.next read p now)
      (.ofMillis (satSub ((WindowCounter.next read p now).resetAt p) now))
  | log {p : Policy} (hp : p ∈ g.policies.policies) (read : Option SlidingLog) :
    Writes g now .log read ((read.getD .empty).next p now) (p.windowSpan.add Limiter.logGrace)
  | block {p : Policy} (hp : p ∈ g.policies.policies) {length : UInt64}
    (hblock : p.block = some length) (read : Option Block) :
    Writes g now .block read ⟨satAdd now length⟩ (.ofMillis length)
  | outcomes (read : Option Outcomes) (allowed : Bool) :
    Writes g now .outcomes read ((read.getD .none).add allowed) Monitor.hour
  | roster (read : Option Roster) (r : Roster) : Writes g now .roster read r Monitor.day
  | counter (read : Option Counter) {ttl : Duration} (httl : ttl = Monitor.day ∨ ttl = Monitor.minute) :
    Writes g now .counter read (Counter.next read now ttl)
      (.ofMillis (satSub (Counter.next read now ttl).endsAt now))

/-! ## Operations on records -/

/-- Operations on the store that do nothing but read records for which somebody may ask. -/
inductive StoreM.Looks (s : Shelf) : {α : Type} → StoreM α → Prop
  | pure {α : Type} (a : α) : Looks s (pure a : StoreM α)
  | bind {α β : Type} {x : StoreM α} {f : α → StoreM β} (hx : Looks s x)
    (hf : ∀ a, Looks s (f a)) : Looks s (x >>= f)
  | now : Looks s (liftM GateM.now : StoreM UInt64)
  | load (h : Holding) (hasked : ¬ h.Limits) {name : String} (hname : h.Named name) :
    Looks s (s.load name : StoreM (Option h.Record))

/-- Operations on the store of a gate at an instant, which answer with a property.  Records are read
by their kinds, and what is written is one of the things that the gate writes.  If all records that
are read fit, then what is written was put together from records that fit. -/
inductive StoreM.Handles (s : Shelf) (g : Gate) (now : UInt64)
    (Fits : (h : Holding) → h.Record → Prop) : {α : Type} → (α → Prop) → StoreM α → Prop
  | pure {α : Type} {P : α → Prop} {a : α} (ha : P a) : Handles s g now Fits P (pure a)
  | bind {α β : Type} {P : α → Prop} {R : β → Prop} {x : StoreM α} {f : α → StoreM β}
    (hx : Handles s g now Fits P x) (hf : ∀ a, P a → Handles s g now Fits R (f a)) :
    Handles s g now Fits R (x >>= f)
  | now : Handles s g now Fits (· = now) (liftM GateM.now : StoreM UInt64)
  | log (e : Event) : Handles s g now Fits (fun _ => True) (liftM (GateM.log e) : StoreM Unit)
  | count (f : Metrics → Metrics) :
    Handles s g now Fits (fun _ => True) (liftM (GateM.count f) : StoreM Unit)
  | load (h : Holding) {name : String} (hname : h.Named name) :
    Handles s g now Fits (fun read => ∀ a ∈ read, Fits h a) (s.load name : StoreM (Option h.Record))
  | save {h : Holding} {name : String} (hname : h.Named name) {read : Option h.Record}
    {a : h.Record} {ttl : Duration} (hread : ∀ r ∈ read, Fits h r)
    (hwrites : g.Writes now h read a ttl) :
    Handles s g now Fits (fun _ => True) (s.save name a (some ttl))
  | remove (h : Holding) {name : String} (hname : h.Named name) :
    Handles s g now Fits (fun _ => True) (s.remove name)

end Turnstile
