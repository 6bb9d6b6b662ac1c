import Turnstile.Proofs.Gate.Build
import Turnstile.Proofs.Gate.Uses
import Turnstile.Proofs.Violation.Day

/-!
# Where a gate keeps what it knows of a tracker

What limiter, breaker and monitor keep of a tracker stands under names that end in its key.  The
first letters of a name say what is kept, and the name of a policy or the number of an hour or a day
ends at the first colon after them.  So as long as no policy has a colon in its name, the name of a
record says what is kept, and of whom.

* `Place`: what is kept of a tracker.
* `Place.name_inj`: different places, and those of different trackers, have different names.
* `Gate.place`: the key of a place, `Gate.place_inj`, and the keys of limiter, breaker and monitor.
* `Gate.Of`: the keys of a tracker, and `Gate.of_inj`: two trackers have no key in common.
-/

set_option autoImplicit false

namespace Turnstile

open Circuit (Key)
open Violation

/-- What a gate keeps of a tracker. -/
inductive Place where
  | circuit
  | circuitFor (policy : String)
  | window (policy : String)
  | block (policy : String)
  | hour (h : UInt64)
  | day (d : UInt64)
  | minute

namespace Place

/-- What the name of a place starts with. -/
def head : Place → String
  | circuit => "cb:"
  | circuitFor _ => "cb@"
  | window _ => "rl:"
  | block _ => "rl-block:"
  | hour _ => "vm:hour:"
  | day _ => "vm:day:"
  | minute => "vm:minute:"

/-- The rest of the name. -/
def rest (t : Tracker) : Place → String
  | circuit | minute => t.key
  | circuitFor policy | window policy | block policy => policy ++ (":" ++ t.key)
  | hour h => numeral h.toNat ++ (":" ++ t.key)
  | day d => numeral d.toNat ++ (":" ++ ("tracker:" ++ t.key))

def name (t : Tracker) (a : Place) : String := a.head ++ a.rest t

/-- The policy of a place has no colon in its name. -/
def Plain : Place → Prop
  | circuitFor policy | window policy | block policy => ':' ∉ policy.toList
  | _ => True

variable {a b : Place} {t u : Tracker}

/-- No head starts with another one. -/
theorem head_append_inj {x y : String} (h : a.head ++ x = b.head ++ y) : a.head = b.head ∧ x = y := by
  cases a <;> cases b <;> simp_all [head, String.ext_iff]

/-- **The name of a record says what is kept, and of whom.** -/
theorem name_inj (ha : a.Plain) (hb : b.Plain) (h : a.name t = b.name u) : a = b ∧ t = u := by
  obtain ⟨hhead, hrest⟩ := head_append_inj h
  cases a <;> cases b <;> simp [head] at hhead
  case circuit.circuit => exact ⟨rfl, Tracker.key_inj.mp hrest⟩
  case minute.minute => exact ⟨rfl, Tracker.key_inj.mp hrest⟩
  case circuitFor.circuitFor =>
    obtain ⟨rfl, hkey⟩ := part_append_inj ha hb hrest
    exact ⟨rfl, Tracker.key_inj.mp hkey⟩
  case window.window =>
    obtain ⟨rfl, hkey⟩ := part_append_inj ha hb hrest
    exact ⟨rfl, Tracker.key_inj.mp hkey⟩
  case block.block =>
    obtain ⟨rfl, hkey⟩ := part_append_inj ha hb hrest
    exact ⟨rfl, Tracker.key_inj.mp hkey⟩
  case hour.hour h h' =>
    obtain ⟨hhour, hkey⟩ := numeral_append_inj hrest
    exact ⟨by rw [UInt64.toNat.inj hhour], Tracker.key_inj.mp hkey⟩
  case day.day d d' =>
    obtain ⟨hday, hkey⟩ := numeral_append_inj hrest
    exact ⟨by rw [UInt64.toNat.inj hday], Tracker.key_inj.mp (by simpa [String.ext_iff] using hkey)⟩

end Place

namespace Gate

variable {pl : Plan} {g : Gate} {t u : Tracker} {p : Policy} {a b : Place} {d : UInt64} {key : String}

/-! ## Areas -/

/-- The keys that are none of the monitor's. -/
def Elsewhere (g : Gate) (key : String) : Prop := ¬ g.monitor.shelf.Under "vm:" key

theorem elsewhere_of_owns (hg : g.Built pl) {key : Key} (h : g.Owns t key) :
    g.Elsewhere (g.breaker.shelf.key key.text) := by
  have hname : ∃ name, key.text = "cb" ++ name := by
    rcases h with rfl | ⟨p, _, rfl⟩
    · exact ⟨":" ++ t.key, by simp [Key.ofTracker, ← String.append_assoc]⟩
    · exact ⟨"@" ++ p.name ++ ":" ++ t.key, by simp [Key.scoped, ← String.append_assoc]⟩
  obtain ⟨name, hname⟩ := hname
  rw [hname, Elsewhere, hg.monitor_eq, hg.breaker_eq]
  exact Shelf.not_under (by decide) (by decide) _ name

theorem elsewhere_of_limiter (hg : g.Built pl) {key : String}
    (h : g.limiter.shelf.Under "rl" key) : g.Elsewhere key := by
  obtain ⟨name, rfl⟩ := h
  rw [Elsewhere, hg.monitor_eq, hg.limiter_eq]
  exact Shelf.not_under (by decide) (by decide) _ name

/-! ## Places -/

/-- The key of a place. -/
def place (g : Gate) (t : Tracker) (a : Place) : String := g.monitor.shelf.key (a.name t)

theorem place_inj (ha : a.Plain) (hb : b.Plain) (h : g.place t a = g.place u b) : a = b ∧ t = u :=
  Place.name_inj ha hb (Shelf.key_inj h)

theorem key_ofTracker (hg : g.Built pl) (t : Tracker) :
    g.breaker.shelf.key (Key.ofTracker t).text = g.place t .circuit := by
  rw [place, hg.breaker_eq, hg.monitor_eq]
  rfl

theorem key_scoped (hg : g.Built pl) (t : Tracker) (policy : String) :
    g.breaker.shelf.key (Key.scoped t policy).text = g.place t (.circuitFor policy) := by
  rw [place, hg.breaker_eq, hg.monitor_eq]
  simp [Key.scoped, Place.name, Place.head, Place.rest, ← String.append_assoc]

theorem key_window (hg : g.Built pl) (t : Tracker) (p : Policy) :
    g.limiter.shelf.key (Limiter.windowName t p) = g.place t (.window p.name) := by
  rw [place, hg.limiter_eq, hg.monitor_eq]
  simp [Limiter.windowName, Place.name, Place.head, Place.rest, ← String.append_assoc]

theorem key_block (hg : g.Built pl) (t : Tracker) (p : Policy) :
    g.limiter.shelf.key (Limiter.blockName t p) = g.place t (.block p.name) := by
  rw [place, hg.limiter_eq, hg.monitor_eq]
  simp [Limiter.blockName, Place.name, Place.head, Place.rest, ← String.append_assoc]

theorem key_hour (g : Gate) (now : UInt64) (t : Tracker) :
    g.monitor.shelf.key (hourName now t) = g.place t (.hour (hourOf now)) := by
  simp [place, hourName, Place.name, Place.head, Place.rest, ← String.append_assoc]

theorem key_day (g : Gate) (d : UInt64) (t : Tracker) :
    g.monitor.shelf.key (dayName d t.key) = g.place t (.day d) := by
  simp [place, dayName, Place.name, Place.head, Place.rest, ← String.append_assoc]

theorem key_minute (g : Gate) (t : Tracker) :
    g.monitor.shelf.key (minuteName t) = g.place t .minute := rfl

/-- What is not kept of a day is under no key of a day. -/
theorem not_ofDay_place (h : ∀ e, a ≠ .day e) : ¬ g.monitor.OfDay d (g.place t a) := by
  rintro ⟨rest, hkey⟩
  obtain ⟨hhead, _⟩ := Place.head_append_inj (b := .day d) (Shelf.key_inj hkey)
  cases a <;> simp [Place.head] at hhead h

/-! ## The keys of a tracker -/

/-- The keys of a tracker. -/
def Of (g : Gate) (t : Tracker) (key : String) : Prop := ∃ a : Place, a.Plain ∧ key = g.place t a

/-- **Two trackers have no key in common.** -/
theorem of_inj (h : g.Of t key) (h' : g.Of u key) : t = u := by
  obtain ⟨a, ha, rfl⟩ := h
  obtain ⟨b, hb, hkey⟩ := h'
  exact (place_inj ha hb hkey).2

end Gate

end Turnstile
