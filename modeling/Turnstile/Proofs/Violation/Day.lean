import Std.Data.String.ToNat
import Turnstile.Proofs.Touches
import Turnstile.Proofs.Word

/-!
# The records of a day and of an hour

What is kept of a day stands under names with the number of the day in them.  No two of these names
are the same, and all of it outlives the day, as it is kept for as long as a day lasts from an
instant within it.  The same is true of an hour.

* `Violation.OnDay`, `Violation.OnHour`: the instants of a day and of an hour.
* `Violation.lt_dayEnd`, `Violation.lt_hourEnd`: what is kept for a day or an hour outlives it.
* `Monitor.OfDay`: the keys of a day, and `Monitor.ofDay_inj`: days have no key in common.
* `Monitor.dayKey_inj`, `Monitor.pathKey_inj`, `Monitor.rosterKey_inj`, `Monitor.hourKey_inj`: the
  keys of different records differ.
-/

set_option autoImplicit false

namespace Turnstile

namespace Violation

/-- The instants of a day; the largest word is none. -/
def OnDay (d now : UInt64) : Prop := dayOf now = d ∧ now < maxWord

theorem toNat_dayOf (now : UInt64) : (dayOf now).toNat = now.toNat / 86400000 := UInt64.toNat_div ..

theorem lt_dayEnd {d s now : UInt64} (hs : OnDay d s) (hnow : OnDay d now) :
    now < satAdd s Monitor.day.millis := by
  have hday : now.toNat / 86400000 = s.toNat / 86400000 := by
    rw [← toNat_dayOf, ← toNat_dayOf, hnow.1, hs.1]
  have hmillis : Monitor.day.millis = 86400000 := Duration.millis_ofMillis dayMillis
  rw [lt_satAdd_iff hnow.2, hmillis]
  show now.toNat < s.toNat + 86400000
  omega

/-- The instants of an hour; the largest word is none. -/
def OnHour (h now : UInt64) : Prop := hourOf now = h ∧ now < maxWord

theorem lt_hourEnd {h s now : UInt64} (hs : OnHour h s) (hnow : OnHour h now) :
    now < satAdd s Monitor.hour.millis := by
  have htoNat : ∀ u, (hourOf u).toNat = u.toNat / 3600000 := fun u => UInt64.toNat_div ..
  have hhour : now.toNat / 3600000 = s.toNat / 3600000 := by
    rw [← htoNat, ← htoNat, hnow.1, hs.1]
  have hmillis : Monitor.hour.millis = 3600000 := Duration.millis_ofMillis hourMillis
  rw [lt_satAdd_iff hnow.2, hmillis]
  show now.toNat < s.toNat + 3600000
  omega

/-! ## Names -/

theorem colon_notMem_numeral (n : Nat) : ':' ∉ (numeral n).toList := by
  intro h
  rw [numeral, Nat.toList_repr] at h
  exact absurd (Nat.isDigit_of_mem_toDigits (by decide) (by decide) h) (by decide)

theorem append_colon_inj {as bs xs ys : List Char} (ha : ':' ∉ as) (hb : ':' ∉ bs)
    (h : as ++ ':' :: xs = bs ++ ':' :: ys) : as = bs ∧ xs = ys := by
  induction as generalizing bs with
  | nil =>
    cases bs with
    | nil => exact ⟨rfl, (List.cons.inj h).2⟩
    | cons b bs => exact absurd ((List.cons.inj h).1 ▸ List.mem_cons_self) hb
  | cons a as ih =>
    cases bs with
    | nil => exact absurd ((List.cons.inj h).1 ▸ List.mem_cons_self) ha
    | cons b bs =>
      obtain ⟨rfl, htail⟩ := List.cons.inj h
      obtain ⟨rfl, hrest⟩ := ih (fun hm => ha (List.mem_cons_of_mem a hm))
        (fun hm => hb (List.mem_cons_of_mem a hm)) htail
      exact ⟨rfl, hrest⟩

/-- A part without colons ends at the first colon. -/
theorem part_append_inj {a b x y : String} (ha : ':' ∉ a.toList) (hb : ':' ∉ b.toList)
    (h : a ++ (":" ++ x) = b ++ (":" ++ y)) : a = b ∧ x = y := by
  have h := congrArg String.toList h
  simp only [String.toList_append, show ":".toList = [':'] from rfl, List.singleton_append] at h
  obtain ⟨hpart, hrest⟩ := append_colon_inj ha hb h
  exact ⟨String.toList_inj.mp hpart, String.toList_inj.mp hrest⟩

/-- A numeral ends at the first colon. -/
theorem numeral_append_inj {m n : Nat} {x y : String}
    (h : numeral m ++ (":" ++ x) = numeral n ++ (":" ++ y)) : m = n ∧ x = y := by
  obtain ⟨hnumeral, hrest⟩ := part_append_inj (colon_notMem_numeral m) (colon_notMem_numeral n) h
  exact ⟨Nat.repr_injective hnumeral, hrest⟩

end Violation

namespace Monitor

open Violation

variable {m : Monitor} {d e : UInt64}

/-- The key of a record of a day. -/
def ofDayKey (m : Monitor) (d : UInt64) (rest : String) : String :=
  m.shelf.key ("vm:day:" ++ (numeral d.toNat ++ (":" ++ rest)))

/-- The keys of a day. -/
def OfDay (m : Monitor) (d : UInt64) (key : String) : Prop := ∃ rest, key = m.ofDayKey d rest

theorem ofDayKey_inj {x y : String} (h : m.ofDayKey d x = m.ofDayKey e y) : d = e ∧ x = y := by
  have h := congrArg String.toList (Shelf.key_inj h)
  rw [String.toList_append, String.toList_append (s := "vm:day:")] at h
  obtain ⟨hday, hrest⟩ := numeral_append_inj (String.toList_inj.mp (List.append_cancel_left h))
  exact ⟨UInt64.toNat.inj hday, hrest⟩

theorem ofDayKey_ne {x y : String} (h : x ≠ y) : m.ofDayKey d x ≠ m.ofDayKey e y :=
  fun hkey => h (ofDayKey_inj hkey).2

/-- Two days have no key in common. -/
theorem ofDay_inj {key : String} (hd : m.OfDay d key) (he : m.OfDay e key) : d = e := by
  obtain ⟨x, rfl⟩ := hd
  obtain ⟨y, hy⟩ := he
  exact (ofDayKey_inj hy).1

theorem dayKey_eq (m : Monitor) (d : UInt64) (x : String) :
    m.shelf.key (dayName d x) = m.ofDayKey d ("tracker:" ++ x) := by
  simp [dayName, ofDayKey, ← String.append_assoc]

theorem pathKey_eq (m : Monitor) (d : UInt64) (path : String) :
    m.shelf.key (pathName d path) = m.ofDayKey d ("path:" ++ path) := by
  simp [pathName, ofDayKey, ← String.append_assoc]

theorem rosterKey_eq (m : Monitor) (d : UInt64) (number : Nat) :
    m.shelf.key (rosterName d number) = m.ofDayKey d ("violators:" ++ numeral number) := by
  simp [rosterName, ofDayKey, ← String.append_assoc]

theorem ofDay_dayKey (m : Monitor) (d : UInt64) (x : String) :
    m.OfDay d (m.shelf.key (dayName d x)) := ⟨_, m.dayKey_eq d x⟩

theorem ofDay_pathKey (m : Monitor) (d : UInt64) (path : String) :
    m.OfDay d (m.shelf.key (pathName d path)) := ⟨_, m.pathKey_eq d path⟩

theorem ofDay_rosterKey (m : Monitor) (d : UInt64) (number : Nat) :
    m.OfDay d (m.shelf.key (rosterName d number)) := ⟨_, m.rosterKey_eq d number⟩

/-- The minutes of a tracker are counted under no key of a day. -/
theorem not_ofDay_minuteKey (t : Tracker) : ¬ m.OfDay d (m.shelf.key (minuteName t)) := by
  rintro ⟨rest, h⟩
  have h := congrArg String.toList (Shelf.key_inj h)
  simp [minuteName] at h

theorem dayKey_inj {x y : String} (h : m.shelf.key (dayName d x) = m.shelf.key (dayName e y)) :
    d = e ∧ x = y := by
  rw [dayKey_eq, dayKey_eq] at h
  obtain ⟨hday, hname⟩ := ofDayKey_inj h
  exact ⟨hday, by simpa [String.ext_iff] using hname⟩

theorem pathKey_inj {x y : String} (h : m.shelf.key (pathName d x) = m.shelf.key (pathName e y)) :
    d = e ∧ x = y := by
  rw [pathKey_eq, pathKey_eq] at h
  obtain ⟨hday, hname⟩ := ofDayKey_inj h
  exact ⟨hday, by simpa [String.ext_iff] using hname⟩

theorem rosterKey_inj {j k : Nat}
    (h : m.shelf.key (rosterName d j) = m.shelf.key (rosterName e k)) : d = e ∧ j = k := by
  rw [rosterKey_eq, rosterKey_eq] at h
  obtain ⟨hday, hname⟩ := ofDayKey_inj h
  refine ⟨hday, Nat.repr_injective (String.toList_inj.mp ?_)⟩
  have hname := congrArg String.toList hname
  rw [String.toList_append, String.toList_append] at hname
  exact List.append_cancel_left hname

theorem dayKey_ne_rosterKey (m : Monitor) (d e : UInt64) (x : String) (k : Nat) :
    m.shelf.key (dayName d x) ≠ m.shelf.key (rosterName e k) := by
  rw [dayKey_eq, rosterKey_eq]
  exact ofDayKey_ne (by simp [String.ext_iff])

theorem dayKey_ne_pathKey (m : Monitor) (d e : UInt64) (x path : String) :
    m.shelf.key (dayName d x) ≠ m.shelf.key (pathName e path) := by
  rw [dayKey_eq, pathKey_eq]
  exact ofDayKey_ne (by simp [String.ext_iff])

theorem rosterKey_ne_pathKey (m : Monitor) (d e : UInt64) (k : Nat) (path : String) :
    m.shelf.key (rosterName d k) ≠ m.shelf.key (pathName e path) := by
  rw [rosterKey_eq, pathKey_eq]
  exact ofDayKey_ne (by simp [String.ext_iff])

/-! ## Hours -/

/-- The key of the outcomes of a tracker in an hour. -/
def hourKey (m : Monitor) (h : UInt64) (t : Tracker) : String :=
  m.shelf.key ("vm:hour:" ++ (numeral h.toNat ++ (":" ++ t.key)))

theorem hourKey_eq (m : Monitor) (now : UInt64) (t : Tracker) :
    m.shelf.key (hourName now t) = m.hourKey (hourOf now) t := by
  simp [hourName, hourKey, ← String.append_assoc]

theorem hourKey_inj {h h' : UInt64} {t u : Tracker} (heq : m.hourKey h t = m.hourKey h' u) :
    h = h' ∧ t = u := by
  have heq := congrArg String.toList (Shelf.key_inj heq)
  rw [String.toList_append, String.toList_append (s := "vm:hour:")] at heq
  obtain ⟨hhour, htracker⟩ := numeral_append_inj (String.toList_inj.mp (List.append_cancel_left heq))
  exact ⟨UInt64.toNat.inj hhour, Tracker.key_inj.mp htracker⟩

theorem under_hourKey (m : Monitor) (h : UInt64) (t : Tracker) :
    m.shelf.Under "vm:" (m.hourKey h t) :=
  ⟨"hour:" ++ (numeral h.toNat ++ (":" ++ t.key)), by simp [hourKey, ← String.append_assoc]⟩

/-- The outcomes of an hour are under no key of a day. -/
theorem not_ofDay_hour (h : UInt64) (t : Tracker) : ¬ m.OfDay d (m.hourKey h t) := by
  rintro ⟨rest, heq⟩
  have heq := congrArg String.toList (Shelf.key_inj heq)
  simp at heq

theorem not_ofDay_hourKey (now : UInt64) (t : Tracker) :
    ¬ m.OfDay d (m.shelf.key (hourName now t)) := by
  rw [hourKey_eq]
  exact not_ofDay_hour _ t

theorem minuteKey_ne_hourKey (m : Monitor) (h : UInt64) (t u : Tracker) :
    m.shelf.key (minuteName u) ≠ m.hourKey h t := by
  intro heq
  have heq := congrArg String.toList (Shelf.key_inj heq)
  simp [minuteName] at heq

end Monitor

end Turnstile
