import Turnstile.Proofs.Circuit.Later
import Turnstile.Proofs.Circuit.Slot
import Turnstile.Proofs.Env.Coupled
import Turnstile.Proofs.Env.Healthy
import Turnstile.Proofs.Gate.Places
import Turnstile.Proofs.Gate.Timely

/-!
# Surroundings that are apart in time

Where one run happens later than another one by some span, its store has everything later: the same
records, in which all instants are moved by the span, with deadlines that are moved as well.  It is
so for the records that decisions are made from; the monitor counts by the hour and the day, and
what it keeps is not looked at.

* `Holding.later`, `Holding.Sound`: records that are moved, and records that may be.
* `Holding.Apart`: what the two stores have under a key, and `Holding.apart_written`: what is
  written.
* `Gate.Apart`, `Gate.Abreast`: surroundings that are apart, and those at the same step of two runs.
* `Gate.coupled_load`, `Gate.coupled_save`, `Gate.coupled_remove`: records by name.
* `Gate.coupled_unseen`: what the monitor does.
-/

set_option autoImplicit false

namespace Turnstile

namespace Holding

/-! ## Records -/

/-- A record that decisions are made from, with all instants in it moved. -/
def later (d : UInt64) : (h : Holding) → h.Record → h.Record
  | circuit, c => c.later d
  | window, c => c.later d
  | log, l => l.later d
  | block, b => b.later d
  | _, a => a

/-- A record as it is at an instant, in which all instants can be moved. -/
def Sound (d now : UInt64) : (h : Holding) → h.Record → Prop
  | circuit, c => c.Settled now
  | block, b => b.endsAt.toNat + d.toNat < wordCount
  | h, a => h.Timely now a

variable {d now : UInt64} {h k : Holding} {name : String}

theorem Sound.mono {instant : UInt64} (hle : now ≤ instant) {a : h.Record} (ha : h.Sound d now a) :
    h.Sound d instant a := by
  cases h with
  | circuit => exact Circuit.Settled.mono ha hle
  | block => exact ha
  | _ =>
    have ha : Timely now _ a := ha
    exact ha.mono hle

/-- A window that is read in words is read in moved words as a moved window. -/
theorem read?_words_later (hk : k.Limits) (count : UInt64) (times : List UInt64) :
    (Binary.read? (Binary.words (count :: times.map (· + d))) : Option k.Record) =
      (Binary.read? (Binary.words (count :: times))).map (k.later d) := by
  obtain rfl | rfl := hk
  · cases times with
    | nil =>
      have hread := WindowCounter.read?_word count
      exact hread.trans (congrArg (Option.map (later d window)) hread).symm
    | cons start rest =>
      have hread := WindowCounter.read?_words count start rest
      exact (WindowCounter.read?_words count (start + d) _).trans
        (congrArg (Option.map (later d window)) hread).symm
  · refine (SlidingLog.read?_words count _).trans ?_
    refine Eq.trans ?_ (congrArg (Option.map (later d log)) (SlidingLog.read?_words count times)).symm
    rw [List.length_map, List.map_take.symm]
    split <;> rfl

/-- What is read where a moved record was written, by whatever kind of record. -/
theorem reread_later (hh : h.Named name) (hk : k.Named name) (hdecides : h.Decides) (a : h.Record) :
    (Binary.read? (Binary.encode (h.later d a)) : Option k.Record) =
      (Binary.read? (Binary.encode a)).map (k.later d) := by
  have hlimits (hh : h.Limits) (hk : k.Limits) :
      (Binary.read? (Binary.encode (h.later d a)) : Option k.Record) =
        (Binary.read? (Binary.encode a)).map (k.later d) := by
    obtain rfl | rfl := hh
    · rw [show Binary.encode a = _ from WindowCounter.encode_eq a]
      exact (congrArg Binary.read? (WindowCounter.encode_eq _)).trans
        (read?_words_later hk a.hits [a.start])
    · have hlength : (a.times.map (· + d)).length = a.times.length := List.length_map _
      refine Eq.trans ?_ (read?_words_later hk (UInt64.ofNat a.times.length) a.times)
      rw [← hlength]
      rfl
  obtain rfl | ⟨hh, hk⟩ := eq_of_named hh hk
  · obtain rfl | hh | rfl := hdecides
    · have hexact : ∀ c : Circuit, Binary.read? (Binary.encode c) = some c := fun c =>
        Binary.read?_encode (Circuit.exact_circuit c)
      exact (hexact _).trans (congrArg (Option.map (later d circuit)) (hexact a)).symm
    · exact hlimits hh hh
    · have hexact : ∀ b : Block, Binary.read? (Binary.encode b) = some b := fun b =>
        Binary.read?_encode (Account.exact_block b)
      exact (hexact _).trans (congrArg (Option.map (later d block)) (hexact a)).symm
  · exact hlimits hh hk

theorem sound_reread (hh : h.Named name) (hk : k.Named name) {a : h.Record} (ha : h.Sound d now a)
    {b : k.Record} (hread : Binary.read? (Binary.encode a) = some b) : k.Sound d now b := by
  obtain rfl | ⟨hlimits, hlimits'⟩ := eq_of_named hh hk
  · cases h with
    | circuit =>
      cases (Binary.read?_encode (Circuit.exact_circuit a)).symm.trans hread
      exact ha
    | block =>
      cases (Binary.read?_encode (Account.exact_block a)).symm.trans hread
      exact ha
    | _ =>
      have ha : Timely now _ a := ha
      exact timely_reread hh hk ha hread
  · have ha : Timely now _ a := by obtain rfl | rfl := hlimits <;> exact ha
    have hb : Timely now _ b := timely_reread hh hk ha hread
    obtain rfl | rfl := hlimits' <;> exact hb

/-! ## Slots -/

/-- Two slots for records of a kind are empty, or they have the same record, and in the second one
it is later, and so is its deadline. -/
inductive Apart (d now : UInt64) (h : Holding) : Option Entry → Option Entry → Prop
  | none : Apart d now h none none
  | some {value value' : Bytes} {deadline : UInt64} (hroom : deadline.toNat + d.toNat < wordCount)
    (hread : (Binary.read? value' : Option h.Record) = (Binary.read? value).map (h.later d))
    (hsound : ∀ a : h.Record, Binary.read? value = Option.some a → h.Sound d now a) :
    Apart d now h (some ⟨value, deadline⟩) (some ⟨value', Option.some (deadline + d)⟩)

variable {slot slot' : Option Entry}

theorem Apart.mono {instant : UInt64} (hle : now ≤ instant) (hapart : h.Apart d now slot slot') :
    h.Apart d instant slot slot' := by
  cases hapart with
  | none => exact .none
  | some hroom hread hsound => exact .some hroom hread fun a ha => (hsound a ha).mono hle

/-- What is written is apart, whatever kind of record is looked for there. -/
theorem apart_written (hh : h.Named name) (hk : k.Named name) (hdecides : h.Decides) {a : h.Record}
    (ha : h.Sound d now a) {ttl : Duration}
    (hroom : now.toNat + d.toNat + ttl.millis.toNat < wordCount) :
    k.Apart d now (some (TimedMap.entryAt now (Binary.encode a) ttl))
      (some (TimedMap.entryAt (now + d) (Binary.encode (h.later d a)) ttl)) := by
  have hdeadline : (satAdd now ttl.millis).toNat + d.toNat < wordCount := by
    rw [toNat_satAdd]
    omega
  simp only [TimedMap.entryAt, Option.map_some, satAdd_add hroom]
  exact .some hdeadline (reread_later hh hk hdecides a) fun b hb => sound_reread hh hk ha hb

section Read

variable (hnow : now.toNat + d.toNat < wordCount)

include hnow

/-- An entry counts as long as the one that is moved does. -/
theorem holds_later {value value' : Bytes} {deadline : UInt64}
    (hroom : deadline.toNat + d.toNat < wordCount)
    (hread : (Binary.read? value' : Option h.Record) = (Binary.read? value).map (h.later d)) :
    (⟨value', some (deadline + d)⟩ : Entry).holds h.Record (now + d) =
      (⟨value, some deadline⟩ : Entry).holds h.Record now := by
  have hexpired : (decide (deadline + d ≤ now + d)) = decide (deadline ≤ now) :=
    decide_eq_decide.mpr (add_le_add_iff_of_lt hroom hnow)
  simp only [Entry.holds, Entry.expired, Option.any_some, hexpired, hread, Option.isSome_map]

/-- **What is read is the same record, later**, and what the reading leaves is apart. -/
theorem Apart.read (hapart : h.Apart d now slot slot') :
    recordIn h.Record (now + d) slot' = (recordIn h.Record now slot).map (h.later d) ∧
      (∀ a ∈ recordIn h.Record now slot, h.Sound d now a) ∧
      ∀ k : Holding, k.Apart d now slot slot' →
        k.Apart d now (readable h.Record now slot) (readable h.Record (now + d) slot') := by
  cases hapart with
  | none => exact ⟨rfl, nofun, fun _ hk => hk⟩
  | @some value value' deadline hroom hread hsound =>
    have hholds := holds_later hnow hroom hread
    unfold recordIn readable
    rw [Option.filter_some, Option.filter_some, hholds]
    split
    · exact ⟨hread, hsound, fun _ hk => hk⟩
    · exact ⟨rfl, nofun, fun _ _ => .none⟩

end Read

/-! ## Names -/

/-- Records that decisions are made from have names that no record of the monitor has. -/
theorem Decides.not_under (hdecides : h.Decides) (hname : h.Named name) (s : Shelf) :
    ¬ s.Under "vm:" (s.key name) := by
  obtain rfl | (rfl | rfl) | rfl := hdecides <;> obtain ⟨rest, rfl⟩ := hname <;>
    exact Shelf.not_under (by decide) (by decide) s rest

end Holding

/-! ## Surroundings -/

namespace Gate

/-- Healthy surroundings of which the second ones have everything later that decisions are made
from. -/
structure Apart (s : Shelf) (d now : UInt64) (env env' : Env) : Prop where
  healthy : env.Healthy
  healthy' : env'.Healthy
  slot : ∀ (h : Holding) (name : String), h.Decides → h.Named name →
    h.Apart d now (env.slot (s.key name)) (env'.slot (s.key name))

/-- Surroundings that are apart, with clocks that are apart. -/
structure Abreast (s : Shelf) (d now : UInt64) (env env' : Env) : Prop where
  apart : Apart s d now env env'
  now_eq : env.now = now
  now_eq' : env'.now = now + d

variable {α : Type} {s : Shelf} {d now : UInt64} {env env' env₁ env₁' : Env} {h : Holding}
  {name : String}

theorem Apart.mono {instant : UInt64} (hle : now ≤ instant) (hapart : Apart s d now env env') :
    Apart s d instant env env' :=
  ⟨hapart.healthy, hapart.healthy', fun h name hdecides hname =>
    (hapart.slot h name hdecides hname).mono hle⟩

/-- What changes nothing that decisions are made from. -/
theorem Abreast.of_frames {K : String → Prop} (habreast : Abreast s d now env env')
    (hf : Env.Frame K env env₁) (hf' : Env.Frame K env' env₁')
    (hK : ∀ (h : Holding) (name : String), h.Decides → h.Named name → ¬ K (s.key name)) :
    Abreast s d now env₁ env₁' where
  apart := by
    refine ⟨habreast.apart.healthy.of_frame hf, habreast.apart.healthy'.of_frame hf',
      fun h name hdecides hname => ?_⟩
    rw [hf.slot_eq _ (hK h name hdecides hname), hf'.slot_eq _ (hK h name hdecides hname)]
    exact habreast.apart.slot h name hdecides hname
  now_eq := hf.now_eq.trans habreast.now_eq
  now_eq' := hf'.now_eq.trans habreast.now_eq'

/-- What changes the slot of one record. -/
theorem Abreast.puts (habreast : Abreast s d now env env') {slot slot' : Option Entry}
    (hput : env.Puts (s.key name) slot env₁) (hput' : env'.Puts (s.key name) slot' env₁')
    (hslot : ∀ k : Holding, k.Decides → k.Named name → k.Apart d now slot slot') :
    Abreast s d now env₁ env₁' where
  apart := by
    refine ⟨hput.healthy habreast.apart.healthy, hput'.healthy habreast.apart.healthy',
      fun k other hdecides hother => ?_⟩
    by_cases hname : other = name
    · subst hname
      rw [hput.slot_key, hput'.slot_key]
      exact hslot k hdecides hother
    · have hkey : s.key other ≠ s.key name := fun heq => hname (Shelf.key_inj heq)
      rw [hput.slot_of_ne hkey, hput'.slot_of_ne hkey]
      exact habreast.apart.slot k other hdecides hother
  now_eq := hput.now_eq.trans habreast.now_eq
  now_eq' := hput'.now_eq.trans habreast.now_eq'

/-! ## Coupled operations -/

theorem coupled_now :
    GateM.Coupled (Abreast s d now) (fun t t' => now = t ∧ now + d = t') GateM.now GateM.now :=
  fun _ _ habreast => ⟨⟨habreast.now_eq.symm, habreast.now_eq'.symm⟩, habreast⟩

theorem coupled_log (e e' : Event) :
    GateM.Coupled (Abreast s d now) (fun _ _ => True) (GateM.log e) (GateM.log e') :=
  fun env env' habreast => ⟨trivial, habreast.of_frames (K := fun _ => False)
    (GateM.touches_log e env) (GateM.touches_log e' env') fun _ _ _ _ => id⟩

theorem coupled_count (f : Metrics → Metrics) :
    GateM.Coupled (Abreast s d now) (fun _ _ => True) (GateM.count f) (GateM.count f) :=
  fun env env' habreast => ⟨trivial, habreast.of_frames (K := fun _ => False)
    (GateM.touches_count f env) (GateM.touches_count f env') fun _ _ _ _ => id⟩

/-- **What the monitor does goes unseen.** -/
theorem coupled_unseen {x y : GateM α} (hx : x.Touches (s.Under "vm:"))
    (hy : y.Touches (s.Under "vm:")) :
    GateM.Coupled (Abreast s d now) (fun _ _ => True) x y :=
  fun env env' habreast => ⟨trivial, habreast.of_frames (hx env) (hy env')
    fun _ _ hdecides hname => hdecides.not_under hname s⟩

variable (hdecides : h.Decides) (hname : h.Named name)

include hdecides hname

theorem coupled_load (hnow : now.toNat + d.toNat < wordCount) :
    StoreM.Coupled (Abreast s d now)
      (fun r r' => r' = r.map (h.later d) ∧ ∀ a ∈ r, h.Sound d now a)
      (s.load name : StoreM (Option h.Record)) (s.load name : StoreM (Option h.Record)) := by
  intro env env' habreast
  obtain ⟨env₁, hload, hput⟩ := s.load_of_healthy (α := h.Record) name habreast.apart.healthy
  obtain ⟨env₁', hload', hput'⟩ := s.load_of_healthy (α := h.Record) name habreast.apart.healthy'
  rw [habreast.now_eq] at hload hput
  rw [habreast.now_eq'] at hload' hput'
  have hslot := habreast.apart.slot
  obtain ⟨hlater, hsound, hleft⟩ := (hslot h name hdecides hname).read hnow
  refine ⟨_, _, env₁, env₁', hload, hload', ⟨hlater, hsound⟩, ?_⟩
  exact habreast.puts hput hput' fun k hk hnamed => hleft k (hslot k name hk hnamed)

theorem coupled_save {a : h.Record} (ha : h.Sound d now a) {ttl : Duration}
    (hroom : now.toNat + d.toNat + ttl.millis.toNat < wordCount) :
    StoreM.Coupled (Abreast s d now) (fun _ _ => True) (s.save name a (some ttl))
      (s.save name (h.later d a) (some ttl)) := by
  intro env env' habreast
  obtain ⟨env₁, hsave, hput⟩ := s.save_of_healthy name habreast.apart.healthy a (some ttl)
  obtain ⟨env₁', hsave', hput'⟩ :=
    s.save_of_healthy name habreast.apart.healthy' (h.later d a) (some ttl)
  rw [habreast.now_eq] at hput
  rw [habreast.now_eq'] at hput'
  refine ⟨(), (), env₁, env₁', hsave, hsave', trivial, ?_⟩
  exact habreast.puts hput hput' fun k _ hnamed =>
    Holding.apart_written hname hnamed hdecides ha hroom

omit hdecides hname in
theorem coupled_remove (name : String) :
    StoreM.Coupled (Abreast s d now) (fun _ _ => True) (s.remove name) (s.remove name) := by
  intro env env' habreast
  obtain ⟨env₁, hremove, hput⟩ := s.remove_of_healthy name habreast.apart.healthy
  obtain ⟨env₁', hremove', hput'⟩ := s.remove_of_healthy name habreast.apart.healthy'
  refine ⟨(), (), env₁, env₁', hremove, hremove', trivial, ?_⟩
  exact habreast.puts hput hput' fun _ _ _ => .none

end Gate

end Turnstile
