import Turnstile.Configuration.Text
import Turnstile.Proofs.Json.RoundTrip

/-!
# Configurations are read back

Every record of a configuration is an object with a member for each field, so each field is found
under its name, and each kind of value is read by the reader of its field.

* `Json.fields?_record`: the fields of a written record.
* `Configuration.ofText?_text`: a configuration is read back from its text.
-/

set_option autoImplicit false

namespace Turnstile

/-! ## Fields of a written record -/

namespace Json

variable {α β : Type}

theorem mapM_eq_some_map {f : α → Option β} {g : α → β} {l : List α}
    (h : ∀ a ∈ l, f a = some (g a)) : l.mapM f = some (l.map g) := by
  induction l with
  | nil => rfl
  | cons a l ih =>
    obtain ⟨ha, hl⟩ := List.forall_mem_cons.mp h
    rw [List.mapM_cons, ha, ih hl]
    rfl

section Members

variable {name : String} {value : Json} {members : List (Option String × Json)}

theorem membersNamed_cons (name : String) (m : Option String × Json)
    (members : List (Option String × Json)) :
    membersNamed name (m :: members) =
      if m.1 = some name then m.2 :: membersNamed name members else membersNamed name members := by
  obtain ⟨n, value⟩ := m
  by_cases h : n = some name <;> simp [membersNamed, h]

theorem membersNamed_eq_nil (h : some name ∉ members.map Prod.fst) :
    membersNamed name members = [] := by
  induction members with
  | nil => rfl
  | cons m members ih =>
    rw [List.map_cons, List.mem_cons, not_or] at h
    rw [membersNamed_cons, if_neg (Ne.symm h.1), ih h.2]

/-- Where names differ, a member is the only one with its name. -/
theorem membersNamed_of_mem (hnames : (members.map Prod.fst).Nodup)
    (hm : (some name, value) ∈ members) : membersNamed name members = [value] := by
  induction members with
  | nil => nomatch hm
  | cons m members ih =>
    obtain ⟨hm₁, hnames⟩ := List.nodup_cons.mp hnames
    rw [membersNamed_cons]
    rcases List.mem_cons.mp hm with rfl | hm
    · rw [if_pos rfl, membersNamed_eq_nil hm₁]
    · have hne : m.1 ≠ some name := fun he => hm₁ (he ▸ List.mem_map_of_mem hm)
      rw [if_neg hne, ih hnames hm]

end Members

theorem record_eq (members : List (String × Json)) :
    record members = .object (members.map fun m => (some m.1, m.2)) := rfl

/-- **The fields of a written record** are its values, one under each name. -/
theorem fields?_record {names : List String} {members : List (String × Json)}
    (hnames : members.map Prod.fst = names) (hdiffer : names.Nodup) :
    (record members).fields? names = some (members.map fun m => some m.2) := by
  have hsome : ((members.map fun m => (some m.1, m.2)).all fun m => m.1.isSome) = true := by simp
  have hnamed : ((members.map fun m => (some m.1, m.2)).map Prod.fst).Nodup := by
    rw [← hnames] at hdiffer
    simpa [List.Nodup, List.pairwise_map] using hdiffer
  have hfield : ∀ m ∈ members,
      field? (members.map fun m => (some m.1, m.2)) m.1 = some (some m.2) := by
    intro m hm
    rw [field?, membersNamed_of_mem hnamed (List.mem_map_of_mem hm)]
  rw [record_eq, fields?, if_pos hsome, ← hnames, List.mapM_map]
  exact mapM_eq_some_map hfield

/-! ## Values of fields -/

theorem below?_nat {n bound : Nat} (h : n < bound) : (nat n).below? bound = some n := if_pos h

theorem word?_word (n : UInt64) : (word n).word? = some n := by
  rw [word?, word, below?_nat n.toNat_lt, Option.map_some, UInt64.ofNat_toNat]

theorem word32?_nat (n : UInt32) : (nat n.toNat).word32? = some n := by
  rw [word32?, below?_nat n.toNat_lt, Option.map_some, UInt32.ofNat_toNat]

theorem text?_text (s : String) : (text s).text? = some s := rfl

/-- A value that may be missing is told from a missing one by not being `null`. -/
theorem nullable_ofOption {α : Type} {f : α → Json} {g : Json → Option α}
    (hnull : ∀ a, f a ≠ .null) (h : ∀ a, g (f a) = some a) (a : Option α) :
    nullable g (ofOption f a) = some a := by
  cases a with
  | none => rfl
  | some a =>
    rw [ofOption, nullable, h a]
    · rfl
    · exact hnull a

theorem items?_map {α : Type} {f : α → Json} {g : Json → Option α} (h : ∀ a, g (f a) = some a)
    (l : List α) : items? g (.array (l.map f)) = some l := by
  have hread : l.mapM (g ∘ f) = some (l.map id) := mapM_eq_some_map fun a _ => h a
  rw [items?, List.mapM_map, hread, List.map_id]

/-- A word out of a fixed list is read back by its name. -/
theorem oneOf?_text {α : Type} {ofName? : String → Option α} (s : String) :
    oneOf? ofName? (text s) = ofName? s := rfl

end Json

/-! ## Records -/

theorem Algorithm.ofName?_name (a : Algorithm) : ofName? a.name = some a := by
  cases a <;> rfl

theorem Circuit.Scope.ofName?_name (s : Circuit.Scope) : ofName? s.name = some s := by
  cases s <;> rfl

theorem Policy.ofJson?_toJson (p : Policy) : ofJson? p.toJson = some p := by
  have hfields : p.toJson.fields? fieldNames =
      some [some (.text p.name), some (.word p.window), some (.word p.maxRequests),
        some (.ofOption .word p.block), some (.text p.algorithm.name)] :=
    Json.fields?_record rfl (by decide)
  have hblock : Json.nullable Json.word? (.ofOption .word p.block) = some p.block :=
    Json.nullable_ofOption nofun Json.word?_word p.block
  rw [ofJson?, hfields]
  simp only [Json.orDefault, Json.text?_text, Json.word?_word, hblock, Json.oneOf?_text,
    Algorithm.ofName?_name, Option.bind_eq_bind, Option.bind_some]

theorem Policy.plain_toJson (p : Policy) : p.toJson.Plain := by
  refine Json.plain_record ?_
  simp only [List.forall_mem_cons]
  refine ⟨.text _, .nat _, .nat _, ?_, .text _, nofun⟩
  cases p.block with
  | none => exact .null
  | some b => exact .nat _

theorem CircuitSection.ofJson?_toJson (s : CircuitSection) : ofJson? s.toJson = some s := by
  have hfields : s.toJson.fields? fieldNames =
      some [some (.nat s.failureThreshold.toNat), some (.nat s.successThreshold.toNat),
        some (.word s.recoveryMillis)] :=
    Json.fields?_record rfl (by decide)
  rw [ofJson?, hfields]
  simp only [Json.orDefault, Json.word32?_nat, Json.word?_word, Option.bind_eq_bind,
    Option.bind_some]

theorem CircuitSection.plain_toJson (s : CircuitSection) : s.toJson.Plain := by
  refine Json.plain_record ?_
  simp only [List.forall_mem_cons]
  exact ⟨.nat _, .nat _, .nat _, nofun⟩

theorem Violation.Settings.ofJson?_toJson (s : Violation.Settings) : ofJson? s.toJson = some s := by
  have hfields : s.toJson.fields? fieldNames =
      some [some (.word s.anomalyThreshold), some (.word s.maxTracked)] :=
    Json.fields?_record rfl (by decide)
  rw [ofJson?, hfields]
  simp only [Json.orDefault, Json.word?_word, Option.bind_eq_bind, Option.bind_some]

theorem Violation.Settings.plain_toJson (s : Violation.Settings) : s.toJson.Plain := by
  refine Json.plain_record ?_
  simp only [List.forall_mem_cons]
  exact ⟨.nat _, .nat _, nofun⟩

/-! ## Configurations -/

namespace Configuration

theorem ofJson?_toJson (c : Configuration) : ofJson? c.toJson = some c := by
  have hfields : c.toJson.fields? fieldNames =
      some [some (.text c.label), some (.array (c.policies.map Policy.toJson)),
        some c.circuit.toJson, some c.monitor.toJson, some (.text c.scope.name)] :=
    Json.fields?_record rfl (by decide)
  rw [ofJson?, hfields]
  simp only [Json.orDefault, Json.text?_text, Json.items?_map Policy.ofJson?_toJson,
    CircuitSection.ofJson?_toJson, Violation.Settings.ofJson?_toJson, Json.oneOf?_text,
    Circuit.Scope.ofName?_name, Option.bind_eq_bind, Option.bind_some]

theorem plain_toJson (c : Configuration) : c.toJson.Plain := by
  refine Json.plain_record ?_
  simp only [List.forall_mem_cons]
  refine ⟨.text _, .array ?_, c.circuit.plain_toJson, c.monitor.plain_toJson, .text _, nofun⟩
  intro _ hp
  obtain ⟨p, -, rfl⟩ := List.mem_map.mp hp
  exact p.plain_toJson

/-- **A configuration is read back from its text**, whatever its label, the names and number of its
policies and its numbers are. -/
theorem ofText?_text (c : Configuration) : ofText? c.text = some c := by
  rw [ofText?, text, c.plain_toJson.read?_write, Option.bind_some, ofJson?_toJson]

end Configuration

end Turnstile
