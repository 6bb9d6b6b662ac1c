import Turnstile.Proofs.Storage.RoundTrip

/-!
# No record starts with another one

What is read off the start of some bytes is read off any bytes that go on from them: a reader looks
at nothing beyond what it takes.  So an exact value cannot be read off less than all its bytes, or
those bytes would be read as something shorter.

* `Streams`: types that are read in this way.
* `streams_word`, `streams_pair`, `streams_option`, `streams_list`, `streams_narrow`: by the shape of
  a type.
* `streams_text`, `streams_texts`: texts, and sets of texts.
* `read?_of_torn`: bytes of a value from which some are missing at the end are not read.
-/

set_option autoImplicit false

namespace Turnstile.Binary

variable {α β γ : Type}

/-- What is read off the start of some bytes is read off all bytes that go on from them. -/
def Streams (α : Type) [Binary α] : Prop :=
  ∀ {bytes rest : Bytes} {a : α}, decode bytes = some (a, rest) →
    ∀ more, decode (bytes ++ more) = some (a, rest ++ more)

/-! ## Words -/

theorem split?_streams {n : Nat} {bytes first rest : Bytes} (h : split? n bytes = some (first, rest))
    (more : Bytes) : split? n (bytes ++ more) = some (first, rest ++ more) := by
  simp only [split?, Option.ite_none_right_eq_some, Option.some_inj, Prod.mk.injEq] at h
  obtain ⟨hlength, rfl, rfl⟩ := h
  have hsplit := split?_append (bytes.take n) (bytes.drop n ++ more)
  rwa [← List.append_assoc, List.take_append_drop, hlength] at hsplit

theorem streams_word32 : Streams UInt32 := by
  intro bytes rest n h more
  obtain ⟨⟨first, rest⟩, hsplit, he⟩ := Option.map_eq_some_iff.mp h
  cases he
  show (split? 4 (bytes ++ more)).map _ = _
  rw [split?_streams hsplit more, Option.map_some]

theorem streams_word : Streams UInt64 := by
  intro bytes rest n h more
  obtain ⟨⟨first, rest⟩, hsplit, he⟩ := Option.map_eq_some_iff.mp h
  cases he
  show (split? 8 (bytes ++ more)).map _ = _
  rw [split?_streams hsplit more, Option.map_some]

theorem decodeLength_streams {n : Nat} {bytes rest : Bytes} (h : decodeLength bytes = some (n, rest))
    (more : Bytes) : decodeLength (bytes ++ more) = some (n, rest ++ more) := by
  obtain ⟨⟨word, rest⟩, hword, he⟩ := Option.map_eq_some_iff.mp h
  cases he
  exact congrArg _ (streams_word hword more)

/-! ## Compounds -/

section Compounds

variable [Binary α] [Binary β]

theorem streams_pair (hα : Streams α) (hβ : Streams β) : Streams (α × β) := by
  intro bytes rest p h more
  obtain ⟨⟨a, bytes₁⟩, ha, h⟩ := Option.bind_eq_some_iff.mp h
  obtain ⟨⟨b, bytes₂⟩, hb, h⟩ := Option.bind_eq_some_iff.mp h
  cases h
  show (decode (bytes ++ more)).bind _ = _
  rw [hα ha, Option.bind_some]
  simp only [hβ hb, Option.bind_eq_bind, Option.bind_some]

theorem streams_option (hα : Streams α) : Streams (Option α) := by
  intro bytes rest o h more
  simp only [decode] at h
  split at h
  · cases h
    rfl
  · rename_i bytes
    obtain ⟨⟨a, rest⟩, ha, he⟩ := Option.map_eq_some_iff.mp h
    cases he
    show (decode (bytes ++ more)).map _ = _
    rw [hα ha, Option.map_some]
  · nomatch h

theorem decodeItems_streams (hα : Streams α) {n : Nat} {bytes rest : Bytes} {l : List α}
    (h : decodeItems n bytes = some (l, rest)) (more : Bytes) :
    decodeItems n (bytes ++ more) = some (l, rest ++ more) := by
  induction n generalizing bytes l with
  | zero =>
    cases h
    rfl
  | succ n ih =>
    obtain ⟨⟨a, bytes₁⟩, ha, h⟩ := Option.bind_eq_some_iff.mp h
    obtain ⟨⟨as, bytes₂⟩, has, h⟩ := Option.bind_eq_some_iff.mp h
    cases h
    show (decode (bytes ++ more)).bind _ = _
    rw [hα ha, Option.bind_some]
    simp only [ih has, Option.bind_eq_bind, Option.bind_some]

theorem streams_list (hα : Streams α) : Streams (List α) := by
  intro bytes rest l h more
  obtain ⟨⟨n, bytes₁⟩, hn, h⟩ := Option.bind_eq_some_iff.mp h
  show (decodeLength (bytes ++ more)).bind _ = _
  rw [decodeLength_streams hn, Option.bind_some]
  exact decodeItems_streams hα h more

/-! ## Types inside other types -/

theorem streams_narrow (hα : Streams α) (f : γ → α) (g : α → Option γ) :
    @Streams γ (narrow f g) := by
  intro bytes rest c h more
  obtain ⟨⟨a, bytes₁⟩, ha, h⟩ := Option.bind_eq_some_iff.mp h
  obtain ⟨c, hc, h⟩ := Option.bind_eq_some_iff.mp h
  cases h
  show (decode (bytes ++ more)).bind _ = _
  rw [hα ha, Option.bind_some]
  simp only [hc, Option.bind_eq_bind, Option.bind_some]

end Compounds

/-! ## Texts -/

theorem streams_text : Streams String := by
  intro bytes rest s h more
  obtain ⟨⟨n, bytes₁⟩, hn, h⟩ := Option.bind_eq_some_iff.mp h
  obtain ⟨⟨first, bytes₂⟩, hfirst, h⟩ := Option.bind_eq_some_iff.mp h
  obtain ⟨s, hs, h⟩ := Option.bind_eq_some_iff.mp h
  cases h
  show (decodeLength (bytes ++ more)).bind _ = _
  rw [decodeLength_streams hn, Option.bind_some]
  simp only [split?_streams hfirst, hs, Option.bind_eq_bind, Option.bind_some]

theorem streams_texts : Streams (Std.ExtTreeSet String) :=
  streams_narrow (streams_list streams_text) _ _

/-! ## Torn records -/

/-- Bytes that are the start of others, and not all of them. -/
def Torn (bytes whole : Bytes) : Prop := bytes <+: whole ∧ bytes ≠ whole

instance (bytes whole : Bytes) : Decidable (Torn bytes whole) := inferInstanceAs (Decidable (_ ∧ _))

/-- **Torn bytes of a value are not read**, as that value or as any other one. -/
theorem read?_of_torn [Binary α] (hα : Streams α) {a : α} (ha : Exact a) {bytes : Bytes}
    (h : Torn bytes (encode a)) : (read? bytes : Option α) = none := by
  obtain ⟨⟨more, hmore⟩, hne⟩ := h
  cases hdecode : (decode bytes : Option (α × Bytes)) with
  | none => rw [read?, hdecode, Option.map_none]
  | some r =>
    -- the whole record would be read with the missing bytes left over
    have hwhole := hα hdecode more
    have hexact := ha []
    rw [hmore, ← List.append_nil (encode a), hexact] at hwhole
    have hnil : r.2 ++ more = [] := (congrArg Prod.snd (Option.some.inj hwhole)).symm
    rw [(List.append_eq_nil_iff.mp hnil).2, List.append_nil] at hmore
    exact absurd hmore hne

end Turnstile.Binary
