import Turnstile.Identity.Address.Printer
import Turnstile.Proofs.Identity.Numerals

/-!
# Short addresses are read back

What a reader has taken off the start of a text it takes off any other text that starts alike and
does not go on with a digit there.  So readers one after the other read what they would have read
one by one.

* `Reads`: a text that a reader reads as a value.
* `exists_of_readBytes`: the text of a short address that was read.
* `reads_text_v4`: a short address is read back.
-/

set_option autoImplicit false

namespace Turnstile.Address

variable {α : Type} {a b c d : UInt8} {p q r s cs rest : List Char}

/-- A text that a reader reads as a value, whatever follows that is no digit. -/
def Reads (read : List Char → Option (α × List Char)) (p : List Char) (x : α) : Prop :=
  ∀ rest, Ends 10 rest → read (p ++ rest) = some (x, rest)

/-! ## Bytes -/

theorem expect_eq_some_iff {x : Char} : expect x cs = some rest ↔ cs = x :: rest := by
  cases cs with
  | nil => simp [expect]
  | cons y cs => simp [expect]

theorem expect_eq_none {x : Char} (h : x ∉ cs) : expect x cs = none := by
  refine Option.eq_none_iff_forall_not_mem.mpr fun rest hrest => h ?_
  rw [expect_eq_some_iff.mp hrest]
  exact List.mem_cons_self

/-- The digits of a byte that was read. -/
theorem exists_of_readByte (h : readByte cs = some (a, rest)) :
    ∃ p, cs = p ++ rest ∧ (∀ x ∈ p, isDigit 10 x = true) ∧ Ends 10 rest ∧ Reads readByte p a := by
  obtain ⟨⟨n, rest⟩, hread, he⟩ := Option.map_eq_some_iff.mp h
  cases he
  obtain ⟨p, rfl, hp, hallows, hvalue, hrest⟩ := Numeral.exists_of_read hread
  refine ⟨p, rfl, hp, hrest, fun rest hrest => ?_⟩
  rw [readByte, Numeral.read_append hp hrest, if_pos hallows, hvalue]
  rfl

/-- A text that starts with no digit starts with no byte. -/
theorem readByte_eq_none (h : Ends 10 cs) : readByte cs = none := by
  rw [readByte, Numeral.read_eq_none h, Option.map_none]

theorem reads_byte (a : UInt8) : Reads readByte (Nat.toDigits 10 a.toNat) a := by
  intro rest hrest
  have hlt := a.toNat_lt
  have hread : octet.read (Nat.toDigits 10 a.toNat ++ rest) = some (a.toNat, rest) := by
    refine Numeral.read_toDigits (by decide) (by decide) ?_ ?_ hrest
    · rintro _ ⟨⟩
      exact (Nat.length_toDigits_le_iff (by decide) (by decide)).mpr
        (show a.toNat < 1000 by omega)
    · show a.toNat ≤ 255
      omega
  rw [readByte, hread]
  exact congrArg (fun x => some (x, rest)) UInt8.ofNat_toNat

/-- A point before what is read as a byte. -/
theorem reads_nextByte (h : Reads readByte p a) : Reads readNextByte ('.' :: p) a := h

theorem exists_of_readNextByte (h : readNextByte cs = some (a, rest)) :
    ∃ p, cs = '.' :: p ++ rest ∧ (∀ x ∈ p, isDigit 10 x = true) ∧ Ends 10 rest ∧
      Reads readByte p a := by
  obtain ⟨cs', hexpect, hread⟩ := Option.bind_eq_some_iff.mp h
  obtain rfl := expect_eq_some_iff.mp hexpect
  obtain ⟨p, rfl, hp, hrest, hreads⟩ := exists_of_readByte hread
  exact ⟨p, rfl, hp, hrest, hreads⟩

/-! ## Four bytes -/

theorem ends_point (cs : List Char) : Ends 10 ('.' :: cs) := ends_cons (by decide)

/-- Bytes with points between them. -/
def dotted (p q r s : List Char) : List Char := p ++ '.' :: q ++ '.' :: r ++ '.' :: s

theorem reads_bytes (hp : Reads readByte p a) (hq : Reads readByte q b) (hr : Reads readByte r c)
    (hs : Reads readByte s d) : Reads readBytes (dotted p q r s) (a, b, c, d) := by
  intro rest hrest
  simp only [dotted, List.append_assoc, List.cons_append, readBytes]
  rw [hp _ (ends_point _)]
  simp only [Option.bind_eq_bind, Option.bind_some]
  rw [← List.cons_append, reads_nextByte hq _ (ends_point _), Option.bind_some,
    ← List.cons_append, reads_nextByte hr _ (ends_point _), Option.bind_some,
    ← List.cons_append, reads_nextByte hs _ hrest]
  rfl

/-- **The text of four bytes that were read** is read alike elsewhere. -/
theorem exists_of_readBytes {x : UInt8 × UInt8 × UInt8 × UInt8}
    (h : readBytes cs = some (x, rest)) :
    ∃ p, cs = p ++ rest ∧ (∀ c ∈ p, isDigit 10 c = true ∨ c = '.') ∧ Ends 10 rest ∧
      Reads readBytes p x := by
  obtain ⟨⟨a, cs₁⟩, ha, h⟩ := Option.bind_eq_some_iff.mp h
  obtain ⟨⟨b, cs₂⟩, hb, h⟩ := Option.bind_eq_some_iff.mp h
  obtain ⟨⟨c, cs₃⟩, hc, h⟩ := Option.bind_eq_some_iff.mp h
  obtain ⟨⟨d, cs₄⟩, hd, h⟩ := Option.bind_eq_some_iff.mp h
  cases h
  obtain ⟨p, rfl, hp, -, hpa⟩ := exists_of_readByte ha
  obtain ⟨q, rfl, hq, -, hqb⟩ := exists_of_readNextByte hb
  obtain ⟨r, rfl, hr, -, hrc⟩ := exists_of_readNextByte hc
  obtain ⟨s, rfl, hs, hrest, hsd⟩ := exists_of_readNextByte hd
  refine ⟨dotted p q r s, by simp [dotted], fun c hc => ?_, hrest, reads_bytes hpa hqb hrc hsd⟩
  simp only [dotted, List.mem_append, List.mem_cons] at hc
  rcases hc with ((hc | rfl | hc) | rfl | hc) | rfl | hc
  · exact .inl (hp c hc)
  · exact .inr rfl
  · exact .inl (hq c hc)
  · exact .inr rfl
  · exact .inl (hr c hc)
  · exact .inr rfl
  · exact .inl (hs c hc)

theorem readBytes_of_ends (h : Ends 10 cs) : readBytes cs = none := by
  rw [readBytes, readByte_eq_none h]
  rfl

/-- Where there is no point there is no short address. -/
theorem readBytes_eq_none (h : '.' ∉ cs) : readBytes cs = none := by
  cases hfirst : readByte cs with
  | none =>
    rw [readBytes, hfirst]
    rfl
  | some r =>
    obtain ⟨p, rfl, -⟩ := exists_of_readByte hfirst
    have hnext : readNextByte r.2 = none := by
      rw [readNextByte, expect_eq_none fun hr => h (List.mem_append_right p hr)]
      rfl
    rw [readBytes, hfirst]
    simp only [Option.bind_eq_bind, Option.bind_some, hnext, Option.bind_none]

/-! ## Short addresses -/

/-- **The text of a short address that was read** has no colons, and is read alike elsewhere. -/
theorem exists_of_readShort {x : Address} (h : readShort cs = some (x, rest)) :
    ∃ p, cs = p ++ rest ∧ (∀ c ∈ p, isDigit 10 c = true ∨ c = '.') ∧ Ends 10 rest ∧
      Reads readShort p x := by
  obtain ⟨r, hread, he⟩ := Option.map_eq_some_iff.mp h
  cases he
  obtain ⟨p, rfl, hp, hrest, hreads⟩ := exists_of_readBytes hread
  refine ⟨p, rfl, hp, hrest, fun rest hrest => ?_⟩
  rw [readShort, hreads rest hrest]
  rfl

theorem readShort_eq_none (h : '.' ∉ cs) : readShort cs = none := by
  rw [readShort, readBytes_eq_none h, Option.map_none]

/-- **A short address is read back.** -/
theorem reads_text_v4 (a b c d : UInt8) : Reads readShort (text (.v4 a b c d)) (.v4 a b c d) := by
  intro rest hrest
  have hread := reads_bytes (reads_byte a) (reads_byte b) (reads_byte c) (reads_byte d) rest hrest
  rw [readShort]
  exact congrArg (Option.map fun r : (UInt8 × UInt8 × UInt8 × UInt8) × List Char =>
    (Address.v4 r.1.1 r.1.2.1 r.1.2.2.1 r.1.2.2.2, r.2)) hread

theorem plain?_text_v4 (a b c d : UInt8) : plain? (text (.v4 a b c d)) = some (.v4 a b c d) := by
  have hread := reads_text_v4 a b c d [] ends_nil
  rw [List.append_nil] at hread
  rw [plain?, hread]
  rfl

end Turnstile.Address
