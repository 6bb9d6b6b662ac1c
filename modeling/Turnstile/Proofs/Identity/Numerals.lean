import Mathlib.Data.List.TakeWhile
import Turnstile.Identity.Address.Numeral

/-!
# Numerals are read back

A number is written in the digits of a base, the highest one first and without leading zeros.  Every
kind of numeral that has room for the number reads it back, whatever follows that is no digit.

* `Ends`: texts that do not go on with a digit.
* `Numeral.read_append`: a numeral is read up to the first character that is no digit.
* `Numeral.read_toDigits`: a number is read back.
-/

set_option autoImplicit false

namespace Turnstile.Address

variable {base n : Nat} {c : Char} {cs ds rest : List Char} {k : Numeral}

/-! ## Digits -/

/-- The value of a digit by the number of its character. -/
theorem digit?_eq (base : Nat) (c : Char) :
    digit? base c =
      let n :=
        if 48 ≤ c.toNat ∧ c.toNat ≤ 57 then c.toNat - 48
        else if 97 ≤ c.toNat ∧ c.toNat ≤ 102 then c.toNat - 97 + 10
        else if 65 ≤ c.toNat ∧ c.toNat ≤ 70 then c.toNat - 65 + 10
        else base
      if n < base then some n else none := by
  have hle : ∀ c d : Char, c ≤ d ↔ c.toNat ≤ d.toNat := fun _ _ => Iff.rfl
  have hvalues : ('0').toNat = 48 ∧ ('9').toNat = 57 ∧ ('a').toNat = 97 ∧ ('f').toNat = 102 ∧
    ('A').toNat = 65 ∧ ('F').toNat = 70 := by decide
  simp only [digit?, hle, hvalues]

theorem digit?_digitChar (hbase : base ≤ 16) {d : Nat} (hd : d < base) :
    digit? base (Nat.digitChar d) = some d := by
  have hall : ∀ d < 16, ∀ b ≤ 16, d < b → digit? b (Nat.digitChar d) = some d := by decide
  exact hall d (by omega) base hbase hd

theorem isDigit_digitChar (hbase : base ≤ 16) {d : Nat} (hd : d < base) :
    isDigit base (Nat.digitChar d) = true := by
  rw [isDigit, digit?_digitChar hbase hd, Option.isSome_some]

theorem isDigit_of_mem_toDigits (hone : 1 < base) (hbase : base ≤ 16)
    (h : c ∈ Nat.toDigits base n) : isDigit base c = true := by
  induction n using Nat.base_induction base hone with
  | single d hd =>
    rw [Nat.toDigits_of_lt_base hd, List.mem_singleton] at h
    rw [h]
    exact isDigit_digitChar hbase hd
  | digit n d hd hn ih =>
    rw [← Nat.toDigits_append_toDigits hone hn hd, Nat.toDigits_of_lt_base hd, List.mem_append,
      List.mem_singleton] at h
    rcases h with h | rfl
    · exact ih h
    · exact isDigit_digitChar hbase hd

theorem value_append_singleton (base : Nat) (ds : List Char) (c : Char) :
    value base (ds ++ [c]) = value base ds * base + (digit? base c).getD 0 :=
  List.foldl_append ..

/-- The digits of a number stand for it. -/
theorem value_toDigits (hone : 1 < base) (hbase : base ≤ 16) (n : Nat) :
    value base (Nat.toDigits base n) = n := by
  induction n using Nat.base_induction base hone with
  | single d hd =>
    rw [Nat.toDigits_of_lt_base hd, ← List.nil_append [_], value_append_singleton,
      digit?_digitChar hbase hd]
    simp [value]
  | digit n d hd hn ih =>
    rw [← Nat.toDigits_append_toDigits hone hn hd, Nat.toDigits_of_lt_base hd,
      value_append_singleton, ih, digit?_digitChar hbase hd, Nat.mul_comm, Option.getD_some]

/-- The digits of a number do not start with zero, unless it is zero. -/
theorem head?_toDigits (hone : 1 < base) (hn : 0 < n) : (Nat.toDigits base n).head? ≠ some '0' := by
  induction n using Nat.base_induction base hone with
  | single d hd =>
    rw [Nat.toDigits_of_lt_base hd, List.head?_cons, ne_eq, Option.some_inj,
      Nat.digitChar_eq_zero]
    omega
  | digit n d hd hpos ih =>
    rw [← Nat.toDigits_append_toDigits hone hpos hd]
    obtain ⟨c, cs, hcs⟩ := List.exists_cons_of_ne_nil (Nat.toDigits_ne_nil (n := n) (b := base))
    rw [hcs] at ih ⊢
    exact ih hpos

/-! ## Numerals -/

/-- A text that does not go on with a digit. -/
def Ends (base : Nat) (cs : List Char) : Prop := ∀ c ∈ cs.head?, isDigit base c = false

theorem ends_nil : Ends base [] := nofun

theorem ends_cons (h : isDigit base c = false) : Ends base (c :: cs) := by
  rintro _ ⟨⟩
  exact h

/-- **A numeral is read up to the first character that is no digit.** -/
theorem Numeral.read_append (hds : ∀ c ∈ ds, isDigit k.base c = true) (hrest : Ends k.base rest) :
    k.read (ds ++ rest) = if k.Allows ds then some (value k.base ds, rest) else none := by
  have hnone : rest.takeWhile (isDigit k.base) = [] ∧ rest.dropWhile (isDigit k.base) = rest := by
    cases rest with
    | nil => exact ⟨rfl, rfl⟩
    | cons c rest => simp [hrest c rfl]
  rw [read, List.takeWhile_append_of_pos hds, List.dropWhile_append_of_pos hds, hnone.1, hnone.2,
    List.append_nil]

/-- No numeral is read where there is no digit. -/
theorem Numeral.read_eq_none (h : Ends k.base cs) : k.read cs = none := by
  have hread : k.read ([] ++ cs) = if k.Allows [] then some (value k.base [], cs) else none :=
    read_append nofun h
  rwa [List.nil_append, if_neg fun hallows => hallows.1 rfl] at hread

/-- What is read is the digits at the start of the text. -/
theorem Numeral.exists_of_read (h : k.read cs = some (n, rest)) :
    ∃ ds, cs = ds ++ rest ∧ (∀ c ∈ ds, isDigit k.base c = true) ∧ k.Allows ds ∧
      value k.base ds = n ∧ Ends k.base rest := by
  obtain ⟨hallows, hvalue, hrest⟩ := Numeral.read_eq_some_iff.mp h
  refine ⟨cs.takeWhile (isDigit k.base), ?_, fun c => List.mem_takeWhile_imp, hallows, hvalue, ?_⟩
  · rw [← hrest, List.takeWhile_append_dropWhile]
  · rw [← hrest]
    intro c hc
    have := List.head?_dropWhile_not (isDigit k.base) cs
    rw [Option.mem_def] at hc
    rw [hc] at this
    simpa using this

/-- **A number is read back** by every kind of numeral that has room for it. -/
theorem Numeral.read_toDigits (hone : 1 < k.base) (hbase : k.base ≤ 16)
    (hlength : ∀ m ∈ k.maxDigits, (Nat.toDigits k.base n).length ≤ m) (hmax : n ≤ k.max)
    (hrest : Ends k.base rest) : k.read (Nat.toDigits k.base n ++ rest) = some (n, rest) := by
  have hallows : k.Allows (Nat.toDigits k.base n) := by
    refine ⟨Nat.toDigits_ne_nil, hlength, .inr ?_, ?_⟩
    · rcases Nat.eq_zero_or_pos n with rfl | hn
      · exact .inl (by rw [Nat.toDigits_zero]; rfl)
      · exact .inr (head?_toDigits hone hn)
    · rw [value_toDigits hone hbase]
      exact hmax
  rw [read_append (fun c => isDigit_of_mem_toDigits hone hbase) hrest, if_pos hallows,
    value_toDigits hone hbase]

end Turnstile.Address
