import Mathlib.Data.Char
import Mathlib.Tactic.SplitIfs
import Turnstile.Binary

/-!
# Texts in the order of their bytes

Texts are compared character by character.  That is the order of their bytes as well, as the bytes
of a later character are later and no character's bytes start with those of another one.

* `Binary.encodeChar_lt`: the bytes of two characters, whatever follows them.
* `Binary.utf8_lt_iff`: the order of texts is that of their bytes.
-/

set_option autoImplicit false

namespace Turnstile.Binary

/-- The bytes of a later character are later, whatever follows. -/
theorem encodeChar_lt {c d : Char} (h : c < d) (s t : Bytes) :
    String.utf8EncodeChar c ++ s < String.utf8EncodeChar d ++ t := by
  have h : c.val.toNat < d.val.toNat := h
  have hd : d.val.toNat < 0x110000 := by
    have hvalid := d.valid
    simp only [UInt32.isValidChar, Nat.isValidChar] at hvalid
    omega
  have hlt : ∀ j k : Nat, j < 256 → k < 256 → (UInt8.ofNat j < UInt8.ofNat k ↔ j < k) := by
    intro j k hj hk
    rw [UInt8.lt_iff_toNat_lt, UInt8.toNat_ofNat', UInt8.toNat_ofNat', Nat.mod_eq_of_lt hj,
      Nat.mod_eq_of_lt hk]
  have heq : ∀ j k : Nat, j < 256 → k < 256 → (UInt8.ofNat j = UInt8.ofNat k ↔ j = k) := by
    intro j k hj hk
    rw [← UInt8.toNat_inj, UInt8.toNat_ofNat', UInt8.toNat_ofNat', Nat.mod_eq_of_lt hj,
      Nat.mod_eq_of_lt hk]
  -- each byte is the next digit to the base 64
  have htwo : ∀ k : Nat, k / 4096 = k / 64 / 64 := by omega
  have hthree : ∀ k : Nat, k / 262144 = k / 64 / 64 / 64 := by omega
  unfold String.utf8EncodeChar
  generalize c.val.toNat = m at *
  generalize d.val.toNat = n at *
  dsimp only
  split_ifs <;>
    simp (disch := omega) only [List.cons_append, List.nil_append, List.cons_lt_cons_iff, hlt, heq,
      htwo, hthree] <;>
    omega

theorem append_lt_append_iff (r s t : Bytes) : r ++ s < r ++ t ↔ s < t := by
  induction r with
  | nil => rfl
  | cons b r ih => simp only [List.cons_append, List.cons_lt_cons_iff, UInt8.lt_irrefl, ih,
      true_and, false_or]

theorem flatMap_encodeChar_lt_iff (as bs : List Char) :
    as.flatMap String.utf8EncodeChar < bs.flatMap String.utf8EncodeChar ↔ as < bs := by
  induction as generalizing bs with
  | nil =>
    cases bs with
    | nil => simp
    | cons b bs =>
      obtain ⟨x, xs, hx⟩ := List.exists_cons_of_ne_nil (String.utf8EncodeChar_ne_nil (c := b))
      simp [hx]
  | cons a as ih =>
    cases bs with
    | nil => simp
    | cons b bs =>
      rw [List.flatMap_cons, List.flatMap_cons, List.cons_lt_cons_iff]
      rcases lt_trichotomy a b with hlt | rfl | hgt
      · exact ⟨fun _ => .inl hlt, fun _ => encodeChar_lt hlt _ _⟩
      · simp [append_lt_append_iff, ih]
      · have hle := encodeChar_lt hgt (bs.flatMap String.utf8EncodeChar)
          (as.flatMap String.utf8EncodeChar)
        refine ⟨fun h => absurd hle (List.lt_asymm h), ?_⟩
        rintro (hlt | ⟨rfl, _⟩)
        · exact absurd hlt (lt_asymm hgt)
        · exact absurd hgt (lt_irrefl a)

/-- **Texts are in the order of their bytes.** -/
theorem utf8_lt_iff {a b : String} : utf8 a < utf8 b ↔ a < b :=
  flatMap_encodeChar_lt_iff a.toList b.toList

end Turnstile.Binary
