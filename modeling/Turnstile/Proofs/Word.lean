import Turnstile.Duration
import Turnstile.Quota.Window

/-!
# Instants and spans as natural numbers

Comparisons of words are those of their numbers, so a fact about saturating sums is one about
`min` on natural numbers.

* `toNat_satAdd_of_lt`: a sum below the largest word is exact.
* `satAdd_satSub`: the span up to a later instant leads there.
* `toNat_satSucc32_of_lt`: a counter that is below its threshold.
* `toNat_ceilSecs`: milliseconds in seconds.
* `add_le_add_iff_of_lt`, `satSub_add_add`, `satAdd_add`: instants that are moved by a span.
-/

set_option autoImplicit false

namespace Turnstile

theorem toNat_le_max (a : UInt64) : a.toNat ≤ wordCount - 1 := by
  have := a.toNat_lt
  unfold wordCount
  omega

theorem le_maxWord (a : UInt64) : a ≤ maxWord := UInt64.le_iff_toNat_le.mpr (toNat_le_max a)

theorem lt_maxWord_iff {a : UInt64} : a < maxWord ↔ a.toNat < wordCount - 1 := by
  rw [UInt64.lt_iff_toNat_lt, toNat_maxWord]

theorem le_satAdd (a b : UInt64) : a ≤ satAdd a b := by
  have := toNat_le_max a
  rw [UInt64.le_iff_toNat_le, toNat_satAdd]
  omega

theorem satAdd_one_pos (a : UInt64) : 0 < satAdd a 1 := by
  rw [UInt64.lt_iff_toNat_lt, toNat_satAdd, UInt64.toNat_zero, UInt64.toNat_one]
  unfold wordCount
  omega

theorem satAdd_le_satAdd (a : UInt64) {b c : UInt64} (h : b ≤ c) : satAdd a b ≤ satAdd a c := by
  rw [UInt64.le_iff_toNat_le] at h
  rw [UInt64.le_iff_toNat_le, toNat_satAdd, toNat_satAdd]
  omega

/-- A number cut off at the largest word compares with a word as itself, unless both are cut off. -/
theorem wordOfNat_le_iff {n : Nat} {w : UInt64} (h : w < maxWord ∨ n < wordCount) :
    wordOfNat n ≤ w ↔ n ≤ w.toNat := by
  rw [lt_maxWord_iff] at h
  rw [UInt64.le_iff_toNat_le, toNat_wordOfNat]
  omega

/-- A sum that is below the largest word has not been cut off. -/
theorem toNat_satAdd_of_lt {a b c : UInt64} (h : satAdd a b ≤ c) (hc : c < maxWord) :
    (satAdd a b).toNat = a.toNat + b.toNat := by
  rw [UInt64.le_iff_toNat_le, toNat_satAdd] at h
  rw [lt_maxWord_iff] at hc
  rw [toNat_satAdd]
  omega

/-- A word is a sum if its number is, which has not been cut off then. -/
theorem satAdd_of_toNat_eq {a b c : UInt64} (h : c.toNat = a.toNat + b.toNat) : satAdd a b = c := by
  apply UInt64.toNat.inj
  have := toNat_le_max c
  rw [toNat_satAdd]
  omega

/-- An instant below the largest word lies before a sum if it lies before the exact sum. -/
theorem lt_satAdd_iff {a b c : UInt64} (hc : c < maxWord) :
    c < satAdd a b ↔ c.toNat < a.toNat + b.toNat := by
  rw [lt_maxWord_iff] at hc
  rw [UInt64.lt_iff_toNat_lt, toNat_satAdd]
  omega

theorem satAdd_satSub {a b : UInt64} (h : a ≤ b) : satAdd a (satSub b a) = b := by
  apply UInt64.toNat.inj
  have := toNat_le_max b
  rw [UInt64.le_iff_toNat_le] at h
  rw [toNat_satAdd, toNat_satSub]
  omega

/-- One more than a number cut off at the largest word. -/
theorem satAdd_wordOfNat_one (n : Nat) : satAdd (wordOfNat n) 1 = wordOfNat (n + 1) := by
  apply UInt64.toNat.inj
  rw [toNat_satAdd, toNat_wordOfNat, toNat_wordOfNat, UInt64.toNat_one]
  omega

theorem Duration.toNat_millis_double_ofMillis (ms : UInt64) :
    (ofMillis ms).double.millis.toNat = min (2 * ms.toNat) (wordCount - 1) := by
  have h := ms.toNat_lt
  simp only [millis, toNat_wordOfNat, wholeMillis, double, ofMillis, ofNanos, perMilli, wordCount]
  omega

/-- A counter below some word is not at the largest one, and counts one more in full. -/
theorem toNat_satSucc32_of_lt {a b : UInt32} (h : a.toNat < b.toNat) :
    (satSucc32 a).toNat = a.toNat + 1 := by
  have := b.toNat_lt
  rw [toNat_satSucc32]
  omega

/-- Milliseconds in seconds are rounded up, and one at least. -/
theorem toNat_ceilSecs (ms : UInt64) :
    (ceilSecs ms).toNat = max 1 ((ms.toNat + 999) / 1000) := by
  have hq : (ceilDiv ms 1000).toNat = (ms.toNat + 999) / 1000 := by
    have := ms.toNat_lt
    unfold ceilDiv
    split
    · rename_i h
      have h := congrArg UInt64.toNat h
      simp only [UInt64.toNat_mod, UInt64.reduceToNat] at h
      simp only [UInt64.toNat_div, UInt64.reduceToNat]
      omega
    · rename_i h
      have h : (ms % 1000).toNat ≠ 0 := fun e => h (UInt64.toNat.inj e)
      simp only [UInt64.toNat_mod, UInt64.reduceToNat] at h
      simp only [UInt64.toNat_add, UInt64.toNat_div, UInt64.reduceToNat]
      omega
  have hm : (ceilSecs ms).toNat = if ceilDiv ms 1000 ≤ 1 then 1 else (ceilDiv ms 1000).toNat := by
    unfold ceilSecs
    show (if ceilDiv ms 1000 ≤ 1 then 1 else ceilDiv ms 1000).toNat = _
    split <;> rfl
  simp only [hm, UInt64.le_iff_toNat_le, hq, UInt64.reduceToNat]
  split <;> omega

/-! ## Instants that are moved -/

section Moved

variable {a b d : UInt64}

/-- An instant is moved by a span as long as the sum is a word. -/
theorem toNat_add_of_lt (h : a.toNat + d.toNat < wordCount) : (a + d).toNat = a.toNat + d.toNat := by
  rw [UInt64.toNat_add]
  exact Nat.mod_eq_of_lt h

theorem add_le_add_iff_of_lt (ha : a.toNat + d.toNat < wordCount)
    (hb : b.toNat + d.toNat < wordCount) : a + d ≤ b + d ↔ a ≤ b := by
  rw [UInt64.le_iff_toNat_le, UInt64.le_iff_toNat_le, toNat_add_of_lt ha, toNat_add_of_lt hb]
  omega

theorem add_lt_add_iff_of_lt (ha : a.toNat + d.toNat < wordCount)
    (hb : b.toNat + d.toNat < wordCount) : a + d < b + d ↔ a < b := by
  rw [UInt64.lt_iff_toNat_lt, UInt64.lt_iff_toNat_lt, toNat_add_of_lt ha, toNat_add_of_lt hb]
  omega

/-- The span between two instants stays the same. -/
theorem satSub_add_add (ha : a.toNat + d.toNat < wordCount) (hb : b.toNat + d.toNat < wordCount) :
    satSub (a + d) (b + d) = satSub a b := by
  apply UInt64.toNat.inj
  rw [toNat_satSub, toNat_satSub, toNat_add_of_lt ha, toNat_add_of_lt hb]
  omega

/-- The end of a span from a moved instant on is moved. -/
theorem satAdd_add {span : UInt64} (h : a.toNat + d.toNat + span.toNat < wordCount) :
    satAdd (a + d) span = satAdd a span + d := by
  have hsum : (satAdd a span).toNat = a.toNat + span.toNat := by
    rw [toNat_satAdd]
    omega
  apply UInt64.toNat.inj
  rw [toNat_satAdd, toNat_add_of_lt (by omega), toNat_add_of_lt (by omega), hsum]
  omega

end Moved

end Turnstile
