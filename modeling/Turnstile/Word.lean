/-!
# Machine words

Times are counted in milliseconds of a 64-bit word.  Sums that would pass the largest word stay at
it and differences stop at zero, so no instant ever wraps around.

* `satAdd`, `satSub`: sum and difference that stay within the word, with their values as natural
  numbers in `toNat_satAdd` and `toNat_satSub`.
* `ceilDiv`: division rounded up.
* `wordOfNat`: a natural number cut off at the largest word.
-/

set_option autoImplicit false

namespace Turnstile

def wordCount : Nat := 18446744073709551616

/-- The largest 64-bit word, where sums stop. -/
def maxWord : UInt64 := 18446744073709551615

/-- A natural number as a word; what is too large becomes the largest word. -/
def wordOfNat (n : Nat) : UInt64 := UInt64.ofNat (min n (wordCount - 1))

/-- The sum of two words, or the largest word where the sum passes it. -/
def satAdd (a b : UInt64) : UInt64 := wordOfNat (a.toNat + b.toNat)

/-- The difference of two words, or zero where it would be negative. -/
def satSub (a b : UInt64) : UInt64 := if b ≤ a then a - b else 0

/-- One more, except that the largest 32-bit word is followed by itself. -/
def satSucc32 (a : UInt32) : UInt32 := if a.toNat + 1 < 4294967296 then a + 1 else a

def ceilDiv (a b : UInt64) : UInt64 := if a % b = 0 then a / b else a / b + 1

theorem toNat_maxWord : maxWord.toNat = wordCount - 1 := rfl

theorem toNat_wordOfNat (n : Nat) : (wordOfNat n).toNat = min n (wordCount - 1) := by
  have h : min n (wordCount - 1) < 2 ^ 64 := by unfold wordCount; omega
  simp only [wordOfNat, UInt64.toNat_ofNat']
  exact Nat.mod_eq_of_lt h

theorem toNat_satAdd (a b : UInt64) :
    (satAdd a b).toNat = min (a.toNat + b.toNat) (wordCount - 1) :=
  toNat_wordOfNat _

theorem toNat_satSub (a b : UInt64) : (satSub a b).toNat = a.toNat - b.toNat := by
  unfold satSub
  split
  · next h => exact UInt64.toNat_sub_of_le a b h
  · next h =>
    have : ¬ b.toNat ≤ a.toNat := h
    simp
    omega

theorem toNat_satSucc32 (a : UInt32) :
    (satSucc32 a).toNat = min (a.toNat + 1) 4294967295 := by
  have h := a.toNat_lt
  unfold satSucc32
  split
  · next hlt =>
    rw [UInt32.toNat_add]
    simp only [UInt32.reduceToNat]
    omega
  · omega

end Turnstile
