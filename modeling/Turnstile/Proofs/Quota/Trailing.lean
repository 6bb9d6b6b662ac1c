import Mathlib.Data.List.TakeWhile
import Turnstile.Proofs.Word

/-!
# Times in a trailing window

The window of a given length that ends at an instant holds the times that are at most the instant
and less than the length before it, as exact numbers.  Of times that do not fall a log drops the
oldest until those in the window are left.

* `inWindow`: the times in a trailing window.
* `SlidingLog.times_purge`, `SlidingLog.times_next`: what a log holds.
* `inWindow_inWindow`: a later window can be looked up among the times of an earlier one.
-/

set_option autoImplicit false

namespace Turnstile

/-- Those of some times that lie in the window `(now - length, now]`. -/
def inWindow (length now : Nat) (times : List UInt64) : List UInt64 :=
  times.filter fun s => s.toNat ≤ now ∧ now < s.toNat + length

section Trailing

variable {length now later : Nat} {times : List UInt64}

theorem inWindow_append (length now : Nat) (xs ys : List UInt64) :
    inWindow length now (xs ++ ys) = inWindow length now xs ++ inWindow length now ys :=
  List.filter_append ..

/-- A window has the instant with which it ends. -/
theorem inWindow_concat (hpos : 0 < length) (times : List UInt64) (now : UInt64) :
    inWindow length now.toNat (times ++ [now]) = inWindow length now.toNat times ++ [now] := by
  rw [inWindow_append]
  simp [inWindow, hpos]

/-- Nothing is left of a window that has passed. -/
theorem inWindow_eq_nil (h : ∀ s ∈ times, s.toNat + length ≤ now) : inWindow length now times = [] := by
  rw [inWindow, List.filter_eq_nil_iff]
  intro s hs
  have := h s hs
  simp only [decide_eq_true_eq]
  omega

theorem inWindow_sublist (length now : Nat) (times : List UInt64) :
    (inWindow length now times).Sublist times :=
  List.filter_sublist

theorem length_inWindow_le {xs ys : List UInt64} (length now : Nat) (h : xs.Sublist ys) :
    (inWindow length now xs).length ≤ (inWindow length now ys).length :=
  (h.filter _).length_le

theorem inWindow_inWindow (hle : now ≤ later) (htimes : ∀ s ∈ times, s.toNat ≤ now) :
    inWindow length later (inWindow length now times) = inWindow length later times := by
  unfold inWindow
  rw [List.filter_filter]
  apply List.filter_congr
  intro s hs
  have := htimes s hs
  rw [Bool.eq_iff_iff]
  simp only [Bool.and_eq_true, decide_eq_true_eq]
  omega

end Trailing

/-- Of times that do not fall those that have a property of early times come first. -/
theorem dropWhile_eq_filter {P : UInt64 → Bool} {times : List UInt64}
    (hs : times.Pairwise (· ≤ ·)) (hP : ∀ s u, s ≤ u → P u = true → P s = true) :
    times.dropWhile P = times.filter fun s => !P s := by
  induction times with
  | nil => rfl
  | cons s times ih =>
    obtain ⟨hle, hs⟩ := List.pairwise_cons.mp hs
    cases h : P s with
    | true => rw [List.dropWhile_cons_of_pos h, ih hs, List.filter_cons_of_neg (by simp [h])]
    | false =>
      rw [List.dropWhile_cons_of_neg (by simp [h]), eq_comm, List.filter_eq_self]
      intro u hu
      rcases List.mem_cons.mp hu with rfl | hu
      · simp [h]
      · cases hPu : P u with
        | false => rfl
        | true => rw [hP s u (hle u hu) hPu] at h; cases h

namespace SlidingLog

/-- A time has left a window that is a whole length past it. -/
theorem gone_iff {p : Policy} {now s : UInt64} :
    gone p now s = true ↔ s.toNat + p.window.toNat ≤ now.toNat := by
  simp only [gone, decide_eq_true_eq, UInt64.le_iff_toNat_le, toNat_satSub]
  omega

variable {l : SlidingLog} {p : Policy} {now : UInt64}

theorem times_purge (hs : l.times.Pairwise (· ≤ ·)) (hle : ∀ s ∈ l.times, s ≤ now) :
    (l.purge p now).times = inWindow p.window.toNat now.toNat l.times := by
  unfold purge inWindow
  rw [dropWhile_eq_filter hs]
  · apply List.filter_congr
    intro s hmem
    have hsn := hle s hmem
    rw [UInt64.le_iff_toNat_le] at hsn
    rw [Bool.eq_iff_iff, Bool.not_eq_true', ← Bool.not_eq_true, gone_iff, decide_eq_true_eq]
    omega
  · intro s u hsu hu
    rw [UInt64.le_iff_toNat_le] at hsu
    rw [gone_iff] at hu ⊢
    omega

theorem times_next (hs : l.times.Pairwise (· ≤ ·)) (hle : ∀ s ∈ l.times, s ≤ now)
    (hw : p.window ≠ 0) :
    (l.next p now).times = inWindow p.window.toNat now.toNat (l.times ++ [now]) := by
  have hpos : 0 < p.window.toNat := Nat.pos_of_ne_zero fun e => hw (UInt64.toNat.inj e)
  rw [next, times_purge hs hle, inWindow_concat hpos]

end SlidingLog

end Turnstile
