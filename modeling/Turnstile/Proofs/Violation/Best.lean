import Mathlib.Data.List.Nodup
import Mathlib.Data.String.Basic
import Mathlib.Logic.Function.Basic
import Turnstile.Proofs.Text.ByteOrder
import Turnstile.Violation.Monitor

/-!
# The best of all

Of all trackers that have violations only the best are listed, those that are ahead of every other
one.  A tracker that has one violation more can only move ahead.  If it is listed already the list
stays the best; if it is not, it joins the list, and who is last then has to leave.

* `Violator.Ahead`: more violations, or as many and the earlier name in bytes.
* `Best`: the names of the best trackers.
* `best_drop`: who is left when as many are dropped as are too many.
* `Best.bump`, `Best.join`: a violation of a tracker that is listed, and of one that is not.
-/

set_option autoImplicit false

namespace Turnstile

namespace Violator

/-- Whether one violator is ranked before another one: it has more violations, or as many and the
bytes of its name come first. -/
def Ahead (a b : Violator) : Prop :=
  b.violations < a.violations ∨
    a.violations = b.violations ∧ Binary.utf8 a.tracker < Binary.utf8 b.tracker

variable {a b c : Violator}

theorem ahead_iff :
    a.Ahead b ↔ b.violations < a.violations ∨ a.violations = b.violations ∧ a.tracker < b.tracker := by
  rw [Ahead, Binary.utf8_lt_iff]

theorem Ahead.trans (hab : a.Ahead b) (hbc : b.Ahead c) : a.Ahead c := by
  rw [ahead_iff] at *
  rcases hab with hab | ⟨hab, hnames⟩ <;> rcases hbc with hbc | ⟨hbc, hnames'⟩
  · exact .inl (UInt64.lt_trans hbc hab)
  · exact .inl (hbc ▸ hab)
  · exact .inl (hab ▸ hbc)
  · exact .inr ⟨hab.trans hbc, lt_trans hnames hnames'⟩

theorem Ahead.irrefl (a : Violator) : ¬ a.Ahead a := by
  rw [ahead_iff]
  rintro (h | ⟨_, h⟩)
  · exact UInt64.lt_irrefl _ h
  · exact lt_irrefl _ h

/-- Of two violators one is ahead, unless they are the same. -/
theorem ahead_or_eq (a b : Violator) : a.Ahead b ∨ a = b ∨ b.Ahead a := by
  obtain ⟨x, m⟩ := a
  obtain ⟨y, n⟩ := b
  simp only [ahead_iff, mk.injEq]
  rcases Nat.lt_trichotomy m.toNat n.toNat with hlt | heq | hgt
  · exact .inr (.inr (.inl hlt))
  · obtain rfl := UInt64.toNat.inj heq
    rcases lt_trichotomy x y with hlt | rfl | hgt
    · exact .inl (.inr ⟨rfl, hlt⟩)
    · exact .inr (.inl ⟨rfl, rfl⟩)
    · exact .inr (.inr (.inr ⟨rfl, hgt⟩))
  · exact .inl (.inl hgt)

theorem stronger_iff : a.stronger b = true ↔ a.Ahead b ∨ a = b := by
  obtain ⟨x, m⟩ := a
  obtain ⟨y, n⟩ := b
  simp only [stronger, ahead_iff, Bool.or_eq_true, Bool.and_eq_true, decide_eq_true_eq, mk.injEq,
    le_iff_lt_or_eq]
  constructor
  · rintro (h | ⟨h, hlt | heq⟩)
    · exact .inl (.inl h)
    · exact .inl (.inr ⟨h, hlt⟩)
    · exact .inr ⟨heq, h⟩
  · rintro ((h | ⟨h, hlt⟩) | ⟨heq, h⟩)
    · exact .inl h
    · exact .inr ⟨h, .inl hlt⟩
    · exact .inr ⟨h, .inr heq⟩

/-- Who is evicted first is ranked last. -/
theorem weaker_eq (a b : Violator) : a.weaker b = b.stronger a := by
  simp only [weaker, stronger, eq_comm]

theorem stronger_trans (a b c : Violator) (hab : a.stronger b = true) (hbc : b.stronger c = true) :
    a.stronger c = true := by
  rw [stronger_iff] at *
  rcases hab with hab | rfl
  · rcases hbc with hbc | rfl
    · exact .inl (hab.trans hbc)
    · exact .inl hab
  · exact hbc

theorem stronger_total (a b : Violator) : (a.stronger b || b.stronger a) = true := by
  rw [Bool.or_eq_true, stronger_iff, stronger_iff]
  rcases ahead_or_eq a b with h | h | h
  · exact .inl (.inl h)
  · exact .inl (.inr h)
  · exact .inr (.inl h)

/-- Violators without repetition that are sorted by rank are each ahead of the later ones. -/
theorem pairwise_ahead_mergeSort {l : List Violator} (h : l.Nodup) :
    (l.mergeSort stronger).Pairwise Ahead := by
  have hsorted := List.pairwise_mergeSort stronger_trans stronger_total l
  have hnodup : (l.mergeSort stronger).Nodup := (List.mergeSort_perm l stronger).nodup_iff.mpr h
  refine (hsorted.and hnodup).imp fun ⟨hstronger, hne⟩ => ?_
  exact (stronger_iff.mp hstronger).resolve_right hne

end Violator

namespace Violation

variable {capacity : Nat} {n : String → UInt64} {l : List String}

/-- A tracker that has a number of violations has them as a violator. -/
def violator (n : String → UInt64) (x : String) : Violator := ⟨x, n x⟩

/-- The names of the best trackers: there are as many as may be, or all that have violations, and
each of them is ahead of everyone else. -/
structure Best (capacity : Nat) (n : String → UInt64) (l : List String) : Prop where
  nodup : l.Nodup
  positive : ∀ x ∈ l, 0 < n x
  few : l.length ≤ capacity
  full : l.length < capacity → ∀ x, 0 < n x → x ∈ l
  ahead : ∀ x ∈ l, ∀ y, 0 < n y → y ∉ l → (violator n x).Ahead (violator n y)

theorem best_nil (h : ∀ x, n x = 0) : Best capacity n [] where
  nodup := List.nodup_nil
  positive := nofun
  few := Nat.zero_le _
  full _ x hx := by simp [h] at hx
  ahead := nofun

theorem Best.perm (h : Best capacity n l) {l' : List String} (hp : l.Perm l') :
    Best capacity n l' where
  nodup := hp.nodup_iff.mp h.nodup
  positive x hx := h.positive x (hp.mem_iff.mpr hx)
  few := hp.length_eq ▸ h.few
  full hlt x hx := hp.mem_iff.mp (h.full (hp.length_eq ▸ hlt) x hx)
  ahead x hx y hy hmem := h.ahead x (hp.mem_iff.mpr hx) y hy fun hm => hmem (hp.mem_iff.mp hm)

/-- More violations can only move a tracker ahead. -/
theorem ahead_of_le {x y : String} {i j k : UInt64} (h : Violator.Ahead ⟨x, i⟩ ⟨y, k⟩)
    (hle : i ≤ j) : Violator.Ahead ⟨x, j⟩ ⟨y, k⟩ := by
  rw [Violator.ahead_iff] at *
  dsimp only at *
  rcases UInt64.lt_or_eq_of_le hle with hlt | rfl
  · rcases h with h | ⟨rfl, _⟩
    · exact .inl (UInt64.lt_trans h hlt)
    · exact .inl hlt
  · exact h

variable {t : String} {count : UInt64}

/-- **A violation of a tracker that is listed** leaves the list the best. -/
theorem Best.bump (h : Best capacity n l) (ht : t ∈ l) (hle : n t ≤ count) :
    Best capacity (Function.update n t count) l := by
  have hsame : ∀ y, y ∉ l → Function.update n t count y = n y := fun y hy =>
    Function.update_of_ne (fun e : y = t => hy (e ▸ ht)) count n
  have hmore : ∀ x, n x ≤ Function.update n t count x := by
    intro x
    by_cases hx : x = t
    · rw [hx, Function.update_self]
      exact hle
    · rw [Function.update_of_ne hx]
      exact UInt64.le_refl _
  refine ⟨h.nodup, fun x hx => ?_, h.few, fun hlt x hx => ?_, fun x hx y hy hmem => ?_⟩
  · exact UInt64.lt_of_lt_of_le (h.positive x hx) (hmore x)
  · by_contra hmem
    rw [hsame x hmem] at hx
    exact hmem (h.full hlt x hx)
  · rw [hsame y hmem] at hy
    have hahead := h.ahead x hx y hy hmem
    rw [violator, violator, hsame y hmem]
    exact ahead_of_le hahead (hmore x)

/-- The best are left of names in order, those with the fewest violations first, when as many are
dropped as are too many: they only have to be ahead of everyone who is not among the names. -/
theorem best_drop {all : List String} (hnodup : all.Nodup) (hpositive : ∀ x ∈ all, 0 < n x)
    (hsorted : all.Pairwise fun x y => (violator n y).Ahead (violator n x))
    (hfull : all.length < capacity → ∀ x, 0 < n x → x ∈ all)
    (hahead : ∀ x ∈ all.drop (all.length - capacity), ∀ y, 0 < n y → y ∉ all →
      (violator n x).Ahead (violator n y)) :
    Best capacity n (all.drop (all.length - capacity)) := by
  have hlength : (all.drop (all.length - capacity)).length =
      all.length - (all.length - capacity) := List.length_drop
  refine ⟨hnodup.sublist (List.drop_sublist _ all), fun x hx => hpositive x (List.mem_of_mem_drop hx),
    by omega, fun hlt => ?_, fun x hx y hy hout => ?_⟩
  · have hnone : all.length - capacity = 0 := by omega
    rw [hnone, List.drop_zero]
    exact hfull (by omega)
  · by_cases hyall : y ∈ all
    · have hsplit := List.take_append_drop (all.length - capacity) all
      rw [← hsplit] at hsorted hyall
      have hy : y ∈ all.take (all.length - capacity) :=
        (List.mem_append.mp hyall).resolve_right hout
      exact (List.pairwise_append.mp hsorted).2.2 y hy x hx
    · exact hahead x hx y hy hyall

/-- **A violation of a tracker that is not listed.**  The tracker joins the list, and if that makes
them too many the last one leaves it. -/
theorem Best.join (h : Best capacity n l) (ht : t ∉ l) (hpos : 0 < count) {all : List String}
    (hall : all.Perm (t :: l))
    (hsorted : all.Pairwise fun x y =>
      (violator (Function.update n t count) y).Ahead (violator (Function.update n t count) x)) :
    Best capacity (Function.update n t count) (all.drop (all.length - capacity)) := by
  generalize hn' : Function.update n t count = n' at *
  have hself : n' t = count := hn' ▸ Function.update_self t count n
  have hsame : ∀ y, y ≠ t → n' y = n y := fun y hy => hn' ▸ Function.update_of_ne hy count n
  have hlisted : ∀ x ∈ l, n' x = n x := fun x hx => hsame x fun e => ht (e ▸ hx)
  have hnodup : all.Nodup := hall.nodup_iff.mpr (List.nodup_cons.mpr ⟨ht, h.nodup⟩)
  have hmem : ∀ x, x ∈ all ↔ x = t ∨ x ∈ l := fun x => hall.mem_iff.trans List.mem_cons
  have hlength : all.length = l.length + 1 := hall.length_eq
  refine best_drop hnodup (fun x hx => ?_) hsorted (fun hlt x hx => ?_) fun x hx y hy hout => ?_
  · rcases (hmem x).mp hx with rfl | hx
    · exact hself ▸ hpos
    · exact hlisted x hx ▸ h.positive x hx
  · rw [hmem]
    by_cases hxt : x = t
    · exact .inl hxt
    · exact .inr (h.full (by omega) x (hsame x hxt ▸ hx))
  · -- who is not listed and does not join was behind all that were listed
    have hyt : y ≠ t := fun e => hout ((hmem y).mpr (.inl e))
    have hyl : y ∉ l := fun hm => hout ((hmem y).mpr (.inr hm))
    rw [hsame y hyt] at hy
    have hbehind : ∀ w ∈ l, (violator n' w).Ahead (violator n' y) := by
      intro w hw
      rw [violator, violator, hsame y hyt, hlisted w hw]
      exact h.ahead w hw y hy hyl
    rcases (hmem x).mp (List.mem_of_mem_drop hx) with rfl | hxl
    · -- the tracker that joins is ahead of one that was listed and leaves
      have hfew := h.few
      have hfull : ¬ l.length < capacity := fun hlt => hyl (h.full hlt y hy)
      obtain ⟨w, rest, rfl⟩ := List.exists_cons_of_length_eq_add_one hlength
      have hone : (w :: rest).length - capacity = 1 := by omega
      rw [hone, List.drop_one, List.tail_cons] at hx
      have hw : w ∈ l := by
        refine ((hmem w).mp List.mem_cons_self).resolve_left fun e => ?_
        exact (List.nodup_cons.mp hnodup).1 (e ▸ hx)
      exact ((List.pairwise_cons.mp hsorted).1 x hx).trans (hbehind w hw)
    · exact hbehind x hxl

end Violation

end Turnstile
