import Turnstile.Proofs.Violation.Best
import Turnstile.Proofs.Violation.Rosters

/-!
# Who stays on the rosters

The rosters list the best trackers of the day.  A tracker that has a violation and is on no roster
joins the one that lists it, and if too many are listed then those with the fewest violations are
struck off.  That leaves the best of them.

* `Violation.Shelved`, `Violation.allNames`: rosters that list the names they should, and the names.
* `Violation.perm_drop_of_struck`, `Violation.left_of_joined`: who is left when some are struck off.
* `Violation.best_of_joined`, `Violation.best_of_enlists`: joining keeps the best.
-/

set_option autoImplicit false

namespace Turnstile

namespace Violation

variable {n : String → UInt64} {R R' : Nat → Option Roster}

/-- Every name is on the roster that lists it. -/
def Shelved (R : Nat → Option Roster) : Prop := ∀ k x, x ∈ names (R k) → k = rosterOf x

/-- The names on all rosters. -/
def allNames (R : Nat → Option Roster) : List String := (index R).map Prod.snd

theorem rosterOf_lt (x : String) : rosterOf x < rosterCount := Nat.mod_lt _ (by decide)

theorem mem_allNames (h : Shelved R) {x : String} : x ∈ allNames R ↔ x ∈ names (R (rosterOf x)) := by
  simp only [allNames, List.mem_map, Prod.exists, exists_eq_right, mem_index]
  constructor
  · rintro ⟨k, _, hx⟩
    exact h k x hx ▸ hx
  · exact fun hx => ⟨rosterOf x, rosterOf_lt x, hx⟩

theorem nodup_allNames (h : Shelved R) : (allNames R).Nodup := by
  refine (nodup_index R).map_on fun e he e' he' heq => ?_
  obtain ⟨k, x⟩ := e
  obtain ⟨k', x'⟩ := e'
  obtain rfl : x = x' := heq
  rw [h k x (mem_index.mp he).2, h k' x (mem_index.mp he').2]

/-- Where all that are listed have violations the listing has them all. -/
theorem listing_eq (h : ∀ x ∈ allNames R, 0 < n x) :
    listing n R = (index R).map fun e => (e.1, violator n e.2) := by
  rw [listing, List.filter_eq_self.mpr]
  · rfl
  · intro e he
    exact decide_eq_true (h e.2 (List.mem_map_of_mem he))

theorem map_tracker_listing (h : ∀ x ∈ allNames R, 0 < n x) :
    (listing n R).map (fun e => e.2.tracker) = allNames R := by
  rw [listing_eq h, List.map_map, allNames]
  rfl

theorem perm_weakestFirst (h : ∀ x ∈ allNames R, 0 < n x) :
    ((weakestFirst n R).map fun e => e.2.tracker).Perm (allNames R) := by
  rw [← map_tracker_listing h]
  exact (List.mergeSort_perm _ _).map _

theorem pairwise_weakestFirst (hR : Shelved R) (h : ∀ x ∈ allNames R, 0 < n x) :
    ((weakestFirst n R).map fun e => e.2.tracker).Pairwise fun x y =>
      (violator n y).Ahead (violator n x) := by
  have hnodup : ((weakestFirst n R).map fun e => e.2.tracker).Nodup :=
    (perm_weakestFirst h).nodup_iff.mpr (nodup_allNames hR)
  have hsorted : (weakestFirst n R).Pairwise fun a b => b.2.stronger a.2 = true := by
    refine (List.pairwise_mergeSort (fun a b c hab hbc => ?_) (fun a b => ?_) _).imp fun h => ?_
    · rw [Violator.weaker_eq] at *
      exact Violator.stronger_trans _ _ _ hbc hab
    · rw [Violator.weaker_eq, Violator.weaker_eq]
      exact Violator.stronger_total _ _
    · rwa [Violator.weaker_eq] at h
  have hviolator : ∀ e ∈ weakestFirst n R, e.2 = violator n e.2.tracker := by
    intro e he
    have hn := (mem_listing.mp (List.mem_mergeSort.mp he)).2.2
    obtain ⟨k, x, v⟩ := e
    exact congrArg (Violator.mk x) hn
  rw [List.Nodup, List.pairwise_map] at hnodup
  rw [List.pairwise_map]
  refine (hsorted.and hnodup).imp_of_mem fun ha hb ⟨hstronger, hne⟩ => ?_
  rw [← hviolator _ ha, ← hviolator _ hb]
  exact (Violator.stronger_iff.mp hstronger).resolve_right fun e => hne (e ▸ rfl)

theorem mem_drop_iff_of_nodup {α : Type} {l : List α} (h : l.Nodup) {k : Nat} {a : α} :
    a ∈ l.drop k ↔ a ∈ l ∧ a ∉ l.take k := by
  have hdisjoint := List.disjoint_take_drop h (Nat.le_refl k)
  have hmem : a ∈ l ↔ a ∈ l.take k ∨ a ∈ l.drop k := by
    rw [← List.mem_append, List.take_append_drop]
  rw [hmem]
  exact ⟨fun hd => ⟨.inr hd, fun ht => hdisjoint ht hd⟩, fun hm => hm.1.resolve_left hm.2⟩

/-- Who is left when some are struck off. -/
theorem perm_drop_of_struck (hR : Shelved R) (h : ∀ x ∈ allNames R, 0 < n x) {excess : Nat}
    (hnames : ∀ k x, x ∈ names (R' k) ↔ x ∈ names (R k) ∧
      (k, x) ∉ ((weakestFirst n R).take excess).map fun e => (e.1, e.2.tracker)) :
    Shelved R' ∧
      (((weakestFirst n R).map fun e => e.2.tracker).drop excess).Perm (allNames R') := by
  have hR' : Shelved R' := fun k x hx => hR k x ((hnames k x).mp hx).1
  refine ⟨hR', ?_⟩
  have hperm := perm_weakestFirst h
  have hnodup : ((weakestFirst n R).map fun e => e.2.tracker).Nodup :=
    hperm.nodup_iff.mpr (nodup_allNames hR)
  refine (List.perm_ext_iff_of_nodup (hnodup.sublist (List.drop_sublist _ _))
    (nodup_allNames hR')).mpr fun x => ?_
  have hstruck : (rosterOf x, x) ∈ ((weakestFirst n R).take excess).map (fun e => (e.1, e.2.tracker))
      ↔ x ∈ ((weakestFirst n R).map fun e => e.2.tracker).take excess := by
    rw [← List.map_take]
    simp only [List.mem_map, Prod.mk.injEq]
    constructor
    · rintro ⟨e, he, _, rfl⟩
      exact ⟨e, he, rfl⟩
    · rintro ⟨e, he, rfl⟩
      have hlisted := mem_listing.mp (List.mem_mergeSort.mp (List.mem_of_mem_take he))
      exact ⟨e, he, hR _ _ hlisted.1.2, rfl⟩
  rw [mem_allNames hR', hnames, hstruck, ← mem_allNames hR, ← hperm.mem_iff]
  exact mem_drop_iff_of_nodup hnodup

/-- **Who is left when a tracker joins**: all that are listed and the tracker, but for those with the
fewest violations that are too many. -/
theorem left_of_joined {capacity : Nat} {t : String} {R₁ : Nat → Option Roster} (hR : Shelved R)
    (ht : t ∉ names (R (rosterOf t))) (hpositive : ∀ x ∈ t :: allNames R, 0 < n x)
    (hjoined : ∀ k x, x ∈ names (R₁ k) ↔ (k = rosterOf t ∧ x = t) ∨ x ∈ names (R k))
    (hnames : ∀ k x, x ∈ names (R' k) ↔ x ∈ names (R₁ k) ∧
      (k, x) ∉ ((weakestFirst n R₁).take ((listing n R₁).length - capacity)).map
        fun e => (e.1, e.2.tracker)) :
    Shelved R' ∧ ∃ order : List String, order.Perm (t :: allNames R) ∧
      (order.Pairwise fun x y => (violator n y).Ahead (violator n x)) ∧
      (order.drop (order.length - capacity)).Perm (allNames R') := by
  have hR₁ : Shelved R₁ := by
    intro k x hx
    rcases (hjoined k x).mp hx with ⟨rfl, rfl⟩ | hx
    · rfl
    · exact hR k x hx
  rw [← mem_allNames hR] at ht
  have hperm : (allNames R₁).Perm (t :: allNames R) := by
    refine (List.perm_ext_iff_of_nodup (nodup_allNames hR₁)
      (List.nodup_cons.mpr ⟨ht, nodup_allNames hR⟩)).mpr fun x => ?_
    rw [mem_allNames hR₁, hjoined, List.mem_cons, mem_allNames hR]
    exact or_congr_left ⟨fun h => h.2, fun h => ⟨h ▸ rfl, h⟩⟩
  have hpositive₁ : ∀ x ∈ allNames R₁, 0 < n x := fun x hx => hpositive x (hperm.mem_iff.mp hx)
  obtain ⟨hR', hleft⟩ := perm_drop_of_struck hR₁ hpositive₁ hnames
  have hlength : (listing n R₁).length = ((weakestFirst n R₁).map fun e => e.2.tracker).length := by
    rw [List.length_map, weakestFirst, List.length_mergeSort]
  rw [hlength] at hleft
  exact ⟨hR', _, (perm_weakestFirst hpositive₁).trans hperm, pairwise_weakestFirst hR₁ hpositive₁,
    hleft⟩

/-- Whoever joins has violations, like those that are listed. -/
theorem positive_cons {t : String} {count : UInt64} {l : List String} (h : ∀ x ∈ l, 0 < n x)
    (hpos : 0 < count) : ∀ x ∈ t :: l, 0 < Function.update n t count x := by
  intro x hx
  by_cases heq : x = t
  · rw [heq, Function.update_self]
    exact hpos
  · rw [Function.update_of_ne heq]
    exact h x ((List.mem_cons.mp hx).resolve_left heq)

/-- **Joining keeps the best.**  A tracker with violations joins the rosters of the best, and those
with the fewest are struck off. -/
theorem best_of_joined {capacity : Nat} {t : String} {count : UInt64} {R₁ : Nat → Option Roster}
    (hR : Shelved R) (hbest : Best capacity n (allNames R)) (ht : t ∉ names (R (rosterOf t)))
    (hpos : 0 < count)
    (hjoined : ∀ k x, x ∈ names (R₁ k) ↔ (k = rosterOf t ∧ x = t) ∨ x ∈ names (R k))
    (hnames : ∀ k x, x ∈ names (R' k) ↔ x ∈ names (R₁ k) ∧
      (k, x) ∉ ((weakestFirst (Function.update n t count) R₁).take
        ((listing (Function.update n t count) R₁).length - capacity)).map
          fun e => (e.1, e.2.tracker)) :
    Shelved R' ∧ Best capacity (Function.update n t count) (allNames R') := by
  have hout : t ∉ allNames R := by rwa [mem_allNames hR]
  obtain ⟨hR', order, hperm, hsorted, hleft⟩ :=
    left_of_joined hR ht (positive_cons hbest.positive hpos) hjoined hnames
  exact ⟨hR', (hbest.join hout hpos hperm hsorted).perm hleft⟩

/-- **The rosters list the best**, whoever has one violation more. -/
theorem best_of_enlists {capacity : Nat} {t : String} {count : UInt64} (hR : Shelved R)
    (hbest : Best capacity n (allNames R)) (hle : n t ≤ count) (hpos : 0 < count)
    (henlists : Enlists capacity (Function.update n t count) t R R') :
    Shelved R' ∧ Best capacity (Function.update n t count) (allNames R') := by
  unfold Enlists at henlists
  split at henlists
  · rename_i ht
    subst henlists
    exact ⟨hR, hbest.bump ((mem_allNames hR).mpr ht) hle⟩
  · rename_i ht
    obtain ⟨R₁, hjoined, hnames⟩ := henlists
    exact best_of_joined hR hbest ht hpos hjoined hnames

end Violation

end Turnstile
