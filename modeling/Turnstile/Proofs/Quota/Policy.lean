import Turnstile.Proofs.Word
import Turnstile.Quota.Policy

/-!
# Valid policies

* `Policy.fault?_eq_none_iff`: what a valid policy is.
* `PolicyTable.ofList_eq_ok_iff`: a table holds the given policies in their order, and is there
  exactly when they are valid and have different names.
-/

set_option autoImplicit false

namespace Turnstile

namespace Policy

variable {p : Policy}

theorem fault?_eq_none_iff :
    p.fault? = none ↔
      Text.trimmed p.name ≠ "" ∧ p.window ≠ 0 ∧ p.maxRequests ≠ 0 ∧ p.block ≠ some 0 := by
  unfold fault?
  repeat' split
  all_goals simp_all

theorem window_ne_zero (h : p.fault? = none) : p.window ≠ 0 := (fault?_eq_none_iff.mp h).2.1

theorem maxRequests_ne_zero (h : p.fault? = none) : p.maxRequests ≠ 0 :=
  (fault?_eq_none_iff.mp h).2.2.1

/-- A policy that admits two requests a second. -/
def twoPerSecond (algorithm : Algorithm) : Policy := ⟨"login", 1000, 2, none, algorithm⟩

theorem fault?_twoPerSecond (algorithm : Algorithm) : (twoPerSecond algorithm).fault? = none := by
  have hname : Text.trimmed "login" ≠ "" := by decide +kernel
  exact fault?_eq_none_iff.mpr ⟨hname, by simp [twoPerSecond], by simp [twoPerSecond], nofun⟩

end Policy

namespace PolicyTable

variable {t t' : PolicyTable}

theorem get?_eq_none_iff {name : String} :
    t.get? name = none ↔ ∀ p ∈ t.policies, p.name ≠ name := by
  simp [get?]

/-- A table with policies of different names finds each of them. -/
theorem get?_of_mem {p : Policy} (hn : (t.policies.map Policy.name).Nodup) (hp : p ∈ t.policies) :
    t.get? p.name = some p := by
  obtain ⟨ps⟩ := t
  unfold get?
  induction ps with
  | nil => cases hp
  | cons q qs ih =>
    obtain ⟨hq, hqs⟩ := List.nodup_cons.mp hn
    rcases List.mem_cons.mp hp with rfl | hp
    · exact List.find?_cons_of_pos (by simp)
    · have hne : q.name ≠ p.name := fun e => hq (e ▸ List.mem_map_of_mem hp)
      rw [List.find?_cons_of_neg (by simpa using hne)]
      exact ih hqs hp

theorem extend_eq_ok_iff {ps : List Policy} (hn : (t.policies.map Policy.name).Nodup) :
    t.extend ps = .ok t' ↔ t'.policies = t.policies ++ ps ∧ (∀ p ∈ ps, p.fault? = none) ∧
      (t'.policies.map Policy.name).Nodup := by
  induction ps generalizing t with
  | nil =>
    obtain ⟨ps⟩ := t
    obtain ⟨ps'⟩ := t'
    simp only [extend, Except.ok.injEq, mk.injEq, List.append_nil, List.not_mem_nil]
    constructor
    · rintro rfl
      exact ⟨rfl, by simp, hn⟩
    · exact fun h => h.1.symm
  | cons p ps ih =>
    unfold extend
    split
    · rename_i e he
      simp [he]
    · rename_i hp
      split
      · rename_i htaken
        obtain ⟨q, hq⟩ := Option.isSome_iff_exists.mp htaken
        have hmem : q ∈ t.policies := List.mem_of_find?_eq_some hq
        have hname : q.name = p.name := by simpa using List.find?_some hq
        simp only [reduceCtorEq, false_iff, not_and]
        intro hps _ hnodup
        rw [hps, List.map_append, List.nodup_append] at hnodup
        exact hnodup.2.2 q.name (List.mem_map_of_mem hmem) p.name (by simp) hname
      · rename_i hfree
        have hfree := get?_eq_none_iff.mp (Option.not_isSome_iff_eq_none.mp hfree)
        have hn' : ((t.policies ++ [p]).map Policy.name).Nodup := by
          rw [List.map_append, List.nodup_append]
          refine ⟨hn, by simp, ?_⟩
          rintro _ hq _ hp rfl
          obtain ⟨q, hmem, rfl⟩ := List.mem_map.mp hq
          exact hfree q hmem (by simpa using hp)
        rw [ih hn']
        simp [hp]

/-- **A table is there exactly for valid policies with different names**, and holds them in the
order in which they were given. -/
theorem ofList_eq_ok_iff {ps : List Policy} :
    ofList ps = .ok t ↔
      t.policies = ps ∧ (∀ p ∈ ps, p.fault? = none) ∧ (ps.map Policy.name).Nodup := by
  unfold ofList
  rw [extend_eq_ok_iff (by simp)]
  simp only [List.nil_append]
  constructor
  · rintro ⟨rfl, h⟩
    exact ⟨rfl, h⟩
  · rintro ⟨rfl, h⟩
    exact ⟨rfl, h⟩

end PolicyTable

end Turnstile
