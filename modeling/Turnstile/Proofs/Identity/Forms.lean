import Turnstile.Proofs.Identity.LongRoundTrip

/-!
# The four forms agree

A text names an address in four forms, which are tried one after the other.  No text is read as two
addresses: the forms that start with a short address go on in different ways or read the same one,
no plain address starts with a bracket, and what ends in a port does not end in a bracket.  So the
order in which the forms are tried makes no difference.

* `Names`: a text that names an address in one of the forms.
* `names_unique`: it names no other.
* `ofText?_eq_some_iff`: the address that is found is the one that is named.
-/

set_option autoImplicit false

namespace Turnstile.Address

variable {x y : Address} {cs rest : List Char} {room : Nat} {first : Bool}

/-- A text that names an address in one of the four forms. -/
def Names (cs : List Char) (x : Address) : Prop :=
  plain? cs = some x ∨ endpoint? cs = some x ∨ bracketed? cs = some x ∨ host? cs = some x

/-! ## What is left of a text -/

theorem suffix_of_readDotted {r : UInt16 × UInt16} (h : readDotted cs = some (r, rest)) :
    rest <:+ cs := by
  obtain ⟨_, hread, he⟩ := Option.map_eq_some_iff.mp h
  cases he
  obtain ⟨p, rfl, -⟩ := exists_of_readBytes hread
  exact List.suffix_append p _

theorem suffix_of_readGroup {g : UInt16} (h : readGroup cs = some (g, rest)) : rest <:+ cs := by
  obtain ⟨_, hread, he⟩ := Option.map_eq_some_iff.mp h
  cases he
  obtain ⟨p, rfl, -⟩ := Numeral.exists_of_read hread
  exact List.suffix_append p _

/-- Groups are read off the start of a text. -/
theorem suffix_readGroups (room : Nat) (first : Bool) (cs : List Char) :
    (readGroups room first cs).rest <:+ cs := by
  induction room generalizing first cs with
  | zero => exact List.suffix_refl _
  | succ room ih =>
    rw [readGroups]
    split
    · next hread =>
      split at hread
      · obtain ⟨cs', hcs', hread⟩ := Option.bind_eq_some_iff.mp hread
        exact (suffix_of_readDotted hread).trans (suffix_of_afterColon hcs')
      · cases hread
    · split
      · next hread =>
        obtain ⟨cs', hcs', hread⟩ := Option.bind_eq_some_iff.mp hread
        exact (ih _ _).trans ((suffix_of_readGroup hread).trans (suffix_of_afterColon hcs'))
      · exact List.suffix_refl _

theorem suffix_of_readLong (h : readLong cs = some (x, rest)) : rest <:+ cs := by
  have hhead := suffix_readGroups 8 true cs
  unfold readLong at h
  simp only at h
  split at h
  · obtain ⟨_, _, he⟩ := Option.map_eq_some_iff.mp h
    cases he
    exact hhead
  · split at h
    · cases h
    · split at h
      · next cs' hrest =>
        obtain ⟨_, _, he⟩ := Option.map_eq_some_iff.mp h
        cases he
        rw [hrest] at hhead
        have htail := suffix_readGroups (7 - (readGroups 8 true cs).groups.length) true cs'
        exact (htail.trans ⟨[':', ':'], rfl⟩).trans hhead
      · cases h

theorem suffix_skipZone (cs : List Char) : skipZone cs <:+ cs := by
  unfold skipZone
  split
  · next hread =>
    obtain ⟨cs', hcs', hread⟩ := Option.bind_eq_some_iff.mp hread
    obtain ⟨p, rfl, -⟩ := Numeral.exists_of_read hread
    rw [expect_eq_some_iff.mp hcs']
    exact (List.suffix_append p _).trans (List.suffix_cons _ _)
  · exact List.suffix_refl _

/-! ## Colons and brackets -/

theorem readGroups_false_of_no_colon (h : ':' ∉ cs) :
    readGroups room false cs = ⟨[], false, cs⟩ := by
  cases room with
  | zero => rfl
  | succ room => simp [readGroups, afterColon, expect_eq_none h]

/-- Where there is no colon there are at most two groups, written as a short address. -/
theorem length_readGroups_of_no_colon (h : ':' ∉ cs) :
    (readGroups room true cs).groups.length ≤ 2 := by
  cases room with
  | zero => exact Nat.zero_le 2
  | succ room =>
    rw [readGroups]
    split
    · exact Nat.le_refl 2
    · split
      · next hread =>
        have hrest := fun hmem => h ((suffix_of_readGroup hread).mem hmem)
        rw [readGroups_false_of_no_colon hrest]
        exact Nat.le_succ 1
      · exact Nat.zero_le 2

/-- Long addresses have colons. -/
theorem readLong_eq_none (h : ':' ∉ cs) : readLong cs = none := by
  have hlength : (readGroups 8 true cs).groups.length ≤ 2 := length_readGroups_of_no_colon h
  have hne : (readGroups 8 true cs).groups.length ≠ 8 := by omega
  simp only [readLong, hne, ↓reduceIte]
  split
  · rfl
  · split
    · next hrest =>
      refine absurd ((suffix_readGroups 8 true cs).mem ?_) h
      rw [hrest]
      exact List.mem_cons_self
    · rfl

theorem readShort_bracket (cs : List Char) : readShort ('[' :: cs) = none := by
  rw [readShort, readBytes_of_ends (ends_cons (by decide)), Option.map_none]

/-- No address starts with a bracket. -/
theorem plain?_bracket (cs : List Char) : plain? ('[' :: cs) = none := by
  have hbytes : readBytes ('[' :: cs) = none := readBytes_of_ends (ends_cons (by decide))
  have hgroup : readGroup ('[' :: cs) = none := readGroup_eq_none (ends_cons (by decide))
  have hgroups : readGroups 8 true ('[' :: cs) = ⟨[], false, '[' :: cs⟩ := by
    rw [readGroups]
    simp only [afterColon, ↓reduceIte, Option.bind_some, readDotted, hbytes, hgroup,
      Option.map_none, ite_self]
  rw [plain?, readShort_bracket]
  simp [readLong, hgroups, whole]

/-! ## What a form demands -/

theorem whole_eq_some_iff {α : Type} {r : Option (α × List Char)} {a : α} :
    whole r = some a ↔ r = some (a, []) := by
  unfold whole
  split
  · simp
  · next hne =>
    simp only [reduceCtorEq, false_iff]
    rintro rfl
    exact hne a rfl

/-- Where a short address is read and something is left, there is no plain address. -/
theorem plain?_eq_none (h : readShort cs = some (x, rest)) (hrest : rest ≠ []) :
    plain? cs = none := by
  rw [plain?, h]
  refine Option.eq_none_iff_forall_not_mem.mpr fun y hy => hrest ?_
  cases whole_eq_some_iff.mp hy
  rfl

/-- A port that nothing follows ends a text in a digit. -/
theorem exists_of_readPort (h : readPort cs = some []) :
    ∃ p c, cs = p ++ [c] ∧ isDigit 10 c = true := by
  obtain ⟨cs', hcs', h⟩ := Option.bind_eq_some_iff.mp h
  obtain rfl := expect_eq_some_iff.mp hcs'
  obtain ⟨⟨n, rest⟩, hread, he⟩ := Option.bind_eq_some_iff.mp h
  cases he
  obtain ⟨ds, rfl, hds, hallows, -⟩ := Numeral.exists_of_read hread
  rcases ds.eq_nil_or_concat with rfl | ⟨ds, c, rfl⟩
  · exact absurd rfl hallows.1
  · exact ⟨':' :: ds, c, by simp, hds c (by simp)⟩

/-- An address with a port is a short address and a colon, or stands between a bracket and a
digit. -/
theorem exists_of_endpoint? (h : endpoint? cs = some x) :
    (∃ rest, readShort cs = some (x, ':' :: rest)) ∨
      ∃ cs' p c, cs = '[' :: cs' ∧ cs = p ++ [c] ∧ isDigit 10 c = true := by
  unfold endpoint? at h
  split at h
  · next r hread =>
    rw [whole_eq_some_iff] at h
    rw [h] at hread
    obtain ⟨⟨a, cs₁⟩, hshort, hread⟩ := Option.bind_eq_some_iff.mp hread
    obtain ⟨cs₂, hport, he⟩ := Option.bind_eq_some_iff.mp hread
    cases he
    obtain ⟨cs₃, hcolon, -⟩ := Option.bind_eq_some_iff.mp hport
    rw [expect_eq_some_iff.mp hcolon] at hshort
    exact .inl ⟨cs₃, hshort⟩
  · have hread := whole_eq_some_iff.mp h
    obtain ⟨cs₁, hopen, hread⟩ := Option.bind_eq_some_iff.mp hread
    obtain ⟨⟨a, cs₂⟩, hlong, hread⟩ := Option.bind_eq_some_iff.mp hread
    obtain ⟨cs₃, hclose, hread⟩ := Option.bind_eq_some_iff.mp hread
    obtain ⟨cs₄, hport, he⟩ := Option.bind_eq_some_iff.mp hread
    cases he
    obtain ⟨p, c, rfl, hc⟩ := exists_of_readPort hport
    obtain rfl := expect_eq_some_iff.mp hopen
    have hzone := suffix_skipZone cs₂
    rw [expect_eq_some_iff.mp hclose] at hzone
    obtain ⟨q, hq⟩ := ((List.suffix_cons ']' _).trans hzone).trans (suffix_of_readLong hlong)
    exact .inr ⟨cs₁, '[' :: q ++ p, c, rfl, by simp [← hq], hc⟩

/-- An address in brackets starts with one and ends with one. -/
theorem exists_of_bracketed? (h : bracketed? cs = some x) :
    ∃ cs', cs = '[' :: cs' ∧ cs'.getLast? = some ']' := by
  unfold bracketed? at h
  split at h
  · next cs' =>
    split at h
    · next hlast => exact ⟨cs', rfl, hlast⟩
    · cases h
  · cases h

/-- What comes before the only colon is a short address. -/
theorem exists_of_host? (h : host? cs = some x) :
    ∃ rest, readShort cs = some (x, ':' :: rest) := by
  unfold host? at h
  split at h
  · next rest hrest =>
    split at h
    · cases h
    · have hcs := List.takeWhile_append_dropWhile (p := (· ≠ ':')) (l := cs)
      rw [hrest] at hcs
      have hcolon : ':' ∉ cs.takeWhile (· ≠ ':') := fun hmem => by
        simpa using List.mem_takeWhile_imp hmem
      generalize cs.takeWhile (· ≠ ':') = p at h hcs hcolon
      subst hcs
      cases hshort : readShort p with
      | none =>
        rw [plain?, hshort] at h
        rw [readLong_eq_none hcolon] at h
        cases h
      | some r =>
        rw [plain?, hshort] at h
        rw [whole_eq_some_iff.mp h] at hshort
        obtain ⟨q, hq, -, -, hreads⟩ := exists_of_readShort hshort
        rw [List.append_nil] at hq
        subst hq
        exact ⟨rest, hreads _ (ends_cons (by decide))⟩
  · cases h

/-! ## No text has two forms with different addresses -/

theorem plain?_of_endpoint? (h : endpoint? cs = some x) : plain? cs = none := by
  rcases exists_of_endpoint? h with ⟨rest, hshort⟩ | ⟨cs', _, _, rfl, -⟩
  · exact plain?_eq_none hshort (List.cons_ne_nil _ _)
  · exact plain?_bracket cs'

theorem endpoint?_of_bracketed? (h : bracketed? cs = some x) : endpoint? cs = none := by
  obtain ⟨cs', rfl, hlast⟩ := exists_of_bracketed? h
  refine Option.eq_none_iff_forall_not_mem.mpr fun y hy => ?_
  rcases exists_of_endpoint? hy with ⟨rest, hshort⟩ | ⟨_, p, c, -, hcs, hc⟩
  · rw [readShort_bracket] at hshort
    cases hshort
  · have hlast' : ('[' :: cs').getLast? = some ']' := by
      rw [List.getLast?_cons, hlast]
      rfl
    rw [hcs, List.getLast?_append, List.getLast?_singleton] at hlast'
    cases hlast'
    exact absurd hc (by decide)

/-- **The address that is found is the one that is named**, in whichever form. -/
theorem ofText?_eq_some_iff : ofText? cs = some x ↔ Names cs x := by
  simp only [ofText?, Option.orElse_eq_orElse, Option.orElse_eq_or, Option.or_eq_some_iff]
  constructor
  · rintro (h | ⟨-, h | ⟨-, h | ⟨-, h⟩⟩⟩)
    · exact .inl h
    · exact .inr (.inl h)
    · exact .inr (.inr (.inl h))
    · exact .inr (.inr (.inr h))
  · rintro (h | h | h | h)
    · exact .inl h
    · exact .inr ⟨plain?_of_endpoint? h, .inl h⟩
    · obtain ⟨cs', rfl, -⟩ := exists_of_bracketed? h
      exact .inr ⟨plain?_bracket cs', .inr ⟨endpoint?_of_bracketed? h, .inl h⟩⟩
    · obtain ⟨rest, hshort⟩ := exists_of_host? h
      refine .inr ⟨plain?_eq_none hshort (List.cons_ne_nil _ _), ?_⟩
      cases hend : endpoint? cs with
      | some y =>
        -- a port or something else after the same short address
        rcases exists_of_endpoint? hend with ⟨_, hshort'⟩ | ⟨cs', _, _, rfl, -⟩
        · rw [hshort] at hshort'
          cases hshort'
          exact .inl rfl
        · rw [readShort_bracket] at hshort
          cases hshort
      | none =>
        refine .inr ⟨rfl, .inr ⟨?_, h⟩⟩
        refine Option.eq_none_iff_forall_not_mem.mpr fun y hy => ?_
        obtain ⟨cs', rfl, -⟩ := exists_of_bracketed? hy
        rw [readShort_bracket] at hshort
        cases hshort

theorem names_unique (h : Names cs x) (h' : Names cs y) : x = y :=
  Option.some.inj ((ofText?_eq_some_iff.mpr h).symm.trans (ofText?_eq_some_iff.mpr h'))

end Turnstile.Address
