import Turnstile.Proofs.Identity.ShortRoundTrip

/-!
# Long addresses are read back

Groups are read as long as there is a colon and a group, so two colons stop them, and so does the
end of the text.  A long address is written with colons between its groups, or with two colons in
place of a run of zero groups; either way the groups come back, and what is left out is filled up
with zeros.

* `readGroups_joined`: groups with colons between them are read back.
* `longestZeros_split`: what is left out is a run of zeros.
* `plain?_text`: every address is read back from its written form.
-/

set_option autoImplicit false

namespace Turnstile.Address

variable {g : UInt16} {gs : List UInt16} {cs rest : List Char} {room : Nat} {first : Bool}

/-! ## Groups -/

theorem readGroup_toDigits (g : UInt16) (hrest : Ends 16 rest) :
    readGroup (Nat.toDigits 16 g.toNat ++ rest) = some (g, rest) := by
  have hlt := g.toNat_lt
  have hread : group.read (Nat.toDigits 16 g.toNat ++ rest) = some (g.toNat, rest) := by
    refine Numeral.read_toDigits (by decide) (by decide) ?_ ?_ hrest
    · rintro _ ⟨⟩
      exact (Nat.length_toDigits_le_iff (by decide) (by decide)).mpr hlt
    · show g.toNat ≤ 65535
      omega
  rw [readGroup, hread]
  exact congrArg (fun x => some (x, rest)) UInt16.ofNat_toNat

/-- A text that starts with no digit starts with no group. -/
theorem readGroup_eq_none (h : Ends 16 cs) : readGroup cs = none := by
  rw [readGroup, Numeral.read_eq_none h, Option.map_none]

theorem suffix_of_afterColon {cs' : List Char} (h : afterColon first cs = some cs') :
    cs' <:+ cs := by
  cases first with
  | true =>
    cases h
    exact List.suffix_refl _
  | false =>
    rw [expect_eq_some_iff.mp h]
    exact List.suffix_cons ':' cs'

/-- Where there is no point, no two groups are read as a short address. -/
theorem readDotted_eq_none (first : Bool) (hdot : '.' ∉ cs) :
    (afterColon first cs).bind readDotted = none := by
  refine Option.bind_eq_none_iff.mpr fun cs' h => ?_
  rw [readDotted, readBytes_eq_none fun hmem => hdot ((suffix_of_afterColon h).mem hmem),
    Option.map_none]

theorem readGroups_of_some (hdot : '.' ∉ cs)
    (h : (afterColon first cs).bind readGroup = some (g, rest)) :
    readGroups (room + 1) first cs =
      ⟨g :: (readGroups room false rest).groups, (readGroups room false rest).dotted,
        (readGroups room false rest).rest⟩ := by
  simp only [readGroups, readDotted_eq_none first hdot, h, ite_self]

theorem readGroups_of_none (hdot : '.' ∉ cs)
    (h : (afterColon first cs).bind readGroup = none) :
    readGroups room first cs = ⟨[], false, cs⟩ := by
  cases room with
  | zero => rfl
  | succ room => simp only [readGroups, readDotted_eq_none first hdot, h, ite_self]

/-- The end of a text, or two colons. -/
def Stops (rest : List Char) : Prop := rest = [] ∨ ∃ cs, rest = ':' :: ':' :: cs

theorem Stops.ends (h : Stops rest) : Ends 16 rest := by
  rcases h with rfl | ⟨cs, rfl⟩
  · exact ends_nil
  · exact ends_cons (by decide)

/-- No group is read there. -/
theorem readGroups_of_stops (h : Stops rest) (hdot : '.' ∉ rest) :
    readGroups room first rest = ⟨[], false, rest⟩ := by
  refine readGroups_of_none hdot ?_
  cases first with
  | true => exact readGroup_eq_none h.ends
  | false =>
    rcases h with rfl | ⟨cs, rfl⟩
    · rfl
    · exact readGroup_eq_none (ends_cons (by decide))

/-- Groups with a colon before each of them. -/
def colons (gs : List UInt16) : List Char := gs.flatMap fun g => ':' :: Nat.toDigits 16 g.toNat

theorem joined_cons (g : UInt16) (gs : List UInt16) :
    joined (g :: gs) = Nat.toDigits 16 g.toNat ++ colons gs := by
  induction gs generalizing g with
  | nil => simp [joined, colons]
  | cons h gs ih =>
    rw [joined, ih]
    · rfl
    · exact List.cons_ne_nil h gs

theorem point_not_mem_toDigits (n : Nat) : '.' ∉ Nat.toDigits 16 n := by
  intro h
  have hdigit : isDigit 16 '.' = true := isDigit_of_mem_toDigits (by decide) (by decide) h
  exact absurd hdigit (by decide)

theorem point_not_mem_colons (gs : List UInt16) : '.' ∉ colons gs := by
  simp [colons, point_not_mem_toDigits]

theorem point_not_mem_joined (gs : List UInt16) : '.' ∉ joined gs := by
  cases gs with
  | nil => nofun
  | cons g gs =>
    rw [joined_cons, List.mem_append]
    exact not_or_intro (point_not_mem_toDigits _) (point_not_mem_colons gs)

theorem ends_colons (gs : List UInt16) (hrest : Stops rest) : Ends 16 (colons gs ++ rest) := by
  cases gs with
  | nil => exact hrest.ends
  | cons g gs => exact ends_cons (by decide)

section

variable (hrest : Stops rest) (hdot : '.' ∉ rest)
include hrest hdot

theorem readGroups_colons (hroom : gs.length ≤ room) :
    readGroups room false (colons gs ++ rest) = ⟨gs, false, rest⟩ := by
  induction gs generalizing room with
  | nil => exact readGroups_of_stops hrest hdot
  | cons g gs ih =>
    cases room with
    | zero => cases hroom
    | succ room =>
      have hpoint : '.' ∉ colons (g :: gs) ++ rest :=
        fun h => (List.mem_append.mp h).elim (point_not_mem_colons _) hdot
      have hread : (afterColon false (colons (g :: gs) ++ rest)).bind readGroup =
          some (g, colons gs ++ rest) := by
        have hgroup := readGroup_toDigits g (ends_colons gs hrest)
        rw [← List.append_assoc] at hgroup
        exact hgroup
      rw [readGroups_of_some hpoint hread, ih (Nat.le_of_succ_le_succ hroom)]

/-- **Groups with colons between them are read back**, up to two colons or the end. -/
theorem readGroups_joined (hroom : gs.length ≤ room) :
    readGroups room true (joined gs ++ rest) = ⟨gs, false, rest⟩ := by
  cases gs with
  | nil => exact readGroups_of_stops hrest hdot
  | cons g gs =>
    cases room with
    | zero => cases hroom
    | succ room =>
      have hpoint : '.' ∉ joined (g :: gs) ++ rest :=
        fun h => (List.mem_append.mp h).elim (point_not_mem_joined _) hdot
      have hread : (afterColon true (joined (g :: gs) ++ rest)).bind readGroup =
          some (g, colons gs ++ rest) := by
        rw [joined_cons, List.append_assoc]
        exact readGroup_toDigits g (ends_colons gs hrest)
      rw [readGroups_of_some hpoint hread,
        readGroups_colons hrest hdot (Nat.le_of_succ_le_succ hroom)]

end

/-! ## Zeros -/

/-- The zeros at the start of groups, and the rest of them. -/
theorem zeros_append_drop (gs : List UInt16) :
    List.replicate (gs.takeWhile (· = 0)).length 0 ++ gs.drop (gs.takeWhile (· = 0)).length =
      gs := by
  have hsplit := List.takeWhile_append_dropWhile (p := (· = 0)) (l := gs)
  have hzeros : gs.takeWhile (· = 0) = List.replicate (gs.takeWhile (· = 0)).length 0 :=
    List.eq_replicate_of_mem fun x hx => by simpa using List.mem_takeWhile_imp hx
  have hdrop : gs.drop (gs.takeWhile (· = 0)).length = gs.dropWhile (· = 0) := by
    calc gs.drop (gs.takeWhile (· = 0)).length
        = (gs.takeWhile (· = 0) ++ gs.dropWhile (· = 0)).drop (gs.takeWhile (· = 0)).length := by
          rw [hsplit]
      _ = gs.dropWhile (· = 0) := List.drop_left
  rw [hdrop, ← hzeros, hsplit]

/-- **What is left out is a run of zeros**: the groups before it, the run and the groups after it
make up all groups. -/
theorem longestZeros_split (gs : List UInt16) :
    (longestZeros gs).1 + (longestZeros gs).2 ≤ gs.length ∧
      gs.take (longestZeros gs).1 ++ List.replicate (longestZeros gs).2 0 ++
        gs.drop ((longestZeros gs).1 + (longestZeros gs).2) = gs := by
  induction gs with
  | nil => exact ⟨Nat.le_refl 0, rfl⟩
  | cons g gs ih =>
    rw [longestZeros]
    split
    · simp only [Nat.zero_add, List.take_zero, List.nil_append]
      exact ⟨(List.takeWhile_prefix _).length_le, zeros_append_drop (g :: gs)⟩
    · obtain ⟨hle, hgs⟩ := ih
      constructor
      · simp only [List.length_cons]
        omega
      · simp only [List.take_succ_cons, Nat.succ_add, List.drop_succ_cons, List.cons_append, hgs]

/-! ## Long addresses -/

theorem readLong_joined (hlength : gs.length = 8) :
    readLong (joined gs) = (ofGroups? gs).map (·, []) := by
  have hread : readGroups 8 true (joined gs ++ []) = ⟨gs, false, []⟩ :=
    readGroups_joined (.inl rfl) nofun (Nat.le_of_eq hlength)
  rw [List.append_nil] at hread
  simp only [readLong, hread, hlength, ↓reduceIte]

/-- Two colons are read as the zeros that are missing. -/
theorem readLong_colons {head tail : List UInt16} (hlength : head.length + tail.length < 8) :
    readLong (joined head ++ [':', ':'] ++ joined tail) =
      (ofGroups? (fillZeros head tail)).map (·, []) := by
  have hdot : '.' ∉ ':' :: ':' :: joined tail := by
    simpa using point_not_mem_joined tail
  have hhead : readGroups 8 true (joined head ++ ':' :: ':' :: joined tail) =
      ⟨head, false, ':' :: ':' :: joined tail⟩ :=
    readGroups_joined (.inr ⟨_, rfl⟩) hdot (by omega)
  have htail : readGroups (7 - head.length) true (joined tail ++ []) = ⟨tail, false, []⟩ :=
    readGroups_joined (.inl rfl) nofun (by omega)
  rw [List.append_nil] at htail
  rw [List.append_assoc, List.cons_append, List.singleton_append]
  have hne : head.length ≠ 8 := by omega
  simp only [readLong, hhead, hne, ↓reduceIte, Bool.false_eq_true, htail]

theorem readLong_groupsText (hlength : gs.length = 8) :
    readLong (groupsText gs) = (ofGroups? gs).map (·, []) := by
  obtain ⟨hle, hgs⟩ := longestZeros_split gs
  unfold groupsText
  simp only
  split
  · exact readLong_joined hlength
  · have hfill : fillZeros (gs.take (longestZeros gs).1)
        (gs.drop ((longestZeros gs).1 + (longestZeros gs).2)) = gs := by
      rw [fillZeros, List.length_take, List.length_drop, hlength]
      have hmissing : 8 - min (longestZeros gs).1 8 -
          (8 - ((longestZeros gs).1 + (longestZeros gs).2)) = (longestZeros gs).2 := by omega
      rw [hmissing, hgs]
    rw [readLong_colons, hfill]
    rw [List.length_take, List.length_drop]
    omega

theorem point_not_mem_groupsText (gs : List UInt16) : '.' ∉ groupsText gs := by
  unfold groupsText
  simp only
  split
  · exact point_not_mem_joined gs
  · simp [point_not_mem_joined]

/-! ## Addresses -/

/-- **Every address is read back from its written form.** -/
theorem plain?_text (x : Address) : plain? x.text = some x := by
  cases x with
  | v4 a b c d => exact plain?_text_v4 a b c d
  | v6 g =>
    have hread : readLong (groupsText g.toList) = (ofGroups? g.toList).map (·, []) :=
      readLong_groupsText g.length_toList
    rw [text, plain?, readShort_eq_none (point_not_mem_groupsText _)]
    simp only [hread]
    simp [ofGroups?, whole, Vector.toList]

end Turnstile.Address
