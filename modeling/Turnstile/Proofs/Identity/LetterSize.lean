import Turnstile.Proofs.Identity.Forms

/-!
# The size of letters does not count

The only letters in an address are digits, and large ones stand for the same as small ones.  So a
text names the same address after its letters have been made small, and what names none does not
become the name of one.

* `toLower_cases`, `toLower_eq_iff`: what becomes of a character.
* `Blind`: readers that read the same in small letters.
* `ofText?_lower`: a text names the same address in small letters.
-/

set_option autoImplicit false

namespace Turnstile.Address

variable {α : Type} {c d : Char} {cs : List Char} {room : Nat} {first : Bool}

/-! ## Characters -/

/-- A large letter becomes the small one, and nothing else changes. -/
theorem toLower_cases (c : Char) :
    (c.toLower = c ∧ ¬ (65 ≤ c.toNat ∧ c.toNat ≤ 90)) ∨
      (65 ≤ c.toNat ∧ c.toNat ≤ 90) ∧ c.toLower.toNat = c.toNat + 32 := by
  unfold Char.toLower
  split
  · next h =>
    have hle : c.val.toNat ≤ 90 := h.2
    refine .inr ⟨h, ?_⟩
    show (c.val + 32).toNat = c.val.toNat + 32
    rw [UInt32.toNat_add]
    simp only [UInt32.reduceToNat]
    omega
  · next h => exact .inl ⟨rfl, h⟩

theorem toLower_toLower (c : Char) : c.toLower.toLower = c.toLower := by
  rcases toLower_cases c.toLower with ⟨h, -⟩ | ⟨h, -⟩
  · exact h
  · rcases toLower_cases c with ⟨hc, -⟩ | ⟨hc, hsmall⟩
    · rw [hc, hc]
    · omega

/-- Nothing else becomes a character that is no letter. -/
theorem toLower_eq_iff (hd : d.toNat < 65 ∨ 90 < d.toNat ∧ d.toNat < 97) :
    c.toLower = d ↔ c = d := by
  rcases toLower_cases c with ⟨h, -⟩ | ⟨hc, hsmall⟩
  · rw [h]
  · rw [← Char.toNat_inj, ← Char.toNat_inj]
    omega

/-- Digits and letters are no blanks. -/
theorem isBlank_eq_false (hlow : 48 ≤ c.toNat) (hhigh : c.toNat ≤ 122) :
    Text.isBlank c = false := by
  simp only [Text.isBlank, Bool.or_eq_false_iff, Bool.and_eq_false_iff, decide_eq_false_iff_not]
  omega

theorem isBlank_toLower (c : Char) : Text.isBlank c.toLower = Text.isBlank c := by
  rcases toLower_cases c with ⟨h, -⟩ | ⟨hc, hsmall⟩
  · rw [h]
  · rw [isBlank_eq_false (c := c) (by omega) (by omega), isBlank_eq_false (by omega) (by omega)]

/-- Digits in large and in small letters stand for the same. -/
theorem digit?_toLower (base : Nat) (c : Char) : digit? base c.toLower = digit? base c := by
  rcases toLower_cases c with ⟨h, -⟩ | ⟨hc, hsmall⟩
  · rw [h]
  · rw [digit?_eq, digit?_eq, hsmall]
    grind

theorem isDigit_comp_toLower (base : Nat) : isDigit base ∘ Char.toLower = isDigit base :=
  funext fun c => congrArg Option.isSome (digit?_toLower base c)

/-! ## Readers -/

/-- A text in small letters. -/
def lower (cs : List Char) : List Char := cs.map Char.toLower

theorem lower_lower (cs : List Char) : lower (lower cs) = lower cs := by
  rw [lower, lower, List.map_map]
  exact List.map_congr_left fun c _ => toLower_toLower c

/-- What was read, with the rest of the text in small letters. -/
def lowerRest (r : α × List Char) : α × List Char := (r.1, lower r.2)

/-- A reader that reads the same in small letters. -/
def Blind (read : List Char → Option (α × List Char)) : Prop :=
  ∀ cs, read (lower cs) = (read cs).map lowerRest

theorem expect_lower (hd : d.toNat < 65 ∨ 90 < d.toNat ∧ d.toNat < 97) (cs : List Char) :
    expect d (lower cs) = (expect d cs).map lower := by
  cases cs with
  | nil => rfl
  | cons c cs =>
    show (if c.toLower = d then some (lower cs) else none) = _
    simp only [toLower_eq_iff hd, expect]
    split
    · rfl
    · rfl

theorem value_lower (base : Nat) (ds : List Char) : value base (lower ds) = value base ds := by
  simp only [value, lower, List.foldl_map, digit?_toLower]

theorem Numeral.allows_lower (k : Numeral) (ds : List Char) :
    k.Allows (lower ds) ↔ k.Allows ds := by
  have hhead : (lower ds).head? = some '0' ↔ ds.head? = some '0' := by
    cases ds with
    | nil => rfl
    | cons c ds => simp [lower, toLower_eq_iff (d := '0') (.inl (by decide))]
  simp only [Allows, value_lower, ne_eq, hhead]
  simp only [lower, List.map_eq_nil_iff, List.length_map]

theorem Numeral.blind_read (k : Numeral) : Blind k.read := by
  intro cs
  have htake : (lower cs).takeWhile (isDigit k.base) = lower (cs.takeWhile (isDigit k.base)) := by
    rw [lower, List.takeWhile_map, isDigit_comp_toLower]
    rfl
  have hdrop : (lower cs).dropWhile (isDigit k.base) = lower (cs.dropWhile (isDigit k.base)) := by
    rw [lower, List.dropWhile_map, isDigit_comp_toLower]
    rfl
  simp only [Numeral.read, htake, hdrop, Numeral.allows_lower, value_lower]
  split
  · rfl
  · rfl

theorem blind_readByte : Blind readByte := by
  intro cs
  simp only [readByte, octet.blind_read cs, Option.map_map]
  rfl

theorem blind_readNextByte : Blind readNextByte := by
  intro cs
  simp only [readNextByte, expect_lower (d := '.') (.inl (by decide)), Option.bind_map,
    Option.map_bind]
  exact congrArg _ (funext blind_readByte)

theorem blind_readBytes : Blind readBytes := by
  intro cs
  simp only [readBytes, blind_readByte cs, Option.bind_eq_bind, Option.bind_map, Option.map_bind,
    Function.comp_def, lowerRest, blind_readNextByte _, Option.map_some]

theorem blind_readShort : Blind readShort := by
  intro cs
  simp only [readShort, blind_readBytes cs, Option.map_map]
  rfl

theorem blind_readDotted : Blind readDotted := by
  intro cs
  simp only [readDotted, blind_readBytes cs, Option.map_map]
  rfl

theorem blind_readGroup : Blind readGroup := by
  intro cs
  simp only [readGroup, group.blind_read cs, Option.map_map]
  rfl

theorem afterColon_lower (first : Bool) (cs : List Char) :
    afterColon first (lower cs) = (afterColon first cs).map lower := by
  cases first with
  | true => rfl
  | false => exact expect_lower (.inl (by decide)) cs

theorem blind_afterColon {read : List Char → Option (α × List Char)} (h : Blind read)
    (first : Bool) : Blind fun cs => (afterColon first cs).bind read := by
  intro cs
  simp only [afterColon_lower, Option.bind_map, Option.map_bind]
  exact congrArg _ (funext h)

/-- **The same groups are read.** -/
theorem readGroups_lower (room : Nat) (first : Bool) (cs : List Char) :
    readGroups room first (lower cs) =
      { readGroups room first cs with rest := lower (readGroups room first cs).rest } := by
  induction room generalizing first cs with
  | zero => rfl
  | succ room ih =>
    have hdotted : (if 0 < room then (afterColon first (lower cs)).bind readDotted else none) =
        (if 0 < room then (afterColon first cs).bind readDotted else none).map lowerRest := by
      split
      · exact blind_afterColon blind_readDotted first cs
      · rfl
    have hgroup : (afterColon first (lower cs)).bind readGroup =
        ((afterColon first cs).bind readGroup).map lowerRest :=
      blind_afterColon blind_readGroup first cs
    rw [readGroups, readGroups, hdotted, hgroup]
    cases if 0 < room then (afterColon first cs).bind readDotted else none with
    | some r => rfl
    | none =>
      cases (afterColon first cs).bind readGroup with
      | some r => simp only [Option.map_none, Option.map_some, lowerRest, ih]
      | none => rfl

/-- A text that starts with two colons, as two steps. -/
theorem match_colons {β : Type} (f : List Char → Option β) (cs : List Char) :
    (match cs with
      | ':' :: ':' :: rest => f rest
      | _ => none) = ((expect ':' cs).bind (expect ':')).bind f := by
  split
  · rfl
  · next hne =>
    cases h : (expect ':' cs).bind (expect ':') with
    | none => rfl
    | some rest =>
      obtain ⟨cs', hcs, hcs'⟩ := Option.bind_eq_some_iff.mp h
      rw [expect_eq_some_iff.mp hcs'] at hcs
      exact absurd (expect_eq_some_iff.mp hcs) (hne rest)

/-- What a long address is read as after its first groups. -/
def readTail (head : List UInt16) (cs : List Char) : Option (Address × List Char) :=
  let tail := readGroups (7 - head.length) true cs
  (ofGroups? (fillZeros head tail.groups)).map (·, tail.rest)

theorem readLong_eq (cs : List Char) :
    readLong cs =
      if (readGroups 8 true cs).groups.length = 8 then
        (ofGroups? (readGroups 8 true cs).groups).map (·, (readGroups 8 true cs).rest)
      else if (readGroups 8 true cs).dotted then none
      else ((expect ':' (readGroups 8 true cs).rest).bind (expect ':')).bind
        (readTail (readGroups 8 true cs).groups) := by
  rw [← match_colons]
  rfl

theorem blind_readTail (head : List UInt16) : Blind (readTail head) := by
  intro cs
  simp only [readTail, readGroups_lower, Option.map_map]
  rfl

theorem blind_readLong : Blind readLong := by
  intro cs
  have hcolons : ∀ cs, (expect ':' (lower cs)).bind (expect ':') =
      ((expect ':' cs).bind (expect ':')).map lower := by
    intro cs
    rw [expect_lower (.inl (by decide)), Option.bind_map, Option.map_bind]
    exact congrArg _ (funext (expect_lower (.inl (by decide))))
  rw [readLong_eq, readLong_eq, readGroups_lower, hcolons, Option.bind_map]
  split
  · rw [Option.map_map]
    rfl
  · split
    · rfl
    · rw [Option.map_bind]
      exact congrArg _ (funext (blind_readTail _))

theorem whole_lower (r : Option (α × List Char)) : whole (r.map lowerRest) = whole r := by
  rcases r with _ | ⟨a, _ | ⟨c, cs⟩⟩ <;> rfl

theorem plain?_lower (cs : List Char) : plain? (lower cs) = plain? cs := by
  rw [plain?, plain?, blind_readShort cs, blind_readLong cs]
  cases readShort cs with
  | some r => exact whole_lower (some r)
  | none => exact whole_lower _

theorem readPort_lower (cs : List Char) : readPort (lower cs) = (readPort cs).map lower := by
  simp only [readPort, expect_lower (d := ':') (.inl (by decide)), Option.bind_eq_bind,
    Option.bind_map, Option.map_bind, Function.comp_def, port.blind_read _, lowerRest,
    Option.map_some]

theorem skipZone_lower (cs : List Char) : skipZone (lower cs) = lower (skipZone cs) := by
  have hread : (expect '%' (lower cs)).bind zone.read =
      ((expect '%' cs).bind zone.read).map lowerRest := by
    rw [expect_lower (.inl (by decide)), Option.bind_map, Option.map_bind]
    exact congrArg _ (funext zone.blind_read)
  rw [skipZone, skipZone, hread]
  cases (expect '%' cs).bind zone.read with
  | some r => rfl
  | none => rfl

theorem blind_readShortEndpoint : Blind readShortEndpoint := by
  intro cs
  simp only [readShortEndpoint, blind_readShort cs, Option.bind_eq_bind, Option.bind_map,
    Option.map_bind, Function.comp_def, lowerRest, readPort_lower, Option.map_some]

theorem blind_readLongEndpoint : Blind readLongEndpoint := by
  intro cs
  simp only [readLongEndpoint, expect_lower (d := '[') (.inr (by decide)),
    expect_lower (d := ']') (.inr (by decide)), Option.bind_eq_bind, Option.bind_map,
    Option.map_bind, Function.comp_def, blind_readLong _, lowerRest, skipZone_lower, readPort_lower,
    Option.map_some]

theorem endpoint?_lower (cs : List Char) : endpoint? (lower cs) = endpoint? cs := by
  rw [endpoint?, endpoint?, blind_readShortEndpoint cs, blind_readLongEndpoint cs]
  cases readShortEndpoint cs with
  | some r => exact whole_lower (some r)
  | none => exact whole_lower _

theorem bracketed?_eq (cs : List Char) :
    bracketed? cs = (expect '[' cs).bind fun cs =>
      if cs.getLast? = some ']' then plain? cs.dropLast else none := by
  unfold bracketed?
  split
  · rfl
  · next hne =>
    cases h : expect '[' cs with
    | none => rfl
    | some cs' => exact absurd (expect_eq_some_iff.mp h) (hne cs')

theorem bracketed?_lower (cs : List Char) : bracketed? (lower cs) = bracketed? cs := by
  rw [bracketed?_eq, bracketed?_eq, expect_lower (.inr (by decide)), Option.bind_map]
  refine congrArg _ (funext fun cs => ?_)
  have hlast : (lower cs).getLast? = some ']' ↔ cs.getLast? = some ']' := by
    rw [lower, List.getLast?_map]
    cases cs.getLast? with
    | none => simp
    | some c => simp [toLower_eq_iff (d := ']') (.inr (by decide))]
  have hinner : (lower cs).dropLast = lower cs.dropLast := List.map_dropLast.symm
  simp only [Function.comp_apply, hlast, hinner, plain?_lower]

theorem host?_eq (cs : List Char) :
    host? cs = (expect ':' (cs.dropWhile (· ≠ ':'))).bind fun rest =>
      if ':' ∈ rest then none else plain? (cs.takeWhile (· ≠ ':')) := by
  unfold host?
  split
  · next rest hrest =>
    rw [hrest]
    rfl
  · next hne =>
    cases h : expect ':' (cs.dropWhile (· ≠ ':')) with
    | none => rfl
    | some rest => exact absurd (expect_eq_some_iff.mp h) (hne rest)

theorem host?_lower (cs : List Char) : host? (lower cs) = host? cs := by
  have hcolon : ∀ c : Char, c.toLower = ':' ↔ c = ':' := fun c => toLower_eq_iff (.inl (by decide))
  have hsame : (fun c : Char => decide (c ≠ ':')) ∘ Char.toLower = fun c => decide (c ≠ ':') := by
    funext c
    simp [hcolon]
  have htake : (lower cs).takeWhile (· ≠ ':') = lower (cs.takeWhile (· ≠ ':')) := by
    rw [lower, List.takeWhile_map, hsame]
    rfl
  have hdrop : (lower cs).dropWhile (· ≠ ':') = lower (cs.dropWhile (· ≠ ':')) := by
    rw [lower, List.dropWhile_map, hsame]
    rfl
  rw [host?_eq, host?_eq, htake, hdrop, expect_lower (.inl (by decide)), Option.bind_map,
    plain?_lower]
  refine congrArg _ (funext fun rest => ?_)
  have hmem : ':' ∈ lower rest ↔ ':' ∈ rest := by simp [lower, hcolon]
  simp only [Function.comp_apply, hmem]

/-- **A text names the same address in small letters**, or none. -/
theorem ofText?_lower (cs : List Char) : ofText? (lower cs) = ofText? cs := by
  rw [ofText?, ofText?, plain?_lower, endpoint?_lower, bracketed?_lower, host?_lower]

end Turnstile.Address
