import Turnstile.Json.Printer
import Turnstile.Json.Reader
import Turnstile.Proofs.Identity.Numerals

/-!
# Written JSON is read back

A value whose strings name texts, and whose numbers are written with digits alone, is read back from
what is written of it, whatever follows that does not go on with a number.

* `Plain`: the values in question.
* `Stops`: texts that do not go on with a number.
* `Plain.readValue_writeValue`: a value is read back from the start of a text.
* `Plain.read?_write`: a value is read back from its own text.
-/

set_option autoImplicit false

namespace Turnstile.Json

variable {c : Char} {cs ds rest : List Char} {j : Json} {depth : Nat}

/-! ## Strings -/

theorem hexDigit?_hexDigit (n : Nat) : hexDigit? (hexDigit n) = some (n % 16) := by
  have hall : ∀ d < 16, hexDigit? (Nat.digitChar d) = some d := by decide
  exact hall _ (Nat.mod_lt _ (by decide))

/-- A control character is read back from its number. -/
theorem numbered?_toNat (h : c.toNat < 32) :
    numbered? '0' '0' (hexDigit (c.toNat / 16)) (hexDigit c.toNat) = some (.char c) := by
  have hzero : hexDigit? '0' = some 0 := rfl
  have hsum : ((0 * 16 + 0) * 16 + c.toNat / 16 % 16) * 16 + c.toNat % 16 = c.toNat := by omega
  simp only [numbered?, hzero, hexDigit?_hexDigit, Option.bind_eq_bind, Option.bind_some, hsum]
  rw [Piece.ofNat, if_neg (by omega), Char.ofNat_toNat]

/-- A character that is written as it is stands for itself. -/
theorem readPieces_cons (hquote : c ≠ '"') (hslash : c ≠ '\\') (hcontrol : ¬ c.toNat < 32) :
    readPieces (c :: cs) = (readPieces cs).map fun (ps, rest) => (.char c :: ps, rest) := by
  have hstays : ¬ (c.toNat < 0x20 ∨ c = '\\') := by
    rintro (h | h)
    · exact hcontrol h
    · exact hslash h
  rw [readPieces]
  · rw [if_neg hstays]
    cases readPieces cs <;> rfl
  all_goals simp [hquote, hslash]

/-- A character that a letter after a backslash names. -/
theorem readPieces_slash {letter : Char} (h : escaped? letter = some c) :
    readPieces ('\\' :: letter :: cs) =
      (readPieces cs).map fun (ps, rest) => (.char c :: ps, rest) := by
  have hletter : letter ≠ 'u' := by
    rintro rfl
    cases h
  rw [readPieces, h]
  · cases readPieces cs <;> rfl
  · rintro _ _ _ _ _ rfl
    exact absurd rfl hletter

/-- **A written character is read back.** -/
theorem readPieces_writeChar (c : Char) (cs : List Char) :
    readPieces (writeChar c ++ cs) =
      (readPieces cs).map fun (ps, rest) => (.char c :: ps, rest) := by
  unfold writeChar
  split
  case h_8 c hquote hslash _ _ _ _ _ =>
    split
    case isTrue hcontrol =>
      simp only [List.cons_append, List.nil_append, readPieces, numbered?_toNat hcontrol]
      cases readPieces cs <;> rfl
    case isFalse hcontrol => exact readPieces_cons hquote hslash hcontrol
  all_goals exact readPieces_slash rfl

theorem readPieces_flatMap (cs rest : List Char) :
    readPieces (cs.flatMap writeChar ++ '"' :: rest) = some (cs.map .char, rest) := by
  induction cs with
  | nil => rfl
  | cons c cs ih =>
    rw [List.flatMap_cons, List.append_assoc, readPieces_writeChar, ih]
    rfl

theorem joinPieces_map_char (cs : List Char) : joinPieces (cs.map .char) = some cs := by
  induction cs with
  | nil => rfl
  | cons c cs ih =>
    rw [List.map_cons, joinPieces, ih]
    rfl

/-- **A written string is read back**, from what stands after its opening quote. -/
theorem readString_writeString (s : String) (rest : List Char) :
    readString (s.toList.flatMap writeChar ++ '"' :: rest) = some (some s, rest) := by
  simp only [readString, readPieces_flatMap, Option.map_some, joinPieces_map_char,
    String.ofList_toList]

/-! ## Numbers -/

/-- A text that does not go on with a number. -/
def Stops (cs : List Char) : Prop :=
  ∀ c ∈ cs.head?, c.isDigit = false ∧ c ≠ '.' ∧ c ≠ 'e' ∧ c ≠ 'E'

theorem stops_nil : Stops [] := nofun

theorem stops_cons (h : c.isDigit = false ∧ c ≠ '.' ∧ c ≠ 'e' ∧ c ≠ 'E') : Stops (c :: cs) := by
  rintro _ ⟨⟩
  exact h

theorem Stops.spanDigits_append (hrest : Stops rest) (hds : ∀ c ∈ ds, c.isDigit = true) :
    spanDigits (ds ++ rest) = (ds, rest) := by
  have hnone : rest.takeWhile Char.isDigit = [] ∧ rest.dropWhile Char.isDigit = rest := by
    cases rest with
    | nil => exact ⟨rfl, rfl⟩
    | cons c rest => simp [(hrest c rfl).1]
  rw [spanDigits, List.takeWhile_append_of_pos hds, List.dropWhile_append_of_pos hds, hnone.1,
    hnone.2, List.append_nil]

/-- The digits of a number are a whole part: they start with zero only where they are a zero. -/
theorem Stops.readWhole_append (hrest : Stops rest) (n : Nat) :
    readWhole (Nat.toDigits 10 n ++ rest) = some (Nat.toDigits 10 n, rest) := by
  rw [readWhole, hrest.spanDigits_append fun c =>
    Nat.isDigit_of_mem_toDigits (by decide) (by decide)]
  rcases Nat.eq_zero_or_pos n with rfl | hn
  · rfl
  · have hhead : (Nat.toDigits 10 n).head? ≠ some '0' := Address.head?_toDigits (by decide) hn
    split
    · rename_i h
      exact absurd (congrArg Prod.fst h) Nat.toDigits_ne_nil
    · rename_i h
      exact absurd (congrArg (fun r => r.1.head?) h) hhead
    · rename_i h
      exact absurd (congrArg (fun r => r.1.head?) h) hhead
    · rfl

theorem Stops.readFraction (hrest : Stops rest) : Json.readFraction rest = some ([], rest) := by
  cases rest with
  | nil => rfl
  | cons c rest =>
    have hpoint := (hrest c rfl).2.1
    rw [Json.readFraction]
    simp [hpoint]

theorem Stops.readExponent (hrest : Stops rest) : Json.readExponent rest = some ([], rest) := by
  cases rest with
  | nil => rfl
  | cons c rest =>
    obtain ⟨-, -, hlower, hupper⟩ := hrest c rfl
    rw [Json.readExponent, if_neg (by simp [hlower, hupper])]

/-- **A number is read back** from its digits. -/
theorem Stops.readUnsigned_toDigits (hrest : Stops rest) (n : Nat) :
    readUnsigned (Nat.toDigits 10 n ++ rest) = some (.nat n, rest) := by
  simp only [readUnsigned, hrest.readWhole_append, hrest.readFraction, hrest.readExponent,
    Option.bind_eq_bind, Option.bind_some, and_self, if_true,
    Nat.ofDigitChars_toDigits (show 1 < 10 by decide) (show 10 ≤ 10 by decide)]

/-! ## Steps of the reader -/

theorem ne_of_isDigit {d : Char} (hc : c.isDigit = true) (hd : d.isDigit = false) : c ≠ d := by
  rintro rfl
  exact Bool.false_ne_true (hd.symm.trans hc)

theorem isGap_of_isDigit (h : c.isDigit = true) : isGap c = false := by
  simp [isGap, ne_of_isDigit h (d := ' ') rfl, ne_of_isDigit h (d := '\t') rfl,
    ne_of_isDigit h (d := '\n') rfl, ne_of_isDigit h (d := '\r') rfl]

theorem skipGap_cons (h : isGap c = false) (cs : List Char) : skipGap (c :: cs) = c :: cs := by
  rw [skipGap, List.dropWhile_cons_of_neg (by simp [h])]

/-- What starts with a digit is read as a number. -/
theorem readValue_of_isDigit (h : c.isDigit = true) (depth : Nat) (cs : List Char) :
    readValue (depth + 1) (c :: cs) = readUnsigned (c :: cs) := by
  rw [readValue, skipGap_cons (isGap_of_isDigit h)]
  split
  case h_7 =>
    rw [readNumber]
    simp [ne_of_isDigit h (d := '-') rfl]
  all_goals
    rename_i heq
    cases heq
    cases h

theorem readValue_items (hgap : skipGap cs = cs) (hend : ∀ cs', cs ≠ ']' :: cs') :
    readValue (depth + 1) ('[' :: cs) =
      (readItems depth cs).map fun (items, cs) => (.array items, cs) := by
  rw [readValue, skipGap_cons (by decide)]
  simp only [hgap]

theorem readItems_last {item : Json} (h : readValue depth cs = some (item, ']' :: rest)) :
    readItems (depth + 1) cs = some ([item], rest) := by
  rw [readItems, h]
  rfl

theorem readItems_more {item : Json} (h : readValue depth cs = some (item, ',' :: rest)) :
    readItems (depth + 1) cs =
      (readItems depth rest).map fun (items, cs) => (item :: items, cs) := by
  rw [readItems, h]
  show (readItems depth rest).bind _ = _
  cases readItems depth rest <;> rfl

theorem readValue_members :
    readValue (depth + 1) ('\x7b' :: '"' :: cs) =
      (readMembers depth ('"' :: cs)).map fun (members, cs) => (.object members, cs) := by
  rw [readValue, skipGap_cons (by decide)]
  simp only [skipGap_cons (show isGap '"' = false by decide)]
  rfl

theorem writeText_append (s : String) (rest : List Char) :
    writeText (some s) ++ rest = '"' :: (s.toList.flatMap writeChar ++ '"' :: rest) := by
  simp [writeText, writeString]

/-- The value of a member is read after its name. -/
theorem readMembers_writeText {name : Option String} (hname : name.isSome = true)
    (r : Json × List Char) (h : readValue depth cs = some r) :
    readMembers (depth + 1) (writeText name ++ ':' :: cs) =
      match skipGap r.2 with
      | '\x7d' :: cs => some ([(name, r.1)], cs)
      | ',' :: cs => (readMembers depth cs).bind fun (ms, cs) => some ((name, r.1) :: ms, cs)
      | _ => none := by
  obtain ⟨s, rfl⟩ := Option.isSome_iff_exists.mp hname
  rw [writeText_append, readMembers, skipGap_cons (by decide)]
  simp only [expectWord, if_true, Option.bind_eq_bind, Option.bind_some, readString_writeString]
  rw [skipGap_cons (by decide)]
  simp only [expectWord, if_true, Option.bind_some]
  refine (congrArg (fun value => Option.bind value _) h).trans ?_
  rfl

theorem readMembers_last {name : Option String} {value : Json} (hname : name.isSome = true)
    (h : readValue depth cs = some (value, '\x7d' :: rest)) :
    readMembers (depth + 1) (writeText name ++ ':' :: cs) = some ([(name, value)], rest) :=
  readMembers_writeText hname _ h

theorem readMembers_more {name : Option String} {value : Json} (hname : name.isSome = true)
    (h : readValue depth cs = some (value, ',' :: rest)) :
    readMembers (depth + 1) (writeText name ++ ':' :: cs) =
      (readMembers depth rest).map fun (members, cs) => ((name, value) :: members, cs) := by
  rw [readMembers_writeText hname _ h]
  show (readMembers depth rest).bind _ = _
  cases readMembers depth rest <;> rfl

/-! ## Values -/

/-- A value whose strings all name texts, and whose numbers are written with digits alone. -/
inductive Plain : Json → Prop
  | null : Plain .null
  | bool (b : Bool) : Plain (.bool b)
  | nat (n : Nat) : Plain (.nat n)
  | text (s : String) : Plain (.text s)
  | array {items : List Json} (plain : ∀ j ∈ items, Plain j) : Plain (.array items)
  | object {members : List (Option String × Json)} (names : ∀ m ∈ members, m.1.isSome = true)
      (plain : ∀ m ∈ members, Plain m.2) : Plain (.object members)

/-- A record of plain values is plain. -/
theorem plain_record {members : List (String × Json)} (h : ∀ m ∈ members, Plain m.2) :
    Plain (record members) := by
  refine .object ?_ ?_ <;> intro _ hmem <;> obtain ⟨m, hm, rfl⟩ := List.mem_map.mp hmem
  · rfl
  · exact h m hm

/-- A text that starts with what may start a value. -/
def Opens (cs : List Char) : Prop := ∃ c rest, cs = c :: rest ∧ isGap c = false ∧ c ≠ ']'

theorem opens_cons (h : isGap c = false ∧ c ≠ ']') (rest : List Char) : Opens (c :: rest) :=
  ⟨c, rest, rfl, h⟩

theorem exists_toDigits_eq_cons (n : Nat) :
    ∃ c cs, Nat.toDigits 10 n = c :: cs ∧ c.isDigit = true := by
  obtain ⟨c, cs, hcs⟩ := List.exists_cons_of_ne_nil (Nat.toDigits_ne_nil (n := n) (b := 10))
  exact ⟨c, cs, hcs, Nat.isDigit_of_mem_toDigits (by decide) (by decide) (hcs ▸ List.mem_cons_self)⟩

theorem Plain.opens (h : Plain j) : Opens (writeValue j) := by
  cases h with
  | null => exact opens_cons (by decide) _
  | bool b => cases b <;> exact opens_cons (by decide) _
  | nat n =>
    obtain ⟨c, cs, hcs, hdigit⟩ := exists_toDigits_eq_cons n
    exact ⟨c, cs, hcs, isGap_of_isDigit hdigit, ne_of_isDigit hdigit rfl⟩
  | text s => exact opens_cons (by decide) _
  | @array items plain => cases items <;> exact opens_cons (by decide) _
  | @object members names plain => cases members <;> exact opens_cons (by decide) _

/-- A value that is read back, at any depth that is more than the length of its text. -/
def ReadBack (j : Json) : Prop :=
  ∀ {depth : Nat} {rest : List Char}, (writeValue j).length ≤ depth → Stops rest →
    readValue (depth + 1) (writeValue j ++ rest) = some (j, rest)

theorem readBack_null : ReadBack .null := fun _ _ => rfl

theorem readBack_bool (b : Bool) : ReadBack (.bool b) := by
  intro depth rest _ _
  cases b <;> rfl

theorem readBack_nat (n : Nat) : ReadBack (.nat n) := by
  intro depth rest _ hrest
  obtain ⟨c, cs, hcs, hdigit⟩ := exists_toDigits_eq_cons n
  have hread := hrest.readUnsigned_toDigits n
  rw [hcs] at hread
  rw [writeValue, hcs]
  exact (readValue_of_isDigit hdigit depth _).trans hread

theorem readBack_text (s : String) : ReadBack (.text s) := by
  intro depth rest _ _
  rw [text, writeValue, writeText_append]
  show (readString _).map _ = _
  rw [readString_writeString]
  rfl

/-! ## Items and members -/

section Parts

variable {item value : Json} {items : List Json} {name : Option String}
  {members : List (Option String × Json)}

theorem stops_writeItems (items : List Json) (rest : List Char) :
    Stops (writeItems items ++ rest) := by
  cases items <;> exact stops_cons (by decide)

theorem stops_writeMembers (members : List (Option String × Json)) (rest : List Char) :
    Stops (writeMembers members ++ rest) := by
  obtain _ | ⟨⟨name, value⟩, members⟩ := members <;> exact stops_cons (by decide)

theorem writeItems_cons_append (item : Json) (items : List Json) (rest : List Char) :
    writeItems (item :: items) ++ rest =
      ',' :: (writeValue item ++ (writeItems items ++ rest)) := by
  simp [writeItems]

theorem writeMembers_cons_append (name : Option String) (value : Json)
    (members : List (Option String × Json)) (rest : List Char) :
    writeMembers ((name, value) :: members) ++ rest =
      ',' :: (writeText name ++ ':' :: (writeValue value ++ (writeMembers members ++ rest))) := by
  simp [writeMembers]

/-- **Items are read back**, from the first one to the closing bracket. -/
theorem readItems_writeItems (hitem : ReadBack item) (hitems : ∀ j ∈ items, ReadBack j)
    (hdepth : (writeValue item).length + (writeItems items).length ≤ depth) (rest : List Char) :
    readItems (depth + 1) (writeValue item ++ (writeItems items ++ rest)) =
      some (item :: items, rest) := by
  induction items generalizing item depth with
  | nil =>
    simp only [writeItems, List.length_singleton] at hdepth
    obtain _ | depth := depth
    · omega
    exact readItems_last (hitem (by omega) (stops_writeItems [] rest))
  | cons next items ih =>
    -- the items after the comma have a level less, and the comma is a character more
    obtain ⟨hnext, hitems⟩ := List.forall_mem_cons.mp hitems
    simp only [writeItems, List.length_cons, List.length_append] at hdepth
    obtain _ | depth := depth
    · omega
    have hread : readValue (depth + 1) (writeValue item ++ (writeItems (next :: items) ++ rest)) =
        some (item, writeItems (next :: items) ++ rest) :=
      hitem (by omega) (stops_writeItems _ rest)
    rw [writeItems_cons_append] at hread ⊢
    rw [readItems_more hread, ih hnext hitems (by omega)]
    rfl

/-- **Members are read back**, from the first one to the closing brace. -/
theorem readMembers_writeMembers (hname : name.isSome = true) (hvalue : ReadBack value)
    (hmembers : ∀ m ∈ members, m.1.isSome = true ∧ ReadBack m.2)
    (hdepth : (writeValue value).length + (writeMembers members).length ≤ depth)
    (rest : List Char) :
    readMembers (depth + 1)
        (writeText name ++ ':' :: (writeValue value ++ (writeMembers members ++ rest))) =
      some ((name, value) :: members, rest) := by
  induction members generalizing name value depth with
  | nil =>
    simp only [writeMembers, List.length_singleton] at hdepth
    obtain _ | depth := depth
    · omega
    exact readMembers_last hname (hvalue (by omega) (stops_writeMembers [] rest))
  | cons next members ih =>
    obtain ⟨next, nextValue⟩ := next
    obtain ⟨⟨hnext, (hnextValue : ReadBack nextValue)⟩, hmembers⟩ :=
      List.forall_mem_cons.mp hmembers
    simp only [writeMembers, List.length_cons, List.length_append] at hdepth
    obtain _ | depth := depth
    · omega
    have hread : readValue (depth + 1)
        (writeValue value ++ (writeMembers ((next, nextValue) :: members) ++ rest)) =
          some (value, writeMembers ((next, nextValue) :: members) ++ rest) :=
      hvalue (by omega) (stops_writeMembers _ rest)
    rw [writeMembers_cons_append] at hread ⊢
    rw [readMembers_more hname hread, ih hnext hnextValue hmembers (by omega)]
    rfl

theorem readBack_array (hitems : ∀ j ∈ items, ReadBack j ∧ Opens (writeValue j)) :
    ReadBack (.array items) := by
  intro depth rest hdepth _
  cases items with
  | nil => rfl
  | cons item items =>
    obtain ⟨⟨hitem, c, cs, hcs, hgap, hend⟩, hitems⟩ := List.forall_mem_cons.mp hitems
    simp only [writeValue, List.length_cons, List.length_append] at hdepth
    obtain _ | depth := depth
    · omega
    have hread := readItems_writeItems hitem (fun j hj => (hitems j hj).1)
      (show (writeValue item).length + (writeItems items).length ≤ depth by omega) rest
    have hwritten : writeValue (.array (item :: items)) ++ rest =
        '[' :: (writeValue item ++ (writeItems items ++ rest)) := by simp [writeValue]
    rw [hcs, List.cons_append] at hwritten hread
    rw [hwritten, readValue_items (skipGap_cons hgap _) (by simp [hend]), hread]
    rfl

theorem readBack_object (hmembers : ∀ m ∈ members, m.1.isSome = true ∧ ReadBack m.2) :
    ReadBack (.object members) := by
  intro depth rest hdepth _
  cases members with
  | nil => rfl
  | cons member members =>
    obtain ⟨name, value⟩ := member
    obtain ⟨⟨hname, hvalue⟩, hmembers⟩ := List.forall_mem_cons.mp hmembers
    simp only [writeValue, List.length_cons, List.length_append] at hdepth
    obtain _ | depth := depth
    · omega
    have hread := readMembers_writeMembers hname hvalue hmembers
      (show (writeValue value).length + (writeMembers members).length ≤ depth by omega) rest
    have hwritten : writeValue (.object ((name, value) :: members)) ++ rest = '\x7b' ::
        (writeText name ++ ':' :: (writeValue value ++ (writeMembers members ++ rest))) := by
      simp [writeValue]
    obtain ⟨s, rfl⟩ := Option.isSome_iff_exists.mp hname
    rw [writeText_append] at hwritten hread
    rw [hwritten, readValue_members, hread]
    rfl

end Parts

/-! ## All plain values -/

/-- **A plain value is read back** from the start of a text. -/
theorem Plain.readBack (h : Plain j) : ReadBack j := by
  induction h with
  | null => exact readBack_null
  | bool b => exact readBack_bool b
  | nat n => exact readBack_nat n
  | text s => exact readBack_text s
  | array plain ih => exact readBack_array fun j hj => ⟨ih j hj, (plain j hj).opens⟩
  | object names _ ih => exact readBack_object fun m hm => ⟨names m hm, ih m hm⟩

/-- **A plain value is read back** from its own text. -/
theorem Plain.read?_write (h : Plain j) : read? j.write = some j := by
  have hread : readValue (2 * (writeValue j).length + 2) (writeValue j ++ []) = some (j, []) :=
    h.readBack (by omega) stops_nil
  rw [List.append_nil] at hread
  simp only [read?, write, String.toList_ofList, hread]
  rfl

end Turnstile.Json
