import Turnstile.Binary
import Turnstile.Word

/-!
# Records are read back as they were written

`Exact a` says that the bytes of `a` are read as `a` whatever follows them.  Words are exact, and
compounds are when their parts are; a list also has to be short enough for its length to be a word.

* `exact_word`, `exact_pair`, `exact_option`, `exact_list`, `exact_narrow`: by the shape of a value.
* `exact_text`, `exact_texts`: texts that are short enough, and sets of such texts.
* `read?_encode`: an exact value is read back.
-/

set_option autoImplicit false

namespace Turnstile.Binary

variable {α β : Type} [Binary α] [Binary β]

/-- The bytes of a value are read as the value, and what follows them is left. -/
def Exact (a : α) : Prop := ∀ rest : Bytes, decode (encode a ++ rest) = some (a, rest)

theorem read?_encode {a : α} (h : Exact a) : read? (encode a) = some a := by
  have := h []
  rw [List.append_nil] at this
  rw [read?, this]
  rfl

/-! ## Words -/

theorem split?_leBytes (width n : Nat) (rest : Bytes) :
    split? width (leBytes width n ++ rest) = some (leBytes width n, rest) := by
  have h := split?_append (leBytes width n) rest
  rwa [length_leBytes] at h

theorem exact_word32 (n : UInt32) : Exact n := by
  intro rest
  have hn : ofLeBytes (leBytes 4 n.toNat) = n.toNat := by
    rw [ofLeBytes_leBytes]
    exact Nat.mod_eq_of_lt n.toNat_lt
  simp only [decode, encode, split?_leBytes, Option.map_some, hn, UInt32.ofNat_toNat]

theorem exact_word (n : UInt64) : Exact n := by
  intro rest
  have hn : ofLeBytes (leBytes 8 n.toNat) = n.toNat := by
    rw [ofLeBytes_leBytes]
    exact Nat.mod_eq_of_lt n.toNat_lt
  simp only [decode, encode, split?_leBytes, Option.map_some, hn, UInt64.ofNat_toNat]

/-- A length is read back if it is a word. -/
theorem decodeLength_encodeLength {n : Nat} (h : n < wordCount) (rest : Bytes) :
    decodeLength (encodeLength n ++ rest) = some (n, rest) := by
  have hn : (UInt64.ofNat n).toNat = n := by
    rw [UInt64.toNat_ofNat']
    exact Nat.mod_eq_of_lt h
  rw [decodeLength, encodeLength, exact_word]
  simp only [Option.map_some, hn]

/-! ## Compounds -/

theorem exact_pair {a : α} {b : β} (ha : Exact a) (hb : Exact b) : Exact (a, b) := by
  intro rest
  show (decode (encode a ++ encode b ++ rest)).bind _ = _
  rw [List.append_assoc, ha, Option.bind_some]
  simp only [hb rest, Option.bind_eq_bind, Option.bind_some]

theorem exact_none : Exact (none : Option α) := fun _ => rfl

theorem exact_some {a : α} (ha : Exact a) : Exact (some a) := by
  intro rest
  show (decode (encode a ++ rest)).map _ = _
  rw [ha, Option.map_some]

theorem exact_option {o : Option α} (h : ∀ a ∈ o, Exact a) : Exact o := by
  cases o with
  | none => exact exact_none
  | some a => exact exact_some (h a rfl)

theorem decodeItems_flatMap {l : List α} (h : ∀ a ∈ l, Exact a) (rest : Bytes) :
    decodeItems l.length (l.flatMap encode ++ rest) = some (l, rest) := by
  induction l with
  | nil => rfl
  | cons a l ih =>
    have ha := h a List.mem_cons_self
    have hl := ih fun b hb => h b (List.mem_cons_of_mem a hb)
    show (decode (encode a ++ l.flatMap encode ++ rest)).bind _ = _
    rw [List.append_assoc, ha, Option.bind_some]
    simp only [hl, Option.bind_eq_bind, Option.bind_some]

/-- A list of exact items is exact as long as its length is a word. -/
theorem exact_list {l : List α} (hl : l.length < wordCount) (h : ∀ a ∈ l, Exact a) : Exact l := by
  intro rest
  show (decodeLength (encodeLength l.length ++ l.flatMap encode ++ rest)).bind _ = _
  rw [List.append_assoc, decodeLength_encodeLength hl, Option.bind_some]
  exact decodeItems_flatMap h rest

/-! ## Types inside other types -/

theorem exact_narrow {γ : Type} {f : γ → α} {g : α → Option γ} {c : γ} (hfg : g (f c) = some c)
    (hf : Exact (f c)) : @Exact γ (narrow f g) c := by
  intro rest
  show (decode (encode (f c) ++ rest)).bind _ = _
  rw [hf, Option.bind_some]
  simp only [hfg, Option.bind_eq_bind, Option.bind_some]

/-! ## Texts -/

/-- A text whose length in bytes is a word. -/
def Short (s : String) : Prop := (utf8 s).length < wordCount

instance (s : String) : Decidable (Short s) := inferInstanceAs (Decidable (_ < _))

theorem exact_text {s : String} (h : Short s) : Exact s := by
  intro rest
  show (decodeLength (encodeLength (utf8 s).length ++ utf8 s ++ rest)).bind _ = _
  rw [List.append_assoc, decodeLength_encodeLength h, Option.bind_some]
  simp only [split?_append, ofUtf8?_utf8, Option.bind_eq_bind, Option.bind_some]

/-- A set of texts is the set of the texts it lists. -/
theorem ofList_toList (r : Std.ExtTreeSet String) : Std.ExtTreeSet.ofList r.toList = r := by
  apply Std.ExtTreeSet.ext_mem
  intro x
  rw [Std.ExtTreeSet.mem_ofList, List.contains_iff_mem, Std.ExtTreeSet.mem_toList]

/-- A set of short texts is exact as long as its size is a word. -/
theorem exact_texts {r : Std.ExtTreeSet String} (hsize : r.toList.length < wordCount)
    (h : ∀ s ∈ r, Short s) : Exact r := by
  refine exact_narrow (congrArg some (ofList_toList r)) (exact_list hsize fun s hs => ?_)
  exact exact_text (h s (Std.ExtTreeSet.mem_toList.mp hs))

end Turnstile.Binary
