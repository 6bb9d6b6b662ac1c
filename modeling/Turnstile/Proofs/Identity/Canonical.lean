import Turnstile.Identity.Tracker
import Turnstile.Proofs.Identity.LetterSize

/-!
# One form for each client

An address has many spellings: zeros in front, two colons here or there, large letters, a short
address inside a long one, a port, a zone, brackets, blanks around it.  All of them become one text,
and that text is read as the address again.  What is no address keeps its letters, in small, and
does not become one.  So clients are told apart by their addresses, and by nothing else.

* `canonical_of_names`, `canonical_of_not_names`: the form of an address, and of anything else.
* `canonical_eq_iff_collapsed_eq`: two spellings have the same form if they are of the same address.
* `canonical_canonical`: the form of a form.
-/

set_option autoImplicit false

namespace Turnstile.Address

variable {x y : Address} {c : Char} {cs : List Char} {s t : String}

/-! ## Written forms have no blanks -/

theorem isBlank_of_isDigit {base : Nat} (h : isDigit base c = true) : Text.isBlank c = false := by
  have hrange : 48 ≤ c.toNat ∧ c.toNat ≤ 102 := by
    rw [isDigit, digit?_eq] at h
    grind
  exact isBlank_eq_false hrange.1 (by omega)

theorem isBlank_of_mem_toDigits {base n : Nat} (hone : 1 < base) (hbase : base ≤ 16)
    (h : c ∈ Nat.toDigits base n) : Text.isBlank c = false :=
  isBlank_of_isDigit (isDigit_of_mem_toDigits hone hbase h)

theorem isBlank_of_mem_joined {gs : List UInt16} (h : c ∈ joined gs) : Text.isBlank c = false := by
  cases gs with
  | nil => cases h
  | cons g gs =>
    simp only [joined_cons, colons, List.mem_append, List.mem_flatMap, List.mem_cons] at h
    rcases h with h | ⟨g, -, rfl | h⟩
    · exact isBlank_of_mem_toDigits (by decide) (by decide) h
    · decide
    · exact isBlank_of_mem_toDigits (by decide) (by decide) h

theorem isBlank_of_mem_text (h : c ∈ x.text) : Text.isBlank c = false := by
  have hten : ∀ {n : Nat}, c ∈ Nat.toDigits 10 n → Text.isBlank c = false :=
    isBlank_of_mem_toDigits (by decide) (by decide)
  cases x with
  | v4 a b c d =>
    simp only [text, List.mem_append, List.mem_cons] at h
    rcases h with ((h | rfl | h) | rfl | h) | rfl | h
    · exact hten h
    · decide
    · exact hten h
    · decide
    · exact hten h
    · decide
    · exact hten h
  | v6 g =>
    unfold text groupsText at h
    simp only at h
    split at h
    · exact isBlank_of_mem_joined h
    · simp only [List.mem_append, List.mem_cons, List.not_mem_nil, or_false] at h
      rcases h with (h | rfl | rfl) | h
      · exact isBlank_of_mem_joined h
      · decide
      · decide
      · exact isBlank_of_mem_joined h

theorem trim_text (x : Address) : Text.trim x.text = x.text :=
  Text.trim_eq_self_iff.mpr ⟨fun _ h => isBlank_of_mem_text (List.mem_of_head? h),
    fun _ h => isBlank_of_mem_text (List.mem_of_getLast? h)⟩

/-- Small letters leave the ends of a text free of blanks. -/
theorem trim_lower (h : Text.trim cs = cs) : Text.trim (lower cs) = lower cs := by
  obtain ⟨hhead, hlast⟩ := Text.trim_eq_self_iff.mp h
  refine Text.trim_eq_self_iff.mpr ⟨fun c hc => ?_, fun c hc => ?_⟩
  · rw [lower, List.head?_map] at hc
    obtain ⟨d, hd, rfl⟩ := Option.map_eq_some_iff.mp hc
    rw [isBlank_toLower]
    exact hhead d hd
  · rw [lower, List.getLast?_map] at hc
    obtain ⟨d, hd, rfl⟩ := Option.map_eq_some_iff.mp hc
    rw [isBlank_toLower]
    exact hlast d hd

/-! ## The one form -/

/-- The form of an address. -/
theorem canonical_of_names (h : Names (Text.trim s.toList) x) :
    (canonical s).toList = x.collapsed.text := by
  simp only [canonical, ofText?_eq_some_iff.mpr h, String.toList_ofList]

/-- The form of what is no address. -/
theorem canonical_of_not_names (h : ∀ x, ¬ Names (Text.trim s.toList) x) :
    (canonical s).toList = lower (Text.trim s.toList) := by
  have hnone : ofText? (Text.trim s.toList) = none :=
    Option.eq_none_iff_forall_not_mem.mpr fun x hx => h x (ofText?_eq_some_iff.mp hx)
  simp only [canonical, hnone, String.toList_ofList, lower]

theorem names_text (x : Address) : Names x.text x := .inl (plain?_text x)

theorem text_inj (h : x.text = y.text) : x = y :=
  names_unique (names_text x) (h ▸ names_text y)

/-- **The form of an address is canonical.**  Let two texts name addresses, in any of the four forms
and with any blanks around them.  Then they have the same form if and only if the addresses are the
same, where the long address that stands for a short one counts as the short one; and the form is
read as that address. -/
theorem canonical_eq_iff_collapsed_eq (s t : String) (x y : Address)
    (hx : Names (Text.trim s.toList) x) (hy : Names (Text.trim t.toList) y) :
    (canonical s = canonical t ↔ x.collapsed = y.collapsed) ∧
      plain? (canonical s).toList = some x.collapsed := by
  rw [← String.toList_inj, canonical_of_names hx, canonical_of_names hy]
  exact ⟨⟨text_inj, congrArg text⟩, plain?_text _⟩

/-- A long address in brackets that stands for a short one, with a port and blanks, and the short
one with something else than a port. -/
theorem canonical_eq_of_mapped :
    (canonical " [0:0:0:0:0:FFFF:10.0.0.1]:443 " = canonical "10.0.0.1:https" ↔
      (Address.v6 #v[0, 0, 0, 0, 0, 0xFFFF, 0x0A00, 1]).collapsed = (v4 10 0 0 1).collapsed) ∧
    plain? (canonical " [0:0:0:0:0:FFFF:10.0.0.1]:443 ").toList = some (v4 10 0 0 1) :=
  canonical_eq_iff_collapsed_eq _ _ (.v6 #v[0, 0, 0, 0, 0, 0xFFFF, 0x0A00, 1]) (.v4 10 0 0 1)
    (.inr (.inl (by decide +kernel))) (.inr (.inr (.inr (by decide +kernel))))

/-! ## The form of a form -/

/-- No blanks are around a form. -/
theorem trim_canonical (s : String) : Text.trim (canonical s).toList = (canonical s).toList := by
  by_cases h : ∃ x, Names (Text.trim s.toList) x
  · obtain ⟨x, hx⟩ := h
    rw [canonical_of_names hx, trim_text]
  · rw [canonical_of_not_names (not_exists.mp h), trim_lower (Text.trim_trim _)]

theorem names_canonical (h : Names (Text.trim s.toList) x) :
    Names (canonical s).toList x.collapsed := by
  rw [canonical_of_names h]
  exact names_text _

theorem not_names_canonical (h : ∀ x, ¬ Names (Text.trim s.toList) x) (x : Address) :
    ¬ Names (canonical s).toList x := by
  rw [canonical_of_not_names h, ← ofText?_eq_some_iff, ofText?_lower, ofText?_eq_some_iff]
  exact h x

/-- **The form of a form is the form itself**, whatever the text.  What names no address has a form
that names none, so it never shares its key with an address. -/
theorem canonical_canonical (s : String) :
    canonical (canonical s) = canonical s ∧
      ((∀ x, ¬ Names (Text.trim s.toList) x) →
        (∀ x, ¬ Names (canonical s).toList x) ∧
        ∀ t y, Names (Text.trim t.toList) y → (Tracker.ofIp s).key ≠ (Tracker.ofIp t).key) := by
  constructor
  · have htrim := trim_canonical s
    by_cases h : ∃ x, Names (Text.trim s.toList) x
    · obtain ⟨x, hx⟩ := h
      have hx' := names_canonical hx
      rw [← htrim] at hx'
      rw [← String.toList_inj, canonical_of_names hx', collapsed_collapsed, canonical_of_names hx]
    · have hnone := not_names_canonical (not_exists.mp h)
      rw [← htrim] at hnone
      rw [← String.toList_inj, canonical_of_not_names hnone, htrim,
        canonical_of_not_names (not_exists.mp h), lower_lower]
  · intro h
    refine ⟨not_names_canonical h, fun t y hy hkey => ?_⟩
    have htracker : Tracker.ip (canonical s) = .ip (canonical t) := Tracker.key_inj.mp hkey
    have hsame := Tracker.ip.inj htracker
    refine not_names_canonical h y.collapsed ?_
    rw [hsame]
    exact names_canonical hy

/-- A name in large letters, and an address. -/
theorem canonical_ne_of_name :
    canonical (canonical "\tLocalHost:80 ") = canonical "\tLocalHost:80 " ∧
      (Tracker.ofIp "\tLocalHost:80 ").key ≠ (Tracker.ofIp "[::1]").key := by
  have hname : ∀ x, ¬ Names (Text.trim "\tLocalHost:80 ".toList) x := by
    intro x
    rw [← ofText?_eq_some_iff]
    have hnone : ofText? (Text.trim "\tLocalHost:80 ".toList) = none := by decide +kernel
    rw [hnone]
    nofun
  obtain ⟨hsame, hnames⟩ := canonical_canonical "\tLocalHost:80 "
  exact ⟨hsame, (hnames hname).2 "[::1]" (.v6 #v[0, 0, 0, 0, 0, 0, 0, 1])
    (.inr (.inr (.inl (by decide +kernel))))⟩

end Turnstile.Address
