/-!
# Blank characters and trimming

A character is blank when Unicode counts it as white space; the zero-width space and the byte order
mark are not blank.  Names and identities are trimmed of blanks on both sides before they are used.

* `trim_eq_self_iff`: a text is its own trimmed form exactly when neither end is blank.
* `trim_trim`: trimming twice is trimming once.
-/

set_option autoImplicit false

namespace Turnstile.Text

/-- White space in the sense of Unicode. -/
def isBlank (c : Char) : Bool :=
  let n := c.toNat
  (0x09 ≤ n && n ≤ 0x0D) || n = 0x20 || n = 0x85 || n = 0xA0 || n = 0x1680 ||
    (0x2000 ≤ n && n ≤ 0x200A) || n = 0x2028 || n = 0x2029 || n = 0x202F || n = 0x205F ||
    n = 0x3000

/-- A text without the blanks at its start. -/
def trimStart (cs : List Char) : List Char := cs.dropWhile isBlank

/-- A text without the blanks at its end. -/
def trimEnd (cs : List Char) : List Char := (trimStart cs.reverse).reverse

/-- A text without the blanks at both ends. -/
def trim (cs : List Char) : List Char := trimEnd (trimStart cs)

/-- A string without the blanks at both ends. -/
def trimmed (s : String) : String := String.ofList (trim s.toList)

/-- A string with the letters `A` to `Z` made small. -/
def lowered (s : String) : String := String.ofList (s.toList.map Char.toLower)

/-- What the core library calls white space is blank. -/
theorem isBlank_of_isWhitespace {c : Char} (h : c.isWhitespace = true) : isBlank c = true := by
  simp only [Char.isWhitespace, Bool.or_eq_true, decide_eq_true_eq] at h
  rcases h with (((rfl | rfl) | rfl) | rfl) <;> decide

theorem trimStart_eq_self_iff {cs : List Char} :
    trimStart cs = cs ↔ ∀ c ∈ cs.head?, isBlank c = false := by
  cases cs with
  | nil => simp [trimStart]
  | cons c r =>
    by_cases h : isBlank c = true
    · have hlen : (trimStart (c :: r)).length ≤ r.length := by
        simpa [trimStart, h] using (List.dropWhile_suffix (l := r) isBlank).length_le
      constructor
      · intro he
        rw [he, List.length_cons] at hlen
        omega
      · intro he
        have := he c rfl
        simp [h] at this
    · simp [trimStart, h]

theorem head?_trimStart (cs : List Char) : ∀ c ∈ (trimStart cs).head?, isBlank c = false := by
  intro c hc
  have h := List.head?_dropWhile_not isBlank cs
  rw [trimStart, Option.mem_def] at hc
  rw [hc] at h
  simpa using h

theorem trimEnd_eq_self_iff {cs : List Char} :
    trimEnd cs = cs ↔ ∀ c ∈ cs.getLast?, isBlank c = false := by
  rw [← List.head?_reverse, ← trimStart_eq_self_iff, trimEnd]
  constructor
  · intro h
    have := congrArg List.reverse h
    simpa using this
  · intro h
    rw [h, List.reverse_reverse]

theorem getLast?_trimEnd (cs : List Char) : ∀ c ∈ (trimEnd cs).getLast?, isBlank c = false := by
  rw [trimEnd, List.getLast?_reverse]
  exact head?_trimStart _

/-- What trimming the end leaves is a first part of the text. -/
theorem exists_trimEnd_append (cs : List Char) : ∃ r, trimEnd cs ++ r = cs := by
  obtain ⟨r, hr⟩ := List.dropWhile_suffix (l := cs.reverse) isBlank
  refine ⟨r.reverse, ?_⟩
  have := congrArg List.reverse hr
  simpa [trimEnd, trimStart] using this

theorem head?_trim (cs : List Char) : ∀ c ∈ (trim cs).head?, isBlank c = false := by
  intro c hc
  obtain ⟨r, hr⟩ := exists_trimEnd_append (trimStart cs)
  apply head?_trimStart cs
  rw [← hr, Option.mem_def, List.head?_append]
  rw [trim, Option.mem_def] at hc
  rw [hc]
  rfl

theorem getLast?_trim (cs : List Char) : ∀ c ∈ (trim cs).getLast?, isBlank c = false :=
  getLast?_trimEnd _

/-- A text is its own trimmed form exactly when neither of its ends is blank. -/
theorem trim_eq_self_iff {cs : List Char} :
    trim cs = cs ↔ (∀ c ∈ cs.head?, isBlank c = false) ∧ ∀ c ∈ cs.getLast?, isBlank c = false := by
  constructor
  · intro h
    rw [← h]
    exact ⟨head?_trim cs, getLast?_trim cs⟩
  · rintro ⟨h, k⟩
    rw [trim, trimStart_eq_self_iff.2 h, trimEnd_eq_self_iff.2 k]

/-- Trimming twice is trimming once. -/
@[simp] theorem trim_trim (cs : List Char) : trim (trim cs) = trim cs :=
  trim_eq_self_iff.2 ⟨head?_trim cs, getLast?_trim cs⟩

end Turnstile.Text
