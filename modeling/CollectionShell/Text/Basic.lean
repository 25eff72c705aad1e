/-!
# Text

A text is the list of its characters, and every index, length and column of the library
counts characters. Blank characters are the ones that `Text.trim` takes off both ends :
what `trim` leaves neither begins nor ends with one (`Text.head_trim_not_blank`,
`Text.getLast_trim_not_blank`), and what it takes off is blank
(`Text.exists_blank_append_trim`).
-/

namespace CollectionShell

/-- A text : its characters in order. -/
abbrev Text := List Char

namespace Text

/-- The characters of a string literal. -/
def ofString (s : String) : Text := s.toList

/-- Blank : the controls from tab to carriage return, the four information separators, the
space, the next-line control and the other spaces and separators of Unicode. -/
def isBlank (c : Char) : Bool :=
  let n := c.toNat
  (9 ≤ n && n ≤ 13) || (28 ≤ n && n ≤ 32) || n == 0x85 || n == 0xA0 || n == 0x1680 ||
    (0x2000 ≤ n && n ≤ 0x200A) || n == 0x2028 || n == 0x2029 || n == 0x202F ||
    n == 0x205F || n == 0x3000

/-- Every character of the text is blank. -/
def Blank (t : Text) : Prop := ∀ c ∈ t, isBlank c = true

instance (t : Text) : Decidable (Blank t) := inferInstanceAs (Decidable (∀ c ∈ t, _))

/-- The text without its leading blanks. -/
def trimLeft (t : Text) : Text := t.dropWhile isBlank

/-- The text without its trailing blanks. -/
def trimRight (t : Text) : Text := (t.reverse.dropWhile isBlank).reverse

/-- The text without the blanks at both ends. -/
def trim (t : Text) : Text := trimRight (trimLeft t)

/-- The decimal digits of a number. -/
def ofNat (n : Nat) : Text := Nat.toDigits 10 n

/-- The decimal digits of an integer, behind a minus sign if it is negative. -/
def ofInt (n : Int) : Text := if n < 0 then '-' :: ofNat n.natAbs else ofNat n.natAbs

/-- The texts one after another with a separator between neighbours. -/
def joinWith (separator : Text) (ts : List Text) : Text := (ts.intersperse separator).flatten

/-! ## Blanks -/

theorem blank_nil : Blank [] := by simp [Blank]

theorem blank_append {s t : Text} : Blank (s ++ t) ↔ Blank s ∧ Blank t := by
  simp only [Blank, List.mem_append]
  exact ⟨fun h => ⟨fun c hc => h c (.inl hc), fun c hc => h c (.inr hc)⟩,
    fun h c hc => hc.elim (h.1 c) (h.2 c)⟩

theorem blank_reverse {t : Text} : Blank t.reverse ↔ Blank t := by simp [Blank]

theorem blank_takeWhile (t : Text) : Blank (t.takeWhile isBlank) := by
  induction t with
  | nil => exact blank_nil
  | cons c t ih =>
    by_cases h : isBlank c
    · rw [List.takeWhile_cons_of_pos h]
      exact fun d hd => (List.mem_cons.1 hd).elim (fun e => e ▸ h) (ih d)
    · rw [List.takeWhile_cons_of_neg h]
      exact blank_nil

/-- Trimming on the right takes off blanks only. -/
theorem exists_trimRight_append_blank (t : Text) : ∃ s, Blank s ∧ t = trimRight t ++ s := by
  refine ⟨(t.reverse.takeWhile isBlank).reverse, blank_reverse.2 (blank_takeWhile _), ?_⟩
  rw [trimRight, ← List.reverse_append, List.takeWhile_append_dropWhile, List.reverse_reverse]

/-- Trimming takes off blanks only. -/
theorem exists_blank_append_trim (t : Text) :
    ∃ p s, Blank p ∧ Blank s ∧ t = p ++ trim t ++ s := by
  obtain ⟨s, hs, h⟩ := exists_trimRight_append_blank (trimLeft t)
  refine ⟨t.takeWhile isBlank, s, blank_takeWhile t, hs, ?_⟩
  rw [List.append_assoc, trim, ← h, trimLeft, List.takeWhile_append_dropWhile]

theorem head_dropWhile_not_blank {t : Text} {c : Char}
    (h : (t.dropWhile isBlank).head? = some c) : isBlank c = false := by
  have := List.head?_dropWhile_not isBlank t
  rw [h] at this
  simpa using this

/-- A trimmed text does not end with a blank. -/
theorem getLast_trim_not_blank {t : Text} {c : Char} (h : (trim t).getLast? = some c) :
    isBlank c = false := by
  rw [trim, trimRight, List.getLast?_reverse] at h
  exact head_dropWhile_not_blank h

/-- A trimmed text does not begin with a blank. -/
theorem head_trim_not_blank {t : Text} {c : Char} (h : (trim t).head? = some c) :
    isBlank c = false := by
  obtain ⟨s, -, hs⟩ := exists_trimRight_append_blank (trimLeft t)
  refine head_dropWhile_not_blank (t := t) (c := c) ?_
  change (trimLeft t).head? = some c
  rw [hs, List.head?_append]
  simp only [trim] at h
  simp [h]

end Text

end CollectionShell
