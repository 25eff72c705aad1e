import CollectionShell.Json.Print
import CollectionShell.Proofs.Json.Grammar
import CollectionShell.Quotation.Basic
import Mathlib.Data.List.Nodup

/-!
# The compact form is JSON

`Renderable` says of a value that its compact form is to be read back : it has no doubles, its
integers have no more digits than are allowed, its strings are made of characters, the names
of an object are distinct, and it nests no deeper than it says. The grammar derives the
compact form of such a value as the value (`Renderable.written`), the members of its objects
in their order.

In the mode where one backslash escapes, a string of a renderable value does not end with a
backslash either. The grammar does not ask for that.
-/

namespace CollectionShell.Json

/-- The string is made of characters. Where one backslash escapes the mark that closes a
string, the string does not end with a backslash. -/
structure Quotable (mode : EscapeMode) (s : List CodePoint) : Prop where
  /-- No code point is a surrogate. -/
  characters : s.all isCharacter = true
  /-- A backslash would escape the closing mark. -/
  closes : mode = .single → s.getLast? ≠ some (CodePoint.ofNat 0x5C)

/-- The value has a compact form to be read back, and nests at most `n` arrays and objects. -/
inductive Renderable (mode : EscapeMode) : Nat → Json → Prop
  | null {n : Nat} : Renderable mode n .null
  | bool {n : Nat} (b : Bool) : Renderable mode n (.bool b)
  | int {n : Nat} {i : Int} : (Text.ofNat i.natAbs).length ≤ maxDigits → Renderable mode n (.int i)
  | string {n : Nat} {s : List CodePoint} : Quotable mode s → Renderable mode n (.string s)
  | array {n : Nat} {xs : List Json} : (∀ x ∈ xs, Renderable mode n x) →
      Renderable mode (n + 1) (.array xs)
  | object {n : Nat} {ms : List (Name × Json)} : (ms.map Prod.fst).Nodup →
      (∀ m ∈ ms, Quotable mode m.1) → (∀ m ∈ ms, Renderable mode n m.2) →
      Renderable mode (n + 1) (.object ms)

/-! ## Integers -/

/-- The digits of a positive number do not start with a zero. -/
theorem exists_ofNat {n : Nat} (h : n ≠ 0) : ∃ c ds, Text.ofNat n = c :: ds ∧ c ≠ '0' := by
  induction n using Nat.strongRecOn with
  | ind n ih =>
    by_cases hn : n < 10
    · refine ⟨n.digitChar, [], Nat.toDigits_of_lt_base hn, ?_⟩
      rwa [ne_eq, Nat.digitChar_eq_zero]
    · obtain ⟨c, ds, hds, hc⟩ := ih (n / 10) (by omega) (by omega)
      refine ⟨c, ds ++ [(n % 10).digitChar], ?_, hc⟩
      rw [Text.ofNat, Nat.toDigits_of_base_le (by decide) (by omega), ← Text.ofNat, hds]
      rfl

theorem wholeText_ofNat (n : Nat) : NumberLiteral.WholeText (Text.ofNat n) := by
  have hdigits : ∀ c ∈ Text.ofNat n, c.isDigit = true :=
    fun c hc => Nat.isDigit_of_mem_toDigits (by decide) (by decide) hc
  by_cases h : n = 0
  · rw [h, Text.ofNat, Nat.toDigits_zero]
    exact .zero
  · obtain ⟨c, ds, hds, hc⟩ := exists_ofNat h
    rw [hds] at hdigits ⊢
    exact .digits ⟨by simp, hdigits⟩ hc

/-- An integer is written as a literal of its value. -/
theorem scalarText_ofInt {i : Int} (h : (Text.ofNat i.natAbs).length ≤ maxDigits) :
    ScalarText (Text.ofInt i) (.int i) := by
  have htext : Text.ofInt i =
      NumberLiteral.signText (decide (i < 0)) ++ Text.ofNat i.natAbs ++ [] ++ [] := by
    by_cases hi : i < 0 <;> simp [Text.ofInt, NumberLiteral.signText, hi]
  have hvalue : (NumberLiteral.mk (decide (i < 0)) (Text.ofNat i.natAbs) none none).value =
      .ok (.int i) := by
    have hint : (NumberLiteral.mk (decide (i < 0)) (Text.ofNat i.natAbs) none none).toInt = i := by
      have hnat : NumberLiteral.natOf (Text.ofNat i.natAbs) = i.natAbs :=
        Nat.ofDigitChars_ten_toDigits
      simp only [NumberLiteral.toInt, hnat, decide_eq_true_eq]
      split_ifs <;> omega
    rw [NumberLiteral.value, hint]
    simp [Nat.not_lt.2 h]
  rw [htext]
  exact .number (.mk (wholeText_ofNat i.natAbs) .none .none) hvalue

/-! ## Strings -/

/-- A code point that is a character is the code point of the character that it is shown as. -/
theorem ofChar_shownChar {p : CodePoint} (h : isCharacter p = true) :
    CodePoint.ofChar (shownChar p) = p := by
  rw [isCharacter, Option.isSome_iff_exists] at h
  obtain ⟨c, hc⟩ := h
  have hp : c.toNat = p.val := by
    rw [CodePoint.toChar?] at hc
    split_ifs at hc with hp
    obtain rfl := Option.some.inj hc
    rw [Char.ofNat, dif_pos hp]
    rfl
  rw [shownChar, hc]
  exact Fin.ext hp

theorem toNat_shownChar {p : CodePoint} (h : isCharacter p = true) :
    (shownChar p).toNat = p.val :=
  congrArg Fin.val (ofChar_shownChar h)

theorem shownChar_ne {p : CodePoint} {c : Char} (h : isCharacter p = true)
    (hc : p.val ≠ c.toNat) : shownChar p ≠ c := by
  rintro rfl
  exact hc (toNat_shownChar h).symm

/-- A control character is the code unit of its four digits. -/
theorem codeUnit_fourHex (n : Fin 0x20) :
    fourHex (CodePoint.ofNat n) = ['0', '0', Nat.digitChar (n / 16), Nat.digitChar (n % 16)] ∧
      codeUnit? '0' '0' (Nat.digitChar (n / 16)) (Nat.digitChar (n % 16)) =
        some (CodePoint.ofNat n) := by
  revert n
  decide

/-- The four ways in which a character of a string is written. -/
theorem escapedPoint_cases {p : CodePoint} (h : isCharacter p = true) :
    (p = CodePoint.ofNat 0x22 ∧ escapedPoint p = ['\\', '\x22']) ∨
    (p = CodePoint.ofNat 0x5C ∧ escapedPoint p = ['\\', '\\']) ∨
    (∃ a b, escapedPoint p = ['\\', 'u', '0', '0', a, b] ∧ codeUnit? '0' '0' a b = some p) ∨
    ∃ c, escapedPoint p = [c] ∧ CodePoint.ofChar c = p ∧ c ≠ '\x22' ∧ c ≠ '\\' ∧
      0x20 ≤ c.toNat := by
  unfold escapedPoint
  split_ifs with hq hb hc
  · exact .inl ⟨Fin.ext hq, rfl⟩
  · exact .inr (.inl ⟨Fin.ext hb, rfl⟩)
  · have hp : CodePoint.ofNat p.val = p := dif_pos p.isLt
    obtain ⟨hhex, hunit⟩ := codeUnit_fourHex ⟨p.val, hc⟩
    rw [hp] at hhex hunit
    exact .inr (.inr (.inl ⟨_, _, by rw [hhex], hunit⟩))
  · refine .inr (.inr (.inr ⟨shownChar p, rfl, ofChar_shownChar h, shownChar_ne h hq,
      shownChar_ne h hb, ?_⟩))
    rw [toNat_shownChar h]
    omega

/-- Characters that `point` writes are read back as they are, whatever the string goes on
with. -/
def Legible (point : CodePoint → Text) : Prop :=
  ∀ p, isCharacter p = true → ∀ {b : Text} {ps : List CodePoint}, UnitsText b ps →
    UnitsText (point p ++ b) (p :: ps)

theorem legible_escapedPoint : Legible escapedPoint := by
  intro p h b ps hb
  rcases escapedPoint_cases h with
    ⟨rfl, he⟩ | ⟨rfl, he⟩ | ⟨a, b, he, hu⟩ | ⟨c, he, rfl, hq, hs, hc⟩
  all_goals rw [he]
  · exact .escape rfl hb
  · exact .escape rfl hb
  · exact .unit hu hb
  · exact .plain hq hs hc hb

theorem Legible.unitsText {point : CodePoint → Text} (hp : Legible point) {s : List CodePoint}
    (h : s.all isCharacter = true) : UnitsText (s.flatMap point) s := by
  induction s with
  | nil => exact .nil
  | cons p s ih =>
    rw [List.all_cons, Bool.and_eq_true] at h
    rw [List.flatMap_cons]
    exact hp p h.1 (ih h.2)

/-- Characters are no halves of surrogate pairs. -/
theorem joinPairs_eq_self {s : List CodePoint} (h : s.all isCharacter = true) :
    CodePoint.joinPairs s = s := by
  induction s with
  | nil => rfl
  | cons p s ih =>
    rw [List.all_cons, Bool.and_eq_true] at h
    have hp : p.isHigh = false := by
      have hvalid := (shownChar p).valid
      rw [← Bool.not_eq_true]
      intro hh
      simp only [CodePoint.isHigh, Bool.and_eq_true, decide_eq_true_eq] at hh
      have htoNat : (shownChar p).val.toNat = p.val := toNat_shownChar h.1
      rcases hvalid with hv | hv <;> omega
    change CodePoint.consPair p (CodePoint.joinPairs s) = p :: s
    rw [ih h.2]
    cases s with
    | nil => rfl
    | cons q s => rw [CodePoint.consPair, hp, Bool.false_and, if_neg (by decide)]

theorem Legible.stringText {point : CodePoint → Text} (hp : Legible point) {s : List CodePoint}
    (h : s.all isCharacter = true) : StringText (literal point s) s := by
  have := StringText.mk (hp.unitsText h)
  rwa [joinPairs_eq_self h] at this

/-! ## Arrays and objects -/

/-- A member without blanks. -/
def compactMember (m : Name × Json) : Text := literal escapedPoint m.1 ++ ':' :: compact m.2

/-- What is written with a comma in front of every item but the first is joined by commas. -/
theorem eq_joinWith {α : Type} {write : List α → Text} {item : α → Text} (hnil : write [] = [])
    (hone : ∀ x, write [x] = item x)
    (hmore : ∀ x y xs, write (x :: y :: xs) = item x ++ ',' :: write (y :: xs)) (xs : List α) :
    write xs = Text.joinWith [','] (xs.map item) := by
  induction xs with
  | nil => exact hnil
  | cons x xs ih =>
    cases xs with
    | nil => exact (hone x).trans (Text.joinWith_singleton _ _).symm
    | cons y xs => simp [hmore, ih]

theorem compactElements_eq (xs : List Json) :
    compactElements xs = Text.joinWith [','] (xs.map compact) :=
  eq_joinWith rfl (fun _ => rfl) (fun _ _ _ => rfl) xs

theorem compactMembers_eq (ms : List (Name × Json)) :
    compactMembers ms = Text.joinWith [','] (ms.map compactMember) :=
  eq_joinWith rfl (fun _ => rfl) (fun _ _ _ => rfl) ms

theorem setMember_of_not_mem {k : Name} {v : Json} {ms : List (Name × Json)}
    (h : k ∉ ms.map Prod.fst) : setMember k v ms = ms ++ [(k, v)] := by
  induction ms with
  | nil => rfl
  | cons m ms ih =>
    rw [List.map_cons, List.mem_cons, not_or] at h
    rw [setMember, if_neg (Ne.symm h.1), ih h.2, List.cons_append]

/-- Members with distinct names stay in their order. -/
theorem memberwise_eq_self {ms : List (Name × Json)} (h : (ms.map Prod.fst).Nodup) :
    memberwise ms = ms := by
  have hfold : ∀ (older : List (Name × Json)), ((older ++ ms).map Prod.fst).Nodup →
      ms.foldl (fun members p => setMember p.1 p.2 members) older = older ++ ms := by
    clear h
    induction ms with
    | nil => simp
    | cons m ms ih =>
      intro older h
      have hm : m.1 ∉ older.map Prod.fst := by
        rw [List.map_append, List.nodup_append] at h
        exact fun hmem => h.2.2 _ hmem m.1 (by simp) rfl
      rw [List.append_cons] at h
      rw [List.foldl_cons, setMember_of_not_mem hm, ih (older ++ [m]) h, ← List.append_cons]
  exact hfold [] h

theorem forall₂_map_self {α : Type} {p : Text → α → Prop} {f : α → Text} {xs : List α}
    (h : ∀ x ∈ xs, p (f x) x) : List.Forall₂ p (xs.map f) xs := by
  induction xs with
  | nil => exact .nil
  | cons x xs ih =>
    rw [List.forall_mem_cons] at h
    exact .cons h.1 (ih h.2)

theorem scalarText_null : ScalarText (compact .null) .null :=
  .word (by simp [compact, words])

theorem scalarText_bool (b : Bool) : ScalarText (compact (.bool b)) (.bool b) :=
  .word (by cases b <;> simp [compact, boolWord, words])

variable {mode : EscapeMode}

theorem memberText_compactMember {m : Name × Json} {p : Text → Json → Prop}
    (hk : Quotable mode m.1) (hv : p (compact m.2) m.2) : MemberText p (compactMember m) m := by
  have := MemberText.mk (legible_escapedPoint.stringText hk.characters) space_nil space_nil hv
  simpa [compactMember] using this

/-- The compact form of a renderable value is derived as the value. -/
theorem Renderable.written {n : Nat} {v : Json} (h : Renderable mode n v) :
    Written (n + 1) (compact v) v := by
  induction h with
  | null => exact ValueText.scalar scalarText_null
  | bool b => exact ValueText.scalar (scalarText_bool b)
  | int hi => exact ValueText.scalar (scalarText_ofInt hi)
  | string hs => exact ValueText.string (legible_escapedPoint.stringText hs.characters)
  | array _ ih =>
    rw [compact, compactElements_eq]
    exact ValueText.array (containerText_joinWith (forall₂_map_self ih))
  | object hd hk _ ih =>
    rw [compact, compactMembers_eq]
    nth_rewrite 2 [← memberwise_eq_self hd]
    refine ValueText.object (containerText_joinWith (forall₂_map_self fun m hm => ?_))
    exact memberText_compactMember (hk m hm) (ih m hm)

end CollectionShell.Json
