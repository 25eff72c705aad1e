import CollectionShell.Text.Basic
import Mathlib.Data.List.TakeWhile

/-!
# Trimmed and joined texts

What `Text.trim` does to a text that is written with blanks around it
(`Text.trim_append_blank`), which texts it leaves alone (`Text.trim_eq_self`), and that
nothing is left exactly of a blank text (`Text.trim_eq_nil`). `Text.joinWith` is taken apart at
its first separator and at its last, and two texts one behind the other at any character
(`Text.append_eq_append_cons`).
-/

namespace CollectionShell.Text

/-- The visible characters of ASCII are not blank. -/
theorem isBlank_eq_false {c : Char} (hl : 33 ≤ c.toNat) (hu : c.toNat ≤ 126) :
    isBlank c = false := by
  rw [← Bool.not_eq_true]
  simp only [isBlank, Bool.or_eq_true, Bool.and_eq_true, decide_eq_true_eq, beq_iff_eq]
  omega

theorem isBlank_of_isAlphanum {c : Char} (h : c.isAlphanum = true) : isBlank c = false := by
  unfold Char.isAlphanum Char.isAlpha Char.isUpper Char.isLower Char.isDigit at h
  simp only [Bool.or_eq_true, Bool.and_eq_true, decide_eq_true_eq, UInt32.le_iff_toNat_le,
    ge_iff_le, Char.toNat_val, Char.reduceToNat] at h
  exact isBlank_eq_false (by omega) (by omega)

theorem trimLeft_eq_nil {t : Text} : trimLeft t = [] ↔ Blank t := List.dropWhile_eq_nil_iff

theorem trimRight_eq_nil {t : Text} : trimRight t = [] ↔ Blank t := by
  rw [trimRight, List.reverse_eq_nil_iff, List.dropWhile_eq_nil_iff]
  exact blank_reverse

theorem blank_trimLeft {t : Text} : Blank (trimLeft t) ↔ Blank t := by
  refine ⟨fun h => ?_, fun h => ?_⟩
  · have ht : t = t.takeWhile isBlank ++ trimLeft t := List.takeWhile_append_dropWhile.symm
    rw [ht]
    exact blank_append.2 ⟨blank_takeWhile t, h⟩
  · rw [trimLeft_eq_nil.2 h]
    exact blank_nil

/-- Nothing is left exactly of a blank text. -/
theorem trim_eq_nil {t : Text} : trim t = [] ↔ Blank t := by
  rw [trim, trimRight_eq_nil, blank_trimLeft]

theorem trimLeft_blank_append {p : Text} (hp : Blank p) (t : Text) :
    trimLeft (p ++ t) = trimLeft t :=
  List.dropWhile_append_of_pos hp

theorem trimRight_append_blank {s : Text} (hs : Blank s) (t : Text) :
    trimRight (t ++ s) = trimRight t := by
  rw [trimRight, List.reverse_append, List.dropWhile_append_of_pos (blank_reverse.2 hs), trimRight]

theorem trimLeft_append {t : Text} (ht : ¬Blank t) (s : Text) :
    trimLeft (t ++ s) = trimLeft t ++ s := by
  have h : ¬(t.dropWhile isBlank).isEmpty = true := by
    rw [List.isEmpty_iff]
    exact fun h => ht (trimLeft_eq_nil.1 h)
  rw [trimLeft, List.dropWhile_append, if_neg h, trimLeft]

/-- Blanks around a text are trimmed off with its own. -/
theorem trim_append_blank {p s : Text} (hp : Blank p) (hs : Blank s) (t : Text) :
    trim (p ++ t ++ s) = trim t := by
  by_cases ht : Blank t
  · rw [trim_eq_nil.2 ht, trim_eq_nil]
    exact blank_append.2 ⟨blank_append.2 ⟨hp, ht⟩, hs⟩
  · rw [trim, List.append_assoc, trimLeft_blank_append hp, trimLeft_append ht,
      trimRight_append_blank hs, trim]

theorem trimLeft_eq_self {t : Text} (h : ∀ c, t.head? = some c → isBlank c = false) :
    trimLeft t = t := by
  cases t with
  | nil => rfl
  | cons c t => exact List.dropWhile_cons_of_neg (by simp [h c rfl])

/-- A text that neither begins nor ends with a blank is left alone. -/
theorem trim_eq_self {t : Text} (hh : ∀ c, t.head? = some c → isBlank c = false)
    (hl : ∀ c, t.getLast? = some c → isBlank c = false) : trim t = t := by
  have hr : trimLeft t.reverse = t.reverse :=
    trimLeft_eq_self fun c hc => hl c (by rwa [List.head?_reverse] at hc)
  rw [trim, trimLeft_eq_self hh, trimRight]
  change (trimLeft t.reverse).reverse = t
  rw [hr, List.reverse_reverse]

/-- So is a text between two characters that are not blank. -/
theorem trim_between {c d : Char} (hc : isBlank c = false) (hd : isBlank d = false) (t : Text) :
    trim (c :: t ++ [d]) = c :: t ++ [d] := by
  refine trim_eq_self (fun x hx => ?_) fun x hx => ?_
  · obtain rfl := Option.some.inj hx
    exact hc
  · rw [List.getLast?_append, List.getLast?_singleton, Option.some_or] at hx
    obtain rfl := Option.some.inj hx
    exact hd

theorem trim_trim (t : Text) : trim (trim t) = trim t :=
  trim_eq_self (fun _ => head_trim_not_blank) fun _ => getLast_trim_not_blank

/-! ## Joining -/

/-- A character of two texts, one behind the other, stands in the first or in the second. -/
theorem append_eq_append_cons {x y u v : Text} {c : Char} :
    x ++ y = u ++ c :: v ↔
      (∃ r, x = u ++ c :: r ∧ v = r ++ y) ∨ ∃ r, u = x ++ r ∧ y = r ++ c :: v := by
  constructor
  · intro h
    rcases List.append_eq_append_iff.1 h with ⟨r, rfl, rfl⟩ | ⟨r, rfl, hr⟩
    · exact .inr ⟨r, rfl, rfl⟩
    · rcases List.cons_eq_append_iff.1 hr with ⟨rfl, rfl⟩ | ⟨r, rfl, rfl⟩
      · exact .inr ⟨[], by simp, rfl⟩
      · exact .inl ⟨r, rfl, rfl⟩
  · rintro (⟨r, rfl, rfl⟩ | ⟨r, rfl, rfl⟩)
    · simp
    · simp

@[simp] theorem joinWith_nil (s : Text) : joinWith s [] = [] := rfl

@[simp] theorem joinWith_singleton (s t : Text) : joinWith s [t] = t := by simp [joinWith]

@[simp] theorem joinWith_cons_cons (s t u : Text) (ts : List Text) :
    joinWith s (t :: u :: ts) = t ++ s ++ joinWith s (u :: ts) := by
  simp [joinWith]

theorem joinWith_append_singleton (s : Text) {ts : List Text} (h : ts ≠ []) (t : Text) :
    joinWith s (ts ++ [t]) = joinWith s ts ++ s ++ t := by
  induction ts with
  | nil => exact absurd rfl h
  | cons u ts ih =>
    cases ts with
    | nil => simp
    | cons v ts =>
      have hrest := ih (List.cons_ne_nil v ts)
      simp only [List.cons_append] at hrest
      rw [List.cons_append, List.cons_append, joinWith_cons_cons, hrest, joinWith_cons_cons]
      simp only [List.append_assoc]

end CollectionShell.Text
