import CollectionShell.Proofs.Operation.ShellQuotes

/-!
# What the tokens keep of a text

`Spelled` says of a text that it is some tokens in order with nothing but blanks between and
around them. The tokens of a text spell it (`spelled_of_tokenized`) : a cut drops the blanks at
the ends of a fragment and nothing else, so every visible character stays where it was
(`Spelled.filter_eq`) and a token is found in the text (`Spelled.isInfix`).

The blanks that are dropped carry no state. A trimmed fragment is as free of cuts as the fragment
(`solid_trim`) and ends inside a string exactly if it does (`inside_advance_trim`), so the tokens
one behind another are a text with these tokens (`Tokenized.flatten`).
-/

namespace CollectionShell.Operation

open Quotation (Tracker)
open Text (Blank)

/-- The text is the tokens in order, with blanks in front of each and behind the last. -/
inductive Spelled : Text → List Text → Prop
  | blank {b : Text} : Blank b → Spelled b []
  | token {p x r : Text} {ts : List Text} : Blank p → Spelled r ts →
      Spelled (p ++ x ++ r) (x :: ts)

namespace Spelled

variable {t x y : Text} {ts us : List Text}

/-- More blanks may stand in front. -/
theorem pad {p : Text} (hp : Blank p) (h : Spelled t ts) : Spelled (p ++ t) ts := by
  cases h with
  | blank hb => exact .blank (Text.blank_append.2 ⟨hp, hb⟩)
  | @token q x r ts hq hr =>
    have := Spelled.token (x := x) (Text.blank_append.2 ⟨hp, hq⟩) hr
    simpa using this

theorem append (hx : Spelled x ts) (hy : Spelled y us) : Spelled (x ++ y) (ts ++ us) := by
  induction hx with
  | blank hb => exact hy.pad hb
  | @token p x r ts hp _ ih =>
    have := Spelled.token (x := x) hp ih
    simpa using this

/-- A text with one more token in front. -/
theorem cons (x : Text) (h : Spelled t ts) : Spelled (x ++ t) (x :: ts) :=
  .token Text.blank_nil h

/-- A token is found in the text. -/
theorem isInfix (h : Spelled t ts) (hx : x ∈ ts) : x <:+: t := by
  induction h with
  | blank => cases hx
  | @token p y r ts _ _ ih =>
    rcases List.mem_cons.1 hx with rfl | hx
    · exact ⟨p, r, rfl⟩
    · exact (ih hx).trans (List.suffix_append (p ++ y) r).isInfix

/-- Every visible character of the text is one of a token, and they are in the same order. -/
theorem filter_eq (h : Spelled t ts) :
    t.filter (fun c => !Text.isBlank c) = ts.flatten.filter fun c => !Text.isBlank c := by
  have hblank : ∀ {b : Text}, Blank b → b.filter (fun c => !Text.isBlank c) = [] := by
    intro b hb
    exact List.filter_eq_nil_iff.2 fun c hc => by simp [hb c hc]
  induction h with
  | blank hb => exact hblank hb
  | token hp _ ih =>
    simp only [List.filter_append, List.flatten_cons, hblank hp, ih, List.nil_append]

end Spelled

variable {mode : EscapeMode} {t : Text} {ts : List Text}

theorem spelled_fragment (f : Text) : Spelled f (fragment f) := by
  obtain ⟨p, s, hp, hs, hf⟩ := Text.exists_blank_append_trim f
  rw [fragment]
  split_ifs with h
  · exact .blank (Text.trim_eq_nil.1 h)
  · nth_rewrite 1 [hf]
    exact .token hp (.blank hs)

/-- The tokens of a text spell it. -/
theorem spelled_of_tokenized (h : Tokenized mode t ts) : Spelled t ts := by
  induction h with
  | @solid f _ => exact spelled_fragment f
  | @point f r ts _ _ _ ih => exact (spelled_fragment f).append (.cons ['.'] ih)
  | @group f b r ts _ _ _ _ ih =>
    have := (spelled_fragment f).append (.cons ['('] (.cons b (.cons [')'] ih)))
    simpa using this

/-! ## The tokens one behind another -/

theorem flatten_fragment (f : Text) : (fragment f).flatten = Text.trim f := by
  rw [fragment]
  split_ifs with h
  · exact h.symm
  · simp

theorem fragment_trim (f : Text) : fragment (Text.trim f) = fragment f := by
  rw [fragment, fragment, Text.trim_trim]

/-- A fragment has no cut that its blanks hide. -/
theorem solid_trim {f : Text} (h : Solid mode f) : Solid mode (Text.trim f) := by
  obtain ⟨p, s, hp, -, hf⟩ := Text.exists_blank_append_trim f
  intro m hm
  refine h m ?_
  rw [hf, Tracker.marks_append, Tracker.marks_append, advance_ordinary (ordinary_of_blank hp)]
  exact List.mem_append_left _ (List.mem_append_right _ hm)

/-- Trimming leaves a text inside the string that it ended in, or outside. -/
theorem inside_advance_trim (f : Text) :
    (Tracker.start.advance mode (Text.trim f)).inside = (Tracker.start.advance mode f).inside := by
  obtain ⟨p, s, hp, hs, hf⟩ := Text.exists_blank_append_trim f
  conv_rhs => rw [hf]
  rw [Tracker.advance_append, inside_advance_blank _ hs, advance_blank_append hp]

/-- The tokens one behind another are cut into the same tokens. -/
theorem Tokenized.flatten (h : Tokenized mode t ts) : Tokenized mode ts.flatten ts := by
  induction h with
  | @solid f hf =>
    have := Tokenized.solid (solid_trim hf)
    rwa [fragment_trim, ← flatten_fragment] at this
  | @point f r ts hf ho _ ih =>
    rw [← inside_advance_trim] at ho
    have := Tokenized.point (solid_trim hf) ho ih
    rw [fragment_trim, ← flatten_fragment] at this
    simpa using this
  | @group f b r ts hf ho hb _ ih =>
    rw [← inside_advance_trim] at ho
    have := Tokenized.group (solid_trim hf) ho hb ih
    rw [fragment_trim, ← flatten_fragment] at this
    simpa using this

/-- The tokens of a text spell it, so that no visible character is lost, doubled or moved, and one
behind another they are a text with the same tokens. -/
theorem tokens_spell (mode : EscapeMode) (t : Text) (ts : List Text)
    (h : tokenize mode t = .ok ts) :
    Spelled t ts ∧
      t.filter (fun c => !Text.isBlank c) = ts.flatten.filter (fun c => !Text.isBlank c) ∧
      tokenize mode ts.flatten = .ok ts := by
  have htokens := tokenized_of_tokenize h
  have hspelled := spelled_of_tokenized htokens
  exact ⟨hspelled, hspelled.filter_eq, tokenize_of_tokenized htokens.flatten⟩

theorem tokens_spell_unterminated :
    Spelled " us . ( '(' ) x) 'q . ".toList
        ["us".toList, ['.'], ['('], " '(' ".toList, [')'], "x) 'q .".toList] ∧
      " us . ( '(' ) x) 'q . ".toList.filter (fun c => !Text.isBlank c) =
        ["us".toList, ['.'], ['('], " '(' ".toList, [')'], "x) 'q .".toList].flatten.filter
          (fun c => !Text.isBlank c) ∧
      tokenize .single ["us".toList, ['.'], ['('], " '(' ".toList, [')'], "x) 'q .".toList].flatten =
        .ok ["us".toList, ['.'], ['('], " '(' ".toList, [')'], "x) 'q .".toList] :=
  tokens_spell .single _ _ (by cbv)

end CollectionShell.Operation
