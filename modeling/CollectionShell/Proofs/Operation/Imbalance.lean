import CollectionShell.Proofs.Operation.Acceptance
import CollectionShell.Proofs.Operation.FirstViolation
import CollectionShell.Proofs.Operation.Separated

/-!
# What is out of balance

A text is read for strings twice, as a whole when it is cut into tokens and from behind an
opening parenthesis when its arguments are cut into segments. Between parentheses that match
both readings agree at every place (`mask_between`), for the one in front of the arguments
stands outside strings and escapes nothing. The arguments of a call stand between such
parentheses (`enclosed_of_layout`), so an imbalance is of one of two kinds
(`imbalance_of_parse`) : a parenthesis that is never closed, found by the first reading, or
braces and brackets that do not match, found by the second.
-/

namespace CollectionShell.Operation

open Quotation (Tracker mask endsInside getElem?_mask)

variable {mode : EscapeMode}

/-! ## Two readings of the arguments -/

/-- A place of a text splits it there. -/
theorem exists_of_getElem? {t : Text} {k : Nat} {c : Char} (h : t[k]? = some c) :
    ∃ x y, t = x ++ c :: y ∧ x.length = k := by
  obtain ⟨hk, rfl⟩ := List.getElem?_eq_some_iff.1 h
  exact ⟨t.take k, t.drop (k + 1), by simp, by simp; omega⟩

/-- Behind a cut the mask of a text is the mask of what the cut leaves behind. -/
theorem getElem?_mask_cut {x y : Text} {c : Char} {i : Nat}
    (hx : (Tracker.start.advance mode x).inside = false) (hq : QuoteMark.ofChar? c = none)
    (hb : c ≠ '\\') (hi : i ≤ y.length) :
    (mask mode (x ++ c :: y))[x.length + 1 + i]? = (mask mode y)[i]? := by
  have hlen : x.length + 1 + i ≤ (x ++ c :: y).length := by
    rw [List.length_append, List.length_cons]
    omega
  have htake : (x ++ c :: y).take (x.length + 1 + i) = x ++ c :: y.take i := by
    rw [Nat.add_assoc, List.take_length_add_append, Nat.add_comm 1 i, List.take_succ_cons]
  rw [getElem?_mask mode hlen, getElem?_mask mode hi, htake, advance_cut hx hq hb]

/-- The mask of a text does not depend on what stands behind it. -/
theorem getElem?_mask_append {x y : Text} {i : Nat} (hi : i ≤ x.length) :
    (mask mode (x ++ y))[i]? = (mask mode x)[i]? := by
  have hlen : i ≤ (x ++ y).length := by
    rw [List.length_append]
    omega
  rw [getElem?_mask mode hlen, getElem?_mask mode hi, List.take_append_of_le_length hi]

/-- What the mask says of the place behind a text is where the text ends. -/
theorem getElem?_mask_length (mode : EscapeMode) (x y : Text) :
    (mask mode (x ++ y))[x.length]? = some (Tracker.start.advance mode x).inside := by
  rw [getElem?_mask_append (Nat.le_refl _), getElem?_mask mode (Nat.le_refl _), List.take_length]

/-- A character outside strings stands behind a text that ends outside strings. -/
theorem outside_of_mask {x y : Text} (h : (mask mode (x ++ y))[x.length]? = some false) :
    (Tracker.start.advance mode x).inside = false := by
  rw [getElem?_mask_length] at h
  exact Option.some.inj h

/-- The text behind place `k` and in front of place `c`. -/
def between (t : Text) (k c : Nat) : Text := (t.take c).drop (k + 1)

theorem between_append (x b r : Text) (o c : Char) :
    between (x ++ o :: (b ++ c :: r)) x.length (x.length + 1 + b.length) = b := by
  rw [between, Nat.add_assoc, List.take_length_add_append, List.drop_length_add_append,
    Nat.add_comm 1, List.take_succ_cons, List.drop_succ_cons, List.drop_zero, List.take_left']
  rfl

/-- Between parentheses that match, the mask of the whole text, the mask of the text between
them and the strings that the splitter tracks are the same. -/
theorem mask_between {t : Text} {k c i : Nat} (hk : t[k]? = some '(')
    (hout : (mask mode t)[k]? = some false)
    (hc : matchingParen t (mask mode t) k = .ok c) (hi : i ≤ c - k - 1) :
    (mask mode t)[k + 1 + i]? = (mask mode (between t k c))[i]? ∧
      (mask mode (between t k c))[i]? =
        some (Splitter.start.run mode ((between t k c).take i)).strings.inside := by
  obtain ⟨x, y, rfl, rfl⟩ := exists_of_getElem? hk
  have hx := outside_of_mask hout
  obtain ⟨b, r, rfl, rfl, hb⟩ := (matchingParen_eq_ok hx).1 hc
  have hib : i ≤ b.length := by omega
  have hir : i ≤ (b ++ ')' :: r).length := by
    rw [List.length_append]
    omega
  rw [between_append]
  constructor
  · rw [getElem?_mask_cut hx rfl (by decide) hir, getElem?_mask_append hib]
  · rw [getElem?_mask mode hib, Splitter.strings_run]
    rfl

/-! ## The arguments of a call are enclosed -/

/-- A fragment is no point and no opening parenthesis, for that would be a cut. -/
theorem ne_cut_of_mem_fragment {c : Char} {f x : Text} (hc : c = '.' ∨ c = '(')
    (hf : Solid mode f) (hx : x ∈ fragment f) : x ≠ [c] := by
  rintro rfl
  have htrim : Text.trim f = [c] := by
    rw [fragment] at hx
    split_ifs at hx
    · cases hx
    · exact (List.mem_singleton.1 hx).symm
  obtain ⟨p, s, hp, -, hfeq⟩ := Text.exists_blank_append_trim f
  rw [htrim, List.append_assoc] at hfeq
  have hout : (Tracker.start.advance mode p).inside = false := by
    rw [advance_ordinary (ordinary_of_blank hp)]
    rfl
  have hidle : QuoteMark.ofChar? c = none ∧ c ≠ '\\' := by
    rcases hc with rfl | rfl <;> decide
  have hmem : (⟨c, false⟩ : Marked) ∈ Tracker.start.marks mode f := by
    rw [hfeq]
    change _ ∈ Tracker.start.marks mode (p ++ c :: s)
    rw [marks_cut hout hidle.1 hidle.2]
    simp
  rcases hf _ hmem with h | ⟨hpoint, hparen⟩
  · cases h
  · exact hc.elim hpoint hparen

/-- What is enclosed is no opening parenthesis, for that would be open. -/
theorem Enclosed.ne_paren {b : Text} (hb : Enclosed mode b) : b ≠ ['('] := by
  rintro rfl
  have h := hb.stillOpen_eq
  simp [stillOpen, Tracker.start, Tracker.inside] at h

/-- A token may stand in front of another, which is enclosed if the first is an opening
parenthesis. -/
def Precedes (mode : EscapeMode) (x y : Text) : Prop := x = ['('] → Enclosed mode y

theorem isChain_cons_of_ne {x : Text} {ts : List Text} (hx : x ≠ ['('])
    (hts : ts.IsChain (Precedes mode)) : (x :: ts).IsChain (Precedes mode) :=
  hts.cons fun _ _ h => absurd h hx

theorem isChain_fragment_append {f : Text} {ts : List Text} (hf : Solid mode f)
    (hts : ts.IsChain (Precedes mode)) : (fragment f ++ ts).IsChain (Precedes mode) := by
  have hne := fun x => ne_cut_of_mem_fragment (x := x) (.inr rfl) hf
  rw [fragment] at hne ⊢
  split_ifs at hne ⊢
  · exact hts
  · exact isChain_cons_of_ne (hne _ List.mem_cons_self) hts

/-- Behind every opening parenthesis among the tokens stands an enclosed text. -/
theorem isChain_of_tokenized {t : Text} {ts : List Text} (h : Tokenized mode t ts) :
    ts.IsChain (Precedes mode) := by
  induction h with
  | solid hf => simpa using isChain_fragment_append hf .nil
  | point hf _ _ ih => exact isChain_fragment_append hf (isChain_cons_of_ne (by decide) ih)
  | group hf _ hb _ ih =>
    have hclose := isChain_cons_of_ne (x := [')']) (by decide) ih
    refine isChain_fragment_append hf ((isChain_cons_of_ne hb.ne_paren hclose).cons ?_)
    rintro y hy -
    obtain rfl := Option.some.inj hy
    exact hb

/-- The arguments of a call are enclosed, whatever stands in front of them. -/
theorem enclosed_of_layout {t : Text} {ts : List Text} {l : Layout} (h : tokenize mode t = .ok ts)
    (hl : layout ts = .ok l) : Enclosed mode l.blob := by
  have hchain := isChain_of_tokenized (tokenize_eq_ok.1 h)
  rw [layout_eq_ok.1 hl] at hchain
  have hblob := (List.isChain_cons_cons.1 hchain.tail.tail.tail).1
  exact hblob rfl

/-! ## Errors of the steps -/

theorem exists_of_layout_error {ts : List Text} {e : ParseError} (h : layout ts = .error e) :
    ∃ flaw, e = .structural ts flaw := by
  unfold layout at h
  split at h
  · split_ifs at h
    all_goals exact ⟨_, (Except.error.inj h).symm⟩
  · exact ⟨_, (Except.error.inj h).symm⟩

/-- The segments of a text are missing only if braces, brackets or strings of it are open, and
what is said is about the whole text. -/
theorem exists_of_split_error {blob : Text} {e : ParseError}
    (h : splitArguments mode blob = .error e) :
    ∃ braces brackets : Int,
      e = .unbalanced {
        text := blob
        braces := braces
        brackets := brackets
        unterminated := (Tracker.start.advance mode blob).inside } ∧
      (braces ≠ 0 ∨ brackets ≠ 0 ∨ (Tracker.start.advance mode blob).inside = true) := by
  have hstrings := Splitter.strings_run mode Splitter.start blob
  rw [splitArguments, Splitter.finish, hstrings] at h
  split_ifs at h with hopen
  exact ⟨_, _, (Except.error.inj h).symm, hopen⟩

theorem exists_of_decodeArguments_error {segments : List Text} {e : ParseError}
    (h : decodeArguments segments = .error e) :
    ∃ s ∈ segments, ∃ fault, e = .argument (Text.trim s) fault := by
  induction segments with
  | nil => cases h
  | cons s segments ih =>
    rw [decodeArguments] at h
    cases hs : decodeArgument s with
    | error d =>
      rw [hs] at h
      obtain rfl := Except.error.inj h
      rw [decodeArgument] at hs
      cases hd : Json.decode (Text.trim s) with
      | error fault =>
        rw [hd] at hs
        exact ⟨s, List.mem_cons_self, fault, (Except.error.inj hs).symm⟩
      | ok v =>
        rw [hd] at hs
        cases hs
    | ok v =>
      rw [hs] at h
      obtain ⟨s', hs', fault, he⟩ := ih (map_eq_error.1 h)
      exact ⟨s', List.mem_cons_of_mem s hs', fault, he⟩

theorem validate_ne_unbalanced {x y : Text} {vs : List Json} {i : Imbalance} :
    validate x y vs ≠ .error (.unbalanced i) := by
  intro h
  obtain ⟨s, hs⟩ := exists_violation_of_validate h
  cases hs

/-- Of the steps behind the tokens only the cut into segments finds an imbalance. -/
theorem exists_of_callOfTokens_unbalanced {ts : List Text} {i : Imbalance}
    (h : callOfTokens mode ts = .error (.unbalanced i)) :
    ∃ l, layout ts = .ok l ∧ splitArguments mode l.blob = .error (.unbalanced i) := by
  simp only [callOfTokens, bind_eq_error] at h
  rcases h with h | ⟨l, hl, h | ⟨segments, -, h | ⟨vs, -, h | ⟨m, -, h⟩⟩⟩⟩
  · obtain ⟨flaw, he⟩ := exists_of_layout_error h
    cases he
  · exact ⟨l, hl, h⟩
  · obtain ⟨s, -, fault, he⟩ := exists_of_decodeArguments_error h
    cases he
  · exact absurd h validate_ne_unbalanced
  · cases h

/-! ## The two kinds of imbalance -/

/-- A parenthesis of the text, outside its strings, is never closed : the imbalance is about the
text from there on. -/
structure UnclosedParen (mode : EscapeMode) (t : Text) (i : Imbalance) : Prop where
  parens : 1 ≤ i.parens
  braces : i.braces = 0
  brackets : i.brackets = 0
  /-- The text from the parenthesis on. -/
  text : ∃ front rest, t = front ++ i.text ∧ i.text = '(' :: rest ∧
    (mask mode t)[front.length]? = some false
  /-- Whether the whole text ends inside a string. -/
  unterminated : i.unterminated = endsInside mode t

/-- Braces or brackets of the arguments do not match : the imbalance is about the arguments, which
end outside strings. -/
structure UnevenArguments (mode : EscapeMode) (t : Text) (i : Imbalance) : Prop where
  parens : i.parens = 0
  unterminated : i.unterminated = false
  depths : ¬(i.braces = 0 ∧ i.brackets = 0)
  /-- The arguments. -/
  text : ∃ ts l, tokenize mode t = .ok ts ∧ layout ts = .ok l ∧ i.text = l.blob

theorem unclosed_of_tokenize {t : Text} {i : Imbalance}
    (h : tokenize mode t = .error (.unbalanced i)) : UnclosedParen mode t i := by
  obtain ⟨front, rest, -, k, rfl, -, hout, hopen, he⟩ := exists_of_tokenize_error h
  obtain rfl := ParseError.unbalanced.inj he
  have hk := stillOpen_pos (Nat.le_refl 1) hopen
  refine ⟨by dsimp only; omega, rfl, rfl, ⟨front, rest, rfl, rfl, ?_⟩, ?_⟩
  · rw [getElem?_mask_length, hout]
  · rw [Quotation.endsInside_eq, advance_cut hout rfl (by decide)]

theorem uneven_of_split {t : Text} {ts : List Text} {l : Layout} {i : Imbalance}
    (ht : tokenize mode t = .ok ts) (hl : layout ts = .ok l)
    (h : splitArguments mode l.blob = .error (.unbalanced i)) : UnevenArguments mode t i := by
  have hout := (enclosed_of_layout ht hl).outside
  obtain ⟨braces, brackets, he, hopen⟩ := exists_of_split_error h
  obtain rfl := ParseError.unbalanced.inj he
  rw [hout] at hopen
  refine ⟨rfl, hout, fun ⟨hb, hk⟩ => ?_, ts, l, ht, hl, rfl⟩
  rcases hopen with h | h | h
  · exact h hb
  · exact h hk
  · cases h

/-- An imbalance of a text that is no call is of one of the two kinds. -/
theorem imbalance_of_parse {raw : Text} {i : Imbalance}
    (h : parse mode raw = .error (.unbalanced i)) :
    UnclosedParen mode (clean raw) i ∨ UnevenArguments mode (clean raw) i := by
  rw [parse_eq, bind_eq_error] at h
  rcases h with h | ⟨ts, ht, h⟩
  · exact .inl (unclosed_of_tokenize h)
  · obtain ⟨l, hl, hs⟩ := exists_of_callOfTokens_unbalanced h
    exact .inr (uneven_of_split ht hl hs)

/-- No imbalance is of both. -/
theorem UnclosedParen.not_uneven {t : Text} {i : Imbalance} (h : UnclosedParen mode t i) :
    ¬UnevenArguments mode t i := by
  intro hu
  have h1 := h.parens
  rw [hu.parens] at h1
  omega

/-- Strings are the same for the cut into tokens and the cut into segments, at every place between
parentheses that match. So a text that is no call for an imbalance either has a parenthesis that
is never closed, or arguments that end outside strings and whose braces or brackets do not match,
and never both. -/
theorem strings_agree_between_parens (mode : EscapeMode) :
    (∀ t k c, t[k]? = some '(' → (mask mode t)[k]? = some false →
      matchingParen t (mask mode t) k = .ok c → ∀ i ≤ c - k - 1,
        (mask mode t)[k + 1 + i]? = (mask mode (between t k c))[i]? ∧
          (mask mode (between t k c))[i]? =
            some (Splitter.start.run mode ((between t k c).take i)).strings.inside) ∧
      ∀ raw i, parse mode raw = .error (.unbalanced i) →
        (UnclosedParen mode (clean raw) i ∨ UnevenArguments mode (clean raw) i) ∧
          ¬(UnclosedParen mode (clean raw) i ∧ UnevenArguments mode (clean raw) i) :=
  ⟨fun _ _ _ hk hout hc _ hi => mask_between hk hout hc hi,
    fun _ _ h => ⟨imbalance_of_parse h, fun ⟨hu, hv⟩ => hu.not_uneven hv⟩⟩

theorem strings_agree_between_parens_find :
    ((mask .single "f('\\)',[)".toList)[4]? = (mask .single "'\\)',[".toList)[2]? ∧
        (mask .single "'\\)',[".toList)[2]? =
          some (Splitter.start.run .single "'\\".toList).strings.inside) ∧
      UnclosedParen .parity (clean " us.find((\"x ".toList) ⟨"((\"x".toList, 0, 0, 2, true⟩ ∧
      UnevenArguments .single (clean "'us.find([)'".toList) ⟨['['], 0, 1, 0, false⟩ := by
  refine ⟨?_, ?_, ?_⟩
  · exact (strings_agree_between_parens .single).1 "f('\\)',[)".toList 1 8 (by cbv) (by cbv)
      (by cbv) 2 (by decide)
  · have h := ((strings_agree_between_parens .parity).2 " us.find((\"x ".toList _ (by cbv)).1
    exact h.resolve_right fun hv => absurd hv.parens (by decide)
  · have h := ((strings_agree_between_parens .single).2 "'us.find([)'".toList _ (by cbv)).1
    exact h.resolve_left fun hu => absurd hu.parens (by decide)

end CollectionShell.Operation
