import CollectionShell.Operation.Parse
import CollectionShell.Proofs.Operation.Tokenized
import CollectionShell.Proofs.Operation.Validity
import CollectionShell.Proofs.Outcome
import Mathlib

/-!
# The texts that are calls

`CallText` says without tokens what the text of a call looks like : a name, a point, a name and
parentheses that match, with blanks between and around them, and between the parentheses
segments that are JSON and make a valid call. `parse_eq_ok_iff` : these are the texts that
`parse` accepts, and a name of an accepted call has no point in it.
-/

namespace CollectionShell.Operation

open Quotation (Tracker)
open Text (Blank)

/-! ## Names -/

/-- A letter or an underscore, then letters, digits, underscores and hyphens, of ASCII. -/
def isName : Text → Bool
  | [] => false
  | c :: rest => startsIdentifier c && rest.all fun d => d.isAlphanum || d == '_' || d == '-'

/-- A name is an identifier without a point. -/
theorem isName_iff {t : Text} : isName t = true ↔ isIdentifier t = true ∧ '.' ∉ t := by
  cases t with
  | nil => simp [isName, isIdentifier]
  | cons c t =>
    have hall : (t.all fun d => d.isAlphanum || d == '_' || d == '-') = true ↔
        t.all continuesIdentifier = true ∧ '.' ∉ t := by
      simp only [List.all_eq_true]
      constructor
      · intro h
        refine ⟨fun d hd => ?_, fun hp => absurd (h '.' hp) (by decide)⟩
        have := h d hd
        simp only [Bool.or_eq_true] at this
        simp only [continuesIdentifier, Bool.or_eq_true]
        tauto
      · rintro ⟨h, hp⟩ d hd
        have hne : (d == '.') = false := beq_false_of_ne fun he => hp (he ▸ hd)
        have := h d hd
        rwa [continuesIdentifier, hne, Bool.or_false] at this
    have hc : startsIdentifier c = true → c ≠ '.' := by
      rintro h rfl
      exact absurd h (by decide)
    rw [isName, isIdentifier, Bool.and_eq_true, Bool.and_eq_true, hall, List.mem_cons, not_or]
    constructor
    · rintro ⟨h, ht, hp⟩
      exact ⟨⟨h, ht⟩, (hc h).symm, hp⟩
    · rintro ⟨⟨h, ht⟩, -, hp⟩
      exact ⟨h, ht, hp⟩

theorem continues_of_starts {c : Char} (h : startsIdentifier c = true) :
    continuesIdentifier c = true := by
  simp only [startsIdentifier, Bool.or_eq_true] at h
  simp only [continuesIdentifier, Char.isAlphanum, Bool.or_eq_true]
  tauto

theorem continues_of_mem {t : Text} (h : isIdentifier t = true) :
    ∀ c ∈ t, continuesIdentifier c = true := by
  cases t with
  | nil => simp
  | cons c t =>
    rw [isIdentifier, Bool.and_eq_true, List.all_eq_true] at h
    exact List.forall_mem_cons.2 ⟨continues_of_starts h.1, h.2⟩

theorem ordinary_identifier {t : Text} (h : isIdentifier t = true) : Ordinary t :=
  ordinary_of_forall (by decide) (continues_of_mem h)

theorem not_blank_of_continues {c : Char} (h : continuesIdentifier c = true) :
    Text.isBlank c = false := by
  simp only [continuesIdentifier, Bool.or_eq_true, beq_iff_eq] at h
  rcases h with ((h | rfl) | rfl) | rfl
  · exact Text.isBlank_of_isAlphanum h
  all_goals decide

/-- An identifier has no blanks to trim. -/
theorem trim_identifier {t : Text} (h : isIdentifier t = true) : Text.trim t = t :=
  Text.trim_eq_self
    (fun c hc => not_blank_of_continues (continues_of_mem h c (List.mem_of_head? hc)))
    fun c hc => not_blank_of_continues (continues_of_mem h c (List.mem_of_getLast? hc))

variable {mode : EscapeMode}

/-- Blanks around an identifier leave an ordinary text. -/
theorem ordinary_of_trim {f : Text} (h : isIdentifier (Text.trim f) = true) : Ordinary f := by
  obtain ⟨p, s, hp, hs, hf⟩ := Text.exists_blank_append_trim f
  rw [hf, ordinary_append, ordinary_append]
  exact ⟨⟨ordinary_of_blank hp, ordinary_identifier h⟩, ordinary_of_blank hs⟩

/-- An ordinary text has no cut exactly if it has no point. -/
theorem solid_ordinary_iff {t : Text} (h : Ordinary t) : Solid mode t ↔ '.' ∉ t := by
  rw [Solid, marks_ordinary h]
  constructor
  · intro hs hp
    simpa using hs ⟨'.', false⟩ (List.mem_map.2 ⟨'.', hp, rfl⟩)
  · rintro hp m hm
    obtain ⟨c, hc, rfl⟩ := List.mem_map.1 hm
    exact .inr ⟨fun he => hp (he ▸ hc), ne_of_not_special (h c hc) rfl⟩

theorem solid_blank {t : Text} (h : Blank t) : Solid mode t :=
  (solid_ordinary_iff (ordinary_of_blank h)).2 fun hp => absurd (h '.' hp) (by decide)

/-! ## Tokens of a call -/

theorem tokenized_nil {t : Text} (h : Tokenized mode t []) : Blank t := by
  generalize hts : ([] : List Text) = ts at h
  cases h with
  | solid hf =>
    rw [fragment] at hts
    split_ifs at hts with h
    exact Text.trim_eq_nil.1 h
  | point => simp at hts
  | group => simp at hts

/-- Where the first token of a text ends, if it is a fragment. -/
inductive FirstFragment (mode : EscapeMode) (f : Text) : Text → List Text → Prop
  | solid : FirstFragment mode f f []
  | point {r : Text} {ts : List Text} : Tokenized mode r ts →
      FirstFragment mode f (f ++ '.' :: r) (['.'] :: ts)
  | group {b r : Text} {ts : List Text} : Enclosed mode b → Tokenized mode r ts →
      FirstFragment mode f (f ++ '(' :: b ++ ')' :: r) (['('] :: b :: [')'] :: ts)

theorem fragment_append {f x : Text} {xs ts : List Text} (hx : x ≠ ['.'] ∧ x ≠ ['('])
    {k : Text} (hk : k = ['.'] ∨ k = ['(']) (h : x :: ts = fragment f ++ k :: xs) :
    Text.trim f = x ∧ ts = k :: xs := by
  rw [fragment] at h
  split_ifs at h with hf
  · obtain ⟨rfl, -⟩ := List.cons.inj h
    exact absurd hk (by tauto)
  · obtain ⟨rfl, rfl⟩ := List.cons.inj h
    exact ⟨rfl, rfl⟩

/-- A first token that is neither a point nor a parenthesis is a trimmed fragment. -/
theorem tokenized_cons {t x : Text} {ts : List Text} (h : Tokenized mode t (x :: ts))
    (hx : x ≠ ['.'] ∧ x ≠ ['(']) :
    ∃ f, Text.trim f = x ∧ Solid mode f ∧ FirstFragment mode f t ts := by
  generalize hts : x :: ts = l at h
  cases h with
  | @solid f hf =>
    rw [fragment] at hts
    split_ifs at hts
    obtain ⟨rfl, rfl⟩ := List.cons.inj hts
    exact ⟨t, rfl, hf, .solid⟩
  | @point f r ts' hf ho hr =>
    obtain ⟨h1, rfl⟩ := fragment_append hx (.inl rfl) hts
    exact ⟨f, h1, hf, .point hr⟩
  | @group f b r ts' hf ho hb hr =>
    obtain ⟨h1, rfl⟩ := fragment_append hx (.inr rfl) hts
    exact ⟨f, h1, hf, .group hb hr⟩

theorem identifier_ne {t : Text} (h : isIdentifier t = true) : t ≠ ['.'] ∧ t ≠ ['('] := by
  constructor
  · rintro rfl
    exact absurd h (by decide)
  · rintro rfl
    exact absurd h (by decide)

/-- The tokens of a call come from a text that looks like one. -/
theorem exists_of_tokenized {t x y b : Text} (hx : isIdentifier x = true)
    (hy : isIdentifier y = true)
    (h : Tokenized mode t [x, ['.'], y, ['('], b, [')']]) :
    ∃ f g r, t = f ++ '.' :: g ++ '(' :: b ++ ')' :: r ∧ Text.trim f = x ∧ Text.trim g = y ∧
      Solid mode f ∧ Solid mode g ∧ Enclosed mode b ∧ Blank r := by
  obtain ⟨f, rfl, hf, hcut⟩ := tokenized_cons h (identifier_ne hx)
  cases hcut with
  | @point s _ hs =>
    obtain ⟨g, rfl, hg, hcut'⟩ := tokenized_cons hs (identifier_ne hy)
    cases hcut' with
    | @group _ r _ hb hr =>
      exact ⟨f, g, r, by simp, rfl, rfl, hf, hg, hb, tokenized_nil hr⟩

theorem fragment_identifier {f : Text} (h : isIdentifier (Text.trim f) = true) :
    fragment f = [Text.trim f] := by
  rw [fragment, if_neg]
  intro hf
  rw [hf] at h
  cases h

theorem fragment_blank {f : Text} (h : Blank f) : fragment f = [] := by
  rw [fragment, if_pos (Text.trim_eq_nil.2 h)]

theorem tokenized_blank {t : Text} (h : Blank t) : Tokenized mode t [] := by
  have := Tokenized.solid (solid_blank h : Solid mode t)
  rwa [fragment_blank h] at this

theorem tokenized_of_exists {f g b r : Text} (hx : isIdentifier (Text.trim f) = true)
    (hy : isIdentifier (Text.trim g) = true) (hf : Solid mode f) (hg : Solid mode g)
    (hb : Enclosed mode b) (hr : Blank r) :
    Tokenized mode (f ++ '.' :: g ++ '(' :: b ++ ')' :: r)
      [Text.trim f, ['.'], Text.trim g, ['('], b, [')']] := by
  have ho : ∀ {t : Text}, isIdentifier (Text.trim t) = true →
      (Tracker.start.advance mode t).inside = false := by
    intro t ht
    rw [advance_ordinary (ordinary_of_trim ht)]
    rfl
  have := Tokenized.point hf (ho hx) (Tokenized.group hg (ho hy) hb (tokenized_blank hr))
  rw [fragment_identifier hx, fragment_identifier hy] at this
  simpa using this

/-! ## Steps of a parse -/

theorem layout_eq_ok {ts : List Text} {l : Layout} :
    layout ts = .ok l ↔ ts = [l.collection, ['.'], l.method, ['('], l.blob, [')']] := by
  constructor
  · intro h
    unfold layout at h
    split at h
    · split_ifs at h with hp ho hc
      obtain rfl := Except.ok.inj h
      simp_all
    · cases h
  · rintro rfl
    simp [layout]

theorem callOfTokens_eq_ok {ts : List Text} {c : Call} :
    callOfTokens mode ts = .ok c ↔ ∃ blob,
      ts = [c.collection, ['.'], c.method, ['('], blob, [')']] ∧
      (∃ segments, splitArguments mode blob = .ok segments ∧
        decodeArguments segments = .ok c.arguments) ∧
      ∃ m, validate c.collection c.method c.arguments = .ok m := by
  simp only [callOfTokens, bind_eq_ok, layout_eq_ok]
  constructor
  · rintro ⟨l, rfl, segments, hs, vs, hv, m, hm, hc⟩
    obtain rfl := Except.ok.inj hc
    exact ⟨l.blob, rfl, ⟨segments, hs, hv⟩, m, hm⟩
  · rintro ⟨blob, rfl, ⟨segments, hs, hv⟩, m, hm⟩
    exact ⟨⟨c.collection, c.method, blob⟩, rfl, segments, hs, c.arguments, hv, m, hm, rfl⟩

theorem parse_eq (raw : Text) :
    parse mode raw = tokenize mode (clean raw) >>= callOfTokens mode := by
  rw [parse, parseRun]
  cases ht : tokenize mode (clean raw) with
  | error e => rfl
  | ok ts =>
    change _ = callOfTokens mode ts
    dsimp only
    cases callOfTokens mode ts <;> rfl

/-! ## Texts of calls -/

/-- The text is written as the call : a name, a point, a name, and parentheses that match, with
blanks `b₀` to `b₄` between and around them, and between the parentheses segments that decode
to the arguments. The call is valid. -/
def CallText (mode : EscapeMode) (t : Text) (c : Call) : Prop :=
  ∃ b₀ b₁ b₂ b₃ b₄ blob front : Text,
    (Blank b₀ ∧ Blank b₁ ∧ Blank b₂ ∧ Blank b₃ ∧ Blank b₄) ∧
    front = b₀ ++ c.collection ++ b₁ ++ '.' :: b₂ ++ c.method ++ b₃ ∧
    t = front ++ '(' :: blob ++ ')' :: b₄ ∧
    isName c.collection = true ∧ isName c.method = true ∧
    matchingParen t (Quotation.mask mode t) front.length = .ok (front.length + 1 + blob.length) ∧
    (∃ segments, splitArguments mode blob = .ok segments ∧
      decodeArguments segments = .ok c.arguments) ∧
    ∃ m, validate c.collection c.method c.arguments = .ok m

/-- The front of a call has no special characters. -/
theorem ordinary_front {f g : Text} (hf : Ordinary f) (hg : Ordinary g) :
    Ordinary (f ++ '.' :: g) :=
  ordinary_append.2 ⟨hf, ordinary_cons.2 ⟨rfl, hg⟩⟩

theorem ordinary_name {p t s : Text} (hp : Blank p) (hs : Blank s) (ht : isName t = true) :
    Ordinary (p ++ t ++ s) := by
  refine ordinary_append.2 ⟨ordinary_append.2 ⟨ordinary_of_blank hp, ?_⟩, ordinary_of_blank hs⟩
  exact ordinary_identifier (isName_iff.1 ht).1

/-- Behind an ordinary front, parentheses around an enclosed text match. -/
theorem matchingParen_front {front blob : Text} (rest : Text) (hf : Ordinary front) :
    matchingParen (front ++ '(' :: blob ++ ')' :: rest)
        (Quotation.mask mode (front ++ '(' :: blob ++ ')' :: rest)) front.length =
      .ok (front.length + 1 + blob.length) ↔ Enclosed mode blob := by
  have hout : (Tracker.start.advance mode front).inside = false := by
    rw [advance_ordinary hf]
    rfl
  rw [List.append_assoc, List.cons_append, matchingParen_eq_ok hout]
  constructor
  · rintro ⟨b, r, heq, hlen, hb⟩
    obtain ⟨rfl, -⟩ := List.append_inj heq (by omega)
    exact hb
  · intro hb
    exact ⟨blob, rest, rfl, rfl, hb⟩

theorem callText_of_parse {raw : Text} {c : Call} (h : parse mode raw = .ok c) :
    CallText mode (clean raw) c := by
  rw [parse_eq, bind_eq_ok] at h
  obtain ⟨ts, ht, h⟩ := h
  obtain ⟨blob, rfl, hargs, m, hm⟩ := callOfTokens_eq_ok.1 h
  obtain ⟨⟨hx, hy⟩, -⟩ := validate_eq_ok.1 hm
  obtain ⟨f, g, r, heq, hfx, hgy, hf, hg, hb, hr⟩ :=
    exists_of_tokenized hx hy (tokenize_eq_ok.1 ht)
  have hpf : Ordinary f := ordinary_of_trim (hfx ▸ hx)
  have hpg : Ordinary g := ordinary_of_trim (hgy ▸ hy)
  obtain ⟨b₀, b₁, h₀, h₁, hfeq⟩ := Text.exists_blank_append_trim f
  obtain ⟨b₂, b₃, h₂, h₃, hgeq⟩ := Text.exists_blank_append_trim g
  rw [hfx] at hfeq
  rw [hgy] at hgeq
  -- a trimmed text has a point only if the text has one
  have hname : ∀ {t u : Text}, Text.trim t = u → isIdentifier u = true → '.' ∉ t →
      isName u = true := by
    rintro t u rfl hu ht
    refine isName_iff.2 ⟨hu, fun hp => ht ?_⟩
    obtain ⟨p, s, -, -, hs⟩ := Text.exists_blank_append_trim t
    rw [hs]
    exact List.mem_append_left s (List.mem_append_right p hp)
  refine ⟨b₀, b₁, b₂, b₃, r, blob, f ++ '.' :: g, ⟨h₀, h₁, h₂, h₃, hr⟩, ?_, heq,
    hname hfx hx ((solid_ordinary_iff hpf).1 hf), hname hgy hy ((solid_ordinary_iff hpg).1 hg), ?_,
    hargs, m, hm⟩
  · rw [hfeq, hgeq]
    simp
  · rw [heq]
    exact (matchingParen_front r (ordinary_front hpf hpg)).2 hb

theorem parse_of_callText {raw : Text} {c : Call} (h : CallText mode (clean raw) c) :
    parse mode raw = .ok c := by
  obtain ⟨b₀, b₁, b₂, b₃, b₄, blob, front, ⟨h₀, h₁, h₂, h₃, h₄⟩, hfront, ht, hx, hy, hmatch,
    hargs, hm⟩ := h
  obtain ⟨hx, hxp⟩ := isName_iff.1 hx
  obtain ⟨hy, hyp⟩ := isName_iff.1 hy
  have htrim : ∀ {p u s : Text}, Blank p → Blank s → isIdentifier u = true →
      Text.trim (p ++ u ++ s) = u := by
    intro p u s hp hs hu
    rw [Text.trim_append_blank hp hs, trim_identifier hu]
  have hfx := htrim h₀ h₁ hx
  have hgy := htrim h₂ h₃ hy
  have hpf := ordinary_of_trim (hfx.symm ▸ hx)
  have hpg := ordinary_of_trim (hgy.symm ▸ hy)
  -- a point between blanks and identifiers would stand in an identifier
  have hpoint : ∀ {p u s : Text}, Blank p → Blank s → '.' ∉ u → '.' ∉ p ++ u ++ s := by
    intro p u s hp hs hu hmem
    rcases List.mem_append.1 hmem with hmem | hmem
    · rcases List.mem_append.1 hmem with hmem | hmem
      · exact absurd (hp '.' hmem) (by decide)
      · exact hu hmem
    · exact absurd (hs '.' hmem) (by decide)
  have hsplit : front = b₀ ++ c.collection ++ b₁ ++ '.' :: (b₂ ++ c.method ++ b₃) := by
    rw [hfront]
    simp
  have hb : Enclosed mode blob := by
    rw [ht] at hmatch
    exact (matchingParen_front b₄ (hsplit ▸ ordinary_front hpf hpg)).1 hmatch
  have hf : Solid mode (b₀ ++ c.collection ++ b₁) := (solid_ordinary_iff hpf).2 (hpoint h₀ h₁ hxp)
  have hg : Solid mode (b₂ ++ c.method ++ b₃) := (solid_ordinary_iff hpg).2 (hpoint h₂ h₃ hyp)
  have htok := tokenized_of_exists (hfx.symm ▸ hx) (hgy.symm ▸ hy) hf hg hb h₄
  rw [hfx, hgy, ← hsplit, ← ht] at htok
  rw [parse_eq, bind_eq_ok]
  exact ⟨_, tokenize_eq_ok.2 htok, callOfTokens_eq_ok.2 ⟨blob, rfl, hargs, hm⟩⟩

/-- A call that is read from a text is valid. -/
theorem validate_of_parse {raw : Text} {c : Call} (h : parse mode raw = .ok c) :
    ∃ m, validate c.collection c.method c.arguments = .ok m := by
  obtain ⟨-, -, -, -, -, -, -, -, -, -, -, -, -, -, hvalid⟩ := callText_of_parse h
  exact hvalid

/-- A text is accepted as a call exactly if it is written as one, and the names of an accepted
call have no point in them. -/
theorem parse_eq_ok_iff (mode : EscapeMode) (raw : Text) (c : Call) :
    (parse mode raw = .ok c ↔ CallText mode (clean raw) c) ∧
      (parse mode raw = .ok c → '.' ∉ c.collection ∧ '.' ∉ c.method) := by
  refine ⟨⟨callText_of_parse, parse_of_callText⟩, fun h => ?_⟩
  obtain ⟨b₀, b₁, b₂, b₃, b₄, blob, front, -, -, -, hx, hy, -⟩ := callText_of_parse h
  exact ⟨(isName_iff.1 hx).2, (isName_iff.1 hy).2⟩

theorem parse_eq_ok_iff_find :
    CallText .single (clean " us . find(\x7b\x7d , ) ".toList)
        ⟨['u', 's'], ['f', 'i', 'n', 'd'], [.object []]⟩ ∧
      '.' ∉ ['u', 's'] ∧ '.' ∉ ['f', 'i', 'n', 'd'] :=
  ⟨(parse_eq_ok_iff .single _ _).1.1 (by cbv),
    (parse_eq_ok_iff .single " us . find(\x7b\x7d , ) ".toList ⟨_, _, [.object []]⟩).2 (by cbv)⟩

end CollectionShell.Operation
