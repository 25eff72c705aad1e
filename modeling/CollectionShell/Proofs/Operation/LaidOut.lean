import CollectionShell.Proofs.Operation.Imbalance
import CollectionShell.Proofs.Operation.Spelling

/-!
# Texts that are laid out as a call

The layout of a call is looked for among tokens, which are plain texts : what stands in the place of
a name may be a fragment or a lone point (`NameSlot`), and the first three tokens may even be a
point between parentheses (`Front`). The last three are what they seem. Neither a fragment nor what
parentheses enclose is an opening parenthesis, so the one in the fourth place is one of the text,
and what stands behind it is enclosed.

The tokens are read off the text from the front, each from what the one before it left
(`exists_of_tokenized_paren`, `exists_slot`), and put together from the back
(`NameSlot.tokenized_point`, `NameSlot.tokenized_group`). `layout_iff_laidOut` : the texts whose
tokens are laid out as a call are the ones that are `LaidOut`.
-/

namespace CollectionShell.Operation

open Quotation (Tracker mask)
open Text (Blank)

variable {mode : EscapeMode} {t r x y b p s f : Text} {ts us : List Text} {l : Layout}

/-- What may stand in the place of a name. -/
inductive NameSlot (mode : EscapeMode) : Text → Prop
  /-- A visible text without a cut, from outside strings to outside strings. -/
  | fragment {x : Text} : x ≠ [] → Text.trim x = x → Solid mode x →
      (Tracker.start.advance mode x).inside = false → NameSlot mode x
  /-- A lone point. -/
  | point : NameSlot mode ['.']

/-- What may stand in front of the arguments, and what it has in the places of the names. -/
inductive Front (mode : EscapeMode) : Text → Text → Text → Prop
  /-- Two names and a point between them. -/
  | names {b₀ x b₁ b₂ y b₃ : Text} : Blank b₀ → Blank b₁ → Blank b₂ → Blank b₃ →
      NameSlot mode x → NameSlot mode y →
      Front mode (b₀ ++ x ++ b₁ ++ '.' :: (b₂ ++ y ++ b₃)) x y
  /-- Parentheses in place of names, with nothing but a point between them. -/
  | parens {b₀ b₁ : Text} : Blank b₀ → Blank b₁ →
      Front mode (b₀ ++ ['(', '.', ')'] ++ b₁) ['('] [')']

/-- The text is laid out as a call : a front, then the arguments between parentheses that match,
then blanks. -/
def LaidOut (mode : EscapeMode) (t : Text) (l : Layout) : Prop :=
  ∃ front behind : Text, t = front ++ '(' :: (l.blob ++ ')' :: behind) ∧
    Front mode front l.collection l.method ∧ Blank behind ∧
    (mask mode t)[front.length]? = some false ∧
    matchingParen t (mask mode t) front.length = .ok (front.length + 1 + l.blob.length)

/-! ## From the tokens to the text -/

/-- The first token is that of the fragment in front, unless the fragment is blank. -/
theorem cons_eq_fragment_append (h : x :: ts = fragment f ++ us) :
    Blank f ∧ us = x :: ts ∨ Text.trim f = x ∧ x ≠ [] ∧ us = ts := by
  rw [fragment] at h
  split_ifs at h with hf
  · exact .inl ⟨Text.trim_eq_nil.1 hf, h.symm⟩
  · obtain ⟨rfl, rfl⟩ := List.cons.inj h
    exact .inr ⟨rfl, hf, rfl⟩

/-- If the first token is a cut, only blanks stand in front of it. -/
theorem cut_eq_fragment_append {c : Char} (hc : c = '.' ∨ c = '(') (hf : Solid mode f)
    (h : [c] :: ts = fragment f ++ us) : Blank f ∧ us = [c] :: ts := by
  rcases cons_eq_fragment_append h with h | ⟨htrim, -, -⟩
  · exact h
  · have hmem : [c] ∈ fragment f := by
      rw [fragment, htrim, if_neg (List.cons_ne_nil _ _)]
      exact List.mem_cons_self
    exact absurd rfl (ne_cut_of_mem_fragment hc hf hmem)

theorem exists_of_tokenized_point (h : Tokenized mode t (['.'] :: ts)) :
    ∃ p r, t = p ++ '.' :: r ∧ Blank p ∧ Tokenized mode r ts := by
  generalize hts : ['.'] :: ts = us at h
  cases h with
  | solid hf =>
    rw [← List.append_nil (fragment t)] at hts
    exact absurd (cut_eq_fragment_append (.inl rfl) hf hts).2 nofun
  | @point f r _ hf _ hr =>
    obtain ⟨hblank, heq⟩ := cut_eq_fragment_append (.inl rfl) hf hts
    obtain ⟨-, rfl⟩ := List.cons.inj heq
    exact ⟨f, r, rfl, hblank, hr⟩
  | group hf _ _ _ =>
    obtain ⟨-, heq⟩ := cut_eq_fragment_append (.inl rfl) hf hts
    exact absurd (List.cons.inj heq).1 (by decide)

theorem exists_of_tokenized_paren {c : Text} (h : Tokenized mode t (['('] :: b :: c :: ts)) :
    ∃ p r, t = p ++ '(' :: (b ++ ')' :: r) ∧ c = [')'] ∧ Blank p ∧ Enclosed mode b ∧
      Tokenized mode r ts := by
  generalize hts : ['('] :: b :: c :: ts = us at h
  cases h with
  | solid hf =>
    rw [← List.append_nil (fragment t)] at hts
    exact absurd (cut_eq_fragment_append (.inr rfl) hf hts).2 nofun
  | point hf _ _ =>
    obtain ⟨-, heq⟩ := cut_eq_fragment_append (.inr rfl) hf hts
    exact absurd (List.cons.inj heq).1 (by decide)
  | @group f b' r us hf _ hb hr =>
    obtain ⟨hblank, heq⟩ := cut_eq_fragment_append (.inr rfl) hf hts
    obtain ⟨rfl, rfl, rfl⟩ : b' = b ∧ [')'] = c ∧ us = ts := by simpa using heq
    exact ⟨f, r, by simp, rfl, hblank, hb, hr⟩

/-- The rest of a text behind its first fragment is cut as if it stood alone. -/
theorem exists_of_tokenized_fragment (h : Tokenized mode t (x :: ts)) (hx : x ≠ ['.'] ∧ x ≠ ['('])
    (hts : ts ≠ []) :
    ∃ f r, t = f ++ r ∧ Text.trim f = x ∧ x ≠ [] ∧ Solid mode f ∧
      (Tracker.start.advance mode f).inside = false ∧ Tokenized mode r ts := by
  have hnil : Solid mode [] := fun _ hm => absurd hm List.not_mem_nil
  have hempty : fragment [] = [] := fragment_blank Text.blank_nil
  generalize hus : x :: ts = us at h
  cases h with
  | solid hf =>
    rw [← List.append_nil (fragment t)] at hus
    rcases cons_eq_fragment_append hus with ⟨-, heq⟩ | ⟨-, -, rfl⟩
    · cases heq
    · exact absurd rfl hts
  | @point f r _ hf ho hr =>
    rcases cons_eq_fragment_append hus with ⟨-, heq⟩ | ⟨htrim, hne, rfl⟩
    · exact absurd (List.cons.inj heq).1.symm hx.1
    · have hrest := Tokenized.point hnil rfl hr
      rw [hempty] at hrest
      exact ⟨f, '.' :: r, rfl, htrim, hne, hf, ho, hrest⟩
  | @group f b r _ hf ho hb hr =>
    rcases cons_eq_fragment_append hus with ⟨-, heq⟩ | ⟨htrim, hne, rfl⟩
    · exact absurd (List.cons.inj heq).1.symm hx.2
    · have hrest := Tokenized.group hnil rfl hb hr
      rw [hempty] at hrest
      exact ⟨f, '(' :: b ++ ')' :: r, by simp, htrim, hne, hf, ho, hrest⟩

/-- A first token that is no parenthesis may stand in the place of a name if there are others. -/
theorem exists_slot (h : Tokenized mode t (x :: ts)) (hx : x ≠ ['(']) (hts : ts ≠ []) :
    ∃ p s r, t = p ++ x ++ s ++ r ∧ Blank p ∧ Blank s ∧ NameSlot mode x ∧
      Tokenized mode r ts := by
  by_cases hpoint : x = ['.']
  · subst hpoint
    obtain ⟨p, r, rfl, hp, hr⟩ := exists_of_tokenized_point h
    exact ⟨p, [], r, by simp, hp, Text.blank_nil, .point, hr⟩
  · obtain ⟨f, r, rfl, rfl, hne, hf, ho, hr⟩ := exists_of_tokenized_fragment h ⟨hpoint, hx⟩ hts
    obtain ⟨p, s, hp, hs, heq⟩ := Text.exists_blank_append_trim f
    refine ⟨p, s, r, congrArg (· ++ r) heq, hp, hs, ?_, hr⟩
    exact .fragment hne (Text.trim_trim f) (solid_trim hf) (by rwa [inside_advance_trim])

/-- The tokens of a call come from a front, from parentheses and from blanks. -/
theorem exists_front (h : Tokenized mode t [x, ['.'], y, ['('], b, [')']]) :
    ∃ front behind, t = front ++ '(' :: (b ++ ')' :: behind) ∧ Front mode front x y ∧
      Enclosed mode b ∧ Blank behind := by
  by_cases hx : x = ['(']
  · -- the point is what the first parenthesis encloses
    subst hx
    obtain ⟨b₀, r, rfl, rfl, h₀, -, h⟩ := exists_of_tokenized_paren h
    obtain ⟨b₁, r, rfl, -, h₁, hb, h⟩ := exists_of_tokenized_paren h
    exact ⟨_, r, by simp, .parens h₀ h₁, hb, tokenized_nil h⟩
  · obtain ⟨b₀, b₁, r, rfl, h₀, h₁, hx, h⟩ := exists_slot h hx nofun
    obtain ⟨p, r, rfl, hp, h⟩ := exists_of_tokenized_point h
    have hy : y ≠ ['('] := by
      rintro rfl
      obtain ⟨-, -, -, -, -, hparen, -⟩ := exists_of_tokenized_paren h
      exact hparen.ne_paren rfl
    obtain ⟨b₂, b₃, r, rfl, h₂, h₃, hy, h⟩ := exists_slot h hy nofun
    obtain ⟨q, r, rfl, -, hq, hb, h⟩ := exists_of_tokenized_paren h
    refine ⟨_, r, ?_, .names h₀ (Text.blank_append.2 ⟨h₁, hp⟩) h₂
      (Text.blank_append.2 ⟨h₃, hq⟩) hx hy, hb, tokenized_nil h⟩
    simp

/-! ## From the text to the tokens -/

/-- Blanks behind a text are no cuts. -/
theorem solid_append_blank (hf : Solid mode f) (hs : Blank s) : Solid mode (f ++ s) := by
  intro m hm
  rw [Tracker.marks_append, List.mem_append] at hm
  rcases hm with hm | hm
  · exact hf m hm
  · have hchar : m.char ∈ s := by
      rw [← Tracker.map_char_marks mode (Tracker.start.advance mode f) s]
      exact List.mem_map_of_mem hm
    have hblank := hs m.char hchar
    exact .inr ⟨ne_of_blank hblank (by decide), ne_of_blank hblank (by decide)⟩

theorem outside_of_blank (hp : Blank p) : (Tracker.start.advance mode p).inside = false := by
  rw [inside_advance_blank _ hp]
  rfl

section

variable (hp : Blank p) (hs : Blank s)

include hp hs

theorem solid_padded (hx : Solid mode x) : Solid mode (p ++ x ++ s) :=
  solid_append_blank (solid_blank_append hp hx) hs

theorem fragment_padded (hne : x ≠ []) (htrim : Text.trim x = x) :
    fragment (p ++ x ++ s) = [x] := by
  rw [fragment, Text.trim_append_blank hp hs, htrim, if_neg hne]

/-- A slot with blanks around it ends outside strings. -/
theorem NameSlot.outside (hx : NameSlot mode x) :
    (Tracker.start.advance mode (p ++ x ++ s)).inside = false := by
  rw [Tracker.advance_append, inside_advance_blank _ hs, advance_blank_append hp]
  cases hx with
  | fragment _ _ _ ho => exact ho
  | point => cases mode <;> rfl

/-- A slot and a point behind it are two tokens. -/
theorem NameSlot.tokenized_point (hx : NameSlot mode x) (hr : Tokenized mode r ts) :
    Tokenized mode (p ++ x ++ s ++ '.' :: r) (x :: ['.'] :: ts) := by
  have ho := hx.outside hp hs
  cases hx with
  | fragment hne htrim hx _ =>
    have h := Tokenized.point (solid_padded hp hs hx) ho hr
    rwa [fragment_padded hp hs hne htrim] at h
  | point =>
    have h := Tokenized.point (solid_blank hp) (outside_of_blank hp)
      (Tokenized.point (solid_blank hs) (outside_of_blank hs) hr)
    rw [fragment_blank hp, fragment_blank hs] at h
    simpa using h

/-- A slot and parentheses behind it are four tokens. -/
theorem NameSlot.tokenized_group (hx : NameSlot mode x) (hb : Enclosed mode b)
    (hr : Tokenized mode r ts) :
    Tokenized mode (p ++ x ++ s ++ '(' :: b ++ ')' :: r) (x :: ['('] :: b :: [')'] :: ts) := by
  have ho := hx.outside hp hs
  cases hx with
  | fragment hne htrim hx _ =>
    have h := Tokenized.group (solid_padded hp hs hx) ho hb hr
    rwa [fragment_padded hp hs hne htrim] at h
  | point =>
    have h := Tokenized.point (solid_blank hp) (outside_of_blank hp)
      (Tokenized.group (solid_blank hs) (outside_of_blank hs) hb hr)
    rw [fragment_blank hp, fragment_blank hs] at h
    simpa using h

end

/-- A front ends outside strings. -/
theorem Front.outside {front : Text} (h : Front mode front x y) :
    (Tracker.start.advance mode front).inside = false := by
  cases h with
  | names h₀ h₁ h₂ h₃ hx hy =>
    rw [advance_cut (hx.outside h₀ h₁) rfl (by decide)]
    exact hy.outside h₂ h₃
  | parens h₀ h₁ =>
    rw [Tracker.advance_append, inside_advance_blank _ h₁, advance_blank_append h₀]
    cases mode <;> rfl

/-- A front and the arguments behind it are the tokens of a call. -/
theorem Front.tokenized {front : Text} (h : Front mode front x y) (hb : Enclosed mode b)
    (hr : Blank r) :
    Tokenized mode (front ++ '(' :: (b ++ ')' :: r)) [x, ['.'], y, ['('], b, [')']] := by
  have hend : Tokenized mode r [] := tokenized_blank hr
  cases h with
  | names h₀ h₁ h₂ h₃ hx hy =>
    have := NameSlot.tokenized_point h₀ h₁ hx (NameSlot.tokenized_group h₂ h₃ hy hb hend)
    simpa using this
  | parens h₀ h₁ =>
    have hpoint : Enclosed mode ['.'] := ⟨by cases mode <;> rfl, by cases mode <;> rfl⟩
    have := Tokenized.group (solid_blank h₀) (outside_of_blank h₀) hpoint
      (Tokenized.group (solid_blank h₁) (outside_of_blank h₁) hb hend)
    rw [fragment_blank h₀, fragment_blank h₁] at this
    simpa using this

/-! ## Layouts -/

theorem laidOut_iff :
    LaidOut mode t l ↔ Tokenized mode t
      [l.collection, ['.'], l.method, ['('], l.blob, [')']] := by
  constructor
  · rintro ⟨front, behind, rfl, hfront, hbehind, -, hmatch⟩
    obtain ⟨b, r, heq, hlen, hb⟩ := (matchingParen_eq_ok hfront.outside).1 hmatch
    obtain ⟨rfl, -⟩ := List.append_inj heq (by omega)
    exact hfront.tokenized hb hbehind
  · intro h
    obtain ⟨front, behind, rfl, hfront, hb, hbehind⟩ := exists_front h
    refine ⟨front, behind, rfl, hfront, hbehind, ?_, ?_⟩
    · rw [getElem?_mask_length, hfront.outside]
    · exact (matchingParen_eq_ok hfront.outside).2 ⟨l.blob, behind, rfl, rfl, hb⟩

/-- The tokens of a text are laid out as a call exactly if the text is, and then they are the names,
the point, the parentheses and the arguments. The token in the fifth place is what stands between
two parentheses of the text that match, with nothing but blanks behind them. -/
theorem layout_iff_laidOut (mode : EscapeMode) (t : Text) (ts : List Text) (l : Layout) :
    (tokenize mode t = .ok ts ∧ layout ts = .ok l ↔
      LaidOut mode t l ∧ ts = [l.collection, ['.'], l.method, ['('], l.blob, [')']]) ∧
    (tokenize mode t = .ok ts → layout ts = .ok l →
      ∃ k c, t[k]? = some '(' ∧ (mask mode t)[k]? = some false ∧
        matchingParen t (mask mode t) k = .ok c ∧ ts[4]? = some (between t k c) ∧
        Blank (t.drop (c + 1))) := by
  have hiff : tokenize mode t = .ok ts ∧ layout ts = .ok l ↔
      LaidOut mode t l ∧ ts = [l.collection, ['.'], l.method, ['('], l.blob, [')']] := by
    rw [laidOut_iff, tokenize_eq_ok, layout_eq_ok]
    constructor
    · rintro ⟨h, rfl⟩
      exact ⟨h, rfl⟩
    · rintro ⟨h, rfl⟩
      exact ⟨h, rfl⟩
  refine ⟨hiff, fun ht hl => ?_⟩
  obtain ⟨⟨front, behind, rfl, -, hbehind, hout, hmatch⟩, rfl⟩ := hiff.1 ⟨ht, hl⟩
  refine ⟨front.length, _, by simp, hout, hmatch, ?_, ?_⟩
  · rw [between_append]
    rfl
  · have hdrop : (front ++ '(' :: (l.blob ++ ')' :: behind)).drop
        (front.length + 1 + l.blob.length + 1) = behind := by
      rw [Nat.add_assoc, Nat.add_assoc, List.drop_length_add_append, Nat.add_comm 1,
        List.drop_succ_cons, List.drop_length_add_append]
      rfl
    rw [hdrop]
    exact hbehind

theorem layout_iff_laidOut_quoted :
    (LaidOut .single " '.(' . . (\")(\") ".toList ⟨"'.('".toList, ['.'], "\")(\"".toList⟩ ∧
        ["'.('".toList, ['.'], ['.'], ['('], "\")(\"".toList, [')']] =
          ["'.('".toList, ['.'], ['.'], ['('], "\")(\"".toList, [')']]) ∧
      LaidOut .parity "(.) ()".toList ⟨['('], [')'], []⟩ ∧
      ∃ k c, "(.) ()".toList[k]? = some '(' ∧ (mask .parity "(.) ()".toList)[k]? = some false ∧
        matchingParen "(.) ()".toList (mask .parity "(.) ()".toList) k = .ok c ∧
        [['('], ['.'], [')'], ['('], [], [')']][4]? = some (between "(.) ()".toList k c) ∧
        Blank ("(.) ()".toList.drop (c + 1)) := by
  have hquoted := layout_iff_laidOut .single " '.(' . . (\")(\") ".toList
    ["'.('".toList, ['.'], ['.'], ['('], "\")(\"".toList, [')']]
    ⟨"'.('".toList, ['.'], "\")(\"".toList⟩
  have hparens := layout_iff_laidOut .parity "(.) ()".toList
    [['('], ['.'], [')'], ['('], [], [')']] ⟨['('], [')'], []⟩
  exact ⟨hquoted.1.1 ⟨by cbv, by cbv⟩, (hparens.1.1 ⟨by cbv, by cbv⟩).1,
    hparens.2 (by cbv) (by cbv)⟩

end CollectionShell.Operation
