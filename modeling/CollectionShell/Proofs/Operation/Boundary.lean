import CollectionShell.Proofs.Operation.Imbalance
import CollectionShell.Proofs.Operation.ShellQuotes

/-!
# Texts in two parts

A text is at a `Boundary` if the scan that cuts it has nothing pending behind it, no parenthesis
open and no string to remember. What follows a boundary is cut as if it stood alone
(`Boundary.tokenize_append`), be it cut into tokens or found to have a parenthesis that is never
closed. A point outside strings makes a boundary (`Boundary.point`), and so does a parenthesis that
closes one outside strings, if no other is open (`Boundary.of_closesLast`).

The last three tokens of a call come from such a parenthesis and not from a fragment
(`exists_of_close`), with blanks behind it at most. So whatever visible text follows a call, the
tokens are too many (`tokenize_append_boundary`).
-/

namespace CollectionShell.Operation

open Quotation (Tracker mask endsInside)
open Text (Blank)

variable {mode : EscapeMode} {x : Text} {ts : List Text}

/-- Behind the text its tokens are complete and nothing is left to remember. -/
structure Boundary (mode : EscapeMode) (x : Text) (ts : List Text) : Prop where
  /-- Nothing is pending and no parenthesis is open. -/
  run_eq : Scan.start.run (Tracker.start.marks mode x) = ⟨ts.reverse, [], 0⟩
  /-- No string is open and nothing is escaped. -/
  advance_eq : Tracker.start.advance mode x = Tracker.start

/-- What follows a boundary is cut as if it stood alone. -/
theorem Boundary.tokenize_append (h : Boundary mode x ts) (y : Text) :
    tokenize mode (x ++ y) = (tokenize mode y).map (ts ++ ·) := by
  have hbehind : (⟨ts.reverse, [], 0⟩ : Scan) = Scan.start.behind ts.reverse := by
    simp [Scan.behind, Scan.start]
  rw [tokenize_eq, tokenize_eq, Tracker.marks_append, Tracker.advance_append, h.advance_eq,
    Scan.run_append, h.run_eq, hbehind, Scan.run_behind, Scan.finish_behind, List.reverse_reverse]

/-- A text has tokens exactly if none of its parentheses stays open. -/
theorem tokenize_eq_ok_iff_scan :
    tokenize mode x = .ok ts ↔
      (Scan.start.run (Tracker.start.marks mode x)).depth = 0 ∧
        (Scan.start.run (Tracker.start.marks mode x)).flushed.reverse = ts := by
  rw [tokenize_eq, Scan.finish]
  split_ifs with h <;> simp [h]

/-! ## Points -/

theorem Boundary.point (hx : tokenize mode x = .ok ts)
    (hout : (Tracker.start.advance mode x).inside = false) :
    Boundary mode (x ++ ['.']) (ts ++ [['.']]) := by
  obtain ⟨hdepth, rfl⟩ := tokenize_eq_ok_iff_scan.1 hx
  refine ⟨?_, advance_cut hout rfl (by decide)⟩
  rw [marks_cut hout rfl (by decide), Scan.run_append]
  generalize Scan.start.run (Tracker.start.marks mode x) = s at hdepth ⊢
  change s.step ⟨'.', false⟩ = _
  simp [Scan.step, Scan.stepOutside, hdepth]

/-! ## Closing parentheses -/

/-- The last character of the text is the parenthesis that matches one of the text, outside its
strings. -/
def ClosesLast (mode : EscapeMode) (x : Text) : Prop :=
  ∃ k, x[k]? = some '(' ∧ (mask mode x)[k]? = some false ∧
    matchingParen x (mask mode x) k = .ok (x.length - 1)

theorem closesLast_iff :
    ClosesLast mode x ↔ ∃ u b, x = u ++ '(' :: (b ++ [')']) ∧
      (Tracker.start.advance mode u).inside = false ∧ Enclosed mode b := by
  constructor
  · rintro ⟨k, hk, hout, hc⟩
    obtain ⟨u, y, rfl, rfl⟩ := exists_of_getElem? hk
    have hu := outside_of_mask hout
    obtain ⟨b, r, rfl, hlen, hb⟩ := (matchingParen_eq_ok hu).1 hc
    simp only [List.length_append, List.length_cons] at hlen
    obtain rfl := List.length_eq_zero_iff.1 (show r.length = 0 by omega)
    exact ⟨u, b, rfl, hu, hb⟩
  · rintro ⟨u, b, rfl, hu, hb⟩
    refine ⟨u.length, by simp, ?_, (matchingParen_eq_ok hu).2 ⟨b, [], rfl, by simp; omega, hb⟩⟩
    rw [getElem?_mask_length, hu]

/-- A scan outside parentheses takes what stands between two that match for a token. -/
theorem Scan.run_group {s : Scan} {ms : List Marked} (hs : s.depth = 0)
    (h : stillOpen 1 ms = some 1) :
    s.run (⟨'(', false⟩ :: (ms ++ [⟨')', false⟩])) =
      ⟨[')'] :: ms.map Marked.char :: ['('] :: s.flushed, [], 0⟩ := by
  have hopen : s.step ⟨'(', false⟩ = ⟨['('] :: s.flushed, [], 1⟩ := by
    simp [Scan.step, Scan.stepOutside, hs]
  change (s.step ⟨'(', false⟩).run (ms ++ [⟨')', false⟩]) = _
  rw [hopen, Scan.run_append, Scan.run_inside _ _ (Nat.le_refl 1) h]
  simp [Scan.run, Scan.step, Scan.stepInside]

/-- A scan inside parentheses is as deep behind two that match as in front of them. -/
theorem Scan.depth_run_group {s : Scan} {ms : List Marked} (hs : s.depth ≠ 0)
    (h : stillOpen 1 ms = some 1) :
    (s.run (⟨'(', false⟩ :: (ms ++ [⟨')', false⟩]))).depth = s.depth := by
  obtain ⟨tokens, pending, depth⟩ := s
  dsimp only at hs
  have hopen : Scan.step ⟨tokens, pending, depth⟩ ⟨'(', false⟩ =
      ⟨tokens, '(' :: pending, 1 + depth⟩ := by
    simp [Scan.step, Scan.stepInside, Scan.push, hs, Nat.add_comm]
  have hdeep := stillOpen_add depth (Nat.le_refl 1) h
  change (Scan.run (Scan.step ⟨tokens, pending, depth⟩ ⟨'(', false⟩) _).depth = _
  rw [hopen, Scan.run_append, Scan.run_inside _ _ (by omega) hdeep]
  simp [Scan.run, Scan.step, Scan.stepInside, Scan.push, hs]

theorem Boundary.of_closesLast (hx : tokenize mode x = .ok ts) (h : ClosesLast mode x) :
    Boundary mode x ts := by
  obtain ⟨u, b, rfl, hu, hb⟩ := closesLast_iff.1 h
  have hmarks : Tracker.start.marks mode (u ++ '(' :: (b ++ [')'])) =
      Tracker.start.marks mode u ++
        ⟨'(', false⟩ :: (Tracker.start.marks mode b ++ [⟨')', false⟩]) := by
    rw [marks_cut hu rfl (by decide), marks_cut hb.outside rfl (by decide), Tracker.marks_nil]
  have hadvance : Tracker.start.advance mode (u ++ '(' :: (b ++ [')'])) = Tracker.start := by
    rw [advance_cut hu rfl (by decide), advance_cut hb.outside rfl (by decide),
      Tracker.advance_nil]
  obtain ⟨hdepth, hts⟩ := tokenize_eq_ok_iff_scan.1 hx
  refine ⟨?_, hadvance⟩
  rw [hmarks, Scan.run_append] at hdepth hts ⊢
  generalize Scan.start.run (Tracker.start.marks mode u) = s at hdepth hts ⊢
  -- a parenthesis that is open in front of the last pair would stay open
  have hs : s.depth = 0 := by
    by_contra hs
    rw [Scan.depth_run_group hs hb.stillOpen_eq] at hdepth
    exact hs hdepth
  rw [Scan.run_group hs hb.stillOpen_eq] at hts ⊢
  rw [← hts]
  simp [Scan.flushed, Text.trim_eq_nil.2 Text.blank_nil]

/-! ## The last tokens of a call -/

/-- A parenthesis among the last three tokens comes from the text, and so does the one that closes
it. Only blanks stand behind them. -/
theorem exists_of_close {t b : Text} {us : List Text} (h : Tokenized mode t us)
    (hus : [['('], b, [')']] <:+ us) :
    ∃ u w, t = u ++ '(' :: (b ++ [')']) ++ w ∧
      (Tracker.start.advance mode u).inside = false ∧ Enclosed mode b ∧ Blank w := by
  -- three tokens or more behind a cut have the last three of the text among them
  have hrest : ∀ {pre ts : List Text}, [['('], b, [')']] <:+ pre ++ ts → 3 ≤ ts.length →
      [['('], b, [')']] <:+ ts :=
    fun h hlen => List.suffix_of_suffix_length_le h (List.suffix_append _ _) hlen
  -- fewer are compared with them from the end
  have hback : ∀ {ts : List Text}, [['('], b, [')']] <:+ ts →
      ∃ front, [')'] :: b :: ['('] :: front = ts.reverse := by
    rintro ts ⟨front, rfl⟩
    exact ⟨front.reverse, by simp⟩
  induction h with
  | @solid f hf =>
    have hlen := hus.length_le
    rw [fragment] at hlen
    split_ifs at hlen <;> simp at hlen
  | @point f r ts hf ho hr ih =>
    by_cases hlen : 3 ≤ ts.length
    · rw [List.append_cons] at hus
      obtain ⟨u, w, rfl, hu, hb, hw⟩ := ih (hrest hus hlen)
      refine ⟨f ++ '.' :: u, w, by simp, ?_, hb, hw⟩
      rw [advance_cut ho rfl (by decide), hu]
    · obtain ⟨front, hfront⟩ := hback hus
      rcases ts with - | ⟨x, - | ⟨y, - | ⟨z, ts⟩⟩⟩
      · simp at hfront
      · obtain ⟨-, -, hparen⟩ : [')'] = x ∧ b = ['.'] ∧ ['('] :: front = (fragment f).reverse := by
          simpa using hfront
        have hmem : ['('] ∈ fragment f := by
          rw [← List.mem_reverse, ← hparen]
          exact List.mem_cons_self
        exact absurd rfl (ne_cut_of_mem_fragment (.inr rfl) hf hmem)
      · simp at hfront
      · simp at hlen
  | @group f b' r ts hf ho hb' hr ih =>
    by_cases hlen : 3 ≤ ts.length
    · have hsplit : fragment f ++ ['('] :: b' :: [')'] :: ts =
          fragment f ++ [['('], b', [')']] ++ ts := by simp
      rw [hsplit] at hus
      obtain ⟨u, w, rfl, hu, hb, hw⟩ := ih (hrest hus hlen)
      refine ⟨f ++ '(' :: b' ++ ')' :: u, w, by simp, ?_, hb, hw⟩
      rw [List.append_assoc, List.cons_append, advance_cut ho rfl (by decide),
        advance_cut hb'.outside rfl (by decide), hu]
    · obtain ⟨front, hfront⟩ := hback hus
      rcases ts with - | ⟨x, - | ⟨y, - | ⟨z, ts⟩⟩⟩
      · obtain ⟨rfl, -⟩ : b = b' ∧ front = (fragment f).reverse := by simpa using hfront
        exact ⟨f, r, by simp, ho, hb', tokenized_nil hr⟩
      · obtain ⟨-, -, hparen, -⟩ :
            [')'] = x ∧ b = [')'] ∧ ['('] = b' ∧ front = ['('] :: (fragment f).reverse := by
          simpa using hfront
        exact absurd hparen.symm hb'.ne_paren
      · simp at hfront
      · simp at hlen

/-- A text that is laid out as a call ends with a closing parenthesis, but for blanks. -/
theorem exists_closesLast {l : Layout} (hx : tokenize mode x = .ok ts) (hl : layout ts = .ok l) :
    ∃ v w, x = v ++ w ∧ ClosesLast mode v ∧ Blank w := by
  obtain ⟨u, w, rfl, hu, hb, hw⟩ := exists_of_close (b := l.blob) (tokenize_eq_ok.1 hx) (by
    rw [layout_eq_ok.1 hl]
    exact List.suffix_append [l.collection, ['.'], l.method] _)
  exact ⟨_, w, rfl, closesLast_iff.2 ⟨u, l.blob, rfl, hu, hb⟩, hw⟩

/-- Whatever stands behind a text that is laid out as a call is cut as if it stood alone. -/
theorem tokenize_append_of_layout {l : Layout} (hx : tokenize mode x = .ok ts)
    (hl : layout ts = .ok l) (y : Text) :
    tokenize mode (x ++ y) = (tokenize mode y).map (ts ++ ·) := by
  obtain ⟨v, w, rfl, hv, hw⟩ := exists_closesLast hx hl
  have hvts : tokenize mode v = .ok ts := by
    rcases tokenize_append_blank hw v with h | ⟨i, -, -, h⟩
    · rw [← h, hx]
    · rw [hx] at h
      cases h
  rw [List.append_assoc, (Boundary.of_closesLast hvts hv).tokenize_append,
    tokenize_blank_append hw]

/-- More than six tokens are not laid out as a call. -/
theorem layout_append {l : Layout} {us : List Text} (hl : layout ts = .ok l) (hus : us ≠ []) :
    layout (ts ++ us) = .error (.structural (ts ++ us) .wrongCount) := by
  obtain ⟨u, us, rfl⟩ := List.exists_cons_of_ne_nil hus
  rw [layout_eq_ok.1 hl]
  rfl

/-- A text that has tokens and ends outside strings may be followed by a point and another text :
its tokens, the point and those of the other text are the tokens of the whole, and the other text
has none exactly if the whole has none, for the same reason. The point is not needed if the text
ends with a parenthesis that closes one of its own. So a text behind one that is laid out as a call
makes too many tokens. -/
theorem tokenize_append_boundary (mode : EscapeMode) (x : Text) (ts : List Text)
    (hx : tokenize mode x = .ok ts) (hout : endsInside mode x = false) :
    (∀ y, tokenize mode (x ++ '.' :: y) = (tokenize mode y).map (ts ++ ['.'] :: ·)) ∧
      (ClosesLast mode x → ∀ y, tokenize mode (x ++ y) = (tokenize mode y).map (ts ++ ·)) ∧
      ∀ l, layout ts = .ok l → ∀ y us, ¬Blank y → tokenize mode y = .ok us →
        tokenize mode (x ++ y) = .ok (ts ++ us) ∧
          layout (ts ++ us) = .error (.structural (ts ++ us) .wrongCount) := by
  rw [Quotation.endsInside_eq] at hout
  refine ⟨fun y => ?_, fun h => (Boundary.of_closesLast hx h).tokenize_append,
    fun l hl y us hy hus => ⟨?_, layout_append hl ?_⟩⟩
  · rw [List.append_cons, (Boundary.point hx hout).tokenize_append]
    simp
  · rw [tokenize_append_of_layout hx hl, hus]
    rfl
  · rintro rfl
    exact hy (tokenized_nil (tokenize_eq_ok.1 hus))

theorem tokenize_append_boundary_chained :
    tokenize .single "us.f('(').g((\"".toList =
        .error (.unbalanced ⟨"((\"".toList, 0, 0, 2, true⟩) ∧
      tokenize .single "us.f('(')'.'".toList =
        .ok ["us".toList, ['.'], ['f'], ['('], "'('".toList, [')'], "'.'".toList] ∧
      tokenize .single "us.f('(').g(1)".toList =
        .ok (["us".toList, ['.'], ['f'], ['('], "'('".toList, [')']] ++
          [['.'], ['g'], ['('], ['1'], [')']]) ∧
      layout (["us".toList, ['.'], ['f'], ['('], "'('".toList, [')']] ++
          [['.'], ['g'], ['('], ['1'], [')']]) =
        .error (.structural (["us".toList, ['.'], ['f'], ['('], "'('".toList, [')']] ++
          [['.'], ['g'], ['('], ['1'], [')']]) .wrongCount) := by
  obtain ⟨hpoint, hclose, hcall⟩ := tokenize_append_boundary .single "us.f('(')".toList
    ["us".toList, ['.'], ['f'], ['('], "'('".toList, [')']] (by cbv) (by cbv)
  refine ⟨?_, ?_, hcall ⟨"us".toList, ['f'], "'('".toList⟩ (by cbv) ".g(1)".toList
    [['.'], ['g'], ['('], ['1'], [')']] (fun h => absurd (h '.' (by simp)) (by decide)) (by cbv)⟩
  · exact (hpoint "g((\"".toList).trans (by cbv)
  · exact (hclose ⟨4, by cbv, by cbv, by cbv⟩ "'.'".toList).trans (by cbv)

end CollectionShell.Operation
