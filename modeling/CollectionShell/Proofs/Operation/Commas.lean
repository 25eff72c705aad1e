import CollectionShell.Proofs.Operation.Imbalance

/-!
# Where arguments are cut

The cut of a text of arguments is one pass over its characters. By place it is this : a comma cuts
if the mask has it outside strings, and as many braces and brackets are closed as opened in front of
it (`CutAt`). The segments are what stands between these commas, trimmed and without a blank one at
the end, unless more is opened or closed in the whole text or it ends inside a string
(`splitArguments_eq_pieces`).

A comma cuts exactly if what is in front of it is `Balanced` (`cutAt_iff`). Strings, depths and
looking back start afresh behind it, so a text is cut behind it as if nothing stood in front
(`cutAt_cut`), and both the pass and the pieces follow the cuts one by one (`comma_induction`).
-/

namespace CollectionShell.Operation

open Quotation (Tracker mask endsInside take_marked_append take_marked_length)

/-! ## Cuts by place -/

/-- Opening less closing braces outside strings in front of a place of the text. -/
def braceBalance (mode : EscapeMode) (t : Text) (i : Nat) : Int :=
  balance '\x7b' '\x7d' ((marked mode t).take i)

/-- Opening less closing brackets outside strings in front of a place of the text. -/
def bracketBalance (mode : EscapeMode) (t : Text) (i : Nat) : Int :=
  balance '[' ']' ((marked mode t).take i)

/-- At the place stands a comma outside strings, braces and brackets. -/
structure CutAt (mode : EscapeMode) (t : Text) (i : Nat) : Prop where
  comma : t[i]? = some ','
  unquoted : (mask mode t)[i]? = some false
  braces : braceBalance mode t i = 0
  brackets : bracketBalance mode t i = 0

instance (mode : EscapeMode) (t : Text) (i : Nat) : Decidable (CutAt mode t i) :=
  decidable_of_iff (t[i]? = some ',' ∧ (mask mode t)[i]? = some false ∧
      braceBalance mode t i = 0 ∧ bracketBalance mode t i = 0)
    ⟨fun ⟨hc, hq, hb, hk⟩ => ⟨hc, hq, hb, hk⟩, fun h => ⟨h.comma, h.unquoted, h.braces, h.brackets⟩⟩

/-- The characters of a text, each with whether it is a comma that cuts. -/
def withCuts (mode : EscapeMode) (t : Text) : List (Char × Bool) :=
  t.mapIdx fun i c => (c, decide (CutAt mode t i))

/-- What stands between the commas that cut. -/
def pieces (mode : EscapeMode) (t : Text) : List Text :=
  ((withCuts mode t).splitOnP Prod.snd).map (·.map Prod.fst)

/-- The texts without the last one if that is empty. -/
def withoutEmptyEnd (ts : List Text) : List Text :=
  if ts.getLast? = some [] then ts.dropLast else ts

/-- What is said of a text that ends inside a string, a brace or a bracket. -/
def unevenness (mode : EscapeMode) (t : Text) : ParseError :=
  .unbalanced {
    text := t
    braces := braceBalance mode t t.length
    brackets := bracketBalance mode t t.length
    parens := 0
    unterminated := endsInside mode t }

/-! ## Balanced texts -/

/-- The text ends outside strings, and closes as many braces and brackets as it opens. -/
structure Balanced (mode : EscapeMode) (t : Text) : Prop where
  outside : (Tracker.start.advance mode t).inside = false
  braces : balance '\x7b' '\x7d' (Tracker.start.marks mode t) = 0
  brackets : balance '[' ']' (Tracker.start.marks mode t) = 0

/-- No comma cuts the text. -/
def Uncut (mode : EscapeMode) (t : Text) : Prop := ∀ x y, t = x ++ ',' :: y → ¬Balanced mode x

variable {mode : EscapeMode} {t x y : Text} {i : Nat}

/-- A comma cuts if the text in front of it is balanced. -/
theorem cutAt_iff : CutAt mode t i ↔ ∃ x y, t = x ++ ',' :: y ∧ x.length = i ∧ Balanced mode x := by
  constructor
  · rintro ⟨hc, hq, hb, hk⟩
    obtain ⟨x, y, rfl, rfl⟩ := exists_of_getElem? hc
    rw [braceBalance, take_marked_append] at hb
    rw [bracketBalance, take_marked_append] at hk
    exact ⟨x, y, rfl, rfl, outside_of_mask hq, hb, hk⟩
  · rintro ⟨x, y, rfl, rfl, ho, hb, hk⟩
    refine ⟨by simp, ?_, ?_, ?_⟩
    · rw [getElem?_mask_length, ho]
    · rw [braceBalance, take_marked_append, hb]
    · rw [bracketBalance, take_marked_append, hk]

theorem uncut_iff : Uncut mode t ↔ ∀ i, ¬CutAt mode t i := by
  constructor
  · intro h i hi
    obtain ⟨x, y, rfl, -, hx⟩ := cutAt_iff.1 hi
    exact h x y rfl hx
  · rintro h x y rfl hx
    exact h x.length (cutAt_iff.2 ⟨x, y, rfl, rfl, hx⟩)

theorem balance_cut {opening close : Char} (hx : (Tracker.start.advance mode x).inside = false)
    (ho : opening ≠ ',') (hc : close ≠ ',') :
    balance opening close (Tracker.start.marks mode (x ++ ',' :: y)) =
      balance opening close (Tracker.start.marks mode x) +
        balance opening close (Tracker.start.marks mode y) := by
  have hcomma : balance opening close [⟨',', false⟩] = 0 :=
    balance_eq_zero (by simp [ho.symm, hc.symm])
  rw [marks_cut hx rfl (by decide), balance_append, balance_cons, hcomma, Int.zero_add]

theorem balanced_congr
    (ho : (Tracker.start.advance mode x).inside = (Tracker.start.advance mode y).inside)
    (hb : balance '\x7b' '\x7d' (Tracker.start.marks mode x) =
      balance '\x7b' '\x7d' (Tracker.start.marks mode y))
    (hk : balance '[' ']' (Tracker.start.marks mode x) =
      balance '[' ']' (Tracker.start.marks mode y)) : Balanced mode x ↔ Balanced mode y := by
  constructor
  · rintro ⟨hx, hxb, hxk⟩
    exact ⟨ho ▸ hx, hb ▸ hxb, hk ▸ hxk⟩
  · rintro ⟨hy, hyb, hyk⟩
    exact ⟨ho ▸ hy, hb ▸ hyb, hk ▸ hyk⟩

/-- A balanced text and a comma make no difference to what stands behind them. -/
theorem Balanced.cut_iff (hx : Balanced mode x) :
    Balanced mode (x ++ ',' :: y) ↔ Balanced mode y := by
  refine balanced_congr ?_ ?_ ?_
  · rw [advance_cut hx.outside rfl (by decide)]
  · rw [balance_cut hx.outside (by decide) (by decide), hx.braces, Int.zero_add]
  · rw [balance_cut hx.outside (by decide) (by decide), hx.brackets, Int.zero_add]

/-- Behind a cut a text is cut as if nothing stood in front. -/
theorem cutAt_cut (hx : Balanced mode x) :
    CutAt mode (x ++ ',' :: y) (i + (x.length + 1)) ↔ CutAt mode y i := by
  rw [cutAt_iff, cutAt_iff, List.append_cons]
  constructor
  · rintro ⟨u, v, heq, hlen, hu⟩
    rcases Text.append_eq_append_cons.1 heq with ⟨r, hr, -⟩ | ⟨r, rfl, rfl⟩
    · have := congrArg List.length hr
      simp at this
      omega
    · rw [List.append_assoc, List.singleton_append] at hu
      exact ⟨r, v, rfl, by simp at hlen; omega, hx.cut_iff.1 hu⟩
  · rintro ⟨u, v, rfl, rfl, hu⟩
    exact ⟨x ++ ',' :: u, v, by simp, by simp; omega, hx.cut_iff.2 hu⟩

/-- Whether a comma cuts does not depend on what stands behind it. -/
theorem cutAt_append (hi : i < x.length) : CutAt mode (x ++ y) i ↔ CutAt mode x i := by
  rw [cutAt_iff, cutAt_iff]
  constructor
  · rintro ⟨u, v, heq, rfl, hu⟩
    rcases Text.append_eq_append_cons.1 heq with ⟨r, rfl, -⟩ | ⟨r, rfl, -⟩
    · exact ⟨u, r, rfl, rfl, hu⟩
    · simp at hi
  · rintro ⟨u, v, rfl, rfl, hu⟩
    exact ⟨u, v ++ y, by simp, rfl, hu⟩

/-- Induction along the commas that cut. -/
theorem comma_induction (mode : EscapeMode) {motive : Text → Prop}
    (uncut : ∀ x, Uncut mode x → motive x)
    (comma : ∀ x y, Balanced mode x → Uncut mode x → motive y → motive (x ++ ',' :: y))
    (t : Text) : motive t := by
  -- what stands behind the first cut is shorter
  induction hn : t.length using Nat.strong_induction_on generalizing t with
  | h n ih =>
    subst hn
    by_cases hcut : ∃ i, CutAt mode t i
    · obtain ⟨x, y, rfl, hlen, hx⟩ := cutAt_iff.1 (Nat.find_spec hcut)
      refine comma x y hx (uncut_iff.2 fun i hi => ?_) (ih y.length (by simp; omega) y rfl)
      have hlt : i < x.length := (List.getElem?_eq_some_iff.1 hi.comma).1
      exact Nat.find_min hcut (hlen ▸ hlt) ((cutAt_append hlt).2 hi)
    · exact uncut t (uncut_iff.2 (not_exists.1 hcut))

/-! ## Pieces -/

theorem withCuts_cut (hx : Balanced mode x) :
    withCuts mode (x ++ ',' :: y) = withCuts mode x ++ (',', true) :: withCuts mode y := by
  have hfront : x.mapIdx (fun i c => (c, decide (CutAt mode (x ++ ',' :: y) i))) =
      withCuts mode x :=
    List.mapIdx_eq_mapIdx_iff.2 fun i hi => by simp only [cutAt_append hi]
  have hcut : CutAt mode (x ++ ',' :: y) x.length := cutAt_iff.2 ⟨x, y, rfl, rfl, hx⟩
  rw [withCuts, List.mapIdx_append, hfront, List.mapIdx_cons, Nat.zero_add, decide_eq_true hcut]
  simp only [Nat.add_assoc, Nat.add_comm 1, cutAt_cut hx]
  rfl

theorem map_fst_withCuts (t : Text) : (withCuts mode t).map Prod.fst = t :=
  List.ext_getElem (by simp [withCuts]) (by simp [withCuts])

theorem pieces_cut (hx : Balanced mode x) :
    pieces mode (x ++ ',' :: y) = pieces mode x ++ pieces mode y := by
  rw [pieces, withCuts_cut hx, List.splitOnP_append_cons _ _ rfl, List.map_append]
  rfl

theorem pieces_uncut (hx : Uncut mode x) : pieces mode x = [x] := by
  have hnone : ∀ m ∈ withCuts mode x, m.2 = false := by
    intro m hm
    obtain ⟨i, hi, rfl⟩ := List.mem_mapIdx.1 hm
    exact decide_eq_false (uncut_iff.1 hx i)
  rw [pieces, List.splitOnP_eq_singleton hnone, List.map_singleton, map_fst_withCuts]

theorem pieces_ne_nil (mode : EscapeMode) (t : Text) : pieces mode t ≠ [] := by
  simp [pieces, List.splitOnP_ne_nil]

theorem withoutEmptyEnd_cons {t : Text} {ts : List Text} (hts : ts ≠ []) :
    withoutEmptyEnd (t :: ts) = t :: withoutEmptyEnd ts := by
  rw [withoutEmptyEnd, withoutEmptyEnd, List.getLast?_cons_of_ne_nil hts,
    List.dropLast_cons_of_ne_nil hts]
  split_ifs <;> rfl

/-- The first cut ends the first segment. -/
theorem withoutEmptyEnd_pieces_cut (hx : Balanced mode x) (hu : Uncut mode x) (y : Text) :
    withoutEmptyEnd ((pieces mode (x ++ ',' :: y)).map Text.trim) =
      Text.trim x :: withoutEmptyEnd ((pieces mode y).map Text.trim) := by
  have hne : (pieces mode y).map Text.trim ≠ [] := by simp [pieces_ne_nil]
  rw [pieces_cut hx, pieces_uncut hu, List.map_append, List.map_singleton, List.singleton_append,
    withoutEmptyEnd_cons hne]

theorem mem_of_mem_withoutEmptyEnd {ts : List Text} (h : t ∈ withoutEmptyEnd ts) : t ∈ ts := by
  rw [withoutEmptyEnd] at h
  split_ifs at h
  · exact List.mem_of_mem_dropLast h
  · exact h

theorem withoutEmptyEnd_append_nil (ts : List Text) : withoutEmptyEnd (ts ++ [[]]) = ts := by
  simp [withoutEmptyEnd]

theorem withoutEmptyEnd_eq_self {ts : List Text} (h : [] ∉ ts) : withoutEmptyEnd ts = ts :=
  if_neg fun hlast => h (List.mem_of_getLast? hlast)

/-! ## The pass -/

namespace Splitter

/-- The depths behind a text are more by its balances. -/
theorem depths_run (mode : EscapeMode) (s : Splitter) (t : Text) :
    (s.run mode t).braces = s.braces + balance '\x7b' '\x7d' (s.strings.marks mode t) ∧
      (s.run mode t).brackets = s.brackets + balance '[' ']' (s.strings.marks mode t) := by
  induction t generalizing s with
  | nil => exact ⟨(Int.add_zero _).symm, (Int.add_zero _).symm⟩
  | cons c t ih =>
    obtain ⟨hb, hk⟩ := ih (s.step mode c)
    change ((s.step mode c).run mode t).braces = _ ∧ ((s.step mode c).run mode t).brackets = _
    rw [hb, hk, Tracker.marks_cons, balance_cons, balance_cons '[', ← Int.add_assoc,
      ← Int.add_assoc, step_eq]
    exact ⟨rfl, rfl⟩

theorem depths_outer (mode : EscapeMode) (older : List Text) (t : Text) :
    ((outer [] older).run mode t).braces = balance '\x7b' '\x7d' (Tracker.start.marks mode t) ∧
      ((outer [] older).run mode t).brackets = balance '[' ']' (Tracker.start.marks mode t) := by
  simpa [outer] using depths_run mode (outer [] older) t

/-- Behind a balanced text, a comma is a cut. -/
theorem cut_outer {older : List Text} {c : Char} :
    ((outer [] older).run mode x).Cut c ↔ c = ',' ∧ Balanced mode x := by
  obtain ⟨hb, hk⟩ := depths_outer mode older x
  rw [Cut, strings_run, hb, hk]
  refine and_congr_right fun _ => ⟨?_, ?_⟩
  · rintro ⟨ho, hb, hk⟩
    exact ⟨ho, hb, hk⟩
  · rintro ⟨ho, hb, hk⟩
    exact ⟨ho, hb, hk⟩

/-- A text that is not cut is pending as a whole. -/
theorem pending_outer (hx : Uncut mode x) (older : List Text) :
    ((outer [] older).run mode x).pending = x.reverse ∧
      ((outer [] older).run mode x).segments = older := by
  induction x using List.reverseRecOn with
  | nil => exact ⟨rfl, rfl⟩
  | append_singleton x c ih =>
    have hpre : Uncut mode x := by
      rintro p q rfl
      exact hx p (q ++ [c]) (by simp)
    obtain ⟨hp, hs⟩ := ih hpre
    have hkeep : ¬((outer [] older).run mode x).Cut c := by
      rw [cut_outer]
      rintro ⟨rfl, hbalanced⟩
      exact hx x [] rfl hbalanced
    rw [run_append, List.reverse_append]
    change (step mode _ c).pending = _ ∧ (step mode _ c).segments = _
    rw [step_eq, hp, hs]
    exact ⟨if_neg hkeep, if_neg hkeep⟩

/-- A comma behind a balanced text that is not cut makes it a segment. -/
theorem run_cut (hx : Balanced mode x) (hu : Uncut mode x) (y : Text) (older : List Text) :
    (outer [] older).run mode (x ++ ',' :: y) = (outer [] (Text.trim x :: older)).run mode y := by
  obtain ⟨hp, hs⟩ := pending_outer hu older
  rw [run_append]
  change ((run mode _ x).step mode ',').run mode y = _
  rw [step_cut (cut_outer.2 ⟨rfl, hx⟩), hp, hs, List.reverse_reverse]

/-- A balanced text adds its pieces to the segments. -/
theorem finish_outer_run (ht : Balanced mode t) (blob : Text) (older : List Text) :
    ((outer [] older).run mode t).finish blob =
      .ok (older.reverse ++ withoutEmptyEnd ((pieces mode t).map Text.trim)) := by
  induction t using comma_induction mode generalizing older with
  | uncut x hu =>
    obtain ⟨hp, hs⟩ := pending_outer hu older
    obtain ⟨hb, hk⟩ := depths_outer mode older x
    have hbalanced : ¬(((outer [] older).run mode x).braces ≠ 0 ∨
        ((outer [] older).run mode x).brackets ≠ 0 ∨
        ((outer [] older).run mode x).strings.inside = true) := by
      rw [hb, hk, strings_run]
      simp [ht.braces, ht.brackets, outer, ht.outside]
    rw [finish, if_neg hbalanced, hp, hs, List.reverse_reverse, pieces_uncut hu]
    by_cases hend : Text.trim x = []
    · simp [hend, withoutEmptyEnd]
    · simp [hend, withoutEmptyEnd]
  | comma x y hx hu ih =>
    rw [run_cut hx hu, ih (hx.cut_iff.1 ht), withoutEmptyEnd_pieces_cut hx hu, List.reverse_cons,
      List.append_assoc, List.singleton_append]

end Splitter

theorem balanced_iff : Balanced mode t ↔
    ¬(braceBalance mode t t.length ≠ 0 ∨ bracketBalance mode t t.length ≠ 0 ∨
      endsInside mode t = true) := by
  rw [braceBalance, bracketBalance, take_marked_length, Quotation.endsInside_eq]
  simp only [not_or, ne_eq, not_not, Bool.not_eq_true]
  exact ⟨fun ⟨ho, hb, hk⟩ => ⟨hb, hk, ho⟩, fun ⟨hb, hk, ho⟩ => ⟨ho, hb, hk⟩⟩

theorem splitArguments_of_balanced (ht : Balanced mode t) :
    splitArguments mode t = .ok (withoutEmptyEnd ((pieces mode t).map Text.trim)) :=
  Splitter.finish_outer_run ht t []

theorem splitArguments_of_not_balanced (ht : ¬Balanced mode t) :
    splitArguments mode t = .error (unevenness mode t) := by
  obtain ⟨hb, hk⟩ := Splitter.depths_outer mode [] t
  have hstrings : ((Splitter.outer [] []).run mode t).strings.inside = endsInside mode t := by
    rw [Splitter.strings_run, Quotation.endsInside_eq]
    rfl
  rw [← take_marked_length] at hb hk
  rw [balanced_iff, not_not] at ht
  change ((Splitter.outer [] []).run mode t).finish t = _
  rw [Splitter.finish, hb, hk, hstrings]
  exact if_pos ht

theorem balanced_of_splitArguments {segments : List Text}
    (h : splitArguments mode t = .ok segments) : Balanced mode t := by
  by_contra ht
  rw [splitArguments_of_not_balanced ht] at h
  cases h

/-- A text of arguments is cut at the commas outside strings, braces and brackets, and what is
between them is trimmed; only a blank end is no segment. If the text ends inside a string, a brace
or a bracket, or closes more of them than it opens, that is said of it instead. -/
theorem splitArguments_eq_pieces (mode : EscapeMode) (blob : Text) :
    splitArguments mode blob =
      if braceBalance mode blob blob.length ≠ 0 ∨ bracketBalance mode blob blob.length ≠ 0 ∨
          endsInside mode blob = true then
        .error (unevenness mode blob)
      else
        .ok (withoutEmptyEnd ((pieces mode blob).map Text.trim)) := by
  split_ifs with h
  · exact splitArguments_of_not_balanced fun hb => balanced_iff.1 hb h
  · exact splitArguments_of_balanced (balanced_iff.2 h)

/-- A brace that is closed before it is opened keeps the comma between from cutting. -/
example : pieces .single "a,,\x7d,\x7b, ".toList =
    ["a".toList, [], "\x7d,\x7b".toList, [' ']] := by cbv

end CollectionShell.Operation
