import CollectionShell.Proofs.Operation.Commas
import CollectionShell.Proofs.Operation.ShellQuotes

/-!
# Cutting arguments and joining them again

A text of arguments is cut into texts that are each `Alone` : balanced, and not cut themselves. What
stands in front of such a text is of no account for it, because strings, depths and looking back
start afresh behind the comma, and neither are blanks around it (`alone_pad`). So the segments of a
text may be cut again and stay what they are, and segments that stay so may be joined with commas,
with any blanks around them, and are found again (`splitArguments_rejoined`).
-/

namespace CollectionShell.Operation

open Quotation (Tracker)
open Text (Blank)

variable {mode : EscapeMode} {p s t x : Text} {us : List Text}

/-- The text is balanced and not cut. -/
structure Alone (mode : EscapeMode) (t : Text) : Prop where
  balanced : Balanced mode t
  uncut : Uncut mode t

/-! ## Blanks around a text -/

/-- Blanks open and close nothing, not even in a string. -/
theorem balance_blank {opening close : Char} (ho : Text.isBlank opening = false)
    (hc : Text.isBlank close = false) (tracker : Tracker) (hs : Blank s) :
    balance opening close (tracker.marks mode s) = 0 := by
  refine balance_eq_zero fun m hm => .inr ?_
  have hblank : Text.isBlank m.char = true := by
    refine hs _ ?_
    rw [← Tracker.map_char_marks mode tracker s]
    exact List.mem_map_of_mem hm
  exact ⟨ne_of_blank hblank ho, ne_of_blank hblank hc⟩

theorem balance_pad {opening close : Char} (ho : Text.isBlank opening = false)
    (hc : Text.isBlank close = false) (hp : Blank p) (hs : Blank s) :
    balance opening close (Tracker.start.marks mode (p ++ x ++ s)) =
      balance opening close (Tracker.start.marks mode x) := by
  rw [Tracker.marks_append, Tracker.marks_append, balance_append, balance_append,
    balance_blank ho hc _ hp, balance_blank ho hc _ hs, advance_ordinary (ordinary_of_blank hp),
    Int.zero_add, Int.add_zero]

theorem balanced_pad (hp : Blank p) (hs : Blank s) :
    Balanced mode (p ++ x ++ s) ↔ Balanced mode x := by
  refine balanced_congr ?_ ?_ ?_
  · rw [Tracker.advance_append, inside_advance_blank _ hs, advance_blank_append hp]
  · exact balance_pad (by decide) (by decide) hp hs
  · exact balance_pad (by decide) (by decide) hp hs

theorem balanced_blank_append (hp : Blank p) : Balanced mode (p ++ x) ↔ Balanced mode x := by
  have hpad : Balanced mode (p ++ x ++ []) ↔ Balanced mode x := balanced_pad hp Text.blank_nil
  rwa [List.append_nil] at hpad

theorem comma_not_mem (hs : Blank s) : ',' ∉ s := fun h => ne_of_blank (hs _ h) (by decide) rfl

theorem uncut_pad (hp : Blank p) (hs : Blank s) :
    Uncut mode (p ++ x ++ s) ↔ Uncut mode x := by
  constructor
  · rintro h u v rfl hu
    exact h (p ++ u) (v ++ s) (by simp) ((balanced_blank_append hp).2 hu)
  · intro h u v heq hu
    -- the comma stands in one of the three, and not in blanks
    rcases Text.append_eq_append_cons.1 heq with ⟨r, hr, -⟩ | ⟨r, -, rfl⟩
    · rcases Text.append_eq_append_cons.1 hr with ⟨r, rfl, -⟩ | ⟨r, rfl, rfl⟩
      · exact comma_not_mem hp (by simp)
      · exact h r _ rfl ((balanced_blank_append hp).1 hu)
    · exact comma_not_mem hs (by simp)

theorem alone_pad (hp : Blank p) (hs : Blank s) : Alone mode (p ++ x ++ s) ↔ Alone mode x :=
  ⟨fun ⟨hb, hu⟩ => ⟨(balanced_pad hp hs).1 hb, (uncut_pad hp hs).1 hu⟩,
    fun ⟨hb, hu⟩ => ⟨(balanced_pad hp hs).2 hb, (uncut_pad hp hs).2 hu⟩⟩

theorem alone_trim : Alone mode (Text.trim t) ↔ Alone mode t := by
  obtain ⟨p, s, hp, hs, ht⟩ := Text.exists_blank_append_trim t
  conv_rhs => rw [ht]
  exact (alone_pad hp hs).symm

theorem alone_blank (hs : Blank s) : Alone mode s := by
  have hnil : Alone mode [] := ⟨⟨rfl, rfl, rfl⟩, fun x y h => by simp at h⟩
  simpa using (alone_pad hs Text.blank_nil).2 hnil

/-! ## Pieces are alone -/

/-- What stands between the cuts of a balanced text is alone. -/
theorem alone_of_mem_pieces (ht : Balanced mode t) : ∀ x ∈ pieces mode t, Alone mode x := by
  induction t using comma_induction mode with
  | uncut t hu =>
    rw [pieces_uncut hu]
    exact List.forall_mem_singleton.2 ⟨ht, hu⟩
  | comma x y hx hu ih =>
    rw [pieces_cut hx, pieces_uncut hu]
    exact List.forall_mem_cons.2 ⟨⟨hx, hu⟩, ih (hx.cut_iff.1 ht)⟩

/-- Texts that are alone are what stands between the commas that join them. -/
theorem pieces_joinWith (hne : us ≠ []) (hus : ∀ u ∈ us, Alone mode u) :
    Balanced mode (Text.joinWith [','] us) ∧ pieces mode (Text.joinWith [','] us) = us := by
  induction us with
  | nil => exact absurd rfl hne
  | cons u us ih =>
    obtain ⟨hu, hus⟩ := List.forall_mem_cons.1 hus
    cases us with
    | nil => simpa using ⟨hu.balanced, pieces_uncut hu.uncut⟩
    | cons v us =>
      obtain ⟨hb, hpieces⟩ := ih (List.cons_ne_nil v us) hus
      rw [Text.joinWith_cons_cons, List.append_assoc, List.singleton_append,
        pieces_cut hu.balanced, hpieces, pieces_uncut hu.uncut]
      exact ⟨hu.balanced.cut_iff.2 hb, rfl⟩

theorem splitArguments_joinWith (hne : us ≠ []) (hus : ∀ u ∈ us, Alone mode u) :
    splitArguments mode (Text.joinWith [','] us) =
      .ok (withoutEmptyEnd (us.map Text.trim)) := by
  obtain ⟨hb, hpieces⟩ := pieces_joinWith hne hus
  rw [splitArguments_of_balanced hb, hpieces]

theorem length_trim_le (t : Text) : (Text.trim t).length ≤ t.length := by
  obtain ⟨p, s, -, -, ht⟩ := Text.exists_blank_append_trim t
  have := congrArg List.length ht
  rw [List.length_append, List.length_append] at this
  omega

/-- The segments that stay what they are. -/
theorem splitArguments_eq_singleton :
    splitArguments mode t = .ok [t] ↔ Alone mode t ∧ Text.trim t = t ∧ t ≠ [] := by
  constructor
  · intro h
    have hb := balanced_of_splitArguments h
    have hsegments := Except.ok.inj ((splitArguments_of_balanced hb).symm.trans h)
    induction t using comma_induction mode with
    | uncut t hu =>
      rw [pieces_uncut hu, List.map_singleton] at hsegments
      have hne : Text.trim t ≠ [] := by
        intro hnil
        rw [hnil] at hsegments
        cases hsegments
      rw [withoutEmptyEnd_eq_self (by simpa using hne.symm)] at hsegments
      have htrim : Text.trim t = t := (List.cons.inj hsegments).1
      exact ⟨⟨hb, hu⟩, htrim, htrim ▸ hne⟩
    | comma x y hx hu _ =>
      -- the first segment would be as long as the whole text
      rw [withoutEmptyEnd_pieces_cut hx hu] at hsegments
      have hlen := length_trim_le x
      rw [(List.cons.inj hsegments).1, List.length_append, List.length_cons] at hlen
      omega
  · rintro ⟨halone, htrim, hne⟩
    have := splitArguments_joinWith (List.cons_ne_nil t []) (List.forall_mem_singleton.2 halone)
    rwa [Text.joinWith_singleton, List.map_singleton, htrim,
      withoutEmptyEnd_eq_self (by simpa using hne.symm)] at this

/-! ## Segments and their blanks -/

/-- A text with blanks around it. -/
structure Padded where
  /-- Blanks in front of the text. -/
  before : Text
  text : Text
  /-- Blanks behind the text. -/
  behind : Text
  blank_before : Blank before
  blank_behind : Blank behind

namespace Padded

/-- The text and its blanks. -/
def written (x : Padded) : Text := x.before ++ x.text ++ x.behind

/-- The texts and their blanks with commas between them. -/
def joined (xs : List Padded) : Text := Text.joinWith [','] (xs.map written)

theorem trim_written (x : Padded) : Text.trim x.written = Text.trim x.text :=
  Text.trim_append_blank x.blank_before x.blank_behind x.text

theorem alone_written {x : Padded} : Alone mode x.written ↔ Alone mode x.text :=
  alone_pad x.blank_before x.blank_behind

end Padded

/-- The segments of a text are trimmed and, unless they are empty, each is the only segment of
itself. Texts that are the only segments of themselves are the segments of what they are joined to,
whatever blanks stand around them and be there a comma and blanks behind the last or not. -/
theorem splitArguments_rejoined (mode : EscapeMode) :
    (∀ blob segments, splitArguments mode blob = .ok segments → ∀ x ∈ segments,
      Text.trim x = x ∧ (x ≠ [] → splitArguments mode x = .ok [x])) ∧
    ∀ xs : List Padded, xs ≠ [] → (∀ x ∈ xs, splitArguments mode x.text = .ok [x.text]) →
      splitArguments mode (Padded.joined xs) = .ok (xs.map Padded.text) ∧
      ∀ b, Blank b →
        splitArguments mode (Padded.joined xs ++ ',' :: b) = .ok (xs.map Padded.text) := by
  constructor
  · intro blob segments h x hx
    have hb := balanced_of_splitArguments h
    obtain rfl := Except.ok.inj ((splitArguments_of_balanced hb).symm.trans h)
    obtain ⟨t, ht, rfl⟩ := List.mem_map.1 (mem_of_mem_withoutEmptyEnd hx)
    have halone := alone_trim.2 (alone_of_mem_pieces hb t ht)
    exact ⟨Text.trim_trim t, fun hne =>
      splitArguments_eq_singleton.2 ⟨halone, Text.trim_trim t, hne⟩⟩
  · intro xs hne hxs
    have hsingle := fun x hx => splitArguments_eq_singleton.1 (hxs x hx)
    have hmap : xs.map Padded.written ≠ [] := by simpa using hne
    have halone : ∀ u ∈ xs.map Padded.written, Alone mode u :=
      List.forall_mem_map.2 fun x hx => Padded.alone_written.2 (hsingle x hx).1
    have htrim : (xs.map Padded.written).map Text.trim = xs.map Padded.text := by
      rw [List.map_map]
      exact List.map_congr_left fun x hx => x.trim_written.trans (hsingle x hx).2.1
    constructor
    · have hnil : [] ∉ xs.map Padded.text := by
        simp only [List.mem_map, not_exists, not_and]
        exact fun x hx => (hsingle x hx).2.2
      rw [Padded.joined, splitArguments_joinWith hmap halone, htrim, withoutEmptyEnd_eq_self hnil]
    · intro b hb
      have hend : ∀ u ∈ xs.map Padded.written ++ [b], Alone mode u :=
        List.forall_mem_append.2 ⟨halone, List.forall_mem_singleton.2 (alone_blank hb)⟩
      have hjoin : Padded.joined xs ++ ',' :: b =
          Text.joinWith [','] (xs.map Padded.written ++ [b]) := by
        rw [Text.joinWith_append_singleton _ hmap, List.append_assoc, List.singleton_append]
        rfl
      rw [hjoin, splitArguments_joinWith (by simp) hend, List.map_append, List.map_singleton, htrim,
        Text.trim_eq_nil.2 hb, withoutEmptyEnd_append_nil]

theorem splitArguments_rejoined_backslash :
    splitArguments .single "'a,\\''\\".toList = .ok ["'a,\\''\\".toList] ∧
    splitArguments .single " 'a,\\''\\\t,\x7d,\x7b".toList =
      .ok ["'a,\\''\\".toList, "\x7d,\x7b".toList] ∧
    splitArguments .single " 'a,\\''\\\t,\x7d,\x7b, ".toList =
      .ok ["'a,\\''\\".toList, "\x7d,\x7b".toList] := by
  obtain ⟨hagain, hjoin⟩ := splitArguments_rejoined .single
  have hfirst := (hagain "'a,\\''\\,,".toList ["'a,\\''\\".toList, []] (by cbv) _
    List.mem_cons_self).2 (by decide)
  have hsecond : splitArguments .single "\x7d,\x7b".toList = .ok ["\x7d,\x7b".toList] := by cbv
  have hspace : Blank [' '] := List.forall_mem_singleton.2 rfl
  have htab : Blank ['\t'] := List.forall_mem_singleton.2 rfl
  obtain ⟨hplain, htrailing⟩ := hjoin
    [⟨[' '], "'a,\\''\\".toList, ['\t'], hspace, htab⟩,
      ⟨[], "\x7d,\x7b".toList, [], Text.blank_nil, Text.blank_nil⟩]
    (List.cons_ne_nil _ _) (List.forall_mem_cons.2 ⟨hfirst, List.forall_mem_singleton.2 hsecond⟩)
  exact ⟨hfirst, hplain, htrailing [' '] hspace⟩

end CollectionShell.Operation
