import CollectionShell.Proofs.Quotation.Marks
import Mathlib.Tactic.SplitIfs

/-!
# The mask and the text in front of a place

`mask` marks all places of a text at once and looks back through the whole of it, `insideAt` reads
the text again up to the one place that it is asked about, and a `Tracker` reads every character
once and looks back at none. They agree at every place (`mask_agrees`), for what a tracker knows
behind the text in front of a place is what looking back from there would find.

A place may be asked for in front of the first character or behind the last. It counts as the
nearest place of the text (`nearest`).
-/

namespace CollectionShell.Quotation

open Tracker (start)

/-- The place of the text that is nearest to a position. -/
def nearest (t : Text) (position : Int) : Nat := (min (max position 0) t.length).toNat

theorem nearest_le (t : Text) (position : Int) : nearest t position ≤ t.length := by
  rw [nearest]
  omega

theorem nearest_of_nonpos {t : Text} {position : Int} (h : position ≤ 0) :
    nearest t position = 0 := by
  rw [nearest]
  omega

/-- No text stands between a position and the place that is nearest to it. -/
theorem take_toNat (t : Text) (position : Int) :
    t.take position.toNat = t.take (nearest t position) := by
  rw [List.take_eq_take_iff, nearest]
  omega

/-- A place lies inside a string if a tracker does behind the text in front of it. -/
theorem insideAt_eq (mode : EscapeMode) (t : Text) (position : Int) :
    insideAt mode t position = (start.advance mode (t.take (nearest t position))).inside := by
  rw [insideAt]
  split_ifs with h
  · rw [nearest_of_nonpos h]
    rfl
  · rw [endsInside_eq, take_toNat]

/-- The mask has an entry for every place, and the entry of the place that is nearest to a position
is what reading the text up to the position finds. Both say whether a string is open for a tracker
behind the text in front of that place, which knows of escaping what looking back from there would
find : a backslash right in front, or an odd run of them. -/
theorem mask_agrees (mode : EscapeMode) (t : Text) (position : Int) :
    (mask mode t).length = t.length + 1 ∧
      (mask mode t)[nearest t position]? = some (insideAt mode t position) ∧
      insideAt mode t position = (start.advance mode (t.take (nearest t position))).inside ∧
      (start.advance mode (t.take (nearest t position))).escaped =
        mode.escapes (t.take (nearest t position)).reverse := by
  have hinside := insideAt_eq mode t position
  refine ⟨length_mask mode t, ?_, hinside, escaped_advance _⟩
  rw [getElem?_mask mode (nearest_le t position), hinside]

/-- A position behind the end of a text that ends inside a string lies inside it. -/
example : insideAt .parity "'a\\\\\\'".toList 99 = true ∧
    insideAt .single "'a\\\\'".toList 4 = true ∧ insideAt .single "'a'".toList (-1) = false := by
  refine ⟨?_, ?_, ?_⟩ <;> cbv

end CollectionShell.Quotation
