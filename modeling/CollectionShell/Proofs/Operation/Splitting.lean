import CollectionShell.Proofs.Operation.Values
import Mathlib

/-!
# Segments and the elements of an array

The text between parentheses is read as the text between brackets would be. If brackets around
it make the text of an array, it is cut into the texts of the elements. If it is cut into
segments that decode, then it is these segments with commas between them, and brackets around
the segments with commas between them make the text of an array of their values
(`splitArguments_iff_array`). Only the brackets may nest too deep, and do not if the values nest
no deeper than `NestedWithin` says.
-/

namespace CollectionShell.Operation

open Json

/-! ## Nesting -/

/-- The text is that of a value, and no value in it, those behind repeated names included,
stands inside more than `n` arrays and objects. -/
def NestedWithin (n : Nat) (t : Text) : Prop := ∃ v, Written (n + 1) t v

theorem nestedWithin_iff {n : Nat} {t : Text} (ht : Text.trim t = t) :
    NestedWithin n t ↔ ∃ v, decodeWithin (n + 1) t = .ok v := by
  rw [← ht]
  exact exists_congr fun v => decodeWithin_trim.symm

theorem NestedWithin.written {n k : Nat} {t : Text} {v : Json} (ht : NestedWithin n t)
    (hv : Written k t v) : Written (n + 1) t v := by
  obtain ⟨w, hw⟩ := ht
  rwa [hv.unique hw]

/-! ## From elements to segments -/

/-- The texts of the elements are separated segments. -/
theorem exists_separated_of_items {n : Nat} {t : Text} {vs : List Json}
    (h : ItemsText (Written n) t vs) :
    ∃ segments, Separated t segments ∧ List.Forall₂ (Written n) segments vs := by
  induction h with
  | @last t s v hv hs =>
    exact ⟨[t], .last Text.blank_nil (blank_of_space hs) (whole_written hv).trim_eq,
      .cons hv .nil⟩
  | @more t s p rest v vs hv hs hp _ ih =>
    obtain ⟨segments, hsep, hvs⟩ := ih
    refine ⟨t :: segments, ?_, .cons hv hvs⟩
    have := Separated.comma Text.blank_nil (blank_of_space hs) (whole_written hv).trim_eq
      (hsep.pad (blank_of_space hp))
    simpa using this

theorem exists_separated_of_container {n : Nat} {t : Text} {vs : List Json}
    (h : ContainerText (Written n) t vs) :
    ∃ segments, Separated t segments ∧ List.Forall₂ (Written n) segments vs := by
  cases h with
  | empty hs => exact ⟨[], .blank (blank_of_space hs), .nil⟩
  | items hp hi =>
    obtain ⟨segments, hsep, hvs⟩ := exists_separated_of_items hi
    exact ⟨segments, hsep.pad (blank_of_space hp), hvs⟩

/-! ## From segments to elements -/

/-- Segments that decode have values nested as deep as the segments are. -/
theorem forall_written {n : Nat} {segments : List Text} {vs : List Json}
    (ht : ∀ s ∈ segments, Text.trim s = s) (hn : ∀ s ∈ segments, NestedWithin n s)
    (hv : decodeArguments segments = .ok vs) : List.Forall₂ (Written (n + 1)) segments vs := by
  have h := decodeArguments_eq_ok.1 hv
  clear hv
  induction h with
  | nil => exact .nil
  | cons hv _ ih =>
    rw [List.forall_mem_cons] at ht hn
    rw [ht.1] at hv
    exact .cons (hn.1.written hv) (ih ht.2 hn.2)

theorem decodeArgument_bracketed {t : Text} {vs : List Json} :
    decodeArgument ('[' :: t ++ [']']) = .ok (.array vs) ↔
      ContainerText (Written (maxDepth - 1)) t vs := by
  rw [decodeArgument_eq_ok, Text.trim_between (by decide) (by decide)]
  exact written_bracketed

/-- The cut agrees with the grammar of arrays. A text that makes an array between brackets is cut
into segments that decode to the elements. A text that is cut into segments that decode is these
segments with commas and blanks between them, and joined by commas they make the array of their
values between brackets, if these nest at most 89 deep. -/
theorem splitArguments_iff_array (mode : EscapeMode) (blob : Text) :
    (∀ vs, decodeArgument ('[' :: blob ++ [']']) = .ok (.array vs) →
      ∃ segments, splitArguments .parity blob = .ok segments ∧
        decodeArguments segments = .ok vs) ∧
    ∀ segments vs, splitArguments mode blob = .ok segments → decodeArguments segments = .ok vs →
      Separated blob segments ∧
        ((∀ s ∈ segments, NestedWithin 89 s) →
          decodeArgument ('[' :: Text.joinWith [','] segments ++ [']']) = .ok (.array vs)) := by
  refine ⟨fun vs h => ?_, fun segments vs hs hv => ?_⟩
  · obtain ⟨segments, hsep, hvs⟩ := exists_separated_of_container (decodeArgument_bracketed.1 h)
    have hdecode := decodeArguments_of_forall (Nat.sub_le maxDepth 1) hvs
    exact ⟨segments, split_of_separated hsep (hsep.whole hdecode), hdecode⟩
  · have hsep := separated_of_split hs
    refine ⟨hsep, fun hn => ?_⟩
    have hvs := forall_written hsep.trim_eq hn hv
    have hdeep : 89 + 1 ≤ maxDepth - 1 := by decide
    exact decodeArgument_bracketed.2
      (containerText_joinWith (hvs.imp fun _ _ => Written.mono hdeep))

theorem splitArguments_iff_array_strings :
    (∃ segments, splitArguments .parity "[1], \"],[\" ".toList = .ok segments ∧
      decodeArguments segments = .ok [.array [.int 1], .string [93, 44, 91]]) ∧
    Separated " [1],\"],[\" , ".toList ["[1]".toList, "\"],[\"".toList] ∧
    decodeArgument ('[' :: Text.joinWith [','] ["[1]".toList, "\"],[\"".toList] ++ [']']) =
      .ok (.array [.array [.int 1], .string [93, 44, 91]]) := by
  have h := (splitArguments_iff_array .single " [1],\"],[\" , ".toList).2
    ["[1]".toList, "\"],[\"".toList] [.array [.int 1], .string [93, 44, 91]] (by cbv) (by cbv)
  refine ⟨(splitArguments_iff_array .single _).1 _ (by cbv), h.1, h.2 ?_⟩
  have hn : ∀ t v, Text.trim t = t → decodeWithin 90 t = .ok v → NestedWithin 89 t :=
    fun t v ht hv => (nestedWithin_iff ht).2 ⟨v, hv⟩
  rw [List.forall_mem_cons, List.forall_mem_singleton]
  exact ⟨hn _ (.array [.int 1]) (by cbv) (by cbv), hn _ (.string [93, 44, 91]) (by cbv) (by cbv)⟩

end CollectionShell.Operation
