import CollectionShell.Proofs.Json.WrittenBack
import CollectionShell.Proofs.Operation.Diagnostics
import CollectionShell.Proofs.Operation.StrictJson

/-!
# Infinities in arguments

The words of infinities are refused wherever they stand, and a decoded value may hold an infinity
all the same, for a number literal whose double overflows is none of these words
(`infinity_of_literal`). `Finiteness` says when that is so, and what it costs : the value is then
written back as a text that does not decode, while every finite value is written back as one that
does. It holds of what a segment decodes to, and so of the arguments of every call that is parsed
(`finiteness_of_decode`).
-/

namespace CollectionShell.Operation

open Json

/-- What is known of the infinities in the value of a text. -/
structure Finiteness (t : Text) (v : Json) : Prop where
  /-- They come from the literals of the text that the value keeps, if these are no integers and
  `Double.overflow` or above. -/
  literals : ∃ d, Document t d ∧ d.denoted = v ∧
    (v.isFinite = true ↔ ∀ l, d.Keeps l → l.IsInteger ∨ l.magnitude < Double.overflow)
  /-- Without them the value is written back as a text that decodes, and to the value itself
  unless it holds a lone surrogate. -/
  accepted : v.isFinite = true → ∀ indent, ∃ w,
    decodeArgument (indented indent 0 v) = .ok w ∧ (v.isWritable = true → w = v)
  /-- With one of them it is written back as a text that does not decode. -/
  refused : v.isFinite = false → ∀ indent, ∃ c, decodeArgument (indented indent 0 v) =
    .error (.argument (indented indent 0 v) (.constant c))

theorem finiteness_of_written {t : Text} {v : Json} (h : Written maxDepth t v) :
    Finiteness t v := by
  refine ⟨?_, fun hf indent => ?_, fun hf indent => ?_⟩
  · obtain ⟨d, hd, -, rfl⟩ := h.exists_derived
    exact ⟨d, ⟨[], t, [], space_nil, space_nil, hd, by simp⟩, rfl, isFinite_denoted⟩
  · obtain ⟨w, hw, hwv⟩ := h.exists_indented hf indent 0
    refine ⟨w, decodeArgument_eq_ok.2 ?_, hwv⟩
    rwa [(whole_written hw).trim_eq]
  · obtain ⟨c, hc⟩ := (h.refused hf indent 0).decodeWithin
    refine ⟨c, decodeArgument_eq_error.2 ⟨.constant c, ?_, ?_⟩⟩
    · rw [trim_indented hf, decode_eq, hc]
    · rw [trim_indented hf]

/-- What a text decodes to as a segment, and every argument of the call it is parsed to, holds the
infinities of its literals and no others, and is written back as a text that decodes exactly if it
holds none. -/
theorem finiteness_of_decode (mode : EscapeMode) (t : Text) :
    (∀ v, decodeArgument t = .ok v → Finiteness (Text.trim t) v) ∧
    ∀ c, parse mode t = .ok c → ∀ v ∈ c.arguments, ∃ s, s <:+: clean t ∧ Finiteness s v := by
  refine ⟨fun v h => finiteness_of_written (decodeArgument_eq_ok.1 h), fun c h v hv => ?_⟩
  rw [parse_eq, bind_eq_ok] at h
  obtain ⟨ts, ht, hc⟩ := h
  obtain ⟨blob, hts, ⟨segments, hs, hdecode⟩, -⟩ := callOfTokens_eq_ok.1 hc
  obtain ⟨s, hmem, hw⟩ := exists_segment hdecode v hv
  have hl : layout ts = .ok ⟨c.collection, c.method, blob⟩ := layout_eq_ok.2 hts
  have hsegment := (separated_of_split hs).isInfix hmem
  exact ⟨Text.trim s, ((trim_isInfix s).trans hsegment).trans (isInfix_of_layout ht hl).2.2,
    finiteness_of_written hw⟩

theorem finiteness_of_decode_overwritten :
    Finiteness "\x7b\"a\":1e999,\"a\":-0.0e5\x7d".toList
      (.object [([0x61], .float (.zero true))]) ∧
    ∃ s, s <:+: clean "us.find(\x7b\"a\":[-1e999]\x7d)".toList ∧
      Finiteness s (.object [([0x61], .array [.float (.infinite true)])]) := by
  have htrim : Text.trim "\x7b\"a\":1e999,\"a\":-0.0e5\x7d".toList =
      "\x7b\"a\":1e999,\"a\":-0.0e5\x7d".toList := by decide
  constructor
  · rw [← htrim]
    exact (finiteness_of_decode .single _).1 _ (by cbv)
  · exact (finiteness_of_decode .single _).2 ⟨['u', 's'], "find".toList, [_]⟩ (by cbv) _
      List.mem_cons_self

/-- A literal whose double overflows is decoded to an infinity, alone and inside the argument of a
call, and the infinity is written as a word that does not decode. -/
theorem infinity_of_literal :
    decodeArgument "1e999".toList = .ok (.float (.infinite false)) ∧
    parse .single "us.find(\x7b\"a\":[-1e999]\x7d)".toList = .ok ⟨['u', 's'], "find".toList,
      [.object [([0x61], .array [.float (.infinite true)])]]⟩ ∧
    decodeArgument (indented 2 0 (.float (.infinite false))) =
      .error (.argument "Infinity".toList (.constant .infinity)) := by
  refine ⟨?_, ?_, ?_⟩ <;> cbv

end CollectionShell.Operation
