import CollectionShell.Proofs.Json.Depth
import CollectionShell.Proofs.Json.Magnitude
import CollectionShell.Proofs.Json.Tree
import CollectionShell.Proofs.Operation.Values
import Mathlib

/-!
# Arguments are strict JSON

A segment decodes exactly if it is a JSON document once it is trimmed, and its value is the one
that the document denotes (`decodeArgument_eq_ok_iff_document`). Two limits stand beside the
grammar : that of the digits of an integer, which is part of the statement, and that of the depth,
which a segment that opens few arrays and objects never meets, be it read or refused.
-/

namespace CollectionShell.Operation

open Json

theorem decodeArgument_eq_error {s : Text} {e : ParseError} :
    decodeArgument s = .error e ↔
      ∃ fault, decode (Text.trim s) = .error fault ∧ e = .argument (Text.trim s) fault := by
  rw [decodeArgument]
  cases decode (Text.trim s) with
  | error fault => simp [Except.mapError, eq_comm]
  | ok v => simp [Except.mapError]

/-- Below the limit of depth a text is read exactly if it is a document whose integers have no more
digits than are allowed. -/
theorem decode_eq_ok_iff_document {n : Nat} (hn : n < maxDepth) {t : Text} (h : OpensAtMost n t)
    {v : Json} :
    decode t = .ok v ↔ ∃ d, Document t d ∧ d.IntegersWithin maxDigits ∧ d.denoted = v := by
  constructor
  · intro hv
    rw [decode_eq, decodeWithin_eq_ok_iff_document] at hv
    obtain ⟨d, hd, ⟨-, hi⟩, rfl⟩ := hv
    exact ⟨d, hd, hi, rfl⟩
  · rintro ⟨d, hd, hi, rfl⟩
    -- a reader that goes as deep as the document reads it, and so does any other beyond `n`
    have hdeep : decodeWithin (max d.height (n + 1)) t = .ok d.denoted :=
      decodeWithin_eq_ok_iff_document.2 ⟨d, hd, ⟨Nat.le_max_left _ _, hi⟩, rfl⟩
    rw [decode_eq, h.decodeWithin_eq hn, ← h.decodeWithin_eq (Nat.le_max_right d.height (n + 1)),
      hdeep]

/-- In a segment that opens no more than 90 arrays and objects, what decodes are the documents of
JSON whose integers have 4300 digits at most, the value is what the document denotes, its number
literals with a fraction or an exponent rounded to the nearest double, and an error names the
trimmed segment. -/
theorem decodeArgument_eq_ok_iff_document (s : Text) (h : OpensAtMost 90 (Text.trim s)) :
    (∀ v, decodeArgument s = .ok v ↔
      ∃ d, Document (Text.trim s) d ∧ d.IntegersWithin 4300 ∧ d.denoted = v) ∧
    (∀ d l, Document (Text.trim s) d → d.Holds l →
      Double.Rounds l.negative l.magnitude l.toDouble) ∧
    ∀ e, decodeArgument s = .error e → ∃ fault, e = .argument (Text.trim s) fault := by
  refine ⟨fun v => ?_, fun _ l _ _ => l.rounds_toDouble, fun e he => ?_⟩
  · rw [decodeArgument_eq_ok, ← decodeWithin_trim, ← decode_eq]
    exact decode_eq_ok_iff_document (by decide) h
  · obtain ⟨fault, -, hfault⟩ := decodeArgument_eq_error.1 he
    exact ⟨fault, hfault⟩

theorem decodeArgument_eq_ok_iff_document_repeated :
    ∃ s d, s = "\x0b\x7b\"\\ud83d\\ude00\":[1e-400],\"b\":\"\\ude00\\ud83d\",".toList ++
        "\"\\ud83d\\ude00\" : -0 \x7d\n".toList ∧
      OpensAtMost 90 (Text.trim s) ∧ Document (Text.trim s) d ∧ d.IntegersWithin 4300 ∧
      d.denoted = .object [([0x1f600], .int 0), ([0x62], .string [0xde00, 0xd83d])] := by
  have h := opensAtMost_of_count (n := 90) (t := Text.trim
    ("\x0b\x7b\"\\ud83d\\ude00\":[1e-400],\"b\":\"\\ude00\\ud83d\",".toList ++
      "\"\\ud83d\\ude00\" : -0 \x7d\n".toList)) (by decide)
  obtain ⟨d, hd⟩ := ((decodeArgument_eq_ok_iff_document _ h).1
    (.object [([0x1f600], .int 0), ([0x62], .string [0xde00, 0xd83d])])).1 (by cbv)
  exact ⟨_, d, rfl, h, hd⟩

end CollectionShell.Operation
