import CollectionShell.Proofs.Operation.Acceptance
import CollectionShell.Proofs.Operation.Values

/-!
# The two escape modes

The modes may disagree on where strings begin and end, but not in a text that one of them
accepts as a call : its segments are JSON, so the mode that counts backslashes finds the same
segments and the same closing parenthesis (`CallText.parity`). Hence that mode accepts every
text that the other accepts, as the same call (`parse_parity_of_single`). A string that ends with
a backslash shows that it accepts more.
-/

namespace CollectionShell.Operation

/-- Segments that one mode finds and that decode are found by the mode that counts
backslashes. -/
theorem splitArguments_parity {mode : EscapeMode} {blob : Text} {segments : List Text}
    {vs : List Json} (hs : splitArguments mode blob = .ok segments)
    (hv : decodeArguments segments = .ok vs) :
    splitArguments .parity blob = .ok segments ∧ Enclosed .parity blob := by
  have hsep := separated_of_split hs
  have hwhole := hsep.whole hv
  exact ⟨split_of_separated hsep hwhole, (Neutral.separated hsep hwhole).enclosed⟩

/-- What one mode reads as a call, the mode that counts backslashes reads as the same call. -/
theorem CallText.parity {mode : EscapeMode} {t : Text} {c : Call} (h : CallText mode t c) :
    CallText .parity t c := by
  obtain ⟨b₀, b₁, b₂, b₃, b₄, blob, front, hb, hfront, ht, hx, hy, -, ⟨segments, hs, hv⟩, hm⟩ := h
  obtain ⟨hsplit, henclosed⟩ := splitArguments_parity hs hv
  have hord : Ordinary front := by
    rw [hfront]
    have := ordinary_front (ordinary_name hb.1 hb.2.1 hx) (ordinary_name hb.2.2.1 hb.2.2.2.1 hy)
    simpa using this
  have hmatch := (matchingParen_front b₄ hord).2 henclosed
  rw [← ht] at hmatch
  exact ⟨b₀, b₁, b₂, b₃, b₄, blob, front, hb, hfront, ht, hx, hy, hmatch,
    ⟨segments, hsplit, hv⟩, hm⟩

/-- A call that is accepted where one backslash escapes is accepted where backslashes are
counted. -/
theorem parse_parity_of_single (raw : Text) (c : Call) (h : parse .single raw = .ok c) :
    parse .parity raw = .ok c :=
  parse_of_callText (callText_of_parse h).parity

theorem parse_parity_of_single_find :
    parse .single "us.find(\x7b\"a\":\")\\\"(\"\x7d)".toList =
        .ok ⟨['u', 's'], ['f', 'i', 'n', 'd'], [.object [([97], .string [41, 34, 40])]]⟩ ∧
      parse .parity "us.find(\x7b\"a\":\")\\\"(\"\x7d)".toList =
        .ok ⟨['u', 's'], ['f', 'i', 'n', 'd'], [.object [([97], .string [41, 34, 40])]]⟩ :=
  ⟨by cbv, parse_parity_of_single _ _ (by cbv)⟩

example : (parse .parity "us.find(\x7b\"a\":\"\\\\\"\x7d)".toList).isOk = true ∧
    (parse .single "us.find(\x7b\"a\":\"\\\\\"\x7d)".toList).isOk = false := by
  constructor <;> cbv

end CollectionShell.Operation
