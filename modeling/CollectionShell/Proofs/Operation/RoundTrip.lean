import CollectionShell.Proofs.Json.Rendering
import CollectionShell.Proofs.Operation.Acceptance
import CollectionShell.Proofs.Operation.Values
import Mathlib.Data.List.Induction

/-!
# Calls written as text

`Call.text` writes a call with its arguments in the compact form, a comma and a blank between
them. A valid call with renderable arguments comes back from its text (`parse_text`) : the
compact form is a whole segment in either mode (`whole_compact`), for the marks in it close
what they open unless one backslash escapes and stands right in front of the last.
-/

namespace CollectionShell.Operation

open Json
open Quotation (Tracker Within insideString)
open Text (Blank)

/-! ## Strings of the compact form -/

/-- Where one backslash escapes, a written code point leaves the literal open, and escapes what
is behind it only if it is a backslash. -/
theorem within_escapedPoint (e : Bool) {p : CodePoint} (h : isCharacter p = true) :
    ∃ e', Within .single ⟨some .quotation, e⟩ (escapedPoint p) ⟨some .quotation, e'⟩ ∧
      (e' = true → p = CodePoint.ofNat 0x5C) := by
  have hescape : Tracker.step .single ⟨some .quotation, e⟩ '\\' = ⟨some .quotation, true⟩ := rfl
  rcases escapedPoint_cases h with ⟨rfl, hp⟩ | ⟨rfl, hp⟩ | ⟨a, b, hp, hu⟩ | ⟨c, hp, -, hq, hb, -⟩
  · refine ⟨false, ?_, nofun⟩
    rw [hp]
    exact .cons rfl (.cons rfl .nil)
  · refine ⟨true, ?_, fun _ => rfl⟩
    rw [hp]
    exact .cons rfl (.cons rfl .nil)
  · refine ⟨false, ?_, nofun⟩
    rw [hp]
    refine .cons rfl ?_
    rw [hescape]
    exact Within.keep (by decide) (by decide) (within_codeUnit hu .nil)
  · refine ⟨false, ?_, nofun⟩
    rw [hp]
    exact Within.keep hq hb .nil

/-- So behind a whole written string something is escaped only if the string ends with a
backslash. -/
theorem exists_within_single {s : List CodePoint} (h : s.all isCharacter = true) :
    ∃ e, Within .single insideString (s.flatMap escapedPoint) ⟨some .quotation, e⟩ ∧
      (e = true → s.getLast? = some (CodePoint.ofNat 0x5C)) := by
  induction s using List.reverseRecOn with
  | nil => exact ⟨false, .nil, nofun⟩
  | append_singleton s p ih =>
    rw [List.all_append, Bool.and_eq_true, List.all_cons, Bool.and_eq_true] at h
    obtain ⟨e, hwithin, -⟩ := ih h.1
    obtain ⟨e', hpoint, hp⟩ := within_escapedPoint e h.2.1
    refine ⟨e', ?_, fun he => ?_⟩
    · rw [List.flatMap_append, List.flatMap_singleton]
      exact hwithin.append hpoint
    · rw [List.getLast?_append, List.getLast?_singleton, Option.some_or, hp he]

/-- The marks around a written string close what they open. -/
theorem within_escapedPoints {mode : EscapeMode} {s : List CodePoint} (h : Quotable mode s) :
    Within mode insideString (s.flatMap escapedPoint) insideString := by
  cases mode with
  | parity => exact within_of_units (legible_escapedPoint.unitsText h.characters)
  | single =>
    obtain ⟨e, hwithin, he⟩ := exists_within_single h.characters
    cases e with
    | false => exact hwithin
    | true => exact absurd (he rfl) (h.closes rfl)

/-! ## Values in the compact form -/

variable {mode : EscapeMode}

theorem neutral_literal {s : List CodePoint} (h : Quotable mode s) :
    Neutral mode 0 (literal escapedPoint s) := .literal (within_escapedPoints h)

theorem neutral_compactMember {m : Name × Json} (hk : Quotable mode m.1)
    (hv : Neutral mode 0 (compact m.2)) : Neutral mode 0 (compactMember m) := by
  have := neutral_member (neutral_literal hk) space_nil space_nil hv
  simpa [compactMember] using this

/-- The compact form of a renderable value is whole. -/
theorem whole_compact {n : Nat} {v : Json} (h : Renderable mode n v) :
    Whole mode (compact v) := by
  induction h with
  | null => exact whole_scalar scalarText_null
  | bool b => exact whole_scalar (scalarText_bool b)
  | int hi => exact whole_scalar (scalarText_ofInt hi)
  | string hs => exact Neutral.whole (neutral_literal hs) rfl rfl
  | @array n xs _ ih =>
    have hitems := containerText_joinWith (forall₂_map_self (p := fun t _ => Whole mode t) ih)
    rw [compact, compactElements_eq]
    exact Neutral.whole (.bracketed (neutral_container (fun t _ ht => ht.neutral) hitems))
      rfl rfl
  | @object n ms _ hk _ ih =>
    have hmembers : ∀ m ∈ ms, Neutral mode 0 (compactMember m) :=
      fun m hm => neutral_compactMember (hk m hm) (ih m hm).neutral
    have hitems := containerText_joinWith
      (forall₂_map_self (p := fun t _ => Neutral mode 0 t) hmembers)
    rw [compact, compactMembers_eq]
    exact Neutral.whole (.braced (neutral_container (fun _ _ ht => ht) hitems)) rfl rfl

/-! ## Calls -/

/-- A call as text : its names, a point between them, and its arguments in the compact form
between parentheses, with a comma and a blank between neighbours. -/
def Call.text (c : Call) : Text :=
  c.collection ++ '.' :: c.method ++
    '(' :: Text.joinWith [',', ' '] (c.arguments.map compact) ++ [')']

theorem separated_joinWith {ts : List Text} (h : ∀ t ∈ ts, Text.trim t = t) :
    Separated (Text.joinWith [',', ' '] ts) ts := by
  induction ts with
  | nil => exact .blank Text.blank_nil
  | cons t ts ih =>
    rw [List.forall_mem_cons] at h
    cases ts with
    | nil =>
      have := Separated.last Text.blank_nil Text.blank_nil h.1
      simpa using this
    | cons u ts =>
      have hblank : Blank [' '] := List.forall_mem_singleton.2 rfl
      have := Separated.comma Text.blank_nil Text.blank_nil h.1 ((ih h.2).pad hblank)
      simpa using this

/-- A valid method has a name. -/
theorem isName_method {x y : Text} {vs : List Json} {m : Method} (h : validate x y vs = .ok m) :
    isName y = true := by
  obtain ⟨-, rfl, -⟩ := validate_eq_ok.1 h
  cases m <;> decide

/-- A text between a character that is neither blank nor a shell quote and one that is not blank
is clean. -/
theorem clean_eq_self {c d : Char} (hc : Text.isBlank c = false) (hq : isShellQuote c = false)
    (hd : Text.isBlank d = false) (t : Text) : clean (c :: t ++ [d]) = c :: t ++ [d] := by
  rw [clean, Text.trim_between hc hd, unquoted.eq_def]
  split
  · next q _ _ heq =>
    obtain rfl := (List.cons.inj heq).1
    rw [if_neg (by simp [hq])]
  · rfl

/-- A name starts with a character that is neither blank nor a shell quote. -/
theorem exists_of_isName {t : Text} (h : isName t = true) :
    ∃ c r, t = c :: r ∧ Text.isBlank c = false ∧ isShellQuote c = false := by
  cases t with
  | nil => cases h
  | cons c r =>
    have hid := continues_of_mem (isName_iff.1 h).1 c List.mem_cons_self
    refine ⟨c, r, rfl, not_blank_of_continues hid, ?_⟩
    have hne : ∀ d, continuesIdentifier d = false → c ≠ d := by
      rintro d hd rfl
      rw [hid] at hd
      cases hd
    simp [isShellQuote, hne '\x27' rfl, hne '\x22' rfl, hne '\x60' rfl]

theorem clean_text {c : Call} (h : isName c.collection = true) : clean c.text = c.text := by
  obtain ⟨d, r, hd, hb, hq⟩ := exists_of_isName h
  have := clean_eq_self hb hq (d := ')') rfl
    (r ++ '.' :: c.method ++ '(' :: Text.joinWith [',', ' '] (c.arguments.map compact))
  rw [Call.text, hd]
  simpa using this

/-- A valid call with a name for its collection and renderable arguments is read back from its
text. -/
theorem parse_text (mode : EscapeMode) (c : Call) (m : Method)
    (hname : isName c.collection = true)
    (hvalid : validate c.collection c.method c.arguments = .ok m)
    (hargs : ∀ v ∈ c.arguments, Renderable mode 90 v) : parse mode c.text = .ok c := by
  have hwhole : ∀ t ∈ c.arguments.map compact, Whole mode t := by
    intro t ht
    obtain ⟨v, hv, rfl⟩ := List.mem_map.1 ht
    exact whole_compact (hargs v hv)
  have hsep := separated_joinWith fun t ht => (hwhole t ht).trim_eq
  have hdecode : decodeArguments (c.arguments.map compact) = .ok c.arguments :=
    decodeArguments_of_forall (by decide) (forall₂_map_self fun v hv => (hargs v hv).written)
  have hmethod := isName_method hvalid
  have hfront := ordinary_front (ordinary_identifier (isName_iff.1 hname).1)
    (ordinary_identifier (isName_iff.1 hmethod).1)
  have hmatch := (matchingParen_front [] hfront).2 (Neutral.separated hsep hwhole).enclosed
  refine parse_of_callText ?_
  rw [clean_text hname]
  exact ⟨[], [], [], [], [], _, _, ⟨nofun, nofun, nofun, nofun, nofun⟩, by simp, rfl, hname,
    hmethod, hmatch, ⟨_, split_of_separated hsep hwhole, hdecode⟩, m, hvalid⟩

theorem parse_text_insertOne :
    parse .single (Call.text ⟨['u', 's'], "insertOne".toList,
        [.object [([34, 41], .array [.int (-7), .string [92, 34, 44, 39]])]]⟩) =
      .ok ⟨['u', 's'], "insertOne".toList,
        [.object [([34, 41], .array [.int (-7), .string [92, 34, 44, 39]])]]⟩ ∧
    parse .parity (Call.text ⟨['u', 's'], "find".toList, [.object [([92], .null)]]⟩) =
      .ok ⟨['u', 's'], "find".toList, [.object [([92], .null)]]⟩ := by
  constructor
  · refine parse_text .single _ .insertOne (by decide) (by cbv) ?_
    rw [List.forall_mem_singleton]
    refine .object (by decide) ?_ ?_
    · rw [List.forall_mem_singleton]
      exact ⟨by decide, by decide⟩
    · rw [List.forall_mem_singleton]
      refine .array (List.forall_mem_cons.2 ⟨.int (by decide), ?_⟩)
      rw [List.forall_mem_singleton]
      exact .string ⟨by decide, by decide⟩
  · refine parse_text .parity _ .find (by decide) (by cbv) ?_
    rw [List.forall_mem_singleton]
    refine .object (by decide) ?_ ?_
    · rw [List.forall_mem_singleton]
      exact ⟨by decide, by decide⟩
    · rw [List.forall_mem_singleton]
      exact .null

end CollectionShell.Operation
