import CollectionShell.Operation.Parse
import CollectionShell.Proofs.Json.Grammar
import CollectionShell.Proofs.Operation.Separated
import Mathlib.Data.List.Forall2

/-!
# Values between parentheses

The text of a JSON value is a segment that the cut leaves whole (`whole_written`) : in the
mode that counts backslashes, what JSON takes for a string is what the splitter takes for one,
outside of strings the grammar of JSON closes what it opens, and no comma stands outside of
braces and brackets. No blank of any kind stands at its ends, so a segment decodes exactly if
it is the text of a value once it is trimmed (`decodeArgument_eq_ok`).
-/

namespace CollectionShell.Operation

open Json
open Quotation (Tracker Within insideString)
open Text (Blank)

/-! ## Strings -/

theorem ne_of_hexDigit {c : Char} {n : Nat} (h : hexDigit? c = some n) :
    c ≠ '\x22' ∧ c ≠ '\\' := by
  constructor
  · rintro rfl
    cases h
  · rintro rfl
    cases h

theorem ne_of_codeUnit {h₁ h₂ h₃ h₄ : Char} {p : CodePoint} (h : codeUnit? h₁ h₂ h₃ h₄ = some p) :
    ∀ c ∈ [h₁, h₂, h₃, h₄], c ≠ '\x22' ∧ c ≠ '\\' := by
  simp only [codeUnit?, Option.bind_eq_bind, Option.bind_eq_some_iff] at h
  obtain ⟨a, ha, b, hb, c, hc, d, hd, -⟩ := h
  simp only [List.forall_mem_cons]
  exact ⟨ne_of_hexDigit ha, ne_of_hexDigit hb, ne_of_hexDigit hc, ne_of_hexDigit hd, nofun⟩

variable {mode : EscapeMode}

/-- Four hexadecimal digits keep a string open. -/
theorem within_codeUnit {h₁ h₂ h₃ h₄ : Char} {p : CodePoint} {t : Text} {s : Tracker}
    (hp : codeUnit? h₁ h₂ h₃ h₄ = some p) (h : Within mode insideString t s) :
    Within mode insideString (h₁ :: h₂ :: h₃ :: h₄ :: t) s := by
  have hne := ne_of_codeUnit hp
  simp only [List.forall_mem_cons] at hne
  obtain ⟨h₁, h₂, h₃, h₄, -⟩ := hne
  exact .keep h₁.1 h₁.2 (.keep h₂.1 h₂.2 (.keep h₃.1 h₃.2 (.keep h₄.1 h₄.2 h)))

/-- Where backslashes are counted, a literal is open up to its closing mark. -/
theorem within_of_units {b : Text} {ps : List CodePoint} (h : UnitsText b ps) :
    Within .parity insideString b insideString := by
  induction h with
  | nil => exact .nil
  | plain hq hb _ _ ih => exact ih.keep hq hb
  | escape _ _ ih => exact ih.escape
  | unit hp _ ih => exact (within_codeUnit hp ih).escape

/-! ## Neutral values -/

theorem blank_of_space {s : Text} (h : Space s) : Blank s := by
  intro c hc
  have := h c hc
  rw [isSpace_eq_true] at this
  rcases this with rfl | rfl | rfl | rfl <;> decide

theorem neutral_space {n : Int} {s : Text} (h : Space s) : Neutral mode n s :=
  .blank (blank_of_space h)

section

variable {α : Type} {p : Text → α → Prop}

/-- Items with commas between them are not cut inside braces or brackets. -/
theorem neutral_items (h : ∀ t x, p t x → Neutral mode 0 t) {t : Text} {xs : List α}
    (ht : ItemsText p t xs) : Neutral mode 1 t := by
  induction ht with
  | last hx hs => exact (h _ _ hx).deeper.append (neutral_space hs)
  | more hx hs hp _ ih =>
    have hitem := (h _ _ hx).deeper.append (neutral_space hs)
    have hcomma : Neutral mode 1 [','] := .comma (Int.le_refl 1)
    exact (hitem.append (hcomma.append (neutral_space hp))).append ih

theorem neutral_container (h : ∀ t x, p t x → Neutral mode 0 t) {t : Text} {xs : List α}
    (ht : ContainerText p t xs) : Neutral mode 1 t := by
  cases ht with
  | empty hs => exact neutral_space hs
  | items hp hi => exact (neutral_space hp).append (neutral_items h hi)

end

/-- Outside braces and brackets a member would not be cut either. -/
theorem neutral_member {k s p t : Text} (hk : Neutral mode 0 k) (hs : Space s) (hp : Space p)
    (ht : Neutral mode 0 t) : Neutral mode 0 (k ++ s ++ ':' :: p ++ t) := by
  have hcolon : Neutral mode 0 [':'] := .ordinary (ordinary_singleton.2 rfl)
  have hname := hk.append (neutral_space hs)
  exact (hname.append (hcolon.append (neutral_space hp))).append ht

theorem neutral_string {u : Text} {ps : List CodePoint} (h : StringText u ps) :
    Neutral .parity 0 u := by
  cases h with
  | mk hb => exact .literal (within_of_units hb)

theorem visible_of_number {c : Char} (h : isNumberChar c = true) : Text.isBlank c = false := by
  simp only [isNumberChar, Bool.or_eq_true, beq_iff_eq] at h
  rcases h with ((((h | rfl) | rfl) | rfl) | rfl) | rfl
  · exact Text.isBlank_of_isAlphanum (by simp [Char.isAlphanum, h])
  all_goals decide

/-- A word or a number has neither special characters nor blanks. -/
theorem ordinary_scalar {t : Text} {v : Json} (h : ScalarText t v) :
    Ordinary t ∧ ∀ c ∈ t, Text.isBlank c = false := by
  cases h with
  | word hw =>
    have hletter : ∀ c ∈ t, c.isAlphanum = true := by
      rcases mem_words hw with ⟨rfl, rfl⟩ | ⟨rfl, rfl⟩ | ⟨rfl, rfl⟩ <;>
        exact List.all_eq_true.1 rfl
    exact ⟨ordinary_of_forall (by decide) hletter,
      fun c hc => Text.isBlank_of_isAlphanum (hletter c hc)⟩
  | number hl =>
    have hchar := NumberLiteral.isNumberChar_of_mem hl
    exact ⟨ordinary_of_forall (by decide) hchar, fun c hc => visible_of_number (hchar c hc)⟩

theorem whole_scalar {mode : EscapeMode} {t : Text} {v : Json} (h : ScalarText t v) :
    Whole mode t := by
  obtain ⟨ho, hv⟩ := ordinary_scalar h
  obtain ⟨c, r, rfl, -⟩ := h.exists_cons
  exact ⟨.ordinary ho, Text.trim_eq_self (fun c hc => hv c (List.mem_of_head? hc))
    fun c hc => hv c (List.mem_of_getLast? hc), by simp⟩

/-- A neutral text between visible characters is whole. -/
theorem Neutral.whole {mode : EscapeMode} {c d : Char} {t : Text}
    (h : Neutral mode 0 (c :: t ++ [d])) (hc : Text.isBlank c = false)
    (hd : Text.isBlank d = false) : Whole mode (c :: t ++ [d]) :=
  ⟨h, Text.trim_between hc hd t, by simp⟩

/-- Where backslashes are counted, the text of a value is whole. -/
theorem whole_written {n : Nat} {t : Text} {v : Json} (h : Written n t v) : Whole .parity t := by
  induction n generalizing t v with
  | zero => exact h.elim
  | succ n ih =>
    have hin : ∀ t v, Written n t v → Neutral .parity 0 t := fun t v ht => (ih ht).neutral
    cases h with
    | scalar hv => exact whole_scalar hv
    | string hs =>
      obtain @⟨b, ps, hb⟩ := hs
      exact Neutral.whole (.literal (within_of_units hb)) rfl rfl
    | array hc =>
      exact Neutral.whole (.bracketed (neutral_container hin hc)) rfl rfl
    | object hc =>
      have hm : ∀ t m, MemberText (Written n) t m → Neutral .parity 0 t := by
        rintro t m ⟨hk, hs, hp, hv⟩
        exact neutral_member (neutral_string hk) hs hp (hin _ _ hv)
      exact Neutral.whole (.braced (neutral_container hm hc)) rfl rfl

/-! ## Decoding -/

/-- A trimmed text is read exactly if it is the text of a value. -/
theorem decodeWithin_trim {n : Nat} {t : Text} {v : Json} :
    decodeWithin n (Text.trim t) = .ok v ↔ Written n (Text.trim t) v := by
  rw [decodeWithin_eq_ok]
  constructor
  · rintro ⟨p, u, s, hp, hs, hu, ht⟩
    have htrim : Text.trim t = u := by
      rw [← Text.trim_trim, ht, Text.trim_append_blank (blank_of_space hp) (blank_of_space hs),
        (whole_written hu).trim_eq]
    rwa [htrim]
  · intro h
    exact ⟨[], Text.trim t, [], space_nil, space_nil, h, by simp⟩

/-- A segment decodes exactly if it is the text of a value with blanks around it. -/
theorem decodeArgument_eq_ok {s : Text} {v : Json} :
    decodeArgument s = .ok v ↔ Written maxDepth (Text.trim s) v := by
  rw [← decodeWithin_trim, ← decode_eq, decodeArgument]
  cases decode (Text.trim s) <;> simp [Except.mapError]

theorem decodeArguments_eq_ok {segments : List Text} {vs : List Json} :
    decodeArguments segments = .ok vs ↔
      List.Forall₂ (fun s v => Written maxDepth (Text.trim s) v) segments vs := by
  induction segments generalizing vs with
  | nil =>
    rw [decodeArguments, List.forall₂_nil_left_iff]
    exact ⟨fun h => (Except.ok.inj h).symm, fun h => by rw [h]⟩
  | cons s segments ih =>
    rw [decodeArguments, List.forall₂_cons_left_iff]
    cases hs : decodeArgument s with
    | error e =>
      refine ⟨nofun, ?_⟩
      rintro ⟨v, vs', hv, -⟩
      rw [← decodeArgument_eq_ok, hs] at hv
      cases hv
    | ok v =>
      dsimp only
      rw [map_eq_ok]
      constructor
      · rintro ⟨vs', hvs, rfl⟩
        exact ⟨v, vs', decodeArgument_eq_ok.1 hs, ih.1 hvs, rfl⟩
      · rintro ⟨v', vs', hv, hvs, rfl⟩
        rw [← decodeArgument_eq_ok, hs] at hv
        obtain rfl := Except.ok.inj hv
        exact ⟨vs', ih.2 hvs, rfl⟩

/-- Texts of values decode. -/
theorem decodeArguments_of_forall {n : Nat} (hn : n ≤ maxDepth) {segments : List Text}
    {vs : List Json} (h : List.Forall₂ (Written n) segments vs) :
    decodeArguments segments = .ok vs := by
  refine decodeArguments_eq_ok.2 (h.imp fun s v hv => ?_)
  rw [(whole_written hv).trim_eq]
  exact hv.mono hn

theorem exists_written {segments : List Text} {vs : List Json}
    (h : decodeArguments segments = .ok vs) :
    ∀ s ∈ segments, ∃ v, Written maxDepth (Text.trim s) v := by
  have hs := decodeArguments_eq_ok.1 h
  clear h
  induction hs with
  | nil => exact nofun
  | cons hv _ ih => exact List.forall_mem_cons.2 ⟨⟨_, hv⟩, ih⟩

theorem exists_segment {segments : List Text} {vs : List Json}
    (h : decodeArguments segments = .ok vs) :
    ∀ v ∈ vs, ∃ s ∈ segments, Written maxDepth (Text.trim s) v := by
  have hs := decodeArguments_eq_ok.1 h
  clear h
  induction hs with
  | nil => exact nofun
  | cons hv _ ih =>
    refine List.forall_mem_cons.2 ⟨⟨_, List.mem_cons_self, hv⟩, fun w hw => ?_⟩
    obtain ⟨s, hs, hsw⟩ := ih w hw
    exact ⟨s, List.mem_cons_of_mem _ hs, hsw⟩

/-- Separated segments that decode are whole where backslashes are counted. -/
theorem Separated.whole {blob : Text} {segments : List Text} {vs : List Json}
    (h : Separated blob segments) (hv : decodeArguments segments = .ok vs) :
    ∀ s ∈ segments, Whole .parity s := by
  intro s hs
  obtain ⟨v, hsv⟩ := exists_written hv s hs
  rw [← h.trim_eq s hs]
  exact whole_written hsv

end CollectionShell.Operation
