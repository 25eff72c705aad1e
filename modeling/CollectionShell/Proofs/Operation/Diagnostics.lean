import CollectionShell.Proofs.Operation.Imbalance
import CollectionShell.Proofs.Operation.Places
import CollectionShell.Proofs.Operation.Spelling
import CollectionShell.Proofs.Operation.Values

/-!
# What parse errors say

Every error of a parse is about the text that was parsed (`FoundIn`). The tokens that it shows spell
the text, the other pieces that it shows are found in it, and the numbers that it gives are those of
the segments between the parentheses, which decoded if it is about the arguments. Each step of the
parse has a lemma for its errors, since what a step shows went through the cuts and trims of the
steps in front of it : a segment is found in the text between the parentheses
(`Separated.isInfix`), and that is a token (`isInfix_of_layout`).

A parse that fails has left a record of the word and one of the word without its quotes, and one of
the tokens if there are any (`length_records`). Nothing but these errors comes of a parse, for a
place that does not exist is never looked at (`parse_failures`).
-/

namespace CollectionShell.Operation

open Text (Blank)

variable {mode : EscapeMode} {t : Text} {ts : List Text} {l : Layout}

/-- The text is laid out as a call and has the segments between its parentheses. -/
def SegmentsOf (mode : EscapeMode) (t : Text) (segments : List Text) : Prop :=
  ∃ ts l, tokenize mode t = .ok ts ∧ layout ts = .ok l ∧ splitArguments mode l.blob = .ok segments

/-- What an error says is true of the text. -/
def FoundIn (mode : EscapeMode) (t : Text) : ParseError → Prop
  | .structural tokens _ => Spelled t tokens
  | .unbalanced i => i.text <:+: t
  | .argument segment _ => segment <:+: t
  | .identifier _ value => value <:+: t
  | .unsupported method => method <:+: t
  | .arity _ _ actual => ∃ segments, SegmentsOf mode t segments ∧ actual = segments.length
  | .argumentKind _ index _ actual => ∃ segments vs, SegmentsOf mode t segments ∧
      decodeArguments segments = .ok vs ∧ index < segments.length ∧
      ∃ v, vs[index]? = some v ∧ OfKind v actual

/-! ## Pieces of the text -/

theorem trim_isInfix (s : Text) : Text.trim s <:+: s := by
  obtain ⟨p, q, -, -, hs⟩ := Text.exists_blank_append_trim s
  exact ⟨p, q, hs.symm⟩

/-- A segment is found in the text that it was cut from. -/
theorem Separated.isInfix {b s : Text} {segments : List Text} (h : Separated b segments)
    (hs : s ∈ segments) : s <:+: b := by
  induction h with
  | blank => cases hs
  | @last p t q _ _ _ =>
    obtain rfl := List.mem_singleton.1 hs
    exact ⟨p, q, rfl⟩
  | @comma p t q rest segments _ _ _ _ ih =>
    rcases List.mem_cons.1 hs with rfl | hs
    · exact ⟨p, q ++ ',' :: rest, by simp⟩
    · exact (ih hs).trans ⟨p ++ t ++ q ++ [','], [], by simp⟩

/-- The names of a call and the text between its parentheses are found in its text. -/
theorem isInfix_of_layout (ht : tokenize mode t = .ok ts) (hl : layout ts = .ok l) :
    l.collection <:+: t ∧ l.method <:+: t ∧ l.blob <:+: t := by
  have hspelled := spelled_of_tokenized (tokenized_of_tokenize ht)
  rw [layout_eq_ok.1 hl] at hspelled
  exact ⟨hspelled.isInfix (by simp), hspelled.isInfix (by simp), hspelled.isInfix (by simp)⟩

/-! ## Errors of the steps -/

theorem foundIn_of_tokenize {e : ParseError} (h : tokenize mode t = .error e) :
    FoundIn mode t e := by
  obtain ⟨front, -, -, -, rfl, -, -, -, rfl⟩ := exists_of_tokenize_error h
  exact (List.suffix_append front _).isInfix

theorem foundIn_of_layout {e : ParseError} (ht : tokenize mode t = .ok ts)
    (h : layout ts = .error e) : FoundIn mode t e := by
  obtain ⟨flaw, rfl⟩ := exists_of_layout_error h
  exact spelled_of_tokenized (tokenized_of_tokenize ht)

theorem foundIn_of_split {e : ParseError} (ht : tokenize mode t = .ok ts)
    (hl : layout ts = .ok l) (h : splitArguments mode l.blob = .error e) : FoundIn mode t e := by
  obtain ⟨braces, brackets, rfl, -⟩ := exists_of_split_error h
  exact (isInfix_of_layout ht hl).2.2

theorem foundIn_of_decode {segments : List Text} {e : ParseError} (ht : tokenize mode t = .ok ts)
    (hl : layout ts = .ok l) (hs : splitArguments mode l.blob = .ok segments)
    (h : decodeArguments segments = .error e) : FoundIn mode t e := by
  obtain ⟨s, hmem, fault, rfl⟩ := exists_of_decodeArguments_error h
  have hsegment := (separated_of_split hs).isInfix hmem
  exact ((trim_isInfix s).trans hsegment).trans (isInfix_of_layout ht hl).2.2

theorem foundIn_of_validate {segments : List Text} {vs : List Json} {e : ParseError}
    (ht : tokenize mode t = .ok ts) (hl : layout ts = .ok l)
    (hs : splitArguments mode l.blob = .ok segments) (hv : decodeArguments segments = .ok vs)
    (h : validate l.collection l.method vs = .error e) : FoundIn mode t e := by
  have hsegments : SegmentsOf mode t segments := ⟨ts, l, ht, hl, hs⟩
  have hlen : segments.length = vs.length := (decodeArguments_eq_ok.1 hv).length_eq
  obtain ⟨hcollection, hmethod, -⟩ := isInfix_of_layout ht hl
  obtain ⟨s, hviolation⟩ := exists_violation_of_validate h
  cases hviolation with
  | collection => exact hcollection
  | method => exact hmethod
  | unknown => exact hmethod
  | tooFew => exact ⟨segments, hsegments, hlen.symm⟩
  | tooMany => exact ⟨segments, hsegments, hlen.symm⟩
  | argument _ _ _ v _ _ _ _ hfirst _ hkind =>
    refine ⟨segments, vs, hsegments, hv, ?_, v, hfirst.value, hkind⟩
    rw [hlen]
    exact (List.getElem?_eq_some_iff.1 hfirst.value).1

/-- Every error of a parse is about the text that was parsed. -/
theorem foundIn_of_parse {raw : Text} {e : ParseError} (h : parse mode raw = .error e) :
    FoundIn mode (clean raw) e := by
  rw [parse_eq, bind_eq_error] at h
  rcases h with h | ⟨ts, ht, h⟩
  · exact foundIn_of_tokenize h
  simp only [callOfTokens, bind_eq_error] at h
  rcases h with h | ⟨l, hl, h | ⟨segments, hs, h | ⟨vs, hv, h | ⟨m, -, h⟩⟩⟩⟩
  · exact foundIn_of_layout ht h
  · exact foundIn_of_split ht hl h
  · exact foundIn_of_decode ht hl hs h
  · exact foundIn_of_validate ht hl hs hv h
  · cases h

/-! ## Records -/

/-- A parse that fails leaves two records, and a third if the text has tokens. -/
theorem length_records {raw : Text} {e : ParseError} (h : parse mode raw = .error e) :
    (parseRun mode raw).records.length =
      if (tokenize mode (clean raw)).isOk then 3 else 2 := by
  rw [parse_eq, bind_eq_error] at h
  rw [ParseRun.records, List.length_map]
  rcases h with ht | ⟨ts, ht, hc⟩
  · have hrun : parseRun mode raw = ⟨[.given raw, .cleaned (clean raw)], .error e⟩ := by
      simp only [parseRun, ht]
    rw [hrun, ht]
    rfl
  · have hrun : parseRun mode raw =
        ⟨[.given raw, .cleaned (clean raw), .tokens ts], .error e⟩ := by
      simp only [parseRun, ht, hc]
    rw [hrun, ht]
    rfl

/-- A parse with everything read by place never fails for a place : what it gives is the call or the
error that the parse gives. The error is true of the text that was parsed, and a parse that fails
leaves two records if the text has no tokens and three if it has. -/
theorem parse_failures (mode : EscapeMode) (raw : Text) :
    parseByPlace mode raw = (parse mode raw).mapError .refused ∧
      ∀ e, parse mode raw = .error e →
        FoundIn mode (clean raw) e ∧
          (parseRun mode raw).records.length =
            if (tokenize mode (clean raw)).isOk then 3 else 2 :=
  ⟨parseByPlace_eq raw, fun _ h => ⟨foundIn_of_parse h, length_records h⟩⟩

theorem parse_failures_find :
    (parseByPlace .single "us.find(\x7b\x7d, [1], )".toList =
        .error (.refused (.argumentKind .find 1 .projection .sequence)) ∧
      FoundIn .single (clean "us.find(\x7b\x7d, [1], )".toList)
        (.argumentKind .find 1 .projection .sequence) ∧
      (parseRun .single "us.find(\x7b\x7d, [1], )".toList).records.length = 3) ∧
    FoundIn .parity (clean "' us . f(\"\\\\\") . ( '".toList)
        (.unbalanced ⟨"( ".toList, 0, 0, 1, false⟩) ∧
      (parseRun .parity "' us . f(\"\\\\\") . ( '".toList).records.length = 2 := by
  have hparse : parse .single "us.find(\x7b\x7d, [1], )".toList =
      .error (.argumentKind .find 1 .projection .sequence) := by cbv
  have hparse' : parse .parity "' us . f(\"\\\\\") . ( '".toList =
      .error (.unbalanced ⟨"( ".toList, 0, 0, 1, false⟩) := by cbv
  have htokens : tokenize .single (clean "us.find(\x7b\x7d, [1], )".toList) =
      .ok [['u', 's'], ['.'], "find".toList, ['('], "\x7b\x7d, [1], ".toList, [')']] := by cbv
  have htokens' : tokenize .parity (clean "' us . f(\"\\\\\") . ( '".toList) =
      .error (.unbalanced ⟨"( ".toList, 0, 0, 1, false⟩) := by cbv
  obtain ⟨hplace, herror⟩ := parse_failures .single "us.find(\x7b\x7d, [1], )".toList
  obtain ⟨hfound, hrecords⟩ := herror _ hparse
  obtain ⟨hfound', hrecords'⟩ := (parse_failures .parity _).2 _ hparse'
  rw [hparse] at hplace
  rw [htokens] at hrecords
  rw [htokens'] at hrecords'
  exact ⟨⟨hplace, hfound, hrecords⟩, hfound', hrecords'⟩

end CollectionShell.Operation
