import CollectionShell.Proofs.Operation.Acceptance
import CollectionShell.Proofs.Operation.Separated

/-!
# Parsing by place

A parse may look at every character, every entry of the mask and every token by its place, and look
back for backslashes from the place of a character. A place that does not exist is then an error of
its own, beside the errors that say why a text is no call (`Failure`).

`parseByPlace` reads so, and never fails for a place (`parseByPlace_eq`) : a mask has one entry more
than its text has characters, what is looked back at stands in front of a character that is there,
and the tokens of a layout are counted before they are looked at. The one lemma behind it is
`readPlaces_eq` : what is read place by place is what is known of the text up to there.
-/

namespace CollectionShell

/-- The element at a place of a list. -/
def elementAt {α : Type} (xs : List α) (i : Nat) : Except IndexError α :=
  match xs[i]? with
  | some x => .ok x
  | none => .error .outOfRange

theorem elementAt_append_cons {α : Type} (xs ys : List α) (x : α) :
    elementAt (xs ++ x :: ys) xs.length = .ok x := by
  simp [elementAt]

namespace Operation

open Quotation (Tracker isEscaped mask getElem?_mask escaped_advance)

/-! ## Reading characters by place -/

section

variable {σ : Type} (step : σ → Char → Nat → Except IndexError σ) (init : σ) (text : Text)

/-- What is known of the first characters of a text, each read by its place. -/
def readPlaces : Nat → Except IndexError σ
  | 0 => .ok init
  | i + 1 => do
    let s ← readPlaces i
    let c ← elementAt text i
    step s c i

variable {step init text}

/-- If every step finds what it needs, the characters are read one after another. -/
theorem readPlaces_eq (state : Text → σ) (hinit : state [] = init)
    (hstep : ∀ p c q, text = p ++ c :: q →
      step (state p) c p.length = .ok (state (p ++ [c]))) :
    readPlaces step init text text.length = .ok (state text) := by
  have hread : ∀ p q, text = p ++ q → readPlaces step init text p.length = .ok (state p) := by
    intro p
    induction p using List.reverseRecOn with
    | nil => exact fun q _ => congrArg Except.ok hinit.symm
    | append_singleton p c ih =>
      intro q hq
      rw [List.append_assoc, List.singleton_append] at hq
      rw [List.length_append, List.length_singleton, readPlaces, ih _ hq, ← hstep p c q hq, hq]
      change elementAt (p ++ c :: q) p.length >>= _ = _
      rw [elementAt_append_cons]
      rfl
  exact hread text [] (List.append_nil text).symm

end

/-! ## Strings by place -/

/-- The string that is open behind one more character, which looks back from its place, and the
entries of the mask up to there. -/
def maskStep (mode : EscapeMode) (text : Text) (s : Option QuoteMark × List Bool) (c : Char)
    (i : Nat) : Except IndexError (Option QuoteMark × List Bool) := do
  let escaped ← isEscaped mode text i
  return (QuoteMark.next s.1 c escaped, s.2 ++ [s.1.isSome])

/-- The mask of a text, looking back by place. -/
def maskByPlace (mode : EscapeMode) (text : Text) : Except IndexError (List Bool) :=
  (readPlaces (maskStep mode text) (none, []) text text.length).map fun s => s.2 ++ [s.1.isSome]

variable {mode : EscapeMode}

/-- Looking back from a place in a text finds what stands in front of it. -/
theorem isEscaped_append_cons (p q : Text) (c : Char) :
    isEscaped mode (p ++ c :: q) p.length = .ok (mode.escapes p.reverse) := by
  cases p with
  | nil => exact congrArg Except.ok (Quotation.escapes_nil mode).symm
  | cons d p =>
    have hle : (((d :: p).length : Nat) : Int).toNat ≤ (d :: p ++ c :: q).length := by simp
    rw [isEscaped, if_neg (by simp), if_pos hle, Int.toNat_natCast, List.take_left' rfl]

/-- The mask lists the marks of the characters and whether the text ends inside a string. -/
theorem mask_eq_marks (t : Text) :
    mask mode t = (Tracker.start.marks mode t).map Marked.quoted ++
      [(Tracker.start.advance mode t).inside] := by
  have hscan : ∀ s : Tracker, (List.scanl (Tracker.step mode) s t).map Tracker.inside =
      (s.marks mode t).map Marked.quoted ++ [(s.advance mode t).inside] := by
    induction t with
    | nil => exact fun s => rfl
    | cons c t ih =>
      intro s
      rw [List.scanl_cons, List.map_cons, ih]
      rfl
  rw [Quotation.mask_eq_scanl, hscan]

theorem maskByPlace_eq (text : Text) : maskByPlace mode text = .ok (mask mode text) := by
  have hread : readPlaces (maskStep mode text) (none, []) text text.length =
      .ok ((Tracker.start.advance mode text).opened,
        (Tracker.start.marks mode text).map Marked.quoted) := by
    refine readPlaces_eq (fun p => ((Tracker.start.advance mode p).opened,
      (Tracker.start.marks mode p).map Marked.quoted)) rfl ?_
    rintro p c q rfl
    rw [maskStep, isEscaped_append_cons, ← escaped_advance, Tracker.advance_append,
      Tracker.marks_append, List.map_append]
    rfl
  rw [maskByPlace, hread, mask_eq_marks]
  rfl

/-! ## Tokens by place -/

/-- The scan behind one more character, marked by the entry of the mask at its place. -/
def scanStep (mask : List Bool) (s : Scan) (c : Char) (i : Nat) : Except IndexError Scan := do
  let quoted ← elementAt mask i
  return s.step ⟨c, quoted⟩

/-- Why reading by place has no result. -/
inductive Failure
  /-- A place does not exist. -/
  | place (e : IndexError)
  /-- The text is no call. -/
  | refused (e : ParseError)
  deriving DecidableEq, Repr

/-- The tokens of an operation, with the mask read by place. -/
def tokenizeByPlace (mode : EscapeMode) (text : Text) : Except Failure (List Text) := do
  let mask ← (maskByPlace mode text).mapError .place
  let s ← (readPlaces (scanStep mask) Scan.start text text.length).mapError .place
  let unterminated ← (elementAt mask text.length).mapError .place
  (s.finish unterminated).mapError .refused

theorem tokenizeByPlace_eq (text : Text) :
    tokenizeByPlace mode text = (tokenize mode text).mapError .refused := by
  have hentry : ∀ p q : Text, text = p ++ q →
      elementAt (mask mode text) p.length = .ok (Tracker.start.advance mode p).inside := by
    rintro p q rfl
    rw [elementAt, getElem?_mask mode (by simp), List.take_left' rfl]
  have hread : readPlaces (scanStep (mask mode text)) Scan.start text text.length =
      .ok (Scan.start.run (Tracker.start.marks mode text)) := by
    refine readPlaces_eq (fun p => Scan.start.run (Tracker.start.marks mode p)) rfl ?_
    intro p c q hp
    rw [scanStep, hentry p (c :: q) hp, Tracker.marks_append, Scan.run_append]
    rfl
  rw [tokenizeByPlace, maskByPlace_eq, tokenize_eq]
  change (readPlaces (scanStep (mask mode text)) Scan.start text text.length).mapError _ >>= _ = _
  rw [hread]
  change (elementAt (mask mode text) text.length).mapError _ >>= _ = _
  rw [hentry text [] (List.append_nil text).symm]
  rfl

/-- Fails unless the token at a position is the character. -/
def expectAt (tokens : List Text) (position : Nat) (c : Char) : Except Failure Unit := do
  let found ← (elementAt tokens position).mapError .place
  if found = [c] then return ()
  else .error (.refused (.structural tokens (.misplaced c position found)))

/-- The layout of tokens that are looked at by position, once they are counted. -/
def layoutByPlace (tokens : List Text) : Except Failure Layout := do
  if tokens.length = 6 then
    expectAt tokens 1 '.'
    expectAt tokens 3 '('
    expectAt tokens 5 ')'
    let collection ← (elementAt tokens 0).mapError .place
    let method ← (elementAt tokens 2).mapError .place
    let blob ← (elementAt tokens 4).mapError .place
    return ⟨collection, method, blob⟩
  else .error (.refused (.structural tokens .wrongCount))

theorem expectAt_eq {tokens : List Text} {position : Nat} {found : Text} (c : Char)
    (h : tokens[position]? = some found) :
    expectAt tokens position c = if found = [c] then .ok ()
      else .error (.refused (.structural tokens (.misplaced c position found))) := by
  rw [expectAt, elementAt, h]
  rfl

theorem layoutByPlace_eq (tokens : List Text) :
    layoutByPlace tokens = (layout tokens).mapError .refused := by
  unfold layout
  split
  · next x point y opening blob close =>
    have hlen : [x, point, y, opening, blob, close].length = 6 := rfl
    rw [layoutByPlace, if_pos hlen, expectAt_eq '.' rfl, expectAt_eq '(' rfl, expectAt_eq ')' rfl]
    dsimp only
    rw [ite_not, ite_not, ite_not]
    split_ifs <;> rfl
  · next hne =>
    have hlen : tokens.length ≠ 6 := by
      intro hlen
      match tokens, hlen with
      | [x, point, y, opening, blob, close], _ => exact hne x point y opening blob close rfl
    rw [layoutByPlace, if_neg hlen]
    rfl

/-! ## Segments by place -/

/-- The splitter behind one more character, which looks back from its place. -/
def splitterStep (mode : EscapeMode) (blob : Text) (s : Splitter) (c : Char) (i : Nat) :
    Except IndexError Splitter := do
  let escaped ← isEscaped mode blob i
  return { s with strings := ⟨s.strings.opened, escaped⟩ }.step mode c

/-- The segments of a text of arguments, looking back by place. -/
def splitByPlace (mode : EscapeMode) (blob : Text) : Except Failure (List Text) := do
  let s ← (readPlaces (splitterStep mode blob) Splitter.start blob blob.length).mapError .place
  (s.finish blob).mapError .refused

theorem splitByPlace_eq (blob : Text) :
    splitByPlace mode blob = (splitArguments mode blob).mapError .refused := by
  have hread : readPlaces (splitterStep mode blob) Splitter.start blob blob.length =
      .ok (Splitter.start.run mode blob) := by
    refine readPlaces_eq (Splitter.start.run mode) rfl ?_
    rintro p c q rfl
    have hstrings : (Splitter.start.run mode p).strings = Tracker.start.advance mode p :=
      Splitter.strings_run mode Splitter.start p
    rw [splitterStep, isEscaped_append_cons, ← escaped_advance, Splitter.run_append, ← hstrings]
    rfl
  rw [splitByPlace, hread]
  rfl

/-! ## A parse by place -/

/-- A shell word without its enclosing quotes, its first and its last character being looked at by
place if there are two. -/
def cleanByPlace (raw : Text) : Except IndexError Text := do
  let t := Text.trim raw
  if 1 < t.length then
    let first ← elementAt t 0
    let last ← elementAt t (t.length - 1)
    if isShellQuote first ∧ first = last then return (t.drop 1).dropLast else return t
  else return t

theorem cleanByPlace_eq (raw : Text) : cleanByPlace raw = .ok (clean raw) := by
  rw [cleanByPlace, clean]
  generalize Text.trim raw = t
  rcases t with - | ⟨q, - | ⟨c, rest⟩⟩
  · rfl
  · rfl
  · obtain ⟨d, hd⟩ : ∃ d, (c :: rest).getLast? = some d := ⟨_, List.getLast?_cons⟩
    have hlast : elementAt (q :: c :: rest) ((q :: c :: rest).length - 1) = .ok d := by
      rw [elementAt, ← List.getLast?_eq_getElem?, List.getLast?_cons_cons, hd]
    have hiff : isShellQuote q = true ∧ some d = some q ↔ isShellQuote q = true ∧ q = d := by
      rw [Option.some_inj, eq_comm (a := d)]
    change (if 1 < (q :: c :: rest).length then
      elementAt (q :: c :: rest) ((q :: c :: rest).length - 1) >>= _ else _) = _
    rw [if_pos (by simp), hlast, unquoted, hd]
    change (if isShellQuote q = true ∧ q = d then _ else _) = _
    by_cases h : isShellQuote q = true ∧ q = d
    · rw [if_pos h, if_pos (hiff.2 h)]
      rfl
    · rw [if_neg h, if_neg fun h' => h (hiff.1 h')]
      rfl

/-- The call in a shell word, with everything that is looked at by place read so. -/
def parseByPlace (mode : EscapeMode) (raw : Text) : Except Failure Call := do
  let text ← (cleanByPlace raw).mapError .place
  let tokens ← tokenizeByPlace mode text
  let l ← layoutByPlace tokens
  let segments ← splitByPlace mode l.blob
  let arguments ← (decodeArguments segments).mapError .refused
  let _ ← (validate l.collection l.method arguments).mapError .refused
  return ⟨l.collection, l.method, arguments⟩

/-- Reading by place gives what the parse gives, and never fails for a place. -/
theorem parseByPlace_eq (raw : Text) :
    parseByPlace mode raw = (parse mode raw).mapError .refused := by
  rw [parseByPlace, cleanByPlace_eq, parse_eq]
  simp only [tokenizeByPlace_eq, layoutByPlace_eq, splitByPlace_eq, mapError_bind, callOfTokens]
  rfl

end Operation

end CollectionShell
