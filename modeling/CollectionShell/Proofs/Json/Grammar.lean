import CollectionShell.Json.Decode
import CollectionShell.Proofs.Json.Literal
import CollectionShell.Proofs.Text.Basic
import Mathlib.Data.List.Forall2

/-!
# The grammar of JSON

`Written n t v` says that the text is derived by the grammar of JSON as the value, with no
value inside `n` or more arrays and objects. Only the four blanks of JSON stand between
tokens, and only behind and in front of the structural characters; the words for numbers that
are no JSON are not derived.

A reader is related to a part of the grammar by `Reads` : what it takes off the front of a text
is derived, and a derived text is taken as a whole if no number goes on behind it. The relation
passes from the reader of inner values to the reader of containers (`Reads.valueWith`), so by
induction on the depth `value` reads what is `Written` (`reads_value`), and
`decodeWithin_eq_ok` says so of whole texts.
-/

namespace CollectionShell.Json

/-! ## The grammar -/

/-- The text is made of the blanks of JSON. -/
def Space (t : Text) : Prop := ∀ c ∈ t, isSpace c = true

/-- The text of a word or a number. An integer has no more digits than are allowed. -/
inductive ScalarText : Text → Json → Prop
  | word {w : Text} {v : Json} : (w, .ok v) ∈ words → ScalarText w v
  | number {l : NumberLiteral} {t : Text} {v : Json} : NumberLiteral.LiteralText l t →
      l.value = .ok v → ScalarText t v

/-- The text of one or more items with commas between them, and blanks around the commas and
behind the last item. -/
inductive ItemsText {α : Type} (item : Text → α → Prop) : Text → List α → Prop
  | last {t s : Text} {x : α} : item t x → Space s → ItemsText item (t ++ s) [x]
  | more {t s p rest : Text} {x : α} {xs : List α} : item t x → Space s → Space p →
      ItemsText item rest xs → ItemsText item (t ++ s ++ ',' :: p ++ rest) (x :: xs)

/-- The text of a container between its opening and its closing character. -/
inductive ContainerText {α : Type} (item : Text → α → Prop) : Text → List α → Prop
  | empty {s : Text} : Space s → ContainerText item s []
  | items {p t : Text} {xs : List α} : Space p → ItemsText item t xs →
      ContainerText item (p ++ t) xs

/-- The text of a member : a name, a colon and a value, with blanks around the colon. -/
inductive MemberText (value : Text → Json → Prop) : Text → Name × Json → Prop
  | mk {k s p t : Text} {name : Name} {v : Json} : StringText k name → Space s → Space p →
      value t v → MemberText value (k ++ s ++ ':' :: p ++ t) (name, v)

/-- The text of a value whose elements and members hold `inner` values. -/
inductive ValueText (inner : Text → Json → Prop) : Text → Json → Prop
  | scalar {t : Text} {v : Json} : ScalarText t v → ValueText inner t v
  | string {t : Text} {ps : List CodePoint} : StringText t ps → ValueText inner t (.string ps)
  | array {t : Text} {xs : List Json} : ContainerText inner t xs →
      ValueText inner ('[' :: t ++ [']']) (.array xs)
  | object {t : Text} {ms : List (Name × Json)} : ContainerText (MemberText inner) t ms →
      ValueText inner ('\x7b' :: t ++ ['\x7d']) (.object (memberwise ms))

/-- The text is derived as the value, with no value inside `n` or more arrays and objects. -/
def Written : Nat → Text → Json → Prop
  | 0, _, _ => False
  | n + 1, t, v => ValueText (Written n) t v

/-! ## Deeper derivations -/

section

variable {α : Type} {p q : Text → α → Prop}

theorem ItemsText.mono (h : ∀ t x, p t x → q t x) {t : Text} {xs : List α}
    (ht : ItemsText p t xs) : ItemsText q t xs := by
  induction ht with
  | last hx hs => exact .last (h _ _ hx) hs
  | more hx hs hp _ ih => exact .more (h _ _ hx) hs hp ih

theorem ContainerText.mono (h : ∀ t x, p t x → q t x) {t : Text} {xs : List α}
    (ht : ContainerText p t xs) : ContainerText q t xs := by
  cases ht with
  | empty hs => exact .empty hs
  | items hp hi => exact .items hp (hi.mono h)

theorem MemberText.mono {p q : Text → Json → Prop} (h : ∀ t x, p t x → q t x) {t : Text}
    {m : Name × Json} (ht : MemberText p t m) : MemberText q t m := by
  cases ht with
  | mk hk hs hp hv => exact .mk hk hs hp (h _ _ hv)

theorem ValueText.mono {p q : Text → Json → Prop} (h : ∀ t x, p t x → q t x) {t : Text}
    {v : Json} (ht : ValueText p t v) : ValueText q t v := by
  cases ht with
  | scalar hv => exact .scalar hv
  | string hs => exact .string hs
  | array hc => exact .array (hc.mono h)
  | object hc => exact .object (hc.mono fun _ _ => MemberText.mono h)

end

theorem Written.succ {n : Nat} {t : Text} {v : Json} (h : Written n t v) :
    Written (n + 1) t v := by
  induction n generalizing t v with
  | zero => exact h.elim
  | succ n ih => exact ValueText.mono (fun _ _ => ih) h

theorem Written.mono {n k : Nat} (hnk : n ≤ k) {t : Text} {v : Json} (h : Written n t v) :
    Written k t v := by
  induction hnk with
  | refl => exact h
  | step _ ih => exact ih.succ

/-! ## Joined items -/

section

variable {α : Type} {p : Text → α → Prop} {ts : List Text} {xs : List α} {gap last : Text}

theorem space_nil : Space [] := nofun

theorem exists_itemsText_joinWith (hg : Space gap) (hl : Space last) {t : Text} {x : α}
    (hx : p t x) (h : List.Forall₂ p ts xs) :
    ∃ u, Text.joinWith [','] ((t :: ts).map (gap ++ ·)) ++ last = gap ++ u ∧
      ItemsText p u (x :: xs) := by
  induction h generalizing t x with
  | nil => exact ⟨t ++ last, by simp, .last hx hl⟩
  | @cons t' x' ts xs hx' _ ih =>
    obtain ⟨u, hu, hitems⟩ := ih hx'
    refine ⟨t ++ [] ++ ',' :: gap ++ u, ?_, .more hx space_nil hg hitems⟩
    rw [List.map_cons, List.map_cons, Text.joinWith_cons_cons, ← List.map_cons,
      List.append_assoc, hu]
    simp

/-- Items behind gaps of blanks, with commas between them and blanks behind the last one, fill
a container. -/
theorem containerText_spread (hg : Space gap) (hl : Space last) (h : List.Forall₂ p ts xs) :
    ContainerText p (Text.joinWith [','] (ts.map (gap ++ ·)) ++ last) xs := by
  cases h with
  | nil => exact .empty hl
  | cons hx h =>
    obtain ⟨u, hu, hitems⟩ := exists_itemsText_joinWith hg hl hx h
    rw [hu]
    exact .items hg hitems

/-- Items joined by commas fill a container. -/
theorem containerText_joinWith (h : List.Forall₂ p ts xs) :
    ContainerText p (Text.joinWith [','] ts) xs := by
  have := containerText_spread space_nil space_nil h
  simpa using this

end

/-! ## Blanks -/

theorem exists_skipSpace (t : Text) : ∃ s, Space s ∧ t = s ++ skipSpace t :=
  ⟨t.takeWhile isSpace, fun _ hc => List.mem_takeWhile_imp hc,
    List.takeWhile_append_dropWhile.symm⟩

theorem skipSpace_append {s r : Text} (hs : Space s)
    (hr : ∀ c, r.head? = some c → isSpace c = false) : skipSpace (s ++ r) = r := by
  rw [skipSpace, List.dropWhile_append_of_pos hs]
  cases r with
  | nil => rfl
  | cons c r => exact List.dropWhile_cons_of_neg (by simp [hr c rfl])

theorem skipSpace_append_cons {s r : Text} {c : Char} (hs : Space s) (hc : isSpace c = false) :
    skipSpace (s ++ c :: r) = c :: r :=
  skipSpace_append hs fun d hd => by
    obtain rfl := Option.some.inj hd
    exact hc

theorem isSpace_eq_true {c : Char} :
    isSpace c = true ↔ c = ' ' ∨ c = '\t' ∨ c = '\n' ∨ c = '\x0d' := by
  simp [isSpace, or_assoc]

theorem endsNumber_append {s r : Text} (hs : Space s) (hr : EndsNumber r) :
    EndsNumber (s ++ r) := by
  cases s with
  | nil => exact hr
  | cons c s =>
    have hc := hs c List.mem_cons_self
    rw [isSpace_eq_true] at hc
    refine endsNumber_cons ?_
    rcases hc with rfl | rfl | rfl | rfl <;> decide

/-! ## Readers -/

/-- The character may stand at the front of a value or a member : it is neither a blank nor the
end of a container nor a byte order mark. -/
def isOpener (c : Char) : Bool := !isSpace c && c != ']' && c != '\x7d' && c != '\ufeff'

/-- The reader takes off the front of a text what the grammar derives. -/
structure Reads {α : Type} (item : Text → Reading α) (p : Text → α → Prop) : Prop where
  /-- What is taken off is derived. -/
  sound : ∀ {t r : Text} {x : α}, item t = .ok (x, r) → ∃ u, p u x ∧ t = u ++ r
  /-- What is derived is taken off. -/
  complete : ∀ {u r : Text} {x : α}, p u x → EndsNumber r → item (u ++ r) = .ok (x, r)
  /-- What is derived does not start like a blank or the end of a container. -/
  opener : ∀ {u : Text} {x : α}, p u x → ∃ c t, u = c :: t ∧ isOpener c = true

section

variable {α : Type} {item : Text → Reading α} {p : Text → α → Prop} {close : Char}

theorem exists_of_itemsUntil (h : Reads item p) {fuel : Nat} {t r : Text} {xs : List α}
    (ht : itemsUntil close item fuel t = .ok (xs, r)) :
    ∃ u, ItemsText p u xs ∧ t = u ++ close :: r := by
  induction fuel generalizing t xs with
  | zero => cases ht
  | succ fuel ih =>
    rw [itemsUntil] at ht
    cases hx : item t with
    | error e => simp [hx] at ht
    | ok xr =>
      obtain ⟨x, rest⟩ := xr
      obtain ⟨u, hu, rfl⟩ := h.sound hx
      obtain ⟨s, hs, hrest⟩ := exists_skipSpace rest
      rw [hx] at ht
      dsimp only at ht
      cases hsk : skipSpace rest with
      | nil => simp [hsk, flawAt] at ht
      | cons c more =>
        rw [hsk] at ht hrest
        dsimp only at ht
        split_ifs at ht with hc hcomma
        · obtain ⟨rfl, rfl⟩ := Prod.mk.inj (Except.ok.inj ht)
          exact ⟨u ++ s, .last hu hs, by rw [hrest, hc, List.append_assoc]⟩
        · obtain ⟨⟨xs', r'⟩, hxs, heq⟩ := map_eq_ok.1 ht
          obtain ⟨rfl, rfl⟩ := Prod.mk.inj heq
          obtain ⟨u', hu', hmore⟩ := ih hxs
          obtain ⟨s', hs', hsk'⟩ := exists_skipSpace more
          refine ⟨_, .more hu hs hs' hu', ?_⟩
          rw [hrest, hcomma, hsk', hmore]
          simp
        · cases ht

/-- The characters that close a container. -/
def IsCloser (c : Char) : Prop := c = ']' ∨ c = '\x7d'

theorem IsCloser.not_space (h : IsCloser close) : isSpace close = false := by
  rcases h with rfl | rfl <;> rfl

theorem IsCloser.endsNumber (h : IsCloser close) {r : Text} : EndsNumber (close :: r) := by
  refine endsNumber_cons ?_
  rcases h with rfl | rfl <;> decide

theorem IsCloser.not_opener (h : IsCloser close) : isOpener close = false := by
  rcases h with rfl | rfl <;> rfl

theorem not_space_of_opener {c : Char} (h : isOpener c = true) : isSpace c = false := by
  simp only [isOpener, Bool.and_eq_true, Bool.not_eq_true'] at h
  exact h.1.1.1

theorem ItemsText.opener (h : Reads item p) {u : Text} {xs : List α} (hu : ItemsText p u xs) :
    ∃ c t, u = c :: t ∧ isOpener c = true := by
  cases hu with
  | last hx =>
    obtain ⟨c, t, rfl, hc⟩ := h.opener hx
    exact ⟨c, _, rfl, hc⟩
  | more hx =>
    obtain ⟨c, t, rfl, hc⟩ := h.opener hx
    exact ⟨c, _, rfl, hc⟩

theorem ItemsText.length_le (h : Reads item p) {u : Text} {xs : List α}
    (hu : ItemsText p u xs) : xs.length ≤ u.length := by
  induction hu with
  | last hx =>
    obtain ⟨c, t, rfl, -⟩ := h.opener hx
    simp
  | more _ _ _ _ ih =>
    simp only [List.length_append, List.length_cons]
    omega

theorem itemsUntil_append (h : Reads item p) (hclose : IsCloser close) {u r : Text} {xs : List α}
    (hu : ItemsText p u xs) {fuel : Nat} (hfuel : xs.length ≤ fuel) :
    itemsUntil close item fuel (u ++ close :: r) = .ok (xs, r) := by
  induction hu generalizing fuel with
  | @last t s x hx hs =>
    obtain ⟨fuel, rfl⟩ : ∃ k, fuel = k + 1 := ⟨fuel - 1, by simp at hfuel; omega⟩
    have hitem := h.complete hx (endsNumber_append hs hclose.endsNumber (r := close :: r))
    rw [List.append_assoc, itemsUntil, hitem]
    simp only [skipSpace_append_cons hs hclose.not_space, if_true]
  | @more t s q rest x xs hx hs hq hrest ih =>
    obtain ⟨fuel, rfl⟩ : ∃ k, fuel = k + 1 := ⟨fuel - 1, by simp at hfuel; omega⟩
    have hmore := ih (Nat.le_of_succ_le_succ hfuel)
    have hsplit : t ++ s ++ ',' :: q ++ rest ++ close :: r =
        t ++ (s ++ ',' :: (q ++ (rest ++ close :: r))) := by simp
    have hcomma : EndsNumber (',' :: (q ++ (rest ++ close :: r))) :=
      endsNumber_cons (by decide)
    have hitem := h.complete hx (endsNumber_append hs hcomma)
    have hne : ',' ≠ close := by rcases hclose with rfl | rfl <;> decide
    have hskip : skipSpace (q ++ (rest ++ close :: r)) = rest ++ close :: r := by
      obtain ⟨c, t', rfl, hc⟩ := hrest.opener h
      exact skipSpace_append_cons hq (not_space_of_opener hc)
    rw [hsplit, itemsUntil, hitem]
    simp only [skipSpace_append_cons hs (show isSpace ',' = false from rfl), if_neg hne, if_true,
      hskip, hmore]
    rfl

/-- A container is read behind its opening character. -/
theorem exists_of_container (h : Reads item p) {t r : Text} {xs : List α}
    (ht : container close item t = .ok (xs, r)) :
    ∃ u, ContainerText p u xs ∧ t = u ++ close :: r := by
  obtain ⟨s, hs, hst⟩ := exists_skipSpace t
  rw [container] at ht
  split_ifs at ht with hc
  · obtain ⟨rfl, rfl⟩ := Prod.mk.inj (Except.ok.inj ht)
    refine ⟨s, .empty hs, ?_⟩
    cases hsk : skipSpace t with
    | nil => simp [hsk] at hc
    | cons c more =>
      rw [hsk] at hc hst
      obtain rfl := Option.some.inj hc
      exact hst
  · obtain ⟨u, hu, hsk⟩ := exists_of_itemsUntil h ht
    exact ⟨s ++ u, .items hs hu, by rw [hst, hsk, List.append_assoc]⟩

theorem container_append (h : Reads item p) (hclose : IsCloser close) {u r : Text} {xs : List α}
    (hu : ContainerText p u xs) : container close item (u ++ close :: r) = .ok (xs, r) := by
  cases hu with
  | empty hs =>
    rw [container, skipSpace_append_cons hs hclose.not_space]
    exact if_pos rfl
  | @items q t xs hq ht =>
    have hlen := ht.length_le h
    obtain ⟨c, t', rfl, hc⟩ := ht.opener h
    have hskip : skipSpace (q ++ (c :: t') ++ close :: r) = c :: t' ++ close :: r := by
      rw [List.append_assoc]
      exact skipSpace_append_cons hq (not_space_of_opener hc)
    have hne : ¬(c :: t' ++ close :: r).head? = some close := by
      intro heq
      obtain rfl := Option.some.inj heq
      rw [hclose.not_opener] at hc
      cases hc
    rw [container, hskip, if_neg hne, itemsUntil_append h hclose ht]
    simp only [List.length_append, List.length_cons] at hlen ⊢
    omega

end

/-! ## Members -/

theorem StringText.exists_cons {u : Text} {ps : List CodePoint} (h : StringText u ps) :
    ∃ t, u = '\x22' :: t := by
  cases h with
  | mk => exact ⟨_, rfl⟩

theorem scanString_append {u t r : Text} {ps : List CodePoint} (h : StringText ('\x22' :: u) ps)
    (ht : t = u ++ r) : scanString t = .ok (ps, r) :=
  scanString_eq_ok.2 ⟨_, h, by rw [ht]; rfl⟩

section

variable {value : Text → Reading Json} {p : Text → Json → Prop}

theorem exists_of_member (h : Reads value p) {t r : Text} {m : Name × Json}
    (ht : member value t = .ok (m, r)) : ∃ u, MemberText p u m ∧ t = u ++ r := by
  cases t with
  | nil => cases ht
  | cons c t =>
    rw [member] at ht
    split_ifs at ht with hc
    · cases hk : scanString t with
      | error e => simp [hk] at ht
      | ok kr =>
        obtain ⟨name, rest⟩ := kr
        obtain ⟨k, hkt, hrest⟩ := scanString_eq_ok.1 hk
        obtain ⟨s, hs, hsrest⟩ := exists_skipSpace rest
        rw [hk] at ht
        dsimp only at ht
        cases hsk : skipSpace rest with
        | nil => simp [hsk, flawAt] at ht
        | cons d more =>
          rw [hsk] at ht hsrest
          dsimp only at ht
          split_ifs at ht with hd
          · obtain ⟨⟨v, r'⟩, hv, heq⟩ := map_eq_ok.1 ht
            obtain ⟨rfl, rfl⟩ := Prod.mk.inj heq
            obtain ⟨u, hu, hmore⟩ := h.sound hv
            obtain ⟨q, hq, hqmore⟩ := exists_skipSpace more
            refine ⟨_, .mk hkt hs hq hu, ?_⟩
            rw [hc, hrest, hsrest, hd, hqmore, hmore]
            simp
          · cases ht
    · cases ht

theorem member_append (h : Reads value p) {u r : Text} {m : Name × Json} (hu : MemberText p u m)
    (hr : EndsNumber r) : member value (u ++ r) = .ok (m, r) := by
  obtain @⟨k, s, q, t, name, v, hk, hs, hq, hv⟩ := hu
  obtain ⟨k, rfl⟩ := hk.exists_cons
  have hsplit : '\x22' :: k ++ s ++ ':' :: q ++ t ++ r =
      '\x22' :: (k ++ (s ++ ':' :: (q ++ (t ++ r)))) := by simp
  have hskip : skipSpace (q ++ (t ++ r)) = t ++ r := by
    obtain ⟨c, t', rfl, hc⟩ := h.opener hv
    exact skipSpace_append_cons hq (not_space_of_opener hc)
  rw [hsplit, member, if_pos rfl, scanString_append hk rfl]
  simp only [skipSpace_append_cons hs (show isSpace ':' = false from rfl), if_true, hskip,
    h.complete hv hr]
  rfl

/-- A member is read as the grammar derives it if its value is. -/
theorem Reads.member (h : Reads value p) : Reads (member value) (MemberText p) := by
  refine ⟨exists_of_member h, member_append h, fun hu => ?_⟩
  obtain ⟨hk, -, -, -⟩ := hu
  obtain ⟨k, rfl⟩ := hk.exists_cons
  exact ⟨'\x22', _, rfl, rfl⟩

end

/-! ## Words and numbers -/

/-- The characters of number literals. -/
def isNumberChar (c : Char) : Bool :=
  c.isDigit || c == '-' || c == '+' || c == '.' || c == 'e' || c == 'E'

namespace NumberLiteral

theorem isNumberChar_of_mem {l : NumberLiteral} {t : Text} (h : LiteralText l t) :
    ∀ c ∈ t, isNumberChar c = true := by
  have hdigit : ∀ {ds : Text}, Digits ds → ∀ c ∈ ds, isNumberChar c = true := by
    intro ds hds c hc
    simp [isNumberChar, hds.2 c hc]
  obtain @⟨negative, w, f, x, fraction, exponent, hw, hf, hx⟩ := h
  obtain ⟨-, -, -, hd⟩ := hw.exists_digit
  intro c hc
  simp only [List.mem_append] at hc
  rcases hc with ((hc | hc) | hc) | hc
  · cases negative with
    | false => cases hc
    | true =>
      obtain rfl := List.mem_singleton.1 hc
      rfl
  · exact hdigit hd c hc
  · cases hf with
    | none => cases hc
    | some hds =>
      rcases List.mem_cons.1 hc with rfl | hc
      · rfl
      · exact hdigit hds c hc
  · have hmark : ∀ {e : Char}, e = 'e' ∨ e = 'E' → isNumberChar e = true := by
      rintro e (rfl | rfl) <;> rfl
    cases hx with
    | none => cases hc
    | bare he hds =>
      rcases List.mem_cons.1 hc with rfl | hc
      · exact hmark he
      · exact hdigit hds c hc
    | plus he hds | minus he hds =>
      rcases List.mem_cons.1 hc with rfl | hc
      · exact hmark he
      · rcases List.mem_cons.1 hc with rfl | hc
        · rfl
        · exact hdigit hds c hc

/-- A literal starts with a digit, or with a minus sign and a digit. -/
theorem exists_cons {l : NumberLiteral} {t : Text} (h : LiteralText l t) :
    (∃ c r, t = c :: r ∧ c.isDigit = true) ∨ ∃ c r, t = '-' :: c :: r ∧ c.isDigit = true := by
  obtain @⟨negative, w, f, x, fraction, exponent, hw, hf, hx⟩ := h
  obtain ⟨c, ds, rfl, hd⟩ := hw.exists_digit
  have hc := hd.2 c List.mem_cons_self
  cases negative with
  | false => exact .inl ⟨c, ds ++ f ++ x, by simp [signText], hc⟩
  | true => exact .inr ⟨c, ds ++ f ++ x, by simp [signText], hc⟩

end NumberLiteral

theorem append_of_afterWord? {w t r : Text} (h : afterWord? w t = some r) : t = w ++ r := by
  rw [afterWord?] at h
  split_ifs at h with hw
  obtain rfl := Option.some.inj h
  obtain ⟨s, rfl⟩ := List.isPrefixOf_iff_prefix.1 hw
  simp

/-- The words that are values. -/
theorem mem_words {w : Text} {v : Json} (h : (w, .ok v) ∈ words) :
    (w = ['n', 'u', 'l', 'l'] ∧ v = .null) ∨ (w = ['t', 'r', 'u', 'e'] ∧ v = .bool true) ∨
      (w = ['f', 'a', 'l', 's', 'e'] ∧ v = .bool false) := by
  simpa [words] using h

theorem exists_of_scalar {t r : Text} {v : Json} (h : scalar t = .ok (v, r)) :
    ∃ u, ScalarText u v ∧ t = u ++ r := by
  rw [scalar] at h
  split at h
  · next outcome rest hword =>
    obtain ⟨w, hw, hafter⟩ := List.exists_of_findSome?_eq_some hword
    obtain ⟨rest', hrest, heq⟩ := Option.map_eq_some_iff.1 hafter
    obtain ⟨rfl, rfl⟩ := Prod.mk.inj heq
    obtain ⟨v', hv, heq⟩ := map_eq_ok.1 h
    obtain ⟨rfl, rfl⟩ := Prod.mk.inj heq
    refine ⟨w.1, .word ?_, append_of_afterWord? hrest⟩
    rwa [← hv]
  · split at h
    · next l rest hscan =>
      obtain ⟨v', hv, heq⟩ := map_eq_ok.1 h
      obtain ⟨rfl, rfl⟩ := Prod.mk.inj heq
      obtain ⟨u, hu, rfl⟩ := NumberLiteral.exists_of_scan? hscan
      exact ⟨u, .number hu hv, rfl⟩
    · cases h

theorem scalar_append {u r : Text} {v : Json} (h : ScalarText u v) (hr : EndsNumber r) :
    scalar (u ++ r) = .ok (v, r) := by
  cases h with
  | word hw => rcases mem_words hw with ⟨rfl, rfl⟩ | ⟨rfl, rfl⟩ | ⟨rfl, rfl⟩ <;> rfl
  | @number l t v hl hv =>
    have hnone : (words.findSome? fun w =>
        (afterWord? w.1 (u ++ r)).map fun rest => (w.2, rest)) = none := by
      rcases NumberLiteral.exists_cons hl with ⟨c, t, rfl, hc⟩ | ⟨c, t, rfl, hc⟩
      all_goals
        have hne : ∀ d, d.isDigit = false → d ≠ c := fun d hd =>
          (NumberLiteral.digit_ne hc hd).symm
        simp [words, afterWord?, hne]
    rw [scalar, hnone, NumberLiteral.scan?_append hl hr]
    dsimp only
    rw [hv]
    rfl

theorem ScalarText.exists_cons {u : Text} {v : Json} (h : ScalarText u v) :
    ∃ c t, u = c :: t ∧ isOpener c = true ∧ c ≠ '\x22' ∧ c ≠ '[' ∧ c ≠ '\x7b' := by
  cases h with
  | word hw =>
    rcases mem_words hw with ⟨rfl, rfl⟩ | ⟨rfl, rfl⟩ | ⟨rfl, rfl⟩ <;>
      exact ⟨_, _, rfl, by decide⟩
  | number hl =>
    rcases NumberLiteral.exists_cons hl with ⟨c, t, rfl, hc⟩ | ⟨c, t, rfl, -⟩
    · have hne : ∀ d, d.isDigit = false → c ≠ d := fun d => NumberLiteral.digit_ne hc
      refine ⟨c, t, rfl, ?_, hne _ rfl, hne _ rfl, hne _ rfl⟩
      simp [isOpener, isSpace, hne]
    · exact ⟨'-', _, rfl, by decide⟩

/-! ## Values -/

section

variable {inner : Text → Reading Json} {p : Text → Json → Prop}

theorem exists_of_valueWith (h : Reads inner p) {t r : Text} {v : Json}
    (ht : valueWith inner t = .ok (v, r)) : ∃ u, ValueText p u v ∧ t = u ++ r := by
  cases t with
  | nil => cases ht
  | cons c t =>
    rw [valueWith] at ht
    split_ifs at ht with hq hb hk
    · obtain ⟨⟨ps, r'⟩, hs, heq⟩ := map_eq_ok.1 ht
      obtain ⟨rfl, rfl⟩ := Prod.mk.inj heq
      obtain ⟨u, hu, hut⟩ := scanString_eq_ok.1 hs
      exact ⟨u, .string hu, by rw [hq, hut]⟩
    · obtain ⟨⟨xs, r'⟩, hxs, heq⟩ := map_eq_ok.1 ht
      obtain ⟨rfl, rfl⟩ := Prod.mk.inj heq
      obtain ⟨u, hu, rfl⟩ := exists_of_container h hxs
      exact ⟨_, .array hu, by rw [hb]; simp⟩
    · obtain ⟨⟨ms, r'⟩, hms, heq⟩ := map_eq_ok.1 ht
      obtain ⟨rfl, rfl⟩ := Prod.mk.inj heq
      obtain ⟨u, hu, rfl⟩ := exists_of_container h.member hms
      exact ⟨_, .object hu, by rw [hk]; simp⟩
    · obtain ⟨u, hu, hut⟩ := exists_of_scalar ht
      exact ⟨u, .scalar hu, hut⟩

theorem valueWith_append (h : Reads inner p) {u r : Text} {v : Json} (hu : ValueText p u v)
    (hr : EndsNumber r) : valueWith inner (u ++ r) = .ok (v, r) := by
  cases hu with
  | scalar hv =>
    have hread := scalar_append hv hr
    obtain ⟨c, t, rfl, -, hq, hb, hk⟩ := hv.exists_cons
    rw [List.cons_append, valueWith, if_neg hq, if_neg hb, if_neg hk]
    exact hread
  | string hs =>
    obtain ⟨t, rfl⟩ := hs.exists_cons
    rw [List.cons_append, valueWith, if_pos rfl, scanString_append hs rfl]
    rfl
  | @array t xs hc =>
    have hsplit : '[' :: t ++ [']'] ++ r = '[' :: (t ++ ']' :: r) := by simp
    rw [hsplit, valueWith, if_neg (by decide), if_pos rfl, container_append h (.inl rfl) hc]
    rfl
  | @object t ms hc =>
    have hsplit : '\x7b' :: t ++ ['\x7d'] ++ r = '\x7b' :: (t ++ '\x7d' :: r) := by simp
    rw [hsplit, valueWith, if_neg (by decide), if_neg (by decide), if_pos rfl,
      container_append h.member (.inr rfl) hc]
    rfl

theorem ValueText.opener {u : Text} {v : Json} (hu : ValueText p u v) :
    ∃ c t, u = c :: t ∧ isOpener c = true := by
  cases hu with
  | scalar hv =>
    obtain ⟨c, t, rfl, hc, -⟩ := hv.exists_cons
    exact ⟨c, t, rfl, hc⟩
  | string hs =>
    obtain ⟨t, rfl⟩ := hs.exists_cons
    exact ⟨'\x22', t, rfl, rfl⟩
  | array => exact ⟨'[', _, rfl, rfl⟩
  | object => exact ⟨'\x7b', _, rfl, rfl⟩

/-- A value is read as the grammar derives it if the values inside it are. -/
theorem Reads.valueWith (h : Reads inner p) : Reads (valueWith inner) (ValueText p) :=
  ⟨exists_of_valueWith h, valueWith_append h, ValueText.opener⟩

end

/-- A value at a depth is read exactly as the grammar derives it. -/
theorem reads_value (n : Nat) : Reads (value n) (Written n) := by
  induction n with
  | zero => exact ⟨nofun, fun h => h.elim, fun h => h.elim⟩
  | succ n ih => exact ih.valueWith

/-- The text between the brackets of an array is that of a container. -/
theorem written_bracketed {n : Nat} {t : Text} {vs : List Json} :
    Written (n + 1) ('[' :: t ++ [']']) (.array vs) ↔ ContainerText (Written n) t vs := by
  refine ⟨fun h => ?_, ValueText.array⟩
  generalize ht : '[' :: t ++ [']'] = u at h
  cases h with
  | scalar hs =>
    obtain ⟨c, r, rfl, -, -, hc, -⟩ := hs.exists_cons
    exact absurd (List.cons.inj ht).1.symm hc
  | array hc =>
    rw [List.cons_append, List.cons_append] at ht
    rwa [List.append_cancel_right (List.cons.inj ht).2]

/-- A text has one value at most. -/
theorem Written.unique {n k : Nat} {t : Text} {v w : Json} (hv : Written n t v)
    (hw : Written k t w) : v = w := by
  have hread : ∀ {m : Nat} {x : Json}, m ≤ max n k → Written m t x →
      value (max n k) (t ++ []) = .ok (x, []) :=
    fun hm hx => (reads_value (max n k)).complete (hx.mono hm) endsNumber_nil
  have := (hread (Nat.le_max_left n k) hv).symm.trans (hread (Nat.le_max_right n k) hw)
  exact (Prod.mk.inj (Except.ok.inj this)).1

/-! ## Whole texts -/

/-- `decode` with another limit for the depth. -/
def decodeWithin (depth : Nat) (t : Text) : Except Fault Json :=
  if t.head? = some '\ufeff' then flawAt .byteOrderMark t
  else
    match value depth (skipSpace t) with
    | .error e => .error e
    | .ok (v, rest) =>
      match skipSpace rest with
      | [] => .ok v
      | c :: more => flawAt .extra (c :: more)

theorem decode_eq (t : Text) : decode t = decodeWithin maxDepth t := rfl

/-- No byte order mark stands in front of a value, blanks or not. -/
theorem head_ne_mark {p t : Text} {c : Char} (hp : Space p) (hc : isOpener c = true) :
    ¬(p ++ c :: t).head? = some '\ufeff' := by
  intro h
  cases p with
  | nil =>
    obtain rfl := Option.some.inj h
    exact absurd hc (by decide)
  | cons d p =>
    obtain rfl := Option.some.inj h
    exact absurd (hp _ List.mem_cons_self) (by decide)

theorem decodeWithin_eq_ok {depth : Nat} {t : Text} {v : Json} :
    decodeWithin depth t = .ok v ↔
      ∃ p u s, Space p ∧ Space s ∧ Written depth u v ∧ t = p ++ u ++ s := by
  constructor
  · intro h
    obtain ⟨p, hp, hpt⟩ := exists_skipSpace t
    rw [decodeWithin] at h
    split_ifs at h
    · cases h
    · cases hv : value depth (skipSpace t) with
      | error e => simp [hv] at h
      | ok vr =>
        obtain ⟨v', rest⟩ := vr
        obtain ⟨s, hs, hsrest⟩ := exists_skipSpace rest
        obtain ⟨u, hu, hut⟩ := (reads_value depth).sound hv
        rw [hv] at h
        dsimp only at h
        cases hsk : skipSpace rest with
        | nil =>
          rw [hsk] at h hsrest
          obtain rfl := Except.ok.inj h
          refine ⟨p, u, s, hp, hs, hu, ?_⟩
          rw [hpt, hut, hsrest]
          simp
        | cons c more => simp [hsk, flawAt] at h
  · rintro ⟨p, u, s, hp, hs, hu, rfl⟩
    obtain ⟨c, t, rfl, hc⟩ := (reads_value depth).opener hu
    have hmark : ¬(p ++ (c :: t) ++ s).head? = some '\ufeff' := by
      rw [List.append_assoc]
      exact head_ne_mark hp hc
    have hskip : skipSpace (p ++ (c :: t) ++ s) = c :: t ++ s := by
      rw [List.append_assoc]
      exact skipSpace_append_cons hp (not_space_of_opener hc)
    have hend : EndsNumber s := by
      have := endsNumber_append hs endsNumber_nil
      rwa [List.append_nil] at this
    have hrest : skipSpace s = [] := by
      have := skipSpace_append hs (r := []) nofun
      rwa [List.append_nil] at this
    rw [decodeWithin, if_neg hmark, hskip, (reads_value depth).complete hu hend]
    simp only [hrest]

end CollectionShell.Json
