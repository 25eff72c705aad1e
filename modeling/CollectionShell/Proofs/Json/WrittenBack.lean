import CollectionShell.Proofs.Json.Indented
import CollectionShell.Proofs.Json.Infinities
import CollectionShell.Proofs.Json.WrittenDoubles

/-!
# Writing back what was read

The indented form of a value that was read is a text that is read again, as the same value if it
holds no lone surrogate (`Written.exists_indented`), unless the value holds an infinity. That one
is written as a word which is a fault wherever it stands (`Written.refused`).
-/

namespace CollectionShell.Json

/-! ## Strings -/

/-- Every code point is written as something that is read as one, a surrogate as the replacement
character. -/
theorem exists_unitsText_append (p : CodePoint) :
    ∃ p', ∀ {b : Text} {ps : List CodePoint}, UnitsText b ps →
      UnitsText (shortEscapedPoint p ++ b) (p' :: ps) := by
  by_cases h : isCharacter p = true
  · exact ⟨p, legible_shortEscapedPoint p h⟩
  · have hnone : p.toChar? = none := by simpa [isCharacter] using h
    have hval : 0xD800 ≤ p.val := by
      rw [CodePoint.toChar?] at hnone
      split_ifs at hnone with hvalid
      by_contra hlt
      exact hvalid (.inl (not_le.1 hlt))
    have hpoint : shortEscapedPoint p = ['\ufffd'] := by
      have hne : ∀ k < 0xD800, p.val ≠ k := fun k hk => by omega
      have hcontrol : ¬p.val < 0x20 := by omega
      simp (disch := decide) only [shortEscapedPoint, escapedPoint, hne, hcontrol, if_false]
      rw [shownChar, hnone]
      rfl
    refine ⟨CodePoint.ofChar '\ufffd', fun hb => ?_⟩
    rw [hpoint]
    exact .plain (by decide) (by decide) (by decide) hb

theorem exists_stringText (s : List CodePoint) :
    ∃ ps, StringText (literal shortEscapedPoint s) ps ∧ (s.all isCharacter = true → ps = s) := by
  by_cases h : s.all isCharacter = true
  · exact ⟨s, legible_shortEscapedPoint.stringText h, fun _ => rfl⟩
  · have hunits : ∃ ps, UnitsText (s.flatMap shortEscapedPoint) ps := by
      clear h
      induction s with
      | nil => exact ⟨[], .nil⟩
      | cons p s ih =>
        obtain ⟨ps, hps⟩ := ih
        obtain ⟨p', hp⟩ := exists_unitsText_append p
        exact ⟨p' :: ps, hp hps⟩
    obtain ⟨ps, hps⟩ := hunits
    exact ⟨_, .mk hps, fun h' => absurd h' h⟩

/-! ## Finite values -/

section

variable {α : Type} {p : Text → α → Prop} {f : α → Text} {P : α → Prop} {xs : List α}

theorem exists_forall₂ (h : ∀ x ∈ xs, ∃ y, p (f x) y ∧ (P x → y = x)) :
    ∃ ys, List.Forall₂ p (xs.map f) ys ∧ ((∀ x ∈ xs, P x) → ys = xs) := by
  induction xs with
  | nil => exact ⟨[], .nil, fun _ => rfl⟩
  | cons x xs ih =>
    rw [List.forall_mem_cons] at h
    obtain ⟨y, hy, hyx⟩ := h.1
    obtain ⟨ys, hys, hall⟩ := ih h.2
    refine ⟨y :: ys, .cons hy hys, fun hg => ?_⟩
    rw [List.forall_mem_cons] at hg
    rw [hyx hg.1, hall hg.2]

/-- Items on lines of their own fill a container, whatever they are read as. -/
theorem exists_containerText_lines (indent depth : Nat)
    (h : ∀ x ∈ xs, ∃ y, p (f x) y ∧ (P x → y = x)) :
    ∃ ys, ContainerText p (Text.joinWith [',']
        ((xs.map f).map (newline indent (depth + 1) ++ ·)) ++ newline indent depth) ys ∧
      ((∀ x ∈ xs, P x) → ys = xs) := by
  obtain ⟨ys, hys, hall⟩ := exists_forall₂ h
  exact ⟨ys, containerText_spread (space_newline indent (depth + 1))
    (space_newline indent depth) hys, hall⟩

end

theorem exists_memberText_indentedMember {indent depth : Nat} {m : Name × Json} {w : Json}
    {p : Text → Json → Prop} (hw : p (indented indent depth m.2) w) :
    ∃ k, MemberText p (indentedMember indent depth m) (k, w) ∧
      (m.1.all isCharacter = true → k = m.1) := by
  obtain ⟨k, hk, hkn⟩ := exists_stringText m.1
  have hmember := MemberText.mk hk space_nil space_blank hw
  exact ⟨k, by simpa [indentedMember] using hmember, hkn⟩

theorem ScalarText.indented {t : Text} {v : Json} (h : ScalarText t v) (hf : v.isFinite = true)
    (indent depth : Nat) : ScalarText (indented indent depth v) v := by
  cases h with
  | word hw =>
    rcases mem_words hw with ⟨-, rfl⟩ | ⟨-, rfl⟩ | ⟨-, rfl⟩
    · exact scalarText_null
    · exact scalarText_bool true
    · exact scalarText_bool false
  | number hl hv =>
    rcases NumberLiteral.value_cases hv with ⟨x, rfl⟩ | ⟨rfl, hlen⟩
    · exact scalarText_write Decimal.printed hf
    · refine scalarText_ofInt ?_
      rw [NumberLiteral.natAbs_toInt]
      exact (NumberLiteral.length_ofNat_natOf_le hl.digits_whole).trans hlen

/-- A member that is left was read. -/
theorem ContainerText.exists_written_memberwise {n : Nat} {t : Text} {ms : List (Name × Json)}
    (h : ContainerText (MemberText (Written n)) t ms) :
    ∀ m ∈ memberwise ms, ∃ u, Written n u m.2 := by
  intro m hm
  obtain ⟨u, ⟨-, -, -, hu⟩⟩ := h.exists_text m (mem_of_mem_memberwise hm)
  exact ⟨_, hu⟩

/-- The indented form of a finite value that was read is read again, as the value itself if it
can be written. -/
theorem Written.exists_indented {n : Nat} {t : Text} {v : Json} (h : Written n t v)
    (hf : v.isFinite = true) (indent depth : Nat) :
    ∃ w, Written n (indented indent depth v) w ∧ (v.isWritable = true → w = v) := by
  induction n generalizing t v depth with
  | zero => exact h.elim
  | succ n ih =>
    cases h with
    | scalar hs => exact ⟨v, ValueText.scalar (hs.indented hf indent depth), fun _ => rfl⟩
    | @string _ s _ =>
      obtain ⟨ps, hps, hs⟩ := exists_stringText s
      exact ⟨_, ValueText.string hps, fun hw => by rw [hs hw]⟩
    | @array t xs hc =>
      rw [isFinite, areFinite_iff] at hf
      rw [isWritable, areWritable_iff]
      cases xs with
      | nil => exact ⟨_, ValueText.array (.empty space_nil), fun _ => rfl⟩
      | cons x xs =>
        rw [indented, indentedElements_eq, List.cons_append]
        obtain ⟨ws, hws, hall⟩ := exists_containerText_lines (p := Written n)
          (P := fun x => x.isWritable = true) indent depth fun y hy => by
            obtain ⟨u, hu⟩ := hc.exists_text y hy
            exact ih hu (hf y hy) (depth + 1)
        exact ⟨_, ValueText.array hws, fun hw => by rw [hall hw]⟩
    | @object t ms hc =>
      rw [isFinite, membersFinite_iff] at hf
      rw [isWritable, membersWritable_iff]
      have hnodup := nodup_memberwise ms
      have hread := hc.exists_written_memberwise
      generalize memberwise ms = ms at hf hnodup hread ⊢
      cases ms with
      | nil => exact ⟨_, ValueText.object (.empty space_nil), fun _ => rfl⟩
      | cons m ms =>
        rw [indented, indentedMembers_eq, List.cons_append]
        obtain ⟨ws, hws, hall⟩ := exists_containerText_lines (p := MemberText (Written n))
          (P := fun m => m.1.all isCharacter = true ∧ m.2.isWritable = true) indent depth
          fun m' hm => by
            obtain ⟨u, hu⟩ := hread m' hm
            obtain ⟨w, hw, hwv⟩ := ih hu (hf m' hm) (depth + 1)
            obtain ⟨k, hk, hkn⟩ := exists_memberText_indentedMember hw
            exact ⟨(k, w), hk, fun hm => by rw [hkn hm.1, hwv hm.2]⟩
        refine ⟨_, ValueText.object hws, fun hw => ?_⟩
        rw [hall hw, memberwise_eq_self hnodup]

/-! ## Infinities -/

/-- The reader finds the word of an infinity in the text, whatever follows the text. -/
structure Refused {α : Type} (item : Text → Reading α) (t : Text) : Prop where
  opener : ∃ c r, t = c :: r ∧ isOpener c = true
  fault : ∀ {r : Text}, EndsNumber r → ∃ c, item (t ++ r) = .error (.constant c)

/-- The first item and the others with a comma and a gap in front of each. -/
def spreadOut (gap last t : Text) : List Text → Text
  | [] => t ++ last
  | t' :: ts => t ++ ',' :: (gap ++ spreadOut gap last t' ts)

theorem joinWith_spreadOut (gap last t : Text) (ts : List Text) :
    Text.joinWith [','] ((t :: ts).map (gap ++ ·)) ++ last = gap ++ spreadOut gap last t ts := by
  induction ts generalizing t with
  | nil => simp [spreadOut]
  | cons t' ts ih =>
    rw [List.map_cons, List.map_cons, Text.joinWith_cons_cons, ← List.map_cons,
      List.append_assoc, ih, spreadOut]
    simp

theorem length_le_spreadOut (gap last t : Text) (ts : List Text) :
    ts.length ≤ (spreadOut gap last t ts).length := by
  induction ts generalizing t with
  | nil => exact Nat.zero_le _
  | cons t' ts ih =>
    have := ih t'
    simp only [spreadOut, List.length_append, List.length_cons]
    omega

section

variable {α : Type} {item : Text → Reading α} {p : Text → α → Prop} {close : Char}
  {gap last t : Text} {ts : List Text}

/-- An item that is read or refused opens with the character of a value. -/
theorem Reads.opener_or (h : Reads item p) (ht : Refused item t ∨ ∃ x, p t x) :
    ∃ c r, t = c :: r ∧ isOpener c = true :=
  ht.elim Refused.opener fun ⟨_, hx⟩ => h.opener hx

theorem Reads.opener_spreadOut (h : Reads item p) (ht : Refused item t ∨ ∃ x, p t x)
    (gap last : Text) (ts : List Text) :
    ∃ c r, spreadOut gap last t ts = c :: r ∧ isOpener c = true := by
  obtain ⟨c, r, rfl, hc⟩ := h.opener_or ht
  cases ts with
  | nil => exact ⟨c, _, rfl, hc⟩
  | cons t' ts => exact ⟨c, _, rfl, hc⟩

/-- The gap in front of items is skipped, and nothing of theirs. -/
theorem Reads.skipSpace_spreadOut (h : Reads item p) (ht : Refused item t ∨ ∃ x, p t x)
    (hg : Space gap) (r : Text) :
    skipSpace (gap ++ spreadOut gap last t ts ++ r) = spreadOut gap last t ts ++ r := by
  obtain ⟨d, u, hd, hopen⟩ := h.opener_spreadOut ht gap last ts
  rw [hd, List.append_assoc]
  exact skipSpace_append_cons hg (not_space_of_opener hopen)

/-- Where one of the items is refused, so are all of them. -/
theorem exists_itemsUntil_refused (h : Reads item p) (hclose : IsCloser close) (hg : Space gap)
    (hl : Space last) (hts : ∀ u ∈ t :: ts, Refused item u ∨ ∃ x, p u x)
    (hbad : ∃ u ∈ t :: ts, Refused item u) {fuel : Nat} (hfuel : ts.length < fuel) (r : Text) :
    ∃ c, itemsUntil close item fuel (spreadOut gap last t ts ++ close :: r) =
      .error (.constant c) := by
  obtain ⟨fuel, rfl⟩ : ∃ k, fuel = k + 1 := ⟨fuel - 1, by omega⟩
  induction ts generalizing t fuel with
  | nil =>
    obtain ⟨u, hu, href⟩ := hbad
    obtain rfl := List.mem_singleton.1 hu
    obtain ⟨c, hc⟩ := href.fault (endsNumber_append hl (hclose.endsNumber (r := r)))
    exact ⟨c, by rw [spreadOut, List.append_assoc, itemsUntil, hc]⟩
  | cons t' ts ih =>
    rw [List.forall_mem_cons] at hts
    have hcomma : EndsNumber (',' :: (gap ++ spreadOut gap last t' ts ++ close :: r)) :=
      endsNumber_cons (by decide)
    rw [spreadOut, List.append_assoc, List.cons_append]
    by_cases ht : Refused item t
    · obtain ⟨c, hc⟩ := ht.fault hcomma
      exact ⟨c, by rw [itemsUntil, hc]⟩
    · -- the item is read, and the refused one is behind the comma
      obtain ⟨x, hx⟩ := hts.1.resolve_left ht
      have hbad' : ∃ u ∈ t' :: ts, Refused item u := by
        obtain ⟨u, hu, href⟩ := hbad
        refine ⟨u, (List.mem_cons.1 hu).resolve_left ?_, href⟩
        rintro rfl
        exact ht href
      obtain ⟨fuel, rfl⟩ : ∃ k, fuel = k + 1 := ⟨fuel - 1, by simp at hfuel; omega⟩
      obtain ⟨c, hc⟩ := ih hts.2 hbad' fuel (Nat.lt_of_succ_lt_succ hfuel)
      have hskip : skipSpace (gap ++ spreadOut gap last t' ts ++ close :: r) =
          spreadOut gap last t' ts ++ close :: r :=
        h.skipSpace_spreadOut (hts.2 t' List.mem_cons_self) hg _
      have hne : ',' ≠ close := by rcases hclose with rfl | rfl <;> decide
      have hstop : skipSpace (',' :: (gap ++ spreadOut gap last t' ts ++ close :: r)) =
          ',' :: (gap ++ spreadOut gap last t' ts ++ close :: r) := rfl
      refine ⟨c, ?_⟩
      rw [itemsUntil, h.complete hx hcomma]
      simp only [hstop, if_neg hne, if_true, hskip, hc]
      rfl

/-- A container is refused with one of its items. -/
theorem exists_container_refused (h : Reads item p) (hclose : IsCloser close) (hg : Space gap)
    (hl : Space last) (hts : ∀ u ∈ ts, Refused item u ∨ ∃ x, p u x)
    (hbad : ∃ u ∈ ts, Refused item u) (r : Text) :
    ∃ c, container close item
      (Text.joinWith [','] (ts.map (gap ++ ·)) ++ last ++ close :: r) = .error (.constant c) := by
  cases ts with
  | nil =>
    obtain ⟨u, hu, -⟩ := hbad
    cases hu
  | cons t ts =>
    have ht := hts t List.mem_cons_self
    have hne : ¬(spreadOut gap last t ts ++ close :: r).head? = some close := by
      obtain ⟨d, u, hd, hopen⟩ := h.opener_spreadOut ht gap last ts
      rw [hd]
      intro heq
      obtain rfl := Option.some.inj heq
      rw [hclose.not_opener] at hopen
      cases hopen
    rw [joinWith_spreadOut, container, h.skipSpace_spreadOut ht hg, if_neg hne]
    refine exists_itemsUntil_refused h hclose hg hl hts hbad ?_ r
    have := length_le_spreadOut gap last t ts
    rw [List.length_append]
    omega

end

/-- A member is refused with its value. -/
theorem Refused.member {inner : Text → Reading Json} {indent depth : Nat} {m : Name × Json}
    (h : Refused inner (indented indent depth m.2)) :
    Refused (member inner) (indentedMember indent depth m) := by
  refine ⟨⟨'\x22', _, rfl, rfl⟩, fun {r} hr => ?_⟩
  obtain ⟨c, hc⟩ := h.fault hr
  obtain ⟨d, u, hd, hopen⟩ := h.opener
  obtain ⟨k, hk, -⟩ := exists_stringText m.1
  have hskip : skipSpace (' ' :: (indented indent depth m.2 ++ r)) =
      indented indent depth m.2 ++ r := by
    rw [hd]
    exact skipSpace_append_cons space_blank (not_space_of_opener hopen)
  refine ⟨c, ?_⟩
  have hsplit : indentedMember indent depth m ++ r = '\x22' ::
      (m.1.flatMap shortEscapedPoint ++ ['\x22'] ++ ':' :: ' ' ::
        (indented indent depth m.2 ++ r)) := by
    simp [indentedMember, literal]
  have hcolon : skipSpace (':' :: ' ' :: (indented indent depth m.2 ++ r)) =
      ':' :: ' ' :: (indented indent depth m.2 ++ r) := rfl
  have hscan : scanString (m.1.flatMap shortEscapedPoint ++ ['\x22'] ++ ':' :: ' ' ::
      (indented indent depth m.2 ++ r)) = .ok (k, ':' :: ' ' :: (indented indent depth m.2 ++ r)) :=
    scanString_append hk rfl
  rw [hsplit, Json.member, if_pos rfl, hscan]
  simp only [hcolon, if_true, hskip, hc]
  rfl

theorem value_bracketed {n : Nat} {t r : Text} {e : Fault}
    (h : container ']' (value n) (t ++ ']' :: r) = .error e) :
    value (n + 1) ('[' :: t ++ [']'] ++ r) = .error e := by
  have hsplit : '[' :: t ++ [']'] ++ r = '[' :: (t ++ ']' :: r) := by simp
  rw [hsplit, value, valueWith, if_neg (by decide), if_pos rfl, h]
  rfl

theorem value_braced {n : Nat} {t r : Text} {e : Fault}
    (h : container '\x7d' (member (value n)) (t ++ '\x7d' :: r) = .error e) :
    value (n + 1) ('\x7b' :: t ++ ['\x7d'] ++ r) = .error e := by
  have hsplit : '\x7b' :: t ++ ['\x7d'] ++ r = '\x7b' :: (t ++ '\x7d' :: r) := by simp
  rw [hsplit, value, valueWith, if_neg (by decide), if_neg (by decide), if_pos rfl, h]
  rfl

theorem refused_infinity {n : Nat} {x : Double} (hx : x.isFinite = false) :
    Refused (value (n + 1)) (x.write Decimal.printed) := by
  have hword : Text.ofString "Infinity" = ['I', 'n', 'f', 'i', 'n', 'i', 't', 'y'] := by decide
  cases x with
  | finite => cases hx
  | infinite negative =>
    have hwrite : (Double.infinite negative).write Decimal.printed =
        (if negative then ['-'] else []) ++ ['I', 'n', 'f', 'i', 'n', 'i', 't', 'y'] := by
      rw [← hword]
      rfl
    rw [hwrite]
    cases negative with
    | false => exact ⟨⟨_, _, rfl, rfl⟩, fun _ => ⟨.infinity, rfl⟩⟩
    | true => exact ⟨⟨_, _, rfl, rfl⟩, fun _ => ⟨.minusInfinity, rfl⟩⟩

/-- A scalar that is read is refused in its indented form if it is an infinity. -/
theorem ScalarText.refused {n : Nat} {t : Text} {v : Json} (h : ScalarText t v)
    (hf : v.isFinite = false) (indent depth : Nat) :
    Refused (value (n + 1)) (Json.indented indent depth v) := by
  cases h with
  | word hw => rcases mem_words hw with ⟨-, rfl⟩ | ⟨-, rfl⟩ | ⟨-, rfl⟩ <;> cases hf
  | number hl hv =>
    rcases NumberLiteral.value_cases hv with ⟨x, rfl⟩ | ⟨rfl, -⟩
    · exact refused_infinity hf
    · cases hf

section

variable {n indent depth : Nat}

/-- An array is refused with one of its elements. -/
theorem Refused.array {xs : List Json}
    (hxs : ∀ t ∈ xs.map (indented indent (depth + 1)),
      Refused (value n) t ∨ ∃ w, Written n t w)
    (hbad : ∃ t ∈ xs.map (indented indent (depth + 1)), Refused (value n) t) :
    Refused (value (n + 1)) (indented indent depth (.array xs)) := by
  cases xs with
  | nil =>
    obtain ⟨t, ht, -⟩ := hbad
    cases ht
  | cons x xs =>
    rw [indented, indentedElements_eq, List.cons_append]
    refine ⟨⟨'[', _, rfl, rfl⟩, fun {r} _ => ?_⟩
    obtain ⟨c, hc⟩ := exists_container_refused (reads_value n) (.inl rfl)
      (space_newline indent (depth + 1)) (space_newline indent depth) hxs hbad r
    exact ⟨c, value_bracketed hc⟩

/-- An object is refused with one of its members. -/
theorem Refused.object {ms : List (Name × Json)}
    (hms : ∀ t ∈ ms.map (indentedMember indent (depth + 1)),
      Refused (Json.member (value n)) t ∨ ∃ w, MemberText (Written n) t w)
    (hbad : ∃ t ∈ ms.map (indentedMember indent (depth + 1)),
      Refused (Json.member (value n)) t) :
    Refused (value (n + 1)) (indented indent depth (.object ms)) := by
  cases ms with
  | nil =>
    obtain ⟨t, ht, -⟩ := hbad
    cases ht
  | cons m ms =>
    rw [indented, indentedMembers_eq, List.cons_append]
    refine ⟨⟨'\x7b', _, rfl, rfl⟩, fun {r} _ => ?_⟩
    obtain ⟨c, hc⟩ := exists_container_refused (reads_value n).member (.inr rfl)
      (space_newline indent (depth + 1)) (space_newline indent depth) hms hbad r
    exact ⟨c, value_braced hc⟩

end

/-- The indented form of a value with an infinity is refused for the word of an infinity. -/
theorem Written.refused {n : Nat} {t : Text} {v : Json} (h : Written n t v)
    (hf : v.isFinite = false) (indent depth : Nat) :
    Refused (value n) (indented indent depth v) := by
  induction n generalizing t v depth with
  | zero => exact h.elim
  | succ n ih =>
    -- what stands inside is read back if it is finite, and refused if it is not
    have hinner : ∀ {u : Text} {v : Json}, Written n u v →
        Refused (value n) (indented indent (depth + 1) v) ∨
          ∃ w, Written n (indented indent (depth + 1) v) w := by
      intro u v hu
      cases hv : v.isFinite with
      | false => exact .inl (ih hu hv (depth + 1))
      | true =>
        obtain ⟨w, hw, -⟩ := hu.exists_indented hv indent (depth + 1)
        exact .inr ⟨w, hw⟩
    cases h with
    | scalar hs => exact hs.refused hf indent depth
    | string _ => cases hf
    | @array t xs hc =>
      rw [isFinite, ← Bool.not_eq_true, areFinite_iff] at hf
      push Not at hf
      obtain ⟨x, hx, hxf⟩ := hf
      refine .array (List.forall_mem_map.2 fun y hy => ?_) ⟨_, List.mem_map_of_mem hx, ?_⟩
      · obtain ⟨u, hu⟩ := hc.exists_text y hy
        exact hinner hu
      · obtain ⟨u, hu⟩ := hc.exists_text x hx
        exact ih hu (Bool.eq_false_iff.2 hxf) (depth + 1)
    | @object t ms hc =>
      rw [isFinite, ← Bool.not_eq_true, membersFinite_iff] at hf
      push Not at hf
      obtain ⟨m, hm, hmf⟩ := hf
      have hread := hc.exists_written_memberwise
      refine .object (List.forall_mem_map.2 fun m' hm' => ?_) ⟨_, List.mem_map_of_mem hm, ?_⟩
      · obtain ⟨u, hu⟩ := hread m' hm'
        refine (hinner hu).imp Refused.member fun hw => ?_
        obtain ⟨w, hw⟩ := hw
        obtain ⟨k, hk, -⟩ := exists_memberText_indentedMember hw
        exact ⟨_, hk⟩
      · obtain ⟨u, hu⟩ := hread m hm
        exact (ih hu (Bool.eq_false_iff.2 hmf) (depth + 1)).member

/-- A whole text that is refused is a fault. -/
theorem Refused.decodeWithin {n : Nat} {t : Text} (h : Refused (value n) t) :
    ∃ c, decodeWithin n t = .error (.constant c) := by
  obtain ⟨d, r, hd, hopen⟩ := h.opener
  have hmark : ¬t.head? = some '\ufeff' := by
    rw [hd]
    exact head_ne_mark space_nil hopen
  have hskip : skipSpace t = t := by
    rw [hd]
    exact skipSpace_append_cons space_nil (not_space_of_opener hopen)
  obtain ⟨c, hc⟩ := h.fault endsNumber_nil
  rw [List.append_nil] at hc
  exact ⟨c, by rw [Json.decodeWithin, if_neg hmark, hskip, hc]⟩

/-- No blank of any kind stands around a value with an infinity. -/
theorem trim_indented {v : Json} (hf : v.isFinite = false) (indent depth : Nat) :
    Text.trim (indented indent depth v) = indented indent depth v := by
  cases v with
  | null | bool | int | string => cases hf
  | float x =>
    cases x with
    | finite => cases hf
    | infinite negative =>
      rw [indented]
      cases negative <;> decide
  | array xs =>
    cases xs with
    | nil => cases hf
    | cons x xs =>
      rw [indented, List.cons_append]
      exact Text.trim_between (by decide) (by decide) _
  | object ms =>
    cases ms with
    | nil => cases hf
    | cons m ms =>
      rw [indented, List.cons_append]
      exact Text.trim_between (by decide) (by decide) _

end CollectionShell.Json
