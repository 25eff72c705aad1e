import CollectionShell.Proofs.Json.Grammar

/-!
# How deep a reader goes

A reader whose depth is limited reads a text as a reader with a greater limit does, unless it
meets its limit (`Settled.value`) : a fault that it finds ends the reading in both, and so does
the text. `OpensAtMost n t` says that the reader of a whole text does not meet the limit of values
inside `n` arrays and objects; how a text is read then does not depend on the limit any more
(`OpensAtMost.decodeWithin_eq`). A text in which no more than `n` brackets and braces open is
such a text (`opensAtMost_of_count`).
-/

namespace CollectionShell.Json

/-- The reader of a whole text asks for no value inside more than `n` arrays and objects, so that
no more than `n` of them are open around a value. -/
def OpensAtMost (n : Nat) (t : Text) : Prop := decodeWithin (n + 1) t ≠ .error .tooDeep

/-! ## Greater limits -/

/-- The second reader reads as the first where this one meets no limit. -/
def Settled {α : Type} (item item' : Text → Reading α) : Prop :=
  ∀ t, item t ≠ .error .tooDeep → item' t = item t

namespace Settled

variable {α : Type} {item item' : Text → Reading α} {close : Char}

theorem itemsUntil (h : Settled item item') (fuel : Nat) :
    Settled (itemsUntil close item fuel) (itemsUntil close item' fuel) := by
  induction fuel with
  | zero => exact fun _ _ => rfl
  | succ fuel ih =>
    intro t ht
    have hitem : item t ≠ .error .tooDeep := fun he => ht (by rw [Json.itemsUntil, he])
    rw [Json.itemsUntil] at ht
    rw [Json.itemsUntil, Json.itemsUntil, h t hitem]
    cases hx : item t with
    | error e => rfl
    | ok xr =>
      simp only [hx] at ht ⊢
      cases hsk : skipSpace xr.2 with
      | nil => rfl
      | cons c more =>
        simp only [hsk] at ht ⊢
        split_ifs at ht ⊢ with hc hcomma
        · rfl
        · rw [ih _ fun he => ht (map_eq_error.2 he)]
        · rfl

theorem container (h : Settled item item') :
    Settled (container close item) (container close item') := by
  intro t ht
  rw [Json.container] at ht ⊢
  rw [Json.container]
  split_ifs at ht ⊢ with hc
  · rfl
  · exact h.itemsUntil _ _ ht

section

variable {value value' : Text → Reading Json}

theorem member (h : Settled value value') : Settled (member value) (member value') := by
  intro t ht
  cases t with
  | nil => rfl
  | cons c rest =>
    rw [Json.member] at ht ⊢
    rw [Json.member]
    split_ifs at ht ⊢ with hc
    · cases hs : scanString rest with
      | error e => rfl
      | ok nr =>
        simp only [hs] at ht ⊢
        cases hsk : skipSpace nr.2 with
        | nil => rfl
        | cons d more =>
          simp only [hsk] at ht ⊢
          split_ifs at ht ⊢ with hd
          · rw [h _ fun he => ht (map_eq_error.2 he)]
          · rfl
    · rfl

theorem valueWith (h : Settled value value') : Settled (valueWith value) (valueWith value') := by
  intro t ht
  cases t with
  | nil => rfl
  | cons c rest =>
    rw [Json.valueWith] at ht ⊢
    rw [Json.valueWith]
    split_ifs at ht ⊢ with hq hb hk
    · rfl
    · rw [h.container _ fun he => ht (map_eq_error.2 he)]
    · rw [h.member.container _ fun he => ht (map_eq_error.2 he)]
    · rfl

end

/-- A reader with a greater limit reads as one that does not meet its own. -/
theorem value {n k : Nat} (hnk : n ≤ k) : Settled (value n) (value k) := by
  induction n generalizing k with
  | zero => exact fun _ ht => absurd rfl ht
  | succ n ih =>
    obtain ⟨k, rfl⟩ := Nat.exists_eq_add_of_le' (Nat.zero_lt_of_lt hnk)
    exact (ih (Nat.le_of_succ_le_succ hnk)).valueWith

end Settled

/-- Where the limit is not met, a greater one makes no difference. -/
theorem decodeWithin_eq_of_le {n k : Nat} (hnk : n ≤ k) {t : Text}
    (h : decodeWithin n t ≠ .error .tooDeep) : decodeWithin k t = decodeWithin n t := by
  have hvalue : t.head? ≠ some '\ufeff' → value n (skipSpace t) ≠ .error .tooDeep := by
    intro hmark he
    exact h (by rw [decodeWithin, if_neg hmark, he])
  rw [decodeWithin, decodeWithin]
  split_ifs with hmark
  · rfl
  · rw [Settled.value hnk _ (hvalue hmark)]

/-- How a text is read that opens no more than `n` arrays and objects does not depend on a limit
above. -/
theorem OpensAtMost.decodeWithin_eq {n : Nat} {t : Text} (h : OpensAtMost n t) {k : Nat}
    (hk : n < k) : decodeWithin k t = decodeWithin (n + 1) t :=
  decodeWithin_eq_of_le hk h

/-! ## Brackets and braces -/

/-- The character opens an array or an object. -/
def opensContainer (c : Char) : Bool := c == '[' || c == '\x7b'

/-- A fault of a string is at a place. -/
theorem scanUnits_ne_tooDeep (start : Nat) (t : Text) : scanUnits start t ≠ .error .tooDeep := by
  fun_induction scanUnits start t with
  | case1 | case2 | case3 | case5 | case6 | case8 | case9 => intro h; cases h
  | case4 | case7 | case10 => rename_i ih; exact fun h => ih (map_eq_error.1 h)

theorem scanString_ne_tooDeep (t : Text) : scanString t ≠ .error .tooDeep :=
  fun h => scanUnits_ne_tooDeep _ t (map_eq_error.1 h)

theorem scalar_ne_tooDeep (t : Text) : scalar t ≠ .error .tooDeep := by
  rw [scalar]
  split
  · next outcome rest hword =>
    obtain ⟨w, hw, hafter⟩ := List.exists_of_findSome?_eq_some hword
    obtain ⟨rest', -, heq⟩ := Option.map_eq_some_iff.1 hafter
    obtain ⟨rfl, rfl⟩ := Prod.mk.inj heq
    have hwords : ∀ w ∈ words, w.2 ≠ .error .tooDeep := by simp [words]
    exact fun h => hwords w hw (map_eq_error.1 h)
  · split
    · next l rest _ =>
      intro h
      have hvalue := map_eq_error.1 h
      rw [NumberLiteral.value] at hvalue
      split_ifs at hvalue
      cases hvalue
    · intro h
      cases h

section

variable {α : Type} {item : Text → Reading α} {p : Text → α → Prop} {close : Char}

theorem skipSpace_suffix (t : Text) : skipSpace t <:+ t := List.dropWhile_suffix _

/-- Where items meet a limit, one of them does. -/
theorem exists_of_itemsUntil_tooDeep (hitem : Reads item p) {fuel : Nat} {t : Text}
    (h : itemsUntil close item fuel t = .error .tooDeep) :
    ∃ u, u <:+ t ∧ item u = .error .tooDeep := by
  induction fuel generalizing t with
  | zero => cases h
  | succ fuel ih =>
    rw [itemsUntil] at h
    cases hx : item t with
    | error e =>
      rw [hx] at h
      exact ⟨t, List.suffix_refl t, hx.trans (congrArg _ (Except.error.inj h))⟩
    | ok xr =>
      obtain ⟨x, rest⟩ := xr
      obtain ⟨u, -, rfl⟩ := hitem.sound hx
      simp only [hx] at h
      cases hsk : skipSpace rest with
      | nil => simp [hsk, flawAt] at h
      | cons c more =>
        simp only [hsk] at h
        split_ifs at h with hc hcomma
        · obtain ⟨v, hv, hdeep⟩ := ih (map_eq_error.1 h)
          have hmore : more <:+ rest :=
            (List.suffix_cons c more).trans (hsk ▸ skipSpace_suffix rest)
          exact ⟨v, hv.trans ((skipSpace_suffix more).trans
            (hmore.trans (List.suffix_append u rest))), hdeep⟩
        · cases h

theorem exists_of_container_tooDeep (hitem : Reads item p) {t : Text}
    (h : container close item t = .error .tooDeep) :
    ∃ u, u <:+ t ∧ item u = .error .tooDeep := by
  rw [container] at h
  split_ifs at h
  obtain ⟨u, hu, hdeep⟩ := exists_of_itemsUntil_tooDeep hitem h
  exact ⟨u, hu.trans (skipSpace_suffix t), hdeep⟩

end

/-- Where a member meets a limit, its value does. -/
theorem exists_of_member_tooDeep {value : Text → Reading Json} {t : Text}
    (h : member value t = .error .tooDeep) : ∃ u, u <:+ t ∧ value u = .error .tooDeep := by
  cases t with
  | nil => cases h
  | cons c rest =>
    rw [member] at h
    split_ifs at h with hc
    · cases hs : scanString rest with
      | error e =>
        rw [hs] at h
        exact absurd (hs.trans (congrArg _ (Except.error.inj h))) (scanString_ne_tooDeep rest)
      | ok nr =>
        obtain ⟨name, rest'⟩ := nr
        obtain ⟨k, -, hk⟩ := scanString_eq_ok.1 hs
        simp only [hs] at h
        cases hsk : skipSpace rest' with
        | nil => simp [hsk, flawAt] at h
        | cons d more =>
          simp only [hsk] at h
          split_ifs at h with hd
          · have hmore : more <:+ rest' :=
              (List.suffix_cons d more).trans (hsk ▸ skipSpace_suffix rest')
            refine ⟨skipSpace more, (skipSpace_suffix more).trans (hmore.trans ?_),
              map_eq_error.1 h⟩
            have : c :: rest = k ++ rest' := by rw [hc, hk]
            exact this ▸ List.suffix_append k rest'
          · cases h
    · cases h

/-- A reader that meets its limit has gone through as many brackets and braces. -/
theorem le_count_of_tooDeep {n : Nat} {t : Text} (h : value n t = .error .tooDeep) :
    n ≤ t.countP opensContainer := by
  induction n generalizing t with
  | zero => exact Nat.zero_le _
  | succ n ih =>
    have hinner : ∀ {c : Char} {rest u : Text}, opensContainer c = true → u <:+ rest →
        value n u = .error .tooDeep → n + 1 ≤ (c :: rest).countP opensContainer := by
      intro c rest u hc hu hdeep
      rw [List.countP_cons_of_pos hc]
      exact Nat.succ_le_succ ((ih hdeep).trans hu.sublist.countP_le)
    cases t with
    | nil => cases h
    | cons c rest =>
      rw [value, valueWith] at h
      split_ifs at h with hq hb hk
      · exact absurd (map_eq_error.1 h) (scanString_ne_tooDeep rest)
      · obtain ⟨u, hu, hdeep⟩ := exists_of_container_tooDeep (reads_value n) (map_eq_error.1 h)
        exact hinner (by rw [hb]; rfl) hu hdeep
      · obtain ⟨u, hu, hdeep⟩ :=
          exists_of_container_tooDeep (reads_value n).member (map_eq_error.1 h)
        obtain ⟨w, hw, hdeep⟩ := exists_of_member_tooDeep hdeep
        exact hinner (by rw [hk]; rfl) (hw.trans hu) hdeep
      · exact absurd h (scalar_ne_tooDeep _)

/-- A text with no more than `n` brackets and braces that open opens no more. -/
theorem opensAtMost_of_count {n : Nat} {t : Text} (h : t.countP opensContainer ≤ n) :
    OpensAtMost n t := by
  intro hdeep
  rw [decodeWithin] at hdeep
  split_ifs at hdeep
  · cases hdeep
  · cases hv : value (n + 1) (skipSpace t) with
    | error e =>
      rw [hv] at hdeep
      have hcount := le_count_of_tooDeep (hv.trans (congrArg _ (Except.error.inj hdeep)))
      have : (skipSpace t).countP opensContainer ≤ t.countP opensContainer :=
        (skipSpace_suffix t).sublist.countP_le
      omega
    | ok vr =>
      simp only [hv] at hdeep
      cases hsk : skipSpace vr.2 with
      | nil => simp [hsk] at hdeep
      | cons c more => simp [hsk, flawAt] at hdeep

end CollectionShell.Json
