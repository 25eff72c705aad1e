import CollectionShell.Proofs.Json.Rendering
import Mathlib.Data.List.Induction
import Mathlib.Data.Nat.Digits.Defs

/-!
# The values that texts are written as

A value that the grammar derives from some text is close to renderable : the names of its
objects are distinct (`nodup_memberwise`), and its integers have no more digits than were
read, for an integer has no more digits than a literal of it (`length_ofNat_natOf_le`). What
the text may still hold is a double or a lone surrogate, and without them the value is
renderable (`Written.renderable`).
-/

namespace CollectionShell.Json

/-! ## Doubles -/

mutual

/-- The value holds no number with a fraction or an exponent. -/
def isFloatFree : Json → Bool
  | .float _ => false
  | .array xs => areFloatFree xs
  | .object ms => membersFloatFree ms
  | _ => true

/-- As `isFloatFree`, for all elements. -/
def areFloatFree : List Json → Bool
  | [] => true
  | x :: xs => isFloatFree x && areFloatFree xs

/-- As `isFloatFree`, for all values. -/
def membersFloatFree : List (Name × Json) → Bool
  | [] => true
  | (_, v) :: ms => isFloatFree v && membersFloatFree ms

end

theorem areFloatFree_iff {xs : List Json} :
    areFloatFree xs = true ↔ ∀ x ∈ xs, x.isFloatFree = true := by
  induction xs with
  | nil => simp [areFloatFree]
  | cons x xs ih => simp [areFloatFree, ih]

theorem membersFloatFree_iff {ms : List (Name × Json)} :
    membersFloatFree ms = true ↔ ∀ m ∈ ms, m.2.isFloatFree = true := by
  induction ms with
  | nil => simp [membersFloatFree]
  | cons m ms ih => simp [membersFloatFree, ih]

theorem areWritable_iff {xs : List Json} :
    areWritable xs = true ↔ ∀ x ∈ xs, x.isWritable = true := by
  induction xs with
  | nil => simp [areWritable]
  | cons x xs ih => simp [areWritable, ih]

theorem membersWritable_iff {ms : List (Name × Json)} :
    membersWritable ms = true ↔ ∀ m ∈ ms, m.1.all isCharacter = true ∧ m.2.isWritable = true := by
  induction ms with
  | nil => simp [membersWritable]
  | cons m ms ih =>
    rw [membersWritable, Bool.and_eq_true, Bool.and_eq_true, ih, List.forall_mem_cons]

/-! ## Integers -/

namespace NumberLiteral

theorem natOf_lt {ds : Text} (h : ∀ c ∈ ds, c.isDigit = true) : natOf ds < 10 ^ ds.length := by
  induction ds using List.reverseRecOn with
  | nil => decide
  | append_singleton ds c ih =>
    rw [List.forall_mem_append, List.forall_mem_singleton] at h
    have hlt := ih h.1
    have hc : c.toNat - '0'.toNat < 10 := by
      have := Char.isDigit_iff_toNat.1 h.2
      simp only [Char.reduceToNat] at this ⊢
      omega
    rw [natOf] at hlt ⊢
    rw [Nat.ofDigitChars_append, Nat.ofDigitChars_cons, Nat.ofDigitChars_nil, List.length_append,
      List.length_singleton, Nat.pow_succ]
    omega

/-- A number has no more digits than are written for it. -/
theorem length_ofNat_natOf_le {ds : Text} (h : Digits ds) :
    (Text.ofNat (natOf ds)).length ≤ ds.length :=
  Nat.toDigits_length 10 _ _ (List.length_pos_iff.2 h.1) (natOf_lt h.2)

theorem natAbs_toInt (l : NumberLiteral) : l.toInt.natAbs = natOf l.whole := by
  rw [toInt]
  split_ifs <;> omega

/-- A literal is a double, or an integer with no more digits than are allowed. -/
theorem value_cases {l : NumberLiteral} {v : Json} (h : l.value = .ok v) :
    (∃ x, v = .float x) ∨ (v = .int l.toInt ∧ l.whole.length ≤ maxDigits) := by
  rw [value] at h
  split_ifs at h with hf hd
  · exact .inl ⟨_, (Except.ok.inj h).symm⟩
  · exact .inr ⟨(Except.ok.inj h).symm, Nat.not_lt.1 hd⟩

theorem LiteralText.digits_whole {l : NumberLiteral} {t : Text} (h : LiteralText l t) :
    Digits l.whole := by
  obtain ⟨hw, -, -⟩ := h
  obtain ⟨-, -, -, hd⟩ := hw.exists_digit
  exact hd

end NumberLiteral

/-! ## Members -/

theorem mem_of_mem_setMember {k : Name} {v : Json} {ms : List (Name × Json)} {m : Name × Json}
    (h : m ∈ setMember k v ms) : m = (k, v) ∨ m ∈ ms := by
  induction ms with
  | nil => exact .inl (List.mem_singleton.1 h)
  | cons n ms ih =>
    rw [setMember] at h
    split_ifs at h with hk
    · rcases List.mem_cons.1 h with rfl | h
      · exact .inl (by rw [hk])
      · exact .inr (List.mem_cons_of_mem n h)
    · rcases List.mem_cons.1 h with rfl | h
      · exact .inr List.mem_cons_self
      · exact (ih h).imp_right (List.mem_cons_of_mem n)

theorem nodup_setMember {k : Name} {v : Json} {ms : List (Name × Json)}
    (h : (ms.map Prod.fst).Nodup) : ((setMember k v ms).map Prod.fst).Nodup := by
  induction ms with
  | nil => exact List.nodup_singleton k
  | cons n ms ih =>
    rw [List.map_cons, List.nodup_cons] at h
    rw [setMember]
    split_ifs with hk
    · exact List.nodup_cons.2 h
    · refine List.nodup_cons.2 ⟨fun hn => ?_, ih h.2⟩
      obtain ⟨m, hm, hmn⟩ := List.mem_map.1 hn
      rcases mem_of_mem_setMember hm with rfl | hm
      · exact hk hmn.symm
      · exact h.1 (List.mem_map.2 ⟨m, hm, hmn⟩)

theorem memberwise_concat (ms : List (Name × Json)) (m : Name × Json) :
    memberwise (ms ++ [m]) = setMember m.1 m.2 (memberwise ms) := by
  rw [memberwise, List.foldl_append]
  rfl

/-- Reading members makes up none. -/
theorem mem_of_mem_memberwise {ms : List (Name × Json)} {m : Name × Json}
    (h : m ∈ memberwise ms) : m ∈ ms := by
  induction ms using List.reverseRecOn with
  | nil => exact h
  | append_singleton ms n ih =>
    rw [memberwise_concat] at h
    rcases mem_of_mem_setMember h with rfl | h
    · exact List.mem_append_right ms List.mem_cons_self
    · exact List.mem_append_left [n] (ih h)

/-- The names of members that are read are distinct. -/
theorem nodup_memberwise (ms : List (Name × Json)) : ((memberwise ms).map Prod.fst).Nodup := by
  induction ms using List.reverseRecOn with
  | nil => exact List.nodup_nil
  | append_singleton ms m ih =>
    rw [memberwise_concat]
    exact nodup_setMember ih

/-! ## Values -/

section

variable {α : Type} {p : Text → α → Prop}

theorem ItemsText.exists_text {t : Text} {xs : List α} (h : ItemsText p t xs) :
    ∀ x ∈ xs, ∃ u, p u x := by
  induction h with
  | last hx _ => exact List.forall_mem_singleton.2 ⟨_, hx⟩
  | more hx _ _ _ ih => exact List.forall_mem_cons.2 ⟨⟨_, hx⟩, ih⟩

theorem ContainerText.exists_text {t : Text} {xs : List α} (h : ContainerText p t xs) :
    ∀ x ∈ xs, ∃ u, p u x := by
  cases h with
  | empty _ => exact nofun
  | items _ hi => exact hi.exists_text

end

theorem quotable_parity {s : List CodePoint} (h : s.all isCharacter = true) :
    Quotable .parity s := ⟨h, nofun⟩

theorem ScalarText.renderable {mode : EscapeMode} {n : Nat} {t : Text} {v : Json}
    (h : ScalarText t v) (hf : v.isFloatFree = true) : Renderable mode n v := by
  cases h with
  | word hw =>
    rcases mem_words hw with ⟨-, rfl⟩ | ⟨-, rfl⟩ | ⟨-, rfl⟩
    · exact .null
    · exact .bool true
    · exact .bool false
  | number hl hv =>
    rcases NumberLiteral.value_cases hv with ⟨x, rfl⟩ | ⟨rfl, hlen⟩
    · cases hf
    · refine .int ?_
      rw [NumberLiteral.natAbs_toInt]
      exact (NumberLiteral.length_ofNat_natOf_le hl.digits_whole).trans hlen

/-- A value that is written has a compact form to be read back, unless it holds a double or a
lone surrogate. -/
theorem Written.renderable {n : Nat} {t : Text} {v : Json} (h : Written n t v)
    (hf : v.isFloatFree = true) (hw : v.isWritable = true) : Renderable .parity n v := by
  induction n generalizing t v with
  | zero => exact h.elim
  | succ n ih =>
    cases h with
    | scalar hs => exact hs.renderable hf
    | string _ => exact .string (quotable_parity hw)
    | @array t xs hc =>
      rw [isFloatFree, areFloatFree_iff] at hf
      rw [isWritable, areWritable_iff] at hw
      refine .array fun x hx => ?_
      obtain ⟨u, hu⟩ := hc.exists_text x hx
      exact ih hu (hf x hx) (hw x hx)
    | @object t ms hc =>
      rw [isFloatFree, membersFloatFree_iff] at hf
      rw [isWritable, membersWritable_iff] at hw
      refine .object (nodup_memberwise ms) (fun m hm => quotable_parity (hw m hm).1) fun m hm => ?_
      -- a member that is left was read, though not every member that was read is left
      obtain ⟨u, ⟨-, -, -, hu⟩⟩ := hc.exists_text m (mem_of_mem_memberwise hm)
      exact ih hu (hf _ hm) (hw _ hm).2

end CollectionShell.Json
