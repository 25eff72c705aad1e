import CollectionShell.Proofs.Json.Rendering

/-!
# The indented form is JSON

`Json.indented` puts elements and members on lines of their own, and the grammar of JSON does
not mind : line breaks and indentation are blanks (`space_newline`), and so is the one behind
a colon. The letters that stand for five control characters are read back as these
(`legible_shortEscapedPoint`). So the indented form of a renderable value is derived as the
value, whatever the indentation, the depth that it starts at and how deep it nests
(`Renderable.written_indented`). `Json.nesting` is the depth that a reader needs for it.
-/

namespace CollectionShell.Json

/-! ## Nesting -/

mutual

/-- How many values stand inside each other, the value itself included. -/
def nesting : Json → Nat
  | .array xs => nestingOfAll xs + 1
  | .object ms => nestingOfMembers ms + 1
  | _ => 1

/-- The greatest nesting of an element. -/
def nestingOfAll : List Json → Nat
  | [] => 0
  | x :: xs => max (nesting x) (nestingOfAll xs)

/-- The greatest nesting of a member's value. -/
def nestingOfMembers : List (Name × Json) → Nat
  | [] => 0
  | (_, v) :: ms => max (nesting v) (nestingOfMembers ms)

end

theorem nesting_pos (v : Json) : 0 < v.nesting := by
  cases v <;> simp [nesting]

theorem nestingOfAll_le {n : Nat} {xs : List Json} :
    nestingOfAll xs ≤ n ↔ ∀ x ∈ xs, x.nesting ≤ n := by
  induction xs with
  | nil => simp [nestingOfAll]
  | cons x xs ih => rw [nestingOfAll, Nat.max_le, ih, List.forall_mem_cons]

theorem nestingOfMembers_le {n : Nat} {ms : List (Name × Json)} :
    nestingOfMembers ms ≤ n ↔ ∀ m ∈ ms, m.2.nesting ≤ n := by
  induction ms with
  | nil => simp [nestingOfMembers]
  | cons m ms ih => rw [nestingOfMembers, Nat.max_le, ih, List.forall_mem_cons]

/-! ## Strings -/

/-- A character is written by a letter or as in the compact form. -/
theorem shortEscapedPoint_cases (p : CodePoint) :
    (∃ e, escapeOf? e = some p ∧ shortEscapedPoint p = ['\\', e]) ∨
      shortEscapedPoint p = escapedPoint p := by
  unfold shortEscapedPoint
  split_ifs with hb hf hn hr ht
  · exact .inl ⟨'b', congrArg some (Fin.ext hb.symm), rfl⟩
  · exact .inl ⟨'f', congrArg some (Fin.ext hf.symm), rfl⟩
  · exact .inl ⟨'n', congrArg some (Fin.ext hn.symm), rfl⟩
  · exact .inl ⟨'r', congrArg some (Fin.ext hr.symm), rfl⟩
  · exact .inl ⟨'t', congrArg some (Fin.ext ht.symm), rfl⟩
  · exact .inr rfl

theorem legible_shortEscapedPoint : Legible shortEscapedPoint := by
  intro p h b ps hb
  rcases shortEscapedPoint_cases p with ⟨e, hp, he⟩ | he
  · rw [he]
    exact .escape hp hb
  · rw [he]
    exact legible_escapedPoint p h hb

/-! ## Lines -/

theorem space_newline (indent depth : Nat) : Space (newline indent depth) := by
  intro c hc
  rcases List.mem_cons.1 hc with rfl | hc
  · rfl
  · obtain rfl := List.eq_of_mem_replicate hc
    rfl

theorem space_blank : Space [' '] := List.forall_mem_singleton.2 rfl

/-- A member with a blank behind the colon. -/
def indentedMember (indent depth : Nat) (m : Name × Json) : Text :=
  literal shortEscapedPoint m.1 ++ ':' :: ' ' :: indented indent depth m.2

theorem indentedElements_eq (indent depth : Nat) (xs : List Json) :
    indentedElements indent depth xs =
      Text.joinWith [','] ((xs.map (indented indent depth)).map (newline indent depth ++ ·)) := by
  rw [List.map_map]
  exact eq_joinWith rfl (fun _ => rfl) (fun _ _ _ => rfl) xs

theorem indentedMembers_eq (indent depth : Nat) (ms : List (Name × Json)) :
    indentedMembers indent depth ms =
      Text.joinWith [','] ((ms.map (indentedMember indent depth)).map
        (newline indent depth ++ ·)) := by
  rw [List.map_map]
  refine eq_joinWith rfl (fun m => ?_) (fun m m' ms => ?_) ms
  · simp [indentedMembers, indentedMember]
  · simp [indentedMembers, indentedMember]

variable {mode : EscapeMode}

theorem memberText_indentedMember {indent depth : Nat} {m : Name × Json} {p : Text → Json → Prop}
    (hk : Quotable mode m.1) (hv : p (indented indent depth m.2) m.2) :
    MemberText p (indentedMember indent depth m) m := by
  have := MemberText.mk (legible_shortEscapedPoint.stringText hk.characters) space_nil
    space_blank hv
  simpa [indentedMember] using this

/-- Items on lines of their own fill a container. -/
theorem containerText_lines {α : Type} {p : Text → α → Prop} {f : α → Text} {xs : List α}
    (indent depth : Nat) (h : ∀ x ∈ xs, p (f x) x) :
    ContainerText p (Text.joinWith [','] ((xs.map f).map (newline indent (depth + 1) ++ ·)) ++
      newline indent depth) xs :=
  containerText_spread (space_newline indent (depth + 1)) (space_newline indent depth)
    (forall₂_map_self h)

/-! ## Values -/

/-- The indented form of a renderable value is derived as the value. -/
theorem Renderable.written_indented {k n : Nat} {v : Json} (h : Renderable mode k v)
    (indent depth : Nat) (hn : v.nesting ≤ n) : Written n (indented indent depth v) v := by
  obtain ⟨n, rfl⟩ := Nat.exists_eq_add_of_le' (v.nesting_pos.trans_le hn)
  induction h generalizing depth n with
  | null => exact ValueText.scalar scalarText_null
  | bool b => exact ValueText.scalar (scalarText_bool b)
  | int hi => exact ValueText.scalar (scalarText_ofInt hi)
  | string hs => exact ValueText.string (legible_shortEscapedPoint.stringText hs.characters)
  | @array k xs _ ih =>
    rw [nesting, Nat.add_le_add_iff_right, nestingOfAll_le] at hn
    cases xs with
    | nil => exact ValueText.array (.empty space_nil)
    | cons x xs =>
      rw [indented, indentedElements_eq, List.cons_append]
      refine ValueText.array (containerText_lines indent depth fun y hy => ?_)
      -- an element needs a reader of its own, so the depth that is left is not zero
      obtain ⟨n, rfl⟩ := Nat.exists_eq_add_of_le' (y.nesting_pos.trans_le (hn y hy))
      exact ih y hy (depth + 1) n (hn y hy)
  | @object k ms hd hk _ ih =>
    rw [nesting, Nat.add_le_add_iff_right, nestingOfMembers_le] at hn
    cases ms with
    | nil => exact ValueText.object (.empty space_nil)
    | cons m ms =>
      rw [indented, indentedMembers_eq, List.cons_append]
      nth_rewrite 2 [← memberwise_eq_self hd]
      refine ValueText.object (containerText_lines indent depth fun m' hm => ?_)
      obtain ⟨n, rfl⟩ := Nat.exists_eq_add_of_le' (m'.2.nesting_pos.trans_le (hn m' hm))
      exact memberText_indentedMember (hk m' hm) (ih m' hm (depth + 1) n (hn m' hm))

end CollectionShell.Json
