import CollectionShell.Proofs.Json.Magnitude
import CollectionShell.Proofs.Json.Tree

/-!
# Where infinities come from

No value that is read holds a number that is no number, for a `Double` is finite or an infinity,
and none comes from a word, for the words of infinities are faults. It holds an infinity exactly if
a literal with a fraction or an exponent that the value keeps denotes a number of
`Double.overflow` or above (`isFinite_denoted`). A literal is kept unless it stands in a member
whose name comes again in the same object (`Tree.Keeps`).
-/

namespace CollectionShell.Json

/-! ## Finite values -/

mutual

/-- No double of the value is an infinity. -/
def isFinite : Json → Bool
  | .float x => x.isFinite
  | .array xs => areFinite xs
  | .object ms => membersFinite ms
  | _ => true

/-- As `isFinite`, for all elements. -/
def areFinite : List Json → Bool
  | [] => true
  | x :: xs => isFinite x && areFinite xs

/-- As `isFinite`, for all values. -/
def membersFinite : List (Name × Json) → Bool
  | [] => true
  | (_, v) :: ms => isFinite v && membersFinite ms

end

theorem areFinite_iff {xs : List Json} :
    areFinite xs = true ↔ ∀ x ∈ xs, x.isFinite = true := by
  induction xs with
  | nil => simp [areFinite]
  | cons x xs ih => simp [areFinite, ih]

theorem membersFinite_iff {ms : List (Name × Json)} :
    membersFinite ms = true ↔ ∀ m ∈ ms, m.2.isFinite = true := by
  induction ms with
  | nil => simp [membersFinite]
  | cons m ms ih => simp [membersFinite, ih]

/-! ## Kept literals -/

/-- The number literal stands in the tree, in no member whose name comes again in its object. -/
inductive Tree.Keeps : Tree → NumberLiteral → Prop
  | number (l : NumberLiteral) : Keeps (.number l) l
  | element {ds : List Tree} {d : Tree} {l : NumberLiteral} : d ∈ ds → Keeps d l →
      Keeps (.array ds) l
  | member {older newer : List (List CodePoint × Tree)} {m : List CodePoint × Tree}
      {l : NumberLiteral} : (∀ m' ∈ newer, pairsJoined m'.1 ≠ pairsJoined m.1) → Keeps m.2 l →
      Keeps (.object (older ++ m :: newer)) l

/-- The members that are left are those whose names do not come again. -/
theorem mem_lastValues {ms : List (Name × Json)} {m : Name × Json} :
    m ∈ lastValues ms ↔
      ∃ older newer, ms = older ++ m :: newer ∧ ∀ m' ∈ newer, m'.1 ≠ m.1 := by
  obtain ⟨k, v⟩ := m
  have hlookup : ms.reverse.lookup k = some v ↔
      ∃ older newer, ms = older ++ (k, v) :: newer ∧ ∀ m' ∈ newer, m'.1 ≠ k := by
    rw [List.lookup_eq_some_iff]
    constructor
    · rintro ⟨newer, older, hms, hk⟩
      refine ⟨older.reverse, newer.reverse, ?_, fun m' hm' => ?_⟩
      · rw [← List.reverse_reverse ms, hms]
        simp
      · exact (bne_iff_ne.1 (hk m' (List.mem_reverse.1 hm'))).symm
    · rintro ⟨older, newer, rfl, hk⟩
      exact ⟨newer.reverse, older.reverse, by simp,
        fun m' hm' => bne_iff_ne.2 (hk m' (List.mem_reverse.1 hm')).symm⟩
  rw [← hlookup, lastValues, List.mem_map]
  constructor
  · rintro ⟨k', hk', heq⟩
    obtain ⟨rfl, hv⟩ := Prod.mk.inj heq
    obtain ⟨m, hm, hmk⟩ := List.mem_map.1 (List.mem_eraseDups.1 hk')
    cases hl : ms.reverse.lookup k' with
    | none =>
      have := List.lookup_eq_none_iff.1 hl m (List.mem_reverse.2 hm)
      simp [hmk] at this
    | some w => rw [← hv, hl, Option.getD_some]
  · intro h
    obtain ⟨older, newer, rfl, -⟩ := hlookup.1 h
    refine ⟨k, List.mem_eraseDups.2 ?_, by rw [h, Option.getD_some]⟩
    simp

/-- A value is finite exactly if the literals that it keeps are integers or below `overflow`. -/
theorem isFinite_denoted {d : Tree} :
    d.denoted.isFinite = true ↔ ∀ l, d.Keeps l → l.IsInteger ∨ l.magnitude < Double.overflow := by
  obtain ⟨n, hn⟩ : ∃ n, d.height ≤ n := ⟨_, le_rfl⟩
  induction n generalizing d with
  | zero => exact absurd hn (Nat.not_le.2 d.height_pos)
  | succ n ih =>
    cases d with
    | null => exact iff_of_true rfl nofun
    | bool b => exact iff_of_true rfl nofun
    | string us => exact iff_of_true rfl nofun
    | number l =>
      have hl : (Tree.number l).denoted.isFinite = true ↔
          l.IsInteger ∨ l.magnitude < Double.overflow := by
        rw [Tree.denoted, ← l.rounds_toDouble.isFinite_iff]
        split_ifs with hi
        · exact iff_of_true rfl (.inl hi)
        · simp [isFinite, hi]
      rw [hl]
      refine ⟨fun h l' hl' => ?_, fun h => h l (.number l)⟩
      cases hl'
      exact h
    | array ds =>
      rw [Tree.height_array_le] at hn
      rw [Tree.denoted_array, isFinite, areFinite_iff, List.forall_mem_map]
      constructor
      · intro h l hl
        cases hl with
        | element hd hl => exact (ih (hn _ hd)).1 (h _ hd) l hl
      · exact fun h d hd => (ih (hn d hd)).2 fun l hl => h l (.element hd hl)
    | object ms =>
      rw [Tree.height_object_le] at hn
      rw [Tree.denoted_object, isFinite, membersFinite_iff]
      constructor
      · intro h l hl
        cases hl with
        | @member older newer m _ hlast hl =>
          refine (ih (hn m (by simp))).1 (h (Tree.memberDenoted m) (mem_lastValues.2 ?_)) l hl
          refine ⟨older.map Tree.memberDenoted, newer.map Tree.memberDenoted, by simp, ?_⟩
          exact List.forall_mem_map.2 hlast
      · intro h m hm
        obtain ⟨older, newer, hms, hlast⟩ := mem_lastValues.1 hm
        obtain ⟨older', rest, rfl, rfl, hrest⟩ := List.map_eq_append_iff.1 hms
        obtain ⟨m', newer', rfl, rfl, rfl⟩ := List.map_eq_cons_iff.1 hrest
        refine (ih (hn m' (by simp))).2 fun l hl => h l (.member (fun m'' hm'' => ?_) hl)
        exact hlast _ (List.mem_map_of_mem hm'')

end CollectionShell.Json
