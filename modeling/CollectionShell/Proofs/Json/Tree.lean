import CollectionShell.Proofs.Json.Magnitude
import CollectionShell.Proofs.Json.WrittenValues

/-!
# Trees of JSON texts

What the grammar derives is a tree (`Tree`), in which every number stands as the literal it is
written as and an object holds all the members that are written, repeated names included.
`Derived t d` says that the text derives the tree, and `Document t d` allows the four blanks of
JSON around it. `Tree.denoted` is the value that a tree denotes : each name of an object at its
first place and with its last value (`lastValues`), strings with the halves of a surrogate pair
joined (`pairsJoined`), a literal of an integer as the number that its digits denote.

The grammar of values is the grammar of trees with the value read off (`written_iff`) : the text
of a value that nests no deeper than `n` is that of a tree of height `n` at most whose integers
have no more digits than are allowed.
-/

namespace CollectionShell.Json

/-! ## Trees -/

/-- A JSON text as the grammar takes it apart. -/
inductive Tree
  | null
  | bool (b : Bool)
  | number (l : NumberLiteral)
  /-- A string, its escapes by number read as the code units that they denote. -/
  | string (units : List CodePoint)
  | array (elements : List Tree)
  /-- All members that are written, in order. -/
  | object (members : List (List CodePoint × Tree))

/-- The literal has neither a fraction nor an exponent. -/
def NumberLiteral.IsInteger (l : NumberLiteral) : Prop := l.fraction = none ∧ l.exponent = none

instance (l : NumberLiteral) : Decidable l.IsInteger := inferInstanceAs (Decidable (_ ∧ _))

namespace Tree

/-- The number literal stands somewhere in the tree. -/
inductive Holds : Tree → NumberLiteral → Prop
  | number (l : NumberLiteral) : Holds (.number l) l
  | element {ds : List Tree} {d : Tree} {l : NumberLiteral} : d ∈ ds → Holds d l →
      Holds (.array ds) l
  | member {ms : List (List CodePoint × Tree)} {m : List CodePoint × Tree} {l : NumberLiteral} :
      m ∈ ms → Holds m.2 l → Holds (.object ms) l

/-- No integer of the tree has more than `limit` digits. -/
def IntegersWithin (limit : Nat) (d : Tree) : Prop :=
  ∀ l, d.Holds l → l.IsInteger → l.whole.length ≤ limit

mutual

/-- How many trees stand inside each other, the tree itself included. -/
def height : Tree → Nat
  | .array ds => heightOfAll ds + 1
  | .object ms => heightOfMembers ms + 1
  | _ => 1

/-- The greatest height of an element. -/
def heightOfAll : List Tree → Nat
  | [] => 0
  | d :: ds => max (height d) (heightOfAll ds)

/-- The greatest height of a member's tree. -/
def heightOfMembers : List (List CodePoint × Tree) → Nat
  | [] => 0
  | (_, d) :: ms => max (height d) (heightOfMembers ms)

end

end Tree

/-! ## The grammar -/

mutual

/-- The text derives the tree. -/
inductive Derived : Text → Tree → Prop
  | null : Derived ['n', 'u', 'l', 'l'] .null
  | true : Derived ['t', 'r', 'u', 'e'] (.bool true)
  | false : Derived ['f', 'a', 'l', 's', 'e'] (.bool false)
  | number {l : NumberLiteral} {t : Text} : NumberLiteral.LiteralText l t → Derived t (.number l)
  | string {t : Text} {us : List CodePoint} : UnitsText t us →
      Derived ('\x22' :: t ++ ['\x22']) (.string us)
  | array {t : Text} {ds : List Tree} : ContainerText Derived t ds →
      Derived ('[' :: t ++ [']']) (.array ds)
  | object {t : Text} {ms : List (List CodePoint × Tree)} : ContainerText DerivedMember t ms →
      Derived ('\x7b' :: t ++ ['\x7d']) (.object ms)

/-- The text derives the member : a name, a colon and a value, with blanks around the colon. -/
inductive DerivedMember : Text → List CodePoint × Tree → Prop
  | mk {k s p t : Text} {us : List CodePoint} {d : Tree} : UnitsText k us → Space s → Space p →
      Derived t d → DerivedMember ('\x22' :: k ++ ['\x22'] ++ s ++ ':' :: p ++ t) (us, d)

end

/-- The text derives the tree with blanks around it. -/
def Document (t : Text) (d : Tree) : Prop :=
  ∃ p u s, Space p ∧ Space s ∧ Derived u d ∧ t = p ++ u ++ s

/-! ## What trees denote -/

/-- The code points of code units from the left on : both halves of a surrogate pair are one code
point, a half that stands alone is one of its own. -/
def pairsJoined : List CodePoint → List CodePoint
  | [] => []
  | [p] => [p]
  | p :: q :: rest =>
    if p.isHigh && q.isLow then CodePoint.ofPair p q :: pairsJoined rest
    else p :: pairsJoined (q :: rest)

/-- Each name that members have, at its first place and with its last value. -/
def lastValues (ms : List (Name × Json)) : List (Name × Json) :=
  (ms.map Prod.fst).eraseDups.map fun k => (k, (ms.reverse.lookup k).getD .null)

namespace Tree

mutual

/-- The value that a tree denotes. -/
def denoted : Tree → Json
  | .null => .null
  | .bool b => .bool b
  | .number l => if l.IsInteger then .int l.integer else .float l.toDouble
  | .string us => .string (pairsJoined us)
  | .array ds => .array (allDenoted ds)
  | .object ms => .object (lastValues (membersDenoted ms))

/-- The values that elements denote. -/
def allDenoted : List Tree → List Json
  | [] => []
  | d :: ds => denoted d :: allDenoted ds

/-- The names and values that members denote. -/
def membersDenoted : List (List CodePoint × Tree) → List (Name × Json)
  | [] => []
  | (us, d) :: ms => (pairsJoined us, denoted d) :: membersDenoted ms

end

/-- The name and the value that a member denotes. -/
def memberDenoted (m : List CodePoint × Tree) : Name × Json := (pairsJoined m.1, m.2.denoted)

theorem allDenoted_eq (ds : List Tree) : allDenoted ds = ds.map denoted := by
  induction ds with
  | nil => rfl
  | cons d ds ih => rw [allDenoted, ih, List.map_cons]

theorem membersDenoted_eq (ms : List (List CodePoint × Tree)) :
    membersDenoted ms = ms.map memberDenoted := by
  induction ms with
  | nil => rfl
  | cons m ms ih => rw [membersDenoted, ih, List.map_cons, memberDenoted]

theorem denoted_array (ds : List Tree) : (Tree.array ds).denoted = .array (ds.map denoted) := by
  rw [denoted, allDenoted_eq]

theorem denoted_object (ms : List (List CodePoint × Tree)) :
    (Tree.object ms).denoted = .object (lastValues (ms.map memberDenoted)) := by
  rw [denoted, membersDenoted_eq]

/-! ## Heights -/

theorem height_pos (d : Tree) : 0 < d.height := by
  cases d <;> simp [height]

theorem heightOfAll_le {n : Nat} {ds : List Tree} :
    heightOfAll ds ≤ n ↔ ∀ d ∈ ds, d.height ≤ n := by
  induction ds with
  | nil => simp [heightOfAll]
  | cons d ds ih => rw [heightOfAll, Nat.max_le, ih, List.forall_mem_cons]

theorem heightOfMembers_le {n : Nat} {ms : List (List CodePoint × Tree)} :
    heightOfMembers ms ≤ n ↔ ∀ m ∈ ms, m.2.height ≤ n := by
  induction ms with
  | nil => simp [heightOfMembers]
  | cons m ms ih => rw [heightOfMembers, Nat.max_le, ih, List.forall_mem_cons]

theorem height_array_le {n : Nat} {ds : List Tree} :
    (Tree.array ds).height ≤ n + 1 ↔ ∀ d ∈ ds, d.height ≤ n := by
  rw [height, Nat.add_le_add_iff_right, heightOfAll_le]

theorem height_object_le {n : Nat} {ms : List (List CodePoint × Tree)} :
    (Tree.object ms).height ≤ n + 1 ↔ ∀ m ∈ ms, m.2.height ≤ n := by
  rw [height, Nat.add_le_add_iff_right, heightOfMembers_le]

/-! ## Digits of integers -/

theorem integersWithin_number {limit : Nat} {l : NumberLiteral} :
    (Tree.number l).IntegersWithin limit ↔ (l.IsInteger → l.whole.length ≤ limit) := by
  refine ⟨fun h => h l (.number l), fun h l' hl => ?_⟩
  cases hl
  exact h

theorem integersWithin_array {limit : Nat} {ds : List Tree} :
    (Tree.array ds).IntegersWithin limit ↔ ∀ d ∈ ds, d.IntegersWithin limit := by
  refine ⟨fun h d hd l hl => h l (.element hd hl), fun h l hl => ?_⟩
  cases hl with
  | element hd hl => exact h _ hd l hl

theorem integersWithin_object {limit : Nat} {ms : List (List CodePoint × Tree)} :
    (Tree.object ms).IntegersWithin limit ↔ ∀ m ∈ ms, m.2.IntegersWithin limit := by
  refine ⟨fun h m hm l hl => h l (.member hm hl), fun h l hl => ?_⟩
  cases hl with
  | member hm hl => exact h _ hm l hl

end Tree

/-! ## Surrogate pairs -/

theorem not_isLow_of_isHigh {p : CodePoint} (h : p.isHigh = true) : p.isLow = false := by
  simp only [CodePoint.isHigh, CodePoint.isLow, Bool.and_eq_true, decide_eq_true_eq,
    Bool.and_eq_false_iff, decide_eq_false_iff_not] at h ⊢
  omega

theorem not_isLow_ofPair {p q : CodePoint} (hp : p.isHigh = true) (hq : q.isLow = true) :
    (CodePoint.ofPair p q).isLow = false := by
  simp only [CodePoint.isHigh, CodePoint.isLow, Bool.and_eq_true, decide_eq_true_eq] at hp hq
  have hlt : 0x10000 + (p.val - 0xD800) * 0x400 + (q.val - 0xDC00) < 0x110000 := by omega
  simp only [CodePoint.isLow, CodePoint.ofPair, CodePoint.ofNat, dif_pos hlt,
    Bool.and_eq_false_iff, decide_eq_false_iff_not]
  omega

/-- A half in front of code points that do not start with its other half stands alone. -/
theorem consPair_of_head {p : CodePoint} {ps : List CodePoint}
    (h : ∀ q, ps.head? = some q → (p.isHigh && q.isLow) = false) :
    CodePoint.consPair p ps = p :: ps := by
  cases ps with
  | nil => rfl
  | cons q ps => rw [CodePoint.consPair, h q rfl, if_neg (by decide)]

/-- Joining from the right on is joining from the left on, for a joined pair is no half. -/
theorem joinPairs_eq (us : List CodePoint) : CodePoint.joinPairs us = pairsJoined us := by
  have hstep : ∀ p ps, CodePoint.joinPairs (p :: ps) =
      CodePoint.consPair p (CodePoint.joinPairs ps) := fun _ _ => rfl
  fun_induction pairsJoined us with
  | case1 => rfl
  | case2 p => rfl
  | case3 p q rest hpq ih =>
    have hq : q.isHigh = false := by
      rw [Bool.and_eq_true] at hpq
      by_contra hh
      rw [not_isLow_of_isHigh (by simpa using hh)] at hpq
      exact Bool.false_ne_true hpq.2
    have hinner : CodePoint.consPair q (CodePoint.joinPairs rest) = q :: pairsJoined rest := by
      rw [consPair_of_head fun r _ => by rw [hq, Bool.false_and], ih]
    rw [hstep, hstep, hinner, CodePoint.consPair, if_pos hpq]
  | case4 p q rest hpq ih =>
    rw [hstep, ih]
    refine consPair_of_head fun r hr => ?_
    -- the first code point behind `p` is `q`, or a pair that `q` starts
    cases rest with
    | nil =>
      obtain rfl := Option.some.inj hr
      simpa using hpq
    | cons s rest =>
      rw [pairsJoined] at hr
      split_ifs at hr with hqs
      · obtain rfl := Option.some.inj hr
        rw [Bool.and_eq_true] at hqs
        rw [not_isLow_ofPair hqs.1 hqs.2, Bool.and_false]
      · obtain rfl := Option.some.inj hr
        simpa using hpq

/-! ## Repeated names -/

theorem setMember_map {names : List Name} (h : names.Nodup) (f : Name → Json) {k : Name}
    (hk : k ∈ names) (v : Json) :
    setMember k v (names.map fun n => (n, f n)) =
      names.map fun n => (n, if n = k then v else f n) := by
  induction names with
  | nil => cases hk
  | cons n names ih =>
    rw [List.nodup_cons] at h
    rw [List.map_cons, List.map_cons, setMember]
    split_ifs with hn
    · subst hn
      congr 1
      refine List.map_congr_left fun m hm => ?_
      have hne : m ≠ n := fun heq => h.1 (heq ▸ hm)
      rw [if_neg hne]
    · rw [ih h.2 ((List.mem_cons.1 hk).resolve_left (Ne.symm hn))]

/-- Setting members one after another leaves each name at its first place with its last value. -/
theorem memberwise_eq (ms : List (Name × Json)) : memberwise ms = lastValues ms := by
  induction ms using List.reverseRecOn with
  | nil => rfl
  | append_singleton ms m ih =>
    obtain ⟨k, v⟩ := m
    have hnames : (lastValues ms).map Prod.fst = (ms.map Prod.fst).eraseDups := by
      rw [lastValues, List.map_map]
      exact List.map_id _
    have hnodup : (ms.map Prod.fst).eraseDups.Nodup := by
      rw [← hnames, ← ih]
      exact nodup_memberwise ms
    have hlookup : ∀ n, ((ms ++ [(k, v)]).reverse.lookup n).getD .null =
        if n = k then v else (ms.reverse.lookup n).getD .null := by
      intro n
      rw [List.reverse_append, List.reverse_singleton, List.singleton_append]
      by_cases h : n = k
      · simp [h]
      · simp [List.lookup_cons, h, beq_false_of_ne h]
    have hlast : lastValues (ms ++ [(k, v)]) = (ms.map Prod.fst ++ [k]).eraseDups.map fun n =>
        (n, if n = k then v else (ms.reverse.lookup n).getD .null) := by
      rw [lastValues, List.map_append]
      exact List.map_congr_left fun n _ => by rw [hlookup]
    rw [memberwise_concat, ih, hlast, List.eraseDups_append]
    by_cases hk : k ∈ ms.map Prod.fst
    · rw [lastValues, setMember_map hnodup _ (List.mem_eraseDups.2 hk)]
      simp [List.removeAll, hk]
    · rw [setMember_of_not_mem (by rwa [hnames, List.mem_eraseDups]), lastValues]
      have hold : ∀ n ∈ (ms.map Prod.fst).eraseDups,
          (n, if n = k then v else (ms.reverse.lookup n).getD .null) =
            (n, (ms.reverse.lookup n).getD .null) := by
        intro n hn
        have hne : n ≠ k := fun heq => hk (heq ▸ List.mem_eraseDups.1 hn)
        rw [if_neg hne]
      have hnew : ([k].removeAll (ms.map Prod.fst)).eraseDups = [k] := by
        simp [List.removeAll, hk, List.eraseDups_cons]
      rw [hnew, List.map_append, List.map_congr_left hold, List.map_singleton, if_pos rfl]

/-! ## Trees of values -/

section

variable {α β : Type} {p : Text → α → Prop} {q : Text → β → Prop} {f : β → α} {P : β → Prop}

/-- Items that are read off others are the items of a text exactly as these are. -/
theorem ItemsText.exists_map (h : ∀ t x, p t x → ∃ y, q t y ∧ P y ∧ f y = x) {t : Text}
    {xs : List α} (ht : ItemsText p t xs) :
    ∃ ys, ItemsText q t ys ∧ (∀ y ∈ ys, P y) ∧ ys.map f = xs := by
  induction ht with
  | last hx hs =>
    obtain ⟨y, hy, hP, rfl⟩ := h _ _ hx
    exact ⟨[y], .last hy hs, List.forall_mem_singleton.2 hP, rfl⟩
  | more hx hs hp _ ih =>
    obtain ⟨y, hy, hP, rfl⟩ := h _ _ hx
    obtain ⟨ys, hys, hPs, rfl⟩ := ih
    exact ⟨y :: ys, .more hy hs hp hys, List.forall_mem_cons.2 ⟨hP, hPs⟩, rfl⟩

theorem ContainerText.exists_map (h : ∀ t x, p t x → ∃ y, q t y ∧ P y ∧ f y = x) {t : Text}
    {xs : List α} (ht : ContainerText p t xs) :
    ∃ ys, ContainerText q t ys ∧ (∀ y ∈ ys, P y) ∧ ys.map f = xs := by
  cases ht with
  | empty hs => exact ⟨[], .empty hs, nofun, rfl⟩
  | items hp hi =>
    obtain ⟨ys, hys, hPs, rfl⟩ := hi.exists_map h
    exact ⟨ys, .items hp hys, hPs, rfl⟩

theorem ItemsText.map {t : Text} {ys : List β} (ht : ItemsText q t ys)
    (h : ∀ u, ∀ y ∈ ys, q u y → p u (f y)) : ItemsText p t (ys.map f) := by
  induction ht with
  | last hy hs => exact .last (h _ _ List.mem_cons_self hy) hs
  | more hy hs hp _ ih =>
    exact .more (h _ _ List.mem_cons_self hy) hs hp
      (ih fun u z hz => h u z (List.mem_cons_of_mem _ hz))

theorem ContainerText.map {t : Text} {ys : List β} (ht : ContainerText q t ys)
    (h : ∀ u, ∀ y ∈ ys, q u y → p u (f y)) : ContainerText p t (ys.map f) := by
  cases ht with
  | empty hs => exact .empty hs
  | items hp hi => exact .items hp (hi.map h)

end

/-- A literal has a value exactly if it is no integer of too many digits. -/
theorem NumberLiteral.value_eq_ok {l : NumberLiteral} {v : Json} :
    l.value = .ok v ↔
      (Tree.number l).IntegersWithin maxDigits ∧ (Tree.number l).denoted = v := by
  have hint : (l.fraction.isSome || l.exponent.isSome) = true ↔ ¬l.IsInteger := by
    rw [NumberLiteral.IsInteger, Bool.or_eq_true, not_and_or, Option.isSome_iff_ne_none,
      Option.isSome_iff_ne_none]
  rw [value, Tree.integersWithin_number, Tree.denoted, toInt_eq]
  simp only [hint]
  by_cases hl : l.IsInteger
  · rw [if_neg (not_not_intro hl), if_pos hl]
    split_ifs with hd
    · exact iff_of_false (fun h => by cases h) fun h => Nat.not_le.2 hd (h.1 hl)
    · exact ⟨fun h => ⟨fun _ => Nat.not_lt.1 hd, Except.ok.inj h⟩, fun h => by rw [h.2]⟩
  · rw [if_pos hl, if_neg hl]
    exact ⟨fun h => ⟨fun h => absurd h hl, Except.ok.inj h⟩, fun h => by rw [h.2]⟩

/-- The text of a value is that of a tree that denotes it. -/
theorem Written.exists_derived {n : Nat} {t : Text} {v : Json} (h : Written n t v) :
    ∃ d, Derived t d ∧ (d.height ≤ n ∧ d.IntegersWithin maxDigits) ∧ d.denoted = v := by
  induction n generalizing t v with
  | zero => exact h.elim
  | succ n ih =>
    cases h with
    | scalar hv =>
      cases hv with
      | word hw =>
        rcases mem_words hw with ⟨rfl, rfl⟩ | ⟨rfl, rfl⟩ | ⟨rfl, rfl⟩
        · exact ⟨.null, .null, ⟨by simp [Tree.height], nofun⟩, rfl⟩
        · exact ⟨.bool true, .true, ⟨by simp [Tree.height], nofun⟩, rfl⟩
        · exact ⟨.bool false, .false, ⟨by simp [Tree.height], nofun⟩, rfl⟩
      | number hl hv =>
        obtain ⟨hd, hv⟩ := NumberLiteral.value_eq_ok.1 hv
        exact ⟨.number _, .number hl, ⟨by simp [Tree.height], hd⟩, hv⟩
    | string hs =>
      obtain @⟨b, us, hb⟩ := hs
      refine ⟨.string us, .string hb, ⟨by simp [Tree.height], nofun⟩, ?_⟩
      rw [Tree.denoted, joinPairs_eq]
    | array hc =>
      obtain ⟨ds, hds, hP, rfl⟩ := hc.exists_map fun t v (hv : Written n t v) => ih hv
      exact ⟨.array ds, .array hds, ⟨Tree.height_array_le.2 fun d hd => (hP d hd).1,
        Tree.integersWithin_array.2 fun d hd => (hP d hd).2⟩, Tree.denoted_array ds⟩
    | object hc =>
      have hmember : ∀ t m, MemberText (Written n) t m → ∃ m', DerivedMember t m' ∧
          (m'.2.height ≤ n ∧ m'.2.IntegersWithin maxDigits) ∧ Tree.memberDenoted m' = m := by
        rintro _ _ ⟨hk, hs, hp, hv⟩
        obtain @⟨b, us, hb⟩ := hk
        obtain ⟨d, hd, hP, rfl⟩ := ih hv
        exact ⟨(us, d), .mk hb hs hp hd, hP, by rw [Tree.memberDenoted, joinPairs_eq]⟩
      obtain ⟨ms, hms, hP, rfl⟩ := hc.exists_map hmember
      refine ⟨.object ms, .object hms, ⟨Tree.height_object_le.2 fun m hm => (hP m hm).1,
        Tree.integersWithin_object.2 fun m hm => (hP m hm).2⟩, ?_⟩
      rw [Tree.denoted_object, memberwise_eq]

/-- The text of a tree is that of the value that it denotes. -/
theorem Derived.written {n : Nat} {t : Text} {d : Tree} (h : Derived t d) (hn : d.height ≤ n)
    (hi : d.IntegersWithin maxDigits) : Written n t d.denoted := by
  induction n generalizing t d with
  | zero => exact absurd hn (Nat.not_le.2 d.height_pos)
  | succ n ih =>
    cases h with
    | null => exact ValueText.scalar (.word (by simp [words, Tree.denoted]))
    | true => exact ValueText.scalar (.word (by simp [words, Tree.denoted]))
    | false => exact ValueText.scalar (.word (by simp [words, Tree.denoted]))
    | number hl =>
      exact ValueText.scalar (.number hl (NumberLiteral.value_eq_ok.2 ⟨hi, rfl⟩))
    | string hu =>
      rw [Tree.denoted, ← joinPairs_eq]
      exact ValueText.string (.mk hu)
    | array hc =>
      rw [Tree.height_array_le] at hn
      rw [Tree.integersWithin_array] at hi
      rw [Tree.denoted_array]
      exact ValueText.array (hc.map fun u d hd hu => ih hu (hn d hd) (hi d hd))
    | object hc =>
      rw [Tree.height_object_le] at hn
      rw [Tree.integersWithin_object] at hi
      rw [Tree.denoted_object, ← memberwise_eq]
      refine ValueText.object (hc.map fun u m hm hu => ?_)
      obtain ⟨hk, hs, hp, hd⟩ := hu
      rw [Tree.memberDenoted, ← joinPairs_eq]
      exact .mk (.mk hk) hs hp (ih hd (hn _ hm) (hi _ hm))

/-- Values nested no deeper than a depth are written as trees of that height are. -/
theorem written_iff {n : Nat} {t : Text} {v : Json} :
    Written n t v ↔
      ∃ d, Derived t d ∧ (d.height ≤ n ∧ d.IntegersWithin maxDigits) ∧ d.denoted = v := by
  refine ⟨Written.exists_derived, ?_⟩
  rintro ⟨d, hd, ⟨hn, hi⟩, rfl⟩
  exact hd.written hn hi

/-- A whole text is read exactly if it is a document of a height that the depth allows and of
integers that have no more digits than are allowed. -/
theorem decodeWithin_eq_ok_iff_document {n : Nat} {t : Text} {v : Json} :
    decodeWithin n t = .ok v ↔
      ∃ d, Document t d ∧ (d.height ≤ n ∧ d.IntegersWithin maxDigits) ∧ d.denoted = v := by
  rw [decodeWithin_eq_ok]
  constructor
  · rintro ⟨p, u, s, hp, hs, hu, rfl⟩
    obtain ⟨d, hd, h⟩ := hu.exists_derived
    exact ⟨d, ⟨p, u, s, hp, hs, hd, rfl⟩, h⟩
  · rintro ⟨d, ⟨p, u, s, hp, hs, hd, rfl⟩, h⟩
    exact ⟨p, u, s, hp, hs, written_iff.2 ⟨d, hd, h⟩, rfl⟩

end CollectionShell.Json
