import CollectionShell.Proofs.Operation.Validity
import Mathlib

/-!
# The first rule that a call breaks

What the rules ask of a call, said without the checks (`ValidCall`), and what a call breaks first
of them, in the order in which they are told (`FirstViolation`) : the name of the collection, the
name of the method, whether there is such a method, too few arguments, too many, and the kinds of
the arguments one by one. A violation comes with the wording that a user is shown.

`validate_decides` : a call means a method exactly if it is valid for it, and none exactly for the
first violation.
-/

namespace CollectionShell.Operation

/-! ## What the rules ask -/

/-- A letter of ASCII. -/
def IsLetter (c : Char) : Prop := 'A' ≤ c ∧ c ≤ 'Z' ∨ 'a' ≤ c ∧ c ≤ 'z'

/-- A letter or an underscore, then letters, digits, underscores, points and hyphens, and nothing
behind them. -/
def Identifier (t : Text) : Prop :=
  ∃ c rest, t = c :: rest ∧ (IsLetter c ∨ c = '_') ∧
    ∀ d ∈ rest, IsLetter d ∨ ('0' ≤ d ∧ d ≤ '9') ∨ d = '_' ∨ d = '.' ∨ d = '-'

/-- The names of a call are identifiers, and the second is that of the method. -/
structure Names (x y : Text) (m : Method) : Prop where
  collection : Identifier x
  method : Identifier y
  named : y = m.name.toList

/-- The value is of the kind, which its form alone decides. -/
inductive OfKind : Json → Json.Kind → Prop
  | null : OfKind .null .null
  | bool (b : Bool) : OfKind (.bool b) .boolean
  | int (n : Int) : OfKind (.int n) .number
  | float (x : Double) : OfKind (.float x) .number
  | string (points : List CodePoint) : OfKind (.string points) .string
  | array (elements : List Json) : OfKind (.array elements) .sequence
  | object (members : List (Json.Name × Json)) : OfKind (.object members) .mapping

/-- A method takes a value in a place : one of a kind that the parameter there accepts, or null
where no argument is required. -/
def Takes (m : Method) (i : Nat) (v : Json) : Prop :=
  (∃ p kind, m.parameters[i]? = some p ∧ OfKind v kind ∧ kind ∈ p.accepts) ∨
    v = .null ∧ m.required ≤ i

/-- The call breaks no rule of the method. -/
structure ValidCall (x y : Text) (vs : List Json) (m : Method) : Prop where
  names : Names x y m
  enough : m.required ≤ vs.length
  notMore : vs.length ≤ m.limit
  taken : ∀ i v, vs[i]? = some v → Takes m i v

/-- The method does not take the value in a place, and takes those in front of it. -/
structure FirstUntaken (m : Method) (vs : List Json) (i : Nat) (v : Json) : Prop where
  value : vs[i]? = some v
  untaken : ¬Takes m i v
  before : ∀ j < i, ∀ w, vs[j]? = some w → Takes m j w

/-- What a call breaks first, and how that is told. -/
inductive FirstViolation (x y : Text) (vs : List Json) : ParseError → String → Prop
  /-- The name of the collection is no identifier. -/
  | collection (hx : ¬Identifier x) :
    FirstViolation x y vs (.identifier .collection x)
      ("Invalid collection name: \"" ++ String.ofList x ++ "\"")
  /-- The name of the method is none. -/
  | method (hx : Identifier x) (hy : ¬Identifier y) :
    FirstViolation x y vs (.identifier .method y)
      ("Invalid method name: \"" ++ String.ofList y ++ "\"")
  /-- No method has the name. -/
  | unknown (hx : Identifier x) (hy : Identifier y) (hnone : ∀ m : Method, y ≠ m.name.toList) :
    FirstViolation x y vs (.unsupported y)
      ("Unsupported operation: " ++ String.ofList y ++ ". Supported operations: " ++
        ", ".intercalate (Method.all.map Method.name))
  /-- There are fewer arguments than required. -/
  | tooFew (m : Method) (h : Names x y m) (hlow : vs.length < m.required) :
    FirstViolation x y vs (.arity m (.atLeast m.required) vs.length)
      (m.name ++ " expects " ++ (">=" ++ toString m.required) ++ " argument(s), got " ++
        toString vs.length)
  /-- There are more arguments than parameters. -/
  | tooMany (m : Method) (h : Names x y m) (hlow : m.required ≤ vs.length)
    (hhigh : m.limit < vs.length) :
    FirstViolation x y vs (.arity m (.atMost m.limit) vs.length)
      (m.name ++ " expects " ++ ("<=" ++ toString m.limit) ++ " argument(s), got " ++
        toString vs.length)
  /-- An argument is not taken. It is the first such, and told with the parameter in its place and
  with its kind. -/
  | argument (m : Method) (i : Nat) (p : Parameter) (v : Json) (kind : Json.Kind)
    (h : Names x y m) (hlow : m.required ≤ vs.length) (hhigh : vs.length ≤ m.limit)
    (hfirst : FirstUntaken m vs i v) (hp : m.parameters[i]? = some p) (hkind : OfKind v kind) :
    FirstViolation x y vs (.argumentKind m i p kind)
      (m.name ++ " argument " ++ toString i ++ " must be a " ++
        " or ".intercalate (p.accepts.map Json.Kind.word) ++ ", got " ++ kind.word)

/-! ## The checks -/

theorem isAlpha_iff {c : Char} : c.isAlpha = true ↔ IsLetter c := by
  simp [IsLetter, Char.isAlpha, Char.isUpper, Char.isLower, Char.le_def]

theorem isDigit_iff {c : Char} : c.isDigit = true ↔ '0' ≤ c ∧ c ≤ '9' := by
  simp [Char.isDigit, Char.le_def]

theorem isIdentifier_iff {t : Text} : isIdentifier t = true ↔ Identifier t := by
  have hstarts : ∀ c, startsIdentifier c = true ↔ IsLetter c ∨ c = '_' := by
    intro c
    rw [startsIdentifier, Bool.or_eq_true, isAlpha_iff, beq_iff_eq]
  have hcontinues : ∀ d, continuesIdentifier d = true ↔
      IsLetter d ∨ ('0' ≤ d ∧ d ≤ '9') ∨ d = '_' ∨ d = '.' ∨ d = '-' := by
    intro d
    simp only [continuesIdentifier, Char.isAlphanum, Bool.or_eq_true, isAlpha_iff, isDigit_iff,
      beq_iff_eq, or_assoc]
  cases t with
  | nil => simp [isIdentifier, Identifier]
  | cons c rest =>
    rw [isIdentifier, Bool.and_eq_true, List.all_eq_true, hstarts]
    simp only [hcontinues]
    constructor
    · rintro ⟨hc, hrest⟩
      exact ⟨c, rest, rfl, hc, hrest⟩
    · rintro ⟨c', rest', h, hc, hrest⟩
      obtain ⟨rfl, rfl⟩ := List.cons.inj h
      exact ⟨hc, hrest⟩

variable {x y : Text} {vs : List Json} {m : Method} {i : Nat} {p : Parameter} {v : Json}
  {kind : Json.Kind}

theorem ofKind_iff : OfKind v kind ↔ v.kind = kind := by
  constructor
  · intro h
    cases h <;> rfl
  · rintro rfl
    cases v with
    | null => exact .null
    | bool b => exact .bool b
    | int n => exact .int n
    | float x => exact .float x
    | string points => exact .string points
    | array elements => exact .array elements
    | object members => exact .object members

theorem kind_eq_null : v.kind = .null ↔ v = .null := by
  cases v <;> simp [Json.kind]

/-- The parameter in a place takes a value exactly if the method does there. -/
theorem takes_iff (hp : m.parameters[i]? = some p) :
    p.takes (m.required ≤ i) v = true ↔ Takes m i v := by
  have hkind : (∃ q kind, m.parameters[i]? = some q ∧ OfKind v kind ∧ kind ∈ q.accepts) ↔
      v.kind ∈ p.accepts := by
    simp [hp, ofKind_iff]
  rw [Takes, hkind, Parameter.takes, Bool.or_eq_true, Bool.and_eq_true, decide_eq_true_eq,
    beq_iff_eq, kind_eq_null, List.contains_iff_mem, or_comm, and_comm]

/-- If there is a parameter for each argument, the parameters take them exactly if the method
does. -/
theorem forall_takes_iff {n : Nat} (hn : vs.length ≤ m.limit) :
    (∀ j < n, ∀ q w, m.parameters[j]? = some q → vs[j]? = some w →
        q.takes (m.required ≤ j) w = true) ↔ ∀ j < n, ∀ w, vs[j]? = some w → Takes m j w := by
  constructor
  · intro h j hj w hw
    have hlt : j < m.parameters.length := (List.getElem?_eq_some_iff.1 hw).1.trans_le hn
    have hp := List.getElem?_eq_getElem hlt
    exact (takes_iff hp).1 (h j hj _ w hp hw)
  · intro h j hj q w hq hw
    exact (takes_iff hq).2 (h j hj w hw)

theorem validate_eq_ok_iff_validCall : validate x y vs = .ok m ↔ ValidCall x y vs m := by
  rw [validate_eq_ok, isIdentifier_iff, isIdentifier_iff]
  constructor
  · rintro ⟨⟨hx, hy⟩, hm, ⟨hlow, hhigh⟩, htakes⟩
    refine ⟨⟨hx, hy, hm⟩, hlow, hhigh, fun i v hv => ?_⟩
    exact (forall_takes_iff hhigh).1 (fun j _ q w => htakes j q w) i (Nat.lt_succ_self i) v hv
  · rintro ⟨⟨hx, hy, hm⟩, hlow, hhigh, htaken⟩
    exact ⟨⟨hx, hy⟩, hm, ⟨hlow, hhigh⟩, fun i p v hp hv => (takes_iff hp).2 (htaken i v hv)⟩

/-- The checks of a call whose names are in order. -/
theorem validate_of_names (h : Names x y m) :
    validate x y vs =
      if vs.length < m.required then .error (.arity m (.atLeast m.required) vs.length)
      else if m.limit < vs.length then .error (.arity m (.atMost m.limit) vs.length)
      else match firstMismatch? m.required 0 m.parameters vs with
        | some (i, p, kind) => .error (.argumentKind m i p kind)
        | none => .ok m := by
  rewrite [validate, if_neg fun hn => hn (isIdentifier_iff.2 h.collection),
    if_neg fun hn => hn (isIdentifier_iff.2 h.method), methodNamed_eq_ok.2 h.named]
  rfl

theorem FirstUntaken.unique {j : Nat} {w : Json} (h : FirstUntaken m vs i v)
    (h' : FirstUntaken m vs j w) : i = j ∧ v = w := by
  have hij : i = j := by
    rcases Nat.lt_trichotomy i j with hlt | heq | hlt
    · exact absurd (h'.before i hlt v h.value) h.untaken
    · exact heq
    · exact absurd (h.before j hlt w h'.value) h'.untaken
  subst hij
  exact ⟨rfl, Option.some.inj (h.value.symm.trans h'.value)⟩

/-- The argument that the checks find is the first that the method does not take. -/
theorem firstUntaken_of_firstMismatch? (hhigh : vs.length ≤ m.limit)
    (h : firstMismatch? m.required 0 m.parameters vs = some (i, p, kind)) :
    ∃ v, FirstUntaken m vs i v ∧ m.parameters[i]? = some p ∧ OfKind v kind := by
  obtain ⟨j, v, hij, ⟨hp, hv, hkind⟩, hout, hbefore⟩ := exists_of_firstMismatch? h
  simp only [Nat.zero_add] at hij hout hbefore
  subst hij
  refine ⟨v, ⟨hv, ?_, (forall_takes_iff hhigh).1 hbefore⟩, hp, ofKind_iff.2 hkind.symm⟩
  rw [← takes_iff hp, hout]
  exact Bool.false_ne_true

theorem validate_of_not_named (hx : Identifier x) (hy : Identifier y)
    (hnone : ∀ m : Method, y ≠ m.name.toList) : validate x y vs = .error (.unsupported y) := by
  have hmethod : Method.ofName? y = none := by
    rw [Option.eq_none_iff_forall_ne_some]
    exact fun m hm => hnone m (Method.ofName?_eq_some.1 hm)
  rw [validate, if_neg fun hn => hn (isIdentifier_iff.2 hx),
    if_neg fun hn => hn (isIdentifier_iff.2 hy), methodNamed, hmethod]

/-- A call that means no method breaks a rule, and is told so. -/
theorem violation_of_validate {e : ParseError} (h : validate x y vs = .error e) :
    FirstViolation x y vs e e.message := by
  by_cases hx : Identifier x
  case neg =>
    rw [validate, if_pos (mt isIdentifier_iff.1 hx)] at h
    obtain rfl := Except.error.inj h
    exact .collection hx
  by_cases hy : Identifier y
  case neg =>
    rw [validate, if_neg fun hn => hn (isIdentifier_iff.2 hx),
      if_pos (mt isIdentifier_iff.1 hy)] at h
    obtain rfl := Except.error.inj h
    exact .method hx hy
  by_cases hm : ∃ m : Method, y = m.name.toList
  case neg =>
    have hnone : ∀ m : Method, y ≠ m.name.toList := fun m he => hm ⟨m, he⟩
    rw [validate_of_not_named hx hy hnone] at h
    obtain rfl := Except.error.inj h
    exact .unknown hx hy hnone
  obtain ⟨m, hm⟩ := hm
  have hnames : Names x y m := ⟨hx, hy, hm⟩
  rw [validate_of_names hnames] at h
  split_ifs at h with hlow hhigh
  · obtain rfl := Except.error.inj h
    exact .tooFew m hnames hlow
  · obtain rfl := Except.error.inj h
    exact .tooMany m hnames (Nat.le_of_not_lt hlow) hhigh
  · split at h
    · next i p kind hfirst =>
      obtain rfl := Except.error.inj h
      obtain ⟨v, hv, hp, hkind⟩ := firstUntaken_of_firstMismatch? (Nat.le_of_not_lt hhigh) hfirst
      exact .argument m i p v kind hnames (Nat.le_of_not_lt hlow) (Nat.le_of_not_lt hhigh) hv hp
        hkind
    · cases h

theorem exists_violation_of_validate {e : ParseError} (h : validate x y vs = .error e) :
    ∃ s, FirstViolation x y vs e s :=
  ⟨e.message, violation_of_validate h⟩

/-- Null for a required argument is told before the number behind it. -/
example : validate "us".toList "updateOne".toList [.object [], .null, .int 1] =
    .error (.argumentKind .updateOne 1 .update .null) := by cbv

end CollectionShell.Operation
