import CollectionShell.Operation.Call
import Mathlib.Tactic.SplitIfs

/-!
# Valid calls

What makes a call valid, said of its names and arguments at once and not check by check :
`validate_eq_ok`. Each parameter takes the argument in its place, and the place of one that is
not required may be empty or hold null.
-/

namespace CollectionShell.Operation

/-- No argument is out of place exactly if each parameter takes the one in its place. -/
theorem firstMismatch?_eq_none {required index : Nat} {ps : List Parameter} {vs : List Json} :
    firstMismatch? required index ps vs = none ↔
      ∀ (i : Nat) (p : Parameter) (v : Json), ps[i]? = some p → vs[i]? = some v →
        p.takes (required ≤ index + i) v = true := by
  induction ps generalizing index vs with
  | nil => simp [firstMismatch?]
  | cons p ps ih =>
    cases vs with
    | nil => simp [firstMismatch?]
    | cons v vs =>
      rw [firstMismatch?]
      constructor
      · intro h i q w hq hw
        split_ifs at h with htakes
        cases i with
        | zero =>
          obtain rfl := Option.some.inj hq
          obtain rfl := Option.some.inj hw
          exact htakes
        | succ i =>
          have := ih.1 h i q w hq hw
          rwa [Nat.add_right_comm, Nat.add_assoc] at this
      · intro h
        have hfirst : p.takes (required ≤ index) v = true := h 0 p v rfl rfl
        rw [if_pos hfirst, ih]
        intro i q w hq hw
        have := h (i + 1) q w hq hw
        rwa [← Nat.add_assoc, Nat.add_right_comm] at this

theorem methodNamed_eq_ok {t : Text} {m : Method} :
    methodNamed t = .ok m ↔ t = m.name.toList := by
  rw [← Method.ofName?_eq_some, methodNamed]
  cases Method.ofName? t with
  | none => simp
  | some k => simp

/-- A call is valid exactly if its names are identifiers, the second names the method, there are as
many arguments as the method allows, and each is one that the parameter in its place takes. -/
theorem validate_eq_ok {x y : Text} {vs : List Json} {m : Method} :
    validate x y vs = .ok m ↔
      (isIdentifier x = true ∧ isIdentifier y = true) ∧ y = m.name.toList ∧
        (m.required ≤ vs.length ∧ vs.length ≤ m.limit) ∧
        ∀ (i : Nat) (p : Parameter) (v : Json), m.parameters[i]? = some p → vs[i]? = some v →
          p.takes (m.required ≤ i) v = true := by
  have hmismatch := @firstMismatch?_eq_none m.required 0 m.parameters vs
  simp only [Nat.zero_add] at hmismatch
  rw [← hmismatch, ← methodNamed_eq_ok, validate]
  constructor
  · intro h
    split_ifs at h with hx hy
    cases hm : methodNamed y with
    | error e => simp [hm] at h
    | ok k =>
      simp only [hm] at h
      split_ifs at h with hlow hhigh
      cases hfirst : firstMismatch? k.required 0 k.parameters vs with
      | some found => simp [hfirst] at h
      | none =>
        simp only [hfirst] at h
        obtain rfl := Except.ok.inj h
        exact ⟨⟨hx, hy⟩, rfl, ⟨by omega, by omega⟩, hfirst⟩
  · rintro ⟨⟨hx, hy⟩, hm, ⟨hlow, hhigh⟩, hfirst⟩
    rw [if_neg fun hn => hn hx, if_neg fun hn => hn hy, hm]
    dsimp only
    rw [if_neg (by omega), if_neg (by omega), hfirst]

/-- The argument that is found is out of place, and no argument in front of it is. -/
theorem exists_of_firstMismatch? {required index i : Nat} {ps : List Parameter} {vs : List Json}
    {p : Parameter} {kind : Json.Kind}
    (h : firstMismatch? required index ps vs = some (i, p, kind)) :
    ∃ j v, i = index + j ∧ (ps[j]? = some p ∧ vs[j]? = some v ∧ kind = v.kind) ∧
      p.takes (required ≤ index + j) v = false ∧
      ∀ k < j, ∀ q w, ps[k]? = some q → vs[k]? = some w →
        q.takes (required ≤ index + k) w = true := by
  induction ps generalizing index vs with
  | nil => cases h
  | cons q ps ih =>
    cases vs with
    | nil => cases h
    | cons w vs =>
      have hshift : ∀ n, index + 1 + n = index + (n + 1) := fun n => by omega
      rw [firstMismatch?] at h
      split_ifs at h with htakes
      · obtain ⟨j, v, rfl, hv, hout, hbefore⟩ := ih h
        refine ⟨j + 1, v, hshift j, hv, hshift j ▸ hout, fun k hk q' w' hq hw => ?_⟩
        cases k with
        | zero =>
          obtain rfl := Option.some.inj hq
          obtain rfl := Option.some.inj hw
          exact htakes
        | succ k => exact hshift k ▸ hbefore k (Nat.lt_of_succ_lt_succ hk) q' w' hq hw
      · obtain ⟨rfl, rfl, rfl⟩ : index = i ∧ q = p ∧ w.kind = kind := by simpa using h
        exact ⟨0, w, rfl, ⟨rfl, rfl, rfl⟩, by simpa using htakes, nofun⟩

end CollectionShell.Operation
