import CollectionShell.Execution.Run
import CollectionShell.Proofs.Operation.FirstViolation

/-!
# Absent arguments

An argument that is not required may be null, and that is the same as leaving it out : for the check
of a call, because null is taken in just those places (`validate_padded`), and for its command,
because each place that may be empty is read with a default that stands for null as well
(`Command.ofCall?_padded`). What else an execution does with a call is to name it, so it is the same
in every step, with the same outcome (`execute_padded`).
-/

namespace CollectionShell

open Operation (Call validate ValidCall Takes validate_eq_ok_iff_validCall)

/-- Arguments with nulls behind them. -/
def padded (vs : List Json) (k : Nat) : List Json := vs ++ List.replicate k .null

variable {x y : Text} {vs : List Json} {m : Method} {i : Nat}

theorem length_padded (vs : List Json) (k : Nat) : (padded vs k).length = vs.length + k := by
  rw [padded, List.length_append, List.length_replicate]

theorem getElem?_padded_of_lt (k : Nat) (h : i < vs.length) : (padded vs k)[i]? = vs[i]? :=
  List.getElem?_append_left h

/-- Behind the arguments stand nulls or nothing. -/
theorem getElem?_padded_of_le (k : Nat) (h : vs.length ≤ i) :
    (padded vs k)[i]? = none ∨ (padded vs k)[i]? = some .null := by
  rw [padded, List.getElem?_append_right h, List.getElem?_replicate]
  split_ifs
  · exact .inr rfl
  · exact .inl rfl

/-! ## The check of a call -/

/-- Nulls behind the required arguments, as many as there are parameters, make no difference to
whether a call is valid. -/
theorem validate_padded {k : Nat} (hlow : m.required ≤ vs.length)
    (hhigh : vs.length + k ≤ m.limit) :
    validate x y (padded vs k) = .ok m ↔ validate x y vs = .ok m := by
  rw [validate_eq_ok_iff_validCall, validate_eq_ok_iff_validCall]
  constructor
  · rintro ⟨hnames, -, -, htaken⟩
    refine ⟨hnames, hlow, by omega, fun i v hv => htaken i v ?_⟩
    rw [getElem?_padded_of_lt k (List.getElem?_eq_some_iff.1 hv).1, hv]
  · rintro ⟨hnames, -, -, htaken⟩
    refine ⟨hnames, ?_, ?_, fun i v hv => ?_⟩
    · rw [length_padded]
      omega
    · rw [length_padded]
      exact hhigh
    · rcases Nat.lt_or_ge i vs.length with hi | hi
      · rw [getElem?_padded_of_lt k hi] at hv
        exact htaken i v hv
      · rcases getElem?_padded_of_le k hi with hnone | hnull
        · rw [hnone] at hv
          cases hv
        · obtain rfl := Option.some.inj (hv.symm.trans hnull)
          exact .inr ⟨rfl, hlow.trans hi⟩

/-! ## The command of a call -/

namespace Command

theorem required_padded (k : Nat) (h : i < vs.length) :
    required (padded vs k) i = required vs i := by
  unfold required
  rw [getElem?_padded_of_lt k h]

/-- The default of a place stands for null and for nothing alike. -/
theorem optional_padded (vs : List Json) (k i : Nat) (default : Json) :
    optional (padded vs k) i default = optional vs i default := by
  unfold optional
  rcases Nat.lt_or_ge i vs.length with hi | hi
  · rw [getElem?_padded_of_lt k hi]
  · rw [List.getElem?_eq_none hi]
    rcases getElem?_padded_of_le k hi with h | h <;> rw [h]

theorem optionsAt_padded (vs : List Json) (k i : Nat) :
    optionsAt (padded vs k) i = optionsAt vs i := by
  unfold optionsAt
  rw [optional_padded]

theorem updateOf_padded {extent : Extent} (k : Nat) (h : 2 ≤ vs.length) :
    updateOf extent (padded vs k) = updateOf extent vs := by
  unfold updateOf
  rw [required_padded k (by omega), required_padded k (by omega), optionsAt_padded]

/-- Nulls behind the required arguments make no difference to the command. -/
theorem ofCall?_padded (k : Nat) (h : m.required ≤ vs.length) :
    ofCall? m (padded vs k) = ofCall? m vs := by
  have hfirst : 0 < m.required → required (padded vs k) 0 = required vs 0 := fun hm =>
    required_padded k (by omega)
  cases m with
  | insertOne => simp only [ofCall?, hfirst (by decide)]
  | insertMany => simp only [ofCall?, hfirst (by decide)]
  | find => simp only [ofCall?, optional_padded]
  | findOne => simp only [ofCall?, optional_padded]
  | updateOne => exact updateOf_padded k h
  | updateMany => exact updateOf_padded k h
  | deleteOne => simp only [ofCall?, hfirst (by decide)]
  | deleteMany => simp only [ofCall?, hfirst (by decide)]
  | countDocuments => simp only [ofCall?, optional_padded]
  | drop => rfl

end Command

/-! ## The execution of a call -/

/-- A result is made of the names of a call and of a reply. -/
theorem Execution.resultOf_eq_of_names (x y : Text) (vs ws : List Json) :
    resultOf ⟨x, y, vs⟩ = resultOf ⟨x, y, ws⟩ := by
  funext c
  cases c <;> rfl

/-- Of the arguments, an execution looks only at the command that they make. -/
theorem execute_congr (b : Backend) (hm : Method.ofName? y = some m) {ws : List Json}
    (h : Command.ofCall? m vs = Command.ofCall? m ws) :
    execute b ⟨x, y, vs⟩ = execute b ⟨x, y, ws⟩ := by
  have hresult := Execution.resultOf_eq_of_names x y vs ws
  simp only [execute, hm, h, hresult, Execution.failure]

theorem execute_padded (b : Backend) (h : validate x y vs = .ok m) (k : Nat) :
    execute b ⟨x, y, padded vs k⟩ = execute b ⟨x, y, vs⟩ := by
  obtain ⟨⟨-, -, hname⟩, hlow, -, -⟩ := validate_eq_ok_iff_validCall.1 h
  exact execute_congr b (Method.ofName?_eq_some.2 hname) (Command.ofCall?_padded k hlow)

/-- Nulls behind the arguments of a valid call, up to as many arguments as there are parameters,
leave it valid, and nulls may be taken off the end of a valid call down to the required arguments.
Either way it is executed as before : the same name is resolved, the same command is sent and the
outcome is the same, whatever the backend does. -/
theorem absent_eq_null (x y : Text) (m : Method) (vs : List Json) :
    (validate x y vs = .ok m → ∀ n, vs.length ≤ n → n ≤ m.limit →
      validate x y (vs.rightpad n .null) = .ok m ∧
        ∀ b, execute b ⟨x, y, vs.rightpad n .null⟩ = execute b ⟨x, y, vs⟩) ∧
    ∀ k, validate x y (vs ++ List.replicate k .null) = .ok m → m.required ≤ vs.length →
      validate x y vs = .ok m ∧
        ∀ b, execute b ⟨x, y, vs⟩ = execute b ⟨x, y, vs ++ List.replicate k .null⟩ := by
  constructor
  · intro h n hlen hn
    have hlow := (validate_eq_ok_iff_validCall.1 h).enough
    exact ⟨(validate_padded hlow (by omega)).2 h, fun b => execute_padded b h _⟩
  · intro k h hlow
    have hhigh := (validate_eq_ok_iff_validCall.1 h).notMore
    rw [← padded, length_padded] at hhigh
    have hvs := (validate_padded hlow hhigh).1 h
    exact ⟨hvs, fun b => (execute_padded b hvs k).symm⟩

/-- A change without options and with null for them, and a search with nulls and with nothing. -/
theorem absent_eq_null_updateOne :
    (validate ['u'] "updateOne".toList [.object [], .array [], .null] = .ok .updateOne ∧
      ∀ b, execute b ⟨['u'], "updateOne".toList, [.object [], .array [], .null]⟩ =
        execute b ⟨['u'], "updateOne".toList, [.object [], .array []]⟩) ∧
    validate ['u'] "findOne".toList [] = .ok .findOne ∧
      ∀ b, execute b ⟨['u'], "findOne".toList, []⟩ =
        execute b ⟨['u'], "findOne".toList, [.null, .null]⟩ :=
  ⟨(absent_eq_null ['u'] "updateOne".toList .updateOne [.object [], .array []]).1 (by cbv) 3
      (by decide) (by decide),
    (absent_eq_null ['u'] "findOne".toList .findOne []).2 2 (by cbv) (by decide)⟩

end CollectionShell
