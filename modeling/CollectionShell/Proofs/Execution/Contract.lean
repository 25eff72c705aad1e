import CollectionShell.Execution.Run
import CollectionShell.Proofs.Operation.Acceptance
import CollectionShell.Proofs.Operation.Validity

/-!
# What a valid call does

A valid call makes one command, which the table of methods alone determines : its name is the
method's in another spelling, its arguments are the values of the parameters, missing ones filled
in, and its options the members of the last argument (`exists_command_of_validate`). The call is
`Served` if the collection is resolved once, the command is sent once, and the outcome is a result
unless the backend fails. Every valid call is (`served_of_validate`), so no call is refused behind
its validation.
-/

namespace CollectionShell

open Operation (Call validate validate_eq_ok parse)

/-! ## The arguments by their parameters -/

/-- What stands for a missing argument : a filter that selects everything, else null. -/
def Parameter.default (p : Parameter) : Json := if p = .filter then .object [] else .null

/-- The value of a parameter : its argument, if there is one and it is not null. -/
def Parameter.value (p : Parameter) : Option Json → Json
  | none => p.default
  | some .null => p.default
  | some v => v

namespace Method

/-- The values of the parameters of a method, in order and without the options. -/
def positional (m : Method) (vs : List Json) : List Json :=
  (m.parameters.zipIdx.filter (·.1 ≠ .options)).map fun p => p.1.value vs[p.2]?

/-- The members of the argument in the place of the options, if there is one. -/
def keywords (m : Method) (vs : List Json) : List (Json.Name × Json) :=
  match vs[m.parameters.idxOf .options]? with
  | some (.object members) => members
  | _ => []

/-- A name with its capitals as small letters behind underscores. -/
def snakeCase (t : Text) : Text :=
  t.flatMap fun c => if c.isUpper then ['_', c.toLower] else [c]

/-- No parameter of a method accepts null. -/
theorem null_not_accepted {m : Method} {p : Parameter} {i : Nat}
    (hp : m.parameters[i]? = some p) : p.accepts.contains .null = false := by
  have h : ∀ q ∈ m.parameters, q.accepts.contains .null = false := by
    cases m <;> decide
  exact h p (List.mem_of_getElem? hp)

end Method

theorem Parameter.value_of_ne_null (p : Parameter) {v : Json} (h : v.kind ≠ .null) :
    p.value (some v) = v := by
  cases v with
  | null => exact absurd rfl h
  | _ => rfl

/-- Every required parameter of a valid call has an argument, which is its value. -/
theorem exists_argument_of_validate {x y : Text} {vs : List Json} {m : Method} {i : Nat}
    {p : Parameter} (h : validate x y vs = .ok m) (hi : i < m.required)
    (hp : m.parameters[i]? = some p) : ∃ v, vs[i]? = some v ∧ p.value (some v) = v := by
  obtain ⟨-, -, ⟨hlen, -⟩, htakes⟩ := validate_eq_ok.1 h
  have hlt : i < vs.length := by omega
  refine ⟨vs[i], List.getElem?_eq_getElem hlt, p.value_of_ne_null fun hnull => ?_⟩
  have hv := htakes i p vs[i] hp (List.getElem?_eq_getElem hlt)
  rw [Parameter.takes, decide_eq_false (by omega), hnull, Method.null_not_accepted hp] at hv
  cases hv

/-- A valid call of a method without options has no argument in their place. -/
theorem keywords_of_validate {x y : Text} {vs : List Json} {m : Method}
    (h : validate x y vs = .ok m) (hm : .options ∉ m.parameters) : m.keywords vs = [] := by
  obtain ⟨-, -, ⟨-, hlen⟩, -⟩ := validate_eq_ok.1 h
  have hnone : vs[m.parameters.idxOf .options]? = none := by
    rw [List.idxOf_eq_length hm]
    exact List.getElem?_eq_none hlen
  rw [Method.keywords, hnone]

namespace Command

/-- The method that makes such commands. -/
def method : Command → Method
  | .insertOne _ => .insertOne
  | .insertMany _ => .insertMany
  | .find _ _ => .find
  | .findOne _ _ => .findOne
  | .update .one _ _ _ => .updateOne
  | .update .many _ _ _ => .updateMany
  | .delete .one _ => .deleteOne
  | .delete .many _ => .deleteMany
  | .countDocuments _ => .countDocuments
  | .drop => .drop

/-- A collection knows a command by its method's name in small letters. -/
theorem name_eq_snakeCase (c : Command) :
    c.name.toList = Method.snakeCase c.method.name.toList := by
  unfold name
  split
  all_goals
    dsimp only [method]
    decide

/-- The command is the one that the table of methods gives for a method with arguments. -/
structure Fits (c : Command) (m : Method) (vs : List Json) : Prop where
  name : c.name.toList = Method.snakeCase m.name.toList
  arguments : c.arguments = m.positional vs
  options : c.options = m.keywords vs

theorem required_eq_ok {vs : List Json} {i : Nat} {v : Json} (h : vs[i]? = some v) :
    required vs i = .ok v := by
  rw [required, h]

theorem optional_eq_value (p : Parameter) (vs : List Json) (i : Nat) :
    optional vs i p.default = p.value vs[i]? := by
  cases h : vs[i]? with
  | none => simp [optional, Parameter.value, h]
  | some v => cases v <;> simp [optional, Parameter.value, h]

/-- Options that are taken are an object, or there are none. -/
theorem optionsAt_eq_ok {vs : List Json} {i : Nat}
    (h : ∀ v, vs[i]? = some v → Parameter.options.takes true v = true) :
    optionsAt vs i = .ok (match vs[i]? with
      | some (.object members) => members
      | _ => []) := by
  unfold optionsAt optional
  cases hv : vs[i]? with
  | none => rfl
  | some v =>
    have htakes := h v hv
    cases v with
    | null => rfl
    | object members => rfl
    | _ => cases htakes

section

variable {x y : Text} {vs : List Json} {m : Method}

/-- The command of a method with one parameter, which is required. -/
theorem exists_command_of_single {make : Json → Command} (p : Parameter)
    (h : validate x y vs = .ok m) (hm : m.parameters = [p]) (hrequired : 0 < m.required)
    (hp : p ≠ .options) (hof : ofCall? m vs = (required vs 0).map make)
    (hmethod : ∀ v, (make v).method = m)
    (harguments : ∀ v, (make v).arguments = [v]) (hoptions : ∀ v, (make v).options = []) :
    ∃ c, ofCall? m vs = .ok c ∧ c.Fits m vs := by
  obtain ⟨v, hv, hvalue⟩ := exists_argument_of_validate h hrequired (p := p) (by rw [hm]; rfl)
  refine ⟨make v, by rw [hof, required_eq_ok hv]; rfl, ?_, ?_, ?_⟩
  · rw [name_eq_snakeCase, hmethod]
  · simp [harguments, Method.positional, hm, hp, hv, hvalue]
  · rw [hoptions, keywords_of_validate h]
    simpa [hm] using hp.symm

/-- The command of a method that changes documents. -/
theorem exists_command_of_update {extent : Extent} (h : validate x y vs = .ok m)
    (hm : m.parameters = [.filter, .update, .options]) (hrequired : m.required = 2)
    (hof : ofCall? m vs = updateOf extent vs)
    (hmethod : ∀ f u o, (Command.update extent f u o).method = m) :
    ∃ c, ofCall? m vs = .ok c ∧ c.Fits m vs := by
  obtain ⟨f, hf, hfvalue⟩ := exists_argument_of_validate h (i := 0) (p := .filter)
    (by omega) (by rw [hm]; rfl)
  obtain ⟨u, hu, huvalue⟩ := exists_argument_of_validate h (i := 1) (p := .update)
    (by omega) (by rw [hm]; rfl)
  have htaken : ∀ v, vs[2]? = some v → Parameter.options.takes true v = true := by
    intro v hv
    have htakes := (validate_eq_ok.1 h).2.2.2 2 .options v (by rw [hm]; rfl) hv
    rwa [hrequired] at htakes
  have hpositional : m.positional vs =
      [Parameter.filter.value vs[0]?, Parameter.update.value vs[1]?] := by
    rw [Method.positional, hm]
    rfl
  have hkeywords : optionsAt vs 2 = .ok (m.keywords vs) := by
    rw [optionsAt_eq_ok htaken, Method.keywords, hm]
    rfl
  refine ⟨.update extent f u (m.keywords vs), ?_, ?_, ?_, rfl⟩
  · rw [hof, updateOf, required_eq_ok hf, required_eq_ok hu, hkeywords]
    rfl
  · rw [name_eq_snakeCase, hmethod]
  · rw [hpositional, hf, hu, hfvalue, huvalue]
    rfl

/-- A valid call makes a command, which the table of methods determines. -/
theorem exists_command_of_validate (h : validate x y vs = .ok m) :
    ∃ c, ofCall? m vs = .ok c ∧ c.Fits m vs := by
  have hfilter := optional_eq_value .filter vs 0
  have hprojection := optional_eq_value .projection vs 1
  cases m with
  | insertOne =>
    exact exists_command_of_single .document h rfl (by decide) (by decide) rfl (fun _ => rfl)
      (fun _ => rfl) fun _ => rfl
  | insertMany =>
    exact exists_command_of_single .documents h rfl (by decide) (by decide) rfl (fun _ => rfl)
      (fun _ => rfl) fun _ => rfl
  | find =>
    refine ⟨_, rfl, name_eq_snakeCase _, ?_, (keywords_of_validate h (by decide)).symm⟩
    exact congrArg₂ (fun f p => [f, p]) hfilter hprojection
  | findOne =>
    refine ⟨_, rfl, name_eq_snakeCase _, ?_, (keywords_of_validate h (by decide)).symm⟩
    exact congrArg₂ (fun f p => [f, p]) hfilter hprojection
  | updateOne => exact exists_command_of_update h rfl rfl rfl fun _ _ _ => rfl
  | updateMany => exact exists_command_of_update h rfl rfl rfl fun _ _ _ => rfl
  | deleteOne =>
    exact exists_command_of_single .filter h rfl (by decide) (by decide) rfl (fun _ => rfl)
      (fun _ => rfl) fun _ => rfl
  | deleteMany =>
    exact exists_command_of_single .filter h rfl (by decide) (by decide) rfl (fun _ => rfl)
      (fun _ => rfl) fun _ => rfl
  | countDocuments =>
    refine ⟨_, rfl, name_eq_snakeCase _, ?_, (keywords_of_validate h (by decide)).symm⟩
    exact congrArg (fun f => [f]) hfilter
  | drop =>
    exact ⟨.drop, rfl, name_eq_snakeCase _, rfl, (keywords_of_validate h (by decide)).symm⟩

end

/-- What fails when a reply is read : a cursor, behind the documents that it yields. -/
def readFailure? : (c : Command) → c.Reply → Option Text
  | .find _ _, (cursor : Cursor) => cursor.failure
  | _, _ => none

/-- The reply says that no document was found. -/
def NotFound : (c : Command) → c.Reply → Prop
  | .findOne _ _, (document : Json) => document = .null
  | _, _ => False

end Command

/-- What fails when a collection is told a command : to resolve its name, to run the command or to
read the reply. -/
def Backend.failure? (b : Backend) (collection : Text) (c : Command) : Option Text :=
  match b.resolve collection with
  | .error message => some message
  | .ok () =>
    match b.reply c with
    | .error message => some message
    | .ok reply => c.readFailure? reply

namespace Execution

/-- A reply that cannot be read makes no result. -/
theorem resultOf_of_readFailure (call : Call) {c : Command} {message : Text} :
    ∀ reply : c.Reply, c.readFailure? reply = some message →
      resultOf call c reply = .error message := by
  cases c with
  | find filter projection =>
    intro (cursor : Cursor) (h : cursor.failure = some message)
    change cursor.drain.map _ = _
    rw [Cursor.drain, h]
    rfl
  | _ =>
    intro _ h
    cases h

/-- Any other reply makes a result with the names of the call, and only a reply without a document
makes one that has found none. -/
theorem exists_resultOf (call : Call) {c : Command} :
    ∀ reply : c.Reply, c.readFailure? reply = none → ∃ r, resultOf call c reply = .ok r ∧
      (r.collection = call.collection ∧ r.method = call.method) ∧
      (r.found = false ↔ c.NotFound reply) := by
  cases c with
  | find filter projection =>
    intro (cursor : Cursor) (h : cursor.failure = none)
    have hdrain : cursor.drain = .ok cursor.documents := by rw [Cursor.drain, h]
    change ∃ r, cursor.drain.map _ = .ok r ∧ _
    rw [hdrain]
    exact ⟨_, rfl, ⟨rfl, rfl⟩, nofun, nofun⟩
  | findOne filter projection =>
    intro (document : Json) _
    cases document with
    | null => exact ⟨_, rfl, ⟨rfl, rfl⟩, fun _ => rfl, fun _ => rfl⟩
    | _ => exact ⟨_, rfl, ⟨rfl, rfl⟩, nofun, nofun⟩
  | _ =>
    intro _ _
    exact ⟨_, rfl, ⟨rfl, rfl⟩, nofun, nofun⟩

end Execution

/-! ## Served calls -/

/-- The call is run as the command `c` : its collection is resolved once, the command is sent once
if that succeeds, and there is a result exactly if nothing fails. -/
structure Served (b : Backend) (call : Call) (c : Command) : Prop where
  /-- The name of the collection, and no other, is resolved, once. -/
  resolved : (execute b call).resolved = [call.collection]
  unsent : ∀ message, b.resolve call.collection = .error message → (execute b call).commands = []
  sent : b.resolve call.collection = .ok () → (execute b call).commands = [c]
  /-- There is a result, and it has the names of the call, exactly if nothing fails. -/
  result_iff : (∃ r, (execute b call).outcome = .ok r ∧
    r.collection = call.collection ∧ r.method = call.method) ↔ b.failure? call.collection c = none
  /-- What the error says is what failed. -/
  error_iff : ∀ e, (execute b call).outcome = .error e ↔
    ∃ message, b.failure? call.collection c = some message ∧
      e = ⟨call.collection, call.method, message⟩
  /-- A result has found nothing exactly if one document was asked for and there is none. -/
  found_iff : ∀ r reply, (execute b call).outcome = .ok r → b.reply c = .ok reply →
    (r.found = false ↔ c.NotFound reply)

section

variable {b : Backend} {call : Call} {m : Method} {c : Command}

theorem execute_eq (hm : Method.ofName? call.method = some m)
    (hc : Command.ofCall? m call.arguments = .ok c) :
    execute b call =
      match b.resolve call.collection with
      | .error message => Execution.failure call [] message
      | .ok () =>
        match b.reply c >>= Execution.resultOf call c with
        | .error message => Execution.failure call [c] message
        | .ok r => ⟨[call.collection], [c], [.started call.collection call.method], .ok r⟩ := by
  cases hresolve : b.resolve call.collection with
  | error message => simp only [execute, hm, hresolve]
  | ok _ =>
    cases hreply : b.reply c >>= Execution.resultOf call c with
    | error message => simp only [execute, hm, hresolve, hc, hreply]
    | ok r => simp only [execute, hm, hresolve, hc, hreply]

theorem served_of_failure {message : Text} {commands : List Command}
    (hfail : b.failure? call.collection c = some message)
    (heq : execute b call = Execution.failure call commands message)
    (hunsent : ∀ message, b.resolve call.collection = .error message → commands = [])
    (hsent : b.resolve call.collection = .ok () → commands = [c]) : Served b call c where
  resolved := by
    rw [heq]
    rfl
  unsent := by
    rw [heq]
    exact hunsent
  sent := by
    rw [heq]
    exact hsent
  result_iff := by
    rw [heq, hfail]
    exact ⟨fun ⟨_, h, _⟩ => (nomatch h), nofun⟩
  error_iff e := by
    rw [heq, hfail]
    constructor
    · intro h
      exact ⟨message, rfl, (Except.error.inj h).symm⟩
    · rintro ⟨_, h, rfl⟩
      rw [← Option.some.inj h]
      rfl
  found_iff := by
    rw [heq]
    exact nofun

theorem served_of_result {reply : c.Reply} {r : Result}
    (hfail : b.failure? call.collection c = none) (hreply : b.reply c = .ok reply)
    (hresolve : b.resolve call.collection = .ok ())
    (heq : execute b call =
      ⟨[call.collection], [c], [.started call.collection call.method], .ok r⟩)
    (hnames : r.collection = call.collection ∧ r.method = call.method)
    (hfound : r.found = false ↔ c.NotFound reply) : Served b call c where
  resolved := by rw [heq]
  unsent := by
    rw [hresolve]
    exact nofun
  sent := by
    rw [heq]
    exact fun _ => rfl
  result_iff := by
    rw [heq, hfail]
    exact ⟨fun _ => rfl, fun _ => ⟨r, rfl, hnames⟩⟩
  error_iff e := by
    rw [heq, hfail]
    exact ⟨nofun, fun ⟨_, h, _⟩ => (nomatch h)⟩
  found_iff := by
    rw [heq]
    intro r' reply' hr' hreply'
    obtain rfl := Except.ok.inj hr'
    obtain rfl := Except.ok.inj (hreply.symm.trans hreply')
    exact hfound

/-- A call of a method whose arguments make a command is served with it. -/
theorem served_of_command (hm : Method.ofName? call.method = some m)
    (hc : Command.ofCall? m call.arguments = .ok c) : Served b call c := by
  have heq := execute_eq (b := b) hm hc
  cases hresolve : b.resolve call.collection with
  | error message =>
    rw [hresolve] at heq
    refine served_of_failure (by rw [Backend.failure?, hresolve]) heq (fun _ _ => rfl) ?_
    rw [hresolve]
    exact nofun
  | ok _ =>
    have hunsent : ∀ message, b.resolve call.collection = .error message → [c] = [] := by
      rw [hresolve]
      exact nofun
    rw [hresolve] at heq
    cases hreply : b.reply c with
    | error message =>
      rw [hreply] at heq
      exact served_of_failure (by rw [Backend.failure?, hresolve, hreply]) heq hunsent fun _ => rfl
    | ok reply =>
      have hfail : b.failure? call.collection c = c.readFailure? reply := by
        rw [Backend.failure?, hresolve, hreply]
      have hrun : b.reply c >>= Execution.resultOf call c = Execution.resultOf call c reply := by
        rw [hreply]
        rfl
      rw [hrun] at heq
      cases hread : c.readFailure? reply with
      | some message =>
        rw [Execution.resultOf_of_readFailure call reply hread] at heq
        exact served_of_failure (hfail.trans hread) heq hunsent fun _ => rfl
      | none =>
        obtain ⟨r, hr, hnames, hfound⟩ := Execution.exists_resultOf call reply hread
        rw [hr] at heq
        exact served_of_result (hfail.trans hread) hreply hresolve heq hnames hfound

theorem served_of_validate (b : Backend)
    (h : validate call.collection call.method call.arguments = .ok m) :
    ∃ c : Command, call.method = m.name.toList ∧ c.Fits m call.arguments ∧ Served b call c := by
  obtain ⟨-, hname, -⟩ := validate_eq_ok.1 h
  obtain ⟨c, hc, hfits⟩ := Command.exists_command_of_validate h
  exact ⟨c, hname, hfits, served_of_command (Method.ofName?_eq_some.2 hname) hc⟩

end

/-- Every valid call is served, so every call that is read from a text is, and by the command that
the table of methods gives for it. -/
theorem served_of_valid (b : Backend) (call : Call) :
    (∀ m, validate call.collection call.method call.arguments = .ok m →
      ∃ c : Command, call.method = m.name.toList ∧ c.Fits m call.arguments ∧ Served b call c) ∧
      ∀ mode raw, parse mode raw = .ok call → ∃ (m : Method) (c : Command),
        call.method = m.name.toList ∧ c.Fits m call.arguments ∧ Served b call c := by
  refine ⟨fun m h => served_of_validate b h, fun mode raw h => ?_⟩
  obtain ⟨m, hm⟩ := Operation.validate_of_parse h
  exact ⟨m, served_of_validate b hm⟩

/-- A backend whose collections are empty. -/
def Backend.empty : Backend where
  resolve _ := .ok ()
  reply
    | .insertOne _ => .ok Json.null
    | .insertMany _ => .ok ([] : List Json)
    | .find _ _ => .ok (⟨[], none⟩ : Cursor)
    | .findOne _ _ => .ok Json.null
    | .update _ _ _ _ => .ok (⟨.int 0, .int 0, .null⟩ : UpdateReport)
    | .delete _ _ => .ok (Json.int 0)
    | .countDocuments _ => .ok (Json.int 0)
    | .drop => .ok ()

theorem served_of_valid_updateOne :
    (∃ c : Command, "updateOne".toList = Method.updateOne.name.toList ∧
      c.Fits .updateOne [.object [], .array [], .null] ∧
      Served .empty ⟨['u', 's'], "updateOne".toList, [.object [], .array [], .null]⟩ c) ∧
      ∃ (m : Method) (c : Command), "findOne".toList = m.name.toList ∧ c.Fits m [.null] ∧
        Served .empty ⟨['u', 's'], "findOne".toList, [.null]⟩ c :=
  ⟨(served_of_valid .empty ⟨['u', 's'], "updateOne".toList, [.object [], .array [], .null]⟩).1 _
      (by cbv),
    (served_of_valid .empty ⟨['u', 's'], "findOne".toList, [.null]⟩).2 .single
      "us.findOne(null)".toList (by cbv)⟩

example : (execute .empty ⟨['u', 's'], "findOne".toList, [.null]⟩).commands =
    [.findOne (.object []) .null] := rfl

end CollectionShell
