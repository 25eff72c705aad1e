import CollectionShell.Proofs.Log.Runs

/-!
# Runs without refusals

If every request of a run names a level that exists, nothing is dropped, and the log is always what
the request before left : configured for its sink, with that sink up and no other
(`after_of_known`). A request that asks for the same again is kept, and any other puts up its own
sink, so what a log remembers and what is up never get out of step (`rebuilt_iff_changed`).
-/

namespace CollectionShell.Log

namespace Request

/-- What a request asks for : a profile and the name of a level, in upper case. -/
def asked (r : Request) : Text × Text := (r.profile, Text.upper r.level)

/-- The level that a request names exists. -/
def Known (r : Request) : Prop := ∃ l : Level, Text.upper r.level = l.name.toList

variable {r : Request} {s : Sink}

theorem sink?_eq_some : r.sink? = some s ↔ r.asked = (s.profile, s.level.name.toList) := by
  obtain ⟨profile, level⟩ := s
  simp only [sink?, asked, Option.map_eq_some_iff, Level.ofName?_eq_some, Sink.mk.injEq,
    Prod.mk.injEq]
  constructor
  · rintro ⟨l, h, rfl, rfl⟩
    exact ⟨rfl, h⟩
  · rintro ⟨rfl, h⟩
    exact ⟨level, h, rfl, rfl⟩

theorem known_iff : r.Known ↔ ∃ s, r.sink? = some s := by
  simp only [sink?_eq_some]
  constructor
  · rintro ⟨l, h⟩
    exact ⟨⟨r.profile, l⟩, congrArg (Prod.mk r.profile) h⟩
  · rintro ⟨s, h⟩
    exact ⟨s.level, congrArg Prod.snd h⟩

/-- Of a known request the sink says what was asked for. -/
theorem sink?_eq_iff {q : Request} (hs : r.sink? = some s) :
    q.sink? = some s ↔ q.asked = r.asked := by
  rw [sink?_eq_some, sink?_eq_some.1 hs]

end Request

variable {start : Log} {rs : List Request} {r : Request} {s : Sink}

/-- A run of known requests drops no sink. -/
theorem not_dropped_of_known (h : ∀ q ∈ rs, q.Known) : ¬Dropped rs := by
  rintro ⟨xs, q, ys, rfl, hq, -⟩
  obtain ⟨s, hs⟩ := Request.known_iff.1 (h q (by simp))
  rw [hq] at hs
  cases hs

/-- A run of requests that ends with a known one asked last for the sink of that one. -/
theorem last?_of_getLast? (hlast : rs.getLast? = some r) (hs : r.sink? = some s) :
    Request.last? rs = some s := by
  obtain ⟨xs, rfl⟩ : ∃ xs, rs = xs ++ [r] := List.getLast?_eq_some_iff.1 hlast
  rw [Request.last?_append, Request.last?_singleton, hs, Option.some_or]

/-- After a run of known requests the log is configured for the sink of the last one, and that sink
is up and no other. -/
theorem after_of_known (hstart : start.configured = none) (hknown : ∀ q ∈ rs, q.Known)
    (hlast : rs.getLast? = some r) (hs : r.sink? = some s) :
    start.after rs = ⟨[s], some s.key⟩ := by
  obtain ⟨hconf, -, hkept⟩ := eq_after hstart rs
  have hsinks := hkept (not_dropped_of_known hknown)
  rw [last?_of_getLast? hlast hs] at hconf hsinks
  calc start.after rs = ⟨(start.after rs).sinks, (start.after rs).configured⟩ := rfl
    _ = ⟨[s], some s.key⟩ := by rw [hsinks, hconf]; rfl

/-- A run of known requests leaves the log configured for a sink exactly if its last request asks
for that sink. -/
theorem configured_after_iff (hstart : start.configured = none) (hknown : ∀ q ∈ rs, q.Known)
    (hs : r.sink? = some s) : (start.after rs).configured = some s.key ↔
      ∃ q, rs.getLast? = some q ∧ q.asked = r.asked := by
  cases hlast : rs.getLast? with
  | none =>
    obtain rfl := List.getLast?_eq_none_iff.1 hlast
    simp [hstart]
  | some q =>
    obtain ⟨t, ht⟩ := Request.known_iff.1 (hknown q (List.mem_of_getLast? hlast))
    rw [after_of_known hstart hknown hlast ht]
    simp only [← Request.sink?_eq_iff hs, Option.some.injEq, Sink.key_inj, exists_eq_left', ht]

/-- A request behind a run of known ones puts up its sink anew exactly if it is the first, or the
one before it asked for something else. Otherwise it changes nothing. -/
theorem rebuilt_iff_changed (hstart : start.configured = none) (hknown : ∀ q ∈ rs, q.Known)
    (hs : r.sink? = some s) :
    (((start.after rs).request r).1 = .rebuilt ↔
      rs = [] ∨ ∃ q, rs.getLast? = some q ∧ q.asked ≠ r.asked) ∧
    (((start.after rs).request r).1 ≠ .rebuilt →
      (start.after rs).request r = (.kept, start.after rs)) := by
  have hconf := configured_after_iff hstart hknown hs
  by_cases hsame : (start.after rs).configured = some s.key
  · obtain ⟨q, hq, hasked⟩ := hconf.1 hsame
    rw [request_kept hs hsame]
    refine ⟨⟨nofun, ?_⟩, fun _ => rfl⟩
    rintro (rfl | ⟨q', hq', hne⟩)
    · cases hq
    · obtain rfl := Option.some.inj (hq.symm.trans hq')
      exact absurd hasked hne
  · rw [request_rebuilt hs hsame]
    refine ⟨⟨fun _ => ?_, fun _ => rfl⟩, fun h => absurd rfl h⟩
    cases hlast : rs.getLast? with
    | none => exact .inl (List.getLast?_eq_none_iff.1 hlast)
    | some q => exact .inr ⟨q, rfl, fun hasked => hsame (hconf.2 ⟨q, hlast, hasked⟩)⟩

/-- In a run of known requests, each leaves the log configured for what it asked for, with one sink
up that has the profile and the level. The sinks are put up anew at the first request and at those
that ask for something else than the one just before, and no other request changes anything. -/
theorem known_run (hstart : start.configured = none) (hknown : ∀ q ∈ rs, q.Known) :
    ∀ xs r ys, rs = xs ++ r :: ys →
      (∃ s : Sink, (s.profile, s.level.name.toList) = r.asked ∧
        start.after (xs ++ [r]) = ⟨[s], some (s.profile, s.level)⟩) ∧
      (((start.after xs).request r).1 = .rebuilt ↔
        xs = [] ∨ ∃ q, xs.getLast? = some q ∧ q.asked ≠ r.asked) ∧
      (((start.after xs).request r).1 ≠ .rebuilt →
        (start.after xs).request r = (.kept, start.after xs)) := by
  rintro xs r ys rfl
  have hxs : ∀ q ∈ xs, q.Known := fun q hq => hknown q (by simp [hq])
  have hxr : ∀ q ∈ xs ++ [r], q.Known := fun q hq => hknown q (by simp at hq ⊢; tauto)
  obtain ⟨s, hs⟩ := Request.known_iff.1 (hknown r (by simp))
  exact ⟨⟨s, (Request.sink?_eq_some.1 hs).symm, after_of_known hstart hxr List.getLast?_concat hs⟩,
    rebuilt_iff_changed hstart hxs hs⟩

/-- The log of a process that has configured nothing, with the sink that it starts with. -/
def fresh : Log := ⟨[⟨defaultProfile, .debug⟩], none⟩

/-- Requests for one level in two spellings, and for the same level in another profile. -/
def spellings : List Request :=
  [.plain "info", .plain "ınfo", ⟨"Info".toList, "rich".toList⟩]

/-- Another spelling is kept, another profile is not. -/
theorem known_run_spellings :
    fresh.configured = none ∧ (∀ q ∈ spellings, q.Known) ∧
      ((fresh.after [.plain "info"]).request (.plain "ınfo")).1 ≠ .rebuilt ∧
      ((fresh.after [.plain "info", .plain "ınfo"]).request ⟨"Info".toList, "rich".toList⟩).1 =
        .rebuilt := by
  have hinfo : ∀ q ∈ spellings, Text.upper q.level = Level.info.name.toList := by
    simp only [spellings, List.forall_mem_cons, List.not_mem_nil, false_implies, implies_true,
      and_true]
    refine ⟨?_, ?_, ?_⟩ <;> cbv
  have hknown : ∀ q ∈ spellings, q.Known := fun q hq => ⟨.info, hinfo q hq⟩
  refine ⟨rfl, hknown, fun h => ?_, ?_⟩
  · rcases (known_run rfl hknown [.plain "info"] (.plain "ınfo") _ rfl).2.1.1 h with
      hnil | ⟨q, hq, hne⟩
    · cases hnil
    · obtain rfl := Option.some.inj hq
      exact hne (by cbv)
  · refine (known_run rfl hknown [.plain "info", .plain "ınfo"] _ [] rfl).2.1.2 (.inr ⟨_, rfl, ?_⟩)
    intro h
    exact absurd (congrArg Prod.fst h) (by decide)

end CollectionShell.Log
