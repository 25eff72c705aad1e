import CollectionShell.Log.Sink
import Mathlib

/-!
# Runs of configurations

A request to configure a log is refused if its level does not exist, and asks for a sink
otherwise. A refused request takes the sinks away and leaves the log configured as it was,
so the two get out of step : the same request as before is kept, and puts no sink up.

`eq_after` gives the log after any run of requests. It is configured for the last sink asked
for, and that sink is up unless it was dropped : unless a request was refused and no other
sink has been asked for since (`Dropped`). From it, `request_after` says what one more
request does. A refused one changes nothing exactly if no sink is up, and one that is not
refused leaves the sink that it asks for, and no other, exactly if that sink is not the one
that was dropped. `sink_lost_by_refusal` is the shortest run at which both fail.
-/

namespace CollectionShell.Log

/-! ## Requests -/

/-- A request to configure a log. -/
structure Request where
  /-- The name of the level, in either case. -/
  level : Text
  /-- How the records are to be shown. -/
  profile : Text
  deriving DecidableEq, Repr

namespace Request

/-- The sink that a request asks for. There is none if its level does not exist. -/
def sink? (r : Request) : Option Sink :=
  (Level.ofName? (Text.upper r.level)).map fun l => ⟨r.profile, l⟩

/-- The sink of the last request of a run that asked for one. -/
def last? (rs : List Request) : Option Sink := (rs.filterMap sink?).getLast?

@[simp] theorem last?_append (rs ss : List Request) :
    last? (rs ++ ss) = (last? ss).or (last? rs) := by
  simp [last?, List.getLast?_append]

@[simp] theorem last?_nil : last? [] = none := rfl

theorem last?_cons (r : Request) (rs : List Request) :
    last? (r :: rs) = (last? rs).or r.sink? := by
  rw [← List.singleton_append, last?_append]
  cases h : r.sink? <;> simp [last?, h]

theorem last?_singleton (r : Request) : last? [r] = r.sink? := by
  simp [last?_cons]

end Request

/-- What a log is configured for once a sink is up. -/
def Sink.key (s : Sink) : Text × Level := (s.profile, s.level)

theorem Sink.key_inj {s t : Sink} : s.key = t.key ↔ s = t := by
  cases s; cases t
  simp [Sink.key]

/-- A request made of a log. -/
def request (log : Log) (r : Request) : Change × Log := log.configure r.level r.profile

/-- The log after a run of requests. -/
def after (log : Log) (rs : List Request) : Log := rs.foldl (fun log r => (log.request r).2) log

@[simp] theorem after_nil (log : Log) : log.after [] = log := rfl

theorem after_concat (log : Log) (rs : List Request) (r : Request) :
    log.after (rs ++ [r]) = ((log.after rs).request r).2 := by
  simp [after]

/-! ## One request -/

variable {log : Log} {r : Request} {s : Sink}

/-- A request for a level that does not exist is refused. It takes the sinks away, and the
log stays configured for the one that was up. -/
theorem request_refused (h : r.sink? = none) :
    log.request r = (.refused ⟨Text.upper r.level⟩, { log with sinks := [] }) := by
  have hlevel : Level.ofName? (Text.upper r.level) = none := by
    simpa [Request.sink?] using h
  simp [request, configure, hlevel]

/-- A request for the sink that the log is configured for is kept, whether or not the sink
is up. -/
theorem request_kept (h : r.sink? = some s) (hlog : log.configured = some s.key) :
    log.request r = (.kept, log) := by
  obtain ⟨l, hlevel, rfl⟩ := Option.map_eq_some_iff.mp h
  simp only [Sink.key] at hlog
  simp [request, configure, hlevel, hlog]

/-- A request for another sink puts it up in the place of all others. -/
theorem request_rebuilt (h : r.sink? = some s) (hlog : log.configured ≠ some s.key) :
    log.request r = (.rebuilt, ⟨[s], some s.key⟩) := by
  obtain ⟨l, hlevel, rfl⟩ := Option.map_eq_some_iff.mp h
  simp only [Sink.key] at hlog ⊢
  simp [request, configure, hlevel, hlog]

/-! ## Runs -/

/-- A run drops the last sink asked for : a request was refused, and no other sink has been
asked for since. -/
def Dropped (rs : List Request) : Prop :=
  ∃ xs q ys, rs = xs ++ q :: ys ∧ q.sink? = none ∧
    ∀ s ∈ ys.filterMap Request.sink?, Request.last? xs = some s

variable {start : Log} {rs : List Request}

theorem not_dropped_nil : ¬ Dropped [] := by
  rintro ⟨xs, q, ys, hrs, -⟩
  simp at hrs

/-- Requests for the last sink, and refused ones, leave it the last one. -/
theorem last?_of_dropping {xs ys : List Request} {q : Request} (hq : q.sink? = none)
    (hys : ∀ s ∈ ys.filterMap Request.sink?, Request.last? xs = some s) :
    Request.last? (xs ++ q :: ys) = Request.last? xs := by
  rw [Request.last?_append, Request.last?_cons, hq, Option.or_none]
  cases hlast : Request.last? ys with
  | none => rfl
  | some s => exact (hys s (List.mem_of_getLast? hlast)).symm

theorem dropped_concat_refused (h : r.sink? = none) : Dropped (rs ++ [r]) :=
  ⟨rs, r, [], rfl, h, by simp⟩

/-- A request for a sink leaves it dropped if it was, and is the last one asked for. -/
theorem dropped_concat_iff (h : r.sink? = some s) :
    Dropped (rs ++ [r]) ↔ Dropped rs ∧ Request.last? rs = some s := by
  constructor
  · rintro ⟨xs, q, ys, hrs, hq, hys⟩
    -- the refused request is not the last one of the run
    obtain rfl | ⟨ys, t, rfl⟩ := List.eq_nil_or_concat ys
    · have hrq : r = q := by simpa using (List.append_inj_right' hrs rfl)
      simp [hrq, hq] at h
    rw [List.concat_eq_append] at hrs hys
    rw [← List.cons_append, ← List.append_assoc] at hrs
    obtain ⟨rfl, hrt⟩ := List.append_inj' hrs rfl
    obtain rfl : r = t := by simpa using hrt
    have hys' : ∀ u ∈ ys.filterMap Request.sink?, Request.last? xs = some u :=
      fun u hu => hys u (by simp [hu])
    refine ⟨⟨xs, q, ys, rfl, hq, hys'⟩, ?_⟩
    rw [last?_of_dropping hq hys']
    exact hys s (by simp [h])
  · rintro ⟨⟨xs, q, ys, rfl, hq, hys⟩, hlast⟩
    rw [last?_of_dropping hq hys] at hlast
    refine ⟨xs, q, ys ++ [r], by simp, hq, fun u hu => ?_⟩
    rw [List.filterMap_append, List.mem_append] at hu
    rcases hu with hu | hu
    · exact hys u hu
    · obtain rfl : u = s := by simpa [h] using hu
      exact hlast

/-- The log after a run of requests, whichever sinks were up before the first one. -/
theorem eq_after (hstart : start.configured = none) (rs : List Request) :
    (start.after rs).configured = (Request.last? rs).map Sink.key ∧
    (Dropped rs → (start.after rs).sinks = []) ∧
    (¬ Dropped rs →
      (start.after rs).sinks = (Request.last? rs).elim start.sinks fun s => [s]) := by
  -- the induction is on the end of the run : the last request meets the log that the others left
  induction rs using List.reverseRecOn with
  | nil => exact ⟨hstart, fun h => absurd h not_dropped_nil, fun _ => rfl⟩
  | append_singleton rs r ih =>
    obtain ⟨hconf, hdropped, hkept⟩ := ih
    rw [after_concat, Request.last?_append, Request.last?_singleton]
    cases hr : r.sink? with
    | none =>
      rw [request_refused hr]
      exact ⟨hconf, fun _ => rfl, fun h => absurd (dropped_concat_refused hr) h⟩
    | some s =>
      rw [dropped_concat_iff hr, Option.some_or]
      by_cases hlast : Request.last? rs = some s
      · rw [request_kept hr (by rw [hconf, hlast, Option.map_some])]
        exact ⟨by rw [hconf, hlast], fun h => hdropped h.1, fun h =>
          by rw [hkept fun hd => h ⟨hd, hlast⟩, hlast]⟩
      · have hne : (start.after rs).configured ≠ some s.key := by
          rw [hconf]
          intro h
          obtain ⟨t, ht, hkey⟩ := Option.map_eq_some_iff.mp h
          exact hlast (by rw [ht, Sink.key_inj.mp hkey])
        rw [request_rebuilt hr hne]
        exact ⟨rfl, fun h => absurd h.2 hlast, fun _ => rfl⟩

/-- A run of refused requests drops whatever was up. -/
theorem dropped_of_last?_eq_none (h : Request.last? rs = none) (hrs : rs ≠ []) : Dropped rs := by
  have hnone : rs.filterMap Request.sink? = [] := List.getLast?_eq_none_iff.mp h
  obtain ⟨q, ys, rfl⟩ := List.exists_cons_of_ne_nil hrs
  rw [List.filterMap_eq_nil_iff] at hnone
  refine ⟨[], q, ys, rfl, hnone q List.mem_cons_self, fun s hs => ?_⟩
  obtain ⟨t, ht, hts⟩ := List.mem_filterMap.mp hs
  rw [hnone t (List.mem_cons_of_mem _ ht)] at hts
  cases hts

/-- No sink is up after a run that dropped the last one, and after the empty one if none was
up before. -/
theorem sinks_after_eq_nil_iff (hstart : start.configured = none) :
    (start.after rs).sinks = [] ↔ Dropped rs ∨ rs = [] ∧ start.sinks = [] := by
  obtain ⟨-, hdropped, hkept⟩ := eq_after hstart rs
  constructor
  · intro h
    by_cases hd : Dropped rs
    · exact .inl hd
    · rw [hkept hd] at h
      cases hlast : Request.last? rs with
      | some s => simp [hlast] at h
      | none =>
        have hrs : rs = [] := by
          by_contra hne
          exact hd (dropped_of_last?_eq_none hlast hne)
        exact .inr ⟨hrs, by simpa [hlast] using h⟩
  · rintro (hd | ⟨rfl, h⟩)
    · exact hdropped hd
    · exact h

/-- A request after a run, starting from a log that nothing has configured. If it is refused,
the log is left as it was exactly if no sink was up any more. If it is not, the log is
configured for the sink that it asks for, and that sink is up, and no other, exactly if the
run did not drop it. -/
theorem request_after (hstart : start.configured = none) (rs : List Request) (r : Request) :
    (r.sink? = none →
      ((start.after rs).request r).1 = .refused ⟨Text.upper r.level⟩ ∧
      ((start.after rs).request r).2.configured = (start.after rs).configured ∧
      (((start.after rs).request r).2 = start.after rs ↔
        Dropped rs ∨ rs = [] ∧ start.sinks = [])) ∧
    ∀ s, r.sink? = some s →
      (∀ e, ((start.after rs).request r).1 ≠ .refused e) ∧
      ((start.after rs).request r).2.configured = some s.key ∧
      (((start.after rs).request r).2.sinks = [s] ↔
        ¬ (Dropped rs ∧ Request.last? rs = some s)) := by
  refine ⟨fun hr => ?_, fun s hr => ?_⟩
  · rw [request_refused hr, ← sinks_after_eq_nil_iff hstart]
    refine ⟨rfl, rfl, fun h => (congrArg Log.sinks h).symm, fun h => ?_⟩
    rw [← h]
  · have hchange : ∀ e, ((start.after rs).request r).1 ≠ .refused e := by
      intro e
      by_cases hc : (start.after rs).configured = some s.key
      · simp [request_kept hr hc]
      · simp [request_rebuilt hr hc]
    -- what the request leaves is what the run leaves with the request at its end
    obtain ⟨hconf, hdropped, hkept⟩ := eq_after hstart (rs ++ [r])
    rw [after_concat, Request.last?_append, Request.last?_singleton, hr, Option.some_or]
      at hconf hkept
    rw [after_concat] at hdropped
    refine ⟨hchange, hconf, ?_⟩
    rw [← dropped_concat_iff hr]
    constructor
    · intro hup hd
      simp [hdropped hd] at hup
    · intro hd
      exact hkept hd

/-- A request for a level in the profile of a configuration that names none. -/
def Request.plain (level : String) : Request := ⟨level.toList, defaultProfile⟩

/-- A refusal takes a sink away, and a request for another sink puts that one up. -/
theorem request_after_refusal :
    silent.configured = none ∧
    (Request.plain "loud").sink? = none ∧
    ((silent.after [.plain "INFO"]).request (.plain "loud")).2 ≠ silent.after [.plain "INFO"] ∧
    (Request.plain "debug").sink? = some ⟨defaultProfile, .debug⟩ ∧
    ((silent.after [.plain "INFO", .plain "loud"]).request (.plain "debug")).2.sinks =
      [⟨defaultProfile, .debug⟩] := by
  have hloud : (Request.plain "loud").sink? = none := by cbv
  have hdebug : (Request.plain "debug").sink? = some ⟨defaultProfile, .debug⟩ := by cbv
  have hinfo : (Request.plain "INFO").sink? = some ⟨defaultProfile, .info⟩ := by cbv
  have hfirst : ¬ Dropped ([] ++ [Request.plain "INFO"]) := by
    rw [dropped_concat_iff hinfo]
    exact fun h => not_dropped_nil h.1
  refine ⟨rfl, hloud, fun h => ?_, hdebug, ?_⟩
  · rcases ((request_after rfl _ _).1 hloud).2.2.mp h with hd | ⟨hnil, -⟩
    · exact hfirst hd
    · cases hnil
  · refine (((request_after rfl _ _).2 _ hdebug).2.2).mpr fun h => ?_
    have hlast : Request.last? [.plain "INFO", .plain "loud"] = some ⟨defaultProfile, .info⟩ := by
      cbv
    rw [hlast] at h
    cases h.2

/-- A refused request takes the sink away, and the same request as before does not bring it
back, though it is not refused. -/
theorem sink_lost_by_refusal :
    silent.after [.plain "INFO"] =
      ⟨[⟨defaultProfile, .info⟩], some (defaultProfile, .info)⟩ ∧
    (silent.after [.plain "INFO"]).request (.plain "BOGUS") =
      (.refused ⟨"BOGUS".toList⟩, ⟨[], some (defaultProfile, .info)⟩) ∧
    (silent.after [.plain "INFO", .plain "BOGUS"]).request (.plain "INFO") =
      (.kept, ⟨[], some (defaultProfile, .info)⟩) := by
  refine ⟨?_, ?_, ?_⟩ <;> cbv

end CollectionShell.Log
