import CollectionShell.Console.CommandLine
import CollectionShell.Proofs.Json.Indented
import CollectionShell.Proofs.Json.WrittenValues
import CollectionShell.Proofs.Operation.Acceptance
import CollectionShell.Proofs.Operation.Values

/-!
# What is printed of a call

`parse` prints the call that its words make as an object in the indented form, and the text
decodes to the collection, the method and the arguments of the call in that order, the members of
every object in theirs (`decode_printed`).
The arguments of the call were read from JSON, so without doubles and lone surrogates they are
renderable, and so is the whole call (`renderable_toJson`).
-/

namespace CollectionShell.Console

open Json
open Operation (Call decodeArgument)

/-! ## The call as an object -/

theorem all_isCharacter_ofText (t : Text) : (CodePoint.ofText t).all isCharacter = true := by
  rw [CodePoint.ofText, List.all_map, List.all_eq_true]
  intro c _
  rw [Function.comp_apply, isCharacter, CodePoint.toChar?_ofChar]
  rfl

/-- A call can be written if its arguments can. -/
theorem isWritable_toJson (c : Call) : c.toJson.isWritable = areWritable c.arguments := by
  simp [Call.toJson, isWritable, membersWritable, ofText, CodePoint.ofString,
    all_isCharacter_ofText]

theorem renderable_ofText {n : Nat} (t : Text) : Renderable .parity n (ofText t) :=
  .string (quotable_parity (all_isCharacter_ofText t))

/-- The object of a call is renderable if its arguments are. -/
theorem renderable_toJson {n : Nat} {c : Call}
    (h : ∀ v ∈ c.arguments, Renderable .parity n v) : Renderable .parity (n + 2) c.toJson := by
  have hnames : ["collection", "method", "arguments"].map CodePoint.ofString |>.Nodup := by decide
  refine .object hnames ?_ ?_
  · simp only [List.forall_mem_cons]
    exact ⟨quotable_parity (by decide), quotable_parity (by decide), quotable_parity (by decide),
      nofun⟩
  · simp only [List.forall_mem_cons]
    exact ⟨renderable_ofText _, renderable_ofText _, .array h, nofun⟩

/-- The arguments of a call stand one level deep in its object. -/
theorem nesting_toJson (c : Call) : c.toJson.nesting = (Json.array c.arguments).nesting + 1 := by
  have := nesting_pos (.array c.arguments)
  simp only [Call.toJson, ofText, nesting, nestingOfMembers] at this ⊢
  omega

/-! ## Printing -/

variable {mode : EscapeMode}

/-- The arguments of a call that is read are written in its text. -/
theorem exists_written_of_parse {raw : Text} {c : Call} (h : Operation.parse mode raw = .ok c) :
    ∀ v ∈ c.arguments, ∃ t, Written maxDepth t v := by
  obtain ⟨-, -, -, -, -, -, -, -, -, -, -, -, -, ⟨segments, -, hdecode⟩, -⟩ :=
    Operation.callText_of_parse h
  intro v hv
  obtain ⟨s, -, hs⟩ := Operation.exists_segment hdecode v hv
  exact ⟨_, hs⟩

/-- No call is read from no words. -/
theorem words_ne_nil {words : List Text} {c : Call}
    (h : Operation.parse mode (Text.joinWith [' '] words) = .ok c) : words ≠ [] := by
  rintro rfl
  have hnone : Operation.parse mode [] = .error (.structural [] .wrongCount) := by
    cases mode <;> rfl
  rw [Text.joinWith_nil, hnone] at h
  cases h

/-- A call whose arguments can be written is printed in the indented form. -/
theorem outcome_runParse {log : Log} {settings : Settings} {words : List Text} {c : Call}
    (h : Operation.parse settings.escapeMode (Text.joinWith [' '] words) = .ok c)
    (hw : areWritable c.arguments = true) :
    (runParse log settings words).outcome =
      .ended 0 (indented settings.outputIndent 0 c.toJson ++ ['\n']) := by
  rw [Operation.parse] at h
  rw [runParse, if_neg (words_ne_nil h)]
  simp only [h, printCall, isWritable_toJson, hw, if_true]

/-- A text that is derived decodes with a line break behind it. -/
theorem decodeArgument_line {t : Text} {v : Json} (h : Written maxDepth t v) :
    decodeArgument (t ++ ['\n']) = .ok v := by
  have hblank : Text.Blank ['\n'] := List.forall_mem_singleton.2 rfl
  have htrim : Text.trim (t ++ ['\n']) = t := by
    have := Text.trim_append_blank Text.blank_nil hblank t
    rwa [(Operation.whole_written h).trim_eq] at this
  rw [Operation.decodeArgument_eq_ok, htrim]
  exact h

/-- Words that make a call without doubles and lone surrogates are answered with a text that
decodes to an object of the call's names and arguments, for any indentation, unless the arguments
nest too deep to be read inside it. -/
theorem decode_printed (log : Log) (settings : Settings) (words : List Text) (c : Call)
    (hc : Operation.parse settings.escapeMode (Text.joinWith [' '] words) = .ok c)
    (hf : areFloatFree c.arguments = true) (hw : areWritable c.arguments = true)
    (hn : (Json.array c.arguments).nesting < maxDepth) :
    ∃ output, (runParse log settings words).outcome = .ended 0 output ∧
      decodeArgument output = .ok (.object
        [(CodePoint.ofString "collection", .string (CodePoint.ofText c.collection)),
          (CodePoint.ofString "method", .string (CodePoint.ofText c.method)),
          (CodePoint.ofString "arguments", .array c.arguments)]) := by
  -- what parity asks of a string is that it can be written, whatever mode the words are read in
  have hargs : ∀ v ∈ c.arguments, Renderable .parity maxDepth v := by
    intro v hv
    obtain ⟨t, ht⟩ := exists_written_of_parse hc v hv
    exact ht.renderable (areFloatFree_iff.1 hf v hv) (areWritable_iff.1 hw v hv)
  have hdepth : c.toJson.nesting ≤ maxDepth := by
    rw [nesting_toJson]
    exact hn
  refine ⟨_, outcome_runParse hc hw, decodeArgument_line ?_⟩
  exact (renderable_toJson hargs).written_indented settings.outputIndent 0 hdepth

theorem decode_printed_insertOne :
    ∃ output, (runParse Log.silent { escapeMode := .parity, outputIndent := 0 }
        ["us.insertOne(\x7b\"b\":\"\\\"\\\\\\u0007\\n\u00e9\",".toList,
          "\"a\": [[], -12, \x7b\x7d, null]\x7d)".toList]).outcome = .ended 0 output ∧
      decodeArgument output = .ok (.object
        [(CodePoint.ofString "collection", .string (CodePoint.ofString "us")),
          (CodePoint.ofString "method", .string (CodePoint.ofString "insertOne")),
          (CodePoint.ofString "arguments", .array
            [.object [(CodePoint.ofString "b", .string [0x22, 0x5C, 0x07, 0x0A, 0xE9]),
              (CodePoint.ofString "a", .array [.array [], .int (-12), .object [], .null])]])]) :=
  decode_printed Log.silent _ _ ⟨['u', 's'], "insertOne".toList, [.object [_, _]]⟩ (by cbv)
    (by decide) (by decide) (by decide)

end CollectionShell.Console
