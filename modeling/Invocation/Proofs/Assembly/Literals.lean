import Invocation.Formula.Evaluator
import Invocation.Proofs.Assembly.Targets
import Invocation.Proofs.Template.Literal
import Mathlib

/-!
# Literal arguments

An argument that is written as a text is placed as it is when no reference starts in the text, and is
evaluated otherwise; an argument with a value is always evaluated.  The two ways of writing a text that can
be evaluated differ only where a dollar sign is escaped and no reference starts: the literal text keeps the
backslash (`literal_argument_iff`).  This holds whatever the values of references are, as long as the place of
an expression shows in errors alone (`Template.IgnoresPlaces`).
-/

namespace Invocation

/-- What a result places on a command line: the text of its fragment, unless that is blank. -/
def Rendered.word? (result : Rendered) : Option String :=
  (result.fragment.filter fun fragment ↦ !fragment.isBlank).map Fragment.word

/-! ## Trimming -/

namespace Text

/-- What is not a blank is not trimmed away. -/
theorem count_dropWhile_isBlank {c : Char} (h : isBlank c = false) (cs : List Char) :
    (cs.dropWhile isBlank).count c = cs.count c := by
  have hfront : (cs.takeWhile isBlank).count c = 0 := by
    refine List.count_eq_zero.2 fun hmem ↦ ?_
    rw [List.mem_takeWhile_imp hmem] at h
    cases h
  have hsplit : (cs.takeWhile isBlank ++ cs.dropWhile isBlank).count c =
      (cs.takeWhile isBlank).count c + (cs.dropWhile isBlank).count c := List.count_append
  rw [List.takeWhile_append_dropWhile, hfront, Nat.zero_add] at hsplit
  exact hsplit.symm

/-- A character that is no blank is as often in the trimmed text as in the text. -/
theorem count_trimChars {c : Char} (h : isBlank c = false) (cs : List Char) :
    (trimChars cs).count c = cs.count c := by
  unfold trimChars trimFront
  rw [List.count_reverse, count_dropWhile_isBlank h, List.count_reverse, count_dropWhile_isBlank h]

end Text

/-! ## The place of an expression -/

/-- A reference that has a value has it at every place of its expression. -/
def Template.IgnoresPlaces (value : Scope → String → String → Except EvaluationError Json) : Prop :=
  ∀ scope location body json,
    value scope location body = .ok json → ∀ place, value scope place body = .ok json

/-- An expression that has a value has it at every place, if its references do. -/
theorem Template.IgnoresPlaces.evaluator_eq {value : Scope → String → String → Except EvaluationError Json}
    (hvalue : IgnoresPlaces value) {source location : String} {scope : Scope} {result : JobValue}
    (h : evaluator value ⟨⟨source, location⟩, scope⟩ = .ok result) (place : String) :
    evaluator value ⟨⟨source, place⟩, scope⟩ = .ok result :=
  evaluate_mono (fun _ _ hbody ↦ hvalue _ _ _ _ hbody place) h place

/-- Of the values of formulas the place shows in errors alone. -/
theorem Formula.ignoresPlaces_value (fuel : Nat) :
    Template.IgnoresPlaces fun scope ↦ value fuel (scopeNames scope) := by
  intro scope location body json h place
  dsimp only at *
  unfold value at *
  split at h
  · cases h
  · cases h
  · split at h
    · cases h
    · rw [← h]

/-! ## Arguments -/

namespace Argument

/-- The argument at a place whose value is that of a source, without a flag. -/
def evaluated (location : String) (expression : Expression) : Argument :=
  ⟨none, { Binding.plain with valueFrom := some expression }, location⟩

/-- An evaluated argument is rendered from its value. -/
theorem run_evaluated {evaluator : Evaluator} {expression : Expression} {scope : Scope} {value : JobValue}
    (h : evaluator ⟨expression, scope⟩ = .ok value) (location : String) (job : JobValue) :
    ((evaluated location expression).render job scope).run evaluator =
      (((InputType.infer value).render location .plain location job (some value) scope).map
        .asArgument).run evaluator := by
  show Rendering.run evaluator (.evaluate expression scope location _) = _
  rw [Rendering.evaluate, Rendering.run, h]
  rfl

/-- An argument with a string for its value is this string. -/
theorem run_render_string (evaluator : Evaluator) (text location : String) (job : JobValue)
    (scope : Scope) :
    (((InputType.infer (.string text)).render location .plain location job (some (.string text))
      scope).map .asArgument).run evaluator =
        .ofFragment ⟨text, Fragment.argumentTag, location⟩ := by
  rw [Rendering.run_map, InputType.infer, InputType.render]
  rfl

end Argument

namespace Document

/-- An argument that is an object with a value and nothing else. -/
theorem readArgument_valueFrom (version : DocumentVersion) (location source : String) :
    readArgument version location (.object [("valueFrom", .string source)]) =
      .ok ⟨.evaluated location ⟨source, child location "valueFrom"⟩, 0⟩ := rfl

/-- A text in which a reference starts is an argument that is evaluated. -/
theorem readArgument_of_hasReference {source : String} (h : hasReference source.toList = true)
    (version : DocumentVersion) (location : String) :
    readArgument version location (.string source) = .ok ⟨.evaluated location ⟨source, location⟩, 0⟩ := by
  rw [readArgument, if_pos h]
  rfl

/-- A text in which no reference starts is a literal argument. -/
theorem readArgument_of_not_hasReference {source : String} (h : hasReference source.toList = false)
    (version : DocumentVersion) (location : String) :
    readArgument version location (.string source) = .ok ⟨⟨some source, .plain, location⟩, 0⟩ := by
  rw [readArgument, if_neg (Bool.eq_false_iff.1 h)]

end Document

namespace Rendered

/-- The word of a text holds every character of it that is no blank. -/
theorem count_word? {c : Char} (hc : Text.isBlank c = false) (text tag location : String) :
    ((ofFragment ⟨text, tag, location⟩).word?.getD "").toList.count c = text.toList.count c := by
  cases hblank : Text.isBlankText text with
  | true =>
      have hword : (ofFragment ⟨text, tag, location⟩).word? = none := by
        simp [word?, ofFragment, Fragment.isBlank, hblank]
      have hnone : text.toList.count c = 0 := by
        refine List.count_eq_zero.2 fun hmem ↦ ?_
        rw [List.all_eq_true.1 hblank c hmem] at hc
        cases hc
      rw [hword, hnone]
      rfl
  | false =>
      have hword : (ofFragment ⟨text, tag, location⟩).word? = some (Text.trim text) := by
        simp [word?, ofFragment, Fragment.isBlank, Fragment.word, hblank]
      rw [hword]
      show (String.ofList (Text.trimChars text.toList)).toList.count c = _
      rw [String.toList_ofList, Text.count_trimChars hc]

/-- Without the backslashes of its escaped dollar signs a text leaves the same word exactly when it has no
such sign. -/
theorem word?_unescaped_iff (text tag location : String) :
    (ofFragment ⟨text, tag, location⟩).word? =
        (ofFragment ⟨String.ofList (Template.unescaped text.toList), tag, location⟩).word? ↔
      ¬ Template.HasEscape text.toList := by
  constructor
  · intro hwords hescape
    -- a word keeps the backslashes of its text, and the second text has fewer of them
    have hfewer := Template.count_unescaped_lt hescape
    have hcount := congrArg (fun word ↦ (word.getD "").toList.count '\\') hwords
    simp only [count_word? (c := '\\') (by decide), String.toList_ofList] at hcount
    omega
  · intro hescape
    rw [Template.unescaped_of_not_hasEscape hescape, String.ofList_toList]

end Rendered

/-! ## Command lines -/

namespace Tool

/-- The tool with one of its arguments replaced. -/
def withArgument (tool : Tool) (front back : List ToolArgument) (argument : ToolArgument) : Tool :=
  { tool with arguments := front ++ argument :: back }

/-- A command line depends on the position and the result of an argument alone. -/
theorem assemble_withArgument_congr {evaluator : Evaluator} {tool : Tool} {job : JobValue}
    {runtime : Runtime} (first second : ToolArgument) (hposition : first.position = second.position)
    (hresult : tool.resultOf evaluator job runtime (.argument first.argument) =
      tool.resultOf evaluator job runtime (.argument second.argument))
    (front back : List ToolArgument) :
    (tool.withArgument front back first).assemble evaluator job runtime =
      (tool.withArgument front back second).assemble evaluator job runtime := by
  let result := tool.resultOf evaluator job runtime
  have hsame : Entry.outcome result ⟨first.position, none, .argument first.argument⟩ =
      Entry.outcome result ⟨second.position, none, .argument second.argument⟩ := by
    simp only [Entry.outcome, result, hposition, hresult]
  have hentries : (tool.withArgument front back first).entries.map (Entry.outcome result) =
      (tool.withArgument front back second).entries.map (Entry.outcome result) := by
    simp [entries, argumentEntries, inputEntries, withArgument, hsame]
  have htargets : (tool.withArgument front back first).targets.map result =
      (tool.withArgument front back second).targets.map result := by
    rw [map_targets, map_targets, hentries]
    rfl
  rw [assemble_eq_gather, assemble_eq_gather, results_eq_map_targets, results_eq_map_targets]
  exact congrArg (fun results ↦ gather tool.baseCommand (results.map some)) htargets

/-- A text that can be evaluated is placed in the same way as a literal argument and as the value of an
argument, unless a dollar sign is escaped in it and no reference starts: then the two words differ, by the
backslashes that the literal argument keeps. -/
theorem literal_argument_iff {value : Scope → String → String → Except EvaluationError Json}
    (hvalue : Template.IgnoresPlaces value) (version : DocumentVersion) (location source : String)
    (tool : Tool) (job : JobValue) (runtime : Runtime) {place : String} {result : JobValue}
    (h : Template.evaluator value ⟨⟨source, place⟩, .top (tool.withDefaults job) runtime⟩ = .ok result) :
    ∃ literal bound : ToolArgument,
      Document.readArgument version location (.string source) = .ok literal ∧
      Document.readArgument version location (.object [("valueFrom", .string source)]) = .ok bound ∧
      ((tool.resultOf (Template.evaluator value) job runtime (.argument literal.argument)).word? =
          (tool.resultOf (Template.evaluator value) job runtime (.argument bound.argument)).word? ↔
        (Document.hasReference source.toList = true ∨ ¬ Template.HasEscape source.toList)) ∧
      ((Document.hasReference source.toList = true ∨ ¬ Template.HasEscape source.toList) →
        ∀ front back,
          (tool.withArgument front back literal).assemble (Template.evaluator value) job runtime =
            (tool.withArgument front back bound).assemble (Template.evaluator value) job runtime) := by
  let expression : Expression := ⟨source, Document.child location "valueFrom"⟩
  let bound : ToolArgument := ⟨.evaluated location expression, 0⟩
  have hread : Document.readArgument version location (.object [("valueFrom", .string source)]) =
      .ok bound := Document.readArgument_valueFrom version location source
  have hbound := Argument.run_evaluated (hvalue.evaluator_eq h expression.location) location
    (tool.withDefaults job)
  cases hreference : Document.hasReference source.toList with
  | true =>
      -- both arguments are evaluated, and the place of the expression does not show
      let literal : ToolArgument := ⟨.evaluated location ⟨source, location⟩, 0⟩
      have hliteral := Argument.run_evaluated (hvalue.evaluator_eq h location) location
        (tool.withDefaults job)
      have hsame : tool.resultOf (Template.evaluator value) job runtime (.argument literal.argument) =
          tool.resultOf (Template.evaluator value) job runtime (.argument bound.argument) :=
        hliteral.trans hbound.symm
      refine ⟨literal, bound, Document.readArgument_of_hasReference hreference version location, hread,
        ⟨fun _ ↦ .inl rfl, fun _ ↦ congrArg Rendered.word? hsame⟩, fun _ front back ↦ ?_⟩
      exact assemble_withArgument_congr literal bound rfl hsame front back
  | false =>
      let literal : ToolArgument := ⟨⟨some source, .plain, location⟩, 0⟩
      let text := String.ofList (Template.unescaped source.toList)
      have hliteral : tool.resultOf (Template.evaluator value) job runtime (.argument literal.argument) =
          .ofFragment ⟨source, Fragment.argumentTag, location⟩ := rfl
      have hstring : result = .string text := by
        have hevaluate : Template.evaluator value
            ⟨⟨source, place⟩, .top (tool.withDefaults job) runtime⟩ = .ok (.string text) :=
          Template.evaluate_of_not_hasReference hreference place
        exact Except.ok.inj (h.symm.trans hevaluate)
      have hresult : tool.resultOf (Template.evaluator value) job runtime (.argument bound.argument) =
          .ofFragment ⟨text, Fragment.argumentTag, location⟩ := by
        rw [hstring, Argument.run_render_string] at hbound
        exact hbound
      refine ⟨literal, bound, Document.readArgument_of_not_hasReference hreference version location,
        hread, ?_, fun hdiffer front back ↦ ?_⟩
      · rw [hliteral, hresult, Rendered.word?_unescaped_iff]
        exact (or_iff_right Bool.false_ne_true).symm
      · refine assemble_withArgument_congr literal bound rfl ?_ front back
        have htext : text = source := by
          show String.ofList (Template.unescaped source.toList) = source
          rw [Template.unescaped_of_not_hasEscape (hdiffer.resolve_left Bool.false_ne_true),
            String.ofList_toList]
        rw [hliteral, hresult, htext]

/-- A tool with nothing but a base command. -/
def bareEcho : Tool :=
  ⟨none, .v1, ["echo"], [], [], none, none⟩

/-- A dollar sign is escaped in front of a reference: both arguments are the text `$5 for 1`. -/
theorem literal_argument_iff_priced :
    ∃ literal bound : ToolArgument,
      Document.readArgument .v1 "document.arguments[0]" (.string "\\$5 for $(runtime.cores)") =
        .ok literal ∧
      Document.readArgument .v1 "document.arguments[0]"
        (.object [("valueFrom", .string "\\$5 for $(runtime.cores)")]) = .ok bound ∧
      ∀ front back,
        (bareEcho.withArgument front back literal).assemble (Formula.evaluator 9) (.mapping []) {} =
          (bareEcho.withArgument front back bound).assemble (Formula.evaluator 9) (.mapping []) {} := by
  unfold Formula.evaluator
  have hresult : Template.evaluator (fun scope ↦ Formula.value 9 (Formula.scopeNames scope))
      ⟨⟨"\\$5 for $(runtime.cores)", "here"⟩, .top (bareEcho.withDefaults (.mapping [])) {}⟩ =
        .ok (.string "$5 for 1") := by cbv
  obtain ⟨literal, bound, hliteral, hbound, -, hassemble⟩ :=
    literal_argument_iff (Formula.ignoresPlaces_value 9) .v1 "document.arguments[0]"
      "\\$5 for $(runtime.cores)" bareEcho (.mapping []) {} hresult
  exact ⟨literal, bound, hliteral, hbound, hassemble (.inl rfl)⟩

/-- No reference starts in this text, which has the value `$5`: as a literal argument it keeps the
backslash. -/
theorem literal_argument_escaped :
    Formula.evaluator 9 ⟨⟨"\\$5", "here"⟩, .top (bareEcho.withDefaults (.mapping [])) {}⟩ =
      .ok (.string "$5") ∧
    ∃ literal bound : ToolArgument,
      Document.readArgument .v1 "document.arguments[0]" (.string "\\$5") = .ok literal ∧
      Document.readArgument .v1 "document.arguments[0]" (.object [("valueFrom", .string "\\$5")]) =
        .ok bound ∧
      ((bareEcho.withArgument [] [] literal).assemble (Formula.evaluator 9) (.mapping []) {}).commandLine =
        "echo \\$5" ∧
      ((bareEcho.withArgument [] [] bound).assemble (Formula.evaluator 9) (.mapping []) {}).commandLine =
        "echo $5" := by
  refine ⟨rfl, _, _, rfl, rfl, ?_, ?_⟩
  · cbv
  · cbv

end Tool

end Invocation
