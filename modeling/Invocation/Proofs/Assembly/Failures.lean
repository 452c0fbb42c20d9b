import Invocation.Proofs.Assembly.Interleaving
import Invocation.Proofs.Rendering.Failures

/-!
# Failures of evaluations in an assembly

No failure is silent: the errors of a command line are those of the evaluations that failed, in the order
of the command line, and their tokens stand in the command line one behind the other.  No token is lost
when blank fragments are left out and the others are trimmed, since no token is blank or ends in blanks.
-/

namespace Invocation

namespace Tool

/-- The evaluations that the entries of a tool ask for, in the order of the command line. -/
def calls (evaluator : Evaluator) (tool : Tool) (job : JobValue) (runtime : Runtime) : List Call :=
  Rendering.traceAll evaluator (tool.renderings (tool.withDefaults job) runtime)

end Tool

/-- The words of fragments are the texts that are not blank, trimmed. -/
theorem map_word_filter_isBlank (results : List Rendered) :
    (((results.filterMap Rendered.fragment).filter fun fragment ↦ !fragment.isBlank).map
      Fragment.word).map String.toList =
    ((((results.filterMap Rendered.text?).map String.toList).filter
      fun text ↦ !text.all Text.isBlank).map Text.trimChars) := by
  have htexts : results.filterMap Rendered.text? =
      (results.filterMap Rendered.fragment).map Fragment.text := by
    rw [List.map_filterMap]
    rfl
  rw [htexts, List.map_map, List.map_map, List.filter_map, List.map_map]
  refine List.map_congr_left fun fragment _ ↦ ?_
  simp [Fragment.word, Text.trim]

/-- The command line of texts that fill stencils fills one as well. -/
theorem exists_fills_commandLine (baseCommand : List String) (stencils : List Stencil) :
    ∃ stencil : Stencil, ∀ (results : List Rendered) (errors : List EvaluationError),
      Stencil.FillsAll stencils (tokens errors)
        ((results.filterMap Rendered.text?).map String.toList) →
      stencil.Fills (tokens errors)
        (String.intercalate " "
          (commandWords baseCommand (results.filterMap Rendered.fragment))).toList := by
  refine ⟨(Stencil.ofChars " ".toList).intercalate ((baseCommand.map String.toList).map Stencil.ofChars
    ++ (stencils.filter fun stencil ↦ !stencil.isBlank).map Stencil.trim), fun results errors h ↦ ?_⟩
  have hwords := (h.words solid_tokens).prepend (baseCommand.map String.toList)
  rw [← map_word_filter_isBlank, ← List.map_append] at hwords
  rw [String.toList_intercalate]
  exact hwords.intercalate " ".toList

namespace Tool

/-- The entries of a tool are rendered with contained failures. -/
theorem contained_renderings (tool : Tool) (job : JobValue) (runtime : Runtime) :
    ∀ rendering ∈ tool.renderings job runtime, rendering.Contained := by
  intro rendering hmem
  obtain ⟨target, _, rfl⟩ := List.mem_map.1 hmem
  exact Rendering.contained_target target job none _

/-- Every failed evaluation leaves one error, and there are no other errors. -/
theorem reports_assemble (evaluator : Evaluator) (tool : Tool) (job : JobValue) (runtime : Runtime) :
    List.Forall₂ Finding.Reports (tool.assemble evaluator job runtime).findings.errors
      (failures evaluator (tool.calls evaluator job runtime)) := by
  rw [findings_assemble, Findings.concat, List.flatMap_map]
  unfold results calls
  rw [← Rendering.runAll_eq_map]
  exact Rendering.errors_runAll fun rendering hmem ↦
    (contained_renderings tool _ runtime rendering hmem).errors evaluator

/-- Evaluators that give the same values are asked for the same evaluations. -/
theorem calls_eq {evaluator other : Evaluator} (h : evaluator.Alike other) (tool : Tool)
    (job : JobValue) (runtime : Runtime) :
    tool.calls other job runtime = tool.calls evaluator job runtime := by
  unfold calls
  rw [Rendering.traceAll_eq_flatMap, Rendering.traceAll_eq_flatMap]
  exact List.flatMap_congr fun rendering hmem ↦
    (contained_renderings tool _ runtime rendering hmem).trace_eq h

/-- The command line is a stencil with the tokens of the failures in its places. -/
theorem exists_stencil_assemble (evaluator : Evaluator) (tool : Tool) (job : JobValue)
    (runtime : Runtime) :
    ∃ stencil : Stencil, ∀ other : Evaluator, evaluator.Alike other →
      stencil.Fills (tokens (failures other (tool.calls other job runtime)))
        (tool.assemble other job runtime).commandLine.toList := by
  obtain ⟨stencils, hstencils⟩ := Rendering.exists_stencils fun rendering hmem ↦
    (contained_renderings tool (tool.withDefaults job) runtime rendering hmem).exists_stencil
      evaluator
  obtain ⟨stencil, hstencil⟩ := exists_fills_commandLine tool.baseCommand stencils
  refine ⟨stencil, fun other halike ↦ ?_⟩
  rw [commandLine_assemble, calls_eq halike]
  refine hstencil _ _ ?_
  have hfills := hstencils other halike
  rwa [Rendering.runAll_eq_map] at hfills

/-- No failure is silent: the errors are those of the failed evaluations, in the order of the command
line, and the command line is a text with their tokens at places of their own, which stay the same when
evaluations fail in other ways.  So there are no errors exactly when no evaluation fails, and exactly when
there is no place for a token. -/
theorem errors_eq_failures (evaluator : Evaluator) (tool : Tool) (job : JobValue)
    (runtime : Runtime) :
    (tool.assemble evaluator job runtime).cancelled = false ∧
    List.Forall₂ Finding.Reports (tool.assemble evaluator job runtime).findings.errors
      (failures evaluator (tool.calls evaluator job runtime)) ∧
    (∃ stencil : Stencil,
      stencil.Fills (tokens (failures evaluator (tool.calls evaluator job runtime)))
        (tool.assemble evaluator job runtime).commandLine.toList ∧
      (∀ other : Evaluator, evaluator.Alike other →
        stencil.Fills (tokens (failures other (tool.calls other job runtime)))
          (tool.assemble other job runtime).commandLine.toList) ∧
      ((tool.assemble evaluator job runtime).findings.errors = [] ↔ stencil.places = 0)) ∧
    ((tool.assemble evaluator job runtime).findings.errors = [] ↔
      ∀ call ∈ tool.calls evaluator job runtime, ∃ value, evaluator call = .ok value) := by
  have hreports := reports_assemble evaluator tool job runtime
  obtain ⟨stencil, hstencil⟩ := exists_stencil_assemble evaluator tool job runtime
  have hfills := hstencil evaluator fun _ ↦ rfl
  have hplaces : stencil.places = (tool.assemble evaluator job runtime).findings.errors.length := by
    rw [hfills.places_eq, hreports.length_eq]
    exact List.length_map _
  refine ⟨?_, hreports, ⟨stencil, hfills, hstencil, ?_⟩, ?_⟩
  · unfold assemble gather
    simp
  · rw [hplaces, List.length_eq_zero_iff]
  · rw [← failures_eq_nil_iff, ← List.length_eq_zero_iff, hreports.length_eq,
      List.length_eq_zero_iff]

end Tool

/-- Every evaluation fails with an error of the given kind. -/
def failAll (kind : String) : Evaluator := fun call ↦
  .error ⟨kind, call.expression.location, call.expression.source⟩

open Assembling in
/-- The evaluations of one argument and of two flags fail.  Their three tokens stand in the command line
at the places that do not depend on the kind of the errors. -/
theorem errors_eq_failures_slowEcho :
    (failAll "NotDefined").Alike (failAll "TimedOut") ∧
    (slowEcho.assemble (failAll "NotDefined") twoFlags {}).findings.errors.length = 3 ∧
    ∃ stencil : Stencil, stencil.places = 3 ∧
      stencil.Fills (tokens (failures (failAll "TimedOut")
          (slowEcho.calls (failAll "TimedOut") twoFlags {})))
        ("echo first <TimedOut at document.arguments[1]> <TimedOut at document.inputs[0]> " ++
          "<TimedOut at document.inputs[0]>").toList := by
  have hlength : (failures (failAll "NotDefined")
      (slowEcho.calls (failAll "NotDefined") twoFlags {})).length = 3 := by
    unfold Tool.calls Tool.renderings
    rw [targets_slowEcho]
    decide
  have hline : (slowEcho.assemble (failAll "TimedOut") twoFlags {}).commandLine =
      "echo first <TimedOut at document.arguments[1]> <TimedOut at document.inputs[0]> " ++
        "<TimedOut at document.inputs[0]>" := by
    unfold Tool.assemble Tool.renderings
    rw [targets_slowEcho]
    decide
  obtain ⟨_, hreports, ⟨stencil, hfills, hother, _⟩, _⟩ :=
    Tool.errors_eq_failures (failAll "NotDefined") slowEcho twoFlags {}
  refine ⟨fun _ ↦ rfl, hreports.length_eq.trans hlength, stencil, ?_, ?_⟩
  · exact hfills.places_eq.trans ((List.length_map _).trans hlength)
  · rw [← hline]
    exact hother (failAll "TimedOut") fun _ ↦ rfl

end Invocation
