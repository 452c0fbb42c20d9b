import Invocation.Proofs.Rendering.Shape
import Invocation.Proofs.Text.Stencil
import Mathlib.Data.List.Forall2

/-!
# Failures of evaluations in a rendering

A failed evaluation ends its branch of a rendering with a token and one error.  `Contained` says of a
rendering that this holds at every depth, and that its joins lose neither texts nor errors; every target
is rendered so (`contained_target`).  Of a contained rendering the errors are those of the failed
evaluations in the order of the trace (`Contained.errors`), and the text is a stencil with their tokens in
its places, which depends on the values that evaluations give but not on how they fail
(`Contained.exists_stencil`).
-/

namespace Invocation

namespace EvaluationError

/-- The token of a failure on the command line. -/
def token (error : EvaluationError) : String :=
  Fragment.token error.kind error.location

end EvaluationError

/-- The finding is the error that records a failed evaluation. -/
structure Finding.Reports (finding : Finding) (error : EvaluationError) : Prop where
  issue : finding.issue = .expressionEvaluationError
  message : finding.message = error.line

/-- The failure of an evaluation, if it fails. -/
def Evaluator.failure? (evaluator : Evaluator) (call : Call) : Option EvaluationError :=
  match evaluator call with
  | .error error => some error
  | .ok _ => none

/-- Two evaluators give the same values and fail at the same calls, perhaps with other errors. -/
def Evaluator.Alike (first second : Evaluator) : Prop :=
  ∀ call, (first call).toOption = (second call).toOption

namespace Evaluator.Alike

variable {evaluator other : Evaluator} {call : Call}

/-- A value is given by both evaluators. -/
theorem eq_ok (h : evaluator.Alike other) {value : JobValue} (hcall : evaluator call = .ok value) :
    other call = .ok value := by
  have hboth := h call
  rw [hcall] at hboth
  cases hother : other call with
  | error error =>
      rw [hother] at hboth
      cases hboth
  | ok found =>
      rw [hother] at hboth
      cases hboth
      rfl

/-- A call fails for both evaluators. -/
theorem exists_error (h : evaluator.Alike other) {error : EvaluationError}
    (hcall : evaluator call = .error error) : ∃ found, other call = .error found := by
  have hboth := h call
  rw [hcall] at hboth
  cases hother : other call with
  | error found => exact ⟨found, rfl⟩
  | ok value =>
      rw [hother] at hboth
      cases hboth

end Evaluator.Alike

/-- The failures of the calls, in order. -/
def failures (evaluator : Evaluator) (calls : List Call) : List EvaluationError :=
  calls.filterMap evaluator.failure?

/-- The characters of the tokens of failures. -/
def tokens (errors : List EvaluationError) : List (List Char) :=
  errors.map fun error ↦ error.token.toList

/-- The failures of two lists of calls follow each other. -/
theorem failures_append (evaluator : Evaluator) (first second : List Call) :
    failures evaluator (first ++ second) = failures evaluator first ++ failures evaluator second :=
  List.filterMap_append

/-- A call that fails comes first among the failures. -/
theorem failures_cons_error {evaluator : Evaluator} {call : Call} {error : EvaluationError}
    (h : evaluator call = .error error) (calls : List Call) :
    failures evaluator (call :: calls) = error :: failures evaluator calls :=
  List.filterMap_cons_some (by rw [Evaluator.failure?, h])

/-- A call that gives a value is no failure. -/
theorem failures_cons_ok {evaluator : Evaluator} {call : Call} {value : JobValue}
    (h : evaluator call = .ok value) (calls : List Call) :
    failures evaluator (call :: calls) = failures evaluator calls :=
  List.filterMap_cons_none (by rw [Evaluator.failure?, h])

/-- There are no failures exactly when every call gives a value. -/
theorem failures_eq_nil_iff {evaluator : Evaluator} {calls : List Call} :
    failures evaluator calls = [] ↔ ∀ call ∈ calls, ∃ value, evaluator call = .ok value := by
  unfold failures
  rw [List.filterMap_eq_nil_iff]
  refine forall₂_congr fun call _ ↦ ?_
  unfold Evaluator.failure?
  cases evaluator call with
  | error error => simp
  | ok value => simp

/-- The tokens of two lists of failures follow each other. -/
theorem tokens_append (first second : List EvaluationError) :
    tokens (first ++ second) = tokens first ++ tokens second :=
  List.map_append

/-- No token begins or ends with a blank. -/
theorem solid_tokens {errors : List EvaluationError} :
    ∀ token ∈ tokens errors, Stencil.Solid token := by
  intro token hmem
  obtain ⟨error, _, rfl⟩ := List.mem_map.1 hmem
  simp only [EvaluationError.token, Fragment.token, String.toList_append]
  exact ⟨⟨'<', _, rfl, by decide⟩, ⟨'>', _, by simp; rfl, by decide⟩⟩

/-- The text of a composite: the texts of its parts behind its flag, empty when there are none. -/
def Binding.around (binding : Binding) (separator : String) (texts : List String) : String :=
  if texts.isEmpty then "" else binding.attach binding.flagText (String.intercalate separator texts)

namespace Rendered

/-- The result is that of a failure: its token and one error that records it. -/
structure IsFailure (result : Rendered) (error : EvaluationError) : Prop where
  text : result.text? = some error.token
  errors : ∃ finding : Finding, result.findings.errors = [finding] ∧ finding.Reports error

/-- A failed evaluation gives the result of a failure. -/
theorem isFailure_failed (error : EvaluationError) (location : String) :
    (failed error location).IsFailure error :=
  ⟨rfl, _, rfl, rfl, rfl⟩

/-- A change that keeps the text and the errors of every result. -/
structure Keeps (f : Rendered → Rendered) : Prop where
  text (result : Rendered) : (f result).text? = result.text?
  errors (result : Rendered) : (f result).findings.errors = result.findings.errors

/-- Earlier warnings keep the text and the errors. -/
theorem keeps_after {earlier : Findings} (h : earlier.errors = []) : Keeps (after earlier) where
  text _ := rfl
  errors result := by
    show earlier.errors ++ result.findings.errors = result.findings.errors
    rw [h, List.nil_append]

/-- Another tag keeps the text and the errors. -/
theorem keeps_asArgument : Keeps asArgument where
  text result := by
    obtain ⟨fragment, findings⟩ := result
    cases fragment with
    | none => rfl
    | some fragment =>
        simp only [asArgument, text?, Option.map_some]
        split <;> rfl
  errors _ := rfl

end Rendered

namespace Rendering

/-- Every failed evaluation ends its branch with a token and one error, and joins lose neither texts nor
errors. -/
inductive Contained : Rendering → Prop where
  | done {result : Rendered} : result.findings.errors = [] → Contained (.done result)
  | wait {call : Call} {next : Outcome → Rendering} :
      (∀ error, ∃ result : Rendered, next (.error error) = .done result ∧ result.IsFailure error) →
      (∀ value, Contained (next (.ok value))) → Contained (.wait call next)
  | join {parts : List Rendering} {combine : List Rendered → Rendered} (binding : Binding)
      (separator : String) :
      (∀ results, (combine results).text? =
        some (binding.around separator (results.filterMap Rendered.text?))) →
      (∀ results, (combine results).findings.errors =
        results.flatMap fun result ↦ result.findings.errors) →
      (∀ part ∈ parts, Contained part) → Contained (.join parts combine)

/-- A change that keeps texts and errors keeps failures contained. -/
theorem Contained.map {f : Rendered → Rendered} (hf : Rendered.Keeps f) {rendering : Rendering}
    (h : Contained rendering) : Contained (rendering.map f) := by
  induction h with
  | done herrors => exact .done ((hf.errors _).trans herrors)
  | wait hfailed _ ih =>
      refine .wait (fun error ↦ ?_) ih
      obtain ⟨result, hresult, htext, finding, herrors, hreports⟩ := hfailed error
      refine ⟨f result, by rw [hresult]; rfl, (hf.text result).trans htext, finding, ?_, hreports⟩
      exact (hf.errors result).trans herrors
  | join binding separator htext herrors hparts _ =>
      refine .join binding separator (fun results ↦ ?_) (fun results ↦ ?_) hparts
      · exact (hf.text _).trans (htext results)
      · exact (hf.errors _).trans (herrors results)

/-- An evaluation whose value is rendered with contained failures. -/
theorem contained_evaluate {expression : Expression} {scope : Scope} {location : String}
    {use : JobValue → Rendering} (h : ∀ value, Contained (use value)) :
    Contained (evaluate expression scope location use) :=
  .wait (fun error ↦ ⟨_, rfl, Rendered.isFailure_failed error location⟩) h

/-- The only failure of a flag is that of its expression. -/
theorem contained_flag (itemsContext : Option Binding) (binding : Binding) (location : String)
    (value : JobValue) (scope : Scope) :
    Contained (flag itemsContext binding location value scope) := by
  unfold flag
  split
  · exact .done rfl
  · dsimp only
    split
    · exact .done rfl
    · exact contained_evaluate fun _ ↦ .done rfl

end Rendering

namespace Rendering

/-- The renderings of inputs contain failures. -/
theorem Shaped.contained {unknown : Prop} {rendering : Rendering} (h : Shaped unknown rendering) :
    Contained rendering := by
  induction h with
  | nothing => exact .done rfl
  | unresolved => exact .done rfl
  | leaf _ _ _ hearlier => exact .done ((Rendered.keeps_after hearlier.errors).errors _)
  | flag _ _ _ _ _ hearlier =>
      exact (contained_flag _ _ _ _ _).map (Rendered.keeps_after hearlier.errors)
  | @composite binding _ separator earlier _ hearlier _ ih =>
      refine .join binding separator (fun _ ↦ rfl) (fun results ↦ ?_) ih
      show earlier.errors ++ (results.map Rendered.findings).flatMap Findings.errors = _
      rw [hearlier.errors, List.nil_append, List.flatMap_map]

/-- Inputs of every type are rendered with contained failures. -/
theorem contained_input (type : InputType) (id : String) (binding : Binding) (location : String)
    (job : JobValue) (given : Option JobValue) (scope : Scope) :
    Contained (type.render id binding location job given scope) :=
  (shaped_true type id binding location job given scope).contained

/-- Every target is rendered with contained failures. -/
theorem contained_target (target : Target) (job : JobValue) (given : Option JobValue)
    (scope : Scope) : Contained (target.render job given scope) := by
  cases target with
  | input input => exact contained_input _ _ _ _ _ _ _
  | argument argument =>
      unfold Target.render Argument.render
      dsimp only
      split
      · exact .done rfl
      · split
        · exact .done rfl
        · exact contained_evaluate fun value ↦
            (contained_input _ _ _ _ _ _ _).map Rendered.keeps_asArgument
  | stream stream =>
      refine contained_evaluate fun value ↦ .done ?_
      unfold Stream.rendered
      split <;> rfl

/-! ## Errors and texts of a contained rendering -/

/-- The errors of parts follow each other like their failures. -/
theorem errors_runAll {evaluator : Evaluator} {parts : List Rendering}
    (h : ∀ part ∈ parts, List.Forall₂ Finding.Reports (run evaluator part).findings.errors
      (failures evaluator (trace evaluator part))) :
    List.Forall₂ Finding.Reports
      ((runAll evaluator parts).flatMap fun result ↦ result.findings.errors)
      (failures evaluator (traceAll evaluator parts)) := by
  induction parts with
  | nil => exact .nil
  | cons part rest ih =>
      obtain ⟨hpart, hrest⟩ := List.forall_mem_cons.1 h
      unfold runAll traceAll
      rw [List.flatMap_cons, failures_append]
      exact List.rel_append hpart (ih hrest)

/-- The errors are those of the failed evaluations, in their order. -/
theorem Contained.errors (evaluator : Evaluator) {rendering : Rendering} (h : Contained rendering) :
    List.Forall₂ Finding.Reports (run evaluator rendering).findings.errors
      (failures evaluator (trace evaluator rendering)) := by
  induction h with
  | done herrors =>
      unfold run
      rw [herrors]
      exact .nil
  | @wait call next hfailed _ ih =>
      unfold run trace
      cases hcall : evaluator call with
      | error error =>
          obtain ⟨result, hresult, _, finding, herrors, hreports⟩ := hfailed error
          rw [failures_cons_error hcall, hresult]
          unfold run
          rw [herrors]
          exact .cons hreports .nil
      | ok value =>
          rw [failures_cons_ok hcall]
          exact ih value
  | join binding separator _ herrors _ ih =>
      unfold run trace
      rw [herrors]
      exact errors_runAll ih

/-- A rendering asks evaluators that give the same values for the same evaluations. -/
theorem Contained.trace_eq {evaluator other : Evaluator} (halike : evaluator.Alike other)
    {rendering : Rendering} (h : Contained rendering) :
    trace other rendering = trace evaluator rendering := by
  induction h with
  | done _ => rfl
  | @wait call next hfailed _ ih =>
      unfold trace
      cases hcall : evaluator call with
      | error error =>
          obtain ⟨found, hfound⟩ := halike.exists_error hcall
          obtain ⟨_, hresult, _⟩ := hfailed error
          obtain ⟨_, hother, _⟩ := hfailed found
          rw [hfound, hresult, hother]
          rfl
      | ok value => rw [halike.eq_ok hcall, ih value]
  | join binding separator _ _ _ ih =>
      unfold trace
      rw [traceAll_eq_flatMap, traceAll_eq_flatMap]
      exact List.flatMap_congr ih

end Rendering

/-- The text of a result is a stencil with tokens in its places; no text shows no token. -/
inductive Rendered.Shows : Option Stencil → List (List Char) → Option String → Prop where
  | nothing : Shows none [] none
  | text {stencil : Stencil} {tokens : List (List Char)} {text : String} :
      stencil.Fills tokens text.toList → Shows (some stencil) tokens (some text)

/-- Parts that fill stencils are joined to a composite that fills one. -/
theorem Binding.exists_fills_around (binding : Binding) (separator : String)
    (stencils : List Stencil) : ∃ stencil : Stencil, ∀ {tokens : List (List Char)}
      {texts : List String}, Stencil.FillsAll stencils tokens (texts.map String.toList) →
      stencil.Fills tokens (binding.around separator texts).toList := by
  cases stencils with
  | nil =>
      refine ⟨[], fun {tokens texts} h ↦ ?_⟩
      generalize htexts : texts.map String.toList = charTexts at h
      cases h
      rw [List.map_eq_nil_iff.1 htexts]
      exact .nil
  | cons first rest =>
      let joined := (Stencil.ofChars separator.toList).intercalate (first :: rest)
      let front := (binding.flagText ++ binding.separator).toList
      refine ⟨if binding.flagText.isEmpty then joined else Stencil.ofChars front ++ joined,
        fun {tokens texts} h ↦ ?_⟩
      have hjoined := h.intercalate separator.toList
      rw [← String.toList_intercalate] at hjoined
      have htexts : texts.isEmpty = false := by
        generalize hchars : texts.map String.toList = charTexts at h
        cases h
        cases texts with
        | nil => cases hchars
        | cons _ _ => rfl
      unfold around attach
      rw [htexts]
      cases binding.flagText.isEmpty with
      | true => exact hjoined
      | false => simpa [front] using hjoined.prepend front

namespace Rendering

open Rendered

/-- Parts whose texts are stencils with the tokens of their failures have all those tokens in the list
of their texts. -/
theorem exists_stencils {evaluator : Evaluator} {parts : List Rendering}
    (h : ∀ part ∈ parts, ∃ shape : Option Stencil, ∀ other : Evaluator, evaluator.Alike other →
      Shows shape (tokens (failures other (trace evaluator part))) (run other part).text?) :
    ∃ stencils : List Stencil, ∀ other : Evaluator, evaluator.Alike other →
      Stencil.FillsAll stencils (tokens (failures other (traceAll evaluator parts)))
        (((runAll other parts).filterMap text?).map String.toList) := by
  induction parts with
  | nil => exact ⟨[], fun _ _ ↦ .nil⟩
  | cons part rest ih =>
      obtain ⟨⟨shape, hshape⟩, hrest⟩ := List.forall_mem_cons.1 h
      obtain ⟨stencils, hstencils⟩ := ih hrest
      -- a part without a text is left out, and has no failures either
      refine ⟨shape.toList ++ stencils, fun other halike ↦ ?_⟩
      unfold runAll traceAll
      rw [failures_append, tokens_append, List.filterMap_cons]
      have hpart := hshape other halike
      generalize tokens (failures other (trace evaluator part)) = shown,
        (run other part).text? = text at hpart ⊢
      cases hpart with
      | nothing => exact hstencils other halike
      | text hfills => exact .cons hfills (hstencils other halike)

/-- The text is a stencil that depends on the values of evaluations only, with the tokens of the failed
ones in its places. -/
theorem Contained.exists_stencil (evaluator : Evaluator) {rendering : Rendering}
    (h : Contained rendering) :
    ∃ shape : Option Stencil, ∀ other : Evaluator, evaluator.Alike other →
      Shows shape (tokens (failures other (trace evaluator rendering)))
        (run other rendering).text? := by
  induction h with
  | @done result _ =>
      cases htext : result.text? with
      | none =>
          refine ⟨none, fun other _ ↦ ?_⟩
          unfold run
          rw [htext]
          exact .nothing
      | some text =>
          refine ⟨some (Stencil.ofChars text.toList), fun other _ ↦ ?_⟩
          unfold run
          rw [htext]
          exact .text (Stencil.fills_ofChars _)
  | @wait call next hfailed _ ih =>
      cases hcall : evaluator call with
      | error error =>
          -- however the call fails, its token is the whole text of this branch
          refine ⟨some [none], fun other halike ↦ ?_⟩
          obtain ⟨found, hfound⟩ := halike.exists_error hcall
          obtain ⟨_, hended, _⟩ := hfailed error
          obtain ⟨_, hresult, htext, _⟩ := hfailed found
          unfold run trace
          rw [failures_cons_error hfound, hfound, hresult, hcall, hended]
          unfold run
          rw [htext]
          exact .text (Stencil.fills_token _)
      | ok value =>
          obtain ⟨shape, hshape⟩ := ih value
          refine ⟨shape, fun other halike ↦ ?_⟩
          unfold run trace
          rw [failures_cons_ok (halike.eq_ok hcall), halike.eq_ok hcall, hcall]
          exact hshape other halike
  | @join parts combine binding separator htext _ _ ih =>
      obtain ⟨stencils, hstencils⟩ := exists_stencils ih
      obtain ⟨stencil, hstencil⟩ := binding.exists_fills_around separator stencils
      refine ⟨some stencil, fun other halike ↦ ?_⟩
      unfold run trace
      rw [htext]
      exact .text (hstencil (hstencils other halike))

end Rendering

end Invocation
