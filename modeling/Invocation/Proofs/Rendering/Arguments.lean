import Invocation.Proofs.Rendering.Lookup

/-!
# The value of an argument

An argument is rendered from the value of its expression.  The value is rendered like that of an input
whose id is the place of the argument, so the job is looked at after all when the value is null: an argument
without a value contributes nothing exactly when the job has no value at that place
(`Argument.run_render_eq`).
-/

namespace Invocation

/-- The job has a value other than null at a key. -/
def JobValue.HasValueAt (job : JobValue) (key : String) : Prop :=
  ∃ value, job.get? key = some value ∧ value.isNull = false

/-- Null is looked up in the job, where something is found exactly when the job has a value there. -/
theorem resolveValue_null_eq_none_iff {id : String} {job : JobValue} :
    resolveValue id job (some .null) = none ↔ ¬ job.HasValueAt id := by
  show (job.get? id).filter (fun value ↦ !value.isNull) = none ↔ _
  unfold JobValue.HasValueAt
  cases job.get? id with
  | none => simp
  | some value => simp

namespace Argument

variable {argument : Argument} {evaluator : Evaluator} {scope : Scope} {job : JobValue}

/-- The expression of the argument has the value null. -/
def HasNullValue (argument : Argument) (evaluator : Evaluator) (scope : Scope) : Prop :=
  ∃ expression, argument.binding.valueFrom = some expression ∧
    evaluator ⟨expression, scope⟩ = .ok .null

/-- An argument without a literal text waits for the outcome of its expression. -/
theorem run_render_of_expression {expression : Expression} (hliteral : argument.literal = none)
    (hexpression : argument.binding.valueFrom = some expression) (job : JobValue) :
    (argument.render job scope).run evaluator =
      match evaluator ⟨expression, scope⟩ with
      | .error error => .failed error argument.location
      | .ok value => (argument.renderValue job scope value).run evaluator := by
  unfold render
  rw [hliteral, hexpression]
  show Rendering.run evaluator (.evaluate expression scope argument.location _) = _
  rw [Rendering.evaluate, Rendering.run]
  cases evaluator ⟨expression, scope⟩ with
  | error error => rfl
  | ok value => rfl

/-- A value other than null is rendered without the job. -/
theorem renderValue_congr {value : JobValue} (h : value.isNull = false) (job other : JobValue) :
    argument.renderValue job scope value = argument.renderValue other scope value := by
  have hresolved : resolveValue argument.location job (some value) =
      resolveValue argument.location other (some value) := by
    rw [resolveValue_given h, resolveValue_given h]
  unfold renderValue
  rw [InputType.render_congr hresolved]

/-- Null contributes nothing exactly when the job has no value at the place of the argument: otherwise that
value stands in its place. -/
theorem run_renderValue_null_iff :
    (argument.renderValue job scope .null).run evaluator = .nothing ↔
      ¬ job.HasValueAt argument.location := by
  rw [← resolveValue_null_eq_none_iff]
  unfold renderValue InputType.infer InputType.render
  rw [Rendering.run_map]
  cases resolveValue argument.location job (some .null) with
  | none => exact iff_of_true rfl rfl
  | some value =>
      refine iff_of_false (fun h ↦ ?_) nofun
      cases congrArg Rendered.fragment h

/-- An argument without a literal text has the same result for every two jobs, as long as neither has a value
at the place of the argument while the expression of the argument has none.  Without a value of its own
the argument contributes nothing exactly when the job has none at that place either. -/
theorem run_render_eq (hliteral : argument.literal = none) (evaluator : Evaluator) (scope : Scope) :
    (∀ job other : JobValue,
      (argument.HasNullValue evaluator scope →
        ¬ job.HasValueAt argument.location ∧ ¬ other.HasValueAt argument.location) →
      (argument.render job scope).run evaluator = (argument.render other scope).run evaluator) ∧
    (argument.HasNullValue evaluator scope → ∀ job : JobValue,
      ((argument.render job scope).run evaluator = .nothing ↔
        ¬ job.HasValueAt argument.location)) := by
  have hnull (hvoid : argument.HasNullValue evaluator scope) (job : JobValue) :
      (argument.render job scope).run evaluator = .nothing ↔ ¬ job.HasValueAt argument.location := by
    obtain ⟨expression, hexpression, hvalue⟩ := hvoid
    rw [run_render_of_expression hliteral hexpression, hvalue]
    exact run_renderValue_null_iff
  refine ⟨fun job other hplaces ↦ ?_, hnull⟩
  by_cases hvoid : argument.HasNullValue evaluator scope
  · obtain ⟨hjob, hother⟩ := hplaces hvoid
    rw [(hnull hvoid job).2 hjob, (hnull hvoid other).2 hother]
  · cases hexpression : argument.binding.valueFrom with
    | none =>
        -- the flag alone is placed
        unfold render
        rw [hliteral, hexpression]
    | some expression =>
        rw [run_render_of_expression hliteral hexpression, run_render_of_expression hliteral hexpression]
        cases hvalue : evaluator ⟨expression, scope⟩ with
        | error error => rfl
        | ok value =>
            have hpresent : value.isNull = false := by
              cases value with
              | null => exact absurd ⟨expression, hexpression, hvalue⟩ hvoid
              | bool | number | string | file | list | mapping => rfl
            exact congrArg (Rendering.run evaluator) (renderValue_congr hpresent job other)

/-- An argument whose expression names a value of the job. -/
def counted : Argument :=
  ⟨none, { Binding.plain with
    flag := some "-n", valueFrom := some ⟨"$(inputs.n)", "document.arguments[0].valueFrom"⟩ },
    "document.arguments[0]"⟩

/-- A job with nothing but a value at the place of that argument. -/
def shadowing : JobValue :=
  .mapping [("document.arguments[0]", .string "boo")]

/-- Every evaluation gives the value that the inputs have for `n`, or null. -/
def answerN : Evaluator := fun call ↦ .ok ((call.scope.inputs.get? "n").getD .null)

/-- A value with a null in it is rendered alike for a job with a value at the place of the argument and for
one without, and an argument without a value contributes nothing when the job has none at that place. -/
theorem run_render_eq_counted :
    counted.literal = none ∧
    (counted.render shadowing (.top (.mapping [("n", .list [.number (.int 1), .null])]) {})).run
        answerN =
      (counted.render .null (.top (.mapping [("n", .list [.number (.int 1), .null])]) {})).run
        answerN ∧
    (counted.render (.mapping [("n", .null)]) (.top (.mapping [("n", .null)]) {})).run answerN =
      .nothing := by
  refine ⟨rfl, (run_render_eq rfl answerN _).1 _ _ ?_, ((run_render_eq rfl answerN _).2 ?_ _).2 ?_⟩
  · rintro ⟨expression, -, hvalue⟩
    cases hvalue
  · exact ⟨_, rfl, rfl⟩
  · rintro ⟨value, hvalue, -⟩
    cases hvalue

/-- The value of this argument is null, but the value that the job has at the place of the argument is
placed behind the flag. -/
theorem run_render_shadowed :
    counted.HasNullValue answerN (.top shadowing {}) ∧
    (counted.render .null (.top shadowing {})).run answerN = .nothing ∧
    (counted.render shadowing (.top shadowing {})).run answerN =
      ⟨some ⟨"-n boo", Fragment.argumentTag, "document.arguments[0]"⟩,
        .warning .typeMismatch "document.arguments[0]"
          "mismatched value and type definition for document.arguments[0]: expected null, got string"⟩ :=
  ⟨⟨_, rfl, rfl⟩, by decide, by decide⟩

end Argument

end Invocation
