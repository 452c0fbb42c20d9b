import Invocation.Proofs.Rendering.Findings
import Invocation.Rendering.Dispatch

/-!
# The shape of the rendering of an input

`Shaped` lists what the rendering of an input is made of: nothing, a text, a flag, or a composite of such
renderings, each with warnings about the value at hand only, and the empty text of a type without a meaning
where the declared type has one.  Properties of renderings follow from it without another walk through the
types.
-/

namespace Invocation

namespace Findings

/-- There is nothing but warnings about a value that does not fit its type. -/
structure Mild (findings : Findings) : Prop where
  errors : findings.errors = []
  warnings : ∀ warning ∈ findings.warnings,
    warning.issue = .typeMismatch ∨ warning.issue = .undeclaredField

/-- Two parts are mild when each is. -/
theorem Mild.append {first second : Findings} (hfirst : first.Mild) (hsecond : second.Mild) :
    (first ++ second).Mild where
  errors := List.append_eq_nil_iff.2 ⟨hfirst.errors, hsecond.errors⟩
  warnings warning hmem := by
    rcases List.mem_append.1 hmem with hmem | hmem
    · exact hfirst.warnings warning hmem
    · exact hsecond.warnings warning hmem

/-- Mild findings lack types without a meaning. -/
theorem Mild.lacks {findings : Findings} (h : findings.Mild) : findings.Lacks .unresolvedType := by
  intro finding hmem
  rw [h.errors, List.nil_append] at hmem
  rcases h.warnings finding hmem with hissue | hissue <;> rw [hissue] <;> decide

end Findings

/-- A mismatch is mild. -/
theorem InputType.mild_mismatch (type : InputType) (id location : String) (value : JobValue) :
    (type.mismatch id location value).Mild := by
  unfold mismatch
  split
  · exact ⟨rfl, nofun⟩
  · refine ⟨rfl, fun warning hmem ↦ .inl ?_⟩
    rw [List.mem_singleton.1 hmem]

/-- Entries that are no fields are mild findings. -/
theorem mild_undeclared (fields : List Input) (id location : String) (entries : Entries JobValue) :
    (undeclared fields id location entries).Mild := by
  refine ⟨rfl, fun warning hmem ↦ .inr ?_⟩
  obtain ⟨key, _, rfl⟩ := List.mem_map.1 hmem
  rfl

namespace Rendering

/-- An evaluation has what its failure has and what is made of its value. -/
theorem every_evaluate {P : Findings → Prop} {expression : Expression} {scope : Scope} {location : String}
    {use : JobValue → Rendering} (hfailed : ∀ error, P (Rendered.failed error location).findings)
    (h : ∀ value, Every P (use value)) : Every P (evaluate expression scope location use) := by
  refine .wait fun outcome ↦ ?_
  cases outcome with
  | error error => exact .done (hfailed error)
  | ok value => exact h value

/-- Nothing is found of a flag but a failure. -/
theorem every_flag {P : Findings → Prop} {location : String} (hnone : P .none)
    (hfailed : ∀ error, P (Rendered.failed error location).findings) (itemsContext : Option Binding)
    (binding : Binding) (value : JobValue) (scope : Scope) :
    Every P (flag itemsContext binding location value scope) := by
  unfold flag
  split
  · exact .done hnone
  · dsimp only
    split
    · exact .done hnone
    · exact every_evaluate hfailed fun _ ↦ .done hnone

/-- What the rendering of an input is made of.  Types without a meaning are met only if `unknown` holds. -/
inductive Shaped (unknown : Prop) : Rendering → Prop where
  | nothing : Shaped unknown (.done .nothing)
  | unresolved (id location tag : String) :
      unknown → Shaped unknown (.done (.unresolved id location tag))
  | leaf (binding : Binding) (location : String) (value : JobValue) {earlier : Findings} :
      earlier.Mild → Shaped unknown (.done ((Rendered.leaf binding location value).after earlier))
  | flag (itemsContext : Option Binding) (binding : Binding) (location : String) (value : JobValue)
      (scope : Scope) {earlier : Findings} :
      earlier.Mild →
      Shaped unknown ((Rendering.flag itemsContext binding location value scope).map (.after earlier))
  | composite (binding : Binding) (location separator : String) {earlier : Findings}
      {parts : List Rendering} :
      earlier.Mild → (∀ part ∈ parts, Shaped unknown part) →
      Shaped unknown (.join parts fun results ↦
        (Rendered.composite binding location separator results).after earlier)

variable {unknown : Prop}

mutual

/-- Inputs of every type are shaped; types without a meaning are met only if the type has a warning. -/
theorem shaped_input {name place : String} (type : InputType)
    (h : (type.unresolvedWithin name place).warnings ≠ [] → unknown) (id : String)
    (binding : Binding) (location : String) (job : JobValue) (given : Option JobValue)
    (scope : Scope) : Shaped unknown (type.render id binding location job given scope) := by
  match type with
  | .unresolved tag =>
    unfold InputType.render
    exact .unresolved id location tag (h (List.cons_ne_nil _ _))
  | .primitive _ | .enum _ =>
    unfold InputType.render
    split
    · exact .nothing
    · exact .leaf _ _ _ (InputType.mild_mismatch _ _ _ _)
  | .boolean itemsContext =>
    unfold InputType.render
    split
    · exact .nothing
    · exact .flag _ _ _ _ _ (InputType.mild_mismatch _ _ _ _)
  | .array items itemBinding =>
    unfold InputType.unresolvedWithin at h
    unfold InputType.render
    split
    · exact .nothing
    · refine .composite _ _ _ (InputType.mild_mismatch _ _ _ _) fun part hpart ↦ ?_
      obtain ⟨index, _, rfl⟩ := List.mem_mapIdx.1 hpart
      exact shaped_input items h _ _ _ _ _ _
  | .record fields =>
    unfold InputType.unresolvedWithin at h
    unfold InputType.render
    split
    · exact .nothing
    · exact .composite _ _ _ ((InputType.mild_mismatch _ _ _ _).append (mild_undeclared _ _ _ _))
        (shaped_fields fields h _ _)

/-- The fields of a record are shaped. -/
theorem shaped_fields (fields : List Input)
    (h : (InputType.unresolvedFields fields).warnings ≠ [] → unknown) (entries : Entries JobValue)
    (scope : Scope) :
    ∀ part ∈ InputType.renderFields fields entries scope, Shaped unknown part := by
  match fields with
  | [] => exact nofun
  | ⟨id, type, binding, location⟩ :: rest =>
    unfold InputType.unresolvedFields at h
    have hrest : ∀ part ∈ InputType.renderFields rest entries scope, Shaped unknown part :=
      shaped_fields rest (fun hne ↦ h (List.append_ne_nil_of_right_ne_nil _ hne)) entries scope
    unfold InputType.renderFields
    split
    · exact hrest
    · refine List.forall_mem_cons.2 ⟨?_, hrest⟩
      exact shaped_input type (fun hne ↦ h (List.append_ne_nil_of_left_ne_nil hne _)) _ _ _ _ _ _

end

/-- What mild findings and those of failures have, and what parts have together when each has it, the findings
of inputs have, if no type without a meaning is met. -/
theorem Shaped.every {P : Findings → Prop} (hmild : ∀ findings : Findings, findings.Mild → P findings)
    (hfailed : ∀ error location, P (Rendered.failed error location).findings)
    (happend : ∀ first second : Findings, P first → P second → P (first ++ second))
    (hconcat : ∀ parts : List Findings, (∀ part ∈ parts, P part) → P (.concat parts))
    {rendering : Rendering} (h : Shaped False rendering) : Every P rendering := by
  have hnone : P .none := hmild .none ⟨rfl, nofun⟩
  induction h with
  | nothing => exact .done hnone
  | unresolved _ _ _ hunknown => exact hunknown.elim
  | leaf _ _ _ hearlier => exact .done (happend _ _ (hmild _ hearlier) hnone)
  | flag _ _ location _ _ hearlier =>
      exact (every_flag hnone (hfailed · location) _ _ _ _).map fun result hresult ↦
        happend _ _ (hmild _ hearlier) hresult
  | composite _ _ _ hearlier _ ih =>
      refine .join ih fun results hresults ↦ happend _ _ (hmild _ hearlier) (hconcat _ ?_)
      exact List.forall_mem_map.2 hresults

/-- Inputs are shaped when types without a meaning may be met. -/
theorem shaped_true (type : InputType) (id : String) (binding : Binding) (location : String)
    (job : JobValue) (given : Option JobValue) (scope : Scope) :
    Shaped True (type.render id binding location job given scope) := by
  have hunknown : (type.unresolvedWithin id location).warnings ≠ [] → True := fun _ ↦ trivial
  exact shaped_input type hunknown id binding location job given scope

end Rendering

end Invocation
