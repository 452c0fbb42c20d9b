import Invocation.Proofs.Rendering.Shape

/-!
# Types without a meaning in a rendering

A rendering meets a type without a meaning only where the declared type of a parameter has one
(`resolved_input`); the types that are inferred for values of expressions have none.  Conversely every type
without a meaning inside a declared type is met by a rendering of some value (`exists_probe`).
-/

namespace Invocation

namespace Rendering

/-- No type without a meaning is met. -/
abbrev Resolved : Rendering → Prop :=
  Every (Findings.Lacks .unresolvedType)

/-- An evaluation whose value is rendered without meeting a type without a meaning. -/
theorem resolved_evaluate {expression : Expression} {scope : Scope} {location : String}
    {use : JobValue → Rendering} (h : ∀ value, Resolved (use value)) :
    Resolved (evaluate expression scope location use) :=
  every_evaluate (fun _ ↦ Findings.lacks_error (by decide) _ _) h

/-- The renderings of inputs meet no type without a meaning when the declared types have none. -/
theorem Shaped.resolved {rendering : Rendering} (h : Shaped False rendering) : Resolved rendering :=
  h.every (fun _ ↦ Findings.Mild.lacks) (fun _ _ ↦ Findings.lacks_error (by decide) _ _)
    (fun _ _ ↦ Findings.Lacks.append) (fun _ ↦ Findings.lacks_concat)

/-- A declared type without warnings is rendered without meeting a type without a meaning. -/
theorem resolved_input {name place : String} (type : InputType)
    (h : (type.unresolvedWithin name place).warnings = []) (id : String) (binding : Binding)
    (location : String) (job : JobValue) (given : Option JobValue) (scope : Scope) :
    Resolved (type.render id binding location job given scope) :=
  (shaped_input type (fun hne ↦ hne h) id binding location job given scope).resolved

end Rendering

namespace InputType

mutual

/-- Inferred types have a meaning. -/
theorem unresolvedWithin_infer (value : JobValue) (id location : String) :
    (infer value).unresolvedWithin id location = .none := by
  match value with
  | .null | .bool _ | .string _ | .number (.int _) | .number (.double _) | .file .file _ _ _
  | .file .directory _ _ _ =>
    unfold infer
    rfl
  | .list [] =>
    unfold infer
    rfl
  | .list (item :: rest) =>
    unfold infer inferItems
    exact unresolvedWithin_infer item id location
  | .mapping entries =>
    unfold infer
    exact unresolvedFields_inferFields entries

/-- The types of inferred fields have a meaning. -/
theorem unresolvedFields_inferFields (entries : List (String × JobValue)) :
    unresolvedFields (inferFields entries) = .none := by
  match entries with
  | [] => rfl
  | entry :: rest =>
    unfold inferFields unresolvedFields
    rw [unresolvedFields_inferFields rest]
    exact congrArg (· ++ .none) (unresolvedWithin_infer entry.2 _ _)

end

end InputType

namespace Rendering

/-- A target is rendered without meeting a type without a meaning, unless an input declares one. -/
theorem resolved_target (target : Target) (job : JobValue) (given : Option JobValue) (scope : Scope)
    (h : ∀ input : Input, target = .input input →
      (input.type.unresolvedWithin input.id input.location).warnings = []) :
    Resolved (target.render job given scope) := by
  cases target with
  | input input => exact resolved_input input.type (h input rfl) _ _ _ _ _ _
  | argument argument =>
      unfold Target.render Argument.render
      dsimp only
      split
      · exact .done Findings.lacks_none
      · split
        · exact .done Findings.lacks_none
        · refine resolved_evaluate fun value ↦ ?_
          have hinferred : ((InputType.infer value).unresolvedWithin "" "").warnings = [] :=
            congrArg Findings.warnings (InputType.unresolvedWithin_infer value "" "")
          refine Every.map ?_ (resolved_input _ hinferred _ _ _ _ _ _)
          exact fun _ hresult ↦ hresult
  | stream stream =>
      refine resolved_evaluate fun value ↦ .done ?_
      unfold Stream.rendered
      split
      · exact Findings.lacks_none
      · exact Findings.lacks_none

end Rendering

/-! ## Values that reach a type without a meaning -/

namespace JobValue

/-- The value is there, and stands for itself where a list is expected. -/
structure IsSingle (value : JobValue) : Prop where
  present : value.isNull = false
  elements : value.elements = [value]

/-- An object with one member is no file reference, which has a class and a path or a location. -/
theorem fileClassOf?_singleton (key : String) (value : Json) :
    fileClassOf? [(key, value)] = none := by
  unfold fileClassOf? Entries.string?
  by_cases hkey : key = "class"
  · subst hkey
    split
    · simp [List.lookup_cons]
    · rfl
  · have : ("class" == key) = false := by simpa using Ne.symm hkey
    simp [List.lookup_cons, this]

/-- The value of an object with one member is a mapping. -/
theorem ofJson_singleton (key : String) (value : Json) :
    ofJson (.object [(key, value)]) = .mapping [(key, ofJson value)] := by
  rw [ofJson, ofMembers, fileClassOf?_singleton]
  rfl

end JobValue

namespace Rendering

variable {evaluator : Evaluator} {issue : Issue}

/-- A composite warns of what one of its parts warns of. -/
theorem warns_composite {parts : List Rendering} {part : Rendering} (hmem : part ∈ parts)
    (h : (part.run evaluator).findings.Warns issue) (binding : Binding)
    (location separator : String) (earlier : Findings) :
    ((Rendering.join parts fun results ↦
      (Rendered.composite binding location separator results).after earlier).run
        evaluator).findings.Warns issue := by
  unfold run
  rw [runAll_eq_map]
  have hparts : part.run evaluator ∈ parts.map (run evaluator) := List.mem_map_of_mem hmem
  exact Findings.warns_append_iff.2
    (.inr (Findings.warns_concat_iff.2 ⟨_, List.mem_map_of_mem hparts, h⟩))

mutual

/-- Some value of a declared type with a warning meets a type without a meaning when it is rendered. -/
theorem exists_probe {name place : String} (type : InputType)
    (h : (type.unresolvedWithin name place).warnings ≠ []) :
    ∃ probe : Json, (JobValue.ofJson probe).IsSingle ∧
      ∀ (evaluator : Evaluator) (id : String) (binding : Binding) (location : String)
        (job : JobValue) (given : Option JobValue) (scope : Scope),
        resolveValue id job given = some (.ofJson probe) →
        ((type.render id binding location job given scope).run evaluator).findings.Warns
          .unresolvedType := by
  match type with
  | .unresolved tag =>
    refine ⟨.bool true, ⟨rfl, rfl⟩, fun evaluator id binding location job given scope _ ↦ ?_⟩
    unfold InputType.render
    exact ⟨_, List.mem_singleton_self _, rfl⟩
  | .primitive _ | .enum _ | .boolean _ => exact absurd rfl h
  | .array items itemBinding =>
    unfold InputType.unresolvedWithin at h
    obtain ⟨probe, hsingle, hprobe⟩ := exists_probe items h
    -- the probe of the items stands for a list with itself as the only item
    refine ⟨probe, hsingle, fun evaluator id binding location job given scope hvalue ↦ ?_⟩
    unfold InputType.render
    rw [hvalue]
    dsimp only
    rw [hsingle.elements]
    refine warns_composite (List.mem_mapIdx.2 ⟨0, by simp, rfl⟩) (hprobe _ _ _ _ _ _ _ ?_) _ _ _ _
    simp [resolveValue, hsingle.present]
  | .record fields =>
    unfold InputType.unresolvedWithin at h
    obtain ⟨key, probe, hprobe⟩ := exists_probe_fields fields h
    refine ⟨.object [(key, probe)], ?_,
      fun evaluator id binding location job given scope hvalue ↦ ?_⟩
    · rw [JobValue.ofJson_singleton]
      exact ⟨rfl, rfl⟩
    · rw [JobValue.ofJson_singleton] at hvalue
      unfold InputType.render
      rw [hvalue]
      obtain ⟨part, hpart, hwarns⟩ := hprobe evaluator scope
      exact warns_composite hpart hwarns _ _ _ _

/-- Some value of one of the fields meets a type without a meaning, when the fields have a warning. -/
theorem exists_probe_fields (fields : List Input)
    (h : (InputType.unresolvedFields fields).warnings ≠ []) :
    ∃ (key : String) (probe : Json), ∀ (evaluator : Evaluator) (scope : Scope),
      ∃ part ∈ InputType.renderFields fields [(key, .ofJson probe)] scope,
        (part.run evaluator).findings.Warns .unresolvedType := by
  match fields with
  | [] => exact absurd rfl h
  | ⟨id, type, binding, location⟩ :: rest =>
    unfold InputType.unresolvedFields at h
    by_cases htype : (type.unresolvedWithin id location).warnings = []
    · have hrest : (InputType.unresolvedFields rest).warnings ≠ [] := fun hrest ↦
        h (List.append_eq_nil_iff.2 ⟨htype, hrest⟩)
      obtain ⟨key, probe, hprobe⟩ := exists_probe_fields rest hrest
      refine ⟨key, probe, fun evaluator scope ↦ ?_⟩
      obtain ⟨part, hpart, hwarns⟩ := hprobe evaluator scope
      refine ⟨part, ?_, hwarns⟩
      unfold InputType.renderFields
      split
      · exact hpart
      · exact List.mem_cons_of_mem _ hpart
    · obtain ⟨probe, hsingle, hprobe⟩ := exists_probe type htype
      refine ⟨id, probe, fun evaluator scope ↦ ?_⟩
      unfold InputType.renderFields
      rw [List.lookup_cons_self]
      refine ⟨_, List.mem_cons_self, hprobe _ _ _ _ _ _ _ ?_⟩
      simp [resolveValue, hsingle.present]

end

end Rendering

end Invocation
