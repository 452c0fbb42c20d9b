import Invocation.Rendering.Basic

/-!
# Findings of a rendering

`Findings.All` says that every finding has a property; `Lacks` and `Warns` say that a kind of findings is
absent or present.  `Rendering.Every` carries a property of findings through a rendering: when every result
has it and joins keep it, the findings of every run have it, however the evaluations come out
(`Rendering.Every.run`).
-/

namespace Invocation

namespace Findings

instance : Membership Finding Findings :=
  ⟨fun findings finding ↦ finding ∈ findings.errors ++ findings.warnings⟩

/-- No finding is of the given kind. -/
def Lacks (issue : Issue) (findings : Findings) : Prop :=
  ∀ finding ∈ findings.errors ++ findings.warnings, finding.issue ≠ issue

/-- Some warning is of the given kind. -/
def Warns (issue : Issue) (findings : Findings) : Prop :=
  ∃ warning ∈ findings.warnings, warning.issue = issue

variable {issue : Issue}

/-- Every finding has the property. -/
def All (P : Finding → Prop) (findings : Findings) : Prop :=
  ∀ finding ∈ findings.errors ++ findings.warnings, P finding

variable {P Q : Finding → Prop}

/-- No findings have every property. -/
theorem all_none : All P .none :=
  nofun

/-- One error has its properties. -/
theorem all_error {found : Issue} {location message : String} (h : P ⟨location, message, found⟩) :
    All P (.error found location message) :=
  List.forall_mem_singleton.2 h

/-- One warning has its properties. -/
theorem all_warning {found : Issue} {location message : String} (h : P ⟨location, message, found⟩) :
    All P (.warning found location message) :=
  List.forall_mem_singleton.2 h

/-- Properties can be weakened. -/
theorem All.mono {findings : Findings} (h : findings.All P) (hweaker : ∀ finding, P finding → Q finding) :
    findings.All Q :=
  fun finding hmem ↦ hweaker finding (h finding hmem)

/-- Two parts have what each of them has. -/
theorem All.append {first second : Findings} (hfirst : first.All P) (hsecond : second.All P) :
    (first ++ second).All P := by
  intro finding hmem
  have hparts : finding ∈ first.errors ∨ finding ∈ second.errors ∨
      finding ∈ first.warnings ∨ finding ∈ second.warnings := by
    simpa [errors_append, warnings_append] using hmem
  rcases hparts with h | h | h | h
  · exact hfirst finding (List.mem_append_left _ h)
  · exact hsecond finding (List.mem_append_left _ h)
  · exact hfirst finding (List.mem_append_right _ h)
  · exact hsecond finding (List.mem_append_right _ h)

/-- Several parts have what each of them has. -/
theorem all_concat {parts : List Findings} (h : ∀ part ∈ parts, part.All P) : (concat parts).All P := by
  intro finding hmem
  rcases List.mem_append.1 hmem with hmem | hmem
  · obtain ⟨part, hpart, hfinding⟩ := List.mem_flatMap.1 hmem
    exact h part hpart finding (List.mem_append_left _ hfinding)
  · obtain ⟨part, hpart, hfinding⟩ := List.mem_flatMap.1 hmem
    exact h part hpart finding (List.mem_append_right _ hfinding)

/-- There are no findings of a kind when there are none at all. -/
theorem lacks_none : Lacks issue .none :=
  all_none

/-- An error lacks every other kind. -/
theorem lacks_error {found : Issue} (h : found ≠ issue) (location message : String) :
    Lacks issue (.error found location message) :=
  all_error h

/-- Two parts lack what each of them lacks. -/
theorem Lacks.append {first second : Findings} (hfirst : first.Lacks issue)
    (hsecond : second.Lacks issue) : (first ++ second).Lacks issue :=
  All.append hfirst hsecond

/-- Several parts lack what each of them lacks. -/
theorem lacks_concat {parts : List Findings} (h : ∀ part ∈ parts, part.Lacks issue) :
    (concat parts).Lacks issue :=
  all_concat h

/-- Two parts warn of what one of them warns of. -/
theorem warns_append_iff {first second : Findings} :
    (first ++ second).Warns issue ↔ first.Warns issue ∨ second.Warns issue := by
  simp only [Warns, warnings_append, List.mem_append, or_and_right, exists_or]

/-- Several parts warn of what one of them warns of. -/
theorem warns_concat_iff {parts : List Findings} :
    (concat parts).Warns issue ↔ ∃ part ∈ parts, part.Warns issue := by
  constructor
  · rintro ⟨warning, hmem, hissue⟩
    obtain ⟨part, hpart, hwarning⟩ := List.mem_flatMap.1 hmem
    exact ⟨part, hpart, warning, hwarning, hissue⟩
  · rintro ⟨part, hpart, warning, hwarning, hissue⟩
    exact ⟨warning, List.mem_flatMap.2 ⟨part, hpart, hwarning⟩, hissue⟩

end Findings

namespace Rendering

/-- `Every P rendering` says that all findings of the rendering have the property `P`, however its
evaluations come out. -/
inductive Every (P : Findings → Prop) : Rendering → Prop where
  | done {result : Rendered} : P result.findings → Every P (.done result)
  | wait {call : Call} {next : Outcome → Rendering} :
      (∀ outcome, Every P (next outcome)) → Every P (.wait call next)
  | join {parts : List Rendering} {combine : List Rendered → Rendered} :
      (∀ part ∈ parts, Every P part) →
      (∀ results : List Rendered, (∀ result ∈ results, P result.findings) →
        P (combine results).findings) → Every P (.join parts combine)

/-- What all findings have, those of a run have. -/
theorem Every.run {P : Findings → Prop} (evaluator : Evaluator) {rendering : Rendering}
    (h : Every P rendering) : P (rendering.run evaluator).findings := by
  induction h with
  | done h => exact h
  | wait _ ih => exact ih _
  | join _ hcombine ih =>
      unfold Rendering.run
      rw [runAll_eq_map]
      refine hcombine _ fun result hmem ↦ ?_
      obtain ⟨part, hpart, rfl⟩ := List.mem_map.1 hmem
      exact ih part hpart

/-- A change of the result that keeps a property of the findings. -/
theorem Every.map {P : Findings → Prop} {f : Rendered → Rendered}
    (hf : ∀ result : Rendered, P result.findings → P (f result).findings) {rendering : Rendering}
    (h : Every P rendering) : Every P (rendering.map f) := by
  induction h with
  | done h => exact .done (hf _ h)
  | wait _ ih => exact .wait ih
  | join hparts hcombine _ => exact .join hparts fun results hall ↦ hf _ (hcombine results hall)

end Rendering

end Invocation
