import Invocation.Proofs.Assembly.Interleaving
import Invocation.Proofs.Document.Places

/-!
# Targets of a command line

A command line is put together from the results of its targets, in the order of their entries
(`results_eq_map_targets`).  The targets of a tool that was read stand at different places
(`nodup_location_targets`), and a fragment stands at the place of its target
(`location_of_mem_fragment`).
-/

namespace Invocation

/-! ## Order -/

namespace Entry

variable {α : Type}

/-- Entries are ordered by their positions, and by their ids where these are equal. -/
theorem precedes_iff {first second : Entry} :
    precedes first second = true ↔
      first.position < second.position ∨
        (first.position = second.position ∧
          ∀ a ∈ first.id, ∃ b ∈ second.id, a ≤ b) := by
  unfold precedes
  rw [Bool.or_eq_true, Bool.and_eq_true, decide_eq_true_eq, beq_iff_eq]
  cases first.id <;> cases second.id <;> simp

/-- Entries are ordered transitively. -/
theorem precedes_trans (first second third : Entry) (h : precedes first second = true)
    (hnext : precedes second third = true) : precedes first third = true := by
  rw [precedes_iff] at *
  rcases h with hlt | ⟨heq, hid⟩
  · exact .inl (by omega)
  · rcases hnext with hlt | ⟨heqnext, hidnext⟩
    · exact .inl (by omega)
    · refine .inr ⟨heq.trans heqnext, fun a ha ↦ ?_⟩
      obtain ⟨b, hb, hab⟩ := hid a ha
      obtain ⟨c, hc, hbc⟩ := hidnext b hb
      exact ⟨c, hc, String.le_trans hab hbc⟩

/-- Of two entries one may stand before the other one. -/
theorem precedes_total (first second : Entry) :
    (precedes first second || precedes second first) = true := by
  rw [Bool.or_eq_true, precedes_iff, precedes_iff]
  rcases Int.lt_trichotomy first.position second.position with hlt | heq | hlt
  · exact .inl (.inl hlt)
  · cases hfirst : first.id with
    | none => exact .inl (.inr ⟨heq, nofun⟩)
    | some a =>
        cases hsecond : second.id with
        | none => exact .inr (.inr ⟨heq.symm, nofun⟩)
        | some b =>
            rcases String.le_total a b with hab | hba
            · exact .inl (.inr ⟨heq, by simpa using hab⟩)
            · exact .inr (.inr ⟨heq.symm, by simpa using hba⟩)
  · exact .inr (.inl hlt)

/-- An entry stands before the entries of larger positions. -/
theorem not_precedes_of_lt {first second : Entry} (h : first.position < second.position) :
    precedes second first = false := by
  rw [Bool.eq_false_iff, Ne, precedes_iff]
  omega

/-- What a command line needs of an entry: its position, its id, and what becomes of its target. -/
def outcome (result : Target → α) (entry : Entry) : Int × Option String × α :=
  (entry.position, entry.id, result entry.target)

/-- The first outcome may stand before the second one. -/
def outcomePrecedes (first second : Int × Option String × α) : Bool :=
  precedes ⟨first.1, first.2.1, default⟩ ⟨second.1, second.2.1, default⟩

/-- The sort of entries does not look at their targets. -/
theorem map_outcome_mergeSort (result : Target → α) (entries : List Entry) :
    (entries.mergeSort precedes).map (outcome result) =
      (entries.map (outcome result)).mergeSort outcomePrecedes :=
  List.map_mergeSort fun _ _ _ _ ↦ rfl

end Entry

/-- What a function keeps of a list stands in the order of the list. -/
theorem filterMap_sublist_map {α β : Type} {keep : α → Option β} {value : α → β}
    (h : ∀ item, ∀ kept ∈ keep item, kept = value item) (items : List α) :
    (items.filterMap keep).Sublist (items.map value) := by
  induction items with
  | nil => exact .slnil
  | cons item rest ih =>
      cases hkeep : keep item with
      | none =>
          rw [List.filterMap_cons_none hkeep]
          exact ih.cons _
      | some kept =>
          rw [List.filterMap_cons_some hkeep, List.map_cons, h item kept hkeep]
          exact ih.cons_cons _

namespace Tool

/-- The entries of a tool, not yet in order. -/
def entries (tool : Tool) : List Entry :=
  tool.argumentEntries ++ tool.inputEntries

/-- The result of a target for a job. -/
def resultOf (evaluator : Evaluator) (tool : Tool) (job : JobValue) (runtime : Runtime) (target : Target) :
    Rendered :=
  (target.render (tool.withDefaults job) none (.top (tool.withDefaults job) runtime)).run evaluator

/-- Every target has its result. -/
theorem results_eq_map_targets (evaluator : Evaluator) (tool : Tool) (job : JobValue)
    (runtime : Runtime) :
    tool.results evaluator job runtime = tool.targets.map (tool.resultOf evaluator job runtime) := by
  unfold results renderings
  rw [List.map_map]
  rfl

/-- A command line is put together from the results. -/
theorem assemble_eq_gather (evaluator : Evaluator) (tool : Tool) (job : JobValue) (runtime : Runtime) :
    tool.assemble evaluator job runtime =
      gather tool.baseCommand ((tool.results evaluator job runtime).map some) := by
  unfold assemble results
  rw [List.map_map]
  rfl

/-- A command line is put together from the results of the targets. -/
theorem assemble_eq_gather_targets (evaluator : Evaluator) (tool : Tool) (job : JobValue)
    (runtime : Runtime) :
    tool.assemble evaluator job runtime =
      gather tool.baseCommand
        (tool.targets.map fun target ↦ some (tool.resultOf evaluator job runtime target)) := by
  rw [assemble_eq_gather, results_eq_map_targets, List.map_map]
  rfl

/-- The fragments of a command line are those of the results. -/
theorem fragments_assemble (evaluator : Evaluator) (tool : Tool) (job : JobValue) (runtime : Runtime) :
    (tool.assemble evaluator job runtime).fragments =
      (tool.results evaluator job runtime).filterMap Rendered.fragment := by
  rw [assemble_eq_gather]
  simp [gather, List.filterMap_map]

/-- The targets are those of the entries in order and the redirections. -/
theorem map_targets {α : Type} (result : Target → α) (tool : Tool) :
    tool.targets.map result =
      ((tool.entries.map (Entry.outcome result)).mergeSort Entry.outcomePrecedes).map (·.2.2) ++
        tool.redirections.map result := by
  rw [← Entry.map_outcome_mergeSort, List.map_map, targets, List.map_append, List.map_map]
  rfl

end Tool

/-! ## Places -/

namespace Rendered

/-- The fragment, if there is one, stands at a place. -/
def StandsAt (place : String) (result : Rendered) : Prop :=
  ∀ fragment ∈ result.fragment, fragment.location = place

variable {place : String}

@[simp]
theorem standsAt_nothing : nothing.StandsAt place := nofun

@[simp]
theorem standsAt_ofFragment (text tag location : String) :
    (ofFragment ⟨text, tag, location⟩).StandsAt place ↔ location = place := by
  simp [StandsAt, ofFragment]

@[simp]
theorem standsAt_ofText (text location : String) : (ofText text location).StandsAt place ↔ location = place :=
  standsAt_ofFragment ..

@[simp]
theorem standsAt_leaf (binding : Binding) (location : String) (value : JobValue) :
    (leaf binding location value).StandsAt place ↔ location = place :=
  standsAt_ofText ..

@[simp]
theorem standsAt_failed (error : EvaluationError) (location : String) :
    (failed error location).StandsAt place ↔ location = place := by
  simp [StandsAt, failed, Fragment.diagnostic]

@[simp]
theorem standsAt_unresolved (id location tag : String) :
    (unresolved id location tag).StandsAt place ↔ location = place := by
  simp [StandsAt, unresolved]

@[simp]
theorem standsAt_composite (binding : Binding) (location separator : String) (parts : List Rendered) :
    (composite binding location separator parts).StandsAt place ↔ location = place := by
  simp [StandsAt, composite]

@[simp]
theorem standsAt_after (earlier : Findings) (result : Rendered) :
    (result.after earlier).StandsAt place ↔ result.StandsAt place := Iff.rfl

/-- The tag of a fragment does not matter for its place. -/
theorem StandsAt.asArgument {result : Rendered} (h : result.StandsAt place) :
    result.asArgument.StandsAt place := by
  intro fragment hfragment
  obtain ⟨original, horiginal, rfl⟩ := Option.map_eq_some_iff.1 hfragment
  have hplace := h original horiginal
  split
  · exact hplace
  · exact hplace

end Rendered

namespace Rendering

variable {evaluator : Evaluator} {place : String}

/-- A failed evaluation stands at its place, like what becomes of a value. -/
theorem standsAt_evaluate {expression : Expression} {scope : Scope} {use : JobValue → Rendering}
    (h : ∀ value, ((use value).run evaluator).StandsAt place) :
    ((evaluate expression scope place use).run evaluator).StandsAt place := by
  unfold evaluate
  rw [run]
  cases evaluator ⟨expression, scope⟩ with
  | error error => exact (Rendered.standsAt_failed _ _).2 rfl
  | ok value => exact h value

/-- A flag stands at its place. -/
theorem standsAt_flag (itemsContext : Option Binding) (binding : Binding) (value : JobValue)
    (scope : Scope) :
    ((flag itemsContext binding place value scope).run evaluator).StandsAt place := by
  unfold flag
  split
  · simp [run]
  · dsimp only
    split
    · simp [run]
    · exact standsAt_evaluate fun result ↦ by simp [run]

/-- A value stands at the place of its declaration. -/
theorem standsAt_render (type : InputType) (id : String) (binding : Binding) (job : JobValue)
    (given : Option JobValue) (scope : Scope) :
    ((type.render id binding place job given scope).run evaluator).StandsAt place := by
  unfold InputType.render
  split
  · simp [run]
  all_goals split
  all_goals simp [run, run_map, standsAt_flag]

end Rendering

namespace Target

/-- The fragment of a target stands at the place of the target. -/
theorem standsAt_render (evaluator : Evaluator) (target : Target) (job : JobValue)
    (given : Option JobValue) (scope : Scope) :
    ((target.render job given scope).run evaluator).StandsAt target.location := by
  cases target with
  | input declared => exact Rendering.standsAt_render _ _ _ _ _ _
  | argument declared =>
      show (Rendering.run evaluator (declared.render job scope)).StandsAt declared.location
      unfold Argument.render
      split
      · simp [Rendering.run]
      · split
        · simp [Rendering.run]
        · refine Rendering.standsAt_evaluate fun value ↦ ?_
          rw [Argument.renderValue, Rendering.run_map]
          exact (Rendering.standsAt_render _ _ _ _ _ _).asArgument
  | stream declared =>
      refine Rendering.standsAt_evaluate fun value ↦ ?_
      rw [Rendering.run]
      unfold Stream.rendered
      split
      · exact (Rendered.standsAt_ofFragment _ _ _).2 rfl
      · exact Rendered.standsAt_nothing

end Target

namespace Tool

/-- The places of the fragments of a command line are places of targets, in their order. -/
theorem sublist_location_fragments (evaluator : Evaluator) (tool : Tool) (job : JobValue)
    (runtime : Runtime) :
    ((tool.assemble evaluator job runtime).fragments.map Fragment.location).Sublist
      (tool.targets.map Target.location) := by
  rw [fragments_assemble, results_eq_map_targets]
  induction tool.targets with
  | nil => exact .slnil
  | cons target rest ih =>
      rw [List.map_cons, List.map_cons]
      have hplace : (tool.resultOf evaluator job runtime target).StandsAt target.location :=
        target.standsAt_render evaluator _ _ _
      cases hfragment : (tool.resultOf evaluator job runtime target).fragment with
      | none =>
          rw [List.filterMap_cons_none hfragment]
          exact ih.cons _
      | some fragment =>
          rw [List.filterMap_cons_some hfragment, List.map_cons, hplace fragment hfragment]
          exact ih.cons_cons _

/-- The inputs with a position stand where they are declared. -/
theorem sublist_location_inputEntries (tool : Tool) :
    (tool.inputEntries.map (·.target.location)).Sublist (tool.inputs.map (·.input.location)) := by
  unfold inputEntries
  rw [List.map_filterMap]
  refine filterMap_sublist_map (fun input location hlocation ↦ ?_) tool.inputs
  obtain ⟨entry, hentry, rfl⟩ := Option.map_eq_some_iff.1 hlocation
  obtain ⟨position, -, rfl⟩ := Option.map_eq_some_iff.1 hentry
  rfl

/-- The redirections of a tool that was read stand at two different members. -/
theorem location_redirections {tool : Tool} {members : Entries Json}
    (h : Document.IsReadFrom tool members) :
    (tool.redirections.map Target.location).Sublist
      [Document.child Document.root "stdin", Document.child Document.root "stdout"] := by
  obtain ⟨hstdin, hstdout⟩ := h.location_redirections
  unfold redirections
  cases hin : tool.stdin <;> cases hout : tool.stdout <;> simp_all [Target.location]

/-- The redirections of a tool that was read lie in members with the same first letter. -/
theorem memberInitial_of_mem_redirections {tool : Tool} {members : Entries Json}
    (h : Document.IsReadFrom tool members) {place : String}
    (hplace : place ∈ tool.redirections.map Target.location) : Document.memberInitial place = some 's' := by
  rcases List.mem_pair.1 ((location_redirections h).subset hplace) with rfl | rfl
  · rfl
  · rfl

/-- The targets of a tool that was read stand at different places. -/
theorem nodup_location_targets {tool : Tool} {members : Entries Json}
    (h : Document.IsReadFrom tool members) : (tool.targets.map Target.location).Nodup := by
  have hperm : (tool.targets.map Target.location).Perm
      ((tool.arguments.map (·.argument.location) ++ tool.inputEntries.map (·.target.location)) ++
        tool.redirections.map Target.location) := by
    unfold targets
    rw [List.map_append, List.map_map]
    refine ((List.mergeSort_perm _ _).map _).append_right _ |>.trans ?_
    simp [argumentEntries, Function.comp_def, Target.location]
  refine hperm.nodup_iff.2 ?_
  rw [h.map_location_arguments]
  have hinputs : (tool.inputEntries.map (·.target.location)).Sublist
      (Document.itemPlaces (Document.child Document.root "inputs") tool.inputs.length) :=
    h.map_location_inputs ▸ tool.sublist_location_inputEntries
  have hargument : ∀ place ∈ Document.itemPlaces (Document.child Document.root "arguments") tool.arguments.length,
      Document.memberInitial place = some 'a' := fun place hplace ↦
    Document.memberInitial_of_mem_itemPlaces (by decide) hplace
  have hinput : ∀ place ∈ tool.inputEntries.map (·.target.location),
      Document.memberInitial place = some 'i' := fun place hplace ↦
    Document.memberInitial_of_mem_itemPlaces (by decide) (hinputs.subset hplace)
  refine Document.nodup_append_of_memberInitial (Document.nodup_append_of_memberInitial
    (Document.nodup_itemPlaces _ _) (hinputs.nodup (Document.nodup_itemPlaces _ _)) ?_)
    ((location_redirections h).nodup (by decide)) ?_
  · intro place hplace other hother
    rw [hargument place hplace, hinput other hother]
    decide
  · intro place hplace other hother
    rw [memberInitial_of_mem_redirections h hother]
    rcases List.mem_append.1 hplace with hplace | hplace
    · rw [hargument place hplace]
      decide
    · rw [hinput place hplace]
      decide

end Tool

end Invocation
