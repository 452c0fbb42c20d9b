import Invocation.Proofs.Assembly.Run

/-!
# Assembly in any order

However the evaluations of an assembly interleave, and whenever the cancellation fires, the command line
is what rendering the entries one after another gives, restricted to the entries that finished in time.
Only which entries are kept depends on the order of the steps.
-/

namespace Invocation

namespace Tool

/-- The state in which all entries of a tool are started for a job. -/
def started (tool : Tool) (job : JobValue) (runtime : Runtime) : Assembling :=
  .start (tool.renderings (tool.withDefaults job) runtime)

/-- The results of the entries of a tool, rendered one after another in the order of the command line. -/
def results (evaluator : Evaluator) (tool : Tool) (job : JobValue) (runtime : Runtime) :
    List Rendered :=
  (tool.renderings (tool.withDefaults job) runtime).map (Rendering.run evaluator)

/-- The command line is put together from the texts of the results. -/
theorem commandLine_assemble (evaluator : Evaluator) (tool : Tool) (job : JobValue)
    (runtime : Runtime) :
    (tool.assemble evaluator job runtime).commandLine =
      String.intercalate " " (commandWords tool.baseCommand
        ((tool.results evaluator job runtime).filterMap Rendered.fragment)) := by
  unfold assemble gather results
  simp [List.filterMap_map]

/-- The findings of a command line are those of the results. -/
theorem findings_assemble (evaluator : Evaluator) (tool : Tool) (job : JobValue) (runtime : Runtime) :
    (tool.assemble evaluator job runtime).findings =
      .concat ((tool.results evaluator job runtime).map Rendered.findings) := by
  unfold assemble gather results
  simp [List.filterMap_map]

/-- The command line of a tool for a job that is made of the entries with the given marks only. -/
def assembleKept (evaluator : Evaluator) (tool : Tool) (job : JobValue) (runtime : Runtime)
    (kept : List Bool) : Assembled :=
  let results := Assembling.keptResults (tool.results evaluator job runtime) kept
  let fragments := results.filterMap Rendered.fragment
  { commandLine := String.intercalate " " (tool.baseCommand ++
      (fragments.filter fun fragment ↦ !fragment.isBlank).map fun fragment ↦ Text.trim fragment.text)
    fragments
    findings :=
      { errors := results.flatMap fun result ↦ result.findings.errors
        warnings := results.flatMap fun result ↦ result.findings.warnings }
    cancelled := kept.any not }

end Tool

namespace Assembling

/-- Outcomes are put together like the kept results. -/
theorem gather_outcomesOf {evaluator : Evaluator} {tool : Tool} {job : JobValue} {runtime : Runtime}
    {kept : List Bool} (h : (tool.results evaluator job runtime).length = kept.length) :
    gather tool.baseCommand (outcomesOf (tool.results evaluator job runtime) kept) =
      tool.assembleKept evaluator job runtime kept := by
  unfold gather Tool.assembleKept
  simp only [any_isNone_outcomesOf h, filterMap_outcomesOf, Findings.concat, List.flatMap_map]
  rfl

/-- A settled run ends in the command line of the entries that had finished at its last moment before the
cancellation. -/
theorem exists_assembleKept {evaluator : Evaluator} {tool : Tool} {job : JobValue} {runtime : Runtime}
    {final : Assembling} (hrun : Steps evaluator (tool.started job runtime) final)
    (hsettled : final.Settled) :
    ∃ moment, Steps evaluator (tool.started job runtime) moment ∧ moment.cancelled = false ∧
      (final = moment ∨ Steps evaluator moment.cancel final) ∧
      final.assembled tool.baseCommand = tool.assembleKept evaluator job runtime moment.kept := by
  obtain ⟨moment, hmoment, hopen, hfollows, hrest⟩ := exists_moment hrun
  have houtcomes := outcomes_eq hfollows (spared_of_moment hrest) hsettled
  have hlength : (tool.results evaluator job runtime).length = moment.kept.length := by
    simpa [Tool.results, kept] using hfollows.length_eq
  refine ⟨moment, hmoment, hopen, hrest, ?_⟩
  exact (congrArg (gather tool.baseCommand) houtcomes).trans (gather_outcomesOf hlength)

/-- Which renderings are finished before a deadline depends on the delays, their results do not. -/
theorem beforeDeadline_eq (evaluator : Evaluator) (delay : Nat → Nat) (deadline : Option Nat)
    (number : Nat) (renderings : List Rendering) :
    ∃ kept : List Bool, renderings.length = kept.length ∧
      (deadline = none → ∀ finished ∈ kept, finished = true) ∧
      Tool.beforeDeadline ⟨fun _ ↦ evaluator, delay⟩ deadline number renderings =
        outcomesOf (renderings.map (Rendering.run evaluator)) kept := by
  induction renderings generalizing number with
  | nil => exact ⟨[], rfl, by simp, rfl⟩
  | cons rendering rest ih =>
      let timed := rendering.timed ⟨fun _ ↦ evaluator, delay⟩ number
      obtain ⟨kept, hlength, hnone, hrest⟩ := ih timed.next
      have hresult : timed.result = rendering.run evaluator :=
        Rendering.result_timed evaluator delay number rendering
      have hfirst : Tool.inTime deadline timed =
          if (deadline.all fun deadline ↦ timed.finished < deadline) = true
          then some (rendering.run evaluator) else none := by
        unfold Tool.inTime
        cases deadline <;> simp [hresult]
      refine ⟨(deadline.all fun deadline ↦ timed.finished < deadline) :: kept, by simp [hlength],
        ?_, ?_⟩
      · rintro rfl finished hmem
        rcases List.mem_cons.1 hmem with rfl | hmem
        · rfl
        · exact hnone rfl finished hmem
      · show Tool.inTime deadline timed :: Tool.beforeDeadline _ deadline timed.next rest = _
        rw [hfirst, hrest]
        rfl

/-- A run on a clock is one of the runs, and without a deadline one without cancellation. -/
theorem exists_run_timed (evaluator : Evaluator) (tool : Tool) (job : JobValue) (runtime : Runtime)
    (delay : Nat → Nat) (deadline : Option Nat) :
    ∃ final, Steps evaluator (tool.started job runtime) final ∧ final.Settled ∧
      (deadline = none → final.cancelled = false) ∧
      final.assembled tool.baseCommand =
        tool.assembleTimed ⟨fun _ ↦ evaluator, delay⟩ deadline job runtime := by
  obtain ⟨kept, hlength, hnone, htimed⟩ := beforeDeadline_eq evaluator delay deadline 0
    (tool.renderings (tool.withDefaults job) runtime)
  have hchoice : Steps evaluator (tool.started job runtime) _ := steps_choice [] hlength
  rw [← outcome_choice] at htimed
  cases deadline with
  | none =>
      refine ⟨_, hchoice, settled_choice (hnone rfl), fun _ ↦ rfl, ?_⟩
      exact congrArg (gather tool.baseCommand) htimed.symm
  | some deadline =>
      refine ⟨_, (hchoice.tail (.cancel _)).trans (steps_drop [] _), settled_dropPending _ _,
        nofun, ?_⟩
      show gather _ ((dropPending _).map Stage.outcome) = gather _ (Tool.beforeDeadline _ _ _ _)
      rw [outcome_dropPending, htimed]

/-- However the evaluations interleave and whenever the cancellation fires, a run ends in the command
line that is made of the entries finished before the cancellation, each with the result of its own
rendering and in the order of the command line.  Without a cancellation nothing is missing, and the
delays of a clock lead to no other command lines. -/
theorem assembled_of_interleaving (evaluator : Evaluator) (tool : Tool) (job : JobValue)
    (runtime : Runtime) :
    (∀ final, Steps evaluator (tool.started job runtime) final → final.Settled →
      ∃ moment, Steps evaluator (tool.started job runtime) moment ∧ moment.cancelled = false ∧
        (final = moment ∨ Steps evaluator moment.cancel final) ∧
        final.assembled tool.baseCommand =
          tool.assembleKept evaluator job runtime moment.kept ∧
        ((final.assembled tool.baseCommand).cancelled = true ↔ Stage.dropped ∈ final.entries)) ∧
    (∀ final, Steps evaluator (tool.started job runtime) final → final.Settled →
      final.cancelled = false →
      final.assembled tool.baseCommand = tool.assemble evaluator job runtime) ∧
    (∀ delay deadline, ∃ final, Steps evaluator (tool.started job runtime) final ∧ final.Settled ∧
      (deadline = none → final.cancelled = false) ∧
      final.assembled tool.baseCommand =
        tool.assembleTimed ⟨fun _ ↦ evaluator, delay⟩ deadline job runtime) ∧
    (∀ first second : Nat → Nat,
      tool.assembleTimed ⟨fun _ ↦ evaluator, first⟩ none job runtime =
        tool.assembleTimed ⟨fun _ ↦ evaluator, second⟩ none job runtime) := by
  have hall (final : Assembling) (hrun : Steps evaluator (tool.started job runtime) final)
      (hsettled : final.Settled) (hopen : final.cancelled = false) :
      final.assembled tool.baseCommand = tool.assemble evaluator job runtime := by
    obtain ⟨moment, _, _, hfollows, hrest⟩ := exists_moment hrun
    rcases hrest with rfl | hrest
    · exact congrArg (gather tool.baseCommand) (hfollows.outcomes hsettled)
    · have := (spared_of_steps hrest).1
      rw [hopen] at this
      cases this
  refine ⟨?_, hall, exists_run_timed evaluator tool job runtime, ?_⟩
  · intro final hrun hsettled
    obtain ⟨moment, hmoment, hopen, hrest, hkept⟩ := exists_assembleKept hrun hsettled
    exact ⟨moment, hmoment, hopen, hrest, hkept, (dropped_mem_iff hsettled).symm⟩
  · intro first second
    have huniform (delay : Nat → Nat) :
        tool.assembleTimed ⟨fun _ ↦ evaluator, delay⟩ none job runtime =
          tool.assemble evaluator job runtime := by
      obtain ⟨final, hrun, hsettled, hopen, hfinal⟩ :=
        exists_run_timed evaluator tool job runtime delay none
      exact hfinal.symm.trans (hall final hrun hsettled (hopen rfl))
    exact (huniform first).trans (huniform second).symm

/-- A tool with a literal argument, an argument that is evaluated, and flags that are evaluated one by
one. -/
def slowEcho : Tool where
  id := none
  version := .v1
  baseCommand := ["echo"]
  arguments :=
    [⟨⟨some "first", .plain, "document.arguments[0]"⟩, 0⟩,
     ⟨⟨none, { valueFrom := some ⟨"slow", "document.arguments[1]"⟩ }, "document.arguments[1]"⟩, 1⟩]
  inputs :=
    [⟨⟨"flags", .array (.boolean none) (some { valueFrom := some ⟨"self", "document.inputs[0]"⟩ }),
        .plain, "document.inputs[0]"⟩, none, some 2, false⟩]
  stdin := none
  stdout := none

/-- The arguments of the tool come before its input. -/
theorem targets_slowEcho : slowEcho.targets =
    (slowEcho.arguments.map fun argument ↦ Target.argument argument.argument) ++
      slowEcho.inputs.map fun input ↦ Target.input input.input := by
  unfold Tool.targets
  rw [List.mergeSort_of_pairwise (by decide)]
  rfl

/-- A job with two flags. -/
def twoFlags : JobValue :=
  .mapping [("flags", .list [.bool true, .bool true])]

/-- Every evaluation gives the value at hand, if there is one. -/
def selfOrLate : Evaluator := fun call ↦
  .ok (call.scope.self.getD (.string "late"))

/-- The second flag is evaluated before the first one, the flags finish before the literal argument does,
and the cancellation drops the other argument. -/
theorem assembled_of_interleaving_slowEcho :
    ∃ final, Steps selfOrLate (slowEcho.started twoFlags {}) final ∧ final.Settled ∧
      (final.assembled ["echo"]).commandLine = "echo first true true" ∧
      ∃ moment, Steps selfOrLate (slowEcho.started twoFlags {}) moment ∧ moment.cancelled = false ∧
        (final = moment ∨ Steps selfOrLate moment.cancel final) ∧
        final.assembled ["echo"] = slowEcho.assembleKept selfOrLate twoFlags {} moment.kept ∧
        ((final.assembled ["echo"]).cancelled = true ↔ Stage.dropped ∈ final.entries) := by
  obtain ⟨final, hrun, hsettled, hline⟩ : ∃ final,
      Steps selfOrLate (slowEcho.started twoFlags {}) final ∧ final.Settled ∧
        (final.assembled ["echo"]).commandLine = "echo first true true" := by
    unfold Tool.started Tool.renderings
    rw [targets_slowEcho]
    refine ⟨_, .head (.advance [_, _] [] _ _ (.step _ _ (.parts _ _ _
        (.tail _ _ _ (.head _ _ _ (.answer _ _))))))
      (.head (.advance [_, _] [] _ _ (.step _ _ (.parts _ _ _ (.head _ _ _ (.answer _ _)))))
      (.head (.advance [_, _] [] _ _ (.step _ _ (.combine [_, _] _)))
      (.head (.advance [_, _] [] _ _ (.finish _))
      (.head (.advance [] [_, _] _ _ (.finish _))
      (.head (.cancel _)
      (.head (.drop [_] [_] _) .refl)))))), ?_, ?_⟩
    · intro rendering hmem
      simp at hmem
    · decide
  exact ⟨final, hrun, hsettled, hline,
    (assembled_of_interleaving selfOrLate slowEcho twoFlags {}).1 final hrun hsettled⟩

end Assembling

end Invocation
