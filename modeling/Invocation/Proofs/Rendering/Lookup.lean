import Invocation.Proofs.Json.Members
import Invocation.Rendering.Dispatch
import Mathlib.Data.List.Perm.Basic

/-!
# What a rendering looks up

A rendering sees a job through look-ups only: the job that a value is taken from does not matter beside the
value (`InputType.render_congr`), and for an evaluator that ignores the order of keys neither does the order
of the entries of the job (`Target.run_render_reordered`).
-/

namespace Invocation

/-! ## Values -/

/-- A value that is given and not null is the one that is rendered. -/
theorem resolveValue_given {value : JobValue} (h : value.isNull = false) (id : String) (job : JobValue) :
    resolveValue id job (some value) = some value := by
  simp [resolveValue, h]

/-- A value of the job that is not null is rendered when none is given. -/
theorem resolveValue_found {id : String} {job value : JobValue} (hfound : job.get? id = some value)
    (h : value.isNull = false) : resolveValue id job none = some value := by
  simp [resolveValue, hfound, h]

/-- The value that is rendered is not null. -/
theorem isNull_of_resolveValue {id : String} {job value : JobValue} {given : Option JobValue}
    (h : resolveValue id job given = some value) : value.isNull = false := by
  have hpresent := (Option.filter_eq_some_iff.1 h).2
  simpa using hpresent

/-- Without a value there is nothing to render, unless the type has no meaning. -/
theorem InputType.render_of_none {type : InputType} (htype : ∀ tag, type ≠ .unresolved tag) {id : String}
    {job : JobValue} {given : Option JobValue} (h : resolveValue id job given = none) (binding : Binding)
    (location : String) (scope : Scope) :
    type.render id binding location job given scope = .done .nothing := by
  cases type with
  | unresolved tag => exact absurd rfl (htype tag)
  | primitive | enum | boolean | array | record =>
      unfold render
      rw [h]

/-- A rendering looks at the value alone, not at the job that it comes from. -/
theorem InputType.render_congr {id : String} {job other : JobValue} {given another : Option JobValue}
    (h : resolveValue id job given = resolveValue id other another) (type : InputType)
    (binding : Binding) (location : String) (scope : Scope) :
    type.render id binding location job given scope =
      type.render id binding location other another scope := by
  cases type with
  | unresolved => rfl
  | primitive | enum | boolean | array | record =>
      unfold render
      rw [h]

/-! ## Entries in another order -/

namespace Entries

variable {α : Type} {entries others : Entries α}

/-- The same entries in another order, with the same value at each key. -/
structure Reordered (entries others : Entries α) : Prop where
  perm : entries.Perm others
  lookup (key : String) : entries.lookup key = others.lookup key

theorem Reordered.refl (entries : Entries α) : Reordered entries entries :=
  ⟨.refl entries, fun _ ↦ rfl⟩

theorem Reordered.trans {rest : Entries α} (h : Reordered entries others) (hrest : Reordered others rest) :
    Reordered entries rest :=
  ⟨h.perm.trans hrest.perm, fun key ↦ (h.lookup key).trans (hrest.lookup key)⟩

/-- Without the first entry of a key, and with it in front. -/
theorem perm_cons_eraseP {key : String} {value : α} (h : entries.lookup key = some value) :
    entries.Perm ((key, value) :: entries.eraseP fun entry ↦ entry.1 = key) := by
  induction entries with
  | nil => cases h
  | cons entry rest ih =>
      by_cases hk : entry.1 = key
      · obtain ⟨name, found⟩ := entry
        subst hk
        rw [List.lookup_cons_self] at h
        cases h
        simp
      · rw [lookup_cons_of_ne hk] at h
        simpa [List.eraseP_cons, hk] using ((ih h).cons entry).trans (.swap _ _ _)

/-- A value that is put takes the place of the first entry of its key. -/
theorem perm_put (key : String) (value : α) (entries : Entries α) :
    (put key value entries).Perm ((key, value) :: entries.eraseP fun entry ↦ entry.1 = key) := by
  induction entries with
  | nil => exact .refl _
  | cons entry rest ih =>
      by_cases hk : entry.1 = key
      · simp [put, hk]
      · simpa [put, List.eraseP_cons, hk] using (ih.cons entry).trans (.swap _ _ _)

/-- An unknown key is not erased. -/
theorem eraseP_of_lookup_eq_none {key : String} (h : entries.lookup key = none) :
    (entries.eraseP fun entry ↦ entry.1 = key) = entries := by
  refine List.eraseP_of_forall_not fun entry hmem hkey ↦ ?_
  have hknown : key ∈ entries.keys := of_decide_eq_true hkey ▸ List.mem_map_of_mem hmem
  rw [← hasKey_iff, hasKey, h] at hknown
  cases hknown

/-- A value is put into entries in any order. -/
theorem Reordered.put (h : Reordered entries others) (key : String) (value : α) :
    Reordered (put key value entries) (put key value others) where
  perm := by
    have herased : (entries.eraseP fun entry ↦ entry.1 = key).Perm
        (others.eraseP fun entry ↦ entry.1 = key) := by
      cases hfound : entries.lookup key with
      | none =>
          rw [eraseP_of_lookup_eq_none hfound, eraseP_of_lookup_eq_none ((h.lookup key).symm.trans hfound)]
          exact h.perm
      | some found =>
          have hother := perm_cons_eraseP ((h.lookup key).symm.trans hfound)
          exact ((perm_cons_eraseP hfound).symm.trans (h.perm.trans hother)).cons_inv
    exact (perm_put key value entries).trans
      ((herased.cons (key, value)).trans (perm_put key value others).symm)
  lookup other := by
    rw [lookup_put, lookup_put, h.lookup]

/-- Values for two keys are put in any order. -/
theorem reordered_put_put {key other : String} (h : key ≠ other) (value another : α)
    (entries : Entries α) :
    Reordered (Entries.put other another (Entries.put key value entries))
      (Entries.put key value (Entries.put other another entries)) where
  perm := by
    induction entries with
    | nil => simpa [Entries.put, h, h.symm] using List.Perm.swap _ _ _
    | cons entry rest ih =>
        by_cases hk : entry.1 = key
        · simp [Entries.put, hk, h]
        · by_cases ho : entry.1 = other
          · simp [Entries.put, ho, h.symm]
          · simpa [Entries.put, hk, ho] using ih
  lookup name := by
    simp only [lookup_put]
    by_cases hk : name = key
    · simp [hk, h]
    · simp [hk]

end Entries

/-- The values are equal, or mappings with the same entries in another order. -/
inductive JobValue.Reordered : JobValue → JobValue → Prop where
  | refl (value : JobValue) : Reordered value value
  | mapping {entries others : Entries JobValue} :
      Entries.Reordered entries others → Reordered (.mapping entries) (.mapping others)

/-- The order of its entries does not matter for what a job has at a key. -/
theorem JobValue.Reordered.get?_eq {job other : JobValue} (h : JobValue.Reordered job other)
    (key : String) : job.get? key = other.get? key := by
  cases h with
  | refl => rfl
  | mapping hentries => exact hentries.lookup key

/-- The same scope with the entries of its jobs in another order. -/
structure Scope.Reordered (scope other : Scope) : Prop where
  inputs : JobValue.Reordered scope.inputs other.inputs
  job : JobValue.Reordered scope.job other.job
  self : scope.self = other.self
  runtime : scope.runtime = other.runtime

/-- Scopes outside of lists and records differ like their jobs. -/
theorem Scope.reordered_top {job other : JobValue} (h : JobValue.Reordered job other) (runtime : Runtime) :
    Scope.Reordered (.top job runtime) (.top other runtime) :=
  ⟨h, h, rfl, rfl⟩

/-- An element or a field has its own job and value in both scopes. -/
theorem Scope.Reordered.within {scope other : Scope} (h : Scope.Reordered scope other)
    (job self : JobValue) : Scope.Reordered (scope.within job self) (other.within job self) :=
  ⟨h.inputs, .refl job, rfl, h.runtime⟩

/-- A value at hand is the same in both scopes. -/
theorem Scope.Reordered.withSelf {scope other : Scope} (h : Scope.Reordered scope other)
    (self : JobValue) : Scope.Reordered (scope.withSelf self) (other.withSelf self) :=
  ⟨h.inputs, h.job, rfl, h.runtime⟩

/-- The evaluator does not distinguish jobs that differ in the order of their keys only. -/
def IgnoresKeyOrder (evaluator : Evaluator) : Prop :=
  ∀ (expression : Expression) {scope other : Scope}, Scope.Reordered scope other →
    evaluator ⟨expression, scope⟩ = evaluator ⟨expression, other⟩

/-! ## Renderings -/

namespace Rendering

variable {evaluator : Evaluator}

/-- An evaluation has the same outcome, and goes on in the same way. -/
theorem run_evaluate_congr {scope around : Scope} {expression : Expression}
    (hcall : evaluator ⟨expression, scope⟩ = evaluator ⟨expression, around⟩) (location : String)
    {use another : JobValue → Rendering}
    (hnext : ∀ value, (use value).run evaluator = (another value).run evaluator) :
    (evaluate expression scope location use).run evaluator =
      (evaluate expression around location another).run evaluator := by
  unfold evaluate
  rw [run, run, hcall]
  cases evaluator ⟨expression, around⟩ with
  | error => rfl
  | ok value => exact hnext value

/-- A flag has the same text. -/
theorem run_flag_congr {scope around : Scope} {value : JobValue}
    (hcall : ∀ expression, evaluator ⟨expression, scope.withSelf value⟩ =
      evaluator ⟨expression, around.withSelf value⟩)
    (itemsContext : Option Binding) (binding : Binding) (location : String) :
    (flag itemsContext binding location value scope).run evaluator =
      (flag itemsContext binding location value around).run evaluator := by
  unfold flag
  split
  · rfl
  · dsimp only
    split
    · rfl
    · exact run_evaluate_congr (hcall _) _ fun _ ↦ rfl

mutual

/-- An input has the same result. -/
theorem run_input_reordered (h : IgnoresKeyOrder evaluator) {scope around : Scope}
    (hscope : Scope.Reordered scope around) (type : InputType) (id : String) (binding : Binding)
    (location : String) (job : JobValue) (given : Option JobValue) :
    (type.render id binding location job given scope).run evaluator =
      (type.render id binding location job given around).run evaluator := by
  match type with
  | .unresolved _ | .primitive _ | .enum _ => rfl
  | .boolean itemsContext =>
    unfold InputType.render
    split
    · rfl
    · rw [run_map, run_map, run_flag_congr fun expression ↦ h expression (hscope.withSelf _)]
  | .array items itemBinding =>
    unfold InputType.render
    split
    · rfl
    · next value _ =>
      -- inside a list the job is that of the list, in both scopes
      have hparts (index : Nat) (element : JobValue) :=
        run_input_reordered h (hscope.within (.list (value.elements.map JobValue.unwrapFile)) element)
          items (toString index) (itemBinding.getD .plain) (elementLocation location index)
          (.list (value.elements.map JobValue.unwrapFile)) (some element)
      dsimp only
      rw [run, run, runAll_eq_map, runAll_eq_map, List.mapIdx_eq_zipIdx_map, List.mapIdx_eq_zipIdx_map,
        List.map_map, List.map_map]
      simp only [Function.comp_def, hparts]
  | .record fields =>
    unfold InputType.render
    split
    · rfl
    · dsimp only
      rw [run, run, runAll_fields_reordered h hscope]

/-- The fields of a record have the same results. -/
theorem runAll_fields_reordered (h : IgnoresKeyOrder evaluator) {scope around : Scope}
    (hscope : Scope.Reordered scope around) (fields : List Input)
    (entries : Entries JobValue) :
    runAll evaluator (InputType.renderFields fields entries scope) =
      runAll evaluator (InputType.renderFields fields entries around) := by
  match fields with
  | [] => rfl
  | ⟨id, type, binding, location⟩ :: rest =>
    unfold InputType.renderFields
    split
    · exact runAll_fields_reordered h hscope rest entries
    · next value _ =>
      rw [runAll, runAll, runAll_fields_reordered h hscope rest entries,
        run_input_reordered h (hscope.within (.mapping entries) value)]

end

end Rendering

/-- For an evaluator that ignores the order of keys a target has the same result for jobs that differ in
this order only. -/
theorem Target.run_render_reordered {evaluator : Evaluator} (h : IgnoresKeyOrder evaluator)
    {job other : JobValue} (hjob : JobValue.Reordered job other) {scope around : Scope}
    (hscope : Scope.Reordered scope around) (target : Target) (given : Option JobValue) :
    (target.render job given scope).run evaluator = (target.render other given around).run evaluator := by
  have hresolve (id : String) (own : Option JobValue) :
      resolveValue id job own = resolveValue id other own := by
    rw [resolveValue, hjob.get?_eq]
    rfl
  cases target with
  | input declared =>
      show (declared.type.render _ _ _ job given scope).run evaluator = _
      rw [Rendering.run_input_reordered h hscope, InputType.render_congr (hresolve declared.id given)]
      rfl
  | argument declared =>
      show (declared.render job scope).run evaluator = (declared.render other around).run evaluator
      unfold Argument.render
      split
      · rfl
      · split
        · rfl
        · refine Rendering.run_evaluate_congr (h _ hscope) _ fun value ↦ ?_
          unfold Argument.renderValue
          rw [Rendering.run_map, Rendering.run_map, Rendering.run_input_reordered h hscope,
            InputType.render_congr (hresolve declared.location (some value))]
  | stream declared =>
      show (declared.render scope).run evaluator = (declared.render around).run evaluator
      exact Rendering.run_evaluate_congr (h _ hscope) _ fun _ ↦ rfl

end Invocation
