import Invocation.Proofs.Rendering.Static

/-!
# Flags inside of inputs

The only values that are evaluated are those of flags.  `InputType.flags` lists the flags that a value has,
at every depth and in the order in which they are rendered, and the evaluations of an input are the
expressions of those that are on (`pending_input`).  A type without expressions asks for no evaluation
(`Mute.pending_eq_nil`); the types that are inferred for values are such types (`mute_infer`).
-/

namespace Invocation

/-- A flag with its value: its binding, and the scope in which it stands. -/
structure Flag where
  binding : Binding
  value : JobValue
  scope : Scope

namespace Flag

/-- The evaluation of a flag: its expression, when it has one and its value is on. -/
def call? (flag : Flag) : Option Call :=
  if flag.value.isTruthy then
    flag.binding.valueFrom.map fun expression ↦ ⟨expression, flag.scope.withSelf flag.value⟩
  else none

end Flag

namespace InputType

mutual

/-- The flags with a value: those of the elements one after the other, and those of the fields in the order
of their declaration. -/
def flags (type : InputType) (id : String) (binding : Binding) (job : JobValue)
    (given : Option JobValue) (scope : Scope) : List Flag :=
  match type with
  | .primitive _ | .enum _ | .unresolved _ => []
  | .boolean _ =>
    match resolveValue id job given with
    | none => []
    | some value => [⟨binding, value, scope⟩]
  | .array items itemBinding =>
    match resolveValue id job given with
    | none => []
    | some value =>
      let siblings := JobValue.list (value.elements.map JobValue.unwrapFile)
      (value.elements.mapIdx fun index element ↦
        flags items (toString index) (itemBinding.getD .plain) siblings (some element)
          (scope.within siblings element)).flatten
  | .record fields =>
    match resolveValue id job given with
    | none => []
    | some value => fieldFlags fields value.entries scope

/-- The flags of the fields that have an entry. -/
def fieldFlags (fields : List Input) (entries : Entries JobValue) (scope : Scope) : List Flag :=
  match fields with
  | [] => []
  | ⟨id, type, binding, _⟩ :: rest =>
    match entries.lookup id with
    | none => fieldFlags rest entries scope
    | some value =>
      flags type id binding (.mapping entries) (some value) (scope.within (.mapping entries) value)
        ++ fieldFlags rest entries scope

end

end InputType

namespace Rendering

/-- A flag asks for its evaluation. -/
theorem pending_flag (itemsContext : Option Binding) (binding : Binding) (location : String)
    (value : JobValue) (scope : Scope) :
    pending (flag itemsContext binding location value scope) =
      (Flag.call? ⟨binding, value, scope⟩).toList := by
  unfold flag Flag.call?
  cases value.isTruthy with
  | false => rfl
  | true =>
      dsimp only
      cases binding.valueFrom <;> rfl

/-- Elements ask for the evaluations of their flags, one after the other. -/
theorem pendingAll_mapIdx {elements : List JobValue} {part : Nat → JobValue → Rendering}
    {flags : Nat → JobValue → List Flag}
    (h : ∀ index element, pending (part index element) =
      (flags index element).filterMap Flag.call?) :
    pendingAll (elements.mapIdx part) = (elements.mapIdx flags).flatten.filterMap Flag.call? := by
  simp only [pendingAll_eq_flatMap, List.flatMap, List.filterMap_flatten,
    List.mapIdx_eq_zipIdx_map, List.map_map]
  refine congrArg List.flatten (List.map_congr_left fun entry _ ↦ ?_)
  exact h entry.2 entry.1

mutual

/-- The evaluations of an input are those of its flags. -/
theorem pending_input (type : InputType) (id : String) (binding : Binding) (location : String)
    (job : JobValue) (given : Option JobValue) (scope : Scope) :
    pending (type.render id binding location job given scope) =
      (type.flags id binding job given scope).filterMap Flag.call? := by
  match type with
  | .unresolved _ => rfl
  | .primitive _ | .enum _ =>
    unfold InputType.render InputType.flags
    cases resolveValue id job given <;> rfl
  | .boolean itemsContext =>
    unfold InputType.render InputType.flags
    cases resolveValue id job given with
    | none => rfl
    | some value =>
      have hcall : [Flag.mk binding value scope].filterMap Flag.call? =
          (Flag.call? ⟨binding, value, scope⟩).toList := by
        rw [List.filterMap_cons]
        cases Flag.call? ⟨binding, value, scope⟩ <;> rfl
      rw [hcall]
      exact (pending_map _ _).trans (pending_flag itemsContext binding location value scope)
  | .array items itemBinding =>
    unfold InputType.render InputType.flags
    cases resolveValue id job given with
    | none => rfl
    | some value =>
      exact pendingAll_mapIdx fun index element ↦ pending_input items _ _ _ _ _ _
  | .record fields =>
    unfold InputType.render InputType.flags
    cases resolveValue id job given with
    | none => rfl
    | some value => exact pendingAll_fields fields value.entries scope

/-- The evaluations of fields are those of their flags. -/
theorem pendingAll_fields (fields : List Input) (entries : Entries JobValue) (scope : Scope) :
    pendingAll (InputType.renderFields fields entries scope) =
      (InputType.fieldFlags fields entries scope).filterMap Flag.call? := by
  match fields with
  | [] => rfl
  | ⟨id, type, binding, location⟩ :: rest =>
    unfold InputType.renderFields InputType.fieldFlags
    cases entries.lookup id with
    | none => exact pendingAll_fields rest entries scope
    | some value =>
      rw [List.filterMap_append]
      exact congrArg₂ (· ++ ·) (pending_input type _ _ _ _ _ _) (pendingAll_fields rest entries scope)

end

end Rendering

/-! ## Types without expressions -/

namespace InputType

/-- Nothing inside of the type has an expression. -/
inductive Mute : InputType → Prop where
  | primitive (kind : Primitive) : Mute (.primitive kind)
  | boolean (itemsContext : Option Binding) : Mute (.boolean itemsContext)
  | enum (symbols : List String) : Mute (.enum symbols)
  | unresolved (tag : String) : Mute (.unresolved tag)
  | array {items : InputType} {itemBinding : Option Binding} :
      Mute items → (itemBinding.getD .plain).valueFrom = none → Mute (.array items itemBinding)
  | record {fields : List Input} :
      (∀ field ∈ fields, Mute field.type) → (∀ field ∈ fields, field.binding.valueFrom = none) →
      Mute (.record fields)

/-- The flags of a record are those of its fields that have an entry. -/
theorem mem_fieldFlags_iff {fields : List Input} {entries : Entries JobValue} {scope : Scope}
    {flag : Flag} : flag ∈ fieldFlags fields entries scope ↔
      ∃ field ∈ fields, ∃ value, entries.lookup field.id = some value ∧
        flag ∈ field.type.flags field.id field.binding (.mapping entries) (some value)
          (scope.within (.mapping entries) value) := by
  induction fields with
  | nil => simp [fieldFlags]
  | cons field rest ih =>
      unfold fieldFlags
      rw [List.exists_mem_cons_iff, ← ih]
      cases hvalue : entries.lookup field.id with
      | none => simp
      | some value => simp

/-- The flags inside of a type without expressions have none, unless the input itself has one. -/
theorem Mute.valueFrom_eq_none {type : InputType} (h : type.Mute) {id : String} {binding : Binding}
    {job : JobValue} {given : Option JobValue} {scope : Scope} (hbinding : binding.valueFrom = none) :
    ∀ flag ∈ type.flags id binding job given scope, flag.binding.valueFrom = none := by
  intro flag hmem
  induction h generalizing id binding job given scope with
  | primitive | enum | unresolved =>
      unfold flags at hmem
      cases hmem
  | boolean =>
      unfold flags at hmem
      split at hmem
      · cases hmem
      · rw [List.mem_singleton.1 hmem]
        exact hbinding
  | array _ hitems ih =>
      unfold flags at hmem
      split at hmem
      · cases hmem
      · -- an element has the binding of the items, not that of the list
        obtain ⟨_, hpart, hflag⟩ := List.mem_flatten.1 hmem
        obtain ⟨index, _, rfl⟩ := List.mem_mapIdx.1 hpart
        exact ih hitems hflag
  | record _ hfields ih =>
      unfold flags at hmem
      split at hmem
      · cases hmem
      · obtain ⟨field, hfield, value, -, hflag⟩ := mem_fieldFlags_iff.1 hmem
        exact ih field hfield (hfields field hfield) hflag

mutual

/-- The types that are inferred for values have no expressions. -/
theorem mute_infer (value : JobValue) : (infer value).Mute := by
  match value with
  | .null | .string _ | .number (.int _) | .number (.double _) | .file .file _ _ _
  | .file .directory _ _ _ =>
    unfold infer
    exact .primitive _
  | .bool _ =>
    unfold infer
    exact .boolean _
  | .list [] =>
    unfold infer
    exact .array (.primitive .any) rfl
  | .list (item :: rest) =>
    unfold infer inferItems
    exact .array (mute_infer item) rfl
  | .mapping entries =>
    unfold infer
    obtain ⟨htypes, hbindings⟩ := mute_inferFields entries
    exact .record htypes hbindings

/-- The fields that are inferred for entries have no expressions. -/
theorem mute_inferFields (entries : List (String × JobValue)) :
    (∀ field ∈ inferFields entries, field.type.Mute) ∧
      ∀ field ∈ inferFields entries, field.binding.valueFrom = none := by
  match entries with
  | [] => exact ⟨nofun, nofun⟩
  | entry :: rest =>
    unfold inferFields
    obtain ⟨htypes, hbindings⟩ := mute_inferFields rest
    exact ⟨List.forall_mem_cons.2 ⟨mute_infer entry.2, htypes⟩,
      List.forall_mem_cons.2 ⟨rfl, hbindings⟩⟩

end

end InputType

namespace Rendering

/-- An input without expressions asks for no evaluation. -/
theorem pending_eq_nil_of_mute {type : InputType} (h : type.Mute) {binding : Binding}
    (hbinding : binding.valueFrom = none) (id location : String) (job : JobValue)
    (given : Option JobValue) (scope : Scope) :
    pending (type.render id binding location job given scope) = [] := by
  rw [pending_input, List.filterMap_eq_nil_iff]
  intro flag hflag
  unfold Flag.call?
  rw [h.valueFrom_eq_none hbinding flag hflag]
  exact ite_self _

end Rendering

/-! ## Targets -/

namespace Target

/-- The evaluations of a target: of an argument without a literal text its expression, of a redirection
its expression, and of an input those of its flags that are on. -/
def calls (target : Target) (job : JobValue) (scope : Scope) : List Call :=
  match target with
  | .input declared =>
    (declared.type.flags declared.id declared.binding job none scope).filterMap Flag.call?
  | .argument declared =>
    match declared.literal, declared.binding.valueFrom with
    | none, some expression => [⟨expression, scope⟩]
    | _, _ => []
  | .stream declared => [⟨declared.expression, scope⟩]

/-- Every target is rendered statically. -/
theorem static_render (target : Target) (job : JobValue) (given : Option JobValue) (scope : Scope) :
    (target.render job given scope).Static := by
  cases target with
  | input input => exact Rendering.static_input _ _ _ _ _ _ _
  | argument argument =>
      unfold render Argument.render
      dsimp only
      split
      · exact .done _
      · split
        · exact .done _
        · refine Rendering.static_evaluate (fun value ↦ ?_) fun value ↦ ?_
          · exact (Rendering.static_input _ _ _ _ _ _ _).map _
          · -- the type of the value is inferred, and the expression of the argument is not used again
            refine (Rendering.pending_map _ _).trans ?_
            exact Rendering.pending_eq_nil_of_mute (InputType.mute_infer value) rfl _ _ _ _ _
  | stream stream => exact Rendering.static_evaluate (fun _ ↦ .done _) fun _ ↦ rfl

/-- The evaluations of a target are under way from the start. -/
theorem pending_render (target : Target) (job : JobValue) (scope : Scope) :
    (target.render job none scope).pending = target.calls job scope := by
  cases target with
  | input input => exact Rendering.pending_input _ _ _ _ _ _ _
  | argument argument =>
      unfold render calls Argument.render
      dsimp only
      cases argument.literal with
      | some text => rfl
      | none => cases argument.binding.valueFrom <;> rfl
  | stream stream => rfl

end Target

end Invocation
