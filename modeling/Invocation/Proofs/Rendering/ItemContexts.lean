import Invocation.Proofs.Rendering.Components

/-!
# The bindings that flags of lists know

A flag in a list has two ways to the binding of the items of the list: its type may know it, and it is rendered
with it.  Where both agree (`InputType.Coherent`) the first one can be left out, since every value is rendered
in the same way without it (`InputType.Coherent.render_withoutContexts`).
-/

namespace Invocation

/-! ## Types without the bindings of items -/

namespace InputType

mutual

/-- The type without what its flags know of the binding of items. -/
def withoutContexts : InputType → InputType
  | .boolean _ => .boolean none
  | .array items itemBinding => .array (withoutContexts items) itemBinding
  | .record fields => .record (fieldsWithoutContexts fields)
  | type => type

/-- The fields of a record without what flags in them know of the binding of items. -/
def fieldsWithoutContexts : List (Parameter InputType) → List Input
  | [] => []
  | ⟨id, type, binding, location⟩ :: rest =>
    ⟨id, withoutContexts type, binding, location⟩ :: fieldsWithoutContexts rest

end

end InputType

/-- The parameter with its type without what flags in it know of the binding of items. -/
def Input.withoutContexts (input : Input) : Input :=
  { input with type := input.type.withoutContexts }

namespace InputType

/-- The fields are changed one by one. -/
theorem fieldsWithoutContexts_eq_map (fields : List Input) :
    fieldsWithoutContexts fields = fields.map Input.withoutContexts := by
  induction fields with
  | nil => rfl
  | cons field rest ih =>
      obtain ⟨id, type, binding, location⟩ := field
      rw [fieldsWithoutContexts, ih]
      rfl

@[simp]
theorem tag_withoutContexts (type : InputType) : type.withoutContexts.tag = type.tag := by
  cases type <;> rfl

@[simp]
theorem items?_withoutContexts (type : InputType) :
    type.withoutContexts.items? = type.items?.map withoutContexts := by
  cases type <;> rfl

/-- A value has the shape of the one type when it has that of the other. -/
@[simp]
theorem accepts_withoutContexts (type : InputType) (value : JobValue) :
    type.withoutContexts.accepts value = type.accepts value := by
  induction type using InputType.induction generalizing value with
  | primitive | enum | unresolved => rfl
  | boolean => cases value <;> rfl
  | record => cases value <;> rfl
  | array items itemBinding ih =>
      unfold withoutContexts
      cases value with
      | list values => simp only [accepts, ih]
      | null | bool | number | string | file | mapping => rfl

/-- A value that does not fit the one type does not fit the other, with the same warning. -/
@[simp]
theorem mismatch_withoutContexts (type : InputType) (id location : String) (value : JobValue) :
    type.withoutContexts.mismatch id location value = type.mismatch id location value := by
  have hexpectation : type.withoutContexts.expectation = type.expectation := by
    unfold expectation
    rw [items?_withoutContexts]
    cases type.items? <;> simp
  have hadmits : type.withoutContexts.admits value = type.admits value := by
    unfold admits
    rw [items?_withoutContexts]
    cases type.items? <;> simp
  unfold mismatch
  rw [hexpectation, hadmits]

/-! ## Types that know what they are rendered with -/

/-- A flag knows a binding as the item of an array only, and then it is the binding of the items of this
array. -/
inductive Coherent : InputType → Prop where
  | primitive (kind : Primitive) : Coherent (.primitive kind)
  | flag : Coherent (.boolean none)
  | flags (itemBinding : Option Binding) : Coherent (.array (.boolean itemBinding) itemBinding)
  | array {items : InputType} (itemBinding : Option Binding) :
      (∀ itemsContext, items ≠ .boolean itemsContext) → Coherent items →
      Coherent (.array items itemBinding)
  | record {fields : List Input} : (∀ field ∈ fields, Coherent field.type) → Coherent (.record fields)
  | enum (symbols : List String) : Coherent (.enum symbols)
  | unresolved (tag : String) : Coherent (.unresolved tag)

variable {id location : String} {binding : Binding} {job : JobValue} {given : Option JobValue} {scope : Scope}

/-- A flag that is rendered with the binding of the items need not know it. -/
theorem render_boolean_context (itemBinding : Option Binding) (id location : String) (job : JobValue)
    (given : Option JobValue) (scope : Scope) :
    (boolean none).render id (itemBinding.getD .plain) location job given scope =
      (boolean itemBinding).render id (itemBinding.getD .plain) location job given scope := by
  have hflag (value : JobValue) :
      Rendering.flag none (itemBinding.getD .plain) location value scope =
        Rendering.flag itemBinding (itemBinding.getD .plain) location value scope := by
    unfold Rendering.flag
    cases itemBinding <;> rfl
  unfold render
  cases resolveValue id job given with
  | none => rfl
  | some value =>
      dsimp only
      rw [hflag, ← mismatch_withoutContexts (boolean itemBinding)]
      rfl

/-- A list is rendered in the same way when its elements are. -/
theorem render_array_congr {items others : InputType} {itemBinding : Option Binding}
    (hitems : ∀ id location job given scope,
      others.render id (itemBinding.getD .plain) location job given scope =
        items.render id (itemBinding.getD .plain) location job given scope)
    (hmismatch : ∀ value, (array others itemBinding).mismatch id location value =
      (array items itemBinding).mismatch id location value) :
    (array others itemBinding).render id binding location job given scope =
      (array items itemBinding).render id binding location job given scope := by
  unfold render
  cases resolveValue id job given with
  | none => rfl
  | some value => simp only [hitems, hmismatch]

/-- The fields of a record are rendered in the same way when each of them is. -/
theorem renderFields_withoutContexts {fields : List Input}
    (h : ∀ field ∈ fields, ∀ id binding location job given scope,
      field.type.withoutContexts.render id binding location job given scope =
        field.type.render id binding location job given scope)
    (entries : Entries JobValue) (scope : Scope) :
    renderFields (fieldsWithoutContexts fields) entries scope = renderFields fields entries scope := by
  induction fields with
  | nil => rfl
  | cons field rest ih =>
      obtain ⟨hfield, hrest⟩ := List.forall_mem_cons.1 h
      obtain ⟨id, type, binding, location⟩ := field
      unfold fieldsWithoutContexts renderFields
      rw [ih hrest]
      cases entries.lookup id with
      | none => rfl
      | some value =>
          dsimp only
          rw [hfield]

/-- The keys that a record does not declare are the same. -/
theorem undeclared_withoutContexts (fields : List Input) (id location : String) (entries : Entries JobValue) :
    undeclared (fieldsWithoutContexts fields) id location entries = undeclared fields id location entries := by
  have hdeclared (key : String) : ((fieldsWithoutContexts fields).any fun field ↦ field.id == key) =
      fields.any fun field ↦ field.id == key := by
    rw [fieldsWithoutContexts_eq_map, List.any_map]
    rfl
  unfold undeclared
  simp only [hdeclared]

/-- What flags know of the binding of items does not matter when it is what they are rendered with. -/
theorem Coherent.render_withoutContexts {type : InputType} (h : type.Coherent) (id : String)
    (binding : Binding) (location : String) (job : JobValue) (given : Option JobValue) (scope : Scope) :
    type.withoutContexts.render id binding location job given scope =
      type.render id binding location job given scope := by
  induction h generalizing id binding location job given scope with
  | primitive | flag | enum | unresolved => rfl
  | flags itemBinding =>
      exact render_array_congr (render_boolean_context itemBinding)
        (mismatch_withoutContexts (.array (.boolean itemBinding) itemBinding) id location)
  | @array items itemBinding _ _ ih =>
      exact render_array_congr (fun id ↦ ih id _)
        (mismatch_withoutContexts (.array items itemBinding) id location)
  | @record fields _ ih =>
      have hmismatch := mismatch_withoutContexts (.record fields) id location
      unfold withoutContexts at hmismatch ⊢
      unfold render
      cases resolveValue id job given with
      | none => rfl
      | some value =>
          dsimp only
          rw [renderFields_withoutContexts ih, hmismatch, undeclared_withoutContexts]

end InputType

end Invocation
