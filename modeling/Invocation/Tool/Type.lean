import Invocation.Evaluation

/-!
# Input types and bindings

The declared shape of an input decides how its value is rendered.  A record has parameters of its own, so
types and parameters are nested in each other.
-/

namespace Invocation

/-- The types that have no parts. -/
inductive Primitive where
  | string
  | int
  | long
  | float
  | double
  | file
  | directory
  | null
  | any
  deriving DecidableEq, Inhabited

namespace Primitive

/-- Every primitive type. -/
def all : List Primitive :=
  [.string, .int, .long, .float, .double, .file, .directory, .null, .any]

/-- The name of the type in documents. -/
def name : Primitive → String
  | .string => "string"
  | .int => "int"
  | .long => "long"
  | .float => "float"
  | .double => "double"
  | .file => "File"
  | .directory => "Directory"
  | .null => "null"
  | .any => "Any"

/-- The primitive type with the given name. -/
def ofName? (name : String) : Option Primitive :=
  all.find? fun primitive ↦ primitive.name == name

end Primitive

/-- How a value becomes text: the flag in front of it, whether a space separates the two, what separates
the items of a list, and the expression that replaces the value. -/
structure Binding where
  flag : Option String := none
  separate : Bool := true
  itemSeparator : String := " "
  valueFrom : Option Expression := none
  deriving DecidableEq, Inhabited

namespace Binding

/-- The binding of a parameter that declares none. -/
def plain : Binding := {}

/-- The text of the flag, empty when there is none. -/
def flagText (binding : Binding) : String :=
  binding.flag.getD ""

/-- What stands between a flag and its value. -/
def separator (binding : Binding) : String :=
  if binding.separate then " " else ""

/-- The text after a flag; the separator stands only behind a flag that is not empty. -/
def attach (binding : Binding) (flag text : String) : String :=
  if flag.isEmpty then text else flag ++ binding.separator ++ text

end Binding

/-- An input of a tool or a field of a record: its id, its type, its binding and the place of its
declaration. -/
structure Parameter (τ : Type) where
  id : String
  type : τ
  binding : Binding
  location : String
  deriving DecidableEq, Inhabited

/-- The declared shape of an input. -/
inductive InputType where
  | primitive (kind : Primitive)
  /-- A flag; inside an array it knows the binding of the array's items. -/
  | boolean (itemsContext : Option Binding)
  | array (items : InputType) (itemBinding : Option Binding)
  /-- The fields in the order of their declaration, each id once. -/
  | record (fields : List (Parameter InputType))
  | enum (symbols : List String)
  /-- A type name or a form of type that has no meaning here. -/
  | unresolved (tag : String)
  deriving Inhabited

/-- A parameter with an input type. -/
abbrev Input := Parameter InputType

namespace InputType

/-- The name of the type in findings. -/
def tag : InputType → String
  | .primitive kind => kind.name
  | .boolean _ => "boolean"
  | .array .. => "array"
  | .record _ => "record"
  | .enum _ => "enum"
  | .unresolved tag => tag

/-- The type of the items of an array. -/
def items? : InputType → Option InputType
  | .array items _ => some items
  | _ => none

/-- What holds of a type when it holds of the types of its items or fields holds of every type. -/
@[elab_as_elim]
theorem induction {motive : InputType → Prop} (primitive : ∀ kind, motive (.primitive kind))
    (boolean : ∀ itemsContext, motive (.boolean itemsContext))
    (array : ∀ items itemBinding, motive items → motive (.array items itemBinding))
    (record : ∀ fields : List Input, (∀ field ∈ fields, motive field.type) → motive (.record fields))
    (enum : ∀ symbols, motive (.enum symbols)) (unresolved : ∀ tag, motive (.unresolved tag))
    (type : InputType) : motive type := by
  match type with
  | .primitive kind => exact primitive kind
  | .boolean itemsContext => exact boolean itemsContext
  | .array items itemBinding =>
      exact array items itemBinding
        (induction primitive boolean array record enum unresolved items)
  | .record fields =>
      exact record fields fun field hmem ↦
        induction primitive boolean array record enum unresolved field.type
  | .enum symbols => exact enum symbols
  | .unresolved tag => exact unresolved tag
termination_by type
decreasing_by
  · simp only [InputType.array.sizeOf_spec]
    omega
  · have hfield := List.sizeOf_lt_of_mem hmem
    have htype : sizeOf field.type < sizeOf field := by
      obtain ⟨id, type, binding, location⟩ := field
      simp only [Parameter.mk.sizeOf_spec]
      omega
    simp only [InputType.record.sizeOf_spec]
    omega

end InputType

/-- The place of the element with an index inside a list at a place. -/
def elementLocation (location : String) (index : Nat) : String :=
  location ++ "[" ++ toString index ++ "]"

end Invocation
