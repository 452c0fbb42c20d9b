import Invocation.Tool.Type

/-!
# Values and types

`InputType.accepts` compares the shape of a value with a type; fields of a record are not looked at.
`InputType.infer` gives a type to a value that has no declared one.
-/

namespace Invocation

namespace Primitive

/-- The value has the primitive type.  Integers are accepted as floats, but not the other way round. -/
def accepts : Primitive → JobValue → Bool
  | .any, _ => true
  | .null, .null => true
  | .string, .string _ => true
  | .int, .number (.int _) => true
  | .long, .number (.int _) => true
  | .float, .number _ => true
  | .double, .number _ => true
  | .file, .file .file _ _ _ => true
  | .directory, .file .directory _ _ _ => true
  | _, _ => false

end Primitive

namespace InputType

/-- The value has the shape of the type. -/
def accepts : InputType → JobValue → Bool
  | .primitive kind, value => kind.accepts value
  | .boolean _, .bool _ => true
  | .enum symbols, .string s => symbols.contains s
  | .array items _, .list values => values.all fun value ↦ accepts items value
  | .record _, .mapping _ => true
  | .unresolved _, _ => true
  | _, _ => false

end InputType

/-- The parameter of a value without a declaration. -/
def Parameter.inferred (id : String) (type : InputType) : Input :=
  ⟨id, type, .plain, id⟩

namespace InputType

mutual

/-- The type of a value that has no declared one.  A list takes the type of its first item. -/
def infer : JobValue → InputType
  | .null => .primitive .null
  | .bool _ => .boolean none
  | .number (.int _) => .primitive .long
  | .number (.double _) => .primitive .double
  | .string _ => .primitive .string
  | .file .file _ _ _ => .primitive .file
  | .file .directory _ _ _ => .primitive .directory
  | .list items => .array (inferItems items) none
  | .mapping entries => .record (inferFields entries)

/-- The type of the first item, any type when there is none. -/
def inferItems : List JobValue → InputType
  | [] => .primitive .any
  | item :: _ => infer item

/-- A field for each entry of a mapping. -/
def inferFields : List (String × JobValue) → List Input
  | [] => []
  | entry :: rest => .inferred entry.1 (infer entry.2) :: inferFields rest

end

end InputType

end Invocation
