import Invocation.Document.DraftScript
import Invocation.Document.Reading
import Invocation.Tool.Description

/-!
# Reading types and bindings

A type is written as a name with the suffixes `?` and `[]`, as an object, or as a union with null.  A type
that cannot be given a meaning is read as unresolved, so only a malformed field, symbol list or expression
is a fault.  `readType` gives the type together with whether it admits null.
-/

namespace Invocation.Document

/-- The name that is meant by a written name: draft documents put number signs in front. -/
def plainName (version : DocumentVersion) (name : String) : String :=
  match version with
  | .v1 => name
  | .draft2 => withoutSigns name

/-- Reads an expression: a string as it is, a number or a truth value as its text, and in draft documents
also an object with a script. -/
def readExpression (version : DocumentVersion) (location : String) : Json → Reading Expression
  | .string source => .ok ⟨source, location⟩
  | .number n => .ok ⟨n.text, location⟩
  | .bool b => .ok ⟨(Json.bool b).compact, location⟩
  | .object members =>
    if version = .draft2 ∧ Entries.string? members "class" = some "Expression" then
      match Entries.string? members "script" with
      | some script => .ok ⟨scriptSource script, location⟩
      | none => .error ⟨location, .expressionWithoutScript⟩
    else .error ⟨location, .expressionForm⟩
  | _ => .error ⟨location, .expressionForm⟩

/-- Reads the expression of a member, if there is one. -/
def readExpression? (version : DocumentVersion) (location : String) :
    Option Json → Reading (Option Expression)
  | none => .ok none
  | some value => (readExpression version location value).map some

/-- Reads the members of a binding. -/
def readBinding (version : DocumentVersion) (location : String) (members : Entries Json) :
    Reading Binding := do
  let valueFrom ←
    readExpression? version (child location "valueFrom") (members.lookup "valueFrom")
  return {
    flag := members.string? "prefix"
    separate := ((members.lookup "separate").bind Json.bool?).getD Binding.plain.separate
    itemSeparator := (members.string? "itemSeparator").getD Binding.plain.itemSeparator
    valueFrom }

/-- Reads a binding that is an object; anything else is none. -/
def readBinding? (version : DocumentVersion) (location : String) (raw : Option Json) :
    Reading (Option Binding) :=
  match raw.bind Json.members? with
  | none => .ok none
  | some members => (readBinding version location members).map some

/-- The type with a name that has no suffix. -/
def typeOfName (name : String) : InputType :=
  if name = "boolean" then .boolean none
  else
    match Primitive.ofName? name with
    | some kind => .primitive kind
    | none => .unresolved name

/-- The type that a reversed name means, and whether it admits null. -/
def typeOfReversedName : List Char → InputType × Bool
  | '?' :: rest => ((typeOfReversedName rest).1, true)
  | ']' :: '[' :: rest => (.array (typeOfReversedName rest).1 none, false)
  | name => (typeOfName (String.ofList name.reverse), false)

/-- The type that a name with its suffixes means, and whether it admits null: `?` admits it, `[]` is an
array. -/
def namedType (name : String) : InputType × Bool :=
  typeOfReversedName name.toList.reverse

/-- The type of a union, given its members other than null: only one such member has a meaning. -/
def unionType (optional : Bool) :
    List (Reading (InputType × Bool)) → Reading (InputType × Bool)
  | [alternative] => alternative.map fun read ↦ (read.1, optional || read.2)
  | _ => .ok (.unresolved "union", optional)

/-- The type of an array: flags take the binding of their array along. -/
def arrayType (itemBinding : Option Binding) : InputType → InputType
  | .boolean itemsContext => .array (.boolean (itemBinding.or itemsContext)) itemBinding
  | items => .array items itemBinding

/-- The record type of fields that were declared in this order: a later field replaces an earlier one
with its id. -/
def recordType (fields : List Input) : InputType :=
  .record ((Entries.ofList (fields.map fun field ↦ (field.id, field))).map Prod.snd)

/-- The type of an enumeration. -/
def readEnum (version : DocumentVersion) (location : String) (members : Entries Json) :
    Reading InputType :=
  match members.lookup "symbols" with
  | some (.array symbols) =>
    .ok (.enum ((symbols.filterMap Json.string?).map (plainName version)))
  | _ => .error ⟨location, .enumWithoutSymbols⟩

/-- The name of a field: its member `name`, or `id` when there is none. -/
def fieldName? (version : DocumentVersion) (members : Entries Json) : Option String :=
  (((members.lookup "name").or (members.lookup "id")).bind Json.string?).map (plainName version)

/-- What binds a field: its own binding, or that of its type when it has none. -/
def fieldBinding? (members : Entries Json) : Option Json :=
  (members.lookup "inputBinding").or ((members.lookup "type").bind (Json.get? "inputBinding"))

/-- Reads a field from its members, given how its type reads. -/
def readFieldMembers (version : DocumentVersion) (location : String) (members : Entries Json)
    (type : Reading (InputType × Bool)) : Reading Input :=
  match fieldName? version members with
  | none => .error ⟨location, .fieldWithoutName⟩
  | some id => do
    let (type, _) ← type
    let binding ← readBinding? version (child location "inputBinding") (fieldBinding? members)
    return ⟨id, type, binding.getD .plain, location⟩

/-- The type of something that declares none. -/
def missingType : Reading (InputType × Bool) :=
  .ok (.unresolved "missing", false)

/-- Reads an object that describes a type, given how its items and its fields read. -/
def readTypeMembers (version : DocumentVersion) (location : String) (members : Entries Json)
    (items : Reading (InputType × Bool)) (fields : Reading (List Input)) : Reading InputType := do
  let binding ←
    readBinding? version (child location "inputBinding") (members.lookup "inputBinding")
  match members.string? "type" with
  | none => return .unresolved "object"
  | some "array" =>
    let (items, _) ← items
    return arrayType binding items
  | some "record" =>
    let fields ← fields
    return recordType fields
  | some "enum" => readEnum version location members
  | some name => return (namedType name).1

mutual

/-- Reads a type, and whether it admits null. -/
def readType (version : DocumentVersion) (location : String) : Json → Reading (InputType × Bool)
  | .string name => .ok (namedType name)
  | .array union =>
    unionType (union.any (Json.isString "null")) (readAlternatives version location union)
  | .object members => do
    let type ← readTypeMembers version location members
      (readTypeAt version (child location "items") "items" members)
      (readFieldsAt version (child location "fields") members)
    return (type, false)
  | _ => .ok (.unresolved "invalid", false)

/-- Reads the members of a union other than null. -/
def readAlternatives (version : DocumentVersion) (location : String) :
    List Json → List (Reading (InputType × Bool))
  | [] => []
  | item :: rest =>
    if item.isString "null" then readAlternatives version location rest
    else readType version location item :: readAlternatives version location rest

/-- Reads the type at a member. -/
def readTypeAt (version : DocumentVersion) (location key : String) :
    List (String × Json) → Reading (InputType × Bool)
  | [] => missingType
  | member :: rest =>
    if key = member.1 then readType version location member.2
    else readTypeAt version location key rest

/-- Reads the fields at the member `fields`. -/
def readFieldsAt (version : DocumentVersion) (location : String) :
    List (String × Json) → Reading (List Input)
  | [] => .ok []
  | member :: rest =>
    if "fields" = member.1 then readFields version location member.2
    else readFieldsAt version location rest

/-- Reads fields that are written as a list or as an object. -/
def readFields (version : DocumentVersion) (location : String) : Json → Reading (List Input)
  | .array items => readFieldItems version location 0 items
  | .object members => readFieldEntries version location 0 members
  | _ => .ok []

/-- Reads the fields of a list, the first of which has the given index. -/
def readFieldItems (version : DocumentVersion) (location : String) (index : Nat) :
    List Json → Reading (List Input)
  | [] => .ok []
  | item :: rest => do
    let place := elementAt location index
    let field ←
      match item.members? with
      | none => .error ⟨place, .fieldNotObject⟩
      | some members =>
        readFieldMembers version place members (readOwnType version (child place "type") item)
    let fields ← readFieldItems version location (index + 1) rest
    return field :: fields

/-- Reads the fields of an object, the first of which has the given index. -/
def readFieldEntries (version : DocumentVersion) (location : String) (index : Nat) :
    List (String × Json) → Reading (List Input)
  | [] => .ok []
  | member :: rest => do
    let place := elementAt location index
    let type :=
      match member.2.members? with
      | none => readType version (child place "type") member.2
      | some _ => readOwnType version (child place "type") member.2
    let field ←
      readFieldMembers version place (entryMembers "name" "type" member.1 member.2) type
    let fields ← readFieldEntries version location (index + 1) rest
    return field :: fields

/-- Reads the type that an object declares. -/
def readOwnType (version : DocumentVersion) (location : String) :
    Json → Reading (InputType × Bool)
  | .object members => readTypeAt version location "type" members
  | _ => missingType

end

end Invocation.Document
