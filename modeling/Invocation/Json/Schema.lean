import Invocation.Json.Writer

/-!
# Schemas of JSON values

A schema is a rule that a JSON value keeps or breaks.  `Schema.faults` lists the rules that a value
breaks, and `Schema.accepts` says that there are none.  A rule about the members of an object or the items
of an array holds of every other value.
-/

namespace Invocation

/-- The types of JSON values that a schema tells apart. -/
inductive JsonType where
  | string
  | array
  | object
  | integer
  | number
  | boolean
  deriving DecidableEq, Inhabited

namespace JsonType

/-- The name of the type. -/
def name : JsonType → String
  | string => "string"
  | array => "array"
  | object => "object"
  | integer => "integer"
  | number => "number"
  | boolean => "boolean"

/-- The value has the type; a double without a fraction is an integer. -/
def accepts : JsonType → Json → Bool
  | string, .string _ => true
  | array, .array _ => true
  | object, .object _ => true
  | integer, .number n => n.isIntegral
  | number, .number _ => true
  | boolean, .bool _ => true
  | _, _ => false

end JsonType

/-- A rule for JSON values. -/
inductive Schema where
  /-- The value has one of the types. -/
  | type (types : List JsonType)
  /-- The value is this string. -/
  | const (text : String)
  /-- The members of an object keep their schemas. -/
  | properties (schemas : List (String × Schema))
  /-- An object has the members. -/
  | required (names : List String)
  /-- The items of an array keep the schema. -/
  | items (schema : Schema)
  /-- The value keeps exactly one of the schemas. -/
  | oneOf (schemas : List Schema)
  /-- The value keeps all the schemas. -/
  | all (schemas : List Schema)
  deriving Inhabited

/-- A rule that a value breaks. -/
inductive SchemaFault where
  | type (value : Json) (types : List JsonType)
  | const (text : String)
  | required (name : String)
  | noneOf (value : Json)
  | severalOf (value : Json)
  deriving Inhabited

namespace SchemaFault

/-- A name between quotation marks. -/
def quotedName (type : JsonType) : String :=
  "\"" ++ type.name ++ "\""

/-- The fault in words. -/
def message : SchemaFault → String
  | .type value [expected] => value.compact ++ " is not of type " ++ quotedName expected
  | .type value types =>
    value.compact ++ " is not of types " ++ String.intercalate ", " (types.map quotedName)
  | .const text => Json.stringText text ++ " was expected"
  | .required name => Json.stringText name ++ " is a required property"
  | .noneOf value =>
    value.compact ++ " is not valid under any of the schemas listed in the 'oneOf' keyword"
  | .severalOf value =>
    value.compact ++ " is valid under more than one of the schemas listed in the 'oneOf' keyword"

end SchemaFault

namespace Schema

mutual

/-- The rules that a value breaks, in the order of the schema. -/
def faults : Schema → Json → List SchemaFault
  | .type types, value => if types.any (·.accepts value) then [] else [.type value types]
  | .const text, value => if value.isString text then [] else [.const text]
  | .properties schemas, value => memberFaults schemas (value.members?.getD [])
  | .required names, .object members =>
    (names.filter fun name ↦ !Entries.hasKey members name).map .required
  | .required _, _ => []
  | .items schema, .array values => values.flatMap (faults schema)
  | .items _, _ => []
  | .oneOf schemas, value =>
    match (allFaults schemas value).countP List.isEmpty with
    | 0 => [.noneOf value]
    | 1 => []
    | _ => [.severalOf value]
  | .all schemas, value => (allFaults schemas value).flatten

/-- The faults of the members that have a schema, in the order of the schemas. -/
def memberFaults : List (String × Schema) → Entries Json → List SchemaFault
  | [], _ => []
  | schema :: rest, members =>
    (match members.lookup schema.1 with
      | some value => faults schema.2 value
      | none => []) ++ memberFaults rest members

/-- The faults for each of several schemas. -/
def allFaults : List Schema → Json → List (List SchemaFault)
  | [], _ => []
  | schema :: rest, value => faults schema value :: allFaults rest value

end

/-- The value breaks no rule. -/
def accepts (schema : Schema) (value : Json) : Bool :=
  (schema.faults value).isEmpty

end Schema

end Invocation
