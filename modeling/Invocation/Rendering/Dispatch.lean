import Invocation.Rendering.Basic
import Invocation.Tool.Description
import Invocation.Tool.Matching
import Invocation.Tool.Summary

/-!
# Rendering by type

`Target.render` turns an input, an argument or a redirection into a rendering.  The type of an input
decides how: a flag stands alone or before an evaluated text, a list and a record render their elements
and fields like inputs of their own and join the texts, every other value is written as text.  A failure
never stops a rendering: it leaves a token in the text and an error in the findings, and a value that
does not fit its type leaves a warning.
-/

namespace Invocation

/-- What is rendered. -/
inductive Target where
  | input (input : Input)
  | argument (argument : Argument)
  | stream (stream : Stream)
  deriving Inhabited

/-- The place of the declaration. -/
def Target.location : Target → String
  | .input declared => declared.location
  | .argument declared => declared.location
  | .stream declared => declared.location

/-- The value that is rendered: the given one, else the job's value for the id.  Null counts as no value,
given or found. -/
def resolveValue (id : String) (job : JobValue) (given : Option JobValue) : Option JobValue :=
  ((given.filter fun value ↦ !value.isNull).or (job.get? id)).filter fun value ↦ !value.isNull

namespace Rendered

/-- The text of an input. -/
def ofText (text location : String) : Rendered :=
  .ofFragment ⟨text, Fragment.inputTag, location⟩

/-- A failed evaluation: its token on the command line and an error at the given place. -/
def failed (error : EvaluationError) (location : String) : Rendered :=
  ⟨some (.diagnostic error.kind error.location location),
    .error .expressionEvaluationError location error.line⟩

/-- A type without a meaning has an empty text and leaves a warning. -/
def unresolved (id location tag : String) : Rendered :=
  ⟨some ⟨"", Fragment.nullTag, location⟩,
    unresolvedType id location tag⟩

/-- The text of a value behind the flag of its binding. -/
def leaf (binding : Binding) (location : String) (value : JobValue) : Rendered :=
  .ofText (binding.attach binding.flagText value.unwrapFile.text) location

/-- The texts of the parts that have a fragment, behind the flag of the binding.  Without any the text is
empty, so that no flag stands alone. -/
def composite (binding : Binding) (location separator : String) (parts : List Rendered) : Rendered :=
  let texts := parts.filterMap text?
  let text :=
    if texts.isEmpty then "" else binding.attach binding.flagText (String.intercalate separator texts)
  ⟨some ⟨text, Fragment.inputTag, location⟩, .concat (parts.map findings)⟩

/-- The tag of an input becomes that of an argument. -/
def asArgument (result : Rendered) : Rendered :=
  { result with
    fragment := result.fragment.map fun fragment ↦
      if fragment.tag = Fragment.inputTag then { fragment with tag := Fragment.argumentTag }
      else fragment }

end Rendered

namespace InputType

/-- The name of what a type expects: an array may also get one of its items. -/
def expectation (type : InputType) : String :=
  match type.items? with
  | some items => type.tag ++ " or " ++ items.tag
  | none => type.tag

/-- The value fits the type, or the type of the items of an array. -/
def admits (type : InputType) (value : JobValue) : Bool :=
  type.accepts value || (type.items?.any fun items ↦ items.accepts value)

/-- A warning for a value that does not fit its type. -/
def mismatch (type : InputType) (id location : String) (value : JobValue) : Findings :=
  if type.admits value then .none
  else
    .warning .typeMismatch location
      ("mismatched value and type definition for " ++ id ++ ": expected " ++ type.expectation
        ++ ", got " ++ value.kindName)

end InputType

namespace JobValue

/-- The elements that an array type renders: those of a list, or the value alone. -/
def elements : JobValue → List JobValue
  | .list items => items
  | value => [value]

/-- The entries that a record type renders: those of a mapping, or none. -/
def entries : JobValue → Entries JobValue
  | .mapping entries => entries
  | _ => []

end JobValue

/-- A warning for each entry that is no field of a record. -/
def undeclared (fields : List Input) (id location : String) (entries : Entries JobValue) : Findings :=
  ⟨[], (entries.keys.filter fun key ↦ !fields.any fun field ↦ field.id == key).map fun key ↦
    ⟨location, "field '" ++ key ++ "' is not declared by " ++ id, .undeclaredField⟩⟩

namespace Rendering

/-- Waits for an evaluation; a failure is final, and a value goes on. -/
def evaluate (expression : Expression) (scope : Scope) (location : String)
    (use : JobValue → Rendering) : Rendering :=
  .wait ⟨expression, scope⟩ fun
    | .error error => .done (.failed error location)
    | .ok value => use value

/-- A flag: no text for a value that turns it off, else the flag alone or before the text of an
expression that sees the value as `self`. -/
def flag (itemsContext : Option Binding) (binding : Binding) (location : String) (value : JobValue)
    (scope : Scope) : Rendering :=
  if !value.isTruthy then .done (.ofText "" location)
  else
    let flag := (itemsContext.getD binding).flagText
    match binding.valueFrom with
    | none => .done (.ofText flag location)
    | some expression =>
      evaluate expression (scope.withSelf value) location fun result ↦
        .done (.ofText (binding.attach flag result.unwrapFile.text) location)

end Rendering

namespace InputType

mutual

/-- Renders the value of a parameter with the given type, id, binding and place. -/
def render (type : InputType) (id : String) (binding : Binding) (location : String) (job : JobValue)
    (given : Option JobValue) (scope : Scope) : Rendering :=
  match type with
  | .unresolved tag => .done (.unresolved id location tag)
  | .primitive kind =>
    match resolveValue id job given with
    | none => .done .nothing
    | some value =>
      .done ((Rendered.leaf binding location value).after
        ((InputType.primitive kind).mismatch id location value))
  | .enum symbols =>
    match resolveValue id job given with
    | none => .done .nothing
    | some value =>
      .done ((Rendered.leaf binding location value).after
        ((InputType.enum symbols).mismatch id location value))
  | .boolean itemsContext =>
    match resolveValue id job given with
    | none => .done .nothing
    | some value =>
      (Rendering.flag itemsContext binding location value scope).map
        (.after ((InputType.boolean itemsContext).mismatch id location value))
  | .array items itemBinding =>
    match resolveValue id job given with
    | none => .done .nothing
    | some value =>
      let elements := value.elements
      let siblings := JobValue.list (elements.map JobValue.unwrapFile)
      let parts := elements.mapIdx fun index element ↦
        render items (toString index) (itemBinding.getD .plain) (elementLocation location index)
          siblings (some element) (scope.within siblings element)
      .join parts fun results ↦
        (Rendered.composite binding location binding.itemSeparator results).after
          ((InputType.array items itemBinding).mismatch id location value)
  | .record fields =>
    match resolveValue id job given with
    | none => .done .nothing
    | some value =>
      let entries := value.entries
      .join (renderFields fields entries scope) fun results ↦
        (Rendered.composite binding location " " results).after
          ((InputType.record fields).mismatch id location value
            ++ undeclared fields id location entries)

/-- Renders the fields that have an entry, in the order of their declaration. -/
def renderFields (fields : List (Parameter InputType)) (entries : Entries JobValue) (scope : Scope) :
    List Rendering :=
  match fields with
  | [] => []
  | ⟨id, type, binding, location⟩ :: rest =>
    match entries.lookup id with
    | none => renderFields rest entries scope
    | some value =>
      render type id binding location (.mapping entries) (some value)
          (scope.within (.mapping entries) value)
        :: renderFields rest entries scope

end

end InputType

namespace Input

/-- Renders an input: the given value, else the job's value for its id. -/
def render (input : Input) (job : JobValue) (given : Option JobValue) (scope : Scope) : Rendering :=
  input.type.render input.id input.binding input.location job given scope

end Input

namespace Argument

/-- Renders a value without a declared type behind the flag of the argument. -/
def renderValue (argument : Argument) (job : JobValue) (scope : Scope) (value : JobValue) : Rendering :=
  ((InputType.infer value).render argument.location { argument.binding with valueFrom := none }
    argument.location job (some value) scope).map .asArgument

/-- Renders an argument: its literal text, else the value of its expression, else its flag alone. -/
def render (argument : Argument) (job : JobValue) (scope : Scope) : Rendering :=
  match argument.literal with
  | some text => .done (.ofFragment ⟨text, Fragment.argumentTag, argument.location⟩)
  | none =>
    match argument.binding.valueFrom with
    | none =>
      .done (.ofFragment ⟨argument.binding.flagText, Fragment.argumentTag, argument.location⟩)
    | some expression =>
      .evaluate expression scope argument.location (argument.renderValue job scope)

end Argument

namespace Stream

/-- The redirection to a value; one that is off contributes nothing. -/
def rendered (stream : Stream) (value : JobValue) : Rendered :=
  if value.isTruthy then
    .ofFragment ⟨stream.kind.operator ++ value.unwrapFile.text, stream.kind.name, stream.location⟩
  else .nothing

/-- Renders a redirection. -/
def render (stream : Stream) (scope : Scope) : Rendering :=
  .evaluate stream.expression scope stream.location fun value ↦ .done (stream.rendered value)

end Stream

namespace Target

/-- Renders a target.  A given value of an input takes the place of the job's. -/
def render (target : Target) (job : JobValue) (given : Option JobValue) (scope : Scope) : Rendering :=
  match target with
  | .input declared => Input.render declared job given scope
  | .argument declared => declared.render job scope
  | .stream declared => declared.render scope

end Target

end Invocation
