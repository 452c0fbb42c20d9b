import Invocation.Json.Schema

/-!
# Schemas of documents

The rules that tool documents and workflow documents keep before they are read.  They fix the coarse form
only: the form of types, for one, is left to the reader.
-/

namespace Invocation.Document

/-- The value is a string. -/
def stringSchema : Schema := .type [.string]

/-- A list, or an object that stands for one. -/
def listingSchema : Schema := .type [.array, .object]

/-- An expression: a source, or an object with a script. -/
def expressionSchema : Schema :=
  .oneOf [stringSchema,
    .all [.type [.object],
      .properties [("class", .const "Expression"), ("script", stringSchema)],
      .required ["class", "script"]]]

/-- A binding. -/
def bindingSchema : Schema :=
  .all [.type [.object],
    .properties [("position", .type [.integer]),
      ("prefix", stringSchema),
      ("separate", .type [.boolean]),
      ("itemSeparator", stringSchema),
      ("valueFrom", .oneOf [expressionSchema, .type [.number], .type [.boolean]])]]

/-- An input in a list of inputs. -/
def inputSchema : Schema :=
  .all [.type [.object],
    .properties [("id", stringSchema), ("inputBinding", bindingSchema)],
    .required ["id"]]

/-- A tool. -/
def toolSchema : Schema :=
  .all [.type [.object],
    .properties [("cwlVersion", stringSchema),
      ("class", stringSchema),
      ("id", stringSchema),
      ("baseCommand", .oneOf [stringSchema, .all [.type [.array], .items stringSchema]]),
      ("inputs", .oneOf [.all [.type [.array], .items inputSchema], .type [.object]]),
      ("arguments", .all [.type [.array], .items (.oneOf [stringSchema, bindingSchema])]),
      ("stdin", expressionSchema),
      ("stdout", expressionSchema)],
    .required ["inputs"]]

/-- A workflow. -/
def workflowSchema : Schema :=
  .all [.type [.object],
    .properties [("cwlVersion", stringSchema),
      ("class", stringSchema),
      ("inputs", listingSchema),
      ("outputs", listingSchema),
      ("steps", listingSchema)],
    .required ["steps"]]

end Invocation.Document
