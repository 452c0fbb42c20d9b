import Invocation.Assembly
import Invocation.Document.Schema
import Invocation.Document.Tool
import Invocation.Document.Workflow
import Invocation.Formula.Evaluator
import Invocation.Json.Reader
import Invocation.Settings

/-!
# Loading files

Documents come from files.  A file is read, its text is parsed, checked against the schema of its kind and
read as a document; the first step that fails says why.  A failure is told as a chain, the outermost
context first.
-/

namespace Invocation

/-- A file: its path, and its contents when it exists. -/
structure File where
  path : String
  contents : Option String
  deriving DecidableEq, Inhabited

/-- Why a file cannot be used. -/
inductive Failure where
  | missing (path : String)
  | notJson (path : String) (fault : Json.Fault)
  | schema (path : String) (faults : List SchemaFault)
  | document (path : String) (error : DocumentError)
  | jobNotObject (path : String)
  | notSettings (path : String) (fault : SettingsFault)
  | rule (rule : SettingsRule)
  | settings (path : String) (failure : Failure)
  deriving Inhabited

namespace Failure

/-- The faults of a schema in one text. -/
def schemaText (faults : List SchemaFault) : String :=
  "schema validation failed:\n- " ++ String.intercalate "\n- " (faults.map SchemaFault.message)

/-- The failure as a chain of contexts and the cause. -/
def chain : Failure → List String
  | .missing path => ["read " ++ path, "No such file or directory (os error 2)"]
  | .notJson path fault => ["parse " ++ path, fault.message]
  | .schema path faults => ["validate " ++ path, schemaText faults]
  | .document path error => ["decode " ++ path, error.line]
  | .jobNotObject path => ["job " ++ path ++ " must be a JSON object"]
  | .notSettings path fault => ["parse " ++ path, fault.message]
  | .rule broken => [broken.message]
  | .settings path failure => ("load config " ++ path) :: chain failure

/-- The failure in one line of text. -/
def line (failure : Failure) : String :=
  String.intercalate ": " failure.chain

end Failure

namespace File

/-- The text of a file. -/
def text (file : File) : Except Failure String :=
  match file.contents with
  | some text => .ok text
  | none => .error (.missing file.path)

/-- The JSON value of a file. -/
def json (file : File) : Except Failure Json := do
  let text ← file.text
  match Json.read text with
  | .ok value => return value
  | .error fault => .error (.notJson file.path fault)

/-- The document of a file that keeps a schema. -/
def document {α : Type} (schema : Schema) (read : Json → Document.Reading α) (file : File) :
    Except Failure α := do
  let value ← file.json
  match schema.faults value with
  | [] =>
    match read value with
    | .ok document => return document
    | .error error => .error (.document file.path error)
  | faults => .error (.schema file.path faults)

/-- The tool of a file. -/
def tool : File → Except Failure Tool :=
  document Document.toolSchema Document.readTool

/-- The workflow of a file. -/
def workflow : File → Except Failure Workflow :=
  document Document.workflowSchema Document.readWorkflow

/-- The job of a file, which has to be an object. -/
def job (file : File) : Except Failure JobValue := do
  let value ← file.json
  match value with
  | .object _ => return .ofJson value
  | _ => .error (.jobNotObject file.path)

/-- The settings of a file that keep the rules; a missing file has the defaults. -/
def settings (file : File) : Except Failure Settings :=
  match file.contents with
  | none => .ok {}
  | some text =>
    match Settings.read text with
    | .error fault => .error (.notSettings file.path fault)
    | .ok settings =>
      match settings.check with
      | .error rule => .error (.rule rule)
      | .ok () => .ok settings

end File

namespace Settings

/-- The command line of the tool of a file for the job of another one. -/
def render (settings : Settings) (tool job : File) : Except Failure Assembled := do
  let tool ← tool.tool
  let job ← job.job
  return tool.assemble (Formula.evaluator settings.expressionFuel) job settings.runtime

end Settings

end Invocation
