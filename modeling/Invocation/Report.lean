import Invocation.Assembly
import Invocation.Document.Workflow
import Invocation.Tool.Summary

/-!
# Reports

The JSON forms of what the program finds out: assembled command lines, summaries of tools and reports on
workflows.
-/

namespace Invocation

/-- A list of strings as JSON. -/
def Json.strings (texts : List String) : Json :=
  .array (texts.map .string)

/-- A natural number as JSON. -/
def Json.nat (n : Nat) : Json :=
  .number (.int n)

namespace Fragment

/-- The fragment as JSON. -/
def toJson (fragment : Fragment) : Json :=
  .object [("text", .string fragment.text), ("type_tag", .string fragment.tag),
    ("location", .string fragment.location)]

end Fragment

namespace Finding

/-- The finding as JSON. -/
def toJson (finding : Finding) : Json :=
  .object [("location", .string finding.location), ("message", .string finding.message),
    ("issue", .string finding.issue.name)]

end Finding

namespace Findings

/-- The findings as JSON. -/
def toJson (findings : Findings) : Json :=
  .object [("errors", .array (findings.errors.map Finding.toJson)),
    ("warnings", .array (findings.warnings.map Finding.toJson))]

end Findings

namespace Assembled

/-- The command line as JSON. -/
def toJson (assembled : Assembled) : Json :=
  .object [("command_line", .string assembled.commandLine),
    ("fragments", .array (assembled.fragments.map Fragment.toJson)),
    ("validation", assembled.findings.toJson),
    ("cancelled", .bool assembled.cancelled)]

end Assembled

namespace ToolSummary

/-- The summary as JSON. -/
def toJson (summary : ToolSummary) : Json :=
  .object [("version", .string summary.version.name),
    ("inputs", .nat summary.inputs),
    ("bound_inputs", .nat summary.boundInputs),
    ("optional_inputs", .nat summary.optionalInputs),
    ("arguments", .nat summary.arguments),
    ("validation", summary.findings.toJson)]

/-- The counts of the summary in one line of text. -/
def line (summary : ToolSummary) : String :=
  summary.version.name ++ ": " ++ toString summary.inputs ++ " inputs ("
    ++ toString summary.boundInputs ++ " bound, " ++ toString summary.optionalInputs
    ++ " optional), " ++ toString summary.arguments ++ " arguments"

end ToolSummary

namespace WorkflowReport

/-- The report as JSON. -/
def toJson (report : WorkflowReport) : Json :=
  .object [("order", .strings report.order), ("validation", report.findings.toJson)]

end WorkflowReport

end Invocation
