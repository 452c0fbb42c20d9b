import Invocation.Script
import Invocation.Main
import Invocation.Proofs.Assembly.Failures
import Invocation.Proofs.Assembly.Interleaving
import Invocation.Proofs.Assembly.Unresolved
import Invocation.Proofs.Workflow.Connection
import Invocation.Proofs.Workflow.Declarations
import Invocation.Proofs.Workflow.Order
import Invocation.Proofs.Workflow.Report
import Invocation.Proofs.Template.Printing
import Invocation.Proofs.Rendering.Components
import Invocation.Proofs.Rendering.Static
import Invocation.Proofs.Rendering.Flags
import Invocation.Proofs.Rendering.InferredTypes
import Invocation.Proofs.Rendering.Arguments
import Invocation.Proofs.Rendering.EmptyTexts
import Invocation.Proofs.Rendering.Mismatches
import Invocation.Proofs.Rendering.Records
import Invocation.Proofs.Assembly.Evaluations
import Invocation.Proofs.Assembly.Scopes
import Invocation.Proofs.Job.Encoding
import Invocation.Proofs.Assembly.Literals
import Invocation.Proofs.Document.Places
import Invocation.Proofs.Json.Schema
import Invocation.Proofs.Assembly.Positions
import Invocation.Proofs.Document.DraftScript
import Invocation.Proofs.Document.DraftType
import Invocation.Proofs.Document.DraftTool
import Invocation.Proofs.Document.ItemContexts
import Invocation.Proofs.Document.Spellings
import Invocation.Proofs.Assembly.JobEntries
import Invocation.Proofs.Assembly.Schedule
import Invocation.Proofs.Workflow.Sources
import Invocation.Proofs.Document.Accepted
import Invocation.Proofs.Template.Grammar
import Invocation.Proofs.Workflow.StepOutputs
import Invocation.Proofs.Workflow.Rearrangement
import Invocation.Proofs.Workflow.Sorting
import Invocation.Proofs.Document.ListForms
import Invocation.Proofs.Document.WholeScripts
import Invocation.Proofs.Rendering.ScalarTexts
import Invocation.Proofs.Assembly.Attribution
import Invocation.Proofs.Assembly.Defaults
import Invocation.Proofs.Assembly.BoundInputs
import Invocation.Proofs.Document.DistinctPlaces
import Invocation.Proofs.Job.Reencoding
import Invocation.Proofs.Workflow.Bookkeeping
import Invocation.Proofs.Rendering.NestedLookups
import Invocation.Proofs.Template.Bytewise
