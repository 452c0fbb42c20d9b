import Invocation.Rendering.Clock
import Invocation.Rendering.Dispatch

/-!
# Assembly of a command line

The entries of a command line are the arguments and the inputs with a position, in the order of their
positions, followed by the redirections.  Each is rendered by itself, and `gather` puts the results of the
entries that were not dropped one behind the other.  Which entries are dropped is the only thing that
depends on time: `assemble` drops none, `assembleTimed` those that are late.
-/

namespace Invocation

/-- A piece of a command line with its position.  The inputs of one position are ordered by their ids,
behind the arguments of that position, which have no id. -/
structure Entry where
  position : Int
  id : Option String
  target : Target
  deriving Inhabited

namespace Entry

/-- The first entry may stand before the second one. -/
def precedes (first second : Entry) : Bool :=
  first.position < second.position
    || (first.position == second.position
      && match first.id, second.id with
        | none, _ => true
        | some _, none => false
        | some a, some b => a ≤ b)

end Entry

namespace Tool

/-- The entries of the arguments. -/
def argumentEntries (tool : Tool) : List Entry :=
  tool.arguments.map fun argument ↦ ⟨argument.position, none, .argument argument.argument⟩

/-- The entries of the inputs with a position. -/
def inputEntries (tool : Tool) : List Entry :=
  tool.inputs.filterMap fun input ↦
    input.position.map fun position ↦ ⟨position, some input.input.id, .input input.input⟩

/-- The redirections, of the standard input first. -/
def redirections (tool : Tool) : List Target :=
  (tool.stdin.toList ++ tool.stdout.toList).map .stream

/-- What a command line is made of, in its order.  The sort is stable, so arguments of one position keep
the order of their declaration, and so do inputs with one position and one id. -/
def targets (tool : Tool) : List Target :=
  ((tool.argumentEntries ++ tool.inputEntries).mergeSort Entry.precedes).map Entry.target
    ++ tool.redirections

/-- The entries with the default of an input, which takes the place of an absent value and of null. -/
def withDefault (entries : Entries JobValue) (input : ToolInput) : Entries JobValue :=
  match input.default with
  | none => entries
  | some value =>
    match entries.lookup input.input.id with
    | none | some .null => entries.put input.input.id value
    | some _ => entries

/-- The job with the defaults of the inputs.  A job that is no mapping counts as an empty one. -/
def withDefaults (tool : Tool) (job : JobValue) : JobValue :=
  .mapping (tool.inputs.foldl withDefault job.entries)

/-- The renderings of the entries, for a job that has its defaults. -/
def renderings (tool : Tool) (job : JobValue) (runtime : Runtime) : List Rendering :=
  tool.targets.map fun target ↦ target.render job none (.top job runtime)

end Tool

/-- A command line with the fragments it is made of and the findings met on the way. -/
structure Assembled where
  commandLine : String
  fragments : List Fragment
  findings : Findings
  /-- Some entry was dropped. -/
  cancelled : Bool
  deriving DecidableEq, Inhabited

/-- The words of a command line: the base command, then the texts of the fragments that are not blank. -/
def commandWords (baseCommand : List String) (fragments : List Fragment) : List String :=
  baseCommand ++ (fragments.filter fun fragment ↦ !fragment.isBlank).map Fragment.word

/-- Puts the results of the entries together; an entry that was dropped has none. -/
def gather (baseCommand : List String) (outcomes : List (Option Rendered)) : Assembled :=
  let kept := outcomes.filterMap id
  let fragments := kept.filterMap Rendered.fragment
  ⟨String.intercalate " " (commandWords baseCommand fragments), fragments,
    .concat (kept.map Rendered.findings), outcomes.any Option.isNone⟩

namespace Tool

/-- The command line of a tool for a job. -/
def assemble (evaluator : Evaluator) (tool : Tool) (job : JobValue) (runtime : Runtime) : Assembled :=
  gather tool.baseCommand
    ((tool.renderings (tool.withDefaults job) runtime).map fun rendering ↦
      some (rendering.run evaluator))

/-- The result, unless it is finished too late. -/
def inTime (deadline : Option Nat) (timed : Timed Rendered) : Option Rendered :=
  match deadline with
  | none => some timed.result
  | some deadline => if timed.finished < deadline then some timed.result else none

/-- Runs renderings that are started together and drops those that are late; the numbers of the
evaluations go through all of them. -/
def beforeDeadline (clock : Clock) (deadline : Option Nat) :
    Nat → List Rendering → List (Option Rendered)
  | _, [] => []
  | number, rendering :: rest =>
    let timed := rendering.timed clock number
    inTime deadline timed :: beforeDeadline clock deadline timed.next rest

/-- The command line of a tool for a job when every entry is dropped that is not finished before the
deadline. -/
def assembleTimed (clock : Clock) (deadline : Option Nat) (tool : Tool) (job : JobValue)
    (runtime : Runtime) : Assembled :=
  gather tool.baseCommand
    (beforeDeadline clock deadline 0 (tool.renderings (tool.withDefaults job) runtime))

end Tool

end Invocation
