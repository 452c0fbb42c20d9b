import Invocation.Loading
import Invocation.Report

/-!
# The command line of the program

`Request.read` reads the arguments of the program, and `Request.run` does what they ask for with the files
that they name.  The result is an exit code and what is written to the standard streams.
-/

namespace Invocation

/-- What the program is asked for. -/
inductive Command where
  | render (tool job : String) (json : Bool)
  | validate (tool : String) (json : Bool)
  | checkWorkflow (workflow : String) (json : Bool)
  | version
  | help
  deriving DecidableEq, Inhabited

/-- A command with the path of the settings, if one is given. -/
structure Request where
  command : Command
  config : Option String
  deriving DecidableEq, Inhabited

/-- The end of a run: its exit code and what it has written. -/
structure Exit where
  code : Nat
  stdout : String
  stderr : String
  deriving DecidableEq, Inhabited

namespace Exit

/-- The code of a command that did what it was asked for. -/
def success : Nat := 0

/-- The code of an unusable document, job or settings file. -/
def invalid : Nat := 1

/-- The code of findings that count as failure, and of wrong arguments. -/
def findings : Nat := 2

/-- The code of a rendering that was cancelled. -/
def cancelled : Nat := 3

end Exit

/-! ## Arguments -/

namespace Request

/-- What the arguments of one level hold: the values of options, and the flags that are set. -/
structure Options where
  values : Entries String
  flags : List String
  deriving DecidableEq, Inhabited

/-- An option with the value that is written behind an equals sign. -/
def splitOption (argument : String) : String × Option String :=
  let name := argument.toList.takeWhile (· != '=')
  match argument.toList.drop name.length with
  | [] => (String.ofList name, none)
  | _ :: value => (String.ofList name, some (String.ofList value))

/-- The argument can be the value of an option: it is not empty and does not look like an option. -/
def isValue (argument : String) : Bool :=
  argument == "-" || !(argument.isEmpty || argument.startsWith "-")

/-- Reads options and flags up to the first argument that is neither; none when they are wrong.  No option
and no flag may be repeated. -/
def readOptions (valued flags : List String) (options : Options) :
    List String → Option (Options × List String)
  | [] => some (options, [])
  | argument :: rest =>
    if !argument.startsWith "--" || argument == "--" then some (options, argument :: rest)
    else
      match splitOption argument with
      | (name, some value) =>
        if valued.contains name && !options.values.hasKey name && !value.isEmpty then
          readOptions valued flags { options with values := options.values.put name value } rest
        else none
      | (name, none) =>
        if flags.contains name && !options.flags.contains name then
          readOptions valued flags { options with flags := name :: options.flags } rest
        else if valued.contains name && !options.values.hasKey name then
          match rest with
          | value :: rest =>
            if isValue value then
              readOptions valued flags { options with values := options.values.put name value } rest
            else none
          | [] => none
        else none

/-- The options of a command behind its name; nothing may follow them. -/
def readCommandOptions (valued : List String) (arguments : List String) : Option Options :=
  match readOptions ("--config" :: valued) ["--json"] ⟨[], []⟩ arguments with
  | some (options, []) => some options
  | some (options, ["--"]) => some options
  | _ => none

/-- The command with the given options. -/
def commandOf (name : String) (options : Options) : Option Command :=
  let json := options.flags.contains "--json"
  match name with
  | "render" =>
    match options.values.lookup "--tool", options.values.lookup "--job" with
    | some tool, some job => some (.render tool job json)
    | _, _ => none
  | "validate" => (options.values.lookup "--tool").map (.validate · json)
  | "check-workflow" => (options.values.lookup "--workflow").map (.checkWorkflow · json)
  | _ => none

/-- The options that a command takes values for. -/
def valuedOptions : String → Option (List String)
  | "render" => some ["--tool", "--job"]
  | "validate" => some ["--tool"]
  | "check-workflow" => some ["--workflow"]
  | _ => none

/-- Reads a command behind the options of the program, of which those behind the name win. -/
def readCommand (config : Option String) : List String → Option Request
  | [] => none
  | name :: rest =>
    if name = "help" then some ⟨.help, config⟩
    else do
      let valued ← valuedOptions name
      if rest.contains "--help" || rest.contains "-h" then return ⟨.help, config⟩
      let options ← readCommandOptions valued rest
      let command ← commandOf name options
      return ⟨command, (options.values.lookup "--config").or config⟩

/-- Reads the arguments of the program; none when they are wrong. -/
def read (arguments : List String) : Option Request :=
  let before := arguments.takeWhile fun argument ↦
    ["--version", "-V", "--help", "-h"].all (· ≠ argument)
  match readOptions ["--config"] [] ⟨[], []⟩ before with
  | none => none
  | some (options, rest) =>
    match rest, arguments.drop before.length with
    | [], argument :: _ =>
      if argument = "--version" ∨ argument = "-V" then some ⟨.version, none⟩
      else some ⟨.help, none⟩
    | rest, others => readCommand (options.values.lookup "--config") (rest ++ others)

/-! ## Running -/

/-- The file of settings when no path is given. -/
def defaultConfig : String := "cmdline.toml"

/-- The lines on the error stream for findings, errors first. -/
def findingLines (findings : Findings) : String :=
  String.join (findings.errors.map (fun finding ↦ "error: " ++ finding.line ++ "\n")
    ++ findings.warnings.map (fun finding ↦ "warning: " ++ finding.line ++ "\n"))

/-- Writes a result as JSON, or as text behind its findings. -/
def present (json : Bool) (value : Json) (text : String) (findings : Findings) (code : Nat) : Exit :=
  if json then ⟨code, value.pretty ++ "\n", ""⟩ else ⟨code, text, findingLines findings⟩

/-- The exit code for findings of a check. -/
def checkCode (findings : Findings) : Nat :=
  if findings.hasErrors then Exit.findings else Exit.success

/-- The exit code of a rendering. -/
def renderCode (settings : Settings) (assembled : Assembled) : Nat :=
  if assembled.cancelled then Exit.cancelled
  else if settings.failOnDiagnostics && assembled.findings.hasErrors then Exit.findings
  else Exit.success

/-- Puts the failure of settings into its context. -/
def loadSettings (file : File) : Except Failure Settings :=
  match file.settings with
  | .ok settings => .ok settings
  | .error failure => .error (.settings file.path failure)

/-- The text of the program's version. -/
def versionText : String := "cmdline 0.1.0\n"

/-- The text that explains the arguments. -/
def helpText : String :=
  "Render command lines from tool descriptions\n\n"
    ++ "Usage: cmdline [--config <CONFIG>] <COMMAND>\n\n"
    ++ "Commands:\n"
    ++ "  render --tool <TOOL> --job <JOB> [--json]\n"
    ++ "  validate --tool <TOOL> [--json]\n"
    ++ "  check-workflow --workflow <WORKFLOW> [--json]\n"

/-- Does what is asked for; `find` gives the file of a path. -/
def perform (find : String → File) (request : Request) : Except Failure Exit :=
  match request.command with
  | .version => .ok ⟨Exit.success, versionText, ""⟩
  | .help => .ok ⟨Exit.success, helpText, ""⟩
  | .render tool job json => do
    let settings ← loadSettings (find (request.config.getD defaultConfig))
    let assembled ← settings.render (find tool) (find job)
    return present json assembled.toJson (assembled.commandLine ++ "\n") assembled.findings
      (renderCode settings assembled)
  | .validate tool json => do
    let tool ← (find tool).tool
    let summary := tool.summary
    return present json summary.toJson (summary.line ++ "\n") summary.findings
      (checkCode summary.findings)
  | .checkWorkflow workflow json => do
    let workflow ← (find workflow).workflow
    let report := workflow.report
    return present json report.toJson (String.join (report.order.map (· ++ "\n"))) report.findings
      (checkCode report.findings)

/-- The run of a request. -/
def run (find : String → File) (request : Request) : Exit :=
  match request.perform find with
  | .ok result => result
  | .error failure => ⟨Exit.invalid, "", failure.line ++ "\n"⟩

/-- The run of the program for its arguments. -/
def runArguments (find : String → File) (arguments : List String) : Exit :=
  match read arguments with
  | some request => request.run find
  | none => ⟨Exit.findings, "", "error: invalid arguments\n\n" ++ helpText⟩

end Request

end Invocation
