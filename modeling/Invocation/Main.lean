import Invocation.CommandLine

/-!
# The program

Reads the files that a request names, and writes the result to the standard streams.
-/

open Invocation

/-- The file at a path, with its contents when it can be read. -/
def readFile (path : String) : IO File := do
  try
    let contents ← IO.FS.readFile path
    return ⟨path, some contents⟩
  catch _ => return ⟨path, none⟩

/-- The paths of the files that a request may need. -/
def pathsOf (request : Request) : List String :=
  match request.command with
  | .render tool job _ => [request.config.getD Request.defaultConfig, tool, job]
  | .validate tool _ => [tool]
  | .checkWorkflow workflow _ => [workflow]
  | .version => []
  | .help => []

/-- Runs the program. -/
def main (arguments : List String) : IO UInt32 := do
  let paths := (Request.read arguments).elim [] pathsOf
  let files ← paths.mapM readFile
  let find (path : String) : File := (files.find? (·.path == path)).getD ⟨path, none⟩
  let result := Request.runArguments find arguments
  IO.print result.stdout
  IO.eprint result.stderr
  return UInt32.ofNat result.code
