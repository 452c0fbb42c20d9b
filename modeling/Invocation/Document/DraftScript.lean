import Invocation.Text.Blank
import Invocation.Text.Word

/-!
# Scripts of draft documents

A draft document writes an expression as a script that calls the job `$job` and the value at hand
`$self`.  Its source drops the dollar sign of these names and stands in `$(` and `)`, or behind a lone
dollar sign when the script is a function body.
-/

namespace Invocation.Document

/-- The name stands in front of the text and ends a word there. -/
def mentions (name text : List Char) : Bool :=
  name.isPrefixOf text && Text.atWordEnd (text.drop name.length)

/-- Replaces every mention of a name, from left to right; `skip` characters of a replaced mention are
still to be dropped. -/
def replaceFrom (name replacement : List Char) : Nat → List Char → List Char
  | _, [] => []
  | skip + 1, _ :: rest => replaceFrom name replacement skip rest
  | 0, c :: rest =>
    if mentions name (c :: rest) then
      replacement ++ replaceFrom name replacement (name.length - 1) rest
    else c :: replaceFrom name replacement 0 rest

/-- The text with every mention of a name replaced. -/
def replaceMentions (name replacement : String) (text : List Char) : List Char :=
  replaceFrom name.toList replacement.toList 0 text

/-- The script with the names that expressions know. -/
def renamed (script : List Char) : List Char :=
  replaceMentions "$self" "self"
    (replaceMentions "$job.allocatedResources" "runtime"
      (replaceMentions "$job.inputs" "inputs" script))

/-- The source of an expression that is written as a script. -/
def scriptSource (script : String) : String :=
  match renamed (Text.trimChars script.toList) with
  | '\x7b' :: rest => String.ofList ('$' :: '\x7b' :: rest)
  | body => "$(" ++ String.ofList body ++ ")"

end Invocation.Document
