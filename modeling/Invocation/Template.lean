import Invocation.Evaluation

/-!
# Templates

A template is text with references.  A reference is a formula between `$(` and the first closing
parenthesis at which the parentheses outside of quoted strings balance; a dollar sign behind a backslash
is literal.  `segments` splits a template in one pass, and `evaluate` puts the values of the references in
their places.
-/

namespace Invocation.Template

/-- A piece of a template. -/
inductive Segment where
  | text (content : List Char)
  | reference (body : List Char)
  deriving DecidableEq, Inhabited

/-- Why a text is no template. -/
inductive Fault where
  | functionBody
  | unterminated
  deriving DecidableEq, Inhabited

/-- The fault in words. -/
def Fault.message : Fault → String
  | functionBody => "function bodies are not supported"
  | unterminated => "unterminated parameter reference"

/-- The fault as an error of an expression at a place. -/
def Fault.error (fault : Fault) (location : String) : EvaluationError :=
  ⟨"SyntaxError", location, fault.message⟩

/-! ## Splitting -/

/-- What is open inside a reference: a number of parentheses, and the quotation mark of a string.  Inside a
string a backslash takes the next character along. -/
structure Nesting where
  depth : Nat
  quote : Option Char
  escaped : Bool
  deriving DecidableEq, Inhabited

namespace Nesting

/-- Behind the opening parenthesis of a reference. -/
def opening : Nesting := ⟨1, none, false⟩

/-- Inside a string that the given mark closes. -/
def insideString (nesting : Nesting) (quote c : Char) : Nesting :=
  if nesting.escaped then { nesting with escaped := false }
  else if c = '\\' then { nesting with escaped := true }
  else if c = quote then { nesting with quote := none }
  else nesting

/-- What is open behind a character, or nothing when the character closes the reference. -/
def next? (nesting : Nesting) (c : Char) : Option Nesting :=
  match nesting.quote with
  | some quote => some (nesting.insideString quote c)
  | none =>
    if c = '\'' ∨ c = '"' then some { nesting with quote := some c }
    else if c = '(' then some { nesting with depth := nesting.depth + 1 }
    else if c = ')' then
      if nesting.depth = 1 then none else some { nesting with depth := nesting.depth - 1 }
    else some nesting

end Nesting

/-- Where a character of a template stands: in a run of text or in a reference, whose characters so far are
kept backward. -/
inductive Mode where
  | text (run : List Char)
  | reference (nesting : Nesting) (body : List Char)
  deriving DecidableEq

/-- The segment of a run of text, which is dropped when it is empty. -/
def flush (run : List Char) : List Segment :=
  if run.isEmpty then [] else [.text run.reverse]

/-- Splits the characters of a template. -/
def scan : Mode → List Char → Except Fault (List Segment)
  | .text run, [] => .ok (flush run)
  | .reference .., [] => .error .unterminated
  | .text run, '\\' :: '$' :: rest => (scan (.text ['$']) rest).map (flush run ++ ·)
  | .text _, '$' :: '\x7b' :: _ => .error .functionBody
  | .text run, '$' :: '(' :: rest => (scan (.reference .opening []) rest).map (flush run ++ ·)
  | .text run, c :: rest => scan (.text (c :: run)) rest
  | .reference nesting body, c :: rest =>
    match nesting.next? c with
    | some nesting => scan (.reference nesting (c :: body)) rest
    | none => (scan (.text []) rest).map (.reference body.reverse :: ·)

/-- The segments of a template. -/
def segments (source : String) : Except Fault (List Segment) :=
  scan (.text []) source.toList

/-! ## Evaluation -/

/-- The text of a value between other text: a string as it is, everything else as JSON. -/
def interpolated : Json → String
  | .string s => s
  | value => value.compact

/-- The text of a segment. -/
def segmentText (value : String → Except EvaluationError Json) :
    Segment → Except EvaluationError String
  | .text content => .ok (String.ofList content)
  | .reference body => (value (String.ofList body)).map interpolated

/-- The value of segments.  A reference that stands alone keeps its value; otherwise the texts are
joined. -/
def fill (value : String → Except EvaluationError Json) : List Segment → Outcome
  | [.reference body] => (value (String.ofList body)).map JobValue.ofJson
  | segments => (segments.mapM (segmentText value)).map fun texts ↦ .string (String.join texts)

/-- The value of a template at a place, given the values of references. -/
def evaluate (value : String → Except EvaluationError Json) (source location : String) : Outcome :=
  match segments source with
  | .error fault => .error (fault.error location)
  | .ok segments => fill value segments

/-- Evaluates expressions as templates, given the values that references have in a scope and at the place of
their expression. -/
def evaluator (value : Scope → String → String → Except EvaluationError Json) : Evaluator := fun call ↦
  evaluate (value call.scope call.expression.location) call.expression.source call.expression.location

end Invocation.Template
