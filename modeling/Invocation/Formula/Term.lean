import Invocation.Formula.Value

/-!
# Terms

The tree of a formula.
-/

namespace Invocation.Formula

/-- Operators that compute a value from two others. -/
inductive Operator where
  | add
  | subtract
  | multiply
  | divide
  | divideWhole
  | remainder
  | power
  | concatenate
  deriving DecidableEq, Inhabited

/-- Operators that compare two values. -/
inductive Comparison where
  | eq
  | ne
  | lt
  | le
  | gt
  | ge
  | isIn
  | notIn
  deriving DecidableEq, Inhabited

/-- How an argument is handed over: by its place, by a name, or as a list or a map of several arguments. -/
inductive ArgumentForm where
  | placed
  | named (name : String)
  | spread
  | spreadNamed
  deriving DecidableEq, Inhabited

/-- The tree of a formula. -/
inductive Term where
  | constant (value : Value)
  | name (name : String)
  | list (items : List Term)
  | map (entries : List (Term × Term))
  | member (term : Term) (name : String)
  | item (term key : Term)
  | slice (term : Term) (start stop step : Option Term)
  | negate (term : Term)
  | not (term : Term)
  | and (first second : Term)
  | or (first second : Term)
  | binary (operator : Operator) (first second : Term)
  /-- Comparisons of each value with the next one, all of which have to hold. -/
  | compare (first : Term) (links : List (Comparison × Term))
  | conditional (condition yes : Term) (no : Option Term)
  | filter (term : Term) (name : String) (arguments : List (ArgumentForm × Term))
  | test (term : Term) (name : String) (arguments : List (ArgumentForm × Term))
  /-- A call of a function by its name. -/
  | call (function : String) (arguments : List (ArgumentForm × Term))
  /-- A call of a method of a value. -/
  | callMethod (term : Term) (method : String) (arguments : List (ArgumentForm × Term))
  /-- A call of a named block of the document. -/
  | callBlock (name : String)
  /-- A call of a value. -/
  | callValue (term : Term) (arguments : List (ArgumentForm × Term))
  deriving Inhabited

namespace Term

/-- The call of what a term stands for: a function by its name, a block of the document, which is a method
of `self`, a method of another value, or else a value. -/
def called (term : Term) (arguments : List (ArgumentForm × Term)) : Term :=
  match term with
  | name function => call function arguments
  | member (name "self") block => callBlock block
  | member term method => callMethod term method arguments
  | term => callValue term arguments

end Term

end Invocation.Formula
