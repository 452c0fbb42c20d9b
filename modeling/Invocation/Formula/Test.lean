import Invocation.Formula.Arguments

/-!
# Tests

The questions that `is` asks of a value.  `Test.questions`, `Test.textQuestions` and `divisibleby` are all that
formulas know here.  Left out are the other tests that are built into the template language: the comparisons
(`eq`, `equalto`, `ne`, `lt`, `lessthan`, `le`, `gt`, `greaterthan`, `ge` and their signs), `in`, `sameas`,
`true`, `false`, `lower`, `upper`, `iterable`, `safe`, `escaped`, `filter` and `test`.  A formula with one of
them may have a value in that language; here it has the fault of an unknown test.
-/

namespace Invocation.Formula

/-- The value as a multiple of another one. -/
def Value.isMultiple (value divisor : Value) : Bool :=
  match Value.matched? Value.toExactDouble? value divisor with
  | some (.ints a b) => b != 0 && a % b == 0
  | some (.doubles a b) => (a.rem b).isZero
  | _ => false

/-- The remainder of a whole number by two. -/
def Value.parity? (value : Value) : Option Int :=
  value.toInt?.map (· % 2)

namespace Test

/-- A question that needs nothing but the value. -/
abbrev Question := Value → Bool

/-- The questions about a value alone; the head of the module names those that are left out. -/
def questions : List (String × Question) :=
  [("defined", fun value ↦ !value.isUndefined),
    ("undefined", Value.isUndefined),
    ("none", fun value ↦ value.kind == .none),
    ("number", fun value ↦ value.kind == .number),
    ("integer", fun value ↦ value matches .int _ _),
    ("float", fun value ↦ value matches .double _),
    ("string", fun value ↦ value.kind == .string),
    ("boolean", fun value ↦ value.kind == .bool),
    ("mapping", fun value ↦ value.kind == .map),
    ("sequence", fun value ↦ value.kind == .sequence),
    ("odd", fun value ↦ value.parity? == some 1),
    ("even", fun value ↦ value.parity? == some 0)]

/-- The questions about a text and another one. -/
def textQuestions : List (String × (List Char → List Char → Bool)) :=
  [("startingwith", fun text part ↦ part.isPrefixOf text),
    ("endingwith", fun text part ↦ part.isSuffixOf text)]

/-- The test has a meaning. -/
def isKnown (name : String) : Bool :=
  (questions.lookup name).isSome || (textQuestions.lookup name).isSome || name == "divisibleby"

/-- The answer of a test. -/
def ask (name : String) (value : Value) (arguments : Arguments) : Except Fault Bool :=
  match questions.lookup name with
  | some question => do
    arguments.expectNone
    return question value
  | none =>
    match textQuestions.lookup name with
    | some question => do
      let text ← value.asText
      let part ← arguments.required 0 Value.asText
      arguments.expectAtMost 1
      return question text.toList part.toList
    | none =>
      if name = "divisibleby" then do
        let divisor ← arguments.required 0 .ok
        arguments.expectAtMost 1
        return value.isMultiple divisor
      else .error (.invalid ("unknown test: test " ++ name ++ " is unknown"))

end Test

end Invocation.Formula
