import Invocation.Formula.Constant
import Invocation.Formula.Filter
import Invocation.Formula.Function
import Invocation.Formula.Reader

/-!
# Evaluating formulas

A term is evaluated with values for names and a budget of steps.  Every operation takes one step; when
the budget is down to its last step the evaluation ends.  Only what decides the result is evaluated: one
branch of a conditional, the second operand of `and` and `or` where the first does not decide.  The
constant parts of a formula are computed beforehand.
-/

namespace Invocation.Formula

/-- A computation that spends steps of a budget. -/
abbrev Steps (α : Type) := StateT Nat (Except Fault) α

/-- Spends one step. -/
def spend : Steps Unit := fun fuel ↦
  if fuel ≤ 1 then .error .outOfFuel else .ok ((), fuel - 1)

/-- A result that costs no further step. -/
def settle {α : Type} (result : Except Fault α) : Steps α := fun fuel ↦
  result.map fun value ↦ (value, fuel)

/-- Spends the step of an operation and gives its result. -/
def step {α : Type} (result : Except Fault α) : Steps α := do
  spend
  settle result

/-! ## Terms -/

/-- The values of the names that a formula knows. -/
abbrev Names := List (String × Value)

/-- Arguments with one more in front. -/
def Arguments.addPlaced (values : List Value) (arguments : Arguments) : Arguments :=
  { arguments with placed := values ++ arguments.placed }

/-- Arguments with further named ones in front, which give way to those of the same name. -/
def Arguments.addNamed (entries : List (String × Value)) (arguments : Arguments) : Arguments :=
  { arguments with named := some (Entries.ofList (entries ++ arguments.named.getD [])) }

/-- The value of a name: one that is given, or a function. -/
def Names.value (names : Names) (name : String) : Value :=
  match names.lookup name with
  | some value => value
  | none => ((Callable.ofName? name).map Value.function).getD .missing

/-- Calls what a name stands for. -/
def Names.call (names : Names) (name : String) (arguments : Arguments) : Except Fault Value :=
  match names.value name with
  | .undefined _ => .error (.invalid ("unknown function: " ++ name ++ " is unknown"))
  | value => value.call arguments

/-- The arguments that a value stands for in its form, in front of others; an undefined value stands for no
arguments. -/
def Arguments.add (form : ArgumentForm) (value : Value) (arguments : Arguments) :
    Except Fault Arguments :=
  match form with
  | .placed => .ok (arguments.addPlaced [value])
  | .named name => .ok (arguments.addNamed [(name, value)])
  | .spread =>
    match value with
    | .undefined _ => .ok arguments
    | value => value.iterate.map arguments.addPlaced
  | .spreadNamed =>
    match value with
    | .undefined .missing => .error .undefinedValue
    | .map entries => .ok (arguments.addNamed (entries.map fun entry ↦ (entry.1.text, entry.2)))
    | _ => .error (.invalid "attempted to apply keyword arguments from something not a map")

namespace Term

mutual

/-- Evaluates a term. -/
def evaluate (names : Names) : Term → Steps Value
  | .constant value => step (.ok value)
  | .name known => step (.ok (names.value known))
  | .list items => do
    let values ← evaluateItems names items
    step (.ok (.ofItems values))
  | .map entries => do
    let values ← evaluateEntries names entries
    step (.ok (.ofEntries values))
  | .member term key => do
    let value ← evaluate names term
    step (value.member key)
  | .item term key => do
    let value ← evaluate names term
    let key ← evaluate names key
    step (value.item key)
  | .slice term start stop stride => do
    let value ← evaluate names term
    let start ← evaluateBound names start
    let stop ← evaluateBound names stop
    let stride ← evaluateBound names stride
    step (value.slice start stop stride)
  | .negate term => do
    let value ← evaluate names term
    step value.negate
  | .not term => do
    let value ← evaluate names term
    step (value.truth.map fun b ↦ .bool !b)
  | .and first second => do
    let value ← evaluate names first
    if ← step value.truth then evaluate names second else return value
  | .or first second => do
    let value ← evaluate names first
    if ← step value.truth then return value else evaluate names second
  | .binary operator first second => do
    let first ← evaluate names first
    let second ← evaluate names second
    step (first.binary operator second)
  | .compare first links => do
    let value ← evaluate names first
    evaluateLinks names value links
  | .conditional condition yes no => do
    let value ← evaluate names condition
    if ← step value.truth then
      let value ← evaluate names yes
      step (.ok value)
    else
      match no with
      | some no => evaluate names no
      | none => step (.ok (.undefined .untaken))
  | .filter term applied arguments => do
    let value ← evaluate names term
    let arguments ← evaluateArguments names arguments
    step (Filter.apply arguments.placed.length applied value arguments)
  | .test term asked arguments => do
    let value ← evaluate names term
    let arguments ← evaluateArguments names arguments
    step ((Test.ask asked value arguments).map .bool)
  | .call function arguments => do
    let arguments ← evaluateArguments names arguments
    step (names.call function arguments)
  | .callMethod term method arguments => do
    let value ← evaluate names term
    let arguments ← evaluateArguments names arguments
    step (value.callMethod method arguments)
  | .callBlock block => step (.error (.unknownBlock block))
  | .callValue term arguments => do
    let value ← evaluate names term
    let arguments ← evaluateArguments names arguments
    step (value.call arguments)

/-- Evaluates items in order. -/
def evaluateItems (names : Names) : List Term → Steps (List Value)
  | [] => settle (.ok [])
  | term :: rest => do
    let value ← evaluate names term
    let values ← evaluateItems names rest
    return value :: values

/-- Evaluates keys and values in order. -/
def evaluateEntries (names : Names) : List (Term × Term) → Steps (List (Value × Value))
  | [] => settle (.ok [])
  | entry :: rest => do
    let key ← evaluate names entry.1
    let value ← evaluate names entry.2
    let entries ← evaluateEntries names rest
    return (key, value) :: entries

/-- Evaluates a bound of a slice; a missing one is none. -/
def evaluateBound (names : Names) : Option Term → Steps Value
  | none => step (.ok .none)
  | some term => evaluate names term

/-- Compares a value with the next one, and so on as long as the comparisons hold. -/
def evaluateLinks (names : Names) (value : Value) : List (Comparison × Term) → Steps Value
  | [] => settle (.ok value)
  | link :: rest => do
    let next ← evaluate names link.2
    let result ← step (value.holds link.1 next)
    if rest.isEmpty || !result then return .bool result
    else evaluateLinks names next rest

/-- Evaluates arguments in order. -/
def evaluateArguments (names : Names) : List (ArgumentForm × Term) → Steps Arguments
  | [] => settle (.ok .empty)
  | argument :: rest => do
    let value ← evaluate names argument.2
    let arguments ← evaluateArguments names rest
    settle (arguments.add argument.1 value)

end

end Term

/-- The value of a formula for values of names and a budget of steps. -/
def evaluate (fuel : Nat) (names : Names) (source : String) : Except Fault Value := do
  let term ← Term.read source
  let (value, _) ← term.computed.evaluate names fuel
  return value

end Invocation.Formula
