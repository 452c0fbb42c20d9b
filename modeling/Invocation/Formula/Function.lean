import Invocation.Formula.Arguments

/-!
# Functions

The functions that formulas call by their names: ranges of whole numbers, maps of named arguments, and the
texts of values over several lines.
-/

namespace Invocation.Formula

namespace Callable

/-- The largest number of elements of a range. -/
def rangeLimit : Nat := 100000

/-- The number of elements of a range from a first one to a bound by a step that is not zero. -/
def rangeLength (start stop step : Int) : Nat :=
  if 0 < step then ((stop - start + step - 1) / step).toNat
  else ((start - stop - step - 1) / -step).toNat

/-- The whole numbers from a start to a bound, the start being zero when only the bound is given. -/
def callRange (arguments : Arguments) : Except Fault Value := do
  let first ← arguments.required 0 (Value.asInt 64)
  let second ← arguments.optional 1 (Value.asInt 64)
  let step ← arguments.optional 2 (Value.asInt 64)
  arguments.expectAtMost 3
  let (start, stop) := (second.elim 0 fun _ ↦ first, second.getD first)
  let step := step.getD 1
  if step = 0 then .error (.invalid "cannot create range with step of 0")
  else if rangeLimit < rangeLength start stop step then
    .error (.invalid "range has too many elements")
  else
    return .ofComputed ((List.range (rangeLength start stop step)).map fun (i : Nat) ↦
      .ofInt (start + i * step))

/-- The map of the named arguments, put into the entries of a map. -/
def callDict (arguments : Arguments) : Except Fault Value := do
  let entries ←
    match (arguments.placed.head?).bind Value.given? with
    | none => .ok []
    | some (.map entries) => .ok entries
    | some _ => .error (.invalid "invalid operation")
  if 1 < arguments.placed.length then .error .tooManyArguments
  else
    return .ofEntries (entries
      ++ (arguments.named.getD []).map fun entry ↦ (Value.string entry.1, entry.2))

/-- The map of the named arguments or of a map whose keys are texts. -/
def callFields (arguments : Arguments) : Except Fault Value :=
  match arguments.values with
  | [] => .ok (.map [])
  | [.map entries] =>
    if entries.all fun entry ↦ entry.1.string?.isSome then .ok (.map entries)
    else .error (.invalid "expected string as key")
  | [value] =>
    match value.given? with
    | none => .ok (.map [])
    | some value =>
      .error (.invalid ("expected object or keyword arguments, got " ++ value.kind.name))
  | _ => .error .tooManyArguments

mutual

/-- The text of a value with the items of lists and the entries of maps on lines of their own. -/
def laidOut (indent : String) : Value → String
  | .list _ [] => "[]"
  | .list _ (item :: rest) =>
    "[\n" ++ laidOutItems (indent ++ "    ") (item :: rest) ++ indent ++ "]"
  | .map [] => "\x7b\x7d"
  | .map (entry :: rest) =>
    "\x7b\n" ++ laidOutEntries (indent ++ "    ") (entry :: rest) ++ indent ++ "\x7d"
  | value => value.nestedText

/-- The lines of the items. -/
def laidOutItems (indent : String) : List Value → String
  | [] => ""
  | item :: rest => indent ++ laidOut indent item ++ ",\n" ++ laidOutItems indent rest

/-- The lines of the entries. -/
def laidOutEntries (indent : String) : List (Value × Value) → String
  | [] => ""
  | entry :: rest =>
    indent ++ laidOut indent entry.1 ++ ": " ++ laidOut indent entry.2 ++ ",\n"
      ++ laidOutEntries indent rest

end

/-- The text of the argument over several lines, or that of the list of several arguments. -/
def callInspect (arguments : Arguments) : Value :=
  match arguments.values with
  | [value] => .string (laidOut "" value)
  | values => .string (laidOut "" (.ofItems values))

/-- Calls the function. -/
def call (callable : Callable) (arguments : Arguments) : Except Fault Value :=
  match callable with
  | range => callRange arguments
  | dict => callDict arguments
  | fields => callFields arguments
  | inspect => .ok (callInspect arguments)

end Callable

/-- The fault of calling a value or a method of one. -/
def Fault.notCallable : Fault := .invalid "value is not callable"

/-- Calls a value, which has to be a function. -/
def Value.call (value : Value) (arguments : Arguments) : Except Fault Value :=
  match value with
  | function callable => callable.call arguments
  | _ => .error .notCallable

/-- Calls a method of a value: a function in the entry of a map. -/
def Value.callMethod (value : Value) (method : String) (arguments : Arguments) : Except Fault Value :=
  match value with
  | map entries => (((lookup? (string method) entries).getD missing).call arguments)
  | _ => .error .notCallable

end Invocation.Formula
