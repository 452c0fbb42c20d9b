import Invocation.Formula.Value

/-!
# Arguments

What a filter, a test or a function is called with, and how values are read from arguments: as texts, as
numbers, as truth values.
-/

namespace Invocation.Formula

/-- The arguments of a call; `named` is none when no argument has a name, and of arguments with one name it
holds the last. -/
structure Arguments where
  placed : List Value
  named : Option (Entries Value)
  deriving Inhabited

/-- The fault of a call with too few arguments. -/
def Fault.missingArgument : Fault := .invalid "missing argument"

/-- The fault of a call with too many arguments. -/
def Fault.tooManyArguments : Fault := .invalid "too many arguments"

namespace Value

/-- The value as an optional argument: nothing counts as a missing one. -/
def given? : Value → Option Value
  | undefined _ => Option.none
  | none => Option.none
  | value => some value

/-- The value as a text. -/
def asText (value : Value) : Except Fault String :=
  if value.isMissing then .error .undefinedValue else .ok value.text

/-- The value as a string; other values have none. -/
def asString (value : Value) : Except Fault String :=
  match value with
  | string s => .ok s
  | _ => .error (.invalid "value is not a string")

/-- The value as a truth value; other values have none. -/
def asBool (value : Value) : Except Fault Bool :=
  match value with
  | bool b => .ok b
  | value => .error (.invalid ("cannot convert " ++ value.kind.name ++ " to bool"))

/-- The value as a whole number of this many bits with a sign. -/
def asInt (bits : Nat) (value : Value) : Except Fault Int :=
  match value.toInt? with
  | some n =>
    if -Int.pow 2 (bits - 1) ≤ n ∧ n < Int.pow 2 (bits - 1) then .ok n
    else .error (.invalid "cannot convert number: out of range")
  | Option.none => .error (.invalid ("cannot convert " ++ value.kind.name ++ " to a number"))

/-- What iterating over the value gives; a missing value cannot be iterated over. -/
def iterate (value : Value) : Except Fault (List Value) :=
  if value.isMissing then .error .undefinedValue
  else
    match value.iterate? with
    | some items => .ok items
    | Option.none => .error (.invalid (value.kind.name ++ " is not iterable"))

/-- The items of a value that is turned into a list. -/
def asList (value : Value) : Except Fault (List Value) :=
  match value.iterate with
  | .ok items => .ok items
  | .error _ => .error (.invalid "cannot convert value to list")

end Value

namespace Arguments

/-- No arguments. -/
def empty : Arguments := ⟨[], none⟩

/-- The call has no arguments. -/
def expectNone (arguments : Arguments) : Except Fault Unit :=
  if arguments.placed.isEmpty && arguments.named.isNone then .ok () else .error .tooManyArguments

/-- The argument at a place, read by a function; it may be missing or nothing. -/
def optional {α : Type} (arguments : Arguments) (place : Nat) (read : Value → Except Fault α) :
    Except Fault (Option α) :=
  match (arguments.placed[place]?).bind Value.given? with
  | some value => (read value).map some
  | none => .ok none

/-- The argument at a place, read by a function. -/
def required {α : Type} (arguments : Arguments) (place : Nat) (read : Value → Except Fault α) :
    Except Fault α :=
  match arguments.placed[place]? with
  | some value => read value
  | none => .error .missingArgument

/-- No argument has a name, and there are at most this many. -/
def expectAtMost (arguments : Arguments) (count : Nat) : Except Fault Unit :=
  if arguments.placed.length ≤ count && arguments.named.isNone then .ok ()
  else .error .tooManyArguments

/-- There are at most this many arguments without a name, and the others have these names. -/
def expectWithin (arguments : Arguments) (count : Nat) (names : List String) : Except Fault Unit :=
  if arguments.placed.length ≤ count
      && (arguments.named.getD []).all fun entry ↦ names.contains entry.1 then
    .ok ()
  else .error .tooManyArguments

/-- All arguments are named, by these names. -/
def expectNamed (arguments : Arguments) (names : List String) : Except Fault Unit :=
  arguments.expectWithin 0 names

/-- The argument with a name. -/
def named? (arguments : Arguments) (name : String) : Option Value :=
  (arguments.named.getD []).lookup name

/-- The argument at a place or with a name; it cannot be given both ways. -/
def placedOrNamed (arguments : Arguments) (place : Nat) (name : String) :
    Except Fault (Option Value) :=
  match arguments.placed[place]?, arguments.named? name with
  | some _, some _ => .error .tooManyArguments
  | some value, none => .ok (some value)
  | none, value => .ok value

/-- The argument with a name, read by a function; it may be missing or nothing. -/
def namedArgument {α : Type} (arguments : Arguments) (name : String) (read : Value → Except Fault α) :
    Except Fault (Option α) :=
  match (arguments.named? name).bind Value.given? with
  | some value => (read value).map some
  | none => .ok none

/-- The arguments as one list of values, the named ones as a map behind the others. -/
def values (arguments : Arguments) : List Value :=
  arguments.placed
    ++ (arguments.named.map fun entries ↦
      Value.ofEntries (entries.map fun entry ↦ (Value.string entry.1, entry.2))).toList

end Arguments

end Invocation.Formula
