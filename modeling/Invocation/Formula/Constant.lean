import Invocation.Formula.Operation

/-!
# Constant parts of formulas

`Term.computed` replaces every part of a formula that is built from constants alone by its value: lists, maps
and what operators make of constants.  A part whose operators fail on their operands stays as it is, so
that it fails only where it is evaluated.
-/

namespace Invocation.Formula

namespace Value

/-- Comparisons of constants, each with the next one, all of which have to hold. -/
def holdsChain (value : Value) : List (Comparison × Value) → Except Fault Bool
  | [] => .ok true
  | (comparison, next) :: rest => do
    if ← value.holds comparison next then next.holdsChain rest else return false

/-- Both of two constants: the second one where both are true, else false. -/
def both (first second : Value) : Value :=
  if first.isTrue && second.isTrue then second else bool false

/-- Either of two constants: the first one where it is true, else the second. -/
def either (first second : Value) : Value :=
  if first.isTrue then first else second

end Value

namespace Term

/-- The constant of a term that is one. -/
def constant? : Term → Option Value
  | constant value => some value
  | _ => none

/-- The constant of a result, or the term where there is none. -/
def ofResult (result : Except Fault Value) (term : Term) : Term :=
  match result with
  | .ok value => constant value
  | .error _ => term

/-- A list; of constants it is one. -/
def ofItems (items : List Term) : Term :=
  match items.mapM constant? with
  | some values => constant (.ofItems values)
  | none => list items

/-- A map; of constants it is one. -/
def ofEntries (entries : List (Term × Term)) : Term :=
  match entries.mapM fun entry ↦ (constant? entry.1).bind fun key ↦ (constant? entry.2).map (key, ·) with
  | some values => constant (.ofEntries values)
  | none => map entries

/-- A term with another sign. -/
def ofNegate (term : Term) : Term :=
  match term with
  | constant value => ofResult value.negate (negate term)
  | term => negate term

/-- A denied term. -/
def ofNot (term : Term) : Term :=
  match term with
  | constant value => constant (.bool !value.isTrue)
  | term => not term

/-- Both of two terms. -/
def ofAnd (first second : Term) : Term :=
  match first, second with
  | constant a, constant b => constant (a.both b)
  | first, second => and first second

/-- Either of two terms. -/
def ofOr (first second : Term) : Term :=
  match first, second with
  | constant a, constant b => constant (a.either b)
  | first, second => or first second

/-- An operator between two terms. -/
def ofBinary (operator : Operator) (first second : Term) : Term :=
  match first, second with
  | constant a, constant b => ofResult (a.binary operator b) (binary operator first second)
  | first, second => binary operator first second

/-- Comparisons of terms. -/
def ofCompare (first : Term) (links : List (Comparison × Term)) : Term :=
  match constant? first, links.mapM fun link ↦ (constant? link.2).map (link.1, ·) with
  | some value, some values => ofResult ((value.holdsChain values).map .bool) (compare first links)
  | _, _ => compare first links

mutual

/-- The term with its constant parts replaced by their values. -/
def computed : Term → Term
  | constant value => constant value
  | name known => name known
  | list items => ofItems (computedItems items)
  | map entries => ofEntries (computedEntries entries)
  | member term key => member (computed term) key
  | item term key => item (computed term) (computed key)
  | slice term start stop stride =>
    slice (computed term) (computedOption start) (computedOption stop) (computedOption stride)
  | negate term => ofNegate (computed term)
  | not term => ofNot (computed term)
  | and first second => ofAnd (computed first) (computed second)
  | or first second => ofOr (computed first) (computed second)
  | binary operator first second => ofBinary operator (computed first) (computed second)
  | compare first links => ofCompare (computed first) (computedLinks links)
  | conditional condition yes no =>
    conditional (computed condition) (computed yes) (computedOption no)
  | filter term applied arguments => filter (computed term) applied (computedArguments arguments)
  | test term asked arguments => test (computed term) asked (computedArguments arguments)
  | call function arguments => call function (computedArguments arguments)
  | callMethod term method arguments => callMethod (computed term) method (computedArguments arguments)
  | callBlock block => callBlock block
  | callValue term arguments => callValue (computed term) (computedArguments arguments)

/-- A term that may be missing. -/
def computedOption : Option Term → Option Term
  | none => none
  | some term => some (computed term)

/-- The items of a list. -/
def computedItems : List Term → List Term
  | [] => []
  | term :: rest => computed term :: computedItems rest

/-- The entries of a map. -/
def computedEntries : List (Term × Term) → List (Term × Term)
  | [] => []
  | entry :: rest => (computed entry.1, computed entry.2) :: computedEntries rest

/-- The operands of comparisons. -/
def computedLinks : List (Comparison × Term) → List (Comparison × Term)
  | [] => []
  | link :: rest => (link.1, computed link.2) :: computedLinks rest

/-- The arguments of a call. -/
def computedArguments : List (ArgumentForm × Term) → List (ArgumentForm × Term)
  | [] => []
  | argument :: rest => (argument.1, computed argument.2) :: computedArguments rest

end

end Term

end Invocation.Formula
