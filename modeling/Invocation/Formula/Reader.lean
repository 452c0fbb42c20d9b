import Invocation.Formula.Term
import Invocation.Formula.Token

/-!
# Reading formulas

`Term.read` makes the tree of a formula from its text.  The levels of binding, the loosest first, are the
conditional, `or`, `and`, `not`, the comparisons, sums, concatenation, products and powers; a sign binds
tighter than member access, filters and tests.  All operators of two operands group to the left.
-/

namespace Invocation.Formula

namespace Reader

/-- The levels of binding below the conditional. -/
inductive Level where
  | disjunction
  | conjunction
  | negation
  | comparison
  | sum
  | concatenation
  | product
  | power
  | operand
  deriving DecidableEq

namespace Level

/-- The next tighter level. -/
def tighter : Level → Level
  | disjunction => conjunction
  | conjunction => negation
  | negation => comparison
  | comparison => sum
  | sum => concatenation
  | concatenation => product
  | product => power
  | power => operand
  | operand => operand

/-- What a token does with two operands of a level. -/
def combine? : Level → Token → Option (Term → Term → Term)
  | disjunction, .name "or" => some .or
  | conjunction, .name "and" => some .and
  | sum, .symbol "+" => some (.binary .add)
  | sum, .symbol "-" => some (.binary .subtract)
  | concatenation, .symbol "~" => some (.binary .concatenate)
  | product, .symbol "*" => some (.binary .multiply)
  | product, .symbol "/" => some (.binary .divide)
  | product, .symbol "//" => some (.binary .divideWhole)
  | product, .symbol "%" => some (.binary .remainder)
  | power, .symbol "**" => some (.binary .power)
  | _, _ => none

end Level

/-- The comparison that a symbol writes. -/
def comparison? : String → Option Comparison
  | "==" => some .eq
  | "!=" => some .ne
  | "<" => some .lt
  | "<=" => some .le
  | ">" => some .gt
  | ">=" => some .ge
  | _ => none

/-- The fault of meeting the rest of a formula where something else is expected. -/
def faultAt : List Token → Fault
  | .broken fault :: _ => fault
  | [] => .malformed "unexpected end of input"
  | _ => .malformed "unexpected token"

/-- The tokens behind an expected symbol. -/
def expect (symbol : String) (tokens : List Token) : Except Fault (List Token) :=
  match tokens with
  | .symbol found :: rest => if found = symbol then .ok rest else .error (faultAt tokens)
  | _ => .error (faultAt tokens)

/-- The next token is the symbol. -/
def atSymbol (symbol : String) : List Token → Bool
  | .symbol found :: _ => found == symbol
  | _ => false

/-- A test takes the next value as its argument: a name that is no operator, a literal, a list, a map or a
sign stands there. -/
def startsArgument : List Token → Bool
  | .name name :: _ => ["and", "or", "else", "is"].all (· ≠ name)
  | .string _ :: _ => true
  | .int _ :: _ => true
  | .double _ :: _ => true
  | .symbol symbol :: _ => ["+", "-", "[", "\x7b"].contains symbol
  | _ => false

/-- Joins string literals that stand side by side.  What has no tokens behind a single one is left out. -/
def joinStrings (text : String) : List Token → String × List Token
  | [.broken _] => (text, [])
  | .string next :: rest => joinFurther (text ++ next) rest
  | rest => (text, rest)
where
  /-- Joins the literals behind the second one. -/
  joinFurther (text : String) : List Token → String × List Token
    | .string next :: rest => joinFurther (text ++ next) rest
    | rest => (text, rest)

/-- The name of a filter or a test with its further parts behind points. -/
def readDotted (name : String) : List Token → Except Fault (String × List Token)
  | .symbol "." :: .name part :: rest => readDotted (name ++ "." ++ part) rest
  | .symbol "." :: rest => .error (faultAt rest)
  | rest => .ok (name, rest)

/-- The fault of a formula that is nested too deeply. -/
def tooDeep : Fault := .malformed "nested too deeply"

mutual

/-- Reads a term; `depth` levels of nesting are left. -/
def readTerm (fuel depth : Nat) (tokens : List Token) : Except Fault (Term × List Token) :=
  match fuel, depth with
  | fuel + 1, depth + 1 => readConditional fuel depth tokens
  | _, _ => .error tooDeep

/-- Reads a term that may be a conditional. -/
def readConditional (fuel depth : Nat) (tokens : List Token) : Except Fault (Term × List Token) :=
  match fuel with
  | 0 => .error tooDeep
  | fuel + 1 => do
    let (first, rest) ← readLevel fuel depth .disjunction tokens
    readBranches fuel depth first rest

/-- Reads the conditions behind a term. -/
def readBranches (fuel depth : Nat) (yes : Term) (tokens : List Token) :
    Except Fault (Term × List Token) :=
  match fuel with
  | 0 => .error tooDeep
  | fuel + 1 =>
    match tokens with
    | .name "if" :: rest => do
      let (condition, rest) ← readLevel fuel depth .disjunction rest
      match rest with
      | .name "else" :: rest => do
        let (no, rest) ← readConditional fuel depth rest
        readBranches fuel depth (.conditional condition yes (some no)) rest
      | rest => readBranches fuel depth (.conditional condition yes none) rest
    | rest => .ok (yes, rest)

/-- Reads operands of a level with the operators between them. -/
def readLevel (fuel depth : Nat) (level : Level) (tokens : List Token) :
    Except Fault (Term × List Token) :=
  match fuel with
  | 0 => .error tooDeep
  | fuel + 1 =>
    match level, tokens with
    | .negation, .name "not" :: rest => do
      let (term, rest) ← readLevel fuel depth .negation rest
      return (.not term, rest)
    | .comparison, tokens => do
      let (first, rest) ← readLevel fuel depth level.tighter tokens
      let (links, rest) ← readLinks fuel depth rest
      return (if links.isEmpty then first else .compare first links, rest)
    | .operand, tokens => do
      let (term, rest) ← readSigned fuel depth tokens
      let (term, rest) ← readAccesses fuel depth term rest
      readPipes fuel depth term rest
    | level, tokens => do
      let (first, rest) ← readLevel fuel depth level.tighter tokens
      readOperators fuel depth level first rest

/-- Reads the operators of a level behind their first operand. -/
def readOperators (fuel depth : Nat) (level : Level) (first : Term) (tokens : List Token) :
    Except Fault (Term × List Token) :=
  match fuel with
  | 0 => .error tooDeep
  | fuel + 1 =>
    match tokens with
    | [] => .ok (first, [])
    | token :: rest =>
      match level.combine? token with
      | none => .ok (first, token :: rest)
      | some combine => do
        let (second, rest) ← readLevel fuel depth level.tighter rest
        readOperators fuel depth level (combine first second) rest

/-- Reads comparisons behind their first operand. -/
def readLinks (fuel depth : Nat) (tokens : List Token) :
    Except Fault (List (Comparison × Term) × List Token) :=
  match fuel with
  | 0 => .error tooDeep
  | fuel + 1 =>
    let link (comparison : Comparison) (rest : List Token) := do
      let (term, rest) ← readLevel fuel depth .sum rest
      let (links, rest) ← readLinks fuel depth rest
      return ((comparison, term) :: links, rest)
    match tokens with
    | .name "in" :: rest => link .isIn rest
    | .name "not" :: .name "in" :: rest => link .notIn rest
    | .name "not" :: rest => .error (faultAt rest)
    | .symbol symbol :: rest =>
      match comparison? symbol with
      | some comparison => link comparison rest
      | none => .ok ([], .symbol symbol :: rest)
    | rest => .ok ([], rest)

/-- Reads an atom with the signs in front of it. -/
def readSigned (fuel depth : Nat) (tokens : List Token) : Except Fault (Term × List Token) :=
  match fuel with
  | 0 => .error tooDeep
  | fuel + 1 =>
    match tokens with
    | .symbol "-" :: rest => do
      let (term, rest) ← readSigned fuel depth rest
      return (.negate term, rest)
    | tokens => readAtom fuel depth tokens

/-- Reads an atom: a name, a literal, a list, a map or a term in parentheses. -/
def readAtom (fuel depth : Nat) (tokens : List Token) : Except Fault (Term × List Token) :=
  match fuel, depth with
  | fuel + 1, depth + 1 =>
    match tokens with
    | .name name :: rest =>
      if name = "true" ∨ name = "True" then .ok (.constant (.bool true), rest)
      else if name = "false" ∨ name = "False" then .ok (.constant (.bool false), rest)
      else if name = "none" ∨ name = "None" then .ok (.constant .none, rest)
      else .ok (.name name, rest)
    | .string text :: rest =>
      let (text, rest) := joinStrings text rest
      .ok (.constant (.string text), rest)
    | .int n :: rest => .ok (.constant (.ofNat n), rest)
    | .double x :: rest => .ok (.constant (.double x), rest)
    | .symbol "(" :: .symbol ")" :: rest => .ok (.list [], rest)
    | .symbol "(" :: rest => do
      let (first, rest) ← readTerm fuel depth rest
      if atSymbol "," rest then
        let (items, rest) ← readItems fuel depth ")" rest
        return (.list (first :: items), rest)
      else
        let rest ← expect ")" rest
        return (first, rest)
    | .symbol "[" :: .symbol "]" :: rest => .ok (.list [], rest)
    | .symbol "[" :: rest => do
      let (first, rest) ← readTerm fuel depth rest
      let (items, rest) ← readItems fuel depth "]" rest
      return (.list (first :: items), rest)
    | .symbol "\x7b" :: .symbol "\x7d" :: rest => .ok (.map [], rest)
    | .symbol "\x7b" :: rest => do
      let (entries, rest) ← readEntries fuel depth rest
      return (.map entries, rest)
    | tokens => .error (faultAt tokens)
  | _, _ => .error tooDeep

/-- Reads the further items of a list up to its closing symbol; the last one may have a comma behind. -/
def readItems (fuel depth : Nat) (closing : String) (tokens : List Token) :
    Except Fault (List Term × List Token) :=
  match fuel with
  | 0 => .error tooDeep
  | fuel + 1 =>
    if atSymbol closing tokens then .ok ([], tokens.drop 1)
    else do
      let rest ← expect "," tokens
      if atSymbol closing rest then return ([], rest.drop 1)
      else
        let (item, rest) ← readTerm fuel depth rest
        let (items, rest) ← readItems fuel depth closing rest
        return (item :: items, rest)

/-- Reads the entries of a map up to its closing brace. -/
def readEntries (fuel depth : Nat) (tokens : List Token) :
    Except Fault (List (Term × Term) × List Token) :=
  match fuel with
  | 0 => .error tooDeep
  | fuel + 1 => do
    let (key, rest) ← readTerm fuel depth tokens
    let rest ← expect ":" rest
    let (value, rest) ← readTerm fuel depth rest
    if atSymbol "\x7d" rest then return ([(key, value)], rest.drop 1)
    else
      let rest ← expect "," rest
      if atSymbol "\x7d" rest then return ([(key, value)], rest.drop 1)
      else
        let (entries, rest) ← readEntries fuel depth rest
        return ((key, value) :: entries, rest)

/-- Reads members, items, slices and calls behind a term. -/
def readAccesses (fuel depth : Nat) (term : Term) (tokens : List Token) :
    Except Fault (Term × List Token) :=
  match fuel with
  | 0 => .error tooDeep
  | fuel + 1 =>
    match tokens with
    | .symbol "." :: .name name :: rest => readAccesses fuel depth (.member term name) rest
    | .symbol "." :: .int n :: rest =>
      readAccesses fuel depth (.item term (.constant (.ofNat n))) rest
    | .symbol "." :: rest => .error (faultAt rest)
    | .symbol "[" :: rest => do
      let (term, rest) ← readSubscript fuel depth term rest
      readAccesses fuel depth term rest
    | .symbol "(" :: rest => do
      let (arguments, rest) ← readArguments fuel depth true false rest
      readAccesses fuel depth (term.called arguments) rest
    | rest => .ok (term, rest)

/-- Reads an index or a slice up to its closing bracket. -/
def readSubscript (fuel depth : Nat) (term : Term) (tokens : List Token) :
    Except Fault (Term × List Token) :=
  match fuel with
  | 0 => .error tooDeep
  | fuel + 1 => do
    let (start, rest) ← readBound fuel depth [":"] tokens
    if atSymbol ":" rest then
      let (stop, rest) ← readBound fuel depth ["]", ":"] (rest.drop 1)
      let (step, rest) ←
        if atSymbol ":" rest then readBound fuel depth ["]"] (rest.drop 1) else .ok (none, rest)
      let rest ← expect "]" rest
      return (.slice term start stop step, rest)
    else
      let rest ← expect "]" rest
      match start with
      | some key => return (.item term key, rest)
      | none => .error (faultAt rest)

/-- Reads a bound of a slice, which is missing before the given symbols. -/
def readBound (fuel depth : Nat) (closing : List String) (tokens : List Token) :
    Except Fault (Option Term × List Token) :=
  match fuel with
  | 0 => .error tooDeep
  | fuel + 1 =>
    if closing.any (atSymbol · tokens) then .ok (none, tokens)
    else (readTerm fuel depth tokens).map fun (term, rest) ↦ (some term, rest)

/-- Reads arguments up to the closing parenthesis.  `first` says that none has been read, `named` that one
with a name has; behind such a one no placed argument may follow. -/
def readArguments (fuel depth : Nat) (first named : Bool) (tokens : List Token) :
    Except Fault (List (ArgumentForm × Term) × List Token) :=
  match fuel with
  | 0 => .error tooDeep
  | fuel + 1 =>
    if atSymbol ")" tokens then .ok ([], tokens.drop 1)
    else do
      let rest ← if first then .ok tokens else expect "," tokens
      if !first && atSymbol ")" rest then return ([], rest.drop 1)
      else
        let (form, term, rest) ← readArgument fuel depth named rest
        let named := named || (form matches .named _ | .spreadNamed)
        let (arguments, rest) ← readArguments fuel depth false named rest
        return ((form, term) :: arguments, rest)

/-- Reads one argument. -/
def readArgument (fuel depth : Nat) (named : Bool) (tokens : List Token) :
    Except Fault (ArgumentForm × Term × List Token) :=
  match fuel with
  | 0 => .error tooDeep
  | fuel + 1 =>
    match tokens with
    | .symbol "**" :: rest => do
      let (term, rest) ← readTerm fuel depth rest
      return (.spreadNamed, term, rest)
    | .symbol "*" :: rest => do
      let (term, rest) ← readTerm fuel depth rest
      return (.spread, term, rest)
    | tokens => do
      let (term, rest) ← readTerm fuel depth tokens
      match term, rest with
      | .name name, .symbol "=" :: rest => do
        let (value, rest) ← readTerm fuel depth rest
        return (.named name, value, rest)
      | term, rest => if named then .error (faultAt rest) else return (.placed, term, rest)

/-- Reads filters and tests behind a term. -/
def readPipes (fuel depth : Nat) (term : Term) (tokens : List Token) :
    Except Fault (Term × List Token) :=
  match fuel with
  | 0 => .error tooDeep
  | fuel + 1 =>
    match tokens with
    | .symbol "|" :: .name name :: rest => do
      let (name, rest) ← readDotted name rest
      match rest with
      | .symbol "(" :: rest => do
        let (arguments, rest) ← readArguments fuel depth true false rest
        readPipes fuel depth (.filter term name arguments) rest
      | rest => readPipes fuel depth (.filter term name []) rest
    | .symbol "|" :: rest => .error (faultAt rest)
    | .name "is" :: .name "not" :: rest => do
      let (term, rest) ← readTest fuel depth term rest
      readPipes fuel depth (.not term) rest
    | .name "is" :: rest => do
      let (term, rest) ← readTest fuel depth term rest
      readPipes fuel depth term rest
    | rest => .ok (term, rest)

/-- Reads the name of a test and its arguments. -/
def readTest (fuel depth : Nat) (term : Term) (tokens : List Token) :
    Except Fault (Term × List Token) :=
  match fuel with
  | 0 => .error tooDeep
  | fuel + 1 =>
    match tokens with
    | .name name :: rest => do
      let (name, rest) ← readDotted name rest
      match rest with
      | .symbol "(" :: rest => do
        let (arguments, rest) ← readArguments fuel depth true false rest
        return (.test term name arguments, rest)
      | rest =>
        if startsArgument rest then do
          let (argument, rest) ← readSigned fuel depth rest
          let (argument, rest) ← readAccesses fuel depth argument rest
          return (.test term name [(.placed, argument)], rest)
        else .ok (.test term name [], rest)
    | rest => .error (faultAt rest)

end

/-- The levels of nesting that a formula may have; a term and an atom count one each. -/
def depthLimit : Nat := 150

end Reader

/-- The tree of a formula.  A level of nesting takes at most sixteen steps and a token at least, so the
fuel never ends before the tokens do. -/
def Term.read (text : String) : Except Fault Term := do
  let tokens := tokenize text
  let (term, rest) ← Reader.readTerm (16 * (tokens.length + 2)) Reader.depthLimit tokens
  match rest with
  | [] => .ok term
  | rest => .error (Reader.faultAt rest)

end Invocation.Formula
