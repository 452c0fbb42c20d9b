import Invocation.Formula.Fault
import Invocation.Json.Reader
import Invocation.Number.Reading

/-!
# Tokens of formulas

`tokenize` cuts a formula into names, strings, numbers and symbols.  Where no token can be read the list
ends with the fault, so that a reader meets it only when it gets there.
-/

namespace Invocation.Formula

/-- A piece of a formula. -/
inductive Token where
  | name (text : String)
  | string (text : String)
  | int (value : Nat)
  | double (value : Double)
  | symbol (text : String)
  /-- The rest of the text has no tokens. -/
  | broken (fault : Fault)
  deriving DecidableEq, Inhabited

namespace Token

/-- A blank between tokens. -/
def isSpace (c : Char) : Bool :=
  c == ' ' || c == '\t' || c == '\n' || c == '\x0c' || c == '\r'

/-- The first character of a name. -/
def startsName (c : Char) : Bool :=
  c.isAlpha || c == '_'

/-- A further character of a name. -/
def continuesName (c : Char) : Bool :=
  c.isAlphanum || c == '_'

/-- Symbols of two characters; they win over those of one. -/
def longSymbols : List String :=
  ["//", "**", "==", "!=", ">=", "<="]

/-- Symbols of one character. -/
def shortSymbols : List Char :=
  ['+', '-', '*', '/', '%', '.', ',', ':', '~', '|', '=', '>', '<', '(', ')', '[', ']', '\x7b', '\x7d']

/-! ## Numbers -/

/-- What has been read of a number. -/
inductive NumberPart where
  | whole
  | fraction
  | exponentMark
  | exponent
  | radix (base : Nat)
  deriving DecidableEq

/-- The part that a character goes on with, if it belongs to the number. -/
def NumberPart.next? (part : NumberPart) (c : Char) : Option NumberPart :=
  if c = '_' then some part
  else
    match part with
    | .whole =>
      if c = '.' then some .fraction
      else if c = 'e' ∨ c = 'E' then some .exponentMark
      else if c.isDigit then some .whole
      else none
    | .fraction =>
      if c = 'e' ∨ c = 'E' then some .exponentMark
      else if c.isDigit then some .fraction
      else none
    | .exponentMark => if c = '+' ∨ c = '-' ∨ c.isDigit then some .exponent else none
    | .exponent => if c.isDigit then some .exponent else none
    | .radix base =>
      if c.isDigit ∨ (base = 16 ∧ (Json.hexValue? c).isSome) then some part else none

/-- An exponent stands in front: its mark, perhaps a sign, and a digit. -/
def startsExponent : List Char → Bool
  | mark :: sign :: digit :: _ =>
    (mark == 'e' || mark == 'E') && (sign.isDigit || ((sign == '+' || sign == '-') && digit.isDigit))
  | [mark, digit] => (mark == 'e' || mark == 'E') && digit.isDigit
  | _ => false

/-- What stands behind a point is the name of a member. -/
def startsMember (cs : List Char) : Bool :=
  (cs.head?.any startsName) && !startsExponent cs

/-- The characters of a number, the part that they end in, and the rest; the point in front of a member does
not belong to the number. -/
def spanNumber (part : NumberPart) : List Char → List Char × NumberPart × List Char
  | [] => ([], part, [])
  | c :: rest =>
    match part.next? c with
    | none => ([], part, c :: rest)
    | some next =>
      if c = '.' ∧ startsMember rest then ([], part, c :: rest)
      else
        let (number, last, rest) := spanNumber next rest
        (c :: number, last, rest)

/-- The number that digits of a base write, if each of them is a digit of the base. -/
def radixValue? (base : Nat) (digits : List Char) : Option Nat :=
  if digits.isEmpty then none
  else
    digits.foldl
      (fun n c ↦
        match n, Json.hexValue? c with
        | some n, some d => if d < base then some (n * base + d) else none
        | _, _ => none)
      (some 0)

/-- The fault of a malformed number. -/
def badNumber : Token := .broken (.malformed "invalid number")

/-- The token of a whole number, which has at most 128 bits. -/
def ofWhole (value : Option Nat) : Token :=
  match value with
  | some n => if n < 2 ^ 128 then .int n else badNumber
  | none => badNumber

/-- The token of the characters of a number that ends in the given part. -/
def ofNumber (number : List Char) (last : NumberPart) : Token :=
  if number.getLast? = some '_' then badNumber
  else
    let digits := number.filter (· != '_')
    match last with
    | .whole => ofWhole (radixValue? 10 digits)
    | .radix base => ofWhole (radixValue? base digits)
    | _ =>
      match Double.ofDecimalChars? false digits with
      | some x => .double x
      | none => badNumber

/-- Reads the number in front. -/
def readNumber (cs : List Char) : Token × List Char :=
  let (part, digits) :=
    match cs with
    | '0' :: c :: rest =>
      if c = 'b' ∨ c = 'B' then (NumberPart.radix 2, rest)
      else if c = 'o' ∨ c = 'O' then (NumberPart.radix 8, rest)
      else if c = 'x' ∨ c = 'X' then (NumberPart.radix 16, rest)
      else (NumberPart.whole, cs)
    | _ => (NumberPart.whole, cs)
  let (number, last, rest) := spanNumber part digits
  (ofNumber number last, rest)

/-! ## Strings -/

/-- The characters up to a closing quotation mark, and the rest behind it; a character after a backslash
never closes a string. -/
def spanString (quote : Char) : List Char → Option (List Char × List Char)
  | [] => none
  | '\\' :: c :: rest => (spanString quote rest).map fun (body, rest) ↦ ('\\' :: c :: body, rest)
  | c :: rest =>
    if c = quote then some ([], rest)
    else (spanString quote rest).map fun (body, rest) ↦ (c :: body, rest)

/-- The character that stands behind a backslash for another one. -/
def escaped? : Char → Option Char
  | '"' => some '"'
  | '\'' => some '\''
  | '\\' => some '\\'
  | '/' => some '/'
  | 'b' => some '\x08'
  | 'f' => some '\x0c'
  | 'n' => some '\n'
  | 'r' => some '\r'
  | 't' => some '\t'
  | _ => none

/-- The character whose number digits of a base write, if it has at most eight bits. -/
def charOfDigits? (base : Nat) (digits : List Char) : Option Char :=
  (radixValue? base digits).bind fun n ↦ if n < 256 then some (Char.ofNat n) else none

/-- A digit of the base eight. -/
def isOctal (c : Char) : Bool :=
  '0' ≤ c && c ≤ '7'

/-- Reads the escape behind a backslash: the number of a character behind `u` or `x`, up to three digits of
its number, or a character that stands for another one.  Any other escape stands for itself. -/
def readEscape : List Char → Option (List Char × List Char)
  | [] => none
  | 'u' :: rest =>
    match Json.readUnicode rest with
    | .ok (c, rest) => some ([c], rest)
    | .error _ => none
  | 'x' :: rest =>
    if rest.length < 2 then none
    else (charOfDigits? 16 (rest.take 2)).map fun c ↦ ([c], rest.drop 2)
  | c :: rest =>
    if isOctal c then
      let digits := c :: (rest.take 2).takeWhile isOctal
      (charOfDigits? 8 digits).map fun c ↦ ([c], rest.drop (digits.length - 1))
    else
      match escaped? c with
      | some c => some ([c], rest)
      | none => some (['\\', c], rest)

/-- The text of a string without its escapes; each character takes one step at most. -/
def unescape (fuel : Nat) (cs : List Char) : Option (List Char) :=
  match fuel with
  | 0 => none
  | fuel + 1 =>
    match cs with
    | [] => some []
    | '\\' :: rest =>
      match readEscape rest with
      | some (text, rest) => (unescape fuel rest).map (text ++ ·)
      | none => none
    | c :: rest => (unescape fuel rest).map (c :: ·)

/-- Reads the string whose opening quotation mark has been read. -/
def readString (quote : Char) (cs : List Char) : Token × List Char :=
  match spanString quote cs with
  | none => (.broken (.malformed "unexpected end of string"), [])
  | some (body, rest) =>
    match unescape (body.length + 1) body with
    | some text => (.string (String.ofList text), rest)
    | none => (.broken .badEscape, [])

/-! ## Tokens -/

/-- Reads the token that begins with the given character. -/
def readToken (c : Char) (rest : List Char) : Token × List Char :=
  if c = '"' ∨ c = '\'' then readString c rest
  else if c.isDigit then readNumber (c :: rest)
  else if startsName c then
    (.name (String.ofList (c :: rest.takeWhile continuesName)), rest.dropWhile continuesName)
  else if longSymbols.contains (String.ofList (c :: rest.take 1)) then
    (.symbol (String.ofList (c :: rest.take 1)), rest.drop 1)
  else if shortSymbols.contains c then (.symbol (String.singleton c), rest)
  else (.broken (.malformed "unexpected character"), [])

/-- The tokens of a text; a token has a character at least, so the fuel is the text's length. -/
def tokenizeFrom (fuel : Nat) (cs : List Char) : List Token :=
  match fuel with
  | 0 => []
  | fuel + 1 =>
    match cs.dropWhile isSpace with
    | [] => []
    | c :: rest =>
      match readToken c rest with
      | (.broken fault, _) => [.broken fault]
      | (token, rest) => token :: tokenizeFrom fuel rest

end Token

/-- The tokens of a formula. -/
def tokenize (text : String) : List Token :=
  Token.tokenizeFrom text.length text.toList

end Invocation.Formula
