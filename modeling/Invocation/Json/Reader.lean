import Invocation.Json.Basic
import Invocation.Number.Reading

/-!
# Reading JSON text

`Json.read` accepts one JSON value with blanks around it.  Blanks are the space, the tab, the line feed
and the carriage return.  Arrays and objects nest at most 127 deep.  A repeated key of an object keeps
its first place and takes its last value.

A number with a point, with an exponent or of more than 64 bits is read as a double, but is not rounded as a
whole (`doubleOf`): the digits in front that fit 64 bits are rounded to a double, and this one is multiplied or
divided by a power of ten.  So `3e23` is the double below the nearest one, and `1.7976931348623158e308`, which
rounds to the greatest double, is out of range.
-/

namespace Invocation.Json

/-- Why a text is no JSON value. -/
inductive Fault where
  | endOfText
  | unexpected (found : Char)
  | trailing (found : Char)
  | badEscape
  | controlCharacter
  | loneSurrogate
  | numberOutOfRange
  | tooDeep
  deriving DecidableEq

/-- The fault in words. -/
def Fault.message : Fault → String
  | .endOfText => "the text ends too early"
  | .unexpected found => "unexpected character " ++ String.singleton found
  | .trailing found => "unexpected character after the value: " ++ String.singleton found
  | .badEscape => "invalid escape"
  | .controlCharacter => "control character in a string"
  | .loneSurrogate => "lone surrogate in a string"
  | .numberOutOfRange => "number out of range"
  | .tooDeep => "nested too deeply"

/-- A blank of JSON text. -/
def isSpace (c : Char) : Bool :=
  c == ' ' || c == '\t' || c == '\n' || c == '\r'

/-- The text after the blanks in front. -/
def skipSpace (cs : List Char) : List Char :=
  cs.dropWhile isSpace

/-- The fault of meeting the rest of the text where something else is expected. -/
def Fault.atRest : List Char → Fault
  | [] => .endOfText
  | c :: _ => .unexpected c

/-- The value of a hexadecimal digit. -/
def hexValue? (c : Char) : Option Nat :=
  if '0' ≤ c ∧ c ≤ '9' then some (c.toNat - '0'.toNat)
  else if 'a' ≤ c ∧ c ≤ 'f' then some (c.toNat - 'a'.toNat + 10)
  else if 'A' ≤ c ∧ c ≤ 'F' then some (c.toNat - 'A'.toNat + 10)
  else none

/-- The number written by four hexadecimal digits in front. -/
def readHexFour : List Char → Except Fault (Nat × List Char)
  | a :: b :: c :: d :: rest =>
    match hexValue? a, hexValue? b, hexValue? c, hexValue? d with
    | some a, some b, some c, some d => .ok (((a * 16 + b) * 16 + c) * 16 + d, rest)
    | _, _, _, _ => .error .badEscape
  | _ => .error .endOfText

/-- The first half of a surrogate pair. -/
def isHighSurrogate (unit : Nat) : Bool := 0xD800 ≤ unit && unit < 0xDC00

/-- The second half of a surrogate pair. -/
def isLowSurrogate (unit : Nat) : Bool := 0xDC00 ≤ unit && unit < 0xE000

/-- The character of an escape whose letter is `u`; a high surrogate needs a low one after it. -/
def readUnicode (cs : List Char) : Except Fault (Char × List Char) := do
  let (unit, rest) ← readHexFour cs
  if isHighSurrogate unit then
    match rest with
    | '\\' :: 'u' :: rest =>
      let (second, rest) ← readHexFour rest
      if isLowSurrogate second then
        .ok (Char.ofNat (0x10000 + (unit - 0xD800) * 0x400 + (second - 0xDC00)), rest)
      else .error .loneSurrogate
    | _ => .error .loneSurrogate
  else if isLowSurrogate unit then .error .loneSurrogate
  else .ok (Char.ofNat unit, rest)

/-- The character of an escape, after its backslash. -/
def readEscape : List Char → Except Fault (Char × List Char)
  | [] => .error .endOfText
  | c :: rest =>
    if c = '"' ∨ c = '\\' ∨ c = '/' then .ok (c, rest)
    else if c = 'b' then .ok ('\x08', rest)
    else if c = 'f' then .ok ('\x0c', rest)
    else if c = 'n' then .ok ('\n', rest)
    else if c = 'r' then .ok ('\r', rest)
    else if c = 't' then .ok ('\t', rest)
    else if c = 'u' then readUnicode rest
    else .error .badEscape

/-- The rest of a string after its opening quote; `done` holds the characters read, the latest first. -/
def readString (fuel : Nat) (done : List Char) (cs : List Char) : Except Fault (String × List Char) :=
  match fuel, cs with
  | 0, _ => .error .endOfText
  | _, [] => .error .endOfText
  | _, '"' :: rest => .ok (String.ofList done.reverse, rest)
  | fuel + 1, '\\' :: rest => do
    let (c, rest) ← readEscape rest
    readString fuel (c :: done) rest
  | fuel + 1, c :: rest =>
    if c.toNat < 32 then .error .controlCharacter else readString fuel (c :: done) rest

/-- The decimal digits in front, and the rest. -/
def spanDigits (cs : List Char) : List Char × List Char :=
  cs.span Char.isDigit

/-- The digits before the point: a zero alone, or digits that do not start with one. -/
def readWhole : List Char → Except Fault (List Char × List Char)
  | '0' :: rest => .ok (['0'], rest)
  | cs =>
    match spanDigits cs with
    | ([], rest) => .error (.atRest rest)
    | found => .ok found

/-- The digits after a point, if there is one. -/
def readFraction : List Char → Except Fault (Option (List Char) × List Char)
  | '.' :: rest =>
    match spanDigits rest with
    | ([], rest) => .error (.atRest rest)
    | (digits, rest) => .ok (some digits, rest)
  | cs => .ok (none, cs)

/-- The digits of an exponent with an optional sign. -/
def readExponentDigits (cs : List Char) : Except Fault (Int × List Char) :=
  let (negative, cs) : Bool × List Char :=
    match cs with
    | '-' :: rest => (true, rest)
    | '+' :: rest => (false, rest)
    | _ => (false, cs)
  match spanDigits cs with
  | ([], rest) => .error (.atRest rest)
  | (digits, rest) =>
    let n : Int := digitsValue digits
    .ok (if negative then -n else n, rest)

/-- The exponent, if there is one. -/
def readExponent : List Char → Except Fault (Option Int × List Char)
  | c :: rest =>
    if c = 'e' ∨ c = 'E' then do
      let (n, rest) ← readExponentDigits rest
      .ok (some n, rest)
    else .ok (none, c :: rest)
  | [] => .ok (none, [])

/-- A number with the digits in front written behind it, as many as 64 bits hold, and the other digits. -/
def readWord (first : Nat) : List Char → Nat × List Char
  | [] => (first, [])
  | digit :: rest =>
    let longer := first * 10 + digitsValue [digit]
    if longer < 2 ^ 64 then readWord longer rest else (first, digit :: rest)

/-- A power of ten. -/
def powerOfTen (places : Nat) : Double :=
  Double.ofDecimal false 1 places

/-- A double with its point moved to the right by one product; one too large for the format is a fault. -/
def movedRight (x : Double) (places : Nat) : Except Fault Double :=
  if places ≤ 308 then
    let product := x.mul (powerOfTen places)
    if product.isFinite then .ok product else .error .numberOutOfRange
  else if x.isZero then .ok x
  else .error .numberOutOfRange

/-- A double with its point moved to the left, by one quotient for 308 places at most. -/
def movedLeft (x : Double) (places : Nat) : Double :=
  if places ≤ 308 then x.div (powerOfTen places)
  else if x.isZero then x
  else movedLeft (x.div (powerOfTen 308)) (places - 308)
termination_by places
decreasing_by omega

/-- The double that the digits around a point and an exponent write.  The point moves over the digits of the
fraction that are read, and over those before the point that are not. -/
def doubleOf (negative : Bool) (whole fraction : List Char) (exponent : Int) : Except Fault Number := do
  let (first, skipped) := readWord 0 whole
  let (significand, ignored) := readWord first fraction
  let power := exponent + skipped.length + ignored.length - fraction.length
  let x := Double.ofInt significand
  let moved ← if 0 ≤ power then movedRight x power.toNat else .ok (movedLeft x (-power).toNat)
  return .double (if negative then moved.neg else moved)

/-- The number that digits without a point or an exponent write: an integer when it fits 64 bits, and a
double otherwise; so is a negative zero. -/
def integerOf (negative : Bool) (digits : List Char) : Except Fault Number :=
  let n := digitsValue digits
  if negative then
    if n = 0 ∨ 2 ^ 63 < n then doubleOf true digits [] 0 else .ok (.int (-n))
  else if n < 2 ^ 64 then .ok (.int n) else doubleOf false digits [] 0

/-- The number in front. -/
def readNumber (cs : List Char) : Except Fault (Number × List Char) := do
  let (negative, cs) : Bool × List Char :=
    match cs with
    | '-' :: rest => (true, rest)
    | _ => (false, cs)
  let (whole, cs) ← readWhole cs
  let (fraction, cs) ← readFraction cs
  let (exponent, cs) ← readExponent cs
  match fraction, exponent with
  | none, none => return (← integerOf negative whole, cs)
  | _, _ => return (← doubleOf negative whole (fraction.getD []) (exponent.getD 0), cs)

mutual

/-- The value in front, after blanks. -/
def readValue (fuel depth : Nat) (cs : List Char) : Except Fault (Json × List Char) :=
  match fuel with
  | 0 => .error .endOfText
  | fuel + 1 =>
    match skipSpace cs with
    | 'n' :: 'u' :: 'l' :: 'l' :: rest => .ok (.null, rest)
    | 't' :: 'r' :: 'u' :: 'e' :: rest => .ok (.bool true, rest)
    | 'f' :: 'a' :: 'l' :: 's' :: 'e' :: rest => .ok (.bool false, rest)
    | '"' :: rest => do
      let (s, rest) ← readString (rest.length + 1) [] rest
      .ok (.string s, rest)
    | '[' :: rest =>
      if depth ≤ 1 then .error .tooDeep
      else
        match skipSpace rest with
        | ']' :: rest => .ok (.array [], rest)
        | rest => readItems fuel (depth - 1) [] rest
    | '{' :: rest =>
      if depth ≤ 1 then .error .tooDeep
      else
        match skipSpace rest with
        | '}' :: rest => .ok (.object [], rest)
        | rest => readMembers fuel (depth - 1) [] rest
    | cs => do
      let (n, rest) ← readNumber cs
      .ok (.number n, rest)

/-- The items up to the closing bracket; `done` holds those read, the latest first. -/
def readItems (fuel depth : Nat) (done : List Json) (cs : List Char) : Except Fault (Json × List Char) :=
  match fuel with
  | 0 => .error .endOfText
  | fuel + 1 => do
    let (item, rest) ← readValue fuel depth cs
    match skipSpace rest with
    | ',' :: rest => readItems fuel depth (item :: done) rest
    | ']' :: rest => .ok (.array (item :: done).reverse, rest)
    | rest => .error (.atRest rest)

/-- The members up to the closing brace; `done` holds those read, in order. -/
def readMembers (fuel depth : Nat) (done : Entries Json) (cs : List Char) : Except Fault (Json × List Char) :=
  match fuel with
  | 0 => .error .endOfText
  | fuel + 1 =>
    match skipSpace cs with
    | '"' :: rest => do
      let (key, rest) ← readString (rest.length + 1) [] rest
      match skipSpace rest with
      | ':' :: rest =>
        let (value, rest) ← readValue fuel depth rest
        let done := Entries.put key value done
        match skipSpace rest with
        | ',' :: rest => readMembers fuel depth done rest
        | '}' :: rest => .ok (.object done, rest)
        | rest => .error (.atRest rest)
      | rest => .error (.atRest rest)
    | rest => .error (.atRest rest)

end

/-- The levels of nesting below which reading stops. -/
def depthLimit : Nat := 128

/-- The JSON value that a text holds.  A value takes two steps a character at most, so the fuel never
ends before the text does. -/
def read (text : String) : Except Fault Json := do
  let cs := text.toList
  let (value, rest) ← readValue (2 * cs.length + 2) depthLimit cs
  match skipSpace rest with
  | [] => .ok value
  | c :: _ => .error (.trailing c)

end Invocation.Json
