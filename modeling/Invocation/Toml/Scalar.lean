import Invocation.Json.Reader
import Invocation.Number.Reading
import Invocation.Toml.Value

/-!
# TOML keys and scalars

Reading what has no parts: keys, strings of the four forms, numbers, truth values, dates and times.
-/

namespace Invocation.Toml

/-- The fault of meeting the rest of a document where something else is expected. -/
def Fault.atRest : List Char → Fault
  | [] => .unexpectedEnd
  | c :: _ => .unexpected c

/-- A blank inside a line. -/
def isSpace (c : Char) : Bool :=
  c == ' ' || c == '\t'

/-- The text after the blanks in front. -/
def skipSpace (cs : List Char) : List Char :=
  cs.dropWhile isSpace

/-- A control character that may stand nowhere. -/
def isControl (c : Char) : Bool :=
  (c.toNat < 32 && c != '\t') || c == '\x7f'

/-! ## Strings -/

/-- The character with a code of this many hexadecimal digits in front. -/
def readCode (digits : Nat) (cs : List Char) : Except Fault (Char × List Char) :=
  let code := (cs.take digits).foldl
    (fun n c ↦
      match n, Json.hexValue? c with
      | some n, some d => some (n * 16 + d)
      | _, _ => none)
    (some 0)
  match code with
  | none => .error .badEscape
  | some n =>
    if cs.length < digits ∨ 0x10FFFF < n ∨ (0xD800 ≤ n ∧ n < 0xE000) then .error .badEscape
    else .ok (Char.ofNat n, cs.drop digits)

/-- The character of an escape, after its backslash. -/
def readEscape : List Char → Except Fault (Char × List Char)
  | [] => .error .unexpectedEnd
  | c :: rest =>
    match c with
    | 'b' => .ok ('\x08', rest)
    | 't' => .ok ('\t', rest)
    | 'n' => .ok ('\n', rest)
    | 'f' => .ok ('\x0c', rest)
    | 'r' => .ok ('\r', rest)
    | 'e' => .ok ('\x1b', rest)
    | '"' => .ok ('"', rest)
    | '\\' => .ok ('\\', rest)
    | 'x' => readCode 2 rest
    | 'u' => readCode 4 rest
    | 'U' => readCode 8 rest
    | _ => .error .badEscape

/-- The rest of a string in double quotes; `done` holds the characters read, the latest first. -/
def readBasic (fuel : Nat) (done : List Char) (cs : List Char) : Except Fault (String × List Char) :=
  match fuel, cs with
  | 0, _ | _, [] => .error .unexpectedEnd
  | _, '"' :: rest => .ok (String.ofList done.reverse, rest)
  | fuel + 1, '\\' :: rest => do
    let (c, rest) ← readEscape rest
    readBasic fuel (c :: done) rest
  | fuel + 1, c :: rest =>
    if isControl c then .error .controlCharacter else readBasic fuel (c :: done) rest

/-- The rest of a string in single quotes. -/
def readLiteral (done : List Char) : List Char → Except Fault (String × List Char)
  | [] => .error .unexpectedEnd
  | c :: rest =>
    if c = '\'' then .ok (String.ofList done.reverse, rest)
    else if isControl c then .error .controlCharacter
    else readLiteral (c :: done) rest

/-- The text after a line break in front, if there is one. -/
def lineBreak? : List Char → Option (List Char)
  | '\n' :: rest => some rest
  | '\r' :: '\n' :: rest => some rest
  | _ => none

/-- The text after blanks and line breaks. -/
def skipLines : List Char → List Char
  | '\r' :: '\n' :: rest => skipLines rest
  | c :: rest => if isSpace c ∨ c = '\n' then skipLines rest else c :: rest
  | [] => []

/-- The rest of a string in three quotation marks; only with double ones it has escapes.  Up to two
marks may stand before the closing three. -/
def readLong (quote : Char) (fuel : Nat) (done : List Char) (cs : List Char) :
    Except Fault (String × List Char) :=
  match fuel with
  | 0 => .error .unexpectedEnd
  | fuel + 1 =>
    match cs with
    | [] => .error .unexpectedEnd
    | c :: rest =>
      if c = quote then
        let run := cs.takeWhile (· == quote)
        if run.length < 3 then readLong quote fuel (run ++ done) (cs.drop run.length)
        else if 5 < run.length then .error (.unexpected quote)
        else
          .ok (String.ofList (List.replicate (run.length - 3) quote ++ done).reverse,
            cs.drop run.length)
      else if c = '\\' ∧ quote = '"' then
        match lineBreak? (skipSpace rest) with
        | some rest => readLong quote fuel done (skipLines rest)
        | none => do
          let (c, rest) ← readEscape rest
          readLong quote fuel (c :: done) rest
      else
        match lineBreak? cs with
        | some rest => readLong quote fuel ('\n' :: done) rest
        | none =>
          if isControl c then .error .controlCharacter else readLong quote fuel (c :: done) rest

/-- The rest of a string in three quotation marks, without a line break right behind the first three. -/
def readLongString (quote : Char) (cs : List Char) : Except Fault (String × List Char) :=
  readLong quote (cs.length + 1) [] ((lineBreak? cs).getD cs)

/-- Reads a string of any form, if one stands in front. -/
def readString? (cs : List Char) : Option (Except Fault (String × List Char)) :=
  match cs with
  | '"' :: '"' :: '"' :: rest => some (readLongString '"' rest)
  | '\'' :: '\'' :: '\'' :: rest => some (readLongString '\'' rest)
  | '"' :: rest => some (readBasic (rest.length + 1) [] rest)
  | '\'' :: rest => some (readLiteral [] rest)
  | _ => none

/-! ## Keys -/

/-- A character of a key without quotation marks. -/
def isBare (c : Char) : Bool :=
  c.isAlphanum || c == '_' || c == '-'

/-- Reads one part of a key. -/
def readKeyPart (cs : List Char) : Except Fault (String × List Char) :=
  match cs with
  | '"' :: rest => readBasic (rest.length + 1) [] rest
  | '\'' :: rest => readLiteral [] rest
  | cs =>
    let bare := cs.takeWhile isBare
    if bare.isEmpty then .error (.atRest cs)
    else .ok (String.ofList bare, cs.drop bare.length)

/-- Reads a key and the blanks behind it; points separate its parts. -/
def readKey (fuel : Nat) (cs : List Char) : Except Fault (List String × List Char) :=
  match fuel with
  | 0 => .error .unexpectedEnd
  | fuel + 1 => do
    let (part, rest) ← readKeyPart (skipSpace cs)
    match skipSpace rest with
    | '.' :: rest => do
      let (parts, rest) ← readKey fuel rest
      return (part :: parts, rest)
    | rest => return ([part], rest)

/-! ## Numbers -/

/-- The digits without the underscores between them; an underscore elsewhere makes them no digits. -/
def plainDigits? (isDigit : Char → Bool) : List Char → Option (List Char)
  | [] => none
  | [c] => if isDigit c then some [c] else none
  | c :: '_' :: rest => if isDigit c then (plainDigits? isDigit rest).map (c :: ·) else none
  | c :: rest => if isDigit c then (plainDigits? isDigit rest).map (c :: ·) else none

/-- The digits of a whole number, of which only zero itself begins with a zero. -/
def wholeDigits? (cs : List Char) : Option (List Char) :=
  (plainDigits? Char.isDigit cs).filter fun digits ↦ digits.length = 1 || digits.head? != some '0'

/-- The number that digits of a base write. -/
def basedNumber? (base : Nat) (cs : List Char) : Option Nat :=
  let isDigit (c : Char) : Bool := (Json.hexValue? c).any fun d ↦ decide (d < base)
  (plainDigits? isDigit cs).map fun digits ↦
    digits.foldl (fun n c ↦ n * base + (Json.hexValue? c).getD 0) 0

/-- The number is no whole number of 128 bits. -/
def outOfRange (n : Int) : Bool :=
  n < -2 ^ 127 || 2 ^ 128 ≤ n

/-- A whole number. -/
def intOf (n : Int) : Except Fault Value :=
  if outOfRange n then .error .badNumber else .ok (.int n)

/-- Reads the characters of a decimal number after its sign. -/
def decimalOf (negative : Bool) (cs : List Char) : Except Fault Value :=
  let whole := cs.takeWhile fun c ↦ c != '.' && c != 'e' && c != 'E'
  let rest := cs.drop whole.length
  let (fraction, rest) :=
    match rest with
    | '.' :: rest =>
      let digits := rest.takeWhile fun c ↦ c != 'e' && c != 'E'
      (some digits, rest.drop digits.length)
    | rest => (none, rest)
  let exponent :=
    match rest with
    | [] => some none
    | _ :: rest =>
      let (negative, digits) := splitSign rest
      (plainDigits? Char.isDigit digits).map fun digits ↦ some (signed negative (digitsValue digits))
  match wholeDigits? whole, fraction, exponent with
  | some whole, none, some none => intOf (signed negative (digitsValue whole))
  | some whole, none, some (some exponent) =>
    .ok (.double (Double.ofDecimal negative (digitsValue whole) exponent))
  | some whole, some fraction, some exponent =>
    match plainDigits? Char.isDigit fraction with
    | some fraction =>
      .ok (.double (Double.ofDecimal negative (digitsValue (whole ++ fraction))
        (exponent.getD 0 - fraction.length)))
    | none => .error .badNumber
  | _, _, _ => .error .badNumber

/-- Reads the characters of a number. -/
def numberOf (cs : List Char) : Except Fault Value :=
  match cs with
  | '0' :: 'x' :: digits => ((basedNumber? 16 digits).elim (.error .badNumber) (intOf ·))
  | '0' :: 'o' :: digits => ((basedNumber? 8 digits).elim (.error .badNumber) (intOf ·))
  | '0' :: 'b' :: digits => ((basedNumber? 2 digits).elim (.error .badNumber) (intOf ·))
  | cs =>
    let (negative, rest) := splitSign cs
    if rest = "inf".toList then .ok (.double (Double.infinity negative))
    else if rest = "nan".toList then .ok (.double Double.nan)
    else decimalOf negative rest

/-! ## Dates and times -/

/-- The number of two digits, between bounds. -/
def twoDigits? (low high : Nat) : List Char → Option Nat
  | [a, b] =>
    if a.isDigit ∧ b.isDigit then
      some (digitsValue [a, b]) |>.filter fun n ↦ low ≤ n && n ≤ high
    else none
  | _ => none

/-- The number of days of a month. -/
def daysOfMonth (year month : Nat) : Nat :=
  if month = 2 then
    if year % 4 = 0 ∧ (year % 100 ≠ 0 ∨ year % 400 = 0) then 29 else 28
  else if month = 4 ∨ month = 6 ∨ month = 9 ∨ month = 11 then 30
  else 31

/-- A day of the calendar: year, month and day with dashes between. -/
def isDay : List Char → Bool
  | [a, b, c, d, '-', e, f, '-', g, h] =>
    [a, b, c, d].all Char.isDigit
      && match twoDigits? 1 12 [e, f] with
        | some month => (twoDigits? 1 (daysOfMonth (digitsValue [a, b, c, d]) month) [g, h]).isSome
        | none => false
  | _ => false

/-- Seconds with an optional fraction. -/
def isSeconds : List Char → Bool
  | [a, b] => (twoDigits? 0 60 [a, b]).isSome
  | a :: b :: '.' :: fraction =>
    (twoDigits? 0 60 [a, b]).isSome && !fraction.isEmpty && fraction.all Char.isDigit
  | _ => false

/-- A time of day: hours and minutes, and seconds behind another colon. -/
def isTime : List Char → Bool
  | a :: b :: ':' :: c :: d :: rest =>
    (twoDigits? 0 23 [a, b]).isSome && (twoDigits? 0 59 [c, d]).isSome
      && match rest with
        | [] => true
        | ':' :: seconds => isSeconds seconds
        | _ => false
  | _ => false

/-- A time zone behind a time. -/
def isZone : List Char → Bool
  | [] => true
  | ['Z'] => true
  | ['z'] => true
  | [sign, a, b, ':', c, d] =>
    (sign == '+' || sign == '-') && (twoDigits? 0 23 [a, b]).isSome
      && (twoDigits? 0 59 [c, d]).isSome
  | _ => false

/-- A time with an optional time zone. -/
def isZonedTime (cs : List Char) : Bool :=
  let time := cs.takeWhile fun c ↦ c.isDigit || c == ':' || c == '.'
  isTime time && isZone (cs.drop time.length)

/-- A day, a time, or a day and a time with an optional time zone. -/
def isDate (cs : List Char) : Bool :=
  isDay cs || isTime cs
    || (isDay (cs.take 10)
      && match cs.drop 10 with
        | mark :: rest => (mark == 'T' || mark == 't' || mark == ' ') && isZonedTime rest
        | [] => false)

/-! ## Scalars -/

/-- A character that ends a scalar without quotation marks. -/
def endsScalar (c : Char) : Bool :=
  isControl c || isSpace c || [',', ']', '\x7d', '#', '=', '[', '\x7b', '"', '\''].contains c

/-- The characters of a scalar without quotation marks.  A time behind a day and a blank belongs to it. -/
def spanScalar (cs : List Char) : List Char × List Char :=
  let first := cs.takeWhile fun c ↦ !endsScalar c
  match cs.drop first.length with
  | ' ' :: c :: rest =>
    if isDay first ∧ c.isDigit then
      let second := (c :: rest).takeWhile fun c ↦ !endsScalar c
      (first ++ ' ' :: second, (c :: rest).drop second.length)
    else (first, ' ' :: c :: rest)
  | rest => (first, rest)

/-- The value of a scalar without quotation marks. -/
def scalarOf (cs : List Char) : Except Fault Value :=
  if cs = "true".toList then .ok (.bool true)
  else if cs = "false".toList then .ok (.bool false)
  else if isDate cs then .ok (.date (String.ofList cs))
  else numberOf cs

end Invocation.Toml
