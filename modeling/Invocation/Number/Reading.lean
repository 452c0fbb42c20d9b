import Invocation.Number.Double

/-!
# Reading numbers

`wholeOfText?` reads a whole number with an optional sign, `Double.ofText?` a decimal with an optional
fraction and exponent, or the name of an infinity or of a NaN.
-/

namespace Invocation

/-- The number that decimal digits write. -/
def digitsValue (digits : List Char) : Nat :=
  digits.foldl (fun n c ↦ n * 10 + (c.toNat - '0'.toNat)) 0

/-- A sign in front, and the characters after it. -/
def splitSign : List Char → Bool × List Char
  | '-' :: rest => (true, rest)
  | '+' :: rest => (false, rest)
  | cs => (false, cs)

/-- The number with the given sign. -/
def signed (negative : Bool) (n : Nat) : Int :=
  if negative then -(n : Int) else n

/-- The whole number that a text writes. -/
def wholeOfText? (text : String) : Option Int :=
  let (negative, digits) := splitSign text.toList
  if digits.isEmpty || !digits.all Char.isDigit then none
  else some (signed negative (digitsValue digits))

/-- The exponent behind the digits of a decimal; nothing there is the exponent zero. -/
def exponentOfChars? : List Char → Option Int
  | [] => some 0
  | c :: rest =>
    let (negative, digits) := splitSign rest
    if (c != 'e' && c != 'E') || digits.isEmpty || !digits.all Char.isDigit then none
    else some (signed negative (digitsValue digits))

namespace Double

/-- The number that an unsigned decimal writes; it needs a digit before or after the point. -/
def ofDecimalChars? (negative : Bool) (cs : List Char) : Option Double :=
  let whole := cs.takeWhile Char.isDigit
  let (fraction, rest) :=
    match cs.dropWhile Char.isDigit with
    | '.' :: rest => (rest.takeWhile Char.isDigit, rest.dropWhile Char.isDigit)
    | rest => ([], rest)
  if whole.isEmpty && fraction.isEmpty then none
  else
    (exponentOfChars? rest).map fun exponent ↦
      ofDecimal negative (digitsValue (whole ++ fraction)) (exponent - fraction.length)

/-- The number that a text writes. -/
def ofText? (text : String) : Option Double :=
  let (negative, cs) := splitSign text.toList
  let word := String.ofList (cs.map Char.toLower)
  if word = "inf" ∨ word = "infinity" then some (infinity negative)
  else if word = "nan" then some nan
  else ofDecimalChars? negative cs

end Double

end Invocation
