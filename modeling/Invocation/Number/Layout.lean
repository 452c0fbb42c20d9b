import Invocation.Number.Shortest

/-!
# Layout of decimal numbers

A layout decides for which powers of ten of the leading digit a number is written positionally and how an
exponent is written otherwise.  A positional number always has a fraction.
-/

namespace Invocation

/-- How a decimal number is written. -/
structure Layout where
  /-- Powers of the leading digit that are written positionally. -/
  positional : Int → Bool
  /-- A positive exponent carries a sign. -/
  plus : Bool

namespace Layout

/-- A number of zeros. -/
def zeros (n : Nat) : String :=
  String.ofList (List.replicate n '0')

/-- Digits with a point after the digit of power zero; `leading` is the power of the first digit. -/
def writePositional (digits : List Char) (leading : Int) : String :=
  if leading < 0 then "0." ++ zeros (-leading - 1).toNat ++ String.ofList digits
  else
    let whole := leading.toNat + 1
    if digits.length ≤ whole then
      String.ofList digits ++ zeros (whole - digits.length) ++ ".0"
    else String.ofList (digits.take whole) ++ "." ++ String.ofList (digits.drop whole)

/-- Digits with a point after the first one, and an exponent. -/
def writeScientific (plus : Bool) (digits : List Char) (leading : Int) : String :=
  let fraction := digits.drop 1
  String.ofList (digits.take 1)
    ++ (if fraction.isEmpty then "" else "." ++ String.ofList fraction)
    ++ "e" ++ (if plus && 0 ≤ leading then "+" else "") ++ toString leading

/-- The text of a finite number. -/
def write (layout : Layout) (x : Double) : String :=
  let decimal := Decimal.shortest x
  let digits := Nat.toDigits 10 decimal.digits
  let leading := decimal.power + (digits.length : Int) - 1
  (if x.isNegative then "-" else "")
    ++ if layout.positional leading then writePositional digits leading
      else writeScientific layout.plus digits leading

end Layout

end Invocation
