/-!
# Double precision numbers

A `Double` is a 64-bit binary floating point number, held as its bits.  A finite one has the value
`± significand · 2 ^ exponent`; `ofRatio` rounds a quotient of natural numbers to the nearest one, a tie
to the even significand.  Integral parts and remainders are exact; sums, products, quotients and powers
are those of the processor.
-/

namespace Invocation

-- powers of whole numbers are those of the core library, also where other powers are known
attribute [default_instance 20000] instPowNat

/-- A 64-bit binary floating point number. -/
structure Double where
  bits : UInt64
  deriving DecidableEq, Inhabited

namespace Double

/-- The sign bit is set. -/
def isNegative (x : Double) : Bool :=
  2 ^ 63 ≤ x.bits.toNat

/-- The bits without the sign. -/
def magnitudeBits (x : Double) : Nat :=
  x.bits.toNat % 2 ^ 63

/-- The exponent field. -/
def exponentField (x : Double) : Nat :=
  x.magnitudeBits / 2 ^ 52

/-- The fraction field. -/
def fractionField (x : Double) : Nat :=
  x.magnitudeBits % 2 ^ 52

/-- Neither an infinity nor a NaN. -/
def isFinite (x : Double) : Bool :=
  x.exponentField != 2047

/-- Not a number. -/
def isNaN (x : Double) : Bool :=
  x.exponentField == 2047 && x.fractionField != 0

/-- Zero of either sign. -/
def isZero (x : Double) : Bool :=
  x.magnitudeBits == 0

/-- The integral significand of a finite number. -/
def significand (x : Double) : Nat :=
  if x.exponentField = 0 then x.fractionField else x.fractionField + 2 ^ 52

/-- The exponent of two that goes with the integral significand. -/
def exponent (x : Double) : Int :=
  if x.exponentField = 0 then -1074 else (x.exponentField : Int) - 1075

/-- The number with the given sign and the bits of a magnitude. -/
def ofMagnitude (negative : Bool) (magnitude : Nat) : Double :=
  ⟨UInt64.ofNat (magnitude + if negative then 2 ^ 63 else 0)⟩

/-- Infinity of the given sign. -/
def infinity (negative : Bool) : Double :=
  ofMagnitude negative (2047 * 2 ^ 52)

/-- The quiet NaN. -/
def nan : Double :=
  ofMagnitude false (2047 * 2 ^ 52 + 2 ^ 51)

/-- Numerator and denominator of `num / den · 2 ^ (-shift)`. -/
def scaled (num den : Nat) (shift : Int) : Nat × Nat :=
  if 0 ≤ shift then (num, den * Nat.pow 2 shift.toNat) else (num * Nat.pow 2 (-shift).toNat, den)

/-- The quotient rounded to the nearest integer, a tie to the even one. -/
def roundQuotient (num den : Nat) : Nat :=
  let quotient := num / den
  let twice := 2 * (num % den)
  if den < twice || (twice == den && quotient % 2 == 1) then quotient + 1 else quotient

/-- The exponent of two at which `num / den` has a significand of 53 bits, or the least one there is. -/
def fitExponent (num den : Nat) : Int :=
  let low := max ((Nat.log2 num : Int) - Nat.log2 den - 53) (-1074)
  let (n, d) := scaled num den low
  if 2 ^ 53 ≤ n / d then low + 1 else low

/-- The number nearest to `± num / den`, for a positive denominator. -/
def ofRatio (negative : Bool) (num den : Nat) : Double :=
  if num = 0 then ofMagnitude negative 0
  else
    let power := fitExponent num den
    let (n, d) := scaled num den power
    let magnitude := (power + 1074).toNat * 2 ^ 52 + roundQuotient n d
    if 2047 * 2 ^ 52 ≤ magnitude then infinity negative else ofMagnitude negative magnitude

/-- The number nearest to `± digits · 10 ^ power`.  Powers outside the range of the format are decided
without computing them. -/
def ofDecimal (negative : Bool) (digits : Nat) (power : Int) : Double :=
  if digits = 0 then ofMagnitude negative 0
  else if 400 < power then infinity negative
  else if power < -400 - (Nat.log2 digits : Int) then ofMagnitude negative 0
  else if 0 ≤ power then ofRatio negative (digits * Nat.pow 10 power.toNat) 1
  else ofRatio negative digits (Nat.pow 10 (-power).toNat)

/-- The number nearest to an integer. -/
def ofInt (n : Int) : Double :=
  ofRatio (decide (n < 0)) n.natAbs 1

/-- The absolute value of a finite number without its fraction. -/
def wholePart (x : Double) : Nat :=
  if 0 ≤ x.exponent then x.significand * Nat.pow 2 x.exponent.toNat
  else x.significand / Nat.pow 2 (-x.exponent).toNat

/-- A finite number without a fraction. -/
def isIntegral (x : Double) : Bool :=
  x.isFinite && (0 ≤ x.exponent || x.significand % Nat.pow 2 (-x.exponent).toNat == 0)

/-- The integer toward zero of a finite number. -/
def toInt (x : Double) : Int :=
  if x.isNegative then -(x.wholePart : Int) else x.wholePart

/-- The number without its fraction. -/
def trunc (x : Double) : Double :=
  if x.isFinite then ofRatio x.isNegative x.wholePart 1 else x

/-- The nearest integral number, a half going away from zero. -/
def round (x : Double) : Double :=
  if !x.isFinite || 0 ≤ x.exponent then x
  else
    let den := Nat.pow 2 (-x.exponent).toNat
    ofRatio x.isNegative ((2 * x.significand + den) / (2 * den)) 1

/-- The same magnitude with the other sign. -/
def neg (x : Double) : Double :=
  ofMagnitude (!x.isNegative) x.magnitudeBits

/-- The same magnitude without a sign. -/
def abs (x : Double) : Double :=
  ofMagnitude false x.magnitudeBits

/-- The processor's number with these bits. -/
def toFloat (x : Double) : Float :=
  Float.ofBits x.bits

/-- The bits of a processor's number. -/
def ofFloat (x : Float) : Double :=
  ⟨x.toBits⟩

/-- Sum. -/
def add (x y : Double) : Double := ofFloat (x.toFloat + y.toFloat)

/-- Difference. -/
def sub (x y : Double) : Double := ofFloat (x.toFloat - y.toFloat)

/-- Product. -/
def mul (x y : Double) : Double := ofFloat (x.toFloat * y.toFloat)

/-- Quotient. -/
def div (x y : Double) : Double := ofFloat (x.toFloat / y.toFloat)

/-- Power. -/
def pow (x y : Double) : Double := ofFloat (Float.pow x.toFloat y.toFloat)

/-- Equal as numbers: zeros of both signs are equal, a NaN equals nothing. -/
def numEq (x y : Double) : Bool := x.toFloat == y.toFloat

/-- The remainder of the quotient rounded toward zero; it has the sign of the dividend. -/
def rem (x y : Double) : Double :=
  if x.isNaN || y.isNaN || !x.isFinite || y.isZero then nan
  else if !y.isFinite then x
  else
    let power := min x.exponent y.exponent
    let a := x.significand * Nat.pow 2 (x.exponent - power).toNat
    let b := y.significand * Nat.pow 2 (y.exponent - power).toNat
    let (n, d) := scaled (a % b) 1 (-power)
    ofRatio x.isNegative n d

/-- The quotient whose remainder is not negative. -/
def divEuclid (x y : Double) : Double :=
  let quotient := (x.div y).trunc
  let rest := x.rem y
  if rest.isNegative && !rest.isZero && !rest.isNaN then
    if y.isNegative then quotient.add (ofInt 1) else quotient.sub (ofInt 1)
  else quotient

/-- A whole power by repeated squaring; a negative power is the reciprocal of the positive one. -/
def powInt (base : Double) (power : Int) : Double :=
  let positive := squaring power.natAbs 64 base (ofInt 1)
  if power < 0 then (ofInt 1).div positive else positive
where
  /-- Multiplies the result by the base for each bit of the power. -/
  squaring (n : Nat) : Nat → Double → Double → Double
    | 0, _, result => result
    | steps + 1, base, result =>
      let result := if n % 2 = 1 then result.mul base else result
      if n / 2 = 0 then result else squaring (n / 2) steps (base.mul base) result

/-- The position of a number in the order −NaN, −∞, …, −0, 0, …, ∞, NaN. -/
def orderKey (x : Double) : Int :=
  if x.isNegative then -(x.magnitudeBits : Int) - 1 else x.magnitudeBits

end Double

end Invocation
