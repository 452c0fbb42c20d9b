import Invocation.Number.Double

/-!
# Shortest decimal digits

`Decimal.shortest` gives a finite positive number the decimal with the fewest digits that reads back as
the same number, and of those the nearest.  The reals that read back as `m · 2 ^ q` form an interval
around it, which includes its ends exactly when `m` is even; a grid of `n`-digit decimals meets the
interval if and only if one of the number's two neighbours on the grid lies in it.
-/

namespace Invocation

/-- The decimal `digits · 10 ^ power`. -/
structure Decimal where
  digits : Nat
  power : Int
  deriving DecidableEq, Inhabited

namespace Decimal

/-- The reals `num / den` with `low ≤ num / den ≤ high`, all over one denominator. -/
structure Reach where
  low : Nat
  value : Nat
  high : Nat
  den : Nat
  closed : Bool

/-- The reals that are read as the given finite number. -/
def reach (x : Double) : Reach :=
  let m := 4 * x.significand
  let below := if x.fractionField = 0 && 1 < x.exponentField then 1 else 2
  let power := x.exponent - 2
  let unit := if 0 ≤ power then Nat.pow 2 power.toNat else 1
  let den := if 0 ≤ power then 1 else Nat.pow 2 (-power).toNat
  ⟨(m - below) * unit, m * unit, (m + 2) * unit, den, x.significand % 2 == 0⟩

/-- Numerator and denominator of `num / den / 10 ^ power`. -/
def shifted (num den : Nat) (power : Int) : Nat × Nat :=
  if 0 ≤ power then (num, den * Nat.pow 10 power.toNat) else (num * Nat.pow 10 (-power).toNat, den)

/-- The power of ten of the leading digit of a positive quotient. -/
def leadingPower (num den : Nat) : Int :=
  let guess := ((Nat.log2 num : Int) - Nat.log2 den) * 30103 / 100000
  let (n, d) := shifted num den guess
  if n < d then guess - 1 else if 10 * d ≤ n then guess + 1 else guess

/-- The point `k · 10 ^ power` lies in the interval. -/
def Reach.holds (r : Reach) (k : Nat) (power : Int) : Bool :=
  let (point, den) := if 0 ≤ power then (k * Nat.pow 10 power.toNat, 1) else (k, Nat.pow 10 (-power).toNat)
  let low := r.low * den
  let high := r.high * den
  let at_ := point * r.den
  if r.closed then low ≤ at_ && at_ ≤ high else low < at_ && at_ < high

/-- The neighbour of the value on the grid `10 ^ power` that reads back, the nearer one of two. -/
def Reach.onGrid? (r : Reach) (power : Int) : Option Nat :=
  let (n, d) := shifted r.value r.den power
  let down := n / d
  let twice := 2 * (n % d)
  let preferDown := twice < d || (twice == d && down % 2 == 0)
  match r.holds down power, r.holds (down + 1) power with
  | true, true => some (if preferDown then down else down + 1)
  | true, false => some down
  | false, true => some (down + 1)
  | false, false => none

/-- The same decimal without zeros at the end. -/
def stripZeros (fuel digits : Nat) (power : Int) : Decimal :=
  match fuel with
  | 0 => ⟨digits, power⟩
  | fuel + 1 =>
    if digits ≠ 0 && digits % 10 == 0 then stripZeros fuel (digits / 10) (power + 1)
    else ⟨digits, power⟩

/-- Tries the grids from the coarsest to one of 17 digits. -/
def search (r : Reach) (leading : Int) : Nat → Decimal
  | 0 => let (n, d) := shifted r.value r.den (leading - 16); ⟨n / d, leading - 16⟩
  | left + 1 =>
    let power := leading - (16 - left : Nat)
    match r.onGrid? power with
    | some k => if k = 0 then search r leading left else stripZeros 20 k power
    | none => search r leading left

/-- The shortest decimal that reads back as the absolute value of the given finite number. -/
def shortest (x : Double) : Decimal :=
  if x.isZero then ⟨0, 0⟩
  else
    let r := reach x
    search r (leadingPower r.value r.den) 17

end Decimal

end Invocation
