import Invocation.Formula.Term

/-!
# Operations on values

Arithmetic, concatenation, comparison, membership and slices.  Whole numbers have 128 bits; an operation
whose result does not fit them fails, as does one that does not apply to its operands.
-/

namespace Invocation.Formula

namespace Value

/-- The fault of an operator that does not apply to its operands. -/
def impossible (symbol : String) (first second : Value) : Fault :=
  .invalid ("tried to use " ++ symbol ++ " operator on unsupported types " ++ first.kind.name ++ " and "
    ++ second.kind.name)

/-- The fault of an operation without a result. -/
def failed (symbol : String) (first second : Value) : Fault :=
  .invalid ("unable to calculate " ++ first.kind.name ++ " " ++ symbol ++ " " ++ second.kind.name)

/-- The whole number, if it fits 128 bits. -/
def checked (fault : Fault) (n : Int) : Except Fault Value :=
  if Word.signed128.holds n then .ok (ofInt n) else .error fault

/-- The count that a value gives for repeating. -/
def count? (value : Value) : Option Nat :=
  value.toInt?.bind fun n ↦ if Word.unsigned64.holds n then some n.toNat else Option.none

/-- Repeats a text. -/
def repeatText (text : String) (times : Value) : Except Fault Value :=
  match times.count? with
  | some n => .ok (string (String.join (List.replicate n text)))
  | Option.none => .error (.invalid "strings can only be multiplied with integers")

/-- Repeats a list. -/
def repeatList (items : List Value) (times : Value) : Except Fault Value :=
  match times.count? with
  | some n => .ok (ofComputed (List.replicate n items).flatten)
  | Option.none => .error (.invalid "sequences and iterables can only be multiplied with integers")

/-- Sum; two lists are joined, and so are two strings. -/
def add (first second : Value) : Except Fault Value :=
  match first, second with
  | list _ items, list _ others => .ok (ofComputed (items ++ others))
  | first, second =>
    match matched? toDouble? first second with
    | some (.ints a b) => checked (failed "+" first second) (a + b)
    | some (.doubles a b) => .ok (double (a.add b))
    | some (.strings a b) => .ok (string (a ++ b))
    | Option.none => .error (impossible "+" first second)

/-- Difference. -/
def subtract (first second : Value) : Except Fault Value :=
  match matched? toDouble? first second with
  | some (.ints a b) => checked (failed "-" first second) (a - b)
  | some (.doubles a b) => .ok (double (a.sub b))
  | _ => .error (impossible "-" first second)

/-- Product; a string or a list is repeated. -/
def multiply (first second : Value) : Except Fault Value :=
  match first, second with
  | string s, times => repeatText s times
  | times, string s => repeatText s times
  | list _ items, times => repeatList items times
  | times, list _ items => repeatList items times
  | first, second =>
    match matched? toDouble? first second with
    | some (.ints a b) => checked (failed "*" first second) (a * b)
    | some (.doubles a b) => .ok (double (a.mul b))
    | _ => .error (impossible "*" first second)

/-- Quotient, always a double. -/
def divide (first second : Value) : Except Fault Value :=
  match first.toDouble?, second.toDouble? with
  | some a, some b => .ok (double (a.div b))
  | _, _ => .error (impossible "/" first second)

/-- The whole quotient that leaves a remainder which is not negative. -/
def divideWhole (first second : Value) : Except Fault Value :=
  match matched? toDouble? first second with
  | some (.ints a b) =>
    if b = 0 then .error (failed "//" first second) else checked (failed "//" first second) (a / b)
  | some (.doubles a b) => .ok (double (a.divEuclid b))
  | _ => .error (impossible "//" first second)

/-- The remainder: of whole numbers never negative, of doubles with the sign of the dividend. -/
def remainder (first second : Value) : Except Fault Value :=
  match matched? toDouble? first second with
  | some (.ints a b) =>
    if b = 0 then .error (failed "%" first second) else checked (failed "%" first second) (a % b)
  | some (.doubles a b) => .ok (double (a.rem b))
  | _ => .error (impossible "%" first second)

/-- A power of a whole number; it fails as soon as the result cannot fit 128 bits. -/
def powerOfInt? (base : Int) (exponent : Nat) : Option Int :=
  if base.natAbs ≤ 1 then some (if exponent % 2 = 0 then base * base else base)
  else if exponent ≤ 127 then some (Int.pow base exponent)
  else Option.none

/-- Power; the exponent of a whole number is not negative. -/
def power (first second : Value) : Except Fault Value :=
  match matched? toDouble? first second with
  | some (.ints a b) =>
    let fault := failed "**" first second
    if b < 0 ∨ 2 ^ 32 ≤ b then .error fault
    else if b = 0 then .ok (ofInt 1)
    else
      match powerOfInt? a b.toNat with
      | some n => checked fault n
      | Option.none => .error fault
  | some (.doubles a b) => .ok (double (a.pow b))
  | _ => .error (impossible "**" first second)

/-- The text of one value behind that of another. -/
def concatenate (first second : Value) : Except Fault Value :=
  if first.isMissing || second.isMissing then .error .undefinedValue
  else .ok (string (first.text ++ second.text))

/-- The number with the other sign.  The number next to those of 128 bits with a sign stays as it is, so
that the least of them can be written down. -/
def negate : Value → Except Fault Value
  | int .unsigned128 n =>
    if n = Word.signed128.greatest + 1 then .ok (int .unsigned128 n)
    else checked (.invalid "overflow") (-n)
  | int _ n => checked (.invalid "overflow") (-n)
  | double x => .ok (double x.neg)
  | _ => .error (.invalid "invalid operation")

/-- What an operator computes. -/
def binary : Operator → Value → Value → Except Fault Value
  | .add => add
  | .subtract => subtract
  | .multiply => multiply
  | .divide => divide
  | .divideWhole => divideWhole
  | .remainder => remainder
  | .power => power
  | .concatenate => concatenate

/-! ## Comparison and membership -/

/-- Some part of the text is the other text. -/
def containsText (part : List Char) : List Char → Bool
  | [] => part.isEmpty
  | c :: rest => part.isPrefixOf (c :: rest) || containsText part rest

/-- A string contains a text, a list an item, a map a key; undefined values and functions contain nothing. -/
def contains (container value : Value) : Except Fault Bool :=
  match container with
  | undefined _ => .ok false
  | function _ => .ok false
  | string s => .ok (containsText value.text.toList s.toList)
  | list _ items => .ok (items.any fun item ↦ item.equal value)
  | map entries => .ok (lookup? value entries).isSome
  | _ => .error (.invalid "cannot perform a containment check on this value")

/-- What a comparison says; missing values cannot be compared. -/
def holds (comparison : Comparison) (first second : Value) : Except Fault Bool :=
  if first.isMissing || second.isMissing then .error .undefinedValue
  else
    match comparison with
    | .eq => .ok (first.equal second)
    | .ne => .ok (!first.equal second)
    | .lt => .ok (first.compare second).isLT
    | .le => .ok (first.compare second).isLE
    | .gt => .ok (first.compare second).isGT
    | .ge => .ok (first.compare second).isGE
    | .isIn => second.contains first
    | .notIn => (second.contains first).map Bool.not

/-- The truth of a value that decides something; a missing one decides nothing. -/
def truth (value : Value) : Except Fault Bool :=
  if value.isMissing then .error .undefinedValue else .ok value.isTrue

/-! ## Slices -/

/-- A whole number of 64 bits with a sign. -/
def toInt64 (value : Value) : Except Fault Int :=
  match value.toInt? with
  | some n =>
    if Word.signed64.holds n then .ok n else .error (.invalid "cannot convert number to 64 bits")
  | Option.none => .error (.invalid ("cannot convert " ++ value.kind.name ++ " to a number"))

/-- A bound of a slice, which is missing when it is none. -/
def bound? (value : Value) : Except Fault (Option Int) :=
  match value with
  | none => .ok Option.none
  | value => value.toInt64.map some

/-- Every item whose place is a multiple of a step. -/
def everyNth {α : Type} (step : Nat) (items : List α) : List α :=
  items.zipIdx.filterMap fun (item, index) ↦ if index % step = 0 then some item else Option.none

/-- The place that a bound means when counting goes forward; places before the first one count as it. -/
def forwardPlace (count : Nat) (bound : Int) : Nat :=
  if 0 ≤ bound then bound.toNat else ((count : Int) + bound).toNat

/-- The items of a slice with a positive step. -/
def sliceForward {α : Type} (start stop : Option Int) (step : Nat) (items : List α) : List α :=
  let first := forwardPlace items.length (start.getD 0)
  let last := (stop.map (forwardPlace items.length)).getD items.length
  everyNth step ((items.drop first).take (last - first))

/-- The places of a slice that goes backward by a step. -/
def backwardPlaces (count : Nat) (start stop : Option Int) (step : Nat) : List Nat :=
  let first :=
    match start with
    | Option.none => count - 1
    | some start =>
      if (count : Int) ≤ start then count - 1
      else if 0 ≤ start then start.toNat
      else ((count : Int) + start).toNat
  let last :=
    match stop with
    | Option.none => 0
    | some stop => if stop < 0 then ((count : Int) + stop).toNat else stop.toNat
  let length := if last = 0 then (first + step) / step else (first - last + step - 1) / step
  (List.range length).map fun i ↦ first - i * step

/-- The items of a slice. -/
def sliceItems {α : Type} (start stop : Option Int) (step : Int) (items : List α) : List α :=
  if 0 < step then sliceForward start stop step.toNat items
  else (backwardPlaces items.length start stop (-step).toNat).filterMap fun place ↦ items[place]?

/-- A slice of a string or a list; none has empty slices. -/
def slice (value start stop step : Value) : Except Fault Value :=
  if value.isUndefined then .error .undefinedValue
  else do
    let start ← start.bound?
    let stop ← stop.bound?
    let step := (← step.bound?).getD 1
    if step = 0 then .error (.invalid "cannot slice by step size of 0")
    else
      match value with
      | none => return ofItems []
      | string s => return string (String.ofList (sliceItems start stop step s.toList))
      | list _ items => return ofComputed (sliceItems start stop step items)
      | value => .error (.invalid ("value of type " ++ value.kind.name ++ " cannot be sliced"))

end Value

end Invocation.Formula
