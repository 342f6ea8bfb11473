import SearchSpace.Binary64

/-!
# Shortest decimals

A binary floating-point number is written with the fewest digits that still read back as that
number, and among those with the digits nearest to it. A decimal reads back if it lies in the
interval of the numbers that round to the given one; the ends of the interval belong to it if the
significand is even. All comparisons are exact.
-/

namespace SearchSpace

/-- The number `digits * 10 ^ exponent`. -/
structure Decimal where
  /-- The whole factor. -/
  digits : Nat
  /-- The exponent of the power of ten. -/
  exponent : Int
deriving DecidableEq, Repr

namespace Decimal

/-- Compares `digits * 10 ^ exponent` with `count * 2 ^ power`. -/
def compareBinary (decimal : Decimal) (count : Nat) (power : Int) : Ordering :=
  compare ((decimal.digits * Nat.pow 10 decimal.exponent.toNat) <<< (-power).toNat)
    ((count * Nat.pow 10 (-decimal.exponent).toNat) <<< power.toNat)

/-- Whether the decimal rounds to the number. Distances are taken in quarters of the last binary
place, since the number below a power of two is only half as far away as the one above. -/
def readsBack (number : Binary64) (decimal : Decimal) : Bool :=
  let isPower := number.significand == 1 <<< 52 && Binary64.leastExponent < number.exponent
  let low := 4 * number.significand - if isPower then 1 else 2
  let high := 4 * number.significand + 2
  let fromLow := decimal.compareBinary low (number.exponent - 2)
  let toHigh := decimal.compareBinary high (number.exponent - 2)
  if number.significand % 2 = 0 then fromLow != .lt && toHigh != .gt
  else fromLow == .gt && toHigh == .lt

/-- The exponent of the leading digit of a number other than zero. -/
def leadingExponent (number : Binary64) : Int :=
  let guess := ((number.significand.log2 : Int) + number.exponent) * 30103 / 100000
  let reaches (exponent : Int) : Bool :=
    compareBinary ⟨1, exponent⟩ number.significand number.exponent != .gt
  if reaches (guess + 1) then guess + 1
  else if reaches guess then guess
  else guess - 1

/-- The decimals with the given exponent next to the number, below (or equal) and above. -/
def neighbours (number : Binary64) (exponent : Int) : Decimal × Decimal :=
  let below :=
    ((number.significand * Nat.pow 10 (-exponent).toNat) <<< number.exponent.toNat)
      / (Nat.pow 10 exponent.toNat <<< (-number.exponent).toNat)
  (⟨below, exponent⟩, ⟨below + 1, exponent⟩)

/-- The one of the two neighbours that reads back, or the nearer if both do, or the even one if both
are equally near. -/
def nearest? (number : Binary64) (exponent : Int) : Option Decimal :=
  let (below, above) := neighbours number exponent
  match readsBack number below, readsBack number above with
  | false, false => none
  | true, false => some below
  | false, true => some above
  | true, true =>
    let middle : Decimal := ⟨2 * below.digits + 1, exponent⟩
    match middle.compareBinary (2 * number.significand) number.exponent with
    | .lt => some above
    | .gt => some below
    | .eq => some (if below.digits % 2 = 0 then below else above)

/-- Moves the zeros at the end of the digits into the exponent. -/
def stripZeros : Nat → Decimal → Decimal
  | 0, decimal => decimal
  | count + 1, decimal =>
    if decimal.digits % 10 = 0 then stripZeros count ⟨decimal.digits / 10, decimal.exponent + 1⟩
    else decimal

/-- The shortest decimal that reads back as a number other than zero. Seventeen digits always do;
were there none, the exact value would be taken. -/
def shortest (number : Binary64) : Decimal :=
  let leading := leadingExponent number
  let found := (List.range 17).findSome? fun (count : Nat) => nearest? number (leading - count)
  let exact : Decimal :=
    ⟨(number.significand * Nat.pow 5 (-number.exponent).toNat) <<< number.exponent.toNat,
      min number.exponent 0⟩
  stripZeros 17 (found.getD exact)

/-- Digits from the left until the given number of them has been passed, then a point, then the
others. -/
def pointAfter (count : Nat) (digits : String) : String :=
  String.ofList (digits.toList.take count) ++ "." ++ String.ofList (digits.toList.drop count)

/-- A text of zeros. -/
def zeros (count : Nat) : String := String.ofList (List.replicate count '0')

/-- A decimal in writing. Numbers whose leading digit has an exponent from -5 to 15 are written
without a power of ten, and with at least one digit after the point. Otherwise the point follows the
leading digit, if others follow, and the exponent always has a sign. -/
def text (decimal : Decimal) : String :=
  let digits := toString decimal.digits
  let count := digits.length
  let leading := decimal.exponent + count - 1
  if -5 ≤ leading && leading ≤ 15 then
    if 0 ≤ decimal.exponent then digits ++ zeros decimal.exponent.toNat ++ ".0"
    else if 0 ≤ leading then pointAfter (leading.toNat + 1) digits
    else "0." ++ zeros ((-leading).toNat - 1) ++ digits
  else
    let mantissa := if count = 1 then digits else pointAfter 1 digits
    let sign := if leading < 0 then "-" else "+"
    mantissa ++ "e" ++ sign ++ toString leading.natAbs

end Decimal

/-- The shortest text that reads back as the number. -/
def Binary64.text (number : Binary64) : String :=
  if number.isZero then "0.0" else (Decimal.shortest number).text

end SearchSpace
