/-!
# Binary floating-point numbers

The non-negative finite numbers of the 64-bit binary format, each a whole number of 53 bits times a
power of two. Operations round the exact result to the nearest number of the format, a tie to the
one with the even significand, and fail where the result is too large for the format.
-/

namespace SearchSpace

/-- The number `significand * 2 ^ exponent`. The significand lies below `2 ^ 53`, and at or above
`2 ^ 52` unless the exponent is the least one. -/
structure Binary64 where
  /-- The whole factor. -/
  significand : Nat
  /-- The exponent of the power of two, from -1074 to 971. -/
  exponent : Int
deriving DecidableEq, Repr

namespace Binary64

/-- The least exponent of the format. -/
def leastExponent : Int := -1074

/-- The greatest exponent of the format. -/
def greatestExponent : Int := 971

/-- The number zero. -/
def zero : Binary64 := ⟨0, leastExponent⟩

/-- Whether the number is zero. -/
def isZero (number : Binary64) : Bool := number.significand == 0

/-- The whole number nearest to a quotient, the even one of two. -/
def roundQuotient (numerator denominator : Nat) : Nat :=
  let whole := numerator / denominator
  let twice := 2 * (numerator % denominator)
  if twice < denominator then whole
  else if denominator < twice then whole + 1
  else whole + whole % 2

/-- The number nearest to a quotient. The exponent is chosen so that the significand has 53 bits,
or is the least one if that would be less. -/
def ofQuotient? (numerator denominator : Nat) : Option Binary64 :=
  if numerator = 0 then some zero
  else
    let guess : Int := (numerator.log2 : Int) - denominator.log2 - 52
    let guess :=
      if numerator <<< (-guess).toNat < denominator <<< (52 + guess.toNat) then guess - 1
      else guess
    let exponent := max guess leastExponent
    let significand :=
      roundQuotient (numerator <<< (-exponent).toNat) (denominator <<< exponent.toNat)
    let number : Binary64 :=
      if significand = 1 <<< 53 then ⟨1 <<< 52, exponent + 1⟩ else ⟨significand, exponent⟩
    if greatestExponent < number.exponent then none else some number

/-- The number nearest to a natural number. -/
def ofNat? (value : Nat) : Option Binary64 := ofQuotient? value 1

/-- The rounded product. -/
def mul? (left right : Binary64) : Option Binary64 :=
  let exponent := left.exponent + right.exponent
  ofQuotient? ((left.significand * right.significand) <<< exponent.toNat) (1 <<< (-exponent).toNat)

/-- The rounded quotient of a number and one that is not zero. -/
def div? (left right : Binary64) : Option Binary64 :=
  let exponent := left.exponent - right.exponent
  ofQuotient? (left.significand <<< exponent.toNat) (right.significand <<< (-exponent).toNat)

/-- The number times a power of ten that is itself rounded first. A power of ten beyond the format
makes the result too large, or takes two divisions where it is negative. -/
def scale? (number : Binary64) (power : Int) : Option Binary64 :=
  if number.isZero then some number
  else if 308 < power then none
  else if 0 ≤ power then (ofNat? (Nat.pow 10 power.toNat)).bind number.mul?
  else if -308 ≤ power then (ofNat? (Nat.pow 10 (-power).toNat)).bind number.div?
  else if -616 ≤ power then do
    let number ← (ofNat? (Nat.pow 10 308)).bind number.div?
    (ofNat? (Nat.pow 10 (-power - 308).toNat)).bind number.div?
  else some zero

end Binary64

end SearchSpace
