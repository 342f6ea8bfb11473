/-!
# Saturating arithmetic

Sums and products of 64-bit numbers that stop at the greatest one instead of wrapping around. Taken
as natural numbers they are the exact results, capped.
-/

namespace SearchSpace.Saturating

/-- The greatest 64-bit number. -/
def greatest : Nat := UInt64.size - 1

/-- The 64-bit number nearest to a natural number. -/
def clamp (value : Nat) : UInt64 := UInt64.ofNat (min value greatest)

/-- The sum, or the greatest number where that is less. -/
def add (left right : UInt64) : UInt64 := clamp (left.toNat + right.toNat)

/-- The product, or the greatest number where that is less. -/
def mul (left right : UInt64) : UInt64 := clamp (left.toNat * right.toNat)

theorem toNat_clamp (value : Nat) : (clamp value).toNat = min value greatest := by
  simp only [clamp, greatest, UInt64.toNat_ofNat', UInt64.size]
  omega

theorem toNat_add (left right : UInt64) :
    (add left right).toNat = min (left.toNat + right.toNat) greatest := toNat_clamp _

theorem toNat_mul (left right : UInt64) :
    (mul left right).toNat = min (left.toNat * right.toNat) greatest := toNat_clamp _

end SearchSpace.Saturating
