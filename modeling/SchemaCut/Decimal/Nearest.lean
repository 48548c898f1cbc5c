/-!
# The double nearest to a decimal

`nearestBits digits exponent` gives the bits of the double that is nearest to
`digits · 10 ^ exponent`; of two that are equally near, the one with an even significand. What is
too large becomes infinity. All arithmetic is exact.
-/

namespace SchemaCut.Decimal

/-- `num / den`, rounded to the nearest whole number; a half goes to the even neighbour. -/
def roundDiv (num den : Nat) : Nat :=
  let q := num / den
  let r := num % den
  if 2 * r < den then q
  else if den < 2 * r then q + 1
  else if q % 2 = 0 then q else q + 1

/-- The bits of the double nearest to `num / den`, two positive numbers. With `q` the power of two
of its last place, the significand is rounded once; a significand that rounds up to `2 ^ 53` runs
over into the exponent, as it should. -/
def ratioBits (num den : Nat) : UInt64 :=
  let guess : Int := (num.log2 : Int) - den.log2
  -- `2 ^ size ≤ num / den < 2 ^ (size + 1)`
  let size :=
    if den * Nat.pow 2 guess.toNat ≤ num * Nat.pow 2 (-guess).toNat then guess else guess - 1
  let q := max (size - 52) (-1074)
  let m := roundDiv (num * Nat.pow 2 (-q).toNat) (den * Nat.pow 2 q.toNat)
  let bits := if m < Nat.pow 2 52 then m else m - Nat.pow 2 52 + (q + 1075).toNat * Nat.pow 2 52
  UInt64.ofNat (min bits (2047 * Nat.pow 2 52))

/-- The bits of the double nearest to `digits · 10 ^ exponent`. -/
def nearestBits (digits : Nat) (exponent : Int) : UInt64 :=
  let size := (Nat.toDigits 10 digits).length + exponent
  if digits = 0 ∨ size < -330 then 0
  else if 330 < size then UInt64.ofNat (2047 * Nat.pow 2 52)
  else ratioBits (digits * Nat.pow 10 exponent.toNat) (Nat.pow 10 (-exponent).toNat)

example : nearestBits 1 0 = 0x3FF0000000000000 := by decide +kernel

example : nearestBits 1 (-1) = 0x3FB999999999999A := by decide +kernel

example : nearestBits 5 (-324) = 1 := by decide +kernel

example : nearestBits 2 308 = 0x7FF0000000000000 := by decide +kernel

example : nearestBits 9007199254740993 0 = 0x4340000000000000 := by decide +kernel

end SchemaCut.Decimal
