/-!
# Binary floating-point numbers

A positive number with a 53-bit mantissa is kept as `mantissa * 2 ^ exponent`, and a decimal
number is rounded to the nearest one of them.

* `Binary64` : a positive binary number.
* `Binary64.nearest?` : the binary number nearest to `digits * 10 ^ exponent`, in exact
  arithmetic. A half goes to the even mantissa.
-/

namespace NameRegistry

/-- The positive number `mantissa * 2 ^ exponent`. -/
structure Binary64 where
  mantissa : Nat
  exponent : Int
  deriving DecidableEq, Repr

namespace Binary64

/-- The least exponent, that of the subnormal numbers. -/
def minExponent : Int := -1074

def maxExponent : Int := 971

/-- The quotient rounded to the nearest number, a half to the even one. -/
def roundHalfEven (num den : Nat) : Nat :=
  let q := num / den
  let r := num % den
  if 2 * r < den ∨ (2 * r = den ∧ q % 2 = 0) then q else q + 1

/-- Numerator and denominator of `num / den * 2 ^ (-e)`. -/
def scale (num den : Nat) (e : Int) : Nat × Nat :=
  (num <<< (-e).toNat, den <<< e.toNat)

/-- The greatest `e` with `2 ^ e ≤ num / den`, for a positive quotient. -/
def floorLog2 (num den : Nat) : Int :=
  let e : Int := (num.log2 : Int) - den.log2
  let (n, d) := scale num den e
  if d ≤ n then e else e - 1

/-- The binary number nearest to the positive quotient: `some 0` if that is zero, and `none`
beyond the greatest one. -/
def ofQuotient? (num den : Nat) : Option Binary64 :=
  let e := max (floorLog2 num den - 52) minExponent
  let (n, d) := scale num den e
  let m := roundHalfEven n d
  let v : Binary64 := if m = 1 <<< 53 then ⟨1 <<< 52, e + 1⟩ else ⟨m, e⟩
  if v.exponent > maxExponent then none else some v

/-- The binary number nearest to `digits * 10 ^ exponent`, with mantissa zero if that is zero, and
`none` if it is too large. Exponents far out of range are settled by the number of digits. -/
def nearest? (digits : Nat) (exponent : Int) : Option Binary64 :=
  let size : Int := (Nat.toDigits 10 digits).length + exponent
  if digits = 0 ∨ size < -330 then some ⟨0, minExponent⟩
  else if size > 310 then none
  else ofQuotient? (digits * Nat.pow 10 exponent.toNat) (Nat.pow 10 (-exponent).toNat)

end Binary64

end NameRegistry
