import NameRegistry.Decimal.Binary64

/-!
# Shortest decimal text

A binary number is written with the fewest decimal digits that read back as the same number.

* `Binary64.shortest` : the digits. They are a point of the coarsest decimal grid that has a point
  among the reals that round to the number; of two such points the nearer one, and of two equally
  near ones the greater.
* `positional` : digits and exponent without an exponent mark. A whole number ends in `.0`.
-/

namespace NameRegistry

namespace Binary64

/-- The real numbers that round to `v` lie between the results, in quarters of its last place. The
gap below a power of two is half as wide. -/
def bounds (v : Binary64) : Nat × Nat :=
  let low :=
    if v.mantissa = 1 <<< 52 ∧ v.exponent > minExponent then 4 * v.mantissa - 1
    else 4 * v.mantissa - 2
  (low, 4 * v.mantissa + 2)

/-- Whether `c` lies in the interval from `low` to `high`, whose ends belong to it if `closed`. -/
def within (closed : Bool) (low high c : Nat) : Bool :=
  if closed then low ≤ c && c ≤ high else low < c && c < high

/-- The point of the decimal grid `10 ^ k` that is nearest to `v` among those that read back as
`v`, in units of the grid. -/
def onGrid? (v : Binary64) (k : Int) : Option Nat :=
  let e := v.exponent - 2
  let unit := Nat.pow 10 k.toNat <<< (-e).toNat
  let quarter := Nat.pow 10 (-k).toNat <<< e.toNat
  let (low, high) := v.bounds
  let reads (c : Nat) : Bool :=
    within (v.mantissa % 2 == 0) (low * quarter) (high * quarter) (c * unit)
  let value := 4 * v.mantissa * quarter
  let below := value / unit
  let above := below + 1
  match reads below, reads above with
  | true, true => if value - below * unit < above * unit - value then some below else some above
  | true, false => some below
  | false, true => some above
  | false, false => none

/-- The first hit among `steps` grids from `10 ^ k` downwards. -/
def shortestFrom (v : Binary64) (k : Int) : Nat → Nat × Int
  | 0 => (0, 0)
  | steps + 1 =>
    match v.onGrid? k with
    | some digits => (digits, k)
    | none => shortestFrom v (k - 1) steps

/-- The shortest decimal digits of a positive number, and their exponent. Every number is a point
of the grid `10 ^ minExponent`. -/
def shortest (v : Binary64) : Nat × Int := v.shortestFrom 309 (309 + 1 + 1074)

end Binary64

/-- The number `digits * 10 ^ exponent` in positional notation, with at least one digit on either
side of the point. -/
def positional (digits : Nat) (exponent : Int) : String :=
  let ds := Nat.toDigits 10 digits
  if exponent ≥ 0 then String.ofList (ds ++ List.replicate exponent.toNat '0') ++ ".0"
  else
    let places := (-exponent).toNat
    let padded := List.replicate (places + 1 - ds.length) '0' ++ ds
    let whole := padded.length - places
    String.ofList (padded.take whole) ++ "." ++ String.ofList (padded.drop whole)

end NameRegistry
