/-!
# Sets of code points

A property of characters is kept as the list of the code point ranges that have it. Both ends
of a range belong to it.
-/

namespace NameRegistry

/-- A set of code points, as closed ranges. -/
abbrev CodePoints := List (Nat × Nat)

namespace CodePoints

/-- Whether some range of `s` holds the code point of `c`. -/
def contains (s : CodePoints) (c : Char) : Bool :=
  s.any fun r => r.1 ≤ c.toNat && c.toNat ≤ r.2

end CodePoints

end NameRegistry
