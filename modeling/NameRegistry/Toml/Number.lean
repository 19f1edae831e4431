import NameRegistry.Toml.Quoted
import NameRegistry.Toml.Value

/-!
# Numbers in TOML documents

* `number?` : the integer or float that a word spells.
* `spaced` : where underscores may stand, namely between two digits.

A word is a float if it has a point or an `e` behind its first digits. A decimal integer, or the
whole part of a float, has no leading zero; a float has a digit on either side of its point.
Prefixed integers have no sign, and may have no digits.

The form of a decimal integer is checked up to its first underscore and around the underscores
only: `1_000kg` is an integer. It has no value, like a prefix without digits.
-/

namespace NameRegistry.Toml

/-! ## Digits -/

def digit? (base : Nat) (c : Char) : Option Nat := (hexDigit? c).filter (· < base)

def isDigitIn (base : Nat) (c : Char) : Bool := (digit? base c).isSome

/-- The number with these digits, most significant first. -/
def ofDigits (base : Nat) (ds : List Nat) : Nat := ds.foldl (fun n d => base * n + d) 0

/-- The digits of a word that has nothing else, and at least one. -/
def digits? (base : Nat) (s : List Char) : Option (List Nat) :=
  if s = [] then none else s.mapM (digit? base)

/-- The word without its underscores. -/
def ungrouped (s : List Char) : List Char := s.filter (· ≠ '_')

/-- Whether each underscore has a digit of `base` on either side. `before` tells whether a digit
comes before the first character. -/
def spaced (base : Nat) : Bool → List Char → Bool
  | _, [] => true
  | before, c :: r =>
    if c = '_' then before && r.head?.any (isDigitIn base) && spaced base false r
    else spaced base (isDigitIn base c) r

/-- Whether a word begins with a zero before another digit. -/
def hasLeadingZero : List Char → Bool
  | '0' :: c :: _ => c.isDigit || c == '_'
  | _ => false

/-! ## Decimal numbers -/

/-- The exponent at the end of a float, zero if there is none. -/
def exponent? : List Char → Option Int
  | [] => some 0
  | c :: r =>
    if c == 'e' || c == 'E' then
      match r with
      | '+' :: ds => (digits? 10 ds).map fun ds => (ofDigits 10 ds : Int)
      | '-' :: ds => (digits? 10 ds).map fun ds => -(ofDigits 10 ds : Int)
      | ds => (digits? 10 ds).map fun ds => (ofDigits 10 ds : Int)
    else none

/-- The float in a word without sign and underscores. -/
def float? (negative : Bool) (s : List Char) : Option Real := do
  let whole ← digits? 10 (s.takeWhile Char.isDigit)
  match s.dropWhile Char.isDigit with
  | '.' :: r =>
    let places ← digits? 10 (r.takeWhile Char.isDigit)
    let e ← exponent? (r.dropWhile Char.isDigit)
    return .decimal negative (ofDigits 10 (whole ++ places)) (e - places.length)
  | r => return .decimal negative (ofDigits 10 whole) (← exponent? r)

/-- The integer in a word without sign and underscores. -/
def integer? (negative : Bool) (s : List Char) : Option Int :=
  (digits? 10 s).map fun ds =>
    if negative then -(ofDigits 10 ds : Int) else (ofDigits 10 ds : Int)

/-- The decimal number in a word behind its sign. -/
def decimal? (negative : Bool) (s : List Char) : Option Value :=
  if s = ['i', 'n', 'f'] then some (.float (.infinite negative))
  else if s = ['n', 'a', 'n'] then some (.float .notANumber)
  else do
    let rest := s.dropWhile Char.isDigit
    guard (!hasLeadingZero s)
    if rest.any (· ∈ ['.', 'e', 'E']) then
      guard (spaced 10 false s)
      return .float (← float? negative (ungrouped s))
    else
      guard (s ≠ [] ∧ rest.head?.all (· == '_') ∧ ' ' ∉ rest)
      guard (spaced 16 false s)
      return .integer (integer? negative (ungrouped s))

/-! ## All numbers -/

/-- The integer with digits in `base` behind its prefix. -/
def prefixed? (base : Nat) (s : List Char) : Option Value := do
  guard ((ungrouped s).all (isDigitIn base) ∧ spaced base false s)
  return .integer ((digits? base (ungrouped s)).map fun ds => (ofDigits base ds : Int))

/-- The number that a word spells. -/
def number? : List Char → Option Value
  | '+' :: s => decimal? false s
  | '-' :: s => decimal? true s
  | '0' :: 'x' :: s => prefixed? 16 s
  | '0' :: 'o' :: s => prefixed? 8 s
  | '0' :: 'b' :: s => prefixed? 2 s
  | s => decimal? false s

end NameRegistry.Toml
