/-!
# Dates and times in TOML documents

* `isDatetime` : whether a word is a date, a time of day, or both with or without an offset. Days
  must exist. Seconds may be left out, and any minute may have a leap second.
-/

namespace NameRegistry.Toml

/-- The number that two digits spell, and what follows them. -/
def pair? : List Char → Option (Nat × List Char)
  | a :: b :: r =>
    if a.isDigit ∧ b.isDigit then
      some (10 * (a.toNat - '0'.toNat) + (b.toNat - '0'.toNat), r)
    else none
  | _ => none

/-- What follows the mark `c`. -/
def mark? (c : Char) : List Char → Option (List Char)
  | d :: r => if c = d then some r else none
  | [] => none

def daysIn (year month : Nat) : Nat :=
  if month = 2 then
    if year % 4 = 0 ∧ (year % 100 ≠ 0 ∨ year % 400 = 0) then 29 else 28
  else if month ∈ [4, 6, 9, 11] then 30
  else 31

def afterDate? (s : List Char) : Option (List Char) := do
  let (century, s) ← pair? s
  let (year, s) ← pair? s
  let (month, s) ← pair? (← mark? '-' s)
  let (day, s) ← pair? (← mark? '-' s)
  guard (1 ≤ month ∧ month ≤ 12 ∧ 1 ≤ day ∧ day ≤ daysIn (100 * century + year) month)
  return s

/-- What follows the seconds of a time, if there are any, and their fraction. -/
def afterSeconds? : List Char → Option (List Char)
  | ':' :: s => do
    let (second, s) ← pair? s
    guard (second ≤ 60)
    match s with
    | '.' :: r =>
      guard ((r.head?.map Char.isDigit).getD false)
      return r.dropWhile Char.isDigit
    | r => return r
  | s => some s

def afterTime? (s : List Char) : Option (List Char) := do
  let (hour, s) ← pair? s
  let (minute, s) ← pair? (← mark? ':' s)
  guard (hour ≤ 23 ∧ minute ≤ 59)
  afterSeconds? s

/-- Whether a word is the offset of a time, or nothing. -/
def isOffset : List Char → Bool
  | [] => true
  | [c] => c == 'Z' || c == 'z'
  | c :: s =>
    (c == '+' || c == '-') &&
      match afterTime? s with
      | some [] => s.length == 5
      | _ => false

/-- Whether a word is a date, a time of day, or both. -/
def isDatetime (s : List Char) : Bool :=
  match afterDate? s with
  | some [] => true
  | some (c :: r) => (c == 'T' || c == 't' || c == ' ') && (afterTime? r).any isOffset
  | none => (afterTime? s).any (·.isEmpty)

end NameRegistry.Toml
