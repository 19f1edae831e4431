/-!
# Quoted text in TOML documents

A text stands between double quotes, with escapes, or between single quotes, where every character
stands for itself. Three quotes open a text that may run over several lines.

* `readBasic`, `readLiteral` : the text up to its closing quote, and what follows it.
* `readBasicLines`, `readLiteralLines` : the same for texts of several lines.
* `isPlain` : the characters that may stand in texts and comments.

Each reader starts behind the opening quotes and answers nothing if the text is not closed or
holds a character or an escape that it must not hold.
-/

namespace NameRegistry.Toml

/-- A text and what follows it. -/
abbrev Read := Option (List Char × List Char)

/-- Puts `c` before the text that was read. -/
def Read.cons (c : Char) (r : Read) : Read := r.map fun (text, rest) => (c :: text, rest)

/-- Whether `c` may stand for itself on a line: no control character but the tab. -/
def isPlain (c : Char) : Bool := c == '\t' || (' ' ≤ c && c.toNat ≠ 0x7F)

/-- Whether `c` separates words on a line. -/
def isBlank (c : Char) : Bool := c == ' ' || c == '\t'

/-! ## Escapes -/

def hexDigit? (c : Char) : Option Nat :=
  if '0' ≤ c ∧ c ≤ '9' then some (c.toNat - '0'.toNat)
  else if 'a' ≤ c ∧ c ≤ 'f' then some (c.toNat - 'a'.toNat + 10)
  else if 'A' ≤ c ∧ c ≤ 'F' then some (c.toNat - 'A'.toNat + 10)
  else none

/-- The character with a hexadecimal number. Surrogates are no characters. -/
def numberedChar? (digits : List Char) : Option Char := do
  let n ← digits.foldlM (fun n c => (hexDigit? c).map (16 * n + ·)) 0
  if n.isValidChar then some (Char.ofNat n) else none

/-- The character that an escape of one letter stands for. -/
def shortEscape? : Char → Option Char
  | 'b' => some '\x08'
  | 't' => some '\t'
  | 'n' => some '\n'
  | 'f' => some '\x0c'
  | 'r' => some '\r'
  | 'e' => some '\x1b'
  | '"' => some '"'
  | '\\' => some '\\'
  | _ => none

/-- The character of the escape after a backslash, and the number of characters that it is written
with. -/
def escape? : List Char → Option (Char × Nat)
  | 'x' :: a :: b :: _ => (numberedChar? [a, b]).map (·, 3)
  | 'u' :: a :: b :: c :: d :: _ => (numberedChar? [a, b, c, d]).map (·, 5)
  | 'U' :: a :: b :: c :: d :: e :: f :: g :: h :: _ =>
    (numberedChar? [a, b, c, d, e, f, g, h]).map (·, 9)
  | c :: _ => (shortEscape? c).map (·, 1)
  | [] => none

/-! ## Texts on one line -/

/-- A text in double quotes, behind the first `skip` characters, which belong to an escape. -/
def readBasic : (skip : Nat) → List Char → Read
  | _, [] => none
  | skip + 1, _ :: r => readBasic skip r
  | 0, '"' :: r => some ([], r)
  | 0, '\\' :: r =>
    match escape? r with
    | some (c, skip) => (readBasic skip r).cons c
    | none => none
  | 0, c :: r => if isPlain c then (readBasic 0 r).cons c else none

/-- A text in single quotes. -/
def readLiteral : List Char → Read
  | [] => none
  | '\x27' :: r => some ([], r)
  | c :: r => if isPlain c then (readLiteral r).cons c else none

/-! ## Texts of several lines -/

/-- Leaves out a line end right behind the opening quotes. -/
def dropLineEnd : List Char → List Char
  | '\n' :: r => r
  | '\r' :: '\n' :: r => r
  | s => s

/-- Leaves out blanks and line ends. -/
def dropWhite : List Char → List Char
  | [] => []
  | '\r' :: '\n' :: r => dropWhite r
  | c :: r => if isBlank c || c == '\n' then dropWhite r else c :: r

/-- The number of characters of the white space behind a backslash at the end of a line. -/
def joinLines? (s : List Char) : Option Nat :=
  match s.dropWhile isBlank with
  | '\n' :: r | '\r' :: '\n' :: r => some (s.length - (dropWhite r).length)
  | _ => none

/-- A text in triple double quotes, behind the first `skip` characters, which belong to an escape
or to the white space between two lines. Of up to five quotes in a row at the end, the last three
close it. -/
def readBasicLines : (skip : Nat) → List Char → Read
  | _, [] => none
  | skip + 1, _ :: r => readBasicLines skip r
  | 0, '"' :: '"' :: '"' :: '"' :: '"' :: r => some (['"', '"'], r)
  | 0, '"' :: '"' :: '"' :: '"' :: r => some (['"'], r)
  | 0, '"' :: '"' :: '"' :: r => some ([], r)
  | 0, '\r' :: '\n' :: r => ((readBasicLines 0 r).cons '\n').cons '\r'
  | 0, '\\' :: r =>
    match joinLines? r with
    | some skip => readBasicLines skip r
    | none =>
      match escape? r with
      | some (c, skip) => (readBasicLines skip r).cons c
      | none => none
  | 0, c :: r => if isPlain c || c == '\n' then (readBasicLines 0 r).cons c else none

def readLiteralLines : List Char → Read
  | [] => none
  | '\x27' :: '\x27' :: '\x27' :: '\x27' :: '\x27' :: r => some (['\x27', '\x27'], r)
  | '\x27' :: '\x27' :: '\x27' :: '\x27' :: r => some (['\x27'], r)
  | '\x27' :: '\x27' :: '\x27' :: r => some ([], r)
  | '\r' :: '\n' :: r => ((readLiteralLines r).cons '\n').cons '\r'
  | c :: r => if isPlain c || c == '\n' then (readLiteralLines r).cons c else none

end NameRegistry.Toml
