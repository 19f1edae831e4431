import NameRegistry.Toml.Datetime
import NameRegistry.Toml.Number
import NameRegistry.Toml.Section

/-!
# TOML documents

* `Document.parse?` : the table that a document spells, nothing if it is not well-formed.

Readers take the rest of the document and give back what they read and what follows it. Those
that may call themselves take `fuel`, which bounds the number of steps; twice the length of the
document is always enough. Arrays and tables in braces nest at most `maxDepth` deep, and a key
with dots has at most `maxDepth` parts.
-/

namespace NameRegistry.Toml

namespace Document

/-- The greatest nesting of arrays and tables in braces, and the most parts of a key. -/
def maxDepth : Nat := 80

/-! ## Space and comments -/

/-- What follows the blanks of a line. -/
def skipBlanks (s : List Char) : List Char := s.dropWhile isBlank

/-- What follows a comment, its line end included. -/
def skipComment? : List Char → Option (List Char)
  | [] => some []
  | '\n' :: r => some r
  | '\r' :: '\n' :: r => some r
  | c :: r => if isPlain c then skipComment? r else none

/-- What follows the rest of a line that holds no more than a comment. -/
def endLine? (s : List Char) : Option (List Char) :=
  match skipBlanks s with
  | [] => some []
  | '\n' :: r => some r
  | '\r' :: '\n' :: r => some r
  | '#' :: r => skipComment? r
  | _ => none

/-- What follows blanks, line ends and comments. -/
def skipSpace? : Nat → List Char → Option (List Char)
  | 0, _ => none
  | fuel + 1, s =>
    match skipBlanks s with
    | '\n' :: r => skipSpace? fuel r
    | '\r' :: '\n' :: r => skipSpace? fuel r
    | '#' :: r => skipComment? r >>= skipSpace? fuel
    | r => some r

/-! ## Keys -/

/-- The characters of keys without quotes. -/
def isBareKeyChar (c : Char) : Bool := c.isAlphanum || c == '_' || c == '-'

/-- One part of a key. -/
def key? : List Char → Option (String × List Char)
  | '"' :: r => (readBasic 0 r).map fun (k, rest) => (String.ofList k, rest)
  | '\x27' :: r => (readLiteral r).map fun (k, rest) => (String.ofList k, rest)
  | s =>
    match s.takeWhile isBareKeyChar with
    | [] => none
    | k => some (String.ofList k, s.dropWhile isBareKeyChar)

/-- A key of at most `parts` parts, with dots between them: the path to its last part, the last
part, and what follows it and its blanks. -/
def path? : Nat → List Char → Option (List String × String × List Char)
  | 0, _ => none
  | parts + 1, s => do
    let (k, r) ← key? s
    match skipBlanks r with
    | '.' :: r => do
      let (path, last, rest) ← path? parts (skipBlanks r)
      return (k :: path, last, rest)
    | r => return ([], k, r)

/-! ## Values -/

/-- Whether a character may not stand in a word. -/
def endsWord (c : Char) : Bool :=
  c ∈ [' ', '\t', '\n', '\r', ',', '=', '[', ']', '{', '}', '#']

/-- Whether a word goes on behind its blanks. What follows them is then neither a dot nor a
quote. -/
def goesOn (s : List Char) : Bool :=
  (skipBlanks s).head?.any fun c => !endsWord c && c ∉ ['.', '"', '\x27']

/-- A word and what follows it. Blanks belong to the word if it goes on behind them. -/
def splitWord : List Char → List Char × List Char
  | [] => ([], [])
  | c :: r =>
    if !endsWord c || (isBlank c && goesOn r) then
      let (w, rest) := splitWord r
      (c :: w, rest)
    else ([], c :: r)

/-- The value that a word spells. -/
def word? (w : List Char) : Option Value :=
  if w = "true".toList then some (.boolean true)
  else if w = "false".toList then some (.boolean false)
  else if isDatetime w then some (.datetime (String.ofList w))
  else number? w

/-- A value without quotes or brackets. -/
def bare? (s : List Char) : Option (Value × List Char) :=
  let (w, rest) := splitWord s
  (word? w).map (·, rest)

mutual

/-- A value that may open `depth` more levels. -/
def value? : Nat → Nat → List Char → Option (Value × List Char)
  | 0, _, _ => none
  | fuel + 1, depth, s =>
    match s with
    | '"' :: '"' :: '"' :: r => text (readBasicLines 0 (dropLineEnd r))
    | '"' :: r => text (readBasic 0 r)
    | '\x27' :: '\x27' :: '\x27' :: r => text (readLiteralLines (dropLineEnd r))
    | '\x27' :: r => text (readLiteral r)
    | '[' :: r =>
      match depth with
      | 0 => none
      | depth + 1 => (elements? fuel depth r).map fun (vs, rest) => (.array vs, rest)
    | '{' :: r =>
      match depth with
      | 0 => none
      | depth + 1 =>
        (entries? fuel depth .empty r).map fun (t, rest) => (.table t.toTable, rest)
    | s => bare? s
where
  text (r : Read) : Option (Value × List Char) :=
    r.map fun (t, rest) => (.string (String.ofList t), rest)

/-- The elements of an array up to its closing bracket. -/
def elements? : Nat → Nat → List Char → Option (List Value × List Char)
  | 0, _, _ => none
  | fuel + 1, depth, s => do
    match ← skipSpace? fuel s with
    | ']' :: rest => return ([], rest)
    | s =>
      let (v, s) ← value? fuel depth s
      match ← skipSpace? fuel s with
      | ']' :: rest => return ([v], rest)
      | ',' :: s =>
        let (vs, rest) ← elements? fuel depth s
        return (v :: vs, rest)
      | _ => none

/-- The entries of a table in braces up to the closing brace, added to those read before. -/
def entries? : Nat → Nat → Section → List Char → Option (Section × List Char)
  | 0, _, _, _ => none
  | fuel + 1, depth, t, s => do
    match ← skipSpace? fuel s with
    | '}' :: rest => return (t, rest)
    | s =>
      let (path, key, s) ← path? maxDepth s
      match ← skipSpace? fuel s with
      | '=' :: s =>
        let (v, s) ← value? fuel depth (← skipSpace? fuel s)
        let t ← t.assign? path key v
        match ← skipSpace? fuel s with
        | '}' :: rest => return (t, rest)
        | ',' :: s => entries? fuel depth t s
        | _ => none
      | _ => none

end

/-! ## Documents -/

/-- A document read in part: its tables, and the path of the header that is open. -/
structure Progress where
  root : Section
  header : List String

/-- Assigns a value in the open table. -/
def Progress.assign? (p : Progress) (path : List String) (key : String) (v : Value) :
    Option Progress :=
  (p.root.within? .passed (·.assign? path key v) p.header).map ({ p with root := · })

def line? (fuel : Nat) (p : Progress) (s : List Char) : Option (Progress × List Char) := do
  match s with
  | '[' :: '[' :: s =>
    let (path, key, s) ← path? maxDepth (skipBlanks s)
    match s with
    | ']' :: ']' :: s =>
      return (⟨← p.root.append? path key, path ++ [key]⟩, ← endLine? s)
    | _ => none
  | '[' :: s =>
    let (path, key, s) ← path? maxDepth (skipBlanks s)
    match s with
    | ']' :: s => return (⟨← p.root.open? path key, path ++ [key]⟩, ← endLine? s)
    | _ => none
  | s =>
    let (path, key, s) ← path? maxDepth s
    match s with
    | '=' :: s =>
      let (v, s) ← value? fuel maxDepth (skipBlanks s)
      return (← p.assign? path key v, ← endLine? s)
    | _ => none

/-- The rest of a document. -/
def lines? : Nat → Progress → List Char → Option Progress
  | 0, _, _ => none
  | fuel + 1, p, s => do
    match ← skipSpace? (fuel + 1) s with
    | [] => return p
    | s =>
      let (p, s) ← line? fuel p s
      lines? fuel p s

/-- What follows a byte order mark, which may come first. -/
def skipMark : List Char → List Char
  | '\uFEFF' :: s => s
  | s => s

/-- The table that a document spells. -/
def parse? (text : String) : Option Table :=
  let s := skipMark text.toList
  (lines? (2 * s.length + 2) ⟨.empty, []⟩ s).map (·.root.toTable)

end Document

end NameRegistry.Toml
