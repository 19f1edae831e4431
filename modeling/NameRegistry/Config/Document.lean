import NameRegistry.Config.Reader
import NameRegistry.Decimal.Shortest
import NameRegistry.Toml.Document

/-!
# A reader of TOML documents

* `DocumentError`, `DocumentError.message` : what can be wrong with a document, and the words for
  it.
* `Toml.Value.text`, `Toml.Value.choice` : values that are read as texts and as words.
* `Toml.Table.present` : entries in ascending order of their keys, not in that of the document.
* `Toml.reader` : the reader. A document that is not well-formed is not read at all, and a table is
  read up to its first entry that fails.
-/

namespace NameRegistry

/-- What can be wrong with a document. -/
inductive DocumentError where
  /-- The text is not well-formed. -/
  | malformed
  /-- A key that no field has. -/
  | unknownField (key : String) (expected : List String)
  /-- A value that is not a text. -/
  | notText (found : Toml.Value)
  /-- A word that stands for nothing. -/
  | unknownVariant (word : String) (expected : List String)
  /-- A choice that is neither a text nor a table. -/
  | notTextOrTable
  /-- A table without a word as its key. -/
  | noWord
  /-- A table with several words as keys. -/
  | severalWords
  /-- A word in a table whose value is a table with entries. -/
  | tableNotEmpty
  /-- A word in a table whose value is an array with elements. -/
  | arrayNotEmpty
  /-- A word in a table whose value is neither a table nor an array. -/
  | notTable (found : Toml.Value)

namespace DocumentError

/-- An integer in the words for a wrong value. The narrowest width that holds it is named if it
is not a usual one; `none` if there is no such width. -/
def describeInteger? (n : Int) : Option String :=
  if -(1 <<< 63) ≤ n ∧ n < 1 <<< 64 then some ("integer `" ++ toString n ++ "`")
  else if -(1 <<< 127) ≤ n ∧ n < 1 <<< 127 then some ("integer `" ++ toString n ++ "` as i128")
  else if 0 ≤ n ∧ n < 1 <<< 128 then some ("integer `" ++ toString n ++ "` as u128")
  else none

/-- The text of a number as the nearest binary one; `none` if it is too large. -/
def realText? : Toml.Real → Option String
  | .infinite negative => some (if negative then "-inf" else "inf")
  | .notANumber => some "NaN"
  | .decimal negative digits exponent => do
    let v ← Binary64.nearest? digits exponent
    let (ds, e) := if v.mantissa = 0 then (0, 0) else v.shortest
    return (if negative then "-" else "") ++ positional ds e

/-- The words for a value that is not a text. -/
def notTextMessage : Toml.Value → String
  | .integer n => expected (n.bind describeInteger?) "integer number overflowed"
  | .float r =>
    expected ((realText? r).map fun t => "floating point `" ++ t ++ "`")
      "floating-point number overflowed"
  | .boolean b => expected (some ("boolean `" ++ (if b then "true" else "false") ++ "`")) ""
  | .string _ => expected (some "string") ""
  | .array _ => expected (some "sequence") ""
  | .datetime _ | .table _ => expected (some "map") ""
where
  expected (found : Option String) (tooLarge : String) : String :=
    match found with
    | some t => "invalid type: " ++ t ++ ", expected a string"
    | none => tooLarge

/-- The words for what was expected, one of some names of a kind. -/
def oneOf (kind : String) (names : List String) : String :=
  match names.map fun n => "`" ++ n ++ "`" with
  | [] => ", there are no " ++ kind
  | [n] => ", expected " ++ n
  | [n, m] => ", expected " ++ n ++ " or " ++ m
  | names => ", expected one of " ++ ", ".intercalate names

/-- The words for what is wrong. Where a document is not well-formed, the place and the reason are
left out. -/
def message : DocumentError → String
  | .malformed => "TOML parse error"
  | .unknownField key expected => "unknown field `" ++ key ++ "`" ++ oneOf "fields" expected
  | .notText found => notTextMessage found
  | .unknownVariant word expected => "unknown variant `" ++ word ++ "`" ++ oneOf "variants" expected
  | .notTextOrTable => "wanted string or table"
  | .noWord => "wanted exactly 1 element, found 0 elements"
  | .severalWords => "wanted exactly 1 element, more than 1 element"
  | .tableNotEmpty => "expected empty table"
  | .arrayNotEmpty => "expected empty array"
  | .notTable found => "expected table, found " ++ found.kind

end DocumentError

namespace Toml

variable {ρ : Type}

def Value.text : Value → Except DocumentError String
  | .string text => .ok text
  | v => .error (.notText v)

/-- What a word stands for. -/
def variant (words : List (String × ρ)) (word : String) : Except DocumentError ρ :=
  match words.lookup word with
  | some r => .ok r
  | none => .error (.unknownVariant word (words.map Prod.fst))

/-- Whether a value is a table or an array and empty. -/
def Value.unit : Value → Except DocumentError Unit
  | .table [] | .array [] => .ok ()
  | .table _ => .error .tableNotEmpty
  | .array _ => .error .arrayNotEmpty
  | v => .error (.notTable v)

/-- What the word that a value spells stands for: the value is the word, or a table with the word
as its only key and an empty value. -/
def Value.choice (words : List (String × ρ)) : Value → Except DocumentError ρ
  | .string word => variant words word
  | .table [] => .error .noWord
  | .table [(word, v)] => do
    let r ← variant words word
    v.unit
    return r
  | .table _ => .error .severalWords
  | _ => .error .notTextOrTable

/-- The entries of a table in ascending order of their keys. -/
def Table.present (t : Table) : Table := t.mergeSort fun a b => a.1 ≤ b.1

def readDocument (text : String) : Except DocumentError Table :=
  match Document.parse? text with
  | some t => .ok t
  | none => .error .malformed

/-- What a table spells: its entries are read in ascending order of their keys. -/
def readRecord (fields : List (String × (Value → ρ → Except DocumentError ρ))) (r : ρ)
    (t : Table) : Except DocumentError ρ :=
  t.present.foldlM (readField .unknownField fields) r

def reader : Reader DocumentError where
  document := readDocument
  present := Table.present
  text := Value.text
  choice := Value.choice
  record := readRecord
  unknownField := .unknownField
  message := DocumentError.message

end Toml

end NameRegistry
