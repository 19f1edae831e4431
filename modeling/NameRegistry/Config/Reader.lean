import NameRegistry.Toml.Value

/-!
# Readers of documents

A configuration says which fields and words it has. How these are found in a document is left to a
reader, and what is said here of configurations holds of them whatever the reader is.

* `Reader` : what reads documents, values and tables, and what it fails with.
* `readField` : a record after the value under one more key.
-/

namespace NameRegistry

/-- What reads documents, with failures of type `ε`. -/
structure Reader (ε : Type) where
  /-- The table that a document spells. -/
  document : String → Except ε Toml.Table
  /-- The entries of a table, in the order in which they are presented. -/
  present : Toml.Table → Toml.Table
  /-- The text that a value is. -/
  text : Toml.Value → Except ε String
  /-- What the word that a value spells stands for. -/
  choice {ρ : Type} : List (String × ρ) → Toml.Value → Except ε ρ
  /-- The record that a table spells. A field says what the value under its key makes of the
  record. -/
  record {ρ : Type} : List (String × (Toml.Value → ρ → Except ε ρ)) → ρ → Toml.Table → Except ε ρ
  /-- The failure for a key that no field has, with the keys that fields have. -/
  unknownField : String → List String → ε
  /-- The words for a failure. -/
  message : ε → String

variable {ε ρ : Type}

/-- A record after the value under one more key. A key that no field has is a failure. -/
def readField (unknown : String → List String → ε)
    (fields : List (String × (Toml.Value → ρ → Except ε ρ))) (r : ρ) (e : String × Toml.Value) :
    Except ε ρ :=
  match fields.lookup e.1 with
  | some read => read e.2 r
  | none => .error (unknown e.1 (fields.map Prod.fst))

end NameRegistry
