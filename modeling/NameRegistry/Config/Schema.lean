import NameRegistry.Config
import NameRegistry.Config.Reader

/-!
# The configuration schema

A configuration is a record with the fields `type-display-name`, a text, and `duplicate-policy`, a
choice between the words for the policies. Fields that are not given keep what they are by default.

* `DuplicatePolicy.words`, `Config.fields` : the words and the fields.
* `Config.ofTable`, `Config.parse` : the configuration that a table or a document spells.
* `ConfigError` : what it fails with.
-/

namespace NameRegistry

variable {ε : Type}

def DuplicatePolicy.words : List (String × DuplicatePolicy) :=
  [.ignore, .fail].map fun p => (p.name, p)

/-- What can be wrong with a configuration. -/
inductive ConfigError (ε : Type) where
  /-- The document was not read, or it is no configuration. -/
  | parse (error : ε)

def ConfigError.message (R : Reader ε) : ConfigError ε → String
  | .parse e => "invalid registry config: " ++ R.message e

namespace Config

/-- The fields of a configuration by their keys. -/
def fields (R : Reader ε) : List (String × (Toml.Value → Config → Except ε Config)) :=
  [("type-display-name", fun v c =>
      (R.text v).map fun name => { c with typeDisplayName := some name }),
    ("duplicate-policy", fun v c =>
      (R.choice DuplicatePolicy.words v).map fun policy => { c with duplicatePolicy := policy })]

/-- The configuration that a table spells. -/
def ofTable (R : Reader ε) (t : Toml.Table) : Except ε Config := R.record (fields R) {} t

/-- The configuration that a document spells. -/
def parse (R : Reader ε) (text : String) : Except (ConfigError ε) Config :=
  (R.document text >>= ofTable R).mapError .parse

end Config

end NameRegistry
