/-!
# Configuration

What a registry can be told without code: the name of its element type in messages, and what
becomes of an entity whose name is taken.

* `DuplicatePolicy`, `Config` : the settings.
-/

namespace NameRegistry

/-- What adding does with an entity whose name a member has. -/
inductive DuplicatePolicy where
  /-- The member stays, and nothing is reported. -/
  | ignore
  /-- Adding fails. -/
  | fail
  deriving DecidableEq, Repr

def DuplicatePolicy.name : DuplicatePolicy → String
  | .ignore => "ignore"
  | .fail => "fail"

/-- The settings of a registry. -/
structure Config where
  /-- The name of the element type in messages. -/
  typeDisplayName : Option String := none
  duplicatePolicy : DuplicatePolicy := .ignore
  deriving DecidableEq, Repr

end NameRegistry
