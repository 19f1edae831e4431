import NameRegistry.Error
import NameRegistry.Text.Record

/-!
# Rules

A rule gets one chance to produce the member that a lookup misses. It is known by its
description; what it does is kept by the client under a key.

* `Rule` : a description and the key of what the rule does.
* `Rule.display`, `Rule.debugText` : the two texts of a rule.
-/

namespace NameRegistry

/-- A rule: its description, and the key `β` under which the client keeps what it does. -/
structure Rule (β : Type) where
  description : String
  action : β

namespace Rule

variable {β : Type}

/-- The rule for readers. -/
def display (r : Rule β) : String := "Rule: " ++ r.description

/-- The rule as a record, without what it does. -/
def debugText (r : Rule β) : String :=
  Record.compact ⟨"FnRule", [("description", quoted r.description)], true⟩

end Rule

end NameRegistry
