import NameRegistry.NameMap
import NameRegistry.Text.Record

/-!
# Listings

What a registry shows at one moment: its members in store order, each under its name, the name of
their type, and the descriptions of its rules. Names are determined anew for every listing.

* `Listing.members` : the members in store order.
* `Listing.names`, `Listing.nameMap` : the names in order, and the members by name.
* `Listing.record` : a registry as a record.
-/

namespace NameRegistry

/-- What a registry shows. -/
structure Listing (α : Type) where
  /-- The name of the element type in messages. -/
  typeDisplayName : String
  /-- The members in store order, each under its name. -/
  entries : List (String × α)
  /-- The number of members. -/
  size : Nat
  /-- The descriptions of the rules in order of registration. -/
  rules : List String

namespace Listing

variable {α : Type}

def members (l : Listing α) : List α := l.entries.map (·.2)

def isEmpty (l : Listing α) : Bool := l.size == 0

/-- The names of the members in ascending order. -/
def names (l : Listing α) : List String := sortedNames (l.entries.map (·.1))

/-- The members by name, in ascending order of the names. Of several members with one name the
last one counts. -/
def nameMap (l : Listing α) : NameMap α := .ofEntries l.entries

def displayName (l : Listing α) : String := l.typeDisplayName ++ " container"

/-- The registry as a record that leaves its members out. -/
def record (l : Listing α) : Record where
  name := "Registry"
  fields := [("type", quoted l.typeDisplayName), ("len", l.size.repr),
    ("rules", l.rules.length.repr)]
  more := true

end Listing

end NameRegistry
