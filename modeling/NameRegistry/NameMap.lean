/-!
# Sorted names

Names are ordered by code point.

* `NameMap.insert`, `NameMap.ofEntries` : a map from names, kept sorted. Of several values for one
  name the last one counts.
* `insertName`, `sortedNames` : a set of names, kept sorted.
-/

namespace NameRegistry

/-- A map from names to values, in ascending order of the names. -/
abbrev NameMap (α : Type) := List (String × α)

namespace NameMap

variable {α : Type}

def insert (name : String) (a : α) : NameMap α → NameMap α
  | [] => [(name, a)]
  | e :: l =>
    if name < e.1 then (name, a) :: e :: l
    else if name = e.1 then (name, a) :: l
    else e :: insert name a l

/-- The map made by setting one value after the other. -/
def ofEntries (l : List (String × α)) : NameMap α := l.foldl (fun m e => insert e.1 e.2 m) []

end NameMap

/-- Adds a name to a sorted list without repetitions. -/
def insertName (name : String) : List String → List String
  | [] => [name]
  | n :: l =>
    if name < n then name :: n :: l
    else if name = n then n :: l
    else n :: insertName name l

/-- The names in ascending order, each once. -/
def sortedNames (l : List String) : List String := l.foldl (fun s n => insertName n s) []

end NameRegistry
