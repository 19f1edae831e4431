import NameRegistry.Text.Alphanumeric

/-!
# Simple type names

A full type name writes each type with its module path. The simple name leaves the paths out:
`a::b::List<c::Item>` is simply `List<Item>`.

* `lastSegment` : the part of a path after its last double colon.
* `simpleTypeName` : every path of the name replaced by its last segment.
-/

namespace NameRegistry

namespace TypeName

/-- The characters of paths. All others separate paths. -/
def isPathChar (c : Char) : Bool := isAlphanumeric c || c == '_' || c == ':'

/-- The part of a path after its last double colon, `best` if it has none. Colons may belong to
two double colons: of three in a row, the last two count. -/
def afterLast (best : List Char) : List Char → List Char
  | [] => best
  | c :: r => if c = ':' ∧ r.head? = some ':' then afterLast r.tail r else afterLast best r

/-- The part of a path after its last double colon, the whole path if it has none. -/
def lastSegment (path : List Char) : List Char := afterLast path path

/-- Reads on with `path` read since the last separator. -/
def simpleFrom (path : List Char) : List Char → List Char
  | [] => lastSegment path
  | c :: r =>
    if isPathChar c then simpleFrom (path ++ [c]) r
    else lastSegment path ++ c :: simpleFrom [] r

def simple (full : List Char) : List Char := simpleFrom [] full

end TypeName

/-- The type name with module paths left out. -/
def simpleTypeName (full : String) : String := String.ofList (TypeName.simple full.toList)

end NameRegistry
