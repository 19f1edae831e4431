import NameRegistry.Toml.Value

/-!
# Building tables

A document opens tables by headers and fills them by assignments, both along paths of keys. How a
table came about decides what may be done to it later.

* `Node` : a finished value, a table under construction, or a list of such tables.
* `Section.assign?` : an assignment along a path. Missing tables on the way are made by it, and it
  may only pass tables that no header defines. None of them gets a header later.
* `Section.open?`, `Section.append?` : the headers of a table and of one more table of a list.
* `Section.toTable` : the finished table.

An operation answers nothing if it would define something a second time.
-/

namespace NameRegistry.Toml

/-- How a table came about. -/
inductive Origin where
  /-- By its own header. -/
  | header
  /-- On the way to the table of a header. -/
  | passed
  /-- On the way of an assignment, even if it was there before. -/
  | dotted
  deriving DecidableEq, Repr

/-- An entry of a table under construction. -/
inductive Node where
  /-- A value that is not extended any more. -/
  | value (v : Value)
  | table (origin : Origin) (entries : List (String × Node))
  /-- A list of tables, the last one first. -/
  | tables (last : List (String × Node)) (others : List (List (String × Node)))

/-- A table under construction. -/
structure Section where
  origin : Origin
  entries : List (String × Node)

namespace Section

def empty : Section := ⟨.header, []⟩

def get? (t : Section) (key : String) : Option Node := t.entries.lookup key

/-- Sets the entry of a key, in its old place if it has one. -/
def set (t : Section) (key : String) (n : Node) : Section :=
  if (t.get? key).isSome then
    { t with entries := t.entries.map fun e => if e.1 = key then (key, n) else e }
  else { t with entries := t.entries ++ [(key, n)] }

/-- Applies `f` to the table at the end of `path`. Missing tables are made, with `origin`. An
assignment passes no table that has a header, and takes over those that it passes. -/
def within? (origin : Origin) (f : Section → Option Section) :
    List String → Section → Option Section
  | [], t => f t
  | key :: path, t =>
    match t.get? key with
    | none => do
      let s ← within? origin f path ⟨origin, []⟩
      return t.set key (.table s.origin s.entries)
    | some (.table o entries) => do
      guard (origin ≠ .dotted ∨ o ≠ .header)
      let s ← within? origin f path ⟨if origin = .dotted then .dotted else o, entries⟩
      return t.set key (.table s.origin s.entries)
    | some (.tables last others) => do
      let s ← within? origin f path ⟨.header, last⟩
      return t.set key (.tables s.entries others)
    | some (.value _) => none

/-- Adds an entry under a new key. -/
def insert? (key : String) (n : Node) (t : Section) : Option Section :=
  if (t.get? key).isSome then none else some (t.set key n)

/-- Assigns a value. A path with dots does not end at the last table of a list. -/
def assign? (path : List String) (key : String) (v : Value) (t : Section) : Option Section :=
  t |> within? .dotted (fun s => do
    guard (path = [] ∨ s.origin = .dotted)
    insert? key (.value v) s) path

/-- Opens the table of a header. It may have been passed before, but not defined. -/
def open? (path : List String) (key : String) (t : Section) : Option Section :=
  t |> within? .passed (fun s =>
    match s.get? key with
    | none => some (s.set key (.table .header []))
    | some (.table .passed entries) => some (s.set key (.table .header entries))
    | _ => none) path

/-- Opens one more table of a list. -/
def append? (path : List String) (key : String) (t : Section) : Option Section :=
  t |> within? .passed (fun s =>
    match s.get? key with
    | none => some (s.set key (.tables [] []))
    | some (.tables last others) => some (s.set key (.tables [] (last :: others)))
    | _ => none) path

end Section

mutual

def Node.toValue : Node → Value
  | .value v => v
  | .table _ entries => .table (entriesToTable entries)
  | .tables last others => .array (tablesToValues others ++ [.table (entriesToTable last)])

def entriesToTable : List (String × Node) → Table
  | [] => []
  | (key, n) :: rest => (key, n.toValue) :: entriesToTable rest

/-- The finished tables of a list, the first one first. -/
def tablesToValues : List (List (String × Node)) → List Value
  | [] => []
  | entries :: rest => tablesToValues rest ++ [.table (entriesToTable entries)]

end

def Section.toTable (t : Section) : Table := entriesToTable t.entries

end NameRegistry.Toml
