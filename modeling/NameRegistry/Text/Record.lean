import NameRegistry.Text.Quoted

/-!
# Records as text

A record is written as its name and its fields in braces, on one line or with one field a line.
A record that holds more than it shows ends with two dots.

* `Record.compact`, `Record.pretty` : the two forms.
-/

namespace NameRegistry

/-- A record to be written: fields by name, their values already written. -/
structure Record where
  name : String
  fields : List (String × String)
  /-- Whether the record holds more than these fields. -/
  more : Bool

namespace Record

/-- What stands between the braces, item by item. -/
def items (r : Record) : List String :=
  r.fields.map (fun f => f.1 ++ ": " ++ f.2) ++ if r.more then [".."] else []

def compact (r : Record) : String :=
  r.name ++ " \x7b " ++ ", ".intercalate r.items ++ " \x7d"

/-- The record with an indented line for each item. A field ends with a comma. -/
def pretty (r : Record) : String :=
  r.name ++ " \x7b\n"
    ++ String.join (r.fields.map fun f => "    " ++ f.1 ++ ": " ++ f.2 ++ ",\n")
    ++ (if r.more then "    ..\n" else "") ++ "\x7d"

end Record

end NameRegistry
