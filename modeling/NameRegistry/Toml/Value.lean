/-!
# Values of TOML documents

* `Real` : a decimal number as written, an infinity, or not a number.
* `Value` : a text, number, truth value, date or time, array or table.
* `Value.beq` : equality of values, which is decided on their structure.
* `Value.kind` : the word for what a value is.
-/

namespace NameRegistry.Toml

/-- A number with a point or an exponent, in decimal as it was written. -/
inductive Real where
  /-- `digits * 10 ^ exponent` with its sign. -/
  | decimal (negative : Bool) (digits : Nat) (exponent : Int)
  | infinite (negative : Bool)
  | notANumber
  deriving DecidableEq, Repr

/-- A value of a TOML document. Tables keep their entries in the order of the document. -/
inductive Value where
  | string (text : String)
  /-- An integer, nothing if its text spells no number. -/
  | integer (value : Option Int)
  | float (value : Real)
  | boolean (value : Bool)
  /-- A date, a time or both, as written. -/
  | datetime (text : String)
  | array (elements : List Value)
  | table (entries : List (String × Value))

/-- The entries of a table. -/
abbrev Table := List (String × Value)

/-! ## Equality -/

mutual

/-- Whether two values are the same. -/
def Value.beq : Value → Value → Bool
  | .string a, .string b => a == b
  | .integer a, .integer b => a == b
  | .float a, .float b => a == b
  | .boolean a, .boolean b => a == b
  | .datetime a, .datetime b => a == b
  | .array a, .array b => elementsBeq a b
  | .table a, .table b => entriesBeq a b
  | _, _ => false

/-- Whether two arrays have the same elements. -/
def elementsBeq : List Value → List Value → Bool
  | [], [] => true
  | v :: a, w :: b => v.beq w && elementsBeq a b
  | _, _ => false

/-- Whether two tables have the same entries in the same order. -/
def entriesBeq : Table → Table → Bool
  | [], [] => true
  | (key, v) :: a, (key', w) :: b => key == key' && v.beq w && entriesBeq a b
  | _, _ => false

end

mutual

theorem Value.beq_iff : ∀ v w : Value, v.beq w ↔ v = w
  | .string _, w | .integer _, w | .float _, w | .boolean _, w | .datetime _, w => by
    cases w <;> simp [Value.beq]
  | .array a, w => by cases w <;> simp [Value.beq, elementsBeq_iff a]
  | .table a, w => by cases w <;> simp [Value.beq, entriesBeq_iff a]

theorem elementsBeq_iff : ∀ a b : List Value, elementsBeq a b ↔ a = b
  | [], b => by cases b <;> simp [elementsBeq]
  | v :: a, b => by cases b <;> simp [elementsBeq, v.beq_iff, elementsBeq_iff a]

theorem entriesBeq_iff : ∀ a b : Table, entriesBeq a b ↔ a = b
  | [], b => by cases b <;> simp [entriesBeq]
  | (key, v) :: a, b => by
    cases b <;> simp [entriesBeq, v.beq_iff, entriesBeq_iff a, Prod.ext_iff]

end

instance : DecidableEq Value := fun v w => decidable_of_iff _ (v.beq_iff w)

/-- What a value is, in one word. -/
def Value.kind : Value → String
  | .string _ => "string"
  | .integer _ => "integer"
  | .float _ => "float"
  | .boolean _ => "boolean"
  | .datetime _ => "datetime"
  | .array _ => "array"
  | .table _ => "table"

end NameRegistry.Toml
