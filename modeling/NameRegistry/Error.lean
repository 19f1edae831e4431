/-!
# Errors

What a registry operation can fail with, and what a rule can fail with. A failing rule's error
is the source of the registry error that reports it, so errors form chains.

* `RegistryError`, `RuleError` : the two kinds of error.
* `RegistryError.message` : the text of an error.
* `RegistryError.missingName?` : the name that was asked for.
* `RegistryError.rootNotFound?` : the missing name that made a chain of rules fail.
-/

namespace NameRegistry

mutual

/-- A failed registry operation. -/
inductive RegistryError where
  /-- No member has the name. The message is the registry's own. -/
  | notFound (name message : String)
  /-- A member of the registry already has the name. -/
  | duplicate (typeName name : String)
  /-- The store did not give up the member that it showed under the name. -/
  | storeContract (name : String)
  /-- The rule with this description failed. -/
  | rule (description : String) (source : RuleError)

/-- A failed rule. -/
inductive RuleError where
  /-- The rule passes on a registry error. -/
  | registry (error : RegistryError)
  /-- A plain message. -/
  | text (message : String)
  /-- An error of the rule's own which has another error behind it. -/
  | wrapped (message : String) (source : RuleError)

end

/-- A rule may fail with any registry error. -/
instance : Coe RegistryError RuleError where
  coe := .registry

/-- What a rule answers: it is done, or it failed. -/
abbrev Verdict := Except RuleError Unit

namespace RegistryError

/-- The error for a missing name that a registry reports if it has no words of its own. -/
def missing (typeName name : String) : RegistryError :=
  .notFound name (typeName ++ " with name '" ++ name ++ "' not found.")

/-- The name that was asked for, if it was not found. -/
def missingName? : RegistryError → Option String
  | .notFound name _ => some name
  | _ => none

end RegistryError

mutual

/-- The text of a registry error. -/
def RegistryError.message : RegistryError → String
  | .notFound _ message => message
  | .duplicate typeName name =>
    "Cannot add a " ++ typeName ++ " with name '" ++ name ++ "' as a " ++ typeName
      ++ " with that name already exists."
  | .storeContract name => "found '" ++ name ++ "' but the backing store refused to remove it"
  | .rule description source => "rule '" ++ description ++ "' failed: " ++ source.message

def RuleError.message : RuleError → String
  | .registry error => error.message
  | .text message => message
  | .wrapped message _ => message

end

mutual

/-- The missing name at the root of a chain of failed rules. A source that is not itself a
registry error ends the chain. -/
def RegistryError.rootNotFound? : RegistryError → Option RegistryError
  | .notFound name message => some (.notFound name message)
  | .rule _ source => source.rootNotFound?
  | .duplicate _ _ => none
  | .storeContract _ => none

/-- The missing name at the root of a rule's error. -/
def RuleError.rootNotFound? : RuleError → Option RegistryError
  | .registry error => error.rootNotFound?
  | .text _ => none
  | .wrapped _ _ => none

end

/-- The error behind a registry error. -/
def RegistryError.source? : RegistryError → Option RuleError
  | .rule _ source => some source
  | _ => none

/-- The error behind a rule's error. A passed-on registry error stands for itself. -/
def RuleError.source? : RuleError → Option RuleError
  | .registry error => error.source?
  | .text _ => none
  | .wrapped _ source => some source

end NameRegistry
