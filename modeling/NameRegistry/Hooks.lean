import NameRegistry.Config
import NameRegistry.Error

/-!
# Hooks

What a registry lets its owner decide: the name of the element type in messages, what becomes of
an entity whose name is taken, and the error for a missing name. Hooks may write to the client's
own state `σ` but do not reach the registries.

* `Hooks.default`, `Hooks.named`, `Hooks.ofConfig` : hooks that need no code.
-/

namespace NameRegistry

/-- The decisions that a registry leaves to its owner. -/
structure Hooks (μ σ α : Type) where
  /-- The name of the element type in messages, if it is not its simple name. -/
  typeDisplayName : Option String := none
  /-- What is done, instead of adding, with an entity whose name a member has: type, name and
  entity are given. Without an error, adding answers that nothing changed. -/
  onDuplicate : String → String → α → μ → σ → Except RegistryError Unit × σ :=
    fun _ _ _ _ s => (.ok (), s)
  /-- The error for a name that is asked for and missing: type and name are given. -/
  notFound : String → String → μ → σ → RegistryError × σ :=
    fun typeName name _ s => (.missing typeName name, s)

namespace Hooks

variable {μ σ α : Type}

/-- Hooks that decide nothing. -/
def default : Hooks μ σ α := {}

/-- Hooks that only name the element type. -/
def named (typeName : String) : Hooks μ σ α := { typeDisplayName := some typeName }

def ofConfig (c : Config) : Hooks μ σ α where
  typeDisplayName := c.typeDisplayName
  onDuplicate typeName name _ _ s :=
    match c.duplicatePolicy with
    | .ignore => (.ok (), s)
    | .fail => (.error (.duplicate typeName name), s)

end Hooks

end NameRegistry
