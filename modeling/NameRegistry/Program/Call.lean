import NameRegistry.World

/-!
# Calls

* `Call` : what a client can ask of the library. Stores and channels are given by reference,
  registries by number.
* `Call.Reply` : the type of the answer to a call.
-/

namespace NameRegistry

/-- What a client can ask of the library. -/
inductive Call (μ σ α β : Type) where
  /-- Opens an empty store. -/
  | openStore (discipline : Discipline μ α)
  /-- Opens a channel without listeners. -/
  | openChannel
  /-- Opens a registry without rules. -/
  | openRegistry (parts : Parts μ α) (hooks : Hooks μ σ α)
  /-- The parts of a registry. -/
  | parts (r : Nat)
  /-- What a registry shows. -/
  | look (r : Nat)
  /-- The name of an entity in a registry. -/
  | nameOf (r : Nat) (e : α)
  /-- The member of a registry with a name, without applying rules. -/
  | direct (r : Nat) (name : String)
  /-- Adds an entity unless its name is taken. -/
  | add (r : Nat) (e : α)
  /-- Looks a name up; if it is missing, the rules are applied and it is looked up again. -/
  | find (r : Nat) (name : String)
  /-- The error of a registry for a missing name. -/
  | missing (r : Nat) (name : String)
  /-- Removes an entity. -/
  | remove (r : Nat) (e : α)
  /-- Removes the member with a name. -/
  | removeByName (r : Nat) (name : String)
  /-- Subscribes an action to the changes of a registry. -/
  | subscribe (r : Nat) (change : Change) (action : β)
  /-- Appends a rule. -/
  | addRule (r : Nat) (rule : Rule β)
  /-- Applies one rule of a registry to a name, by its position. -/
  | applyRule (r : Nat) (i : Nat) (name : String)
  /-- Gives an entity a place of its own in the memory. -/
  | settle (e : α)
  /-- Runs an action on an entity. -/
  | invoke (action : β) (e : α)
  /-- The members that a store shows. -/
  | shown (s : StoreRef μ α)
  /-- The first member with a property that a store shows, and those looked at to find it. -/
  | seek (s : StoreRef μ α) (p : μ → α → Bool)
  /-- Takes an entity into a store. -/
  | insert (s : StoreRef μ α) (e : α)
  /-- Gives up an entity of a store. -/
  | erase (s : StoreRef μ α) (e : α)
  /-- Subscribes an action to a channel. -/
  | listen (c : ChannelRef μ α) (change : Change) (action : β)
  /-- The numbers of listeners of a channel. -/
  | counts (c : ChannelRef μ α)
  /-- Tells a channel's listeners of a change. -/
  | fire (c : ChannelRef μ α) (change : Change) (e : α)

namespace Call

variable {μ σ α β : Type}

def Reply : Call μ σ α β → Type
  | openStore _ => StoreRef μ α
  | openChannel => ChannelRef μ α
  | openRegistry _ _ => Nat
  | parts _ => Parts μ α
  | look _ => Listing α
  | nameOf _ _ => String
  | direct _ _ => Option α
  | add _ _ => Except RegistryError Bool
  | find _ _ => Except RegistryError (Option α)
  | missing _ _ => RegistryError
  | remove _ _ => Bool
  | removeByName _ _ => Except RegistryError (Option α)
  | subscribe _ _ _ => Unit
  | addRule _ _ => Nat
  | applyRule _ _ _ => Verdict
  | settle _ => α
  | invoke _ _ => Unit
  | shown _ => List α
  | seek _ _ => Option α × List α
  | insert _ _ => Bool
  | erase _ _ => Bool
  | listen _ _ _ => Unit
  | counts _ => Nat × Nat
  | fire _ _ _ => Unit

end Call

end NameRegistry
