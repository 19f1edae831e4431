import NameRegistry.Program.Basic

/-!
# The operations of the library

The calls as programs, and the operations that consist of several calls.

* `Prog.add`, `Prog.find`, `Prog.removeByName`, … : operations of registries, stores and channels
  that are one call each.
* `Prog.get`, `Prog.addAll`, `Prog.configure`, `Prog.all` : operations that are programs.
* `Prog.newRegistry`, `Prog.withType`, `Prog.matching`, `Prog.filtered` : new registries and views.
-/

namespace NameRegistry

namespace Prog

variable {μ σ α β : Type}

/-! ## Registries -/

def nameOf (r : Nat) (e : α) : Prog μ σ α β String := request (.nameOf r e)

/-- Gives an entity a place of its own in the memory. -/
def settle (e : α) : Prog μ σ α β α := request (.settle e)

def addRule (r : Nat) (rule : Rule β) : Prog μ σ α β Nat := request (.addRule r rule)

def applyRule (r : Nat) (i : Nat) (name : String) : Prog μ σ α β Verdict :=
  request (.applyRule r i name)

/-- Adds an entity to a registry unless its name is taken or the store refuses it, and answers
whether it was added. -/
def add (r : Nat) (e : α) : Prog μ σ α β (Except RegistryError Bool) := request (.add r e)

/-- Adds entities one after the other, up to the first error, and answers whether any was added. -/
def addAll (r : Nat) : List α → Prog μ σ α β (Except RegistryError Bool)
  | [] => .done (.ok false)
  | e :: es => do
    match ← add r e with
    | .error x => return .error x
    | .ok added =>
      match ← addAll r es with
      | .error x => return .error x
      | .ok more => return .ok (added || more)

/-- The member with a name, after the rules had a chance to add it. -/
def find (r : Nat) (name : String) : Prog μ σ α β (Except RegistryError (Option α)) :=
  request (.find r name)

/-- The member with a name, after the rules had a chance to add it; an error if it is missing. -/
def get (r : Nat) (name : String) : Prog μ σ α β (Except RegistryError α) := do
  match ← find r name with
  | .error x => return .error x
  | .ok (some e) => return .ok e
  | .ok none =>
    let x ← request (.missing r name)
    return .error x

/-- Runs an action on the member with a name, and answers the member. -/
def configure (r : Nat) (name : String) (action : β) :
    Prog μ σ α β (Except RegistryError α) := do
  match ← get r name with
  | .error x => return .error x
  | .ok e =>
    let e ← settle e
    request (.invoke action e)
    return .ok e

def remove (r : Nat) (e : α) : Prog μ σ α β Bool := request (.remove r e)

/-- Removes the member with a name and answers it. No rules are applied. -/
def removeByName (r : Nat) (name : String) : Prog μ σ α β (Except RegistryError (Option α)) :=
  request (.removeByName r name)

/-- What a registry shows. -/
def look (r : Nat) : Prog μ σ α β (Listing α) := request (.look r)

/-- Whether a member has a name. No rules are applied. -/
def hasName (r : Nat) (name : String) : Prog μ σ α β Bool := do
  let found ← request (.direct r name)
  return Option.isSome found

def visit (action : β) : List α → Prog μ σ α β Unit
  | [] => .done ()
  | e :: es => do
    request (.invoke action e)
    visit action es

/-- Runs an action on every entity that is added from now on. -/
def whenAdded (r : Nat) (action : β) : Prog μ σ α β Unit := request (.subscribe r .added action)

/-- Runs an action on every entity that is removed from now on. -/
def whenRemoved (r : Nat) (action : β) : Prog μ σ α β Unit :=
  request (.subscribe r .removed action)

/-- Runs an action on every member, and on every entity that is added from now on. -/
def all (r : Nat) (action : β) : Prog μ σ α β Unit := do
  let l ← look r
  whenAdded r action
  visit action l.members

/-! ## Stores and channels -/

def openStore (d : Discipline μ α) : Prog μ σ α β (StoreRef μ α) := request (.openStore d)

def openChannel : Prog μ σ α β (ChannelRef μ α) := request .openChannel

def shown (s : StoreRef μ α) : Prog μ σ α β (List α) := request (.shown s)

/-- The first member with a property that a store shows, and those looked at to find it. -/
def seek (s : StoreRef μ α) (p : μ → α → Bool) : Prog μ σ α β (Option α × List α) :=
  request (.seek s p)

/-- Takes an entity into a store, and answers whether the store took it. -/
def insert (s : StoreRef μ α) (e : α) : Prog μ σ α β Bool := request (.insert s e)

/-- Gives up an entity of a store, and answers whether the store did. -/
def erase (s : StoreRef μ α) (e : α) : Prog μ σ α β Bool := request (.erase s e)

def listen (c : ChannelRef μ α) (change : Change) (action : β) : Prog μ σ α β Unit :=
  request (.listen c change action)

def counts (c : ChannelRef μ α) : Prog μ σ α β (Nat × Nat) := request (.counts c)

def fire (c : ChannelRef μ α) (change : Change) (e : α) : Prog μ σ α β Unit :=
  request (.fire c change e)

/-! ## New registries -/

def parts (r : Nat) : Prog μ σ α β (Parts μ α) := request (.parts r)

/-- A registry over a store and a channel. -/
def openRegistry (parts : Parts μ α) (hooks : Hooks μ σ α) : Prog μ σ α β Nat :=
  request (.openRegistry parts hooks)

/-- A registry over an empty store. Members are pairwise different. -/
def newRegistry (same : μ → α → α → Bool) (namer : μ → α → String) (typeName : String)
    (hooks : Hooks μ σ α) : Prog μ σ α β Nat := do
  let store ← openStore (.distinct same)
  let channel ← openChannel
  openRegistry ⟨namer, typeName, store, channel⟩ hooks

/-- A view through a filter, with hooks and the full name of its element type. It has no rules. -/
def filtered (r : Nat) (f : Filter μ α) (typeName : String) (hooks : Hooks μ σ α) :
    Prog μ σ α β Nat := do
  let p ← parts r
  openRegistry (p.filtered f typeName) hooks

/-- A view of the members of a narrower type. -/
def withType (r : Nat) (f : Filter μ α) (typeName : String) : Prog μ σ α β Nat :=
  filtered r f typeName .default

/-- A view of the members with a property. It keeps the name of the element type in messages. -/
def matching (r : Nat) (p : μ → α → Bool) : Prog μ σ α β Nat := do
  let l ← look r
  let parts ← parts r
  filtered r (.matching p) parts.typeName (.named l.typeDisplayName)

end Prog

end NameRegistry
