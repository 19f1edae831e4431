import NameRegistry.Channel
import NameRegistry.Hooks
import NameRegistry.Listing
import NameRegistry.Rule
import NameRegistry.Store
import NameRegistry.TypeName

/-!
# The world of registries

Stores, channels and registries refer to each other by number, and views share what they are views
of. So all of them live in one world, together with the memory of the entities and the client's
own state.

* `Parts` : what a registry is made of. `Parts.filtered` makes the parts of a view.
* `Registry` : parts with hooks, rules, and the names whose rules are being applied.
* `World` : all stores, channels and registries.
* `World.visit`, `World.shown`, `World.len` : a visit to the members that a store shows, and the
  list and the number of those that are visited.
* `World.seek` : the first member with a property.
* `World.listing`, `World.direct` : the same for a registry.
* `World.insert?`, `World.erase?` : changes of a store, nothing if they are refused.
  `World.refuseInsert`, `World.refuseErase` are what is left then.
* `World.mark`, `World.release` : a name goes in flight and is released.

A number that was never given out stands for a closed store, a channel without listeners, or a
registry over these.
-/

namespace NameRegistry

variable {μ σ α β : Type}

/-! ## Registries -/

/-- What a registry is made of. -/
structure Parts (μ α : Type) where
  /-- The name of an entity. -/
  namer : μ → α → String
  /-- The full name of the element type. -/
  typeName : String
  store : StoreRef μ α
  channel : ChannelRef μ α

/-- The parts of a view. Members are named as they are named in the collection. -/
def Parts.filtered (p : Parts μ α) (f : Filter μ α) (typeName : String) : Parts μ α where
  namer m e := p.namer m (f.widen m e)
  typeName := typeName
  store := .view p.store f
  channel := .view p.channel f

/-- A registry or a view of one. -/
structure Registry (μ σ α β : Type) extends Parts μ α where
  hooks : Hooks μ σ α
  /-- The rules in order of registration. -/
  rules : List (Rule β) := []
  /-- The names whose rules are being applied, the latest first. -/
  inFlight : List String := []

namespace Registry

def typeDisplayName (r : Registry μ σ α β) : String :=
  r.hooks.typeDisplayName.getD (simpleTypeName r.typeName)

/-- A registry that shows and accepts nothing. -/
def absent : Registry μ σ α β where
  namer _ _ := ""
  typeName := ""
  store := .view (.root 0) nothing
  channel := .view (.root 0) nothing
  hooks := .default
where
  nothing : Filter μ α := ⟨fun _ _ => none, fun _ e => e⟩

end Registry

/-! ## Worlds -/

/-- All stores, channels and registries, the memory of the entities and the state of the
client. -/
structure World (μ σ α β : Type) where
  memory : μ
  client : σ
  stores : List (Store μ α) := []
  channels : List (Channel μ α β) := []
  registries : List (Registry μ σ α β) := []

namespace World

variable (w : World μ σ α β)

def store (i : Nat) : Store μ α := w.stores.getD i ⟨[], .closed⟩

def channel (i : Nat) : Channel μ α β := w.channels.getD i {}

def registry (r : Nat) : Registry μ σ α β := w.registries.getD r .absent

/-! ### What is shown -/

/-- Visits the members that a store or a view shows, one after the other. A view visits what its
parent shows and passes over what its filter does not show. -/
def visit {γ : Type} [Stores μ α] : StoreRef μ α → (γ → α → γ) → γ → γ
  | .root i, see, a => (Stores.visit w.memory i (w.store i)).foldl see a
  | .view parent f, see, a =>
    visit parent (fun a e => (f.narrow w.memory e).elim a (see a)) a

/-- The members that a store or a view shows, in store order. -/
def shown [Stores μ α] (s : StoreRef μ α) : List α := w.visit s (fun l e => l ++ [e]) []

/-- The number of members that a store or a view shows. A view counts what it visits. -/
def len [Stores μ α] : StoreRef μ α → Nat
  | .root i => Stores.len w.memory i (w.store i)
  | .view parent f => w.visit (.view parent f) (fun n _ => n + 1) 0

/-- The first member with a property that a store or a view shows, and those that were looked at
to find it. A view looks through what its parent shows and narrows what it finds there. -/
def seek [Stores μ α] : StoreRef μ α → (α → Bool) → Option α × List α
  | .root i, p => Stores.find w.memory i (w.store i) p
  | .view parent f, p =>
    let (found, looked) := seek parent fun e => (f.narrow w.memory e).any p
    (found >>= f.narrow w.memory, looked.filterMap (f.narrow w.memory))

def nameOf (r : Nat) (e : α) : String := (w.registry r).namer w.memory e

/-- What a registry shows. -/
def listing [Stores μ α] (r : Nat) : Listing α where
  typeDisplayName := (w.registry r).typeDisplayName
  entries := (w.shown (w.registry r).store).map fun e => (w.nameOf r e, e)
  size := w.len (w.registry r).store
  rules := (w.registry r).rules.map (·.description)

/-- The first member of a registry with a name, as a plain look-up finds it. -/
def direct [Stores μ α] (r : Nat) (name : String) : Option α :=
  (w.seek (w.registry r).store fun e => w.nameOf r e == name).1

/-! ### Changes -/

/-- The world with other members in a store. -/
def setMembers (i : Nat) (l : List α) : World μ σ α β :=
  { w with stores := w.stores.modify i fun s => { s with members := l } }

def modifyRegistry (r : Nat) (f : Registry μ σ α β → Registry μ σ α β) : World μ σ α β :=
  { w with registries := w.registries.modify r f }

/-- The world with an entity settled in its memory. -/
def settle [Memory μ α] (e : α) : α × World μ σ α β :=
  let (e, memory) := Memory.settle w.memory e
  (e, { w with memory })

/-- The world after a store changed its members and wrote to the memory. -/
def commit (i : Nat) (change : List α × μ) : World μ σ α β :=
  { w.setMembers i change.1 with memory := change.2 }

/-- Takes an entity into a store. A view passes it on, widened, if its filter accepts it. -/
def insert? [Memory μ α] [Stores μ α] : StoreRef μ α → α → Option (World μ σ α β)
  | .root i, e =>
    let (e, w) := w.settle e
    (Stores.insert w.memory i (w.store i) e).map (w.commit i)
  | .view p f, e => if f.accepts w.memory e then insert? p (f.widen w.memory e) else none

/-- Gives up an entity of a store. A view passes it on, widened, if its filter accepts it. -/
def erase? [Stores μ α] : StoreRef μ α → α → Option (World μ σ α β)
  | .root i, e => (Stores.erase w.memory i (w.store i) e).map (w.commit i)
  | .view p f, e => if f.accepts w.memory e then erase? p (f.widen w.memory e) else none

/-- What is left when an entity was not taken in. -/
def refuseInsert [Stores μ α] : StoreRef μ α → α → World μ σ α β
  | .root i, e => w.commit i (Stores.refuseInsert w.memory i (w.store i) e)
  | .view p f, e => if f.accepts w.memory e then refuseInsert p (f.widen w.memory e) else w

/-- What is left when an entity was not given up. -/
def refuseErase [Stores μ α] : StoreRef μ α → α → World μ σ α β
  | .root i, e => w.commit i (Stores.refuseErase w.memory i (w.store i) e)
  | .view p f, e => if f.accepts w.memory e then refuseErase p (f.widen w.memory e) else w

/-- Subscribes an action to a channel or a view. -/
def listen (c : ChannelRef μ α) (change : Change) (action : β) : World μ σ α β :=
  { w with channels := w.channels.modify c.number (·.subscribe (c.wrap ⟨[], action⟩) change) }

def addRule (r : Nat) (rule : Rule β) : World μ σ α β :=
  w.modifyRegistry r fun reg => { reg with rules := reg.rules ++ [rule] }

/-- Puts a name in flight. -/
def mark (r : Nat) (name : String) : World μ σ α β :=
  w.modifyRegistry r fun reg => { reg with inFlight := name :: reg.inFlight }

/-- Releases a name that is in flight. -/
def release (r : Nat) (name : String) : World μ σ α β :=
  w.modifyRegistry r fun reg => { reg with inFlight := reg.inFlight.erase name }

end World

end NameRegistry
