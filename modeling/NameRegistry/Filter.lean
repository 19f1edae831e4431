/-!
# Filters

A filter defines a view of a collection: it narrows the entities that the view shows, and widens
an entity of the view to one of the collection.

* `Memory` : what entities may refer to, and how a new entity gets a place in it.
* `Filter.narrow`, `Filter.widen`, `Filter.accepts` : the two conversions, and the entities of the
  view that survive the way there and back.
* `narrowAll` : an entity as a view of a view shows it.

Entities may share what they hold: conversions read the memory but do not write to it.
-/

namespace NameRegistry

/-- The memory `μ` that entities `α` may refer to. An entity that is made anew, by a client or by a
conversion, stands for itself until it is settled in the memory. Stores, listeners and callbacks
get settled entities only. -/
class Memory (μ α : Type) where
  /-- The entity with a place of its own in the memory, which an entity that is settled keeps. -/
  settle : μ → α → α × μ

/-- Entities that are plain values need no memory. -/
instance {α : Type} : Memory Unit α where
  settle _ e := (e, ())

/-- A pair of conversions between a collection and a view of it. -/
structure Filter (μ α : Type) where
  /-- The entity as the view shows it, if it does. -/
  narrow : μ → α → Option α
  /-- An entity of the view as one of the collection. -/
  widen : μ → α → α

namespace Filter

variable {μ α : Type}

/-- Whether the view would show an entity of its own. -/
def accepts (f : Filter μ α) (m : μ) (e : α) : Bool := (f.narrow m (f.widen m e)).isSome

/-- The view of the entities with a property. -/
def matching (p : μ → α → Bool) : Filter μ α where
  narrow m e := if p m e then some e else none
  widen _ e := e

end Filter

/-- An entity narrowed by one filter after the other, if all of them show it. -/
def narrowAll {μ α : Type} (m : μ) : List (Filter μ α) → α → Option α
  | [], e => some e
  | f :: fs, e => f.narrow m e >>= narrowAll m fs

end NameRegistry
