import NameRegistry.Filter
import NameRegistry.Text.Record

/-!
# Event channels

A channel tells its listeners which entities were added and removed. A view of a channel listens
and fires through the channel itself: a listener on a view hears what its filters show.

* `Change`, `Event` : the two kinds of event, and an event of a channel.
* `Listener` : an action behind filters.
* `Channel` : the listeners of either kind, in order of subscription.
* `ChannelRef` : a channel, or a view of a channel or view. `ChannelRef.widen` and
  `ChannelRef.wrap` say what it fires and who listens at the channel itself.
* `Channels` : whom channels tell. `Channels.inOrder` tells all listeners in order of subscription,
  and everything else is about these channels unless it says otherwise.
-/

namespace NameRegistry

variable {μ α β : Type}

/-- What happened to an entity. -/
inductive Change where
  | added
  | removed
  deriving DecidableEq, Repr

/-- What a channel tells its listeners: that an entity was added or removed. The channel is given
by its number, and the entity is one of the channel's. -/
structure Event (α : Type) where
  channel : Nat
  change : Change
  entity : α

/-- A subscriber: what it does, kept by the client under the key `β`, is done to the entities that
all filters show. -/
structure Listener (μ α β : Type) where
  filters : List (Filter μ α)
  action : β

/-- The listener on the parent of a view that stands for one on the view. -/
def Listener.behind (l : Listener μ α β) (f : Filter μ α) : Listener μ α β :=
  { l with filters := f :: l.filters }

/-- The subscribers of a channel. -/
structure Channel (μ α β : Type) where
  added : List (Listener μ α β) := []
  removed : List (Listener μ α β) := []

namespace Channel

/-- The subscribers to one kind of event. -/
def listeners (c : Channel μ α β) : Change → List (Listener μ α β)
  | .added => c.added
  | .removed => c.removed

/-- The channel with one more subscriber. -/
def subscribe (c : Channel μ α β) (l : Listener μ α β) : Change → Channel μ α β
  | .added => { c with added := c.added ++ [l] }
  | .removed => { c with removed := c.removed ++ [l] }

def counts (c : Channel μ α β) : Nat × Nat := (c.added.length, c.removed.length)

/-- The channel as a record of its numbers of subscribers. -/
def record (counts : Nat × Nat) : Record where
  name := "EventRegister"
  fields := [("added", counts.1.repr), ("removed", counts.2.repr)]
  more := false

end Channel

/-- A channel, by its number, or a view of a channel or view. -/
inductive ChannelRef (μ α : Type) where
  | root (number : Nat)
  | view (parent : ChannelRef μ α) (filter : Filter μ α)

namespace ChannelRef

def number : ChannelRef μ α → Nat
  | .root i => i
  | .view p _ => p.number

/-- An entity of a view as one of the channel behind it. -/
def widen (m : μ) : ChannelRef μ α → α → α
  | .root _, e => e
  | .view p f, e => p.widen m (f.widen m e)

/-- The listener on the channel that stands for one on the view. -/
def wrap : ChannelRef μ α → Listener μ α β → Listener μ α β
  | .root _, l => l
  | .view p f, l => p.wrap (l.behind f)

end ChannelRef

/-! ## What channels do -/

/-- Whom channels tell. A channel knows its listeners by their places, and what else it knows is
part of the memory. -/
class Channels (μ α : Type) where
  /-- What a channel does about a new subscriber to a kind of event, given the numbers of
  subscribers: it may tell of an entity at once. -/
  greet : μ → Nat → Change → Nat × Nat → Option α × μ
  /-- What a channel does before it goes on with a delivery, given how many have been told and how
  many are left, and the numbers of subscribers: it may go on with another entity, and with the
  listeners at other places. -/
  turn : μ → Event α → Nat → Nat → Nat × Nat → Option (α × List (Change × Nat)) × μ

/-- Channels that tell of an event those that were there when it was fired, in order of
subscription. -/
instance Channels.inOrder : Channels μ α where
  greet m _ _ _ := (none, m)
  turn m _ _ _ _ := (none, m)

end NameRegistry
