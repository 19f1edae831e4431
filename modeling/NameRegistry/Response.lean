import NameRegistry.Program.Operations

/-!
# Responses

What the library does about a call, short of the client's own programs: it changes the world, and
answers, or says what has to be done before it can answer.

* `Reaction` : an answer, or what has to be done for one.
* `World.enter` : an action of the client about to be run on an entity.
* `World.subscribe` : an action subscribed to a channel, which may tell it of an entity at once.
* `World.respond` : the world after a call, and the reaction.

An addition or removal that succeeds has the listeners told before it is answered. A lookup that
misses has the rules applied, unless they are being applied to the same name already.
-/

namespace NameRegistry

variable {μ σ α β : Type}

/-- An answer of type `ρ`, or what has to be done for one. -/
inductive Reaction (μ σ α β ρ : Type) where
  /-- The answer. -/
  | answer (a : ρ)
  /-- Tell the listeners of a channel of a change, then answer. -/
  | tell (c : ChannelRef μ α) (change : Change) (e : α) (a : ρ)
  /-- Apply the rules of a registry to a name, look it up again, and answer with the outcome. -/
  | resolve (r : Nat) (name : String) (a : Except RegistryError (Option α) → ρ)
  /-- Run a program, and answer with what it says. -/
  | run (p : Prog μ σ α β Verdict) (a : Verdict → ρ)

namespace World

/-- Subscribes an action to a channel or a view. -/
def subscribe [Channels μ α] (w : World μ σ α β) (c : ChannelRef μ α) (change : Change)
    (action : β) : World μ σ α β × Reaction μ σ α β Unit :=
  let w := w.listen c change action
  match Channels.greet w.memory c.number change (w.channel c.number).counts with
  | (none, memory) => ({ w with memory }, .answer ())
  | (some e, memory) => ({ w with memory }, .tell (.root c.number) change e ())

variable [Memory μ α] (C : Client μ σ α β)

/-- An action about to be run on an entity. -/
def enter (w : World μ σ α β) (action : β) (e : α) : World μ σ α β × Prog μ σ α β Verdict :=
  let (e, w) := w.settle e
  (w, .ok <$> C.action action e)

variable [Stores μ α] [Channels μ α]

/-- What the library does about a call. -/
def respond (w : World μ σ α β) :
    (c : Call μ σ α β) → World μ σ α β × Reaction μ σ α β c.Reply
  | .openStore d => ({ w with stores := w.stores ++ [⟨[], d⟩] }, .answer (.root w.stores.length))
  | .openChannel => ({ w with channels := w.channels ++ [{}] }, .answer (.root w.channels.length))
  | .openRegistry p hooks =>
    ({ w with registries := w.registries ++ [{ p with hooks }] }, .answer w.registries.length)
  | .parts r => (w, .answer (w.registry r).toParts)
  | .look r => (w, .answer (w.listing r))
  | .nameOf r e => (w, .answer (w.nameOf r e))
  | .direct r name => (w, .answer (w.direct r name))
  | .add r e =>
    let reg := w.registry r
    let name := w.nameOf r e
    if (w.direct r name).isSome then
      let (answer, client) := reg.hooks.onDuplicate reg.typeDisplayName name e w.memory w.client
      ({ w with client }, .answer (answer.map fun _ => false))
    else
      match w.insert? reg.store e with
      | none => (w.refuseInsert reg.store e, .answer (.ok false))
      | some w => (w, .tell reg.channel .added e (.ok true))
  | .find r name =>
    match w.direct r name with
    | some e => (w, .answer (.ok (some e)))
    | none =>
      if name ∈ (w.registry r).inFlight then (w, .answer (.ok none))
      else (w, .resolve r name id)
  | .missing r name =>
    let reg := w.registry r
    let (error, client) := reg.hooks.notFound reg.typeDisplayName name w.memory w.client
    ({ w with client }, .answer error)
  | .remove r e =>
    let reg := w.registry r
    match w.erase? reg.store e with
    | none => (w.refuseErase reg.store e, .answer false)
    | some w => (w, .tell reg.channel .removed e true)
  | .removeByName r name =>
    let reg := w.registry r
    match w.direct r name with
    | none => (w, .answer (.ok none))
    | some e =>
      match w.erase? reg.store e with
      | none => (w.refuseErase reg.store e, .answer (.error (.storeContract name)))
      | some w => (w, .tell reg.channel .removed e (.ok (some e)))
  | .subscribe r change action => w.subscribe (w.registry r).channel change action
  | .addRule r rule => (w.addRule r rule, .answer (w.registry r).rules.length)
  | .applyRule r i name =>
    match (w.registry r).rules[i]? with
    | none => (w, .answer (.ok ()))
    | some rule => (w, .run (C.rule rule.action r name) id)
  | .settle e =>
    let (e, w) := w.settle e
    (w, .answer e)
  | .invoke action e =>
    let (w, p) := w.enter C action e
    (w, .run p fun _ => ())
  | .shown s => (w, .answer (w.shown s))
  | .seek s p => (w, .answer (w.seek s (p w.memory)))
  | .insert s e =>
    match w.insert? s e with
    | none => (w.refuseInsert s e, .answer false)
    | some w => (w, .answer true)
  | .erase s e =>
    match w.erase? s e with
    | none => (w.refuseErase s e, .answer false)
    | some w => (w, .answer true)
  | .listen c change action => w.subscribe c change action
  | .counts c => (w, .answer (w.channel c.number).counts)
  | .fire c change e => (w, .tell c change e ())

end World

end NameRegistry
