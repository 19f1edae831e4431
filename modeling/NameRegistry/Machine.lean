import NameRegistry.Response

/-!
# Running programs

Programs run on a machine whose stack holds what the library has still to do when the program that
runs now has ended: go on with a delivery, with the rules of a pass, or with a program that waits.

* `Frame` : the three kinds of unfinished work.
* `World.turn` : what is left of a delivery when it is gone on with.
* `State` : the world, the stack, and the rest of the running program.
* `State.step` : one step, nothing if the bottom program has ended.
* `State.run` : a number of steps.

A listener that starts an event, or a rule that looks a name up, pushes frames above those of the
event or pass that it belongs to. So nested work is finished before outer work goes on. A panic
takes frame after frame off the stack and releases the name of every pass among them.
-/

namespace NameRegistry

variable {μ σ α β : Type}

/-- What the library has still to do. -/
inductive Frame (μ σ α β : Type) where
  /-- Tell the rest of the listeners of an event, then go on. A number of them have been told. -/
  | delivery (event : Event α) (told : Nat) (rest : List (Listener μ α β))
      (after : Prog μ σ α β Verdict)
  /-- Apply the rest of the rules of a registry to a name, then look it up and go on with the
  answer. The description is that of the rule that is running. -/
  | pass (r : Nat) (name : String) (description : String) (rest : List (Rule β))
      (k : Except RegistryError (Option α) → Prog μ σ α β Verdict)
  /-- Go on with the answer of the program that is running. -/
  | resume (k : Verdict → Prog μ σ α β Verdict)

/-- A moment of a run. -/
structure State (μ σ α β : Type) where
  world : World μ σ α β
  stack : List (Frame μ σ α β)
  control : Prog μ σ α β Verdict

/-- What a delivery goes on with, after its channel had a chance to choose: the event, the listeners
that are left, and the world. -/
def World.turn [Channels μ α] (w : World μ σ α β) (event : Event α) (told : Nat)
    (rest : List (Listener μ α β)) : Event α × List (Listener μ α β) × World μ σ α β :=
  let c := w.channel event.channel
  match Channels.turn w.memory event told rest.length c.counts with
  | (none, memory) => (event, rest, { w with memory })
  | (some (entity, places), memory) =>
    ({ event with entity }, places.filterMap fun p => (c.listeners p.1)[p.2]?, { w with memory })

namespace State

variable [Memory μ α] [Stores μ α] [Channels μ α] (C : Client μ σ α β)

/-- What is left of a frame that a panic takes off the stack: a pass releases its name. -/
def unwind (w : World μ σ α β) : Frame μ σ α β → World μ σ α β
  | .pass r name _ _ _ => w.release r name
  | _ => w

/-- Goes on with a pass: the next rule, or the answer if there is none. -/
def advance (w : World μ σ α β) (stack : List (Frame μ σ α β)) (r : Nat) (name : String)
    (k : Except RegistryError (Option α) → Prog μ σ α β Verdict) : List (Rule β) → State μ σ α β
  | [] =>
    let w := w.release r name
    ⟨w, stack, k (.ok (w.direct r name))⟩
  | rule :: rest =>
    ⟨w, .pass r name rule.description rest k :: stack, C.rule rule.action r name⟩

/-- Goes on with a frame when the program above it has ended. -/
def back (w : World μ σ α β) (stack : List (Frame μ σ α β)) (v : Verdict) :
    Frame μ σ α β → State μ σ α β
  | .delivery event told rest after =>
    match w.turn event told rest with
    | (_, [], w) => ⟨w, stack, after⟩
    | (event, l :: rest, w) =>
      let stack := .delivery event (told + 1) rest after :: stack
      match narrowAll w.memory l.filters event.entity with
      | none => ⟨w, stack, .done (.ok ())⟩
      | some e =>
        let (w, p) := w.enter C l.action e
        ⟨w, stack, p⟩
  | .pass r name description rest k =>
    match v with
    | .error source => ⟨w.release r name, stack, k (.error (.rule description source))⟩
    | .ok () => advance C w stack r name k rest
  | .resume k => ⟨w, stack, k v⟩

/-- Tells the listeners of a channel of a change, then goes on. Those that subscribe meanwhile are
not told. -/
def fire (w : World μ σ α β) (stack : List (Frame μ σ α β)) (c : ChannelRef μ α)
    (change : Change) (e : α) (after : Prog μ σ α β Verdict) : State μ σ α β :=
  let (e, w) := w.settle (c.widen w.memory e)
  let listeners := (w.channel c.number).listeners change
  ⟨w, .delivery ⟨c.number, change, e⟩ 0 listeners after :: stack, .done (.ok ())⟩

/-- Answers a call, or starts what has to be done for the answer. -/
def perform (w : World μ σ α β) (stack : List (Frame μ σ α β)) (c : Call μ σ α β)
    (k : c.Reply → Prog μ σ α β Verdict) : State μ σ α β :=
  match w.respond C c with
  | (w, .answer a) => ⟨w, stack, k a⟩
  | (w, .tell c change e a) => fire w stack c change e (k a)
  | (w, .resolve r name a) =>
    advance C (w.mark r name) stack r name (fun o => k (a o)) (w.registry r).rules
  | (w, .run p a) => ⟨w, .resume (fun v => k (a v)) :: stack, p⟩

def step (s : State μ σ α β) : Option (State μ σ α β) :=
  match s.control, s.stack with
  | .done _, [] => none
  | .done v, f :: stack => some (back C s.world stack v f)
  | .panic _, [] => none
  | .panic message, f :: stack => some ⟨unwind s.world f, stack, .panic message⟩
  | .act f k, stack =>
    let (memory, client) := f s.world.memory s.world.client
    some ⟨{ s.world with memory, client }, stack, k memory client⟩
  | .call c k, stack => some (perform C s.world stack c k)

/-- A run of at most `n` steps. -/
def run : Nat → State μ σ α β → State μ σ α β
  | 0, s => s
  | n + 1, s =>
    match s.step C with
    | none => s
    | some s => run n s

end State

end NameRegistry
