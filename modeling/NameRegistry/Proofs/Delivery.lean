import NameRegistry.Proofs.Listeners
import Mathlib.Data.Nat.Find
import Mathlib.Tactic.IntervalCases

/-!
# Deliveries

An event is delivered to those that listen when it is fired, in the order in which they came, while
they may fire events of their own and have others listen.

* `Call.subscribes`, `State.subscribed` : the listener that a call, or a step, adds to a channel.
* `Run.Firing` : an event that is fired at a moment of a run, and its listeners.
* `Run.During` : a moment at which what was called at another is still going on.
* `State.turns` : the listener whose turn it is.
* `Run.Firing.Delivered` : a delivery that is over, and in which all listeners had their turns.

The delivery is a frame that stands on the stack of the call that fires the event. It holds the
listeners that have not had their turns, and nothing but a turn takes one from them
(`State.Step.delivering`). A nested delivery stands higher, so it is over before the next turn.

Main result: `events_delivered`.
-/

namespace NameRegistry

variable {μ σ α β : Type}

/-! ## Who listens -/

/-- The listener that a channel or a view adds to the channel with a number, for one kind of
event. -/
def ChannelRef.adds (w : World μ σ α β) (c : ℕ) (change : Change) (ch : ChannelRef μ α)
    (change' : Change) (action : β) : List (Listener μ α β) :=
  if ch.number = c ∧ c < w.channels.length ∧ change' = change then [⟨ch.filters, action⟩] else []

/-- The listener that a call adds to a channel. One that comes through a view is behind all filters
of the view. -/
def Call.subscribes (w : World μ σ α β) (c : ℕ) (change : Change) :
    Call μ σ α β → List (Listener μ α β)
  | .subscribe r change' action => (w.registry r).channel.adds w c change change' action
  | .listen ch change' action => ch.adds w c change change' action
  | _ => []

/-- The listener that a step adds to a channel. -/
def State.subscribed (c : ℕ) (change : Change) (s : State μ σ α β) : List (Listener μ α β) :=
  match s.control with
  | .call call _ => call.subscribes s.world c change
  | _ => []

namespace World

theorem listeners_listen_eq (w : World μ σ α β) (ch : ChannelRef μ α) (change' : Change)
    (action : β) (c : ℕ) (change : Change) :
    ((w.listen ch change' action).channel c).listeners change =
      (w.channel c).listeners change ++ ch.adds w c change change' action := by
  rw [listeners_listen, ChannelRef.adds, ChannelRef.wrap_eq, List.append_nil]
  split_ifs
  · rfl
  · exact (List.append_nil _).symm

variable [Memory μ α] {C : Client μ σ α β}

theorem respond_listeners (w : World μ σ α β) (call : Call μ σ α β) (c : ℕ) (change : Change) :
    ((w.respond C call).1.channel c).listeners change =
      (w.channel c).listeners change ++ call.subscribes w c change := by
  have others {w' : World μ σ α β} (h : w'.channels = w.channels) :
      (w'.channel c).listeners change = (w.channel c).listeners change ++ [] := by
    rw [channel_of_eq h, List.append_nil]
  cases call with
  | subscribe r change' action | listen ch change' action =>
    exact listeners_listen_eq w _ change' action c change
  | openChannel =>
    simp only [respond, channel_append, Call.subscribes, List.append_nil]
  | add r e =>
    refine others ?_
    simp only [respond, refuseInsert_listed]
    split_ifs
    · rfl
    · split
      · rfl
      · exact (others_of_insert? ‹_›).2
  | find r name =>
    refine others ?_
    simp only [respond]
    split
    · rfl
    · split_ifs <;> rfl
  | remove r e | erase s e =>
    refine others ?_
    simp only [respond, refuseErase_listed]
    split
    · rfl
    · exact (others_of_erase? ‹_›).2
  | removeByName r name =>
    refine others ?_
    simp only [respond, refuseErase_listed]
    split
    · rfl
    · split
      · rfl
      · exact (others_of_erase? ‹_›).2
  | insert s e =>
    refine others ?_
    simp only [respond, refuseInsert_listed]
    split
    · rfl
    · exact (others_of_insert? ‹_›).2
  | applyRule r i name =>
    refine others ?_
    simp only [respond]
    split <;> rfl
  | _ => exact others rfl

theorem channels_of_tell {w w' : World μ σ α β} {call : Call μ σ α β} {ch : ChannelRef μ α}
    {change : Change} {e : α} {a : call.Reply}
    (h : w.respond C call = (w', .tell ch change e a)) : w'.channels = w.channels := by
  have hr := h ▸ responds (C := C) w call
  cases hr with
  | add _ hi => exact (others_of_insert? hi).2
  | remove he | removeByName _ he => exact (others_of_erase? he).2
  | fire => rfl

end World

variable [Memory μ α] {C : Client μ σ α β}

namespace State

variable {s s' : State μ σ α β}

theorem Step.listeners (h : Step C s s') (c : ℕ) (change : Change) :
    (s'.world.channel c).listeners change =
      (s.world.channel c).listeners change ++ s.subscribed c change := by
  rcases h.touch with ⟨call, k, hc, ht⟩ | ⟨hc, ht⟩
  · rw [World.channel_of_eq ht.channels_eq, World.respond_listeners, subscribed, hc]
  · rw [World.channel_of_eq ht.channels_eq, subscribed]
    split
    · exact absurd ‹_› (hc _ _)
    · exact (List.append_nil _).symm

theorem Next.listeners (h : Next C s s') (c : ℕ) (change : Change) :
    (s'.world.channel c).listeners change =
      (s.world.channel c).listeners change ++ s.subscribed c change := by
  cases h with
  | step h => exact (step_eq_some_iff.1 h).listeners c change
  | begin p h =>
    rcases (step_eq_none_iff.1 h).2 with ⟨v, hv⟩ | ⟨message, hv⟩ <;> simp [subscribed, hv]

end State

/-- The listeners of a channel are those that it had at an earlier moment, followed by those that
were added since, in the order in which they came. -/
theorem Run.listeners_eq (ρ : Run C) (c : ℕ) (change : Change) (n m : ℕ) :
    ((ρ (n + m)).world.channel c).listeners change =
      ((ρ n).world.channel c).listeners change ++ ρ.collect (State.subscribed c change) n m := by
  induction m with
  | zero => rw [collect_zero, List.append_nil, Nat.add_zero]
  | succ m ih => rw [← Nat.add_assoc, (ρ.next _).listeners, ih, collect_succ, List.append_assoc]

/-! ## Turns -/

def Prog.Panics {ρ : Type} : Prog μ σ α β ρ → Prop
  | .panic _ => True
  | .done _ | .act _ _ | .call _ _ => False

instance {ρ : Type} (p : Prog μ σ α β ρ) : Decidable p.Panics :=
  match p with
  | .panic _ => isTrue trivial
  | .done _ | .act _ _ | .call _ _ => isFalse id

/-- The event of a delivery that stands on a stack of some height and has control, and the listener
whose turn it is. -/
def State.turns (height : ℕ) (s : State μ σ α β) : List (Event α × Listener μ α β) :=
  match s.control, s.stack with
  | .done _, .delivery event _ (l :: _) _ :: base =>
    if base.length = height then [(event, l)] else []
  | _, _ => []

namespace State

/-- On a stack, an event is being delivered, and some listeners have not had their turns. -/
def Delivering (event : Event α) (after : Prog μ σ α β Verdict) (base : List (Frame μ σ α β))
    (rest : List (Listener μ α β)) (s : State μ σ α β) : Prop :=
  ∃ top told, s.stack = top ++ .delivery event told rest after :: base

variable {s s' : State μ σ α β} {event : Event α} {after : Prog μ σ α β Verdict}
  {base : List (Frame μ σ α β)} {rest : List (Listener μ α β)} {height : ℕ}

omit [Memory μ α] in
theorem turns_of_goes (h : s.control.Goes) : s.turns height = [] := by
  obtain ⟨w, stack, p⟩ := s
  cases p with
  | done | panic => exact h.elim
  | act | call => rfl

omit [Memory μ α] in
/-- A frame that does not stand on a stack of the height has no turn of the delivery that does. -/
theorem turns_of_stack {f : Frame μ σ α β} {stack : List (Frame μ σ α β)} (h : s.stack = f :: stack)
    (hne : stack.length ≠ height) : s.turns height = [] := by
  obtain ⟨w, _, p⟩ := s
  obtain rfl := h
  cases p with
  | done v =>
    cases f with
    | delivery event told rest after =>
      cases rest with
      | nil => rfl
      | cons l rest => exact if_neg hne
    | pass | resume => rfl
  | panic | act | call => rfl

/-- **Only a turn counts.** A step gives the next listener its turn, or does something else and
leaves the rest as it is, or ends the delivery. The delivery ends when no listeners are left, or
with a panic. -/
theorem Step.delivering (h : Step C s s') (hs : s.Delivering event after base rest) :
    (∃ rest', s'.Delivering event after base rest' ∧
      s.turns base.length ++ rest'.map (event, ·) = rest.map (event, ·)) ∨
    s'.stack = base ∧ s.turns base.length = [] ∧
      (s'.control = after ∧ rest = [] ∨ s.control.Panics) := by
  obtain ⟨top, told, hstack⟩ := hs
  by_cases hg : s.control.Goes
  · obtain ⟨top', hs'⟩ := h.suffix_of_goes hg
    refine .inl ⟨rest, ⟨top' ++ top, told, ?_⟩, ?_⟩
    · rw [← hs', hstack, List.append_assoc]
    · rw [turns_of_goes hg, List.nil_append]
  · cases top with
    | cons f top =>
      rw [List.cons_append] at hstack
      obtain ⟨top', hs'⟩ := h.suffix_of_not_goes hg
      rw [hstack, List.tail_cons] at hs'
      refine .inl ⟨rest, ⟨top' ++ top, told, ?_⟩, ?_⟩
      · rw [← hs', List.append_assoc]
      · rw [turns_of_stack hstack, List.nil_append]
        simp only [List.length_append, List.length_cons]
        omega
    | nil =>
      obtain ⟨w, _, p⟩ := s
      obtain rfl := hstack
      cases h with
      | act | answer | miss | tell | start | run => exact absurd trivial hg
      | delivered => exact .inr ⟨rfl, rfl, .inl ⟨rfl, rfl⟩⟩
      | @skip _ _ _ _ l rest | @hear _ _ _ _ _ l rest =>
        refine .inl ⟨rest, ⟨[], told + 1, rfl⟩, ?_⟩
        simp [turns]
      | unwind => exact .inr ⟨rfl, rfl, .inr trivial⟩

omit [Memory μ α] in
theorem Delivering.length_lt (h : s.Delivering event after base rest) :
    base.length < s.stack.length := by
  obtain ⟨top, told, hs⟩ := h
  rw [hs, List.length_append, List.length_cons]
  omega

omit [Memory μ α] in
/-- The delivery that has control is the topmost frame. -/
theorem of_mem_turns {l : Listener μ α β} (h : (event, l) ∈ s.turns height) :
    ∃ w told rest after base v, base.length = height ∧
      s = ⟨w, .delivery event told (l :: rest) after :: base, .done v⟩ := by
  obtain ⟨w, stack, p⟩ := s
  simp only [turns] at h
  split at h
  · split_ifs at h with hb
    · obtain ⟨rfl, rfl⟩ := Prod.mk.inj (List.mem_singleton.1 h)
      exact ⟨w, _, _, _, _, _, hb, rfl⟩
    · cases h
  · cases h

/-- In its turn, a listener does its action to what its filters show of the entity, and nothing if
they do not show it. -/
theorem Next.of_turn {l : Listener μ α β} (h : Next C s s') (hl : (event, l) ∈ s.turns height) :
    (s'.world, s'.control) =
      match narrowAll s.world.memory l.filters event.entity with
      | none => (s.world, .done (.ok ()))
      | some e => s.world.enter C l.action e := by
  obtain ⟨w, told, rest, after, base, v, -, rfl⟩ := of_mem_turns hl
  rw [h.eq_of_step (step_back w base v _)]
  simp only [back, World.turn_inOrder]
  cases narrowAll w.memory l.filters event.entity with
  | none => rfl
  | some e => rfl

end State

/-! ## Deliveries -/

namespace Run

variable (ρ : Run C)

/-- An event that a call fires at a moment. -/
structure Firing (n : ℕ) where
  call : Call μ σ α β
  k : call.Reply → Prog μ σ α β Verdict
  control : (ρ n).control = .call call k
  world : World μ σ α β
  ref : ChannelRef μ α
  change : Change
  entity : α
  answer : call.Reply
  respond : (ρ n).world.respond C call = (world, .tell ref change entity answer)

/-- What was called at a moment is still going on at another: since then, the stack is higher than
it was. -/
def During (n m : ℕ) : Prop :=
  n < m ∧ ∀ i, n < i → i ≤ m → (ρ n).stack.length < (ρ i).stack.length

/-- Nothing panics between two moments. -/
def Calm (n m : ℕ) : Prop := ∀ i, n < i → i < m → ¬ (ρ i).control.Panics

variable {ρ} {n m : ℕ}

theorem exists_ends (hlt : n < m) (hh : (ρ m).stack.length ≤ (ρ n).stack.length) :
    ∃ i ≤ m, ρ.Ends n i := by
  classical
  have hex : ∃ i, n < i ∧ (ρ i).stack.length ≤ (ρ n).stack.length := ⟨m, hlt, hh⟩
  obtain ⟨h, h'⟩ := Nat.find_spec hex
  refine ⟨Nat.find hex, Nat.find_min' hex ⟨hlt, hh⟩, h, h', fun i hi hi' => ?_⟩
  by_contra hle
  exact Nat.find_min hex hi' ⟨hi, Nat.le_of_not_lt hle⟩

namespace Firing

variable (a : ρ.Firing n)

/-- The event: the entity that is added or removed, widened to one of the channel. -/
def event : Event α :=
  ⟨a.ref.number, a.change, (a.world.settle (a.ref.widen a.world.memory a.entity)).1⟩

/-- The listeners to events of its kind that the channel has when the event is fired. -/
def listeners : List (Listener μ α β) :=
  ((ρ n).world.channel a.ref.number).listeners a.change

/-- The delivery is over, the listeners have had their turns, one after the other, and the program
that made the call goes on with the answer. -/
structure Delivered (m : ℕ) : Prop where
  ends : ρ.Ends n m
  turns : ρ.collect (State.turns (ρ n).stack.length) n (m - n) = a.listeners.map (a.event, ·)
  stack : (ρ m).stack = (ρ n).stack
  control : (ρ m).control = a.k a.answer

include a in
theorem goes : (ρ n).control.Goes := by
  rw [a.control]
  trivial

theorem stack_succ :
    (ρ (n + 1)).stack = .delivery a.event 0 a.listeners (a.k a.answer) :: (ρ n).stack := by
  rw [succ_of_call a.control, State.perform, a.respond, listeners,
    ← World.channel_of_eq (World.channels_of_tell a.respond)]
  rfl

/-- While a delivery goes on, those that have had their turns and those that have not are the
listeners. -/
theorem delivering (hlt : n < m)
    (hw : ∀ i, n < i → i < m → (ρ n).stack.length < (ρ i).stack.length) :
    (∃ rest, (ρ m).Delivering a.event (a.k a.answer) (ρ n).stack rest ∧
      ρ.collect (State.turns (ρ n).stack.length) n (m - n) ++ rest.map (a.event, ·) =
        a.listeners.map (a.event, ·)) ∨
    (ρ m).stack = (ρ n).stack ∧
      ((ρ m).control = a.k a.answer ∧
        ρ.collect (State.turns (ρ n).stack.length) n (m - n) = a.listeners.map (a.event, ·) ∨
        ¬ ρ.Calm n m) := by
  induction m, hlt using Nat.le_induction with
  | base =>
    refine .inl ⟨a.listeners, ⟨[], 0, a.stack_succ⟩, ?_⟩
    rw [Nat.succ_sub le_rfl, Nat.sub_self, collect_succ, collect_zero, Nat.add_zero,
      State.turns_of_goes a.goes, List.nil_append, List.nil_append]
  | succ m hm ih =>
    have hh := hw m hm (by omega)
    rcases ih fun i hi hi' => hw i hi (by omega) with ⟨rest, hd, hc⟩ | ⟨hs, -⟩
    · have step : State.Step C (ρ m) (ρ (m + 1)) := by
        refine step_of_stack fun hs => ?_
        simp [hs] at hh
      have hsucc : ρ.collect (State.turns (ρ n).stack.length) n (m + 1 - n) =
          ρ.collect (State.turns (ρ n).stack.length) n (m - n) ++
            (ρ m).turns (ρ n).stack.length := by
        rw [Nat.succ_sub (by omega), collect_succ, Nat.add_sub_cancel' (by omega)]
      rw [hsucc]
      rcases step.delivering hd with ⟨rest', hd', hturn⟩ | ⟨hs, hturn, hend⟩
      · refine .inl ⟨rest', hd', ?_⟩
        rw [List.append_assoc, hturn, hc]
      · refine .inr ⟨hs, ?_⟩
        rcases hend with ⟨hcontrol, rfl⟩ | hp
        · refine .inl ⟨hcontrol, ?_⟩
          rw [hturn, ← hc]
          rfl
        · exact .inr fun calm => calm m hm (Nat.lt_succ_self m) hp
    · rw [hs] at hh
      exact absurd hh (lt_irrefl _)

/-- What has been told while a delivery goes on. -/
theorem turns_prefix (h : ρ.During n m) :
    ρ.collect (State.turns (ρ n).stack.length) n (m - n) <+: a.listeners.map (a.event, ·) := by
  rcases a.delivering h.1 fun i hi hi' => h.2 i hi hi'.le with ⟨rest, -, hc⟩ | ⟨hs, -⟩
  · rw [← hc]
    exact List.prefix_append _ _
  · have hh := h.2 m h.1 le_rfl
    rw [hs] at hh
    exact absurd hh (lt_irrefl _)

/-- A delivery that ends without a panic is complete. -/
theorem delivered (h : ρ.Ends n m) (calm : ρ.Calm n m) : a.Delivered m := by
  rcases a.delivering h.lt h.within with ⟨rest, hd, -⟩ | ⟨hs, hend⟩
  · exact absurd (hd.length_lt.trans_le h.height) (lt_irrefl _)
  · obtain ⟨hcontrol, hturns⟩ := hend.resolve_right (not_not_intro calm)
    exact ⟨h, hturns, hs, hcontrol⟩

/-- What is fired while a delivery goes on, is delivered before its next turn and before its end. -/
theorem delivered_before {i : ℕ} (b : ρ.Firing i) (hi : ρ.During n i) (him : i < m)
    (calm : ρ.Calm n m) (hm : (ρ m).turns (ρ n).stack.length ≠ [] ∨ ρ.Ends n m) :
    ∃ j ≤ m, b.Delivered j := by
  have higher := hi.2 i hi.1 le_rfl
  have height : (ρ m).stack.length ≤ (ρ i).stack.length := by
    rcases hm with hturn | hend
    · obtain ⟨⟨event, l⟩, hl⟩ := List.exists_mem_of_ne_nil _ hturn
      obtain ⟨w, told, rest, after, base, v, hb, hs⟩ := State.of_mem_turns hl
      rw [hs, List.length_cons, hb]
      exact higher
    · exact hend.height.trans higher.le
  obtain ⟨j, hj, ends⟩ := exists_ends him height
  refine ⟨j, hj, b.delivered ends fun t ht ht' => ?_⟩
  exact calm t (hi.1.trans ht) (by omega)

end Firing

end Run

/-- **Events are delivered.** Let an event be fired at any moment of any run, and let the programs,
rules and listeners of the client do what they like meanwhile: fire events of their own, or have
others listen.

The listeners to the event are those that its channel had at the beginning of the run, and then all
that were added since, through whatever view, in the order in which they came. Those that are added
from then on are listeners to the next event of the kind. While the delivery goes on, the listeners
have their turns in this order. When it ends, and nothing has panicked, each of them has had one
turn. In its turn a listener does its action to what its filters show of the entity, if they show
it.

What is fired meanwhile, at another moment `i`, is delivered to all of its own listeners before the
next turn, or the end, of this delivery. -/
theorem events_delivered (ρ : Run C) (n : ℕ) (a : ρ.Firing n) :
    a.listeners = ((ρ 0).world.channel a.ref.number).listeners a.change ++
        ρ.collect (State.subscribed a.ref.number a.change) 0 n ∧
      (∀ d (b : ρ.Firing (n + d)), b.ref.number = a.ref.number → b.change = a.change →
        b.listeners = a.listeners ++ ρ.collect (State.subscribed a.ref.number a.change) n d) ∧
      (∀ m, ρ.During n m → ρ.collect (State.turns (ρ n).stack.length) n (m - n) <+:
        a.listeners.map (a.event, ·)) ∧
      (∀ m, ρ.Ends n m → ρ.Calm n m → a.Delivered m) ∧
      (∀ m l, (a.event, l) ∈ (ρ m).turns (ρ n).stack.length →
        ((ρ (m + 1)).world, (ρ (m + 1)).control) =
          match narrowAll (ρ m).world.memory l.filters a.event.entity with
          | none => ((ρ m).world, .done (.ok ()))
          | some e => (ρ m).world.enter C l.action e) ∧
      ∀ i m (b : ρ.Firing i), ρ.During n i → i < m → ρ.Calm n m →
        (ρ m).turns (ρ n).stack.length ≠ [] ∨ ρ.Ends n m → ∃ j ≤ m, b.Delivered j := by
  refine ⟨?_, ?_, fun m => a.turns_prefix, fun m => a.delivered,
    fun m l hl => (ρ.next m).of_turn hl, ?_⟩
  · rw [← ρ.listeners_eq, Nat.zero_add]
    rfl
  · intro d b hc hchange
    rw [Run.Firing.listeners, Run.Firing.listeners, hc, hchange]
    exact ρ.listeners_eq _ _ n d
  · intro i m b hi him calm hm
    exact b.delivered_before hi him calm hm

/-! A registry of numbers and a view of those that are even. A listener of the registry has another
one listen and adds a number when it hears of the number one. -/

/-- What the listeners do: `echo` adds, and the others note what they hear. -/
def chorus : Client Unit (List ℕ) ℕ Bool where
  rule _ _ _ := .done (.ok ())
  action echo e :=
    if echo then
      if e = 1 then
        .call (.subscribe 0 .added false) fun _ => .call (.add 1 2) fun _ => .done ()
      else .done ()
    else .modify (· ++ [e])

/-- The registry and its view, and the program that has two listen and adds the number one. -/
def chorusStart : State Unit (List ℕ) ℕ Bool where
  world :=
    { memory := ()
      client := []
      stores := [⟨[], .distinct fun _ => (· == ·)⟩]
      channels := [{}]
      registries := [{ root with hooks := .default },
        { root.filtered (.matching fun _ e => e % 2 = 0) "u32" with hooks := .default }] }
  stack := []
  control := .call (.subscribe 0 .added true) fun _ => .call (.subscribe 1 .added false) fun _ =>
    .call (.add 0 1) fun _ => .done (.ok ())
where
  root : Parts Unit ℕ := ⟨fun _ e => if e = 1 then "one" else "other", "u32", .root 0, .root 0⟩

def chorusOuter : (Run.of chorus chorusStart).Firing 2 where
  call := .add 0 1
  k _ := .done (.ok ())
  control := rfl
  world := ((Run.of chorus chorusStart 2).world.setMembers 0 [1])
  ref := .root 0
  change := .added
  entity := 1
  answer := .ok true
  respond := rfl

def chorusInner : (Run.of chorus chorusStart).Firing 5 where
  call := .add 1 2
  k _ := .done (.ok ())
  control := rfl
  world := ((Run.of chorus chorusStart 5).world.setMembers 0 [1, 2])
  ref := .view (.root 0) (.matching fun _ e => e % 2 = 0)
  change := .added
  entity := 2
  answer := .ok true
  respond := rfl

theorem events_delivered_chorus :
    (∃ j ≤ 14, chorusInner.Delivered j) ∧ chorusOuter.Delivered 14 ∧
      chorusOuter.listeners.map (·.action) = [true, false] ∧
      chorusInner.listeners.map (·.action) = [true, false, false] ∧
      (Run.of chorus chorusStart 14).world.client = [2, 2] := by
  let ρ := Run.of chorus chorusStart
  have during : ρ.During 2 5 := by
    refine ⟨by decide, fun i h h' => ?_⟩
    interval_cases i <;> decide
  have ends : ρ.Ends 2 14 := by
    refine ⟨by decide, by decide, fun i h h' => ?_⟩
    interval_cases i <;> decide
  have calm : ρ.Calm 2 14 := by
    intro i h h'
    interval_cases i <;> decide
  have h := events_delivered ρ 2 chorusOuter
  exact ⟨h.2.2.2.2.2 5 14 chorusInner during (by decide) calm (.inr ends),
    h.2.2.2.1 14 ends calm, rfl, rfl, by decide⟩

end NameRegistry
