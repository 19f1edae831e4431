import NameRegistry.Proofs.Run
import NameRegistry.Proofs.World

/-!
# Telling listeners

An event is told to the listeners that its channel has when it is fired, one after the other. Here
a listener is known by its place among those of its channel, which it keeps.

* `ChannelRef.filters`, `ChannelRef.wrap_eq` : a listener on a view is one on the channel behind it,
  behind all filters of the view.
* `Run.Subscriber` : an action that was subscribed to a registry, and its place.
* `State.fired` : the event that a step fires on a channel.
* `State.told` : what a listener is told in a step.
* `State.due` : what a listener has still to be told of by the deliveries on the stack.

**Nothing is lost** (`State.Step.told_append_due`). What a listener is told in a step, and what is
due to it afterwards, is what the event of the step holds for it and what was due to it before.

**Nothing is mixed up** (`State.Next.control_of_told`). Each delivery tells the listeners of its
channel in their order (`State.Follows`), so what is told at a place, the listener there hears.
-/

namespace NameRegistry

variable {μ σ α β : Type}

/-! ## Channels behind views -/

/-- The filters between a channel and a view, those next to the channel first. -/
def ChannelRef.filters : ChannelRef μ α → List (Filter μ α)
  | .root _ => []
  | .view p f => p.filters ++ [f]

theorem ChannelRef.wrap_eq (c : ChannelRef μ α) (l : Listener μ α β) :
    c.wrap l = ⟨c.filters ++ l.filters, l.action⟩ := by
  induction c generalizing l with
  | root i => rfl
  | view p f ih => rw [wrap, ih, filters, Listener.behind, List.append_assoc, List.singleton_append]

/-! ## Subscribers -/

theorem World.Touch.grows {w w' : World μ σ α β} (h : w.Touch w') : w.Grows w' := by
  cases h with
  | state => exact .of_eq rfl rfl
  | mark r name => exact .mark w r name
  | release r name => exact .release w r name

namespace State

variable [Memory μ α] {C : Client μ σ α β} {s s' : State μ σ α β}

/-- A step keeps the parts of registries and the listeners of channels. -/
theorem Step.grows (h : Step C s s') : s.world.Grows s'.world := by
  rcases h.touch with ⟨c, k, -, ht⟩ | ⟨-, ht⟩
  · exact (World.respond_grows s.world c).trans ht.grows
  · exact ht.grows

theorem Step.world_of_subscribe {r : Nat} {change : Change} {action : β}
    {k : Unit → Prog μ σ α β Verdict} (h : Step C s s')
    (hc : s.control = .call (.subscribe r change action) k) :
    s'.world = s.world.listen (s.world.registry r).channel change action := by
  obtain ⟨w, stack, p⟩ := s
  obtain rfl := hc
  rw [← Option.some.inj h.step_eq]
  rfl

theorem Next.grows (h : Next C s s') : s.world.Grows s'.world := by
  cases h with
  | step h => exact (step_eq_some_iff.1 h).grows
  | begin => exact .refl _

end State

section

variable [Memory μ α] {C : Client μ σ α β}

theorem Run.grows (ρ : Run C) {n m : ℕ} (h : n ≤ m) : (ρ n).world.Grows (ρ m).world := by
  induction m, h using Nat.le_induction with
  | base => exact .refl _
  | succ m _ ih => exact ih.trans (ρ.next m).grows

/-- An action that was subscribed to a registry before a moment of a run. -/
structure Run.Subscriber (ρ : Run C) (r : Nat) (change : Change) (m : ℕ) where
  action : β
  since : ℕ
  k : Unit → Prog μ σ α β Verdict
  control : (ρ since).control = .call (.subscribe r change action) k
  registry_lt : r < (ρ since).world.registries.length
  channel_lt : ((ρ since).world.registry r).channel.number < (ρ since).world.channels.length
  before : since < m

namespace Run.Subscriber

variable {ρ : Run C} {r : Nat} {change : Change} {m : ℕ} (a : ρ.Subscriber r change m)

def channel : Nat := ((ρ a.since).world.registry r).channel.number

/-- The place among the listeners of its channel: after all that were there. -/
def place : Nat := (((ρ a.since).world.channel a.channel).listeners change).length

include a in
theorem toParts_eq {n : ℕ} (hn : a.since ≤ n) :
    ((ρ n).world.registry r).toParts = ((ρ m).world.registry r).toParts :=
  ((ρ.grows hn).parts r a.registry_lt).2.trans ((ρ.grows a.before.le).parts r a.registry_lt).2.symm

theorem channel_eq : a.channel = ((ρ m).world.registry r).channel.number :=
  congrArg (·.channel.number) (a.toParts_eq le_rfl)

/-- A subscriber keeps its place. -/
theorem listeners_place {n : ℕ} (hn : m ≤ n) :
    (((ρ n).world.channel a.channel).listeners change)[a.place]? =
      some ⟨((ρ m).world.registry r).channel.filters, a.action⟩ := by
  have hf : ((ρ a.since).world.registry r).channel = ((ρ m).world.registry r).channel :=
    congrArg Parts.channel (a.toParts_eq le_rfl)
  -- The listener is appended in the next step, and what there is then stays.
  have hl : (((ρ (a.since + 1)).world.channel a.channel).listeners change)[a.place]? =
      some ⟨((ρ m).world.registry r).channel.filters, a.action⟩ := by
    have hg : (ρ a.since).control.Goes := by rw [a.control]; trivial
    rw [(step_of_goes hg).world_of_subscribe a.control, World.listeners_listen,
      if_pos ⟨rfl, a.channel_lt, rfl⟩, place, List.getElem?_append_right le_rfl, Nat.sub_self,
      ChannelRef.wrap_eq, List.append_nil, hf]
    rfl
  obtain ⟨more, hm⟩ := (ρ.grows (a.before.trans_le hn)).listeners a.channel change
  rw [← hm, List.getElem?_append_left (List.getElem?_eq_some_iff.1 hl).1, hl]

end Run.Subscriber

end

/-! ## What is told -/

/-- What a listener hears of an entity, which is nothing if its filters do not show it. -/
def Listener.hears (m : μ) (e : α) (l : Listener μ α β) : List α := (narrowAll m l.filters e).toList

/-- What the listener at a place hears of an event of the channel. -/
def Channel.tells (c : Channel μ α β) (m : μ) (change : Change) (place : Nat) (event : Event α) :
    List α :=
  if event.change = change then (c.listeners change)[place]?.elim [] (Listener.hears m event.entity)
  else []

theorem Channel.tells_of_place {ch : Channel μ α β} {m : μ} {change : Change} {place : Nat}
    {l : Listener μ α β} (h : (ch.listeners change)[place]? = some l) (event : Event α) :
    ch.tells m change place event =
      if event.change = change then l.hears m event.entity else [] := by
  rw [tells, h]
  rfl

/-- What a delivery has still to tell the listener at a place. -/
def Frame.due (m : μ) (c : Nat) (change : Change) (place : Nat) : Frame μ σ α β → List α
  | .delivery event told rest _ =>
    if event.channel = c ∧ event.change = change ∧ told ≤ place then
      rest[place - told]?.elim [] (Listener.hears m event.entity)
    else []
  | _ => []

/-- A delivery on a channel has still to tell the listeners from a place on that were there when
the event was fired. -/
def Frame.Follows (w : World μ σ α β) (c : Nat) : Frame μ σ α β → Prop
  | .delivery event told rest _ =>
    event.channel = c → rest <+: ((w.channel c).listeners event.change).drop told
  | _ => True

/-- No event is being delivered on a channel. -/
def Frame.Silent (c : Nat) : Frame μ σ α β → Prop
  | .delivery event _ _ _ => event.channel ≠ c
  | _ => True

namespace State

/-- The event that a step fires on a channel. -/
def fired [Memory μ α] (C : Client μ σ α β) (c : Nat) (s : State μ σ α β) : List (Event α) :=
  match s.control with
  | .call call _ =>
    match s.world.respond C call with
    | (w, .tell ch change e _) =>
      if ch.number = c then [⟨c, change, (w.settle (ch.widen w.memory e)).1⟩] else []
    | _ => []
  | _ => []

theorem fired_of_not_call [Memory μ α] {C : Client μ σ α β} {s : State μ σ α β}
    (h : ∀ c k, s.control ≠ .call c k) (c : Nat) : s.fired C c = [] := by
  obtain ⟨w, stack, p⟩ := s
  cases p with
  | call call k => exact absurd rfl (h call k)
  | done | panic | act => rfl

theorem fired_of_step_eq_none [Memory μ α] {C : Client μ σ α β} {s : State μ σ α β}
    (h : s.step C = none) (c : Nat) : s.fired C c = [] := by
  refine fired_of_not_call (fun call k hc => ?_) c
  rcases (step_eq_none_iff.1 h).2 with ⟨v, hv⟩ | ⟨message, hv⟩ <;> simp [hv] at hc

/-- What the listener at a place is told in a step. -/
def told (c : Nat) (change : Change) (place : Nat) (s : State μ σ α β) : List α :=
  match s.control, s.stack with
  | .done _, .delivery event told (l :: _) _ :: _ =>
    if event.channel = c ∧ event.change = change ∧ told = place then
      l.hears s.world.memory event.entity
    else []
  | _, _ => []

/-- What the deliveries on the stack have still to tell the listener at a place. -/
def due (c : Nat) (change : Change) (place : Nat) (s : State μ σ α β) : List α :=
  s.stack.flatMap (Frame.due s.world.memory c change place)

/-- All deliveries on a channel tell its listeners in their order. -/
def Follows (c : Nat) (s : State μ σ α β) : Prop := ∀ f ∈ s.stack, f.Follows s.world c

/-- No event is being delivered on a channel. -/
def Silent (c : Nat) (s : State μ σ α β) : Prop := ∀ f ∈ s.stack, f.Silent c

theorem Silent.follows {c : Nat} {s : State μ σ α β} (h : s.Silent c) : s.Follows c := by
  intro f hf
  cases f with
  | delivery => exact fun hc => absurd hc (h _ hf)
  | pass | resume => trivial

theorem silent_of_stack_eq_nil {c : Nat} {s : State μ σ α β} (h : s.stack = []) : s.Silent c := by
  simp [Silent, h]

theorem Silent.due_eq_nil {c : Nat} {s : State μ σ α β} (h : s.Silent c) (change : Change)
    (place : Nat) : s.due c change place = [] := by
  refine List.flatMap_eq_nil_iff.2 fun f hf => ?_
  cases f with
  | delivery => exact if_neg fun hc => h _ hf hc.1
  | pass | resume => rfl

end State

/-! ## Nothing is lost -/

/-- A delivery tells the listener whose turn it is, and the others later. -/
theorem Frame.due_cons (m : μ) (c : Nat) (change : Change) (place : Nat) (event : Event α)
    (told : Nat) (l : Listener μ α β) (rest : List (Listener μ α β))
    (after : Prog μ σ α β Verdict) :
    Frame.due m c change place (.delivery event told (l :: rest) after) =
      (if event.channel = c ∧ event.change = change ∧ told = place then l.hears m event.entity
        else []) ++ Frame.due m c change place (.delivery event (told + 1) rest after) := by
  simp only [Frame.due]
  by_cases he : event.channel = c ∧ event.change = change
  · rcases Nat.lt_trichotomy told place with h | rfl | h
    · obtain ⟨j, rfl⟩ := Nat.exists_eq_add_of_lt h
      rw [show told + j + 1 - told = j + 1 by omega, show told + j + 1 - (told + 1) = j by omega,
        if_pos ⟨he.1, he.2, by omega⟩, if_neg (by omega), if_pos ⟨he.1, he.2, by omega⟩,
        List.getElem?_cons_succ, List.nil_append]
    · rw [if_pos ⟨he.1, he.2, le_rfl⟩, if_pos ⟨he.1, he.2, rfl⟩, if_neg (by omega), Nat.sub_self,
        List.getElem?_cons_zero, List.append_nil]
      rfl
    · rw [if_neg (by omega), if_neg (by omega), if_neg (by omega), List.append_nil]
  · rw [if_neg (by tauto), if_neg (by tauto), if_neg (by tauto), List.append_nil]

namespace State

section

variable {C : Client Unit σ α β} {s s' : State Unit σ α β}

/-- **Nothing is lost.** What a listener is told in a step and what is due to it after the step, is
what the event of the step holds for it and what was due to it before. -/
theorem Step.told_append_due (h : Step C s s') (hp : ∀ message, s.control ≠ .panic message)
    (c : Nat) (change : Change) (place : Nat) :
    s.told c change place ++ s'.due c change place =
      (s.fired C c).flatMap ((s'.world.channel c).tells () change place) ++
        s.due c change place := by
  cases h with
  | act => rfl
  | answer h | start h | miss h | run h => simp only [told, fired, h]; rfl
  | @tell w w₁ w₂ stack c' k ch change' e t a h ht =>
    obtain ⟨rfl, rfl⟩ := Prod.mk.inj ht
    simp only [told, fired, h, due, List.flatMap_cons, Frame.due, Nat.zero_le, and_true,
      Nat.sub_zero, List.nil_append]
    congr 1
    by_cases hc : ch.number = c
    · subst hc
      by_cases hch : change' = change
      · subst hch
        simp only [true_and, if_true, List.flatMap_cons, List.flatMap_nil, List.append_nil,
          Channel.tells]
        rfl
      · simp [Channel.tells, hch]
    · simp [hc]
  | delivered => simp [told, fired, due, Frame.due]
  | skip => simp [told, fired, due, Frame.due_cons]
  | hear _ hw =>
    obtain ⟨rfl, -⟩ := Prod.mk.inj hw
    simp [told, fired, due, Frame.due_cons]
  | resume | next | close | fail  => simp only [told, fired, due, List.flatMap_cons]; rfl
  | unwind => exact absurd rfl (hp _)

theorem Next.told_append_due (h : Next C s s') (hp : ∀ message, s.control ≠ .panic message)
    (c : Nat) (change : Change) (place : Nat) :
    s.told c change place ++ s'.due c change place =
      (s.fired C c).flatMap ((s'.world.channel c).tells () change place) ++
        s.due c change place := by
  cases h with
  | step h => exact (step_eq_some_iff.1 h).told_append_due hp c change place
  | begin p h =>
    obtain ⟨hs, ⟨v, hv⟩ | ⟨message, hv⟩⟩ := step_eq_none_iff.1 h
    · simp [told, fired, due, hs, hv]
    · exact absurd hv (hp message)

end

end State

/-! ## Nothing is mixed up -/

theorem Frame.Follows.mono {w w' : World μ σ α β} {f : Frame μ σ α β} {c : Nat}
    (h : f.Follows w c) (hw : w.Grows w') : f.Follows w' c := by
  cases f with
  | delivery => exact fun hc => (h hc).trans ((hw.listeners _ _).drop _)
  | pass | resume => trivial

theorem Frame.Follows.tail {w : World μ σ α β} {c : Nat} {event : Event α} {told : Nat}
    {l : Listener μ α β} {rest : List (Listener μ α β)} {after : Prog μ σ α β Verdict}
    (h : (Frame.delivery event told (l :: rest) after).Follows w c) :
    (Frame.delivery event (told + 1) rest after).Follows w c := by
  intro hc
  obtain ⟨more, hm⟩ := h hc
  rw [List.cons_append] at hm
  refine ⟨more, ?_⟩
  rw [← List.tail_drop, ← hm, List.tail_cons]

variable [Memory μ α] {C : Client μ σ α β} {c : Nat}

namespace State

variable {s s' : State μ σ α β}

theorem Step.follows (h : Step C s s') (hs : s.Follows c) : s'.Follows c := by
  have mono : ∀ f ∈ s.stack, f.Follows s'.world c := by
    intro f hf
    exact Frame.Follows.mono (hs f hf) h.grows
  cases h with
  | act | answer | miss => exact mono
  | tell =>
    refine List.forall_mem_cons.2 ⟨fun hc => ?_, mono⟩
    rw [← hc]
    exact List.prefix_rfl
  | start | run => exact List.forall_mem_cons.2 ⟨trivial, mono⟩
  | delivered | close | fail | resume | unwind => exact (List.forall_mem_cons.1 mono).2
  | skip | hear =>
    obtain ⟨hf, hstack⟩ := List.forall_mem_cons.1 mono
    exact List.forall_mem_cons.2 ⟨Frame.Follows.tail hf, hstack⟩
  | next => exact List.forall_mem_cons.2 ⟨trivial, (List.forall_mem_cons.1 mono).2⟩

theorem Next.follows (h : Next C s s') (hs : s.Follows c) : s'.Follows c := by
  cases h with
  | step h => exact (step_eq_some_iff.1 h).follows hs
  | begin => simp [Follows]

/-- **Nothing is mixed up.** What is told at a place, the listener there hears. -/
theorem Next.control_of_told {change : Change} {place : Nat} {e : α} {l : Listener μ α β}
    (h : Next C s s') (hs : s.Follows c) (he : e ∈ s.told c change place)
    (hl : ((s.world.channel c).listeners change)[place]? = some l) :
    s'.control = (s.world.enter C l.action e).2 := by
  obtain ⟨w, stack, p⟩ := s
  cases h with
  | step h =>
    cases step_eq_some_iff.1 h with
    | skip hn =>
      simp only [told] at he
      split_ifs at he
      · simp [Listener.hears, hn] at he
      · cases he
    | @hear w w' stack event told l' rest after v e' p hn hw =>
      simp only [State.told] at he
      split_ifs at he with hc
      · obtain ⟨rfl, rfl, rfl⟩ := hc
        obtain ⟨more, hm⟩ := hs _ List.mem_cons_self rfl
        have hl' : l' = l := by
          rw [← Option.some_inj, ← hl, ← List.head?_drop, ← hm]
          rfl
        rw [Listener.hears, hn, Option.toList_some, List.mem_singleton] at he
        rw [he, ← hl', hw]
      · cases he
    | _ => cases he
  | begin p h =>
    obtain ⟨hs, -⟩ := step_eq_none_iff.1 h
    obtain rfl := hs
    cases p <;> simp [told] at he

end State

theorem Run.follows {ρ : Run C} {m : ℕ} (h : (ρ m).Follows c) {n : ℕ} (hn : m ≤ n) :
    (ρ n).Follows c := by
  induction n, hn using Nat.le_induction with
  | base => exact h
  | succ n _ ih => exact (ρ.next n).follows ih

end NameRegistry
