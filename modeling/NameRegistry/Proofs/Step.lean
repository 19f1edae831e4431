import NameRegistry.Machine

/-!
# Steps

The machine's step function as a relation, with one rule for each thing that a step can do. Every
fact about runs is proved from these rules.

* `State.Step` : one step. The rules follow the control of the state: the client acts, a call is
  answered, a delivery, a pass or a waiting program goes on, a panic unwinds a frame.
* `State.Step.touch` : what a step does to the world: what a call does, and what the machine does.
* `State.step_eq_some_iff` : the rules are those of `State.step`.
* `State.step_eq_none_iff` : only a program that has ended takes no step.
-/

namespace NameRegistry

variable {μ σ α β : Type}

/-! ## Marking and releasing a name -/

namespace World

theorem modifyRegistry_modifyRegistry (w : World μ σ α β) (r : Nat)
    (f g : Registry μ σ α β → Registry μ σ α β) :
    (w.modifyRegistry r f).modifyRegistry r g = w.modifyRegistry r (g ∘ f) := by
  simp only [modifyRegistry, List.modify_modify_eq]

/-- A name that goes in flight and is released at once leaves no trace. -/
theorem release_mark (w : World μ σ α β) (r : Nat) (name : String) :
    (w.mark r name).release r name = w := by
  rw [mark, release, modifyRegistry_modifyRegistry]
  have : ((fun reg => { reg with inFlight := reg.inFlight.erase name }) ∘
      fun reg : Registry μ σ α β => { reg with inFlight := name :: reg.inFlight }) = id := by
    funext reg
    simp only [Function.comp_apply, List.erase_cons_head, id_eq]
  rw [this, modifyRegistry, List.modify_id]

/-- What the machine itself does to the world: it has entities settled, lets the client act, and
marks and releases names. -/
inductive Touch (w : World μ σ α β) : World μ σ α β → Prop
  | state (m : μ) (s : σ) : Touch w { w with memory := m, client := s }
  | mark (r : Nat) (name : String) : Touch w (w.mark r name)
  | release (r : Nat) (name : String) : Touch w (w.release r name)

theorem Touch.stores_eq {w w' : World μ σ α β} (h : w.Touch w') : w'.stores = w.stores := by
  cases h <;> rfl

theorem Touch.channels_eq {w w' : World μ σ α β} (h : w.Touch w') : w'.channels = w.channels := by
  cases h <;> rfl

/-- A delivery in order goes on with the listeners that are left. -/
theorem turn_inOrder (w : World μ σ α β) (event : Event α) (told : Nat)
    (rest : List (Listener μ α β)) : w.turn event told rest = (event, rest, w) := rfl

end World

namespace State

variable [Memory μ α] (C : Client μ σ α β)

/-! ## The rules -/

/-- One step of a run. -/
inductive Step : State μ σ α β → State μ σ α β → Prop
  /-- The client acts on the memory and its own state. -/
  | act {w stack f k m s} : f w.memory w.client = (m, s) →
      Step ⟨w, stack, .act f k⟩ ⟨{ w with memory := m, client := s }, stack, k m s⟩
  /-- A call is answered at once. -/
  | answer {w w' stack c k a} : w.respond C c = (w', .answer a) →
      Step ⟨w, stack, .call c k⟩ ⟨w', stack, k a⟩
  /-- A call starts a delivery. -/
  | tell {w w₁ w₂ stack c k ch change e t a} : w.respond C c = (w₁, .tell ch change e a) →
      w₁.settle (ch.widen w₁.memory e) = (t, w₂) →
      Step ⟨w, stack, .call c k⟩
        ⟨w₂, .delivery ⟨ch.number, change, t⟩ 0 ((w₂.channel ch.number).listeners change) (k a)
          :: stack, .done (.ok ())⟩
  /-- A call starts a pass. -/
  | start {w w' stack c k r name a rule rest} : w.respond C c = (w', .resolve r name a) →
      (w'.registry r).rules = rule :: rest →
      Step ⟨w, stack, .call c k⟩
        ⟨w'.mark r name, .pass r name rule.description rest (fun o => k (a o)) :: stack,
          C.rule rule.action r name⟩
  /-- There are no rules to apply. -/
  | miss {w w' stack c k r name a} : w.respond C c = (w', .resolve r name a) →
      (w'.registry r).rules = [] →
      Step ⟨w, stack, .call c k⟩ ⟨w', stack, k (a (.ok (w'.direct r name)))⟩
  /-- A call runs a program of the client. -/
  | run {w w' stack c k p a} : w.respond C c = (w', .run p a) →
      Step ⟨w, stack, .call c k⟩ ⟨w', .resume (fun v => k (a v)) :: stack, p⟩
  /-- A delivery is over. -/
  | delivered {w stack event told after v} :
      Step ⟨w, .delivery event told [] after :: stack, .done v⟩ ⟨w, stack, after⟩
  /-- A delivery passes over a listener whose filters do not show the entity. -/
  | skip {w stack event told l rest after v} :
      narrowAll w.memory l.filters event.entity = none →
      Step ⟨w, .delivery event told (l :: rest) after :: stack, .done v⟩
        ⟨w, .delivery event (told + 1) rest after :: stack, .done (.ok ())⟩
  /-- A listener is told. -/
  | hear {w w' stack event told l rest after v e p} :
      narrowAll w.memory l.filters event.entity = some e → w.enter C l.action e = (w', p) →
      Step ⟨w, .delivery event told (l :: rest) after :: stack, .done v⟩
        ⟨w', .delivery event (told + 1) rest after :: stack, p⟩
  /-- A pass goes on with its next rule. -/
  | next {w stack r name d rule rest k} :
      Step ⟨w, .pass r name d (rule :: rest) k :: stack, .done (.ok ())⟩
        ⟨w, .pass r name rule.description rest k :: stack, C.rule rule.action r name⟩
  /-- A pass ends with its last rule. -/
  | close {w stack r name d k} :
      Step ⟨w, .pass r name d [] k :: stack, .done (.ok ())⟩
        ⟨w.release r name, stack, k (.ok ((w.release r name).direct r name))⟩
  /-- A pass ends with a rule that fails. -/
  | fail {w stack r name d rest k source} :
      Step ⟨w, .pass r name d rest k :: stack, .done (.error source)⟩
        ⟨w.release r name, stack, k (.error (.rule d source))⟩
  /-- A program that waited goes on. -/
  | resume {w stack k v} : Step ⟨w, .resume k :: stack, .done v⟩ ⟨w, stack, k v⟩
  /-- A panic takes a frame off the stack. -/
  | unwind {w f stack message} :
      Step ⟨w, f :: stack, .panic message⟩ ⟨State.unwind w f, stack, .panic message⟩

variable {C}

theorem Step.step_eq {s s' : State μ σ α β} (h : Step C s s') : s.step C = some s' := by
  cases h with
  | act h => simp only [step, h]
  | answer h | run h => simp only [step, perform, h]
  | tell h hs => simp only [step, perform, fire, h, hs]
  | start h hr => simp only [step, perform, advance, h, hr]
  | miss h hr => simp only [step, perform, advance, h, hr, World.release_mark]
  | skip h => simp only [step, back, World.turn_inOrder, h]
  | hear h hp => simp only [step, back, World.turn_inOrder, h, hp]
  | delivered | next | close | fail | resume | unwind => rfl

/-- A step answers a call, or starts to, or leaves the world to the machine. -/
theorem Step.touch {s s' : State μ σ α β} (h : Step C s s') :
    (∃ c k, s.control = .call c k ∧ (s.world.respond C c).1.Touch s'.world) ∨
      (∀ c k, s.control ≠ .call c k) ∧ s.world.Touch s'.world := by
  cases h with
  | @answer w w' stack c k a h | @miss w w' stack c k r name a h | @run w w' stack c k p a h =>
    exact .inl ⟨c, k, rfl, h ▸ .state _ _⟩
  | @tell w w₁ w₂ stack c k ch change e t a h ht =>
    cases ht
    exact .inl ⟨c, k, rfl, h ▸ .state _ _⟩
  | @start w w' stack c k r name a rule rest h => exact .inl ⟨c, k, rfl, h ▸ .mark _ _⟩
  | act => exact .inr ⟨nofun, .state _ _⟩
  | delivered | skip | next | resume => exact .inr ⟨nofun, .state _ _⟩
  | hear _ hp =>
    cases hp
    exact .inr ⟨nofun, .state _ _⟩
  | close | fail => exact .inr ⟨nofun, .release _ _⟩
  | @unwind w f stack message =>
    cases f with
    | pass => exact .inr ⟨nofun, .release _ _⟩
    | delivery | resume => exact .inr ⟨nofun, .state _ _⟩

theorem step_perform (w : World μ σ α β) (stack : List (Frame μ σ α β)) (c : Call μ σ α β)
    (k : c.Reply → Prog μ σ α β Verdict) :
    Step C ⟨w, stack, .call c k⟩ (perform C w stack c k) := by
  rcases h : w.respond C c with ⟨w', a | ⟨ch, change, e, a⟩ | ⟨r, name, a⟩ | ⟨p, a⟩⟩ <;>
    simp only [perform, h]
  · exact .answer h
  · exact .tell h rfl
  · cases hr : (w'.registry r).rules with
    | nil =>
      simp only [advance, World.release_mark]
      exact .miss h hr
    | cons rule rest => exact .start h hr
  · exact .run h

theorem step_back (w : World μ σ α β) (stack : List (Frame μ σ α β)) (v : Verdict)
    (f : Frame μ σ α β) : Step C ⟨w, f :: stack, .done v⟩ (back C w stack v f) := by
  cases f with
  | delivery event told rest after =>
    cases rest with
    | nil => exact .delivered
    | cons l rest =>
      cases h : narrowAll w.memory l.filters event.entity with
      | none =>
        simp only [back, World.turn_inOrder, h]
        exact .skip h
      | some e =>
        simp only [back, World.turn_inOrder, h]
        exact .hear h rfl
  | pass r name d rest k =>
    rcases v with source | ⟨⟩
    · exact .fail
    · cases rest with
      | nil => exact .close
      | cons rule rest => exact .next
  | resume k => exact .resume

/-- The rules are those of the step function. -/
theorem step_eq_some_iff {s s' : State μ σ α β} : s.step C = some s' ↔ Step C s s' := by
  refine ⟨fun h => ?_, Step.step_eq⟩
  obtain ⟨w, stack, p⟩ := s
  cases p with
  | done v =>
    cases stack with
    | nil => cases h
    | cons f stack =>
      obtain rfl := Option.some.inj h
      exact step_back w stack v f
  | panic message =>
    cases stack with
    | nil => cases h
    | cons f stack =>
      obtain rfl := Option.some.inj h
      exact .unwind
  | act f k =>
    obtain rfl := Option.some.inj h
    exact .act rfl
  | call c k =>
    obtain rfl := Option.some.inj h
    exact step_perform w stack c k

/-- Only a program that has ended takes no step. -/
theorem step_eq_none_iff [Stores μ α] [Channels μ α] {s : State μ σ α β} : s.step C = none ↔
    s.stack = [] ∧ ((∃ v, s.control = .done v) ∨ ∃ message, s.control = .panic message) := by
  obtain ⟨w, stack, p⟩ := s
  cases p <;> cases stack <;> simp [step]

end State

end NameRegistry
