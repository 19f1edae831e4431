import NameRegistry.Proofs.Hidden
import NameRegistry.Proofs.Listeners
import NameRegistry.Proofs.Names
import NameRegistry.Proofs.Namesakes

/-!
# Adding through a view

An addition through a view looks for the name among the members that the view shows, and one to the
registry behind it looks among all members. After that the two do the same.

* `Hooks.Ignores` : nothing is done about an entity whose name is taken.
* `World.bearers` : the members of a registry that have a name.
* `Prog.enlist`, `State.enlist` : a store is to take an entity in and, if it does, a channel tells
  of it. That is what an addition does when it finds the name free.
* `State.enlist_view` : to do this through a view is to do it behind the view with the widened
  entity, if the filter accepts it.
* `Run.Begins`, `Run.Meets` : what a run does in its first step, and from when on two runs are the
  same.

Where the filter keeps names, the name of an entity is free in the view exactly if all members that
have it are hidden (`World.direct_view_eq_none_iff`).

Main result: `add_through_view`.

Entities are plain values here: an entity that is widened twice is the same entity.
-/

namespace NameRegistry

variable {μ σ α β : Type}

/-- Nothing is done about an entity whose name is taken. -/
def Hooks.Ignores (h : Hooks μ σ α) : Prop :=
  ∀ typeName name e m s, h.onDuplicate typeName name e m s = (.ok (), s)

theorem Hooks.ignores_default : (default : Hooks μ σ α).Ignores := fun _ _ _ _ _ => rfl

/-! ## A view and what is behind it -/

/-- A filter that shows only what widens to the entity itself keeps all names. -/
theorem Filter.Restores.keepsNames {f : Filter μ α} (h : f.Restores) (namer : μ → α → String) :
    f.KeepsNames namer := by
  intro m t s hs
  rw [h m t s hs]

namespace World

/-- The members of a registry that have a name. -/
def bearers (w : World μ σ α β) (r : ℕ) (name : String) : List α :=
  (w.shown (w.registry r).store).filter fun x => w.nameOf r x == name

theorem mem_bearers_iff {w : World μ σ α β} {r : ℕ} {name : String} {x : α} :
    x ∈ w.bearers r name ↔ x ∈ w.shown (w.registry r).store ∧ w.nameOf r x = name := by
  rw [bearers, List.mem_filter, beq_iff_eq]

theorem direct_eq_none_iff_bearers {w : World μ σ α β} {r : ℕ} {name : String} :
    w.direct r name = none ↔ w.bearers r name = [] := by
  simp only [direct_eq_none_iff, List.eq_nil_iff_forall_not_mem, mem_bearers_iff, not_and]

section

variable {w : World μ σ α β} {v p : ℕ} {f : Filter μ α} {typeName : String}
  (view : (w.registry v).toParts = (w.registry p).toParts.filtered f typeName)

include view

theorem nameOf_view (e : α) : w.nameOf v e = w.nameOf p (f.widen w.memory e) := by
  unfold nameOf
  rw [view]
  rfl

theorem shown_store :
    w.shown (w.registry v).store =
      (w.shown (w.registry p).store).filterMap (f.narrow w.memory) := by
  rw [view]
  exact w.shown_view _ f

theorem direct_view_eq_none_iff (keeps : f.KeepsNames (w.registry p).namer) {name : String} :
    w.direct v name = none ↔ ∀ x ∈ w.bearers p name, f.narrow w.memory x = none := by
  have named {x e : α} (he : f.narrow w.memory x = some e) : w.nameOf v e = w.nameOf p x := by
    rw [nameOf_view view]
    exact keeps _ _ _ he
  rw [direct_eq_none_iff, shown_store view]
  constructor
  · intro free x hx
    obtain ⟨hx, hname⟩ := mem_bearers_iff.1 hx
    cases he : f.narrow w.memory x with
    | none => rfl
    | some e =>
      exfalso
      apply free e (List.mem_filterMap.2 ⟨x, hx, he⟩)
      rw [named he, hname]
  · intro hidden e he hname
    obtain ⟨x, hx, he⟩ := List.mem_filterMap.1 he
    rw [named he] at hname
    cases he.symm.trans (hidden x (mem_bearers_iff.2 ⟨hx, hname⟩))

end

end World

/-- Has a store take an entity in and, if it does, tells the listeners of a channel. -/
def Prog.enlist (s : StoreRef μ α) (c : ChannelRef μ α) (e : α) : Prog μ σ α β Bool := do
  if ← insert s e then
    fire c .added e
    return true
  else return false

namespace State

/-- The next moment when a store is to take an entity in and, if it does, a channel is to tell of
it. -/
def enlist [Memory μ α] (w : World μ σ α β) (stack : List (Frame μ σ α β)) (s : StoreRef μ α)
    (c : ChannelRef μ α) (e : α) (k : Bool → Prog μ σ α β Verdict) : State μ σ α β :=
  match w.insert? s e with
  | none => ⟨w, stack, k false⟩
  | some w' => fire w' stack c .added e (k true)

/-- The event that is fired on a channel then. -/
def enlisted [Memory μ α] (w : World μ σ α β) (s : StoreRef μ α) (c : ChannelRef μ α) (e : α)
    (i : ℕ) : List (Event α) :=
  match w.insert? s e with
  | none => []
  | some w' =>
    if c.number = i then [⟨i, .added, (w'.settle (c.widen w'.memory e)).1⟩] else []

section

variable {C : Client Unit σ α β} {w : World Unit σ α β} {stack : List (Frame Unit σ α β)}

/-- What a view is to take in, the store behind it is to take in, widened, if the filter accepts
it. -/
theorem enlist_view (s : StoreRef Unit α) (c : ChannelRef Unit α) (f : Filter Unit α) (e : α)
    (k : Bool → Prog Unit σ α β Verdict) :
    enlist w stack (.view s f) (.view c f) e k =
      if f.accepts () e then enlist w stack s c (f.widen () e) k else ⟨w, stack, k false⟩ := by
  unfold enlist
  by_cases h : f.accepts () e
  · simp only [World.insert?, h, if_true]
    rfl
  · simp only [World.insert?, h]
    rfl

theorem enlisted_view (s : StoreRef Unit α) (c : ChannelRef Unit α) (f : Filter Unit α) (e : α) :
    enlisted w (.view s f) (.view c f) e =
      if f.accepts () e then enlisted w s c (f.widen () e) else fun _ => [] := by
  funext i
  unfold enlisted
  by_cases h : f.accepts () e
  · simp only [World.insert?, h, if_true]
    rfl
  · simp only [World.insert?, h]
    rfl

end

end State

/-! ## Runs -/

namespace Run

section

variable [Memory μ α] {C : Client μ σ α β}

/-- From some moments on two runs are the same. Until then they fire the same events, and tell
listeners the same. -/
structure Meets (ρ ρ' : Run C) (n m : ℕ) : Prop where
  same : ∀ d, ρ (n + d) = ρ' (m + d)
  fired : ∀ i, ρ.collect (State.fired C i) 0 n = ρ'.collect (State.fired C i) 0 m
  told : ∀ i change place, ρ.collect (State.told i change place) 0 n =
    ρ'.collect (State.told i change place) 0 m

/-- In its first step a run gets to a state and fires some events on each channel, and no listener
is told anything. -/
structure Begins (ρ : Run C) (t : State μ σ α β) (events : ℕ → List (Event α)) : Prop where
  next : ρ 1 = t
  fired : ∀ i, (ρ 0).fired C i = events i
  told : ∀ i change place, (ρ 0).told i change place = []

variable {s s' t : State μ σ α β} {n m : ℕ} {events : ℕ → List (Event α)}

/-- Two programs that come to one state go on as one. -/
theorem of_add_eq (h : of C s n = of C s' m) (d : ℕ) : of C s (n + d) = of C s' (m + d) := by
  induction d with
  | zero => exact h
  | succ d ih =>
    show State.run C (n + d + 1) s = State.run C (m + d + 1) s'
    change State.run C (n + d) s = State.run C (m + d) s' at ih
    rw [State.run_succ, State.run_succ, ih]

theorem collect_one {γ : Type} (ρ : Run C) (see : State μ σ α β → List γ) :
    ρ.collect see 0 1 = see (ρ 0) := by
  rw [collect_succ, collect_zero]
  rfl

/-- A program meets another where it has got to after one step. -/
theorem Begins.meets_of (h : (of C s).Begins t events) (hm : of C s' m = t)
    (fired : ∀ i, (of C s').collect (State.fired C i) 0 m = events i)
    (told : ∀ i change place, (of C s').collect (State.told i change place) 0 m = []) :
    (of C s).Meets (of C s') 1 m where
  same := of_add_eq (h.next.trans hm.symm)
  fired i := by rw [collect_one, h.fired, fired]
  told i change place := by rw [collect_one, h.told, told]

theorem Begins.meets (h : (of C s).Begins t events) (h' : (of C s').Begins t events) :
    (of C s).Meets (of C s') 1 1 := by
  apply h.meets_of h'.next
  · intro i
    rw [collect_one, h'.fired]
  · intro i change place
    rw [collect_one, h'.told]

/-! ### Additions -/

variable (w : World μ σ α β) (stack : List (Frame μ σ α β))

theorem begins_add_of_taken {r : ℕ} {e : α} {k : Except RegistryError Bool → Prog μ σ α β Verdict}
    (taken : w.direct r (w.nameOf r e) ≠ none) (ignores : (w.registry r).hooks.Ignores) :
    (of C ⟨w, stack, .call (.add r e) k⟩).Begins ⟨w, stack, k (.ok false)⟩ fun _ => [] := by
  have hresp : w.respond C (.add r e) = (w, .answer (.ok false)) := by
    rw [World.respond_add_of_taken taken]
    simp only [ignores _ _ _ _ _]
    rfl
  refine ⟨?_, ?_, fun _ _ _ => rfl⟩
  · show State.perform C w stack (.add r e) k = _
    simp only [State.perform, hresp]
  · intro i
    show State.fired C i ⟨w, stack, .call (.add r e) k⟩ = []
    simp only [State.fired, hresp]

/-- If the name of an entity is free, it is to be taken in and told of. -/
theorem begins_add_of_free {r : ℕ} {e : α} {k : Except RegistryError Bool → Prog μ σ α β Verdict}
    (free : w.direct r (w.nameOf r e) = none) :
    (of C ⟨w, stack, .call (.add r e) k⟩).Begins
      (State.enlist w stack (w.registry r).store (w.registry r).channel e (k ∘ .ok))
      (State.enlisted w (w.registry r).store (w.registry r).channel e) := by
  have hresp := World.respond_add_of_free (C := C) free
  refine ⟨?_, ?_, fun _ _ _ => rfl⟩
  · show State.perform C w stack (.add r e) k = _
    simp only [State.perform, hresp, State.enlist]
    cases w.insert? (w.registry r).store e <;> rfl
  · intro i
    show State.fired C i ⟨w, stack, .call (.add r e) k⟩ = _
    simp only [State.fired, hresp, State.enlisted]
    cases w.insert? (w.registry r).store e <;> rfl

/-- To have a store take an entity in, and a channel tell of it, takes two steps, or one if the
store refuses. -/
theorem exists_of_enlist (s : StoreRef μ α) (c : ChannelRef μ α) (e : α)
    (k : Bool → Prog μ σ α β Verdict) :
    let ρ := of C ⟨w, stack, (Prog.enlist s c e).bind k⟩
    ∃ m > 0, ρ m = State.enlist w stack s c e k ∧
      (∀ i, ρ.collect (State.fired C i) 0 m = State.enlisted w s c e i) ∧
      ∀ i change place, ρ.collect (State.told i change place) 0 m = [] := by
  intro ρ
  cases hi : w.insert? s e with
  | none =>
    have hresp : w.respond C (.insert s e) = (w, .answer false) := by
      simp only [World.respond, hi, World.refuseInsert_listed]
    refine ⟨1, Nat.one_pos, ?_, ?_, ?_⟩
    · show State.perform C w stack (.insert s e) _ = _
      simp only [State.perform, hresp, State.enlist, hi]
      rfl
    · intro i
      rw [collect_one]
      show State.fired C i ⟨w, stack, .call (.insert s e) _⟩ = _
      simp only [State.fired, hresp, State.enlisted, hi]
    · intro i change place
      rw [collect_one]
      rfl
  | some w' =>
    have hresp : w.respond C (.insert s e) = (w', .answer true) := by
      simp only [World.respond, hi]
    have taken : ρ 1 = ⟨w', stack, .call (.fire c .added e) fun _ => k true⟩ := by
      show State.perform C w stack (.insert s e) _ = _
      simp only [State.perform, hresp]
      rfl
    refine ⟨2, Nat.two_pos, ?_, ?_, ?_⟩
    · rw [succ_of_call (congrArg State.control taken), taken, State.enlist, hi]
      rfl
    · intro i
      rw [collect_succ, collect_one, Nat.zero_add, taken]
      show State.fired C i ⟨w, stack, .call (.insert s e) _⟩ ++ _ = _
      simp only [State.fired, hresp, State.enlisted, hi, List.nil_append]
      rfl
    · intro i change place
      rw [collect_succ, collect_one, Nat.zero_add, taken]
      rfl

end

/-- The run goes on at once with the answer that nothing was added. Nothing has changed. -/
def Declines {C : Client Unit σ α β} (ρ : Run C)
    (k : Except RegistryError Bool → Prog Unit σ α β Verdict) : Prop :=
  ρ.Begins ⟨(ρ 0).world, (ρ 0).stack, k (.ok false)⟩ fun _ => []

/-- If a name is free in a view, and the filter accepts the entity, it is to be taken in and told of
behind the view. -/
theorem begins_add_view {C : Client Unit σ α β} {w : World Unit σ α β}
    (stack : List (Frame Unit σ α β)) {v p : ℕ} {f : Filter Unit α} {typeName : String}
    (view : (w.registry v).toParts = (w.registry p).toParts.filtered f typeName) {e : α}
    {k : Except RegistryError Bool → Prog Unit σ α β Verdict}
    (free : w.direct v (w.nameOf v e) = none) :
    (of C ⟨w, stack, .call (.add v e) k⟩).Begins
      (if f.accepts () e then
        State.enlist w stack (w.registry p).store (w.registry p).channel (f.widen () e) (k ∘ .ok)
      else ⟨w, stack, k (.ok false)⟩)
      (if f.accepts () e then
        State.enlisted w (w.registry p).store (w.registry p).channel (f.widen () e)
      else fun _ => []) := by
  have store : (w.registry v).store = .view (w.registry p).store f := congrArg Parts.store view
  have channel : (w.registry v).channel = .view (w.registry p).channel f :=
    congrArg Parts.channel view
  have begins := begins_add_of_free (C := C) (k := k) w stack free
  rw [store, channel, State.enlist_view, State.enlisted_view] at begins
  exact begins

end Run

/-- **Adding through a view.** Let `v` be a view of a registry `p`, which may be a view itself, by a
filter that keeps names, and let neither do anything about an entity whose name is taken. At any
moment of any run an entity `s` is to be added to `v`, or widened to `p`.

* If the filter accepts `s`, and no member of `p` has its name or `v` shows one that has it, then
  the two additions are the same from the next moment on, and fire the same events.
* If the filter does not accept `s`, then `v` answers that nothing was added, and nothing changes.
* If the filter accepts `s`, and members of `p` have its name but `v` shows none of them, then `p`
  answers that nothing was added, and nothing changes. The addition to `v` is the same as to have
  the store of `p` take in what `s` is widened to and, if it does, to have the channel of `p` tell
  of it. -/
theorem add_through_view (C : Client Unit σ α β) (w : World Unit σ α β)
    (stack : List (Frame Unit σ α β)) (v p : ℕ) (f : Filter Unit α) (typeName : String) (s : α)
    (k : Except RegistryError Bool → Prog Unit σ α β Verdict)
    (view : (w.registry v).toParts = (w.registry p).toParts.filtered f typeName)
    (keeps : f.KeepsNames (w.registry p).namer) (ignores_v : (w.registry v).hooks.Ignores)
    (ignores_p : (w.registry p).hooks.Ignores) :
    let t := f.widen () s
    let toView := Run.of C ⟨w, stack, .call (.add v s) k⟩
    let toParent := Run.of C ⟨w, stack, .call (.add p t) k⟩
    let toStore := Run.of C ⟨w, stack,
      (Prog.enlist (w.registry p).store (w.registry p).channel t).bind (k ∘ .ok)⟩
    let bearers := w.bearers p (w.nameOf p t)
    (f.accepts () s → bearers = [] ∨ (∃ x ∈ bearers, (f.narrow () x).isSome) →
      toView.Meets toParent 1 1) ∧
    (¬ f.accepts () s → toView.Declines k) ∧
    (f.accepts () s → bearers ≠ [] → (∀ x ∈ bearers, f.narrow () x = none) →
      toParent.Declines k ∧ ∃ m > 0, toView.Meets toStore 1 m) := by
  intro t toView toParent toStore bearers
  have name : w.nameOf v s = w.nameOf p t := World.nameOf_view view s
  have free_view : w.direct v (w.nameOf v s) = none ↔ ∀ x ∈ bearers, f.narrow () x = none := by
    rw [name]
    exact World.direct_view_eq_none_iff view keeps
  have free_parent : w.direct p (w.nameOf p t) = none ↔ bearers = [] :=
    World.direct_eq_none_iff_bearers
  refine ⟨?_, ?_, ?_⟩
  · rintro accepted (nobody | ⟨x, hx, shown⟩)
    · -- Both find the name free.
      have free : w.direct v (w.nameOf v s) = none := by
        rw [free_view, nobody]
        exact List.forall_mem_nil _
      have begins := Run.begins_add_view (C := C) (k := k) stack view free
      rw [if_pos accepted, if_pos accepted] at begins
      exact begins.meets (Run.begins_add_of_free w stack (free_parent.2 nobody))
    · -- Both find the name taken.
      apply (Run.begins_add_of_taken w stack _ ignores_v).meets
        (Run.begins_add_of_taken w stack _ ignores_p)
      · intro free
        rw [free_view.1 free x hx] at shown
        cases shown
      · intro free
        rw [free_parent.1 free] at hx
        cases hx
  · intro refused
    by_cases free : w.direct v (w.nameOf v s) = none
    · have begins := Run.begins_add_view (C := C) (k := k) stack view free
      rw [if_neg refused, if_neg refused] at begins
      exact begins
    · exact Run.begins_add_of_taken w stack free ignores_v
  · intro accepted named hidden
    refine ⟨Run.begins_add_of_taken w stack (mt free_parent.1 named) ignores_p, ?_⟩
    have begins := Run.begins_add_view (C := C) (k := k) stack view (free_view.2 hidden)
    rw [if_pos accepted, if_pos accepted] at begins
    obtain ⟨m, hm, next, fired, told⟩ := Run.exists_of_enlist (C := C) w stack
      (w.registry p).store (w.registry p).channel t (k ∘ .ok)
    exact ⟨m, hm, begins.meets_of next fired told⟩

/-! Entities are names, marked or not. The registry has `x` without a mark and `y` with one, and the
view shows those that are marked. -/

def halfMarked : World Unit Unit (Bool × String) Unit where
  memory := ()
  client := ()
  stores := [.ofDistinct [(false, "x"), (true, "y")]]
  channels := [{}]
  registries := [{ markedNames with hooks := .default },
    { markedNames.filtered (.matching fun _ e => e.1) "String" with hooks := .default }]

/-- A program ends well if an entity was added. -/
def mustAdd : Except RegistryError Bool → Prog Unit Unit (Bool × String) Unit Verdict
  | .ok true => .done (.ok ())
  | .ok false => .done (.error (.text "not added"))
  | .error error => .done (.error (.registry error))

/-- Whether `z` or `y` is added makes no difference: the store takes `z` in and refuses `y`. An `x`
with a mark is added to the view only, so that the store holds two, and nothing without a mark is
added. -/
theorem add_through_view_namesake :
    let add r e := Run.of silentClient ⟨halfMarked, [], .call (.add r e) mustAdd⟩
    let enlist e :=
      Run.of silentClient ⟨halfMarked, [], (Prog.enlist (.root 0) (.root 0) e).bind (mustAdd ∘ .ok)⟩
    let held e := (add 1 e 1).world.shown (.root 0)
    ((add 1 (true, "z")).Meets (add 0 (true, "z")) 1 1 ∧
        held (true, "z") = [(false, "x"), (true, "y"), (true, "z")]) ∧
      ((add 1 (true, "y")).Meets (add 0 (true, "y")) 1 1 ∧
        held (true, "y") = [(false, "x"), (true, "y")]) ∧
      ((add 1 (false, "z")).Declines mustAdd ∧
        held (false, "z") = [(false, "x"), (true, "y")]) ∧
      (add 0 (true, "x")).Declines mustAdd ∧
      (∃ m > 0, (add 1 (true, "x")).Meets (enlist (true, "x")) 1 m) ∧
        held (true, "x") = [(false, "x"), (true, "y"), (true, "x")] := by
  intro add enlist held
  have all (e : Bool × String) := add_through_view silentClient halfMarked [] 1 0
    (.matching fun _ e => e.1) "String" e mustAdd rfl
    ((Filter.restores_matching _).keepsNames _) Hooks.ignores_default Hooks.ignores_default
  obtain ⟨declines, meets⟩ := (all (true, "x")).2.2 rfl (by decide) (by decide)
  refine ⟨⟨(all (true, "z")).1 rfl (.inl rfl), by decide⟩,
    ⟨(all (true, "y")).1 rfl (.inr ⟨(true, "y"), by decide, rfl⟩), by decide⟩,
    ⟨(all (false, "z")).2.1 (by decide), by decide⟩, declines, meets, by decide⟩

end NameRegistry
