import NameRegistry.Proofs.FlatView

/-!
# All or nothing

An addition or a removal is refused, and then nothing is changed, or it is made as a whole: there is
one member more or one less, and one event is fired.

* `Discipline.Orderly` : what a store takes in comes last, and what it gives up is one member. The
  usual stores do so (`Discipline.Usual.orderly`).
* `Call.Mutates`, `Call.Refusal` : additions and removals, and the answers that say that nothing was
  done.
* `World.Grants` : when an addition or a removal is made, and the `Mutation` that it is.
* `World.respond_mutates` : what is not granted is refused.

The answer is settled before the first listener is told. It may come late or, if a listener panics,
never, but it is not a refusal any more (`Run.Ends.control_of_delivery`).

Main result: `all_or_nothing`.
-/

namespace NameRegistry

variable {μ σ α β : Type}

/-! ## Stores -/

/-- What a store takes in comes last, and what it gives up is one member. The others stay, in their
order. -/
structure Discipline.Orderly (d : Discipline μ α) : Prop where
  insert : ∀ m e l l', d.insert m e l = some l' → l' = l ++ [e]
  erase : ∀ m e l l', d.erase m e l = some l' →
    ∃ before x after, l = before ++ x :: after ∧ l' = before ++ after

namespace Discipline

theorem orderly_distinct (same : μ → α → α → Bool) : (distinct same).Orderly where
  insert _ _ _ _ h := (insert_distinct_eq_some_iff.1 h).2
  erase _ _ _ _ h := by
    obtain ⟨before, x, after, hl, hl', -⟩ := exists_of_erase_distinct h
    exact ⟨before, x, after, hl, hl'⟩

theorem orderly_keeping (same : μ → α → α → Bool) : (keeping same).Orderly where
  insert := (orderly_distinct same).insert
  erase _ _ _ _ h := by cases h

theorem orderly_bounded (same : μ → α → α → Bool) (capacity : Nat) :
    (bounded same capacity).Orderly where
  insert m e l l' h := by
    simp only [bounded] at h
    split_ifs at h
    exact (orderly_distinct same).insert m e l l' h
  erase := (orderly_distinct same).erase

theorem orderly_closed : (closed : Discipline μ α).Orderly where
  insert _ _ _ _ h := by cases h
  erase _ _ _ _ h := by cases h

/-- One of the disciplines by which a store compares entities, never gives one up, has a bound, or
is closed. -/
inductive Usual : Discipline μ α → Prop
  | distinct (same) : Usual (distinct same)
  | keeping (same) : Usual (keeping same)
  | bounded (same capacity) : Usual (bounded same capacity)
  | closed : Usual closed

theorem Usual.orderly {d : Discipline μ α} (h : d.Usual) : d.Orderly := by
  cases h with
  | distinct same => exact orderly_distinct same
  | keeping same => exact orderly_keeping same
  | bounded same capacity => exact orderly_bounded same capacity
  | closed => exact orderly_closed

end Discipline

/-! ## Additions and removals -/

/-- A call adds an entity to a registry or removes one. -/
inductive Call.Mutates (r : ℕ) : Call μ σ α β → Prop
  | add (e : α) : Mutates r (.add r e)
  | remove (e : α) : Mutates r (.remove r e)
  | removeByName (name : String) : Mutates r (.removeByName r name)

/-- The answer to an addition or a removal says that nothing was added or removed. -/
def Call.Refusal : (c : Call μ σ α β) → c.Reply → Prop
  | .add _ _, a => a = .ok false ∨ ∃ x, a = .error x
  | .remove _ _, a => a = false
  | .removeByName _ _, a => a = .ok none ∨ ∃ x, a = .error x
  | _, _ => False

/-- What is done to make an addition or a removal. -/
structure Mutation (μ α : Type) where
  change : Change
  /-- The entity that is added to the registry or removed from it. -/
  entity : α
  /-- The entity that the store behind the registry takes in, or an equal of which it gives up. -/
  stored : α
  /-- The members of the store afterwards. -/
  members : List α
  /-- The memory afterwards: what is taken in is settled. -/
  memory : μ

/-- There is one member more, which comes last, or one less. -/
def Mutation.Single (M : Mutation μ α) (l : List α) : Prop :=
  match M.change with
  | .added => M.members = l ++ [M.stored]
  | .removed => ∃ before x after, l = before ++ x :: after ∧ M.members = before ++ after

section

variable [Memory μ α]

/-- When an addition or a removal is made, what is answered, and what is done. An entity is added if
no member that the registry shows has its name. All filters between the registry and the store have
to accept the entity, and then it is for the store to take it in or to give it up. -/
inductive World.Grants (w : World μ σ α β) (r : ℕ) :
    (c : Call μ σ α β) → c.Reply → Mutation μ α → Prop
  | add {e t m l} :
      (∀ x ∈ w.shown (w.registry r).store, w.nameOf r x ≠ w.nameOf r e) →
      (w.registry r).store.accepts w.memory e →
      Memory.settle w.memory ((w.registry r).store.widen w.memory e) = (t, m) →
      (w.store (w.registry r).store.number).discipline.insert m t
        (w.store (w.registry r).store.number).members = some l →
      Grants w r (.add r e) (.ok true) ⟨.added, e, t, l, m⟩
  | remove {e l} :
      (w.registry r).store.accepts w.memory e →
      (w.store (w.registry r).store.number).discipline.erase w.memory
        ((w.registry r).store.widen w.memory e)
        (w.store (w.registry r).store.number).members = some l →
      Grants w r (.remove r e) true
        ⟨.removed, e, (w.registry r).store.widen w.memory e, l, w.memory⟩
  | removeByName {name e l} :
      w.direct r name = some e →
      (w.registry r).store.accepts w.memory e →
      (w.store (w.registry r).store.number).discipline.erase w.memory
        ((w.registry r).store.widen w.memory e)
        (w.store (w.registry r).store.number).members = some l →
      Grants w r (.removeByName r name) (.ok (some e))
        ⟨.removed, e, (w.registry r).store.widen w.memory e, l, w.memory⟩

namespace World

variable {w : World μ σ α β} {r : ℕ} {c : Call μ σ α β} {a : c.Reply} {M : Mutation μ α}

theorem Grants.not_refusal (h : w.Grants r c a M) : ¬ c.Refusal a := by
  intro hr
  cases h with
  | add => rcases hr with hr | ⟨x, hr⟩ <;> cases hr
  | remove => cases hr
  | removeByName => rcases hr with hr | ⟨x, hr⟩ <;> cases hr

theorem Grants.single (h : w.Grants r c a M)
    (hd : (w.store (w.registry r).store.number).discipline.Orderly) :
    M.Single (w.store (w.registry r).store.number).members := by
  cases h with
  | add _ _ _ hl => exact hd.insert _ _ _ _ hl
  | remove _ hl | removeByName _ _ hl => exact hd.erase _ _ _ _ hl

/-- An addition is made exactly if the name is free, all filters accept the entity, and the store
takes it in. -/
theorem exists_grants_add_iff {e : α} :
    (∃ a M, w.Grants r (.add r e) a M) ↔
      (∀ x ∈ w.shown (w.registry r).store, w.nameOf r x ≠ w.nameOf r e) ∧
        (w.registry r).store.accepts w.memory e ∧
        ∃ t m l, Memory.settle w.memory ((w.registry r).store.widen w.memory e) = (t, m) ∧
          (w.store (w.registry r).store.number).discipline.insert m t
            (w.store (w.registry r).store.number).members = some l := by
  constructor
  · rintro ⟨a, M, h⟩
    cases h with
    | add hfree ha ht hl => exact ⟨hfree, ha, _, _, _, ht, hl⟩
  · rintro ⟨hfree, ha, t, m, l, ht, hl⟩
    exact ⟨_, _, .add hfree ha ht hl⟩

variable (C : Client μ σ α β) (w)

/-- What is asked of the library is refused: it answers at once, and leaves all but the client's
state. -/
def Refuses (r : ℕ) (c : Call μ σ α β) : Prop :=
  (∃ a client, c.Refusal a ∧ w.respond C c = ({ w with client }, .answer a)) ∧
    ∀ a M, ¬ w.Grants r c a M

/-- What is asked of the library is granted: it changes the members of the store, and has the
listeners told before it answers. -/
def Makes (r : ℕ) (c : Call μ σ α β) : Prop :=
  ∃ a M, w.Grants r c a M ∧
    w.respond C c = ({ w.setMembers (w.registry r).store.number M.members with memory := M.memory },
      .tell (w.registry r).channel M.change M.entity a)

omit C in
theorem insert?_eq_some_iff_settle {w' : World μ σ α β} {s : StoreRef μ α} {e : α} :
    w.insert? s e = some w' ↔ s.accepts w.memory e ∧
      ∃ t m l, Memory.settle w.memory (s.widen w.memory e) = (t, m) ∧
        (w.store s.number).discipline.insert m t (w.store s.number).members = some l ∧
        w' = { w.setMembers s.number l with memory := m } := by
  rw [insert?_eq_some_iff]
  refine and_congr_right fun _ => ⟨?_, ?_⟩
  · rintro ⟨t, w₁, l, ht, hl, rfl⟩
    cases ht
    exact ⟨_, _, l, rfl, hl, rfl⟩
  · rintro ⟨t, m, l, ht, hl, rfl⟩
    exact ⟨t, { w with memory := m }, l, by rw [settle, ht], hl, rfl⟩

theorem respond_add (r : ℕ) (e : α) : w.Refuses C r (.add r e) ∨ w.Makes C r (.add r e) := by
  cases hd : w.direct r (w.nameOf r e) with
  | some x =>
    -- The name is taken, and the hook for duplicates decides how that is said.
    obtain ⟨hx, hname⟩ := of_direct_eq_some hd
    rcases hh : (w.registry r).hooks.onDuplicate (w.registry r).typeDisplayName (w.nameOf r e) e
      w.memory w.client with ⟨a, client⟩
    refine .inl ⟨⟨a.map fun _ => false, client, ?_, ?_⟩, ?_⟩
    · cases a with
      | ok _ => exact .inl rfl
      | error x => exact .inr ⟨x, rfl⟩
    · simp only [respond, hd, hh, Option.isSome_some, if_true]
    · intro a M h
      cases h with
      | add hfree => exact hfree x hx hname
  | none =>
    cases hi : w.insert? (w.registry r).store e with
    | none =>
      refine .inl ⟨⟨.ok false, w.client, .inl rfl, by simp [respond, hd, hi]⟩, ?_⟩
      intro a M h
      cases h with
      | add _ ha ht hl =>
        have hsome := (w.insert?_eq_some_iff_settle).2 ⟨ha, _, _, _, ht, hl, rfl⟩
        cases hi.symm.trans hsome
    | some w' =>
      obtain ⟨ha, t, m, l, ht, hl, rfl⟩ := (w.insert?_eq_some_iff_settle).1 hi
      exact .inr ⟨_, _, .add (direct_eq_none_iff.1 hd) ha ht hl, by simp [respond, hd, hi]⟩

theorem respond_remove (r : ℕ) (e : α) :
    w.Refuses C r (.remove r e) ∨ w.Makes C r (.remove r e) := by
  cases hi : w.erase? (w.registry r).store e with
  | none =>
    refine .inl ⟨⟨false, w.client, rfl, by simp [respond, hi]⟩, ?_⟩
    intro a M h
    cases h with
    | remove ha hl => cases hi.symm.trans (erase?_eq_some_iff.2 ⟨ha, _, hl, rfl⟩)
  | some w' =>
    obtain ⟨ha, l, hl, rfl⟩ := erase?_eq_some_iff.1 hi
    exact .inr ⟨_, _, .remove ha hl, by simp only [respond, hi]; rfl⟩

theorem respond_removeByName (r : ℕ) (name : String) :
    w.Refuses C r (.removeByName r name) ∨ w.Makes C r (.removeByName r name) := by
  cases hd : w.direct r name with
  | none =>
    refine .inl ⟨⟨.ok none, w.client, .inl rfl, by simp [respond, hd]⟩, ?_⟩
    intro a M h
    cases h with
    | removeByName hsome => cases hd.symm.trans hsome
  | some e =>
    cases hi : w.erase? (w.registry r).store e with
    | none =>
      -- The member was found but the store keeps it, which is the error of the answer.
      refine .inl ⟨⟨.error (.storeContract name), w.client, .inr ⟨_, rfl⟩,
        by simp only [respond, hd, hi, refuseErase_listed]⟩, ?_⟩
      intro a M h
      cases h with
      | removeByName hsome ha hl =>
        obtain rfl := Option.some.inj (hd.symm.trans hsome)
        cases hi.symm.trans (erase?_eq_some_iff.2 ⟨ha, _, hl, rfl⟩)
    | some w' =>
      obtain ⟨ha, l, hl, rfl⟩ := erase?_eq_some_iff.1 hi
      exact .inr ⟨_, _, .removeByName hd ha hl, by simp only [respond, hd, hi]; rfl⟩

/-- **What is not granted is refused.** -/
theorem respond_mutates {r : ℕ} {c : Call μ σ α β} (h : c.Mutates r) :
    w.Refuses C r c ∨ w.Makes C r c := by
  cases h with
  | add e => exact w.respond_add C r e
  | remove e => exact w.respond_remove C r e
  | removeByName name => exact w.respond_removeByName C r name

end World

end

/-! ## Runs -/

variable [Memory μ α] {C : Client μ σ α β}

namespace Run

variable {ρ : Run C} {n r : ℕ} {c : Call μ σ α β} {k : c.Reply → Prog μ σ α β Verdict}

/-- After a call that is refused, the program goes on with the answer. -/
theorem succ_of_refuses (call : (ρ n).control = .call c k) (h : (ρ n).world.Refuses C r c) :
    (∀ i, (ρ n).fired C i = []) ∧ ∃ a client, c.Refusal a ∧
      ρ (n + 1) = ⟨{ (ρ n).world with client }, (ρ n).stack, k a⟩ := by
  obtain ⟨⟨a, client, refusal, hresp⟩, -⟩ := h
  refine ⟨fun i => ?_, a, client, refusal, ?_⟩
  · simp only [State.fired, call, hresp]
  · exact (ends_of_answer call hresp).2

/-- After a call that has listeners told, they are about to be told of the one event that is
fired. -/
theorem succ_of_tell (call : (ρ n).control = .call c k) {w : World μ σ α β} {ch : ChannelRef μ α}
    {change : Change} {e u : α} {a : c.Reply} {m : μ}
    (h : (ρ n).world.respond C c = (w, .tell ch change e a))
    (settled : Memory.settle w.memory (ch.widen w.memory e) = (u, m)) :
    (∀ i, (ρ n).fired C i = if ch.number = i then [⟨i, change, u⟩] else []) ∧
      ρ (n + 1) = ⟨{ w with memory := m },
        .delivery ⟨ch.number, change, u⟩ 0 ((w.channel ch.number).listeners change) (k a) ::
          (ρ n).stack, .done (.ok ())⟩ := by
  refine ⟨fun i => ?_, ?_⟩
  · simp only [State.fired, call, h, World.settle, settled]
  · simp only [succ_of_call call, State.perform, State.fire, h, World.settle, settled]
    rfl

/-- After a call that is granted, the change has been made, and the listeners are about to be told
of it. -/
theorem succ_of_makes (call : (ρ n).control = .call c k) (h : (ρ n).world.Makes C r c) :
    let w := (ρ n).world
    let s := (w.registry r).store
    let ch := (w.registry r).channel
    ∃ a M u m, w.Grants r c a M ∧
      Memory.settle M.memory (ch.widen M.memory M.entity) = (u, m) ∧
      (∀ i, (ρ n).fired C i = if ch.number = i then [⟨i, M.change, u⟩] else []) ∧
      ρ (n + 1) = ⟨{ w.setMembers s.number M.members with memory := m },
        .delivery ⟨ch.number, M.change, u⟩ 0 ((w.channel ch.number).listeners M.change) (k a) ::
          (ρ n).stack, .done (.ok ())⟩ := by
  obtain ⟨a, M, grants, hresp⟩ := h
  obtain ⟨fired, next⟩ := succ_of_tell call hresp rfl
  exact ⟨a, M, _, _, grants, rfl, fired, next⟩

end Run

/-- **All or nothing.** When a program adds an entity to a registry `r` or removes one from it, it
is either refused or granted.

* If it is refused, then at the next moment the program goes on with an answer that says so.
  Nothing has changed but the client's own state, which is for the hook of a duplicate to change,
  and no event is fired.
* If it is granted, then at the next moment the members of the store are different, and the
  listeners of the channel are about to be told of it, by the one event that is fired. In a usual
  store, and in any other that takes in at the end and gives up one member, there is one member
  more, which is the entity that was added, widened to one of the store, or there is one less. The
  program does not go on with an answer that says that nothing was done.

An addition is granted exactly if no member that `r` shows has the name of the entity, all filters
accept it, and the store takes it in. -/
theorem all_or_nothing (ρ : Run C) (n r : ℕ) (c : Call μ σ α β)
    (k : c.Reply → Prog μ σ α β Verdict) (mutates : c.Mutates r)
    (call : (ρ n).control = .call c k) :
    let w := (ρ n).world
    let s := (w.registry r).store
    let ch := (w.registry r).channel
    ((∀ a M, ¬ w.Grants r c a M) ∧ (∀ i, (ρ n).fired C i = []) ∧
        (∃ a client, c.Refusal a ∧ ρ (n + 1) = ⟨{ w with client }, (ρ n).stack, k a⟩) ∨
      ∃ a M u m, w.Grants r c a M ∧ ¬ c.Refusal a ∧
        ((w.store s.number).discipline.Usual → M.Single (w.store s.number).members) ∧
        ((w.store s.number).discipline.Orderly → M.Single (w.store s.number).members) ∧
        Memory.settle M.memory (ch.widen M.memory M.entity) = (u, m) ∧
        (∀ i, (ρ n).fired C i = if ch.number = i then [⟨i, M.change, u⟩] else []) ∧
        ρ (n + 1) = ⟨{ w.setMembers s.number M.members with memory := m },
          .delivery ⟨ch.number, M.change, u⟩ 0 ((w.channel ch.number).listeners M.change) (k a) ::
            (ρ n).stack, .done (.ok ())⟩ ∧
        ∀ j, ρ.Ends n j → (ρ j).control = k a ∨ ∃ message, (ρ j).control = .panic message) ∧
      ∀ e, (∃ a M, w.Grants r (.add r e) a M) ↔
        (∀ x ∈ w.shown s, w.nameOf r x ≠ w.nameOf r e) ∧ s.accepts w.memory e ∧
          ∃ t m l, Memory.settle w.memory (s.widen w.memory e) = (t, m) ∧
            (w.store s.number).discipline.insert m t (w.store s.number).members = some l := by
  intro w s ch
  refine ⟨?_, fun e => World.exists_grants_add_iff⟩
  rcases w.respond_mutates C mutates with refuses | makes
  · exact .inl ⟨refuses.2, Run.succ_of_refuses call refuses⟩
  · obtain ⟨a, M, u, m, grants, settled, fired, next⟩ := Run.succ_of_makes call makes
    exact .inr ⟨a, M, u, m, grants, grants.not_refusal, fun usual => grants.single usual.orderly,
      grants.single, settled, fired, next, fun j ends => ends.control_of_delivery (by rw [next])⟩

/-! A store with room for one number, and a view of those that are not zero. A listener notes what
is added. The first number that is added through the view is taken in, and another one is not. -/

def crowdedStart : State Unit (List ℕ) ℕ Unit where
  world :=
    { memory := ()
      client := []
      stores := [⟨[], .bounded (fun _ => (· == ·)) 1⟩]
      channels := [{}]
      registries := [{ numbers.filtered (.matching fun _ e => e ≠ 0) "u32" with
        hooks := .default }] }
  stack := []
  control := .call (.subscribe 0 .added ()) fun _ => .call (.add 0 1) fun _ =>
    .call (.add 0 2) fun _ => .done (.ok ())

theorem all_or_nothing_crowded :
    ∃ ρ : Run notes, (∃ M, (ρ 1).world.Grants 0 (.add 0 1) (.ok true) M ∧ M.Single []) ∧
      (∀ a M, ¬ (ρ 5).world.Grants 0 (.add 0 2) a M) ∧
      (ρ 6).world.shown (.root 0) = [1] ∧ (ρ 6).world.client = [1] := by
  let ρ := Run.of notes crowdedStart
  have granted := (all_or_nothing ρ 1 0 _ _ (.add 1) rfl).1
  have refused := (all_or_nothing ρ 5 0 _ _ (.add 2) rfl).1
  refine ⟨ρ, ?_, ?_, by decide, by decide⟩
  · rcases granted with ⟨-, fired, -⟩ | ⟨a, M, u, m, hM, -, single, -⟩
    · exact absurd (congrArg List.length (fired 0)) (by decide)
    · have ha : a = .ok true := by cases hM; rfl
      exact ⟨M, ha ▸ hM, single (.bounded _ _)⟩
  · rcases refused with ⟨no, -⟩ | ⟨a, M, u, m, -, -, -, -, -, fired, -⟩
    · exact no
    · have quiet : (ρ 5).fired notes 0 = [] := List.length_eq_zero_iff.1 (by decide)
      have channel : ((ρ 5).world.registry 0).channel.number = 0 := by decide
      rw [fired 0, if_pos channel] at quiet
      cases quiet

end NameRegistry
