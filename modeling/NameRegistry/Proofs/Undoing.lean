import NameRegistry.Proofs.Hidden
import NameRegistry.Proofs.Observers

/-!
# Taking an addition back

What was just added is the last member of the store, and the only one that equals itself. So it is
what the next removal finds, and then the members are what they were, in their order.

* `Call.Undoes` : a call that takes an addition back.
* `World.Fresh` : an entity that can be added to a registry.
* `World.Fresh.respond_undoes` : what was just added is removed again.

To remove the entity by its name, the registry has to find it under this name, and all its filters
have to show it as itself.

Main result: `remove_undoes_add`.

Entities are plain values here: an entity that is settled is the same entity.
-/

namespace NameRegistry

variable {σ α β : Type}

/-- A call that takes back what was added to a registry, with its answer. By its name an entity is
taken back only if all filters show it as itself. -/
inductive Call.Undoes (w : World Unit σ α β) (r : ℕ) (e : α) :
    (c : Call Unit σ α β) → c.Reply → Prop
  | remove : Undoes w r e (.remove r e) true
  | removeByName : (∀ f ∈ (w.registry r).store.filters, f.Returns) →
      Undoes w r e (.removeByName r (w.nameOf r e)) (.ok (some e))

/-- The last member is the first that equals itself, if those before it do not. -/
theorem eraseP_append_singleton {same : α → α → Bool} {l : List α} {t : α}
    (different : ∀ x ∈ l, ¬ same x t) (self : same t t) :
    (l ++ [t]).eraseP (same · t) = l := by
  rw [List.eraseP_append_right _ different]
  show l ++ List.eraseP (same · t) (t :: []) = l
  rw [List.eraseP_cons_of_pos (p := (same · t)) self, List.append_nil]

namespace World

/-- An entity can be added to a registry: no member that the registry shows has its name, all
filters accept it, and no member of the store equals it. -/
structure Fresh (same : α → α → Bool) (r : ℕ) (l : List α) (e : α) (w : World Unit σ α β) :
    Prop where
  free : ∀ x ∈ w.shown (w.registry r).store, w.nameOf r x ≠ w.nameOf r e
  accepts : (w.registry r).store.accepts () e
  different : ∀ x ∈ l, ¬ same x ((w.registry r).store.widen () e)

namespace Fresh

variable {C : Client Unit σ α β} {w : World Unit σ α β} {r i ch : ℕ} {e : α} {l : List α}
  {same : α → α → Bool}

theorem of_makes (family : Family i ch (w.registry r).toParts)
    (store : w.stores[i]? = some ⟨l, .distinct fun _ => same⟩) (h : w.Makes C r (.add r e)) :
    w.Fresh same r l e ∧
      w.respond C (.add r e) = (w.setMembers i (l ++ [(w.registry r).store.widen () e]),
        .tell (w.registry r).channel .added e (.ok true)) := by
  obtain ⟨a, M, grants, hresp⟩ := h
  cases grants with
  | add free accepts settled inserted =>
    obtain ⟨rfl, -⟩ := Prod.mk.inj settled
    rw [family.store_number, store_of_getElem? store] at inserted
    obtain ⟨different, rfl⟩ := Discipline.insert_distinct_eq_some_iff.1 inserted
    rw [family.store_number] at hresp
    exact ⟨⟨free, accepts, different⟩, hresp⟩

variable (h : w.Fresh same r l e) (family : Family i ch (w.registry r).toParts)
  (store : w.stores[i]? = some ⟨l, .distinct fun _ => same⟩) {w' : World Unit σ α β} {client : σ}
  (after : w' = { w.setMembers i (l ++ [(w.registry r).store.widen () e]) with client })

omit h family in
include store after in
theorem store_after : w'.store i =
    ⟨l ++ [(w.registry r).store.widen () e], .distinct fun _ => same⟩ := by
  rw [after]
  exact store_setMembers store _

omit h family store in
include after in
theorem registry_after : w'.registry r = w.registry r := by
  rw [after]
  rfl

include h family store after

theorem erase? (reflexive : ∀ x, same x x) :
    w'.erase? (w.registry r).store e = some (w'.setMembers i l) := by
  refine erase?_eq_some_iff.2 ⟨h.accepts, l, ?_, by rw [family.store_number]⟩
  rw [family.store_number, store_after store after]
  apply Discipline.erase_distinct_eq_some_iff.2
  refine ⟨⟨_, List.mem_append_right _ (List.mem_singleton_self _), reflexive _⟩, ?_⟩
  exact (eraseP_append_singleton h.different (reflexive _)).symm

theorem direct (returns : ∀ f ∈ (w.registry r).store.filters, f.Returns) :
    w'.direct r (w.nameOf r e) = some e := by
  have shown : w'.shown (w.registry r).store = w.shown (w.registry r).store ++ [e] := by
    rw [shown_eq, shown_eq, family.store_number, store_after store after, store_of_getElem? store,
      List.filterMap_append]
    congr 1
    rw [List.filterMap_cons, StoreRef.narrowAll_widen returns h.accepts]
    rfl
  have nameOf : w'.nameOf r = w.nameOf r := by
    rw [after]
    rfl
  rw [direct_eq, registry_after after, shown, nameOf, List.find?_append, List.find?_eq_none.2]
  · rw [Option.none_or]
    exact List.find?_cons_of_pos (beq_self_eq_true (w.nameOf r e))
  · intro x hx
    rw [beq_iff_eq]
    exact h.free x hx

/-- What was just added is removed again. -/
theorem respond_undoes (reflexive : ∀ x, same x x) {c : Call Unit σ α β} {b : c.Reply}
    (undoes : c.Undoes w r e b) :
    w'.respond C c = (w'.setMembers i l, .tell (w.registry r).channel .removed e b) := by
  have erased := h.erase? family store after reflexive
  cases undoes with
  | remove => simp only [respond, registry_after after, erased]
  | removeByName returns =>
    simp only [respond, registry_after after, erased, h.direct family store after returns]

end Fresh

end World

/-- **An addition is taken back.** Let an entity `e` be added to a registry `r` over a store, or to
a view of one, of a view of that and so on. The store compares entities by any relation in which
each is related to itself, and the listeners of the channel only observe. Then the addition is
either refused, and the next moment has another answer than that it was made, or the following
holds.

The addition ends with what `e` is widened to as the last member of the store, and the listeners of
the channel have been told once that it was added. At any moment at which the world is as then, but
for the client's own state, `e` can be taken back: a removal of `e`, or of its name if all filters
show `e` as itself, is answered with `true` or with `e`, and ends. The world is then what it was
before the addition, but for the client's own state, and the listeners have been told once that the
same entity was removed. -/
theorem remove_undoes_add {C : Client Unit σ α β} (ρ : Run C) (n r i ch : ℕ) (e : α) (l : List α)
    (same : α → α → Bool) (k : Except RegistryError Bool → Prog Unit σ α β Verdict)
    (reflexive : ∀ x, same x x) (family : Family i ch ((ρ n).world.registry r).toParts)
    (store : (ρ n).world.stores[i]? = some ⟨l, .distinct fun _ => same⟩)
    (observed : (ρ n).world.Observed C ch) (call : (ρ n).control = .call (.add r e) k) :
    let w := (ρ n).world
    let t := (w.registry r).store.widen () e
    (∃ a client, a ≠ .ok true ∧ ρ (n + 1) = ⟨{ w with client }, (ρ n).stack, k a⟩) ∨
      ∃ j client, ρ.Ends n j ∧
        ρ j = ⟨{ w.setMembers i (l ++ [t]) with client }, (ρ n).stack, k (.ok true)⟩ ∧
        ρ.Tells ch n j .added [t] ∧
        ∀ m c b k', c.Undoes w r e b →
          (∃ client, (ρ m).world = { (ρ j).world with client }) → (ρ m).control = .call c k' →
            ∃ j' client, ρ.Ends m j' ∧ ρ j' = ⟨{ w with client }, (ρ m).stack, k' b⟩ ∧
              ρ.Tells ch m j' .removed [t] := by
  intro w t
  rcases w.respond_add C r e with refuses | makes
  · obtain ⟨-, a, client, refusal, next⟩ := Run.succ_of_refuses call refuses
    refine .inl ⟨a, client, ?_, next⟩
    rintro rfl
    rcases refusal with refusal | ⟨x, refusal⟩ <;> cases refusal
  · obtain ⟨fresh, hresp⟩ := World.Fresh.of_makes family store makes
    obtain ⟨j, client, ends, hj, tells⟩ := Run.tells_of_tell call hresp
      (by rw [family.channel_number]; exact observed)
    rw [family.channel_number, family.widen_eq] at tells
    refine .inr ⟨j, client, ends, hj, tells, ?_⟩
    rintro m c b k' undoes ⟨client', since⟩ call'
    have after : (ρ m).world = { w.setMembers i (l ++ [t]) with client := client' } := by
      rw [since, hj]
    have hresp' := fresh.respond_undoes (C := C) family store after reflexive undoes
    have observed' : (ρ m).world.Observed C (w.registry r).channel.number := by
      rw [family.channel_number, after]
      exact observed
    obtain ⟨j', client'', ends', hj', tells'⟩ := Run.tells_of_tell call' hresp' observed'
    rw [family.channel_number, family.widen_eq] at tells'
    refine ⟨j', client'', ends', ?_, tells'⟩
    have before : ((w.setMembers i (l ++ [t])).setMembers i l) = w := by
      rw [World.setMembers_setMembers]
      exact World.setMembers_self store
    rw [hj', after]
    show State.mk { (w.setMembers i (l ++ [t])).setMembers i l with client := client'' } _ _ = _
    rw [before]

/-! A registry of numbers, a view of those that are not zero, and a view of that which counts from
zero. Listeners of the registry note what they are told. A number is added through the last view and
is taken back by its name. -/

/-- What is done after the addition: the number is taken back. -/
def takeBack (_ : Except RegistryError Bool) : Prog Unit (List ℕ) ℕ Unit Verdict :=
  .call (.removeByName 0 "one") fun _ => .done (.ok ())

/-- The last view, and the program that adds and takes back. -/
def takeBackStart : State Unit (List ℕ) ℕ Unit where
  world :=
    { memory := ()
      client := []
      stores := [⟨[0, 3, 5], .distinct fun _ => (· == ·)⟩]
      channels := [{ added := [⟨[], ()⟩], removed := [⟨[], ()⟩] }]
      registries := [{ numbers.through fromZero with hooks := .default }] }
  stack := []
  control := .call (.add 0 0) takeBack

theorem remove_undoes_add_takeBack :
    ∃ (ρ : Run notes) (j m : ℕ), ρ 0 = takeBackStart ∧ ρ.Ends 0 j ∧
      ((ρ j).world.store 0).members = [0, 3, 5, 1] ∧ ρ.Ends j m ∧
      ((ρ m).world.store 0).members = [0, 3, 5] ∧
      ρ.collect (State.told 0 .added 0) 0 j = [1] ∧
      ρ.collect (State.told 0 .removed 0) j (m - j) = [1] := by
  let ρ := Run.of notes takeBackStart
  have observed : (ρ 0).world.Observed notes 0 := fun _ _ _ _ => .act fun _ _ => .done ()
  have family : Family 0 0 ((ρ 0).world.registry 0).toParts := .view _ _ (.view _ _ (.root _ _))
  rcases remove_undoes_add ρ 0 0 0 0 0 [0, 3, 5] (· == ·) takeBack beq_self_eq_true family rfl
    observed rfl with ⟨a, client, -, next⟩ | ⟨j, client, ends, hj, added, undone⟩
  · -- The addition is made, since there is a delivery at the next moment.
    have delivery : (ρ 1).stack.length = 1 := rfl
    rw [next] at delivery
    cases delivery
  · have returns : ∀ f ∈ ((ρ 0).world.registry 0).store.filters, f.Returns := by
      intro f hf
      obtain ⟨x, hx, rfl⟩ := List.mem_map.1 (show f ∈ fromZero.map Prod.fst from hf)
      exact returns_fromZero x hx
    obtain ⟨m, client', ends', hm, removed⟩ := undone j (.removeByName 0 "one") (.ok (some 0)) _
      (.removeByName returns) ⟨_, rfl⟩ (congrArg State.control hj)
    refine ⟨ρ, j, m, rfl, ends, ?_, ends', ?_, ?_, ?_⟩
    · rw [hj]
      rfl
    · rw [hm]
      rfl
    · exact added .added 0 ⟨[], ()⟩ rfl
    · exact removed .removed 0 ⟨[], ()⟩ (by rw [hj]; rfl)

end NameRegistry
