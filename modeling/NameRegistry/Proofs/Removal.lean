import NameRegistry.Proofs.AllOrNothing
import NameRegistry.Proofs.Hidden
import NameRegistry.Proofs.Namesakes
import Mathlib.Data.List.Pairwise

/-!
# Which member leaves

A store is asked to give up an entity, and the first member that equals it leaves. The members are
pairwise different, so where equality is symmetric, a member that is given up leaves itself.

* `Store.Apart` : no member of a store equals a later one. Every run keeps this
  (`Run.store_apart`).
* `World.direct_eq_some_iff` : a plain look-up finds what a view shows of a member, the first with
  the name.
* `removal_announces` : the member that leaves equals the entity that the listeners are told. If it
  was removed by its name, it is that entity.
* `not_removal_announces_leaver` : a member that is removed as an entity need not have the name that
  the listeners are told.
* `removeByName_exact` : what a removal by name through a view takes away.

Entities are plain values here. A registry of the family of a store and a channel may be at the end
of any chain of views.
-/

namespace NameRegistry

variable {μ σ α β : Type}

/-! ## What a view shows of a member -/

theorem StoreRef.accepts_of_narrowAll {s : StoreRef μ α} (hs : ∀ f ∈ s.filters, f.Restores) {m : μ}
    {t e : α} (h : narrowAll m s.filters t = some e) : s.accepts m e := by
  induction s generalizing e with
  | root i => rfl
  | view p f ih =>
    simp only [filters, List.forall_mem_append, List.forall_mem_singleton] at hs
    rw [filters, narrowAll_append] at h
    obtain ⟨u, hu, hf⟩ := Option.bind_eq_some_iff.1 h
    have hn : f.narrow m u = some e := by simpa [narrowAll] using hf
    have ha : f.accepts m e := by rw [Filter.accepts, hs.2 m u e hn, hn, Option.isSome_some]
    rw [accepts, hs.2 m u e hn, ha, Bool.true_and]
    exact ih hs.1 hu

/-- A plain look-up finds what is shown of a member, the first that is shown under the name. -/
theorem World.direct_eq_some_iff {w : World μ σ α β} {r : ℕ} {name : String} {e : α} :
    w.direct r name = some e ↔ w.nameOf r e = name ∧ ∃ before t after,
      (w.store (w.registry r).store.number).members = before ++ t :: after ∧
        narrowAll w.memory (w.registry r).store.filters t = some e ∧
        ∀ x ∈ before, ∀ y, narrowAll w.memory (w.registry r).store.filters x = some y →
          w.nameOf r y ≠ name := by
  rw [direct_eq, shown_eq, List.find?_filterMap, Option.bind_eq_some_iff]
  constructor
  · rintro ⟨t, ht, he⟩
    obtain ⟨hname, before, after, hl, hbefore⟩ := List.find?_eq_some_iff_append.1 ht
    refine ⟨by simpa [he] using hname, before, t, after, hl, he, fun x hx y hy => ?_⟩
    simpa [hy] using hbefore x hx
  · rintro ⟨hname, before, t, after, hl, he, hbefore⟩
    refine ⟨t, List.find?_eq_some_iff_append.2 ⟨by simp [he, hname], before, after, hl, ?_⟩, he⟩
    intro x hx
    cases hy : narrowAll w.memory (w.registry r).store.filters x with
    | none => rfl
    | some y => simpa using hbefore x hx y hy

theorem World.widen_mem_of_direct {w : World μ σ α β} {r : ℕ} {name : String} {e : α}
    (restores : ∀ f ∈ (w.registry r).store.filters, f.Restores) (h : w.direct r name = some e) :
    (w.registry r).store.widen w.memory e ∈
      (w.store (w.registry r).store.number).members := by
  obtain ⟨-, before, t, after, hl, he, -⟩ := direct_eq_some_iff.1 h
  rw [StoreRef.widen_of_narrowAll restores he, hl]
  exact List.mem_append_right before List.mem_cons_self

/-! ## Members that are pairwise different -/

variable {same : α → α → Bool}

/-- A store of which no member equals a later one, and which keeps it that way. -/
structure Store.Apart (same : α → α → Bool) (st : Store Unit α) : Prop where
  discipline : st.discipline = .distinct fun _ => same
  members : st.members.Pairwise fun x y => ¬ same x y

theorem StoreChange.apart {s : State Unit σ α β} {i : ℕ} {st st' : Store Unit α}
    (h : StoreChange s i st st') (ha : st.Apart same) : st'.Apart same := by
  obtain ⟨hd, hp⟩ := ha
  cases h with
  | none => exact ⟨hd, hp⟩
  | taken _ _ _ _ _ hl =>
    rw [hd] at hl
    obtain ⟨hnew, rfl⟩ := Discipline.insert_distinct_eq_some_iff.1 hl
    refine ⟨hd, List.pairwise_append.2 ⟨hp, List.pairwise_singleton _ _, ?_⟩⟩
    intro x hx y hy
    obtain rfl := List.mem_singleton.1 hy
    exact hnew x hx
  | dropped _ _ _ _ hl =>
    rw [hd] at hl
    obtain ⟨before, x, after, hm, rfl, -⟩ := Discipline.exists_of_erase_distinct hl
    refine ⟨hd, hp.sublist ?_⟩
    rw [hm]
    exact (List.sublist_cons_self x after).append_left before

/-- A store that had no members when a run began has none that equals a later one. -/
theorem Run.store_apart {C : Client Unit σ α β} (ρ : Run C) {i : ℕ}
    (fresh : (ρ 0).world.stores[i]? = some ⟨[], .distinct fun _ => same⟩) (n : ℕ) :
    ∃ st, (ρ n).world.stores[i]? = some st ∧ st.Apart same := by
  refine ρ.store_invariant (Nat.zero_le n) ⟨_, fresh, rfl, List.Pairwise.nil⟩ ?_
  intro j _ _ st st' _ change ha
  exact change.apart ha

namespace Store.Apart

variable {st : Store Unit α} (h : st.Apart same) {before after : List α} {t x : α}

include h

/-- A member that equals itself leaves if it is given up. -/
theorem erase_eq (hl : st.members = before ++ t :: after) (ht : same t t) :
    st.discipline.erase () t st.members = some (before ++ after) := by
  have hp := h.members
  rw [hl, List.pairwise_append] at hp
  have hbefore : ∀ y ∈ before, ¬ same y t := fun y hy => hp.2.2 y hy t List.mem_cons_self
  rw [h.discipline, hl]
  refine Discipline.erase_distinct_eq_some_iff.2
    ⟨⟨t, List.mem_append_right before List.mem_cons_self, ht⟩, ?_⟩
  rw [List.eraseP_append_right _ hbefore, List.eraseP_cons_of_pos (p := (same · t)) ht]

theorem eq_of_same (symm : ∀ x y, same x y → same y x) (hx : x ∈ st.members) (ht : t ∈ st.members)
    (hs : same x t) : t = x := by
  have differ : Std.Symm fun x y => ¬ same x y := ⟨fun _ _ hn hs => hn (symm _ _ hs)⟩
  by_contra hne
  exact h.members.forall ht hx hne (symm _ _ hs)

end Store.Apart

/-! ## Removals -/

variable {C : Client Unit σ α β}

namespace World.Grants

variable {w : World Unit σ α β} {r : ℕ}

theorem entity_eq {e : α} {a} {M : Mutation Unit α} (h : w.Grants r (.remove r e) a M) :
    M.entity = e := by
  cases h
  rfl

theorem direct_eq {name : String} {a} {M : Mutation Unit α}
    (h : w.Grants r (.removeByName r name) a M) : w.direct r name = some M.entity := by
  cases h
  assumption

/-- A removal that is granted takes a member away that equals the entity, widened to one of the
store. -/
theorem leaves {c : Call Unit σ α β} {a : c.Reply} {M : Mutation Unit α} (h : w.Grants r c a M)
    (hM : M.change = .removed)
    (hd : (w.store (w.registry r).store.number).discipline = .distinct fun _ => same) :
    ∃ before x after,
      (w.store (w.registry r).store.number).members = before ++ x :: after ∧
        M.members = before ++ after ∧ same x ((w.registry r).store.widen () M.entity) := by
  cases h with
  | add => cases hM
  | remove _ hl | removeByName _ _ hl =>
    rw [hd] at hl
    obtain ⟨before, x, after, hm, hm', hs, -⟩ := Discipline.exists_of_erase_distinct hl
    exact ⟨before, x, after, hm, hm', hs⟩

end World.Grants

/-- **What is said to be removed equals what was.** When a removal from a registry of a family over
a store and a channel is made, one member `x` leaves the store, and it equals the entity `t` that
the listeners of the channel are told. If an entity is removed, then `t` is that entity, widened to
one of the store. If a member is removed by its name, through filters that restore, and equality is
symmetric, then `t` is `x`.

So if the latter is so, or if equal entities have the same name, then `t` has the name of `x`, and a
listener behind filters that depend on the name is told exactly if they show `x`. -/
theorem removal_announces (ρ : Run C) {i ch : ℕ}
    (fresh : (ρ 0).world.stores[i]? = some ⟨[], .distinct fun _ => same⟩) (n r : ℕ)
    (family : Family i ch ((ρ n).world.registry r).toParts) (c : Call Unit σ α β)
    (k : c.Reply → Prog Unit σ α β Verdict) (mutates : c.Mutates r)
    (call : (ρ n).control = .call c k) (t : α) (fired : ⟨ch, .removed, t⟩ ∈ (ρ n).fired C ch) :
    ∃ before x after, ((ρ n).world.store i).members = before ++ x :: after ∧
      ((ρ (n + 1)).world.store i).members = before ++ after ∧ same x t ∧
      (∀ e, c = .remove r e → t = ((ρ n).world.registry r).store.widen () e) ∧
      ((∃ name, c = .removeByName r name) → (∀ x y, same x y → same y x) →
        (∀ f ∈ ((ρ n).world.registry r).store.filters, f.Restores) → t = x) ∧
      ∀ name : α → String, (t = x ∨ ∀ y z, same y z → name y = name z) →
        name t = name x ∧ ∀ l : Listener Unit α β,
          (∀ y z, name y = name z →
            (narrowAll () l.filters y).isSome = (narrowAll () l.filters z).isSome) →
          (l.hears () t ≠ [] ↔ (narrowAll () l.filters x).isSome) := by
  obtain ⟨st, hi, apart⟩ := ρ.store_apart fresh n
  have hst : (ρ n).world.store i = st := World.store_of_getElem? hi
  rcases (ρ n).world.respond_mutates C mutates with refuses | makes
  · -- Nothing is said to be removed if the removal is refused.
    rw [(Run.succ_of_refuses call refuses).1 ch] at fired
    cases fired
  · obtain ⟨a, M, u, m, grants, settled, events, next⟩ := Run.succ_of_makes call makes
    rw [events ch, if_pos family.channel_number, List.mem_singleton] at fired
    obtain ⟨-, hchange, rfl⟩ := Event.mk.inj fired
    obtain ⟨rfl, -⟩ := Prod.mk.inj settled
    obtain ⟨before, x, after, hl, hl', same_x⟩ := grants.leaves hchange.symm
      (by rw [family.store_number, hst, apart.discipline])
    rw [family.store_number, hst] at hl
    have leaver : ((ρ (n + 1)).world.store i).members = before ++ after := by
      rw [next, ← hl', family.store_number]
      exact congrArg Store.members (World.store_setMembers hi M.members)
    have itself : (∃ name, c = .removeByName r name) → (∀ x y, same x y → same y x) →
        (∀ f ∈ ((ρ n).world.registry r).store.filters, f.Restores) →
        ((ρ n).world.registry r).store.widen () M.entity = x := by
      rintro ⟨name, rfl⟩ symm restores
      have ht := World.widen_mem_of_direct restores grants.direct_eq
      rw [family.store_number, hst] at ht
      have hx : x ∈ st.members := by
        rw [hl]
        exact List.mem_append_right before List.mem_cons_self
      exact apart.eq_of_same symm hx ht same_x
    rw [family.widen_eq]
    refine ⟨before, x, after, hst ▸ hl, leaver, same_x, ?_, itself, ?_⟩
    · rintro e rfl
      rw [grants.entity_eq]
    · intro name hname
      have names : name (((ρ n).world.registry r).store.widen () M.entity) = name x := by
        rcases hname with rfl | hname
        · rfl
        · exact (hname _ _ same_x).symm
      refine ⟨names, fun l hl => ?_⟩
      rw [← hl _ _ names, Listener.hears]
      cases narrowAll () l.filters (((ρ n).world.registry r).store.widen () M.entity) <;> simp

/-! Entities are names with sizes, and are equal if they have the same size. An apple is added, and
then a banana of its size is removed. -/

def fruit : Parts Unit (String × ℕ) := ⟨fun _ e => e.1, "Fruit", .root 0, .root 0⟩

def sameSize (x y : String × ℕ) : Bool := x.2 == y.2

/-- No rules, and a listener that does nothing. -/
def shopper : Client Unit Unit (String × ℕ) Unit :=
  ⟨fun _ _ _ => .done (.ok ()), fun _ _ => .done ()⟩

def swapFruit : State Unit Unit (String × ℕ) Unit where
  world :=
    { memory := ()
      client := ()
      stores := [⟨[], .distinct fun _ => sameSize⟩]
      channels := [{}]
      registries := [{ fruit with hooks := .default }] }
  stack := []
  control := .call (.add 0 ("apple", 1)) fun _ => .call (.remove 0 ("banana", 1)) fun _ =>
    .done (.ok ())

theorem removal_announces_banana :
    ∃ ρ : Run shopper, ⟨0, .removed, ("banana", 1)⟩ ∈ (ρ 2).fired shopper 0 ∧
      ∃ before x after, ((ρ 2).world.store 0).members = before ++ x :: after ∧
        ((ρ 3).world.store 0).members = before ++ after ∧ sameSize x ("banana", 1) := by
  let ρ := Run.of shopper swapFruit
  have fired : ⟨0, .removed, ("banana", 1)⟩ ∈ (ρ 2).fired shopper 0 := List.mem_singleton.2 rfl
  obtain ⟨before, x, after, hl, hl', hs, -⟩ :=
    removal_announces ρ rfl 2 0 (.root _ _) _ _ (.remove ("banana", 1)) rfl _ fired
  exact ⟨ρ, fired, before, x, after, hl, hl', hs⟩

/-- In a run of a registry over a store that had no members, the entity that the listeners are told
when a removal is made need not have the name of the member that left. -/
theorem not_removal_announces_leaver :
    ¬ ∀ ρ : Run shopper, (ρ 0).world.stores[0]? = some ⟨[], .distinct fun _ => sameSize⟩ →
      ∀ n r, Family 0 0 ((ρ n).world.registry r).toParts →
        (∀ f ∈ ((ρ n).world.registry r).store.filters, f.Restores) →
        ∀ (c : Call Unit Unit (String × ℕ) Unit) k, c.Mutates r → (ρ n).control = .call c k →
          ∀ t, ⟨0, .removed, t⟩ ∈ (ρ n).fired shopper 0 →
            ∃ before x after, ((ρ n).world.store 0).members = before ++ x :: after ∧
              ((ρ (n + 1)).world.store 0).members = before ++ after ∧
              fruit.namer () t = fruit.namer () x := by
  intro h
  let ρ := Run.of shopper swapFruit
  obtain ⟨before, x, after, hl, -, hname⟩ := h ρ rfl 2 0 (.root _ _) (List.forall_mem_nil _) _ _
    (.remove ("banana", 1)) rfl ("banana", 1) (List.mem_singleton.2 rfl)
  have hx : x ∈ [("apple", 1)] := by
    rw [show [("apple", 1)] = before ++ x :: after from hl]
    exact List.mem_append_right before List.mem_cons_self
  obtain rfl := List.mem_singleton.1 hx
  exact absurd hname (by decide)

/-! ## Removals by name -/

/-- **A removal by name takes away what it found.** Let a registry be over a store that had no
members when the run began, or at the end of any chain of views of such a registry, of filters that
restore, and let an entity equal itself. A removal by name does not fail.

* If the registry shows no member under the name, nothing changes, and that is the answer.
* Otherwise the first member of the store that it shows under the name leaves, and the other members
  stay in their order. The listeners are about to be told that very member, and once they have been,
  what was shown of it is the answer. -/
theorem removeByName_exact (refl : ∀ t, same t t) (ρ : Run C) {i ch : ℕ}
    (fresh : (ρ 0).world.stores[i]? = some ⟨[], .distinct fun _ => same⟩) (n r : ℕ)
    (family : Family i ch ((ρ n).world.registry r).toParts)
    (restores : ∀ f ∈ ((ρ n).world.registry r).store.filters, f.Restores) (name : String)
    (k : Except RegistryError (Option α) → Prog Unit σ α β Verdict)
    (call : (ρ n).control = .call (.removeByName r name) k) :
    let w := (ρ n).world
    let s := (w.registry r).store
    (∀ e ∈ w.shown s, w.nameOf r e ≠ name) ∧ ρ (n + 1) = ⟨w, (ρ n).stack, k (.ok none)⟩ ∨
      ∃ before t after e, (w.store i).members = before ++ t :: after ∧
        narrowAll () s.filters t = some e ∧ w.nameOf r e = name ∧
        (∀ x ∈ before, ∀ y, narrowAll () s.filters x = some y → w.nameOf r y ≠ name) ∧
        (∀ c, (ρ n).fired C c = if ch = c then [⟨c, .removed, t⟩] else []) ∧
        ρ (n + 1) = ⟨w.setMembers i (before ++ after),
          .delivery ⟨ch, .removed, t⟩ 0 ((w.channel ch).listeners .removed) (k (.ok (some e))) ::
            (ρ n).stack, .done (.ok ())⟩ ∧
        ∀ j, ρ.Ends n j →
          (ρ j).control = k (.ok (some e)) ∨ ∃ message, (ρ j).control = .panic message := by
  intro w s
  cases hd : w.direct r name with
  | none =>
    refine .inl ⟨World.direct_eq_none_iff.1 hd, ?_⟩
    rw [Run.succ_of_call call]
    simp only [State.perform, World.respond, w, hd]
  | some e =>
    obtain ⟨st, hi, apart⟩ := ρ.store_apart fresh n
    have hst : w.store i = st := World.store_of_getElem? hi
    obtain ⟨hname, before, t, after, hl, he, hbefore⟩ := World.direct_eq_some_iff.1 hd
    have hwiden : s.widen () e = t := StoreRef.widen_of_narrowAll restores he
    rw [family.store_number, hst] at hl
    -- The store finds this member, and not another one that equals it.
    have herase : w.erase? s e = some (w.setMembers i (before ++ after)) := by
      refine World.erase?_eq_some_iff.2
        ⟨StoreRef.accepts_of_narrowAll restores he, before ++ after, ?_, ?_⟩
      · rw [family.store_number, hst, hwiden]
        exact apart.erase_eq hl (refl t)
      · rw [family.store_number]
    have hresp : w.respond C (.removeByName r name) = (w.setMembers i (before ++ after),
        .tell (w.registry r).channel .removed e (.ok (some e))) := by
      simp only [World.respond, hd, s] at herase ⊢
      rw [herase]
    have hevent : (w.registry r).channel.widen () e = t := by rw [family.widen_eq, hwiden]
    obtain ⟨events, next⟩ := Run.succ_of_tell call hresp rfl
    rw [family.channel_number] at events next
    refine .inr ⟨before, t, after, e, hst ▸ hl, he, hname, hbefore, ?_, ?_, fun j ends => ?_⟩
    · exact hevent ▸ events
    · exact hevent ▸ next
    · exact ends.control_of_delivery (by rw [next])

/-! A name is added without a mark to the registry, and with one through the view of those that are
marked. Then the name is removed through the view. -/

def removeMarked : Prog Unit Unit (Bool × String) Unit Verdict :=
  .call (.removeByName 1 "x") fun _ => .done (.ok ())

def removeNamesake : State Unit Unit (Bool × String) Unit :=
  { addNamesakes with
    control := .call (.add 0 (false, "x")) fun _ => .call (.add 1 (true, "x")) fun _ =>
      removeMarked }

/-- The name has been added twice, and is about to be removed. -/
def namesakesAdded : State Unit Unit (Bool × String) Unit where
  world := { addNamesakes.world with stores := [.ofDistinct [(false, "x"), (true, "x")]] }
  stack := []
  control := removeMarked

theorem removeByName_exact_namesake :
    ∃ ρ : Run silentClient, ((ρ 4).world.store 0).members = [(false, "x"), (true, "x")] ∧
      ∃ before t after, ((ρ 4).world.store 0).members = before ++ t :: after ∧ t.1 = true ∧
        ((ρ 5).world.store 0).members = before ++ after ∧
        (ρ 4).fired silentClient 0 = [⟨0, .removed, t⟩] := by
  let ρ := Run.of silentClient removeNamesake
  have added : ρ 4 = namesakesAdded := rfl
  have fresh : (ρ 0).world.stores[0]? = some (.ofDistinct []) := rfl
  have family : Family 0 0 ((ρ 4).world.registry 1).toParts := by
    rw [added]
    exact .view _ _ (.root _ _)
  have restores : ∀ f ∈ ((ρ 4).world.registry 1).store.filters, f.Restores := by
    rw [added]
    exact List.forall_mem_singleton.2 (Filter.restores_matching _)
  have call : (ρ 4).control = .call (.removeByName 1 "x") fun _ => .done (.ok ()) := by
    rw [added]
    rfl
  have h := removeByName_exact (by simp) ρ fresh 4 1 family restores "x" _ call
  refine ⟨ρ, by rw [added]; rfl, ?_⟩
  simp only [added] at h ⊢
  rcases h with ⟨none, -⟩ | ⟨before, t, after, e, hl, he, -, -, fired, next, -⟩
  · exact absurd rfl (none (true, "x") (by decide))
  · have shown : narrowAll () [.matching fun _ (x : Bool × String) => x.1] t = some e := he
    have marked : t.1 = true := by
      by_contra hm
      simp [narrowAll, Filter.matching, hm] at shown
    exact ⟨before, t, after, hl, marked, by rw [next]; rfl, fired 0⟩

end NameRegistry
