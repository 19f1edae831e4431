import NameRegistry.Proofs.Run
import NameRegistry.Proofs.World

/-!
# What changes the members of a store

* `Discipline.insert_distinct_eq_some_iff`, `Discipline.erase_distinct_eq_some_iff` : what becomes
  of members that are pairwise different.
* `Call.Takes`, `Call.Drops` : a call has a store, or a view of one, take an entity in or give one
  up. An addition to a registry does so only if no member has the entity's name.
* `StoreChange` : what a step does to one store: nothing, or one entity is taken in, or one is
  given up, through a view whose filters all accept it.
* `State.Next.store` : every step does one of these to every store.
* `Run.store_invariant` : so what each of these keeps, holds of a store as long as a run goes on.
* `World.insert?_distinct`, `World.erase?_distinct` : what becomes of an entity that a store of
  pairwise different members is to take in or give up, directly or through views.
-/

namespace NameRegistry

variable {μ σ α β : Type}

namespace Discipline

variable {same : μ → α → α → Bool} {m : μ} {e : α} {l l' : List α}

theorem insert_distinct_eq_some_iff :
    (distinct same).insert m e l = some l' ↔ (∀ x ∈ l, ¬ same m x e) ∧ l' = l ++ [e] := by
  constructor
  · intro h
    simp only [distinct] at h
    split_ifs at h with hany
    exact ⟨by simpa using hany, (Option.some.inj h).symm⟩
  · rintro ⟨h, rfl⟩
    have hany : ¬ l.any (same m · e) := by simpa using h
    simp only [distinct, if_neg hany]

theorem erase_distinct_eq_some_iff :
    (distinct same).erase m e l = some l' ↔
      (∃ x ∈ l, same m x e) ∧ l' = l.eraseP (same m · e) := by
  constructor
  · intro h
    simp only [distinct] at h
    split_ifs at h with hany
    exact ⟨List.any_eq_true.1 hany, (Option.some.inj h).symm⟩
  · rintro ⟨h, rfl⟩
    simp only [distinct, if_pos (List.any_eq_true.2 h)]

/-- Where the member that leaves was. -/
theorem exists_of_erase_distinct (h : (distinct same).erase m e l = some l') :
    ∃ before x after, l = before ++ x :: after ∧ l' = before ++ after ∧ same m x e ∧
      ∀ y ∈ before, ¬ same m y e := by
  obtain ⟨⟨y, hy, hs⟩, rfl⟩ := erase_distinct_eq_some_iff.1 h
  obtain ⟨x, before, after, hbefore, hx, hl, herase⟩ :=
    List.exists_of_eraseP (p := (same m · e)) hy hs
  exact ⟨before, x, after, hl, herase, hx, hbefore⟩

end Discipline

/-- A call has a store or a view take an entity in. -/
inductive Call.Takes (w : World μ σ α β) : Call μ σ α β → StoreRef μ α → α → Prop
  | add {r e} : w.direct r (w.nameOf r e) = none → Takes w (.add r e) (w.registry r).store e
  | insert {s e} : Takes w (.insert s e) s e

/-- A call has a store or a view give an entity up. -/
inductive Call.Drops (w : World μ σ α β) : Call μ σ α β → StoreRef μ α → α → Prop
  | remove {r e} : Drops w (.remove r e) (w.registry r).store e
  | removeByName {r name e} : w.direct r name = some e →
      Drops w (.removeByName r name) (w.registry r).store e
  | erase {s e} : Drops w (.erase s e) s e

variable [Memory μ α] {C : Client μ σ α β}

/-- What becomes of the store with a number in a step from a state. -/
inductive StoreChange (s : State μ σ α β) (i : Nat) (st : Store μ α) : Store μ α → Prop
  | none : StoreChange s i st st
  | taken {c k v e t m l} : s.control = .call c k → c.Takes s.world v e → v.number = i →
      v.accepts s.world.memory e →
      Memory.settle s.world.memory (v.widen s.world.memory e) = (t, m) →
      st.discipline.insert m t st.members = some l → StoreChange s i st { st with members := l }
  | dropped {c k v e l} : s.control = .call c k → c.Drops s.world v e → v.number = i →
      v.accepts s.world.memory e →
      st.discipline.erase s.world.memory (v.widen s.world.memory e) st.members = some l →
      StoreChange s i st { st with members := l }

namespace World

variable {w w' : World μ σ α β} {i : Nat} {st : Store μ α}

omit [Memory μ α] in
theorem store_of_getElem? (h : w.stores[i]? = some st) : w.store i = st := by
  rw [store, List.getD_eq_getElem?_getD, h, Option.getD_some]

omit [Memory μ α] in
theorem shown_of_getElem? (h : w.stores[i]? = some st) : w.shown (.root i) = st.members := by
  rw [shown_root, store_of_getElem? h]

omit [Memory μ α] in
theorem setMembers_getElem? (h : w.stores[i]? = some st) (j : Nat) (l : List α) :
    (w.setMembers j l).stores[i]? = some (if j = i then { st with members := l } else st) := by
  rw [setMembers, List.getElem?_modify, h]
  split_ifs <;> rfl

omit [Memory μ α] in
theorem store_setMembers (h : w.stores[i]? = some st) (l : List α) :
    (w.setMembers i l).store i = { st with members := l } := by
  refine store_of_getElem? ?_
  rw [setMembers_getElem? h, if_pos rfl]

omit [Memory μ α] in
theorem setMembers_setMembers (w : World μ σ α β) (i : Nat) (l l' : List α) :
    (w.setMembers i l).setMembers i l' = w.setMembers i l' := by
  simp only [setMembers, List.modify_modify_eq]
  rfl

omit [Memory μ α] in
theorem setMembers_self (h : w.stores[i]? = some st) : w.setMembers i st.members = w := by
  rw [← store_of_getElem? h, setMembers_store]

omit [Memory μ α] in
/-- A call that is answered at once, other than by a store, leaves the stores that there are. -/
theorem Quiet.store (h : w.Quiet w') (hi : w.stores[i]? = some st) : w'.stores[i]? = some st := by
  cases h with
  | openStore d =>
    rw [List.getElem?_append_left]
    · exact hi
    · exact (List.getElem?_eq_some_iff.1 hi).1
  | _ => exact hi

theorem insert?_getElem? {v : StoreRef μ α} {e : α} (h : w.insert? v e = some w')
    (hi : w.stores[i]? = some st) :
    (v.number ≠ i ∧ w'.stores[i]? = some st) ∨
      v.number = i ∧ v.accepts w.memory e ∧ ∃ t m l,
        Memory.settle w.memory (v.widen w.memory e) = (t, m) ∧
        st.discipline.insert m t st.members = some l ∧
        w'.stores[i]? = some { st with members := l } := by
  obtain ⟨ha, t, w₁, l, ht, hl, rfl⟩ := insert?_eq_some_iff.1 h
  cases ht
  have hset := setMembers_getElem? (w := (w.settle (v.widen w.memory e)).2) hi v.number l
  by_cases hv : v.number = i
  · rw [if_pos hv] at hset
    rw [hv, store_of_getElem? hi] at hl
    exact .inr ⟨hv, ha, _, _, l, rfl, hl, hset⟩
  · rw [if_neg hv] at hset
    exact .inl ⟨hv, hset⟩

omit [Memory μ α] in
theorem erase?_getElem? {v : StoreRef μ α} {e : α} (h : w.erase? v e = some w')
    (hi : w.stores[i]? = some st) :
    (v.number ≠ i ∧ w'.stores[i]? = some st) ∨
      v.number = i ∧ v.accepts w.memory e ∧ ∃ l,
        st.discipline.erase w.memory (v.widen w.memory e) st.members = some l ∧
        w'.stores[i]? = some { st with members := l } := by
  obtain ⟨ha, l, hl, rfl⟩ := erase?_eq_some_iff.1 h
  have hset := setMembers_getElem? hi v.number l
  by_cases hv : v.number = i
  · rw [if_pos hv] at hset
    rw [hv, store_of_getElem? hi] at hl
    exact .inr ⟨hv, ha, l, hl, hset⟩
  · rw [if_neg hv] at hset
    exact .inl ⟨hv, hset⟩

variable {stack : List (Frame μ σ α β)} {c : Call μ σ α β} {k : c.Reply → Prog μ σ α β Verdict}

theorem insert?_store {v : StoreRef μ α} {e : α} (h : w.insert? v e = some w')
    (hi : w.stores[i]? = some st) (hc : c.Takes w v e) :
    ∃ st', StoreChange ⟨w, stack, .call c k⟩ i st st' ∧ w'.stores[i]? = some st' := by
  rcases insert?_getElem? h hi with ⟨-, h⟩ | ⟨hv, ha, t, m, l, ht, hl, h⟩
  · exact ⟨st, .none, h⟩
  · exact ⟨_, .taken rfl hc hv ha ht hl, h⟩

theorem erase?_store {v : StoreRef μ α} {e : α} (h : w.erase? v e = some w')
    (hi : w.stores[i]? = some st) (hc : c.Drops w v e) :
    ∃ st', StoreChange ⟨w, stack, .call c k⟩ i st st' ∧ w'.stores[i]? = some st' := by
  rcases erase?_getElem? h hi with ⟨-, h⟩ | ⟨hv, ha, l, hl, h⟩
  · exact ⟨st, .none, h⟩
  · exact ⟨_, .dropped rfl hc hv ha hl, h⟩

theorem respond_store (stack : List (Frame μ σ α β)) (k : c.Reply → Prog μ σ α β Verdict)
    (hi : w.stores[i]? = some st) :
    ∃ st', StoreChange ⟨w, stack, .call c k⟩ i st st' ∧
      (w.respond C c).1.stores[i]? = some st' := by
  have h := responds (C := C) w c
  generalize w.respond C c = o at h
  cases h with
  | quiet h => exact ⟨st, .none, h.store hi⟩
  | insert h => exact insert?_store h hi .insert
  | add hd h => exact insert?_store h hi (.add hd)
  | erase h => exact erase?_store h hi .erase
  | remove h => exact erase?_store h hi .remove
  | removeByName hd h => exact erase?_store h hi (.removeByName hd)
  | fire | find | run => exact ⟨st, .none, hi⟩

end World

namespace State

variable {s s' : State μ σ α β} {i : Nat} {st : Store μ α}

theorem Step.store (h : Step C s s') (hi : s.world.stores[i]? = some st) :
    ∃ st', StoreChange s i st st' ∧ s'.world.stores[i]? = some st' := by
  obtain ⟨w, stack, p⟩ := s
  rcases h.touch with ⟨c, k, rfl, ht⟩ | ⟨-, ht⟩
  · rw [ht.stores_eq]
    exact World.respond_store stack k hi
  · rw [ht.stores_eq]
    exact ⟨st, .none, hi⟩

/-- A step takes one entity into a store, or has it give one up, or does nothing to it. -/
theorem Next.store (h : Next C s s') (hi : s.world.stores[i]? = some st) :
    ∃ st', StoreChange s i st st' ∧ s'.world.stores[i]? = some st' := by
  cases h with
  | step h => exact (step_eq_some_iff.1 h).store hi
  | begin p h => exact ⟨st, .none, hi⟩

end State

/-- What every change keeps that is made to a store from one moment to another, holds of the store
at the end if it holds at the beginning. -/
theorem Run.store_invariant (ρ : Run C) {i n m : ℕ} (le : n ≤ m) {P : Store μ α → Prop}
    (start : ∃ st, (ρ n).world.stores[i]? = some st ∧ P st)
    (step : ∀ j, n ≤ j → j < m → ∀ st st', (ρ j).world.stores[i]? = some st →
      StoreChange (ρ j) i st st' → P st → P st') :
    ∃ st, (ρ m).world.stores[i]? = some st ∧ P st := by
  induction m, le using Nat.le_induction with
  | base => exact start
  | succ m hm ih =>
    obtain ⟨st, hi, hP⟩ := ih fun j hj hj' => step j hj (by omega)
    obtain ⟨st', change, hi'⟩ := (ρ.next m).store hi
    exact ⟨st', hi', step m hm (by omega) st st' hi change hP⟩

/-! ## Stores of plain values -/

namespace World

variable {C : Client Unit σ α β} {w : World Unit σ α β} {i : ℕ} {same : α → α → Bool} {l : List α}
  (store : w.stores[i]? = some ⟨l, .distinct fun _ => same⟩)

include store

section

variable {s : StoreRef Unit α} (number : s.number = i) (e : α)

include number

/-- An entity is taken in if all filters accept it and no member equals it. -/
theorem insert?_distinct : w.insert? s e =
    if s.accepts () e ∧ ∀ x ∈ l, ¬ same x (s.widen () e) then
      some (w.setMembers i (l ++ [s.widen () e]))
    else none := by
  split_ifs with h
  · refine insert?_eq_some_iff.2 ⟨h.1, _, w, l ++ [s.widen () e], rfl, ?_, by rw [number]⟩
    rw [number, store_of_getElem? store]
    exact Discipline.insert_distinct_eq_some_iff.2 ⟨h.2, rfl⟩
  · refine Option.eq_none_iff_forall_ne_some.2 fun w' hw => h ?_
    obtain ⟨accepts, t, w₁, l', settled, inserted, -⟩ := insert?_eq_some_iff.1 hw
    obtain ⟨rfl, -⟩ := Prod.mk.inj settled
    rw [number, store_of_getElem? store] at inserted
    exact ⟨accepts, (Discipline.insert_distinct_eq_some_iff.1 inserted).1⟩

/-- An entity is given up if all filters accept it and a member equals it. -/
theorem erase?_distinct : w.erase? s e =
    if s.accepts () e ∧ ∃ x ∈ l, same x (s.widen () e) then
      some (w.setMembers i (l.eraseP (same · (s.widen () e))))
    else none := by
  split_ifs with h
  · refine erase?_eq_some_iff.2 ⟨h.1, _, ?_, by rw [number]⟩
    rw [number, store_of_getElem? store]
    exact Discipline.erase_distinct_eq_some_iff.2 ⟨h.2, rfl⟩
  · refine Option.eq_none_iff_forall_ne_some.2 fun w' hw => h ?_
    obtain ⟨accepts, l', erased, -⟩ := erase?_eq_some_iff.1 hw
    rw [number, store_of_getElem? store] at erased
    exact ⟨accepts, (Discipline.erase_distinct_eq_some_iff.1 erased).1⟩

end

/-- An addition to a registry that is no view, of an entity whose name is free, is made if no member
equals the entity. -/
theorem respond_add_distinct {r : ℕ} {e : α} (root : (w.registry r).store = .root i)
    (free : ∀ x ∈ l, w.nameOf r x ≠ w.nameOf r e) :
    w.respond C (.add r e) =
      if ∀ x ∈ l, ¬ same x e then
        (w.setMembers i (l ++ [e]), .tell (w.registry r).channel .added e (.ok true))
      else (w, .answer (.ok false)) := by
  have shown : w.shown (w.registry r).store = l := by
    rw [root, shown_of_getElem? store]
  have direct : w.direct r (w.nameOf r e) = none := by
    rw [direct_eq_none_iff, shown]
    exact free
  rw [respond_add_of_free direct, root, insert?_distinct store rfl]
  simp only [StoreRef.accepts, StoreRef.widen, true_and]
  split_ifs <;> rfl

end World

end NameRegistry
