import NameRegistry.Proofs.Hidden

/-!
# A view changes only what it shows

What is done through a view leaves the members that the view does not show where they are.

* `World.hidden` : the members of the store behind a view that the view does not show.
* `Call.Confined` : a call changes the store behind a view only through the view.
* `ViewChange` : what a step makes of the members then: nothing, or one entity that the view shows
  comes last, or one that it shows leaves.

An addition through the view is of an entity that all filters accept, and the view shows it as that
entity. A removal takes away the first member that equals such an entity. The caller need not have
meant this member, but equal entities are shown alike, so the view shows it too.

Main result: `hidden_unchanged`.
-/

namespace NameRegistry

variable {μ σ α β : Type}

/-- The members of the store behind a view that the view does not show, in store order. -/
def World.hidden (w : World μ σ α β) (s : StoreRef μ α) : List α :=
  (w.store s.number).members.filter fun t => (narrowAll w.memory s.filters t).isNone

/-- A call changes the store behind a view only through the view. -/
def Call.Confined (w : World μ σ α β) (s : StoreRef μ α) : Call μ σ α β → Prop
  | .add r _ | .remove r _ | .removeByName r _ =>
    (w.registry r).store = s ∨ (w.registry r).store.number ≠ s.number
  | .insert v _ | .erase v _ => v = s ∨ v.number ≠ s.number
  | _ => True

namespace Call.Confined

variable {w : World μ σ α β} {s v : StoreRef μ α} {c : Call μ σ α β} {e : α}

theorem eq_of_takes (hc : c.Confined w s) (ht : c.Takes w v e) (hv : v.number = s.number) :
    v = s := by
  cases ht with
  | add | insert => exact hc.resolve_right fun hne => hne hv

theorem eq_of_drops (hc : c.Confined w s) (hd : c.Drops w v e) (hv : v.number = s.number) :
    v = s := by
  cases hd with
  | remove | removeByName | erase => exact hc.resolve_right fun hne => hne hv

end Call.Confined

/-! ## One step -/

/-- What a step makes of the members of the store behind a view if it changes them only through the
view. -/
inductive ViewChange (x : State Unit σ α β) (s : StoreRef Unit α) : List α → List α → Prop
  | none (l : List α) : ViewChange x s l l
  | taken {c k t e} (l : List α) : x.control = .call c k → c.Takes x.world s e →
      narrowAll () s.filters t = some e → ViewChange x s l (l ++ [t])
  | dropped {c k d t e} (before after : List α) : x.control = .call c k → c.Drops x.world s d →
      narrowAll () s.filters t = some e → ViewChange x s (before ++ t :: after) (before ++ after)

section

variable {x : State Unit σ α β} {s : StoreRef Unit α} {l l' : List α}

theorem ViewChange.hidden_eq (h : ViewChange x s l l') :
    (l'.filter fun t => (narrowAll () s.filters t).isNone) =
      l.filter fun t => (narrowAll () s.filters t).isNone := by
  cases h with
  | none => rfl
  | taken l _ _ ht => simp [ht]
  | dropped before after _ _ ht => simp [ht]

/-- What is shown gets one entry more at the end, or one less. -/
theorem ViewChange.shown (h : ViewChange x s l l') :
    let shown (l : List α) := l.filterMap (narrowAll () s.filters)
    l' = l ∨
      (∃ c k e, x.control = .call c k ∧ c.Takes x.world s e ∧ shown l' = shown l ++ [e]) ∨
      ∃ c k d before e after, x.control = .call c k ∧ c.Drops x.world s d ∧
        shown l = before ++ e :: after ∧ shown l' = before ++ after := by
  intro shown
  cases h with
  | none => exact .inl rfl
  | taken l hk hc ht => exact .inr (.inl ⟨_, _, _, hk, hc, by simp [shown, ht]⟩)
  | @dropped c k d t e before after hk hc ht =>
    exact .inr (.inr ⟨c, k, d, shown before, e, shown after, hk, hc, by simp [shown, ht],
      by simp [shown]⟩)

variable {same : α → α → Bool} {st st' : Store Unit α}

/-- A store of different members is changed through the view by entities that the view shows. -/
theorem StoreChange.view (h : StoreChange x s.number st st')
    (hd : st.discipline = .distinct fun _ => same) (returns : ∀ f ∈ s.filters, f.Returns)
    (alike : ∀ y z, same y z →
      (narrowAll () s.filters y).isSome = (narrowAll () s.filters z).isSome)
    (hc : ∀ c k, x.control = .call c k → c.Confined x.world s) :
    (st'.discipline = .distinct fun _ => same) ∧ ViewChange x s st.members st'.members := by
  cases h with
  | none => exact ⟨hd, .none _⟩
  | taken hk ht hv ha hset hl =>
    obtain rfl := (hc _ _ hk).eq_of_takes ht hv
    obtain ⟨rfl, -⟩ := Prod.mk.inj hset
    rw [hd] at hl
    obtain ⟨-, rfl⟩ := Discipline.insert_distinct_eq_some_iff.1 hl
    exact ⟨hd, .taken _ hk ht (StoreRef.narrowAll_widen returns ha)⟩
  | @dropped c k v e l hk hdrop hv ha hl =>
    obtain rfl := (hc _ _ hk).eq_of_drops hdrop hv
    rw [hd] at hl
    obtain ⟨before, t, after, hm, rfl, hs, -⟩ := Discipline.exists_of_erase_distinct hl
    -- The member that leaves need not be the entity that was asked for, but is shown like it.
    have shown : (narrowAll () v.filters t).isSome := by
      rw [alike _ _ hs, StoreRef.narrowAll_widen returns ha, Option.isSome_some]
    obtain ⟨y, hy⟩ := Option.isSome_iff_exists.1 shown
    refine ⟨hd, ?_⟩
    rw [hm]
    exact .dropped before after hk hdrop hy

end

/-! ## Runs -/

variable {C : Client Unit σ α β}

/-- As long as the store behind a view is changed only through the view, what the view does not show
stays. -/
theorem Run.hidden_eq (ρ : Run C) {s : StoreRef Unit α} {same : α → α → Bool} {n m : ℕ} {l : List α}
    (store : (ρ n).world.stores[s.number]? = some ⟨l, .distinct fun _ => same⟩)
    (returns : ∀ f ∈ s.filters, f.Returns)
    (alike : ∀ y z, same y z →
      (narrowAll () s.filters y).isSome = (narrowAll () s.filters z).isSome)
    (le : n ≤ m)
    (confined : ∀ j, n ≤ j → j < m → ∀ c k, (ρ j).control = .call c k →
      c.Confined (ρ j).world s) :
    ∃ st, (ρ m).world.stores[s.number]? = some st ∧ (st.discipline = .distinct fun _ => same) ∧
      (st.members.filter fun t => (narrowAll () s.filters t).isNone) =
        l.filter fun t => (narrowAll () s.filters t).isNone := by
  refine ρ.store_invariant le ⟨_, store, rfl, rfl⟩ ?_
  rintro j hj hj' st st' - change ⟨hd, heq⟩
  obtain ⟨hd', hview⟩ := change.view hd returns alike (confined j hj hj')
  exact ⟨hd', hview.hidden_eq.trans heq⟩

/-- **A view changes only what it shows.** Let a registry `v` be at the end of any chain of views,
of filters that return what is theirs, over a store of different members of which equal ones are
shown alike. From one moment to another, let the store be changed only through `v`, as it is in an
operation on `v` whose rules act through `v` and whose listeners only observe. Then the members that
`v` does not show are at the end what they were, in the same order. In each step on the way, the
store is left as it is, or an entity is added through `v` and comes last in what `v` shows, or a
removal through `v` deletes one entry of what it shows. -/
theorem hidden_unchanged (ρ : Run C) {same : α → α → Bool} (n m v : ℕ) (le : n ≤ m)
    (view : v < (ρ n).world.registries.length)
    (returns : ∀ f ∈ ((ρ n).world.registry v).store.filters, f.Returns)
    (alike : ∀ x y, same x y →
      (narrowAll () ((ρ n).world.registry v).store.filters x).isSome =
        (narrowAll () ((ρ n).world.registry v).store.filters y).isSome)
    (store : ∃ l, (ρ n).world.stores[((ρ n).world.registry v).store.number]? =
      some ⟨l, .distinct fun _ => same⟩)
    (confined : ∀ j, n ≤ j → j < m → ∀ c k, (ρ j).control = .call c k →
      c.Confined (ρ j).world ((ρ n).world.registry v).store) :
    let s := ((ρ n).world.registry v).store
    let shown j := ((ρ j).world.listing v).members
    (ρ m).world.hidden s = (ρ n).world.hidden s ∧
      ∀ j, n ≤ j → j < m →
        (ρ (j + 1)).world.store s.number = (ρ j).world.store s.number ∧ shown (j + 1) = shown j ∨
        (∃ c k e, (ρ j).control = .call c k ∧ c.Takes (ρ j).world s e ∧
          shown (j + 1) = shown j ++ [e]) ∨
        ∃ c k d before e after, (ρ j).control = .call c k ∧ c.Drops (ρ j).world s d ∧
          shown j = before ++ e :: after ∧ shown (j + 1) = before ++ after := by
  intro s shown
  obtain ⟨l, hl⟩ := store
  -- The view keeps its parts, so it shows what the same filters show of the store.
  have shown_eq {j : ℕ} (hj : n ≤ j) {st : Store Unit α}
      (hst : (ρ j).world.stores[s.number]? = some st) :
      shown j = st.members.filterMap (narrowAll () s.filters) := by
    have hs : ((ρ j).world.registry v).store = s :=
      congrArg Parts.store ((ρ.grows hj).parts v view).2
    show ((ρ j).world.listing v).members = _
    rw [World.members_eq_shown, World.shown_eq, hs, World.store_of_getElem? hst]
  refine ⟨?_, fun j hj hj' => ?_⟩
  · obtain ⟨st, hi, -, hidden⟩ := ρ.hidden_eq hl returns alike le confined
    rw [World.hidden, World.hidden, World.store_of_getElem? hl, World.store_of_getElem? hi]
    exact hidden
  · obtain ⟨st, hi, hd, -⟩ :=
      ρ.hidden_eq hl returns alike hj fun i hi hi' => confined i hi (by omega)
    obtain ⟨st', h, hi'⟩ := (ρ.next j).store hi
    obtain ⟨hd', change⟩ := h.view hd returns alike (confined j hj hj')
    rw [shown_eq hj hi, shown_eq (by omega) hi', World.store_of_getElem? hi,
      World.store_of_getElem? hi']
    refine change.shown.imp_left fun same_members => ⟨?_, by rw [same_members]⟩
    obtain ⟨members, discipline⟩ := st
    obtain ⟨members', discipline'⟩ := st'
    obtain rfl := same_members
    rw [show discipline' = discipline from hd'.trans hd.symm]

/-! A store of numbers, and a view of those that are not zero, with a rule that adds the number one
to it. The number is looked up through the view, and then another one is removed. -/

def maker : Client Unit Unit ℕ Unit where
  rule _ r _ := .call (.add r 1) fun _ => .done (.ok ())
  action _ _ := .done ()

def makerStart : State Unit Unit ℕ Unit where
  world :=
    { memory := ()
      client := ()
      stores := [.ofDistinct [0, 5]]
      channels := [{}]
      registries := [{ numbers.filtered (.matching fun _ e => e ≠ 0) "u32" with
        hooks := .default, rules := [⟨"one", ()⟩] }] }
  stack := []
  control := .call (.find 0 "one") fun _ => .call (.remove 0 5) fun _ => .done (.ok ())

theorem confined_maker (j : ℕ) (c) (k) (h : (Run.of maker makerStart j).control = .call c k) :
    c.Confined (Run.of maker makerStart j).world (makerStart.world.registry 0).store := by
  -- At the other moments no call is made.
  rcases j with _ | _ | _ | _ | _ | _ | _ | j <;> cases h
  · trivial
  · exact .inl rfl
  · exact .inl rfl

theorem hidden_unchanged_maker :
    ∃ ρ : Run maker, (ρ 0).world.shown (.root 0) = [0, 5] ∧ (ρ 6).world.shown (.root 0) = [0, 1] ∧
      ((ρ 6).world.listing 0).members = [1] ∧
      (ρ 6).world.hidden ((ρ 0).world.registry 0).store = [0] := by
  let ρ := Run.of maker makerStart
  have returns : ∀ f ∈ ((ρ 0).world.registry 0).store.filters, f.Returns :=
    List.forall_mem_singleton.2 (Filter.returns_matching _)
  have h := hidden_unchanged ρ 0 6 0 (Nat.zero_le 6) Nat.one_pos returns
    (fun x y h => by rw [eq_of_beq h]) ⟨_, rfl⟩ fun j _ _ => confined_maker j
  exact ⟨ρ, rfl, by decide, by decide, h.1⟩

end NameRegistry
