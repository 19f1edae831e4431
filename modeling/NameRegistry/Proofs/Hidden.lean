import NameRegistry.Proofs.Family
import NameRegistry.Proofs.FlatView

/-!
# Hidden members

What a view does not show makes no difference to those who use only the view.

* `Filter.Restores`, `Filter.Lossless` : what the filter shows of an entity, widens to that entity,
  and also the other way round.
* `Call.Through` : a call looks at the members of registries, and changes them, only for one of
  them.
* `World.Hides`, `State.Hides` : two moments that differ in the members of one store, of which a
  view shows the same.

The store compares an entity that is added or removed with all members, the hidden ones too. But an
entity that all filters accept is shown as itself (`StoreRef.narrowAll_widen`), and what is shown as
itself is the only entity shown so (`StoreRef.widen_of_narrowAll`). So a hidden member never equals
it, and the store does in both worlds the same to what is shown (`World.Hides.insert?`,
`World.Hides.erase?`).

Main result: `hidden_inert`.
-/

namespace NameRegistry

variable {μ σ α β : Type}

/-! ## Lossless filters -/

/-- What the filter shows of an entity widens to that entity. -/
def Filter.Restores (f : Filter μ α) : Prop :=
  ∀ m t e, f.narrow m t = some e → f.widen m e = t

theorem Filter.restores_matching (p : μ → α → Bool) : (matching p).Restores := by
  intro m t e h
  simp only [matching] at h
  split_ifs at h
  exact (Option.some.inj h).symm

theorem Filter.returns_matching (p : μ → α → Bool) : (matching p).Returns := by
  intro m e
  by_cases h : p m e <;> simp [matching, h]

/-- What the filter shows of an entity widens to that entity, and what it shows of an entity of the
view, if it does, is that entity. -/
structure Filter.Lossless (f : Filter μ α) : Prop where
  restores : ∀ m t e, f.narrow m t = some e → f.widen m e = t
  returns : f.Returns

namespace StoreRef

variable {s : StoreRef μ α}

/-- What a view of filters that restore shows of an entity widens to that entity. -/
theorem widen_of_narrowAll (hs : ∀ f ∈ s.filters, f.Restores) {m : μ} {t e : α}
    (h : narrowAll m s.filters t = some e) : s.widen m e = t := by
  induction s generalizing e with
  | root i =>
    obtain rfl := Option.some.inj h
    rfl
  | view p f ih =>
    simp only [filters, List.forall_mem_append, List.forall_mem_singleton] at hs
    rw [filters, narrowAll_append] at h
    obtain ⟨u, hu, hf⟩ := Option.bind_eq_some_iff.1 h
    have hn : f.narrow m u = some e := by simpa [narrowAll] using hf
    rw [widen, hs.2 m u e hn]
    exact ih hs.1 hu

/-- A view of filters that return shows an entity that all of them accept as itself. -/
theorem narrowAll_widen (hs : ∀ f ∈ s.filters, f.Returns) {m : μ} {e : α}
    (h : s.accepts m e) : narrowAll m s.filters (s.widen m e) = some e := by
  induction s generalizing e with
  | root i => rfl
  | view p f ih =>
    simp only [filters, List.forall_mem_append, List.forall_mem_singleton] at hs
    rw [accepts, Bool.and_eq_true] at h
    have hn : f.narrow m (f.widen m e) = some e := by
      refine (hs.2 m e).resolve_left fun hno => ?_
      have ha := h.1
      rw [Filter.accepts, hno] at ha
      cases ha
    rw [filters, widen, narrowAll_append, ih hs.1 h.2]
    simp [narrowAll, hn]

/-- An entity that all filters accept is what is shown of one entity, and of no other. -/
theorem narrowAll_eq_some_iff (hs : ∀ f ∈ s.filters, f.Lossless) {m : μ} {e : α}
    (h : s.accepts m e) (x : α) : narrowAll m s.filters x = some e ↔ x = s.widen m e := by
  constructor
  · intro hx
    exact (widen_of_narrowAll (fun f hf => (hs f hf).restores) hx).symm
  · rintro rfl
    exact narrowAll_widen (fun f hf => (hs f hf).returns) h

end StoreRef

/-! ## What a store does to what is shown -/

section

variable {N : α → Option α} {t e : α}

/-- An entity is a member if it is shown. -/
theorem mem_iff_mem_filterMap (hN : ∀ x, N x = some e ↔ x = t) (l : List α) :
    t ∈ l ↔ e ∈ l.filterMap N := by
  simp [List.mem_filterMap, hN]

/-- Taking an entity away takes away what is shown of it. -/
theorem filterMap_erase_of_iff [DecidableEq α] (hN : ∀ x, N x = some e ↔ x = t) (l : List α) :
    (l.erase t).filterMap N = (l.filterMap N).erase e := by
  induction l with
  | nil => rfl
  | cons x l ih =>
    by_cases hx : x = t
    · rw [hx, List.erase_cons_head, List.filterMap_cons_some ((hN t).2 rfl), List.erase_cons_head]
    · rw [List.erase_cons_tail (by simpa using hx)]
      cases hy : N x with
      | none => rw [List.filterMap_cons_none hy, List.filterMap_cons_none hy, ih]
      | some y =>
        have hne : y ≠ e := by
          rintro rfl
          exact hx ((hN x).1 hy)
        rw [List.filterMap_cons_some hy, List.filterMap_cons_some hy,
          List.erase_cons_tail (by simpa using hne), ih]

end

/-! ## Calls -/

/-- A call looks at the members of registries, and changes them, only for one of them. -/
def Call.Through (v : ℕ) : Call μ σ α β → Prop
  | .look r | .direct r _ | .add r _ | .find r _ | .remove r _ | .removeByName r _ => r = v
  | .shown _ | .seek _ _ | .insert _ _ | .erase _ _ => False
  | _ => True

/-- The same reaction in two worlds, and the worlds are related still. -/
def World.SameReaction {ρ : Type} (R : World μ σ α β → World μ σ α β → Prop)
    (o o' : World μ σ α β × Reaction μ σ α β ρ) : Prop :=
  R o.1 o'.1 ∧ o'.2 = o.2

/-- What is taken in or given up in both worlds or in neither, has the same consequences. -/
theorem World.react_store {ρ : Type} {R : World μ σ α β → World μ σ α β → Prop}
    {w w' : World μ σ α β} (h : R w w') (no : ρ) (yes : Reaction μ σ α β ρ)
    {o o' : Option (World μ σ α β)} : Option.Rel R o o' →
      SameReaction R (match o with | none => (w, .answer no) | some w => (w, yes))
        (match o' with | none => (w', .answer no) | some w' => (w', yes)) :=
  related_store (A := fun a a' => a' = a) h rfl rfl

theorem Call.Through.eq_of_resolve [Memory μ α] {C : Client μ σ α β} {v r : ℕ} {name : String}
    {w w' : World μ σ α β} {c : Call μ σ α β} {a : Except RegistryError (Option α) → c.Reply}
    (hc : c.Through v) (h : w.respond C c = (w', .resolve r name a)) : r = v := by
  have hr := h ▸ World.responds (C := C) w c
  cases hr
  exact hc

/-! ## Worlds -/

variable [DecidableEq α]

namespace World

variable {w : World Unit σ α β} {i : ℕ} {l : List α}

theorem insert?_ofDistinct (hl : w.stores[i]? = some (.ofDistinct l)) (t : α) :
    w.insert? (.root i) t = if t ∈ l then none else some (w.setMembers i (l ++ [t])) := by
  simp only [insert?_root, store_of_getElem? hl]
  by_cases h : t ∈ l
  · simp [Store.ofDistinct, Discipline.distinct, World.settle, Memory.settle, h]
  · simp [Store.ofDistinct, Discipline.distinct, World.settle, Memory.settle, h]

theorem erase?_ofDistinct (hl : w.stores[i]? = some (.ofDistinct l)) (t : α) :
    w.erase? (.root i) t = if t ∈ l then some (w.setMembers i (l.erase t)) else none := by
  simp only [erase?_root, store_of_getElem? hl]
  by_cases h : t ∈ l
  · simp [Store.ofDistinct, Discipline.distinct, ← List.erase_eq_eraseP', h]
  · simp [Store.ofDistinct, Discipline.distinct, h]

end World

/-- Two worlds that differ in the members of one store, of which a reference shows the same. -/
structure World.Hides (s : StoreRef Unit α) (w w' : World Unit σ α β) : Prop where
  client : w'.client = w.client
  channels : w'.channels = w.channels
  registries : w'.registries = w.registries
  stores : w'.stores.length = w.stores.length
  members : ∃ l l', w.stores[s.number]? = some (.ofDistinct l) ∧
    w'.stores[s.number]? = some (.ofDistinct l') ∧
    l'.filterMap (narrowAll () s.filters) = l.filterMap (narrowAll () s.filters)

namespace World.Hides

variable {s : StoreRef Unit α} {w w' : World Unit σ α β} (h : w.Hides s w')

include h

theorem registry_eq (r : ℕ) : w'.registry r = w.registry r := registry_of_eq h.registries r

theorem channel_eq (c : ℕ) : w'.channel c = w.channel c := channel_of_eq h.channels c

theorem nameOf_eq (r : ℕ) : w'.nameOf r = w.nameOf r := by
  funext e
  rw [nameOf, h.registry_eq, nameOf]

theorem shown_eq : w'.shown s = w.shown s := by
  obtain ⟨l, l', hl, hl', hshown⟩ := h.members
  rw [World.shown_eq, World.shown_eq, store_of_getElem? hl, store_of_getElem? hl']
  exact hshown

theorem direct_eq {v : ℕ} (hv : (w.registry v).store = s) : w'.direct v = w.direct v := by
  funext name
  rw [World.direct_eq, World.direct_eq, h.registry_eq, hv, h.shown_eq, h.nameOf_eq]

theorem listing_eq {v : ℕ} (hv : (w.registry v).store = s) : w'.listing v = w.listing v := by
  rw [listing, listing, h.registry_eq, hv, w'.len_eq, w.len_eq, h.shown_eq, h.nameOf_eq]

/-! ### Changes -/

theorem setClient (x : σ) : World.Hides s { w with client := x } { w' with client := x } :=
  { h with client := rfl }

theorem modifyRegistry (r : ℕ) (f : Registry Unit σ α β → Registry Unit σ α β) :
    (w.modifyRegistry r f).Hides s (w'.modifyRegistry r f) :=
  { h with registries := by rw [World.modifyRegistry, World.modifyRegistry, h.registries] }

theorem listen (c : ChannelRef Unit α) (change : Change) (action : β) :
    (w.listen c change action).Hides s (w'.listen c change action) :=
  { h with channels := by rw [World.listen, World.listen, h.channels] }

theorem setMembers {l l' : List α}
    (hl : l'.filterMap (narrowAll () s.filters) = l.filterMap (narrowAll () s.filters)) :
    (w.setMembers s.number l).Hides s (w'.setMembers s.number l') where
  __ := h
  stores := by
    rw [World.setMembers, World.setMembers, List.length_modify, List.length_modify, h.stores]
  members := by
    obtain ⟨_, _, hi, hi', -⟩ := h.members
    refine ⟨l, l', ?_, ?_, hl⟩
    · rw [setMembers_getElem? hi, if_pos rfl]
      rfl
    · rw [setMembers_getElem? hi', if_pos rfl]
      rfl

theorem openStore (d : Discipline Unit α) :
    World.Hides s { w with stores := w.stores ++ [⟨[], d⟩] }
      { w' with stores := w'.stores ++ [⟨[], d⟩] } where
  __ := h
  stores := by rw [List.length_append, List.length_append, h.stores]
  members := by
    obtain ⟨l, l', hl, hl', hshown⟩ := h.members
    exact ⟨l, l', Quiet.store (.openStore d) hl, Quiet.store (.openStore d) hl', hshown⟩

theorem openChannel :
    World.Hides s { w with channels := w.channels ++ [{}] }
      { w' with channels := w'.channels ++ [{}] } :=
  { h with channels := by rw [h.channels] }

theorem openRegistry (p : Parts Unit α) (hooks : Hooks Unit σ α) :
    World.Hides s { w with registries := w.registries ++ [{ p with hooks }] }
      { w' with registries := w'.registries ++ [{ p with hooks }] } :=
  { h with registries := by rw [h.registries] }

variable (lossless : ∀ f ∈ s.filters, f.Lossless)

include lossless

theorem insert? (e : α) : Option.Rel (World.Hides s) (w.insert? s e) (w'.insert? s e) := by
  rw [w.insert?_eq, w'.insert?_eq]
  split_ifs with ha
  · obtain ⟨l, l', hl, hl', hshown⟩ := h.members
    have hN := StoreRef.narrowAll_eq_some_iff lossless ha
    have same : s.widen () e ∈ l' ↔ s.widen () e ∈ l := by
      rw [mem_iff_mem_filterMap hN, mem_iff_mem_filterMap hN, hshown]
    rw [insert?_ofDistinct hl, insert?_ofDistinct hl']
    by_cases hm : s.widen () e ∈ l
    · rw [if_pos hm, if_pos (same.2 hm)]
      exact .none
    · rw [if_neg hm, if_neg (mt same.1 hm)]
      refine .some (h.setMembers ?_)
      rw [List.filterMap_append, List.filterMap_append, hshown]
  · exact .none

theorem erase? (e : α) : Option.Rel (World.Hides s) (w.erase? s e) (w'.erase? s e) := by
  rw [w.erase?_eq, w'.erase?_eq]
  split_ifs with ha
  · obtain ⟨l, l', hl, hl', hshown⟩ := h.members
    have hN := StoreRef.narrowAll_eq_some_iff lossless ha
    have same : s.widen () e ∈ l' ↔ s.widen () e ∈ l := by
      rw [mem_iff_mem_filterMap hN, mem_iff_mem_filterMap hN, hshown]
    rw [erase?_ofDistinct hl, erase?_ofDistinct hl']
    by_cases hm : s.widen () e ∈ l
    · rw [if_pos hm, if_pos (same.2 hm)]
      refine .some (h.setMembers ?_)
      rw [filterMap_erase_of_iff hN, filterMap_erase_of_iff hN, hshown]
    · rw [if_neg hm, if_neg (mt same.1 hm)]
      exact .none
  · exact .none

end World.Hides

namespace World.Hides

variable {s : StoreRef Unit α} {w w' : World Unit σ α β} {C : Client Unit σ α β} {v : ℕ}

/-- A call that looks only at what is shown gets the same answer. -/
theorem respond (h : w.Hides s w') (lossless : ∀ f ∈ s.filters, f.Lossless)
    (hv : (w.registry v).store = s) {c : Call Unit σ α β} (hc : c.Through v) :
    World.SameReaction (World.Hides s) (w.respond C c) (w'.respond C c) := by
  subst hv
  cases c with
  | openStore d =>
    simp only [World.respond, h.stores]
    exact ⟨h.openStore d, rfl⟩
  | openChannel =>
    simp only [World.respond, h.channels]
    exact ⟨h.channels ▸ h.openChannel, rfl⟩
  | openRegistry p hooks =>
    simp only [World.respond, h.registries]
    exact ⟨h.registries ▸ h.openRegistry p hooks, rfl⟩
  | parts r =>
    simp only [World.respond, h.registry_eq]
    exact ⟨h, rfl⟩
  | look r =>
    obtain rfl := hc
    simp only [World.respond, h.listing_eq rfl]
    exact ⟨h, rfl⟩
  | nameOf r e =>
    simp only [World.respond, h.nameOf_eq]
    exact ⟨h, rfl⟩
  | direct r name =>
    obtain rfl := hc
    simp only [World.respond, h.direct_eq rfl]
    exact ⟨h, rfl⟩
  | add r e =>
    obtain rfl := hc
    simp only [World.respond, h.direct_eq rfl, h.nameOf_eq, h.client, h.registry_eq,
      refuseInsert_listed]
    split_ifs
    · exact ⟨h.setClient _, rfl⟩
    · exact World.react_store h _ _ (h.insert? lossless e)
  | find r name =>
    obtain rfl := hc
    simp only [World.respond, h.direct_eq rfl, h.registry_eq]
    split
    · exact ⟨h, rfl⟩
    · split_ifs
      · exact ⟨h, rfl⟩
      · exact ⟨h, rfl⟩
  | missing r name =>
    simp only [World.respond, h.client, h.registry_eq]
    exact ⟨h.setClient _, rfl⟩
  | remove r e =>
    obtain rfl := hc
    simp only [World.respond, h.registry_eq, refuseErase_listed]
    exact World.react_store h _ _ (h.erase? lossless e)
  | removeByName r name =>
    obtain rfl := hc
    simp only [World.respond, h.direct_eq rfl, h.registry_eq, refuseErase_listed]
    cases w.direct r name with
    | none => exact ⟨h, rfl⟩
    | some e => exact World.react_store h _ _ (h.erase? lossless e)
  | subscribe r change action =>
    simp only [World.respond, h.registry_eq]
    exact ⟨h.listen _ change action, rfl⟩
  | addRule r rule =>
    simp only [World.respond, h.registry_eq]
    exact ⟨h.modifyRegistry r _, rfl⟩
  | applyRule r i name =>
    simp only [World.respond, h.registry_eq]
    split
    · exact ⟨h, rfl⟩
    · exact ⟨h, rfl⟩
  | settle e => exact ⟨h, rfl⟩
  | invoke action e => exact ⟨h, rfl⟩
  | shown | seek | insert | erase => exact hc.elim
  | listen c change action => exact ⟨h.listen c change action, rfl⟩
  | counts c =>
    simp only [World.respond, h.channel_eq]
    exact ⟨h, rfl⟩
  | fire c change e => exact ⟨h, rfl⟩

end World.Hides

/-! ## Steps -/

/-- The rules of a pass are those of one registry. -/
def Frame.Through (v : ℕ) : Frame μ σ α β → Prop
  | .pass r _ _ _ _ => r = v
  | _ => True

namespace State

/-- Two moments at which the same program runs, in worlds that differ only in what the registry
`v` does not show, and for which nothing is left to do in other registries. -/
structure Hides (v : ℕ) (s : StoreRef Unit α) (x x' : State Unit σ α β) : Prop where
  world : x.world.Hides s x'.world
  view : v < x.world.registries.length ∧ (x.world.registry v).store = s
  through : ∀ f ∈ x.stack, f.Through v
  stack : x'.stack = x.stack
  control : x'.control = x.control

variable {C : Client Unit σ α β} {v : ℕ} {s : StoreRef Unit α} {x x' y : State Unit σ α β}

theorem Hides.told_eq (h : x.Hides v s x') (c : ℕ) (change : Change) (place : ℕ) :
    x'.told c change place = x.told c change place := by
  obtain ⟨w, stack, p⟩ := x
  obtain ⟨w', stack', p'⟩ := x'
  obtain ⟨-, -, -, rfl, rfl⟩ := h
  rfl

/-- **Nothing comes of what is hidden.** What one of two such moments does in a step, the other
does too, and they stay such moments. -/
theorem Step.hides (h : Step C x y) (lossless : ∀ f ∈ s.filters, f.Lossless) (hx : x.Hides v s x')
    (hc : ∀ c k, x.control = .call c k → c.Through v) : ∃ y', Step C x' y' ∧ y.Hides v s y' := by
  obtain ⟨w', stack', p'⟩ := x'
  obtain ⟨hw, ⟨hlt, hv⟩, hth, rfl, rfl⟩ := hx
  -- The view keeps its parts.
  obtain ⟨hlt', hparts⟩ := h.grows.parts v hlt
  have hv' : v < y.world.registries.length ∧ (y.world.registry v).store = s :=
    ⟨hlt', (congrArg Parts.store hparts).trans hv⟩
  -- A call gets the same reaction.
  have respond {c k} (hk : x.control = .call c k) :
      World.SameReaction (World.Hides s) (x.world.respond C c) (w'.respond C c) :=
    hw.respond lossless hv (hc c k hk)
  cases h with
  | act h => exact ⟨_, .act (by rw [hw.client, h]), hw.setClient _, hv', hth, rfl, rfl⟩
  | @answer w w₁ stack c k a h =>
    rcases h' : w'.respond C c with ⟨w₁', _⟩
    obtain ⟨hw₁, rfl⟩ := h' ▸ h ▸ respond rfl
    exact ⟨_, .answer h', hw₁, hv', hth, rfl, rfl⟩
  | @tell w w₁ w₂ stack c k ch change e t a h ht =>
    rcases h' : w'.respond C c with ⟨w₁', _⟩
    obtain ⟨hw₁, rfl⟩ := h' ▸ h ▸ respond rfl
    obtain ⟨rfl, rfl⟩ := Prod.mk.inj ht
    refine ⟨_, .tell h' rfl, hw₁, hv', List.forall_mem_cons.2 ⟨trivial, hth⟩, ?_, rfl⟩
    simp only [← hw₁.channel_eq]
  | @start w w₁ stack c k r name a rule rest h hr =>
    obtain rfl := (hc c k rfl).eq_of_resolve h
    rcases h' : w'.respond C c with ⟨w₁', _⟩
    obtain ⟨hw₁, rfl⟩ := h' ▸ h ▸ respond rfl
    rw [← hw₁.registry_eq] at hr
    exact ⟨_, .start h' hr, hw₁.modifyRegistry r _, hv', List.forall_mem_cons.2 ⟨rfl, hth⟩, rfl,
      rfl⟩
  | @miss w w₁ stack c k r name a h hr =>
    obtain rfl := (hc c k rfl).eq_of_resolve h
    rcases h' : w'.respond C c with ⟨w₁', _⟩
    obtain ⟨hw₁, rfl⟩ := h' ▸ h ▸ respond rfl
    rw [← hw₁.registry_eq] at hr
    refine ⟨_, .miss h' hr, hw₁, hv', hth, rfl, ?_⟩
    exact congrArg (fun d => k (a (.ok (d name)))) (hw₁.direct_eq hv'.2)
  | @run w w₁ stack c k p a h =>
    rcases h' : w'.respond C c with ⟨w₁', _⟩
    obtain ⟨hw₁, rfl⟩ := h' ▸ h ▸ respond rfl
    exact ⟨_, .run h', hw₁, hv', List.forall_mem_cons.2 ⟨trivial, hth⟩, rfl, rfl⟩
  | delivered => exact ⟨_, .delivered, hw, hv', (List.forall_mem_cons.1 hth).2, rfl, rfl⟩
  | skip h =>
    exact ⟨_, .skip h, hw, hv', List.forall_mem_cons.2 ⟨trivial, (List.forall_mem_cons.1 hth).2⟩,
      rfl, rfl⟩
  | hear h he =>
    obtain ⟨rfl, rfl⟩ := Prod.mk.inj he
    exact ⟨_, .hear h rfl, hw, hv',
      List.forall_mem_cons.2 ⟨trivial, (List.forall_mem_cons.1 hth).2⟩, rfl, rfl⟩
  | next =>
    obtain ⟨rfl, hth⟩ := List.forall_mem_cons.1 hth
    exact ⟨_, .next, hw, hv', List.forall_mem_cons.2 ⟨rfl, hth⟩, rfl, rfl⟩
  | @close w stack r name d k =>
    obtain ⟨rfl, hth⟩ := List.forall_mem_cons.1 hth
    have hw' := hw.modifyRegistry r fun reg => { reg with inFlight := reg.inFlight.erase name }
    refine ⟨_, .close, hw', hv', hth, rfl, ?_⟩
    exact congrArg (fun d => k (.ok (d name))) (hw'.direct_eq hv'.2)
  | fail => exact ⟨_, .fail, hw.modifyRegistry _ _, hv', (List.forall_mem_cons.1 hth).2, rfl, rfl⟩
  | resume => exact ⟨_, .resume, hw, hv', (List.forall_mem_cons.1 hth).2, rfl, rfl⟩
  | @unwind w f =>
    refine ⟨_, .unwind, ?_, hv', (List.forall_mem_cons.1 hth).2, rfl, rfl⟩
    cases f with
    | pass r name => exact hw.modifyRegistry r _
    | delivery | resume => exact hw

theorem Hides.step (hx : x.Hides v s x') (lossless : ∀ f ∈ s.filters, f.Lossless)
    (hc : ∀ c k, x.control = .call c k → c.Through v) :
    Option.Rel (State.Hides v s) (x.step C) (x'.step C) := by
  cases h : x.step C with
  | none =>
    -- A moment that takes no step is like that only to one that takes none.
    obtain ⟨hnil, hp⟩ := step_eq_none_iff.1 h
    rw [step_eq_none_iff.2 ⟨hx.stack.trans hnil, by rwa [hx.control]⟩]
    exact .none
  | some y =>
    obtain ⟨y', hy', hy⟩ := (step_eq_some_iff.1 h).hides lossless hx hc
    rw [hy'.step_eq]
    exact .some hy

end State

/-! ## Runs -/

variable {C : Client Unit σ α β}

/-- Two runs that differ at the beginning only in what a view does not show, and in which the same
programs begin, do so at every moment, as long as all calls are made through the view. -/
theorem Run.hides {ρ ρ' : Run C} {v : ℕ} {s : StoreRef Unit α}
    (lossless : ∀ f ∈ s.filters, f.Lossless) (start : (ρ 0).Hides v s (ρ' 0))
    (programs : ∀ n, (ρ n).step C = none → (ρ' n).step C = none →
      (ρ' (n + 1)).control = (ρ (n + 1)).control)
    (through : ∀ n c k, (ρ n).control = .call c k → c.Through v) (n : ℕ) :
    (ρ n).Hides v s (ρ' n) :=
  Run.related start (fun n _ hx => hx.step lossless (through n))
    (fun _ _ _ hx => ⟨hx.world, hx.view, nofun, rfl, rfl⟩) programs n

/-- **Hidden members make no difference.** Let a registry `v`, at the end of any chain of views of
lossless filters, be over a store whose members are pairwise different; and let a second run begin
as the first one does, but with other members in the store, of which `v` shows the same. Let the
same programs begin in both runs, and let all that is done in the first, by programs, rules and
listeners, be done through `v`. Then at every moment the same program runs in both, with the same
answers, as all that it does next and all that is left to do is the same; the client's state is the
same; `v` shows the same; there are the same listeners; and every listener is told the same. -/
theorem hidden_inert (ρ ρ' : Run C) (v : ℕ) (l l' : List α)
    (view : v < (ρ 0).world.registries.length)
    (lossless : ∀ f ∈ ((ρ 0).world.registry v).store.filters, f.Lossless)
    (store : (ρ 0).world.stores[((ρ 0).world.registry v).store.number]? = some (.ofDistinct l))
    (rest : (ρ 0).stack = [])
    (other : ρ' 0 = ⟨(ρ 0).world.setMembers ((ρ 0).world.registry v).store.number l', [],
      (ρ 0).control⟩)
    (shown : (ρ' 0).world.shown ((ρ 0).world.registry v).store =
      (ρ 0).world.shown ((ρ 0).world.registry v).store)
    (programs : ∀ n, (ρ n).step C = none → (ρ' n).step C = none →
      (ρ' (n + 1)).control = (ρ (n + 1)).control)
    (through : ∀ n c k, (ρ n).control = .call c k → c.Through v) (n : ℕ) :
    (ρ' n).control = (ρ n).control ∧
      (ρ' n).stack = (ρ n).stack ∧
      (ρ' n).world.client = (ρ n).world.client ∧
      (ρ' n).world.listing v = (ρ n).world.listing v ∧
      (ρ' n).world.channels = (ρ n).world.channels ∧
      ∀ c change place, (ρ' n).told c change place = (ρ n).told c change place := by
  have start : (ρ 0).Hides v ((ρ 0).world.registry v).store (ρ' 0) := by
    have store' : (ρ' 0).world.stores[((ρ 0).world.registry v).store.number]? =
        some (.ofDistinct l') := by
      rw [other, World.setMembers_getElem? store, if_pos rfl]
      rfl
    rw [World.shown_eq, World.shown_eq, World.store_of_getElem? store,
      World.store_of_getElem? store'] at shown
    rw [other] at store' ⊢
    refine ⟨⟨rfl, rfl, rfl, ?_, l, l', store, store', shown⟩, ⟨view, rfl⟩, ?_, rest.symm, rfl⟩
    · rw [World.setMembers, List.length_modify]
    · simp [rest]
  have h := Run.hides lossless start programs through n
  exact ⟨h.control, h.stack, h.world.client, h.world.listing_eq h.view.2, h.world.channels,
    h.told_eq⟩

/-! A store of numbers, a view of those that are not zero, and a view of the halves of those that
are even. A listener of the last view notes what it is told, while one number is removed through it
and another one is added. -/

def halves : List (Filter Unit ℕ × String) :=
  [(.matching fun _ e => e ≠ 0, "u32"),
    (⟨fun _ e => if e % 2 = 0 then some (e / 2) else none, fun _ e => 2 * e⟩, "u32")]

/-- The store with the given members, and the program that removes and adds. -/
def halvesStart (members : List ℕ) : State Unit (List ℕ) ℕ Unit where
  world :=
    { memory := ()
      client := []
      stores := [.ofDistinct members]
      channels := [{}]
      registries := [{ numbers.through halves with hooks := .default }] }
  stack := []
  control := .call (.subscribe 0 .added ()) fun _ => .call (.remove 0 2) fun _ =>
    .call (.add 0 3) fun _ => .done (.ok ())

theorem lossless_halves : ∀ f ∈ (numbers.through halves).store.filters, f.Lossless := by
  simp only [halves, Parts.through, List.foldl_cons, List.foldl_nil, Parts.filtered, numbers,
    StoreRef.filters, List.nil_append, List.cons_append, List.forall_mem_cons]
  refine ⟨⟨Filter.restores_matching _, Filter.returns_matching _⟩,
    ⟨fun m t e h => ?_, fun m e => .inr (by simp)⟩, List.forall_mem_nil _⟩
  simp only at h ⊢
  split_ifs at h
  obtain rfl := Option.some.inj h
  omega

theorem through_halves (n : ℕ) (c) (k)
    (h : (Run.of notes (halvesStart [3, 4]) n).control = .call c k) : c.Through 0 := by
  match n with
  | 0 | 1 | 2 | 3 | 4 | 5 | 6 | 7 | _ + 8 => cases h <;> first | rfl | trivial

theorem programs_halves (n : ℕ) :
    (Run.of notes (halvesStart [4, 0, 5]) (n + 1)).control =
      (Run.of notes (halvesStart [3, 4]) (n + 1)).control := by
  match n with
  | 0 | 1 | 2 | 3 | 4 | 5 | 6 | _ + 7 => rfl

theorem hidden_inert_halves :
    ∃ ρ ρ' : Run notes, ((ρ 0).world.registry 0).toParts = numbers.through halves ∧
      (ρ 0).world.shown (.root 0) = [3, 4] ∧ (ρ' 0).world.shown (.root 0) = [4, 0, 5] ∧
      (ρ 7).world.client = [3] ∧ (ρ' 7).world.client = [3] ∧
      (ρ' 7).world.listing 0 = (ρ 7).world.listing 0 := by
  let ρ := Run.of notes (halvesStart [3, 4])
  let ρ' := Run.of notes (halvesStart [4, 0, 5])
  have h := hidden_inert ρ ρ' 0 [3, 4] [4, 0, 5] (by decide) lossless_halves rfl rfl rfl
    (by decide) (fun n _ _ => programs_halves n) through_halves 7
  have noted : (ρ 7).world.client = [3] := by decide
  exact ⟨ρ, ρ', rfl, rfl, rfl, noted, h.2.2.1.trans noted, h.2.2.2.1⟩

end NameRegistry
