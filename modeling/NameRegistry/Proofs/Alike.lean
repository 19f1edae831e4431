import NameRegistry.Proofs.Listeners
import Mathlib.Data.List.Forall2

/-!
# References that do the same

A registry reaches its store and its channel through filters. Which filters they are does not
matter, only what they do together. Here stores and channels are any that there are (`Stores`,
`Channels`): nothing depends on what they do when they are asked.

* `StoreRef.Alike`, `ChannelRef.Alike`, `Parts.Alike` : the filters together show, widen and accept
  the same.
* `World.Alike`, `State.Alike` : two moments that differ in the parts of one registry, which are
  alike, and in listeners that hear the same.
* `State.tells` : who is told of what in the next step.

**Alike moments go on alike** (`State.Alike.step`). They take the same step, and the moments after
it are alike again, as long as nobody asks for the parts themselves. So two runs in which the same
programs begin are the same to every program in them (`Run.alike`).
-/

namespace NameRegistry

variable {μ σ α β : Type}

/-! ## References -/

/-- Whether it is a view that is referred to. -/
def StoreRef.isView : StoreRef μ α → Bool
  | .root _ => false
  | .view _ _ => true

/-- Two references to one store behind filters that together do the same. -/
structure StoreRef.Alike (s s' : StoreRef μ α) : Prop where
  isView : s'.isView = s.isView
  number : s'.number = s.number
  narrow : ∀ m e, narrowAll m s'.filters e = narrowAll m s.filters e
  widen : ∀ m e, s'.widen m e = s.widen m e
  accepts : ∀ m e, s'.accepts m e = s.accepts m e

/-- Two references to one channel behind filters that together do the same. -/
structure ChannelRef.Alike (c c' : ChannelRef μ α) : Prop where
  number : c'.number = c.number
  narrow : ∀ m e, narrowAll m c'.filters e = narrowAll m c.filters e
  widen : ∀ m e, c'.widen m e = c.widen m e

/-- Two listeners that do the same to the same entities. -/
structure Listener.Alike (l l' : Listener μ α β) : Prop where
  action : l'.action = l.action
  narrow : ∀ m e, narrowAll m l'.filters e = narrowAll m l.filters e

/-- Parts that name the same and refer to the same behind filters that together do the same. -/
structure Parts.Alike (p p' : Parts μ α) : Prop where
  namer : p'.namer = p.namer
  typeName : p'.typeName = p.typeName
  store : p.store.Alike p'.store
  channel : p.channel.Alike p'.channel

/-- Registries with parts that are alike, and everything else the same. -/
structure Registry.Alike (reg reg' : Registry μ σ α β) : Prop where
  parts : reg.toParts.Alike reg'.toParts
  hooks : reg'.hooks = reg.hooks
  rules : reg'.rules = reg.rules
  inFlight : reg'.inFlight = reg.inFlight

theorem StoreRef.Alike.refl (s : StoreRef μ α) : s.Alike s :=
  ⟨rfl, rfl, fun _ _ => rfl, fun _ _ => rfl, fun _ _ => rfl⟩

theorem StoreRef.Alike.narrowAll_eq {s s' : StoreRef μ α} (h : s.Alike s') (m : μ) :
    narrowAll m s'.filters = narrowAll m s.filters :=
  funext (h.narrow m)

theorem ChannelRef.Alike.refl (c : ChannelRef μ α) : c.Alike c :=
  ⟨rfl, fun _ _ => rfl, fun _ _ => rfl⟩

theorem Listener.Alike.refl (l : Listener μ α β) : l.Alike l := ⟨rfl, fun _ _ => rfl⟩

theorem Parts.Alike.refl (p : Parts μ α) : p.Alike p := ⟨rfl, rfl, .refl _, .refl _⟩

theorem Registry.Alike.refl (reg : Registry μ σ α β) : reg.Alike reg := ⟨.refl _, rfl, rfl, rfl⟩

theorem ChannelRef.Alike.wrap {c c' : ChannelRef μ α} (h : c.Alike c') (l : Listener μ α β) :
    (c.wrap l).Alike (c'.wrap l) := by
  rw [ChannelRef.wrap_eq, ChannelRef.wrap_eq]
  refine ⟨rfl, fun m e => ?_⟩
  rw [narrowAll_append, narrowAll_append, h.narrow]

theorem Registry.Alike.typeDisplayName_eq {reg reg' : Registry μ σ α β} (h : reg.Alike reg') :
    reg'.typeDisplayName = reg.typeDisplayName := by
  rw [Registry.typeDisplayName, h.hooks, h.parts.typeName, Registry.typeDisplayName]

/-! ## Worlds -/

/-- Two worlds that differ in the parts of one registry, which are alike, and in listeners that
hear the same. -/
structure World.Alike (v : Nat) (w w' : World μ σ α β) : Prop where
  memory : w'.memory = w.memory
  client : w'.client = w.client
  stores : w'.stores = w.stores
  channels : w'.channels.length = w.channels.length
  listeners : ∀ c change, List.Forall₂ Listener.Alike ((w.channel c).listeners change)
    ((w'.channel c).listeners change)
  registries : w'.registries.length = w.registries.length
  registry : ∀ r, (w.registry r).Alike (w'.registry r)
  parts : ∀ r, r ≠ v → (w'.registry r).toParts = (w.registry r).toParts

namespace World.Alike

variable {v : Nat} {w w' : World μ σ α β} (h : w.Alike v w')

include h

/-! ### What is shown -/

theorem store_eq (i : Nat) : w'.store i = w.store i := by
  rw [World.store, h.stores, World.store]

theorem nameOf_eq (r : Nat) : w'.nameOf r = w.nameOf r := by
  funext e
  rw [World.nameOf, (h.registry r).parts.namer, h.memory, World.nameOf]

theorem counts_eq (c : Nat) : (w'.channel c).counts = (w.channel c).counts :=
  Prod.ext (h.listeners c .added).length_eq.symm (h.listeners c .removed).length_eq.symm

section

variable [Stores μ α]

theorem shown_eq {s s' : StoreRef μ α} (hs : s.Alike s') : w'.shown s' = w.shown s := by
  rw [World.shown_eq_filterMap, World.shown_eq_filterMap, h.store_eq, hs.number, h.memory,
    hs.narrowAll_eq]

theorem len_eq {s s' : StoreRef μ α} (hs : s.Alike s') : w'.len s' = w.len s := by
  match s, s', hs with
  | .root i, .root i', hs =>
    obtain rfl : i' = i := hs.number
    rw [World.len, World.len, h.memory, h.store_eq]
  | .view _ _, .view _ _, hs => rw [World.len_view, World.len_view, h.shown_eq hs]
  | .root _, .view _ _, hs | .view _ _, .root _, hs => cases hs.isView

theorem seek_fst_eq {s s' : StoreRef μ α} (hs : s.Alike s') (p : α → Bool) :
    (w'.seek s' p).1 = (w.seek s p).1 := by
  rw [World.seek_fst_eq, World.seek_fst_eq, h.store_eq, hs.number, h.memory,
    hs.narrowAll_eq]

theorem seek_eq (s : StoreRef μ α) (p : α → Bool) : w'.seek s p = w.seek s p := by
  induction s generalizing p with
  | root i => rw [World.seek, h.store_eq, h.memory, World.seek]
  | view s f ih => rw [World.seek, ih, h.memory, World.seek]

theorem direct_eq (r : Nat) : w'.direct r = w.direct r := by
  funext name
  rw [World.direct, h.nameOf_eq]
  exact h.seek_fst_eq (h.registry r).parts.store _

theorem listing_eq (r : Nat) : w'.listing r = w.listing r := by
  rw [World.listing, World.listing, h.shown_eq (h.registry r).parts.store,
    h.len_eq (h.registry r).parts.store, h.nameOf_eq, (h.registry r).typeDisplayName_eq,
    (h.registry r).rules]

end

/-! ### Changes -/

theorem setState (m : μ) (s : σ) :
    World.Alike v { w with memory := m, client := s } { w' with memory := m, client := s } :=
  { h with memory := rfl, client := rfl }

theorem setMemory (m : μ) : World.Alike v { w with memory := m } { w' with memory := m } :=
  { h with memory := rfl }

theorem setMembers (i : Nat) (l : List α) : (w.setMembers i l).Alike v (w'.setMembers i l) :=
  { h with stores := by rw [World.setMembers, World.setMembers, h.stores] }

theorem openStore (d : Discipline μ α) :
    World.Alike v { w with stores := w.stores ++ [⟨[], d⟩] }
      { w' with stores := w'.stores ++ [⟨[], d⟩] } :=
  { h with stores := by rw [h.stores] }

theorem openChannel :
    World.Alike v { w with channels := w.channels ++ [{}] }
      { w' with channels := w'.channels ++ [{}] } where
  __ := h
  channels := by rw [List.length_append, List.length_append, h.channels]
  listeners c change := by
    rw [World.channel_append, World.channel_append]
    exact h.listeners c change

theorem openRegistry (p : Parts μ α) (hooks : Hooks μ σ α) :
    World.Alike v { w with registries := w.registries ++ [{ p with hooks }] }
      { w' with registries := w'.registries ++ [{ p with hooks }] } where
  __ := h
  registries := by rw [List.length_append, List.length_append, h.registries]
  registry r := by
    rw [World.registry_append, World.registry_append, h.registries]
    split_ifs
    · exact .refl _
    · exact h.registry r
  parts r hr := by
    rw [World.registry_append, World.registry_append, h.registries]
    split_ifs
    · rfl
    · exact h.parts r hr

theorem modifyRegistry (r : Nat) {f : Registry μ σ α β → Registry μ σ α β}
    (hf : ∀ reg reg', reg.Alike reg' → (f reg).Alike (f reg'))
    (hp : ∀ reg, (f reg).toParts = reg.toParts) :
    (w.modifyRegistry r f).Alike v (w'.modifyRegistry r f) where
  __ := h
  registries := by
    rw [World.modifyRegistry, World.modifyRegistry, List.length_modify, List.length_modify,
      h.registries]
  registry r' := by
    rw [World.registry_modifyRegistry, World.registry_modifyRegistry, h.registries]
    split_ifs
    · exact hf _ _ (h.registry r')
    · exact h.registry r'
  parts r' hr := by
    rw [World.registry_modifyRegistry, World.registry_modifyRegistry, h.registries]
    split_ifs
    · rw [hp, hp, h.parts r' hr]
    · exact h.parts r' hr

theorem addRule (r : Nat) (rule : Rule β) : (w.addRule r rule).Alike v (w'.addRule r rule) :=
  h.modifyRegistry r (fun _ _ hr => { hr with rules := by rw [hr.rules] }) fun _ => rfl

theorem mark (r : Nat) (name : String) : (w.mark r name).Alike v (w'.mark r name) :=
  h.modifyRegistry r (fun _ _ hr => { hr with inFlight := by rw [hr.inFlight] }) fun _ => rfl

theorem release (r : Nat) (name : String) : (w.release r name).Alike v (w'.release r name) :=
  h.modifyRegistry r (fun _ _ hr => { hr with inFlight := by rw [hr.inFlight] }) fun _ => rfl

theorem listen {ch ch' : ChannelRef μ α} (hc : ch.Alike ch') (change : Change) (action : β) :
    (w.listen ch change action).Alike v (w'.listen ch' change action) where
  __ := h
  channels := by
    rw [World.listen, World.listen, List.length_modify, List.length_modify, h.channels]
  listeners c change' := by
    rw [World.listeners_listen, World.listeners_listen, hc.number, h.channels]
    split_ifs
    · exact List.rel_append (h.listeners c change') (.cons (hc.wrap _) .nil)
    · exact h.listeners c change'

theorem settle [Memory μ α] (e : α) :
    (w'.settle e).1 = (w.settle e).1 ∧ (w.settle e).2.Alike v (w'.settle e).2 := by
  simp only [World.settle, h.memory]
  exact ⟨trivial, { h with memory := rfl }⟩

theorem commit (i : Nat) (change : List α × μ) : (w.commit i change).Alike v (w'.commit i change) :=
  { h.setMembers i change.1 with memory := rfl }

variable [Stores μ α]

theorem refuseInsert {s s' : StoreRef μ α} (hs : s.Alike s') (e : α) :
    (w.refuseInsert s e).Alike v (w'.refuseInsert s' e) := by
  rw [w.refuseInsert_eq, w'.refuseInsert_eq, h.memory, hs.accepts, hs.number, hs.widen]
  split_ifs
  · simp only [World.refuseInsert, h.memory, h.store_eq]
    exact h.commit _ _
  · exact h

theorem refuseErase {s s' : StoreRef μ α} (hs : s.Alike s') (e : α) :
    (w.refuseErase s e).Alike v (w'.refuseErase s' e) := by
  rw [w.refuseErase_eq, w'.refuseErase_eq, h.memory, hs.accepts, hs.number, hs.widen]
  split_ifs
  · simp only [World.refuseErase, h.memory, h.store_eq]
    exact h.commit _ _
  · exact h

theorem erase? {s s' : StoreRef μ α} (hs : s.Alike s') (e : α) :
    Option.Rel (World.Alike v) (w.erase? s e) (w'.erase? s' e) := by
  rw [w.erase?_eq, w'.erase?_eq, h.memory, hs.accepts, hs.number, hs.widen]
  split_ifs
  · simp only [World.erase?, h.memory, h.store_eq]
    cases Stores.erase w.memory s.number (w.store s.number) (s.widen w.memory e) with
    | none => exact .none
    | some change => exact .some (h.commit _ change)
  · exact .none

theorem insert? [Memory μ α] {s s' : StoreRef μ α} (hs : s.Alike s') (e : α) :
    Option.Rel (World.Alike v) (w.insert? s e) (w'.insert? s' e) := by
  rw [w.insert?_eq, w'.insert?_eq, h.memory, hs.accepts, hs.number, hs.widen]
  split_ifs
  · obtain ⟨he, hw⟩ := h.settle (s.widen w.memory e)
    simp only [World.insert?]
    rw [he, hw.memory, hw.store_eq]
    generalize (w.settle (s.widen w.memory e)).1 = t
    cases Stores.insert (w.settle (s.widen w.memory e)).2.memory s.number _ t with
    | none => exact .none
    | some change => exact .some (hw.commit _ change)
  · exact .none

end World.Alike

/-! ## Calls -/

/-- Reactions that ask for the same to be done. -/
inductive Reaction.Alike {ρ : Type} : Reaction μ σ α β ρ → Reaction μ σ α β ρ → Prop
  | answer (a : ρ) : Alike (.answer a) (.answer a)
  | tell {c c' : ChannelRef μ α} (hc : c.Alike c') (change : Change) (e : α) (a : ρ) :
      Alike (.tell c change e a) (.tell c' change e a)
  | resolve (r : Nat) (name : String) (a : Except RegistryError (Option α) → ρ) :
      Alike (.resolve r name a) (.resolve r name a)
  | run (p : Prog μ σ α β Verdict) (a : Verdict → ρ) : Alike (.run p a) (.run p a)

/-- What the library does about a call in two worlds that are alike. -/
def World.RespondAlike {ρ : Type} (v : Nat) (o o' : World μ σ α β × Reaction μ σ α β ρ) : Prop :=
  o.1.Alike v o'.1 ∧ o.2.Alike o'.2

/-- What follows when a store takes an entity in or gives one up in both of two related worlds, or
refuses to in both. -/
theorem World.related_store {ρ : Type} {R : World μ σ α β → World μ σ α β → Prop}
    {A : Reaction μ σ α β ρ → Reaction μ σ α β ρ → Prop} {w w' : World μ σ α β} (h : R w w')
    {no : ρ} {yes yes' : Reaction μ σ α β ρ} (hn : A (.answer no) (.answer no)) (hy : A yes yes')
    {o o' : Option (World μ σ α β)} : Option.Rel R o o' →
      let x : World μ σ α β × Reaction μ σ α β ρ :=
        match o with | none => (w, .answer no) | some w => (w, yes)
      let x' : World μ σ α β × Reaction μ σ α β ρ :=
        match o' with | none => (w', .answer no) | some w' => (w', yes')
      R x.1 x'.1 ∧ A x.2 x'.2 := by
  intro ho
  cases ho with
  | none => exact ⟨h, hn⟩
  | some hw => exact ⟨hw, hy⟩

/-- A store that takes an entity in or gives one up, or refuses to, does so in two worlds that are
alike. The worlds `w` and `w'` are those that a refusal leaves. -/
theorem World.Alike.respond_store {ρ : Type} {v : Nat} {w w' : World μ σ α β} (h : w.Alike v w')
    {o o' : Option (World μ σ α β)} (no : ρ) {yes yes' : Reaction μ σ α β ρ}
    (hr : yes.Alike yes') : Option.Rel (World.Alike v) o o' →
      World.RespondAlike v (match o with | none => (w, .answer no) | some w => (w, yes))
        (match o' with | none => (w', .answer no) | some w' => (w', yes')) :=
  World.related_store h (.answer no) hr

/-- An action is subscribed in two worlds that are alike to channels behind filters that do the
same. -/
theorem World.Alike.subscribe [Channels μ α] {v : Nat} {w w' : World μ σ α β} (h : w.Alike v w')
    {c c' : ChannelRef μ α} (hc : c.Alike c') (change : Change) (action : β) :
    World.RespondAlike v (w.subscribe c change action) (w'.subscribe c' change action) := by
  have hl := h.listen hc change action
  simp only [World.subscribe, hl.memory, hc.number, hl.counts_eq]
  rcases Channels.greet _ _ _ _ with ⟨_ | e, memory⟩
  · exact ⟨hl.setMemory memory, .answer _⟩
  · exact ⟨hl.setMemory memory, .tell (.refl _) _ _ _⟩

variable {C : Client μ σ α β} {v : Nat}

section

variable [Memory μ α] [Stores μ α] [Channels μ α]

theorem World.Alike.respond {w w' : World μ σ α β} (h : w.Alike v w') (c : Call μ σ α β)
    (hc : c ≠ .parts v) : World.RespondAlike v (w.respond C c) (w'.respond C c) := by
  cases c with
  | openStore d =>
    simp only [World.respond]
    rw [h.stores]
    exact ⟨h.stores ▸ h.openStore d, .answer _⟩
  | openChannel =>
    simp only [World.respond, h.channels]
    exact ⟨h.openChannel, .answer _⟩
  | openRegistry p hooks =>
    simp only [World.respond, h.registries]
    exact ⟨h.openRegistry p hooks, .answer _⟩
  | parts r =>
    simp only [World.respond]
    rw [h.parts r fun hr => hc (hr ▸ rfl)]
    exact ⟨h, .answer _⟩
  | look r =>
    simp only [World.respond, h.listing_eq]
    exact ⟨h, .answer _⟩
  | nameOf r e =>
    simp only [World.respond, h.nameOf_eq]
    exact ⟨h, .answer _⟩
  | direct r name =>
    simp only [World.respond, h.direct_eq]
    exact ⟨h, .answer _⟩
  | add r e =>
    simp only [World.respond, h.direct_eq, h.nameOf_eq, h.memory, h.client, (h.registry r).hooks,
      (h.registry r).typeDisplayName_eq]
    split_ifs
    · exact ⟨h.setState _ _, .answer _⟩
    · exact (h.refuseInsert (h.registry r).parts.store e).respond_store _
        (.tell (h.registry r).parts.channel _ _ _) (h.insert? (h.registry r).parts.store e)
  | find r name =>
    simp only [World.respond, h.direct_eq, (h.registry r).inFlight]
    split
    · exact ⟨h, .answer _⟩
    · split_ifs
      · exact ⟨h, .answer _⟩
      · exact ⟨h, .resolve _ _ _⟩
  | missing r name =>
    simp only [World.respond, h.memory, h.client, (h.registry r).hooks,
      (h.registry r).typeDisplayName_eq]
    exact ⟨h.setState _ _, .answer _⟩
  | remove r e =>
    exact (h.refuseErase (h.registry r).parts.store e).respond_store _
      (.tell (h.registry r).parts.channel _ _ _) (h.erase? (h.registry r).parts.store e)
  | removeByName r name =>
    simp only [World.respond, h.direct_eq]
    cases w.direct r name with
    | none => exact ⟨h, .answer _⟩
    | some e =>
      exact (h.refuseErase (h.registry r).parts.store e).respond_store _
        (.tell (h.registry r).parts.channel _ _ _) (h.erase? (h.registry r).parts.store e)
  | subscribe r change action => exact h.subscribe (h.registry r).parts.channel change action
  | addRule r rule =>
    simp only [World.respond, (h.registry r).rules]
    exact ⟨h.addRule r rule, .answer _⟩
  | applyRule r i name =>
    simp only [World.respond, (h.registry r).rules]
    split
    · exact ⟨h, .answer _⟩
    · exact ⟨h, .run _ _⟩
  | settle e =>
    obtain ⟨he, hw⟩ := h.settle e
    simp only [World.respond, he]
    exact ⟨hw, .answer _⟩
  | invoke action e =>
    obtain ⟨he, hw⟩ := h.settle e
    simp only [World.respond, World.enter, he]
    exact ⟨hw, .run _ _⟩
  | shown s =>
    simp only [World.respond, h.shown_eq (.refl s)]
    exact ⟨h, .answer _⟩
  | seek s p =>
    simp only [World.respond, h.seek_eq, h.memory]
    exact ⟨h, .answer _⟩
  | insert s e =>
    exact (h.refuseInsert (.refl s) e).respond_store _ (.answer _) (h.insert? (.refl s) e)
  | erase s e =>
    exact (h.refuseErase (.refl s) e).respond_store _ (.answer _) (h.erase? (.refl s) e)
  | listen c change action => exact h.subscribe (.refl c) change action
  | counts c =>
    simp only [World.respond, h.counts_eq]
    exact ⟨h, .answer _⟩
  | fire c change e => exact ⟨h, .tell (.refl c) _ _ _⟩

end

/-! ## Steps -/

/-- Frames with the same work, for listeners that hear the same. -/
inductive Frame.Alike : Frame μ σ α β → Frame μ σ α β → Prop
  | delivery {rest rest' : List (Listener μ α β)} (event : Event α) (told : Nat)
      (after : Prog μ σ α β Verdict) : List.Forall₂ Listener.Alike rest rest' →
      Alike (.delivery event told rest after) (.delivery event told rest' after)
  | pass (r : Nat) (name d : String) (rest : List (Rule β))
      (k : Except RegistryError (Option α) → Prog μ σ α β Verdict) :
      Alike (.pass r name d rest k) (.pass r name d rest k)
  | resume (k : Verdict → Prog μ σ α β Verdict) : Alike (.resume k) (.resume k)

theorem Frame.Alike.refl (f : Frame μ σ α β) : f.Alike f := by
  cases f with
  | delivery event told rest after =>
    exact .delivery _ _ _ (List.forall₂_same.2 fun l _ => .refl l)
  | pass => exact .pass _ _ _ _ _
  | resume => exact .resume _

theorem forall₂_filterMap {γ δ ι : Type} {R : γ → δ → Prop} {f : ι → Option γ} {g : ι → Option δ}
    (h : ∀ i, Option.Rel R (f i) (g i)) (l : List ι) :
    List.Forall₂ R (l.filterMap f) (l.filterMap g) := by
  induction l with
  | nil => exact .nil
  | cons i l ih =>
    have hi := h i
    rw [List.filterMap_cons, List.filterMap_cons]
    generalize f i = x at hi
    generalize g i = y at hi
    cases hi with
    | none => exact ih
    | some hi => exact .cons hi ih

theorem rel_getElem? {γ δ : Type} {R : γ → δ → Prop} {l : List γ} {m : List δ}
    (h : List.Forall₂ R l m) (i : Nat) : Option.Rel R l[i]? m[i]? := by
  induction h generalizing i with
  | nil => exact .none
  | cons hr _ ih =>
    cases i with
    | zero => exact .some hr
    | succ i => exact ih i

theorem World.Alike.turn [Channels μ α] {w w' : World μ σ α β} (h : w.Alike v w')
    (event : Event α) (told : Nat) {rest rest' : List (Listener μ α β)}
    (hrest : List.Forall₂ Listener.Alike rest rest') :
    (w'.turn event told rest').1 = (w.turn event told rest).1 ∧
      List.Forall₂ Listener.Alike (w.turn event told rest).2.1 (w'.turn event told rest').2.1 ∧
      (w.turn event told rest).2.2.Alike v (w'.turn event told rest').2.2 := by
  simp only [World.turn, h.memory, h.counts_eq, hrest.length_eq]
  rcases Channels.turn _ _ _ _ _ with ⟨_ | ⟨entity, places⟩, memory⟩
  · exact ⟨rfl, hrest, h.setMemory memory⟩
  · exact ⟨rfl, forall₂_filterMap (fun p => rel_getElem? (h.listeners _ p.1) p.2) places,
      h.setMemory memory⟩

namespace State

/-- What a listener is told in the next step: the action that it does, and the entity. -/
def tells [Channels μ α] (s : State μ σ α β) : Option (β × α) :=
  match s.control, s.stack with
  | .done _, .delivery event told rest _ :: _ =>
    match s.world.turn event told rest with
    | (event, l :: _, w) => (narrowAll w.memory l.filters event.entity).map (l.action, ·)
    | (_, [], _) => none
  | _, _ => none

/-- Two moments at which the same program runs, in worlds that are alike. -/
structure Alike (v : Nat) (s s' : State μ σ α β) : Prop where
  world : s.world.Alike v s'.world
  stack : List.Forall₂ Frame.Alike s.stack s'.stack
  control : s'.control = s.control

variable {w w' : World μ σ α β} {stack stack' : List (Frame μ σ α β)}

theorem Alike.tells_eq [Channels μ α] {s s' : State μ σ α β} (h : s.Alike v s') :
    s'.tells = s.tells := by
  obtain ⟨w, stack, p⟩ := s
  obtain ⟨w', stack', p'⟩ := s'
  obtain ⟨hw, hstack, rfl⟩ := h
  cases hstack with
  | nil => cases p' <;> rfl
  | cons hf _ =>
    cases hf with
    | pass | resume => cases p' <;> rfl
    | @delivery rest rest' event told after hrest =>
      cases p' with
      | done =>
        obtain ⟨hevent, hleft, hturn⟩ := hw.turn event told hrest
        simp only [State.tells]
        generalize World.turn _ _ _ rest' = x' at hevent hleft hturn
        generalize World.turn _ _ _ rest = x at hevent hleft hturn
        obtain ⟨event, left, w⟩ := x
        obtain ⟨event', left', w'⟩ := x'
        obtain rfl : event' = event := hevent
        cases hleft with
        | nil => rfl
        | cons hl _ =>
          simp only [hl.narrow, hl.action, show w'.memory = w.memory from hturn.memory]
      | panic | act | call => rfl

/-! ### What the machine does -/

theorem Alike.advance [Stores μ α] (hw : w.Alike v w')
    (hstack : List.Forall₂ Frame.Alike stack stack') (r : Nat) (name : String)
    (k : Except RegistryError (Option α) → Prog μ σ α β Verdict)
    (rules : List (Rule β)) :
    (advance C w stack r name k rules).Alike v (advance C w' stack' r name k rules) := by
  cases rules with
  | nil =>
    refine ⟨hw.release r name, hstack, ?_⟩
    rw [State.advance, State.advance, (hw.release r name).direct_eq]
  | cons rule rest => exact ⟨hw, .cons (.pass _ _ _ _ _) hstack, rfl⟩

theorem Alike.enter [Memory μ α] (hw : w.Alike v w') (action : β) (e : α) :
    (w.enter C action e).1.Alike v (w'.enter C action e).1 ∧
      (w'.enter C action e).2 = (w.enter C action e).2 := by
  obtain ⟨he, hw⟩ := hw.settle e
  simp only [World.enter, he]
  exact ⟨hw, trivial⟩

theorem Alike.fire [Memory μ α] (hw : w.Alike v w') (hstack : List.Forall₂ Frame.Alike stack stack')
    {c c' : ChannelRef μ α} (hc : c.Alike c') (change : Change) (e : α)
    (after : Prog μ σ α β Verdict) :
    (fire w stack c change e after).Alike v (fire w' stack' c' change e after) := by
  obtain ⟨ht, hw'⟩ := hw.settle (c.widen w.memory e)
  simp only [State.fire]
  rw [hw.memory, hc.widen, hc.number, ht]
  exact ⟨hw', .cons (.delivery _ _ _ (hw'.listeners _ _)) hstack, rfl⟩

variable [Memory μ α] [Stores μ α] [Channels μ α]

theorem Alike.back (hw : w.Alike v w') (hstack : List.Forall₂ Frame.Alike stack stack')
    (verdict : Verdict) {f f' : Frame μ σ α β} (hf : f.Alike f') :
    (back C w stack verdict f).Alike v (back C w' stack' verdict f') := by
  cases hf with
  | @delivery rest rest' event told after hrest =>
    obtain ⟨hevent, hleft, hturn⟩ := hw.turn event told hrest
    simp only [State.back]
    generalize World.turn _ _ _ rest' = x' at hevent hleft hturn
    generalize World.turn _ _ _ rest = x at hevent hleft hturn
    obtain ⟨event, left, w⟩ := x
    obtain ⟨event', left', w'⟩ := x'
    obtain rfl : event' = event := hevent
    cases hleft with
    | nil => exact ⟨hturn, hstack, rfl⟩
    | @cons l l' left left' hl hleft =>
      have hstack := List.Forall₂.cons (Frame.Alike.delivery event' (told + 1) after hleft) hstack
      simp only [hl.narrow, hl.action, show w'.memory = w.memory from hturn.memory]
      cases narrowAll w.memory l.filters event'.entity with
      | none => exact ⟨hturn, hstack, rfl⟩
      | some e =>
        obtain ⟨hw, hp⟩ := Alike.enter (C := C) hturn l.action e
        exact ⟨hw, hstack, hp⟩
  | pass r name d rest k =>
    cases verdict with
    | error source => exact ⟨hw.release r name, hstack, rfl⟩
    | ok => exact .advance hw hstack r name k rest
  | resume k => exact ⟨hw, hstack, rfl⟩

theorem Alike.perform (hw : w.Alike v w') (hstack : List.Forall₂ Frame.Alike stack stack')
    (c : Call μ σ α β) (k : c.Reply → Prog μ σ α β Verdict) (hc : c ≠ .parts v) :
    (perform C w stack c k).Alike v (perform C w' stack' c k) := by
  obtain ⟨hw, hr⟩ := hw.respond (C := C) c hc
  simp only [State.perform]
  generalize w'.respond C c = o' at hw hr
  generalize w.respond C c = o at hw hr
  obtain ⟨w, a⟩ := o
  obtain ⟨w', a'⟩ := o'
  cases hr with
  | answer a => exact ⟨hw, hstack, rfl⟩
  | tell hch change e a => exact .fire hw hstack hch change e (k a)
  | resolve r name a =>
    simp only [(hw.registry r).rules]
    exact .advance (hw.mark r name) hstack r name _ _
  | run p a => exact ⟨hw, .cons (.resume _) hstack, rfl⟩

/-- **Alike moments go on alike.** What one of them does in a step, the other does too. -/
theorem Alike.step {s s' : State μ σ α β} (h : s.Alike v s')
    (hp : ∀ k, s.control ≠ .call (.parts v) k) :
    Option.Rel (State.Alike v) (s.step C) (s'.step C) := by
  obtain ⟨w, stack, p⟩ := s
  obtain ⟨w', stack', p'⟩ := s'
  obtain ⟨hw, hstack, rfl⟩ := h
  cases p' with
  | done verdict =>
    cases hstack with
    | nil => exact .none
    | cons hf hstack => exact .some (.back hw hstack verdict hf)
  | panic message =>
    cases hstack with
    | nil => exact .none
    | cons hf hstack =>
      refine .some ⟨?_, hstack, rfl⟩
      cases hf with
      | pass r name => exact hw.release r name
      | delivery | resume => exact hw
  | act f k =>
    simp only [State.step]
    rw [hw.memory, hw.client]
    exact .some ⟨hw.setState _ _, hstack, rfl⟩
  | call c k => exact .some (.perform hw hstack c k fun hc => by subst hc; exact hp k rfl)

end State

/-! ## Runs -/

variable [Memory μ α] [Stores μ α] [Channels μ α]

/-- Two runs that are alike at the beginning, and in which the same programs begin, are alike at
every moment, as long as nobody asks for the parts that differ. -/
theorem Run.alike {ρ ρ' : Run C} (start : (ρ 0).Alike v (ρ' 0))
    (programs : ∀ n, (ρ n).step C = none → (ρ' n).step C = none →
      (ρ' (n + 1)).control = (ρ (n + 1)).control)
    (sealed : ∀ n k, (ρ n).control ≠ .call (.parts v) k) (n : ℕ) : (ρ n).Alike v (ρ' n) :=
  Run.related start (fun n _ h => h.step (sealed n)) (fun _ _ _ hs => ⟨hs.world, .nil, rfl⟩)
    programs n

end NameRegistry
